import OpenSound.Proofs.Delivery
import OpenSound.Proofs.Registration
/-!
# Failures of handlers

What a handler reports has no influence on serving. Two handlers are alike if they do the same in the
same situation, whatever they and all others report there. If a table is served in one run and a table
with handlers alike in another, each step of one run is matched by the other: the same calls, the same
closes, hence the same receives (`Dispatcher.Serves.alike`). So the two runs cannot be told apart but
by the reports.
-/

namespace OpenSound

/-- The call with nothing reported. -/
def Call.muted (call : Call) : Call :=
  { call with reaction := { call.reaction with failure := none } }

theorem Call.closes_muted (calls : List Call) :
    (calls.map Call.muted).any (·.reaction.closes) = calls.any (·.reaction.closes) := by
  rw [List.any_map]
  rfl

/-- Pasts that differ in reports alone still do so after calls that differ in reports alone. -/
theorem Call.map_muted_reverse_append {calls calls' earlier earlier' : List Call}
    (hcalls : calls.map muted = calls'.map muted) (hearlier : earlier.map muted = earlier'.map muted) :
    (calls.reverse ++ earlier).map muted = (calls'.reverse ++ earlier').map muted := by
  rw [List.map_append, List.map_append, List.map_reverse, List.map_reverse, hcalls, hearlier]

/-- Two handlers of one name that close the connection in the same situations. What they report may
differ, and what others have reported before must not matter. -/
structure Handler.Alike (h h' : Handler) : Prop where
  name_eq : h.name = h'.name
  closes_eq : ∀ earlier earlier' m, earlier.map Call.muted = earlier'.map Call.muted →
    (h.react earlier m).closes = (h'.react earlier' m).closes

/-- Tables with the same patterns in the same order, and handlers alike. -/
def Methods.Alike (ms ms' : Methods Handler) : Prop :=
  List.Forall₂ (fun entry entry' => entry.1 = entry'.1 ∧ entry.2.Alike entry'.2) ms.entries ms'.entries

def Dispatcher.RoutesAlike : (routes routes' : List (Pattern × Handler)) → Prop :=
  List.Forall₂ fun route route' => route.1 = route'.1 ∧ route.2.Alike route'.2

/-! ### Calls -/

section Calls

variable {earlier earlier' : List Call}

theorem Handler.Alike.muted_call {h h' : Handler} (halike : h.Alike h')
    (hearlier : earlier.map Call.muted = earlier'.map Call.muted) (m : Message) :
    (h.call earlier m).muted = (h'.call earlier' m).muted := by
  simp only [Handler.call, Call.muted, halike.name_eq, halike.closes_eq earlier earlier' m hearlier]

theorem Handler.muted_callEach {handlers handlers' : List Handler}
    (halike : List.Forall₂ Handler.Alike handlers handlers')
    (hearlier : earlier.map Call.muted = earlier'.map Call.muted) (m : Message) :
    (callEach m handlers earlier).map Call.muted = (callEach m handlers' earlier').map Call.muted := by
  induction halike generalizing earlier earlier' with
  | nil => rfl
  | cons hfirst _ ih =>
    have hcall := hfirst.muted_call hearlier m
    rw [callEach, callEach, List.map_cons, List.map_cons, hcall, ih]
    rw [List.map_cons, List.map_cons, hcall, hearlier]

namespace Dispatcher.RoutesAlike

variable {d d' : Dispatcher Handler}

theorem handlersFor {routes routes' : List (Pattern × Handler)} (halike : RoutesAlike routes routes')
    (address : String) :
    List.Forall₂ Handler.Alike ((mk routes).handlersFor address) ((mk routes').handlersFor address) := by
  rw [Dispatcher.handlersFor, Dispatcher.handlersFor, List.forall₂_map_left_iff,
    List.forall₂_map_right_iff]
  refine (List.rel_filter (fun route route' hroute => ?_) halike).imp fun _ _ hroute => hroute.2
  show route.1.accepts address = true ↔ route'.1.accepts address = true
  rw [hroute.1]

theorem muted_dispatchAll (halike : RoutesAlike d.routes d'.routes)
    (hearlier : earlier.map Call.muted = earlier'.map Call.muted) (messages : List Message) :
    (d.dispatchAll earlier messages).map Call.muted =
      (d'.dispatchAll earlier' messages).map Call.muted := by
  induction messages generalizing earlier earlier' with
  | nil => rfl
  | cons m messages ih =>
    have hcalls : (d.dispatch earlier m).map Call.muted = (d'.dispatch earlier' m).map Call.muted :=
      Handler.muted_callEach (halike.handlersFor m.address) hearlier m
    rw [dispatchAll, dispatchAll, List.map_append, List.map_append, hcalls,
      ih (Call.map_muted_reverse_append hcalls hearlier)]

theorem closes_eq (halike : RoutesAlike d.routes d'.routes)
    (hearlier : earlier.map Call.muted = earlier'.map Call.muted) (limit : Nat) (r : Receive) :
    d.closes limit earlier r = d'.closes limit earlier' r := by
  rw [closes, closes, ← Call.closes_muted, halike.muted_dispatchAll hearlier, Call.closes_muted]

end Dispatcher.RoutesAlike

end Calls

/-! ### Servings -/

/-- With handlers alike the same outcomes are taken, and serving ends for the same reason. -/
theorem Dispatcher.Serves.alike {d d' : Dispatcher Handler}
    (halike : RoutesAlike d.routes d'.routes) {limit : Nat} {earlier earlier' : List Call}
    {outcomes reads : List Receive} {ending : Ending} (h : d.Serves limit earlier outcomes reads ending)
    (hearlier : earlier.map Call.muted = earlier'.map Call.muted) :
    d'.Serves limit earlier' outcomes reads ending := by
  induction h generalizing earlier' with
  | failed reason => exact .failed reason
  | closedReceiving hnone hcloses => exact .closedReceiving hnone hcloses
  | unreadable hread => exact .unreadable hread
  | foundClosed hread hcloses =>
    exact .foundClosed hread (by rw [← halike.closes_eq hearlier, hcloses])
  | delivered hread hopen _ ih =>
    exact .delivered hread (by rw [← halike.closes_eq hearlier, hopen])
      (ih (Call.map_muted_reverse_append (halike.muted_dispatchAll hearlier _) hearlier))

/-! ### Tables that are served -/

theorem Dispatcher.routesAlike_of_routes {entries entries' : List (String × Handler)}
    (halike : List.Forall₂ (fun entry entry' => entry.1 = entry'.1 ∧ entry.2.Alike entry'.2)
      entries entries') {routes routes' : List (Pattern × Handler)}
    (hroutes : List.Forall₂ Routes entries routes) (hroutes' : List.Forall₂ Routes entries' routes') :
    RoutesAlike routes routes' := by
  induction halike generalizing routes routes' with
  | nil =>
    cases hroutes
    cases hroutes'
    exact .nil
  | cons hentry _ ih =>
    obtain ⟨route, routes, hroute, hrest, rfl⟩ := List.forall₂_cons_left_iff.1 hroutes
    obtain ⟨route', routes', hroute', hrest', rfl⟩ := List.forall₂_cons_left_iff.1 hroutes'
    obtain ⟨htext, hhandler⟩ := hentry
    refine .cons ⟨?_, by rwa [hroute.2, hroute'.2]⟩ (ih hrest hrest')
    have hread := hroute.1
    rw [htext, hroute'.1] at hread
    exact (Except.ok.inj hread).symm

namespace Endpoint

/-- Served with tables that are alike, an endpoint takes the same outcomes of receives, makes the same
calls and ends in the same state with the same result: the runs differ in what handlers report and in
nothing else. In both, every message of the datagrams that were taken reaches every handler that matches
it. -/
theorem serve_alike (e : Endpoint) {ms ms' : Methods Handler} (halike : ms.Alike ms')
    {d d' : Dispatcher Handler} (hbuild : Dispatcher.build (some ms) = .ok d)
    (hbuild' : Dispatcher.build (some ms') = .ok d') :
    (e.serve (some ms)).result = (e.serve (some ms')).result ∧
      (e.serve (some ms)).endpoint = (e.serve (some ms')).endpoint ∧
      (e.serve (some ms)).calls.map Call.muted = (e.serve (some ms')).calls.map Call.muted ∧
      ∃ received,
        e.socket.incoming = received ++ (e.serve (some ms)).endpoint.socket.incoming ∧
        Delivers e.connection.config.maxPacketSize d received (e.serve (some ms)) ∧
        Delivers e.connection.config.maxPacketSize d' received (e.serve (some ms')) := by
  have halike' := Dispatcher.routesAlike_of_routes halike (Dispatcher.build_eq_ok_iff.1 hbuild).2
    (Dispatcher.build_eq_ok_iff.1 hbuild').2
  obtain ⟨received, hincoming, -, hdelivers⟩ := e.exists_delivers hbuild
  obtain ⟨received', hincoming', -, hdelivers'⟩ := e.exists_delivers hbuild'
  have hsame : (e.serve (some ms)).result = (e.serve (some ms')).result ∧
      (e.serve (some ms)).endpoint = (e.serve (some ms')).endpoint ∧
      (e.serve (some ms)).calls.map Call.muted = (e.serve (some ms')).calls.map Call.muted := by
    by_cases hclosed : e.isClosed = true
    · rw [serve_of_isClosed hbuild hclosed, serve_of_isClosed hbuild' hclosed]
      exact ⟨rfl, rfl, rfl⟩
    rw [Bool.not_eq_true] at hclosed
    cases hattached : e.connection.attached with
    | false =>
      rw [serve_of_not_attached hbuild hattached, serve_of_not_attached hbuild' hattached]
      exact ⟨rfl, rfl, rfl⟩
    | true =>
      obtain ⟨reads, ending, hserves, hserve⟩ := exists_serves_of_serve hbuild hattached hclosed
      rw [hserve, serve_of_serves hbuild' hattached hclosed (hserves.alike halike' rfl)]
      exact ⟨rfl, rfl, halike'.muted_dispatchAll rfl _⟩
  obtain ⟨hresult, hendpoint, hcalls⟩ := hsame
  -- The same is left in both runs, so the same was taken.
  rw [← hendpoint, hincoming] at hincoming'
  obtain rfl := List.append_cancel_right hincoming'
  exact ⟨hresult, hendpoint, hcalls, received, hincoming, hdelivers, hdelivers'⟩

end Endpoint

/-- As `Methods.pair`, but it is the other handler that reports failures. -/
def Methods.swapped : Methods Handler := ⟨[
  ("/a", ⟨"failing", fun _ _ => ⟨false, none⟩⟩),
  ("/*", ⟨"closing", fun earlier _ => ⟨3 ≤ earlier.length, some "tired"⟩⟩)]⟩

theorem Methods.alike_pair_swapped : Methods.pair.Alike .swapped := by
  refine .cons ⟨rfl, rfl, fun _ _ _ _ => rfl⟩ (.cons ⟨rfl, rfl, fun earlier earlier' _ h => ?_⟩ .nil)
  have hlength := congrArg List.length h
  rw [List.length_map, List.length_map] at hlength
  show decide (3 ≤ earlier.length) = decide (3 ≤ earlier'.length)
  rw [hlength]

theorem Dispatcher.exists_build_swapped : ∃ d, build (some Methods.swapped) = .ok d := by
  obtain ⟨-, hroutes⟩ := build_eq_ok_iff.1 build_pair
  obtain _ | ⟨⟨ha, -⟩, _ | ⟨⟨hany, -⟩, _⟩⟩ := hroutes
  have hcompile : ∀ entry ∈ Methods.swapped.entries, ∃ p, Pattern.compile entry.1 = .ok p :=
    List.forall_mem_cons.2 ⟨⟨_, ha⟩, List.forall_mem_singleton.2 ⟨_, hany⟩⟩
  obtain ⟨routes, hroutes⟩ := exists_routes hcompile
  exact ⟨⟨routes⟩, build_eq_ok_iff.2 ⟨List.cons_ne_nil _ _, hroutes⟩⟩

theorem Endpoint.serve_alike_listening :
    let served := (listening [.plain, .plain, .plain]).serve (some .pair)
    let served' := (listening [.plain, .plain, .plain]).serve (some .swapped)
    Methods.pair.Alike .swapped ∧ served.calls ≠ served'.calls ∧
      served.calls.map Call.muted = served'.calls.map Call.muted ∧ served.result = served'.result ∧
      served.endpoint = served'.endpoint ∧ served'.endpoint.socket.incoming = [.plain] := by
  intro served served'
  obtain ⟨d', hbuild'⟩ := Dispatcher.exists_build_swapped
  obtain ⟨hresult, hendpoint, hcalls, -⟩ := serve_alike (listening [.plain, .plain, .plain])
    Methods.alike_pair_swapped Dispatcher.build_pair hbuild'
  exact ⟨Methods.alike_pair_swapped, by decide +kernel, hcalls, hresult, hendpoint, by decide +kernel⟩

end OpenSound
