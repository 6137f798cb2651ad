import OpenSound.Proofs.Serving
import Mathlib.Data.List.Forall2
/-!
# Delivery

However often an endpoint is served, and however each serving ends, its receives are made in order and
every outcome is taken once: what one serving leaves is where the next begins. What a serving passes on
are all messages of all datagrams that it took and that can be read, in order of arrival and of the
wire, each to all handlers that match it. No handler can cut a datagram short. What it can do is close
the connection, and then the datagram is the last one for good.
-/

namespace OpenSound

/-- Who is called, and with what, whatever comes of it. -/
def Call.made (call : Call) : String × Message := (call.handler, call.message)

theorem Handler.made_callEach (m : Message) (handlers : List Handler) (earlier : List Call) :
    (callEach m handlers earlier).map Call.made = handlers.map fun h => (h.name, m) := by
  induction handlers generalizing earlier with
  | nil => rfl
  | cons h handlers ih =>
    rw [callEach, List.map_cons, ih, List.map_cons]
    rfl

/-- The reactions of handlers have no influence on who is called with what. -/
theorem Dispatcher.made_dispatchAll (d : Dispatcher Handler) (earlier : List Call)
    (messages : List Message) :
    (d.dispatchAll earlier messages).map Call.made =
      messages.flatMap fun m => (d.handlersFor m.address).map fun h => (h.name, m) := by
  induction messages generalizing earlier with
  | nil => rfl
  | cons m messages ih =>
    rw [dispatchAll, List.map_append, ih, dispatch, Handler.made_callEach, List.flatMap_cons]

namespace Endpoint

def serveAll : List (Methods Handler) → Endpoint → List Served × Endpoint
  | [], e => ([], e)
  | methods :: tables, e =>
    let served := e.serve (some methods)
    let (others, last) := serveAll tables served.endpoint
    (served :: others, last)

/-- What a serving has done with the outcomes that it took, by a dispatcher and with datagrams cut to a
limit. -/
structure Delivers (limit : Nat) (d : Dispatcher Handler) (received : List Receive)
    (served : Served) : Prop where
  /-- All messages that came were passed on, in order. -/
  calls_eq : served.calls = d.dispatchAll [] (received.flatMap (Receive.messages limit))
  /-- So who is called with what does not depend on what any handler does. -/
  made_eq : served.calls.map Call.made = received.flatMap fun r => (r.messages limit).flatMap fun m =>
    (d.handlersFor m.address).map fun h => (h.name, m)
  /-- Only the last outcome can be other than a datagram that can be read. -/
  readable : ∀ r ∈ received.dropLast, r.Readable limit
  /-- Nothing is taken after an outcome on which the connection was closed. -/
  last : ∀ before r after, received = before ++ r :: after →
    d.closes limit (d.dispatchAll [] (before.flatMap (Receive.messages limit))).reverse r = true →
      after = [] ∧ served.endpoint.isClosed = true
  /-- There was a reason not to go on. -/
  ended : served.endpoint.isClosed = true ∨ served.endpoint.connection.attached = false ∨
    (∃ r, received.getLast? = some r ∧ ¬ r.Readable limit) ∨ served.endpoint.socket.incoming = []

variable {d : Dispatcher Handler} {limit : Nat}

theorem delivers_nil {e : Endpoint} (h : e.isClosed = true ∨ e.connection.attached = false) :
    Delivers limit d [] ⟨.ok (), [], e⟩ where
  calls_eq := rfl
  made_eq := rfl
  readable := by simp
  last := by simp
  ended := by
    rcases h with hclosed | hdetached
    · exact .inl hclosed
    · exact .inr (.inl hdetached)

theorem made_of_calls_eq {received : List Receive} {calls : List Call}
    (hcalls : calls = d.dispatchAll [] (received.flatMap (Receive.messages limit))) :
    calls.map Call.made = received.flatMap fun r => (r.messages limit).flatMap fun m =>
      (d.handlersFor m.address).map fun h => (h.name, m) := by
  rw [hcalls, Dispatcher.made_dispatchAll, List.flatMap_assoc]

section Serves

variable {e : Endpoint} {reads : List Receive} {ending : Ending}

theorem delivers_of_prefix (hserves : d.Serves limit [] e.socket.outcomes reads ending)
    (hopen : e.isClosed = false) (incoming : List Receive) :
    Delivers limit d reads ⟨ending.result, d.dispatchAll [] (reads.flatMap (Receive.messages limit)),
      (e.closeIf ending.isClosed).withIncoming incoming⟩ where
  calls_eq := rfl
  made_eq := made_of_calls_eq rfl
  readable := by
    obtain ⟨before, last, rfl, hbefore, -⟩ := hserves.exists_last
    simpa using hbefore
  last := by
    intro before r after hreads hcloses
    rw [e.isClosed_after hopen]
    exact hserves.eq_nil_of_closes hreads (by rwa [List.append_nil])
  ended := by
    obtain ⟨before, last, rfl, -, hlast⟩ := hserves.exists_last
    rw [e.isClosed_after hopen, List.getLast?_append, List.getLast?_singleton]
    cases ending with
    | foundClosed => exact .inl rfl
    | closedReceiving => exact .inl rfl
    | failed reason =>
      cases hlast
      exact .inr (.inr (.inl ⟨_, rfl, Receive.not_readable_of_none rfl⟩))
    | unreadable closed fault =>
      exact .inr (.inr (.inl ⟨_, rfl, Receive.not_readable_of_error hlast.1⟩))

theorem delivers_of_drained (hserves : d.Serves limit [] e.socket.outcomes reads ending)
    (hreads : reads = e.socket.outcomes) :
    Delivers limit d e.socket.incoming
      ⟨ending.result, d.dispatchAll [] (reads.flatMap (Receive.messages limit)),
        (e.closeIf ending.isClosed).withIncoming []⟩ := by
  have hcalls : d.dispatchAll [] (reads.flatMap (Receive.messages limit)) =
      d.dispatchAll [] (e.socket.incoming.flatMap (Receive.messages limit)) := by
    rw [hreads, Socket.outcomes, List.flatMap_append, List.flatMap_singleton,
      Receive.messages_of_not_readable (Receive.not_readable_of_none rfl), List.append_nil]
  have hreadable : ∀ r ∈ e.socket.incoming, r.Readable limit := by
    obtain ⟨before, last, hlast, hbefore, -⟩ := hserves.exists_last
    rw [hreads, Socket.outcomes] at hlast
    rwa [(List.append_inj' hlast rfl).1]
  exact {
    calls_eq := hcalls
    made_eq := made_of_calls_eq hcalls
    readable := fun r hr => hreadable r (List.dropLast_subset _ hr)
    last := by
      intro before r after hincoming hcloses
      have hall : reads = before ++ r :: (after ++ [.fault false Socket.drained]) := by
        rw [hreads, Socket.outcomes, hincoming, List.append_assoc, List.cons_append]
      have hnil := (hserves.eq_nil_of_closes hall (by rwa [List.append_nil])).1
      simp at hnil
    ended := .inr (.inr (.inr rfl)) }

end Serves

theorem exists_delivers (e : Endpoint) {methods : Option (Methods Handler)}
    (hbuild : Dispatcher.build methods = .ok d) :
    ∃ received,
      e.socket.incoming = received ++ (e.serve methods).endpoint.socket.incoming ∧
      (e.serve methods).endpoint.isClosed =
        (e.isClosed || closesDuring received (e.serve methods).calls) ∧
      Delivers e.connection.config.maxPacketSize d received (e.serve methods) := by
  obtain ⟨hidle, hserve⟩ | ⟨-, hopen, reads, ending, hserves, hserve⟩ := e.serve_cases hbuild
  · rw [hserve]
    exact ⟨[], rfl, by simp [closesDuring], delivers_nil hidle⟩
  · rw [hserve]
    simp only [e.isClosed_after hopen, hopen, Bool.false_or]
    -- A receive that finds nothing left takes no outcome.
    rcases List.prefix_concat_iff.1 hserves.reads_prefix with hall | hprefix
    · have hdrop : e.socket.incoming.drop reads.length = [] := by
        rw [hall, List.length_append, List.length_singleton]
        exact List.drop_eq_nil_of_le (Nat.le_succ _)
      rw [hdrop]
      refine ⟨_, (List.append_nil _).symm, ?_, delivers_of_drained hserves hall⟩
      simp [hserves.isClosed_eq, hall, closesDuring, Receive.closes]
    · exact ⟨reads, (List.prefix_iff_eq_append.1 hprefix).symm, hserves.isClosed_eq,
        delivers_of_prefix hserves hopen _⟩

/-! ### One serving after the other -/

theorem config_serve (e : Endpoint) (methods : Option (Methods Handler)) :
    (e.serve methods).endpoint.connection.config = e.connection.config := by
  obtain ⟨closed, incoming, hserve⟩ := e.exists_endpoint_serve methods
  rw [hserve, connection_withIncoming, config_closeIf]

theorem serveAll_of_isClosed {tables : List (Methods Handler)} {ds : List (Dispatcher Handler)}
    (hbuild : List.Forall₂ (fun methods d => Dispatcher.build (some methods) = .ok d) tables ds)
    {e : Endpoint} (hclosed : e.isClosed = true) :
    serveAll tables e = (tables.map fun _ => ⟨.ok (), [], e⟩, e) := by
  induction hbuild with
  | nil => rfl
  | cons hfirst _ ih => rw [serveAll, serve_of_isClosed hfirst hclosed, ih, List.map_cons]

/-- All servings together take the outcomes of receives in order, each exactly once, and leave the
rest, and so do the first so many of them. Nothing closes the endpoint but receives and handlers. Each
serving delivers what it takes; after one in which the endpoint was closed none takes anything or calls
a handler. -/
theorem serveAll_delivers (e : Endpoint) {tables : List (Methods Handler)}
    {ds : List (Dispatcher Handler)}
    (hbuild : List.Forall₂ (fun methods d => Dispatcher.build (some methods) = .ok d) tables ds) :
    ∃ runs : List (List Receive × Served),
      runs.map Prod.snd = (serveAll tables e).1 ∧
      e.socket.incoming =
        (runs.map Prod.fst).flatten ++ (serveAll tables e).2.socket.incoming ∧
      (∀ before run after, runs = before ++ run :: after →
        e.socket.incoming =
            (before.map Prod.fst).flatten ++ (run.1 ++ run.2.endpoint.socket.incoming) ∧
          run.2.endpoint.isClosed =
            (e.isClosed || (before ++ [run]).any fun run => closesDuring run.1 run.2.calls)) ∧
      List.Forall₂ (fun d run => Delivers e.connection.config.maxPacketSize d run.1 run.2) ds runs ∧
      runs.Pairwise fun run later =>
        run.2.endpoint.isClosed = true → later.1 = [] ∧ later.2.calls = [] := by
  induction hbuild generalizing e with
  | nil => exact ⟨[], rfl, rfl, by simp, .nil, .nil⟩
  | @cons methods d tables ds hfirst hothers ih =>
    obtain ⟨received, hincoming, hclosing, hdelivers⟩ := e.exists_delivers hfirst
    obtain ⟨runs, hserved, hrest, hevery, hruns, hpairwise⟩ := ih (e.serve (some methods)).endpoint
    rw [config_serve] at hruns
    refine ⟨(received, e.serve (some methods)) :: runs, ?_, ?_, ?_, .cons hdelivers hruns,
      .cons (fun later hlater hclosed => ?_) hpairwise⟩
    · rw [List.map_cons, hserved, serveAll]
    · rw [hincoming, hrest, List.map_cons, List.flatten_cons, List.append_assoc]
      rfl
    · intro before run after hsplit
      cases before with
      | nil =>
        cases hsplit
        exact ⟨hincoming, by rw [hclosing]; simp⟩
      | cons first before =>
        cases hsplit
        obtain ⟨hothersIncoming, hothersClosing⟩ := hevery before run after rfl
        refine ⟨?_, ?_⟩
        · rw [hincoming, hothersIncoming, List.map_cons, List.flatten_cons, List.append_assoc]
        · rw [hothersClosing, hclosing, List.cons_append, List.any_cons, Bool.or_assoc]
    · -- All that is left to come is left in the end, so nothing was taken in between.
      rw [serveAll_of_isClosed hothers hclosed] at hserved hrest
      have hnothing := List.flatten_eq_nil_iff.1 (List.self_eq_append_left.1 hrest)
      have hmem : later.2 ∈ runs.map Prod.snd := List.mem_map_of_mem hlater
      rw [hserved] at hmem
      obtain ⟨_, -, hsame⟩ := List.mem_map.1 hmem
      exact ⟨hnothing _ (List.mem_map_of_mem hlater), by rw [← hsame]⟩

/-- A datagram that cannot be read ends the first of three servings, and a close the second. -/
theorem serveAll_delivers_listening :
    List.Forall₂ (fun methods d => Dispatcher.build (some methods) = .ok d) [.pair, .pair, .pair]
        [.pair, .pair, .pair] ∧
      ∃ first second third : List Receive × Served,
        [first.2, second.2, third.2] = (serveAll [.pair, .pair, .pair]
          (listening [.plain, .garbled, .plain, .plain, .plain])).1 ∧
        first.1 = [.plain, .garbled] ∧ second.1 = [.plain, .plain] ∧ third.1 = [] ∧
        Delivers 65507 .pair first.1 first.2 ∧ Delivers 65507 .pair second.1 second.2 ∧
        Delivers 65507 .pair third.1 third.2 := by
  have hbuild : List.Forall₂ (fun methods d => Dispatcher.build (some methods) = .ok d)
      [.pair, .pair, .pair] [.pair, .pair, .pair] :=
    .cons Dispatcher.build_pair (.cons Dispatcher.build_pair (.cons Dispatcher.build_pair .nil))
  obtain ⟨runs, hserved, -, hevery, hruns, -⟩ := serveAll_delivers
    (listening [.plain, .garbled, .plain, .plain, .plain]) hbuild
  have hleft : ((serveAll [.pair, .pair, .pair]
      (listening [.plain, .garbled, .plain, .plain, .plain])).1.map (·.endpoint.socket.incoming)) =
        [[.plain, .plain, .plain], [.plain], [.plain]] := by
    decide +kernel
  obtain _ | ⟨hfirst, _ | ⟨hsecond, _ | ⟨hthird, _ | _⟩⟩⟩ := hruns
  rename_i first second third
  rw [← hserved] at hleft
  simp only [List.map_cons, List.map_nil, List.cons.injEq, and_true] at hleft
  obtain ⟨hleft₁, hleft₂, hleft₃⟩ := hleft
  have htaken₁ := (hevery [] first [second, third] rfl).1
  have htaken₂ := (hevery [first] second [third] rfl).1
  have htaken₃ := (hevery [first, second] third [] rfl).1
  simp only [List.map_cons, List.map_nil, List.flatten_cons, List.flatten_nil, List.append_nil,
    List.nil_append, hleft₁, hleft₂, hleft₃] at htaken₁ htaken₂ htaken₃
  change [Receive.plain, .garbled] ++ [.plain, .plain, .plain] = _ at htaken₁
  have hfirst₁ := List.append_cancel_right htaken₁
  rw [← hfirst₁] at htaken₂ htaken₃
  change [Receive.plain, .garbled] ++ ([.plain, .plain] ++ [.plain]) = _ at htaken₂
  have hsecond₁ := List.append_cancel_right (List.append_cancel_left htaken₂)
  rw [← hsecond₁] at htaken₃
  change [Receive.plain, .garbled] ++ [.plain, .plain] ++ ([] ++ [.plain]) = _ at htaken₃
  have hthird₁ := List.append_cancel_right (List.append_cancel_left htaken₃)
  exact ⟨hbuild, first, second, third, hserved, hfirst₁.symm, hsecond₁.symm, hthird₁.symm,
    hfirst, hsecond, hthird⟩

end Endpoint

end OpenSound
