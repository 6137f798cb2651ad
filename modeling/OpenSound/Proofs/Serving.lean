import OpenSound.Connection.Endpoint
import OpenSound.Proofs.Matching
/-!
# How serving goes

What the loop does to an open connection depends on the outcomes of its receives and on the reactions
of the handlers, and on nothing else. `Dispatcher.Serves` says which outcomes it takes and why it ends:
it goes on as long as a datagram arrives that can be read and nothing closes the connection meanwhile.
`exists_serves` says that the loop does just this, and that all it leaves behind is an endpoint that is
closed or not, with fewer receives to come. From then on nothing is proved about the loop itself: what
holds of every serving is an induction on `Dispatcher.Serves`.
-/

namespace OpenSound

/-! ### Calls -/

namespace Dispatcher

variable (d : Dispatcher Handler)

@[simp] theorem dispatchAll_nil (earlier : List Call) : d.dispatchAll earlier [] = [] := rfl

theorem dispatchAll_append (earlier : List Call) (ms ns : List Message) :
    d.dispatchAll earlier (ms ++ ns) =
      d.dispatchAll earlier ms ++
        d.dispatchAll ((d.dispatchAll earlier ms).reverse ++ earlier) ns := by
  induction ms generalizing earlier with
  | nil => rfl
  | cons m ms ih =>
    simp only [List.cons_append, dispatchAll, ih, List.reverse_append, List.append_assoc]

end Dispatcher

/-! ### Outcomes of receives -/

namespace Receive

/-- What a datagram reads as, cut to the limit. There is none if the receive fails or never
completes. -/
def packet? (limit : Nat) : Receive → Option (Except Error Packet)
  | datagram _ bytes => some (Packet.decode (bytes.take limit))
  | fault _ _ => none
  | closedWaiting => none

def messages (limit : Nat) (r : Receive) : List Message :=
  match r.packet? limit with
  | some (.ok p) => p.messages
  | some (.error _) => []
  | none => []

/-- Whether an outcome is a datagram that can be read. -/
def Readable (limit : Nat) (r : Receive) : Prop := ∃ p, r.packet? limit = some (.ok p)

variable {limit : Nat} {r : Receive}

theorem messages_of_packet? {p : Packet} (hread : r.packet? limit = some (.ok p)) :
    r.messages limit = p.messages := by
  simp only [messages, hread]

theorem messages_of_not_readable (hunread : ¬ r.Readable limit) : r.messages limit = [] := by
  unfold messages
  split
  · rename_i p hread
    exact absurd ⟨p, hread⟩ hunread
  · rfl
  · rfl

theorem not_readable_of_error {fault : Error} (hread : r.packet? limit = some (.error fault)) :
    ¬ r.Readable limit := by
  intro h
  obtain ⟨p, hp⟩ := h
  rw [hread] at hp
  cases hp

theorem messages_datagram_cases (limit : Nat) (closes : Bool) (bytes : Bytes) :
    (datagram closes bytes).messages limit = [] ∨
      ∃ p, Packet.decode (bytes.take limit) = .ok p ∧
        (datagram closes bytes).messages limit = p.messages := by
  cases hdecode : Packet.decode (bytes.take limit) with
  | error fault =>
    have hread : (datagram closes bytes).packet? limit = some (.error fault) := congrArg some hdecode
    exact .inl (messages_of_not_readable (not_readable_of_error hread))
  | ok p => exact .inr ⟨p, rfl, messages_of_packet? (congrArg some hdecode)⟩

theorem not_readable_of_none (hnone : r.packet? limit = none) : ¬ r.Readable limit := by
  intro h
  obtain ⟨p, hp⟩ := h
  rw [hnone] at hp
  cases hp

end Receive

/-- The outcomes of the receives to come, down to the one that finds nothing left. -/
def Socket.outcomes (s : Socket) : List Receive := s.incoming ++ [.fault false Socket.drained]

/-- Whether the connection is closed on an outcome that arrives after some calls, be it while it was
waited for or by a handler that is called for it. -/
def Dispatcher.closes (d : Dispatcher Handler) (limit : Nat) (earlier : List Call) (r : Receive) :
    Bool :=
  r.closes || (d.dispatchAll earlier (r.messages limit)).any (·.reaction.closes)

theorem Dispatcher.closes_of_not_readable (d : Dispatcher Handler) {limit : Nat} {r : Receive}
    (hunread : ¬ r.Readable limit) (earlier : List Call) : d.closes limit earlier r = r.closes := by
  rw [closes, Receive.messages_of_not_readable hunread, dispatchAll_nil, List.any_nil, Bool.or_false]

/-- Whether the connection is closed on the way: during one of these receives, or in one of these
calls. -/
def closesDuring (reads : List Receive) (calls : List Call) : Bool :=
  reads.any Receive.closes || calls.any (·.reaction.closes)

/-! ### Endings -/

/-- Why serving an open connection ends. -/
inductive Ending where
  /-- The connection is found closed before a receive. -/
  | foundClosed
  /-- The connection is closed during a receive that then fails or never completes. -/
  | closedReceiving
  /-- A receive fails, and the connection is open. -/
  | failed (reason : String)
  /-- A datagram cannot be read; the connection may have been closed while it was waited for. -/
  | unreadable (closed : Bool) (fault : Error)

namespace Ending

def result : Ending → Except ConnectionError Unit
  | foundClosed => .ok ()
  | closedReceiving => .ok ()
  | failed reason => .error (.receiveFailed reason)
  | unreadable _ fault => .error (.core fault)

def isClosed : Ending → Bool
  | foundClosed => true
  | closedReceiving => true
  | failed _ => false
  | unreadable closed _ => closed

/-- What the last outcome is that serving takes before it ends like this. -/
def Follows (limit : Nat) (last : Receive) : Ending → Prop
  | foundClosed => last.Readable limit
  | closedReceiving => last.packet? limit = none ∧ last.closes = true
  | failed reason => last = .fault false reason
  | unreadable closed fault => last.packet? limit = some (.error fault) ∧ last.closes = closed

end Ending

/-! ### Servings -/

/-- Serving an open connection after some calls takes the outcomes `reads` of those to come, and ends
for a reason. -/
inductive Dispatcher.Serves (d : Dispatcher Handler) (limit : Nat) :
    (earlier : List Call) → (outcomes reads : List Receive) → Ending → Prop
  | failed {earlier rest} (reason : String) :
      d.Serves limit earlier (.fault false reason :: rest) [.fault false reason] (.failed reason)
  | closedReceiving {earlier r rest} (hnone : r.packet? limit = none) (hcloses : r.closes = true) :
      d.Serves limit earlier (r :: rest) [r] .closedReceiving
  | unreadable {earlier r rest fault} (hread : r.packet? limit = some (.error fault)) :
      d.Serves limit earlier (r :: rest) [r] (.unreadable r.closes fault)
  | foundClosed {earlier r rest} (hread : r.Readable limit)
      (hcloses : d.closes limit earlier r = true) :
      d.Serves limit earlier (r :: rest) [r] .foundClosed
  | delivered {earlier r rest reads ending} (hread : r.Readable limit)
      (hopen : d.closes limit earlier r = false)
      (hrest : d.Serves limit ((d.dispatchAll earlier (r.messages limit)).reverse ++ earlier) rest
        reads ending) :
      d.Serves limit earlier (r :: rest) (r :: reads) ending

namespace Dispatcher.Serves

variable {d : Dispatcher Handler} {limit : Nat} {earlier : List Call}
  {outcomes reads before after : List Receive} {r : Receive} {ending : Ending}

theorem reads_prefix (h : d.Serves limit earlier outcomes reads ending) : reads <+: outcomes := by
  induction h with
  | failed => exact List.prefix_append [_] _
  | closedReceiving => exact List.prefix_append [_] _
  | unreadable => exact List.prefix_append [_] _
  | foundClosed => exact List.prefix_append [_] _
  | delivered _ _ _ ih => exact List.cons_prefix_cons.2 ⟨rfl, ih⟩

/-- All outcomes but the last are datagrams that can be read, and the last is what the reason for the
end says. -/
theorem exists_last (h : d.Serves limit earlier outcomes reads ending) :
    ∃ before last, reads = before ++ [last] ∧ (∀ r ∈ before, r.Readable limit) ∧
      ending.Follows limit last := by
  induction h with
  | failed => exact ⟨[], _, rfl, by simp, rfl⟩
  | closedReceiving hnone hcloses => exact ⟨[], _, rfl, by simp, hnone, hcloses⟩
  | unreadable hread => exact ⟨[], _, rfl, by simp, hread, rfl⟩
  | foundClosed hread => exact ⟨[], _, rfl, by simp, hread⟩
  | delivered hread _ _ ih =>
    obtain ⟨before, last, rfl, hbefore, hlast⟩ := ih
    exact ⟨_ :: before, last, rfl, List.forall_mem_cons.2 ⟨hread, hbefore⟩, hlast⟩

theorem closesDuring_cons (limit : Nat) (earlier : List Call) (r : Receive) (before : List Receive)
    (calls : List Call) :
    closesDuring (r :: before) (d.dispatchAll earlier (r.messages limit) ++ calls) =
      (d.closes limit earlier r || closesDuring before calls) := by
  simp only [closesDuring, closes, List.any_cons, List.any_append, Bool.or_assoc, Bool.or_left_comm]

theorem isClosed_eq (h : d.Serves limit earlier outcomes reads ending) :
    ending.isClosed =
      closesDuring reads (d.dispatchAll earlier (reads.flatMap (Receive.messages limit))) := by
  induction h with
  | failed => rfl
  | closedReceiving _ hcloses => simp [closesDuring, Ending.isClosed, hcloses]
  | unreadable hread =>
    rw [List.flatMap_singleton,
      Receive.messages_of_not_readable (Receive.not_readable_of_error hread)]
    simp [closesDuring, Ending.isClosed]
  | foundClosed _ hcloses =>
    rw [closes] at hcloses
    simp [closesDuring, Ending.isClosed, hcloses]
  | delivered _ hopen _ ih =>
    rw [ih, List.flatMap_cons, dispatchAll_append, closesDuring_cons, hopen, Bool.false_or]

theorem eq_of_singleton_eq {α : Type} {a b : α} {before after : List α}
    (h : [a] = before ++ b :: after) : before = [] ∧ b = a ∧ after = [] := by
  cases before with
  | nil =>
    cases h
    exact ⟨rfl, rfl, rfl⟩
  | cons first before => simp at h

/-- An outcome on which the connection is closed is the last one that is taken. -/
theorem eq_nil_of_closes (h : d.Serves limit earlier outcomes reads ending)
    (hreads : reads = before ++ r :: after)
    (hcloses : d.closes limit
      ((d.dispatchAll earlier (before.flatMap (Receive.messages limit))).reverse ++ earlier) r = true) :
    after = [] ∧ ending.isClosed = true := by
  induction h generalizing before with
  | failed =>
    obtain ⟨rfl, rfl, rfl⟩ := eq_of_singleton_eq hreads
    rw [d.closes_of_not_readable (Receive.not_readable_of_none rfl)] at hcloses
    cases hcloses
  | closedReceiving =>
    obtain ⟨-, -, rfl⟩ := eq_of_singleton_eq hreads
    exact ⟨rfl, rfl⟩
  | unreadable hread =>
    obtain ⟨rfl, rfl, rfl⟩ := eq_of_singleton_eq hreads
    rw [d.closes_of_not_readable (Receive.not_readable_of_error hread)] at hcloses
    exact ⟨rfl, hcloses⟩
  | foundClosed =>
    obtain ⟨-, -, rfl⟩ := eq_of_singleton_eq hreads
    exact ⟨rfl, rfl⟩
  | delivered hread hopen _ ih =>
    cases before with
    | nil =>
      cases hreads
      rw [List.flatMap_nil, dispatchAll_nil, List.reverse_nil, List.nil_append, hopen] at hcloses
      cases hcloses
    | cons first before =>
      cases hreads
      apply ih rfl
      rw [List.flatMap_cons, dispatchAll_append, List.reverse_append, List.append_assoc] at hcloses
      exact hcloses

theorem append (hread : ∀ r ∈ before, r.Readable limit)
    (hopen : closesDuring before
      (d.dispatchAll earlier (before.flatMap (Receive.messages limit))) = false)
    (hrest : d.Serves limit
      ((d.dispatchAll earlier (before.flatMap (Receive.messages limit))).reverse ++ earlier) outcomes
      reads ending) :
    d.Serves limit earlier (before ++ outcomes) (before ++ reads) ending := by
  induction before generalizing earlier with
  | nil => exact hrest
  | cons r before ih =>
    obtain ⟨hfirst, hothers⟩ := List.forall_mem_cons.1 hread
    rw [List.flatMap_cons, dispatchAll_append] at hopen hrest
    rw [closesDuring_cons, Bool.or_eq_false_iff] at hopen
    rw [List.reverse_append, List.append_assoc] at hrest
    exact .delivered hfirst hopen.1 (ih hothers hopen.2 hrest)

/-- What comes and what the handlers do leave no choice. -/
theorem unique {reads' : List Receive} {ending' : Ending}
    (h : d.Serves limit earlier outcomes reads ending)
    (h' : d.Serves limit earlier outcomes reads' ending') : reads = reads' ∧ ending = ending' := by
  induction h generalizing reads' ending' with
  | failed reason =>
    cases h' with
    | failed => exact ⟨rfl, rfl⟩
    | closedReceiving _ hcloses => cases hcloses
    | unreadable hread => cases hread
    | foundClosed hread => exact absurd hread (Receive.not_readable_of_none rfl)
    | delivered hread => exact absurd hread (Receive.not_readable_of_none rfl)
  | closedReceiving hnone hcloses =>
    cases h' with
    | failed => cases hcloses
    | closedReceiving => exact ⟨rfl, rfl⟩
    | unreadable hread =>
      rw [hnone] at hread
      cases hread
    | foundClosed hread => exact absurd hread (Receive.not_readable_of_none hnone)
    | delivered hread => exact absurd hread (Receive.not_readable_of_none hnone)
  | unreadable hread =>
    cases h' with
    | failed => cases hread
    | closedReceiving hnone =>
      rw [hread] at hnone
      cases hnone
    | unreadable hread' =>
      rw [hread] at hread'
      cases hread'
      exact ⟨rfl, rfl⟩
    | foundClosed hread' => exact absurd hread' (Receive.not_readable_of_error hread)
    | delivered hread' => exact absurd hread' (Receive.not_readable_of_error hread)
  | foundClosed hread hcloses =>
    cases h' with
    | failed => exact absurd hread (Receive.not_readable_of_none rfl)
    | closedReceiving hnone => exact absurd hread (Receive.not_readable_of_none hnone)
    | unreadable hread' => exact absurd hread (Receive.not_readable_of_error hread')
    | foundClosed => exact ⟨rfl, rfl⟩
    | delivered _ hopen =>
      rw [hcloses] at hopen
      cases hopen
  | delivered hread hopen _ ih =>
    cases h' with
    | failed => exact absurd hread (Receive.not_readable_of_none rfl)
    | closedReceiving hnone => exact absurd hread (Receive.not_readable_of_none hnone)
    | unreadable hread' => exact absurd hread (Receive.not_readable_of_error hread')
    | foundClosed _ hcloses =>
      rw [hcloses] at hopen
      cases hopen
    | delivered _ _ hrest =>
      obtain ⟨rfl, rfl⟩ := ih hrest
      exact ⟨rfl, rfl⟩

end Dispatcher.Serves

namespace Endpoint

/-! ### Closing on the way -/

section Closing

variable (e : Endpoint)

@[simp] theorem closeIf_true : e.closeIf true = e.close := rfl

@[simp] theorem closeIf_false : e.closeIf false = e := rfl

@[simp] theorem closeIf_closeIf (a b : Bool) : (e.closeIf a).closeIf b = e.closeIf (a || b) := by
  cases a <;> cases b <;> simp

theorem isClosed_closeIf (a : Bool) : (e.closeIf a).isClosed = (e.isClosed || a) := by
  cases a <;> simp

theorem closeAfter_eq_closeIf (calls : List Call) :
    e.closeAfter calls = e.closeIf (calls.any (·.reaction.closes)) := by
  induction calls generalizing e with
  | nil => rfl
  | cons call calls ih =>
    rw [closeAfter, List.foldl_cons, ← closeAfter, ih, closeIf_closeIf, List.any_cons]

@[simp] theorem connection_withIncoming (incoming : List Receive) :
    (e.withIncoming incoming).connection = e.connection := rfl

@[simp] theorem isClosed_withIncoming (incoming : List Receive) :
    (e.withIncoming incoming).isClosed = e.isClosed := rfl

theorem isClosed_after (hopen : e.isClosed = false) (closed : Bool) (incoming : List Receive) :
    ((e.closeIf closed).withIncoming incoming).isClosed = closed := by
  rw [isClosed_withIncoming, isClosed_closeIf, hopen, Bool.false_or]

@[simp] theorem config_closeIf (a : Bool) :
    (e.closeIf a).connection.config = e.connection.config := by
  cases a with
  | false => rfl
  | true =>
    simp only [closeIf_true, close]
    split <;> rfl

end Closing

/-! ### The loop -/

variable {d : Dispatcher Handler} {limit : Nat}

theorem serveLoop_of_isClosed {e : Endpoint} (hclosed : e.isClosed = true) (earlier : List Call)
    (buffer : Buffer) (incoming : List Receive) :
    serveLoop d earlier buffer incoming e = ⟨.ok (), [], e.withIncoming incoming⟩ := by
  cases incoming <;> rw [serveLoop, if_pos hclosed]

/-- The loop takes outcomes and ends as a serving does, has made the calls for their messages, and has
closed the endpoint if something on the way did. -/
theorem exists_serves (incoming : List Receive) (e : Endpoint) (earlier : List Call) (buffer : Buffer)
    (hopen : e.isClosed = false) (hsize : buffer.size = limit) :
    ∃ reads ending,
      d.Serves limit earlier (incoming ++ [.fault false Socket.drained]) reads ending ∧
        serveLoop d earlier buffer incoming e =
          ⟨ending.result, d.dispatchAll earlier (reads.flatMap (Receive.messages limit)),
            (e.closeIf ending.isClosed).withIncoming (incoming.drop reads.length)⟩ := by
  -- What the memory holds does not matter, only its size, so it can be any in the next round.
  induction incoming generalizing e earlier buffer with
  | nil =>
    refine ⟨_, _, .failed Socket.drained, ?_⟩
    rw [serveLoop, if_neg (by simp [hopen])]
    rfl
  | cons r rest ih =>
    rw [serveLoop, if_neg (by simp [hopen])]
    cases r with
    | closedWaiting => exact ⟨_, _, .closedReceiving rfl rfl, rfl⟩
    | fault closes reason =>
      cases closes with
      | false =>
        refine ⟨_, _, .failed reason, ?_⟩
        simp only [Receive.closes, closeIf_false, hopen]
        rfl
      | true =>
        refine ⟨_, _, .closedReceiving rfl rfl, ?_⟩
        simp only [Receive.closes, closeIf_true, isClosed_close, if_true]
        rfl
    | datagram closes bytes =>
      simp only [Receive.closes, Buffer.front_fill, hsize]
      cases hdecode : Packet.decode (bytes.take limit) with
      | error fault =>
        have hread : (Receive.datagram closes bytes).packet? limit = some (.error fault) :=
          congrArg some hdecode
        refine ⟨_, _, .unreadable hread, ?_⟩
        rw [List.flatMap_singleton,
          Receive.messages_of_not_readable (Receive.not_readable_of_error hread)]
        rfl
      | ok p =>
        have hread : (Receive.datagram closes bytes).packet? limit = some (.ok p) :=
          congrArg some hdecode
        have hcalls : d.deliver earlier p =
            d.dispatchAll earlier (Receive.messages limit (.datagram closes bytes)) := by
          rw [Receive.messages_of_packet? hread, Dispatcher.deliver]
        have hcloses : (closes || (d.dispatchAll earlier
            (Receive.messages limit (.datagram closes bytes))).any (·.reaction.closes)) =
              d.closes limit earlier (.datagram closes bytes) := rfl
        simp only [closeAfter_eq_closeIf, closeIf_closeIf, hcalls, hcloses]
        cases hclosed : d.closes limit earlier (.datagram closes bytes) with
        | true =>
          refine ⟨_, _, .foundClosed ⟨p, hread⟩ hclosed, ?_⟩
          rw [serveLoop_of_isClosed (by simp), List.flatMap_singleton, List.append_nil]
          rfl
        | false =>
          obtain ⟨reads, ending, hserves, hloop⟩ := ih e _ (buffer.fill bytes).1 hopen hsize
          refine ⟨_, _, .delivered ⟨p, hread⟩ hclosed hserves, ?_⟩
          rw [closeIf_false, hloop, List.flatMap_cons, Dispatcher.dispatchAll_append]
          rfl

/-! ### The whole serving -/

section Serve

variable {e : Endpoint} {methods : Option (Methods Handler)}

theorem serve_of_build_eq_error {fault : Error} (hbuild : Dispatcher.build methods = .error fault) :
    e.serve methods = ⟨.error (.core fault), [], e⟩ := by
  rw [serve, hbuild]

theorem serve_of_not_attached (hbuild : Dispatcher.build methods = .ok d)
    (hdetached : e.connection.attached = false) : e.serve methods = ⟨.ok (), [], e⟩ := by
  rw [serve, hbuild]
  simp [hdetached]

/-- The holder that the socket has in addition while it is served is gone in the end. -/
theorem serve_of_loop (hbuild : Dispatcher.build methods = .ok d)
    (hattached : e.connection.attached = true) (closed : Bool)
    {result : Except ConnectionError Unit} {calls : List Call} {incoming : List Receive}
    (hloop : serveLoop d [] (Buffer.zeros e.connection.config.maxPacketSize) e.socket.incoming
        { e with socket := e.socket.hold } =
      ⟨result, calls, ({ e with socket := e.socket.hold }.closeIf closed).withIncoming incoming⟩) :
    e.serve methods = ⟨result, calls, (e.closeIf closed).withIncoming incoming⟩ := by
  rw [serve, hbuild]
  simp only [hattached, if_true, hloop]
  cases closed <;> simp [close, withIncoming, Socket.hold, Socket.release, hattached]

theorem serve_of_isClosed (hbuild : Dispatcher.build methods = .ok d) (hclosed : e.isClosed = true) :
    e.serve methods = ⟨.ok (), [], e⟩ := by
  cases hattached : e.connection.attached with
  | false => exact serve_of_not_attached hbuild hattached
  | true =>
    have hheld : ({ e with socket := e.socket.hold } : Endpoint).isClosed = true := hclosed
    exact serve_of_loop hbuild hattached false (serveLoop_of_isClosed hheld _ _ _)

theorem exists_serves_of_serve (hbuild : Dispatcher.build methods = .ok d)
    (hattached : e.connection.attached = true) (hopen : e.isClosed = false) :
    ∃ reads ending,
      d.Serves e.connection.config.maxPacketSize [] e.socket.outcomes reads ending ∧
        e.serve methods =
          ⟨ending.result,
            d.dispatchAll [] (reads.flatMap (Receive.messages e.connection.config.maxPacketSize)),
            (e.closeIf ending.isClosed).withIncoming (e.socket.incoming.drop reads.length)⟩ := by
  obtain ⟨reads, ending, hserves, hloop⟩ :=
    exists_serves (d := d) e.socket.incoming { e with socket := e.socket.hold } []
      (Buffer.zeros e.connection.config.maxPacketSize) hopen rfl
  exact ⟨reads, ending, hserves, serve_of_loop hbuild hattached ending.isClosed hloop⟩

theorem serve_of_idle (hbuild : Dispatcher.build methods = .ok d)
    (hidle : e.isClosed = true ∨ e.connection.attached = false) :
    e.serve methods = ⟨.ok (), [], e⟩ :=
  hidle.elim (serve_of_isClosed hbuild) (serve_of_not_attached hbuild)

/-- With a table that can be built an endpoint is left alone, or it is open and takes outcomes. -/
theorem serve_cases (e : Endpoint) (hbuild : Dispatcher.build methods = .ok d) :
    ((e.isClosed = true ∨ e.connection.attached = false) ∧ e.serve methods = ⟨.ok (), [], e⟩) ∨
      (e.connection.attached = true ∧ e.isClosed = false ∧ ∃ reads ending,
        d.Serves e.connection.config.maxPacketSize [] e.socket.outcomes reads ending ∧
          e.serve methods =
            ⟨ending.result,
              d.dispatchAll [] (reads.flatMap (Receive.messages e.connection.config.maxPacketSize)),
              (e.closeIf ending.isClosed).withIncoming (e.socket.incoming.drop reads.length)⟩) := by
  by_cases hidle : e.isClosed = true ∨ e.connection.attached = false
  · exact .inl ⟨hidle, serve_of_idle hbuild hidle⟩
  · rw [not_or, Bool.not_eq_true, Bool.not_eq_false] at hidle
    exact .inr ⟨hidle.2, hidle.1, exists_serves_of_serve hbuild hidle.2 hidle.1⟩

theorem serve_of_serves (hbuild : Dispatcher.build methods = .ok d)
    (hattached : e.connection.attached = true) (hopen : e.isClosed = false)
    {reads : List Receive} {ending : Ending}
    (hserves : d.Serves e.connection.config.maxPacketSize [] e.socket.outcomes reads ending) :
    e.serve methods =
      ⟨ending.result,
        d.dispatchAll [] (reads.flatMap (Receive.messages e.connection.config.maxPacketSize)),
        (e.closeIf ending.isClosed).withIncoming (e.socket.incoming.drop reads.length)⟩ := by
  obtain ⟨reads', ending', hserves', hserve⟩ := exists_serves_of_serve hbuild hattached hopen
  obtain ⟨rfl, rfl⟩ := hserves.unique hserves'
  exact hserve

/-- Serving leaves the endpoint as it was, closed or not, with fewer receives to come. -/
theorem exists_endpoint_serve (e : Endpoint) (methods : Option (Methods Handler)) :
    ∃ closed incoming, (e.serve methods).endpoint = (e.closeIf closed).withIncoming incoming := by
  cases hbuild : Dispatcher.build methods with
  | error fault => exact ⟨false, e.socket.incoming, by rw [serve_of_build_eq_error hbuild]; rfl⟩
  | ok d =>
    obtain ⟨-, hserve⟩ | ⟨-, -, reads, ending, -, hserve⟩ := e.serve_cases hbuild
    · exact ⟨false, e.socket.incoming, by rw [hserve]; rfl⟩
    · exact ⟨_, _, by rw [hserve]⟩

end Serve

end Endpoint

/-! ### An endpoint to be served twice -/

def Handler.failing : Handler := ⟨"failing", fun _ _ => ⟨false, some "not now"⟩⟩

/-- Closes the connection at the fourth call of any handler. -/
def Handler.closing : Handler := ⟨"closing", fun earlier _ => ⟨3 ≤ earlier.length, none⟩⟩

def Methods.pair : Methods Handler := ⟨[("/a", .failing), ("/*", .closing)]⟩

open Pattern in
def Dispatcher.pair : Dispatcher Handler := ⟨[
  (⟨"/a", [.char '/', .char 'a'], .exact, by decide, parse_eq_ok_iff.2 (by decide),
    chooseMatcher_marking (by decide)⟩, .failing),
  (⟨"/*", [.char '/', .anyRun], ownMatcher [.char '/', .anyRun], by decide,
    parse_eq_ok_iff.2 (by decide), chooseMatcher_marking (by decide)⟩, .closing)]⟩

open Pattern in
theorem Dispatcher.build_pair : build (some Methods.pair) = .ok pair := by
  have ha : Spells [.char '/', .char 'a'] "/a".toList := by decide
  have hany : Spells [.char '/', .anyRun] "/*".toList := by decide
  simp only [build, Methods.pair, Methods.isEmpty, compileAll, compile_of_spells (by decide) ha,
    compile_of_spells (by decide) hany]
  rfl

def Receive.plain : Receive := .datagram false [0x2F, 0x61, 0, 0]

def Receive.garbled : Receive := .datagram false [0x2F]

def Endpoint.listening (incoming : List Receive) : Endpoint :=
  ⟨⟨.v4 ⟨127, 0, 0, 1⟩ 9000, none, .default, false, true⟩,
    ⟨some (.v4 ⟨127, 0, 0, 1⟩ 9000), incoming, none, [], 1⟩⟩

end OpenSound
