import OpenSound.Proofs.Serving
/-!
# From opening to closing

Three things say that an endpoint is closed: its flag, the slot that its socket is taken from, and the
count of those who hold the socket. They change in different places, and between two uses of the
endpoint they agree (`Endpoint.Settled`). That is so because every use does one of two things to them:
it leaves them alone, or it closes the endpoint (`exists_closeIf_perform`). So nothing opens an
endpoint again, and the addresses and the settings stay what they were at the start.
-/

namespace OpenSound

/-- What can be done with an endpoint, and what can happen to its socket in between. -/
inductive Operation where
  | send (m : Message)
  | sendTo (target : SocketAddress) (p : Packet)
  | serve (methods : Option (Methods Handler))
  | close
  /-- More receives are to come. -/
  | arrive (outcomes : List Receive)
  /-- Sends fail from now on, or no longer. -/
  | failSends (reason : Option String)

theorem Socket.exists_sent_send (s : Socket) (d : Datagram) :
    ∃ sent, (s.send d).2 = { s with sent := sent } := by
  unfold send
  split
  · exact ⟨s.sent, rfl⟩
  · exact ⟨_, rfl⟩

namespace Endpoint

def perform (e : Endpoint) : Operation → Except ConnectionError Unit × Endpoint
  | .send m => e.send m
  | .sendTo target p => e.sendTo target p
  | .serve methods => ((e.serve methods).result, (e.serve methods).endpoint)
  | .close => (.ok (), e.close)
  | .arrive outcomes => (.ok (), { e with socket := e.socket.enqueue outcomes })
  | .failSends reason => (.ok (), { e with socket := { e.socket with sendFault := reason } })

def run (e : Endpoint) (operations : List Operation) : Endpoint :=
  operations.foldl (fun e operation => (e.perform operation).2) e

@[simp] theorem run_cons (e : Endpoint) (operation : Operation) (operations : List Operation) :
    e.run (operation :: operations) = (e.perform operation).2.run operations := rfl

/-! ### What an operation does -/

theorem exists_sent_transmit (e : Endpoint) (p : Packet) (destination : Destination)
    (name : SocketAddress) :
    ∃ sent, (e.transmit p destination name).2 = { e with socket := { e.socket with sent := sent } } := by
  unfold transmit
  split
  · exact ⟨e.socket.sent, rfl⟩
  · rename_i bytes _
    obtain ⟨sent, hsent⟩ := e.socket.exists_sent_send ⟨bytes, destination⟩
    split
    · refine ⟨sent, ?_⟩
      rw [← hsent]
      split <;> rename_i hsend <;> rw [hsend]
    · exact ⟨e.socket.sent, rfl⟩

/-- Whether the endpoint is closed shows in its connection and in the holders of its socket. There an
operation changes nothing, or what closing changes. -/
theorem exists_closeIf_perform (e : Endpoint) (operation : Operation) :
    ∃ closed, (e.perform operation).2.connection = (e.closeIf closed).connection ∧
      (e.perform operation).2.socket.holders = (e.closeIf closed).socket.holders := by
  cases operation with
  | send m =>
    refine ⟨false, ?_⟩
    simp only [perform, send]
    split
    · exact ⟨rfl, rfl⟩
    · obtain ⟨sent, hsent⟩ := e.exists_sent_transmit (.message m) .peer _
      rw [hsent]
      exact ⟨rfl, rfl⟩
  | sendTo target p =>
    obtain ⟨sent, hsent⟩ := e.exists_sent_transmit p (.address target) target
    refine ⟨false, ?_⟩
    simp only [perform, sendTo, hsent]
    exact ⟨rfl, rfl⟩
  | serve methods =>
    obtain ⟨closed, incoming, hserve⟩ := e.exists_endpoint_serve methods
    refine ⟨closed, ?_⟩
    simp only [perform, hserve]
    exact ⟨rfl, rfl⟩
  | close => exact ⟨true, rfl, rfl⟩
  | arrive outcomes => exact ⟨false, rfl, rfl⟩
  | failSends reason => exact ⟨false, rfl, rfl⟩

/-! ### What stays -/

/-- Flag, slot and holders agree. -/
structure Settled (e : Endpoint) : Prop where
  isClosed_eq : e.isClosed = !e.connection.attached
  holders_eq : e.socket.holders = if e.connection.attached then 1 else 0

theorem settled_of_ofSocket {socket : Socket} {remote : Option SocketAddress} {config : Config}
    {e : Endpoint} (h : ofSocket socket remote config = .ok e) : e.Settled := by
  unfold ofSocket at h
  split at h
  · cases h
  · cases h
    exact ⟨rfl, rfl⟩

theorem settings_of_ofSocket {socket : Socket} {remote : Option SocketAddress} {config : Config}
    {e : Endpoint} (h : ofSocket socket remote config = .ok e) :
    socket.localAddress = some e.connection.localAddress ∧ e.connection.remoteAddress = remote ∧
      e.connection.config = config := by
  unfold ofSocket at h
  split at h
  · cases h
  · rename_i address haddress
    cases h
    exact ⟨haddress, rfl, rfl⟩

theorem Settled.closeIf {e : Endpoint} (h : e.Settled) (closed : Bool) : (e.closeIf closed).Settled := by
  cases closed with
  | false => exact h
  | true =>
    obtain ⟨hclosed, hholders⟩ := h
    rw [closeIf_true, close]
    split
    · rename_i hattached
      rw [hattached] at hholders
      exact ⟨rfl, by simp [Socket.release, hholders]⟩
    · rename_i hattached
      exact ⟨by simpa [isClosed] using hattached, hholders⟩

theorem Settled.perform {e : Endpoint} (h : e.Settled) (operation : Operation) :
    (e.perform operation).2.Settled := by
  obtain ⟨closed, hconnection, hholders⟩ := e.exists_closeIf_perform operation
  obtain ⟨hclosed', hholders'⟩ := h.closeIf closed
  rw [isClosed, ← hconnection] at hclosed'
  rw [← hholders, ← hconnection] at hholders'
  exact ⟨hclosed', hholders'⟩

theorem Settled.run {e : Endpoint} (h : e.Settled) (operations : List Operation) :
    (e.run operations).Settled := by
  induction operations generalizing e with
  | nil => exact h
  | cons operation operations ih => exact ih (h.perform operation)

theorem exists_connection_run (e : Endpoint) (operations : List Operation) :
    ∃ closed attached, (e.run operations).connection =
      { e.connection with closed := closed, attached := attached } := by
  induction operations generalizing e with
  | nil => exact ⟨_, _, rfl⟩
  | cons operation operations ih =>
    obtain ⟨closed, hconnection, -⟩ := e.exists_closeIf_perform operation
    obtain ⟨closed', attached', hrun⟩ := ih (e.perform operation).2
    refine ⟨closed', attached', ?_⟩
    rw [run_cons, hrun, hconnection]
    cases closed with
    | false => rfl
    | true =>
      rw [closeIf_true, close]
      split <;> rfl

theorem isClosed_run {e : Endpoint} (hclosed : e.isClosed = true) (operations : List Operation) :
    (e.run operations).isClosed = true := by
  induction operations generalizing e with
  | nil => exact hclosed
  | cons operation operations ih =>
    obtain ⟨closed, hconnection, -⟩ := e.exists_closeIf_perform operation
    apply ih
    rw [isClosed, hconnection, ← isClosed, isClosed_closeIf, hclosed, Bool.true_or]

/-! ### Closed endpoints -/

section Closed

variable {e : Endpoint}

theorem Settled.attached_eq_false (h : e.Settled) (hclosed : e.isClosed = true) :
    e.connection.attached = false := by
  simpa [hclosed] using h.isClosed_eq

theorem close_eq_self (hclosed : e.isClosed = true) (hdetached : e.connection.attached = false) :
    e.close = e := by
  have hsame : ({ e.connection with closed := true } : Connection) = e.connection := by
    rw [← hclosed]
    rfl
  rw [close, if_neg (by simp [hdetached]), hsame]

/-- Without a socket in its slot, an endpoint sends nothing: what would become of the datagram does not
matter. -/
theorem exists_error_transmit (hdetached : e.connection.attached = false) (p : Packet)
    (destination : Destination) (name : SocketAddress) :
    ∃ error, ∀ s, ({ e with socket := s } : Endpoint).transmit p destination name =
      (.error error, { e with socket := s }) := by
  have hprepare : ∀ s, ({ e with socket := s } : Endpoint).prepare p = e.prepare p := fun _ => rfl
  cases hbytes : e.prepare p with
  | error fault => exact ⟨fault, fun s => by rw [transmit, hprepare, hbytes]⟩
  | ok bytes => exact ⟨.connectionClosed, fun s => by simp [transmit, hprepare, hbytes, hdetached]⟩

theorem exists_error_send (hdetached : e.connection.attached = false) (m : Message) :
    ∃ error, ∀ s, ({ e with socket := s } : Endpoint).send m = (.error error, { e with socket := s }) := by
  cases hremote : e.connection.remoteAddress with
  | none => exact ⟨.notConnected, fun s => by simp only [send, hremote]⟩
  | some remote =>
    obtain ⟨error, herror⟩ := exists_error_transmit hdetached (.message m) .peer remote
    exact ⟨error, fun s => by simp only [send, hremote, herror]⟩

theorem calls_and_endpoint_serve (hclosed : e.isClosed = true) (methods : Option (Methods Handler)) :
    (e.serve methods).calls = [] ∧ (e.serve methods).endpoint = e := by
  cases hbuild : Dispatcher.build methods with
  | error fault =>
    rw [serve_of_build_eq_error hbuild]
    exact ⟨rfl, rfl⟩
  | ok d =>
    rw [serve_of_isClosed hbuild hclosed]
    exact ⟨rfl, rfl⟩

end Closed

/-- Whatever has been done with an endpoint since it took hold of its socket: it is closed exactly if
its slot is empty, and exactly if nobody holds the socket any more; its addresses and settings are
those of the start; closing closes it. Once it is closed it stays so, to close it again changes
nothing, no sending reaches the socket, whatever that would do, and to serve takes no outcome of a
receive and calls no handler. -/
theorem closed_for_good {socket : Socket} {remote : Option SocketAddress} {config : Config}
    {opened : Endpoint} (hopened : ofSocket socket remote config = .ok opened)
    (operations : List Operation) :
    let e := opened.run operations
    ((e.isClosed = true ↔ e.connection.attached = false) ∧
        (e.connection.attached = false ↔ e.socket.isReleased = true)) ∧
      (socket.localAddress = some e.connection.localAddress ∧
        e.connection.remoteAddress = remote ∧ e.connection.config = config) ∧
      ((e.perform .close).1 = .ok () ∧ (e.perform .close).2.isClosed = true) ∧
      (e.isClosed = true →
        (∀ later, (e.run later).isClosed = true) ∧
        e.perform .close = (.ok (), e) ∧
        (∀ m, ∃ error, ∀ s,
          ({ e with socket := s } : Endpoint).send m = (.error error, { e with socket := s })) ∧
        (∀ target p, ∃ error, ∀ s,
          ({ e with socket := s } : Endpoint).sendTo target p =
            (.error error, { e with socket := s })) ∧
        ∀ methods, (e.serve methods).calls = [] ∧ (e.serve methods).endpoint = e) := by
  intro e
  have hsettled : e.Settled := (settled_of_ofSocket hopened).run operations
  obtain ⟨closed, attached, hconnection⟩ := opened.exists_connection_run operations
  refine ⟨⟨?_, ?_⟩, ?_, ⟨rfl, e.isClosed_close⟩, fun hclosed => ?_⟩
  · rw [hsettled.isClosed_eq, Bool.not_eq_true']
  · rw [Socket.isReleased, hsettled.holders_eq]
    cases e.connection.attached <;> simp
  · rw [hconnection]
    exact settings_of_ofSocket hopened
  · have hdetached := hsettled.attached_eq_false hclosed
    exact ⟨fun later => isClosed_run hclosed later, congrArg _ (close_eq_self hclosed hdetached),
      exists_error_send hdetached, fun target p => exists_error_transmit hdetached p _ _,
      calls_and_endpoint_serve hclosed⟩

theorem closed_for_good_listening :
    ofSocket (Socket.fresh (some (.v4 ⟨127, 0, 0, 1⟩ 9000))) none .default = .ok (listening []) ∧
      let e := (listening []).run [.arrive [.plain, .plain, .plain], .serve (some .pair)]
      e.isClosed = true ∧ e.connection.attached = false ∧ e.socket.isReleased = true ∧
        e.socket.incoming = [.plain] ∧ e.perform .close = (.ok (), e) ∧
        ∀ methods, (e.serve methods).calls = [] ∧ (e.serve methods).endpoint = e := by
  have hopened : ofSocket (Socket.fresh (some (.v4 ⟨127, 0, 0, 1⟩ 9000))) none .default =
      .ok (listening []) := rfl
  have hclosed : ((listening []).run
      [.arrive [.plain, .plain, .plain], .serve (some .pair)]).isClosed = true := by
    decide +kernel
  obtain ⟨⟨hslot, hreleased⟩, -, -, hgood⟩ := closed_for_good hopened
    [.arrive [.plain, .plain, .plain], .serve (some .pair)]
  obtain ⟨-, hclose, -, -, hserve⟩ := hgood hclosed
  exact ⟨hopened, hclosed, hslot.1 hclosed, hreleased.1 (hslot.1 hclosed), by decide +kernel, hclose,
    hserve⟩

end Endpoint

end OpenSound
