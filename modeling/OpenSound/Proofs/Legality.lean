import OpenSound.Proofs.Canonical
import OpenSound.Proofs.Delivery
/-!
# What handlers get to see

Whoever sends a datagram can put any bytes into it, but the messages that reach a handler are all legal:
the address is one, no text holds the zero character, and the message can be sent on as it is. That is
so for all messages of any bytes that can be read, at whatever depth (`WireForm.legal`). A serving calls
handlers with such messages and with no others.
-/

namespace OpenSound

/-- A message with an address and texts as they should be, which comes back unchanged when it is written
and read. -/
structure Message.Legal (m : Message) : Prop where
  validate_eq : Address.validate m.address = .ok ()
  nulFree : m.NulFree
  exists_encode : ∃ bytes, (Packet.message m).encode = .ok bytes ∧ Packet.decode bytes = .ok (.message m)

open Packet (WireForm)

theorem Message.legal_of_encode {m : Message} {bytes : Bytes} (hvalid : Address.Valid m.address)
    (hwritten : m.encode = .ok bytes) : m.Legal where
  validate_eq := Address.validate_eq_ok_iff.2 hvalid
  nulFree := (exists_encode_iff.1 ⟨bytes, hwritten⟩).1
  exists_encode :=
    ⟨bytes, Packet.encode_eq_ok_iff.2 hwritten, (WireForm.tagged hvalid hwritten).decode⟩

/-- An address alone stands for a message that can be written, too, if only with its type tags. -/
theorem Packet.WireForm.legal {p : Packet} {bytes : Bytes} (h : WireForm p bytes) :
    ∀ m ∈ p.messages, m.Legal := by
  induction h with
  | tagged hvalid hwritten =>
    rw [messages_message, List.forall_mem_singleton]
    exact Message.legal_of_encode hvalid hwritten
  | @untagged address bytes hvalid hwritten =>
    rw [messages_message, List.forall_mem_singleton]
    have hnul : Message.NulFree ⟨address, []⟩ := ⟨exists_encodeText_iff.1 ⟨bytes, hwritten⟩, nofun⟩
    obtain ⟨written, hmessage⟩ := Message.exists_encode_iff.2 ⟨hnul, nofun⟩
    exact Message.legal_of_encode hvalid hmessage
  | bundle timetag elements _ _ ih =>
    rw [forall_mem_messages_bundle]
    intro p hp
    obtain ⟨e, he, rfl⟩ := List.mem_map.1 hp
    exact ih e he

/-! ### From datagrams to calls -/

theorem Dispatcher.message_mem_of_mem_dispatchAll (d : Dispatcher Handler) {earlier : List Call}
    {messages : List Message} {call : Call} (h : call ∈ d.dispatchAll earlier messages) :
    call.message ∈ messages := by
  have hmade : call.made ∈ (d.dispatchAll earlier messages).map Call.made := List.mem_map_of_mem h
  rw [made_dispatchAll] at hmade
  obtain ⟨m, hm, hcall⟩ := List.mem_flatMap.1 hmade
  obtain ⟨handler, -, hsame⟩ := List.mem_map.1 hcall
  have hmessage : m = call.message := congrArg Prod.snd hsame
  exact hmessage ▸ hm

theorem Receive.exists_datagram_of_mem_messages {limit : Nat} {r : Receive} {m : Message}
    (h : m ∈ r.messages limit) :
    ∃ closes bytes p, r = .datagram closes bytes ∧ Packet.decode (bytes.take limit) = .ok p ∧
      m ∈ p.messages := by
  cases r with
  | datagram closes bytes =>
    rcases messages_datagram_cases limit closes bytes with hnone | ⟨p, hdecode, hmessages⟩
    · rw [hnone] at h
      cases h
    · rw [hmessages] at h
      exact ⟨closes, bytes, p, rfl, hdecode, h⟩
  | fault closes reason => cases h
  | closedWaiting => cases h

/-- What a handler is called with has arrived in a datagram that can be read. -/
theorem Endpoint.exists_datagram_of_mem_calls (e : Endpoint) {methods : Option (Methods Handler)}
    {call : Call} (h : call ∈ (e.serve methods).calls) :
    ∃ closes bytes p, .datagram closes bytes ∈ e.socket.incoming ∧
      Packet.decode (bytes.take e.connection.config.maxPacketSize) = .ok p ∧
      call.message ∈ p.messages := by
  cases hbuild : Dispatcher.build methods with
  | error fault =>
    rw [serve_of_build_eq_error hbuild] at h
    cases h
  | ok d =>
    obtain ⟨received, hincoming, -, hdelivers⟩ := e.exists_delivers hbuild
    rw [hdelivers.calls_eq] at h
    obtain ⟨r, hr, hmessage⟩ := List.mem_flatMap.1 (d.message_mem_of_mem_dispatchAll h)
    obtain ⟨closes, bytes, p, rfl, hdecode, hm⟩ := Receive.exists_datagram_of_mem_messages hmessage
    refine ⟨closes, bytes, p, ?_, hdecode, hm⟩
    rw [hincoming]
    exact List.mem_append_left _ hr

/-- Every message of a packet that can be read is legal. So whatever arrives, and however an endpoint is
served, every message that a handler is called with is legal, and is one of a datagram that arrived. -/
theorem Endpoint.legal_of_mem_calls :
    (∀ bytes p, Packet.decode bytes = .ok p → ∀ m ∈ p.messages, m.Legal) ∧
      ∀ (e : Endpoint) (methods : Option (Methods Handler)), ∀ call ∈ (e.serve methods).calls,
        call.message.Legal ∧
          ∃ closes bytes p, .datagram closes bytes ∈ e.socket.incoming ∧
            Packet.decode (bytes.take e.connection.config.maxPacketSize) = .ok p ∧
            call.message ∈ p.messages := by
  have hlegal : ∀ bytes p, Packet.decode bytes = .ok p → ∀ m ∈ p.messages, m.Legal :=
    fun bytes p hdecode => (Packet.wireForm_of_decode hdecode).legal
  refine ⟨hlegal, fun e methods call hcall => ?_⟩
  obtain ⟨closes, bytes, p, harrived, hdecode, hmessage⟩ := e.exists_datagram_of_mem_calls hcall
  exact ⟨hlegal _ p hdecode _ hmessage, closes, bytes, p, harrived, hdecode, hmessage⟩

theorem Endpoint.legal_of_mem_calls_mixed :
    Packet.decode Packet.mixedBytes = .ok Packet.mixed ∧ (∀ m ∈ Packet.mixed.messages, m.Legal) ∧
      let served := (listening [.datagram false Packet.mixedBytes]).serve (some .pair)
      served.calls.map Call.made =
          [("closing", ⟨"/x", []⟩), ("closing", ⟨"/y", [.int 9]⟩), ("closing", ⟨"/z", []⟩)] ∧
        ∀ call ∈ served.calls, call.message.Legal := by
  obtain ⟨hread, hserved⟩ := legal_of_mem_calls
  have hmixed := Packet.wireForm_mixed.decode
  refine ⟨hmixed, hread _ _ hmixed, by decide +kernel, fun call hcall => ?_⟩
  exact (hserved _ _ call hcall).1

end OpenSound
