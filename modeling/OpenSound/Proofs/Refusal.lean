import OpenSound.Proofs.WireForm
/-!
# Invalid addresses are refused

The writer writes an address as it stands, so that a receiver is safe rests on the reader alone. The
reader decides between message and bundle before it looks at any address, by the first eight bytes. A
written message begins with these exactly if its address is `#bundle`, so every other invalid address
comes to be read as an address, and is refused by its first fault. In a bundle the reader meets the
elements in wire order: those in front of the invalid address are read, and then the whole bundle
fails with the fault of that address, whatever stands behind it.

The address `#bundle` is the exception that the format leaves open: type tags and arguments behind it
are read as a time tag and elements.
-/

namespace OpenSound

variable {m : Message} {fault : AddressFault}

/-- A message read from what is written for an invalid address fails with the fault of the address. -/
theorem Message.decode_of_invalid {bytes : Bytes} (hinvalid : Address.validate m.address = .error fault)
    (hwritten : m.encode = .ok bytes) :
    Message.decode bytes = .error (.malformedPacket (.address fault)) := by
  have haligned := Message.mod_four_of_encode hwritten
  obtain ⟨address, typetags, payloads, haddress, -, -, rfl⟩ := Message.encode_eq_ok_iff.1 hwritten
  unfold Message.decode
  rw [if_neg (not_not.2 haligned), decodeText_append haddress]
  simp only [mapError_ok, mapError_error, ok_bind, hinvalid, error_bind]

namespace Packet

/-- What is written for the packet is refused for the address of the message, if all messages in front
of it have valid addresses. -/
def RefusedFor (m : Message) (fault : AddressFault) (p : Packet) : Prop :=
  ∀ (before after : List Message) (bytes : Bytes), p.messages = before ++ m :: after →
    (∀ n ∈ before, Address.Valid n.address) → layout p = .ok bytes →
      Packet.decode bytes = .error (.malformedPacket (.address fault))

theorem exists_of_append_eq_append_cons {α : Type} {front back before after : List α} {a : α}
    (h : front ++ back = before ++ a :: after) :
    (∃ after', front = before ++ a :: after') ∨
      ∃ before', before = front ++ before' ∧ back = before' ++ a :: after := by
  rcases List.append_eq_append_iff.1 h with ⟨before', hbefore, hback⟩ | ⟨rest, hfront, hrest⟩
  · exact .inr ⟨before', hbefore, hback⟩
  · cases rest with
    | nil => exact .inr ⟨[], by simpa using hfront.symm, by simpa using hrest.symm⟩
    | cons b rest =>
      cases hrest
      exact .inl ⟨rest, hfront⟩

theorem parseElements_of_refusedFor {ps : List Packet} (hrefused : ∀ p ∈ ps, RefusedFor m fault p)
    {before after : List Message} {body : Bytes}
    (hmessages : ps.flatMap messages = before ++ m :: after)
    (hbefore : ∀ n ∈ before, Address.Valid n.address) (hbody : layoutElements ps = .ok body) :
    parseElements body = .error (.malformedPacket (.address fault)) := by
  induction ps generalizing before body with
  | nil => exact absurd hmessages.symm (by simp)
  | cons p ps ih =>
    obtain ⟨element, others, helement, hsize, hothers, rfl⟩ := layoutElements_cons_eq_ok_iff.1 hbody
    obtain ⟨hp, hps⟩ := List.forall_mem_cons.1 hrefused
    have haligned : 4 ∣ element.length := length_of_layout helement ▸ four_dvd_size p
    rw [parseElements_frame (ne_nil_of_layout helement) haligned hsize]
    rw [List.flatMap_cons] at hmessages
    rcases exists_of_append_eq_append_cons hmessages with ⟨after', hinside⟩ | ⟨before', hfront, hback⟩
    · rw [hp before after' element hinside hbefore helement, error_bind]
    · subst hfront
      obtain ⟨hvalid, hbefore'⟩ := List.forall_mem_append.1 hbefore
      rw [(WireForm.of_layout hvalid helement).decode, ih hps hback hbefore' hothers]
      rfl

/-- A packet with an invalid address is refused for it, unless the address is `#bundle`. -/
theorem refusedFor (hinvalid : Address.validate m.address = .error fault)
    (hmarker : m.address ≠ "#bundle") (p : Packet) : RefusedFor m fault p := by
  induction p using Packet.induct with
  | message n =>
    intro before after bytes hmessages _ hlayout
    rw [messages_message] at hmessages
    obtain rfl : n = m := by
      cases before with
      | nil => exact (List.cons.inj hmessages).1
      | cons first before => simp at hmessages
    have hstarts := not_startsBundle_encode hlayout hmarker
    rw [decode_of_not_startsBundle (ne_nil_of_layout hlayout) hstarts,
      Message.decode_of_invalid hinvalid hlayout]
    rfl
  | bundle timetag elements ih =>
    intro before after bytes hmessages hbefore hlayout
    obtain ⟨body, hbody, rfl⟩ := layout_bundle_eq_ok_iff.1 hlayout
    rw [messages_bundle] at hmessages
    rw [decode_header, parseElements_of_refusedFor ih hmessages hbefore hbody]
    rfl

/-- Whatever is written, alone or at any depth of a bundle, with an invalid address other than
`#bundle` is refused for the first such address. -/
theorem decode_eq_error_of_invalid_address {p : Packet} {before after : List Message} {bytes : Bytes}
    (hmessages : p.messages = before ++ m :: after)
    (hbefore : ∀ n ∈ before, Address.Valid n.address)
    (hinvalid : Address.validate m.address = .error fault) (hmarker : m.address ≠ "#bundle")
    (hwritten : p.encode = .ok bytes) :
    Packet.decode bytes = .error (.malformedPacket (.address fault)) :=
  refusedFor hinvalid hmarker p before after bytes hmessages hbefore (encode_eq_ok_iff.1 hwritten)

/-- Invalid addresses in a bundle inside a bundle, behind a valid one and in front of another. -/
def nestedInvalid : Packet :=
  .bundle .immediate [
    .message ⟨"/valid", [.nil]⟩,
    .bundle ⟨5, 6⟩ [.message ⟨"/a#b", [.string "text"]⟩, .message ⟨"#bundle", []⟩],
    .message ⟨"/last", []⟩]

theorem decode_eq_error_nestedInvalid :
    nestedInvalid.messages =
        [⟨"/valid", [.nil]⟩] ++ ⟨"/a#b", [.string "text"]⟩ :: [⟨"#bundle", []⟩, ⟨"/last", []⟩] ∧
      Address.validate "/a#b" = .error (.reserved '#' 2 "/a#b") ∧
      ∃ bytes, nestedInvalid.encode = .ok bytes ∧
        Packet.decode bytes = .error (.malformedPacket (.address (.reserved '#' 2 "/a#b"))) := by
  have hmessages : nestedInvalid.messages =
      [⟨"/valid", [.nil]⟩] ++ ⟨"/a#b", [.string "text"]⟩ :: [⟨"#bundle", []⟩, ⟨"/last", []⟩] := by
    simp [nestedInvalid]
  have hinvalid : Address.validate "/a#b" = .error (.reserved '#' 2 "/a#b") := by decide
  have hnul : nestedInvalid.NulFree := by
    rw [NulFree, hmessages]
    decide
  obtain ⟨bytes, hlayout⟩ := exists_layout_iff.2 ⟨hnul, fits_of_size_lt (by decide)⟩
  have hwritten := encode_eq_ok_iff.2 hlayout
  exact ⟨hmessages, hinvalid, bytes, hwritten,
    decode_eq_error_of_invalid_address hmessages (by decide) hinvalid (by decide) hwritten⟩

/-- With the address `#bundle`, the type tags stand where a time tag does, and a number and a text
where an element does. -/
def disguised : Message where
  address := "#bundle"
  arguments := [.int 4, .string "/x", .nil]

/-- The address of the message is invalid, yet what is written for it is read, as a bundle that holds
a message with a valid address. -/
theorem decode_disguised :
    Address.validate disguised.address = .error (.missingSlash "#bundle") ∧
      ∃ bytes, (message disguised).encode = .ok bytes ∧
        Packet.decode bytes = .ok (.bundle ⟨0x2C69734E, 0⟩ [.message ⟨"/x", []⟩]) := by
  have hform : WireForm (.bundle ⟨0x2C69734E, 0⟩ [.message ⟨"/x", []⟩])
      (bundleHeader ⟨0x2C69734E, 0⟩ ++ frames [[0x2F, 0x78, 0, 0]]) := by
    apply WireForm.bundle ⟨0x2C69734E, 0⟩ [(.message ⟨"/x", []⟩, [0x2F, 0x78, 0, 0])]
    · intro e he
      obtain rfl := List.mem_singleton.1 he
      exact .untagged (by decide) (by decide)
    · decide
  refine ⟨by decide, _, ?_, hform.decode⟩
  rw [encode_eq_ok_iff]
  decide

end Packet

end OpenSound
