import OpenSound.Proofs.WireForm
/-!
# Reading back what was written

A packet whose addresses are valid, whose texts hold no zero character and whose sizes fit into four
bytes can be written, and is read back from what was written: the same messages and bundles, nested in
the same way, with every argument the same down to the bits of a floating-point number. Writer and
reader never meet in the proof. Both are compared with the wire form.
-/

namespace OpenSound.Packet

/-- Writing succeeds, takes the bytes that were foreseen, and is undone by reading. -/
theorem exists_encode_and_decode {p : Packet} (hvalid : ∀ m ∈ p.messages, Address.Valid m.address)
    (hnul : p.NulFree) (hfits : p.Fits) :
    ∃ bytes, p.encode = .ok bytes ∧ bytes.length = p.size ∧ Packet.decode bytes = .ok p := by
  obtain ⟨bytes, hlayout⟩ := exists_layout_iff.2 ⟨hnul, hfits⟩
  have hform := WireForm.of_layout hvalid hlayout
  exact ⟨bytes, encode_eq_ok_iff.2 hlayout, length_of_layout hlayout, decode_eq_ok_iff.2 hform⟩

/-- A message with every kind of argument, among them an empty text and blob, a character beyond the
first plane, a quiet and a signalling NaN with payloads, and a negative zero. -/
def everyKind : Message where
  address := "/every/kind"
  arguments := [
    .int (-1), .float ⟨0x7FC00ABC⟩, .float ⟨0x80000000⟩, .string "", .string "naïve",
    .blob [], .blob [0, 1, 2, 3, 4], .long (-2), .double ⟨0xFFF0000000000001⟩, .time ⟨1, 2⟩,
    .symbol "sym", .char '😀', .color ⟨1, 2, 3, 4⟩, .midi ⟨0, 0x90, 60, 127⟩, .bool true, .bool false,
    .nil, .impulse]

/-- Bundles in bundles, an empty one among them, with messages before, inside and after. -/
def nested : Packet :=
  .bundle .immediate [
    .message ⟨"/first", []⟩,
    .bundle ⟨3, 4⟩ [.bundle ⟨0, 0⟩ [], .message everyKind],
    .message everyKind]

theorem exists_encode_and_decode_nested :
    ((∀ m ∈ nested.messages, Address.Valid m.address) ∧ nested.NulFree ∧ nested.Fits) ∧
      ∃ bytes, nested.encode = .ok bytes ∧ bytes.length = nested.size ∧
        Packet.decode bytes = .ok nested := by
  have hmessages : nested.messages = [⟨"/first", []⟩, everyKind, everyKind] := by
    simp [nested]
  have hvalid : ∀ m ∈ nested.messages, Address.Valid m.address := by
    rw [hmessages]
    decide
  have hnul : nested.NulFree := by
    rw [NulFree, hmessages]
    decide
  have hfits : nested.Fits := fits_of_size_lt (by decide)
  exact ⟨⟨hvalid, hnul, hfits⟩, exists_encode_and_decode hvalid hnul hfits⟩

end OpenSound.Packet
