import OpenSound.Proofs.WireForm
/-!
# How much freedom the wire form leaves

Everything that can be read is, but for one tolerance, what the writer writes: padding, terminators,
sizes and the order of bytes are all pinned down, and nothing may be left over. The tolerance is a
message that ends after its address. Where it is used is visible in the bytes alone, so
`untaggedMessages` counts it without reading a packet: the messages of the bytes, at any depth, that
lack their type tags. Writing a packet that was read gives each of them the four bytes of an empty list
of type tags, and changes nothing else but the sizes around them. One of these may get too large for its
four bytes on the way, and then the packet cannot be written (`encode_crowded`).
-/

namespace OpenSound

/-! ### Messages without type tags, found in the bytes -/

/-- The bytes of the messages, at any depth, among the elements that can be taken off one after the
other. -/
def elementSlices (bytes : Bytes) : List Bytes :=
  match _hsplit : splitElement bytes with
  | .error _ => []
  | .ok (element, rest) =>
    if startsBundle element then elementSlices (element.drop 16) ++ elementSlices rest
    else element :: elementSlices rest
termination_by bytes.length
decreasing_by
  · have hlength := length_of_splitElement _hsplit
    rw [List.length_drop]
    omega
  · have hlength := length_of_splitElement _hsplit
    omega
  · have hlength := length_of_splitElement _hsplit
    omega

/-- The bytes of the messages, at any depth, in wire order. -/
def messageSlices (bytes : Bytes) : List Bytes :=
  if startsBundle bytes then elementSlices (bytes.drop 16) else [bytes]

/-- How many messages, at any depth, end right after their address. -/
def untaggedMessages (bytes : Bytes) : Nat := (messageSlices bytes).countP lacksTypetags

theorem elementSlices_nil : elementSlices [] = [] := by
  rw [elementSlices]
  rfl

open Packet (frame frames WireForm)

theorem elementSlices_frame {element : Bytes} (hne : element ≠ []) (haligned : 4 ∣ element.length)
    (hsize : element.length < UInt32.size) (rest : Bytes) :
    elementSlices (frame element ++ rest) = messageSlices element ++ elementSlices rest := by
  have hsplit : splitElement (frame element ++ rest) = .ok (element, rest) :=
    splitElement_eq_ok_iff.2 ⟨hne, haligned, hsize, rfl⟩
  rw [elementSlices.eq_def, messageSlices]
  split
  · simp_all
  · rename_i element' rest' hsplit'
    rw [hsplit] at hsplit'
    cases hsplit'
    split <;> rfl

theorem untaggedMessages_bundle {timetag : TimeTag} {elements : List (Packet × Bytes)}
    (hforms : ∀ e ∈ elements, WireForm e.1 e.2) (hsizes : ∀ e ∈ elements, e.2.length < UInt32.size) :
    untaggedMessages (bundleHeader timetag ++ frames (elements.map Prod.snd)) =
      (elements.map fun e => untaggedMessages e.2).sum := by
  rw [untaggedMessages, messageSlices, if_pos (startsBundle_header _ _),
    List.drop_left' (length_bundleHeader timetag)]
  induction elements with
  | nil => rw [List.map_nil, Packet.frames_nil, elementSlices_nil]; rfl
  | cons e elements ih =>
    obtain ⟨hform, hforms⟩ := List.forall_mem_cons.1 hforms
    obtain ⟨hsize, hsizes⟩ := List.forall_mem_cons.1 hsizes
    rw [List.map_cons, Packet.frames_cons,
      elementSlices_frame hform.ne_nil hform.four_dvd_length hsize, List.countP_append,
      ih hforms hsizes, List.map_cons, List.sum_cons, untaggedMessages]

theorem untaggedMessages_of_not_startsBundle {bytes : Bytes} (h : startsBundle bytes = false) :
    untaggedMessages bytes = if lacksTypetags bytes then 1 else 0 := by
  rw [untaggedMessages, messageSlices, if_neg (by rw [h]; decide), List.countP_singleton]

namespace Packet

theorem WireForm.forall_mem_messages {p : Packet} {bytes : Bytes} (h : WireForm p bytes) :
    ∀ m ∈ p.messages, Address.Valid m.address ∧ m.NulFree := by
  induction h with
  | @tagged m bytes hvalid hwritten =>
    rw [messages_message, List.forall_mem_singleton]
    exact ⟨hvalid, (Message.exists_encode_iff.1 ⟨bytes, hwritten⟩).1⟩
  | @untagged address bytes hvalid hwritten =>
    rw [messages_message, List.forall_mem_singleton]
    exact ⟨hvalid, exists_encodeText_iff.1 ⟨bytes, hwritten⟩, by simp⟩
  | bundle timetag elements _ _ ih =>
    rw [forall_mem_messages_bundle]
    intro p hp
    obtain ⟨e, he, rfl⟩ := List.mem_map.1 hp
    exact ih e he

theorem untaggedMessages_tagged {m : Message} {bytes : Bytes} (hvalid : Address.Valid m.address)
    (hwritten : m.encode = .ok bytes) : untaggedMessages bytes = 0 := by
  have hstarts := not_startsBundle_encode hwritten (ne_marker_of_valid hvalid)
  rw [untaggedMessages_of_not_startsBundle hstarts, Message.lacksTypetags_of_encode hwritten]
  rfl

theorem untaggedMessages_untagged {address : String} {bytes : Bytes}
    (hvalid : Address.Valid address) (hwritten : encodeText address = .ok bytes) :
    untaggedMessages bytes = 1 := by
  have hstarts := not_startsBundle_encodeText hwritten (ne_marker_of_valid hvalid)
  rw [untaggedMessages_of_not_startsBundle hstarts, lacksTypetags_iff.2 ⟨address, hwritten⟩]
  rfl

/-- A packet takes four bytes more than those it was read from for each message without type tags. -/
theorem WireForm.size_eq {p : Packet} {bytes : Bytes} (h : WireForm p bytes) :
    p.size = bytes.length + 4 * untaggedMessages bytes := by
  induction h with
  | @tagged m bytes hvalid hwritten =>
    rw [untaggedMessages_tagged hvalid hwritten, Message.length_of_encode hwritten, size,
      Nat.mul_zero, Nat.add_zero]
  | @untagged address bytes hvalid hwritten =>
    have htypetags : textSize (Message.typetags ⟨address, []⟩) = 4 := by
      change textSize "," = 4
      decide
    rw [untaggedMessages_untagged hvalid hwritten, length_of_encodeText hwritten, size, Message.size,
      htypetags, List.map_nil, List.sum_nil, Nat.add_zero]
  | bundle timetag elements hinner hsizes ih =>
    have hall : sizeAll (elements.map Prod.fst) = (frames (elements.map Prod.snd)).length +
        4 * (elements.map fun e => untaggedMessages e.2).sum := by
      clear hinner hsizes
      induction elements with
      | nil => rfl
      | cons e elements ihe =>
        obtain ⟨hfirst, hothers⟩ := List.forall_mem_cons.1 ih
        simp only [List.map_cons, frames_cons, List.length_append, length_frame, List.sum_cons,
          sizeAll, hfirst, ihe hothers]
        omega
    rw [untaggedMessages_bundle hinner hsizes, size, hall, List.length_append, length_bundleHeader]
    omega

/-- Bytes with all type tags are what the writer writes for the packet that they stand for. -/
theorem WireForm.layout_eq {p : Packet} {bytes : Bytes} (h : WireForm p bytes)
    (htagged : untaggedMessages bytes = 0) : layout p = .ok bytes := by
  induction h with
  | tagged _ hwritten => exact hwritten
  | untagged hvalid hwritten =>
    rw [untaggedMessages_untagged hvalid hwritten] at htagged
    cases htagged
  | bundle timetag elements hinner hsizes ih =>
    rw [untaggedMessages_bundle hinner hsizes, List.sum_eq_zero_iff] at htagged
    have hwritten : ∀ e ∈ elements, layout e.1 = .ok e.2 := by
      intro e he
      exact ih e he (htagged _ (List.mem_map_of_mem he))
    have hbody := layoutElements_eq_ok_iff.2 ⟨elements, rfl, rfl, hwritten, hsizes⟩
    exact layout_bundle_eq_ok_iff.2 ⟨_, hbody, rfl⟩

/-- What was read can be written again, unless the type tags that were missing make it too long. What
is written is longer than what was read by four bytes for each message without type tags, is the same
bytes exactly if there is none, and is read as the same packet. So bytes with all type tags are
determined by the packet that they are read as. -/
theorem encode_of_decode {bytes : Bytes} {p : Packet} (hread : Packet.decode bytes = .ok p) :
    (untaggedMessages bytes = 0 ∨ bytes.length + 4 * untaggedMessages bytes < UInt32.size →
      ∃ written, p.encode = .ok written) ∧
    (∀ written, p.encode = .ok written →
      written.length = bytes.length + 4 * untaggedMessages bytes ∧
        (written = bytes ↔ untaggedMessages bytes = 0) ∧ Packet.decode written = .ok p) ∧
    ∀ other, Packet.decode other = .ok p → untaggedMessages bytes = 0 →
      untaggedMessages other = 0 → other = bytes := by
  have hform := decode_eq_ok_iff.1 hread
  have hmessages := hform.forall_mem_messages
  have hsize := hform.size_eq
  refine ⟨fun hshort => ?_, fun written hwritten => ?_, fun other hother htagged hothertagged => ?_⟩
  · rcases hshort with htagged | hshort
    · exact ⟨bytes, encode_eq_ok_iff.2 (hform.layout_eq htagged)⟩
    · rw [← hsize] at hshort
      obtain ⟨written, hlayout⟩ :=
        exists_layout_iff.2 ⟨fun m hm => (hmessages m hm).2, fits_of_size_lt hshort⟩
      exact ⟨written, encode_eq_ok_iff.2 hlayout⟩
  · rw [encode_eq_ok_iff] at hwritten
    have hlength : written.length = bytes.length + 4 * untaggedMessages bytes := by
      rw [length_of_layout hwritten, hsize]
    refine ⟨hlength, ⟨fun heq => ?_, fun htagged => ?_⟩, ?_⟩
    · rw [heq] at hlength
      omega
    · rw [hform.layout_eq htagged] at hwritten
      cases hwritten
      rfl
    · exact (WireForm.of_layout (fun m hm => (hmessages m hm).1) hwritten).decode
  · have hlayout := (decode_eq_ok_iff.1 hother).layout_eq hothertagged
    rw [hform.layout_eq htagged] at hlayout
    cases hlayout
    rfl

def mixed : Packet :=
  .bundle .immediate [
    .message ⟨"/x", []⟩, .bundle ⟨7, 8⟩ [.message ⟨"/y", [.int 9]⟩, .message ⟨"/z", []⟩]]

/-- The same on the wire, without the type tags of the two messages that have no arguments. -/
def mixedBytes : Bytes :=
  bundleHeader .immediate ++ frames [
    [0x2F, 0x78, 0, 0],
    bundleHeader ⟨7, 8⟩ ++ frames [
      [0x2F, 0x79, 0, 0, 0x2C, 0x69, 0, 0, 0, 0, 0, 9], [0x2F, 0x7A, 0, 0]]]

theorem wireForm_mixed : WireForm mixed mixedBytes := by
  have hx : WireForm (.message ⟨"/x", []⟩) [0x2F, 0x78, 0, 0] := .untagged (by decide) (by decide)
  have hy : WireForm (.message ⟨"/y", [.int 9]⟩) [0x2F, 0x79, 0, 0, 0x2C, 0x69, 0, 0, 0, 0, 0, 9] :=
    .tagged (by decide) (by decide)
  have hz : WireForm (.message ⟨"/z", []⟩) [0x2F, 0x7A, 0, 0] := .untagged (by decide) (by decide)
  have hinner := WireForm.bundle ⟨7, 8⟩ [(_, _), (_, _)]
    (List.forall_mem_cons.2 ⟨hy, List.forall_mem_singleton.2 hz⟩) (by decide)
  exact WireForm.bundle .immediate [(_, _), (_, _)]
    (List.forall_mem_cons.2 ⟨hx, List.forall_mem_singleton.2 hinner⟩) (by decide)

theorem encode_of_decode_mixed :
    Packet.decode mixedBytes = .ok mixed ∧ untaggedMessages mixedBytes = 2 ∧
      ∃ written, mixed.encode = .ok written ∧ written.length = mixedBytes.length + 4 * 2 ∧
        written ≠ mixedBytes ∧ Packet.decode written = .ok mixed := by
  have hread := wireForm_mixed.decode
  have hlength : mixedBytes.length = 68 := by decide
  have hcount : untaggedMessages mixedBytes = 2 := by
    have hsize : mixed.size = 76 := by decide
    rw [wireForm_mixed.size_eq] at hsize
    omega
  obtain ⟨hwrites, hwritten, -⟩ := encode_of_decode hread
  rw [hcount, hlength] at hwrites
  obtain ⟨written, hencode⟩ := hwrites (.inr (by decide))
  obtain ⟨hlonger, hsame, hback⟩ := hwritten written hencode
  rw [hcount] at hlonger hsame
  exact ⟨hread, hcount, written, hencode, hlonger, fun heq => absurd (hsame.1 heq) (by decide), hback⟩

/-! ### Bytes that are read and cannot be written again -/

/-- A bundle that holds a bundle of so many messages without arguments. -/
def crowded (count : Nat) : Packet :=
  .bundle .immediate [.bundle .immediate (List.replicate count (.message ⟨"/x", []⟩))]

/-- The same on the wire, without type tags. -/
def crowdedBytes (count : Nat) : Bytes :=
  bundleHeader .immediate ++ frames [
    bundleHeader .immediate ++ frames (List.replicate count [0x2F, 0x78, 0, 0])]

theorem length_frames_replicate (count : Nat) (element : Bytes) :
    (frames (List.replicate count element)).length = count * (4 + element.length) := by
  induction count with
  | zero => rw [Nat.zero_mul]; rfl
  | succ count ih =>
    rw [List.replicate_succ, frames_cons, List.length_append, length_frame, ih, Nat.succ_mul]
    omega

theorem length_crowdedBytes (count : Nat) : (crowdedBytes count).length = 36 + count * 8 := by
  rw [crowdedBytes, frames_cons, frames_nil, List.append_nil, List.length_append, length_frame,
    List.length_append, length_bundleHeader, length_frames_replicate]
  change 16 + (4 + (16 + count * 8)) = _
  omega

theorem wireForm_crowded {count : Nat} (hsize : 16 + count * 8 < UInt32.size) :
    WireForm (crowded count) (crowdedBytes count) := by
  have hx : WireForm (.message ⟨"/x", []⟩) [0x2F, 0x78, 0, 0] := .untagged (by decide) (by decide)
  have hinner := WireForm.bundle .immediate
    (List.replicate count (Packet.message ⟨"/x", []⟩, [0x2F, 0x78, 0, 0]))
    (fun e he => by rw [List.eq_of_mem_replicate he]; exact hx)
    (fun e he => by rw [List.eq_of_mem_replicate he]; decide)
  rw [List.map_replicate, List.map_replicate] at hinner
  apply WireForm.bundle .immediate [(_, _)] (List.forall_mem_singleton.2 hinner)
  rw [List.forall_mem_singleton, List.length_append, length_bundleHeader, length_frames_replicate]
  exact hsize

theorem sizeAll_replicate (count : Nat) (p : Packet) :
    sizeAll (List.replicate count p) = count * (4 + p.size) := by
  induction count with
  | zero => rw [Nat.zero_mul]; rfl
  | succ count ih =>
    rw [List.replicate_succ, sizeAll, ih, Nat.succ_mul]
    omega

/-- With their type tags the messages take twelve bytes each, their sizes included. -/
theorem encode_crowded {count : Nat} (hsize : UInt32.size ≤ 16 + count * 12) :
    (crowded count).encode = .error (.encodeError (.elementTooLarge (16 + count * 12))) := by
  have hmessage : size (.message ⟨"/x", []⟩) = 8 := by decide
  have hall : ∀ p ∈ List.replicate count (Packet.message ⟨"/x", []⟩), p.NulFree ∧ p.Fits ∧
      p.size < UInt32.size := by
    intro p hp
    rw [List.eq_of_mem_replicate hp, hmessage]
    exact ⟨nulFree_message.2 (by decide), fits_of_size_lt (by rw [hmessage]; decide), by decide⟩
  have hnul : NulFree (.bundle .immediate (List.replicate count (.message ⟨"/x", []⟩))) :=
    nulFree_bundle.2 fun p hp => (hall p hp).1
  have hfits : Fits (.bundle .immediate (List.replicate count (.message ⟨"/x", []⟩))) :=
    .bundle (fun p hp => (hall p hp).2.2) fun p hp => (hall p hp).2.1
  -- The inner bundle on its own can be written: it is its size that does not fit in front of it.
  obtain ⟨inner, hinner⟩ := exists_layout_iff.2 ⟨hnul, hfits⟩
  have hlength : inner.length = 16 + count * 12 := by
    rw [length_of_layout hinner, size, sizeAll_replicate, hmessage]
  rw [encode_eq_layout, crowded, layout, layoutElements_cons, hinner, ok_bind, frame?,
    if_neg (by rw [hlength]; omega), hlength, error_bind, error_bind, mapError_error]

/-- Under four gigabytes of bytes can be read as a packet that takes six to write. -/
theorem encode_decode_crowded :
    (crowdedBytes 536870907).length < UInt32.size ∧
      Packet.decode (crowdedBytes 536870907) = .ok (crowded 536870907) ∧
      (crowded 536870907).encode = .error (.encodeError (.elementTooLarge 6442450900)) :=
  ⟨by rw [length_crowdedBytes]; decide, (wireForm_crowded (by decide)).decode,
    encode_crowded (by decide)⟩

end Packet

end OpenSound
