import OpenSound.Proofs.Nesting
/-!
# Bundles by recursion

The format of bundles as its rules say it, one check after the other, with nothing kept on the side: a
bundle is read by reading its elements, and an element that begins like a bundle is read as one. The
reader with a stack of open bundles reads every input like this, and finds the same fault in every input
that it refuses (`Bundle.decode_eq_read`).
-/

namespace OpenSound

mutual

/-- Reads a bundle: its length is checked, then its marker, and behind its time tag stand its
elements. -/
def Bundle.read (bytes : Bytes) : Except Error Bundle :=
  if bytes.length < 16 then .error (.malformedPacket (.short .bundleHeader 16 bytes.length))
  else if bundleMarker <+: bytes then do
    let elements ← readElements (bytes.drop 16)
    .ok ⟨TimeTag.ofBits (Bytes.word64 ((bytes.drop 8).take 8)), elements⟩
  else .error (.malformedPacket .missingMarker)
termination_by bytes.length
decreasing_by
  rw [List.length_drop]
  omega

/-- Reads one element after the other up to the end of the bytes: the size of the first, the first
itself, and the others. -/
def readElements (bytes : Bytes) : Except Error (List Packet) :=
  if bytes = [] then .ok []
  else if bytes.length < 4 then .error (.malformedPacket (.short .elementSize 4 bytes.length))
  else
    let size := Bytes.value (bytes.take 4)
    let body := bytes.drop 4
    if size % 4 ≠ 0 then .error (.malformedPacket (.elementSize size))
    else if body.length < size then .error (.malformedPacket (.short .element size body.length))
    else if size = 0 then .error (.malformedPacket .emptyElement)
    else do
      let element := body.take size
      let first ← (
        if bundleMarker <+: element then Bundle.toPacket <$> Bundle.read element
        else Packet.message <$> Message.decode element)
      let others ← readElements (body.drop size)
      .ok (first :: others)
termination_by bytes.length
decreasing_by
  · rw [List.length_take, List.length_drop]
    omega
  · rw [List.length_drop, List.length_drop]
    omega

end

/-! ### The same through the readers of headers and of elements -/

theorem Bundle.read_eq (bytes : Bytes) :
    Bundle.read bytes = (do
      let (timetag, body) ← (splitHeader bytes).mapError .malformedPacket
      let elements ← readElements body
      .ok ⟨timetag, elements⟩) := by
  unfold Bundle.read splitHeader
  simp only [startsBundle, List.isPrefixOf_iff_prefix]
  split
  · rfl
  split <;> rfl

theorem splitElement_eq (bytes : Bytes) :
    splitElement bytes =
      if bytes.length < 4 then .error (.short .elementSize 4 bytes.length)
      else
        let size := Bytes.value (bytes.take 4)
        let body := bytes.drop 4
        if size % 4 ≠ 0 then .error (.elementSize size)
        else if body.length < size then .error (.short .element size body.length)
        else if size = 0 then .error .emptyElement
        else .ok (body.take size, body.drop size) := by
  unfold splitElement Bytes.split?
  by_cases hword : 4 ≤ bytes.length
  · rw [if_pos hword, if_neg (Nat.not_lt.2 hword)]
    dsimp only
    split
    · rfl
    -- An element that is not cut short is empty exactly if its size says so.
    by_cases hbody : Bytes.value (bytes.take 4) ≤ (bytes.drop 4).length
    · have hempty : (bytes.drop 4).take (Bytes.value (bytes.take 4)) = [] ↔
          Bytes.value (bytes.take 4) = 0 := by
        rw [← List.length_eq_zero_iff, List.length_take_of_le hbody]
      simp only [if_pos hbody, if_neg (Nat.not_lt.2 hbody), hempty]
    · rw [if_neg hbody, if_pos (Nat.lt_of_not_le hbody)]
  · rw [if_neg hword, if_pos (Nat.lt_of_not_le hword)]

theorem readElements_of_ne_nil {bytes : Bytes} (hbytes : bytes ≠ []) :
    readElements bytes = (do
      let (element, rest) ← (splitElement bytes).mapError .malformedPacket
      let first ← (
        if startsBundle element then Bundle.toPacket <$> Bundle.read element
        else Packet.message <$> Message.decode element)
      let others ← readElements rest
      .ok (first :: others)) := by
  rw [readElements, if_neg hbytes, splitElement_eq]
  split
  · rfl
  dsimp only
  split
  · rfl
  split
  · rfl
  split
  · rfl
  simp only [startsBundle, List.isPrefixOf_iff_prefix, mapError_ok, ok_bind]

/-! ### Both recursions -/

theorem readElements_eq_parseElements (bytes : Bytes) : readElements bytes = parseElements bytes := by
  -- The elements of an inner bundle are in the middle of the bytes, so the induction is on the length.
  induction hlength : bytes.length using Nat.strongRecOn generalizing bytes with
  | ind length ih =>
  subst hlength
  by_cases hbytes : bytes = []
  · rw [readElements, parseElements, if_pos hbytes, if_pos hbytes]
  rw [readElements_of_ne_nil hbytes, parseElements_of_ne_nil hbytes]
  cases hsplit : splitElement bytes with
  | error fault => rfl
  | ok split =>
    obtain ⟨element, rest⟩ := split
    have hshorter := length_of_splitElement hsplit
    simp only [mapError_ok, ok_bind, ih rest.length (by omega) rest rfl]
    split
    · rw [Bundle.read_eq]
      cases hheader : splitHeader element with
      | error fault => rfl
      | ok header =>
        obtain ⟨timetag, body⟩ := header
        have hbody := length_of_splitHeader hheader
        simp only [mapError_ok, ok_bind, ih body.length (by omega) body rfl]
        cases parseElements body <;> rfl
    · cases Message.decode element <;> rfl

/-- Reading with a stack of open bundles is reading by recursion, on every input, down to the fault that
is found. -/
theorem Bundle.decode_eq_read (bytes : Bytes) : Bundle.decode bytes = Bundle.read bytes := by
  rw [Bundle.decode_eq_parse, Bundle.parse, Bundle.read_eq]
  cases splitHeader bytes with
  | error fault => rfl
  | ok header =>
    simp only [mapError_ok, ok_bind, readElements_eq_parseElements]
    cases parseElements header.2 <;> rfl

end OpenSound
