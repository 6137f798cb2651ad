import OpenSound.Proofs.Layout
/-!
# What the reader of packets reads

The reader of bundles keeps the bundles that it is inside of on a stack. Reading on in the current
bundle is reading all its elements by recursion, then going on in the enclosing bundles with what was
read (`decodeOpen_eq_parseElements`): so nothing is lost on the stack, every element ends up in its
own bundle, and the first failure in wire order is the one reported. The equations at the end state
the format without the stack: a packet is a message or a header with elements behind it, and an
element is a packet behind its size.
-/

namespace OpenSound

/-! ### Headers and elements -/

theorem startsBundle_iff {bytes : Bytes} :
    startsBundle bytes = true ↔ ∃ rest, bytes = bundleMarker ++ rest := by
  rw [startsBundle, List.isPrefixOf_iff_prefix]
  apply Iff.intro
  · intro h
    obtain ⟨rest, h⟩ := h
    exact ⟨rest, h.symm⟩
  · intro h
    obtain ⟨rest, h⟩ := h
    exact ⟨rest, h.symm⟩

theorem startsBundle_header (timetag : TimeTag) (body : Bytes) :
    startsBundle (bundleHeader timetag ++ body) = true := by
  rw [startsBundle_iff]
  exact ⟨timetag.encode ++ body, by rw [bundleHeader, List.append_assoc]⟩

theorem splitHeader_eq_ok_iff {bytes body : Bytes} {timetag : TimeTag} :
    splitHeader bytes = .ok (timetag, body) ↔ bytes = bundleHeader timetag ++ body := by
  apply Iff.intro
  · intro h
    unfold splitHeader at h
    split at h
    · cases h
    rename_i hlong
    split at h
    · rename_i hstarts
      cases h
      obtain ⟨rest, rfl⟩ := startsBundle_iff.1 hstarts
      rw [List.length_append, length_bundleMarker] at hlong
      have htimetag : ((bundleMarker ++ rest).drop 8).take 8 = rest.take 8 := by
        rw [List.drop_left' length_bundleMarker]
      have hbody : (bundleMarker ++ rest).drop 16 = rest.drop 8 := rfl
      have hwidth : (rest.take 8).length = 8 := by
        rw [List.length_take]
        omega
      rw [htimetag, hbody, bundleHeader, TimeTag.encode_decode hwidth, List.append_assoc,
        List.take_append_drop]
    · cases h
  · intro h
    subst h
    have hlong : ¬ (bundleHeader timetag ++ body).length < 16 := by
      rw [List.length_append, length_bundleHeader]
      omega
    have htimetag : ((bundleHeader timetag ++ body).drop 8).take 8 = timetag.encode := by
      rw [bundleHeader, List.append_assoc, List.drop_left' length_bundleMarker,
        List.take_left' timetag.length_encode]
    have hbody : (bundleHeader timetag ++ body).drop 16 = body :=
      List.drop_left' (length_bundleHeader timetag)
    unfold splitHeader
    rw [if_neg hlong, if_pos (startsBundle_header timetag body), htimetag, hbody,
      TimeTag.decode_encode]

open Packet (frame)

theorem splitElement_eq_ok_iff {bytes element rest : Bytes} :
    splitElement bytes = .ok (element, rest) ↔
      element ≠ [] ∧ 4 ∣ element.length ∧ element.length < UInt32.size ∧
        bytes = frame element ++ rest := by
  apply Iff.intro
  · intro h
    unfold splitElement at h
    split at h
    · cases h
    rename_i word body hword
    obtain ⟨hwidth, rfl⟩ := Bytes.split?_eq_some_iff.1 hword
    dsimp only at h
    split at h
    · cases h
    rename_i haligned
    split at h
    · cases h
    rename_i front rest' hbody
    obtain ⟨hlength, rfl⟩ := Bytes.split?_eq_some_iff.1 hbody
    split at h
    · cases h
    rename_i hne
    cases h
    have hlt := Bytes.value_lt word
    rw [hwidth] at hlt
    refine ⟨hne, ?_, ?_, ?_⟩
    · rw [hlength]
      omega
    · rw [hlength]
      exact hlt
    · have hcount : Bytes.ofWord32 (UInt32.ofNat element.length) = word := by
        rw [hlength]
        exact Bytes.ofWord32_word32 hwidth
      rw [frame, hcount, List.append_assoc]
  · intro h
    obtain ⟨hne, haligned, hsize, rfl⟩ := h
    have hcount : Bytes.value (Bytes.ofWord32 (UInt32.ofNat element.length)) = element.length := by
      rw [Bytes.value_ofWord32, UInt32.toNat_ofNat_of_lt' hsize]
    have hmod : ¬ element.length % 4 ≠ 0 := by omega
    unfold splitElement
    rw [frame, List.append_assoc, Bytes.split?_append (Bytes.length_ofWord32 _)]
    simp only [hcount, hmod, if_false, Bytes.split?_append rfl, hne]

/-! ### One step of each reader -/

theorem decodeOpen_of_ne_nil {current : OpenBundle} (hrest : current.rest ≠ [])
    (enclosing : List OpenBundle) :
    decodeOpen current enclosing = (do
      let (element, rest) ← (splitElement current.rest).mapError .malformedPacket
      if startsBundle element then
        let (timetag, body) ← (splitHeader element).mapError .malformedPacket
        decodeOpen ⟨timetag, [], body⟩ ({ current with rest := rest } :: enclosing)
      else
        let m ← Message.decode element
        decodeOpen ⟨current.timetag, .message m :: current.read, rest⟩ enclosing) := by
  rw [decodeOpen.eq_def, if_neg hrest]
  split
  · rename_i fault hsplit
    rw [hsplit]
    rfl
  rename_i element rest hsplit
  simp only [hsplit, mapError_ok, ok_bind]
  split
  · split
    · rename_i fault hheader
      rw [hheader]
      rfl
    · rename_i timetag body hheader
      rw [hheader]
      rfl
  · cases Message.decode element <;> rfl

theorem parseElements_of_ne_nil {bytes : Bytes} (hbytes : bytes ≠ []) :
    parseElements bytes = (do
      let (element, rest) ← (splitElement bytes).mapError .malformedPacket
      if startsBundle element then
        let (timetag, body) ← (splitHeader element).mapError .malformedPacket
        let inner ← parseElements body
        let others ← parseElements rest
        .ok (.bundle timetag inner :: others)
      else
        let m ← Message.decode element
        let others ← parseElements rest
        .ok (.message m :: others)) := by
  rw [parseElements.eq_def, if_neg hbytes]
  split
  · rename_i fault hsplit
    rw [hsplit]
    rfl
  rename_i element rest hsplit
  simp only [hsplit, mapError_ok, ok_bind]
  split
  · split
    · rename_i fault hheader
      rw [hheader]
      rfl
    · rename_i timetag body hheader
      rw [hheader]
      rfl
  · rfl

/-! ### Without the stack -/

/-- Reading on in the current bundle reads its elements by recursion, adds them to those read before,
and leaves the bundle with nothing unread. -/
theorem decodeOpen_eq_parseElements (timetag : TimeTag) (read : List Packet) (rest : Bytes)
    (enclosing : List OpenBundle) :
    decodeOpen ⟨timetag, read, rest⟩ enclosing = (do
      let inner ← parseElements rest
      decodeOpen ⟨timetag, inner.reverse ++ read, []⟩ enclosing) := by
  -- The elements inside and those after an element are both read from fewer bytes.
  induction hlength : rest.length using Nat.strongRecOn
    generalizing timetag read rest enclosing with
  | ind length ih =>
  subst hlength
  by_cases hrest : rest = []
  · subst hrest
    rw [parseElements, if_pos rfl]
    rfl
  rw [decodeOpen_of_ne_nil hrest, parseElements_of_ne_nil hrest]
  simp only [bind_assoc]
  cases hsplit : splitElement rest with
  | error fault => rfl
  | ok split =>
    obtain ⟨element, rest'⟩ := split
    have hshorter := length_of_splitElement hsplit
    simp only [mapError_ok, ok_bind]
    split
    · cases hheader : splitHeader element with
      | error fault => rfl
      | ok header =>
        obtain ⟨timetag', body⟩ := header
        have hbody := length_of_splitHeader hheader
        simp only [mapError_ok, ok_bind, bind_assoc]
        rw [ih body.length (by omega) timetag' [] body _ rfl]
        apply bind_congr
        intro inner
        rw [decodeOpen.eq_def, if_pos rfl]
        simp only [OpenBundle.push, OpenBundle.finish, Bundle.toPacket, List.append_nil,
          List.reverse_reverse]
        rw [ih rest'.length (by omega) timetag _ rest' _ rfl]
        apply bind_congr
        intro others
        simp
    · simp only [bind_assoc]
      apply bind_congr
      intro m
      rw [ih rest'.length (by omega) timetag _ rest' _ rfl]
      apply bind_congr
      intro others
      simp

/-- Keeping open bundles on a stack reads what recursion reads, and fails as recursion fails. -/
theorem Bundle.decode_eq_parse (bytes : Bytes) : Bundle.decode bytes = Bundle.parse bytes := by
  unfold Bundle.decode Bundle.parse
  cases splitHeader bytes with
  | error fault => rfl
  | ok header =>
    simp only
    rw [decodeOpen_eq_parseElements]
    cases parseElements header.2 with
    | error e => rfl
    | ok inner =>
      rw [ok_bind, decodeOpen.eq_def, if_pos rfl]
      simp only [OpenBundle.finish, List.append_nil, List.reverse_reverse]
      rfl

/-! ### The format, element by element -/

theorem Packet.decode_header (timetag : TimeTag) (body : Bytes) :
    Packet.decode (bundleHeader timetag ++ body) =
      Packet.bundle timetag <$> parseElements body := by
  have hne : bundleHeader timetag ++ body ≠ [] := by
    intro h
    have hlength := congrArg List.length h
    rw [List.length_append, length_bundleHeader, List.length_nil] at hlength
    omega
  unfold Packet.decode
  rw [if_neg hne, if_pos (startsBundle_header timetag body), Bundle.decode_eq_parse, Bundle.parse,
    splitHeader_eq_ok_iff.2 rfl]
  simp only
  cases parseElements body <;> rfl

theorem Packet.decode_of_not_startsBundle {bytes : Bytes} (hne : bytes ≠ [])
    (hstarts : startsBundle bytes = false) :
    Packet.decode bytes = Packet.message <$> Message.decode bytes := by
  unfold Packet.decode
  rw [if_neg hne, if_neg (by rw [hstarts]; decide)]

theorem parseElements_frame {element : Bytes} (hne : element ≠ []) (haligned : 4 ∣ element.length)
    (hsize : element.length < UInt32.size) (rest : Bytes) :
    parseElements (frame element ++ rest) = (do
      let p ← Packet.decode element
      let others ← parseElements rest
      .ok (p :: others)) := by
  have hframe : frame element ++ rest ≠ [] := by
    intro h
    have hlength := congrArg List.length h
    rw [List.length_append, Packet.length_frame, List.length_nil] at hlength
    omega
  rw [parseElements_of_ne_nil hframe, splitElement_eq_ok_iff.2 ⟨hne, haligned, hsize, rfl⟩]
  unfold Packet.decode
  simp only [mapError_ok, ok_bind, if_neg hne]
  split
  · rw [Bundle.decode_eq_parse, Bundle.parse]
    cases splitHeader element with
    | error fault => rfl
    | ok header =>
      obtain ⟨timetag, body⟩ := header
      simp only [mapError_ok, ok_bind]
      cases parseElements body <;> rfl
  · cases Message.decode element <;> rfl

end OpenSound
