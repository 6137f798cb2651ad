import OpenSound.Proofs.Fields
import OpenSound.Packet.Encoding
/-!
# Arguments and their payloads

The payload of an argument is self-delimiting: its tag says how to find its end. So reading with a tag
and writing are exact inverses of each other, argument by argument (`Argument.decode_eq_ok_iff`) and
for a whole list of arguments (`Argument.decodeAll_eq_ok_iff`), whatever bytes come after.
-/

namespace OpenSound

namespace Argument

variable {bytes rest : Bytes} {a : Argument}

theorem decodeFixed_append {field : Field} {width : Nat} {make : Bytes → Argument}
    {payload : Bytes} (hlength : payload.length = width) :
    decodeFixed field width make (payload ++ rest) = (.ok (make payload), rest) := by
  rw [decodeFixed, Bytes.split?_append hlength]

theorem eq_append_of_decodeFixed {field : Field} {width : Nat} {make : Bytes → Argument}
    (h : decodeFixed field width make bytes = (.ok a, rest)) :
    ∃ payload, payload.length = width ∧ make payload = a ∧ bytes = payload ++ rest := by
  unfold decodeFixed at h
  split at h
  · rename_i payload rest' hsplit
    obtain ⟨hlength, rfl⟩ := Bytes.split?_eq_some_iff.1 hsplit
    cases h
    exact ⟨payload, hlength, rfl, rfl⟩
  · cases h

theorem decodeTextAs_eq_ok_iff {make : String → Argument} :
    decodeTextAs make bytes = (.ok a, rest) ↔
      ∃ text, make text = a ∧ ∃ payload, encodeText text = .ok payload ∧ bytes = payload ++ rest := by
  unfold decodeTextAs
  split
  · rename_i text rest' htext
    apply Iff.intro
    · intro h
      cases h
      exact ⟨text, rfl, decodeText_eq_ok_iff.1 htext⟩
    · intro h
      obtain ⟨text', rfl, hpayload⟩ := h
      rw [decodeText_eq_ok_iff.2 hpayload] at htext
      cases htext
      rfl
  · rename_i fault htext
    apply Iff.intro
    · intro h
      cases h
    · intro h
      obtain ⟨text', -, hpayload⟩ := h
      rw [decodeText_eq_ok_iff.2 hpayload] at htext
      cases htext

theorem decodeBlob_eq_ok_iff :
    decodeBlob bytes = (.ok a, rest) ↔
      ∃ blob, .blob blob = a ∧ ∃ payload, encodeBlob blob = .ok payload ∧ bytes = payload ++ rest := by
  apply Iff.intro
  · intro h
    unfold decodeBlob at h
    split at h
    · cases h
    rename_i word body hword
    obtain ⟨hlength, rfl⟩ := Bytes.split?_eq_some_iff.1 hword
    split at h
    · rename_i blob rest' hbody
      obtain ⟨hblob, rfl⟩ := decodeBlobBody_eq_ok_iff.1 hbody
      cases h
      have hlt := Bytes.value_lt word
      rw [hlength] at hlt
      have hcount : Bytes.ofWord32 (UInt32.ofNat blob.length) = word := by
        rw [hblob]
        exact Bytes.ofWord32_word32 hlength
      refine ⟨blob, rfl, word ++ blob.padded, encodeBlob_eq_ok_iff.2 ⟨?_, by rw [hcount]⟩, ?_⟩
      · rw [hblob]
        exact hlt
      · rw [List.append_assoc]
    · cases h
  · intro h
    obtain ⟨blob, rfl, payload, hwrite, rfl⟩ := h
    obtain ⟨hlt, rfl⟩ := encodeBlob_eq_ok_iff.1 hwrite
    have hcount : Bytes.value (Bytes.ofWord32 (UInt32.ofNat blob.length)) = blob.length := by
      rw [Bytes.value_ofWord32, UInt32.toNat_ofNat_of_lt' hlt]
    have hbody : decodeBlobBody blob.length (blob.padded ++ rest) = .ok (blob, rest) :=
      decodeBlobBody_eq_ok_iff.2 ⟨rfl, rfl⟩
    unfold decodeBlob
    rw [List.append_assoc, Bytes.split?_append (Bytes.length_ofWord32 _)]
    simp only [hcount, hbody]

theorem decodeChar_eq_ok_iff :
    decodeChar bytes = (.ok a, rest) ↔
      ∃ c, .char c = a ∧ bytes = Bytes.ofWord32 c.val ++ rest := by
  apply Iff.intro
  · intro h
    unfold decodeChar at h
    split at h
    · cases h
    rename_i code rest' hcode
    obtain ⟨hlength, rfl⟩ := Bytes.split?_eq_some_iff.1 hcode
    split at h
    · cases h
      exact ⟨_, rfl, by rw [Bytes.ofWord32_word32 hlength]⟩
    · cases h
  · intro h
    obtain ⟨c, rfl, rfl⟩ := h
    unfold decodeChar
    rw [Bytes.split?_append (Bytes.length_ofWord32 _)]
    simp only [Bytes.word32_ofWord32]
    rw [dif_pos c.valid]

theorem encode_color_of_length {payload : Bytes} (hlength : payload.length = 4) :
    (color (colorOfBytes payload)).encode = .ok payload := by
  match payload, hlength with
  | [_, _, _, _], _ => rfl

theorem encode_midi_of_length {payload : Bytes} (hlength : payload.length = 4) :
    (midi (midiOfBytes payload)).encode = .ok payload := by
  match payload, hlength with
  | [_, _, _, _], _ => rfl

/-- What a tag reads is an argument of that tag, and the bytes taken off are its payload. -/
theorem encode_of_decodeTagged {t : TypeTag} (h : decodeTagged t bytes = (.ok a, rest)) :
    a.typeTag = t ∧ ∃ payload, a.encode = .ok payload ∧ bytes = payload ++ rest := by
  cases t with
  | int | float =>
    obtain ⟨payload, hlength, rfl, rfl⟩ := eq_append_of_decodeFixed h
    refine ⟨rfl, payload, ?_, rfl⟩
    simp [encode, Bytes.ofWord32_word32 hlength]
  | long | double =>
    obtain ⟨payload, hlength, rfl, rfl⟩ := eq_append_of_decodeFixed h
    refine ⟨rfl, payload, ?_, rfl⟩
    simp [encode, Bytes.ofWord64_word64 hlength]
  | time =>
    obtain ⟨payload, hlength, rfl, rfl⟩ := eq_append_of_decodeFixed h
    refine ⟨rfl, payload, ?_, rfl⟩
    simp [encode, TimeTag.encode_decode hlength]
  | color =>
    obtain ⟨payload, hlength, rfl, rfl⟩ := eq_append_of_decodeFixed h
    exact ⟨rfl, payload, encode_color_of_length hlength, rfl⟩
  | midi =>
    obtain ⟨payload, hlength, rfl, rfl⟩ := eq_append_of_decodeFixed h
    exact ⟨rfl, payload, encode_midi_of_length hlength, rfl⟩
  | string | symbol =>
    obtain ⟨text, rfl, hpayload⟩ := decodeTextAs_eq_ok_iff.1 h
    exact ⟨rfl, hpayload⟩
  | blob =>
    obtain ⟨blob, rfl, hpayload⟩ := decodeBlob_eq_ok_iff.1 h
    exact ⟨rfl, hpayload⟩
  | char =>
    obtain ⟨c, rfl, hbytes⟩ := decodeChar_eq_ok_iff.1 h
    exact ⟨rfl, Bytes.ofWord32 c.val, rfl, hbytes⟩
  | true | false | nil | impulse =>
    cases h
    exact ⟨rfl, [], rfl, rfl⟩

theorem decodeTagged_of_encode {payload : Bytes} (h : a.encode = .ok payload) (rest : Bytes) :
    decodeTagged a.typeTag (payload ++ rest) = (.ok a, rest) := by
  cases a with
  | int value | float value =>
    cases h
    rw [typeTag, decodeTagged, decodeFixed_append (Bytes.length_ofWord32 _)]
    simp
  | long value | double value =>
    cases h
    rw [typeTag, decodeTagged, decodeFixed_append (Bytes.length_ofWord64 _)]
    simp
  | time tag =>
    cases h
    rw [typeTag, decodeTagged, decodeFixed_append (TimeTag.length_encode _)]
    simp
  | color value =>
    cases h
    have hwidth : [value.red, value.green, value.blue, value.alpha].length = 4 := rfl
    rw [typeTag, decodeTagged, decodeFixed_append hwidth]
    rfl
  | midi value =>
    cases h
    have hwidth : [value.port, value.status, value.data1, value.data2].length = 4 := rfl
    rw [typeTag, decodeTagged, decodeFixed_append hwidth]
    rfl
  | string text | symbol text => exact decodeTextAs_eq_ok_iff.2 ⟨text, rfl, payload, h, rfl⟩
  | blob blob => exact decodeBlob_eq_ok_iff.2 ⟨blob, rfl, payload, h, rfl⟩
  | char value =>
    cases h
    exact decodeChar_eq_ok_iff.2 ⟨value, rfl, rfl⟩
  | bool value =>
    cases h
    cases value <;> rfl
  | nil | impulse =>
    cases h
    rfl

/-- A tag character reads an argument exactly from a payload of an argument with that tag. -/
theorem decode_eq_ok_iff {tag : Char} :
    decode tag bytes = (.ok a, rest) ↔
      a.tag = tag ∧ ∃ payload, a.encode = .ok payload ∧ bytes = payload ++ rest := by
  apply Iff.intro
  · intro h
    unfold decode at h
    split at h
    · cases h
    rename_i t htag
    obtain ⟨hresult, hrest⟩ := Prod.ext_iff.1 h
    have hread : decodeTagged t bytes = (.ok a, rest) :=
      Prod.ext (mapError_eq_ok_iff.1 hresult) hrest
    obtain ⟨rfl, hpayload⟩ := encode_of_decodeTagged hread
    exact ⟨TypeTag.toChar_of_ofChar? htag, hpayload⟩
  · intro h
    obtain ⟨rfl, payload, hwrite, rfl⟩ := h
    unfold decode
    rw [tag, TypeTag.ofChar?_toChar]
    simp only [decodeTagged_of_encode hwrite rest]
    rfl

theorem encodeAll_cons_eq_ok_iff {as : List Argument} {payloads : Bytes} :
    encodeAll (a :: as) = .ok payloads ↔
      ∃ front back, a.encode = .ok front ∧ encodeAll as = .ok back ∧ payloads = front ++ back := by
  simp only [encodeAll, bind_eq_ok_iff]
  apply Iff.intro
  · intro h
    obtain ⟨front, hfront, back, hback, h⟩ := h
    cases h
    exact ⟨front, back, hfront, hback, rfl⟩
  · intro h
    obtain ⟨front, back, hfront, hback, rfl⟩ := h
    exact ⟨front, hfront, back, hback, rfl⟩

/-- The tags of some arguments read exactly the arguments' payloads, and leave what follows. -/
theorem decodeAll_eq_ok_iff {tags : List Char} {as : List Argument} :
    decodeAll tags bytes = .ok (as, rest) ↔
      as.map tag = tags ∧ ∃ payloads, encodeAll as = .ok payloads ∧ bytes = payloads ++ rest := by
  induction tags generalizing bytes as with
  | nil =>
    apply Iff.intro
    · intro h
      cases h
      exact ⟨rfl, [], rfl, rfl⟩
    · intro h
      obtain ⟨htags, payloads, hwrite, rfl⟩ := h
      obtain rfl := List.map_eq_nil_iff.1 htags
      cases hwrite
      rfl
  | cons tag tags ih =>
    apply Iff.intro
    · intro h
      unfold decodeAll at h
      split at h
      · cases h
      rename_i a middle hfirst
      split at h
      · cases h
      rename_i as' rest' hothers
      cases h
      obtain ⟨rfl, front, hfront, rfl⟩ := decode_eq_ok_iff.1 hfirst
      obtain ⟨rfl, back, hback, rfl⟩ := ih.1 hothers
      refine ⟨rfl, front ++ back, encodeAll_cons_eq_ok_iff.2 ⟨front, back, hfront, hback, rfl⟩, ?_⟩
      rw [List.append_assoc]
    · intro h
      obtain ⟨htags, payloads, hwrite, rfl⟩ := h
      cases as with
      | nil => cases htags
      | cons a as =>
        obtain ⟨rfl, rfl⟩ := List.cons.inj htags
        obtain ⟨front, back, hfront, hback, rfl⟩ := encodeAll_cons_eq_ok_iff.1 hwrite
        have hfirst : decode a.tag (front ++ (back ++ rest)) = (.ok a, back ++ rest) :=
          decode_eq_ok_iff.2 ⟨rfl, front, hfront, rfl⟩
        have hothers : decodeAll (as.map Argument.tag) (back ++ rest) = .ok (as, rest) :=
          ih.2 ⟨rfl, back, hback, rfl⟩
        rw [List.append_assoc, decodeAll]
        simp only [hfirst, hothers]

end Argument

end OpenSound
