import Mathlib.Data.List.Induction
import Mathlib.Tactic.SplitIfs
import OpenSound.Argument.Wire
import OpenSound.Proofs.Results
/-!
# The fields of a message

Every reader of a field is the exact inverse of its writer: it succeeds on the bytes that the writer
gives for a value, whatever comes after them, and on nothing else. The format leaves many freedoms
that some check has to take away (the padding, the bytes before the terminator, the spelling of a
character), and each of them is taken away here, once. Everything about whole messages goes through
`decodeText_eq_ok_iff` and `decodeBlobBody_eq_ok_iff`, and through what `Proofs/Arguments` makes of
them.
-/

namespace OpenSound

/-! ### Words -/

namespace Bytes

theorem bigEndian_value (bytes : Bytes) : bigEndian bytes.length bytes.value = bytes := by
  induction bytes using List.reverseRecOn with
  | nil => rfl
  | append_singleton bytes byte ih =>
    have hbyte := byte.toNat_lt
    have hhigh : (value bytes * 256 + byte.toNat) / 256 = value bytes := by omega
    rw [List.length_append, List.length_singleton, bigEndian, value_append_byte, hhigh, ih]
    congr 2
    apply UInt8.toNat_inj.1
    rw [UInt8.toNat_ofNat']
    omega

theorem value_lt (bytes : Bytes) : bytes.value < Nat.pow 256 bytes.length := by
  have hvalue := value_bigEndian bytes.length bytes.value
  rw [bigEndian_value] at hvalue
  rw [hvalue]
  exact Nat.mod_lt _ (Nat.pow_pos (by decide))

theorem ofWord32_word32 {bytes : Bytes} (hlength : bytes.length = 4) :
    ofWord32 (word32 bytes) = bytes := by
  have hlt := value_lt bytes
  rw [hlength] at hlt
  have hword : (word32 bytes).toNat = bytes.value := by
    rw [word32, UInt32.toNat_ofNat']
    exact Nat.mod_eq_of_lt hlt
  rw [ofWord32, hword, ← hlength, bigEndian_value]

theorem ofWord64_word64 {bytes : Bytes} (hlength : bytes.length = 8) :
    ofWord64 (word64 bytes) = bytes := by
  have hlt := value_lt bytes
  rw [hlength] at hlt
  have hword : (word64 bytes).toNat = bytes.value := by
    rw [word64, UInt64.toNat_ofNat']
    exact Nat.mod_eq_of_lt hlt
  rw [ofWord64, hword, ← hlength, bigEndian_value]

@[simp] theorem value_ofWord32 (word : UInt32) : value (ofWord32 word) = word.toNat := by
  rw [ofWord32, value_bigEndian]
  exact Nat.mod_eq_of_lt word.toNat_lt

end Bytes

theorem TimeTag.encode_decode {bytes : Bytes} (hlength : bytes.length = 8) :
    (TimeTag.decode bytes).encode = bytes := by
  rw [TimeTag.encode, TimeTag.decode, TimeTag.toBits_ofBits, Bytes.ofWord64_word64 hlength]

/-! ### Padding -/

namespace Bytes

@[simp] theorem take_padded (bytes : Bytes) : bytes.padded.take bytes.length = bytes := by
  simp [padded]

/-- Padding of the right length passes for padding exactly when it is all zeros. -/
theorem eq_padded_iff {n : Nat} {field : Bytes} (hlength : field.length = n + padLength n) :
    (field.drop n).any (· != 0) = false ↔ field = padded (field.take n) := by
  have hfront : (field.take n).length = n := by
    rw [List.length_take]
    omega
  have hback : (field.drop n).length = padLength n := by
    rw [List.length_drop]
    omega
  rw [padded, hfront]
  apply Iff.intro
  · intro hzero
    have hdrop : field.drop n = List.replicate (padLength n) 0 := by
      rw [List.eq_replicate_iff]
      refine ⟨hback, fun byte hbyte => ?_⟩
      simpa using List.any_eq_false.1 hzero byte hbyte
    rw [← hdrop, List.take_append_drop]
  · intro hfield
    have hdrop : field.drop n = List.replicate (padLength n) 0 := by
      rw [hfield, List.drop_left' hfront]
    rw [hdrop]
    simp

end Bytes

/-! ### Text -/

namespace Utf8

theorem zero_mem_encodeChar_iff {c : Char} : (0 : UInt8) ∈ encodeChar c ↔ c = '\x00' := by
  have hvalid := toNat_valid c
  have hzero : c = '\x00' ↔ c.toNat = 0 := by
    rw [← Char.toNat_inj]
    rfl
  have hcontinuation : ∀ n, (0 : UInt8) ≠ continuation n := by
    intro n h
    have hnat := congrArg UInt8.toNat h
    rw [toNat_continuation] at hnat
    simp at hnat
    omega
  rw [hzero, encodeChar]
  -- The bytes after the first are continuations, so in every case the first byte alone decides.
  split_ifs
  all_goals
    simp only [List.mem_cons, List.not_mem_nil, or_false, hcontinuation, ← UInt8.toNat_inj,
      UInt8.toNat_ofNat']
    simp
    omega

theorem zero_mem_encode_iff {s : String} : (0 : UInt8) ∈ encode s ↔ '\x00' ∈ s.toList := by
  simp [encode, encodeChars, List.mem_flatMap, zero_mem_encodeChar_iff]

end Utf8

/-- The terminator of a text is the first zero byte. -/
theorem findIdx?_zero_eq_some_iff {bytes : Bytes} {n : Nat} :
    bytes.findIdx? (· == 0) = some n ↔
      ∃ front back, bytes = front ++ 0 :: back ∧ 0 ∉ front ∧ front.length = n := by
  induction bytes generalizing n with
  | nil => simp
  | cons byte bytes ih =>
    rw [List.findIdx?_cons]
    by_cases hbyte : byte = 0
    · subst hbyte
      simp only [beq_self_eq_true, if_true, Option.some.injEq]
      apply Iff.intro
      · intro h
        subst h
        exact ⟨[], bytes, rfl, by simp, rfl⟩
      · intro h
        obtain ⟨front, back, hsplit, hfront, rfl⟩ := h
        cases front with
        | nil => rfl
        | cons first front =>
          rw [List.cons_append, List.cons.injEq] at hsplit
          exact absurd (hsplit.1 ▸ List.mem_cons_self) hfront
    · simp only [beq_iff_eq, hbyte, if_false, Option.map_eq_some_iff, ih]
      apply Iff.intro
      · intro h
        obtain ⟨_, ⟨front, back, rfl, hfront, rfl⟩, rfl⟩ := h
        refine ⟨byte :: front, back, rfl, ?_, rfl⟩
        simp [hfront, Ne.symm hbyte]
      · intro h
        obtain ⟨front, back, hsplit, hfront, rfl⟩ := h
        cases front with
        | nil =>
          rw [List.nil_append, List.cons.injEq] at hsplit
          exact absurd hsplit.1 hbyte
        | cons first front =>
          rw [List.cons_append, List.cons.injEq] at hsplit
          obtain ⟨rfl, rfl⟩ := hsplit
          exact ⟨front.length, ⟨front, back, rfl, fun h => hfront (List.mem_cons_of_mem _ h), rfl⟩,
            rfl⟩

theorem encodeText_eq_ok_iff {text : String} {field : Bytes} :
    encodeText text = .ok field ↔
      '\x00' ∉ text.toList ∧ field = Bytes.padded (Utf8.encode text ++ [0]) := by
  rw [encodeText, ← ite_not]
  exact ite_eq_ok_iff

theorem decodeText_append {text : String} {field : Bytes} (hwrite : encodeText text = .ok field)
    (rest : Bytes) : decodeText (field ++ rest) = .ok (text, rest) := by
  obtain ⟨hnul, rfl⟩ := encodeText_eq_ok_iff.1 hwrite
  rw [← Utf8.zero_mem_encode_iff] at hnul
  have hterminator : (Bytes.padded (Utf8.encode text ++ [0]) ++ rest).findIdx? (· == 0) =
      some (Utf8.encode text).length := by
    rw [findIdx?_zero_eq_some_iff]
    refine ⟨Utf8.encode text,
      List.replicate (Bytes.padLength (Utf8.encode text ++ [0]).length) 0 ++ rest, ?_, hnul, rfl⟩
    simp [Bytes.padded]
  have hlength : (Bytes.padded (Utf8.encode text ++ [0])).length =
      (Utf8.encode text).length + 1 + Bytes.padLength ((Utf8.encode text).length + 1) := by
    simp
  have htake : (Bytes.padded (Utf8.encode text ++ [0])).take ((Utf8.encode text).length + 1) =
      Utf8.encode text ++ [0] := by
    rw [Bytes.padded, List.take_left' (by simp)]
  have htext : (Bytes.padded (Utf8.encode text ++ [0])).take (Utf8.encode text).length =
      Utf8.encode text := by
    rw [Bytes.padded, List.append_assoc, List.take_left]
  have hzeros := (Bytes.eq_padded_iff hlength).2 (by rw [htake])
  unfold decodeText
  rw [hterminator]
  simp only [Bytes.split?_append hlength, hzeros, Bool.false_eq_true, if_false, htext,
    Utf8.decode_encode]

theorem decodeText_of_encodeText {text : String} {field : Bytes} (hwrite : encodeText text = .ok field) :
    decodeText field = .ok (text, []) := by
  have hread := decodeText_append hwrite []
  rw [List.append_nil] at hread
  exact hread

/-- What a text is read from begins with what writing it gives: the checks of the reader leave no other
terminator, padding or spelling. -/
theorem exists_of_decodeText {bytes rest : Bytes} {text : String}
    (h : decodeText bytes = .ok (text, rest)) :
    ∃ field, encodeText text = .ok field ∧ bytes = field ++ rest := by
  unfold decodeText at h
  split at h
  · cases h
  rename_i length hterminator
  obtain ⟨front, back, hbytes, hfront, rfl⟩ := findIdx?_zero_eq_some_iff.1 hterminator
  dsimp only at h
  split at h
  · cases h
  rename_i field rest' hsplit
  obtain ⟨hlength, hfield⟩ := Bytes.split?_eq_some_iff.1 hsplit
  split at h
  · cases h
  rename_i hzeros
  split at h
  · cases h
  rename_i text' htext
  cases h
  -- Both splittings of the bytes agree on the text and its terminator.
  have htake : field.take (front.length + 1) = front ++ [0] := by
    have heq := congrArg (List.take (front.length + 1)) (hfield.symm.trans hbytes)
    rw [List.take_append_of_le_length (by omega)] at heq
    rw [heq, List.append_cons, List.take_left' (by simp)]
  have hdecoded : field.take front.length = front := by
    have heq := congrArg (List.take front.length) htake
    rwa [List.take_take, Nat.min_eq_left (by omega), List.take_left] at heq
  rw [hdecoded] at htext
  have hencode := Utf8.eq_encode_of_decode htext
  refine ⟨field, encodeText_eq_ok_iff.2 ⟨?_, ?_⟩, hfield⟩
  · rw [← Utf8.zero_mem_encode_iff, ← hencode]
    exact hfront
  · rw [← hencode, ← htake]
    exact (Bytes.eq_padded_iff hlength).1 (by simpa using hzeros)

theorem decodeText_eq_ok_iff {bytes rest : Bytes} {text : String} :
    decodeText bytes = .ok (text, rest) ↔
      ∃ field, encodeText text = .ok field ∧ bytes = field ++ rest := by
  apply Iff.intro exists_of_decodeText
  intro h
  obtain ⟨field, hwrite, rfl⟩ := h
  exact decodeText_append hwrite rest

/-! ### Blobs -/

theorem encodeBlob_eq_ok_iff {blob field : Bytes} :
    encodeBlob blob = .ok field ↔
      blob.length < UInt32.size ∧
        field = Bytes.ofWord32 (UInt32.ofNat blob.length) ++ blob.padded := by
  rw [encodeBlob]
  exact ite_eq_ok_iff

theorem decodeBlobBody_eq_ok_iff {length : Nat} {bytes blob rest : Bytes} :
    decodeBlobBody length bytes = .ok (blob, rest) ↔
      blob.length = length ∧ bytes = blob.padded ++ rest := by
  apply Iff.intro
  · intro h
    unfold decodeBlobBody at h
    dsimp only at h
    split at h
    · cases h
    rename_i field rest' hsplit
    obtain ⟨hlength, hfield⟩ := Bytes.split?_eq_some_iff.1 hsplit
    split at h
    · cases h
    rename_i hzeros
    cases h
    refine ⟨?_, ?_⟩
    · rw [List.length_take]
      omega
    · rw [← (Bytes.eq_padded_iff hlength).1 (by simpa using hzeros)]
      exact hfield
  · intro h
    obtain ⟨rfl, rfl⟩ := h
    have hlength := Bytes.length_padded blob
    have hzeros := (Bytes.eq_padded_iff hlength).2 (by rw [Bytes.take_padded])
    unfold decodeBlobBody
    simp only [Bytes.split?_append hlength, hzeros, Bool.false_eq_true, if_false,
      Bytes.take_padded]

end OpenSound
