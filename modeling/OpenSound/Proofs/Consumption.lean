import OpenSound.Proofs.Filling
/-!
# What reading an argument consumes

Where reading succeeds, the bytes consumed are the payload of the argument read, and of all the ways
to cut the bytes in two no other makes the front a payload under the same tag
(`Argument.encode_append_inj`). So payloads may stand one after the other with nothing between them.

Where reading fails, nothing is consumed, unless a word had to be taken off to be understood: the length
of a blob or the code of a character (`Argument.rest_of_decode_eq_error`).
-/

namespace OpenSound

namespace Argument

variable {bytes rest : Bytes} {fault : PacketFault}

/-! ### Failure -/

theorem rest_of_decodeFixed {field : Field} {width : Nat} {make : Bytes → Argument}
    (h : decodeFixed field width make bytes = (.error fault, rest)) : rest = bytes := by
  unfold decodeFixed at h
  split at h
  · cases h
  · cases h
    rfl

theorem rest_of_decodeTextAs {make : String → Argument}
    (h : decodeTextAs make bytes = (.error fault, rest)) : rest = bytes := by
  unfold decodeTextAs at h
  split at h
  · cases h
  · cases h
    rfl

theorem ite_drop_of_split?_eq_none (h : bytes.split? 4 = none) :
    (if 4 ≤ bytes.length then bytes.drop 4 else bytes) = bytes :=
  if_neg (Nat.not_le.2 (Bytes.split?_eq_none_iff.1 h))

theorem ite_drop_of_split?_eq_some {word body : Bytes} (h : bytes.split? 4 = some (word, body)) :
    (if 4 ≤ bytes.length then bytes.drop 4 else bytes) = body := by
  obtain ⟨hlength, rfl⟩ := Bytes.split?_eq_some_iff.1 h
  rw [List.length_append, hlength, if_pos (Nat.le_add_right _ _), List.drop_left' hlength]

theorem rest_of_decodeBlob (h : decodeBlob bytes = (.error fault, rest)) :
    rest = if 4 ≤ bytes.length then bytes.drop 4 else bytes := by
  unfold decodeBlob at h
  split at h
  · rename_i hshort
    rw [ite_drop_of_split?_eq_none hshort]
    cases h
    rfl
  · rename_i length body hlength
    rw [ite_drop_of_split?_eq_some hlength]
    -- The length has been taken off, whatever is wrong behind it.
    split at h
    · cases h
    · cases h
      rfl

theorem rest_of_decodeChar (h : decodeChar bytes = (.error fault, rest)) :
    rest = if 4 ≤ bytes.length then bytes.drop 4 else bytes := by
  unfold decodeChar at h
  split at h
  · rename_i hshort
    rw [ite_drop_of_split?_eq_none hshort]
    cases h
    rfl
  · rename_i code body hcode
    rw [ite_drop_of_split?_eq_some hcode]
    split at h
    · cases h
    · cases h
      rfl

theorem rest_of_decodeTagged {t : TypeTag} (h : decodeTagged t bytes = (.error fault, rest)) :
    rest = if (t = .blob ∨ t = .char) ∧ 4 ≤ bytes.length then bytes.drop 4 else bytes := by
  cases t with
  | blob => simpa using rest_of_decodeBlob h
  | char => simpa using rest_of_decodeChar h
  | int | float | long | double | time | color | midi => simpa using rest_of_decodeFixed h
  | string | symbol => simpa using rest_of_decodeTextAs h
  | true | false | nil | impulse => cases h

theorem rest_of_decode_eq_error {tag : Char} {e : Error} (h : decode tag bytes = (.error e, rest)) :
    rest = if (tag = 'b' ∨ tag = 'c') ∧ 4 ≤ bytes.length then bytes.drop 4 else bytes := by
  have hchar : ∀ t : TypeTag, t.toChar = 'b' ∨ t.toChar = 'c' ↔ t = .blob ∨ t = .char := by
    intro t
    cases t <;> decide
  unfold decode at h
  split at h
  · rename_i hunknown
    -- Both tags are known, so an unknown one is neither.
    have hneither : ¬(tag = 'b' ∨ tag = 'c') := by
      rintro (rfl | rfl) <;> cases hunknown
    cases h
    rw [if_neg fun hword => hneither hword.1]
  · rename_i t htag
    obtain ⟨fault, hfault, -⟩ := mapError_eq_error_iff.1 (Prod.ext_iff.1 h).1
    have hread : decodeTagged t bytes = (.error fault, rest) :=
      Prod.ext hfault (Prod.ext_iff.1 h).2
    rw [← TypeTag.toChar_of_ofChar? htag]
    simpa only [hchar] using rest_of_decodeTagged hread

/-! ### Success -/

/-- A payload ends where it ends, whatever comes after. -/
theorem encode_append_inj {a b : Argument} {payload payload' rest' : Bytes} (htag : a.tag = b.tag)
    (h : a.encode = .ok payload) (h' : b.encode = .ok payload')
    (hsame : payload ++ rest = payload' ++ rest') : a = b ∧ payload = payload' ∧ rest = rest' := by
  have hread : decode a.tag (payload ++ rest) = (.ok a, rest) :=
    decode_eq_ok_iff.2 ⟨rfl, payload, h, rfl⟩
  have hread' : decode a.tag (payload ++ rest) = (.ok b, rest') :=
    decode_eq_ok_iff.2 ⟨htag.symm, payload', h', hsame⟩
  rw [hread] at hread'
  cases hread'
  exact ⟨rfl, List.append_cancel_right hsame, rfl⟩

/-- Reading with a tag inverts writing: it succeeds exactly on a payload of an argument with that tag
and leaves what follows, and it does so one argument after the other. No payload runs on into another
one's, and a failed reading leaves the bytes as they were, or without the word it had to take off. -/
theorem decode_inverts_encode :
    (∀ (tag : Char) (bytes rest : Bytes) (a : Argument), decode tag bytes = (.ok a, rest) ↔
      a.tag = tag ∧ ∃ payload, a.encode = .ok payload ∧ bytes = payload ++ rest) ∧
    (∀ (a b : Argument) (payload payload' rest rest' : Bytes), a.tag = b.tag →
      a.encode = .ok payload → b.encode = .ok payload' → payload ++ rest = payload' ++ rest' →
      a = b ∧ payload = payload' ∧ rest = rest') ∧
    (∀ (as : List Argument) (payloads : List Bytes) (tail : Bytes),
      List.Forall₂ (fun a payload => a.encode = .ok payload) as payloads →
      decodeAll (as.map tag) (payloads.flatten ++ tail) = .ok (as, tail)) ∧
    ∀ (tag : Char) (bytes rest : Bytes) (e : Error), decode tag bytes = (.error e, rest) →
      rest = if (tag = 'b' ∨ tag = 'c') ∧ 4 ≤ bytes.length then bytes.drop 4 else bytes := by
  refine ⟨fun _ _ _ _ => decode_eq_ok_iff, fun _ _ _ _ _ _ => encode_append_inj, ?_,
    fun _ _ _ _ => rest_of_decode_eq_error⟩
  intro as payloads tail hpayloads
  exact decodeAll_eq_ok_iff.2 ⟨rfl, _, Packet.encodeAll_eq_ok_iff.2 ⟨payloads, hpayloads, rfl⟩, rfl⟩

/-- Half of a surrogate pair, and another byte. -/
def surrogate : Bytes := [0, 0, 0xD8, 0, 7]

/-- A number and a text are read from their payloads, and half of a surrogate pair is taken off without
being read as a character. -/
theorem decode_inverts_encode_surrogate :
    decodeAll ['i', 's'] [0, 0, 0, 7, 0x68, 0x69, 0, 0, 0xFF] =
      .ok ([.int 7, .string "hi"], [0xFF]) ∧
    ∃ e rest, decode 'c' surrogate = (.error e, rest) ∧ rest = [7] := by
  obtain ⟨-, -, hall, hfailed⟩ := decode_inverts_encode
  refine ⟨?_, _, _, rfl, ?_⟩
  · exact hall [.int 7, .string "hi"] [[0, 0, 0, 7], [0x68, 0x69, 0, 0]] [0xFF]
      (.cons (by rfl) (.cons (by rfl) .nil))
  · exact hfailed 'c' surrogate _ _ rfl

end Argument

end OpenSound
