import OpenSound.Bytes
/-!
# Text as bytes

Strings travel as UTF-8. The writer spells a character in its one shortest form, and the reader
accepts that form only: no overlong spelling, no surrogate, nothing beyond the last code point. A
text that is refused is refused for its first faulty sequence, which is either complete and wrong
(its longest front that could have begun a character is counted) or cut off by the end of the bytes.

The main statements are `decode_encode` and `eq_encode_of_decode`: reading is the exact inverse of
writing.
-/

namespace OpenSound.Utf8

inductive Fault where
  /-- The `length` bytes from `index` on begin no character. -/
  | invalid (length index : Nat)
  /-- The bytes end inside the character that begins at `index`. -/
  | incomplete (index : Nat)
  deriving DecidableEq, Repr

def Fault.message : Fault → String
  | .invalid length index =>
    s!"invalid utf-8 sequence of {length} bytes from index {index}"
  | .incomplete index => s!"incomplete utf-8 byte sequence from index {index}"

/-! ### Writing -/

/-- A byte that carries six bits of a character after its first byte. -/
def continuation (bits : Nat) : UInt8 := UInt8.ofNat (0x80 + bits % 64)

def encodeChar (c : Char) : Bytes :=
  let n := c.toNat
  if n < 0x80 then [UInt8.ofNat n]
  else if n < 0x800 then [UInt8.ofNat (0xC0 + n / 64), continuation n]
  else if n < 0x10000 then
    [UInt8.ofNat (0xE0 + n / 4096), continuation (n / 64), continuation n]
  else
    [UInt8.ofNat (0xF0 + n / 262144), continuation (n / 4096), continuation (n / 64),
      continuation n]

def encodeChars (cs : List Char) : Bytes := cs.flatMap encodeChar

def encode (s : String) : Bytes := encodeChars s.toList

def width (cs : List Char) : Nat := (encodeChars cs).length

@[simp] theorem encodeChars_nil : encodeChars [] = [] := rfl

@[simp] theorem encodeChars_cons (c : Char) (cs : List Char) :
    encodeChars (c :: cs) = encodeChar c ++ encodeChars cs := rfl

/-! ### Reading -/

/-- A byte that can stand after the first two bytes of a character. -/
def IsContinuation (b : UInt8) : Prop := 0x80 ≤ b.toNat ∧ b.toNat ≤ 0xBF

/-- The second bytes that a lead byte admits. The tighter bounds after four of the lead bytes keep
out overlong spellings, surrogates and numbers beyond the last code point. -/
def MayFollow (lead b : UInt8) : Prop :=
  0x80 ≤ b.toNat ∧ b.toNat ≤ 0xBF ∧
    (lead.toNat = 0xE0 → 0xA0 ≤ b.toNat) ∧ (lead.toNat = 0xED → b.toNat ≤ 0x9F) ∧
    (lead.toNat = 0xF0 → 0x90 ≤ b.toNat) ∧ (lead.toNat = 0xF4 → b.toNat ≤ 0x8F)

instance (b : UInt8) : Decidable (IsContinuation b) :=
  inferInstanceAs (Decidable (_ ∧ _))

instance (lead b : UInt8) : Decidable (MayFollow lead b) :=
  inferInstanceAs (Decidable (_ ∧ _))

/-- The characters that bytes spell, where `index` bytes of the whole text came before them. -/
def decodeFrom (index : Nat) : Bytes → Except Fault (List Char)
  | [] => .ok []
  | a :: rest =>
    if a.toNat < 0x80 then
      (Char.ofNat a.toNat :: ·) <$> decodeFrom (index + 1) rest
    else if a.toNat < 0xC2 ∨ 0xF5 ≤ a.toNat then .error (.invalid 1 index)
    else match rest with
      | [] => .error (.incomplete index)
      | b :: rest =>
        if ¬ MayFollow a b then .error (.invalid 1 index)
        else if a.toNat < 0xE0 then
          (Char.ofNat (a.toNat % 32 * 64 + b.toNat % 64) :: ·) <$> decodeFrom (index + 2) rest
        else match rest with
          | [] => .error (.incomplete index)
          | c :: rest =>
            if ¬ IsContinuation c then .error (.invalid 2 index)
            else if a.toNat < 0xF0 then
              (Char.ofNat (a.toNat % 16 * 4096 + b.toNat % 64 * 64 + c.toNat % 64) :: ·) <$>
                decodeFrom (index + 3) rest
            else match rest with
              | [] => .error (.incomplete index)
              | d :: rest =>
                if ¬ IsContinuation d then .error (.invalid 3 index)
                else
                  (Char.ofNat (a.toNat % 8 * 262144 + b.toNat % 64 * 4096 + c.toNat % 64 * 64 +
                    d.toNat % 64) :: ·) <$> decodeFrom (index + 4) rest

def decode (bytes : Bytes) : Except Fault String :=
  String.ofList <$> decodeFrom 0 bytes

/-! ### Reading is the inverse of writing -/

theorem toNat_valid (c : Char) :
    c.toNat < 0xD800 ∨ 0xDFFF < c.toNat ∧ c.toNat < 0x110000 := c.valid

theorem toNat_ofNat {n : Nat} (hvalid : n < 0xD800 ∨ 0xDFFF < n ∧ n < 0x110000) :
    (Char.ofNat n).toNat = n := by
  have hscalar : n.isValidChar := hvalid
  rw [Char.ofNat, dif_pos hscalar]
  rfl

private theorem ofNat_of_eq_toNat {c : Char} {n : Nat} (h : n = c.toNat) : Char.ofNat n = c := by
  subst h
  simp

private theorem byte_toNat {n : Nat} (h : n < 256) : (UInt8.ofNat n).toNat = n := by
  simp [Nat.mod_eq_of_lt h]

private theorem byte_of_toNat {b : UInt8} {n : Nat} (h : b.toNat = n) : UInt8.ofNat n = b := by
  subst h
  simp

theorem toNat_continuation (n : Nat) : (continuation n).toNat = 0x80 + n % 64 :=
  byte_toNat (by omega)

theorem isContinuation_continuation (n : Nat) : IsContinuation (continuation n) := by
  simp only [IsContinuation, toNat_continuation]
  omega

theorem decodeFrom_encodeChar_append (index : Nat) (c : Char) (rest : Bytes) :
    decodeFrom index (encodeChar c ++ rest) =
      (c :: ·) <$> decodeFrom (index + (encodeChar c).length) rest := by
  have hvalid := toNat_valid c
  unfold encodeChar
  dsimp only
  split
  · have ha : (UInt8.ofNat c.toNat).toNat = c.toNat := byte_toNat (by omega)
    rw [List.cons_append, List.nil_append, decodeFrom.eq_def]
    simp only [ha]
    rw [if_pos (by omega), ofNat_of_eq_toNat rfl]
    rfl
  split
  · have ha : (UInt8.ofNat (0xC0 + c.toNat / 64)).toNat = 0xC0 + c.toNat / 64 :=
      byte_toNat (by omega)
    have hfollow : MayFollow (UInt8.ofNat (0xC0 + c.toNat / 64)) (continuation c.toNat) := by
      simp only [MayFollow, ha, toNat_continuation]
      omega
    simp only [List.cons_append, List.nil_append]
    rw [decodeFrom.eq_def]
    simp only [ha, toNat_continuation, hfollow, not_true_eq_false, if_false]
    rw [if_neg (by omega), if_neg (by omega), if_pos (by omega),
      ofNat_of_eq_toNat (c := c) (by omega)]
    rfl
  split
  · have ha : (UInt8.ofNat (0xE0 + c.toNat / 4096)).toNat = 0xE0 + c.toNat / 4096 :=
      byte_toNat (by omega)
    have hfollow : MayFollow (UInt8.ofNat (0xE0 + c.toNat / 4096))
        (continuation (c.toNat / 64)) := by
      simp only [MayFollow, ha, toNat_continuation]
      omega
    simp only [List.cons_append, List.nil_append]
    rw [decodeFrom.eq_def]
    simp only [ha, toNat_continuation, hfollow, isContinuation_continuation, not_true_eq_false,
      if_false]
    rw [if_neg (by omega), if_neg (by omega), if_neg (by omega), if_pos (by omega),
      ofNat_of_eq_toNat (c := c) (by omega)]
    rfl
  · have ha : (UInt8.ofNat (0xF0 + c.toNat / 262144)).toNat = 0xF0 + c.toNat / 262144 :=
      byte_toNat (by omega)
    have hfollow : MayFollow (UInt8.ofNat (0xF0 + c.toNat / 262144))
        (continuation (c.toNat / 4096)) := by
      simp only [MayFollow, ha, toNat_continuation]
      omega
    simp only [List.cons_append, List.nil_append]
    rw [decodeFrom.eq_def]
    simp only [ha, toNat_continuation, hfollow, isContinuation_continuation, not_true_eq_false,
      if_false]
    rw [if_neg (by omega), if_neg (by omega), if_neg (by omega), if_neg (by omega),
      ofNat_of_eq_toNat (c := c) (by omega)]
    rfl

theorem decodeFrom_encodeChars (index : Nat) (cs : List Char) :
    decodeFrom index (encodeChars cs) = .ok cs := by
  induction cs generalizing index with
  | nil => rfl
  | cons c cs ih =>
    rw [encodeChars_cons, decodeFrom_encodeChar_append, ih]
    rfl

theorem decode_encode (s : String) : decode (encode s) = .ok s := by
  rw [decode, encode, decodeFrom_encodeChars]
  simp [Functor.map, Except.map]

private theorem exists_of_map_eq_ok {ε α β : Type} {f : α → β} {x : Except ε α} {b : β}
    (h : f <$> x = .ok b) : ∃ a, x = .ok a ∧ f a = b := by
  cases x with
  | error e => cases h
  | ok a => exact ⟨a, rfl, Except.ok.inj h⟩

theorem eq_encodeChars_of_decodeFrom {index : Nat} {bytes : Bytes} {cs : List Char}
    (h : decodeFrom index bytes = .ok cs) : bytes = encodeChars cs := by
  fun_induction decodeFrom index bytes generalizing cs with
  | case1 => cases h; rfl
  | case2 i a rest ha ih =>
    obtain ⟨ds, hds, rfl⟩ := exists_of_map_eq_ok h
    have hn : (Char.ofNat a.toNat).toNat = a.toNat := toNat_ofNat (by omega)
    rw [encodeChars_cons, ← ih hds, encodeChar]
    simp [hn, ha]
  | case6 i a ha hlead b rest hfollow htwo ih =>
    obtain ⟨ds, hds, rfl⟩ := exists_of_map_eq_ok h
    simp only [MayFollow, Decidable.not_not] at hfollow
    have hn := toNat_ofNat (n := a.toNat % 32 * 64 + b.toNat % 64) (by omega)
    rw [encodeChars_cons, ← ih hds, encodeChar]
    rw [hn, if_neg (by omega), if_pos (by omega), continuation, byte_of_toNat (b := a) (by omega),
      byte_of_toNat (b := b) (by omega)]
    rfl
  | case9 i a ha hlead b hfollow htwo c rest hc hthree ih =>
    obtain ⟨ds, hds, rfl⟩ := exists_of_map_eq_ok h
    simp only [MayFollow, IsContinuation, Decidable.not_not] at hfollow hc
    have hn := toNat_ofNat
      (n := a.toNat % 16 * 4096 + b.toNat % 64 * 64 + c.toNat % 64) (by omega)
    rw [encodeChars_cons, ← ih hds, encodeChar]
    rw [hn, if_neg (by omega), if_neg (by omega), if_pos (by omega), continuation, continuation,
      byte_of_toNat (b := a) (by omega), byte_of_toNat (b := b) (by omega),
      byte_of_toNat (b := c) (by omega)]
    rfl
  | case12 i a ha hlead b hfollow htwo c hc hthree d rest hd ih =>
    obtain ⟨ds, hds, rfl⟩ := exists_of_map_eq_ok h
    simp only [MayFollow, IsContinuation, Decidable.not_not] at hfollow hc hd
    have hn := toNat_ofNat (n := a.toNat % 8 * 262144 + b.toNat % 64 * 4096 +
      c.toNat % 64 * 64 + d.toNat % 64) (by omega)
    rw [encodeChars_cons, ← ih hds, encodeChar]
    rw [hn, if_neg (by omega), if_neg (by omega), if_neg (by omega), continuation, continuation,
      continuation, byte_of_toNat (b := a) (by omega), byte_of_toNat (b := b) (by omega),
      byte_of_toNat (b := c) (by omega), byte_of_toNat (b := d) (by omega)]
    rfl
  | _ => cases h

/-- Bytes are text only if they are what writing that text gives. -/
theorem eq_encode_of_decode {bytes : Bytes} {s : String} (h : decode bytes = .ok s) :
    bytes = encode s := by
  obtain ⟨cs, hcs, rfl⟩ := exists_of_map_eq_ok h
  simpa [encode] using eq_encodeChars_of_decodeFrom hcs

end OpenSound.Utf8
