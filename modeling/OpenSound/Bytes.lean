/-!
# Wire bytes

A datagram is a list of bytes: lists are what proofs can take apart, and byte arrays are met only at
the edges. This module holds the two ways in which a packet lays out numbers and fields: words are
big-endian, and every field is filled up with zero bytes to a multiple of four.
-/

namespace OpenSound

/-- A datagram, or a part of one. -/
abbrev Bytes := List UInt8

namespace Bytes

/-! ### Splitting -/

/-- The first `n` bytes and what follows them, when there are that many. -/
def split? (n : Nat) (bytes : Bytes) : Option (Bytes × Bytes) :=
  if n ≤ bytes.length then some (bytes.take n, bytes.drop n) else none

theorem split?_eq_some_iff {n : Nat} {bytes front rest : Bytes} :
    split? n bytes = some (front, rest) ↔ front.length = n ∧ bytes = front ++ rest := by
  unfold split?
  constructor
  · split
    · rename_i hle
      intro h
      cases h
      exact ⟨by simp [Nat.min_eq_left hle], (List.take_append_drop n bytes).symm⟩
    · simp
  · rintro ⟨rfl, rfl⟩
    simp

theorem split?_eq_none_iff {n : Nat} {bytes : Bytes} :
    split? n bytes = none ↔ bytes.length < n := by
  unfold split?
  split <;> simp <;> omega

@[simp] theorem split?_append {n : Nat} {front rest : Bytes} (width : front.length = n) :
    split? n (front ++ rest) = some (front, rest) :=
  split?_eq_some_iff.2 ⟨width, rfl⟩

/-! ### Big-endian numbers -/

/-- The low `n` bytes of a number, most significant first. -/
def bigEndian : Nat → Nat → Bytes
  | 0, _ => []
  | n + 1, value => bigEndian n (value / 256) ++ [UInt8.ofNat value]

/-- The number that bytes spell, most significant first. -/
def value (bytes : Bytes) : Nat :=
  bytes.foldl (fun sum byte => sum * 256 + byte.toNat) 0

@[simp] theorem length_bigEndian (n v : Nat) : (bigEndian n v).length = n := by
  induction n generalizing v with
  | zero => rfl
  | succ n ih => simp [bigEndian, ih]

theorem value_append_byte (bytes : Bytes) (byte : UInt8) :
    value (bytes ++ [byte]) = value bytes * 256 + byte.toNat := by
  simp [value, List.foldl_append]

theorem value_bigEndian (n v : Nat) : value (bigEndian n v) = v % Nat.pow 256 n := by
  induction n generalizing v with
  | zero => simp [bigEndian, value, Nat.mod_one]
  | succ n ih =>
    have hbyte : (UInt8.ofNat v).toNat = v % 256 := by simp
    have hpow : Nat.pow 256 (n + 1) = 256 * Nat.pow 256 n := Nat.mul_comm _ _
    rw [bigEndian, value_append_byte, ih, hbyte, hpow, Nat.mod_mul]
    omega

/-! ### Words -/

def ofWord32 (word : UInt32) : Bytes := bigEndian 4 word.toNat

def ofWord64 (word : UInt64) : Bytes := bigEndian 8 word.toNat

def word32 (bytes : Bytes) : UInt32 := UInt32.ofNat bytes.value

def word64 (bytes : Bytes) : UInt64 := UInt64.ofNat bytes.value

@[simp] theorem length_ofWord32 (word : UInt32) : (ofWord32 word).length = 4 := length_bigEndian _ _

@[simp] theorem length_ofWord64 (word : UInt64) : (ofWord64 word).length = 8 := length_bigEndian _ _

@[simp] theorem word32_ofWord32 (word : UInt32) : word32 (ofWord32 word) = word := by
  have hlt : word.toNat < Nat.pow 256 4 := word.toNat_lt
  rw [word32, ofWord32, value_bigEndian, Nat.mod_eq_of_lt hlt, UInt32.ofNat_toNat]

@[simp] theorem word64_ofWord64 (word : UInt64) : word64 (ofWord64 word) = word := by
  have hlt : word.toNat < Nat.pow 256 8 := word.toNat_lt
  rw [word64, ofWord64, value_bigEndian, Nat.mod_eq_of_lt hlt, UInt64.ofNat_toNat]

/-! ### Padding -/

/-- How many zero bytes fill a field of `n` bytes up to a multiple of four. -/
def padLength (n : Nat) : Nat := (4 - n % 4) % 4

def padded (bytes : Bytes) : Bytes := bytes ++ List.replicate (padLength bytes.length) 0

theorem padLength_lt (n : Nat) : padLength n < 4 := by
  unfold padLength
  omega

theorem four_dvd_add_padLength (n : Nat) : 4 ∣ n + padLength n := by
  unfold padLength
  omega

@[simp] theorem length_padded (bytes : Bytes) :
    bytes.padded.length = bytes.length + padLength bytes.length := by
  simp [padded]

end Bytes

end OpenSound
