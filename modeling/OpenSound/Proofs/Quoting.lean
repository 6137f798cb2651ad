import Mathlib.Tactic.SplitIfs
import OpenSound.Text.Quoted
/-!
# Quoted text can be read back

Different texts are never quoted alike. What is shown for a character says where it ends, so a quoted
text is taken apart from the front, one character after the other (`unescape?_escape_append`). A
character that is shown by its number is the one case that needs an argument: its digits give the
number again, and the closing brace is not among them.
-/

namespace OpenSound.Text

/-! ### Hexadecimal digits -/

def hexValue (c : Char) : Nat :=
  if c.isDigit then c.toNat - '0'.toNat else c.toNat - 'a'.toNat + 10

/-- The number that hexadecimal digits stand for. -/
def hexNumber (digits : List Char) : Nat :=
  digits.foldl (fun n c => 16 * n + hexValue c) 0

theorem hexValue_digitChar {n : Nat} (h : n < 16) : hexValue n.digitChar = n := by
  revert n
  decide

theorem digitChar_ne_brace {n : Nat} (h : n < 16) : n.digitChar ≠ '\x7d' := by
  revert n
  decide

theorem hexDigits_of_lt {n : Nat} (h : n < 16) : hexDigits n = [n.digitChar] :=
  Nat.toDigits_of_lt_base h

theorem hexDigits_of_le {n : Nat} (h : 16 ≤ n) :
    hexDigits n = hexDigits (n / 16) ++ [(n % 16).digitChar] :=
  Nat.toDigits_of_base_le (by decide) h

theorem hexNumber_hexDigits (n : Nat) : hexNumber (hexDigits n) = n := by
  induction n using Nat.strongRecOn with
  | ind n ih =>
    rcases Nat.lt_or_ge n 16 with hsmall | hlarge
    · rw [hexDigits_of_lt hsmall]
      exact (Nat.zero_add _).trans (hexValue_digitChar hsmall)
    · have hfront := ih (n / 16) (by omega)
      rw [hexNumber] at hfront
      rw [hexDigits_of_le hlarge, hexNumber, List.foldl_append, hfront, List.foldl_cons,
        List.foldl_nil, hexValue_digitChar (Nat.mod_lt n (by decide))]
      omega

theorem brace_not_mem_hexDigits (n : Nat) : ∀ c ∈ hexDigits n, c ≠ '\x7d' := by
  induction n using Nat.strongRecOn with
  | ind n ih =>
    intro c hc
    rcases Nat.lt_or_ge n 16 with hsmall | hlarge
    · rw [hexDigits_of_lt hsmall, List.mem_singleton] at hc
      rw [hc]
      exact digitChar_ne_brace hsmall
    · rw [hexDigits_of_le hlarge, List.mem_append, List.mem_singleton] at hc
      rcases hc with hc | hc
      · exact ih (n / 16) (by omega) c hc
      · rw [hc]
        exact digitChar_ne_brace (Nat.mod_lt n (by decide))

/-! ### One character after the other -/

/-- The character that is shown first, and what is behind it. -/
def unescape? : List Char → Option (Char × List Char)
  | '\\' :: '0' :: cs => some ('\x00', cs)
  | '\\' :: 't' :: cs => some ('\t', cs)
  | '\\' :: 'r' :: cs => some ('\r', cs)
  | '\\' :: 'n' :: cs => some ('\n', cs)
  | '\\' :: 'u' :: '\x7b' :: cs =>
    some (Char.ofNat (hexNumber (cs.takeWhile (· != '\x7d'))), (cs.dropWhile (· != '\x7d')).tail)
  | '\\' :: c :: cs => some (c, cs)
  | c :: cs => some (c, cs)
  | [] => none

theorem unescape?_cons {c : Char} (h : c ≠ '\\') (cs : List Char) :
    unescape? (c :: cs) = some (c, cs) := by
  unfold unescape?
  split <;> simp_all

theorem unescape?_number (c : Char) (cs : List Char) :
    unescape? (['\\', 'u', '\x7b'] ++ hexDigits c.toNat ++ ['\x7d'] ++ cs) = some (c, cs) := by
  have hdigits : ∀ d ∈ hexDigits c.toNat, (d != '\x7d') = true := by
    intro d hd
    exact bne_iff_ne.2 (brace_not_mem_hexDigits _ d hd)
  have hbehind : ['\\', 'u', '\x7b'] ++ hexDigits c.toNat ++ ['\x7d'] ++ cs =
      '\\' :: 'u' :: '\x7b' :: (hexDigits c.toNat ++ '\x7d' :: cs) := by
    simp
  rw [hbehind, unescape?, List.takeWhile_append_of_pos hdigits, List.dropWhile_append_of_pos hdigits,
    List.takeWhile_cons_of_neg (by decide), List.dropWhile_cons_of_neg (by decide), List.append_nil,
    hexNumber_hexDigits, Char.ofNat_toNat, List.tail_cons]

theorem unescape?_escape_append (c : Char) (cs : List Char) :
    unescape? (escape '"' c ++ cs) = some (c, cs) := by
  unfold escape
  split_ifs with hzero htab hreturn hnewline hmark hnumber
  · rw [hzero]; rfl
  · rw [htab]; rfl
  · rw [hreturn]; rfl
  · rw [hnewline]; rfl
  · rcases hmark with rfl | rfl <;> rfl
  · exact unescape?_number c cs
  · exact unescape?_cons (fun hbackslash => hmark (.inl hbackslash)) cs

theorem flatMap_escape_injective : Function.Injective (List.flatMap (escape '"')) := by
  intro cs ds h
  induction cs generalizing ds with
  | nil =>
    cases ds with
    | nil => rfl
    | cons d ds =>
      have hread := unescape?_escape_append d (ds.flatMap (escape '"'))
      rw [← List.flatMap_cons, ← h] at hread
      cases hread
  | cons c cs ih =>
    have hread := unescape?_escape_append c (cs.flatMap (escape '"'))
    rw [← List.flatMap_cons, h] at hread
    cases ds with
    | nil => cases hread
    | cons d ds =>
      rw [List.flatMap_cons, unescape?_escape_append d, Option.some.injEq, Prod.mk.injEq] at hread
      rw [hread.1, ih hread.2.symm]

/-- A quoted text determines the text. -/
theorem quoted_injective : Function.Injective quoted := by
  intro s t h
  have hchars := String.ofList_injective h
  rw [List.append_left_inj, List.append_right_inj] at hchars
  exact String.toList_injective (flatMap_escape_injective hchars)

end OpenSound.Text
