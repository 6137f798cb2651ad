import Mathlib.Tactic.Tauto
import OpenSound.Proofs.Flattening
/-!
# Equal values

Packets are compared in two ways: as they stand, bit for bit, and by the values that they carry, where
numbers in floating point are compared as numbers. The second is no equality: what is not a number
differs from itself, and zeros are equal whatever their signs. But that is all. Packets carry the same
values if everything in them that should be a number is one and they are the same once the zeros have
lost their signs (`Packet.sameValue_iff`).
-/

namespace OpenSound

/-! ### Numbers without the sign of zero -/

/-- Putting one zero in place of all of them makes the zeros the same, and no others. -/
theorem ite_zero_eq_iff {α : Type} {isZero : α → Bool} {zero : α} (hzero : isZero zero = true)
    (x y : α) :
    (if isZero x then zero else x) = (if isZero y then zero else y) ↔
      x = y ∨ isZero x = true ∧ isZero y = true := by
  by_cases hx : isZero x = true
  · by_cases hy : isZero y = true
    · simp [hx, hy]
    · have hne : zero ≠ y := fun heq => hy (heq ▸ hzero)
      have hne' : x ≠ y := fun heq => hy (heq ▸ hx)
      simp [hx, hy, hne, hne']
  · by_cases hy : isZero y = true
    · have hne : x ≠ zero := fun heq => hx (heq ▸ hzero)
      have hne' : x ≠ y := fun heq => hx (heq ▸ hy)
      simp [hx, hy, hne, hne']
    · simp [hx, hy]

theorem isZero_ite_zero {α : Type} {isZero : α → Bool} {zero : α} (hzero : isZero zero = true)
    (x : α) : isZero (if isZero x then zero else x) = isZero x := by
  by_cases hx : isZero x = true
  · rw [if_pos hx, hx, hzero]
  · rw [if_neg hx]

namespace Binary

def Binary32.isZero (x : Binary32) : Bool := x.unsigned == 0

def Binary64.isZero (x : Binary64) : Bool := x.unsigned == 0

/-- The number, with a sign only if it is not zero. -/
def Binary32.signless (x : Binary32) : Binary32 := if x.isZero then ⟨0⟩ else x

def Binary64.signless (x : Binary64) : Binary64 := if x.isZero then ⟨0⟩ else x

@[simp] theorem Binary32.isZero_signless (x : Binary32) : x.signless.isZero = x.isZero :=
  isZero_ite_zero (by decide) x

@[simp] theorem Binary64.isZero_signless (x : Binary64) : x.signless.isZero = x.isZero :=
  isZero_ite_zero (by decide) x

theorem Binary32.sameNumber_iff {x y : Binary32} :
    x.sameNumber y = true ↔ x.isNaN = false ∧ y.isNaN = false ∧ x.signless = y.signless := by
  obtain ⟨x⟩ := x
  obtain ⟨y⟩ := y
  rw [signless, signless, ite_zero_eq_iff (by decide)]
  simp [sameNumber, isZero, and_assoc]

theorem Binary64.sameNumber_iff {x y : Binary64} :
    x.sameNumber y = true ↔ x.isNaN = false ∧ y.isNaN = false ∧ x.signless = y.signless := by
  obtain ⟨x⟩ := x
  obtain ⟨y⟩ := y
  rw [signless, signless, ite_zero_eq_iff (by decide)]
  simp [sameNumber, isZero, and_assoc]

end Binary

namespace Argument

def isNaN : Argument → Bool
  | float x => x.isNaN
  | double x => x.isNaN
  | _ => false

def isZero : Argument → Bool
  | float x => x.isZero
  | double x => x.isZero
  | _ => false

def signless : Argument → Argument
  | float x => float x.signless
  | double x => double x.signless
  | a => a

@[simp] theorem isZero_signless (a : Argument) : a.signless.isZero = a.isZero := by
  cases a with
  | float x => exact x.isZero_signless
  | double x => exact x.isZero_signless
  | _ => rfl

theorem sameValue_iff {a b : Argument} :
    a.sameValue b = true ↔ a.isNaN = false ∧ b.isNaN = false ∧ a.signless = b.signless := by
  cases a with
  | float x => cases b <;> simp [sameValue, isNaN, signless, Binary.Binary32.sameNumber_iff]
  | double x => cases b <;> simp [sameValue, isNaN, signless, Binary.Binary64.sameNumber_iff]
  | _ => cases b <;> simp [sameValue, isNaN, signless]

end Argument

/-! ### Packets without the signs of zeros -/

namespace Message

def signless (m : Message) : Message := { m with arguments := m.arguments.map Argument.signless }

/-- None of the arguments is a number in floating point that is not a number. -/
def NaNFree (m : Message) : Prop := ∀ a ∈ m.arguments, a.isNaN = false

theorem sameValues_iff {as bs : List Argument} :
    (as.length == bs.length && (as.zip bs).all fun (a, b) => a.sameValue b) = true ↔
      (∀ a ∈ as, a.isNaN = false) ∧ (∀ b ∈ bs, b.isNaN = false) ∧
        as.map Argument.signless = bs.map Argument.signless := by
  induction as generalizing bs with
  | nil => cases bs <;> simp
  | cons a as ih =>
    cases bs with
    | nil => simp
    | cons b bs =>
      simp only [Bool.and_eq_true, beq_iff_eq] at ih
      simp only [List.length_cons, List.zip_cons_cons, List.all_cons, Bool.and_eq_true, beq_iff_eq,
        Nat.add_right_cancel_iff, Argument.sameValue_iff, List.forall_mem_cons, List.map_cons,
        List.cons.injEq]
      rw [and_left_comm, ih]
      tauto

theorem sameValue_iff {m n : Message} :
    m.sameValue n = true ↔ m.NaNFree ∧ n.NaNFree ∧ m.signless = n.signless := by
  obtain ⟨address, as⟩ := m
  obtain ⟨address', bs⟩ := n
  rw [sameValue, Bool.and_assoc, Bool.and_eq_true, sameValues_iff]
  simp only [NaNFree, signless, Message.mk.injEq, beq_iff_eq]
  tauto

end Message

namespace Packet

mutual

/-- The packet with no zero that has a sign. -/
def signless : Packet → Packet
  | message m => message m.signless
  | bundle timetag elements => bundle timetag (signlessAll elements)

def signlessAll : List Packet → List Packet
  | [] => []
  | p :: ps => signless p :: signlessAll ps

end

/-- No argument at any depth is a number in floating point that is not a number. -/
def NaNFree (p : Packet) : Prop := ∀ m ∈ p.messages, m.NaNFree

theorem naNFree_message {m : Message} : NaNFree (message m) ↔ m.NaNFree := by
  rw [NaNFree, messages_message, List.forall_mem_singleton]

theorem naNFree_bundle {timetag : TimeTag} {elements : List Packet} :
    NaNFree (bundle timetag elements) ↔ ∀ p ∈ elements, NaNFree p :=
  forall_mem_messages_bundle

theorem sameValues_iff {ps qs : List Packet}
    (h : ∀ p ∈ ps, ∀ q, p.sameValue q = true ↔ p.NaNFree ∧ q.NaNFree ∧ p.signless = q.signless) :
    sameValues ps qs = true ↔ (∀ p ∈ ps, p.NaNFree) ∧ (∀ q ∈ qs, q.NaNFree) ∧
      signlessAll ps = signlessAll qs := by
  induction ps generalizing qs with
  | nil => cases qs <;> simp [sameValues, signlessAll]
  | cons p ps ih =>
    obtain ⟨hp, hps⟩ := List.forall_mem_cons.1 h
    cases qs with
    | nil => simp [sameValues, signlessAll]
    | cons q qs =>
      simp only [sameValues, Bool.and_eq_true, hp, ih hps, List.forall_mem_cons, signlessAll,
        List.cons.injEq]
      tauto

/-- Packets carry the same values if all their numbers are numbers and nothing but the signs of zeros
tells them apart. -/
theorem sameValue_iff {p q : Packet} :
    p.sameValue q = true ↔ p.NaNFree ∧ q.NaNFree ∧ p.signless = q.signless := by
  induction p using Packet.induct generalizing q with
  | message m =>
    cases q with
    | message n => simp [sameValue, signless, naNFree_message, Message.sameValue_iff]
    | bundle timetag elements => simp [sameValue, signless]
  | bundle timetag elements ih =>
    cases q with
    | message n => simp [sameValue, signless]
    | bundle timetag' elements' =>
      simp only [sameValue, Bool.and_eq_true, beq_iff_eq, sameValues_iff fun p hp q => @ih p hp q,
        naNFree_bundle, signless, Packet.bundle.injEq]
      tauto

theorem sameValue_comm (p q : Packet) : p.sameValue q = q.sameValue p := by
  rw [Bool.eq_iff_iff, sameValue_iff, sameValue_iff]
  tauto

theorem sameValue_trans {p q r : Packet} (hpq : p.sameValue q = true) (hqr : q.sameValue r = true) :
    p.sameValue r = true := by
  rw [sameValue_iff] at hpq hqr ⊢
  exact ⟨hpq.1, hqr.2.1, hpq.2.2.trans hqr.2.2⟩

theorem sameValue_self_iff {p : Packet} : p.sameValue p = true ↔ p.NaNFree := by
  rw [sameValue_iff, and_iff_left rfl, and_self_iff]

end Packet

end OpenSound
