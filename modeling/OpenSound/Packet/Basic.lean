import OpenSound.Argument.Basic
/-!
# Messages, bundles and packets

A packet is a message or a bundle; a bundle holds packets again, in wire order, under one time tag.
Packets nest to any depth, so walks over them that have to run keep their own stack. Beside the
flattening that runs, `Packet.leaves` says by recursion what it computes.
-/

namespace OpenSound

/-- A message: the address of a method and the arguments to call it with. -/
structure Message where
  address : String
  arguments : List Argument
  deriving DecidableEq, Repr

/-- The text that announces a message's arguments: a comma and one character each. -/
def Message.typetags (m : Message) : String :=
  String.ofList (',' :: m.arguments.map Argument.tag)

/-- A message, or a time tag over further packets. -/
inductive Packet where
  | message (m : Message)
  | bundle (timetag : TimeTag) (elements : List Packet)
  deriving Repr

structure Bundle where
  timetag : TimeTag
  elements : List Packet
  deriving Repr

def Bundle.toPacket (b : Bundle) : Packet := .bundle b.timetag b.elements

namespace Packet

def isBundle : Packet → Bool
  | message _ => false
  | bundle _ _ => true

/-- Induction over packets, with the elements of a bundle known to satisfy the claim. -/
theorem induct {motive : Packet → Prop} (message : ∀ m, motive (.message m))
    (bundle : ∀ t elements, (∀ p ∈ elements, motive p) → motive (.bundle t elements)) :
    ∀ p, motive p
  | .message m => message m
  | .bundle t elements => bundle t elements fun p _ => induct message bundle p

/-! ### Equality -/

mutual

/-- Whether two packets are the same, bit for bit. -/
def beq : Packet → Packet → Bool
  | message m, message n => m == n
  | bundle s ps, bundle t qs => s == t && beqAll ps qs
  | _, _ => false

def beqAll : List Packet → List Packet → Bool
  | [], [] => true
  | p :: ps, q :: qs => beq p q && beqAll ps qs
  | _, _ => false

end

mutual

theorem eq_of_beq {p q : Packet} (h : beq p q = true) : p = q := by
  cases p <;> cases q <;> simp [beq] at h
  · rw [h]
  · rw [h.1, eq_of_beqAll h.2]

theorem eq_of_beqAll {ps qs : List Packet} (h : beqAll ps qs = true) : ps = qs := by
  match ps, qs with
  | [], [] => rfl
  | p :: ps, q :: qs =>
    simp only [beqAll, Bool.and_eq_true] at h
    rw [eq_of_beq h.1, eq_of_beqAll h.2]
  | [], _ :: _ => cases h
  | _ :: _, [] => cases h

end

mutual

theorem beq_refl (p : Packet) : beq p p = true := by
  cases p <;> simp [beq, beqAll_refl]

theorem beqAll_refl (ps : List Packet) : beqAll ps ps = true := by
  match ps with
  | [] => rfl
  | p :: ps => simp [beqAll, beq_refl p, beqAll_refl ps]

end

instance : DecidableEq Packet := fun p q =>
  if h : beq p q = true then isTrue (eq_of_beq h)
  else isFalse fun he => h (he ▸ beq_refl p)

end Packet

deriving instance DecidableEq for Bundle

/-! ### Equality of values -/

def Message.sameValue (m n : Message) : Bool :=
  m.address == n.address && m.arguments.length == n.arguments.length &&
    (m.arguments.zip n.arguments).all fun (a, b) => a.sameValue b

namespace Packet

mutual

/-- Whether two packets have the same shape and carry the same values. -/
def sameValue : Packet → Packet → Bool
  | message m, message n => m.sameValue n
  | bundle s ps, bundle t qs => s == t && sameValues ps qs
  | _, _ => false

def sameValues : List Packet → List Packet → Bool
  | [], [] => true
  | p :: ps, q :: qs => sameValue p q && sameValues ps qs
  | _, _ => false

end

/-! ### Flattening -/

mutual

/-- The number of steps that a walk over a packet takes: one for a message, one each for entering and
leaving a bundle. -/
def steps : Packet → Nat
  | message _ => 1
  | bundle _ elements => stepsAll elements + 2

def stepsAll : List Packet → Nat
  | [] => 0
  | p :: ps => steps p + stepsAll ps

end

/-- The number of steps that are left when some lists of packets are still open. -/
def stepsOpen : List (List Packet) → Nat
  | [] => 0
  | level :: open_ => stepsAll level + 1 + stepsOpen open_

/-- The messages of the open lists, the innermost list first. -/
def flatten : List (List Packet) → List Message
  | [] => []
  | [] :: open_ => flatten open_
  | (message m :: ps) :: open_ => m :: flatten (ps :: open_)
  | (bundle _ elements :: ps) :: open_ => flatten (elements :: ps :: open_)
termination_by open_ => stepsOpen open_
decreasing_by all_goals simp only [stepsOpen, stepsAll, steps]; omega

/-- All messages of a packet, in wire order. -/
def messages (p : Packet) : List Message := flatten [[p]]

mutual

/-- The messages of a packet, by recursion over its shape. -/
def leaves : Packet → List Message
  | message m => [m]
  | bundle _ elements => leavesAll elements

def leavesAll : List Packet → List Message
  | [] => []
  | p :: ps => leaves p ++ leavesAll ps

end

end Packet

end OpenSound
