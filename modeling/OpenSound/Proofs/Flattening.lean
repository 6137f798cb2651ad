import OpenSound.Packet.Basic
/-!
# The messages of a packet

The flattening that runs walks a packet with a stack of open lists. What it computes is the recursion
`Packet.leaves`: a walk that still has some lists open yields the leaves of all of them, the innermost
list first. From then on the messages of a packet are given by its shape (`messages_message`,
`messages_bundle`), and neither the walk nor the leaves are needed again.
-/

namespace OpenSound.Packet

@[simp] theorem leavesAll_nil : leavesAll [] = [] := rfl

@[simp] theorem leavesAll_cons (p : Packet) (ps : List Packet) :
    leavesAll (p :: ps) = leaves p ++ leavesAll ps := rfl

@[simp] theorem leaves_message (m : Message) : leaves (message m) = [m] := rfl

@[simp] theorem leaves_bundle (timetag : TimeTag) (elements : List Packet) :
    leaves (bundle timetag elements) = leavesAll elements := rfl

theorem leavesAll_eq_flatMap (ps : List Packet) : leavesAll ps = ps.flatMap leaves := by
  induction ps with
  | nil => rfl
  | cons p ps ih => rw [leavesAll_cons, ih, List.flatMap_cons]

theorem flatten_eq_flatMap (levels : List (List Packet)) :
    flatten levels = levels.flatMap leavesAll := by
  fun_induction flatten levels with
  | case1 => rfl
  | case2 levels ih => rw [ih, List.flatMap_cons, leavesAll_nil, List.nil_append]
  | case3 levels m ps ih =>
    rw [ih, List.flatMap_cons, List.flatMap_cons, leavesAll_cons, leaves_message]
    rfl
  | case4 levels timetag elements ps ih =>
    rw [ih, List.flatMap_cons, List.flatMap_cons, List.flatMap_cons, leavesAll_cons, leaves_bundle,
      List.append_assoc]

theorem messages_eq_leaves (p : Packet) : p.messages = p.leaves := by
  rw [messages, flatten_eq_flatMap, List.flatMap_singleton, leavesAll_cons, leavesAll_nil,
    List.append_nil]

@[simp] theorem messages_message (m : Message) : (message m).messages = [m] := by
  rw [messages_eq_leaves, leaves_message]

@[simp] theorem messages_bundle (timetag : TimeTag) (elements : List Packet) :
    (bundle timetag elements).messages = elements.flatMap messages := by
  rw [messages_eq_leaves, leaves_bundle, leavesAll_eq_flatMap, funext messages_eq_leaves]

theorem forall_mem_messages_bundle {holds : Message → Prop} {timetag : TimeTag}
    {elements : List Packet} :
    (∀ m ∈ (bundle timetag elements).messages, holds m) ↔
      ∀ p ∈ elements, ∀ m ∈ p.messages, holds m := by
  simp only [messages_bundle, List.mem_flatMap]
  apply Iff.intro
  · intro h p hp m hm
    exact h m ⟨p, hp, hm⟩
  · intro h m hm
    obtain ⟨p, hp, hm⟩ := hm
    exact h p hp m hm

end OpenSound.Packet
