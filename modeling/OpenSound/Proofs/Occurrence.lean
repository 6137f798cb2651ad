import Mathlib.Data.List.Count
import OpenSound.Proofs.Canonical
/-!
# Where the messages of a packet stand

In the tree, the messages of a packet are its leaves from left to right. A path leads to each by the
positions to be taken inwards, and flattening follows the paths in lexicographic order.

In a datagram, the messages stand one behind the other in the same order, where `messagePlaces` finds
them by sizes and markers alone.
-/

namespace OpenSound

namespace Packet

/-! ### Leaves of a tree -/

/-- The message that a path of positions leads to, the outermost position first. -/
def messageAt? : Packet → List Nat → Option Message
  | message m, [] => some m
  | bundle _ elements, i :: path => elements[i]?.bind (messageAt? · path)
  | _, _ => none

mutual

/-- The paths to the messages of a packet, from left to right. -/
def paths : Packet → List (List Nat)
  | message _ => [[]]
  | bundle _ elements => pathsFrom 0 elements

def pathsFrom : Nat → List Packet → List (List Nat)
  | _, [] => []
  | i, p :: ps => (paths p).map (i :: ·) ++ pathsFrom (i + 1) ps

end

theorem mem_pathsFrom_iff {i : Nat} {ps : List Packet} {path : List Nat} :
    path ∈ pathsFrom i ps ↔ ∃ j inner p, path = (i + j) :: inner ∧ ps[j]? = some p ∧ inner ∈ p.paths := by
  induction ps generalizing i with
  | nil => simp [pathsFrom]
  | cons p ps ih =>
    rw [pathsFrom, List.mem_append, List.mem_map, ih]
    apply Iff.intro
    · rintro (⟨inner, hinner, rfl⟩ | ⟨j, inner, q, rfl, hq, hinner⟩)
      · exact ⟨0, inner, p, rfl, rfl, hinner⟩
      · exact ⟨j + 1, inner, q, by rw [Nat.add_assoc, Nat.add_comm 1], hq, hinner⟩
    · rintro ⟨j, inner, q, rfl, hq, hinner⟩
      cases j with
      | zero =>
        cases hq
        exact .inl ⟨inner, hinner, rfl⟩
      | succ j => exact .inr ⟨j, inner, q, by rw [Nat.add_assoc, Nat.add_comm 1], hq, hinner⟩

theorem pairwise_pathsFrom {ps : List Packet} (h : ∀ p ∈ ps, p.paths.Pairwise (· < ·)) (i : Nat) :
    (pathsFrom i ps).Pairwise (· < ·) := by
  induction ps generalizing i with
  | nil => exact .nil
  | cons p ps ih =>
    obtain ⟨hfirst, hothers⟩ := List.forall_mem_cons.1 h
    rw [pathsFrom, List.pairwise_append, List.pairwise_map]
    refine ⟨hfirst.imp fun hlt => List.cons_lt_cons_iff.2 (.inr ⟨rfl, hlt⟩), ih hothers (i + 1), ?_⟩
    intro path hpath other hother
    obtain ⟨inner, -, rfl⟩ := List.mem_map.1 hpath
    obtain ⟨j, inner', -, rfl, -, -⟩ := mem_pathsFrom_iff.1 hother
    exact List.cons_lt_cons_iff.2 (.inl (by omega))

theorem pairwise_paths (p : Packet) : p.paths.Pairwise (· < ·) := by
  induction p using Packet.induct with
  | message m => exact List.pairwise_singleton _ _
  | bundle timetag elements ih => exact pairwise_pathsFrom ih 0

theorem mem_paths_iff {p : Packet} {path : List Nat} :
    path ∈ p.paths ↔ ∃ m, p.messageAt? path = some m := by
  induction p using Packet.induct generalizing path with
  | message m => cases path <;> simp [paths, messageAt?]
  | bundle timetag elements ih =>
    rw [paths, mem_pathsFrom_iff]
    cases path with
    | nil => simp [messageAt?]
    | cons i path =>
      simp only [messageAt?, Option.bind_eq_some_iff]
      apply Iff.intro
      · rintro ⟨j, inner, p, hpath, hp, hinner⟩
        rw [Nat.zero_add] at hpath
        cases hpath
        obtain ⟨m, hm⟩ := (ih p (List.mem_of_getElem? hp)).1 hinner
        exact ⟨m, p, hp, hm⟩
      · rintro ⟨m, p, hp, hm⟩
        exact ⟨i, path, p, by rw [Nat.zero_add], hp, (ih p (List.mem_of_getElem? hp)).2 ⟨m, hm⟩⟩

/-- Whatever sees a path into an element as the element does, sees the element's messages. -/
theorem map_pathsFrom {ps : List Packet} {i : Nat} {view : List Nat → Option Message}
    (hview : ∀ j p, ps[j]? = some p → ∀ path, view ((i + j) :: path) = p.messageAt? path)
    (h : ∀ p ∈ ps, p.paths.map p.messageAt? = p.messages.map some) :
    (pathsFrom i ps).map view = (ps.flatMap messages).map some := by
  induction ps generalizing i with
  | nil => rfl
  | cons p ps ih =>
    obtain ⟨hfirst, hothers⟩ := List.forall_mem_cons.1 h
    have hinside : view ∘ (i :: ·) = p.messageAt? := funext (hview 0 p rfl)
    rw [pathsFrom, List.map_append, List.map_map, hinside, hfirst, ih _ hothers, List.flatMap_cons,
      List.map_append]
    intro j q hq path
    rw [Nat.add_assoc, Nat.add_comm 1]
    exact hview (j + 1) q hq path

theorem map_messageAt?_paths (p : Packet) : p.paths.map p.messageAt? = p.messages.map some := by
  induction p using Packet.induct with
  | message m => rw [messages_message]; rfl
  | bundle timetag elements ih =>
    rw [paths, messages_bundle]
    refine map_pathsFrom (fun i p hp path => ?_) ih
    rw [Nat.zero_add, messageAt?, hp, Option.bind_some]

end Packet

/-! ### Places in a datagram -/

/-- The position and the bytes of each message, at any depth, among the elements that can be taken off
one after the other from bytes that stand at `start`. -/
def elementPlaces (start : Nat) (bytes : Bytes) : List (Nat × Bytes) :=
  match _hsplit : splitElement bytes with
  | .error _ => []
  | .ok (element, rest) =>
    if startsBundle element then
      elementPlaces (start + 20) (element.drop 16) ++ elementPlaces (start + 4 + element.length) rest
    else (start + 4, element) :: elementPlaces (start + 4 + element.length) rest
termination_by bytes.length
decreasing_by
  · have hlength := length_of_splitElement _hsplit
    rw [List.length_drop]
    omega
  · have hlength := length_of_splitElement _hsplit
    omega
  · have hlength := length_of_splitElement _hsplit
    omega

/-- The position and the bytes of each message of a packet that stands at `start`. -/
def messagePlaces (start : Nat) (bytes : Bytes) : List (Nat × Bytes) :=
  if startsBundle bytes then elementPlaces (start + 16) (bytes.drop 16) else [(start, bytes)]

theorem elementPlaces_nil (start : Nat) : elementPlaces start [] = [] := by
  rw [elementPlaces]
  rfl

open Packet (frame frames WireForm)

theorem elementPlaces_frame {element : Bytes} (hne : element ≠ []) (haligned : 4 ∣ element.length)
    (hsize : element.length < UInt32.size) (start : Nat) (rest : Bytes) :
    elementPlaces start (frame element ++ rest) =
      messagePlaces (start + 4) element ++ elementPlaces (start + (frame element).length) rest := by
  have hsplit : splitElement (frame element ++ rest) = .ok (element, rest) :=
    splitElement_eq_ok_iff.2 ⟨hne, haligned, hsize, rfl⟩
  rw [elementPlaces.eq_def, messagePlaces, Packet.length_frame, ← Nat.add_assoc]
  split
  · simp_all
  · rename_i element' rest' hsplit'
    rw [hsplit] at hsplit'
    cases hsplit'
    split <;> rfl

theorem messagePlaces_of_not_startsBundle {bytes : Bytes} (h : startsBundle bytes = false)
    (start : Nat) : messagePlaces start bytes = [(start, bytes)] := by
  rw [messagePlaces, if_neg (by rw [h]; decide)]

theorem messagePlaces_header (timetag : TimeTag) (start : Nat) (body : Bytes) :
    messagePlaces start (bundleHeader timetag ++ body) =
      elementPlaces (start + (bundleHeader timetag).length) body := by
  rw [messagePlaces, if_pos (startsBundle_header _ _), List.drop_left' (length_bundleHeader timetag),
    length_bundleHeader]

/-- The places are those of the messages, within bytes that stand at `start`: what is read at each is the
message, its bytes do occur there, and no place begins before the one in front of it ends. -/
structure Placed (messages : List Message) (start : Nat) (bytes : Bytes)
    (places : List (Nat × Bytes)) : Prop where
  reads : (places.map fun place => Message.decode place.2) = messages.map .ok
  occurs : ∀ place ∈ places,
    ∃ before after, bytes = before ++ place.2 ++ after ∧ place.1 = start + before.length
  inOrder : places.Pairwise fun place next => place.1 + place.2.length ≤ next.1

namespace Placed

variable {messages messages' : List Message} {start : Nat} {bytes bytes' : Bytes}
  {places places' : List (Nat × Bytes)}

theorem nil : Placed [] start bytes [] := ⟨rfl, nofun, .nil⟩

theorem singleton {m : Message} (hread : Message.decode bytes = .ok m) :
    Placed [m] start bytes [(start, bytes)] := by
  refine ⟨by simp [hread], fun place hplace => ?_, List.pairwise_singleton _ _⟩
  obtain rfl := List.mem_singleton.1 hplace
  exact ⟨[], [], by simp, rfl⟩

theorem append (h : Placed messages start bytes places)
    (h' : Placed messages' (start + bytes.length) bytes' places') :
    Placed (messages ++ messages') start (bytes ++ bytes') (places ++ places') := by
  refine ⟨?_, fun place hplace => ?_, List.pairwise_append.2 ⟨h.inOrder, h'.inOrder, ?_⟩⟩
  · rw [List.map_append, List.map_append, h.reads, h'.reads]
  · rcases List.mem_append.1 hplace with hplace | hplace
    · obtain ⟨before, after, rfl, hposition⟩ := h.occurs place hplace
      exact ⟨before, after ++ bytes', by simp, hposition⟩
    · obtain ⟨before, after, rfl, hposition⟩ := h'.occurs place hplace
      refine ⟨bytes ++ before, after, by simp, ?_⟩
      rw [hposition, List.length_append, Nat.add_assoc]
  · intro place hplace next hnext
    obtain ⟨before, after, rfl, hposition⟩ := h.occurs place hplace
    obtain ⟨before', after', rfl, hposition'⟩ := h'.occurs next hnext
    simp only [List.length_append] at hposition'
    omega

end Placed

namespace Packet

theorem placed_elementPlaces {elements : List (Packet × Bytes)}
    (hplaced : ∀ e ∈ elements, ∀ start, Placed e.1.messages start e.2 (messagePlaces start e.2))
    (hforms : ∀ e ∈ elements, WireForm e.1 e.2) (hsizes : ∀ e ∈ elements, e.2.length < UInt32.size)
    (start : Nat) :
    Placed ((elements.map Prod.fst).flatMap messages) start (frames (elements.map Prod.snd))
      (elementPlaces start (frames (elements.map Prod.snd))) := by
  induction elements generalizing start with
  | nil =>
    rw [List.map_nil, List.map_nil, frames_nil, elementPlaces_nil]
    exact .nil
  | cons e elements ih =>
    obtain ⟨hfirst, hplaced⟩ := List.forall_mem_cons.1 hplaced
    obtain ⟨hform, hforms⟩ := List.forall_mem_cons.1 hforms
    obtain ⟨hsize, hsizes⟩ := List.forall_mem_cons.1 hsizes
    have hframe : Placed e.1.messages start (frame e.2) (messagePlaces (start + 4) e.2) := by
      have hword : Placed [] start (Bytes.ofWord32 (UInt32.ofNat e.2.length)) [] := .nil
      apply hword.append
      rw [Bytes.length_ofWord32]
      exact hfirst _
    rw [List.map_cons, List.map_cons, List.flatMap_cons, frames_cons,
      elementPlaces_frame hform.ne_nil hform.four_dvd_length hsize]
    exact hframe.append (ih hplaced hforms hsizes _)

theorem WireForm.placed {p : Packet} {bytes : Bytes} (h : WireForm p bytes) (start : Nat) :
    Placed p.messages start bytes (messagePlaces start bytes) := by
  induction h generalizing start with
  | @tagged m bytes hvalid hwritten =>
    rw [messages_message, messagePlaces_of_not_startsBundle
      (not_startsBundle_encode hwritten (ne_marker_of_valid hvalid))]
    exact .singleton (Message.decode_of_encode hvalid hwritten)
  | @untagged address bytes hvalid hwritten =>
    rw [messages_message, messagePlaces_of_not_startsBundle
      (not_startsBundle_encodeText hwritten (ne_marker_of_valid hvalid))]
    exact .singleton (Message.decode_of_encodeText hvalid hwritten)
  | bundle timetag elements hinner hsizes ih =>
    have hheader : Placed [] start (bundleHeader timetag) [] := .nil
    rw [messages_bundle, messagePlaces_header]
    exact hheader.append (placed_elementPlaces ih hinner hsizes _)

/-! ### The order of the messages -/

/-- Flattening a bundle flattens its elements one after the other. What results are the leaves of the
tree, each as often as there are paths to it and in the order of the paths, and for a packet that was
read it is the order in which the messages stand in the datagram. -/
theorem messages_inOrder :
    (∀ m, (message m).messages = [m]) ∧
    (∀ timetag elements, (bundle timetag elements).messages = elements.flatMap messages) ∧
    (∀ p : Packet, p.paths.Pairwise (· < ·) ∧
      (∀ path, path ∈ p.paths ↔ ∃ m, p.messageAt? path = some m) ∧
      p.paths.map p.messageAt? = p.messages.map some ∧
      ∀ m, p.messages.count m = p.paths.countP (p.messageAt? · == some m)) ∧
    ∀ (bytes : Bytes) (p : Packet), Packet.decode bytes = .ok p →
      Placed p.messages 0 bytes (messagePlaces 0 bytes) := by
  refine ⟨messages_message, messages_bundle, fun p => ?_, fun bytes p hread => ?_⟩
  · refine ⟨pairwise_paths p, fun path => mem_paths_iff, map_messageAt?_paths p, fun m => ?_⟩
    rw [← List.count_map_of_injective _ _ (Option.some_injective _), ← map_messageAt?_paths,
      List.count, List.countP_map]
    rfl
  · exact (decode_eq_ok_iff.1 hread).placed 0

theorem messages_inOrder_mixed :
    mixed.paths = [[0], [1, 0], [1, 1]] ∧ mixed.messageAt? [1, 0] = some ⟨"/y", [.int 9]⟩ ∧
      Placed mixed.messages 0 mixedBytes (messagePlaces 0 mixedBytes) := by
  obtain ⟨-, -, -, hplaced⟩ := messages_inOrder
  exact ⟨rfl, rfl, hplaced mixedBytes mixed wireForm_mixed.decode⟩

end Packet

end OpenSound
