import OpenSound.Proofs.Messages
import OpenSound.Proofs.Flattening
/-!
# What the writer of packets writes

The writer leaves four bytes free in front of every element and fills the element's size in when it
leaves the element. The invariant is that what is already in the buffer, up to the free bytes, never
changes again, so a size filled in late is the size that `Packet.layout` writes at once
(`Packet.encode_eq_layout`). A failure is the same too: both find the first one in wire order.

With sizes known in advance (`Packet.size`), the layout exists exactly when no text holds a zero
character and no blob and no element reaches four gigabytes (`Packet.exists_layout_iff`).
-/

namespace OpenSound.Packet

/-! ### Sizes in front of elements -/

/-- An element with its size in front of it. -/
def frame (element : Bytes) : Bytes :=
  Bytes.ofWord32 (UInt32.ofNat element.length) ++ element

def frame? (element : Bytes) : Except EncodeFault Bytes :=
  if element.length < UInt32.size then .ok (frame element)
  else .error (.elementTooLarge element.length)

@[simp] theorem length_frame (element : Bytes) : (frame element).length = 4 + element.length := by
  simp [frame]

theorem layoutElements_cons (p : Packet) (ps : List Packet) :
    layoutElements (p :: ps) = (do
      let element ← layout p
      let framed ← frame? element
      let others ← layoutElements ps
      .ok (framed ++ others)) := by
  rw [layoutElements]
  apply bind_congr
  intro element
  unfold frame?
  split <;> rfl

/-! ### Filling in a size -/

theorem overwrite_append (front hole back bytes : Bytes) (hlength : hole.length = bytes.length) :
    overwrite (front ++ (hole ++ back)).toArray front.length bytes =
      (front ++ (bytes ++ back)).toArray := by
  induction bytes generalizing front hole with
  | nil =>
    obtain rfl := List.length_eq_zero_iff.1 hlength
    rfl
  | cons byte bytes ih =>
    cases hole with
    | nil => cases hlength
    | cons first hole =>
      have hset : (front ++ (first :: hole ++ back)).set front.length byte =
          (front ++ [byte]) ++ (hole ++ back) := by
        rw [List.set_append_right _ _ (Nat.le_refl _), Nat.sub_self]
        simp
      have hnext : front.length + 1 = (front ++ [byte]).length := by simp
      rw [overwrite, List.setIfInBounds_toArray, hset, hnext,
        ih (front ++ [byte]) hole (Nat.succ.inj hlength)]
      simp

/-- The four bytes left free in front of an element take the size of what was written after them. -/
theorem fillSize_append (front element : Bytes) :
    fillSize (front ++ (unsized ++ element)).toArray front.length =
      (frame? element).map fun framed => (front ++ framed).toArray := by
  have hsize : (front ++ (unsized ++ element)).toArray.size - (front.length + 4) =
      element.length := by
    simp [unsized]
    omega
  unfold fillSize frame?
  dsimp only
  rw [hsize]
  split
  · rw [overwrite_append front unsized element _ (Bytes.length_ofWord32 _).symm]
    rfl
  · rfl

/-! ### The writer writes the layout -/

/-- Writing on from here puts the framed layout of the packet behind what was written before, or fails
as the layout does. -/
def WritesLayout (p : Packet) : Prop :=
  ∀ (front : Bytes) (rest : List Packet) (sizeAt : Option Nat) (levels : List Level),
    encodeLevels front.toArray (⟨p :: rest, sizeAt⟩ :: levels) = (do
      let element ← layout p
      let framed ← frame? element
      encodeLevels (front ++ framed).toArray (⟨rest, sizeAt⟩ :: levels))

theorem encodeLevels_elements {elements : List Packet} (h : ∀ p ∈ elements, WritesLayout p)
    (front : Bytes) (sizeAt : Option Nat) (levels : List Level) :
    encodeLevels front.toArray (⟨elements, sizeAt⟩ :: levels) = (do
      let body ← layoutElements elements
      encodeLevels (front ++ body).toArray (⟨[], sizeAt⟩ :: levels)) := by
  induction elements generalizing front with
  | nil =>
    change _ = encodeLevels (front ++ []).toArray _
    rw [List.append_nil]
  | cons p ps ih =>
    have hothers := ih fun q hq => h q (List.mem_cons_of_mem _ hq)
    rw [h p List.mem_cons_self, layoutElements_cons]
    simp only [bind_assoc, hothers, ok_bind, List.append_assoc]

theorem writesLayout (p : Packet) : WritesLayout p := by
  induction p using Packet.induct with
  | message m =>
    intro front rest sizeAt levels
    have hbuffer : ∀ element : Bytes,
        front.toArray ++ unsized ++ element = (front ++ (unsized ++ element)).toArray := by
      intro element
      simp
    rw [encodeLevels, layout]
    cases m.encode with
    | error fault => rfl
    | ok element =>
      simp only [hbuffer, List.size_toArray, fillSize_append, ok_bind]
      cases frame? element <;> rfl
  | bundle timetag elements ih =>
    intro front rest sizeAt levels
    have hbuffer : front.toArray ++ unsized ++ bundleHeader timetag =
        (front ++ (unsized ++ bundleHeader timetag)).toArray := by
      simp
    rw [encodeLevels, hbuffer, encodeLevels_elements ih, layout, bind_assoc]
    apply bind_congr
    intro body
    have hclose : front ++ (unsized ++ bundleHeader timetag) ++ body =
        front ++ (unsized ++ (bundleHeader timetag ++ body)) := by
      simp only [List.append_assoc]
    rw [encodeLevels, hclose, List.size_toArray, fillSize_append, ok_bind]
    cases frame? (bundleHeader timetag ++ body) <;> rfl

/-- Filling sizes in late gives the same bytes, and the same failures, as writing each size in front
of an element that is already there. -/
theorem encode_eq_layout (p : Packet) : p.encode = p.layout.mapError .encodeError := by
  cases p with
  | message m => rfl
  | bundle timetag elements =>
    rw [encode, layout, encodeLevels_elements fun p _ => writesLayout p]
    cases layoutElements elements with
    | error fault => rfl
    | ok body =>
      simp only [ok_bind]
      rw [encodeLevels, encodeLevels]
      rfl

theorem encode_eq_ok_iff {p : Packet} {bytes : Bytes} :
    p.encode = .ok bytes ↔ p.layout = .ok bytes := by
  rw [encode_eq_layout, mapError_eq_ok_iff]

/-! ### Lengths -/

mutual

def size : Packet → Nat
  | message m => m.size
  | bundle _ elements => 16 + sizeAll elements

/-- The bytes that the elements of a bundle take, their sizes included. -/
def sizeAll : List Packet → Nat
  | [] => 0
  | p :: ps => 4 + size p + sizeAll ps

end

theorem frame?_eq_ok_iff {element framed : Bytes} :
    frame? element = .ok framed ↔ element.length < UInt32.size ∧ framed = frame element := by
  rw [frame?]
  exact ite_eq_ok_iff

theorem layout_bundle_eq_ok_iff {timetag : TimeTag} {elements : List Packet} {bytes : Bytes} :
    layout (bundle timetag elements) = .ok bytes ↔
      ∃ body, layoutElements elements = .ok body ∧ bytes = bundleHeader timetag ++ body := by
  rw [layout, bind_eq_ok_iff]
  apply Iff.intro
  · intro h
    obtain ⟨body, hbody, h⟩ := h
    cases h
    exact ⟨body, hbody, rfl⟩
  · intro h
    obtain ⟨body, hbody, rfl⟩ := h
    exact ⟨body, hbody, rfl⟩

theorem layoutElements_cons_eq_ok_iff {p : Packet} {ps : List Packet} {body : Bytes} :
    layoutElements (p :: ps) = .ok body ↔
      ∃ element others, layout p = .ok element ∧ element.length < UInt32.size ∧
        layoutElements ps = .ok others ∧ body = frame element ++ others := by
  simp only [layoutElements_cons, bind_eq_ok_iff, frame?_eq_ok_iff]
  apply Iff.intro
  · intro h
    obtain ⟨element, helement, framed, ⟨hsize, rfl⟩, others, hothers, h⟩ := h
    cases h
    exact ⟨element, others, helement, hsize, hothers, rfl⟩
  · intro h
    obtain ⟨element, others, helement, hsize, hothers, rfl⟩ := h
    exact ⟨element, helement, frame element, ⟨hsize, rfl⟩, others, hothers, rfl⟩

mutual

theorem length_of_layout {p : Packet} {bytes : Bytes} (h : layout p = .ok bytes) :
    bytes.length = size p := by
  match p with
  | message m => exact Message.length_of_encode h
  | bundle timetag elements =>
    obtain ⟨body, hbody, rfl⟩ := layout_bundle_eq_ok_iff.1 h
    rw [List.length_append, length_bundleHeader, length_of_layoutElements hbody, size]

theorem length_of_layoutElements {ps : List Packet} {body : Bytes}
    (h : layoutElements ps = .ok body) : body.length = sizeAll ps := by
  match ps with
  | [] =>
    cases h
    rfl
  | p :: ps =>
    obtain ⟨element, others, helement, -, hothers, rfl⟩ := layoutElements_cons_eq_ok_iff.1 h
    rw [List.length_append, length_frame, length_of_layout helement,
      length_of_layoutElements hothers, sizeAll]

end

mutual

theorem four_dvd_size (p : Packet) : 4 ∣ size p := by
  match p with
  | message m => exact m.four_dvd_size
  | bundle timetag elements => exact Nat.dvd_add (by decide) (four_dvd_sizeAll elements)

theorem four_dvd_sizeAll (ps : List Packet) : 4 ∣ sizeAll ps := by
  match ps with
  | [] => exact Nat.dvd_zero 4
  | p :: ps =>
    exact Nat.dvd_add (Nat.dvd_add (Nat.dvd_refl 4) (four_dvd_size p)) (four_dvd_sizeAll ps)

end

theorem four_le_size (p : Packet) : 4 ≤ p.size := by
  cases p with
  | message m =>
    have haddress := four_le_textSize m.address
    rw [size, Message.size]
    omega
  | bundle timetag elements =>
    rw [size]
    omega

theorem ne_nil_of_layout {p : Packet} {bytes : Bytes} (h : layout p = .ok bytes) : bytes ≠ [] := by
  have hsize := four_le_size p
  rw [← length_of_layout h] at hsize
  intro hnil
  rw [hnil, List.length_nil] at hsize
  omega

/-! ### When writing succeeds -/

/-- The length of every blob and the size of every element, at any depth, fit into four bytes. The
packet as a whole has no size in front of it, so it may be longer. -/
inductive Fits : Packet → Prop where
  | message {m : Message} (blobs : m.Fits) : Fits (.message m)
  | bundle {timetag : TimeTag} {elements : List Packet}
      (sizes : ∀ p ∈ elements, p.size < UInt32.size) (inner : ∀ p ∈ elements, Fits p) :
      Fits (.bundle timetag elements)

theorem size_lt_sizeAll_of_mem {p : Packet} {ps : List Packet} (h : p ∈ ps) :
    p.size < sizeAll ps := by
  induction ps with
  | nil => cases h
  | cons q ps ih =>
    rw [sizeAll]
    rcases List.mem_cons.1 h with heq | hmem
    · rw [heq]
      omega
    · have hlt := ih hmem
      omega

/-- No size that is written is larger than the packet that it is written in. -/
theorem fits_of_size_lt {p : Packet} (h : p.size < UInt32.size) : p.Fits := by
  induction p using Packet.induct with
  | message m =>
    apply Fits.message
    exact Message.fits_of_size_lt h
  | bundle timetag elements ih =>
    have hsizes : ∀ p ∈ elements, p.size < UInt32.size := by
      intro p hp
      have hlt := size_lt_sizeAll_of_mem hp
      rw [size] at h
      omega
    exact .bundle hsizes fun p hp => ih p hp (hsizes p hp)

/-- No text in the messages of the packet holds the zero character. -/
def NulFree (p : Packet) : Prop := ∀ m ∈ p.messages, m.NulFree

theorem nulFree_message {m : Message} : NulFree (message m) ↔ m.NulFree := by
  rw [NulFree, messages_message]
  exact List.forall_mem_singleton

theorem nulFree_bundle {timetag : TimeTag} {elements : List Packet} :
    NulFree (bundle timetag elements) ↔ ∀ p ∈ elements, NulFree p :=
  forall_mem_messages_bundle

theorem exists_layoutElements_iff {ps : List Packet} :
    (∃ body, layoutElements ps = .ok body) ↔
      ∀ p ∈ ps, (∃ bytes, layout p = .ok bytes) ∧ p.size < UInt32.size := by
  induction ps with
  | nil => simp [layoutElements]
  | cons p ps ih =>
    rw [List.forall_mem_cons, ← ih]
    apply Iff.intro
    · intro h
      obtain ⟨body, h⟩ := h
      obtain ⟨element, others, helement, hsize, hothers, -⟩ := layoutElements_cons_eq_ok_iff.1 h
      rw [length_of_layout helement] at hsize
      exact ⟨⟨⟨element, helement⟩, hsize⟩, ⟨others, hothers⟩⟩
    · intro h
      obtain ⟨⟨⟨element, helement⟩, hsize⟩, ⟨others, hothers⟩⟩ := h
      rw [← length_of_layout helement] at hsize
      exact ⟨_, layoutElements_cons_eq_ok_iff.2 ⟨element, others, helement, hsize, hothers, rfl⟩⟩

/-- A packet can be written exactly when its texts hold no zero character and its sizes fit. -/
theorem exists_layout_iff {p : Packet} : (∃ bytes, layout p = .ok bytes) ↔ p.NulFree ∧ p.Fits := by
  induction p using Packet.induct with
  | message m =>
    rw [layout, Message.exists_encode_iff, nulFree_message]
    apply Iff.intro
    · intro h
      exact ⟨h.1, .message h.2⟩
    · intro h
      obtain ⟨hnul, ⟨hfits⟩⟩ := h
      exact ⟨hnul, hfits⟩
  | bundle timetag elements ih =>
    have hbody : (∃ bytes, layout (bundle timetag elements) = .ok bytes) ↔
        ∃ body, layoutElements elements = .ok body := by
      simp only [layout_bundle_eq_ok_iff]
      apply Iff.intro
      · intro h
        obtain ⟨bytes, body, hbody, -⟩ := h
        exact ⟨body, hbody⟩
      · intro h
        obtain ⟨body, hbody⟩ := h
        exact ⟨_, body, hbody, rfl⟩
    rw [hbody, exists_layoutElements_iff, nulFree_bundle]
    apply Iff.intro
    · intro h
      refine ⟨fun p hp => ?_, .bundle (fun p hp => (h p hp).2) fun p hp => ?_⟩
      · exact ((ih p hp).1 (h p hp).1).1
      · exact ((ih p hp).1 (h p hp).1).2
    · intro h p hp
      obtain ⟨hnul, hfits⟩ := h
      cases hfits with
      | bundle hsizes hinner => exact ⟨(ih p hp).2 ⟨hnul p hp, hinner p hp⟩, hsizes p hp⟩

end OpenSound.Packet
