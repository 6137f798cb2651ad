import OpenSound.Proofs.Nesting
/-!
# The wire form of packets

`Packet.WireForm p bytes` says what it is for bytes to stand for a packet, with neither the reader's
stack nor the writer's buffer: a message stands as the writer of messages writes it, or without its
type tags if it has no arguments, and a bundle is its header with its elements behind it, each framed
by its size. Reading accepts exactly the wire forms (`Packet.decode_eq_ok_iff`), and what is written
for a packet with valid addresses is one of them (`Packet.WireForm.of_layout`). Properties of all bytes
that can be read are then proved by induction on the form.
-/

namespace OpenSound.Packet

/-- Elements one behind the other, each behind its size. -/
def frames (elements : List Bytes) : Bytes := elements.flatMap frame

@[simp] theorem frames_nil : frames [] = [] := rfl

@[simp] theorem frames_cons (element : Bytes) (elements : List Bytes) :
    frames (element :: elements) = frame element ++ frames elements := rfl

/-- The bytes stand for the packet. -/
inductive WireForm : Packet → Bytes → Prop where
  | tagged {m : Message} {bytes : Bytes} (hvalid : Address.Valid m.address)
      (hwritten : m.encode = .ok bytes) : WireForm (.message m) bytes
  | untagged {address : String} {bytes : Bytes} (hvalid : Address.Valid address)
      (hwritten : encodeText address = .ok bytes) : WireForm (.message ⟨address, []⟩) bytes
  | bundle (timetag : TimeTag) (elements : List (Packet × Bytes))
      (hinner : ∀ e ∈ elements, WireForm e.1 e.2)
      (hsizes : ∀ e ∈ elements, e.2.length < UInt32.size) :
      WireForm (.bundle timetag (elements.map Prod.fst))
        (bundleHeader timetag ++ frames (elements.map Prod.snd))

/-! ### Shape of a form -/

theorem length_lt_of_mem_frames {element : Bytes} {elements : List Bytes}
    (h : element ∈ elements) : element.length < (frames elements).length := by
  induction elements with
  | nil => cases h
  | cons first elements ih =>
    rw [frames_cons, List.length_append, length_frame]
    rcases List.mem_cons.1 h with heq | hmem
    · rw [heq]
      omega
    · have hlt := ih hmem
      omega

theorem four_dvd_length_frames {elements : List Bytes} (h : ∀ e ∈ elements, 4 ∣ e.length) :
    4 ∣ (frames elements).length := by
  induction elements with
  | nil => exact Nat.dvd_zero 4
  | cons element elements ih =>
    obtain ⟨helement, helements⟩ := List.forall_mem_cons.1 h
    rw [frames_cons, List.length_append, length_frame]
    exact Nat.dvd_add (Nat.dvd_add (Nat.dvd_refl 4) helement) (ih helements)

theorem WireForm.four_dvd_length {p : Packet} {bytes : Bytes} (h : WireForm p bytes) :
    4 ∣ bytes.length := by
  induction h with
  | @tagged m bytes _ hwritten =>
    rw [Message.length_of_encode hwritten]
    exact m.four_dvd_size
  | untagged _ hwritten =>
    rw [length_of_encodeText hwritten]
    exact four_dvd_textSize _
  | bundle timetag elements _ _ ih =>
    rw [List.length_append, length_bundleHeader]
    apply Nat.dvd_add (by decide)
    apply four_dvd_length_frames
    intro element helement
    obtain ⟨e, he, rfl⟩ := List.mem_map.1 helement
    exact ih e he

theorem WireForm.ne_nil {p : Packet} {bytes : Bytes} (h : WireForm p bytes) : bytes ≠ [] := by
  have hpos : 0 < bytes.length := by
    cases h with
    | @tagged m bytes _ hwritten =>
      have hsize := four_le_textSize m.address
      rw [Message.length_of_encode hwritten, Message.size]
      omega
    | @untagged address bytes _ hwritten =>
      have hsize := four_le_textSize address
      rw [length_of_encodeText hwritten]
      omega
    | bundle timetag elements _ _ =>
      rw [List.length_append, length_bundleHeader]
      omega
  exact List.length_pos_iff.1 hpos

/-! ### Messages are told from bundles -/

theorem encodeText_marker : encodeText "#bundle" = .ok bundleMarker := by
  rw [encodeText_eq_ok_iff]
  exact ⟨by decide, by decide⟩

/-- Bytes that begin with a written text begin like a bundle only if the text is `#bundle`. -/
theorem startsBundle_encodeText {text : String} {field : Bytes} (h : encodeText text = .ok field)
    (rest : Bytes) : startsBundle (field ++ rest) = true ↔ text = "#bundle" := by
  rw [startsBundle_iff]
  apply Iff.intro
  · intro hstarts
    obtain ⟨body, hbody⟩ := hstarts
    have hread := decodeText_append h rest
    rw [hbody, decodeText_append encodeText_marker] at hread
    cases hread
    rfl
  · intro htext
    subst htext
    rw [encodeText_marker] at h
    cases h
    exact ⟨rest, rfl⟩

theorem startsBundle_encode {m : Message} {bytes : Bytes} (h : m.encode = .ok bytes) :
    startsBundle bytes = true ↔ m.address = "#bundle" := by
  obtain ⟨address, typetags, payloads, haddress, -, -, rfl⟩ := Message.encode_eq_ok_iff.1 h
  exact startsBundle_encodeText haddress _

theorem not_startsBundle_encodeText {text : String} {field : Bytes} (h : encodeText text = .ok field)
    (hmarker : text ≠ "#bundle") : startsBundle field = false := by
  rw [← Bool.not_eq_true, ← List.append_nil field, startsBundle_encodeText h]
  exact hmarker

theorem not_startsBundle_encode {m : Message} {bytes : Bytes} (h : m.encode = .ok bytes)
    (hmarker : m.address ≠ "#bundle") : startsBundle bytes = false := by
  rw [← Bool.not_eq_true, startsBundle_encode h]
  exact hmarker

theorem ne_marker_of_valid {address : String} (h : Address.Valid address) : address ≠ "#bundle" := by
  intro haddress
  subst haddress
  revert h
  decide

/-! ### Reading accepts exactly the wire forms -/

theorem parseElements_frames {elements : List (Packet × Bytes)}
    (hread : ∀ e ∈ elements, Packet.decode e.2 = .ok e.1) (hne : ∀ e ∈ elements, e.2 ≠ [])
    (haligned : ∀ e ∈ elements, 4 ∣ e.2.length)
    (hsizes : ∀ e ∈ elements, e.2.length < UInt32.size) (rest : Bytes) :
    parseElements (frames (elements.map Prod.snd) ++ rest) =
      (elements.map Prod.fst ++ ·) <$> parseElements rest := by
  induction elements with
  | nil =>
    rw [List.map_nil, frames_nil, List.nil_append]
    cases parseElements rest <;> rfl
  | cons e elements ih =>
    rw [List.forall_mem_cons] at hread hne haligned hsizes
    rw [List.map_cons, frames_cons, List.append_assoc,
      parseElements_frame hne.1 haligned.1 hsizes.1, hread.1, ih hread.2 hne.2 haligned.2 hsizes.2]
    cases parseElements rest <;> rfl

/-- What is read as elements splits into frames, each read as a packet of its own. -/
theorem exists_frames_of_parseElements {bytes : Bytes} {ps : List Packet}
    (h : parseElements bytes = .ok ps) :
    ∃ elements : List (Packet × Bytes), ps = elements.map Prod.fst ∧
      bytes = frames (elements.map Prod.snd) ∧
      (∀ e ∈ elements, Packet.decode e.2 = .ok e.1) ∧
      ∀ e ∈ elements, e.2.length < UInt32.size := by
  induction hlength : bytes.length using Nat.strongRecOn generalizing bytes ps with
  | ind length ih =>
  subst hlength
  by_cases hbytes : bytes = []
  · subst hbytes
    rw [parseElements, if_pos rfl] at h
    cases h
    exact ⟨[], rfl, rfl, by simp, by simp⟩
  obtain ⟨⟨element, rest⟩, hsplit, -⟩ := bind_eq_ok_iff.1 ((parseElements_of_ne_nil hbytes) ▸ h)
  obtain ⟨hne, haligned, hsize, rfl⟩ := splitElement_eq_ok_iff.1 (mapError_eq_ok_iff.1 hsplit)
  rw [parseElements_frame hne haligned hsize] at h
  obtain ⟨p, hp, htail⟩ := bind_eq_ok_iff.1 h
  obtain ⟨others, hothers, hps⟩ := bind_eq_ok_iff.1 htail
  cases hps
  have hshorter : rest.length < (frame element ++ rest).length := by
    rw [List.length_append, length_frame]
    omega
  obtain ⟨elements, rfl, rfl, hread, hsizes⟩ := ih rest.length hshorter hothers rfl
  exact ⟨(p, element) :: elements, rfl, rfl, List.forall_mem_cons.2 ⟨hp, hread⟩,
    List.forall_mem_cons.2 ⟨hsize, hsizes⟩⟩

theorem WireForm.decode {p : Packet} {bytes : Bytes} (h : WireForm p bytes) :
    Packet.decode bytes = .ok p := by
  induction h with
  | @tagged m bytes hvalid hwritten =>
    have hstarts := not_startsBundle_encode hwritten (ne_marker_of_valid hvalid)
    rw [decode_of_not_startsBundle (WireForm.tagged hvalid hwritten).ne_nil hstarts,
      Message.decode_of_encode hvalid hwritten]
    rfl
  | @untagged address bytes hvalid hwritten =>
    have hstarts := not_startsBundle_encodeText hwritten (ne_marker_of_valid hvalid)
    rw [decode_of_not_startsBundle (WireForm.untagged hvalid hwritten).ne_nil hstarts,
      Message.decode_of_encodeText hvalid hwritten]
    rfl
  | bundle timetag elements hinner hsizes ih =>
    have hnone : parseElements [] = .ok [] := by rw [parseElements, if_pos rfl]
    rw [decode_header, ← List.append_nil (frames _),
      parseElements_frames ih (fun e he => (hinner e he).ne_nil)
        (fun e he => (hinner e he).four_dvd_length) hsizes, hnone, map_ok, map_ok, List.append_nil]

theorem exists_header_of_decode {bytes : Bytes} {p : Packet} (h : Packet.decode bytes = .ok p)
    (hstarts : startsBundle bytes = true) :
    ∃ timetag body, bytes = bundleHeader timetag ++ body := by
  have hne : bytes ≠ [] := by
    intro hnil
    rw [hnil] at hstarts
    cases hstarts
  unfold Packet.decode at h
  rw [if_neg hne, if_pos hstarts, Bundle.decode_eq_parse] at h
  unfold Bundle.parse at h
  split at h
  · cases h
  · rename_i timetag body hheader
    exact ⟨timetag, body, splitHeader_eq_ok_iff.1 hheader⟩

theorem wireForm_of_decode {p : Packet} {bytes : Bytes} (h : Packet.decode bytes = .ok p) :
    WireForm p bytes := by
  -- An element is shorter than the bundle that it stands in.
  induction hlength : bytes.length using Nat.strongRecOn generalizing bytes p with
  | ind length ih =>
  subst hlength
  have hne : bytes ≠ [] := by
    intro hnil
    rw [hnil] at h
    cases h
  cases hstarts : startsBundle bytes with
  | false =>
    rw [decode_of_not_startsBundle hne hstarts, map_eq_ok_iff] at h
    obtain ⟨m, hm, rfl⟩ := h
    obtain ⟨hvalid, hwritten | ⟨hnone, hwritten⟩⟩ := Message.written_of_decode hm
    · exact .tagged hvalid hwritten
    · obtain ⟨address, arguments⟩ := m
      subst hnone
      exact .untagged hvalid hwritten
  | true =>
    obtain ⟨timetag, body, rfl⟩ := exists_header_of_decode h hstarts
    rw [decode_header, map_eq_ok_iff] at h
    obtain ⟨ps, hps, rfl⟩ := h
    obtain ⟨elements, rfl, rfl, hread, hsizes⟩ := exists_frames_of_parseElements hps
    apply WireForm.bundle timetag elements _ hsizes
    intro e he
    have hmem : e.2 ∈ elements.map Prod.snd := List.mem_map_of_mem he
    have hshorter := length_lt_of_mem_frames hmem
    apply ih e.2.length _ (hread e he) rfl
    rw [List.length_append]
    omega

/-- Reading accepts exactly the wire forms, each for the packet that it stands for. -/
theorem decode_eq_ok_iff {p : Packet} {bytes : Bytes} :
    Packet.decode bytes = .ok p ↔ WireForm p bytes :=
  ⟨wireForm_of_decode, WireForm.decode⟩

/-! ### What is written -/

theorem layoutElements_eq_ok_iff {ps : List Packet} {body : Bytes} :
    layoutElements ps = .ok body ↔
      ∃ elements : List (Packet × Bytes), ps = elements.map Prod.fst ∧
        body = frames (elements.map Prod.snd) ∧
        (∀ e ∈ elements, layout e.1 = .ok e.2) ∧ ∀ e ∈ elements, e.2.length < UInt32.size := by
  apply Iff.intro
  · intro h
    induction ps generalizing body with
    | nil =>
      cases h
      exact ⟨[], rfl, rfl, by simp, by simp⟩
    | cons p ps ih =>
      obtain ⟨element, others, helement, hsize, hothers, rfl⟩ :=
        layoutElements_cons_eq_ok_iff.1 h
      obtain ⟨elements, rfl, rfl, hwritten, hsizes⟩ := ih hothers
      exact ⟨(p, element) :: elements, rfl, rfl, List.forall_mem_cons.2 ⟨helement, hwritten⟩,
        List.forall_mem_cons.2 ⟨hsize, hsizes⟩⟩
  · intro h
    obtain ⟨elements, rfl, rfl, hwritten, hsizes⟩ := h
    induction elements with
    | nil => rfl
    | cons e elements ih =>
      rw [List.forall_mem_cons] at hwritten hsizes
      exact layoutElements_cons_eq_ok_iff.2
        ⟨e.2, _, hwritten.1, hsizes.1, ih hwritten.2 hsizes.2, rfl⟩

/-- What is written for a packet with valid addresses stands for it. -/
theorem WireForm.of_layout {p : Packet} (hvalid : ∀ m ∈ p.messages, Address.Valid m.address)
    {bytes : Bytes} (h : layout p = .ok bytes) : WireForm p bytes := by
  induction p using Packet.induct generalizing bytes with
  | message m => exact .tagged (hvalid m (by simp)) h
  | bundle timetag ps ih =>
    obtain ⟨body, hbody, rfl⟩ := layout_bundle_eq_ok_iff.1 h
    obtain ⟨elements, rfl, rfl, hwritten, hsizes⟩ := layoutElements_eq_ok_iff.1 hbody
    rw [forall_mem_messages_bundle] at hvalid
    apply WireForm.bundle timetag elements _ hsizes
    intro e he
    have hmem : e.1 ∈ elements.map Prod.fst := List.mem_map_of_mem he
    exact ih e.1 hmem (hvalid e.1 hmem) (hwritten e he)

end OpenSound.Packet
