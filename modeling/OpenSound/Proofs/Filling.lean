import OpenSound.Proofs.WireForm
/-!
# Sizes that are filled in late

The writer of bundles works on one buffer and comes back to the free bytes in front of an element when
everything inside it is written, however many levels later. Two things could go wrong with that. Bytes
could be filled in that are not there: `Packet.encode?` is the same writer with every subtraction and
every index checked, and it never fails a check. Or a size could be that of something else:
`Packet.LaidOut` says by recursion where the bytes of a packet stand, and the writer writes just that.
-/

namespace OpenSound.Packet

/-! ### The checked writer -/

/-- The difference of two numbers, if it is a natural number. -/
def sub? (m n : Nat) : Option Nat := if n ≤ m then some (m - n) else none

/-- Overwrites the bytes from `index` on, if the buffer reaches that far. -/
def overwrite? (buffer : Array UInt8) (index : Nat) : Bytes → Option (Array UInt8)
  | [] => some buffer
  | byte :: bytes =>
    if h : index < buffer.size then overwrite? (buffer.set index byte) (index + 1) bytes else none

/-- `fillSize`, with no result if a subtraction or an index is out of range. -/
def fillSize? (buffer : Array UInt8) (index : Nat) : Option (Except EncodeFault (Array UInt8)) := do
  let behind ← sub? buffer.size index
  let size ← sub? behind 4
  if size < UInt32.size then
    let filled ← overwrite? buffer index (Bytes.ofWord32 (UInt32.ofNat size))
    return .ok filled
  else return .error (.elementTooLarge size)

def encodeLevels? (buffer : Array UInt8) : List Level → Option (Except EncodeFault (Array UInt8))
  | [] => some (.ok buffer)
  | ⟨[], none⟩ :: levels => encodeLevels? buffer levels
  | ⟨[], some index⟩ :: levels =>
    match fillSize? buffer index with
    | none => none
    | some (.error fault) => some (.error fault)
    | some (.ok buffer) => encodeLevels? buffer levels
  | ⟨message m :: rest, sizeAt⟩ :: levels =>
    match m.encode with
    | .error fault => some (.error fault)
    | .ok bytes =>
      match fillSize? (buffer ++ unsized ++ bytes) buffer.size with
      | none => none
      | some (.error fault) => some (.error fault)
      | some (.ok buffer) => encodeLevels? buffer (⟨rest, sizeAt⟩ :: levels)
  | ⟨bundle timetag elements :: rest, sizeAt⟩ :: levels =>
    encodeLevels? (buffer ++ unsized ++ bundleHeader timetag)
      (⟨elements, some buffer.size⟩ :: ⟨rest, sizeAt⟩ :: levels)
termination_by levels => stepsLevels levels
decreasing_by all_goals simp only [stepsLevels, stepsAll, steps]; omega

def encode? : Packet → Option (Except Error Bytes)
  | message m => some (m.encode.mapError .encodeError)
  | bundle timetag elements =>
    match encodeLevels? (bundleHeader timetag).toArray [⟨elements, none⟩] with
    | none => none
    | some (.ok buffer) => some (.ok buffer.toList)
    | some (.error fault) => some (.error (.encodeError fault))

/-! ### No check fails -/

theorem size_overwrite (buffer : Array UInt8) (index : Nat) (bytes : Bytes) :
    (overwrite buffer index bytes).size = buffer.size := by
  induction bytes generalizing buffer index with
  | nil => rfl
  | cons byte bytes ih => rw [overwrite, ih, Array.size_setIfInBounds]

theorem overwrite?_eq_some {buffer : Array UInt8} {index : Nat} {bytes : Bytes}
    (hinside : index + bytes.length ≤ buffer.size) :
    overwrite? buffer index bytes = some (overwrite buffer index bytes) := by
  induction bytes generalizing buffer index with
  | nil => rfl
  | cons byte bytes ih =>
    rw [List.length_cons] at hinside
    have hindex : index < buffer.size := by omega
    rw [overwrite?, dif_pos hindex, overwrite, Array.setIfInBounds, dif_pos hindex]
    apply ih
    rw [Array.size_set]
    omega

theorem fillSize?_eq_some {buffer : Array UInt8} {index : Nat} (hinside : index + 4 ≤ buffer.size) :
    fillSize? buffer index = some (fillSize buffer index) := by
  have hbehind : sub? buffer.size index = some (buffer.size - index) := if_pos (by omega)
  have hsize : sub? (buffer.size - index) 4 = some (buffer.size - (index + 4)) := by
    rw [sub?, if_pos (by omega), Nat.sub_sub]
  have hwrite : ∀ word, overwrite? buffer index (Bytes.ofWord32 word) =
      some (overwrite buffer index (Bytes.ofWord32 word)) := by
    intro word
    apply overwrite?_eq_some
    rw [Bytes.length_ofWord32]
    exact hinside
  simp only [fillSize?, fillSize, hbehind, hsize, hwrite, Option.bind_eq_bind, Option.bind_some]
  split <;> rfl

theorem size_of_fillSize {buffer filled : Array UInt8} {index : Nat}
    (h : fillSize buffer index = .ok filled) : filled.size = buffer.size := by
  unfold fillSize at h
  dsimp only at h
  split at h
  · cases h
    exact size_overwrite _ _ _
  · cases h

theorem size_reserve (buffer : Array UInt8) (bytes : Bytes) :
    (buffer ++ unsized ++ bytes).size = buffer.size + 4 + bytes.length := by
  rw [← Array.length_toList, Array.toList_appendList, Array.toList_appendList, List.length_append,
    List.length_append, Array.length_toList]
  rfl

/-- The bytes left free for the sizes of the open bundles are all in the buffer. -/
def SlotsInside (buffer : Array UInt8) (levels : List Level) : Prop :=
  ∀ level ∈ levels, ∀ index, level.sizeAt = some index → index + 4 ≤ buffer.size

theorem SlotsInside.mono {buffer longer : Array UInt8} {levels : List Level}
    (h : SlotsInside buffer levels) (hsize : buffer.size ≤ longer.size) :
    SlotsInside longer levels := by
  intro level hlevel index hindex
  exact Nat.le_trans (h level hlevel index hindex) hsize

theorem slotsInside_cons {buffer : Array UInt8} {elements : List Packet} {sizeAt : Option Nat}
    {levels : List Level} :
    SlotsInside buffer (⟨elements, sizeAt⟩ :: levels) ↔
      (∀ index, sizeAt = some index → index + 4 ≤ buffer.size) ∧ SlotsInside buffer levels :=
  List.forall_mem_cons

/-- The buffer only grows, and a slot is made at its end, so every slot stays inside. -/
theorem encodeLevels?_eq_some {buffer : Array UInt8} {levels : List Level}
    (hslots : SlotsInside buffer levels) :
    encodeLevels? buffer levels = some (encodeLevels buffer levels) := by
  fun_induction encodeLevels buffer levels with
  | case1 buffer => rw [encodeLevels?]
  | case2 buffer levels ih =>
    rw [encodeLevels?]
    exact ih (slotsInside_cons.1 hslots).2
  | case3 buffer index levels fault hfill =>
    have hinside := (slotsInside_cons.1 hslots).1 index rfl
    simp only [encodeLevels?, fillSize?_eq_some hinside, hfill]
  | case4 buffer index levels filled hfill ih =>
    obtain ⟨hinside, hothers⟩ := slotsInside_cons.1 hslots
    simp only [encodeLevels?, fillSize?_eq_some (hinside index rfl), hfill]
    exact ih (hothers.mono (size_of_fillSize hfill).ge)
  | case5 buffer m rest sizeAt levels fault hencode => simp only [encodeLevels?, hencode]
  | case6 buffer m rest sizeAt levels bytes hencode fault hfill =>
    have hinside : buffer.size + 4 ≤ (buffer ++ unsized ++ bytes).size := by
      rw [size_reserve]
      omega
    simp only [encodeLevels?, hencode, fillSize?_eq_some hinside, hfill]
  | case7 buffer m rest sizeAt levels bytes hencode filled hfill ih =>
    have hinside : buffer.size + 4 ≤ (buffer ++ unsized ++ bytes).size := by
      rw [size_reserve]
      omega
    simp only [encodeLevels?, hencode, fillSize?_eq_some hinside, hfill]
    have hrest : SlotsInside buffer (⟨rest, sizeAt⟩ :: levels) :=
      slotsInside_cons.2 (slotsInside_cons.1 hslots)
    apply ih
    apply hrest.mono
    rw [size_of_fillSize hfill]
    omega
  | case8 buffer timetag elements rest sizeAt levels ih =>
    have hlonger : buffer.size + 4 ≤ (buffer ++ unsized ++ bundleHeader timetag).size := by
      rw [size_reserve]
      omega
    have hrest : SlotsInside buffer (⟨rest, sizeAt⟩ :: levels) :=
      slotsInside_cons.2 (slotsInside_cons.1 hslots)
    rw [encodeLevels?]
    apply ih
    refine slotsInside_cons.2 ⟨fun index hindex => ?_, hrest.mono (by omega)⟩
    cases hindex
    exact hlonger

theorem encode?_eq_some (p : Packet) : p.encode? = some p.encode := by
  cases p with
  | message m => rfl
  | bundle timetag elements =>
    have hslots : SlotsInside (bundleHeader timetag).toArray [⟨elements, none⟩] :=
      slotsInside_cons.2 ⟨nofun, nofun⟩
    simp only [encode?, encode, encodeLevels?_eq_some hslots]
    cases encodeLevels (bundleHeader timetag).toArray [⟨elements, none⟩] <;> rfl

/-! ### Where the bytes of a packet stand -/

/-- The bytes of a packet, as the format has them. A message is its address, its type tags and the
payloads of its arguments. A bundle is the marker, its time tag, and the bytes of each element behind
their number. -/
inductive LaidOut : Packet → Bytes → Prop where
  | message {m : Message} {payloads : List Bytes} (haddress : '\x00' ∉ m.address.toList)
      (hpayloads : List.Forall₂ (fun a payload => a.encode = .ok payload) m.arguments payloads) :
      LaidOut (.message m)
        (Bytes.padded (Utf8.encode m.address ++ [0]) ++ Bytes.padded (Utf8.encode m.typetags ++ [0]) ++
          payloads.flatten)
  | bundle (timetag : TimeTag) (elements : List (Packet × Bytes))
      (hinner : ∀ e ∈ elements, LaidOut e.1 e.2) (hsizes : ∀ e ∈ elements, e.2.length < UInt32.size) :
      LaidOut (.bundle timetag (elements.map Prod.fst))
        (bundleMarker ++ Bytes.bigEndian 8 timetag.toBits.toNat ++
          elements.flatMap fun e => Bytes.bigEndian 4 e.2.length ++ e.2)

theorem encodeAll_eq_ok_iff {arguments : List Argument} {bytes : Bytes} :
    Argument.encodeAll arguments = .ok bytes ↔
      ∃ payloads, List.Forall₂ (fun a payload => a.encode = .ok payload) arguments payloads ∧
        bytes = payloads.flatten := by
  induction arguments generalizing bytes with
  | nil => simp [Argument.encodeAll, eq_comm]
  | cons a arguments ih =>
    rw [Argument.encodeAll_cons_eq_ok_iff]
    apply Iff.intro
    · intro h
      obtain ⟨payload, others, hpayload, hothers, rfl⟩ := h
      obtain ⟨payloads, hpayloads, rfl⟩ := ih.1 hothers
      exact ⟨payload :: payloads, .cons hpayload hpayloads, rfl⟩
    · intro h
      obtain ⟨_, hpayloads, rfl⟩ := h
      cases hpayloads with
      | cons hpayload hpayloads => exact ⟨_, _, hpayload, ih.2 ⟨_, hpayloads, rfl⟩, rfl⟩

theorem message_encode_eq_ok_iff {m : Message} {bytes : Bytes} :
    m.encode = .ok bytes ↔ LaidOut (.message m) bytes := by
  rw [Message.encode_eq_ok_iff]
  apply Iff.intro
  · intro h
    obtain ⟨address, typetags, payloads, haddress, htypetags, hpayloads, rfl⟩ := h
    obtain ⟨hnul, rfl⟩ := encodeText_eq_ok_iff.1 haddress
    obtain ⟨-, rfl⟩ := encodeText_eq_ok_iff.1 htypetags
    obtain ⟨pieces, hpieces, rfl⟩ := encodeAll_eq_ok_iff.1 hpayloads
    rw [← List.append_assoc]
    exact .message hnul hpieces
  · intro h
    cases h with
    | message hnul hpayloads =>
      exact ⟨_, _, _, encodeText_eq_ok_iff.2 ⟨hnul, rfl⟩,
        encodeText_eq_ok_iff.2 ⟨m.nul_notMem_typetags, rfl⟩, encodeAll_eq_ok_iff.2 ⟨_, hpayloads, rfl⟩,
        List.append_assoc _ _ _⟩

theorem frames_eq_flatMap {elements : List (Packet × Bytes)}
    (hsizes : ∀ e ∈ elements, e.2.length < UInt32.size) :
    frames (elements.map Prod.snd) =
      elements.flatMap fun e => Bytes.bigEndian 4 e.2.length ++ e.2 := by
  rw [frames, List.flatMap_map]
  apply List.flatMap_congr
  intro e he
  rw [frame, Bytes.ofWord32, UInt32.toNat_ofNat_of_lt' (hsizes e he)]

theorem layout_eq_ok_iff {p : Packet} {bytes : Bytes} : layout p = .ok bytes ↔ LaidOut p bytes := by
  induction p using Packet.induct generalizing bytes with
  | message m => exact message_encode_eq_ok_iff
  | bundle timetag ps ih =>
    rw [layout_bundle_eq_ok_iff]
    apply Iff.intro
    · intro h
      obtain ⟨body, hbody, rfl⟩ := h
      obtain ⟨elements, rfl, rfl, hwritten, hsizes⟩ := layoutElements_eq_ok_iff.1 hbody
      rw [frames_eq_flatMap hsizes]
      exact .bundle timetag elements
        (fun e he => (ih e.1 (List.mem_map_of_mem he)).1 (hwritten e he)) hsizes
    · intro h
      cases h with
      | bundle _ elements hinner hsizes =>
        have hwritten : ∀ e ∈ elements, layout e.1 = .ok e.2 := fun e he =>
          (ih e.1 (List.mem_map_of_mem he)).2 (hinner e he)
        refine ⟨_, layoutElements_eq_ok_iff.2 ⟨elements, rfl, rfl, hwritten, hsizes⟩, ?_⟩
        rw [frames_eq_flatMap hsizes]
        rfl

/-- What the writer writes for a packet is what the format has for it, and there is nothing else that it
has. So the bytes of an element of a bundle, at any depth, are those that it is written with alone, and
the number in front of them is their own. All lengths are multiples of four, and whether or not writing
succeeds, nothing is filled in out of range. -/
theorem encode_laidOut (p : Packet) :
    p.encode? = some p.encode ∧
      ∀ bytes, (p.encode = .ok bytes ↔ LaidOut p bytes) ∧ (p.encode = .ok bytes → 4 ∣ bytes.length) := by
  refine ⟨encode?_eq_some p, fun bytes => ⟨?_, fun hencode => ?_⟩⟩
  · rw [encode_eq_ok_iff, layout_eq_ok_iff]
  · rw [length_of_layout (encode_eq_ok_iff.1 hencode)]
    exact four_dvd_size p

def twoLevels : Packet := .bundle ⟨1, 2⟩ [.message ⟨"/a", [.int 1]⟩, .bundle ⟨0, 1⟩ []]

def twoLevelsBytes : Bytes := [
  0x23, 0x62, 0x75, 0x6E, 0x64, 0x6C, 0x65, 0, 0, 0, 0, 1, 0, 0, 0, 2,
  0, 0, 0, 12, 0x2F, 0x61, 0, 0, 0x2C, 0x69, 0, 0, 0, 0, 0, 1,
  0, 0, 0, 16, 0x23, 0x62, 0x75, 0x6E, 0x64, 0x6C, 0x65, 0, 0, 0, 0, 0, 0, 0, 0, 1]

theorem encode_laidOut_twoLevels :
    LaidOut twoLevels twoLevelsBytes ∧ twoLevels.encode = .ok twoLevelsBytes ∧
      4 ∣ twoLevelsBytes.length := by
  have hmessage : LaidOut (.message ⟨"/a", [.int 1]⟩) [0x2F, 0x61, 0, 0, 0x2C, 0x69, 0, 0, 0, 0, 0, 1] :=
    message_encode_eq_ok_iff.1 (by decide)
  have hbundle : LaidOut (.bundle ⟨0, 1⟩ [])
      [0x23, 0x62, 0x75, 0x6E, 0x64, 0x6C, 0x65, 0, 0, 0, 0, 0, 0, 0, 0, 1] :=
    LaidOut.bundle ⟨0, 1⟩ [] (by simp) (by simp)
  have hboth : LaidOut twoLevels twoLevelsBytes :=
    LaidOut.bundle ⟨1, 2⟩ [(_, _), (_, _)]
      (List.forall_mem_cons.2 ⟨hmessage, List.forall_mem_singleton.2 hbundle⟩) (by decide)
  obtain ⟨hlaid, haligned⟩ := (encode_laidOut twoLevels).2 twoLevelsBytes
  exact ⟨hboth, hlaid.2 hboth, haligned (hlaid.2 hboth)⟩

end OpenSound.Packet
