import OpenSound.Proofs.Equality
import OpenSound.Proofs.WireForm
/-!
# Where packets of the same values differ on the wire

The payload of an argument has its place in the bytes of a packet, given by the sizes of all that stands
before it. Taking the signs of zeros away changes no size, so every payload stays in its place, and it
changes one bit of the payloads of zeros, the first: this is what `SignsCleared` says of the two byte
strings, and it holds of a whole because it holds of its parts. Packets of the same values are the same
without these signs, so they are compared through the bytes that they then have in common.
-/

namespace OpenSound

/-! ### Places of payloads -/

/-- The position and the value of each argument, for payloads that begin at `start`. -/
def Argument.places : (start : Nat) → List Argument → List (Nat × Argument)
  | _, [] => []
  | start, a :: as => (start, a) :: places (start + a.size) as

def Message.argumentPlaces (start : Nat) (m : Message) : List (Nat × Argument) :=
  Argument.places (start + (textSize m.address + textSize m.typetags)) m.arguments

namespace Packet

mutual

/-- The position of the payload of each argument, at any depth, of a packet that begins at `start`. -/
def argumentPlaces : (start : Nat) → Packet → List (Nat × Argument)
  | start, message m => m.argumentPlaces start
  | start, bundle _ elements => argumentPlacesAll (start + 16) elements

def argumentPlacesAll : (start : Nat) → List Packet → List (Nat × Argument)
  | _, [] => []
  | start, p :: ps => argumentPlaces (start + 4) p ++ argumentPlacesAll (start + (4 + size p)) ps

end

end Packet

theorem Argument.map_snd_places (start : Nat) (as : List Argument) :
    (places start as).map Prod.snd = as := by
  induction as generalizing start with
  | nil => rfl
  | cons a as ih => rw [places, List.map_cons, ih]

theorem Packet.map_snd_argumentPlaces (start : Nat) (p : Packet) :
    (p.argumentPlaces start).map Prod.snd = p.messages.flatMap Message.arguments := by
  induction p using Packet.induct generalizing start with
  | message m =>
    rw [messages_message, List.flatMap_singleton]
    exact Argument.map_snd_places _ _
  | bundle timetag elements ih =>
    have hall : ∀ start, (argumentPlacesAll start elements).map Prod.snd =
        (elements.flatMap messages).flatMap Message.arguments := by
      induction elements with
      | nil => exact fun _ => rfl
      | cons p ps ihps =>
        intro start
        rw [List.forall_mem_cons] at ih
        rw [argumentPlacesAll, List.map_append, ih.1, ihps ih.2, List.flatMap_cons,
          List.flatMap_append]
    rw [messages_bundle]
    exact hall _

/-! ### Taking the signs of zeros away moves nothing -/

@[simp] theorem Argument.tag_signless (a : Argument) : a.signless.tag = a.tag := by
  cases a <;> rfl

@[simp] theorem Argument.size_signless (a : Argument) : a.signless.size = a.size := by
  cases a <;> rfl

@[simp] theorem Message.typetags_signless (m : Message) : m.signless.typetags = m.typetags := by
  simp [typetags, signless, Function.comp_def]

@[simp] theorem Message.size_signless (m : Message) : m.signless.size = m.size := by
  rw [size, size, typetags_signless]
  simp [signless, Function.comp_def]

namespace Packet

mutual

@[simp] theorem size_signless (p : Packet) : p.signless.size = p.size := by
  match p with
  | message m => exact m.size_signless
  | bundle timetag elements => rw [signless, size, size, sizeAll_signlessAll]

theorem sizeAll_signlessAll (ps : List Packet) : sizeAll (signlessAll ps) = sizeAll ps := by
  match ps with
  | [] => rfl
  | p :: ps => rw [signlessAll, sizeAll, sizeAll, size_signless, sizeAll_signlessAll]

end

end Packet

theorem Argument.places_signless (start : Nat) (as : List Argument) :
    places start (as.map signless) = (places start as).map (Prod.map id signless) := by
  induction as generalizing start with
  | nil => rfl
  | cons a as ih => rw [List.map_cons, places, places, size_signless, ih, List.map_cons]; rfl

theorem Message.argumentPlaces_signless (start : Nat) (m : Message) :
    m.signless.argumentPlaces start =
      (m.argumentPlaces start).map (Prod.map id Argument.signless) := by
  rw [argumentPlaces, argumentPlaces, typetags_signless]
  exact Argument.places_signless _ _

namespace Packet

mutual

theorem argumentPlaces_signless (start : Nat) (p : Packet) :
    p.signless.argumentPlaces start =
      (p.argumentPlaces start).map (Prod.map id Argument.signless) := by
  match p with
  | message m => exact m.argumentPlaces_signless start
  | bundle timetag elements => exact argumentPlacesAll_signless (start + 16) elements

theorem argumentPlacesAll_signless (start : Nat) (ps : List Packet) :
    argumentPlacesAll start (signlessAll ps) =
      (argumentPlacesAll start ps).map (Prod.map id Argument.signless) := by
  match ps with
  | [] => rfl
  | p :: ps =>
    rw [signlessAll, argumentPlacesAll, argumentPlacesAll, size_signless, argumentPlaces_signless,
      argumentPlacesAll_signless, List.map_append]

end

end Packet

/-! ### What it changes -/

/-- Two byte strings that begin at `start`. In the first, the payloads of arguments have these places;
the second is what is left of it when the signs of zeros are taken away. -/
structure SignsCleared (start : Nat) (places : List (Nat × Argument)) (bytes cleared : Bytes) :
    Prop where
  length_eq : bytes.length = cleared.length
  stands : ∀ place ∈ places, ∃ front payload rest, bytes = front ++ (payload ++ rest) ∧
    place.1 = start + front.length ∧ place.2.encode = .ok payload
  /-- All bytes are the same but those with the sign of a zero. -/
  differs : ∀ i : Nat, bytes[i]? = cleared[i]? ∨
    (∃ a, (start + i, a) ∈ places ∧ a.isZero = true) ∧ bytes[i]? = some 0x80 ∧ cleared[i]? = some 0

namespace SignsCleared

variable {start : Nat} {places places' : List (Nat × Argument)}
  {bytes bytes' cleared cleared' payload : Bytes} {a : Argument}

theorem none (start : Nat) (bytes : Bytes) : SignsCleared start [] bytes bytes where
  length_eq := rfl
  stands := by simp
  differs := fun _ => .inl rfl

theorem append (h : SignsCleared start places bytes cleared)
    (h' : SignsCleared (start + bytes.length) places' bytes' cleared') :
    SignsCleared start (places ++ places') (bytes ++ bytes') (cleared ++ cleared') where
  length_eq := by rw [List.length_append, List.length_append, h.length_eq, h'.length_eq]
  stands := by
    refine List.forall_mem_append.2 ⟨fun place hplace => ?_, fun place hplace => ?_⟩
    · obtain ⟨front, payload, rest, rfl, hstart, hwrite⟩ := h.stands place hplace
      exact ⟨front, payload, rest ++ bytes', by simp, hstart, hwrite⟩
    · obtain ⟨front, payload, rest, rfl, hstart, hwrite⟩ := h'.stands place hplace
      refine ⟨bytes ++ front, payload, rest, by simp, ?_, hwrite⟩
      rw [hstart, List.length_append, Nat.add_assoc]
  differs := by
    intro i
    rw [List.getElem?_append, List.getElem?_append, ← h.length_eq]
    split
    · obtain hsame | ⟨⟨a, hplace, hzero⟩, hsign⟩ := h.differs i
      · exact .inl hsame
      · exact .inr ⟨⟨a, List.mem_append_left _ hplace, hzero⟩, hsign⟩
    · obtain hsame | ⟨⟨a, hplace, hzero⟩, hsign⟩ := h'.differs (i - bytes.length)
      · exact .inl hsame
      · have hposition : start + bytes.length + (i - bytes.length) = start + i := by omega
        rw [hposition] at hplace
        exact .inr ⟨⟨a, List.mem_append_right _ hplace, hzero⟩, hsign⟩

theorem append_left (front : Bytes) (h : SignsCleared (start + front.length) places bytes cleared) :
    SignsCleared start places (front ++ bytes) (front ++ cleared) :=
  (none start front).append h

theorem frame (h : SignsCleared (start + 4) places bytes cleared) :
    SignsCleared start places (Packet.frame bytes) (Packet.frame cleared) := by
  rw [Packet.frame, Packet.frame, ← h.length_eq]
  exact append_left _ (by rwa [Bytes.length_ofWord32])

theorem stands_singleton (hwrite : a.encode = .ok payload) :
    ∀ place ∈ [(start, a)], ∃ front payload' rest, payload = front ++ (payload' ++ rest) ∧
      place.1 = start + front.length ∧ place.2.encode = .ok payload' := by
  rw [List.forall_mem_singleton]
  exact ⟨[], payload, [], by simp, rfl, hwrite⟩

theorem same (hwrite : a.encode = .ok payload) :
    SignsCleared start [(start, a)] payload payload where
  length_eq := rfl
  stands := stands_singleton hwrite
  differs := fun _ => .inl rfl

/-- The sign of a zero is the first bit of its payload. -/
theorem sign (hzero : a.isZero = true) (hwrite : a.encode = .ok (0x80 :: payload)) :
    SignsCleared start [(start, a)] (0x80 :: payload) (0 :: payload) where
  length_eq := rfl
  stands := stands_singleton hwrite
  differs := by
    intro i
    cases i with
    | zero => exact .inr ⟨⟨a, List.mem_singleton.2 rfl, hzero⟩, rfl, rfl⟩
    | succ i => exact .inl rfl

end SignsCleared

theorem Binary.Binary32.isZero_iff {x : Binary32} : x.isZero = true ↔ x = ⟨0⟩ ∨ x = ⟨0x80000000⟩ := by
  obtain ⟨bits⟩ := x
  have hlt := bits.toNat_lt
  simp only [isZero, unsigned, signWeight, beq_iff_eq, Binary32.mk.injEq, ← UInt32.toNat_inj]
  simp only [UInt32.toNat_zero, UInt32.reduceToNat]
  omega

theorem Binary.Binary64.isZero_iff {x : Binary64} :
    x.isZero = true ↔ x = ⟨0⟩ ∨ x = ⟨0x8000000000000000⟩ := by
  obtain ⟨bits⟩ := x
  have hlt := bits.toNat_lt
  simp only [isZero, unsigned, signWeight, beq_iff_eq, Binary64.mk.injEq, ← UInt64.toNat_inj]
  simp only [UInt64.toNat_zero, UInt64.reduceToNat]
  omega

namespace Argument

theorem signless_of_not_isZero {a : Argument} (h : a.isZero = false) : a.signless = a := by
  cases a with
  | float x => exact congrArg float (if_neg (by simpa [isZero] using h))
  | double x => exact congrArg double (if_neg (by simpa [isZero] using h))
  | _ => rfl

/-- A zero without a sign is all zero bytes, and one with a sign has it in the first of them. -/
theorem exists_zeros_of_isZero {a : Argument} (h : a.isZero = true) :
    ∃ zeros, a.signless.encode = .ok (0 :: zeros) ∧
      (a.encode = .ok (0 :: zeros) ∨ a.encode = .ok (0x80 :: zeros)) := by
  cases a with
  | float x =>
    refine ⟨[0, 0, 0], ?_⟩
    obtain rfl | rfl := Binary.Binary32.isZero_iff.1 h
    · exact ⟨by decide, .inl (by decide)⟩
    · exact ⟨by decide, .inr (by decide)⟩
  | double x =>
    refine ⟨[0, 0, 0, 0, 0, 0, 0], ?_⟩
    obtain rfl | rfl := Binary.Binary64.isZero_iff.1 h
    · exact ⟨by decide, .inl (by decide)⟩
    · exact ⟨by decide, .inr (by decide)⟩
  | _ => cases h

theorem exists_encode_signless (start : Nat) {a : Argument} {payload : Bytes}
    (h : a.encode = .ok payload) :
    ∃ cleared, a.signless.encode = .ok cleared ∧ SignsCleared start [(start, a)] payload cleared := by
  cases hzero : a.isZero with
  | false => exact ⟨payload, by rw [signless_of_not_isZero hzero, h], .same h⟩
  | true =>
    obtain ⟨zeros, hcleared, hwrite | hwrite⟩ := exists_zeros_of_isZero hzero
    · obtain rfl := Except.ok.inj (h.symm.trans hwrite)
      exact ⟨_, hcleared, .same hwrite⟩
    · obtain rfl := Except.ok.inj (h.symm.trans hwrite)
      exact ⟨_, hcleared, .sign hzero hwrite⟩

theorem exists_encodeAll_signless (start : Nat) {as : List Argument} {payloads : Bytes}
    (h : encodeAll as = .ok payloads) :
    ∃ cleared, encodeAll (as.map signless) = .ok cleared ∧
      SignsCleared start (places start as) payloads cleared := by
  induction as generalizing start payloads with
  | nil =>
    cases h
    exact ⟨[], rfl, .none _ _⟩
  | cons a as ih =>
    obtain ⟨front, back, hfront, hback, rfl⟩ := encodeAll_cons_eq_ok_iff.1 h
    obtain ⟨cleared, hcleared, hsigns⟩ := exists_encode_signless start hfront
    obtain ⟨others, hothers, hrest⟩ := ih (start + a.size) hback
    refine ⟨cleared ++ others, encodeAll_cons_eq_ok_iff.2 ⟨_, _, hcleared, hothers, rfl⟩, ?_⟩
    rw [← length_of_encode hfront] at hrest
    rw [places, ← length_of_encode hfront]
    exact hsigns.append hrest

end Argument

theorem Message.exists_encode_signless (start : Nat) {m : Message} {bytes : Bytes}
    (h : m.encode = .ok bytes) :
    ∃ cleared, m.signless.encode = .ok cleared ∧
      SignsCleared start (m.argumentPlaces start) bytes cleared := by
  obtain ⟨address, typetags, payloads, haddress, htypetags, hpayloads, rfl⟩ := encode_eq_ok_iff.1 h
  obtain ⟨cleared, hcleared, hsigns⟩ := Argument.exists_encodeAll_signless
    (start + (textSize m.address + textSize m.typetags)) hpayloads
  refine ⟨address ++ (typetags ++ cleared), encode_eq_ok_iff.2
    ⟨address, typetags, cleared, haddress, by rw [typetags_signless, htypetags], hcleared, rfl⟩, ?_⟩
  rw [← Nat.add_assoc, ← length_of_encodeText haddress, ← length_of_encodeText htypetags] at hsigns
  rw [argumentPlaces, ← Nat.add_assoc, ← length_of_encodeText haddress,
    ← length_of_encodeText htypetags]
  exact .append_left _ (.append_left _ hsigns)

namespace Packet

mutual

theorem exists_layout_signless (start : Nat) {p : Packet} {bytes : Bytes}
    (h : layout p = .ok bytes) :
    ∃ cleared, layout p.signless = .ok cleared ∧
      SignsCleared start (p.argumentPlaces start) bytes cleared := by
  match p with
  | message m => exact Message.exists_encode_signless start h
  | bundle timetag elements =>
    obtain ⟨body, hbody, rfl⟩ := layout_bundle_eq_ok_iff.1 h
    obtain ⟨cleared, hcleared, hsigns⟩ := exists_layoutElements_signless (start + 16) hbody
    refine ⟨bundleHeader timetag ++ cleared, layout_bundle_eq_ok_iff.2 ⟨cleared, hcleared, rfl⟩, ?_⟩
    exact .append_left _ (by rwa [length_bundleHeader])

theorem exists_layoutElements_signless (start : Nat) {ps : List Packet} {body : Bytes}
    (h : layoutElements ps = .ok body) :
    ∃ cleared, layoutElements (signlessAll ps) = .ok cleared ∧
      SignsCleared start (argumentPlacesAll start ps) body cleared := by
  match ps with
  | [] =>
    cases h
    exact ⟨[], rfl, .none _ _⟩
  | p :: ps =>
    obtain ⟨element, others, helement, hsize, hothers, rfl⟩ := layoutElements_cons_eq_ok_iff.1 h
    obtain ⟨cleared, hcleared, hsigns⟩ := exists_layout_signless (start + 4) helement
    obtain ⟨rest, hrest, hsigns'⟩ :=
      exists_layoutElements_signless (start + (4 + p.size)) hothers
    refine ⟨frame cleared ++ rest, layoutElements_cons_eq_ok_iff.2
      ⟨cleared, rest, hcleared, by rwa [← hsigns.length_eq], hrest, rfl⟩, ?_⟩
    rw [← length_of_layout helement, ← length_frame] at hsigns'
    rw [argumentPlacesAll, ← length_of_layout helement, ← length_frame]
    exact hsigns.frame.append hsigns'

end

/-! ### Packets of the same values -/

/-- An argument of the packet that is a zero in floating point has its payload at this position of the
encoding. -/
def ZeroAt (p : Packet) (i : Nat) : Prop := ∃ a, (i, a) ∈ p.argumentPlaces 0 ∧ a.isZero = true

theorem ZeroAt.of_signless_eq {p q : Packet} (h : p.signless = q.signless) {i : Nat}
    (hzero : p.ZeroAt i) : q.ZeroAt i := by
  obtain ⟨a, hplace, hzero⟩ := hzero
  have hcleared : (i, a.signless) ∈ p.signless.argumentPlaces 0 := by
    rw [argumentPlaces_signless]
    exact List.mem_map_of_mem hplace
  rw [h, argumentPlaces_signless, List.mem_map] at hcleared
  obtain ⟨⟨j, b⟩, hplace', heq⟩ := hcleared
  obtain ⟨rfl, hvalue⟩ := Prod.mk.inj heq
  refine ⟨b, hplace', ?_⟩
  rw [← b.isZero_signless, hvalue, a.isZero_signless, hzero]

/-- The encoding of a packet has the payload of each argument in its place, and it is the encoding of
the packet without the signs of zeros but for these signs. -/
theorem exists_encode_signless {p : Packet} {bytes : Bytes} (h : p.encode = .ok bytes) :
    ∃ cleared, p.signless.encode = .ok cleared ∧
      SignsCleared 0 (p.argumentPlaces 0) bytes cleared := by
  simpa only [encode_eq_ok_iff] using exists_layout_signless 0 (encode_eq_ok_iff.1 h)

theorem stands_of_encode {p : Packet} {bytes : Bytes} (h : p.encode = .ok bytes) :
    ∀ place ∈ p.argumentPlaces 0, ∃ front payload rest, bytes = front ++ (payload ++ rest) ∧
      place.1 = front.length ∧ place.2.encode = .ok payload := by
  obtain ⟨cleared, -, hsigns⟩ := exists_encode_signless h
  simpa only [Nat.zero_add] using hsigns.stands

/-- The encodings of packets that the signs of zeros alone tell apart are told apart by these signs
alone. -/
theorem differs_of_signless_eq {p q : Packet} (h : p.signless = q.signless) {bytes bytes' : Bytes}
    (hp : p.encode = .ok bytes) (hq : q.encode = .ok bytes') :
    bytes.length = bytes'.length ∧ ∀ i : Nat, bytes[i]? = bytes'[i]? ∨ p.ZeroAt i ∧ q.ZeroAt i ∧
      (bytes[i]? = some 0x80 ∧ bytes'[i]? = some 0 ∨
        bytes[i]? = some 0 ∧ bytes'[i]? = some 0x80) := by
  obtain ⟨cleared, hcleared, hsigns⟩ := exists_encode_signless hp
  obtain ⟨cleared', hcleared', hsigns'⟩ := exists_encode_signless hq
  obtain rfl : cleared = cleared' := by
    rw [h, hcleared'] at hcleared
    exact (Except.ok.inj hcleared).symm
  refine ⟨hsigns.length_eq.trans hsigns'.length_eq.symm, fun i => ?_⟩
  -- Both have the byte of the encoding without signs there, or one of them has the sign of a zero.
  have hdiffers := hsigns.differs i
  have hdiffers' := hsigns'.differs i
  rw [Nat.zero_add] at hdiffers hdiffers'
  obtain hsame | ⟨hzero, hsign, hnone⟩ := hdiffers
  · obtain hsame' | ⟨hzero', hsign', hnone'⟩ := hdiffers'
    · exact .inl (hsame.trans hsame'.symm)
    · exact .inr ⟨.of_signless_eq h.symm hzero', hzero', .inr ⟨hsame.trans hnone', hsign'⟩⟩
  · obtain hsame' | ⟨hzero', hsign', hnone'⟩ := hdiffers'
    · exact .inr ⟨hzero, .of_signless_eq h hzero, .inl ⟨hsign, hsame'.trans hnone⟩⟩
    · exact .inl (hsign.trans hsign'.symm)

/-- What is written can be read again, so it tells packets with valid addresses apart to the last
bit. -/
theorem eq_of_encode_eq {p q : Packet} {bytes : Bytes}
    (hp : ∀ m ∈ p.messages, Address.Valid m.address) (hq : ∀ m ∈ q.messages, Address.Valid m.address)
    (hwrite : p.encode = .ok bytes) (hwrite' : q.encode = .ok bytes) : p = q := by
  have hread := (WireForm.of_layout hp (encode_eq_ok_iff.1 hwrite)).decode
  have hread' := (WireForm.of_layout hq (encode_eq_ok_iff.1 hwrite')).decode
  exact Except.ok.inj (hread.symm.trans hread')

/-- Comparison of values is symmetric and transitive, and a packet has the same values as itself exactly
if none of them is a number in floating point that is not a number. The encoding is finer. It tells
packets with valid addresses apart if they differ in any bit. For packets of the same values it has one
length and differs at most in the signs of arguments that are zero in both, where the place of every
argument in the encoding is the one that `argumentPlaces` gives. -/
theorem sameValue_and_encode :
    (∀ p q : Packet, p.sameValue q = q.sameValue p) ∧
    (∀ p q r : Packet, p.sameValue q = true → q.sameValue r = true → p.sameValue r = true) ∧
    (∀ p : Packet, p.sameValue p = true ↔
      ∀ m ∈ p.messages, ∀ a ∈ m.arguments, a.isNaN = false) ∧
    (∀ (p q : Packet) (bytes : Bytes), (∀ m ∈ p.messages, Address.Valid m.address) →
      (∀ m ∈ q.messages, Address.Valid m.address) →
      p.encode = .ok bytes → q.encode = .ok bytes → p = q) ∧
    (∀ (p q : Packet) (bytes bytes' : Bytes), p.sameValue q = true →
      p.encode = .ok bytes → q.encode = .ok bytes' →
      bytes.length = bytes'.length ∧ ∀ i : Nat, bytes[i]? = bytes'[i]? ∨ p.ZeroAt i ∧ q.ZeroAt i ∧
        (bytes[i]? = some 0x80 ∧ bytes'[i]? = some 0 ∨
          bytes[i]? = some 0 ∧ bytes'[i]? = some 0x80)) ∧
    ∀ (p : Packet) (bytes : Bytes), p.encode = .ok bytes →
      (p.argumentPlaces 0).map Prod.snd = p.messages.flatMap Message.arguments ∧
      ∀ place ∈ p.argumentPlaces 0, ∃ front payload rest, bytes = front ++ (payload ++ rest) ∧
        place.1 = front.length ∧ place.2.encode = .ok payload := by
  refine ⟨sameValue_comm, fun p q r => sameValue_trans, fun p => sameValue_self_iff, ?_, ?_, ?_⟩
  · intro p q bytes hp hq
    exact eq_of_encode_eq hp hq
  · intro p q bytes bytes' hsame
    exact differs_of_signless_eq (sameValue_iff.1 hsame).2.2
  · intro p bytes hwrite
    exact ⟨p.map_snd_argumentPlaces 0, stands_of_encode hwrite⟩

def nestedZero (zero : Binary.Binary32) : Packet :=
  bundle .immediate [bundle .immediate [message ⟨"/zero", [.float zero]⟩]]

theorem messages_nestedZero (zero : Binary.Binary32) :
    (nestedZero zero).messages = [⟨"/zero", [.float zero]⟩] := by
  simp [nestedZero]

theorem exists_encode_nestedZero (zero : Binary.Binary32) :
    ∃ bytes, (nestedZero zero).encode = .ok bytes := by
  have hnul : (nestedZero zero).NulFree := by
    rw [NulFree, messages_nestedZero, List.forall_mem_singleton]
    exact ⟨(by decide : '\x00' ∉ "/zero".toList), by simp [Argument.NulFree, Argument.asText?]⟩
  -- The size does not depend on the number.
  have hsize : (nestedZero zero).size < UInt32.size := (by decide : (nestedZero ⟨0⟩).size < UInt32.size)
  obtain ⟨bytes, hlayout⟩ := exists_layout_iff.2 ⟨hnul, fits_of_size_lt hsize⟩
  exact ⟨bytes, encode_eq_ok_iff.2 hlayout⟩

/-- The same zero with a sign and without: the same value in other bytes. -/
theorem sameValue_and_encode_nestedZero :
    (nestedZero ⟨0x80000000⟩).sameValue (nestedZero ⟨0⟩) = true ∧
    (nestedZero ⟨0⟩).sameValue (nestedZero ⟨0x80000000⟩) = true ∧
    (nestedZero ⟨0⟩).sameValue (nestedZero ⟨0⟩) = true ∧
    ∃ bytes bytes', (nestedZero ⟨0x80000000⟩).encode = .ok bytes ∧
      (nestedZero ⟨0⟩).encode = .ok bytes' ∧
      (∃ front payload rest, bytes = front ++ (payload ++ rest) ∧ 52 = front.length ∧
        (Argument.float ⟨0x80000000⟩).encode = .ok payload) ∧
      bytes ≠ bytes' ∧ bytes.length = bytes'.length ∧
      ∀ i : Nat, bytes[i]? = bytes'[i]? ∨
        (nestedZero ⟨0x80000000⟩).ZeroAt i ∧ (nestedZero ⟨0⟩).ZeroAt i ∧
        (bytes[i]? = some 0x80 ∧ bytes'[i]? = some 0 ∨
          bytes[i]? = some 0 ∧ bytes'[i]? = some 0x80) := by
  obtain ⟨hcomm, htrans, -, heq, hdiffers, hplaces⟩ := sameValue_and_encode
  have hsame : (nestedZero ⟨0x80000000⟩).sameValue (nestedZero ⟨0⟩) = true := by decide
  have hsame' := (hcomm _ _).symm.trans hsame
  have hvalid : ∀ zero, ∀ m ∈ (nestedZero zero).messages, Address.Valid m.address := by
    intro zero
    rw [messages_nestedZero, List.forall_mem_singleton]
    exact (by decide : Address.Valid "/zero")
  obtain ⟨bytes, hwrite⟩ := exists_encode_nestedZero ⟨0x80000000⟩
  obtain ⟨bytes', hwrite'⟩ := exists_encode_nestedZero ⟨0⟩
  have hplace : (52, .float ⟨0x80000000⟩) ∈ (nestedZero ⟨0x80000000⟩).argumentPlaces 0 := by decide
  refine ⟨hsame, hsame', htrans _ _ _ hsame' hsame, bytes, bytes', hwrite, hwrite',
    (hplaces _ _ hwrite).2 _ hplace, ?_, hdiffers _ _ _ _ hsame hwrite hwrite'⟩
  rintro rfl
  exact absurd (heq _ _ _ (hvalid _) (hvalid _) hwrite hwrite') (by decide)

end Packet

end OpenSound
