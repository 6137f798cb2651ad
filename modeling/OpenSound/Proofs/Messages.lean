import Mathlib.Algebra.Order.BigOperators.Group.List
import Mathlib.Algebra.Order.Ring.Nat
import OpenSound.Proofs.Arguments
import OpenSound.Packet.Decoding
/-!
# Messages: how long they are, when they can be written, and what reads as one

The length of a message on the wire is a plain sum over its fields, known before anything is written.
Writing can fail for two reasons only, a zero character in a text or a blob of four gigabytes, and
`Message.exists_encode_iff` says that it fails for nothing else.

Reading a message accepts exactly two things: what writing it gives, and the padded address alone of a
message without arguments. The second is the one tolerance of the whole format.
-/

namespace OpenSound

/-! ### Lengths -/

/-- The bytes that a text takes, its terminator and padding included. -/
def textSize (text : String) : Nat :=
  (Utf8.encode text).length + 1 + Bytes.padLength ((Utf8.encode text).length + 1)

def Argument.size : Argument → Nat
  | int _ | float _ | char _ | color _ | midi _ => 4
  | long _ | double _ | time _ => 8
  | string text | symbol text => textSize text
  | blob bytes => 4 + (bytes.length + Bytes.padLength bytes.length)
  | bool _ | nil | impulse => 0

def Message.size (m : Message) : Nat :=
  textSize m.address + textSize m.typetags + (m.arguments.map Argument.size).sum

theorem four_dvd_textSize (text : String) : 4 ∣ textSize text :=
  Bytes.four_dvd_add_padLength _

theorem four_le_textSize (text : String) : 4 ≤ textSize text := by
  have hdvd := four_dvd_textSize text
  have hpos : 0 < textSize text := by
    unfold textSize
    omega
  exact Nat.le_of_dvd hpos hdvd

theorem Argument.four_dvd_size (a : Argument) : 4 ∣ a.size := by
  cases a with
  | string text | symbol text => exact four_dvd_textSize text
  | blob bytes => exact Nat.dvd_add (Nat.dvd_refl 4) (Bytes.four_dvd_add_padLength _)
  | _ =>
    simp only [Argument.size]
    decide

theorem Message.four_dvd_size (m : Message) : 4 ∣ m.size := by
  have harguments : ∀ as : List Argument, 4 ∣ (as.map Argument.size).sum := by
    intro as
    induction as with
    | nil => exact Nat.dvd_zero 4
    | cons a as ih => exact Nat.dvd_add a.four_dvd_size ih
  exact Nat.dvd_add (Nat.dvd_add (four_dvd_textSize _) (four_dvd_textSize _)) (harguments _)

theorem length_of_encodeText {text : String} {field : Bytes} (h : encodeText text = .ok field) :
    field.length = textSize text := by
  obtain ⟨-, rfl⟩ := encodeText_eq_ok_iff.1 h
  simp [textSize]

theorem append_ne_nil_of_encodeText {text : String} {field : Bytes} (h : encodeText text = .ok field)
    (rest : Bytes) : field ++ rest ≠ [] := by
  have hlength := length_of_encodeText h
  have hpos := four_le_textSize text
  intro hnil
  rw [(List.append_eq_nil_iff.1 hnil).1, List.length_nil] at hlength
  omega

theorem Argument.length_of_encode {a : Argument} {payload : Bytes} (h : a.encode = .ok payload) :
    payload.length = a.size := by
  cases a with
  | string text | symbol text => exact length_of_encodeText h
  | blob bytes =>
    obtain ⟨-, rfl⟩ := encodeBlob_eq_ok_iff.1 h
    simp [Argument.size]
  | _ =>
    cases h
    simp [Argument.size]

theorem Argument.length_of_encodeAll {as : List Argument} {payloads : Bytes}
    (h : encodeAll as = .ok payloads) : payloads.length = (as.map Argument.size).sum := by
  induction as generalizing payloads with
  | nil =>
    cases h
    rfl
  | cons a as ih =>
    obtain ⟨front, back, hfront, hback, rfl⟩ := encodeAll_cons_eq_ok_iff.1 h
    rw [List.length_append, List.map_cons, List.sum_cons, length_of_encode hfront, ih hback]

theorem Message.encode_eq_ok_iff {m : Message} {bytes : Bytes} :
    m.encode = .ok bytes ↔
      ∃ address typetags payloads, encodeText m.address = .ok address ∧
        encodeText m.typetags = .ok typetags ∧ Argument.encodeAll m.arguments = .ok payloads ∧
        bytes = address ++ (typetags ++ payloads) := by
  simp only [Message.encode, bind_eq_ok_iff]
  apply Iff.intro
  · intro h
    obtain ⟨address, haddress, typetags, htypetags, payloads, hpayloads, h⟩ := h
    cases h
    exact ⟨address, typetags, payloads, haddress, htypetags, hpayloads, List.append_assoc _ _ _⟩
  · intro h
    obtain ⟨address, typetags, payloads, haddress, htypetags, hpayloads, rfl⟩ := h
    refine ⟨address, haddress, typetags, htypetags, payloads, hpayloads, ?_⟩
    rw [List.append_assoc]

theorem Message.length_of_encode {m : Message} {bytes : Bytes} (h : m.encode = .ok bytes) :
    bytes.length = m.size := by
  obtain ⟨address, typetags, payloads, haddress, htypetags, hpayloads, rfl⟩ := encode_eq_ok_iff.1 h
  rw [List.length_append, List.length_append, length_of_encodeText haddress,
    length_of_encodeText htypetags, Argument.length_of_encodeAll hpayloads, Message.size]
  omega

theorem Message.mod_four_of_encode {m : Message} {bytes : Bytes} (h : m.encode = .ok bytes) :
    bytes.length % 4 = 0 := by
  rw [length_of_encode h]
  exact Nat.mod_eq_zero_of_dvd m.four_dvd_size

/-! ### When writing succeeds -/

/-- No text among an argument's values holds the zero character. -/
def Argument.NulFree (a : Argument) : Prop := ∀ text, a.asText? = some text → '\x00' ∉ text.toList

/-- A blob is short enough for its length to fit into four bytes. -/
def Argument.Fits (a : Argument) : Prop := ∀ blob, a.asBlob? = some blob → blob.length < UInt32.size

/-- Neither the address nor any text among the arguments holds the zero character. -/
def Message.NulFree (m : Message) : Prop :=
  '\x00' ∉ m.address.toList ∧ ∀ a ∈ m.arguments, a.NulFree

/-- The length of every blob fits into four bytes. -/
def Message.Fits (m : Message) : Prop := ∀ a ∈ m.arguments, a.Fits

instance (a : Argument) : Decidable a.NulFree :=
  inferInstanceAs (Decidable (∀ text ∈ a.asText?, '\x00' ∉ text.toList))

instance (m : Message) : Decidable m.NulFree := inferInstanceAs (Decidable (_ ∧ _))

theorem exists_encodeText_iff {text : String} :
    (∃ field, encodeText text = .ok field) ↔ '\x00' ∉ text.toList := by
  simp only [encodeText_eq_ok_iff, exists_and_left, exists_eq, and_true]

theorem Argument.exists_encode_iff {a : Argument} :
    (∃ payload, a.encode = .ok payload) ↔ a.NulFree ∧ a.Fits := by
  cases a with
  | string text | symbol text =>
    simp [Argument.encode, exists_encodeText_iff, NulFree, Fits, asText?, asBlob?]
  | blob bytes =>
    simp [Argument.encode, encodeBlob_eq_ok_iff, NulFree, Fits, asText?, asBlob?]
  | _ => simp [Argument.encode, NulFree, Fits, asText?, asBlob?]

theorem Argument.exists_encodeAll_iff {as : List Argument} :
    (∃ payloads, encodeAll as = .ok payloads) ↔ ∀ a ∈ as, a.NulFree ∧ a.Fits := by
  induction as with
  | nil => simp [encodeAll]
  | cons a as ih =>
    rw [List.forall_mem_cons, ← ih, ← exists_encode_iff]
    apply Iff.intro
    · intro h
      obtain ⟨payloads, h⟩ := h
      obtain ⟨front, back, hfront, hback, -⟩ := encodeAll_cons_eq_ok_iff.1 h
      exact ⟨⟨front, hfront⟩, ⟨back, hback⟩⟩
    · intro h
      obtain ⟨⟨front, hfront⟩, ⟨back, hback⟩⟩ := h
      exact ⟨front ++ back, encodeAll_cons_eq_ok_iff.2 ⟨front, back, hfront, hback, rfl⟩⟩

theorem TypeTag.toChar_ne_nul (t : TypeTag) : t.toChar ≠ '\x00' := by
  cases t <;> decide

theorem Message.nul_notMem_typetags (m : Message) : '\x00' ∉ m.typetags.toList := by
  rw [typetags, String.toList_ofList, List.mem_cons, not_or]
  refine ⟨by decide, fun hmem => ?_⟩
  obtain ⟨a, -, htag⟩ := List.mem_map.1 hmem
  exact a.typeTag.toChar_ne_nul htag

/-- A message can be written exactly when its texts hold no zero character and its blobs fit. -/
theorem Message.exists_encode_iff {m : Message} :
    (∃ bytes, m.encode = .ok bytes) ↔ m.NulFree ∧ m.Fits := by
  apply Iff.intro
  · intro h
    obtain ⟨bytes, h⟩ := h
    obtain ⟨address, typetags, payloads, haddress, -, hpayloads, -⟩ := encode_eq_ok_iff.1 h
    have harguments := Argument.exists_encodeAll_iff.1 ⟨payloads, hpayloads⟩
    exact ⟨⟨exists_encodeText_iff.1 ⟨address, haddress⟩, fun a ha => (harguments a ha).1⟩,
      fun a ha => (harguments a ha).2⟩
  · intro h
    obtain ⟨⟨haddress, htexts⟩, hblobs⟩ := h
    obtain ⟨address, haddress⟩ := exists_encodeText_iff.2 haddress
    obtain ⟨typetags, htypetags⟩ := exists_encodeText_iff.2 m.nul_notMem_typetags
    obtain ⟨payloads, hpayloads⟩ :=
      Argument.exists_encodeAll_iff.2 fun a ha => ⟨htexts a ha, hblobs a ha⟩
    exact ⟨_, encode_eq_ok_iff.2 ⟨address, typetags, payloads, haddress, htypetags, hpayloads, rfl⟩⟩

theorem Message.fits_of_size_lt {m : Message} (h : m.size < UInt32.size) : m.Fits := by
  intro a ha blob hblob
  have hargument : blob.length ≤ a.size := by
    cases a with
    | blob bytes =>
      cases hblob
      rw [Argument.size]
      omega
    | _ => cases hblob
  have hsum : a.size ≤ (m.arguments.map Argument.size).sum :=
    List.le_sum_of_mem (List.mem_map_of_mem ha)
  rw [Message.size] at h
  omega

/-! ### What reads as a message -/

/-- The text before the terminator and padding of a message's bytes is all there is of them: no type
tags follow the address. -/
def lacksTypetags (bytes : Bytes) : Bool :=
  match decodeText bytes with
  | .ok (_, rest) => rest.isEmpty
  | .error _ => false

theorem lacksTypetags_iff {bytes : Bytes} :
    lacksTypetags bytes = true ↔ ∃ address, encodeText address = .ok bytes := by
  unfold lacksTypetags
  split
  · rename_i address rest hread
    obtain ⟨field, hfield, rfl⟩ := decodeText_eq_ok_iff.1 hread
    rw [List.isEmpty_iff]
    apply Iff.intro
    · intro h
      subst h
      exact ⟨address, by rw [List.append_nil]; exact hfield⟩
    · intro h
      obtain ⟨address', h⟩ := h
      rw [decodeText_of_encodeText h] at hread
      cases hread
      rfl
  · rename_i fault hread
    apply Iff.intro
    · intro h
      cases h
    · intro h
      obtain ⟨address, h⟩ := h
      rw [decodeText_of_encodeText h] at hread
      cases hread

theorem Message.lacksTypetags_of_encode {m : Message} {bytes : Bytes} (h : m.encode = .ok bytes) :
    lacksTypetags bytes = false := by
  obtain ⟨address, typetags, payloads, haddress, htypetags, -, rfl⟩ := encode_eq_ok_iff.1 h
  have hne := append_ne_nil_of_encodeText htypetags payloads
  rw [lacksTypetags, decodeText_append haddress]
  exact List.isEmpty_eq_false_iff.2 hne

theorem decodeArguments_eq_ok_iff {typetags : String} {payloads : Bytes} {as : List Argument} :
    decodeArguments typetags payloads = .ok as ↔
      typetags = String.ofList (',' :: as.map Argument.tag) ∧
        Argument.encodeAll as = .ok payloads := by
  apply Iff.intro
  · intro h
    unfold decodeArguments at h
    split at h
    · rename_i tags htags
      obtain ⟨⟨as', rest⟩, hread, h⟩ := bind_eq_ok_iff.1 h
      dsimp only at h
      split at h
      · rename_i hrest
        cases h
        subst hrest
        obtain ⟨rfl, payloads', hwrite, rfl⟩ := Argument.decodeAll_eq_ok_iff.1 hread
        rw [List.append_nil]
        exact ⟨String.toList_inj.1 (by rw [htags, String.toList_ofList]), hwrite⟩
      · cases h
    · cases h
  · intro h
    obtain ⟨rfl, hwrite⟩ := h
    have hread : Argument.decodeAll (as.map Argument.tag) payloads = .ok (as, []) :=
      Argument.decodeAll_eq_ok_iff.2 ⟨rfl, payloads, hwrite, (List.append_nil _).symm⟩
    unfold decodeArguments
    simp only [String.toList_ofList, hread]
    rfl

/-- A message with a valid address is read from what writing it gives. -/
theorem Message.decode_of_encode {m : Message} (hvalid : Address.Valid m.address) {bytes : Bytes}
    (hwritten : m.encode = .ok bytes) : Message.decode bytes = .ok m := by
  have haligned := mod_four_of_encode hwritten
  obtain ⟨field, tags, payloads, hfield, htags, hpayloads, rfl⟩ := encode_eq_ok_iff.1 hwritten
  have harguments : decodeArguments m.typetags payloads = .ok m.arguments :=
    decodeArguments_eq_ok_iff.2 ⟨rfl, hpayloads⟩
  unfold Message.decode
  rw [if_neg (not_not.2 haligned), decodeText_append hfield]
  simp only [mapError_ok, ok_bind, Address.validate_eq_ok_iff.2 hvalid,
    if_neg (append_ne_nil_of_encodeText htags payloads), decodeText_append htags, harguments]

theorem Message.decode_of_encodeText {address : String} (hvalid : Address.Valid address) {bytes : Bytes}
    (hwritten : encodeText address = .ok bytes) : Message.decode bytes = .ok ⟨address, []⟩ := by
  have haligned : bytes.length % 4 = 0 := by
    rw [length_of_encodeText hwritten]
    exact Nat.mod_eq_zero_of_dvd (four_dvd_textSize _)
  unfold Message.decode
  rw [if_neg (not_not.2 haligned), decodeText_of_encodeText hwritten]
  simp only [mapError_ok, ok_bind, Address.validate_eq_ok_iff.2 hvalid, if_true]

/-- Nothing else is read as a message. -/
theorem Message.written_of_decode {bytes : Bytes} {m : Message} (h : Message.decode bytes = .ok m) :
    Address.Valid m.address ∧
      (m.encode = .ok bytes ∨ m.arguments = [] ∧ encodeText m.address = .ok bytes) := by
  unfold Message.decode at h
  split at h
  · cases h
  obtain ⟨⟨address, rest⟩, hread, hbody⟩ := bind_eq_ok_iff.1 h
  obtain ⟨_, hvalidate, htail⟩ := bind_eq_ok_iff.1 hbody
  have hvalid := Address.validate_eq_ok_iff.1 (mapError_eq_ok_iff.1 hvalidate)
  obtain ⟨field, hfield, rfl⟩ := decodeText_eq_ok_iff.1 (mapError_eq_ok_iff.1 hread)
  dsimp only at htail
  split at htail
  · rename_i hrest
    cases htail
    refine ⟨hvalid, Or.inr ⟨rfl, ?_⟩⟩
    rw [hrest, List.append_nil]
    exact hfield
  · obtain ⟨⟨typetags, payloads⟩, htypetags, hlast⟩ := bind_eq_ok_iff.1 htail
    obtain ⟨arguments, harguments, hmessage⟩ := bind_eq_ok_iff.1 hlast
    cases hmessage
    obtain ⟨tags, htags, rfl⟩ := decodeText_eq_ok_iff.1 (mapError_eq_ok_iff.1 htypetags)
    obtain ⟨rfl, hpayloads⟩ := decodeArguments_eq_ok_iff.1 harguments
    exact ⟨hvalid, Or.inl (encode_eq_ok_iff.2 ⟨field, tags, payloads, hfield, htags, hpayloads, rfl⟩)⟩

end OpenSound
