import OpenSound.Json.Packet
import OpenSound.Proofs.Notation
import OpenSound.Proofs.Flattening
/-!
# Packets in JSON

A packet without numbers in floating point is read back from its text (`readJsonText?_toJsonText`).
The fields of a structure are found by their names, and a variant by its one key. The reader is told how
many containers it may open. A bundle takes three of them on the way to its elements and a message takes
five to its innermost values, so 127 are enough for forty bundles, each inside the one before.

A number that is infinite or none at all is written as null. So its packet has a text, and no packet is
read from it.
-/

namespace OpenSound

/-! ### Structures -/

namespace Json

theorem mapM_map_eq_some {α β γ : Type} {read : β → Option γ} {write : α → β} {value : α → γ}
    {xs : List α} (h : ∀ x ∈ xs, read (write x) = some (value x)) :
    (xs.map write).mapM read = some (xs.map value) := by
  induction xs with
  | nil => rfl
  | cons x xs ih =>
    have hx := h x List.mem_cons_self
    have hxs := ih fun y hy => h y (List.mem_cons_of_mem x hy)
    simp [hx, hxs]

theorem mapM_eq_none {β γ : Type} {read : β → Option γ} {y : β} {ys : List β} (hy : y ∈ ys)
    (h : read y = none) : ys.mapM read = none := by
  induction ys with
  | nil => cases hy
  | cons z zs ih =>
    rcases List.mem_cons.1 hy with rfl | hzs
    · simp [h]
    · cases hz : read z <;> simp [hz, ih hzs]

theorem valuesOf_keyed (name : String) (members : List (String × Json)) :
    valuesOf name (members.map fun (key, value) => (some key, value)) =
      (members.filter fun member => member.1 == name).map Prod.snd := by
  rw [valuesOf, List.filter_map, List.map_map]
  rfl

theorem filter_eq_singleton {members : List (String × Json)}
    (hnodup : (members.map Prod.fst).Nodup) {member : String × Json} (hmem : member ∈ members) :
    (members.filter fun other => other.1 == member.1) = [member] := by
  induction members with
  | nil => cases hmem
  | cons first members ih =>
    obtain ⟨hfresh, hothers⟩ := List.nodup_cons.1 hnodup
    rcases List.mem_cons.1 hmem with rfl | hmem
    · have hnone : (members.filter fun other => other.1 == member.1) = [] := by
        refine List.filter_eq_nil_iff.2 fun other hother hname => hfresh ?_
        rw [← eq_of_beq hname]
        exact List.mem_map_of_mem hother
      rw [List.filter_cons, if_pos (beq_self_eq_true _), hnone]
    · have hother : ¬(first.1 == member.1) = true := by
        intro hname
        rw [eq_of_beq hname] at hfresh
        exact hfresh (List.mem_map_of_mem hmem)
      rw [List.filter_cons, if_neg hother, ih hothers hmem]

/-- The fields of a structure are found by their names, as long as no two have the same. -/
theorem fields?_record {members : List (String × Json)} (hnodup : (members.map Prod.fst).Nodup) :
    (record members).fields? (members.map Prod.fst) =
      some (members.map fun member => some member.2) := by
  rw [record, fields?, if_pos]
  · refine mapM_map_eq_some fun member hmember => ?_
    rw [uniqueValue?, valuesOf_keyed, filter_eq_singleton hnodup hmember]
    rfl
  · -- Every member has a key.
    simp

end Json

open Json

theorem TimeTag.ofJson?_toJson (t : TimeTag) (depth : Nat) :
    TimeTag.ofJson? (depth + 1) t.toJson = some t := by
  have hfields : t.toJson.fields? ["seconds", "fraction"] =
      some [some (nat t.seconds.toNat), some (nat t.fraction.toNat)] := fields?_record (by simp)
  simp [ofJson?, hfields, word32?_nat]

theorem Color.ofJson?_toJson (c : Color) (depth : Nat) :
    Color.ofJson? (depth + 1) c.toJson = some c := by
  have hfields : c.toJson.fields? ["red", "green", "blue", "alpha"] =
      some [some (nat c.red.toNat), some (nat c.green.toNat), some (nat c.blue.toNat),
        some (nat c.alpha.toNat)] := fields?_record (by simp)
  simp [ofJson?, hfields, byte?_nat]

theorem MidiMessage.ofJson?_toJson (m : MidiMessage) (depth : Nat) :
    MidiMessage.ofJson? (depth + 1) m.toJson = some m := by
  have hfields : m.toJson.fields? ["port", "status", "data1", "data2"] =
      some [some (nat m.port.toNat), some (nat m.status.toNat), some (nat m.data1.toNat),
        some (nat m.data2.toNat)] := fields?_record (by simp)
  simp [ofJson?, hfields, byte?_nat]

/-! ### Arguments -/

namespace Argument

def isFloating : Argument → Bool
  | float _ => true
  | double _ => true
  | _ => false

/-- Whether the argument is anything but a number in floating point that is infinite or none at all. -/
def isFinite : Argument → Bool
  | float x => x.isFinite
  | double x => x.isFinite
  | _ => true

theorem ofJson?_record (depth : Nat) (name : String) (value : Json) :
    ofJson? (depth + 1) (record [(name, value)]) = ofVariant? depth name value := rfl

theorem char?_text_singleton (c : Char) : (text (String.singleton c)).char? = some c := by
  simp [char?, text, text?]

/-- An argument takes two containers, if that many. -/
theorem ofJson?_toJson {a : Argument} (h : a.isFloating = false) (depth : Nat) :
    ofJson? (depth + 2) a.toJson = some a := by
  cases a with
  | int value =>
    have hread : (Json.int value.toInt).int? (-0x80000000) 0x80000000 = some value.toInt :=
      int?_int value.le_toInt value.toInt_lt (Int.le_trans (by decide) value.le_toInt)
        (Int.lt_of_lt_of_le value.toInt_lt (by decide))
    simp [toJson, ofJson?_record, ofVariant?, hread]
  | float value => cases h
  | string value => rfl
  | blob bytes =>
    have hread : (bytes.map fun b => nat b.toNat).mapM byte? = some (bytes.map id) :=
      mapM_map_eq_some fun b _ => byte?_nat b
    rw [List.map_id] at hread
    simp [toJson, ofJson?_record, ofVariant?, items?, hread]
  | long value =>
    have hread : (Json.int value.toInt).int? (-0x8000000000000000) 0x8000000000000000 =
        some value.toInt :=
      int?_int value.le_toInt value.toInt_lt value.le_toInt value.toInt_lt
    simp [toJson, ofJson?_record, ofVariant?, hread]
  | double value => cases h
  | time tag => simp [toJson, ofJson?_record, ofVariant?, tag.ofJson?_toJson depth]
  | symbol value => rfl
  | char value => simp [toJson, ofJson?_record, ofVariant?, char?_text_singleton]
  | color value => simp [toJson, ofJson?_record, ofVariant?, value.ofJson?_toJson depth]
  | midi value => simp [toJson, ofJson?_record, ofVariant?, value.ofJson?_toJson depth]
  | bool value => rfl
  | nil => rfl
  | impulse => rfl

/-- A number that is not finite is written as null, which is not read as a number. -/
theorem ofJson?_eq_none {a : Argument} (h : a.isFinite = false) (depth : Nat) :
    ofJson? depth a.toJson = none := by
  cases depth with
  | zero =>
    cases a with
    | float x => rfl
    | double x => rfl
    | _ => cases h
  | succ depth =>
    cases a with
    | float x =>
      rw [toJson, float_eq_null h]
      rfl
    | double x =>
      rw [toJson, double_eq_null h]
      rfl
    | _ => cases h

end Argument

/-! ### Messages -/

namespace Message

theorem fields?_toJson (m : Message) : m.toJson.fields? ["address", "arguments"] =
    some [some (text m.address), some (.array (m.arguments.map Argument.toJson))] :=
  fields?_record (by simp)

theorem ofJson?_toJson {m : Message} (h : ∀ a ∈ m.arguments, a.isFloating = false) (depth : Nat) :
    ofJson? (depth + 4) m.toJson = some m := by
  have harguments : (m.arguments.map Argument.toJson).mapM (Argument.ofJson? (depth + 2)) =
      some (m.arguments.map id) :=
    mapM_map_eq_some fun a ha => Argument.ofJson?_toJson (h a ha) depth
  rw [List.map_id] at harguments
  simp [ofJson?, fields?_toJson, text, text?, items?, harguments]

theorem ofJson?_eq_none {m : Message} {a : Argument} (ha : a ∈ m.arguments)
    (h : a.isFinite = false) (depth : Nat) : ofJson? depth m.toJson = none := by
  match depth with
  | 0 => rfl
  | 1 => simp [ofJson?, fields?_toJson, text, text?, items?]
  | depth + 2 =>
    have harguments : (m.arguments.map Argument.toJson).mapM (Argument.ofJson? depth) = none :=
      mapM_eq_none (List.mem_map_of_mem ha) (Argument.ofJson?_eq_none h depth)
    simp [ofJson?, fields?_toJson, text, text?, items?, harguments]

end Message

/-! ### Packets -/

namespace Packet

mutual

/-- How many bundles there are at most, each inside the one before. -/
def nesting : Packet → Nat
  | message _ => 0
  | bundle _ elements => nestingAll elements + 1

def nestingAll : List Packet → Nat
  | [] => 0
  | p :: ps => max (nesting p) (nestingAll ps)

end

theorem nesting_le_nestingAll {p : Packet} {ps : List Packet} (h : p ∈ ps) :
    p.nesting ≤ nestingAll ps := by
  induction ps with
  | nil => cases h
  | cons q qs ih =>
    rw [nestingAll]
    rcases List.mem_cons.1 h with rfl | h
    · exact Nat.le_max_left _ _
    · exact Nat.le_trans (ih h) (Nat.le_max_right _ _)

theorem toJsonAll_eq_map (ps : List Packet) : toJsonAll ps = ps.map toJson := by
  induction ps with
  | nil => rfl
  | cons p ps ih => rw [toJsonAll, ih, List.map_cons]

end Packet

theorem Bundle.fields?_toJson (b : Bundle) : b.toJson.fields? ["timetag", "packets"] =
    some [some b.timetag.toJson, some (.array (b.elements.map Packet.toJson))] := by
  rw [← Packet.toJsonAll_eq_map]
  exact fields?_record (by simp)

theorem Bundle.ofJson?_toJson_of_elements {b : Bundle} {depth : Nat}
    (h : ∀ p ∈ b.elements, Packet.ofJson? depth p.toJson = some p) :
    Bundle.ofJson? (depth + 2) b.toJson = some b := by
  have helements : (b.elements.map Packet.toJson).mapM (Packet.ofJson? depth) =
      some (b.elements.map id) := mapM_map_eq_some h
  rw [List.map_id] at helements
  simp [ofJson?, fields?_toJson, TimeTag.ofJson?_toJson, helements]

theorem Bundle.ofJson?_eq_none_of_elements {b : Bundle} {depth : Nat}
    (h : (b.elements.map Packet.toJson).mapM (Packet.ofJson? depth) = none) :
    Bundle.ofJson? (depth + 2) b.toJson = none := by
  simp [ofJson?, fields?_toJson, TimeTag.ofJson?_toJson, h]

namespace Packet

theorem ofJson?_message (depth : Nat) (m : Message) :
    ofJson? (depth + 1) (message m).toJson = (Message.ofJson? depth m.toJson).map message := rfl

theorem ofJson?_bundle (depth : Nat) (timetag : TimeTag) (elements : List Packet) :
    ofJson? (depth + 1) (bundle timetag elements).toJson =
      (Bundle.ofJson? depth (⟨timetag, elements⟩ : Bundle).toJson).map Bundle.toPacket := rfl

theorem ofJson?_toJson {p : Packet} (h : ∀ m ∈ p.messages, ∀ a ∈ m.arguments, a.isFloating = false)
    {depth : Nat} (hdepth : 3 * p.nesting + 5 ≤ depth) : ofJson? depth p.toJson = some p := by
  induction p using induct generalizing depth with
  | message m =>
    obtain ⟨less, rfl⟩ : ∃ less, depth = less + 4 + 1 := ⟨depth - 5, by omega⟩
    rw [ofJson?_message, Message.ofJson?_toJson (h m (by simp))]
    rfl
  | bundle timetag elements ih =>
    rw [forall_mem_messages_bundle] at h
    rw [nesting] at hdepth
    -- The variant, the structure and its array are open around the elements.
    obtain ⟨less, rfl⟩ : ∃ less, depth = less + 2 + 1 := ⟨depth - 3, by omega⟩
    rw [ofJson?_bundle, Bundle.ofJson?_toJson_of_elements]
    · rfl
    · intro p hp
      have hnesting : p.nesting ≤ nestingAll elements := nesting_le_nestingAll hp
      exact ih p hp (h p hp) (by omega)

/-- However many containers may be opened. -/
theorem ofJson?_eq_none {p : Packet} {m : Message} (hm : m ∈ p.messages) {a : Argument}
    (ha : a ∈ m.arguments) (h : a.isFinite = false) (depth : Nat) : ofJson? depth p.toJson = none := by
  induction p using induct generalizing depth with
  | message n =>
    rw [messages_message, List.mem_singleton] at hm
    subst hm
    cases depth with
    | zero => rfl
    | succ depth =>
      rw [ofJson?_message, Message.ofJson?_eq_none ha h]
      rfl
  | bundle timetag elements ih =>
    rw [messages_bundle] at hm
    obtain ⟨p, hp, hm⟩ := List.mem_flatMap.1 hm
    match depth with
    | 0 => rfl
    | 1 => rfl
    | 2 => rfl
    | depth + 3 =>
      have helements : (elements.map toJson).mapM (ofJson? depth) = none :=
        mapM_eq_none (List.mem_map_of_mem hp) (ih p hp hm depth)
      rw [ofJson?_bundle, Bundle.ofJson?_eq_none_of_elements helements]
      rfl

end Packet

/-! ### Texts -/

namespace Json

theorem plain_nat (n : Nat) : Plain (nat n) := .number (Numeral.proper_ofDigits false n)

theorem plain_int (n : Int) : Plain (int n) := .number (Numeral.proper_ofDigits _ n.natAbs)

theorem plain_variant (name : String) {value : Json} (h : Plain value) :
    Plain (record [(name, value)]) :=
  .record (by simpa using h)

theorem plain_stored (f : Binary.Format) (layout : Layout) (negative : Bool) (bits : Nat) :
    Plain (stored f layout negative bits) := by
  rcases stored_eq_null_or_number f layout negative bits with h | ⟨n, hproper, h⟩
  · rw [h]
    exact .null
  · rw [h]
    exact .number hproper

end Json

theorem TimeTag.plain_toJson (t : TimeTag) : Plain t.toJson :=
  .record (by simp [plain_nat])

theorem Color.plain_toJson (c : Color) : Plain c.toJson :=
  .record (by simp [plain_nat])

theorem MidiMessage.plain_toJson (m : MidiMessage) : Plain m.toJson :=
  .record (by simp [plain_nat])

theorem Argument.plain_toJson (a : Argument) : Plain a.toJson := by
  cases a with
  | int value => exact plain_variant _ (plain_int _)
  | float value => exact plain_variant _ (plain_stored _ _ _ _)
  | string value => exact plain_variant _ (.text value)
  | blob bytes => exact plain_variant _ (.array (by simp [plain_nat]))
  | long value => exact plain_variant _ (plain_int _)
  | double value => exact plain_variant _ (plain_stored _ _ _ _)
  | time tag => exact plain_variant _ tag.plain_toJson
  | symbol value => exact plain_variant _ (.text value)
  | char value => exact plain_variant _ (.text _)
  | color value => exact plain_variant _ value.plain_toJson
  | midi value => exact plain_variant _ value.plain_toJson
  | bool value => exact plain_variant _ (.bool value)
  | nil => exact .text _
  | impulse => exact .text _

theorem Message.plain_toJson (m : Message) : Plain m.toJson := by
  have harguments : Plain (.array (m.arguments.map Argument.toJson)) :=
    .array (by simp [Argument.plain_toJson])
  exact .record (by simp [Plain.text, harguments])

theorem Bundle.plain_toJson {b : Bundle} (h : ∀ p ∈ b.elements, Plain p.toJson) : Plain b.toJson := by
  have helements : Plain (.array (Packet.toJsonAll b.elements)) := by
    rw [Packet.toJsonAll_eq_map]
    exact .array (by simpa using h)
  exact .record (by simp [TimeTag.plain_toJson, helements])

theorem Packet.plain_toJson (p : Packet) : Plain p.toJson := by
  induction p using induct with
  | message m => exact plain_variant _ m.plain_toJson
  | bundle timetag elements ih => exact plain_variant _ (Bundle.plain_toJson (b := ⟨timetag, elements⟩) ih)

theorem readJsonText?_toText {α : Type} (ofJson? : (depth : Nat) → Json → Option α) {j : Json}
    (h : Plain j) : readJsonText? ofJson? j.toText = ofJson? maxDepth j := by
  rw [readJsonText?, parse?_toText h, Option.bind_some]

/-- What has no number in floating point, and no more than forty bundles inside one another, is read
back from its text. A packet with a number that is not finite has a text too, which spells what is
written, but is not read as a packet. -/
theorem readJsonText?_toJsonText :
    (∀ p : Packet, (∀ m ∈ p.messages, ∀ a ∈ m.arguments, a.isFloating = false) → p.nesting ≤ 40 →
        readJsonText? Packet.ofJson? p.toJsonText = some p) ∧
      (∀ m : Message, (∀ a ∈ m.arguments, a.isFloating = false) →
        readJsonText? Message.ofJson? m.toJson.toText = some m) ∧
      (∀ b : Bundle, (∀ m ∈ b.toPacket.messages, ∀ a ∈ m.arguments, a.isFloating = false) →
        b.toPacket.nesting ≤ 40 → readJsonText? Bundle.ofJson? b.toJson.toText = some b) ∧
      ∀ p : Packet, (∃ m ∈ p.messages, ∃ a ∈ m.arguments, a.isFinite = false) →
        parse? p.toJsonText = some p.toJson ∧ readJsonText? Packet.ofJson? p.toJsonText = none := by
  refine ⟨fun p h hnesting => ?_, fun m h => ?_, fun b h hnesting => ?_, ?_⟩
  · rw [Packet.toJsonText, readJsonText?_toText _ p.plain_toJson]
    exact Packet.ofJson?_toJson h (by rw [maxDepth]; omega)
  · rw [readJsonText?_toText _ m.plain_toJson]
    exact Message.ofJson?_toJson h 123
  · rw [readJsonText?_toText _ (Bundle.plain_toJson fun p _ => p.plain_toJson)]
    show Bundle.ofJson? (125 + 2) b.toJson = some b
    refine Bundle.ofJson?_toJson_of_elements fun p hp => ?_
    have hinner : p.nesting ≤ Packet.nestingAll b.elements := Packet.nesting_le_nestingAll hp
    have houter : b.toPacket.nesting = Packet.nestingAll b.elements + 1 := rfl
    exact Packet.ofJson?_toJson (Packet.forall_mem_messages_bundle.1 h p hp) (by omega)
  · rintro p ⟨m, hm, a, ha, hfinite⟩
    rw [Packet.toJsonText, readJsonText?_toText _ p.plain_toJson]
    exact ⟨parse?_toText p.plain_toJson, Packet.ofJson?_eq_none hm ha hfinite maxDepth⟩

/-- Every other kind of argument, characters that have to be escaped, and the ends of ranges. -/
def Packet.assorted : Packet :=
  .bundle ⟨0xFFFFFFFF, 0⟩
    [.message ⟨"/\x00\"\\\x1f", [.int (-0x80000000), .long 0x7FFFFFFFFFFFFFFF, .string "naïve\n\x7f",
        .symbol "", .char '\x07', .blob [0, 255], .time .immediate, .color ⟨0, 255, 1, 2⟩,
        .midi ⟨255, 0, 3, 4⟩, .bool false, .nil, .impulse]⟩,
      .bundle .immediate []]

def Packet.undefined : Packet := .message ⟨"/a", [.double ⟨0x3FF0000000000000⟩, .float ⟨0x7FC00000⟩]⟩

theorem readJsonText?_toJsonText_assorted :
    Packet.assorted.nesting = 2 ∧
      readJsonText? Packet.ofJson? Packet.assorted.toJsonText = some Packet.assorted ∧
      Packet.undefined.toJsonText =
        "\x7b\"Message\":\x7b\"address\":\"/a\",\"arguments\":" ++
          "[\x7b\"Double\":1.0\x7d,\x7b\"Float\":null\x7d]\x7d\x7d" ∧
      readJsonText? Packet.ofJson? Packet.undefined.toJsonText = none := by
  obtain ⟨hread, -, -, hnone⟩ := readJsonText?_toJsonText
  have hassorted : ∀ m ∈ Packet.assorted.messages, ∀ a ∈ m.arguments, a.isFloating = false := by
    simp [Packet.assorted, Argument.isFloating]
  have hundefined : ∃ m ∈ Packet.undefined.messages, ∃ a ∈ m.arguments, a.isFinite = false :=
    ⟨⟨"/a", [.double ⟨0x3FF0000000000000⟩, .float ⟨0x7FC00000⟩]⟩, by simp [Packet.undefined],
      .float ⟨0x7FC00000⟩, by simp, by decide⟩
  exact ⟨rfl, hread Packet.assorted hassorted (by decide), by decide +kernel,
    (hnone Packet.undefined hundefined).2⟩

end OpenSound
