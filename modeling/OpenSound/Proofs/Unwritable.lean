import OpenSound.Proofs.Layout
import OpenSound.Proofs.Quoting
/-!
# Which packets cannot be written

A text on the wire ends at its first zero byte, so a text that holds the zero character cannot be
written. With sizes that fit this is the only thing that can go wrong, and what is reported is the first
such text in wire order: the writer meets the texts of a packet one after the other, and `FailsFor`
follows it. Joining two writers joins their texts (`FailsFor.bind`), so every writer is taken apart in
the way it is put together, and type tags, sizes and the other arguments add no text at all.
-/

namespace OpenSound

/-! ### Texts in wire order -/

/-- The texts of a message that come from outside: its address, then those among its arguments. -/
def Message.texts (m : Message) : List String :=
  m.address :: m.arguments.filterMap Argument.asText?

def Packet.texts (p : Packet) : List String := p.messages.flatMap Message.texts

theorem Packet.texts_message (m : Message) : texts (message m) = m.texts := by
  rw [texts, messages_message, List.flatMap_singleton]

theorem Packet.texts_bundle (timetag : TimeTag) (elements : List Packet) :
    texts (bundle timetag elements) = elements.flatMap texts := by
  rw [texts, messages_bundle, List.flatMap_assoc]
  rfl

/-! ### Failing for the first text -/

/-- The first text that holds the zero character. -/
def firstNul? (texts : List String) : Option String :=
  texts.find? fun text => '\x00' ∈ text.toList

theorem firstNul?_append (texts others : List String) :
    firstNul? (texts ++ others) = (firstNul? texts).or (firstNul? others) :=
  List.find?_append

/-- Writing fails for the first of the texts that holds the zero character, and for nothing else. -/
def FailsFor {α : Type} (texts : List String) (written : Except EncodeFault α) : Prop :=
  ∀ fault, written = .error fault ↔ ∃ text, firstNul? texts = some text ∧ fault = .containsNul text

section

variable {α β : Type} {texts others : List String}

theorem failsFor_ok (a : α) : FailsFor [] (.ok a) := by
  intro fault
  simp [firstNul?]

theorem FailsFor.bind {x : Except EncodeFault α} {f : α → Except EncodeFault β}
    (hx : FailsFor texts x) (hf : ∀ a, x = .ok a → FailsFor others (f a)) :
    FailsFor (texts ++ others) (x >>= f) := by
  intro fault
  rw [firstNul?_append]
  cases x with
  | error first =>
    obtain ⟨text, htext, rfl⟩ := (hx first).1 rfl
    rw [htext, Option.some_or, error_bind]
    simp [eq_comm]
  | ok a =>
    have hnone : firstNul? texts = none := by
      rw [Option.eq_none_iff_forall_ne_some]
      intro text htext
      cases (hx _).2 ⟨text, htext, rfl⟩
    rw [hnone, Option.none_or, ok_bind]
    exact hf a rfl fault

end

/-! ### Messages -/

theorem failsFor_encodeText (text : String) : FailsFor [text] (encodeText text) := by
  intro fault
  unfold encodeText firstNul?
  by_cases hnul : '\x00' ∈ text.toList <;> simp [hnul, eq_comm]

namespace Argument

theorem failsFor_encode {a : Argument} (hfits : a.Fits) : FailsFor a.asText?.toList a.encode := by
  cases a with
  | string text | symbol text => exact failsFor_encodeText text
  | blob bytes =>
    have hwritten : encodeBlob bytes = .ok _ := encodeBlob_eq_ok_iff.2 ⟨hfits bytes rfl, rfl⟩
    rw [encode, hwritten]
    exact failsFor_ok _
  | _ => exact failsFor_ok _

theorem failsFor_encodeAll {as : List Argument} (hfits : ∀ a ∈ as, a.Fits) :
    FailsFor (as.filterMap asText?) (encodeAll as) := by
  rw [List.filterMap_eq_flatMap_toList]
  induction as with
  | nil => exact failsFor_ok _
  | cons a as ih =>
    obtain ⟨ha, has⟩ := List.forall_mem_cons.1 hfits
    rw [List.flatMap_cons, encodeAll, ← List.append_nil (as.flatMap _)]
    exact (failsFor_encode ha).bind fun _ _ => (ih has).bind fun _ _ => failsFor_ok _

end Argument

/-- The type tags are a text, too, but never one that cannot be written. -/
theorem Message.failsFor_encode {m : Message} (hfits : m.Fits) : FailsFor m.texts m.encode := by
  have htypetags : FailsFor [] (encodeText m.typetags) := by
    obtain ⟨field, hfield⟩ := exists_encodeText_iff.2 m.nul_notMem_typetags
    rw [hfield]
    exact failsFor_ok field
  have htexts : m.texts = [m.address] ++ ([] ++ (m.arguments.filterMap Argument.asText? ++ [])) := by
    simp [texts]
  rw [htexts, encode]
  exact (failsFor_encodeText m.address).bind fun _ _ => htypetags.bind fun _ _ =>
    (Argument.failsFor_encodeAll hfits).bind fun _ _ => failsFor_ok _

theorem Argument.asText?_eq_some_iff {a : Argument} {text : String} :
    a.asText? = some text ↔ a = .string text ∨ a = .symbol text := by
  cases a <;> simp [asText?]

theorem Message.not_nulFree_iff {m : Message} :
    ¬ m.NulFree ↔ '\x00' ∈ m.address.toList ∨
      ∃ text, (.string text ∈ m.arguments ∨ .symbol text ∈ m.arguments) ∧ '\x00' ∈ text.toList := by
  have harguments : (¬ ∀ a ∈ m.arguments, a.NulFree) ↔
      ∃ text, (.string text ∈ m.arguments ∨ .symbol text ∈ m.arguments) ∧ '\x00' ∈ text.toList := by
    simp only [Argument.NulFree, Argument.asText?_eq_some_iff, not_forall, not_not, exists_prop]
    apply Iff.intro
    · intro h
      obtain ⟨a, ha, text, rfl | rfl, hnul⟩ := h
      · exact ⟨text, .inl ha, hnul⟩
      · exact ⟨text, .inr ha, hnul⟩
    · intro h
      obtain ⟨text, ha | ha, hnul⟩ := h
      · exact ⟨.string text, ha, text, .inl rfl, hnul⟩
      · exact ⟨.symbol text, ha, text, .inr rfl, hnul⟩
  rw [NulFree, not_and_or, not_not, harguments]

/-! ### Packets -/

namespace Packet

theorem failsFor_frame? {element : Bytes} (hsize : element.length < UInt32.size) :
    FailsFor [] (frame? element) := by
  rw [frame?, if_pos hsize]
  exact failsFor_ok _

theorem failsFor_layoutElements {elements : List Packet}
    (hsizes : ∀ p ∈ elements, p.size < UInt32.size)
    (hwrites : ∀ p ∈ elements, FailsFor p.texts (layout p)) :
    FailsFor (elements.flatMap texts) (layoutElements elements) := by
  induction elements with
  | nil => exact failsFor_ok _
  | cons p ps ih =>
    obtain ⟨hsize, hsizes⟩ := List.forall_mem_cons.1 hsizes
    obtain ⟨hwrite, hwrites⟩ := List.forall_mem_cons.1 hwrites
    have htexts : (p :: ps).flatMap texts = p.texts ++ ([] ++ (ps.flatMap texts ++ [])) := by
      simp
    rw [htexts, layoutElements_cons]
    apply hwrite.bind
    intro element helement
    have hframe := failsFor_frame? (length_of_layout helement ▸ hsize)
    exact hframe.bind fun _ _ => (ih hsizes hwrites).bind fun _ _ => failsFor_ok _

theorem failsFor_layout {p : Packet} (hfits : p.Fits) : FailsFor p.texts (layout p) := by
  induction p using Packet.induct with
  | message m =>
    cases hfits with
    | message hblobs =>
      rw [texts_message]
      exact m.failsFor_encode hblobs
  | bundle timetag elements ih =>
    cases hfits with
    | bundle hsizes hinner =>
      have hbody := failsFor_layoutElements hsizes fun p hp => ih p hp (hinner p hp)
      rw [texts_bundle, layout, ← List.append_nil (elements.flatMap texts)]
      exact hbody.bind fun _ _ => failsFor_ok _

/-- The report of a failure leaves no doubt about the text. -/
theorem firstNul?_of_message {p : Packet} (hfits : p.Fits) {fault : EncodeFault}
    (hfailed : layout p = .error fault) {text : String}
    (hmessage : fault.message = "string contains NUL: " ++ Text.quoted text) :
    firstNul? p.texts = some text := by
  obtain ⟨first, hfirst, rfl⟩ := (failsFor_layout hfits fault).1 hfailed
  have hquoted : Text.quoted first = Text.quoted text := (String.append_right_inj _).1 hmessage
  rw [← Text.quoted_injective hquoted]
  exact hfirst

/-- Writing a packet whose sizes fit fails exactly if an address, or a text among the arguments, holds
the zero character, at whatever depth and whatever else the packet holds. What is reported is the first
such text in wire order, and the report quotes it. -/
theorem encode_fails_iff_nul {p : Packet} (hfits : p.Fits) :
    ((∃ e, p.encode = .error e) ↔
      ∃ m ∈ p.messages, '\x00' ∈ m.address.toList ∨
        ∃ text, (.string text ∈ m.arguments ∨ .symbol text ∈ m.arguments) ∧ '\x00' ∈ text.toList) ∧
    ∀ e, p.encode = .error e →
      ∃ text, p.texts.find? (fun text => '\x00' ∈ text.toList) = some text ∧
        e = .encodeError (.containsNul text) ∧
        e.message = "encode error: string contains NUL: " ++ Text.quoted text := by
  rw [encode_eq_layout]
  refine ⟨?_, fun e he => ?_⟩
  · have hwritten : (∃ bytes, p.layout.mapError Error.encodeError = .ok bytes) ↔ p.NulFree := by
      simp only [mapError_eq_ok_iff, exists_layout_iff, hfits, and_true]
    rw [exists_eq_error_iff, hwritten]
    simp only [NulFree, Message.not_nulFree_iff, not_forall, exists_prop]
  · obtain ⟨fault, hfault, rfl⟩ := mapError_eq_error_iff.1 he
    obtain ⟨text, hfirst, rfl⟩ := (failsFor_layout hfits fault).1 hfault
    exact ⟨text, hfirst, rfl, rfl⟩

/-- Zero bytes in a blob, a character with the number zero and the empty text can be written. The texts
that cannot stand in an inner bundle and behind it. -/
def zeroes : Packet :=
  .bundle .immediate [
    .message ⟨"/zeroes", [.blob [0, 0], .char '\x00', .string ""]⟩,
    .bundle ⟨1, 2⟩ [.message ⟨"no address", [.nil, .symbol "first\x00", .string "\x00second"]⟩],
    .message ⟨"/third\x00", []⟩]

theorem encode_fails_zeroes :
    zeroes.Fits ∧
      zeroes.texts = ["/zeroes", "", "no address", "first\x00", "\x00second", "/third\x00"] ∧
      zeroes.encode = .error (.encodeError (.containsNul "first\x00")) := by
  have hfits : zeroes.Fits := fits_of_size_lt (by decide)
  have hmessages : zeroes.messages =
      [⟨"/zeroes", [.blob [0, 0], .char '\x00', .string ""]⟩,
        ⟨"no address", [.nil, .symbol "first\x00", .string "\x00second"]⟩, ⟨"/third\x00", []⟩] := by
    simp [zeroes]
  have htexts : zeroes.texts =
      ["/zeroes", "", "no address", "first\x00", "\x00second", "/third\x00"] := by
    rw [texts, hmessages]
    rfl
  obtain ⟨hfails, hfirst⟩ := encode_fails_iff_nul hfits
  have hnul : ∃ m ∈ zeroes.messages, '\x00' ∈ m.address.toList ∨
      ∃ text, (.string text ∈ m.arguments ∨ .symbol text ∈ m.arguments) ∧ '\x00' ∈ text.toList := by
    rw [hmessages]
    exact ⟨⟨"/third\x00", []⟩, by simp, .inl (by decide)⟩
  obtain ⟨e, he⟩ := hfails.2 hnul
  obtain ⟨text, htext, rfl, -⟩ := hfirst e he
  have hsame : text = "first\x00" := by
    rw [htexts] at htext
    exact Option.some.inj (htext.symm.trans (by decide))
  rw [hsame] at he
  exact ⟨hfits, htexts, he⟩

end Packet

end OpenSound
