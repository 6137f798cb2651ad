import Mathlib.Logic.Relation
import OpenSound.Proofs.Amplification
/-!
# Reading keeps in step

Every field of a message takes a multiple of four bytes, and the reader checks the size of a message once,
in front of everything else. So wherever it stands behind the address, a multiple of four bytes is left
to read (`OpenMessage.four_dvd_of_leadsTo`), although no reader of a field checks that. The reader of
bundles checks the size of every element and not its own, so that all bundles are in step but perhaps
the outermost one (`OpenBundle.InStep`).

Some faults are never found then: `PacketFault.OfAligned` leaves out those that bytes in step cannot
have. A text is never cut off in its padding, no element is refused for the size of a message, and only
the end of a datagram can be too short for the size of an element.
-/

namespace OpenSound

variable {bytes rest : Bytes} {fault : PacketFault}

/-! ### Fields -/

/-- A fault that bytes can have if their number is a multiple of four. -/
def PacketFault.OfAligned : PacketFault → Prop
  | .short .stringPadding _ _ | .short .elementSize _ _ | .messageSize _ => False
  | .trailing count _ => 0 < count ∧ 4 ∣ count
  | _ => True

/-- The padding of a text ends within the next multiple of four behind the terminator. -/
theorem ofAligned_of_decodeText (haligned : 4 ∣ bytes.length) (h : decodeText bytes = .error fault) :
    fault.OfAligned := by
  unfold decodeText at h
  split at h
  · cases h
    trivial
  rename_i length hterminator
  obtain ⟨front, back, hbytes, -, hfront⟩ := findIdx?_zero_eq_some_iff.1 hterminator
  dsimp only at h
  split at h
  · rename_i hshort
    have hneeded := Bytes.split?_eq_none_iff.1 hshort
    have hinside : length + 1 ≤ bytes.length := by
      rw [hbytes, List.length_append, List.length_cons]
      omega
    have hpadded := Bytes.four_dvd_add_padLength (length + 1)
    have hpad := Bytes.padLength_lt (length + 1)
    omega
  split at h
  · cases h
    trivial
  split at h
  · cases h
    trivial
  · cases h

theorem four_dvd_of_decodeText {text : String} (haligned : 4 ∣ bytes.length)
    (h : decodeText bytes = .ok (text, rest)) : 4 ∣ rest.length := by
  obtain ⟨field, hfield, rfl⟩ := decodeText_eq_ok_iff.1 h
  rw [List.length_append, length_of_encodeText hfield] at haligned
  exact (Nat.dvd_add_right (four_dvd_textSize text)).1 haligned

namespace Argument

theorem fault_of_decodeFixed {field : Field} {width : Nat} {make : Bytes → Argument}
    (h : decodeFixed field width make bytes = (.error fault, rest)) :
    fault = .short field width bytes.length := by
  unfold decodeFixed at h
  split at h
  · cases h
  · cases h
    rfl

theorem ofAligned_of_decodeTextAs {make : String → Argument} (haligned : 4 ∣ bytes.length)
    (h : decodeTextAs make bytes = (.error fault, rest)) : fault.OfAligned := by
  unfold decodeTextAs at h
  split at h
  · cases h
  · rename_i hfault
    cases h
    exact ofAligned_of_decodeText haligned hfault

theorem ofAligned_of_decodeBlob (h : decodeBlob bytes = (.error fault, rest)) : fault.OfAligned := by
  unfold decodeBlob at h
  split at h
  · cases h
    trivial
  split at h
  · cases h
  rename_i hbody
  cases h
  unfold decodeBlobBody at hbody
  dsimp only at hbody
  split at hbody
  · cases hbody
    trivial
  split at hbody
  · cases hbody
    trivial
  · cases hbody

theorem ofAligned_of_decodeChar (h : decodeChar bytes = (.error fault, rest)) : fault.OfAligned := by
  unfold decodeChar at h
  split at h
  · cases h
    trivial
  split at h
  · cases h
  · cases h
    trivial

theorem ofAligned_of_decode {tag : Char} (haligned : 4 ∣ bytes.length)
    (h : decode tag bytes = (.error (.malformedPacket fault), rest)) : fault.OfAligned := by
  unfold decode at h
  split at h
  · cases h
  rename_i t _
  obtain ⟨fault', hfault, heq⟩ := mapError_eq_error_iff.1 (Prod.ext_iff.1 h).1
  cases heq
  have hread : decodeTagged t bytes = (.error fault, rest) := Prod.ext hfault (Prod.ext_iff.1 h).2
  cases t with
  | string | symbol => exact ofAligned_of_decodeTextAs haligned hread
  | blob => exact ofAligned_of_decodeBlob hread
  | char => exact ofAligned_of_decodeChar hread
  | int | float | long | double | time | color | midi =>
    rw [fault_of_decodeFixed hread]
    trivial
  | true | false | nil | impulse => cases hread

theorem four_dvd_of_decode {tag : Char} {a : Argument} (haligned : 4 ∣ bytes.length)
    (h : decode tag bytes = (.ok a, rest)) : 4 ∣ rest.length := by
  obtain ⟨-, payload, hpayload, rfl⟩ := decode_eq_ok_iff.1 h
  rw [List.length_append, length_of_encode hpayload] at haligned
  exact (Nat.dvd_add_right a.four_dvd_size).1 haligned

end Argument

/-! ### Messages -/

/-- A message that is being read: where the reader stands, and the bytes unread. Of the arguments read,
the latest comes first. -/
inductive OpenMessage where
  | atAddress (unread : Bytes)
  | atTypetags (address : String) (unread : Bytes)
  | atArguments (address typetags : String) (read : List Argument) (tags : List Char) (unread : Bytes)

namespace OpenMessage

def unread : OpenMessage → Bytes
  | atAddress unread | atTypetags _ unread | atArguments _ _ _ _ unread => unread

/-- One turn of the reader of messages, which reads one field: it comes to an end, or goes on. -/
def turn : OpenMessage → Except Error (Message ⊕ OpenMessage)
  | atAddress unread =>
    if unread.length % 4 ≠ 0 then .error (.malformedPacket (.messageSize unread.length))
    else do
      let (address, rest) ← (decodeText unread).mapError .malformedPacket
      (Address.validate address).mapError fun fault => .malformedPacket (.address fault)
      .ok (if rest = [] then .inl ⟨address, []⟩ else .inr (atTypetags address rest))
  | atTypetags address unread => do
    let (typetags, rest) ← (decodeText unread).mapError .malformedPacket
    match typetags.toList with
    | ',' :: tags => .ok (.inr (atArguments address typetags [] tags rest))
    | _ => .error (.malformedPacket (.missingComma typetags))
  | atArguments address typetags read [] unread =>
    if unread = [] then .ok (.inl ⟨address, read.reverse⟩)
    else .error (.malformedPacket (.trailing unread.length typetags))
  | atArguments address typetags read (tag :: tags) unread => do
    let a ← (Argument.decode tag unread).1
    .ok (.inr (atArguments address typetags (a :: read) tags (Argument.decode tag unread).2))

/-- The reader comes from one field to another, turn by turn. -/
def LeadsTo : OpenMessage → OpenMessage → Prop :=
  Relation.ReflTransGen fun s t => s.turn = .ok (.inr t)

def resume : OpenMessage → Except Error Message
  | atAddress unread => Message.decode unread
  | atTypetags address unread => do
    let (typetags, rest) ← (decodeText unread).mapError .malformedPacket
    let arguments ← decodeArguments typetags rest
    .ok ⟨address, arguments⟩
  | atArguments address typetags read tags unread => do
    let (arguments, rest) ← Argument.decodeAll tags unread
    if rest = [] then .ok ⟨address, read.reverse ++ arguments⟩
    else .error (.malformedPacket (.trailing rest.length typetags))

/-! ### The turns are those of reading -/

theorem resume_eq_turn (s : OpenMessage) : s.resume = s.turn >>= Sum.elim .ok resume := by
  cases s with
  | atAddress unread =>
    simp only [resume, turn, Message.decode]
    split
    · rfl
    cases decodeText unread with
    | error fault => rfl
    | ok field =>
      obtain ⟨address, rest⟩ := field
      simp only [mapError_ok, ok_bind]
      cases Address.validate address with
      | error fault => rfl
      | ok _ =>
        simp only [mapError_ok, ok_bind]
        split <;> rfl
  | atTypetags address unread =>
    simp only [resume, turn]
    cases decodeText unread with
    | error fault => rfl
    | ok field =>
      obtain ⟨typetags, rest⟩ := field
      simp only [mapError_ok, ok_bind]
      split
      · rename_i tags htags
        simp only [decodeArguments, htags, bind_assoc, ok_bind, Sum.elim_inr, resume]
        cases Argument.decodeAll tags rest with
        | error e => rfl
        | ok result =>
          simp only [ok_bind]
          split <;> rfl
      · rename_i hcomma
        rw [decodeArguments]
        split
        · rename_i htags
          exact absurd htags (hcomma _)
        · rfl
  | atArguments address typetags read tags unread =>
    cases tags with
    | nil =>
      simp only [resume, turn, Argument.decodeAll, ok_bind, List.append_nil]
      split <;> rfl
    | cons tag tags =>
      simp only [resume, turn, Argument.decodeAll]
      cases Argument.decode tag unread with
      | mk result rest =>
        cases result with
        | error e => rfl
        | ok a =>
          simp only [ok_bind, Sum.elim_inr, resume, List.reverse_cons, List.append_assoc,
            List.singleton_append]
          cases Argument.decodeAll tags rest <;> rfl

theorem resume_eq_of_leadsTo {s t : OpenMessage} (h : s.LeadsTo t) : s.resume = t.resume := by
  induction h with
  | refl => rfl
  | tail _ hturn ih => rw [ih, resume_eq_turn, hturn, ok_bind, Sum.elim_inr]

variable {t : OpenMessage} {unread : Bytes} {address typetags : String} {read : List Argument}
  {tags : List Char}

theorem of_turn_atAddress (h : (atAddress unread).turn = .ok (.inr t)) :
    4 ∣ unread.length ∧
      ∃ address rest, decodeText unread = .ok (address, rest) ∧ t = atTypetags address rest := by
  rw [turn] at h
  split at h
  · cases h
  rename_i haligned
  obtain ⟨⟨address, rest⟩, haddress, h⟩ := bind_eq_ok_iff.1 h
  obtain ⟨_, -, h⟩ := bind_eq_ok_iff.1 h
  split at h
  · cases h
  · cases h
    exact ⟨by omega, address, rest, mapError_eq_ok_iff.1 haddress, rfl⟩

theorem of_turn_atTypetags (h : (atTypetags address unread).turn = .ok (.inr t)) :
    ∃ typetags tags rest, decodeText unread = .ok (typetags, rest) ∧
      t = atArguments address typetags [] tags rest := by
  rw [turn] at h
  obtain ⟨⟨typetags, rest⟩, htypetags, h⟩ := bind_eq_ok_iff.1 h
  dsimp only at h
  split at h
  · rename_i tags _
    cases h
    exact ⟨typetags, tags, rest, mapError_eq_ok_iff.1 htypetags, rfl⟩
  · cases h

theorem of_turn_atArguments (h : (atArguments address typetags read tags unread).turn = .ok (.inr t)) :
    ∃ tag others a rest, tags = tag :: others ∧ Argument.decode tag unread = (.ok a, rest) ∧
      t = atArguments address typetags (a :: read) others rest := by
  cases tags with
  | nil =>
    rw [turn] at h
    split at h <;> cases h
  | cons tag tags =>
    obtain ⟨a, ha, h⟩ := bind_eq_ok_iff.1 h
    cases h
    exact ⟨tag, tags, a, _, rfl, Prod.ext ha rfl, rfl⟩

def EndsWith (s : OpenMessage) (result : Except Error Message) : Prop :=
  ∃ t, s.LeadsTo t ∧ t.turn = Sum.inl <$> result

theorem exists_endsWith_of_turn {s : OpenMessage}
    (h : ∀ t, s.turn = .ok (.inr t) → ∃ result, t.EndsWith result) : ∃ result, s.EndsWith result := by
  cases hturn : s.turn with
  | error e => exact ⟨.error e, s, .refl, hturn⟩
  | ok outcome =>
    cases outcome with
    | inl m => exact ⟨.ok m, s, .refl, hturn⟩
    | inr t =>
      obtain ⟨result, last, hleads, hend⟩ := h t hturn
      exact ⟨result, last, .head hturn hleads, hend⟩

theorem exists_endsWith (s : OpenMessage) : ∃ result, s.EndsWith result := by
  -- Every turn among the arguments takes a tag off those that are left.
  have harguments : ∀ address typetags read tags unread,
      ∃ result, (atArguments address typetags read tags unread).EndsWith result := by
    intro address typetags read tags unread
    induction tags generalizing read unread with
    | nil =>
      apply exists_endsWith_of_turn
      intro t hturn
      obtain ⟨_, _, _, _, htags, -, -⟩ := of_turn_atArguments hturn
      cases htags
    | cons tag tags ih =>
      apply exists_endsWith_of_turn
      intro t hturn
      obtain ⟨_, _, a, rest, htags, -, rfl⟩ := of_turn_atArguments hturn
      cases htags
      exact ih (a :: read) rest
  have htypetags : ∀ address unread, ∃ result, (atTypetags address unread).EndsWith result := by
    intro address unread
    apply exists_endsWith_of_turn
    intro t hturn
    obtain ⟨typetags, tags, rest, -, rfl⟩ := of_turn_atTypetags hturn
    exact harguments address typetags [] tags rest
  cases s with
  | atAddress unread =>
    apply exists_endsWith_of_turn
    intro t hturn
    obtain ⟨-, address, rest, -, rfl⟩ := of_turn_atAddress hturn
    exact htypetags address rest
  | atTypetags address unread => exact htypetags address unread
  | atArguments address typetags read tags unread => exact harguments address typetags read tags unread

theorem resume_eq_iff {s : OpenMessage} {result : Except Error Message} :
    s.resume = result ↔ s.EndsWith result := by
  have hends : ∀ result, s.EndsWith result → s.resume = result := by
    intro result h
    obtain ⟨t, hleads, hend⟩ := h
    rw [resume_eq_of_leadsTo hleads, resume_eq_turn, hend]
    cases result <;> rfl
  apply Iff.intro _ (hends result)
  intro h
  obtain ⟨result', hresult'⟩ := exists_endsWith s
  rw [← h, hends result' hresult']
  exact hresult'

/-! ### Every turn keeps in step -/

theorem four_dvd_of_turn {s t : OpenMessage} (h : s.turn = .ok (.inr t))
    (haligned : 4 ∣ s.unread.length) : 4 ∣ t.unread.length := by
  cases s with
  | atAddress unread =>
    obtain ⟨-, address, rest, hread, rfl⟩ := of_turn_atAddress h
    exact four_dvd_of_decodeText haligned hread
  | atTypetags address unread =>
    obtain ⟨typetags, tags, rest, hread, rfl⟩ := of_turn_atTypetags h
    exact four_dvd_of_decodeText haligned hread
  | atArguments address typetags read tags unread =>
    obtain ⟨tag, others, a, rest, -, hread, rfl⟩ := of_turn_atArguments h
    exact Argument.four_dvd_of_decode haligned hread

theorem four_dvd_of_leadsTo {s t : OpenMessage} (h : s.LeadsTo t) (haligned : 4 ∣ s.unread.length) :
    4 ∣ t.unread.length := by
  induction h with
  | refl => exact haligned
  | tail _ hturn ih => exact four_dvd_of_turn hturn ih

/-- The reader of a message is in step wherever it comes to, unless it does not get going. -/
theorem eq_or_four_dvd_of_leadsTo {bytes : Bytes} {s : OpenMessage} (h : (atAddress bytes).LeadsTo s) :
    s = atAddress bytes ∨ 4 ∣ s.unread.length := by
  rcases Relation.ReflTransGen.cases_head h with rfl | ⟨next, hturn, -⟩
  · exact .inl rfl
  · exact .inr (four_dvd_of_leadsTo h (of_turn_atAddress hturn).1)

theorem ofAligned_of_turn {s : OpenMessage} (haligned : 4 ∣ s.unread.length)
    (h : s.turn = .error (.malformedPacket fault)) : fault.OfAligned := by
  cases s with
  | atAddress unread =>
    have hmod : unread.length % 4 = 0 := Nat.mod_eq_zero_of_dvd haligned
    rw [turn, if_neg (not_not.2 hmod)] at h
    rcases bind_eq_error_iff.1 h with haddress | ⟨⟨address, rest⟩, -, h⟩
    · obtain ⟨fault', hfault, heq⟩ := mapError_eq_error_iff.1 haddress
      cases heq
      exact ofAligned_of_decodeText haligned hfault
    rcases bind_eq_error_iff.1 h with hvalidate | ⟨_, -, h⟩
    · obtain ⟨fault', -, heq⟩ := mapError_eq_error_iff.1 hvalidate
      cases heq
      trivial
    · cases h
  | atTypetags address unread =>
    rw [turn] at h
    rcases bind_eq_error_iff.1 h with htypetags | ⟨⟨typetags, rest⟩, -, h⟩
    · obtain ⟨fault', hfault, heq⟩ := mapError_eq_error_iff.1 htypetags
      cases heq
      exact ofAligned_of_decodeText haligned hfault
    dsimp only at h
    split at h
    · cases h
    · cases h
      trivial
  | atArguments address typetags read tags unread =>
    cases tags with
    | nil =>
      rw [turn] at h
      split at h
      · cases h
      · rename_i hne
        cases h
        exact ⟨List.length_pos_iff.2 hne, haligned⟩
    | cons tag tags =>
      rcases bind_eq_error_iff.1 h with hread | ⟨a, -, h⟩
      · exact Argument.ofAligned_of_decode haligned (Prod.ext hread rfl)
      · cases h

end OpenMessage

/-- Turn by turn the reader comes to what reading a message gives, be it a message or a fault. -/
theorem Message.decode_eq_iff {result : Except Error Message} :
    Message.decode bytes = result ↔ (OpenMessage.atAddress bytes).EndsWith result := by
  rw [← OpenMessage.resume_eq_iff, OpenMessage.resume]

theorem Message.ofAligned_of_decode (haligned : 4 ∣ bytes.length)
    (h : Message.decode bytes = .error (.malformedPacket fault)) : fault.OfAligned := by
  obtain ⟨s, hleads, hend⟩ := Message.decode_eq_iff.1 h
  exact OpenMessage.ofAligned_of_turn (OpenMessage.four_dvd_of_leadsTo hleads haligned) hend

theorem Message.fault_of_decode (h : Message.decode bytes = .error (.malformedPacket fault)) :
    fault.OfAligned ∨ fault = .messageSize bytes.length := by
  by_cases haligned : 4 ∣ bytes.length
  · exact .inl (ofAligned_of_decode haligned h)
  · unfold Message.decode at h
    rw [if_pos (mt Nat.dvd_of_mod_eq_zero haligned)] at h
    cases h
    exact .inr rfl

/-! ### Bundles -/

theorem fault_of_splitElement (h : splitElement bytes = .error fault) :
    fault.OfAligned ∨ bytes.length < 4 ∧ fault = .short .elementSize 4 bytes.length := by
  unfold splitElement at h
  split at h
  · rename_i hshort
    cases h
    exact .inr ⟨Bytes.split?_eq_none_iff.1 hshort, rfl⟩
  dsimp only at h
  split at h
  · cases h
    exact .inl trivial
  split at h
  · cases h
    exact .inl trivial
  split at h
  · cases h
    exact .inl trivial
  · cases h

theorem ofAligned_of_splitHeader (h : splitHeader bytes = .error fault) : fault.OfAligned := by
  unfold splitHeader at h
  split at h
  · cases h
    trivial
  split at h
  · cases h
  · cases h
    trivial

namespace OpenBundle

variable {size : Nat} {current current' : OpenBundle} {enclosing enclosing' : List OpenBundle}

/-- The bundles inside others have a multiple of four bytes unread, and the outermost one differs from
a multiple of four by as much as the size does. -/
def InStep (size : Nat) : OpenBundle → List OpenBundle → Prop
  | b, [] => b.rest.length % 4 = size % 4
  | b, outer :: enclosing => 4 ∣ b.rest.length ∧ InStep size outer enclosing

/-- What has been read of a bundle has no part in this, nor have four bytes more or less unread. -/
theorem InStep.of_mod_eq (h : InStep size current enclosing)
    (hrest : current'.rest.length % 4 = current.rest.length % 4) : InStep size current' enclosing := by
  cases enclosing with
  | nil => exact hrest.trans h
  | cons outer enclosing =>
    obtain ⟨haligned, houter⟩ := h
    exact ⟨by omega, houter⟩

theorem InStep.of_turn (h : InStep size current enclosing)
    (hturn : turn current enclosing = .inr (current', enclosing')) :
    InStep size current' enclosing' := by
  unfold turn at hturn
  split at hturn
  · split at hturn
    · cases hturn
    · cases hturn
      exact h.2.of_mod_eq rfl
  split at hturn
  · cases hturn
  rename_i element rest hsplit
  have hlength := length_of_splitElement hsplit
  obtain ⟨-, haligned, -, -⟩ := splitElement_eq_ok_iff.1 hsplit
  split at hturn
  · split at hturn
    · cases hturn
    · rename_i timetag body hheader
      have hbody := length_of_splitHeader hheader
      cases hturn
      exact ⟨by dsimp only; omega, h.of_mod_eq (by dsimp only; omega)⟩
  · split at hturn
    · cases hturn
    · cases hturn
      exact h.of_mod_eq (by dsimp only; omega)

/-- Only in the outermost bundle fewer than four bytes can be left. -/
theorem InStep.length_eq (h : InStep size current enclosing) (hne : current.rest ≠ [])
    (hlt : current.rest.length < 4) : size % 4 ≠ 0 ∧ current.rest.length = size % 4 := by
  have hpos := List.length_pos_iff.2 hne
  cases enclosing with
  | nil =>
    have hmod : current.rest.length % 4 = size % 4 := h
    omega
  | cons outer enclosing =>
    have haligned := h.1
    omega

theorem fault_of_turn (h : InStep size current enclosing)
    (hturn : turn current enclosing = .inl (.error (.malformedPacket fault))) :
    fault.OfAligned ∨ size % 4 ≠ 0 ∧ fault = .short .elementSize 4 (size % 4) := by
  unfold turn at hturn
  split at hturn
  · split at hturn <;> cases hturn
  rename_i hne
  split at hturn
  · rename_i hsplit
    cases hturn
    rcases fault_of_splitElement hsplit with hfault | ⟨hlt, rfl⟩
    · exact .inl hfault
    · obtain ⟨hsize, heq⟩ := h.length_eq hne hlt
      exact .inr ⟨hsize, by rw [heq]⟩
  rename_i element rest hsplit
  obtain ⟨-, haligned, -, -⟩ := splitElement_eq_ok_iff.1 hsplit
  left
  split at hturn
  · split at hturn
    · rename_i hheader
      cases hturn
      exact ofAligned_of_splitHeader hheader
    · cases hturn
  · split at hturn
    · rename_i hmessage
      cases hturn
      exact Message.ofAligned_of_decode haligned hmessage
    · cases hturn

theorem fault_of_endsAfter {turns : Nat} {result : Except Error Bundle}
    (hends : EndsAfter turns current enclosing result) (h : InStep size current enclosing)
    (hfault : result = .error (.malformedPacket fault)) :
    fault.OfAligned ∨ size % 4 ≠ 0 ∧ fault = .short .elementSize 4 (size % 4) := by
  induction hends with
  | last hturn => exact fault_of_turn h (hfault ▸ hturn)
  | next hturn _ ih => exact ih (h.of_turn hturn) hfault

end OpenBundle

theorem Bundle.fault_of_decode (h : Bundle.decode bytes = .error (.malformedPacket fault)) :
    fault.OfAligned ∨
      bytes.length % 4 ≠ 0 ∧ fault = .short .elementSize 4 (bytes.length % 4) := by
  unfold Bundle.decode at h
  split at h
  · rename_i hheader
    cases h
    exact .inl (ofAligned_of_splitHeader hheader)
  · rename_i timetag body hheader
    have hbody := length_of_splitHeader hheader
    obtain ⟨turns, hends, -⟩ := OpenBundle.exists_endsAfter ⟨timetag, [], body⟩ []
    have hstep : OpenBundle.InStep bytes.length ⟨timetag, [], body⟩ [] := by
      change body.length % 4 = bytes.length % 4
      omega
    exact OpenBundle.fault_of_endsAfter hends hstep h

/-! ### What is never reported -/

namespace Packet

theorem fault_of_decode (h : Packet.decode bytes = .error (.malformedPacket fault)) :
    fault.OfAligned ∨ fault = .messageSize bytes.length ∨
      fault = .short .elementSize 4 (bytes.length % 4) := by
  unfold Packet.decode at h
  split at h
  · cases h
    exact .inl trivial
  split at h
  · rcases Bundle.fault_of_decode (map_eq_error_iff.1 h) with hfault | ⟨-, hshort⟩
    · exact .inl hfault
    · exact .inr (.inr hshort)
  · rcases Message.fault_of_decode (map_eq_error_iff.1 h) with hfault | hsize
    · exact .inl hfault
    · exact .inr (.inl hsize)

/-- Wherever the reader of a message comes to behind the address, be it the type tags, the payload of an
argument or the end, a multiple of four bytes is unread. So no text is ever cut off in its padding, what
is left behind the arguments is a multiple of four bytes, and no element of a bundle, at any depth, is
refused for its size as a message. A bundle ends within the size of an element only if its own size is
no multiple of four, with as many bytes left as that size is too long. -/
theorem decode_inStep (bytes : Bytes) :
    (∀ result, Message.decode bytes = result ↔ (OpenMessage.atAddress bytes).EndsWith result) ∧
    (∀ s, (OpenMessage.atAddress bytes).LeadsTo s → s = .atAddress bytes ∨ 4 ∣ s.unread.length) ∧
    (∀ fault, Message.decode bytes = .error (.malformedPacket fault) ∨
        Packet.decode bytes = .error (.malformedPacket fault) →
      (∀ needed found, fault ≠ .short .stringPadding needed found) ∧
        ∀ count typetags, fault = .trailing count typetags → 0 < count ∧ 4 ∣ count) ∧
    (∀ size, Bundle.decode bytes ≠ .error (.malformedPacket (.messageSize size))) ∧
    ∀ needed found,
      Bundle.decode bytes = .error (.malformedPacket (.short .elementSize needed found)) →
        needed = 4 ∧ ¬ 4 ∣ bytes.length ∧ found = bytes.length % 4 := by
  refine ⟨fun result => Message.decode_eq_iff,
    fun s => OpenMessage.eq_or_four_dvd_of_leadsTo, fun fault h => ?_, fun size h => ?_,
    fun needed found h => ?_⟩
  · have hfault : fault.OfAligned ∨ fault = .messageSize bytes.length ∨
        fault = .short .elementSize 4 (bytes.length % 4) := by
      rcases h with h | h
      · exact (Message.fault_of_decode h).imp_right .inl
      · exact fault_of_decode h
    rcases hfault with hfault | rfl | rfl
    · refine ⟨fun needed found heq => ?_, fun count typetags heq => ?_⟩
      · subst heq
        exact hfault
      · subst heq
        exact hfault
    · exact ⟨nofun, nofun⟩
    · exact ⟨nofun, nofun⟩
  · rcases Bundle.fault_of_decode h with hfault | ⟨-, hshort⟩
    · exact hfault
    · cases hshort
  · rcases Bundle.fault_of_decode h with hfault | ⟨hsize, hshort⟩
    · exact hfault.elim
    · cases hshort
      exact ⟨rfl, by omega, rfl⟩

/-- A blob and a number, with four bytes too many behind them. -/
def overlong : Bytes :=
  [0x2F, 0x79, 0, 0, 0x2C, 0x62, 0x69, 0, 0, 0, 0, 3, 0x61, 0x62, 0x63, 0, 0, 0, 0, 9, 0, 0, 0, 0]

/-- A bundle that ends within the size of its second element. -/
def cutShort : Bytes := bundleHeader .immediate ++ (frames [[0x2F, 0x78, 0, 0]] ++ [0, 0, 0])

theorem decode_cutShort :
    Bundle.decode cutShort = .error (.malformedPacket (.short .elementSize 4 3)) := by
  have hsplit : splitElement [0, 0, 0] = .error (.short .elementSize 4 3) := by rfl
  have hx : Packet.decode [0x2F, 0x78, 0, 0] = .ok (.message ⟨"/x", []⟩) :=
    (WireForm.untagged (by decide) (by decide)).decode
  have hheader : splitHeader cutShort =
      .ok (.immediate, frames [[0x2F, 0x78, 0, 0]] ++ [0, 0, 0]) := splitHeader_eq_ok_iff.2 rfl
  rw [Bundle.decode_eq_parse, Bundle.parse, hheader]
  simp only [frames_cons, frames_nil, List.append_nil]
  rw [parseElements_frame (by decide) (by decide) (by decide), hx, ok_bind,
    parseElements_of_ne_nil (by decide), hsplit]
  rfl

/-- Behind the blob eight bytes are unread, and behind the number four. -/
theorem decode_inStep_overlong :
    (OpenMessage.atAddress overlong).LeadsTo
        (.atArguments "/y" ",bi" [.blob [0x61, 0x62, 0x63]] ['i'] [0, 0, 0, 9, 0, 0, 0, 0]) ∧
      4 ∣ ([0, 0, 0, 9, 0, 0, 0, 0] : Bytes).length ∧
      Message.decode overlong = .error (.malformedPacket (.trailing 4 ",bi")) ∧ 0 < 4 ∧ 4 ∣ 4 ∧
      Bundle.decode cutShort = .error (.malformedPacket (.short .elementSize 4 3)) ∧
      ¬ 4 ∣ cutShort.length ∧ 3 = cutShort.length % 4 := by
  have hnumber : (OpenMessage.atAddress overlong).LeadsTo
      (.atArguments "/y" ",bi" [.blob [0x61, 0x62, 0x63]] ['i'] [0, 0, 0, 9, 0, 0, 0, 0]) :=
    .head (by rfl) (.head (by rfl) (.head (by rfl) .refl))
  have hrefused : Message.decode overlong = .error (.malformedPacket (.trailing 4 ",bi")) := by rfl
  obtain ⟨-, hunread, hfaults, -, -⟩ := decode_inStep overlong
  obtain ⟨-, -, -, -, hshort⟩ := decode_inStep cutShort
  have haligned := (hunread _ hnumber).resolve_left nofun
  obtain ⟨-, htrailing⟩ := hfaults _ (.inl hrefused)
  obtain ⟨hpos, hdvd⟩ := htrailing 4 ",bi" rfl
  obtain ⟨-, hsize, hfound⟩ := hshort 4 3 decode_cutShort
  exact ⟨hnumber, haligned, hrefused, hpos, hdvd, decode_cutShort, hsize, hfound⟩

end Packet

end OpenSound
