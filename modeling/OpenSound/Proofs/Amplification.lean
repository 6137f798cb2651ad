import OpenSound.Proofs.Canonical
import OpenSound.Proofs.Records
import OpenSound.Proofs.Serving
/-!
# What a datagram can cost

Everything that comes out of a datagram has been paid for in bytes. A bundle takes sixteen of them and
every element four more for its size, a message takes four for its address, and the tag of an argument
one even if there is no payload. Counted with these prices, a packet that is read weighs at most four
more than its bytes (`Packet.WireForm.weight_le`), and no element is free, since empty ones are refused.

The reader of bundles works in turns: a turn takes an element off the current bundle or leaves it. Each
turn gives back at least eight of what the open bundles still owe (`OpenBundle.owed_of_turn`), whether
or not the bytes turn out to be a bundle in the end.
-/

namespace OpenSound

/-! ### The weight of a packet -/

namespace Packet

mutual

def bundleCount : Packet → Nat
  | message _ => 0
  | bundle _ elements => bundleCountAll elements + 1

def bundleCountAll : List Packet → Nat
  | [] => 0
  | p :: ps => bundleCount p + bundleCountAll ps

end

def argumentCount (p : Packet) : Nat := (p.messages.map (·.arguments.length)).sum

/-- Bundles, messages and arguments at the least number of bytes that each takes. -/
def weight (p : Packet) : Nat := 20 * p.bundleCount + 8 * p.messages.length + p.argumentCount

mutual

theorem nesting_le_bundleCount (p : Packet) : nesting p ≤ bundleCount p := by
  match p with
  | message m => exact Nat.le_refl 0
  | bundle timetag elements => exact Nat.succ_le_succ (nestingAll_le_bundleCountAll elements)

theorem nestingAll_le_bundleCountAll (ps : List Packet) : nestingAll ps ≤ bundleCountAll ps := by
  match ps with
  | [] => exact Nat.le_refl 0
  | p :: ps =>
    have hfirst := nesting_le_bundleCount p
    have hothers := nestingAll_le_bundleCountAll ps
    rw [nestingAll, bundleCountAll]
    omega

end

theorem weight_message (m : Message) : weight (message m) = 8 + m.arguments.length := by
  rw [weight, bundleCount, argumentCount, messages_message]
  simp

theorem sum_weight (ps : List Packet) :
    (ps.map weight).sum = 20 * bundleCountAll ps + 8 * (ps.flatMap messages).length +
      ((ps.flatMap messages).map (·.arguments.length)).sum := by
  induction ps with
  | nil => rfl
  | cons p ps ih =>
    rw [List.map_cons, List.sum_cons, ih, bundleCountAll, List.flatMap_cons, List.length_append,
      List.map_append, List.sum_append, weight, argumentCount]
    omega

theorem weight_bundle (timetag : TimeTag) (elements : List Packet) :
    weight (bundle timetag elements) = 20 + (elements.map weight).sum := by
  rw [sum_weight, weight, bundleCount, argumentCount, messages_bundle]
  omega

end Packet

theorem Utf8.length_le_length_encode (text : String) :
    text.toList.length ≤ (Utf8.encode text).length := by
  rw [encode]
  induction text.toList with
  | nil => exact Nat.le_refl 0
  | cons c cs ih =>
    have hc : 1 ≤ (encodeChar c).length := by
      unfold encodeChar
      dsimp only
      split_ifs <;> simp
    rw [encodeChars_cons, List.length_append, List.length_cons]
    omega

theorem Message.weight_le_size (m : Message) : 8 + m.arguments.length ≤ m.size + 4 := by
  have haddress := four_le_textSize m.address
  have htypetags := Utf8.length_le_length_encode m.typetags
  have htags : m.typetags.toList.length = m.arguments.length + 1 := by simp [typetags]
  unfold size textSize at *
  omega

/-- The size in front of an element makes up for what its weight may exceed its bytes by. -/
theorem Packet.sum_weight_le_length_frames {elements : List (Packet × Bytes)}
    (h : ∀ e ∈ elements, e.1.weight ≤ e.2.length + 4) :
    ((elements.map Prod.fst).map weight).sum ≤ (frames (elements.map Prod.snd)).length := by
  induction elements with
  | nil => exact Nat.le_refl 0
  | cons e elements ih =>
    obtain ⟨hfirst, hothers⟩ := List.forall_mem_cons.1 h
    have hrest := ih hothers
    simp only [List.map_cons, List.sum_cons, frames_cons, List.length_append, length_frame]
    omega

theorem Packet.WireForm.weight_le {p : Packet} {bytes : Bytes} (h : WireForm p bytes) :
    p.weight ≤ bytes.length + 4 := by
  induction h with
  | @tagged m bytes _ hwritten =>
    rw [weight_message, Message.length_of_encode hwritten]
    exact m.weight_le_size
  | @untagged address bytes _ hwritten =>
    have haddress := four_le_textSize address
    rw [weight_message, length_of_encodeText hwritten, List.length_nil]
    omega
  | bundle timetag elements hinner hsizes ih =>
    have hall := sum_weight_le_length_frames ih
    rw [weight_bundle, List.length_append, length_bundleHeader]
    omega

/-! ### The turns of the reader -/

namespace OpenBundle

/-- One turn of the reader of bundles: it comes to an end, or goes on in some bundle inside others. -/
def turn (current : OpenBundle) (enclosing : List OpenBundle) :
    Except Error Bundle ⊕ OpenBundle × List OpenBundle :=
  if current.rest = [] then
    match enclosing with
    | [] => .inl (.ok current.finish)
    | outer :: enclosing => .inr (outer.push current.finish.toPacket, enclosing)
  else
    match splitElement current.rest with
    | .error fault => .inl (.error (.malformedPacket fault))
    | .ok (element, rest) =>
      if startsBundle element then
        match splitHeader element with
        | .error fault => .inl (.error (.malformedPacket fault))
        | .ok (timetag, body) => .inr (⟨timetag, [], body⟩, { current with rest := rest } :: enclosing)
      else
        match Message.decode element with
        | .error e => .inl (.error e)
        | .ok m => .inr (⟨current.timetag, .message m :: current.read, rest⟩, enclosing)

/-- The reader comes to this end after so many turns. -/
inductive EndsAfter : Nat → OpenBundle → List OpenBundle → Except Error Bundle → Prop where
  | last {current enclosing result} (hturn : turn current enclosing = .inl result) :
      EndsAfter 1 current enclosing result
  | next {current enclosing current' enclosing' turns result}
      (hturn : turn current enclosing = .inr (current', enclosing'))
      (hrest : EndsAfter turns current' enclosing' result) :
      EndsAfter (turns + 1) current enclosing result

theorem decodeOpen_eq_turn (current : OpenBundle) (enclosing : List OpenBundle) :
    decodeOpen current enclosing =
      (turn current enclosing).elim id fun next => decodeOpen next.1 next.2 := by
  by_cases hrest : current.rest = []
  · rw [decodeOpen.eq_def, turn.eq_def, if_pos hrest, if_pos hrest]
    cases enclosing <;> rfl
  rw [decodeOpen_of_ne_nil hrest, turn.eq_def, if_neg hrest]
  cases splitElement current.rest with
  | error fault => rfl
  | ok split =>
    obtain ⟨element, rest⟩ := split
    simp only [mapError_ok, ok_bind]
    cases startsBundle element with
    | true => cases splitHeader element <;> rfl
    | false => cases Message.decode element <;> rfl

/-- What some open bundles owe: their unread bytes, and eight for leaving each. -/
def owed : List OpenBundle → Nat
  | [] => 0
  | b :: bs => b.rest.length + 8 + owed bs

theorem owed_of_turn {current current' : OpenBundle} {enclosing enclosing' : List OpenBundle}
    (h : turn current enclosing = .inr (current', enclosing')) :
    owed (current' :: enclosing') + 8 ≤ owed (current :: enclosing) := by
  unfold turn at h
  split at h
  · rename_i hrest
    split at h
    · cases h
    · cases h
      simp only [owed, push, hrest, List.length_nil]
      omega
  split at h
  · cases h
  rename_i element rest hsplit
  have hlength := length_of_splitElement hsplit
  obtain ⟨hne, haligned, -, -⟩ := splitElement_eq_ok_iff.1 hsplit
  split at h
  · split at h
    · cases h
    · rename_i timetag body hheader
      have hbody := length_of_splitHeader hheader
      cases h
      simp only [owed]
      omega
  · split at h
    · cases h
    · cases h
      -- An element is not empty, so it has at least four bytes.
      have hpos := List.length_pos_iff.2 hne
      simp only [owed]
      omega

theorem exists_endsAfter (current : OpenBundle) (enclosing : List OpenBundle) :
    ∃ turns, EndsAfter turns current enclosing (decodeOpen current enclosing) ∧
      8 * turns ≤ owed (current :: enclosing) := by
  induction howed : owed (current :: enclosing) using Nat.strongRecOn
    generalizing current enclosing with
  | ind bound ih =>
  subst howed
  rw [decodeOpen_eq_turn]
  cases hturn : turn current enclosing with
  | inl result =>
    refine ⟨1, .last hturn, ?_⟩
    rw [owed]
    omega
  | inr next =>
    obtain ⟨current', enclosing'⟩ := next
    have hless := owed_of_turn hturn
    obtain ⟨turns, hends, hturns⟩ := ih _ (by omega) current' enclosing' rfl
    refine ⟨turns + 1, .next hturn hends, ?_⟩
    omega

end OpenBundle

namespace Packet

/-- Whatever a datagram is read as, its bundles, messages and arguments have been paid for: the nesting
and the number of messages that are passed on are bounded by the number of bytes that arrive. So is the
work, also for bytes that are refused: the reader of bundles comes to its end within an eighth of as many
turns as there are bytes. -/
theorem decode_within (bytes : Bytes) :
    (∀ p, Packet.decode bytes = .ok p →
      20 * p.bundleCount + 8 * p.messages.length + p.argumentCount ≤ bytes.length + 4 ∧
        20 * p.nesting ≤ bytes.length + 4) ∧
    (∀ closes limit, 8 * ((Receive.datagram closes bytes).messages limit).length ≤
      min limit bytes.length + 4) ∧
    ∀ timetag body, splitHeader bytes = .ok (timetag, body) →
      ∃ turns, OpenBundle.EndsAfter turns ⟨timetag, [], body⟩ [] (Bundle.decode bytes) ∧
        8 * (turns + 1) ≤ bytes.length := by
  have hweight : ∀ cut p, Packet.decode cut = .ok p →
      20 * p.bundleCount + 8 * p.messages.length + p.argumentCount ≤ cut.length + 4 :=
    fun cut p hread => (wireForm_of_decode hread).weight_le
  refine ⟨fun p hread => ⟨hweight bytes p hread, ?_⟩, fun closes limit => ?_,
    fun timetag body hheader => ?_⟩
  · have hall := hweight bytes p hread
    have hnesting := p.nesting_le_bundleCount
    omega
  · rcases Receive.messages_datagram_cases limit closes bytes with hnone | ⟨p, hread, hmessages⟩
    · rw [hnone, List.length_nil]
      omega
    · have hall := hweight _ p hread
      rw [List.length_take] at hall
      rw [hmessages]
      omega
  · obtain ⟨turns, hends, hturns⟩ := OpenBundle.exists_endsAfter ⟨timetag, [], body⟩ []
    have hbody := length_of_splitHeader hheader
    simp only [OpenBundle.owed] at hturns
    refine ⟨turns, ?_, by omega⟩
    unfold Bundle.decode
    rw [hheader]
    exact hends

theorem decode_within_mixed :
    Packet.decode mixedBytes = .ok mixed ∧ mixedBytes.length = 68 ∧
      mixed.bundleCount = 2 ∧ mixed.messages.length = 3 ∧ mixed.argumentCount = 1 ∧
      20 * mixed.bundleCount + 8 * mixed.messages.length + mixed.argumentCount ≤ 68 + 4 ∧
      20 * mixed.nesting ≤ 68 + 4 ∧
      8 * ((Receive.datagram false mixedBytes).messages 68).length ≤ 68 + 4 ∧
      ∃ turns, OpenBundle.EndsAfter turns ⟨.immediate, [], mixedBytes.drop 16⟩ []
          (Bundle.decode mixedBytes) ∧
        8 * (turns + 1) ≤ 68 := by
  have hlength : mixedBytes.length = 68 := by decide
  have hmessages : mixed.messages =
      [⟨"/x", []⟩, ⟨"/y", [.int 9]⟩, ⟨"/z", []⟩] := by simp [mixed]
  have hbundles : mixed.bundleCount = 2 := by simp [mixed, bundleCount, bundleCountAll]
  have harguments : mixed.argumentCount = 1 := by rw [argumentCount, hmessages]; rfl
  have hheader : splitHeader mixedBytes = .ok (.immediate, mixedBytes.drop 16) :=
    splitHeader_eq_ok_iff.2 rfl
  obtain ⟨hpaid, hpassed, hturns⟩ := decode_within mixedBytes
  obtain ⟨hweight, hnesting⟩ := hpaid mixed wireForm_mixed.decode
  have hends := hturns .immediate _ hheader
  rw [hlength] at hweight hnesting hends
  have hcut := hpassed false 68
  rw [hlength] at hcut
  exact ⟨wireForm_mixed.decode, hlength, hbundles, by rw [hmessages]; rfl, harguments, hweight, hnesting,
    hcut, hends⟩

end Packet

end OpenSound
