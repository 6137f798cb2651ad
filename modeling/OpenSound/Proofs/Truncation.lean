import OpenSound.Proofs.Canonical
import OpenSound.Proofs.Serving
/-!
# Datagrams that were cut off

A datagram that is longer than the memory it is received into arrives without its end, and nobody says
so. What saves the receiver is that the format is self-delimiting: of two messages, the bytes of one
never begin with those of the other (`Message.encode_append_inj`), and where an element ends is said in
front of it (`Packet.exists_append_of_frames_append`). So most cuts leave bytes that cannot be read. The
two kinds that do not are those of `Packet.Remains`, and what is read after them is whole: the address
of a message, or the first elements of a bundle.
-/

namespace OpenSound

/-! ### Fields, messages and frames that begin alike -/

section

variable {rest rest' : Bytes}

theorem encodeText_append_inj {text text' : String} {field field' : Bytes}
    (h : encodeText text = .ok field) (h' : encodeText text' = .ok field')
    (hsame : field ++ rest = field' ++ rest') : text = text' ∧ rest = rest' := by
  have hread := decodeText_append h rest
  rw [hsame, decodeText_append h'] at hread
  cases hread
  exact ⟨rfl, rfl⟩

theorem Argument.encodeAll_append_inj {as as' : List Argument} {payloads payloads' : Bytes}
    (htags : as.map tag = as'.map tag) (h : encodeAll as = .ok payloads)
    (h' : encodeAll as' = .ok payloads') (hsame : payloads ++ rest = payloads' ++ rest') :
    as = as' ∧ rest = rest' := by
  have hread : decodeAll (as.map tag) (payloads ++ rest) = .ok (as, rest) :=
    decodeAll_eq_ok_iff.2 ⟨rfl, payloads, h, rfl⟩
  rw [hsame, decodeAll_eq_ok_iff.2 ⟨htags.symm, payloads', h', rfl⟩] at hread
  cases hread
  exact ⟨rfl, rfl⟩

theorem Message.map_tag_inj {m m' : Message} (h : m.typetags = m'.typetags) :
    m.arguments.map Argument.tag = m'.arguments.map Argument.tag :=
  (List.cons.inj (String.ofList_injective h)).2

/-- Written messages that begin alike are the same, and so is what follows them. -/
theorem Message.encode_append_inj {m m' : Message} {bytes bytes' : Bytes} (h : m.encode = .ok bytes)
    (h' : m'.encode = .ok bytes') (hsame : bytes ++ rest = bytes' ++ rest') :
    m = m' ∧ rest = rest' := by
  obtain ⟨field, tags, payloads, hfield, htags, hpayloads, rfl⟩ := encode_eq_ok_iff.1 h
  obtain ⟨field', tags', payloads', hfield', htags', hpayloads', rfl⟩ := encode_eq_ok_iff.1 h'
  simp only [List.append_assoc] at hsame
  obtain ⟨haddress, hsame⟩ := encodeText_append_inj hfield hfield' hsame
  obtain ⟨htypetags, hsame⟩ := encodeText_append_inj htags htags' hsame
  obtain ⟨harguments, hrest⟩ :=
    Argument.encodeAll_append_inj (map_tag_inj htypetags) hpayloads hpayloads' hsame
  obtain ⟨address, arguments⟩ := m
  obtain ⟨address', arguments'⟩ := m'
  obtain rfl : address = address' := haddress
  obtain rfl : arguments = arguments' := harguments
  exact ⟨rfl, hrest⟩

namespace Packet

theorem frame_append_inj {element element' : Bytes} (hsize : element.length < UInt32.size)
    (hsize' : element'.length < UInt32.size) (hsame : frame element ++ rest = frame element' ++ rest') :
    element = element' ∧ rest = rest' := by
  simp only [frame, List.append_assoc] at hsame
  obtain ⟨hcount, hsame⟩ := List.append_inj hsame (by simp)
  have hlength := congrArg Bytes.value hcount
  simp only [Bytes.value_ofWord32] at hlength
  rw [UInt32.toNat_ofNat_of_lt' hsize, UInt32.toNat_ofNat_of_lt' hsize'] at hlength
  exact List.append_inj hsame hlength

theorem exists_append_of_frames_append {kept elements : List Bytes}
    (hkept : ∀ e ∈ kept, e.length < UInt32.size) (hsizes : ∀ e ∈ elements, e.length < UInt32.size)
    (hsame : frames kept ++ rest = frames elements) : ∃ lost, elements = kept ++ lost := by
  induction kept generalizing elements with
  | nil => exact ⟨elements, rfl⟩
  | cons e kept ih =>
    rw [List.forall_mem_cons] at hkept
    rw [frames_cons, List.append_assoc] at hsame
    cases elements with
    | nil =>
      have hlength := congrArg List.length hsame
      rw [List.length_append, length_frame, frames_nil, List.length_nil] at hlength
      omega
    | cons first elements =>
      rw [List.forall_mem_cons] at hsizes
      rw [frames_cons] at hsame
      obtain ⟨hfirst, hothers⟩ := frame_append_inj hkept.1 hsizes.1 hsame
      obtain ⟨lost, hlost⟩ := ih hkept.2 hsizes.2 hothers
      exact ⟨lost, by rw [hfirst, hlost, List.cons_append]⟩

end Packet

end

/-! ### What remains -/

namespace Packet

/-- The bytes stand for the first packet, and cut off as said they stand for the second. -/
inductive Remains : Packet → Bytes → Bytes → Packet → Prop where
  /-- A message with type tags is cut off right behind its padded address. -/
  | address {m : Message} {bytes cut : Bytes} (htagged : lacksTypetags bytes = false)
      (hcut : encodeText m.address = .ok cut) :
      Remains (.message m) bytes cut (.message ⟨m.address, []⟩)
  /-- A bundle is cut off right behind its header or behind one of its elements. -/
  | elements (timetag : TimeTag) (kept lost : List (Packet × Bytes))
      (hread : ∀ e ∈ kept ++ lost, Packet.decode e.2 = .ok e.1)
      (hsizes : ∀ e ∈ kept ++ lost, e.2.length < UInt32.size) :
      Remains (.bundle timetag ((kept ++ lost).map Prod.fst))
        (bundleHeader timetag ++ frames ((kept ++ lost).map Prod.snd))
        (bundleHeader timetag ++ frames (kept.map Prod.snd))
        (.bundle timetag (kept.map Prod.fst))

theorem Remains.decode {p q : Packet} {bytes cut : Bytes} (h : Remains p bytes cut q)
    (hread : Packet.decode bytes = .ok p) : Packet.decode cut = .ok q := by
  rw [decode_eq_ok_iff] at hread ⊢
  cases h with
  | @address m _ _ _ hcut =>
    have hvalid := (hread.forall_mem_messages m (by simp)).1
    exact .untagged hvalid hcut
  | elements timetag kept lost hinner hsizes =>
    refine .bundle timetag kept (fun e he => ?_) fun e he => ?_
    · exact decode_eq_ok_iff.1 (hinner e (List.mem_append_left _ he))
    · exact hsizes e (List.mem_append_left _ he)

/-- What is read is never altered: all its messages have been there, in this order and in front of all
others, or it is the address of the one message that was there. -/
theorem Remains.messages {p q : Packet} {bytes cut : Bytes} (h : Remains p bytes cut q) :
    q.messages <+: p.messages ∨ ∃ m, p = .message m ∧ q.messages = [⟨m.address, []⟩] := by
  cases h with
  | address => exact .inr ⟨_, rfl, messages_message _⟩
  | elements timetag kept lost =>
    left
    rw [messages_bundle, messages_bundle, List.map_append, List.flatMap_append]
    exact List.prefix_append _ _

/-! ### Nothing else can be read -/

theorem WireForm.not_startsBundle_append {m : Message} {bytes : Bytes}
    (h : WireForm (.message m) bytes) (rest : Bytes) : ¬ startsBundle (bytes ++ rest) = true := by
  have hvalid := (h.forall_mem_messages m (by simp)).1
  have hbegins : ∃ field tail, encodeText m.address = .ok field ∧ bytes = field ++ tail := by
    cases h with
    | tagged _ hwritten =>
      obtain ⟨field, tags, payloads, hfield, -, -, rfl⟩ := Message.encode_eq_ok_iff.1 hwritten
      exact ⟨field, tags ++ payloads, hfield, rfl⟩
    | untagged _ hwritten => exact ⟨bytes, [], hwritten, (List.append_nil _).symm⟩
  obtain ⟨field, tail, hfield, rfl⟩ := hbegins
  rw [List.append_assoc, startsBundle_encodeText hfield]
  exact ne_marker_of_valid hvalid

theorem exists_remains_of_message {m : Message} {q : Packet} {cut rest : Bytes}
    (hform : WireForm (.message m) (cut ++ rest)) (hcut : WireForm q cut) (hrest : rest ≠ []) :
    ∃ q', Remains (.message m) (cut ++ rest) cut q' := by
  cases hcut with
  | bundle timetag elements =>
    have hstarts := hform.not_startsBundle_append []
    rw [List.append_nil, List.append_assoc] at hstarts
    exact absurd (startsBundle_header _ _) hstarts
  | tagged _ hwritten =>
    -- Neither the message nor an address alone begins with all of another message.
    exfalso
    apply hrest
    cases hform with
    | tagged _ hwhole =>
      exact (Message.encode_append_inj hwritten hwhole (List.append_nil _).symm).2
    | untagged _ hwhole =>
      obtain ⟨field, tags, payloads, hfield, htags, -, rfl⟩ := Message.encode_eq_ok_iff.1 hwritten
      rw [List.append_assoc, List.append_assoc] at hwhole
      obtain ⟨-, hnil⟩ := encodeText_append_inj hfield hwhole (List.append_nil _).symm
      exact absurd hnil (append_ne_nil_of_encodeText htags _)
  | untagged _ hwritten =>
    cases hform with
    | tagged _ hwhole =>
      have htagged := Message.lacksTypetags_of_encode hwhole
      obtain ⟨field, tags, payloads, hfield, -, -, hsame⟩ := Message.encode_eq_ok_iff.1 hwhole
      obtain ⟨rfl, -⟩ := encodeText_append_inj hwritten hfield hsame
      exact ⟨_, .address htagged hwritten⟩
    | untagged _ hwhole =>
      exact absurd (encodeText_append_inj hwritten hwhole (List.append_nil _).symm).2 hrest

theorem exists_remains_of_bundle {timetag : TimeTag} {ps : List Packet} {q : Packet}
    {bytes cut : Bytes} (hform : WireForm (.bundle timetag ps) bytes) (hcut : WireForm q cut)
    (hbegins : cut <+: bytes) : ∃ q', Remains (.bundle timetag ps) bytes cut q' := by
  obtain ⟨rest, hsame⟩ := hbegins
  cases hform with
  | bundle timetag elements hinner hsizes =>
  cases q with
  | message m =>
    have hstarts := hcut.not_startsBundle_append rest
    rw [hsame] at hstarts
    exact absurd (startsBundle_header _ _) hstarts
  | bundle timetag' ps' =>
  cases hcut with
  | bundle timetag' elements' _ hsizes' =>
    rw [List.append_assoc] at hsame
    obtain ⟨hheader, hframes⟩ := List.append_inj hsame (by simp)
    obtain ⟨lost, hlost⟩ := exists_append_of_frames_append (List.forall_mem_map.2 hsizes')
      (List.forall_mem_map.2 hsizes) hframes
    obtain ⟨kept, others, rfl, hkept, -⟩ := List.map_eq_append_iff.1 hlost
    rw [hheader, ← hkept]
    exact ⟨_, .elements timetag kept others (fun e he => (hinner e he).decode) hsizes⟩

theorem decode_eq_ok_iff_remains {p q : Packet} {bytes cut : Bytes}
    (hread : Packet.decode bytes = .ok p) (hbegins : cut <+: bytes) (hcut : cut ≠ bytes) :
    Packet.decode cut = .ok q ↔ Remains p bytes cut q := by
  apply Iff.intro _ fun h => h.decode hread
  intro hq
  have hform := wireForm_of_decode hread
  have hremains : ∃ q', Remains p bytes cut q' := by
    cases p with
    | message m =>
      obtain ⟨rest, rfl⟩ := hbegins
      have hrest : rest ≠ [] := by
        intro hnil
        rw [hnil, List.append_nil] at hcut
        exact hcut rfl
      exact exists_remains_of_message hform (wireForm_of_decode hq) hrest
    | bundle timetag ps => exact exists_remains_of_bundle hform (wireForm_of_decode hq) hbegins
  -- What remains is read as such, so it is what has been read.
  obtain ⟨q', hremains⟩ := hremains
  rw [hremains.decode hread] at hq
  cases hq
  exact hremains

/-- Of bytes that can be read, a part from the front that is not all of them is read as what remains of
the packet, and if nothing remains it is refused: the cut must be right behind the address of a message
that has type tags, or right behind the header or a top-level element of a bundle. So whatever a
datagram brings that was cut off on arrival, its messages have been sent like this, but for a single
message that may have lost its arguments. -/
theorem decode_cut {bytes : Bytes} {p : Packet} (hread : Packet.decode bytes = .ok p) :
    (∀ cut, cut <+: bytes → cut ≠ bytes →
      (∀ q, Packet.decode cut = .ok q ↔ Remains p bytes cut q) ∧
        ((∃ e, Packet.decode cut = .error e) ↔ ∀ q, ¬ Remains p bytes cut q)) ∧
    ∀ closes limit, limit < bytes.length →
      (Receive.datagram closes bytes).messages limit <+: p.messages ∨
        ∃ m, p = .message m ∧
          (Receive.datagram closes bytes).messages limit = [⟨m.address, []⟩] := by
  refine ⟨fun cut hbegins hcut => ?_, fun closes limit hlimit => ?_⟩
  · refine ⟨fun q => decode_eq_ok_iff_remains hread hbegins hcut, ?_⟩
    rw [exists_eq_error_iff, not_exists]
    exact forall_congr' fun q => not_congr (decode_eq_ok_iff_remains hread hbegins hcut)
  · have hcut : bytes.take limit ≠ bytes := by
      intro hsame
      have hlength := congrArg List.length hsame
      rw [List.length_take] at hlength
      omega
    rcases Receive.messages_datagram_cases limit closes bytes with hnone | ⟨q, hdecode, hmessages⟩
    · rw [hnone]
      exact .inl List.nil_prefix
    · rw [hmessages]
      have hremains := (decode_eq_ok_iff_remains hread (List.take_prefix _ _) hcut).1 hdecode
      exact hremains.messages

def volume : Packet × Bytes :=
  (.message ⟨"/y", [.int 9]⟩, [0x2F, 0x79, 0, 0, 0x2C, 0x69, 0, 0, 0, 0, 0, 9])

/-- A bundle with nothing but this message, and its bytes. -/
def fader : Packet × Bytes :=
  (.bundle ⟨7, 8⟩ ([volume].map Prod.fst), bundleHeader ⟨7, 8⟩ ++ frames ([volume].map Prod.snd))

/-- The message loses its argument, the bundle of both the inner bundle. -/
theorem decode_cut_fader :
    Packet.decode volume.2 = .ok volume.1 ∧
      Packet.decode (volume.2.take 4) = .ok (.message ⟨"/y", []⟩) ∧
      ∃ bytes, Packet.decode bytes = .ok (.bundle .immediate [volume.1, fader.1]) ∧
        bytes.take 32 <+: bytes ∧ bytes.take 32 ≠ bytes ∧
        Packet.decode (bytes.take 32) = .ok (.bundle .immediate [volume.1]) := by
  have hvolume : WireForm volume.1 volume.2 := .tagged (by decide) (by decide)
  have hfader : WireForm fader.1 fader.2 := .bundle ⟨7, 8⟩ [volume] (by simpa) (by decide)
  have hinner : ∀ e ∈ [volume] ++ [fader], WireForm e.1 e.2 :=
    List.forall_mem_cons.2 ⟨hvolume, List.forall_mem_singleton.2 hfader⟩
  have hboth := WireForm.bundle .immediate ([volume] ++ [fader]) hinner (by decide)
  have haddress : Remains volume.1 volume.2 (volume.2.take 4) (.message ⟨"/y", []⟩) :=
    .address (by decide) (by decide)
  have helements := Remains.elements .immediate [volume] [fader] (fun e he => (hinner e he).decode)
    (by decide)
  refine ⟨hvolume.decode, ?_, _, hboth.decode, List.take_prefix _ _, by decide, ?_⟩
  · exact (((decode_cut hvolume.decode).1 _ (List.take_prefix _ _) (by decide)).1 _).2 haddress
  · exact (((decode_cut hboth.decode).1 _ (List.take_prefix _ _) (by decide)).1 _).2 helements

end Packet

end OpenSound
