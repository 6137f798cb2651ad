import OpenSound.Proofs.WireForm
/-!
# What hostile bytes are refused for

Bytes that cannot be read are malformed, with one exception: a type tag that nobody knows is reported as
such, since the width of its payload is unknown and nothing behind it can be read. `Packet.StopsAt` says
when reading comes that far. Everything in front of the tag's payload is in order, down to the sizes of
the elements that the message stands in, and behind it only the number of bytes matters. Reading stops
nowhere else for a tag (`Packet.malformed_or_stopsAt`), so the two kinds of fault are told apart by the
bytes in front of the first one.
-/

namespace OpenSound

/-! ### Arguments -/

namespace Argument

variable {bytes : Bytes} {e : Error}

theorem decode_of_unknown {tag : Char} (hunknown : ∀ t : TypeTag, t.toChar ≠ tag) (bytes : Bytes) :
    decode tag bytes = (.error (.invalidTypeTag tag), bytes) := by
  have hnone : TypeTag.ofChar? tag = none := by
    rw [Option.eq_none_iff_forall_ne_some]
    intro t ht
    exact hunknown t (TypeTag.toChar_of_ofChar? ht)
  rw [decode, hnone]

theorem malformed_or_unknown_of_decode {tag : Char} {rest : Bytes}
    (h : decode tag bytes = (.error e, rest)) :
    (∃ fault, e = .malformedPacket fault) ∨
      e = .invalidTypeTag tag ∧ ∀ t : TypeTag, t.toChar ≠ tag := by
  unfold decode at h
  split at h
  · rename_i hnone
    cases h
    refine .inr ⟨rfl, fun t ht => ?_⟩
    rw [TypeTag.ofChar?_eq_some_iff.2 ht] at hnone
    cases hnone
  · obtain ⟨fault, -, hfault⟩ := mapError_eq_error_iff.1 (Prod.ext_iff.1 h).1
    exact .inl ⟨fault, hfault.symm⟩

theorem decodeAll_append {as : List Argument} {payloads : Bytes} (h : encodeAll as = .ok payloads)
    (tags : List Char) (rest : Bytes) :
    decodeAll (as.map tag ++ tags) (payloads ++ rest) =
      (fun read => (as ++ read.1, read.2)) <$> decodeAll tags rest := by
  induction as generalizing payloads with
  | nil =>
    cases h
    rw [List.map_nil, List.nil_append, List.nil_append]
    cases decodeAll tags rest <;> rfl
  | cons a as ih =>
    obtain ⟨front, back, hfront, hback, rfl⟩ := encodeAll_cons_eq_ok_iff.1 h
    have hfirst : decode a.tag (front ++ (back ++ rest)) = (.ok a, back ++ rest) :=
      decode_eq_ok_iff.2 ⟨rfl, front, hfront, rfl⟩
    rw [List.append_assoc, List.map_cons, List.cons_append, decodeAll, hfirst]
    simp only [ih hback]
    cases decodeAll tags rest <;> rfl

theorem malformed_or_unknown_of_decodeAll {tags : List Char} (h : decodeAll tags bytes = .error e) :
    (∃ fault, e = .malformedPacket fault) ∨
      ∃ c before after payloads unread, e = .invalidTypeTag c ∧ (∀ t : TypeTag, t.toChar ≠ c) ∧
        tags = before.map tag ++ c :: after ∧ encodeAll before = .ok payloads ∧
        bytes = payloads ++ unread := by
  induction tags generalizing bytes with
  | nil => cases h
  | cons tag tags ih =>
    unfold decodeAll at h
    split at h
    · rename_i first rest hfirst
      cases h
      rcases malformed_or_unknown_of_decode hfirst with hmalformed | ⟨rfl, hunknown⟩
      · exact .inl hmalformed
      · exact .inr ⟨tag, [], tags, [], bytes, rfl, hunknown, rfl, rfl, rfl⟩
    · rename_i a rest hfirst
      obtain ⟨rfl, front, hfront, rfl⟩ := decode_eq_ok_iff.1 hfirst
      split at h
      · rename_i fault hothers
        cases h
        rcases ih hothers with hmalformed |
          ⟨c, before, after, payloads, unread, rfl, hunknown, rfl, hpayloads, rfl⟩
        · exact .inl hmalformed
        · have hall := encodeAll_cons_eq_ok_iff.2 ⟨front, payloads, hfront, hpayloads, rfl⟩
          exact .inr ⟨c, a :: before, after, front ++ payloads, unread, rfl, hunknown, rfl, hall,
            (List.append_assoc _ _ _).symm⟩
      · cases h

end Argument

/-- Type tags with an unknown one among them. -/
def unknownTags (before : List Argument) (c : Char) (after : List Char) : String :=
  String.ofList (',' :: (before.map Argument.tag ++ c :: after))

theorem decodeArguments_of_unknown {c : Char} {before : List Argument} {after : List Char}
    {payloads : Bytes} (hunknown : ∀ t : TypeTag, t.toChar ≠ c)
    (hpayloads : Argument.encodeAll before = .ok payloads) (unread : Bytes) :
    decodeArguments (unknownTags before c after) (payloads ++ unread) =
      .error (.invalidTypeTag c) := by
  have hread : Argument.decodeAll (before.map Argument.tag ++ c :: after) (payloads ++ unread) =
      .error (.invalidTypeTag c) := by
    rw [Argument.decodeAll_append hpayloads, Argument.decodeAll,
      Argument.decode_of_unknown hunknown, map_error]
  unfold decodeArguments
  simp only [unknownTags, String.toList_ofList, hread, error_bind]

theorem malformed_or_unknown_of_decodeArguments {typetags : String} {bytes : Bytes} {e : Error}
    (h : decodeArguments typetags bytes = .error e) :
    (∃ fault, e = .malformedPacket fault) ∨
      ∃ c before after payloads unread, e = .invalidTypeTag c ∧ (∀ t : TypeTag, t.toChar ≠ c) ∧
        typetags = unknownTags before c after ∧ Argument.encodeAll before = .ok payloads ∧
        bytes = payloads ++ unread := by
  unfold decodeArguments at h
  split at h
  · rename_i tags htypetags
    rcases bind_eq_error_iff.1 h with hread | ⟨⟨arguments, rest⟩, -, h⟩
    · rcases Argument.malformed_or_unknown_of_decodeAll hread with hmalformed |
        ⟨c, before, after, payloads, unread, rfl, hunknown, rfl, hpayloads, rfl⟩
      · exact .inl hmalformed
      · have hsame : typetags = unknownTags before c after := by
          rw [unknownTags, ← htypetags, String.ofList_toList]
        exact .inr ⟨c, before, after, payloads, unread, rfl, hunknown, hsame, hpayloads, rfl⟩
    · dsimp only at h
      split at h
      · cases h
      · cases h
        exact .inl ⟨_, rfl⟩
  · cases h
    exact .inl ⟨_, rfl⟩

/-! ### Where reading stops -/

namespace Packet

/-- Reading is in order up to the end of these bytes, where it needs the payload of the tag character,
which is unknown. As many bytes as said come after them. -/
inductive StopsAt (c : Char) : Bytes → Nat → Prop where
  /-- The message has a size, an address and type tags as they should be, and the payloads of the tags
  in front of the unknown one can be read. -/
  | message {address : String} {before : List Argument} {after : List Char}
      {field tags payloads : Bytes} {unread : Nat} (hvalid : Address.Valid address)
      (haddress : encodeText address = .ok field)
      (htags : encodeText (unknownTags before c after) = .ok tags)
      (hunknown : ∀ t : TypeTag, t.toChar ≠ c)
      (hpayloads : Argument.encodeAll before = .ok payloads)
      (haligned : 4 ∣ (field ++ (tags ++ payloads)).length + unread) :
      StopsAt c (field ++ (tags ++ payloads)) unread
  /-- The elements in front can be read, and the size of the one where reading stops is as it should
  be. It does not matter what stands behind that one. -/
  | bundle (timetag : TimeTag) (elements : List (Packet × Bytes)) {read : Bytes} {unread : Nat}
      (others : Nat) (hread : ∀ e ∈ elements, Packet.decode e.2 = .ok e.1)
      (hsizes : ∀ e ∈ elements, e.2.length < UInt32.size) (hinner : StopsAt c read unread)
      (haligned : 4 ∣ read.length + unread) (hsize : read.length + unread < UInt32.size) :
      StopsAt c
        (bundleHeader timetag ++ (frames (elements.map Prod.snd) ++
          (Bytes.ofWord32 (UInt32.ofNat (read.length + unread)) ++ read)))
        (unread + others)

/-! ### Reading does stop there -/

theorem StopsAt.decode {c : Char} {read : Bytes} {count : Nat} (h : StopsAt c read count)
    {unread : Bytes} (hcount : unread.length = count) :
    Packet.decode (read ++ unread) = .error (.invalidTypeTag c) := by
  induction h generalizing unread with
  | @message address before after field tags payloads count hvalid haddress htags hunknown hpayloads
      haligned =>
    have hne := append_ne_nil_of_encodeText haddress (tags ++ payloads ++ unread)
    have hstarts : startsBundle (field ++ (tags ++ payloads ++ unread)) = false := by
      rw [← Bool.not_eq_true, startsBundle_encodeText haddress]
      exact ne_marker_of_valid hvalid
    have hsize : (field ++ (tags ++ payloads ++ unread)).length % 4 = 0 := by
      simp only [List.length_append] at haligned ⊢
      omega
    rw [List.append_assoc, decode_of_not_startsBundle hne hstarts]
    unfold Message.decode
    rw [if_neg (not_not.2 hsize), decodeText_append haddress]
    simp only [mapError_ok, ok_bind, Address.validate_eq_ok_iff.2 hvalid, List.append_assoc,
      if_neg (append_ne_nil_of_encodeText htags (payloads ++ unread)), decodeText_append htags,
      decodeArguments_of_unknown hunknown hpayloads, error_bind, map_error]
  | @bundle timetag elements read count others hread hsizes hinner haligned hsize ih =>
    have hfront : (unread.take count).length = count := by
      rw [List.length_take]
      omega
    have hforms : ∀ e ∈ elements, WireForm e.1 e.2 := fun e he => wireForm_of_decode (hread e he)
    have helement : Bytes.ofWord32 (UInt32.ofNat (read.length + count)) ++ (read ++ unread) =
        frame (read ++ unread.take count) ++ unread.drop count := by
      rw [frame, List.length_append, hfront]
      simp only [List.append_assoc, List.take_append_drop]
    have hne : read ++ unread.take count ≠ [] := by
      intro hnil
      have hread := ih hfront
      rw [hnil] at hread
      cases hread
    simp only [List.append_assoc] at helement ⊢
    rw [helement, decode_header, parseElements_frames hread (fun e he => (hforms e he).ne_nil)
      (fun e he => (hforms e he).four_dvd_length) hsizes,
      parseElements_frame hne (by rw [List.length_append, hfront]; exact haligned)
      (by rw [List.length_append, hfront]; exact hsize), ih hfront]
    rfl

/-! ### Reading stops nowhere else -/

/-- What fails among the elements of a bundle is the size of one, or one read as a packet, and those in
front of it are read. -/
theorem exists_frames_of_parseElements_eq_error {bytes : Bytes} {e : Error}
    (h : parseElements bytes = .error e) :
    ∃ (elements : List (Packet × Bytes)) (rest : Bytes),
      bytes = frames (elements.map Prod.snd) ++ rest ∧
      (∀ e ∈ elements, Packet.decode e.2 = .ok e.1) ∧
      (∀ e ∈ elements, e.2.length < UInt32.size) ∧
      ((∃ fault, splitElement rest = .error fault ∧ e = .malformedPacket fault) ∨
        ∃ element others, splitElement rest = .ok (element, others) ∧
          Packet.decode element = .error e) := by
  induction hlength : bytes.length using Nat.strongRecOn generalizing bytes with
  | ind length ih =>
  subst hlength
  have hbytes : bytes ≠ [] := by
    intro hnil
    rw [hnil, parseElements, if_pos rfl] at h
    cases h
  cases hsplit : splitElement bytes with
  | error fault =>
    rw [parseElements_of_ne_nil hbytes, hsplit] at h
    cases h
    exact ⟨[], bytes, rfl, by simp, by simp, .inl ⟨fault, hsplit, rfl⟩⟩
  | ok split =>
    obtain ⟨element, rest⟩ := split
    obtain ⟨hne, haligned, hsize, rfl⟩ := splitElement_eq_ok_iff.1 hsplit
    rw [parseElements_frame hne haligned hsize] at h
    rcases bind_eq_error_iff.1 h with hfirst | ⟨p, hp, h⟩
    · exact ⟨[], _, rfl, by simp, by simp, .inr ⟨element, rest, hsplit, hfirst⟩⟩
    rcases bind_eq_error_iff.1 h with hothers | ⟨_, _, h⟩
    · have hshorter : rest.length < (frame element ++ rest).length := by
        rw [List.length_append, length_frame]
        omega
      obtain ⟨elements, rest', rfl, hread, hsizes, hfails⟩ := ih rest.length hshorter hothers rfl
      refine ⟨(p, element) :: elements, rest', ?_, List.forall_mem_cons.2 ⟨hp, hread⟩,
        List.forall_mem_cons.2 ⟨hsize, hsizes⟩, hfails⟩
      rw [List.map_cons, frames_cons, List.append_assoc]
    · cases h

end Packet

theorem malformed_of_mapError {ε α : Type} {x : Except ε α} {make : ε → PacketFault} {e : Error}
    (h : x.mapError (fun fault => .malformedPacket (make fault)) = .error e) :
    ∃ fault, e = .malformedPacket fault := by
  obtain ⟨fault, -, rfl⟩ := mapError_eq_error_iff.1 h
  exact ⟨make fault, rfl⟩

theorem Message.malformed_or_stopsAt {bytes : Bytes} {e : Error}
    (h : Message.decode bytes = .error e) :
    (∃ fault, e = .malformedPacket fault) ∨
      ∃ c read unread, e = .invalidTypeTag c ∧ bytes = read ++ unread ∧
        Packet.StopsAt c read unread.length := by
  unfold Message.decode at h
  split at h
  · cases h
    exact .inl ⟨_, rfl⟩
  rename_i haligned
  rcases bind_eq_error_iff.1 h with haddress | ⟨⟨address, rest⟩, haddress, h⟩
  · exact .inl (malformed_of_mapError haddress)
  rcases bind_eq_error_iff.1 h with hvalidate | ⟨_, hvalidate, h⟩
  · exact .inl (malformed_of_mapError hvalidate)
  dsimp only at h
  split at h
  · cases h
  rcases bind_eq_error_iff.1 h with htypetags | ⟨⟨typetags, bytes'⟩, htypetags, h⟩
  · exact .inl (malformed_of_mapError htypetags)
  rcases bind_eq_error_iff.1 h with harguments | ⟨_, _, h⟩
  · rcases malformed_or_unknown_of_decodeArguments harguments with hmalformed |
      ⟨c, before, after, payloads, unread, rfl, hunknown, rfl, hpayloads, rfl⟩
    · exact .inl hmalformed
    · have hvalid := Address.validate_eq_ok_iff.1 (mapError_eq_ok_iff.1 hvalidate)
      obtain ⟨field, hfield, rfl⟩ := decodeText_eq_ok_iff.1 (mapError_eq_ok_iff.1 haddress)
      obtain ⟨tags, htags, rfl⟩ := decodeText_eq_ok_iff.1 (mapError_eq_ok_iff.1 htypetags)
      refine .inr ⟨c, field ++ (tags ++ payloads), unread, rfl, by simp only [List.append_assoc],
        .message hvalid hfield htags hunknown hpayloads ?_⟩
      simp only [List.length_append] at haligned ⊢
      omega
  · cases h

namespace Packet

theorem malformed_or_stopsAt {bytes : Bytes} {e : Error} (h : Packet.decode bytes = .error e) :
    (∃ fault, e = .malformedPacket fault) ∨
      ∃ c read unread, e = .invalidTypeTag c ∧ bytes = read ++ unread ∧
        StopsAt c read unread.length := by
  induction hlength : bytes.length using Nat.strongRecOn generalizing bytes with
  | ind length ih =>
  subst hlength
  by_cases hne : bytes = []
  · rw [hne] at h
    cases h
    exact .inl ⟨_, rfl⟩
  cases hstarts : startsBundle bytes with
  | false =>
    rw [decode_of_not_startsBundle hne hstarts, map_eq_error_iff] at h
    exact Message.malformed_or_stopsAt h
  | true =>
  cases hheader : splitHeader bytes with
  | error fault =>
    unfold Packet.decode at h
    rw [if_neg hne, if_pos hstarts, Bundle.decode_eq_parse, Bundle.parse, hheader] at h
    cases h
    exact .inl ⟨fault, rfl⟩
  | ok header =>
    obtain ⟨timetag, body⟩ := header
    obtain rfl := splitHeader_eq_ok_iff.1 hheader
    rw [decode_header, map_eq_error_iff] at h
    obtain ⟨elements, rest, rfl, hread, hsizes, ⟨fault, -, rfl⟩ | ⟨element, others, hsplit, hinner⟩⟩ :=
      exists_frames_of_parseElements_eq_error h
    · exact .inl ⟨fault, rfl⟩
    obtain ⟨-, haligned, hsize, rfl⟩ := splitElement_eq_ok_iff.1 hsplit
    have hshorter : element.length <
        (bundleHeader timetag ++ (frames (elements.map Prod.snd) ++ (frame element ++ others))).length := by
      simp only [List.length_append, length_frame]
      omega
    rcases ih element.length hshorter hinner rfl with hmalformed | ⟨c, read, unread, rfl, rfl, hstops⟩
    · exact .inl hmalformed
    rw [List.length_append] at haligned hsize
    have hbundle := hstops.bundle timetag elements others.length hread hsizes haligned hsize
    have hunread : (unread ++ others).length = unread.length + others.length := List.length_append
    rw [← hunread] at hbundle
    refine .inr ⟨c, _, unread ++ others, rfl, ?_, hbundle⟩
    simp only [frame, List.length_append, List.append_assoc]

/-- Bytes that cannot be read are malformed or hold an unknown type tag, and the tag is reported exactly
if everything in front of its payload is in order. What stands behind that point, be it payloads of the
same message or other elements, has no influence then: other bytes in its place are refused for the same
tag. -/
theorem decode_error_iff_stopsAt (bytes : Bytes) :
    (∀ e, Packet.decode bytes = .error e →
      (∃ fault, e = .malformedPacket fault) ∨ ∃ c, e = .invalidTypeTag c) ∧
    (∀ c, Packet.decode bytes = .error (.invalidTypeTag c) ↔
      ∃ read unread, bytes = read ++ unread ∧ StopsAt c read unread.length) ∧
    ∀ c read unread, bytes = read ++ unread → StopsAt c read unread.length →
      ∀ others : Bytes, others.length = unread.length →
        Packet.decode (read ++ others) = Packet.decode bytes := by
  refine ⟨fun e h => ?_, fun c => ⟨fun h => ?_, fun h => ?_⟩, ?_⟩
  · rcases malformed_or_stopsAt h with hmalformed | ⟨c, -, -, rfl, -⟩
    · exact .inl hmalformed
    · exact .inr ⟨c, rfl⟩
  · rcases malformed_or_stopsAt h with ⟨fault, hfault⟩ | ⟨c', read, unread, hsame, hbytes, hstops⟩
    · cases hfault
    · cases hsame
      exact ⟨read, unread, hbytes, hstops⟩
  · obtain ⟨read, unread, rfl, hstops⟩ := h
    exact hstops.decode rfl
  · intro c read unread hbytes hstops others hothers
    rw [hbytes, hstops.decode rfl, hstops.decode hothers]

/-- The front of a message with the type tags `,iQs`, of which only the first announces a payload that
can be found. -/
def crypticMessage : Bytes := [0x2F, 0x79, 0, 0, 0x2C, 0x69, 0x51, 0x73, 0, 0, 0, 0, 0, 0, 0, 9]

/-- The front of a bundle that holds this message, four bytes longer, behind another. -/
def cryptic : Bytes :=
  bundleHeader .immediate ++ (frames [[0x2F, 0x78, 0, 0]] ++
    (Bytes.ofWord32 (UInt32.ofNat 20) ++ crypticMessage))

/-- Behind the front stand the last four bytes of the message and three more. -/
theorem decode_error_cryptic :
    StopsAt 'Q' cryptic 7 ∧
      Packet.decode (cryptic ++ [0x2F, 0x7A, 0, 0, 0, 0, 0]) = .error (.invalidTypeTag 'Q') ∧
      Packet.decode (cryptic ++ [0xFF, 0xFF, 0xFF, 0xFF, 0xFF, 0xFF, 0xFF]) =
        .error (.invalidTypeTag 'Q') := by
  have hx : Packet.decode [0x2F, 0x78, 0, 0] = .ok (.message ⟨"/x", []⟩) :=
    (WireForm.untagged (by decide) (by decide)).decode
  have hq : ∀ t : TypeTag, t.toChar ≠ 'Q' := by
    intro t
    cases t <;> decide
  have hmessage : StopsAt 'Q' crypticMessage 4 :=
    @StopsAt.message 'Q' "/y" [.int 9] ['s'] [0x2F, 0x79, 0, 0] [0x2C, 0x69, 0x51, 0x73, 0, 0, 0, 0]
      [0, 0, 0, 9] 4 (by decide) (by decide) (by decide) hq (by decide) (by decide)
  have hstops := hmessage.bundle .immediate [(.message ⟨"/x", []⟩, [0x2F, 0x78, 0, 0])] 3
    (List.forall_mem_singleton.2 hx) (by decide) (by decide) (by decide)
  obtain ⟨-, hunknown, hothers⟩ :=
    decode_error_iff_stopsAt (cryptic ++ [0x2F, 0x7A, 0, 0, 0, 0, 0])
  have hread := (hunknown 'Q').2 ⟨cryptic, _, rfl, hstops⟩
  have hsame := hothers 'Q' cryptic _ rfl hstops [0xFF, 0xFF, 0xFF, 0xFF, 0xFF, 0xFF, 0xFF] rfl
  exact ⟨hstops, hread, hsame.trans hread⟩

end Packet

end OpenSound
