import OpenSound.Proofs.WireForm
/-!
# Three readers

There is a reader for messages, one for bundles, and one for packets, which looks at the first eight
bytes and leaves the rest to one of the others. The reader of messages does not know of the marker, and
the reader of bundles does not look at the length, so what each accepts is compared with the wire forms.
The bytes that the reader of messages takes are forms of messages, since the marker read as an address
is none, and those that the reader of bundles takes are forms of bundles, since it insists on the marker.
Between the three there is then no more to compare.
-/

namespace OpenSound

open Packet (WireForm)

theorem Message.decode_eq_ok_iff {bytes : Bytes} {m : Message} :
    Message.decode bytes = .ok m ↔ WireForm (.message m) bytes := by
  apply Iff.intro
  · intro h
    obtain ⟨hvalid, hwritten | ⟨hnone, hwritten⟩⟩ := written_of_decode h
    · exact .tagged hvalid hwritten
    · obtain ⟨address, arguments⟩ := m
      subst hnone
      exact .untagged hvalid hwritten
  · intro h
    cases h with
    | tagged hvalid hwritten => exact decode_of_encode hvalid hwritten
    | untagged hvalid hwritten => exact decode_of_encodeText hvalid hwritten

theorem Packet.decode_of_startsBundle {bytes : Bytes} (h : startsBundle bytes = true) :
    Packet.decode bytes = Bundle.toPacket <$> Bundle.decode bytes := by
  have hne : bytes ≠ [] := by
    intro hnil
    rw [hnil] at h
    cases h
  rw [Packet.decode, if_neg hne, if_pos h]

theorem Packet.WireForm.startsBundle_eq_true {timetag : TimeTag} {ps : List Packet} {bytes : Bytes}
    (h : WireForm (.bundle timetag ps) bytes) : startsBundle bytes = true := by
  cases h
  exact startsBundle_header timetag _

theorem Bundle.startsBundle_of_decode {bytes : Bytes} {b : Bundle} (h : Bundle.decode bytes = .ok b) :
    startsBundle bytes = true := by
  unfold Bundle.decode at h
  split at h
  · cases h
  · rename_i timetag body hheader
    rw [splitHeader_eq_ok_iff.1 hheader]
    exact startsBundle_header timetag body

theorem Bundle.toPacket_inj {b b' : Bundle} (h : b.toPacket = b'.toPacket) : b = b' := by
  cases b
  cases b'
  cases h
  rfl

theorem Bundle.decode_eq_ok_iff {bytes : Bytes} {b : Bundle} :
    Bundle.decode bytes = .ok b ↔ WireForm b.toPacket bytes := by
  rw [← Packet.decode_eq_ok_iff]
  apply Iff.intro
  · intro h
    rw [Packet.decode_of_startsBundle (startsBundle_of_decode h), h]
    rfl
  · intro h
    have hstarts := (Packet.wireForm_of_decode h).startsBundle_eq_true
    rw [Packet.decode_of_startsBundle hstarts, map_eq_ok_iff] at h
    obtain ⟨b', hread, hsame⟩ := h
    rw [hread, toPacket_inj hsame]

/-- The reader of packets gives a message exactly if the reader of messages does, and a bundle exactly
if the reader of bundles does, the same each time. No bytes are both a message and a bundle, and all
bytes that can be read are some positive number of words long. -/
theorem Packet.decode_agrees (bytes : Bytes) :
    (∀ m, Packet.decode bytes = .ok (.message m) ↔ Message.decode bytes = .ok m) ∧
    (∀ b : Bundle, Packet.decode bytes = .ok b.toPacket ↔ Bundle.decode bytes = .ok b) ∧
    ¬ ((∃ m, Message.decode bytes = .ok m) ∧ ∃ b, Bundle.decode bytes = .ok b) ∧
    ∀ p, Packet.decode bytes = .ok p → 0 < bytes.length ∧ 4 ∣ bytes.length := by
  have hmessage : ∀ m, Packet.decode bytes = .ok (.message m) ↔ Message.decode bytes = .ok m :=
    fun m => Packet.decode_eq_ok_iff.trans Message.decode_eq_ok_iff.symm
  have hbundle : ∀ b : Bundle, Packet.decode bytes = .ok b.toPacket ↔ Bundle.decode bytes = .ok b :=
    fun b => Packet.decode_eq_ok_iff.trans Bundle.decode_eq_ok_iff.symm
  refine ⟨hmessage, hbundle, fun hboth => ?_, fun p h => ?_⟩
  · obtain ⟨⟨m, hm⟩, b, hb⟩ := hboth
    have hsame := (hmessage m).2 hm
    rw [(hbundle b).2 hb] at hsame
    cases hsame
  · have hform := wireForm_of_decode h
    exact ⟨List.length_pos_iff.2 hform.ne_nil, hform.four_dvd_length⟩

theorem Packet.decode_agrees_shortest :
    (Message.decode [0x2F, 0, 0, 0] = .ok ⟨"/", []⟩ ∧
      (¬ ∃ b, Bundle.decode [0x2F, 0, 0, 0] = .ok b) ∧ 4 ∣ [0x2F, 0, 0, 0].length) ∧
    Bundle.decode (bundleHeader .immediate) = .ok ⟨.immediate, []⟩ ∧
      (¬ ∃ m, Message.decode (bundleHeader .immediate) = .ok m) ∧
      4 ∣ (bundleHeader .immediate).length := by
  have hmessage : WireForm (.message ⟨"/", []⟩) [0x2F, 0, 0, 0] := .untagged (by decide) (by decide)
  have hbundle : WireForm (Bundle.toPacket ⟨.immediate, []⟩) (bundleHeader .immediate) := by
    have hform := WireForm.bundle .immediate [] (by simp) (by simp)
    rwa [List.map_nil, List.map_nil, frames_nil, List.append_nil] at hform
  obtain ⟨hm, -, hnotboth, hlength⟩ := decode_agrees [0x2F, 0, 0, 0]
  obtain ⟨-, hb, hnotboth', hlength'⟩ := decode_agrees (bundleHeader .immediate)
  have hread := (hm _).1 hmessage.decode
  have hread' := (hb _).1 hbundle.decode
  exact ⟨⟨hread, fun h => hnotboth ⟨⟨_, hread⟩, h⟩, (hlength _ hmessage.decode).2⟩,
    hread', fun h => hnotboth' ⟨h, _, hread'⟩, (hlength' _ hbundle.decode).2⟩

end OpenSound
