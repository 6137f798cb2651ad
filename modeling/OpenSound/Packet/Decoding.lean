import OpenSound.Packet.Encoding
import OpenSound.Address
/-!
# Reading packets

Bytes that begin with the marker are a bundle, all others a message. The reader of bundles keeps the
ones it is inside of on a stack, so that no datagram can exhaust the machine by nesting; every step
either takes an element off the unread bytes or leaves a bundle. `Bundle.parse` reads the same format
by recursion.
-/

namespace OpenSound

/-! ### Messages -/

/-- Reads the payloads that the type tags announce, up to the end of the bytes. -/
def decodeArguments (typetags : String) (payloads : Bytes) : Except Error (List Argument) :=
  match typetags.toList with
  | ',' :: tags => do
    let (arguments, rest) ← Argument.decodeAll tags payloads
    if rest = [] then .ok arguments
    else .error (.malformedPacket (.trailing rest.length typetags))
  | _ => .error (.malformedPacket (.missingComma typetags))

/-- Reads one message. Bytes that end after the address stand for a message without arguments: some
senders leave the type tags out. -/
def Message.decode (bytes : Bytes) : Except Error Message :=
  if bytes.length % 4 ≠ 0 then .error (.malformedPacket (.messageSize bytes.length))
  else do
    let (address, rest) ← (decodeText bytes).mapError .malformedPacket
    (Address.validate address).mapError fun fault => .malformedPacket (.address fault)
    if rest = [] then .ok ⟨address, []⟩
    else do
      let (typetags, payloads) ← (decodeText rest).mapError .malformedPacket
      let arguments ← decodeArguments typetags payloads
      .ok ⟨address, arguments⟩

/-! ### Bundles -/

def startsBundle (bytes : Bytes) : Bool := bundleMarker.isPrefixOf bytes

/-- Takes the marker and the time tag off a bundle. -/
def splitHeader (bytes : Bytes) : Except PacketFault (TimeTag × Bytes) :=
  if bytes.length < 16 then .error (.short .bundleHeader 16 bytes.length)
  else if startsBundle bytes then
    .ok (TimeTag.decode ((bytes.drop 8).take 8), bytes.drop 16)
  else .error .missingMarker

def splitElement (bytes : Bytes) : Except PacketFault (Bytes × Bytes) :=
  match bytes.split? 4 with
  | none => .error (.short .elementSize 4 bytes.length)
  | some (word, body) =>
    let size := word.value
    if size % 4 ≠ 0 then .error (.elementSize size)
    else match body.split? size with
      | none => .error (.short .element size body.length)
      | some (element, rest) => if element = [] then .error .emptyElement else .ok (element, rest)

theorem length_of_splitHeader {bytes rest : Bytes} {timetag : TimeTag}
    (h : splitHeader bytes = .ok (timetag, rest)) : rest.length + 16 = bytes.length := by
  unfold splitHeader at h
  split at h
  · cases h
  split at h
  · cases h
    simp only [List.length_drop]
    omega
  · cases h

theorem length_of_splitElement {bytes element rest : Bytes}
    (h : splitElement bytes = .ok (element, rest)) :
    4 + element.length + rest.length = bytes.length := by
  unfold splitElement at h
  split at h
  · cases h
  rename_i word body hword
  obtain ⟨hlength, rfl⟩ := Bytes.split?_eq_some_iff.1 hword
  dsimp only at h
  split at h
  · cases h
  split at h
  · cases h
  rename_i front rest' hbody
  obtain ⟨_, rfl⟩ := Bytes.split?_eq_some_iff.1 hbody
  split at h
  · cases h
  cases h
  simp only [List.length_append]
  omega

/-- A bundle whose elements are being read: those read so far, the latest first, and the unread
bytes. -/
structure OpenBundle where
  timetag : TimeTag
  read : List Packet
  rest : Bytes

namespace OpenBundle

/-- The bundle, once nothing is left to read. -/
def finish (b : OpenBundle) : Bundle := ⟨b.timetag, b.read.reverse⟩

def push (b : OpenBundle) (p : Packet) : OpenBundle := { b with read := p :: b.read }

/-- What bounds the work left: every unread byte, and one step to leave each bundle. -/
def work : List OpenBundle → Nat
  | [] => 0
  | b :: bs => b.rest.length + 1 + work bs

end OpenBundle

/-- Reads on in the current bundle, inside the bundles that enclose it. -/
def decodeOpen (current : OpenBundle) (enclosing : List OpenBundle) : Except Error Bundle :=
  if current.rest = [] then
    match enclosing with
    | [] => .ok current.finish
    | outer :: enclosing => decodeOpen (outer.push current.finish.toPacket) enclosing
  else
    match _hsplit : splitElement current.rest with
    | .error fault => .error (.malformedPacket fault)
    | .ok (element, rest) =>
      if startsBundle element then
        match _hheader : splitHeader element with
        | .error fault => .error (.malformedPacket fault)
        | .ok (timetag, body) =>
          decodeOpen ⟨timetag, [], body⟩ ({ current with rest := rest } :: enclosing)
      else
        match Message.decode element with
        | .error e => .error e
        | .ok m => decodeOpen ⟨current.timetag, .message m :: current.read, rest⟩ enclosing
termination_by OpenBundle.work (current :: enclosing)
decreasing_by
  · simp_all [OpenBundle.work, OpenBundle.push]
  · have hlength := length_of_splitElement _hsplit
    have hbody := length_of_splitHeader _hheader
    simp only [OpenBundle.work]
    omega
  · have hlength := length_of_splitElement _hsplit
    simp only [OpenBundle.work]
    omega

def Bundle.decode (bytes : Bytes) : Except Error Bundle :=
  match splitHeader bytes with
  | .error fault => .error (.malformedPacket fault)
  | .ok (timetag, body) => decodeOpen ⟨timetag, [], body⟩ []

def Packet.decode (bytes : Bytes) : Except Error Packet :=
  if bytes = [] then .error (.malformedPacket .empty)
  else if startsBundle bytes then Bundle.toPacket <$> Bundle.decode bytes
  else Packet.message <$> Message.decode bytes

/-! ### The same by recursion -/

/-- Reads elements up to the end of the bytes. -/
def parseElements (bytes : Bytes) : Except Error (List Packet) :=
  if bytes = [] then .ok []
  else
    match _hsplit : splitElement bytes with
    | .error fault => .error (.malformedPacket fault)
    | .ok (element, rest) =>
      if startsBundle element then
        match _hheader : splitHeader element with
        | .error fault => .error (.malformedPacket fault)
        | .ok (timetag, body) => do
          let inner ← parseElements body
          let others ← parseElements rest
          .ok (.bundle timetag inner :: others)
      else do
        let m ← Message.decode element
        let others ← parseElements rest
        .ok (.message m :: others)
termination_by bytes.length
decreasing_by
  · have hlength := length_of_splitElement _hsplit
    have hbody := length_of_splitHeader _hheader
    omega
  · have hlength := length_of_splitElement _hsplit
    omega
  · have hlength := length_of_splitElement _hsplit
    omega

/-- Reads one bundle by recursion: header first, then element by element in wire order. -/
def Bundle.parse (bytes : Bytes) : Except Error Bundle :=
  match splitHeader bytes with
  | .error fault => .error (.malformedPacket fault)
  | .ok (timetag, body) => Bundle.mk timetag <$> parseElements body

end OpenSound
