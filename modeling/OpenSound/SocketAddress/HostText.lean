import OpenSound.Bytes
import OpenSound.SocketAddress.Reading
/-!
# Hosts in text

What may stand in front of a port. A host in digits is an address: up to four numbers, the last of
which fills the octets that are left, or hexadecimal groups with the number of a link behind a percent
sign. Any other text could only be a name. No name is looked up here, but a text that breaks the rules
for names is known to be none.
-/

namespace OpenSound

namespace Ipv4

/-- Reads a number: hexadecimal behind `0x`, octal behind another zero, decimal otherwise. -/
def readPart (cs : List Char) : Option (Nat × List Char) :=
  let hexadecimal :=
    match cs with
    | '0' :: x :: rest => if x = 'x' ∨ x = 'X' then readNumber 16 UInt32.size rest else none
    | _ => none
  let radix := if cs.head? = some '0' then 8 else 10
  (hexadecimal.orElse fun _ => readNumber radix UInt32.size cs).map fun (_, value, rest) =>
    (value, rest)

/-- Reads up to `limit` numbers with points between them, which must be all there is. Those before the
last are octets. -/
def readParts : (limit : Nat) → List Char → Option (List UInt8 × Nat)
  | 0, _ => none
  | limit + 1, cs =>
    match readPart cs with
    | some (last, []) => some ([], last)
    | some (octet, '.' :: rest) =>
      if octet < UInt8.size then
        (readParts limit rest).map fun (octets, last) => (UInt8.ofNat octet :: octets, last)
      else none
    | _ => none

/-- The address of some octets and a number that fits into those left. -/
def ofParts? (octets : List UInt8) (last : Nat) : Option Ipv4 :=
  let left := 4 - octets.length
  if last < Nat.pow 256 left then
    match octets ++ Bytes.bigEndian left last with
    | [a, b, c, d] => some ⟨a, b, c, d⟩
    | _ => none
  else none

/-- Reads an address of one to four numbers. -/
def ofNumbers? (cs : List Char) : Option Ipv4 :=
  (readParts 4 cs).bind fun (octets, last) => ofParts? octets last

end Ipv4

/-- The link that a scope names: by its number, or, for an address that needs one, by the name of the
link that every machine has to itself. -/
def Ipv6.scope? (ip : Ipv6) (cs : List Char) : Option UInt32 :=
  if ip.needsLink && cs == ['l', 'o'] then some 1
  else
    match readNumber 10 UInt32.size cs with
    | some (_, value, []) => some (UInt32.ofNat value)
    | _ => none

def SocketAddress.ofHost? (host : String) (port : UInt16) : Option SocketAddress :=
  match Ipv4.ofNumbers? host.toList with
  | some ip => some (v4 ip port)
  | none =>
    let (front, behind) := host.toList.span (· != '%')
    match Ipv6.read front, behind with
    | some (ip, []), [] => some (v6 ip 0 port)
    | some (ip, []), _ :: scope => (ip.scope? scope).map fun scope => v6 ip scope port
    | _, _ => none

/-! ### Names -/

/-- Whether characters are labels with points between them: one to 63 ASCII letters, digits, dashes and
underscores each. The first label has begun with `length` characters. -/
def isLabels (length : Nat) : List Char → Bool
  | [] => 0 < length
  | c :: cs =>
    if c = '.' then 0 < length && isLabels 0 cs
    else (c.isAlphanum || c == '-' || c == '_') && length < 63 && isLabels (length + 1) cs

/-- Whether a text could be the name of a host: labels, the first without a dash in front, with or
without a point at the end. -/
def isHostName (host : String) : Bool :=
  let cs := host.toList
  let labels := if cs.getLast? = some '.' then cs.dropLast else cs
  cs == ['.'] || (cs.head? != some '-' && labels.length ≤ 253 && isLabels 0 labels)

end OpenSound
