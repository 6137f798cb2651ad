import OpenSound.Text.Quoted
/-!
# Socket addresses

Where a datagram comes from or goes to: an address of one of the two internet families and a port.
The text of an address is its canonical one: decimal octets, or lower-case hexadecimal groups with the
first longest run of zero groups left out.
-/

namespace OpenSound

structure Ipv4 where
  a : UInt8
  b : UInt8
  c : UInt8
  d : UInt8
  deriving DecidableEq, Repr

structure Ipv6 where
  groups : List UInt16
  length_groups : groups.length = 8
  deriving DecidableEq, Repr

inductive IpAddress where
  | v4 (ip : Ipv4)
  | v6 (ip : Ipv6)
  deriving DecidableEq, Repr

/-- An address and a port. The scope tells apart the links that an address may be meant on; zero leaves
it open. -/
inductive SocketAddress where
  | v4 (ip : Ipv4) (port : UInt16)
  | v6 (ip : Ipv6) (scope : UInt32) (port : UInt16)
  deriving DecidableEq, Repr

namespace Ipv4

def unspecified : Ipv4 := ⟨0, 0, 0, 0⟩

def text (ip : Ipv4) : String :=
  ".".intercalate ([ip.a, ip.b, ip.c, ip.d].map fun octet => toString octet.toNat)

end Ipv4

namespace Ipv6

def unspecified : Ipv6 := ⟨List.replicate 8 0, rfl⟩

def ofGroups? (groups : List UInt16) : Option Ipv6 :=
  if h : groups.length = 8 then some ⟨groups, h⟩ else none

/-- The number of zero groups at the front. -/
def zeroRun (groups : List UInt16) : Nat := (groups.takeWhile (· == 0)).length

/-- Where the first longest run of zero groups starts, and its length. -/
def longestRun (groups : List UInt16) : Nat × Nat :=
  (List.range groups.length).foldl
    (fun best start =>
      let length := zeroRun (groups.drop start)
      if best.2 < length then (start, length) else best)
    (0, 0)

def joinGroups (groups : List UInt16) : String :=
  ":".intercalate (groups.map fun group => String.ofList (Text.hexDigits group.toNat))

/-- The address of the other family that is carried in the last two groups, behind the marker for
it. -/
def mapped? (ip : Ipv6) : Option Ipv4 :=
  match ip.groups with
  | [0, 0, 0, 0, 0, 0xFFFF, high, low] =>
    some ⟨UInt8.ofNat (high.toNat / 256), UInt8.ofNat high.toNat,
      UInt8.ofNat (low.toNat / 256), UInt8.ofNat low.toNat⟩
  | _ => none

/-- Whether the address stands for a group of receivers. -/
def isMulticast (ip : Ipv6) : Bool :=
  ip.groups.head?.any fun first => first.toNat / 256 == 0xFF

/-- Whether the address means nothing unless a link is named with it: one of a link's own, or a group
that ends with the interface or the link. -/
def needsLink (ip : Ipv6) : Bool :=
  ip.groups.head?.any fun first => first.toNat / 64 == 0x3FA ||
    ip.isMulticast && (first.toNat % 16 == 1 || first.toNat % 16 == 2)

def text (ip : Ipv6) : String :=
  match ip.mapped? with
  | some v4 => "::ffff:" ++ v4.text
  | none =>
    let (start, length) := longestRun ip.groups
    if 1 < length then
      joinGroups (ip.groups.take start) ++ "::" ++ joinGroups (ip.groups.drop (start + length))
    else joinGroups ip.groups

end Ipv6

namespace IpAddress

def text : IpAddress → String
  | v4 ip => ip.text
  | v6 ip => ip.text

/-- The address that stands for all of a machine's own. -/
def isUnspecified : IpAddress → Bool
  | v4 ip => ip == Ipv4.unspecified
  | v6 ip => ip == Ipv6.unspecified

end IpAddress

namespace SocketAddress

def ip : SocketAddress → IpAddress
  | v4 ip _ => .v4 ip
  | v6 ip _ _ => .v6 ip

def port : SocketAddress → UInt16
  | v4 _ port => port
  | v6 _ _ port => port

def isV4 : SocketAddress → Bool
  | v4 _ _ => true
  | v6 _ _ _ => false

def withPort (port : UInt16) : SocketAddress → SocketAddress
  | v4 ip _ => v4 ip port
  | v6 ip scope _ => v6 ip scope port

def ofIp (port : UInt16) : IpAddress → SocketAddress
  | .v4 ip => v4 ip port
  | .v6 ip => v6 ip 0 port

def text : SocketAddress → String
  | v4 ip port => ip.text ++ ":" ++ toString port.toNat
  | v6 ip scope port =>
    let link := if scope = 0 then "" else "%" ++ toString scope.toNat
    "[" ++ ip.text ++ link ++ "]:" ++ toString port.toNat

end SocketAddress

end OpenSound
