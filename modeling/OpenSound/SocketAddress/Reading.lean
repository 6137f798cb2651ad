import OpenSound.SocketAddress.Basic
/-!
# Reading socket addresses

The written forms of an address: four decimal octets without leading zeros, or groups of up to four
hexadecimal digits between brackets, where `::` stands for a run of zero groups and the last two groups
may be written as octets. Each reader takes what it can from the front of the characters and gives back
the rest, or nothing.
-/

namespace OpenSound

def digitValue? (radix : Nat) (c : Char) : Option Nat :=
  let value :=
    if '0' ≤ c ∧ c ≤ '9' then c.toNat - '0'.toNat
    else if 'a' ≤ c ∧ c ≤ 'f' then c.toNat - 'a'.toNat + 10
    else if 'A' ≤ c ∧ c ≤ 'F' then c.toNat - 'A'.toNat + 10
    else radix
  if value < radix then some value else none

def digitsValue (radix : Nat) (digits : List Nat) : Nat :=
  digits.foldl (fun sum digit => sum * radix + digit) 0

def spanDigits (radix : Nat) : List Char → List Nat × List Char
  | [] => ([], [])
  | c :: cs =>
    match digitValue? radix c with
    | none => ([], c :: cs)
    | some digit =>
      let (digits, rest) := spanDigits radix cs
      (digit :: digits, rest)

/-- Reads a number of at least one digit below a bound. -/
def readNumber (radix bound : Nat) (cs : List Char) : Option (List Nat × Nat × List Char) :=
  let (digits, rest) := spanDigits radix cs
  let value := digitsValue radix digits
  if digits ≠ [] ∧ value < bound then some (digits, value, rest) else none

def readChar (c : Char) : List Char → Option (List Char)
  | [] => none
  | d :: cs => if d = c then some cs else none

namespace Ipv4

/-- Reads an octet: up to three digits, the first of several not zero. -/
def readOctet (cs : List Char) : Option (UInt8 × List Char) := do
  let (digits, value, rest) ← readNumber 10 UInt8.size cs
  if digits.length ≤ 3 ∧ (digits.length = 1 ∨ digits.head? ≠ some 0) then
    some (UInt8.ofNat value, rest)
  else none

def read (cs : List Char) : Option (Ipv4 × List Char) := do
  let (a, cs) ← readOctet cs
  let (b, cs) ← readOctet (← readChar '.' cs)
  let (c, cs) ← readOctet (← readChar '.' cs)
  let (d, cs) ← readOctet (← readChar '.' cs)
  return (⟨a, b, c, d⟩, cs)

/-- The two groups that an address takes up inside a longer one. -/
def groups (ip : Ipv4) : List UInt16 :=
  [UInt16.ofNat (ip.a.toNat * 256 + ip.b.toNat), UInt16.ofNat (ip.c.toNat * 256 + ip.d.toNat)]

end Ipv4

namespace Ipv6

def readGroup (cs : List Char) : Option (UInt16 × List Char) := do
  let (digits, value, rest) ← readNumber 16 UInt16.size cs
  if digits.length ≤ 4 then some (UInt16.ofNat value, rest) else none

/-- Reads a colon, except in front of the first group. -/
def readSeparator (first : Bool) (cs : List Char) : Option (List Char) :=
  if first then some cs else readChar ':' cs

/-- Reads up to `limit` groups, and says whether the last two were written as octets, which ends the
groups. -/
def readGroups (first : Bool) : (limit : Nat) → List Char → List UInt16 × Bool × List Char
  | 0, cs => ([], false, cs)
  | limit + 1, cs =>
    let octets := if limit = 0 then none else (readSeparator first cs).bind Ipv4.read
    match octets with
    | some (ip, rest) => (ip.groups, true, rest)
    | none =>
      match (readSeparator first cs).bind readGroup with
      | none => ([], false, cs)
      | some (group, rest) =>
        let (groups, asOctets, rest) := readGroups false limit rest
        (group :: groups, asOctets, rest)

/-- Reads eight groups, or fewer with `::` for at least one zero group among them. Octets may stand at
the very end only. -/
def read (cs : List Char) : Option (Ipv6 × List Char) :=
  let (front, asOctets, rest) := readGroups true 8 cs
  if front.length = 8 then (ofGroups? front).map fun ip => (ip, rest)
  else if asOctets then none
  else do
    let rest ← readChar ':' (← readChar ':' rest)
    let (back, _, rest) := readGroups true (7 - front.length) rest
    let zeros := List.replicate (8 - front.length - back.length) 0
    (ofGroups? (front ++ zeros ++ back)).map fun ip => (ip, rest)

end Ipv6

namespace SocketAddress

def readPort (cs : List Char) : Option (UInt16 × List Char) := do
  let (_, value, rest) ← readNumber 10 UInt16.size (← readChar ':' cs)
  return (UInt16.ofNat value, rest)

/-- Reads a percent sign and a scope; where there is none, the scope is zero. -/
def readScope (cs : List Char) : UInt32 × List Char :=
  match (readChar '%' cs).bind (readNumber 10 UInt32.size) with
  | some (_, value, rest) => (UInt32.ofNat value, rest)
  | none => (0, cs)

def readV4 (cs : List Char) : Option (SocketAddress × List Char) := do
  let (ip, cs) ← Ipv4.read cs
  let (port, cs) ← readPort cs
  return (v4 ip port, cs)

def readV6 (cs : List Char) : Option (SocketAddress × List Char) := do
  let (ip, cs) ← Ipv6.read (← readChar '[' cs)
  let (scope, cs) := readScope cs
  let (port, cs) ← readPort (← readChar ']' cs)
  return (v6 ip scope port, cs)

def parse? (s : String) : Option SocketAddress :=
  match (readV4 s.toList).orElse fun _ => readV6 s.toList with
  | some (address, []) => some address
  | _ => none

end SocketAddress

end OpenSound
