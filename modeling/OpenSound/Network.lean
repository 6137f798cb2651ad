import OpenSound.Connection.Error
import OpenSound.SocketAddress.HostText
/-!
# Networks

The name of a network says which families of addresses an endpoint may use. Resolving a text means
finding its socket address and checking the family; only addresses written out in digits are found
here, since looking up the name of a host is not for a pure function.
-/

namespace OpenSound

/-- Which families of addresses are allowed. -/
inductive Network where
  | udp
  | udp4
  | udp6
  deriving DecidableEq, Repr

namespace Network

def name : Network → String
  | udp => "udp"
  | udp4 => "udp4"
  | udp6 => "udp6"

def parse (name : String) : Except ConnectionError Network :=
  if name = "udp" then .ok udp
  else if name = "udp4" then .ok udp4
  else if name = "udp6" then .ok udp6
  else .error (.invalidNetwork name)

def accepts : Network → SocketAddress → Bool
  | udp, _ => true
  | udp4, address => address.isV4
  | udp6, address => !address.isV4

/-- What stands before and after the last colon. -/
def splitPort? (s : String) : Option (String × String) :=
  let (port, front) := s.toList.reverse.span (· != ':')
  match front with
  | [] => none
  | _ :: host => some (String.ofList host.reverse, String.ofList port.reverse)

/-- A port in decimal, with or without a plus sign. -/
def port? (s : String) : Option UInt16 :=
  let digits :=
    match s.toList with
    | '+' :: cs => cs
    | cs => cs
  match readNumber 10 UInt16.size digits with
  | some (_, value, []) => some (UInt16.ofNat value)
  | _ => none

/-- Finds the socket address that a text stands for. -/
def lookup (text : String) : Except ResolutionFault SocketAddress :=
  match SocketAddress.parse? text with
  | some address => .ok address
  | none =>
    match splitPort? text with
    | none => .error .invalidSocketAddress
    | some (host, port) =>
      match port? port with
      | none => .error .invalidPort
      | some port =>
        if '\x00' ∈ host.toList then .error .nulInHost
        else
          match SocketAddress.ofHost? host port with
          | some address => .ok address
          | none => .error (if isHostName host then .lookupUnavailable else .unknownHost)

/-- Finds the socket address that a text stands for, if it is of an allowed family. -/
def resolve (n : Network) (text : String) : Except ConnectionError SocketAddress :=
  match lookup text with
  | .error fault => .error (.addressResolution text fault)
  | .ok address =>
    if n.accepts address then .ok address
    else .error (.addressResolution text (.noAddress n.name))

end Network

end OpenSound
