import OpenSound.Connection.Endpoint
import OpenSound.Network
/-!
# Opening endpoints

An endpoint is opened on a host: by listening on one of its addresses, or by dialing a remote address
from one. What the host does is a value too, so that opening is a function: which port a bind yields,
and which of its own addresses lies on the way to a remote one.
-/

namespace OpenSound

inductive HostFault where
  | noSuchLink
  | invalidArgument
  | familyNotSupported
  | addressNotAvailable
  | networkUnreachable
  deriving DecidableEq, Repr

def HostFault.message : HostFault → String
  | noSuchLink => "No such device (os error 19)"
  | invalidArgument => "Invalid argument (os error 22)"
  | familyNotSupported => "Address family not supported by protocol (os error 97)"
  | addressNotAvailable => "Cannot assign requested address (os error 99)"
  | networkUnreachable => "Network is unreachable (os error 101)"

/-- The answers of a host. -/
structure Host where
  /-- The port that binding an address yields, or why it fails. -/
  bind : SocketAddress → Except HostFault UInt16
  /-- The host's own address on the way from a bound address to a remote one, or why there is no
  way. -/
  route : (own remote : SocketAddress) → Except HostFault IpAddress

namespace Host

/-! ### A host without a network -/

/-- The first of the ports that are handed out to those who ask for none. -/
def ephemeralPort : UInt16 := 49152

/-- What keeps a host whose links are all down from binding an address. It cannot tell which addresses
of four octets are its own and refuses none, in the longer form either. It has one link, and no address
of eight groups. -/
def bindFault? : SocketAddress → Option HostFault
  | .v4 _ _ => none
  | .v6 ip scope _ =>
    if ip == Ipv6.unspecified || ip.mapped?.isSome then none
    else if ip.needsLink && scope == 0 then some .invalidArgument
    else if ip.needsLink && scope != 1 then some .noSuchLink
    else if ip.isMulticast then none
    else some .addressNotAvailable

/-- Whether a remote address that needs a link comes with one that can be meant: the one that the
socket is bound to, if it is, and any at all otherwise. -/
def fitsLink (own : Ipv6) (ownScope remoteScope : UInt32) : Bool :=
  if own.needsLink then remoteScope == 0 || remoteScope == ownScope else remoteScope != 0

/-- What keeps a host whose links are all down from reaching an address, which it never can. -/
def routeFault : (own remote : SocketAddress) → HostFault
  | .v4 _ _, .v4 _ _ => .networkUnreachable
  | .v4 _ _, .v6 _ _ _ => .familyNotSupported
  | .v6 own _ _, .v4 _ _ => if own.isMulticast then .familyNotSupported else .networkUnreachable
  | .v6 own ownScope _, .v6 remote remoteScope _ =>
    if remote.mapped?.isSome then .networkUnreachable
    else if remote.needsLink && !fitsLink own ownScope remoteScope then .invalidArgument
    else if own.mapped?.isSome then .networkUnreachable
    else .addressNotAvailable

/-- A host that is on no network: addresses can be bound, and nothing can be reached. -/
def isolated : Host where
  bind address :=
    match bindFault? address with
    | some fault => .error fault
    | none => .ok (if address.port = 0 then ephemeralPort else address.port)
  route own remote := .error (routeFault own remote)

/-! ### Listening and dialing -/

def bound (host : Host) (address : SocketAddress) : Except ConnectionError SocketAddress :=
  match host.bind address with
  | .error fault => .error (.bindFailed address fault.message)
  | .ok port => .ok (address.withPort port)

/-- Opens an endpoint that receives on an address. -/
def listen (host : Host) (network address : String) (config : Config) :
    Except ConnectionError Endpoint := do
  let network ← Network.parse network
  let address ← network.resolve address
  let own ← host.bound address
  Endpoint.ofSocket (Socket.fresh (some own)) none config

/-- The address of a remote's family that leaves the choice to the host. -/
def anyFor : SocketAddress → SocketAddress
  | .v4 _ _ => .v4 Ipv4.unspecified 0
  | .v6 _ _ _ => .v6 Ipv6.unspecified 0 0

/-- The address that a socket bound to `own` has once it is connected along a route. -/
def connected (own : SocketAddress) (source : IpAddress) : SocketAddress :=
  if own.ip.isUnspecified then SocketAddress.ofIp own.port source else own

/-- Opens an endpoint that sends to a remote address, from a given address or any. -/
def dial (host : Host) (network : String) (own : Option String) (remote : String)
    (config : Config) : Except ConnectionError Endpoint := do
  let network ← Network.parse network
  let remote ← network.resolve remote
  let own ←
    match own with
    | none => Except.ok (anyFor remote)
    | some text => network.resolve text
  let own ← host.bound own
  match host.route own remote with
  | .error fault => .error (.connectFailed remote fault.message)
  | .ok source =>
    Endpoint.ofSocket (Socket.fresh (some (connected own source))) (some remote) config

end Host

end OpenSound
