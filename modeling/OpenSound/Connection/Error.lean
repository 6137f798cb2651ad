import OpenSound.Error
import OpenSound.SocketAddress.Basic
/-!
# What can go wrong with a connection

The failures of naming, opening and using an endpoint. A failure of reading, writing or registering
passes through unchanged, with its own text.
-/

namespace OpenSound

/-- Why a text names no address to bind or reach. -/
inductive ResolutionFault where
  | invalidSocketAddress
  | invalidPort
  | nulInHost
  /-- The host is neither in digits nor a name. -/
  | unknownHost
  /-- The host may be a name, but nobody answers for names. -/
  | lookupUnavailable
  /-- There is an address, but none of the family that the network asks for. -/
  | noAddress (network : String)
  deriving DecidableEq, Repr

def ResolutionFault.message : ResolutionFault → String
  | .invalidSocketAddress => "invalid socket address"
  | .invalidPort => "invalid port value"
  | .nulInHost => "file name contained an unexpected NUL byte"
  | .unknownHost => "failed to lookup address information: Name or service not known"
  | .lookupUnavailable =>
    "failed to lookup address information: Temporary failure in name resolution"
  | .noAddress network => "no " ++ network ++ " address"

inductive ConnectionError where
  | invalidNetwork (name : String)
  | addressResolution (text : String) (fault : ResolutionFault)
  | bindFailed (address : SocketAddress) (reason : String)
  | connectFailed (address : SocketAddress) (reason : String)
  | connectionClosed
  | notConnected
  | sendFailed (target : SocketAddress) (reason : String)
  | receiveFailed (reason : String)
  | packetTooLarge (size max : Nat)
  | core (e : Error)
  | io (reason : String)
  deriving DecidableEq, Repr

def ConnectionError.message : ConnectionError → String
  | .invalidNetwork name =>
    "invalid network: " ++ Text.quoted name ++ " (expected udp, udp4 or udp6)"
  | .addressResolution text fault =>
    "address resolution failed: " ++ text ++ ": " ++ fault.message
  | .bindFailed address reason => "connection failed: bind " ++ address.text ++ ": " ++ reason
  | .connectFailed address reason =>
    "connection failed: connect " ++ address.text ++ ": " ++ reason
  | .connectionClosed => "connection closed"
  | .notConnected => "not connected"
  | .sendFailed target reason => "send failed: " ++ target.text ++ ": " ++ reason
  | .receiveFailed reason => "receive failed: " ++ reason
  | .packetTooLarge size max =>
    "packet too large: " ++ toString size ++ " bytes (max " ++ toString max ++ ")"
  | .core e => e.message
  | .io reason => "io error: " ++ reason

end OpenSound
