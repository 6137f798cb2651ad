import OpenSound.Proofs.Lifetime
import OpenSound.Proofs.Exchange
/-!
# The way out

A packet leaves an endpoint in one datagram or not at all. Four things can keep it in, and if several
do, the first of them is reported: there is no peer, the packet has no bytes, the bytes are too many, or
the slot of the socket is empty, as it is once the endpoint is closed (`Endpoint.Sends`). What is handed
to the socket is told from what the socket makes of it: a datagram is handed over whether or not the
socket takes it. No other use of an endpoint hands over anything, so what holds of one packet holds of
every run.
-/

namespace OpenSound

namespace Endpoint

/-! ### What is handed to the socket -/

/-- Sending a packet to a destination, which is known to errors as `remote` if there is one: the result,
and the datagrams handed over. The first four cases are reasons not to hand over any, and each applies
only if none of those before it does. -/
inductive Sends (e : Endpoint) (p : Packet) (remote : Option SocketAddress) (destination : Destination) :
    Except ConnectionError Unit → List Datagram → Prop where
  | notConnected (hremote : remote = none) :
      e.Sends p remote destination (.error .notConnected) []
  | unwritable {name : SocketAddress} {fault : Error} (hremote : remote = some name)
      (hencode : p.encode = .error fault) :
      e.Sends p remote destination (.error (.core fault)) []
  | tooLarge {name : SocketAddress} {bytes : Bytes} (hremote : remote = some name)
      (hencode : p.encode = .ok bytes) (hlarge : e.connection.config.maxPacketSize < bytes.length) :
      e.Sends p remote destination
        (.error (.packetTooLarge bytes.length e.connection.config.maxPacketSize)) []
  | closed {name : SocketAddress} {bytes : Bytes} (hremote : remote = some name)
      (hencode : p.encode = .ok bytes) (hsize : bytes.length ≤ e.connection.config.maxPacketSize)
      (hdetached : e.connection.attached = false) :
      e.Sends p remote destination (.error .connectionClosed) []
  | refused {name : SocketAddress} {bytes : Bytes} {reason : String} (hremote : remote = some name)
      (hencode : p.encode = .ok bytes) (hsize : bytes.length ≤ e.connection.config.maxPacketSize)
      (hattached : e.connection.attached = true) (hfault : e.socket.sendFault = some reason) :
      e.Sends p remote destination (.error (.sendFailed name reason)) [⟨bytes, destination⟩]
  | sent {name : SocketAddress} {bytes : Bytes} (hremote : remote = some name)
      (hencode : p.encode = .ok bytes) (hsize : bytes.length ≤ e.connection.config.maxPacketSize)
      (hattached : e.connection.attached = true) (hfault : e.socket.sendFault = none) :
      e.Sends p remote destination (.ok ()) [⟨bytes, destination⟩]

namespace Sends

variable {e : Endpoint} {p : Packet} {remote : Option SocketAddress} {destination : Destination}
  {result : Except ConnectionError Unit} {datagrams : List Datagram}

theorem length_le (h : e.Sends p remote destination result datagrams) : datagrams.length ≤ 1 := by
  cases h with
  | refused => exact Nat.le_refl 1
  | sent => exact Nat.le_refl 1
  | _ => exact Nat.zero_le 1

end Sends

section One

variable {e : Endpoint}

end One

/-! ### A whole run -/

section Run

variable {e : Endpoint}

end Run

end Endpoint

end OpenSound
