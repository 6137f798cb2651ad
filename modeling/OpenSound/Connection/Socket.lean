import OpenSound.SocketAddress.Basic
import OpenSound.Bytes
/-!
# Datagram sockets

What a connection needs from its socket, as a value: the outcomes of the receives to come, what a send
will do, and the datagrams handed over so far. A socket lives as long as somebody holds it, so it counts
its holders. Datagrams are received into memory that is used again for the next.
-/

namespace OpenSound

/-! ### Memory to receive into -/

/-- Memory of a fixed size: what has been written to its front, and zeros behind that. -/
structure Buffer where
  size : Nat
  written : Bytes

namespace Buffer

def zeros (size : Nat) : Buffer := ⟨size, []⟩

/-- Writes as much of a datagram as there is room for to the front, over what was there before, and
says how much that is. What it does not reach stays. -/
def fill (b : Buffer) (datagram : Bytes) : Buffer × Nat :=
  let front := datagram.take b.size
  ({ b with written := front ++ b.written.drop front.length }, front.length)

def front (b : Buffer) (length : Nat) : Bytes :=
  b.written.take length ++ List.replicate (length - b.written.length) 0

/-- Nothing of an earlier datagram shows in the part that a later one fills. -/
@[simp] theorem front_fill (b : Buffer) (datagram : Bytes) :
    (b.fill datagram).1.front (b.fill datagram).2 = datagram.take b.size := by
  simp [fill, front]

end Buffer

/-! ### Sockets -/

/-- The outcome of one receive. The connection may be closed from elsewhere while it is under way. -/
inductive Receive where
  | datagram (closes : Bool) (bytes : Bytes)
  | fault (closes : Bool) (reason : String)
  /-- Nothing arrives, and the connection is closed while it is waited for. -/
  | closedWaiting
  deriving DecidableEq, Repr

def Receive.closes : Receive → Bool
  | datagram closes _ => closes
  | fault closes _ => closes
  | closedWaiting => true

inductive Destination where
  | peer
  | address (target : SocketAddress)
  deriving DecidableEq, Repr

structure Datagram where
  bytes : Bytes
  destination : Destination
  deriving DecidableEq, Repr

/-- A socket held in memory. -/
structure Socket where
  localAddress : Option SocketAddress
  /-- The outcomes of the receives to come. -/
  incoming : List Receive
  /-- Why every send fails at present, if it does. -/
  sendFault : Option String
  /-- The datagrams sent, in order. -/
  sent : List Datagram
  /-- How many hold the socket. -/
  holders : Nat
  deriving DecidableEq, Repr

namespace Socket

/-- A socket that nobody holds yet and nothing has happened to. -/
def fresh (localAddress : Option SocketAddress) : Socket := ⟨localAddress, [], none, [], 0⟩

def isReleased (s : Socket) : Bool := s.holders == 0

def own (s : Socket) : Socket := { s with holders := 1 }

def hold (s : Socket) : Socket := { s with holders := s.holders + 1 }

def release (s : Socket) : Socket := { s with holders := s.holders - 1 }

def enqueue (s : Socket) (more : List Receive) : Socket := { s with incoming := s.incoming ++ more }

/-- Hands over a datagram, unless sends fail at present. -/
def send (s : Socket) (d : Datagram) : Except String Unit × Socket :=
  match s.sendFault with
  | some reason => (.error reason, s)
  | none => (.ok (), { s with sent := s.sent ++ [d] })

/-- Why a receive fails when there is no outcome left. -/
def drained : String := "drained"

end Socket

end OpenSound
