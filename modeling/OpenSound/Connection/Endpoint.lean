import OpenSound.Connection.Config
import OpenSound.Connection.Error
import OpenSound.Connection.Socket
import OpenSound.Packet.Decoding
import OpenSound.Dispatch
/-!
# Endpoints

A connection over one socket. It is open until it is closed, which happens once and for good: from
then on nothing is sent and nothing received. Closing may come from outside, during a receive, or from
a handler, and serving goes on to the end of the datagram at hand.

A packet is sent only as a whole and only within the size limit. A datagram that is received is cut to
the same limit, since the memory that it is received into has that size, so a longer one usually fails
to decode, which ends serving.
-/

namespace OpenSound

/-- The state of a connection apart from its socket. -/
structure Connection where
  localAddress : SocketAddress
  /-- The peer, for a connection that has one. -/
  remoteAddress : Option SocketAddress
  config : Config
  closed : Bool
  /-- Whether the connection holds its socket. -/
  attached : Bool
  deriving DecidableEq, Repr

def Connection.text (c : Connection) : String :=
  let remote :=
    match c.remoteAddress with
    | none => "None"
    | some address => "Some(" ++ address.text ++ ")"
  "UdpConnection \x7b local_addr: " ++ c.localAddress.text ++ ", remote_addr: " ++ remote ++
    ", closed: " ++ toString c.closed ++ " \x7d"

structure Endpoint where
  connection : Connection
  socket : Socket
  deriving DecidableEq, Repr

namespace Endpoint

/-- Takes hold of a socket, which must know its own address. -/
def ofSocket (socket : Socket) (remote : Option SocketAddress) (config : Config) :
    Except ConnectionError Endpoint :=
  match socket.localAddress with
  | none => .error (.io "no local address")
  | some address => .ok ⟨⟨address, remote, config, false, true⟩, socket.own⟩

def isClosed (e : Endpoint) : Bool := e.connection.closed

/-- Closes the connection and lets go of the socket, unless that has happened before. -/
def close (e : Endpoint) : Endpoint :=
  if e.connection.attached then
    ⟨{ e.connection with closed := true, attached := false }, e.socket.release⟩
  else ⟨{ e.connection with closed := true }, e.socket⟩

@[simp] theorem isClosed_close (e : Endpoint) : e.close.isClosed = true := by
  unfold close isClosed
  split <;> rfl

/-- Closing again has no further effect. -/
@[simp] theorem close_close (e : Endpoint) : e.close.close = e.close := by
  unfold close
  split <;> simp_all

/-! ### Sending -/

/-- The bytes of a packet, if it has any and they are few enough. -/
def prepare (e : Endpoint) (p : Packet) : Except ConnectionError Bytes :=
  match p.encode with
  | .error fault => .error (.core fault)
  | .ok bytes =>
    if e.connection.config.maxPacketSize < bytes.length then
      .error (.packetTooLarge bytes.length e.connection.config.maxPacketSize)
    else .ok bytes

/-- Sends a packet; `name` is the destination that a failure is reported with. -/
def transmit (e : Endpoint) (p : Packet) (destination : Destination) (name : SocketAddress) :
    Except ConnectionError Unit × Endpoint :=
  match e.prepare p with
  | .error fault => (.error fault, e)
  | .ok bytes =>
    if e.connection.attached then
      match e.socket.send ⟨bytes, destination⟩ with
      | (.error reason, socket) => (.error (.sendFailed name reason), { e with socket := socket })
      | (.ok (), socket) => (.ok (), { e with socket := socket })
    else (.error .connectionClosed, e)

def send (e : Endpoint) (m : Message) : Except ConnectionError Unit × Endpoint :=
  match e.connection.remoteAddress with
  | none => (.error .notConnected, e)
  | some remote => e.transmit (.message m) .peer remote

def sendTo (e : Endpoint) (target : SocketAddress) (p : Packet) :
    Except ConnectionError Unit × Endpoint :=
  e.transmit p (.address target) target

/-! ### Serving -/

/-- What serving has led to. -/
structure Served where
  result : Except ConnectionError Unit
  /-- The calls of handlers, in order. -/
  calls : List Call
  endpoint : Endpoint

def withIncoming (e : Endpoint) (incoming : List Receive) : Endpoint :=
  { e with socket := { e.socket with incoming := incoming } }

def closeIf (e : Endpoint) (condition : Bool) : Endpoint := if condition then e.close else e

/-- The endpoint after calls of handlers, each of which may have closed it. -/
def closeAfter (e : Endpoint) (calls : List Call) : Endpoint :=
  calls.foldl (fun e call => e.closeIf call.reaction.closes) e

/-- Receives and dispatches until the connection is closed, or a receive or a datagram fails. The
endpoint's own receives are disregarded in favour of those given. -/
def serveLoop (d : Dispatcher Handler) :
    (earlier : List Call) → Buffer → List Receive → Endpoint → Served
  | _, _, [], e =>
    if e.isClosed then ⟨.ok (), [], e.withIncoming []⟩
    else ⟨.error (.receiveFailed Socket.drained), [], e.withIncoming []⟩
  | earlier, buffer, r :: rest, e =>
    if e.isClosed then ⟨.ok (), [], e.withIncoming (r :: rest)⟩
    else
      let e := e.closeIf r.closes
      match r with
      | .closedWaiting => ⟨.ok (), [], e.withIncoming rest⟩
      | .fault _ reason =>
        if e.isClosed then ⟨.ok (), [], e.withIncoming rest⟩
        else ⟨.error (.receiveFailed reason), [], e.withIncoming rest⟩
      | .datagram _ bytes =>
        let (buffer, length) := buffer.fill bytes
        match Packet.decode (buffer.front length) with
        | .error fault => ⟨.error (.core fault), [], e.withIncoming rest⟩
        | .ok p =>
          let calls := d.deliver earlier p
          let next := serveLoop d (calls.reverse ++ earlier) buffer rest (e.closeAfter calls)
          { next with calls := calls ++ next.calls }

/-- Serves a table of methods. The table is read before anything is received; a connection that is
already closed has nothing to serve. While serving, the socket has one more holder. -/
def serve (e : Endpoint) (methods : Option (Methods Handler)) : Served :=
  match Dispatcher.build methods with
  | .error fault => ⟨.error (.core fault), [], e⟩
  | .ok d =>
    if e.connection.attached then
      let buffer := Buffer.zeros e.connection.config.maxPacketSize
      let served := serveLoop d [] buffer e.socket.incoming { e with socket := e.socket.hold }
      { served with
        endpoint := { served.endpoint with socket := served.endpoint.socket.release } }
    else ⟨.ok (), [], e⟩

end Endpoint

end OpenSound
