import OpenSound.Connection.Endpoint
/-!
# Endpoints on one machine

Packets on their way from senders to handlers. There are any number of endpoints, and one of them is to
serve. The others, or the server itself, send it packets: messages to the peer that a sender is connected
to, bundles to the address of the server. Every datagram for the server arrives once and in order, and an
empty one ends them. Then the server serves.
-/

namespace OpenSound.Loopback

/-- Endpoints that reach each other. -/
structure Ends (ι : Type) where
  endpoint : ι → Endpoint
  /-- The one that serves. -/
  server : ι

def target? (sender : Endpoint) : Destination → Option SocketAddress
  | .peer => sender.connection.remoteAddress
  | .address target => some target

/-- The datagrams for an address that a sender has sent since `before`. -/
def arrivals (address : SocketAddress) (before after : Endpoint) : List Bytes :=
  ((after.socket.sent.drop before.socket.sent.length).filter fun datagram =>
    target? before datagram.destination = some address).map Datagram.bytes

namespace Ends

variable {ι : Type} [DecidableEq ι]

def address (ends : Ends ι) : SocketAddress := (ends.endpoint ends.server).connection.localAddress

def set (ends : Ends ι) (i : ι) (e : Endpoint) : Ends ι :=
  { ends with endpoint := fun j => if j = i then e else ends.endpoint j }

/-- Sends one packet. Gives back the datagrams that are on their way to the server. -/
def sendOne (ends : Ends ι) (sender : ι) (p : Packet) :
    Except ConnectionError Unit × List Bytes × Ends ι :=
  let before := ends.endpoint sender
  let (result, after) :=
    match p with
    | .message m => before.send m
    | .bundle _ _ => before.sendTo ends.address p
  (result, arrivals ends.address before after, ends.set sender after)

/-- Sends packets one after the other, each from a sender of its own. -/
def sendAll (ends : Ends ι) :
    List (ι × Packet) → List (Except ConnectionError Unit) × List Bytes × Ends ι
  | [] => ([], [], ends)
  | (sender, p) :: posts =>
    let (result, datagrams, ends) := ends.sendOne sender p
    let (results, others, ends) := ends.sendAll posts
    (result :: results, datagrams ++ others, ends)

/-- The results of all sends, and what serving them has led to. -/
def relay (ends : Ends ι) (posts : List (ι × Packet)) (methods : Option (Methods Handler)) :
    List (Except ConnectionError Unit) × Endpoint.Served :=
  let (results, datagrams, ends) := ends.sendAll posts
  let incoming := (datagrams ++ [[]]).map (Receive.datagram false)
  let server := ends.endpoint ends.server
  (results, { server with socket := server.socket.enqueue incoming }.serve methods)

end Ends

/-! ### A client and a server -/

inductive Party where
  | client
  | server
  deriving DecidableEq, Repr

namespace Ends

/-- Two open endpoints, the client connected to the server. Only the server's limit is up to the
caller. -/
def opened (clientAddress serverAddress : SocketAddress) (serverConfig : Config) : Ends Party where
  endpoint
    | .client =>
      ⟨⟨clientAddress, some serverAddress, Config.default, false, true⟩,
        (Socket.fresh (some clientAddress)).own⟩
    | .server =>
      ⟨⟨serverAddress, none, serverConfig, false, true⟩, (Socket.fresh (some serverAddress)).own⟩
  server := .server

/-- The client sends the messages, and the server sends the bundles to itself. -/
def exchange (ends : Ends Party) (ps : List Packet) (methods : Option (Methods Handler)) :
    List (Except ConnectionError Unit) × Endpoint.Served :=
  ends.relay (ps.map fun p => (if p.isBundle then .server else .client, p)) methods

end Ends

end OpenSound.Loopback
