import OpenSound.Connection.Loopback
import OpenSound.Proofs.Serving
import OpenSound.Proofs.WireForm
/-!
# From senders to handlers

Packets that are sent to a server come to its handlers as they are. On the way each layer undoes what the
one before it did: a packet is written and sent in one datagram, arrives uncut, and is read back. So the
receives of the server are readable, with the messages of the packets in order, and what is known about
serving applies. It goes on until a handler closes the server, which ends it with the packet at hand, or
until the empty datagram, which cannot be read.
-/

namespace OpenSound

/-- The bytes of a packet, if it can be written. -/
def Packet.bytes (p : Packet) : Bytes :=
  match p.encode with
  | .ok bytes => bytes
  | .error _ => []

def Receive.ofPacket (p : Packet) : Receive := .datagram false p.bytes

/-- A packet that can be written within a limit, and read. -/
structure Packet.Passes (p : Packet) (limit : Nat) : Prop where
  valid : ∀ m ∈ p.messages, Address.Valid m.address
  nulFree : p.NulFree
  fits : p.Fits
  length_le : ∀ bytes, p.encode = .ok bytes → bytes.length ≤ limit

namespace Packet.Passes

variable {p : Packet} {limit : Nat}

theorem encode_eq (h : p.Passes limit) : p.encode = .ok p.bytes := by
  obtain ⟨wire, hlayout⟩ := Packet.exists_layout_iff.2 ⟨h.nulFree, h.fits⟩
  rw [Packet.bytes, Packet.encode_eq_ok_iff.2 hlayout]

theorem decode_eq (h : p.Passes limit) : Packet.decode p.bytes = .ok p :=
  Packet.decode_eq_ok_iff.2 (.of_layout h.valid (Packet.encode_eq_ok_iff.1 h.encode_eq))

theorem packet?_eq (h : p.Passes limit) :
    (Receive.ofPacket p).packet? limit = some (.ok p) := by
  rw [Receive.ofPacket, Receive.packet?, List.take_of_length_le (h.length_le _ h.encode_eq), h.decode_eq]

end Packet.Passes

/-- Within a limit below four gigabytes all sizes fit. -/
theorem Packet.passes_of_messages {p : Packet} {limit : Nat} (messages : List Message)
    (hmessages : p.messages = messages)
    (hclean : ∀ m ∈ messages, Address.Valid m.address ∧ m.NulFree) (hsize : p.size ≤ limit)
    (hlimit : limit < UInt32.size) : p.Passes limit where
  valid := hmessages ▸ fun m hm => (hclean m hm).1
  nulFree := fun m hm => (hclean m (hmessages ▸ hm)).2
  fits := Packet.fits_of_size_lt (Nat.lt_of_le_of_lt hsize hlimit)
  length_le wire hencode := by
    rwa [Packet.length_of_layout (Packet.encode_eq_ok_iff.1 hencode)]

/-! ### Serving what has arrived -/

def Dispatcher.callsFor (d : Dispatcher Handler) (packets : List Packet) : List Call :=
  d.dispatchAll [] (packets.flatMap Packet.messages)

theorem Dispatcher.callsFor_concat (d : Dispatcher Handler) (packets : List Packet) (p : Packet) :
    d.callsFor (packets ++ [p]) =
      d.callsFor packets ++ d.dispatchAll (d.callsFor packets).reverse p.messages := by
  rw [callsFor, List.flatMap_append, dispatchAll_append, List.flatMap_singleton, List.append_nil]
  rfl

/-- A handler closes the endpoint for the messages of `p`, and none did so before. -/
structure Dispatcher.ClosesFirst (d : Dispatcher Handler) (before : List Packet) (p : Packet) : Prop where
  open_before : (d.callsFor before).any (·.reaction.closes) = false
  closes : (d.callsFor (before ++ [p])).any (·.reaction.closes) = true

instance (d : Dispatcher Handler) (before : List Packet) (p : Packet) : Decidable (d.ClosesFirst before p) :=
  decidable_of_iff (_ ∧ _) ⟨fun h => ⟨h.1, h.2⟩, fun h => ⟨h.1, h.2⟩⟩

theorem Dispatcher.not_closes_of_never (d : Dispatcher Handler) {packets : List Packet}
    (hnever : ∀ before p after, packets = before ++ p :: after → ¬ d.ClosesFirst before p) :
    (d.callsFor packets).any (·.reaction.closes) = false := by
  induction packets using List.reverseRecOn with
  | nil => rfl
  | append_singleton packets last ih =>
    have hopen := ih fun before p after hpackets =>
      hnever before p (after ++ [last]) (by rw [hpackets, List.append_assoc]; rfl)
    exact Bool.eq_false_iff.2 fun hcloses => hnever packets last [] rfl ⟨hopen, hcloses⟩

namespace Endpoint

variable {e : Endpoint} {methods : Option (Methods Handler)} {d : Dispatcher Handler}
  {packets : List Packet}

section Arrivals

variable {limit : Nat} (hpass : ∀ p ∈ packets, p.Passes limit)

include hpass

theorem readable_arrivals : ∀ r ∈ packets.map Receive.ofPacket, r.Readable limit := by
  intro r hr
  obtain ⟨p, hp, rfl⟩ := List.mem_map.1 hr
  exact ⟨p, (hpass p hp).packet?_eq⟩

theorem messages_arrivals :
    (packets.map Receive.ofPacket).flatMap (Receive.messages limit) =
      packets.flatMap Packet.messages := by
  rw [List.flatMap_map]
  exact List.flatMap_congr fun p hp => Receive.messages_of_packet? (hpass p hp).packet?_eq

end Arrivals

theorem closesDuring_arrivals (packets : List Packet) (calls : List Call) :
    closesDuring (packets.map Receive.ofPacket) calls = calls.any (·.reaction.closes) := by
  have hopen : (packets.map Receive.ofPacket).any Receive.closes = false := by
    rw [List.any_map, List.any_eq_false]
    exact fun p _ => Bool.false_ne_true
  rw [closesDuring, hopen, Bool.false_or]

section Served

variable (hbuild : Dispatcher.build methods = .ok d) (hattached : e.connection.attached = true)
  (hopen : e.isClosed = false)
  (hincoming : e.socket.incoming = packets.map Receive.ofPacket ++ [.datagram false []])
  (hpass : ∀ p ∈ packets, p.Passes e.connection.config.maxPacketSize)

include hbuild hattached hopen hincoming hpass

/-- Unless a handler closes the endpoint, all packets are taken, and then the empty datagram. -/
theorem serve_arrivals_of_open (hnone : (d.callsFor packets).any (·.reaction.closes) = false) :
    e.serve methods =
      ⟨.error (.core (.malformedPacket .empty)), d.callsFor packets, e.withIncoming []⟩ := by
  have hempty : (Receive.datagram false []).packet? e.connection.config.maxPacketSize =
      some (.error (.malformedPacket .empty)) := by
    rw [Receive.packet?, List.take_nil]
    rfl
  have hmessages := messages_arrivals hpass
  have hserves : d.Serves e.connection.config.maxPacketSize [] e.socket.outcomes
      (packets.map Receive.ofPacket ++ [.datagram false []])
      (.unreadable false (.malformedPacket .empty)) := by
    rw [Socket.outcomes, hincoming, List.append_assoc]
    refine .append (readable_arrivals hpass) ?_ (.unreadable hempty)
    rw [closesDuring_arrivals, hmessages]
    exact hnone
  rw [serve_of_serves hbuild hattached hopen hserves, hincoming, List.drop_length, List.flatMap_append,
    hmessages, List.flatMap_singleton,
    Receive.messages_of_not_readable (Receive.not_readable_of_error hempty), List.append_nil]
  rfl

/-- The first packet for which a handler closes the endpoint is the last that is taken. -/
theorem serve_arrivals_of_closes {before after : List Packet} {p : Packet}
    (hpackets : packets = before ++ p :: after) (hfirst : d.ClosesFirst before p) :
    e.serve methods =
      ⟨.ok (), d.callsFor (before ++ [p]),
        e.close.withIncoming (after.map Receive.ofPacket ++ [.datagram false []])⟩ := by
  subst hpackets
  obtain ⟨hnone, hsome⟩ := hfirst
  obtain ⟨hbefore, hothers⟩ := List.forall_mem_append.1 hpass
  have hp := (List.forall_mem_cons.1 hothers).1.packet?_eq
  have hmessages := messages_arrivals hbefore
  have htaken : (before ++ p :: after).map Receive.ofPacket ++ [.datagram false []] =
      (before.map Receive.ofPacket ++ [Receive.ofPacket p]) ++
        (after.map Receive.ofPacket ++ [.datagram false []]) := by
    simp
  have hserves : d.Serves e.connection.config.maxPacketSize [] e.socket.outcomes
      (before.map Receive.ofPacket ++ [Receive.ofPacket p]) .foundClosed := by
    rw [Socket.outcomes, hincoming, htaken, List.append_assoc, List.append_assoc]
    refine .append (readable_arrivals hbefore) ?_ (.foundClosed ⟨p, hp⟩ ?_)
    · rw [closesDuring_arrivals, hmessages]
      exact hnone
    · rw [d.callsFor_concat, List.any_append, hnone, Bool.false_or] at hsome
      rw [hmessages, List.append_nil, Dispatcher.closes, Receive.messages_of_packet? hp]
      exact hsome
  rw [serve_of_serves hbuild hattached hopen hserves, hincoming, htaken, List.drop_left,
    List.flatMap_append, hmessages, List.flatMap_singleton, Receive.messages_of_packet? hp,
    ← List.flatMap_singleton Packet.messages p, ← List.flatMap_append]
  rfl

end Served

end Endpoint

/-! ### Sending -/

structure Endpoint.Ready (e : Endpoint) : Prop where
  attached_eq : e.connection.attached = true
  sendFault_eq : e.socket.sendFault = none

def Endpoint.withSent (e : Endpoint) (sent : List Datagram) : Endpoint :=
  { e with socket := { e.socket with sent := sent } }

theorem Endpoint.transmit_of_ready {e : Endpoint} (hready : e.Ready) {p : Packet}
    (h : p.Passes e.connection.config.maxPacketSize) (destination : Destination)
    (name : SocketAddress) :
    e.transmit p destination name =
      (.ok (), e.withSent (e.socket.sent ++ [⟨p.bytes, destination⟩])) := by
  have hsize := Nat.not_lt.2 (h.length_le _ h.encode_eq)
  have hsend : e.socket.send ⟨p.bytes, destination⟩ =
      (.ok (), { e.socket with sent := e.socket.sent ++ [⟨p.bytes, destination⟩] }) := by
    unfold Socket.send
    split
    · rename_i reason hfault
      rw [hready.sendFault_eq] at hfault
      cases hfault
    · rfl
  simp only [transmit, prepare, h.encode_eq, if_neg hsize, hready.attached_eq, if_true, hsend]
  rfl

namespace Loopback.Ends

variable {ι : Type} {ends ends' : Ends ι}

/-- A packet that gets through to the server from its sender, which is connected to the server if the
packet is a message. -/
structure Sendable (ends : Ends ι) (post : ι × Packet) : Prop where
  ready : (ends.endpoint post.1).Ready
  dialed : post.2.isBundle = false → (ends.endpoint post.1).connection.remoteAddress = some ends.address
  leaves : post.2.Passes (ends.endpoint post.1).connection.config.maxPacketSize
  arrives : post.2.Passes (ends.endpoint ends.server).connection.config.maxPacketSize

/-- The endpoints after some have sent something. -/
structure HasSent (ends ends' : Ends ι) : Prop where
  server_eq : ends'.server = ends.server
  exists_sent : ∀ i, ∃ sent, ends'.endpoint i = (ends.endpoint i).withSent sent

theorem HasSent.refl (ends : Ends ι) : ends.HasSent ends := ⟨rfl, fun _ => ⟨_, rfl⟩⟩

theorem HasSent.trans {ends'' : Ends ι} (h : ends.HasSent ends') (h' : ends'.HasSent ends'') :
    ends.HasSent ends'' := by
  refine ⟨h'.server_eq.trans h.server_eq, fun i => ?_⟩
  obtain ⟨sent, hsent⟩ := h.exists_sent i
  obtain ⟨sent', hsent'⟩ := h'.exists_sent i
  exact ⟨sent', by rw [hsent', hsent]; rfl⟩

theorem Sendable.of_hasSent {post : ι × Packet} (h : ends.Sendable post) (hsent : ends.HasSent ends') :
    ends'.Sendable post := by
  obtain ⟨hready, hdialed, hleaves, harrives⟩ := h
  obtain ⟨sent, hsender⟩ := hsent.exists_sent post.1
  obtain ⟨sent', hserver⟩ := hsent.exists_sent ends.server
  have haddress : ends'.address = ends.address := by
    rw [address, hsent.server_eq, hserver]
    rfl
  refine ⟨?_, ?_, ?_, ?_⟩
  · rw [hsender]
    exact ⟨hready.attached_eq, hready.sendFault_eq⟩
  · rw [hsender, haddress]
    exact hdialed
  · rw [hsender]
    exact hleaves
  · rw [hsent.server_eq, hserver]
    exact harrives

theorem arrivals_of_sent (address : SocketAddress) (e : Endpoint) (datagram : Datagram)
    (htarget : target? e datagram.destination = some address) :
    arrivals address e (e.withSent (e.socket.sent ++ [datagram])) = [datagram.bytes] := by
  simp [arrivals, Endpoint.withSent, htarget]

section Posts

variable [DecidableEq ι]

theorem hasSent_set (ends : Ends ι) (i : ι) (sent : List Datagram) :
    ends.HasSent (ends.set i ((ends.endpoint i).withSent sent)) := by
  refine ⟨rfl, fun j => ?_⟩
  by_cases hj : j = i
  · subst hj
    exact ⟨sent, if_pos rfl⟩
  · exact ⟨_, if_neg hj⟩

theorem sendOne_of_sendable {sender : ι} {p : Packet} (h : ends.Sendable (sender, p)) :
    ∃ ends', ends.sendOne sender p = (.ok (), [p.bytes], ends') ∧ ends.HasSent ends' := by
  obtain ⟨hready, hdialed, hleaves, -⟩ := h
  have htransmit := Endpoint.transmit_of_ready hready hleaves
  cases p with
  | message m =>
    have hremote := hdialed rfl
    refine ⟨_, ?_, ends.hasSent_set sender
      ((ends.endpoint sender).socket.sent ++ [⟨(Packet.message m).bytes, .peer⟩])⟩
    simp only [sendOne, Endpoint.send, hremote, htransmit, arrivals_of_sent _ _ ⟨_, .peer⟩ hremote]
  | bundle timetag elements =>
    refine ⟨_, ?_, ends.hasSent_set sender
      ((ends.endpoint sender).socket.sent ++
        [⟨(Packet.bundle timetag elements).bytes, .address ends.address⟩])⟩
    simp only [sendOne, Endpoint.sendTo, htransmit, arrivals_of_sent _ _ ⟨_, .address _⟩ rfl]

theorem sendAll_of_sendable {posts : List (ι × Packet)} (h : ∀ post ∈ posts, ends.Sendable post) :
    ∃ ends', ends.sendAll posts =
        (posts.map fun _ => .ok (), posts.map fun post => post.2.bytes, ends') ∧
      ends.HasSent ends' := by
  induction posts generalizing ends with
  | nil => exact ⟨ends, rfl, .refl ends⟩
  | cons post posts ih =>
    obtain ⟨hpost, hposts⟩ := List.forall_mem_cons.1 h
    obtain ⟨ends', hsend, hsent⟩ := sendOne_of_sendable hpost
    obtain ⟨ends'', hsends, hsents⟩ := ih fun other hother => (hposts other hother).of_hasSent hsent
    exact ⟨ends'', by simp only [sendAll, hsend, hsends]; rfl, hsent.trans hsents⟩

/-- What was sent before does not matter for serving, only what arrives. -/
theorem exists_relay_eq {posts : List (ι × Packet)} (hposts : ∀ post ∈ posts, ends.Sendable post)
    (hidle : (ends.endpoint ends.server).socket.incoming = []) (methods : Option (Methods Handler)) :
    ∃ sent, ends.relay posts methods =
      (posts.map fun _ => .ok (), Endpoint.serve
        (((ends.endpoint ends.server).withSent sent).withIncoming
          ((posts.map Prod.snd).map Receive.ofPacket ++ [.datagram false []])) methods) := by
  obtain ⟨ends', hsends, hsent⟩ := sendAll_of_sendable hposts
  obtain ⟨sent, hserver⟩ := hsent.exists_sent ends.server
  have harrivals : (posts.map (fun post : ι × Packet => post.2.bytes) ++ [[]]).map
      (Receive.datagram false) = (posts.map Prod.snd).map Receive.ofPacket ++ [.datagram false []] := by
    rw [List.map_append, List.map_map, List.map_map]
    rfl
  have hqueue : ((ends.endpoint ends.server).withSent sent).socket.incoming = [] := hidle
  refine ⟨sent, ?_⟩
  simp only [relay, hsends, hsent.server_eq, hserver, harrivals, Socket.enqueue, hqueue,
    List.nil_append]
  rfl

/-- All sends succeed. If there is a first packet for whose messages a handler closes the server, then the
calls are those for the packets up to this one, and serving ends well, with the server closed. Otherwise
they are those for all packets, and serving ends with the empty datagram, which is no packet, and leaves
the server open. -/
theorem relay_delivers (ends : Ends ι) {methods : Option (Methods Handler)} {d : Dispatcher Handler}
    (hbuild : Dispatcher.build methods = .ok d)
    (hattached : (ends.endpoint ends.server).connection.attached = true)
    (hopen : (ends.endpoint ends.server).isClosed = false)
    (hidle : (ends.endpoint ends.server).socket.incoming = [])
    {posts : List (ι × Packet)} (hposts : ∀ post ∈ posts, ends.Sendable post) :
    let served := (ends.relay posts methods).2
    let packets := posts.map Prod.snd
    (ends.relay posts methods).1 = posts.map (fun _ => .ok ()) ∧
      (∀ before p after, packets = before ++ p :: after → d.ClosesFirst before p →
        served.calls = d.callsFor (before ++ [p]) ∧ served.result = .ok () ∧
          served.endpoint.isClosed = true) ∧
      ((∀ before p after, packets = before ++ p :: after → ¬ d.ClosesFirst before p) →
        served.calls = d.callsFor packets ∧
          served.result = .error (.core (.malformedPacket .empty)) ∧
          served.endpoint.isClosed = false) := by
  intro served packets
  obtain ⟨sent, hrelay⟩ := exists_relay_eq hposts hidle methods
  have hpass : ∀ p ∈ packets, p.Passes (ends.endpoint ends.server).connection.config.maxPacketSize := by
    intro p hp
    obtain ⟨post, hpost, rfl⟩ := List.mem_map.1 hp
    exact (hposts post hpost).arrives
  -- The server as it is when it starts to serve. It has not been closed by what was sent.
  let e := ((ends.endpoint ends.server).withSent sent).withIncoming
    (packets.map Receive.ofPacket ++ [.datagram false []])
  have hattached' : e.connection.attached = true := hattached
  have hopen' : e.isClosed = false := hopen
  have hserved : served = e.serve methods := congrArg Prod.snd hrelay
  rw [hserved]
  refine ⟨congrArg Prod.fst hrelay, fun before p after hpackets hfirst => ?_, fun hnever => ?_⟩
  · rw [Endpoint.serve_arrivals_of_closes hbuild hattached' hopen' rfl hpass hpackets hfirst]
    exact ⟨rfl, rfl, Endpoint.isClosed_close _⟩
  · rw [Endpoint.serve_arrivals_of_open hbuild hattached' hopen' rfl hpass (d.not_closes_of_never hnever)]
    exact ⟨rfl, rfl, hopen'⟩

end Posts

/-! ### A bundle that closes the server -/

/-- The server has just enough room for the bundle. -/
def adjacent : Ends Party :=
  opened (.v4 ⟨127, 0, 0, 1⟩ 9001) (.v4 ⟨127, 0, 0, 1⟩ 9000) ⟨44⟩

def greeting : Packet := .message ⟨"/a", [.string "naïve"]⟩

def farewell : Packet := .bundle .immediate [.message ⟨"/a", [.int (-1)]⟩, .message ⟨"/a", []⟩]

theorem passes_greeting {limit : Nat} (hleast : 16 ≤ limit) (hmost : limit < UInt32.size) :
    greeting.Passes limit :=
  Packet.passes_of_messages [⟨"/a", [.string "naïve"]⟩] (by simp [greeting]) (by decide)
    (Nat.le_trans (by decide) hleast) hmost

theorem passes_farewell : farewell.Passes 44 :=
  Packet.passes_of_messages [⟨"/a", [.int (-1)]⟩, ⟨"/a", []⟩] (by simp [farewell]) (by decide)
    (by decide) (by decide)

theorem sendable_adjacent :
    ∀ post ∈ [(Party.client, greeting), (.server, farewell), (.client, greeting)],
      adjacent.Sendable post := by
  have hclient : adjacent.Sendable (.client, greeting) :=
    ⟨⟨rfl, rfl⟩, fun _ => rfl, passes_greeting (by decide) (by decide),
      passes_greeting (by decide) (by decide)⟩
  have hserver : adjacent.Sendable (.server, farewell) :=
    ⟨⟨rfl, rfl⟩, nofun, passes_farewell, passes_farewell⟩
  simp [hclient, hserver]

/-- The first message of the bundle makes a handler close the server. The second is still dispatched, and
the last packet is not. -/
theorem relay_delivers_adjacent :
    let sends := (adjacent.exchange [greeting, farewell, greeting] (some .pair)).1
    let ended := (adjacent.exchange [greeting, farewell, greeting] (some .pair)).2
    let goesOn := (adjacent.exchange [greeting] (some .pair)).2
    sends = [.ok (), .ok (), .ok ()] ∧
      ended.calls = Dispatcher.pair.callsFor [greeting, farewell] ∧ ended.calls.length = 6 ∧
      ended.result = .ok () ∧ ended.endpoint.isClosed = true ∧
      goesOn.calls = Dispatcher.pair.callsFor [greeting] ∧
      goesOn.result = .error (.core (.malformedPacket .empty)) ∧ goesOn.endpoint.isClosed = false := by
  intro sends ended goesOn
  obtain ⟨hsends, hended, -⟩ := relay_delivers adjacent Dispatcher.build_pair rfl rfl rfl
    sendable_adjacent
  obtain ⟨-, -, hgoesOn⟩ := relay_delivers adjacent Dispatcher.build_pair rfl rfl rfl
    (List.forall_mem_singleton.2 (sendable_adjacent _ List.mem_cons_self))
  have hfirst : Dispatcher.pair.ClosesFirst [greeting] farewell := by decide +kernel
  obtain ⟨hcalls, hresult, hclosed⟩ := hended [greeting] farewell [greeting] rfl hfirst
  refine ⟨hsends, hcalls, hcalls ▸ (by decide +kernel), hresult, hclosed, ?_⟩
  refine hgoesOn fun before p after hpackets => ?_
  obtain ⟨rfl, rfl, rfl⟩ := Dispatcher.Serves.eq_of_singleton_eq hpackets
  decide +kernel

end Loopback.Ends

end OpenSound
