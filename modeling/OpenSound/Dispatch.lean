import OpenSound.Methods
import OpenSound.Packet.Basic
/-!
# Calling handlers

What a handler does to the world is a value: whether it closes the connection that is being served,
and the failure that it reports, if any. A handler may have a memory, alone or in common with others,
so what it does may depend on all calls that came before. A call records the handler, the message it
was passed and what came of it. All handlers that match a message are called, in the order of the
table; neither a failure nor a close keeps a later one from being called.
-/

namespace OpenSound

structure Reaction where
  closes : Bool
  failure : Option String
  deriving DecidableEq, Repr

structure Call where
  handler : String
  message : Message
  reaction : Reaction
  deriving DecidableEq, Repr

/-- A method's handler: what it is known by, and how it reacts to a message after the calls that came
before, the latest first. -/
structure Handler where
  name : String
  react : List Call → Message → Reaction

def Handler.call (h : Handler) (earlier : List Call) (m : Message) : Call :=
  ⟨h.name, m, h.react earlier m⟩

/-- Calls one handler after the other with the same message. -/
def Handler.callEach (m : Message) : List Handler → (earlier : List Call) → List Call
  | [], _ => []
  | h :: handlers, earlier =>
    let call := h.call earlier m
    call :: callEach m handlers (call :: earlier)

namespace Dispatcher

/-- Passes a message to every handler whose pattern its address matches. -/
def dispatch (d : Dispatcher Handler) (earlier : List Call) (m : Message) : List Call :=
  Handler.callEach m (d.handlersFor m.address) earlier

def dispatchAll (d : Dispatcher Handler) : (earlier : List Call) → List Message → List Call
  | _, [] => []
  | earlier, m :: messages =>
    let calls := d.dispatch earlier m
    calls ++ d.dispatchAll (calls.reverse ++ earlier) messages

/-- Passes on all messages of a packet, in wire order. -/
def deliver (d : Dispatcher Handler) (earlier : List Call) (p : Packet) : List Call :=
  d.dispatchAll earlier p.messages

end Dispatcher

end OpenSound
