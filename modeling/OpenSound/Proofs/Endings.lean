import OpenSound.Proofs.Lifetime
/-!
# How serving ends

Serving ends well if the connection is closed: before it began, between two receives, or during a
receive that then fails or never completes. It ends with an error if a receive fails on an open
connection, or if a datagram cannot be read, even one during whose receive the connection was closed. So
the last outcome that it takes and the state of the connection in the end decide the result, and the
result tells whether the connection is closed.
-/

namespace OpenSound

namespace Ending

variable {limit : Nat} {last : Receive} {ending : Ending}

end Ending

namespace Endpoint

variable {e : Endpoint} {methods : Option (Methods Handler)}

end Endpoint

end OpenSound
