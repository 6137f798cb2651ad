/-!
# Settings of a connection

A connection has one setting: how large a datagram may be.
-/

namespace OpenSound

structure Config where
  /-- The greatest size of a datagram, in either direction. -/
  maxPacketSize : Nat
  deriving DecidableEq, Repr

/-- The largest payload that a datagram can have at all. -/
def Config.default : Config := ⟨65507⟩

instance : Inhabited Config := ⟨Config.default⟩

end OpenSound
