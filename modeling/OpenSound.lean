import OpenSound.UnixTime
import OpenSound.Connection.Host
import OpenSound.Connection.Loopback
import OpenSound.Json.Packet
import OpenSound.Proofs.RoundTrip
import OpenSound.Proofs.Refusal
import OpenSound.Proofs.Canonical
import OpenSound.Proofs.Matching
import OpenSound.Proofs.Lifetime
import OpenSound.Proofs.Endings
import OpenSound.Proofs.Delivery
import OpenSound.Proofs.Format
import OpenSound.Proofs.Pieces
import OpenSound.Proofs.Registration
import OpenSound.Proofs.Failures
import OpenSound.Proofs.Exchange
import OpenSound.Proofs.Outbound
import OpenSound.Proofs.Legality
import OpenSound.Proofs.Records
import OpenSound.Proofs.Filling
import OpenSound.Proofs.Unwritable
import OpenSound.Proofs.Truncation
import OpenSound.Proofs.UnknownTags
import OpenSound.Proofs.Amplification
import OpenSound.Proofs.Consumption
import OpenSound.Proofs.Occurrence
import OpenSound.Proofs.Eras
import OpenSound.Proofs.Building
import OpenSound.Proofs.Equality
import OpenSound.Proofs.Literals
import OpenSound.Proofs.Readers
import OpenSound.Proofs.Signs
import OpenSound.Proofs.Alignment
import OpenSound.Proofs.ClassItems
