import Splice.Main
import Splice.Bypass
import Splice.Kernel.SockOps
import Splice.Kernel.Message
import Splice.Kernel.Classifier
import Splice.Proofs.Redirects
import Splice.Proofs.Staleness
import Splice.Proofs.Interleaving
import Splice.Proofs.Agreement
import Splice.Proofs.Pairing
import Splice.Proofs.Rising
import Splice.Proofs.Grammar
import Splice.Proofs.Classifier
import Splice.Proofs.Orientation
import Splice.Proofs.Refusal
import Splice.Proofs.Lifetime
import Splice.Proofs.LiveRows
import Splice.Proofs.HalfPairs
import Splice.Proofs.Tracing
import Splice.Proofs.Attachments
import Splice.Proofs.FiniteMap
import Splice.Proofs.PairRoom
import Splice.Proofs.Race
import Splice.Proofs.Outcome
import Splice.Proofs.Truncation
import Splice.Proofs.Bounds
import Splice.Proofs.HeaderLengths
import Splice.Proofs.Listings
import Splice.Proofs.StoredForms
import Splice.Proofs.FirstFault
import Splice.Proofs.Unpinning
import Splice.Proofs.Lines
