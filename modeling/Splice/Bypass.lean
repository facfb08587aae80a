import Splice.Egress
import Splice.Tracker
import Splice.Verdict
/-!
# The bypass

The handlers wired to one set of tables and one sidecar address. An `Event` is
one call of a handler; `Bypass.run` is a history of them.
-/

namespace Splice

/-- Where the sidecar listens for inbound connections, unless told otherwise. -/
def defaultSidecar : Ipv4 := ⟨127, 0, 0, 6⟩

structure Bypass (S : Type) where
  sidecar : Ipv4
  tables : Tables S

/-- One call of a handler. -/
inductive Event (S : Type) where
  | connected (s : Socket S)
  | accepted (s : Socket S)
  | stateChanged (s : Socket S) (state : TcpState)
  | message (own : Tuple)
  | egress (frame : Octets)

/-- A handler's answer. -/
inductive Reply (S : Type) where
  | tracked (r : Tracked)
  | verdict (v : Verdict S)
  | egress (e : Egress)

namespace Bypass

variable {S : Type}

/-- A bypass with empty tables. -/
def empty (sidecar : Ipv4) (capacity : Nat) : Bypass S := ⟨sidecar, .empty capacity⟩

/-- Calls the handler of an event. -/
def handle (b : Bypass S) : Event S → Reaction S (Reply S)
  | .connected s =>
    let r := b.tables.connected b.sidecar s
    ⟨r.tables, .tracked r.reply, r.notes⟩
  | .accepted s =>
    let r := b.tables.accepted b.sidecar s
    ⟨r.tables, .tracked r.reply, r.notes⟩
  | .stateChanged s state =>
    let r := b.tables.stateChanged s state
    ⟨r.tables, .tracked r.reply, r.notes⟩
  | .message own =>
    let r := b.tables.onMessage b.sidecar own
    ⟨r.tables, .verdict r.reply, r.notes⟩
  | .egress frame =>
    let r := b.tables.onEgress frame
    ⟨r.tables, .egress r.reply, r.notes⟩

/-- The bypass after an event. -/
def step (b : Bypass S) (e : Event S) : Bypass S := { b with tables := (b.handle e).tables }

/-- The bypass after a history of events, the earliest first. -/
def run (b : Bypass S) (es : List (Event S)) : Bypass S := es.foldl step b

end Bypass

end Splice
