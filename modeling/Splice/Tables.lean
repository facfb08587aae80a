import Splice.Debug
import Splice.Note
/-!
# The tables of a bypass

The handlers share four tables: pending origins, proxy rows, registered sockets
and the debug slots. A handler takes the tables and gives back a `Reaction`: the
tables afterwards, its answer, and what it reports.
-/

namespace Splice

/-- The state the handlers share; `S` is whatever names a live socket. -/
structure Tables (S : Type) where
  /-- The own endpoint of a connecting socket, and the destination it connected
  to, until the accepting side claims it or the socket closes. -/
  pending : Table Endpoint Endpoint
  proxy : ProxyTable
  /-- Each established socket by its own tuple. -/
  redirect : Table Tuple S
  debug : Debug

/-- What a handler did. -/
structure Reaction (S α : Type) where
  tables : Tables S
  reply : α
  notes : List Note

namespace Tables

/-- Empty tables, each with room for `capacity` rows. -/
def empty {S : Type} (capacity : Nat) : Tables S :=
  ⟨.empty .pendingOrigin capacity, .empty .proxy capacity, .empty .redirect capacity, .empty⟩

/-- Records that the socket at `initiator` connected to `origin`, unless a
destination is already pending for it. -/
def recordOrigin {S : Type} (T : Tables S) (initiator origin : Endpoint) :
    Except TableError (Tables S × Bool) :=
  (T.pending.insertIfAbsent initiator origin).map fun (pending, recorded) => ({ T with pending }, recorded)

/-- Registers the socket owning `t`, in place of an earlier one. -/
def registerSocket {S : Type} (T : Tables S) (t : Tuple) (socket : S) : Except TableError (Tables S) :=
  (T.redirect.upsert t socket).map fun redirect => { T with redirect }

end Tables

end Splice
