import Splice.Net.Word
import Splice.Proxy
/-!
# The maps of the kernel programs

Three maps keyed by words and an array of two debug slots. An insert under a new
key is refused when the map already holds `limit` rows; the programs go on
without it. A program that reads a row may also write through to it.
-/

namespace Splice.Kernel

/-! ## Layout -/

/-- How a map is declared in the object file. -/
structure MapDef where
  name : String
  /-- Number of the map's type. -/
  kind : Nat
  keySize : Nat
  valueSize : Nat
  maxEntries : Nat
  flags : Nat
  /-- 1 for a map pinned under its name. -/
  pinning : Nat
deriving DecidableEq, Inhabited, Repr

/-- Most rows a map is declared for. -/
def mapSize : Nat := 65535

def hashKind : Nat := 1
def arrayKind : Nat := 2
def lruHashKind : Nat := 9
def sockHashKind : Nat := 18

def pendingMap : MapDef := ⟨"MAP_ACTIVE_ESTAB", hashKind, RawEndpoint.size, RawEndpoint.size, mapSize, 0, 1⟩
def proxyMap : MapDef := ⟨"MAP_PROXY", hashKind, RawTuple.size, RawEntry.size, mapSize, 0, 1⟩
def redirectMap : MapDef := ⟨"MAP_REDIR", sockHashKind, RawTuple.size, 4, mapSize, 0, 1⟩
def debugMap : MapDef := ⟨"DEBUG_MAP", arrayKind, 4, 4, 2, 0, 1⟩

/-- The maps in the order they are declared. -/
def mapDefs : List MapDef := [pendingMap, proxyMap, redirectMap, debugMap]

/-- Names of the programs: lifecycle tracker, message redirect, egress classifier. -/
def trackerProgram : String := "bypass_sockops"
def redirectProgram : String := "bypass_redir"
def classifierProgram : String := "bypass_disable"

def programs : List String := [trackerProgram, redirectProgram, classifierProgram]

/-- The sidecar's address, 127.0.0.6, as a map word. -/
def sidecarWord : UInt32 := 0x0600007f

/-! ## Contents -/

/-- The maps' rows. `S` is whatever names a live socket. -/
structure Maps (S : Type) where
  limit : Nat
  pending : Std.ExtTreeMap RawEndpoint RawEndpoint
  proxy : Std.ExtTreeMap RawTuple RawEntry
  redirect : Std.ExtTreeMap RawTuple S
  /-- Debug slot 0: tracing is on when it is 1. -/
  tracing : UInt32
  /-- Debug slot 1: data units redirected while tracing was on. -/
  packets : UInt32

/-- Maps without rows and zero slots. -/
def Maps.empty {S : Type} : Maps S := ⟨mapSize, ∅, ∅, ∅, 0, 0⟩

/-- The word in debug slot 0 that turns tracing on or off. -/
def tracingWord (on : Bool) : UInt32 := if on then 1 else 0

/-- Whether an operator takes tracing to be on, by the word in debug slot 0. -/
def tracingOn (w : UInt32) : Bool := w != 0

/-- Turns tracing on or off from outside the kernel. -/
def Maps.setTracing {S : Type} (m : Maps S) (on : Bool) : Maps S := { m with tracing := tracingWord on }

section Rows

variable {κ α : Type} [Ord κ] [Std.TransOrd κ]

/-- Writes a row, in place of any row of that key; a new key is refused when
`limit` rows are there. -/
def putRow (limit : Nat) (m : Std.ExtTreeMap κ α) (k : κ) (v : α) : Std.ExtTreeMap κ α :=
  if k ∈ m ∨ m.size < limit then m.insert k v else m

/-- Writes a row unless the key has one. -/
def addRow (limit : Nat) (m : Std.ExtTreeMap κ α) (k : κ) (v : α) : Std.ExtTreeMap κ α :=
  if k ∈ m then m else putRow limit m k v

end Rows

/-- What one run of a program did besides writing the maps. -/
structure Outcome (S : Type) where
  maps : Maps S
  /-- The program's return value. -/
  value : UInt32
  /-- The event flags it set on the socket. -/
  socketFlags : UInt32 := 0
  /-- The socket a message was handed to. -/
  redirectedTo : Option S := none
  /-- The line it printed. -/
  printed : Option String := none

end Splice.Kernel
