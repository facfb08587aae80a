import Splice.BpfError
import Splice.Debug
import Splice.Host.Machine
import Splice.Listing
/-!
# Pinned maps

The maps of an installation are files in its pin directory. `unpin` removes
them. The debug slots and the listings are reached through them, by any process
that knows the directory.
-/

namespace Splice.Pins

open Host

/-- The pinned maps' names, in the order they are removed. -/
def names : List String := Kernel.mapDefs.map (·.name)

/-! ## Removing -/

/-- Removes the files of some names in a directory and counts them. A missing
file is passed over; the first one that cannot be removed ends it. -/
def unpinNames {σ : Type} (remove : String → StateM σ (Except Fault Unit)) (dir : String) :
    List String → Nat → StateM σ (Except BpfError Nat)
  | [], removed => return .ok removed
  | name :: names, removed => do
    let path := Path.join dir name
    match ← remove path with
    | .ok () => unpinNames remove dir names (removed + 1)
    | .error .notFound => unpinNames remove dir names removed
    | .error fault => return .error (.path .unpin path fault)

/-- Removes the pinned maps of a directory. -/
def unpin {σ : Type} (remove : String → StateM σ (Except Fault Unit)) (dir : String) :
    StateM σ (Except BpfError Nat) := unpinNames remove dir names 0

/-! ## Opening -/

/-- The pinned map of a name, with keys and values of these sizes, and its
number. -/
def openMap (m : Machine) (dir name : String) (keySize valueSize : Nat) :
    Except BpfError (Nat × BpfMap) :=
  let path := Path.join dir name
  if m.files.present path then
    match (m.pinned? path).bind fun number => (m.maps[number]?).map (number, ·) with
    | some (number, map) => if map.fits keySize valueSize then .ok (number, map) else .error .mapUnfit
    | none => .error .mapUnfit
  else .error (.mapMissing name)

/-- How many programs are attached to the redirect map, if it is pinned and is a
map of sockets. -/
def redirectsAttached (m : Machine) (dir : String) : Option Nat := do
  let number ← m.pinned? (Path.join dir Kernel.redirectMap.name)
  if m.accepts (.map number) then some (m.attached (.map number)) else none

/-! ## Debug slots -/

/-- The map of the debug slots. -/
def openDebug (m : Machine) (dir : String) : Except BpfError (Nat × BpfMap) :=
  openMap m dir Kernel.debugMap.name Kernel.debugMap.keySize Kernel.debugMap.valueSize

/-- The key of a slot. -/
def slotKey (slot : Nat) : List UInt8 := wordOctets (.ofNat slot)

/-- The word in a slot. -/
def readSlot (map : BpfMap) (slot : Nat) : Except BpfError UInt32 :=
  if slot < map.capacity then
    match (map.lookup? (slotKey slot)).map wordsOfOctets with
    | some [w] => .ok w
    | _ => .error .mapUnfit
  else .error .mapUnfit

/-- The map with a word in a slot. -/
def writeSlot (map : BpfMap) (slot : Nat) (w : UInt32) : Except BpfError BpfMap :=
  if slot < map.capacity then
    match map.update? (slotKey slot) (wordOctets w) with
    | some map => .ok map
    | none => .error .mapUnfit
  else .error .mapUnfit

/-- Whether tracing is on, and how many data units were redirected while it was. -/
def debugState (m : Machine) (dir : String) : Except BpfError (Bool × UInt32) := do
  let (_, map) ← openDebug m dir
  let enabled ← readSlot map Debug.enabledSlot
  let packets ← readSlot map Debug.packetsSlot
  return (Kernel.tracingOn enabled, packets)

/-- Turns tracing on or off. -/
def setDebug (m : Machine) (dir : String) (on : Bool) : Except BpfError Machine := do
  let (number, map) ← openDebug m dir
  let map ← writeSlot map Debug.enabledSlot (Kernel.tracingWord on)
  return { m with maps := m.maps.set number map }

/-! ## Listings -/

/-- A row of the proxy map. -/
def proxyRow? (row : List UInt8 × List UInt8) : Option (RawTuple × RawEntry) :=
  match wordsOfOctets row.1, wordsOfOctets row.2 with
  | [a, b, c, d], [e, f, g, h, flag] => some (⟨⟨a, b⟩, ⟨c, d⟩⟩, ⟨⟨⟨e, f⟩, ⟨g, h⟩⟩, flag⟩)
  | _, _ => none

/-- A row of the map of pending destinations. -/
def pendingRow? (row : List UInt8 × List UInt8) : Option (RawEndpoint × RawEndpoint) :=
  match wordsOfOctets row.1, wordsOfOctets row.2 with
  | [a, b], [c, d] => some (⟨a, b⟩, ⟨c, d⟩)
  | _, _ => none

/-- Opens both maps of the listings, that of the proxy rows first, and gives the
rows of each. -/
def openTables (m : Machine) (dir : String) :
    Except BpfError (List (RawTuple × RawEntry) × List (RawEndpoint × RawEndpoint)) := do
  let (_, proxy) ← openMap m dir Kernel.proxyMap.name Kernel.proxyMap.keySize Kernel.proxyMap.valueSize
  let (_, pending) ← openMap m dir Kernel.pendingMap.name Kernel.pendingMap.keySize Kernel.pendingMap.valueSize
  return (proxy.rows.filterMap proxyRow?, pending.rows.filterMap pendingRow?)

/-- The proxy rows of a pin directory. -/
def entries (m : Machine) (dir : String) : Except BpfError (List (Tuple × ProxyEntry)) := do
  return proxyListing (← openTables m dir).1

/-- The pending destinations of a pin directory. -/
def pending (m : Machine) (dir : String) : Except BpfError (List (Endpoint × Endpoint)) := do
  return pendingListing (← openTables m dir).2

/-- Writes a row of the map pinned under a name, if the kernel takes it. -/
def write (m : Machine) (dir name : String) (key value : List UInt8) : Option Machine := do
  let number ← m.pinned? (Path.join dir name)
  let map ← m.maps[number]?
  let map ← map.update? key value
  return { m with maps := m.maps.set number map }

end Splice.Pins
