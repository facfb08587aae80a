import Splice.Kernel.Maps
/-!
# Maps of the running kernel

A map as the kernel keeps it for anyone who opens it: its type, its sizes, and
rows of octets. An array has every slot from the start; a map of sockets cannot
be read or written from outside the kernel.
-/

namespace Splice.Host

structure BpfMap where
  /-- Number of the map's type. -/
  kind : Nat
  keySize : Nat
  valueSize : Nat
  /-- Most rows it takes; of an array, the number of slots. -/
  capacity : Nat
  /-- The rows that were written, in the order of their first writing. -/
  rows : List (List UInt8 × List UInt8)
deriving DecidableEq, Inhabited, Repr

namespace BpfMap

open Kernel (MapDef hashKind arrayKind lruHashKind sockHashKind)

/-- The kernel makes maps of this declaration. -/
def admits (d : MapDef) : Bool :=
  0 < d.maxEntries &&
    if d.kind = arrayKind then d.keySize == 4 && 0 < d.valueSize
    else if d.kind = hashKind ∨ d.kind = lruHashKind then 0 < d.keySize && 0 < d.valueSize
    else if d.kind = sockHashKind then 0 < d.keySize && (d.valueSize == 4 || d.valueSize == 8)
    else false

/-- A new map of a declaration. -/
def create? (d : MapDef) : Option BpfMap :=
  if admits d then some ⟨d.kind, d.keySize, d.valueSize, d.maxEntries, []⟩ else none

/-- The slot of an array that a key stands for. -/
def slot? (m : BpfMap) (key : List UInt8) : Option Nat :=
  match wordsOfOctets key with
  | [w] => if w.toNat < m.capacity then some w.toNat else none
  | _ => none

/-- The row that was written under a key. -/
def written? (m : BpfMap) (key : List UInt8) : Option (List UInt8) :=
  (m.rows.find? (·.1 == key)).map (·.2)

/-- The value under a key. -/
def lookup? (m : BpfMap) (key : List UInt8) : Option (List UInt8) :=
  if m.kind = sockHashKind then none
  else if m.kind = arrayKind then
    (m.slot? key).map fun _ => (m.written? key).getD (List.replicate m.valueSize 0)
  else m.written? key

/-- Gives the rows of `m` a value under a key. -/
def putRow (m : BpfMap) (key value : List UInt8) : BpfMap :=
  if (m.written? key).isSome then
    { m with rows := m.rows.map fun row => if row.1 = key then (key, value) else row }
  else { m with rows := m.rows ++ [(key, value)] }

/-- Writes a value under a key, if the kernel takes it. A full map takes no new
key, except that an LRU map gives up its first row. -/
def update? (m : BpfMap) (key value : List UInt8) : Option BpfMap :=
  if m.kind = sockHashKind then none
  else if m.kind = arrayKind then (m.slot? key).map fun _ => m.putRow key value
  else if (m.written? key).isSome ∨ m.rows.length < m.capacity then some (m.putRow key value)
  else if m.kind = lruHashKind then some (BpfMap.putRow { m with rows := m.rows.tail } key value)
  else none

/-- The map has keys and values of these sizes. -/
def fits (m : BpfMap) (keySize valueSize : Nat) : Bool := m.keySize == keySize && m.valueSize == valueSize

end BpfMap

end Splice.Host
