/-!
# Debug slots

An operator turns redirect tracing on and off; while it is on, redirected data
units are counted. The counter is a 64-bit word and wraps.
-/

namespace Splice

structure Debug where
  /-- 1 while tracing is on, otherwise 0. -/
  enabled : UInt32
  /-- Data units redirected while tracing was on. -/
  packets : UInt64
deriving DecidableEq, Inhabited, Repr

namespace Debug

/-- Index of the slot that turns tracing on. -/
def enabledSlot : Nat := 0

/-- Index of the counter. -/
def packetsSlot : Nat := 1

/-- Number of slots. -/
def slotCount : Nat := 2

/-- Tracing off, nothing counted. -/
def empty : Debug := ⟨0, 0⟩

def setEnabled (d : Debug) (on : Bool) : Debug := { d with enabled := if on then 1 else 0 }

def isEnabled (d : Debug) : Bool := d.enabled == 1

/-- Counts one data unit. -/
def count (d : Debug) : Debug := { d with packets := d.packets + 1 }

/-- The value of a slot. -/
def slot? (d : Debug) (index : Nat) : Option UInt64 :=
  if index = enabledSlot then some d.enabled.toUInt64
  else if index = packetsSlot then some d.packets
  else none

@[simp] theorem isEnabled_setEnabled (d : Debug) (on : Bool) : (d.setEnabled on).isEnabled = on := by
  cases on <;> rfl

end Debug

end Splice
