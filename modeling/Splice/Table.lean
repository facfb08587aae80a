import Std.Data.ExtTreeMap
import Splice.Net.Decimal
/-!
# Tables of bounded size

A table holds at most `capacity` rows. Before a new key is written a place is
reserved for it, and the place is given back when the key is removed; a write
under a key that is present needs no place. So a refused write changes nothing,
and `size`, the number of places taken, is the number of rows (`Counted`).
-/

namespace Splice

/-- The tables of the bypass, as its errors name them. -/
inductive TableName where
  | pendingOrigin
  | proxy
  | redirect
deriving DecidableEq, Inhabited, Repr

def TableName.text : TableName → String
  | .pendingOrigin => "pending-origin"
  | .proxy => "proxy"
  | .redirect => "redirect"

/-- Why a table refused a write. -/
inductive TableError where
  /-- A new key, and every place was taken. -/
  | full (table : TableName) (capacity : Nat)
deriving DecidableEq, Inhabited, Repr

def TableError.message : TableError → String
  | .full table capacity => table.text ++ " table is full (" ++ Decimal.text capacity ++ " entries)"

/-- The number of rows a table has room for unless it is told otherwise, and
the size of the kernel's maps. -/
def defaultCapacity : Nat := 65535

/-- Rows under distinct keys, bounded in number. -/
structure Table (κ α : Type) [Ord κ] where
  name : TableName
  capacity : Nat
  /-- Places reserved. -/
  size : Nat
  rows : Std.ExtTreeMap κ α

namespace Table

variable {κ α : Type} [Ord κ] [Std.TransOrd κ]

/-- A table without rows. -/
def empty (name : TableName) (capacity : Nat) : Table κ α := ⟨name, capacity, 0, ∅⟩

/-- The value under `k`. -/
def get? (t : Table κ α) (k : κ) : Option α := t.rows[k]?

/-- Takes a place for one more row. -/
def reserve (t : Table κ α) : Except TableError (Table κ α) :=
  if t.size < t.capacity then .ok { t with size := t.size + 1 }
  else .error (.full t.name t.capacity)

/-- Writes `v` under `k`, which is new: reserves a place first. -/
def append (t : Table κ α) (k : κ) (v : α) : Except TableError (Table κ α) :=
  t.reserve.map fun t => { t with rows := t.rows.insert k v }

/-- Writes `v` under `k` unless a value is there, and says whether it did. -/
def insertIfAbsent (t : Table κ α) (k : κ) (v : α) : Except TableError (Table κ α × Bool) :=
  match t.get? k with
  | some _ => .ok (t, false)
  | none => (t.append k v).map (·, true)

/-- Writes `v` under `k`, in place of any value there. -/
def upsert (t : Table κ α) (k : κ) (v : α) : Except TableError (Table κ α) :=
  match t.get? k with
  | some _ => .ok { t with rows := t.rows.insert k v }
  | none => t.append k v

/-- Replaces the value under `k` by what `f` makes of it, if `f` makes
anything. Returns the value that was there. -/
def update (t : Table κ α) (k : κ) (f : α → Option α) : Table κ α × Option α :=
  match t.get? k with
  | none => (t, none)
  | some v =>
    match f v with
    | none => (t, some v)
    | some w => ({ t with rows := t.rows.insert k w }, some v)

/-- Removes the row of `k` and returns its value. -/
def remove (t : Table κ α) (k : κ) : Table κ α × Option α :=
  match t.get? k with
  | none => (t, none)
  | some v => ({ t with size := t.size - 1, rows := t.rows.erase k }, some v)

def isEmpty (t : Table κ α) : Bool := t.size == 0

/-- Places and rows agree, and there are no more of them than there is room. -/
def Counted (t : Table κ α) : Prop := t.size = t.rows.size ∧ t.size ≤ t.capacity

/-! ## What each operation does to the rows -/

@[simp] theorem get?_empty (name : TableName) (capacity : Nat) (k : κ) :
    (empty name capacity : Table κ α).get? k = none := by simp [empty, get?]

theorem append_of_room {t : Table κ α} (h : t.size < t.capacity) (k : κ) (v : α) :
    t.append k v = .ok { t with size := t.size + 1, rows := t.rows.insert k v } := by
  simp [append, reserve, h, Except.map]

theorem append_of_full {t : Table κ α} (h : ¬t.size < t.capacity) (k : κ) (v : α) :
    t.append k v = .error (.full t.name t.capacity) := by
  simp [append, reserve, h, Except.map]

theorem get?_remove [Std.LawfulEqOrd κ] [DecidableEq κ] (t : Table κ α) (k j : κ) :
    (t.remove k).1.get? j = if k = j then none else t.get? j := by
  simp only [remove]
  split
  · rename_i h
    by_cases hk : k = j
    · subst hk; simpa using h
    · simp [hk]
  · simp [get?, Std.ExtTreeMap.getElem?_erase]

theorem snd_remove (t : Table κ α) (k : κ) : (t.remove k).2 = t.get? k := by
  simp only [remove]; split <;> simp_all

theorem snd_update (t : Table κ α) (k : κ) (f : α → Option α) : (t.update k f).2 = t.get? k := by
  simp only [update]; split
  · simp_all
  · split <;> simp_all

theorem get?_update [Std.LawfulEqOrd κ] [DecidableEq κ] (t : Table κ α) (k j : κ) (f : α → Option α) :
    (t.update k f).1.get? j =
      if k = j then (t.get? j).map fun v => (f v).getD v else t.get? j := by
  simp only [update]
  split
  · rename_i h
    by_cases hk : k = j
    · subst hk; simp [h]
    · simp [hk]
  · rename_i v h
    split
    · rename_i hf
      by_cases hk : k = j
      · subst hk; simp [h, hf]
      · simp [hk]
    · rename_i w hf
      by_cases hk : k = j
      · subst hk; simp [get?] at h ⊢; simp [h, hf]
      · simp [get?, Std.ExtTreeMap.getElem?_insert, hk]

omit [Std.TransOrd κ] in
theorem counted_empty (name : TableName) (capacity : Nat) :
    (empty name capacity : Table κ α).Counted := by simp [empty, Counted]

end Table

end Splice
