import Mathlib.Data.List.Perm.Subperm
import Splice.Table
/-!
# Bounded tables as maps

A table is a map with a limit on its keys. `HasRoom` says when a write is
accepted, `put` what an accepted write leaves, and `upsert_eq`,
`insertIfAbsent_eq` give the two writing operations in these terms. `tryPut` and
`tryAdd` are the tables a caller is left with when it ignores a refusal. Every
operation keeps places and rows in step (`Counted`).
-/

namespace Splice.Table

variable {κ α : Type} [Ord κ] [Std.TransOrd κ] {t : Table κ α} {k : κ}

/-- A write under `k` is accepted: `k` has a row already, or a place is free. -/
def HasRoom (t : Table κ α) (k : κ) : Prop := (t.get? k).isSome ∨ t.size < t.capacity

instance (t : Table κ α) (k : κ) : Decidable (t.HasRoom k) := inferInstanceAs (Decidable (_ ∨ _))

/-- The table with `v` under `k`. -/
def put (t : Table κ α) (k : κ) (v : α) : Table κ α :=
  { t with size := if (t.get? k).isSome then t.size else t.size + 1, rows := t.rows.insert k v }

/-- The table after an attempt to write `v` under `k`. -/
def tryPut (t : Table κ α) (k : κ) (v : α) : Table κ α := if t.HasRoom k then t.put k v else t

/-- The table after an attempt to write `v` under `k` unless a value is there. -/
def tryAdd (t : Table κ α) (k : κ) (v : α) : Table κ α := if (t.get? k).isSome then t else t.tryPut k v

/-! ## The writing operations -/

theorem upsert_eq (t : Table κ α) (k : κ) (v : α) :
    t.upsert k v = if t.HasRoom k then .ok (t.put k v) else .error (.full t.name t.capacity) := by
  unfold upsert
  cases h : t.get? k with
  | some w => simp [HasRoom, put, h]
  | none =>
    by_cases hr : t.size < t.capacity
    · simp [HasRoom, put, h, hr, append_of_room]
    · simp [HasRoom, h, hr, append_of_full]

theorem insertIfAbsent_eq (t : Table κ α) (k : κ) (v : α) :
    t.insertIfAbsent k v =
      if (t.get? k).isSome then .ok (t, false)
      else if t.HasRoom k then .ok (t.put k v, true) else .error (.full t.name t.capacity) := by
  unfold insertIfAbsent
  cases h : t.get? k with
  | some w => simp
  | none =>
    by_cases hr : t.size < t.capacity
    · simp [HasRoom, put, h, hr, append_of_room, Except.map]
    · simp [HasRoom, h, hr, append_of_full, Except.map]

/-- An update writes where it makes something of the value it meets. -/
theorem update_eq (t : Table κ α) (k : κ) (f : α → Option α) :
    (t.update k f).1 = match (t.get? k).bind f with
      | some w => t.put k w
      | none => t := by
  unfold update
  cases hv : t.get? k with
  | none => rfl
  | some v =>
    cases hw : f v with
    | none => simp [hw]
    | some w => simp [hw, put, hv]

@[simp] theorem capacity_put (t : Table κ α) (k : κ) (v : α) : (t.put k v).capacity = t.capacity := rfl

@[simp] theorem capacity_tryPut (t : Table κ α) (k : κ) (v : α) : (t.tryPut k v).capacity = t.capacity := by
  unfold tryPut; split <;> rfl

@[simp] theorem capacity_tryAdd (t : Table κ α) (k : κ) (v : α) : (t.tryAdd k v).capacity = t.capacity := by
  unfold tryAdd; split <;> simp

@[simp] theorem name_put (t : Table κ α) (k : κ) (v : α) : (t.put k v).name = t.name := rfl

@[simp] theorem name_tryPut (t : Table κ α) (k : κ) (v : α) : (t.tryPut k v).name = t.name := by
  unfold tryPut; split <;> rfl

@[simp] theorem name_tryAdd (t : Table κ α) (k : κ) (v : α) : (t.tryAdd k v).name = t.name := by
  unfold tryAdd; split <;> simp

@[simp] theorem capacity_remove (t : Table κ α) (k : κ) : (t.remove k).1.capacity = t.capacity := by
  unfold remove; split <;> rfl

@[simp] theorem name_remove (t : Table κ α) (k : κ) : (t.remove k).1.name = t.name := by
  unfold remove; split <;> rfl

theorem size_remove (t : Table κ α) (k : κ) :
    (t.remove k).1.size = if (t.get? k).isSome then t.size - 1 else t.size := by
  unfold remove
  cases t.get? k <;> rfl

theorem remove_of_none (h : t.get? k = none) : (t.remove k).1 = t := by
  unfold remove
  rw [h]

@[simp] theorem capacity_update (t : Table κ α) (k : κ) (f : α → Option α) :
    (t.update k f).1.capacity = t.capacity := by
  unfold update
  split
  · rfl
  · split <;> rfl

@[simp] theorem name_update (t : Table κ α) (k : κ) (f : α → Option α) : (t.update k f).1.name = t.name := by
  unfold update
  split
  · rfl
  · split <;> rfl

/-- An update takes no place and gives none back. -/
@[simp] theorem size_update (t : Table κ α) (k : κ) (f : α → Option α) : (t.update k f).1.size = t.size := by
  unfold update
  split
  · rfl
  · split <;> rfl

theorem tryPut_of_room (h : t.HasRoom k) (v : α) : t.tryPut k v = t.put k v := if_pos h

/-! ## Places and rows in step -/

theorem contains_rows (t : Table κ α) (k : κ) : t.rows.contains k = (t.get? k).isSome :=
  Std.ExtTreeMap.isSome_getElem?_eq_contains.symm

theorem Counted.put (h : t.Counted) (hr : t.HasRoom k) (v : α) : (t.put k v).Counted := by
  obtain ⟨hs, hc⟩ := h
  simp only [Counted, Table.put, Std.ExtTreeMap.size_insert, contains_rows]
  unfold HasRoom at hr
  cases hk : (t.get? k).isSome <;> simp only [hk, Bool.false_eq_true, if_true, if_false, false_or] at hr ⊢ <;> omega

theorem Counted.tryPut (h : t.Counted) (k : κ) (v : α) : (t.tryPut k v).Counted := by
  unfold Table.tryPut
  split
  · rename_i hr; exact h.put hr v
  · exact h

theorem Counted.tryAdd (h : t.Counted) (k : κ) (v : α) : (t.tryAdd k v).Counted := by
  unfold Table.tryAdd
  split
  · exact h
  · exact h.tryPut k v

theorem Counted.remove (h : t.Counted) (k : κ) : (t.remove k).1.Counted := by
  obtain ⟨hs, hc⟩ := h
  unfold Table.remove
  cases hk : t.get? k with
  | none => exact ⟨hs, hc⟩
  | some v =>
    simp only [Counted, Std.ExtTreeMap.size_erase, contains_rows, hk, Option.isSome_some, if_true]
    omega

theorem Counted.update (h : t.Counted) (k : κ) (f : α → Option α) : (t.update k f).1.Counted := by
  unfold Table.update
  cases hk : t.get? k with
  | none => exact h
  | some v =>
    cases hf : f v with
    | none => simpa [hf] using h
    | some w =>
      have hm : k ∈ t.rows := by simp [Std.ExtTreeMap.mem_iff_contains, contains_rows, hk]
      simpa [Counted, hf, Std.ExtTreeMap.size_insert, hm] using h

section Lawful
variable [Std.LawfulEqOrd κ]

/-- Two tables of one kind with the same rows and places are one. -/
theorem ext_get? {t u : Table κ α} (hn : t.name = u.name) (hc : t.capacity = u.capacity) (hs : t.size = u.size)
    (h : ∀ k, t.get? k = u.get? k) : t = u := by
  have hr : t.rows = u.rows := Std.ExtTreeMap.ext_getElem? fun k => h k
  obtain ⟨_, _, _, _⟩ := t
  obtain ⟨_, _, _, _⟩ := u
  simp only at hn hc hs hr
  rw [hn, hc, hs, hr]

/-- A table without rows holds no place. -/
theorem Counted.eq_empty (h : t.Counted) (hn : ∀ k, t.get? k = none) : t = .empty t.name t.capacity := by
  have hr : t.rows = ∅ := Std.ExtTreeMap.ext_getElem? fun k => (hn k).trans (by simp)
  have hs : t.size = 0 := by rw [h.1, hr]; simp
  obtain ⟨name, capacity, size, rows⟩ := t
  simp only at hr hs
  rw [hr, hs, empty]

/-- While a listed key is missing, a table whose keys are all listed holds
fewer rows than the list is long. -/
theorem Counted.size_lt (h : t.Counted) {ks : List κ} (hks : ∀ j, (t.get? j).isSome → j ∈ ks) (hk : k ∈ ks)
    (hn : t.get? k = none) : t.size < ks.length := by
  have hmem : ∀ j, j ∈ t.rows.keys ↔ (t.get? j).isSome = true := fun j => by
    rw [Std.ExtTreeMap.mem_keys, Std.ExtTreeMap.mem_iff_contains, contains_rows]
  have hnd : (k :: t.rows.keys).Nodup := by
    refine List.nodup_cons.2 ⟨fun hm => ?_, Std.ExtTreeMap.nodup_keys⟩
    rw [hmem, hn] at hm
    cases hm
  have hsub : (k :: t.rows.keys) ⊆ ks := by
    intro j hj
    rcases List.mem_cons.1 hj with rfl | hj
    · exact hk
    · exact hks j ((hmem j).1 hj)
  have hle := (List.subperm_of_subset hnd hsub).length_le
  rw [List.length_cons, Std.ExtTreeMap.length_keys, ← h.1] at hle
  exact hle

/-- A table with room for every listed key, and no other keys, accepts any of them. -/
theorem Counted.hasRoom (h : t.Counted) {ks : List κ} (hks : ∀ j, (t.get? j).isSome → j ∈ ks) (hk : k ∈ ks)
    (hl : ks.length ≤ t.capacity) : t.HasRoom k := by
  cases hn : t.get? k with
  | some v => exact .inl (by rw [hn]; rfl)
  | none => exact .inr (Nat.lt_of_lt_of_le (h.size_lt hks hk hn) hl)

/-! ## Rows after an operation -/

variable [DecidableEq κ]

theorem get?_put (t : Table κ α) (k j : κ) (v : α) :
    (t.put k v).get? j = if k = j then some v else t.get? j := by
  simp [put, get?, Std.ExtTreeMap.getElem?_insert]

@[simp] theorem get?_put_self (t : Table κ α) (k : κ) (v : α) : (t.put k v).get? k = some v := by
  simp [get?_put]

/-- Writing the row that is there changes nothing. -/
theorem put_of_get? {v : α} (h : t.get? k = some v) : t.put k v = t := by
  refine ext_get? rfl rfl (by simp [put, h]) fun j => ?_
  rw [get?_put]
  split
  · rename_i hj; rw [← hj, h]
  · rfl

/-- Removing a row just written is removing the row that was there before. -/
theorem remove_put_self (t : Table κ α) (k : κ) (v : α) : ((t.put k v).remove k).1 = (t.remove k).1 := by
  refine ext_get? (by simp) (by simp) ?_ fun j => ?_
  · rw [size_remove, size_remove, get?_put_self, put]
    cases t.get? k <;> rfl
  · rw [get?_remove, get?_remove, get?_put]
    split <;> rfl

/-- Taking back a row that was new leaves the table as it was. -/
theorem remove_put (h : t.get? k = none) (v : α) : ((t.put k v).remove k).1 = t := by
  rw [remove_put_self, remove_of_none h]

theorem get?_tryPut (t : Table κ α) (k j : κ) (v : α) :
    (t.tryPut k v).get? j = if t.HasRoom k ∧ k = j then some v else t.get? j := by
  unfold tryPut
  split
  · rename_i h; simp [get?_put, h]
  · rename_i h; simp [h]

theorem get?_tryAdd (t : Table κ α) (k j : κ) (v : α) :
    (t.tryAdd k v).get? j = if t.get? k = none ∧ t.HasRoom k ∧ k = j then some v else t.get? j := by
  unfold tryAdd
  split
  · rename_i h
    have hn : t.get? k ≠ none := by rintro hn; simp [hn] at h
    simp [hn]
  · rename_i h
    have hn : t.get? k = none := by simpa using h
    simp [get?_tryPut, hn]

/-- Trying the same write again changes nothing. -/
theorem tryPut_tryPut (t : Table κ α) (k : κ) (v : α) : (t.tryPut k v).tryPut k v = t.tryPut k v := by
  by_cases h : t.HasRoom k
  · have h' : (t.put k v).HasRoom k := .inl (by simp)
    rw [tryPut_of_room h, tryPut_of_room h', put_of_get? (get?_put_self t k v)]
  · simp [tryPut, h]

/-- Writing under `k` keeps room there. -/
theorem hasRoom_tryPut (t : Table κ α) (k : κ) (v : α) : (t.tryPut k v).HasRoom k ↔ t.HasRoom k := by
  by_cases h : t.HasRoom k
  · simp only [tryPut_of_room h, h, iff_true]
    exact .inl (by simp)
  · simp [tryPut, h]

end Lawful

end Splice.Table
