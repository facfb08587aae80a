import Splice.Proofs.Table
import Splice.Proxy
/-!
# Rows of the proxy table

What writing a pair and moving a row do, row by row. A refused pair costs its
first key the row it had: the first write may have replaced it, and giving up
removes it.
-/

namespace Splice.ProxyEntry

/-- The row after a data unit of its socket. -/
def enabled (e : ProxyEntry) : ProxyEntry := if e.state == .init then { e with state := .enabled } else e

/-- The row after a frame of its socket. -/
def disabled (e : ProxyEntry) : ProxyEntry := { e with state := .disabled }

@[simp] theorem redirect_enabled (e : ProxyEntry) : e.enabled.redirect = e.redirect := by
  unfold enabled; split <;> rfl

@[simp] theorem redirect_disabled (e : ProxyEntry) : e.disabled.redirect = e.redirect := rfl

end Splice.ProxyEntry

namespace Splice.Table

variable {t : ProxyTable} {a b : Tuple}

/-! ## Pairs -/

theorem insertPair_eq (t : ProxyTable) (a b : Tuple) :
    t.insertPair a b =
      if t.HasRoom a then
        if (t.put a (.fresh b)).HasRoom b then ((t.put a (.fresh b)).put b (.fresh a), .ok ())
        else (((t.put a (.fresh b)).remove a).1, .error (.full t.name t.capacity))
      else (t, .error (.full t.name t.capacity)) := by
  unfold insertPair
  rw [upsert_eq]
  by_cases ha : t.HasRoom a
  · simp only [ha, if_true]
    rw [upsert_eq]
    by_cases hb : (t.put a (.fresh b)).HasRoom b
    · simp only [hb, if_true]
    · simp only [hb, if_false]
      rfl
  · simp only [ha, if_false]

theorem insertPair_of_room (ha : t.HasRoom a) (hb : (t.put a (.fresh b)).HasRoom b) :
    t.insertPair a b = ((t.put a (.fresh b)).put b (.fresh a), .ok ()) := by
  rw [insertPair_eq, if_pos ha, if_pos hb]

/-- Two free places are room for both keys of a pair. -/
theorem hasRoom_of_two (h : t.size + 2 ≤ t.capacity) (a b : Tuple) :
    t.HasRoom a ∧ (t.put a (.fresh b)).HasRoom b := by
  refine ⟨.inr (by omega), .inr ?_⟩
  simp only [put]
  split <;> omega

/-- With two places free a pair is accepted, and is what two writes on their own leave. -/
theorem insertPair_of_two (h : t.size + 2 ≤ t.capacity) (a b : Tuple) :
    (t.insertPair a b).1 = (t.tryPut a (.fresh b)).tryPut b (.fresh a) := by
  obtain ⟨ha, hb⟩ := hasRoom_of_two h a b
  rw [insertPair_of_room ha hb, tryPut_of_room ha, tryPut_of_room hb]

/-- An accepted pair is two writes. -/
theorem insertPair_of_ok (h : (t.insertPair a b).2 = .ok ()) :
    (t.insertPair a b).1 = (t.put a (.fresh b)).put b (.fresh a) := by
  rw [insertPair_eq] at h ⊢
  split at h
  · split at h
    · rename_i ha hb
      rw [if_pos ha, if_pos hb]
    · cases h
  · cases h

/-- An accepted pair: each row points at the other key, and no other row is touched. -/
theorem get?_insertPair_of_ok (h : (t.insertPair a b).2 = .ok ()) (k : Tuple) :
    (t.insertPair a b).1.get? k =
      if b = k then some (.fresh a) else if a = k then some (.fresh b) else t.get? k := by
  rw [insertPair_of_ok h, get?_put, get?_put]

/-- A pair is refused for want of room. -/
theorem eq_full_of_error {e : TableError} (h : (t.insertPair a b).2 = .error e) : e = .full t.name t.capacity := by
  rw [insertPair_eq] at h
  split at h
  · split at h <;> cases h
    rfl
  · cases h
    rfl

/-- A refused pair leaves what a removal of its first key leaves. -/
theorem insertPair_eq_remove_of_error {e : TableError} (h : (t.insertPair a b).2 = .error e) :
    (t.insertPair a b).1 = (t.remove a).1 := by
  rw [insertPair_eq] at h ⊢
  split at h
  · split at h
    · cases h
    · rename_i ha hb
      rw [if_pos ha, if_neg hb]
      exact remove_put_self t a _
  · rename_i ha
    rw [if_neg ha]
    simp only [HasRoom, not_or, Bool.not_eq_true, Option.isSome_eq_false_iff, Option.isNone_iff_eq_none] at ha
    exact (remove_of_none ha.1).symm

theorem get?_insertPair_of_error {e : TableError} (h : (t.insertPair a b).2 = .error e) (k : Tuple) :
    (t.insertPair a b).1.get? k = if a = k then none else t.get? k := by
  rw [insertPair_eq_remove_of_error h, get?_remove]

/-- A refused pair whose first key had no row leaves the table as it was. -/
theorem insertPair_of_error {e : TableError} (h : (t.insertPair a b).2 = .error e) (ha : t.get? a = none) :
    (t.insertPair a b).1 = t := by
  rw [insertPair_eq_remove_of_error h, remove_of_none ha]

theorem Counted.insertPair (h : t.Counted) (a b : Tuple) : (t.insertPair a b).1.Counted := by
  rw [insertPair_eq]
  split
  · rename_i ha
    split
    · rename_i hb; exact (h.put ha _).put hb _
    · exact (h.put ha _).remove a
  · exact h

@[simp] theorem capacity_insertPair (t : ProxyTable) (a b : Tuple) : (t.insertPair a b).1.capacity = t.capacity := by
  rw [insertPair_eq]
  split
  · split <;> simp
  · rfl

@[simp] theorem name_insertPair (t : ProxyTable) (a b : Tuple) : (t.insertPair a b).1.name = t.name := by
  rw [insertPair_eq]
  split
  · split <;> simp
  · rfl

/-! ## Moves -/

theorem get?_move (t : ProxyTable) (k j : Tuple) (p : ProxyState → Bool) (s : ProxyState) :
    (t.move k p s).1.get? j =
      if k = j then (t.get? j).map fun e => if p e.state then { e with state := s } else e else t.get? j := by
  simp only [move, get?_update]
  split
  · congr 1
    funext e
    split <;> rfl
  · rfl

theorem snd_move (t : ProxyTable) (k : Tuple) (p : ProxyState → Bool) (s : ProxyState) :
    (t.move k p s).2 = (t.get? k).map (·.state) := by
  simp [move, snd_update]

theorem Counted.move (h : t.Counted) (k : Tuple) (p : ProxyState → Bool) (s : ProxyState) :
    (t.move k p s).1.Counted := Counted.update h k _

@[simp] theorem capacity_move (t : ProxyTable) (k : Tuple) (p : ProxyState → Bool) (s : ProxyState) :
    (t.move k p s).1.capacity = t.capacity := capacity_update t k _

@[simp] theorem name_move (t : ProxyTable) (k : Tuple) (p : ProxyState → Bool) (s : ProxyState) :
    (t.move k p s).1.name = t.name := name_update t k _

theorem get?_enable (t : ProxyTable) (k j : Tuple) :
    (t.enable k).1.get? j = if k = j then (t.get? j).map (·.enabled) else t.get? j := get?_move t k j _ _

/-- Only an untouched row is written anew by a data unit. -/
theorem enable_eq (t : ProxyTable) (k : Tuple) :
    (t.enable k).1 = match t.get? k with
      | some ⟨p, .init⟩ => t.put k ⟨p, .enabled⟩
      | _ => t := by
  unfold enable move update
  cases h : t.get? k with
  | none => rfl
  | some e =>
    obtain ⟨p, s⟩ := e
    cases s <;> simp [put, h]

/-- A row found is disabled by a frame, whatever its state. -/
theorem disable_eq (t : ProxyTable) (k : Tuple) :
    (t.disable k).1 = match t.get? k with
      | none => t
      | some e => t.put k e.disabled := by
  unfold disable move update
  cases h : t.get? k with
  | none => rfl
  | some e =>
    obtain ⟨p, s⟩ := e
    cases s with
    | init => simp [put, h, ProxyEntry.disabled]
    | enabled => simp [put, h, ProxyEntry.disabled]
    | disabled => exact (put_of_get? h).symm

theorem get?_disable (t : ProxyTable) (k j : Tuple) :
    (t.disable k).1.get? j = if k = j then (t.get? j).map (·.disabled) else t.get? j := by
  rw [disable, get?_move]
  split
  · congr 1
    funext e
    obtain ⟨p, s⟩ := e
    cases s <;> rfl
  · rfl

end Splice.Table
