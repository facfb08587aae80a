import Mathlib.Data.Finmap
import Splice.Proofs.Table
/-!
# Bounded tables refine finite maps

A table does what a finite map does, up to its capacity. `Op.act` is what an
operation does to a map without a limit, and `Op.actWithin` refuses one that would
write a new key where `capacity` keys are there. Row for row a table is such a map
(`Represents`), every operation gives the answer of the map and keeps to it, and so
does every run from the empty table. The places a table counts are the keys of the
map, so a place given back was taken before.
-/

namespace Splice.Table

variable {κ α : Type}

/-- One use of a table. -/
inductive Op (κ α : Type) where
  | insertIfAbsent (k : κ) (v : α)
  | upsert (k : κ) (v : α)
  | update (k : κ) (f : α → Option α)
  | get (k : κ)
  | remove (k : κ)

/-- What a use of a table gives back. -/
inductive Answer (α : Type) where
  /-- Whether the value was written, where one that is there stays. -/
  | added (new : Bool)
  | written
  /-- The value met. -/
  | value (v : Option α)
  | refused (e : TableError)
deriving DecidableEq

/-- Uses the table once. -/
def use [Ord κ] [Std.TransOrd κ] (t : Table κ α) : Op κ α → Table κ α × Answer α
  | .insertIfAbsent k v =>
    match t.insertIfAbsent k v with
    | .ok (t, new) => (t, .added new)
    | .error e => (t, .refused e)
  | .upsert k v =>
    match t.upsert k v with
    | .ok t => (t, .written)
    | .error e => (t, .refused e)
  | .update k f => ((t.update k f).1, .value (t.update k f).2)
  | .get k => (t, .value (t.get? k))
  | .remove k => ((t.remove k).1, .value (t.remove k).2)

/-- The table after some uses, the first one first, and their answers. -/
def useAll [Ord κ] [Std.TransOrd κ] (t : Table κ α) : List (Op κ α) → Table κ α × List (Answer α)
  | [] => (t, [])
  | op :: ops =>
    let (t, answer) := t.use op
    let (t, answers) := t.useAll ops
    (t, answer :: answers)

section Use
variable [Ord κ] [Std.TransOrd κ]

/-- The name and the capacity of a table never change. -/
theorem kept_use (t : Table κ α) (op : Op κ α) :
    (t.use op).1.name = t.name ∧ (t.use op).1.capacity = t.capacity := by
  cases op with
  | insertIfAbsent k v =>
    simp only [use, insertIfAbsent_eq]
    by_cases hs : (t.get? k).isSome
    · simp [hs]
    · by_cases hr : t.HasRoom k <;> simp [hs, hr]
  | upsert k v =>
    simp only [use, upsert_eq]
    by_cases hr : t.HasRoom k <;> simp [hr]
  | update k f => exact ⟨name_update t k f, capacity_update t k f⟩
  | get k => exact ⟨rfl, rfl⟩
  | remove k => exact ⟨name_remove t k, capacity_remove t k⟩

theorem kept_useAll (t : Table κ α) (ops : List (Op κ α)) :
    (t.useAll ops).1.name = t.name ∧ (t.useAll ops).1.capacity = t.capacity := by
  induction ops generalizing t with
  | nil => exact ⟨rfl, rfl⟩
  | cons op ops ih =>
    obtain ⟨hname, hcapacity⟩ := t.kept_use op
    obtain ⟨hnames, hcapacities⟩ := ih (t.use op).1
    exact ⟨hnames.trans hname, hcapacities.trans hcapacity⟩

end Use

/-! ## Finite maps -/

/-- A finite map. -/
abbrev Plain (κ α : Type) := Finmap fun _ : κ => α

section Plain
variable [DecidableEq κ]

namespace Op

/-- What an operation does to a map, and its answer. -/
def act (m : Plain κ α) : Op κ α → Plain κ α × Answer α
  | .insertIfAbsent k v => if k ∈ m then (m, .added false) else (m.insert k v, .added true)
  | .upsert k v => (m.insert k v, .written)
  | .update k f =>
    match (m.lookup k).bind f with
    | some w => (m.insert k w, .value (m.lookup k))
    | none => (m, .value (m.lookup k))
  | .get k => (m, .value (m.lookup k))
  | .remove k => (m.erase k, .value (m.lookup k))

/-- The operation writes under a key that is not there. -/
def WritesNew (m : Plain κ α) : Op κ α → Prop
  | .insertIfAbsent k _ | .upsert k _ => k ∉ m
  | .update _ _ | .get _ | .remove _ => False

instance (m : Plain κ α) : DecidablePred (WritesNew m)
  | .insertIfAbsent _ _ | .upsert _ _ => inferInstanceAs (Decidable (_ ∉ m))
  | .update _ _ | .get _ | .remove _ => inferInstanceAs (Decidable False)

/-- What an operation does to a map that takes no new key beyond `capacity`. -/
def actWithin (name : TableName) (capacity : Nat) (m : Plain κ α) (op : Op κ α) : Plain κ α × Answer α :=
  if op.WritesNew m ∧ m.keys.card = capacity then (m, .refused (.full name capacity)) else op.act m

/-- The map after some operations, and their answers. -/
def actAll (name : TableName) (capacity : Nat) (m : Plain κ α) : List (Op κ α) → Plain κ α × List (Answer α)
  | [] => (m, [])
  | op :: ops =>
    let (m, answer) := op.actWithin name capacity m
    let (m, answers) := actAll name capacity m ops
    (m, answer :: answers)

end Op

end Plain

/-! ## A table as a finite map -/

section Refinement
variable [Ord κ] [Std.TransOrd κ] [DecidableEq κ] {t : Table κ α} {m : Plain κ α} {k : κ}

/-- Row for row the table is the map, and its places are in step with its rows. -/
structure Represents (t : Table κ α) (m : Plain κ α) : Prop where
  rows : ∀ k, t.get? k = m.lookup k
  counted : t.Counted

theorem represents_empty (name : TableName) (capacity : Nat) : Represents (empty name capacity : Table κ α) ∅ where
  rows k := by rw [get?_empty, Finmap.lookup_empty]
  counted := counted_empty name capacity

namespace Represents

theorem mem_iff (h : Represents t m) : k ∈ m ↔ (t.get? k).isSome = true := by
  rw [h.rows, Finmap.lookup_isSome]

/-- The places taken are the keys of the map. -/
theorem size_eq [Std.LawfulEqOrd κ] (h : Represents t m) : t.size = m.keys.card := by
  have hkeys : t.rows.keys.toFinset = m.keys := by
    ext k
    rw [List.mem_toFinset, Std.ExtTreeMap.mem_keys, Std.ExtTreeMap.mem_iff_contains, contains_rows, Finmap.mem_keys,
      h.mem_iff]
  rw [h.counted.1, ← Std.ExtTreeMap.length_keys, ← hkeys, List.toFinset_card_of_nodup Std.ExtTreeMap.nodup_keys]

theorem card_le [Std.LawfulEqOrd κ] (h : Represents t m) : m.keys.card ≤ t.capacity := by
  rw [← h.size_eq]
  exact h.counted.2

/-- There is room for a key unless it is new and the map is full. -/
theorem hasRoom_iff [Std.LawfulEqOrd κ] (h : Represents t m) :
    t.HasRoom k ↔ ¬(k ∉ m ∧ m.keys.card = t.capacity) := by
  have hle := h.card_le
  rw [HasRoom, ← h.mem_iff, h.size_eq]
  by_cases hk : k ∈ m
  · simp [hk]
  · simp only [hk, false_or, not_false_eq_true, true_and]
    omega

variable [Std.LawfulEqOrd κ]

theorem put (h : Represents t m) (hr : t.HasRoom k) (v : α) : Represents (t.put k v) (m.insert k v) where
  rows j := by
    rw [get?_put]
    split
    · rename_i hj
      rw [← hj, Finmap.lookup_insert]
    · rename_i hj
      rw [Finmap.lookup_insert_of_ne _ (Ne.symm hj), h.rows]
  counted := h.counted.put hr v

theorem remove (h : Represents t m) (k : κ) : Represents (t.remove k).1 (m.erase k) where
  rows j := by
    rw [get?_remove]
    split
    · rename_i hj
      rw [← hj, Finmap.lookup_erase]
    · rename_i hj
      rw [Finmap.lookup_erase_ne (Ne.symm hj), h.rows]
  counted := h.counted.remove k

theorem update (h : Represents t m) (k : κ) (f : α → Option α) :
    Represents (t.update k f).1 (((Op.update k f : Op κ α).act m).1) := by
  rw [update_eq, h.rows]
  simp only [Op.act]
  cases hw : (m.lookup k).bind f with
  | none => exact h
  | some w =>
    have hk : (t.get? k).isSome = true := by
      obtain ⟨v, hv, -⟩ := Option.bind_eq_some_iff.1 hw
      rw [h.rows, hv]
      rfl
    exact h.put (.inl hk) w

theorem use_of_refused {op : Op κ α} (h : Represents t m) (hn : op.WritesNew m) (hf : m.keys.card = t.capacity) :
    t.use op = (t, .refused (.full t.name t.capacity)) := by
  have hroom (k : κ) (hk : k ∉ m) : ¬t.HasRoom k := fun hr => h.hasRoom_iff.1 hr ⟨hk, hf⟩
  cases op with
  | insertIfAbsent k v =>
    have hk : (t.get? k).isSome = false := by simpa using mt h.mem_iff.2 hn
    simp [use, insertIfAbsent_eq, hk, hroom k hn]
  | upsert k v => simp [use, upsert_eq, hroom k hn]
  | update | get | remove => exact hn.elim

theorem use_of_room {op : Op κ α} (h : Represents t m) (hr : ¬(op.WritesNew m ∧ m.keys.card = t.capacity)) :
    (t.use op).2 = (op.act m).2 ∧ Represents (t.use op).1 (op.act m).1 := by
  cases op with
  | insertIfAbsent k v =>
    by_cases hk : k ∈ m
    · have hs : (t.get? k).isSome = true := h.mem_iff.1 hk
      simpa [use, insertIfAbsent_eq, hs, Op.act, hk] using h
    · have hs : (t.get? k).isSome = false := by simpa using mt h.mem_iff.2 hk
      have hroom : t.HasRoom k := h.hasRoom_iff.2 hr
      simpa [use, insertIfAbsent_eq, hs, hroom, Op.act, hk] using h.put hroom v
  | upsert k v =>
    have hroom : t.HasRoom k := h.hasRoom_iff.2 hr
    simpa [use, upsert_eq, hroom, Op.act] using h.put hroom v
  | update k f =>
    refine ⟨?_, h.update k f⟩
    simp only [use, snd_update, h.rows, Op.act]
    split <;> rfl
  | get k => exact ⟨congrArg Answer.value (h.rows k), h⟩
  | remove k =>
    refine ⟨?_, h.remove k⟩
    simp only [use, snd_remove, h.rows, Op.act]

/-- An operation on the table is that operation on the map. -/
theorem use (h : Represents t m) (op : Op κ α) :
    (t.use op).2 = (op.actWithin t.name t.capacity m).2 ∧
      Represents (t.use op).1 (op.actWithin t.name t.capacity m).1 := by
  unfold Op.actWithin
  split
  · rename_i hr
    rw [h.use_of_refused hr.1 hr.2]
    exact ⟨rfl, h⟩
  · rename_i hr
    exact h.use_of_room hr

end Represents

variable [Std.LawfulEqOrd κ]

theorem Represents.useAll (h : Represents t m) (ops : List (Op κ α)) :
    (t.useAll ops).2 = (Op.actAll t.name t.capacity m ops).2 ∧
      Represents (t.useAll ops).1 (Op.actAll t.name t.capacity m ops).1 := by
  induction ops generalizing t m with
  | nil => exact ⟨rfl, h⟩
  | cons op ops ih =>
    obtain ⟨hanswer, hnext⟩ := h.use op
    obtain ⟨hanswers, hlast⟩ := ih hnext
    obtain ⟨hname, hcapacity⟩ := t.kept_use op
    rw [hname, hcapacity] at hanswers hlast
    exact ⟨congrArg₂ List.cons hanswer hanswers, hlast⟩

/-- From the empty table on, every list of operations gets the answers a finite
map gives that takes no new key beyond `capacity`, and leaves the rows of that map.
The places counted are its keys and never more than there is room for, so a removal
gives back a place that was taken. A new key is refused exactly where `capacity`
keys are there; a key that is there never is. -/
theorem acts_as_finite_map_within_capacity (name : TableName) (capacity : Nat) (ops : List (Op κ α)) :
    let t : Table κ α := ((empty name capacity).useAll ops).1
    let m : Plain κ α := (Op.actAll name capacity ∅ ops).1
    ((empty name capacity : Table κ α).useAll ops).2 = (Op.actAll name capacity (∅ : Plain κ α) ops).2 ∧
      (∀ k, t.get? k = m.lookup k) ∧ t.size = m.keys.card ∧ t.size ≤ capacity ∧
      (∀ k ∈ m, (t.remove k).1.size + 1 = t.size) ∧
      (∀ op, op.WritesNew m ∧ m.keys.card = capacity → t.use op = (t, .refused (.full name capacity))) ∧
      (∀ op, ¬(op.WritesNew m ∧ m.keys.card = capacity) →
        (t.use op).2 = (op.act m).2 ∧ ∀ k, (t.use op).1.get? k = (op.act m).1.lookup k) ∧
      ∀ k ∈ m, ∀ v, (t.use (.upsert k v)).2 = .written ∧ t.use (.insertIfAbsent k v) = (t, .added false) := by
  intro t m
  have hempty : Represents (empty name capacity : Table κ α) ∅ := represents_empty name capacity
  obtain ⟨hanswers, h⟩ := hempty.useAll ops
  obtain ⟨hname, hcapacity⟩ := (empty name capacity : Table κ α).kept_useAll ops
  have hrefused (op : Op κ α) (hop : op.WritesNew m ∧ m.keys.card = capacity) :
      t.use op = (t, .refused (.full name capacity)) := by
    rw [h.use_of_refused hop.1 (hop.2.trans hcapacity.symm), hname, hcapacity]
    rfl
  have haccepted (op : Op κ α) (hop : ¬(op.WritesNew m ∧ m.keys.card = capacity)) :
      (t.use op).2 = (op.act m).2 ∧ Represents (t.use op).1 (op.act m).1 :=
    h.use_of_room (by rwa [hcapacity])
  refine ⟨hanswers, h.rows, h.size_eq, ?_, ?_, hrefused, ?_, ?_⟩
  · exact h.counted.2.trans_eq hcapacity
  · intro k hk
    have hafter : (m.erase k).keys.card + 1 = m.keys.card := by
      rw [Finmap.keys_erase, Finset.card_erase_add_one (Finmap.mem_keys.2 hk)]
    rw [(h.remove k).size_eq, h.size_eq]
    exact hafter
  · intro op hop
    exact ⟨(haccepted op hop).1, (haccepted op hop).2.rows⟩
  · intro k hk v
    have hnew : ¬(k ∉ m ∧ m.keys.card = capacity) := fun hn => hn.1 hk
    refine ⟨(haccepted (.upsert k v) hnew).1, ?_⟩
    have hthere : (t.get? k).isSome = true := h.mem_iff.1 hk
    simp only [use, insertIfAbsent_eq, hthere, if_true]

end Refinement

/-- A table for two rows refuses a third key, takes a new value for the second, and
takes the third key once the first has gone. -/
theorem acts_as_finite_map_with_two_places :
    let ops : List (Op Nat Nat) :=
      [.upsert 1 1, .upsert 2 2, .upsert 3 3, .upsert 2 20, .get 2, .remove 1, .upsert 3 3, .insertIfAbsent 3 30]
    let used := (empty .proxy 2 : Table Nat Nat).useAll ops
    used.2 = [.written, .written, .refused (.full .proxy 2), .written, .value (some 20), .value (some 1), .written,
        .added false] ∧
      used.1.size = 2 ∧ used.1.get? 3 = some 3 := by
  intro ops used
  obtain ⟨hanswers, hrows, hsize, -⟩ := acts_as_finite_map_within_capacity .proxy 2 ops
  exact ⟨hanswers.trans (by decide +kernel), hsize.trans (by decide +kernel), (hrows 3).trans (by decide +kernel)⟩

end Splice.Table
