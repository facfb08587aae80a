import Mathlib.Data.Finset.Card
import Splice.Proofs.Proxy
/-!
# Room for a pair

A pair is accepted exactly if the table has a place for each of its two keys that
has no row yet (`missing`). A refused pair leaves the table that a removal of its
first key leaves. That undoes the first write where it made a new row. Where it
replaced one the row is lost, and the row of the lost row's partner points at a
socket that has none.
-/

namespace Splice.Table

variable {t : ProxyTable} {a b k : Tuple} {v : ProxyEntry} {e : TableError}

/-! ## Places needed -/

/-- How many places a row under `k` takes that are not taken yet. -/
def need (t : ProxyTable) (k : Tuple) : Nat := if t.get? k = none then 1 else 0

/-- The keys of a pair that have no row. -/
def missing (t : ProxyTable) (a b : Tuple) : Finset Tuple := ({a, b} : Finset Tuple).filter fun k => t.get? k = none

theorem size_put (t : ProxyTable) (k : Tuple) (v : ProxyEntry) : (t.put k v).size = t.size + t.need k := by
  unfold put need
  cases t.get? k <;> rfl

theorem need_put (t : ProxyTable) (k j : Tuple) (v : ProxyEntry) :
    (t.put k v).need j = if k = j then 0 else t.need j := by
  unfold need
  rw [get?_put]
  by_cases hk : k = j <;> simp [hk]

theorem hasRoom_iff_need : t.HasRoom k ↔ t.need k ≤ t.capacity - t.size := by
  unfold HasRoom need
  cases t.get? k with
  | none =>
    simp only [Option.isSome_none, Bool.false_eq_true, false_or, if_true]
    omega
  | some v => simp

/-- What a pair needs, write by write. -/
theorem card_missing (t : ProxyTable) (a b : Tuple) (v : ProxyEntry) :
    (t.missing a b).card = t.need a + (t.put a v).need b := by
  have hone (k : Tuple) : (({k} : Finset Tuple).filter fun j => t.get? j = none).card = t.need k := by
    rw [Finset.filter_singleton, need]
    split <;> rfl
  rw [need_put, missing]
  by_cases hab : a = b
  · rw [if_pos hab, hab, Finset.pair_eq_singleton]
    exact hone b
  · rw [if_neg hab, Finset.insert_eq, Finset.filter_union, Finset.card_union_of_disjoint, hone, hone]
    exact Finset.disjoint_filter_filter (Finset.disjoint_singleton.2 hab)

/-! ## Accepted pairs -/

theorem insertPair_ok_iff : (t.insertPair a b).2 = .ok () ↔ (t.missing a b).card ≤ t.capacity - t.size := by
  have hfirst : t.HasRoom a ↔ _ := hasRoom_iff_need
  have hsecond : (t.put a (.fresh b)).HasRoom b ↔ _ := hasRoom_iff_need
  rw [size_put, capacity_put] at hsecond
  rw [card_missing t a b (.fresh b), insertPair_eq]
  by_cases ha : t.HasRoom a
  · rw [if_pos ha]
    by_cases hb : (t.put a (.fresh b)).HasRoom b
    · rw [if_pos hb]
      have h := hsecond.1 hb
      have h' := hfirst.1 ha
      exact iff_of_true rfl (by omega)
    · rw [if_neg hb]
      have h := mt hsecond.2 hb
      exact iff_of_false nofun (by omega)
  · rw [if_neg ha]
    have h := mt hfirst.2 ha
    exact iff_of_false nofun (by omega)

theorem size_insertPair_of_ok (h : (t.insertPair a b).2 = .ok ()) :
    (t.insertPair a b).1.size = t.size + (t.missing a b).card := by
  rw [insertPair_of_ok h, size_put, size_put, card_missing t a b (.fresh b), Nat.add_assoc]

/-- A pair is accepted exactly if its keys without a row find a place each. Then
both rows are fresh, whatever they were, no other row changes, and as many places
more are taken. A refused pair changes no row but that of its first key, and takes
no place. -/
theorem pair_accepted_iff_missing_fit (t : ProxyTable) (a b : Tuple) :
    let after := (t.insertPair a b).1
    let result := (t.insertPair a b).2
    (result = .ok () ↔ (t.missing a b).card ≤ t.capacity - t.size) ∧
      (result = .ok () →
        after.get? a = some ⟨b, .init⟩ ∧ after.get? b = some ⟨a, .init⟩ ∧
          (∀ k, k ≠ a → k ≠ b → after.get? k = t.get? k) ∧ after.size = t.size + (t.missing a b).card) ∧
      (result ≠ .ok () → (∀ k, k ≠ a → after.get? k = t.get? k) ∧ after.size ≤ t.size) := by
  intro after result
  refine ⟨insertPair_ok_iff, fun hok => ?_, fun hn => ?_⟩
  · have hrow := get?_insertPair_of_ok hok
    refine ⟨?_, ?_, ?_, size_insertPair_of_ok hok⟩
    · rw [hrow, if_pos rfl]
      split
      · rename_i hab
        rw [hab]
        rfl
      · rfl
    · rw [hrow, if_pos rfl]
      rfl
    · intro k ha hb
      rw [hrow, if_neg (Ne.symm hb), if_neg (Ne.symm ha)]
  · obtain ⟨e, he⟩ : ∃ e, result = .error e := by
      cases hr : result with
      | error e => exact ⟨e, rfl⟩
      | ok u => exact absurd hr hn
    have hafter : after = (t.remove a).1 := insertPair_eq_remove_of_error he
    rw [hafter, size_remove]
    refine ⟨?_, ?_⟩
    · intro k hk
      rw [get?_remove, if_neg (Ne.symm hk)]
    · split
      · exact Nat.sub_le _ _
      · exact Nat.le_refl _

/-! ## What a refused pair costs -/

/-- A row of `k` has a partner whose row points back. -/
def PointsBack (t : ProxyTable) (k : Tuple) : Prop :=
  ∀ row, t.get? k = some row → ∃ back, t.get? row.redirect = some back ∧ back.redirect = k

/-- Where every row's partner pointed back, a removal leaves one row that does
not: that of the removed row's partner. -/
theorem not_pointsBack_remove (hall : ∀ k, t.PointsBack k) :
    ¬(t.remove a).1.PointsBack k ↔ k ≠ a ∧ ∃ row, t.get? a = some row ∧ row.redirect = k := by
  constructor
  · intro hn
    obtain ⟨row, hn⟩ := not_forall.1 hn
    obtain ⟨hrow, hlost⟩ := Classical.not_imp.1 hn
    rw [get?_remove] at hrow
    split at hrow
    · cases hrow
    rename_i hk
    obtain ⟨back, hback, rfl⟩ := hall k row hrow
    refine ⟨Ne.symm hk, ?_⟩
    by_cases ha : a = row.redirect
    · rw [ha]
      exact ⟨back, hback, rfl⟩
    · exact absurd ⟨back, by rw [get?_remove, if_neg ha, hback], rfl⟩ hlost
  · rintro ⟨hk, row, hrow, rfl⟩ hpoints
    obtain ⟨back, hback, rfl⟩ := hall a row hrow
    have hstays : (t.remove back.redirect).1.get? row.redirect = some back := by
      rw [get?_remove, if_neg (Ne.symm hk), hback]
    obtain ⟨gone, hgone, -⟩ := hpoints back hstays
    rw [get?_remove, if_pos rfl] at hgone
    cases hgone

/-- A refused pair leaves what a removal of its first key leaves: the table as it
was exactly if that key had no row. Where every partner pointed back, one row no
longer has such a partner if the first key had a row that pointed elsewhere than
at itself, and none if not. -/
theorem refused_pair_removes_first_row (h : (t.insertPair a b).2 = .error e) :
    let after := (t.insertPair a b).1
    after = (t.remove a).1 ∧ (after = t ↔ t.get? a = none) ∧
      ((∀ k, t.PointsBack k) →
        ∀ k, ¬after.PointsBack k ↔ k ≠ a ∧ ∃ row, t.get? a = some row ∧ row.redirect = k) := by
  intro after
  have hafter : after = (t.remove a).1 := insertPair_eq_remove_of_error h
  refine ⟨hafter, ?_, ?_⟩
  · rw [hafter]
    refine ⟨fun hsame => ?_, remove_of_none⟩
    rw [← hsame, get?_remove, if_pos rfl]
  · intro hall k
    rw [hafter]
    exact not_pointsBack_remove hall

namespace FullPair

def dialer : Tuple := ⟨⟨⟨10, 0, 0, 5⟩, 40000⟩, ⟨⟨10, 0, 0, 9⟩, 8080⟩⟩

/-- The proxy's socket at `port` that accepts from the dialer's endpoint. -/
def acceptor (port : UInt16) : Tuple := ⟨⟨⟨10, 0, 0, 5⟩, port⟩, dialer.own⟩

/-- A table for `capacity` rows after an attempt to pair the dialer. -/
def paired (capacity : Nat) : ProxyTable := ((empty .proxy capacity).insertPair dialer (acceptor 15001)).1

theorem pointsBack_paired (k : Tuple) : (paired 2).PointsBack k := by
  have hok : ((empty .proxy 2 : ProxyTable).insertPair dialer (acceptor 15001)).2 = .ok () := by decide +kernel
  have hrow := get?_insertPair_of_ok hok
  intro row h
  rw [paired, hrow] at h
  split at h
  · rename_i hk
    cases h
    exact ⟨.fresh (acceptor 15001), (hrow dialer).trans (by decide), hk⟩
  · split at h
    · rename_i _ hk
      cases h
      exact ⟨.fresh dialer, (hrow (acceptor 15001)).trans (by decide), hk⟩
    · rw [get?_empty] at h
      cases h

end FullPair

open FullPair in
/-- With no row to lose the table stays as it was. -/
theorem refused_pair_leaves_empty_table :
    ((empty .proxy 1 : ProxyTable).insertPair dialer (acceptor 15001)).2 = .error (.full .proxy 1) ∧
      paired 1 = empty .proxy 1 := by
  have hrefused : ((empty .proxy 1 : ProxyTable).insertPair dialer (acceptor 15001)).2 = .error (.full .proxy 1) := by
    decide +kernel
  obtain ⟨-, hsame, -⟩ := refused_pair_removes_first_row hrefused
  exact ⟨hrefused, hsame.2 (get?_empty _ _ _)⟩

open FullPair in
/-- A dialer that is paired already meets a second acceptor while the table is full.
The refusal costs the dialer its row, and the first acceptor keeps half a pair. -/
theorem refused_pair_leaves_half_of_old_pair :
    let t := paired 2
    let after := (t.insertPair dialer (acceptor 15006)).1
    (∀ k, t.PointsBack k) ∧ (t.insertPair dialer (acceptor 15006)).2 = .error (.full .proxy 2) ∧
      t.get? dialer = some (.fresh (acceptor 15001)) ∧ after.get? dialer = none ∧ t.size = 2 ∧ after.size = 1 ∧
      after.get? (acceptor 15001) = some (.fresh dialer) ∧ ¬after.PointsBack (acceptor 15001) := by
  intro t after
  have hhalf : after.get? (acceptor 15001) = some (.fresh dialer) := by decide +kernel
  have hgone : after.get? dialer = none := by decide +kernel
  refine ⟨pointsBack_paired, by decide +kernel, by decide +kernel, hgone, by decide +kernel, by decide +kernel, hhalf,
    ?_⟩
  intro hpoints
  obtain ⟨back, hback, -⟩ := hpoints _ hhalf
  exact Option.some_ne_none back (hback.symm.trans hgone)

end Splice.Table
