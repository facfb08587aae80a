import Mathlib.Data.List.Induction
/-!
# Latest occurrences in a list

`Since mark undo xs`, read over a history, says that something happened and has
not been undone; `SinceThen` that something else happened after it as well. Both
are settled by the last entry and the rest of the list (`since_snoc`,
`sinceThen_snoc`), which is how a table row follows its history.
-/

namespace Splice

variable {α : Type} {mark undo arm : α → Prop} {xs : List α} {x : α}

/-- Some entry is marked, and none after it undoes the mark. -/
def Since (mark undo : α → Prop) (xs : List α) : Prop :=
  ∃ pre x post, xs = pre ++ x :: post ∧ mark x ∧ ∀ y ∈ post, ¬undo y

/-- Some entry is marked, none after it undoes the mark, and one after it arms it. -/
def SinceThen (mark undo arm : α → Prop) (xs : List α) : Prop :=
  ∃ pre x post, xs = pre ++ x :: post ∧ mark x ∧ (∀ y ∈ post, ¬undo y) ∧ ∃ y ∈ post, arm y

theorem not_since_nil : ¬Since mark undo ([] : List α) := by
  rintro ⟨pre, x, post, h, -⟩
  simp at h

theorem not_sinceThen_nil : ¬SinceThen mark undo arm ([] : List α) := by
  rintro ⟨pre, x, post, h, -⟩
  simp at h

/-- An entry of `xs ++ [x]` is the last one, with nothing after it, or one of `xs`. -/
theorem split_snoc {pre post : List α} {y : α} (h : xs ++ [x] = pre ++ y :: post) :
    (pre = xs ∧ y = x ∧ post = []) ∨ ∃ post', post = post' ++ [x] ∧ xs = pre ++ y :: post' := by
  rcases List.eq_nil_or_concat post with rfl | ⟨post', z, rfl⟩
  · obtain ⟨hxs, hx⟩ := List.append_inj' h rfl
    cases hx
    exact .inl ⟨hxs.symm, rfl, rfl⟩
  · rw [List.concat_eq_append, ← List.cons_append, ← List.append_assoc] at h
    obtain ⟨hxs, hz⟩ := List.append_inj' h rfl
    cases hz
    exact .inr ⟨post', by simp, hxs⟩

theorem since_snoc : Since mark undo (xs ++ [x]) ↔ mark x ∨ (¬undo x ∧ Since mark undo xs) := by
  constructor
  · rintro ⟨pre, y, post, h, hm, hu⟩
    rcases split_snoc h with ⟨-, rfl, -⟩ | ⟨post, rfl, hxs⟩
    · exact .inl hm
    · obtain ⟨hu, hx⟩ := List.forall_mem_append.1 hu
      exact .inr ⟨hx x (by simp), pre, y, post, hxs, hm, hu⟩
  · rintro (hm | ⟨hx, pre, y, post, rfl, hm, hu⟩)
    · exact ⟨xs, x, [], rfl, hm, by simp⟩
    · exact ⟨pre, y, post ++ [x], by simp, hm, List.forall_mem_append.2 ⟨hu, by simpa using hx⟩⟩

/-- The list is read from its end, where one entry settles one step. -/
def Since.decideReverse (mark undo : α → Prop) [DecidablePred mark] [DecidablePred undo] :
    (xs : List α) → Decidable (Since mark undo xs.reverse)
  | [] => isFalse not_since_nil
  | x :: xs =>
    have := decideReverse mark undo xs
    decidable_of_iff (mark x ∨ (¬undo x ∧ Since mark undo xs.reverse)) (by rw [List.reverse_cons, since_snoc])

instance [DecidablePred mark] [DecidablePred undo] (xs : List α) : Decidable (Since mark undo xs) :=
  have := Since.decideReverse mark undo xs.reverse
  decidable_of_iff (Since mark undo xs.reverse.reverse) (by rw [List.reverse_reverse])

theorem sinceThen_snoc :
    SinceThen mark undo arm (xs ++ [x]) ↔
      ¬undo x ∧ (SinceThen mark undo arm xs ∨ (arm x ∧ Since mark undo xs)) := by
  constructor
  · rintro ⟨pre, y, post, h, hm, hu, z, hz, ha⟩
    rcases split_snoc h with ⟨-, -, rfl⟩ | ⟨post, rfl, hxs⟩
    · cases hz
    · obtain ⟨hu, hx⟩ := List.forall_mem_append.1 hu
      refine ⟨hx x (by simp), ?_⟩
      rcases List.mem_append.1 hz with hz | hz
      · exact .inl ⟨pre, y, post, hxs, hm, hu, z, hz, ha⟩
      · rw [List.mem_singleton.1 hz] at ha
        exact .inr ⟨ha, pre, y, post, hxs, hm, hu⟩
  · rintro ⟨hx, ⟨pre, y, post, rfl, hm, hu, z, hz, ha⟩ | ⟨ha, pre, y, post, rfl, hm, hu⟩⟩
    · exact ⟨pre, y, post ++ [x], by simp, hm, List.forall_mem_append.2 ⟨hu, by simpa using hx⟩,
        z, List.mem_append_left _ hz, ha⟩
    · exact ⟨pre, y, post ++ [x], by simp, hm, List.forall_mem_append.2 ⟨hu, by simpa using hx⟩,
        x, by simp, ha⟩

/-- A mark that still stands was armed or not. -/
theorem since_iff_armed :
    Since mark undo xs ↔ Since mark (fun x => undo x ∨ arm x) xs ∨ SinceThen mark undo arm xs := by
  constructor
  · rintro ⟨pre, x, post, h, hm, hu⟩
    by_cases ha : ∃ y ∈ post, arm y
    · exact .inr ⟨pre, x, post, h, hm, hu, ha⟩
    · refine .inl ⟨pre, x, post, h, hm, fun y hy hy' => ?_⟩
      rcases hy' with hy' | hy'
      · exact hu y hy hy'
      · exact ha ⟨y, hy, hy'⟩
  · rintro (⟨pre, x, post, h, hm, hu⟩ | ⟨pre, x, post, h, hm, hu, -⟩)
    · exact ⟨pre, x, post, h, hm, fun y hy hy' => hu y hy (.inl hy')⟩
    · exact ⟨pre, x, post, h, hm, hu⟩

/-- Where a mark undoes the marks before it, only the latest one counts, and it
was armed or not. -/
theorem since_unarmed_iff (h : ∀ x, mark x → undo x) :
    Since mark (fun x => undo x ∨ arm x) xs ↔ Since mark undo xs ∧ ¬SinceThen mark undo arm xs := by
  induction xs using List.reverseRecOn with
  | nil => simp [not_since_nil]
  | append_singleton xs x ih =>
    rw [since_snoc, since_snoc, sinceThen_snoc, ih]
    by_cases hu : undo x
    · simp [hu]
    · have hm : ¬mark x := fun hm => hu (h x hm)
      by_cases ha : arm x
      · simp only [hu, hm, ha]
        tauto
      · simp [hu, hm, ha]

end Splice
