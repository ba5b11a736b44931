import Mathlib.Data.List.Nodup

/-!
# First occurrences by key

The entries of a list that are the first ones with their key (`firsts`), in order.
Whoever goes through the list and keeps an entry if its key is new collects them
(`firsts_concat`).

* `mem_firsts_iff`, `firsts_sublist`: an entry is kept if no earlier one has its key;
* `nodup_map_firsts`, `mem_map_firsts`: every key is kept, and once.
-/

variable {α κ : Type*} [DecidableEq κ] (key : α → κ)

/-- The first entry of each key. -/
def firsts : List α → List α
  | [] => []
  | x :: xs => x :: (firsts xs).filter fun y => key y ≠ key x

variable {key} {x : α} {xs : List α} {k : κ}

theorem firsts_sublist (xs : List α) : (firsts key xs).Sublist xs := by
  induction xs with
  | nil => exact List.Sublist.slnil
  | cons x xs ih => exact (List.filter_sublist.trans ih).cons_cons x

/-- Every key is kept. -/
theorem mem_map_firsts : k ∈ (firsts key xs).map key ↔ k ∈ xs.map key := by
  induction xs with
  | nil => rfl
  | cons x xs ih =>
    rw [firsts, List.map_cons, List.map_cons, List.mem_cons, List.mem_cons, ← ih]
    refine or_congr_right' fun hk => ?_
    simp only [List.mem_map, List.mem_filter, decide_eq_true_eq]
    constructor
    · rintro ⟨y, ⟨hy, -⟩, rfl⟩
      exact ⟨y, hy, rfl⟩
    · rintro ⟨y, hy, rfl⟩
      exact ⟨y, ⟨hy, hk⟩, rfl⟩

/-- No key is kept twice. -/
theorem nodup_map_firsts (key : α → κ) (xs : List α) : ((firsts key xs).map key).Nodup := by
  induction xs with
  | nil => exact List.nodup_nil
  | cons x xs ih =>
    rw [firsts, List.map_cons, List.nodup_cons]
    refine ⟨fun h => ?_, ih.sublist (List.filter_sublist.map key)⟩
    obtain ⟨y, hy, heq⟩ := List.mem_map.1 h
    exact of_decide_eq_true (List.mem_filter.1 hy).2 heq

/-- An entry is kept if no earlier one has its key. -/
theorem mem_firsts_iff :
    x ∈ firsts key xs ↔ ∃ before after, xs = before ++ x :: after ∧ key x ∉ before.map key := by
  induction xs with
  | nil => simp [firsts]
  | cons y ys ih =>
    rw [firsts, List.mem_cons, List.mem_filter, ih]
    constructor
    · rintro (rfl | ⟨⟨before, after, rfl, hbefore⟩, hne⟩)
      · exact ⟨[], ys, rfl, List.not_mem_nil⟩
      · refine ⟨y :: before, after, rfl, ?_⟩
        rw [List.map_cons, List.mem_cons, not_or]
        exact ⟨of_decide_eq_true hne, hbefore⟩
    · rintro ⟨_ | ⟨z, before⟩, after, heq, hbefore⟩
      · exact .inl (List.cons.inj heq).1.symm
      · obtain ⟨rfl, rfl⟩ := List.cons.inj heq
        rw [List.map_cons, List.mem_cons, not_or] at hbefore
        exact .inr ⟨⟨before, after, rfl, hbefore.2⟩, decide_eq_true hbefore.1⟩

/-- One more entry is kept if its key is new. -/
theorem firsts_concat (xs : List α) (x : α) :
    firsts key (xs ++ [x]) =
      if key x ∈ xs.map key then firsts key xs else firsts key xs ++ [x] := by
  induction xs with
  | nil => simp [firsts]
  | cons y ys ih =>
    rw [List.cons_append, firsts, ih, firsts, List.map_cons]
    by_cases hxy : key x = key y
    · -- The filter of the first entry drops the last one.
      have hmem : key x ∈ key y :: ys.map key := hxy ▸ List.mem_cons_self
      rw [if_pos hmem]
      split
      · rfl
      · rw [List.filter_append, List.filter_cons_of_neg (by simp [hxy]), List.filter_nil,
          List.append_nil]
    · simp only [List.mem_cons, hxy, false_or]
      split
      · rfl
      · rw [List.filter_append, List.filter_cons_of_pos (by simp [hxy]), List.filter_nil,
          List.cons_append]
