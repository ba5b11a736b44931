import Mathlib.Data.List.MinMax

/-!
# The latest entry of each key, and the election among keys

A list of dated entries, each filed under a key. The *current* entry of a key
is the latest of its entries and, of several equally late, the first one in the
list (`current`, `current_eq_some_iff`).

An *election* among the keys: the current entries that are marked take
precedence; if there is exactly one, it wins, and if there is none, the only
current entry wins, if it is the only one (`Wins`).

* `Wins.unique`: at most one entry wins;
* `wins_congr`: who wins is a matter of the current entries only;
* `current_congr_of_mem_iff`: if no two entries of a key are equally late, the
  current entries are a matter of the set of entries only;
* `current_congr_of_cofinal`: nor are they changed by leaving out entries in whose
  place a later one remains;
* `current_map_of_lt_iff`: dates count within a key only: re-dating the entries
  without changing the order within each key changes no current entry.
-/

namespace Latest

variable {α κ ω : Type*} [DecidableEq κ] [LinearOrder ω]

/-! ## The first greatest element -/

/-- An element with only smaller ones before it, and no greater ones after it,
    is the one `argmax` finds. -/
theorem argmax_append_cons {f : α → ω} {pre post : List α} {x : α} (hpre : ∀ y ∈ pre, f y < f x)
    (hpost : ∀ y ∈ post, f y ≤ f x) : (pre ++ x :: post).argmax f = some x := by
  induction post using List.reverseRecOn with
  | nil =>
    rw [List.argmax_concat]
    cases hm : pre.argmax f with
    | none => rfl
    | some m => simp only [if_pos (hpre m (List.argmax_mem hm))]
  | append_singleton post a ih =>
    have ih := ih fun y hy => hpost y (List.mem_append_left _ hy)
    rw [← List.cons_append, ← List.append_assoc, List.argmax_concat, ih]
    simp only [if_neg (hpost a (by simp)).not_gt]

/-- The greatest element of a list, the first one if there are several: smaller
    elements stand before it, and no greater ones after it. -/
theorem argmax_eq_some_iff {f : α → ω} {xs : List α} {x : α} :
    xs.argmax f = some x ↔ ∃ pre post, xs = pre ++ x :: post ∧
      (∀ y ∈ pre, f y < f x) ∧ ∀ y ∈ post, f y ≤ f x := by
  refine ⟨fun h => ?_, fun ⟨pre, post, h, hpre, hpost⟩ => h ▸ argmax_append_cons hpre hpost⟩
  -- From the end of the list, as a new element displaces the greatest one only if it is greater.
  induction xs using List.reverseRecOn generalizing x with
  | nil => simp at h
  | append_singleton xs a ih =>
    rw [List.argmax_concat] at h
    cases hm : xs.argmax f with
    | none =>
      rw [hm] at h
      obtain rfl := List.argmax_eq_none.1 hm
      obtain rfl := Option.some.inj h
      exact ⟨[], [], rfl, by simp, by simp⟩
    | some m =>
      rw [hm] at h
      simp only at h
      split_ifs at h with hlt
      · -- The last element is greater than the greatest before it.
        obtain rfl := Option.some.inj h
        exact ⟨xs, [], rfl, fun y hy => (List.le_of_mem_argmax hy hm).trans_lt hlt, by simp⟩
      · obtain rfl := Option.some.inj h
        obtain ⟨pre, post, rfl, hpre, hpost⟩ := ih hm
        refine ⟨pre, post ++ [a], by simp, hpre, fun y hy => ?_⟩
        rcases List.mem_append.1 hy with hy | hy
        · exact hpost y hy
        · exact (List.mem_singleton.1 hy) ▸ not_lt.1 hlt

/-- If no two elements are equally great, the greatest element is a matter of
    the set of elements only. -/
theorem argmax_congr_of_mem_iff {f : α → ω} {xs ys : List α} (h : ∀ x, x ∈ xs ↔ x ∈ ys)
    (hties : ∀ x ∈ xs, ∀ y ∈ xs, f x = f y → (∀ z ∈ xs, f z ≤ f x) → x = y) :
    xs.argmax f = ys.argmax f := by
  cases hx : xs.argmax f with
  | none =>
    obtain rfl := List.argmax_eq_none.1 hx
    exact (List.argmax_eq_none.2 (List.eq_nil_iff_forall_not_mem.2 fun y hy => by
      simpa using (h y).2 hy)).symm
  | some x =>
    cases hy : ys.argmax f with
    | none =>
      obtain rfl := List.argmax_eq_none.1 hy
      simpa using (h x).1 (List.argmax_mem hx)
    | some y =>
      have hxm := List.argmax_mem hx
      have hym := (h y).2 (List.argmax_mem hy)
      have hmax : ∀ z ∈ xs, f z ≤ f x := fun z hz => List.le_of_mem_argmax hz hx
      have heq : f x = f y :=
        le_antisymm (List.le_of_mem_argmax ((h x).1 hxm) hy) (hmax y hym)
      rw [hties x hxm y hym heq hmax]

/-- Elements that leave an equally great one in their place can be left out: if no two
    are equally great, the greatest element remains the same. -/
theorem argmax_congr_of_cofinal {f : α → ω} {xs ys : List α} (hsub : ∀ y ∈ ys, y ∈ xs)
    (hcof : ∀ x ∈ xs, ∃ y ∈ ys, f x ≤ f y)
    (hties : ∀ x ∈ xs, ∀ y ∈ xs, f x = f y → (∀ z ∈ xs, f z ≤ f x) → x = y) :
    ys.argmax f = xs.argmax f := by
  cases hx : xs.argmax f with
  | none =>
    obtain rfl := List.argmax_eq_none.1 hx
    exact List.argmax_eq_none.2 (List.eq_nil_iff_forall_not_mem.2 fun y hy => by
      simpa using hsub y hy)
  | some x =>
    have hmax : ∀ z ∈ xs, f z ≤ f x := fun z hz => List.le_of_mem_argmax hz hx
    have hxm := List.argmax_mem hx
    obtain ⟨y, hy, hle⟩ := hcof x hxm
    -- What has been left in the place of the greatest element is that element.
    obtain rfl := hties x hxm y (hsub y hy) (le_antisymm hle (hmax y (hsub y hy))) hmax
    cases hz : ys.argmax f with
    | none =>
      rw [List.argmax_eq_none.1 hz] at hy
      cases hy
    | some z =>
      have hzm := hsub z (List.argmax_mem hz)
      rw [hties x hxm z hzm (le_antisymm (List.le_of_mem_argmax hy hz) (hmax z hzm)) hmax]

/-- The greatest element is carried along by a map under which the elements
    compare as before. -/
theorem argmax_map_of_lt_iff {β ω' : Type*} [LinearOrder ω'] {f : α → ω} {g : β → ω'} {t : α → β}
    {xs : List α} (h : ∀ x ∈ xs, ∀ y ∈ xs, f x < f y ↔ g (t x) < g (t y)) :
    (xs.map t).argmax g = (xs.argmax f).map t := by
  cases hx : xs.argmax f with
  | none =>
    obtain rfl := List.argmax_eq_none.1 hx
    rfl
  | some x =>
    obtain ⟨pre, post, rfl, hpre, hpost⟩ := argmax_eq_some_iff.1 hx
    rw [List.map_append, List.map_cons]
    refine argmax_append_cons (fun b hb => ?_) (fun b hb => ?_)
    · obtain ⟨y, hy, rfl⟩ := List.mem_map.1 hb
      exact (h y (by simp [hy]) x (by simp)).1 (hpre y hy)
    · obtain ⟨y, hy, rfl⟩ := List.mem_map.1 hb
      exact not_lt.1 fun hlt => (hpost y hy).not_gt ((h x (by simp) y (by simp [hy])).2 hlt)

/-- Splitting a filtered list at an element: the conditions on the elements
    before and after it concern those that are kept. -/
theorem filter_split_iff {p : α → Bool} {A B : α → Prop} {xs : List α} {x : α} :
    (∃ pre post, xs.filter p = pre ++ x :: post ∧ (∀ y ∈ pre, A y) ∧ ∀ y ∈ post, B y) ↔
      p x ∧ ∃ pre post, xs = pre ++ x :: post ∧
        (∀ y ∈ pre, p y → A y) ∧ ∀ y ∈ post, p y → B y := by
  constructor
  · -- The split of the filtered list comes from one of the list, with what is dropped around it.
    rintro ⟨pre', post', h, hpre, hpost⟩
    obtain ⟨pre, rest, rfl, rfl, hrest⟩ := List.filter_eq_append_iff.1 h
    obtain ⟨mid, post, rfl, hmid, hx, rfl⟩ := List.filter_eq_cons_iff.1 hrest
    refine ⟨hx, pre ++ mid, post, by simp, fun y hy hyp => ?_, fun y hy hyp => ?_⟩
    · rcases List.mem_append.1 hy with hy | hy
      · exact hpre y (List.mem_filter.2 ⟨hy, hyp⟩)
      · exact absurd hyp (hmid y hy)
    · exact hpost y (List.mem_filter.2 ⟨hy, hyp⟩)
  · rintro ⟨hx, pre, post, rfl, hpre, hpost⟩
    refine ⟨pre.filter p, post.filter p, by simp [hx], fun y hy => ?_, fun y hy => ?_⟩
    · exact hpre y (List.mem_filter.1 hy).1 (List.mem_filter.1 hy).2
    · exact hpost y (List.mem_filter.1 hy).1 (List.mem_filter.1 hy).2

/-! ## Current entries -/

variable (key : α → κ) (date : α → ω)

/-- The current entry of the key `k`: the latest of its entries, the first one
    if there are several. -/
def current (xs : List α) (k : κ) : Option α := (xs.filter fun x => key x = k).argmax date

variable {key date} {xs ys : List α} {x : α} {k : κ}

theorem mem_of_current (h : current key date xs k = some x) : x ∈ xs ∧ key x = k := by
  simpa using List.mem_filter.1 (List.argmax_mem h)

variable (date) in
/-- A key with an entry has a current entry. -/
theorem current_ne_none_iff : current key date xs k ≠ none ↔ ∃ x ∈ xs, key x = k := by
  rw [current, Ne, List.argmax_eq_none, List.filter_eq_nil_iff]
  push Not
  simp

/-- The current entry: earlier entries of its key stand before it, and no later
    ones after it. -/
theorem current_eq_some_iff : current key date xs k = some x ↔
    key x = k ∧ ∃ pre post, xs = pre ++ x :: post ∧
      (∀ y ∈ pre, key y = k → date y < date x) ∧ ∀ y ∈ post, key y = k → date y ≤ date x := by
  rw [current, argmax_eq_some_iff, filter_split_iff]
  simp only [decide_eq_true_eq]

/-- The entries of a key decide about its current entry. -/
theorem current_congr (h : (xs.filter fun x => key x = k) = ys.filter fun x => key x = k) :
    current key date xs k = current key date ys k := by
  rw [current, h, current]

/-- Filing one more entry: it is the current one of its key if there was none,
    or if it is later. -/
theorem current_concat (a : α) : current key date (xs ++ [a]) k =
    if key a = k then
      match current key date xs k with
      | none => some a
      | some x => if date x < date a then some a else some x
    else current key date xs k := by
  rw [current, List.filter_append]
  split_ifs with hk
  · rw [List.filter_cons_of_pos (by simpa using hk), List.filter_nil, List.argmax_concat, ← current]
    cases current key date xs k <;> rfl
  · rw [List.filter_cons_of_neg (by simpa using hk), List.filter_nil, List.append_nil, ← current]

/-- If no two entries of a key are equally late, the current entries are a
    matter of the set of entries only. -/
theorem current_congr_of_mem_iff (h : ∀ x, x ∈ xs ↔ x ∈ ys)
    (hties : ∀ x ∈ xs, ∀ y ∈ xs, key x = key y → date x = date y →
      (∀ z ∈ xs, key z = key x → date z ≤ date x) → x = y) (k : κ) :
    current key date xs k = current key date ys k := by
  refine argmax_congr_of_mem_iff (fun x => by simp [h x]) fun x hx y hy hxy hmax => ?_
  obtain ⟨hx, hkx⟩ := List.mem_filter.1 hx
  obtain ⟨hy, hky⟩ := List.mem_filter.1 hy
  simp only [decide_eq_true_eq] at hkx hky
  exact hties x hx y hy (hkx.trans hky.symm) hxy fun z hz hkz =>
    hmax z (List.mem_filter.2 ⟨hz, by simpa using hkz.trans hkx⟩)

/-- Entries can be left out as far as one of the same key remains that is not earlier: if
    no two entries of a key are equally late, the current entries remain the same. -/
theorem current_congr_of_cofinal (hsub : ∀ y ∈ ys, y ∈ xs)
    (hcof : ∀ x ∈ xs, ∃ y ∈ ys, key y = key x ∧ date x ≤ date y)
    (hties : ∀ x ∈ xs, ∀ y ∈ xs, key x = key y → date x = date y →
      (∀ z ∈ xs, key z = key x → date z ≤ date x) → x = y) (k : κ) :
    current key date ys k = current key date xs k := by
  have hkey : ∀ {zs : List α} {z : α}, z ∈ zs.filter (fun x => key x = k) ↔ z ∈ zs ∧ key z = k :=
    fun {_ _} => by simp [List.mem_filter]
  refine argmax_congr_of_cofinal (fun y hy => ?_) (fun x hx => ?_) (fun x hx y hy hxy hmax => ?_)
  · exact hkey.2 ⟨hsub y (hkey.1 hy).1, (hkey.1 hy).2⟩
  · obtain ⟨hxm, hxk⟩ := hkey.1 hx
    obtain ⟨y, hy, hyx, hle⟩ := hcof x hxm
    exact ⟨y, hkey.2 ⟨hy, hyx.trans hxk⟩, hle⟩
  · obtain ⟨hx, hkx⟩ := hkey.1 hx
    obtain ⟨hy, hky⟩ := hkey.1 hy
    exact hties x hx y hy (hkx.trans hky.symm) hxy fun z hz hkz =>
      hmax z (hkey.2 ⟨hz, hkz.trans hkx⟩)

/-- Dates count within a key only: the current entries are carried along by a
    map under which the entries of each key compare as before. -/
theorem current_map_of_lt_iff {β ω' : Type*} [LinearOrder ω'] {key' : β → κ} {date' : β → ω'}
    {t : α → β} (hkey : ∀ x ∈ xs, key' (t x) = key x)
    (hdate : ∀ x ∈ xs, ∀ y ∈ xs, key x = key y → (date x < date y ↔ date' (t x) < date' (t y)))
    (k : κ) : current key' date' (xs.map t) k = (current key date xs k).map t := by
  have hfilter : (xs.map t).filter (fun y => key' y = k) =
      (xs.filter fun x => key x = k).map t := by
    rw [List.filter_map]
    congr 1
    refine List.filter_congr fun x hx => ?_
    rw [Function.comp_apply, hkey x hx]
  rw [current, hfilter, current]
  refine argmax_map_of_lt_iff fun x hx y hy => ?_
  obtain ⟨hx, hkx⟩ := List.mem_filter.1 hx
  obtain ⟨hy, hky⟩ := List.mem_filter.1 hy
  simp only [decide_eq_true_eq] at hkx hky
  exact hdate x hx y hy (hkx.trans hky.symm)

/-! ## The election -/

variable (key date) (marked : α → Prop)

/-- The entry `x` wins: it is the current entry of its key and either it is the
    only marked current entry, or no current entry is marked and there is no
    other key. -/
def Wins (xs : List α) (x : α) : Prop :=
  current key date xs (key x) = some x ∧
    ((marked x ∧ ∀ k y, current key date xs k = some y → marked y → k = key x) ∨
      ((∀ k y, current key date xs k = some y → ¬marked y) ∧ ∀ y ∈ xs, key y = key x))

variable {key date marked}

theorem Wins.mem (h : Wins key date marked xs x) : x ∈ xs := (mem_of_current h.1).1

/-- At most one entry wins. -/
theorem Wins.unique {x' : α} (h : Wins key date marked xs x) (h' : Wins key date marked xs x') :
    x = x' := by
  -- The key of the winner is settled by the marks, or by there being no other key.
  have hkey : key x' = key x := by
    rcases h.2 with ⟨_, hx⟩ | ⟨hx, hall⟩
    · rcases h'.2 with ⟨hm', _⟩ | ⟨hx', hall'⟩
      · exact hx _ _ h'.1 hm'
      · exact (hall' x h.mem).symm
    · exact hall x' h'.mem
  have := h'.1
  rw [hkey, h.1] at this
  exact Option.some.inj this

/-- Who wins is a matter of the current entries only. -/
theorem wins_congr (h : ∀ k, current key date xs k = current key date ys k) :
    Wins key date marked xs x ↔ Wins key date marked ys x := by
  have hall : (∀ y ∈ xs, key y = key x) ↔ ∀ y ∈ ys, key y = key x := by
    have hkeys : ∀ k, (∃ y ∈ xs, key y = k) ↔ ∃ y ∈ ys, key y = k := fun k => by
      rw [← current_ne_none_iff date, ← current_ne_none_iff date, h]
    constructor
    · intro hx y hy
      obtain ⟨z, hz, hzk⟩ := (hkeys (key y)).2 ⟨y, hy, rfl⟩
      exact hzk.symm.trans (hx z hz)
    · intro hy x' hx'
      obtain ⟨z, hz, hzk⟩ := (hkeys (key x')).1 ⟨x', hx', rfl⟩
      exact hzk.symm.trans (hy z hz)
  simp only [Wins, h, hall]

/-- The winner is carried along by a map that keeps the keys and the marks, and
    under which the entries of each key compare as before. -/
theorem wins_map_iff {β ω' : Type*} [LinearOrder ω'] {key' : β → κ} {date' : β → ω'}
    {marked' : β → Prop} {t : α → β} (hkey : ∀ x ∈ xs, key' (t x) = key x)
    (hmarked : ∀ x ∈ xs, marked' (t x) ↔ marked x)
    (hdate : ∀ x ∈ xs, ∀ y ∈ xs, key x = key y → (date x < date y ↔ date' (t x) < date' (t y)))
    {b : β} : Wins key' date' marked' (xs.map t) b ↔ ∃ x, Wins key date marked xs x ∧ t x = b := by
  have hcur := current_map_of_lt_iff hkey hdate
  -- The conditions on an entry are those on its image, one by one.
  have hiff : ∀ x ∈ xs, (current key date xs (key x) = some x) →
      (Wins key' date' marked' (xs.map t) (t x) ↔ Wins key date marked xs x) := by
    intro x hx hxc
    have hmark : ∀ k, (∀ b, current key' date' (xs.map t) k = some b → marked' b → k = key x) ↔
        ∀ y, current key date xs k = some y → marked y → k = key x := by
      intro k
      rw [hcur]
      cases hy : current key date xs k with
      | none => simp
      | some y => simp [hmarked y (mem_of_current hy).1]
    have hunmark : ∀ k, (∀ b, current key' date' (xs.map t) k = some b → ¬marked' b) ↔
        ∀ y, current key date xs k = some y → ¬marked y := by
      intro k
      rw [hcur]
      cases hy : current key date xs k with
      | none => simp
      | some y => simp [hmarked y (mem_of_current hy).1]
    have hall : (∀ b ∈ xs.map t, key' b = key x) ↔ ∀ y ∈ xs, key y = key x := by
      rw [List.forall_mem_map]
      exact forall₂_congr fun y hy => by rw [hkey y hy]
    have hself : current key' date' (xs.map t) (key x) = some (t x) := by rw [hcur, hxc]; rfl
    simp only [Wins, hkey x hx, hmark, hunmark, hall, hmarked x hx, hself, hxc, true_and]
  constructor
  · intro h
    obtain ⟨x, hx, rfl⟩ : ∃ x, current key date xs (key' b) = some x ∧ t x = b := by
      have := h.1
      rw [hcur] at this
      exact Option.map_eq_some_iff.1 this
    obtain ⟨hxm, hxk⟩ := mem_of_current hx
    exact ⟨x, (hiff x hxm (hxk ▸ hx)).1 h, rfl⟩
  · rintro ⟨x, h, rfl⟩
    exact (hiff x h.mem h.1).2 h

/-- Nobody takes over from a key whose current entry is marked, or whose rivals
    are not: only its current entry can win. -/
theorem Wins.key_eq {a : α} (ha : current key date xs (key a) = some a)
    (hrivals : marked a ∨ ∀ k y, k ≠ key a → current key date xs k = some y → ¬marked y)
    (h : Wins key date marked xs x) : x = a := by
  have hkey : key a = key x := by
    rcases h.2 with ⟨hm, hx⟩ | ⟨_, hall⟩
    · rcases hrivals with hma | hr
      · exact hx _ _ ha hma
      · by_contra hne
        exact hr (key x) x (Ne.symm hne) h.1 hm
    · exact hall a (mem_of_current ha).1
  have := h.1
  rw [← hkey, ha] at this
  exact (Option.some.inj this).symm

end Latest
