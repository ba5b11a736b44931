import UnicityNostr.Binding
import UnicityNostr.Lib.Latest
import UnicityNostr.Lib.Values
import UnicityNostr.Reference

/-!
# The selection rule

The owner of a nametag is elected: among the current bindings of the authors,
the marked ones take precedence, and exactly one must be left. The selection the
code makes, through a map from authors to the indices of their latest events, is
this election (`resolveFiltered_eq_some_iff_elected`).

* `selection_rule`: the election in terms of the events alone;
* `resolution_order_matters`: two events of one author that are equally late
  make the answer depend on their order;
* `resolve_congr_of_mem_iff`: without such ties, it depends on the set of events
  only;
* `no_takeover`: the events of other authors cannot move a nametag to another
  author, only make it ambiguous.
-/

namespace UnicityNostr.Binding

open Nametag

/-! ## The election -/

/-- The date of an event. -/
abbrev date (e : Event) : Int := e.createdAt.toInt

/-- The current binding of an author: the latest of the included events. -/
abbrev currentBinding (events : List Event) (incl : Event → Bool) (author : String) :
    Option Event :=
  Latest.current Event.pubkey date (events.filter incl) author

/-- An author with an included event has a current binding. -/
theorem exists_currentBinding {events : List Event} {incl : Event → Bool} {e : Event}
    (h : e ∈ events.filter incl) : ∃ e', currentBinding events incl e.pubkey = some e' := by
  have hne : currentBinding events incl e.pubkey ≠ none :=
    (Latest.current_ne_none_iff date).2 ⟨e, h, rfl⟩
  exact Option.ne_none_iff_exists'.1 hne

/-- The event wins the election among the current bindings. -/
abbrev Elected (events : List Event) (incl : Event → Bool) (e : Event) : Prop :=
  Latest.Wins Event.pubkey date (fun e => hasOwnershipMarker e = true) (events.filter incl) e

/-! ## The map of latest indices -/

/-- Filing an event keeps the map at the current bindings. -/
theorem fileLatest_spec {events : List Event} {latest : Std.TreeMap String Nat} {ev : Event}
    {i : Nat} {xs : List Event} (hi : events[i]? = some ev)
    (h : ∀ k : String, latest[k]?.map (events[·]?) =
      (Latest.current Event.pubkey date xs k).map some)
    (k : String) : (fileLatest events latest ev i)[k]?.map (events[·]?) =
      (Latest.current Event.pubkey date (xs ++ [ev]) k).map some := by
  have hk := h k
  rw [fileLatest, Std.TreeMap.getElem?_alter, Latest.current_concat]
  simp only [Std.LawfulEqCmp.compare_eq_iff_eq]
  split_ifs with hkey
  · -- The author of the event: its entry is replaced by a later event only.
    subst hkey
    cases hm : latest[ev.pubkey]? with
    | none =>
      rw [hm] at hk
      rw [Option.map_eq_none_iff.1 hk.symm]
      simp [hi]
    | some idx =>
      rw [hm] at hk
      obtain ⟨cur, hcur, hidx⟩ := Option.map_eq_some_iff.1 hk.symm
      rw [hcur]
      simp only [← hidx, Option.any_some, Option.map_some, gt_iff_lt, decide_eq_true_eq,
        Int64.lt_iff_toInt_lt]
      split_ifs
      · rw [hi, Option.map_some]
      · rw [Option.map_some, hidx]
  · -- The entries of the other authors stay.
    exact hk

/-- The map points at the current binding of every author. -/
theorem latestIndices_spec (events : List Event) (incl : Event → Bool) (k : String) :
    (latestIndices events incl)[k]?.map (events[·]?) =
      (currentBinding events incl k).map some := by
  -- By induction on the part of the list that has been filed.
  suffices hfold : ∀ pre post, events = pre ++ post → ∀ k : String,
      (pre.zipIdx.foldl (fun latest entry =>
        if incl entry.1 then fileLatest events latest entry.1 entry.2 else latest)
          {})[k]?.map (events[·]?) = (currentBinding pre incl k).map some from
    hfold events [] (List.append_nil _).symm k
  intro pre
  induction pre using List.reverseRecOn with
  | nil => intro _ _ k; simp [currentBinding, Latest.current]
  | append_singleton pre ev ih =>
    intro post hpost k
    have hi : events[pre.length]? = some ev := by simp [hpost]
    have ih := ih (ev :: post) (by simp [hpost])
    rw [List.zipIdx_append, List.foldl_append, currentBinding, List.filter_append]
    simp only [List.zipIdx_cons, List.zipIdx_nil, List.foldl_cons, List.foldl_nil, Nat.zero_add]
    split_ifs with hincl
    · rw [List.filter_cons_of_pos hincl]
      exact fileLatest_spec hi ih k
    · rw [List.filter_cons_of_neg hincl, List.filter_nil, List.append_nil]
      exact ih k

/-- The indices in the map are those of current bindings. -/
theorem latestIndices_eq_some {events : List Event} {incl : Event → Bool} {k : String} {idx : Nat}
    (h : (latestIndices events incl)[k]? = some idx) :
    ∃ e, events[idx]? = some e ∧ currentBinding events incl k = some e := by
  have hspec := latestIndices_spec events incl k
  rw [h] at hspec
  obtain ⟨e, he, hidx⟩ := Option.map_eq_some_iff.1 hspec.symm
  exact ⟨e, hidx.symm, he⟩

/-- Every current binding has its index in the map. -/
theorem latestIndices_of_currentBinding {events : List Event} {incl : Event → Bool} {k : String}
    {e : Event} (h : currentBinding events incl k = some e) :
    ∃ idx, (latestIndices events incl)[k]? = some idx ∧ events[idx]? = some e := by
  have hspec := latestIndices_spec events incl k
  rw [h] at hspec
  exact Option.map_eq_some_iff.1 hspec

/-! ## The selection is the election -/

/-- The condition on the owners in terms of the map: one marked index, or no
    marked index and one index. -/
theorem resolveFiltered_eq_some {events : List Event} {incl : Event → Bool} {e : Event} :
    resolveFiltered events incl = some e ↔ ∃ idx, events[idx]? = some e ∧
      let latest := (latestIndices events incl).toList.map Prod.snd
      let marked := latest.filter fun idx => events[idx]?.any hasOwnershipMarker
      marked = [idx] ∨ (marked = [] ∧ latest.filter (fun _ => true) = [idx]) := by
  simp only [resolveFiltered, List.filter_true]
  generalize (latestIndices events incl).toList.map Prod.snd = latest
  generalize latest.filter (fun idx => events[idx]?.any hasOwnershipMarker) = marked
  -- None, one, or several are marked; in the first case, none, one, or several are there.
  rcases marked with _ | ⟨idx, _ | ⟨idx', marked⟩⟩
  · rcases latest with _ | ⟨idx, _ | ⟨idx', latest⟩⟩ <;> simp
  · simp
  · simp

/-- The code selects the elected event. -/
theorem resolveFiltered_eq_some_iff_elected {events : List Event} {incl : Event → Bool}
    {e : Event} : resolveFiltered events incl = some e ↔ Elected events incl e := by
  simp only [resolveFiltered_eq_some, Values.filter_values_eq_singleton_iff,
    Values.filter_values_eq_nil_iff]
  -- Whether an index in the map is marked is a matter of the current binding.
  have hmarked : ∀ {k : String} {idx : Nat} {y : Event},
      (latestIndices events incl)[k]? = some idx → currentBinding events incl k = some y →
      (events[idx]?.any hasOwnershipMarker = true ↔ hasOwnershipMarker y = true) := by
    intro k idx y hk hy
    obtain ⟨y', hidx, hy'⟩ := latestIndices_eq_some hk
    rw [Option.some.inj (hy.symm.trans hy'), hidx, Option.any_some]
  constructor
  · rintro ⟨idx, hidx, ⟨k, hk, hm, hall⟩ | ⟨hnone, k, hk, -, hall⟩⟩
    · obtain ⟨e', hidx', hcur⟩ := latestIndices_eq_some hk
      obtain rfl := Option.some.inj (hidx.symm.trans hidx')
      obtain ⟨-, rfl⟩ := Latest.mem_of_current hcur
      refine ⟨hcur, .inl ⟨(hmarked hk hcur).1 hm, fun k' y hy hym => ?_⟩⟩
      obtain ⟨idx', hk', -⟩ := latestIndices_of_currentBinding hy
      exact hall k' idx' hk' ((hmarked hk' hy).2 hym)
    · obtain ⟨e', hidx', hcur⟩ := latestIndices_eq_some hk
      obtain rfl := Option.some.inj (hidx.symm.trans hidx')
      obtain ⟨-, rfl⟩ := Latest.mem_of_current hcur
      refine ⟨hcur, .inr ⟨fun k' y hy hym => ?_, fun y hy => ?_⟩⟩
      · obtain ⟨idx', hk', -⟩ := latestIndices_of_currentBinding hy
        exact hnone k' idx' hk' ((hmarked hk' hy).2 hym)
      · obtain ⟨y', hy'⟩ := exists_currentBinding hy
        obtain ⟨idx', hk', -⟩ := latestIndices_of_currentBinding hy'
        exact hall _ idx' hk' trivial
  · rintro ⟨hcur, ⟨hm, hall⟩ | ⟨hnone, hall⟩⟩
    · obtain ⟨idx, hk, hidx⟩ := latestIndices_of_currentBinding hcur
      refine ⟨idx, hidx, .inl ⟨_, hk, (hmarked hk hcur).2 hm, fun k' idx' hk' hm' => ?_⟩⟩
      obtain ⟨y, -, hy⟩ := latestIndices_eq_some hk'
      exact hall k' y hy ((hmarked hk' hy).1 hm')
    · obtain ⟨idx, hk, hidx⟩ := latestIndices_of_currentBinding hcur
      refine ⟨idx, hidx, .inr ⟨fun k' idx' hk' hm' => ?_, _, hk, trivial, fun k' idx' hk' _ => ?_⟩⟩
      · obtain ⟨y, -, hy⟩ := latestIndices_eq_some hk'
        exact hnone k' y hy ((hmarked hk' hy).1 hm')
      · obtain ⟨y, -, hy⟩ := latestIndices_eq_some hk'
        obtain ⟨hmem, rfl⟩ := Latest.mem_of_current hy
        exact hall y hmem

/-! ## The selection rule -/

/-- The event is the current binding of its author: it is included, and it is
    the first, in list order, among the included events of its author of
    greatest `createdAt`. -/
def IsCurrentBinding (events : List Event) (incl : Event → Bool) (e : Event) : Prop :=
  incl e = true ∧ ∃ pre post, events = pre ++ e :: post ∧
    (∀ x ∈ pre, incl x = true → x.pubkey = e.pubkey → x.createdAt < e.createdAt) ∧
    ∀ x ∈ post, incl x = true → x.pubkey = e.pubkey → x.createdAt ≤ e.createdAt

theorem isCurrentBinding_iff {events : List Event} {incl : Event → Bool} {e : Event} :
    IsCurrentBinding events incl e ↔ currentBinding events incl e.pubkey = some e := by
  rw [currentBinding, Latest.current_eq_some_iff, Latest.filter_split_iff, IsCurrentBinding]
  simp only [true_and, date, Int64.lt_iff_toInt_lt, Int64.le_iff_toInt_le]

variable {C : Crates}

/-- A current binding in terms of the events. -/
theorem currentBinding_eq_some_iff {events : List Event} {incl : Event → Bool} {k : String}
    {e : Event} :
    currentBinding events incl k = some e ↔ IsCurrentBinding events incl e ∧ e.pubkey = k := by
  rw [isCurrentBinding_iff]
  constructor
  · intro h
    obtain ⟨-, rfl⟩ := Latest.mem_of_current h
    exact ⟨h, rfl⟩
  · rintro ⟨h, rfl⟩
    exact h

/-- The election in terms of the events. -/
theorem elected_iff {events : List Event} {incl : Event → Bool} {e : Event} :
    Elected events incl e ↔ IsCurrentBinding events incl e ∧
      ((hasOwnershipMarker e = true ∧ ∀ e', IsCurrentBinding events incl e' →
          hasOwnershipMarker e' = true → e'.pubkey = e.pubkey) ∨
        ((∀ e', IsCurrentBinding events incl e' → hasOwnershipMarker e' = false) ∧
          ∀ e' ∈ events, incl e' = true → e'.pubkey = e.pubkey)) := by
  rw [Elected, Latest.Wins, ← isCurrentBinding_iff]
  simp only [currentBinding_eq_some_iff, List.mem_filter, and_imp, forall_comm (α := String),
    forall_eq', Bool.not_eq_true]

/-- The pair wins the election by its first components. -/
abbrev ElectedPair (redated : List (Event × Event)) (incl : Event → Bool) (p : Event × Event) :
    Prop :=
  Latest.Wins (fun p : Event × Event => p.1.pubkey) (fun p => date p.1)
    (fun p => hasOwnershipMarker p.1 = true) (redated.filter fun p => incl p.1) p

/-- Dates count within an author only: dating the events of a list differently,
    without changing who is included or marked, nor the order among the
    included events of each author, selects the event at the same place. -/
theorem resolveFiltered_redated {incl : Event → Bool} {redated : List (Event × Event)}
    (hkeep : ∀ p ∈ redated, p.2.pubkey = p.1.pubkey ∧
      hasOwnershipMarker p.2 = hasOwnershipMarker p.1 ∧ incl p.2 = incl p.1)
    (hdate : ∀ p ∈ redated, ∀ q ∈ redated, incl p.1 = true → incl q.1 = true →
      p.1.pubkey = q.1.pubkey →
      (p.1.createdAt < q.1.createdAt ↔ p.2.createdAt < q.2.createdAt)) :
    (resolveFiltered (redated.map Prod.fst) incl = none ∧
        resolveFiltered (redated.map Prod.snd) incl = none) ∨
      ∃ p ∈ redated, resolveFiltered (redated.map Prod.fst) incl = some p.1 ∧
        resolveFiltered (redated.map Prod.snd) incl = some p.2 := by
  have hmem : ∀ p ∈ redated.filter fun p => incl p.1, p ∈ redated ∧ incl p.1 = true :=
    fun p hp => List.mem_filter.1 hp
  -- Both lists are images of the list of pairs, in which the first components decide.
  have hfst : ∀ e, resolveFiltered (redated.map Prod.fst) incl = some e ↔
      ∃ p, ElectedPair redated incl p ∧ p.1 = e := by
    intro e
    rw [resolveFiltered_eq_some_iff_elected, Elected, List.filter_map]
    apply Latest.wins_map_iff
    · exact fun _ _ => rfl
    · exact fun _ _ => Iff.rfl
    · exact fun _ _ _ _ _ => Iff.rfl
  have hsnd : ∀ e, resolveFiltered (redated.map Prod.snd) incl = some e ↔
      ∃ p, ElectedPair redated incl p ∧ p.2 = e := by
    intro e
    have hfilter : redated.filter (incl ∘ Prod.snd) = redated.filter fun p => incl p.1 :=
      List.filter_congr fun p hp => (hkeep p hp).2.2
    rw [resolveFiltered_eq_some_iff_elected, Elected, List.filter_map, hfilter]
    apply Latest.wins_map_iff
    · exact fun p hp => (hkeep p (hmem p hp).1).1
    · intro p hp
      rw [(hkeep p (hmem p hp).1).2.1]
    · intro p hp q hq hkey
      simp only [date, ← Int64.lt_iff_toInt_lt]
      exact hdate p (hmem p hp).1 q (hmem q hq).1 (hmem p hp).2 (hmem q hq).2 hkey
  by_cases hwon : ∃ p, ElectedPair redated incl p
  · obtain ⟨p, hp⟩ := hwon
    exact .inr ⟨p, (hmem p hp.mem).1, (hfst _).2 ⟨p, hp, rfl⟩, (hsnd _).2 ⟨p, hp, rfl⟩⟩
  · refine .inl ⟨Option.eq_none_iff_forall_ne_some.2 fun e he => ?_,
      Option.eq_none_iff_forall_ne_some.2 fun e he => ?_⟩
    · obtain ⟨p, hp, -⟩ := (hfst e).1 he
      exact hwon ⟨p, hp⟩
    · obtain ⟨p, hp, -⟩ := (hsnd e).1 he
      exact hwon ⟨p, hp⟩

/-- The owner is among the events that are included. -/
theorem resolveFiltered_mem {events : List Event} {incl : Event → Bool} {e : Event}
    (h : resolveFiltered events incl = some e) : e ∈ events ∧ incl e = true :=
  List.mem_filter.1 (resolveFiltered_eq_some_iff_elected.1 h).mem

variable (C) in
/-- The selection rule: exactly the elected event is selected, so that the owner
    is an event of the list that verifies, and dates never decide between two
    authors. -/
theorem selection_rule :
    (∀ (events : List Event) (incl : Event → Bool) (e : Event),
      resolveFiltered events incl = some e ↔ IsCurrentBinding events incl e ∧
        ((hasOwnershipMarker e = true ∧ ∀ e', IsCurrentBinding events incl e' →
            hasOwnershipMarker e' = true → e'.pubkey = e.pubkey) ∨
          ((∀ e', IsCurrentBinding events incl e' → hasOwnershipMarker e' = false) ∧
            ∀ e' ∈ events, incl e' = true → e'.pubkey = e.pubkey))) ∧
    (∀ (events : List Event) (e : Event),
      resolveOwner C events = some e → e ∈ events ∧ e.verify C = true) ∧
    ∀ (incl : Event → Bool) (redated : List (Event × Event)),
      (∀ p ∈ redated, p.2.pubkey = p.1.pubkey ∧
        hasOwnershipMarker p.2 = hasOwnershipMarker p.1 ∧ incl p.2 = incl p.1) →
      (∀ p ∈ redated, ∀ q ∈ redated, incl p.1 = true → incl q.1 = true →
        p.1.pubkey = q.1.pubkey →
        (p.1.createdAt < q.1.createdAt ↔ p.2.createdAt < q.2.createdAt)) →
      (resolveFiltered (redated.map Prod.fst) incl = none ∧
          resolveFiltered (redated.map Prod.snd) incl = none) ∨
        ∃ p ∈ redated, resolveFiltered (redated.map Prod.fst) incl = some p.1 ∧
          resolveFiltered (redated.map Prod.snd) incl = some p.2 :=
  ⟨fun _ _ _ => resolveFiltered_eq_some_iff_elected.trans elected_iff,
    fun _ _ h => resolveFiltered_mem h, fun _ _ hkeep hdate => resolveFiltered_redated hkeep hdate⟩

/-! ## The order of the events -/

/-- If only one author has included events, its current binding is selected. -/
theorem resolveFiltered_of_single_author {events : List Event} {incl : Event → Bool} {e : Event}
    (hcur : IsCurrentBinding events incl e)
    (hall : ∀ e' ∈ events, incl e' = true → e'.pubkey = e.pubkey) :
    resolveFiltered events incl = some e := by
  refine resolveFiltered_eq_some_iff_elected.2 (elected_iff.2 ⟨hcur, ?_⟩)
  -- The current binding of the author is the only one there is.
  have honly : ∀ e', IsCurrentBinding events incl e' → e' = e := by
    intro e' hcur'
    have hkey : e'.pubkey = e.pubkey := by
      obtain ⟨hincl, pre, post, rfl, -⟩ := hcur'
      exact hall e' (by simp) hincl
    rw [isCurrentBinding_iff] at hcur hcur'
    rw [hkey] at hcur'
    exact Option.some.inj (hcur'.symm.trans hcur)
  cases hm : hasOwnershipMarker e with
  | true => exact .inl ⟨rfl, fun e' hcur' _ => honly e' hcur' ▸ rfl⟩
  | false => exact .inr ⟨fun e' hcur' => (honly e' hcur').symm ▸ hm, hall⟩

/-- The author of secret 1 publishes two bindings of `alice`, to different
    addresses and with the same date: which of them is selected depends on which
    one is listed first. -/
theorem resolution_order_matters :
    ¬∀ events events' : List Event, (∀ e, e ∈ events ↔ e ∈ events') →
      resolveOwner Reference.crates events = resolveOwner Reference.crates events' ∧
      ∀ nametagId, resolveNametagOwner Reference.crates events nametagId =
        resolveNametagOwner Reference.crates events' nametagId := by
  intro hclaim
  obtain ⟨e₁, h₁⟩ : ∃ e, e = Reference.binding Reference.one "DIRECT://one" 5 := ⟨_, rfl⟩
  obtain ⟨e₂, h₂⟩ : ∃ e, e = Reference.binding Reference.one "DIRECT://two" 5 := ⟨_, rfl⟩
  have hne : e₁ ≠ e₂ := by
    rw [h₁, h₂]
    exact Reference.binding_ne_of_address_ne (by decide)
  have hpub : e₁.pubkey = e₂.pubkey := by
    rw [h₁, h₂, Reference.binding_pubkey, Reference.binding_pubkey]
  have hdate : e₁.createdAt = e₂.createdAt := by
    rw [h₁, h₂, Reference.binding_createdAt, Reference.binding_createdAt]
  have hv₁ : e₁.verify Reference.crates = true := h₁ ▸ Reference.verify_binding _ _ _
  have hv₂ : e₂.verify Reference.crates = true := h₂ ▸ Reference.verify_binding _ _ _
  have hfirst : ∀ e e', e.verify Reference.crates = true → e'.pubkey = e.pubkey →
      e'.createdAt = e.createdAt → resolveOwner Reference.crates [e, e'] = some e := by
    intro e e' hv hpub hdate
    exact resolveFiltered_of_single_author ⟨hv, [], [e'], rfl, by simp, by simp [hdate]⟩
      (by simp [hpub])
  have heq := (hclaim [e₁, e₂] [e₂, e₁] (by simp [or_comm])).1
  rw [hfirst e₁ e₂ hv₁ hpub.symm hdate.symm, hfirst e₂ e₁ hv₂ hpub hdate] at heq
  exact hne (Option.some.inj heq)

/-- No author has two different included events that are tied for its latest. -/
def NoTies (events : List Event) (incl : Event → Bool) : Prop :=
  ∀ x ∈ events, ∀ y ∈ events, incl x = true → incl y = true → x.pubkey = y.pubkey →
    x.createdAt = y.createdAt →
    (∀ z ∈ events, incl z = true → z.pubkey = x.pubkey → z.createdAt ≤ x.createdAt) → x = y

/-- Without ties, the selection is a matter of the set of events only. -/
theorem resolveFiltered_congr_of_mem_iff {events events' : List Event} {incl : Event → Bool}
    (h : ∀ e, e ∈ events ↔ e ∈ events') (hties : NoTies events incl) :
    resolveFiltered events incl = resolveFiltered events' incl := by
  refine Option.ext fun e => ?_
  rw [resolveFiltered_eq_some_iff_elected, resolveFiltered_eq_some_iff_elected]
  refine Latest.wins_congr (Latest.current_congr_of_mem_iff (fun x => by simp [h x]) ?_)
  intro x hx y hy hkey hdate hmax
  obtain ⟨hx, hxi⟩ := List.mem_filter.1 hx
  obtain ⟨hy, hyi⟩ := List.mem_filter.1 hy
  refine hties x hx y hy hxi hyi hkey (Int64.toInt_inj.1 hdate) fun z hz hzi hzk => ?_
  exact Int64.le_iff_toInt_le.2 (hmax z (List.mem_filter.2 ⟨hz, hzi⟩) hzk)

/-- Two lists of the same events give the same owners, as far as no author has
    two different counted events tied for its latest. -/
theorem resolve_congr_of_mem_iff (C : Crates) {events events' : List Event}
    (h : ∀ e, e ∈ events ↔ e ∈ events') :
    (NoTies events (Event.verify C) → resolveOwner C events = resolveOwner C events') ∧
    ∀ nametagId, NoTies events (countsFor C nametagId) →
      resolveNametagOwner C events nametagId = resolveNametagOwner C events' nametagId :=
  ⟨resolveFiltered_congr_of_mem_iff h, fun _ => resolveFiltered_congr_of_mem_iff h⟩

theorem noTies_pair {e₁ e₂ : Event} (h : e₁.createdAt ≠ e₂.createdAt) (incl : Event → Bool) :
    NoTies [e₁, e₂] incl := by
  intro x hx y hy _ _ _ hxy _
  simp only [List.mem_cons, List.not_mem_nil, or_false] at hx hy
  rcases hx with rfl | rfl <;> rcases hy with rfl | rfl
  · rfl
  · exact absurd hxy h
  · exact absurd hxy.symm h
  · rfl

/-- Two bindings of one author with different dates, listed in both orders and
    with a repetition. -/
theorem resolve_congr_of_mem_iff_bindings :
    ∃ e₁ e₂ : Event, e₁ ≠ e₂ ∧ e₁.pubkey = e₂.pubkey ∧
      countsFor Reference.crates "alice" e₁ = true ∧ countsFor Reference.crates "alice" e₂ = true ∧
      resolveOwner Reference.crates [e₁, e₂] = resolveOwner Reference.crates [e₂, e₁, e₂] ∧
      resolveNametagOwner Reference.crates [e₁, e₂] "alice" =
        resolveNametagOwner Reference.crates [e₂, e₁, e₂] "alice" := by
  obtain ⟨e₁, h₁⟩ : ∃ e, e = Reference.binding Reference.one "DIRECT://one" 5 := ⟨_, rfl⟩
  obtain ⟨e₂, h₂⟩ : ∃ e, e = Reference.binding Reference.one "DIRECT://two" 6 := ⟨_, rfl⟩
  have hne : e₁ ≠ e₂ := by
    rw [h₁, h₂]
    exact Reference.binding_ne_of_address_ne (by decide)
  have hdate : e₁.createdAt ≠ e₂.createdAt := by
    rw [h₁, h₂, Reference.binding_createdAt, Reference.binding_createdAt]
    decide
  have hpub : e₁.pubkey = e₂.pubkey := by
    rw [h₁, h₂, Reference.binding_pubkey, Reference.binding_pubkey]
  have hmem : ∀ e, e ∈ [e₁, e₂] ↔ e ∈ [e₂, e₁, e₂] := fun e => by
    simp only [List.mem_cons, List.not_mem_nil, or_false]
    tauto
  have hcount₁ : countsFor Reference.crates "alice" e₁ = true := by
    rw [h₁]
    exact Reference.countsFor_binding _ (by decide) _
  have hcount₂ : countsFor Reference.crates "alice" e₂ = true := by
    rw [h₂]
    exact Reference.countsFor_binding _ (by decide) _
  exact ⟨e₁, e₂, hne, hpub, hcount₁, hcount₂,
    (resolve_congr_of_mem_iff _ hmem).1 (noTies_pair hdate _),
    (resolve_congr_of_mem_iff _ hmem).2 _ (noTies_pair hdate _)⟩

/-! ## The events of other authors -/

/-- The counted events of an author. -/
def countedOf (C : Crates) (nametagId author : String) (events : List Event) : List Event :=
  events.filter fun e => countsFor C nametagId e && e.pubkey == author

/-- The author's current binding is marked, or no current binding of another
    author is. -/
def Unrivalled (C : Crates) (nametagId author : String) (events : List Event) : Prop :=
  (∃ e, IsCurrentBinding events (countsFor C nametagId) e ∧ e.pubkey = author ∧
      hasOwnershipMarker e = true) ∨
    ∀ e, IsCurrentBinding events (countsFor C nametagId) e → e.pubkey ≠ author →
      hasOwnershipMarker e = false

/-- The current binding of an author is a matter of its own counted events. -/
theorem currentBinding_congr {C : Crates} {nametagId author : String} {events events' : List Event}
    (h : countedOf C nametagId author events = countedOf C nametagId author events') :
    currentBinding events (countsFor C nametagId) author =
      currentBinding events' (countsFor C nametagId) author := by
  refine Latest.current_congr ?_
  simp only [List.filter_filter]
  convert h using 2 <;> simp [countedOf, Bool.and_comm, beq_eq_decide]

/-- If an author with counted events is unrivalled, nobody else is selected. -/
theorem resolve_eq_of_unrivalled {C : Crates} {nametagId author : String} {events : List Event}
    {a e : Event} (ha : currentBinding events (countsFor C nametagId) author = some a)
    (hu : Unrivalled C nametagId author events)
    (h : resolveNametagOwner C events nametagId = some e) : e = a := by
  obtain ⟨hacur, rfl⟩ := currentBinding_eq_some_iff.1 ha
  refine Latest.Wins.key_eq ha ?_ (resolveFiltered_eq_some_iff_elected.1 h)
  rcases hu with ⟨a', ha', hpub, hm⟩ | hothers
  · have : currentBinding events (countsFor C nametagId) a.pubkey = some a' :=
      currentBinding_eq_some_iff.2 ⟨ha', hpub⟩
    rw [Option.some.inj (ha.symm.trans this)]
    exact .inl hm
  · refine .inr fun k y hk hy hm => ?_
    obtain ⟨hycur, rfl⟩ := currentBinding_eq_some_iff.1 hy
    rw [hothers y hycur hk] at hm
    cases hm

/-- No takeover: whatever the events of the other authors are, as long as an
    author's own counted events stay the same and no rival is marked, or the
    author is, the nametag resolves to nobody else; and if it resolves at all,
    then to the same event of the author. -/
theorem no_takeover (C : Crates) (nametagId author : String) {events events' : List Event}
    (hsame : countedOf C nametagId author events = countedOf C nametagId author events')
    (hne : countedOf C nametagId author events ≠ []) :
    (Unrivalled C nametagId author events' → ∀ e,
      resolveNametagOwner C events' nametagId = some e → e ∈ events' ∧ e.pubkey = author) ∧
    (Unrivalled C nametagId author events → Unrivalled C nametagId author events' → ∀ e e',
      resolveNametagOwner C events nametagId = some e →
      resolveNametagOwner C events' nametagId = some e' → e = e' ∧ e.pubkey = author) := by
  obtain ⟨a, ha⟩ : ∃ a, currentBinding events (countsFor C nametagId) author = some a := by
    obtain ⟨e, he⟩ := List.exists_mem_of_ne_nil _ hne
    obtain ⟨hmem, hcount⟩ := List.mem_filter.1 he
    obtain ⟨hincl, hkey⟩ := Bool.and_eq_true_iff.1 hcount
    obtain rfl := eq_of_beq hkey
    exact exists_currentBinding (List.mem_filter.2 ⟨hmem, hincl⟩)
  have ha' := (currentBinding_congr hsame).symm.trans ha
  have hkey := (currentBinding_eq_some_iff.1 ha).2
  constructor
  · intro hu e he
    exact ⟨(resolveFiltered_mem he).1, resolve_eq_of_unrivalled ha' hu he ▸ hkey⟩
  · intro hu hu' e e' he he'
    obtain rfl := resolve_eq_of_unrivalled ha hu he
    exact ⟨(resolve_eq_of_unrivalled ha' hu' he').symm, hkey⟩

/-- Another author back-dates a binding of `alice`: the nametag does not resolve
    to it. -/
theorem no_takeover_backdated :
    ∃ a b : Event, b.pubkey ≠ a.pubkey ∧ b.createdAt < a.createdAt ∧
      countsFor Reference.crates "alice" b = true ∧
      ∀ e, resolveNametagOwner Reference.crates [b, a] "alice" = some e →
        e ∈ [b, a] ∧ e.pubkey = a.pubkey := by
  obtain ⟨a, ha⟩ : ∃ e, e = Reference.binding Reference.one "DIRECT://one" 5 := ⟨_, rfl⟩
  obtain ⟨b, hb⟩ : ∃ e, e = Reference.binding Reference.two "DIRECT://two" 1 := ⟨_, rfl⟩
  have hpub : b.pubkey ≠ a.pubkey := by
    rw [ha, hb, Reference.binding_pubkey, Reference.binding_pubkey]
    decide +kernel
  have hdate : b.createdAt < a.createdAt := by
    rw [ha, hb, Reference.binding_createdAt, Reference.binding_createdAt]
    decide
  have hca : countsFor Reference.crates "alice" a = true := by
    rw [ha]
    exact Reference.countsFor_binding _ (by decide) _
  have hcb : countsFor Reference.crates "alice" b = true := by
    rw [hb]
    exact Reference.countsFor_binding _ (by decide) _
  have hmarked : hasOwnershipMarker a = true := by
    rw [ha]
    exact hasOwnershipMarker_created (Reference.binding_eq_ok _ _ _)
  have hu : Unrivalled Reference.crates "alice" a.pubkey [b, a] :=
    .inl ⟨a, ⟨hca, [b], [], rfl, by simp [hdate], by simp⟩, rfl, hmarked⟩
  have hsame : countedOf Reference.crates "alice" a.pubkey [a] =
      countedOf Reference.crates "alice" a.pubkey [b, a] := by simp [countedOf, hpub]
  have hne : countedOf Reference.crates "alice" a.pubkey [a] ≠ [] := by simp [countedOf, hca]
  exact ⟨a, b, hpub, hdate, hcb,
    (no_takeover Reference.crates "alice" a.pubkey hsame hne).1 hu⟩

end UnicityNostr.Binding
