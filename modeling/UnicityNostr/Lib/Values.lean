import Mathlib.Data.List.Nodup
import Std.Data.TreeMap.Lemmas

/-!
# The values of a tree map

The values of a map, as a list in the order of their keys, filtered by a
predicate: which maps leave no value (`filter_values_eq_nil_iff`) and which
leave exactly one (`filter_values_eq_singleton_iff`). Equal values filed under
different keys count separately.
-/

namespace Values

universe u v

variable {κ : Type u} {ν : Type v} {cmp : κ → κ → Ordering} [Std.TransCmp cmp]
  [Std.LawfulEqCmp cmp] {m : Std.TreeMap κ ν cmp} {p : ν → Bool}

omit [Std.LawfulEqCmp cmp] in
theorem nodup_toList : m.toList.Nodup := by
  refine List.Pairwise.imp ?_ Std.TreeMap.distinct_keys_toList
  rintro kv kv' h rfl
  exact h Std.ReflCmp.compare_self

theorem filter_values_eq_nil_iff :
    (m.toList.map Prod.snd).filter p = [] ↔ ∀ (k : κ) (v : ν), m[k]? = some v → ¬p v := by
  simp only [List.filter_eq_nil_iff, List.mem_map, Prod.exists,
    Std.TreeMap.mem_toList_iff_getElem?_eq_some]
  exact ⟨fun h k v hk => h v ⟨k, v, hk, rfl⟩, fun h _ ⟨k, v, hk, hv⟩ => hv ▸ h k v hk⟩

theorem filter_values_eq_singleton_iff {v : ν} :
    (m.toList.map Prod.snd).filter p = [v] ↔ ∃ k : κ, m[k]? = some v ∧ p v ∧
      ∀ (k' : κ) (v' : ν), m[k']? = some v' → p v' → k' = k := by
  rw [List.filter_map]
  constructor
  · intro h
    obtain ⟨⟨k, v'⟩, hkv, rfl⟩ := List.map_eq_singleton_iff.1 h
    have hmem : ∀ kv : κ × ν, kv ∈ m.toList.filter (p ∘ Prod.snd) ↔ kv = (k, v') := fun kv => by
      rw [hkv, List.mem_singleton]
    simp only [List.mem_filter, Prod.forall, Std.TreeMap.mem_toList_iff_getElem?_eq_some,
      Function.comp_apply, Prod.mk.injEq] at hmem
    have hself := (hmem k v').2 ⟨rfl, rfl⟩
    exact ⟨k, hself.1, hself.2, fun k' v'' hk' hp => ((hmem k' v'').1 ⟨hk', hp⟩).1⟩
  · rintro ⟨k, hk, hp, hall⟩
    have hperm : (m.toList.filter (p ∘ Prod.snd)).Perm [(k, v)] := by
      refine (List.perm_ext_iff_of_nodup (nodup_toList.filter _) (List.nodup_singleton _)).2 ?_
      rintro ⟨k', v'⟩
      simp only [List.mem_filter, Std.TreeMap.mem_toList_iff_getElem?_eq_some, Function.comp_apply,
        List.mem_singleton, Prod.mk.injEq]
      constructor
      · rintro ⟨hk', hp'⟩
        obtain rfl := hall k' v' hk' hp'
        exact ⟨rfl, Option.some.inj (hk'.symm.trans hk)⟩
      · rintro ⟨rfl, rfl⟩
        exact ⟨hk, hp⟩
    rw [List.perm_singleton.1 hperm]
    rfl

end Values
