import UnicityNostr.Event

/-!
# Subscription filters

A filter (NIP-01) constrains the events a relay sends. Fields that are absent
impose no constraint, and neither do empty lists, except that of the kinds when
a filter is matched locally.

* `Filter.matches_eq_true_iff`: what it means to satisfy every constraint.
-/

namespace UnicityNostr

/-- A subscription filter. -/
structure Filter where
  ids : Option (List String) := none
  authors : Option (List String) := none
  kinds : Option (List UInt32) := none
  eTags : Option (List String) := none
  pTags : Option (List String) := none
  tTags : Option (List String) := none
  dTags : Option (List String) := none
  hTags : Option (List String) := none
  since : Option Int64 := none
  «until» : Option Int64 := none
  limit : Option UInt32 := none
  deriving DecidableEq

namespace Filter

/-! ## Matching -/

/-- Whether the event has a tag `name` with one of the wanted values, if there
    are any. -/
def tagMatches (name : String) (wanted : Option (List String)) (event : Event) : Bool :=
  match wanted with
  | none => true
  | some [] => true
  | some vals => event.tags.any fun t => t.head? == some name && t[1]?.any (vals.contains ·)

/-- Whether one of the wanted prefixes, if there are any, begins `s`. -/
def prefixMatches (wanted : Option (List String)) (s : String) : Bool :=
  match wanted with
  | none => true
  | some [] => true
  | some prefixes => prefixes.any fun p => p.toList.isPrefixOf s.toList

/-- Whether the event satisfies every constraint of the filter. -/
def «matches» (f : Filter) (event : Event) : Bool :=
  prefixMatches f.ids event.id && prefixMatches f.authors event.pubkey &&
    f.kinds.all (·.contains event.kind) &&
    tagMatches "e" f.eTags event && tagMatches "p" f.pTags event &&
    tagMatches "t" f.tTags event && tagMatches "d" f.dTags event &&
    tagMatches "h" f.hTags event &&
    f.since.all (fun t => !decide (event.createdAt < t)) &&
    f.until.all (fun t => !decide (event.createdAt > t))

/-- The constraint of a list of alternatives: absent, empty, or met by one. -/
def Meets {α : Type} (wanted : Option (List α)) (p : α → Prop) : Prop :=
  ∀ vals, wanted = some vals → vals = [] ∨ ∃ v ∈ vals, p v

theorem meets_none {α : Type} (p : α → Prop) : Meets none p := by
  rintro vals ⟨⟩

theorem tagMatches_eq_true_iff {name : String} {wanted : Option (List String)} {event : Event} :
    tagMatches name wanted event = true ↔
      Meets wanted fun v => ∃ t ∈ event.tags, t.head? = some name ∧ t[1]? = some v := by
  rcases wanted with _ | _ | ⟨v, vs⟩
  · simp [tagMatches, Meets]
  · simp [tagMatches, Meets]
  · have h : tagMatches name (some (v :: vs)) event = true ↔
        ∃ t ∈ event.tags, t.head? = some name ∧ ∃ w, t[1]? = some w ∧ w ∈ v :: vs := by
      simp only [tagMatches, List.any_eq_true, Bool.and_eq_true, beq_iff_eq, Option.any_eq_true,
        List.contains_iff_mem]
    rw [h]
    constructor
    · rintro ⟨t, ht, hname, w, hw, hmem⟩ _ ⟨⟩
      exact .inr ⟨w, hmem, t, ht, hname, hw⟩
    · intro hm
      rcases hm _ rfl with hnil | ⟨w, hmem, t, ht, hname, hw⟩
      · cases hnil
      · exact ⟨t, ht, hname, w, hw, hmem⟩

theorem prefixMatches_eq_true_iff {wanted : Option (List String)} {s : String} :
    prefixMatches wanted s = true ↔ Meets wanted fun p => p.toList <+: s.toList := by
  rcases wanted with _ | _ | ⟨v, vs⟩
  · simp [prefixMatches, Meets]
  · simp [prefixMatches, Meets]
  · simp only [prefixMatches, Meets, List.any_eq_true, List.isPrefixOf_iff_prefix]
    exact ⟨fun h _ heq => Option.some.inj heq ▸ .inr h,
      fun h => (h _ rfl).resolve_left (List.cons_ne_nil _ _)⟩

/-- Satisfying every constraint: ids and authors by prefix, tags by value, the
    kinds and the bounds of the date as they stand. -/
theorem matches_eq_true_iff {f : Filter} {event : Event} : f.matches event = true ↔
    (Meets f.ids (·.toList <+: event.id.toList) ∧
      Meets f.authors (·.toList <+: event.pubkey.toList)) ∧
    (∀ kinds, f.kinds = some kinds → event.kind ∈ kinds) ∧
    (∀ name wanted, (name, wanted) ∈ [("e", f.eTags), ("p", f.pTags), ("t", f.tTags),
        ("d", f.dTags), ("h", f.hTags)] →
      Meets wanted fun v => ∃ t ∈ event.tags, t.head? = some name ∧ t[1]? = some v) ∧
    (∀ t, f.since = some t → ¬event.createdAt < t) ∧
    ∀ t, f.until = some t → ¬event.createdAt > t := by
  simp only [«matches», Bool.and_eq_true, prefixMatches_eq_true_iff, tagMatches_eq_true_iff,
    Option.all_eq_true, List.contains_iff_mem, Bool.not_eq_true', decide_eq_false_iff_not,
    List.mem_cons, List.not_mem_nil, or_false, Prod.mk.injEq]
  constructor
  · rintro ⟨⟨⟨⟨⟨⟨⟨⟨hid, hk⟩, he⟩, hp⟩, ht⟩, hd⟩, hh⟩, hs⟩, hu⟩
    refine ⟨hid, hk, ?_, hs, hu⟩
    rintro _ _ (⟨rfl, rfl⟩ | ⟨rfl, rfl⟩ | ⟨rfl, rfl⟩ | ⟨rfl, rfl⟩ | ⟨rfl, rfl⟩) <;> assumption
  · rintro ⟨hid, hk, htags, hs, hu⟩
    exact ⟨⟨⟨⟨⟨⟨⟨⟨hid, hk⟩, htags _ _ (.inl ⟨rfl, rfl⟩)⟩, htags _ _ (.inr (.inl ⟨rfl, rfl⟩))⟩,
      htags _ _ (.inr (.inr (.inl ⟨rfl, rfl⟩)))⟩, htags _ _ (.inr (.inr (.inr (.inl ⟨rfl, rfl⟩))))⟩,
      htags _ _ (.inr (.inr (.inr (.inr ⟨rfl, rfl⟩))))⟩, hs⟩, hu⟩

/-! ## Documents -/

/-- The member of a list of alternatives, left out if there are none. -/
def listMember {α : Type} (name : String) (toJson : α → Json) (wanted : Option (List α)) :
    List (String × Json) :=
  match wanted with
  | none => []
  | some [] => []
  | some vals => [(name, .arr (vals.map toJson))]

/-- The member of a number, left out if absent. -/
def numMember {α : Type} (name : String) (toInt : α → Int) (wanted : Option α) :
    List (String × Json) :=
  (wanted.map fun n => (name, Json.num (toInt n))).toList

/-- The members of the document of a filter, in the order of its fields. -/
def members (f : Filter) : List (String × Json) :=
  listMember "ids" .str f.ids ++ listMember "authors" .str f.authors ++
    listMember "kinds" (fun k => .num k.toNat) f.kinds ++
    listMember "#e" .str f.eTags ++ listMember "#p" .str f.pTags ++
    listMember "#t" .str f.tTags ++ listMember "#d" .str f.dTags ++
    listMember "#h" .str f.hTags ++
    numMember "since" Int64.toInt f.since ++ numMember "until" Int64.toInt f.until ++
    numMember "limit" (fun n => n.toNat) f.limit

/-- The text of a filter. -/
def toJson (C : Crates) (f : Filter) : String := C.json.toString (.obj f.members)

/-- The document of a filter as a value, its members sorted: `to_value`. -/
def toValue (f : Filter) : Json := Json.sortedObj f.members

theorem encodable_listMember {α : Type} {name : String} {toJson : α → Json}
    {wanted : Option (List α)} {d : Nat} (h : ∀ a, (toJson a).Encodable d) :
    ∀ m ∈ listMember name toJson wanted, m.2.Encodable (d + 1) := by
  intro m hm
  rcases wanted with _ | _ | ⟨v, vs⟩
  · cases hm
  · cases hm
  · rw [List.mem_singleton.1 hm, Json.Encodable]
    intro j hj
    obtain ⟨a, -, rfl⟩ := List.mem_map.1 hj
    exact h a

theorem encodable_numMember {α : Type} {name : String} {toInt : α → Int} {wanted : Option α}
    {d : Nat} (h : ∀ a, (Json.num (toInt a)).Encodable d) :
    ∀ m ∈ numMember name toInt wanted, m.2.Encodable d := by
  intro m hm
  cases wanted with
  | none => cases hm
  | some a =>
    rw [List.mem_singleton.1 hm]
    exact h a

theorem encodable_members (d : Nat) (f : Filter) : ∀ m ∈ f.members, m.2.Encodable (d + 1) := by
  intro m hm
  have hstr : ∀ s, (Json.str s).Encodable d := Json.encodable_str d
  simp only [members, List.mem_append] at hm
  rcases hm with (((((((((h | h) | h) | h) | h) | h) | h) | h) | h) | h) | h
  · exact encodable_listMember hstr m h
  · exact encodable_listMember hstr m h
  · exact encodable_listMember (fun k => encodable_u32 d k) m h
  · exact encodable_listMember hstr m h
  · exact encodable_listMember hstr m h
  · exact encodable_listMember hstr m h
  · exact encodable_listMember hstr m h
  · exact encodable_listMember hstr m h
  · exact encodable_numMember (encodable_i64 _) m h
  · exact encodable_numMember (encodable_i64 _) m h
  · exact encodable_numMember (encodable_u32 _) m h

theorem encodable_toValue (d : Nat) (f : Filter) : f.toValue.Encodable (d + 2) :=
  Json.encodable_sortedObj (encodable_members d f)

end Filter

/-! ## Building filters -/

/-- A chained builder of filters. -/
structure FilterBuilder where
  f : Filter := {}

/-- A new empty builder. -/
def Filter.builder : FilterBuilder := {}

namespace FilterBuilder

variable (b : FilterBuilder)

def ids (values : List String) : FilterBuilder := { b with f.ids := some values }
def authors (values : List String) : FilterBuilder := { b with f.authors := some values }
def kinds (values : List UInt32) : FilterBuilder := { b with f.kinds := some values }
def eTags (values : List String) : FilterBuilder := { b with f.eTags := some values }
def pTags (values : List String) : FilterBuilder := { b with f.pTags := some values }
def tTags (values : List String) : FilterBuilder := { b with f.tTags := some values }
def dTags (values : List String) : FilterBuilder := { b with f.dTags := some values }
def hTags (values : List String) : FilterBuilder := { b with f.hTags := some values }

/-- A single kind. -/
def kind (kind : UInt32) : FilterBuilder := { b with f.kinds := some [kind] }

def since (since : Int64) : FilterBuilder := { b with f.since := some since }
def «until» (t : Int64) : FilterBuilder := { b with f.until := some t }
def limit (limit : UInt32) : FilterBuilder := { b with f.limit := some limit }

/-- The filter built. -/
def build : Filter := b.f

end FilterBuilder

end UnicityNostr
