import UnicityNostr.Reference

/-!
# Filters on the wire

The relay gets the text of a filter, from which absent and empty fields are left
out. What it decodes differs from the filter in that alone: its empty lists are
absent.

* `fromStr_toJson`: the text of a filter decodes to the filter without its empty
  lists;
* `matches_withoutEmpty`: that filter matches the same events, unless the list of
  kinds is empty;
* `wire_agrees_iff`: the filters whose local matching agrees with the wire.
-/

namespace UnicityNostr.Filter

/-! ## Decoding -/

/-- The value of the only member, if there is one: `none` if there are several. -/
def sole : List (String × Json) → Option (Option Json)
  | [] => some none
  | [m] => some (some m.2)
  | _ => none

/-- The member `k`, if there is one: `none` if there are several. -/
def atMostOne (members : List (String × Json)) (k : String) : Option (Option Json) :=
  sole (members.filter fun m => m.1 == k)

/-- Decoding an optional field; a missing one and `null` are absent. -/
def optional {α : Type} (decode : Json → Option α) : Option Json → Option (Option α)
  | none => some none
  | some .null => some none
  | some j => (decode j).map some

/-- Decoding a list. -/
def asList {α : Type} (decode : Json → Option α) : Json → Option (List α)
  | .arr elems => elems.mapM decode
  | _ => none

/-- Decoding the fields of a filter. -/
def ofFields (ids authors kinds eTags pTags tTags dTags hTags since til limit : Option Json) :
    Option Filter := do
  let ids ← optional (asList Json.asStr) ids
  let authors ← optional (asList Json.asStr) authors
  let kinds ← optional (asList asU32) kinds
  let eTags ← optional (asList Json.asStr) eTags
  let pTags ← optional (asList Json.asStr) pTags
  let tTags ← optional (asList Json.asStr) tTags
  let dTags ← optional (asList Json.asStr) dTags
  let hTags ← optional (asList Json.asStr) hTags
  let since ← optional asI64 since
  let til ← optional asI64 til
  let limit ← optional asU32 limit
  some { ids, authors, kinds, eTags, pTags, tTags, dTags, hTags, since, «until» := til, limit }

/-- Decoding a filter from a text: an object in which no field occurs twice and
    unknown ones are ignored, or the array of its first fields. -/
def ofJson : Json → Option Filter
  | .obj members => do
    ofFields (← atMostOne members "ids") (← atMostOne members "authors")
      (← atMostOne members "kinds") (← atMostOne members "#e") (← atMostOne members "#p")
      (← atMostOne members "#t") (← atMostOne members "#d") (← atMostOne members "#h")
      (← atMostOne members "since") (← atMostOne members "until") (← atMostOne members "limit")
  | .arr elems =>
    if elems.length ≤ 11 then
      ofFields elems[0]? elems[1]? elems[2]? elems[3]? elems[4]? elems[5]? elems[6]? elems[7]?
        elems[8]? elems[9]? elems[10]?
    else none
  | _ => none

variable (C : Crates)

/-- The filter of a text: `from_str`. -/
def fromStr (text : String) : Except String Filter := do
  let j ← C.json.fromStr text
  Except.okOr (ofJson j) (C.json.dataError j)

/-! ## Filters without empty lists -/

/-- A list of alternatives, absent if it is empty. -/
def nonEmpty {α : Type} (wanted : Option (List α)) : Option (List α) :=
  wanted.filter fun vals => !vals.isEmpty

/-- The filter with its empty lists absent. -/
def withoutEmpty (f : Filter) : Filter :=
  { f with
    ids := nonEmpty f.ids
    authors := nonEmpty f.authors
    kinds := nonEmpty f.kinds
    eTags := nonEmpty f.eTags
    pTags := nonEmpty f.pTags
    tTags := nonEmpty f.tTags
    dTags := nonEmpty f.dTags
    hTags := nonEmpty f.hTags }

variable {C} {α : Type}

/-- The member of a field, left out if it has no value. -/
def present (field : String × Option Json) : List (String × Json) :=
  (field.2.map fun j => (field.1, j)).toList

theorem fst_of_mem_present {field : String × Option Json} {m : String × Json}
    (hm : m ∈ present field) : m.1 = field.1 := by
  obtain ⟨j, -, rfl⟩ := Option.map_eq_some_iff.1 (Option.mem_toList.1 hm)
  rfl

/-- Each of the fields, which have different names, is the only member of its name. -/
theorem atMostOne_flatMap {fields : List (String × Option Json)}
    (hnames : (fields.map Prod.fst).Nodup) :
    ∀ field ∈ fields, atMostOne (fields.flatMap present) field.1 = some field.2 := by
  induction fields with
  | nil => exact fun _ h => nomatch h
  | cons first rest ih =>
    rw [List.map_cons, List.nodup_cons] at hnames
    obtain ⟨hfirst, hrest⟩ := hnames
    intro field hfield
    rw [List.flatMap_cons, atMostOne, List.filter_append]
    rcases List.mem_cons.1 hfield with rfl | hfield
    · -- No other field has the name.
      have hothers : (rest.flatMap present).filter (fun m => m.1 == field.1) = [] := by
        refine List.filter_eq_nil_iff.2 fun m hm heq => ?_
        obtain ⟨other, hother, hm⟩ := List.mem_flatMap.1 hm
        rw [beq_iff_eq, fst_of_mem_present hm] at heq
        exact hfirst (heq ▸ List.mem_map_of_mem hother)
      have hown : (present field).filter (fun m => m.1 == field.1) = present field :=
        List.filter_eq_self.2 fun m hm => beq_iff_eq.2 (fst_of_mem_present hm)
      rw [hown, hothers, List.append_nil]
      obtain ⟨k, v⟩ := field
      rcases v with _ | j
      · rfl
      · rfl
    · have hfirst' : (present first).filter (fun m => m.1 == field.1) = [] := by
        refine List.filter_eq_nil_iff.2 fun m hm heq => ?_
        rw [beq_iff_eq, fst_of_mem_present hm] at heq
        exact hfirst (heq ▸ List.mem_map_of_mem hfield)
      rw [hfirst', List.nil_append]
      exact ih hrest field hfield

/-- The value of the member of a list of alternatives. -/
def listJson (toJson : α → Json) (wanted : Option (List α)) : Option Json :=
  (nonEmpty wanted).map fun vals => .arr (vals.map toJson)

theorem listMember_eq (name : String) (toJson : α → Json) (wanted : Option (List α)) :
    listMember name toJson wanted = present (name, listJson toJson wanted) := by
  rcases wanted with _ | _ | ⟨v, vs⟩
  · rfl
  · rfl
  · rfl

theorem numMember_eq (name : String) (toInt : α → Int) (wanted : Option α) :
    numMember name toInt wanted = present (name, wanted.map fun n => .num (toInt n)) := by
  rcases wanted with _ | n
  · rfl
  · rfl

/-- A list of alternatives is read back, the empty one as absent. -/
theorem optional_listJson {toJson : α → Json} {decode : Json → Option α}
    (h : ∀ a, decode (toJson a) = some a) (wanted : Option (List α)) :
    optional (asList decode) (listJson toJson wanted) = some (nonEmpty wanted) := by
  rcases hwanted : nonEmpty wanted with _ | vals
  · rw [listJson, hwanted]
    rfl
  · rw [listJson, hwanted]
    show ((vals.map toJson).mapM decode).map some = _
    rw [mapM_map_some h]
    rfl

/-- A number is read back. -/
theorem optional_num {toInt : α → Int} {decode : Json → Option α}
    (h : ∀ n, decode (.num (toInt n)) = some n) (wanted : Option α) :
    optional decode (wanted.map fun n => .num (toInt n)) = some wanted := by
  rcases wanted with _ | n
  · rfl
  · exact congrArg (Option.map some) (h n)

/-- The values of the fields of a filter, by their names. -/
def fields (f : Filter) : List (String × Option Json) :=
  [("ids", listJson .str f.ids),
    ("authors", listJson .str f.authors),
    ("kinds", listJson (fun k => .num k.toNat) f.kinds),
    ("#e", listJson .str f.eTags),
    ("#p", listJson .str f.pTags),
    ("#t", listJson .str f.tTags),
    ("#d", listJson .str f.dTags),
    ("#h", listJson .str f.hTags),
    ("since", f.since.map fun n => .num n.toInt),
    ("until", f.until.map fun n => .num n.toInt),
    ("limit", f.limit.map fun n => .num n.toNat)]

/-- The members of a filter are its fields that are present. -/
theorem members_eq (f : Filter) : f.members = f.fields.flatMap present := by
  simp only [members, fields, listMember_eq, numMember_eq, List.flatMap_cons, List.flatMap_nil,
    List.append_assoc, List.append_nil]

theorem nodup_names (f : Filter) : (f.fields.map Prod.fst).Nodup := by
  show ["ids", "authors", "kinds", "#e", "#p", "#t", "#d", "#h", "since", "until", "limit"].Nodup
  decide

/-- The document of a filter decodes to the filter without its empty lists. -/
theorem ofJson_members (f : Filter) : ofJson (.obj f.members) = some f.withoutEmpty := by
  have hstr : ∀ s, Json.asStr (.str s) = some s := fun _ => rfl
  have hat := atMostOne_flatMap f.nodup_names
  rw [← members_eq] at hat
  simp only [fields, List.forall_mem_cons] at hat
  obtain ⟨h1, h2, h3, h4, h5, h6, h7, h8, h9, h10, h11, -⟩ := hat
  rw [ofJson, h1, h2, h3, h4, h5, h6, h7, h8, h9, h10, h11]
  show ofFields _ _ _ _ _ _ _ _ _ _ _ = _
  -- One field after another.
  rw [ofFields, optional_listJson hstr, optional_listJson hstr, optional_listJson asU32_num,
    optional_listJson hstr, optional_listJson hstr, optional_listJson hstr, optional_listJson hstr,
    optional_listJson hstr, optional_num asI64_num, optional_num asI64_num, optional_num asU32_num]
  rfl

theorem sole_perm {ms ms' : List (String × Json)} (h : ms.Perm ms') : sole ms = sole ms' := by
  rcases ms with _ | ⟨m, _ | ⟨m', ms⟩⟩
  · rw [h.nil_eq]
  · rw [List.singleton_perm.1 h]
  · rcases ms' with _ | ⟨n, _ | ⟨n', ms'⟩⟩
    · cases h.eq_nil
    · cases h.length_eq
    · rfl

/-- Decoding does not depend on the order of the members. -/
theorem ofJson_perm {ms ms' : List (String × Json)} (h : ms.Perm ms') :
    ofJson (.obj ms) = ofJson (.obj ms') := by
  have hat : ∀ k, atMostOne ms k = atMostOne ms' k := fun k => sole_perm (h.filter _)
  simp only [ofJson, hat]

/-- The value of a filter decodes to the filter without its empty lists. -/
theorem ofJson_toValue (f : Filter) : ofJson f.toValue = some f.withoutEmpty :=
  (ofJson_perm (Json.perm_sortedMembers f.members)).trans (ofJson_members f)

/-- The text of a filter decodes to the filter without its empty lists. -/
theorem fromStr_toJson (hj : C.json.RoundTrips) (f : Filter) :
    fromStr C (f.toJson C) = .ok f.withoutEmpty := by
  have henc : (Json.obj f.members).Encodable 127 := by
    rw [Json.Encodable]
    exact encodable_members 125 f
  rw [fromStr, toJson, (hj _ henc).1, Except.bind_ok, ofJson_members, Except.okOr_some]

/-! ## Matching -/

theorem prefixMatches_nonEmpty (wanted : Option (List String)) (s : String) :
    prefixMatches (nonEmpty wanted) s = prefixMatches wanted s := by
  rcases wanted with _ | _ | ⟨v, vs⟩
  · rfl
  · rfl
  · rfl

theorem tagMatches_nonEmpty (name : String) (wanted : Option (List String)) (e : Event) :
    tagMatches name (nonEmpty wanted) e = tagMatches name wanted e := by
  rcases wanted with _ | _ | ⟨v, vs⟩
  · rfl
  · rfl
  · rfl

/-- Without its empty lists a filter matches the same events, unless the list of
    kinds is empty. -/
theorem matches_withoutEmpty {f : Filter} (h : f.kinds ≠ some []) (e : Event) :
    f.withoutEmpty.matches e = f.matches e := by
  have hkinds : nonEmpty f.kinds = f.kinds := by
    rcases hf : f.kinds with _ | _ | ⟨k, ks⟩
    · rfl
    · exact absurd hf h
    · rfl
  simp only [«matches», withoutEmpty, prefixMatches_nonEmpty, tagMatches_nonEmpty, hkinds]

/-- Bounds of the date that are in order admit a date. -/
theorem exists_date {since til : Option Int64}
    (h : ∀ s u, since = some s → til = some u → ¬u < s) :
    ∃ t, (∀ s, since = some s → ¬t < s) ∧ ∀ u, til = some u → ¬t > u := by
  rcases since with _ | s
  · refine ⟨til.getD 0, by rintro _ ⟨⟩, ?_⟩
    rintro u rfl
    exact Int64.lt_irrefl
  · refine ⟨s, ?_, fun u hu => h s u rfl hu⟩
    rintro _ ⟨⟩
    exact Int64.lt_irrefl

/-- A list of alternatives that has one of them as a prefix, or the empty string. -/
theorem meets_headD (wanted : Option (List String)) :
    Meets wanted (·.toList <+: ((wanted.getD []).headD "").toList) := by
  rintro vals rfl
  rcases vals with _ | ⟨v, vs⟩
  · exact .inl rfl
  · exact .inr ⟨v, List.mem_cons_self, List.prefix_rfl⟩

/-- The tag with the first of the alternatives. -/
def firstTag (name : String) (wanted : Option (List String)) : Tag :=
  [name, (wanted.getD []).headD ""]

/-- An event of the date `t` with the first alternative of each list. -/
def sample (f : Filter) (t : Int64) : Event where
  id := (f.ids.getD []).headD ""
  pubkey := (f.authors.getD []).headD ""
  createdAt := t
  kind := 0
  tags := [firstTag "e" f.eTags, firstTag "p" f.pTags, firstTag "t" f.tTags, firstTag "d" f.dTags,
    firstTag "h" f.hTags]
  content := ""
  sig := ""

/-- A filter without a list of kinds whose bounds of the date are in order matches
    some event. -/
theorem exists_matches {f : Filter} (hkinds : f.kinds = none)
    (hdate : ∀ s u, f.since = some s → f.until = some u → ¬u < s) :
    ∃ e, f.matches e = true := by
  obtain ⟨t, hsince, huntil⟩ := exists_date hdate
  refine ⟨f.sample t, matches_eq_true_iff.2 ⟨⟨meets_headD _, meets_headD _⟩, by simp [hkinds], ?_,
    hsince, huntil⟩⟩
  rintro name wanted hmem vals rfl
  rcases vals with _ | ⟨v, vs⟩
  · exact .inl rfl
  · refine .inr ⟨v, List.mem_cons_self, firstTag name (some (v :: vs)), ?_, rfl, rfl⟩
    simp only [List.mem_cons, Prod.mk.injEq, List.not_mem_nil, or_false] at hmem
    rcases hmem with ⟨rfl, h⟩ | ⟨rfl, h⟩ | ⟨rfl, h⟩ | ⟨rfl, h⟩ | ⟨rfl, h⟩ <;> simp [h, sample]

/-- No date is within bounds that are not in order. -/
theorem matches_of_date {f : Filter} {s u : Int64} (hs : f.since = some s) (hu : f.until = some u)
    (hlt : u < s) (e : Event) : f.matches e = false := by
  rw [Bool.eq_false_iff]
  intro hmatches
  obtain ⟨-, -, -, hsince, huntil⟩ := matches_eq_true_iff.1 hmatches
  have hge := Int64.not_lt.1 (hsince s hs)
  exact huntil u hu (Int64.lt_of_lt_of_le hlt hge)

/-- An empty list of kinds matches no event. -/
theorem matches_of_kinds_empty {f : Filter} (h : f.kinds = some []) (e : Event) :
    f.matches e = false := by
  simp [«matches», h]

/-- Local matching agrees with the filter the relay decodes, which is the filter
    without its empty lists, if and only if the list of kinds is not empty or the
    bounds of the date admit no event. -/
theorem wire_agrees_iff (hj : C.json.RoundTrips) (f : Filter) :
    (∃ g, fromStr C (f.toJson C) = .ok g ∧ g = f.withoutEmpty ∧
        ∀ e, f.matches e = g.matches e) ↔
      f.kinds ≠ some [] ∨ ∃ s u, f.since = some s ∧ f.until = some u ∧ u < s := by
  constructor
  · rintro ⟨g, -, rfl, hmatches⟩
    by_contra hcond
    simp only [not_or, not_not, not_exists, not_and] at hcond
    obtain ⟨hkinds, hdate⟩ := hcond
    have hfree : f.withoutEmpty.kinds = none := by simp [withoutEmpty, nonEmpty, hkinds]
    obtain ⟨e, he⟩ := exists_matches hfree hdate
    rw [← hmatches, matches_of_kinds_empty hkinds] at he
    cases he
  · intro hcond
    refine ⟨_, fromStr_toJson hj f, rfl, fun e => ?_⟩
    rcases hcond with hkinds | ⟨s, u, hs, hu, hlt⟩
    · exact (matches_withoutEmpty hkinds e).symm
    · rw [matches_of_date hs hu hlt, matches_of_date (f := f.withoutEmpty) hs hu hlt]

/-- A filter of a kind and empty lists. -/
theorem wire_agrees_iff_kind : ∃ g,
    fromStr Reference.crates (Filter.toJson Reference.crates
      { kinds := some [1], ids := some [], tTags := some [] }) = .ok g ∧
    g = { kinds := some [1] } := by
  obtain ⟨g, hg, heq, -⟩ := (wire_agrees_iff Reference.json_roundTrips
    { kinds := some [1], ids := some [], tTags := some [] }).2 (.inl (by decide))
  exact ⟨g, hg, heq⟩

/-- The relay takes an empty list of kinds for none, but locally it matches no event. -/
theorem empty_kinds_match_nothing :
    ¬∀ (f g : Filter) (e : Event), fromStr Reference.crates (f.toJson Reference.crates) = .ok g →
      f.matches e = g.matches e := by
  intro hclaim
  have hg := fromStr_toJson Reference.json_roundTrips { kinds := some [] }
  exact absurd (hclaim _ _ default hg) (by decide)

end UnicityNostr.Filter
