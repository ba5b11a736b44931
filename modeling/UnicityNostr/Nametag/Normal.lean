import UnicityNostr.Reference

/-!
# Normal forms of nametags

Normalizing trims, lower-cases and strips a trailing `@unicity`, each once. What
is stripped may leave whitespace or another `@unicity` at the end.

* `normalizeNametag_eq_self_iff`: the texts in lower case that are in normal
  form;
* `normalizeNametag_idempotent_iff`: the nametags whose normal form normalizes
  to itself.
-/

namespace UnicityNostr.Nametag

/-- What normalizing strips. -/
def suffix : List Char := "@unicity".toList

/-- The text that is left of a lower-case one. -/
def strip (lower : List Char) : String :=
  match lower.dropSuffix? suffix with
  | some stripped => .ofList stripped
  | none => .ofList lower

variable {C : Crates} {s : String}

theorem strip_append (r : List Char) : strip (r ++ suffix) = .ofList r := by
  have hdrop : (r ++ suffix).dropSuffix? suffix = some r :=
    List.dropSuffix?_eq_some_iff.2 ⟨_, rfl, beq_self_eq_true _⟩
  rw [strip, hdrop]

theorem strip_of_not_suffix {lower : List Char} (h : ¬suffix <:+ lower) :
    strip lower = .ofList lower := by
  have hdrop : lower.dropSuffix? suffix = none := by
    rw [Option.eq_none_iff_forall_ne_some]
    intro r hr
    obtain ⟨s', rfl, hbeq⟩ := List.dropSuffix?_eq_some_iff.1 hr
    exact h ⟨r, by rw [eq_of_beq hbeq]⟩
  rw [strip, hdrop]

theorem normalizeNametag_eq_strip :
    normalizeNametag C s = strip (Unicode.toLowercase C.unicode (Unicode.trim s.toList)) := rfl

/-- Stripping makes a text shorter if it ends in the suffix. -/
theorem length_strip_le (lower : List Char) : (strip lower).toList.length ≤ lower.length := by
  by_cases h : suffix <:+ lower
  · obtain ⟨r, rfl⟩ := h
    rw [strip_append, String.toList_ofList, List.length_append]
    exact Nat.le_add_right _ _
  · rw [strip_of_not_suffix h, String.toList_ofList]

/-- A text in lower case is in normal form if it has neither whitespace at its ends
    nor the suffix. -/
theorem normalizeNametag_eq_self_iff (h : ∀ c ∈ s.toList, C.unicode.Lower c) :
    normalizeNametag C s = s ↔ Unicode.Trimmed s.toList ∧ ¬suffix <:+ s.toList := by
  have hlower : normalizeNametag C s = strip (Unicode.trim s.toList) := by
    rw [normalizeNametag_eq_strip, Unicode.toLowercase_of_lower fun c hc => ?_]
    exact h c ((Unicode.trim_sublist _).subset hc)
  rw [hlower]
  constructor
  · intro hself
    have hlen := length_strip_le (Unicode.trim s.toList)
    rw [hself] at hlen
    -- Neither trimming nor stripping took anything.
    have htrim : Unicode.trim s.toList = s.toList := (Unicode.trim_sublist _).eq_of_length_le hlen
    refine ⟨Unicode.trim_eq_self_iff.1 htrim, fun ⟨r, hr⟩ => ?_⟩
    rw [htrim, ← hr, strip_append] at hself
    have hsame := congrArg (fun s : String => s.toList.length) hself
    have hsuffix : suffix.length = 8 := by decide
    simp only [String.toList_ofList, ← hr, List.length_append] at hsame
    omega
  · rintro ⟨htrim, hsuffix⟩
    rw [Unicode.trim_eq_self_iff.2 htrim, strip_of_not_suffix hsuffix, String.ofList_toList]

/-! ## Normalizing twice -/

/-- The normal form of a normal form: a nametag whose lower case ends in two
    suffixes, or in whitespace and a suffix, has none. -/
theorem not_idempotent_suffixes : ¬∀ s, normalizeNametag Reference.crates
    (normalizeNametag Reference.crates s) = normalizeNametag Reference.crates s := by
  intro h
  exact absurd (h "bob@unicity@unicity") (by decide +kernel)

/-- Normalizing twice is normalizing once, and the normal form has the hash of the
    nametag, exactly if what precedes a trailing `@unicity` of the nametag, trimmed
    and in lower case, ends neither in whitespace nor in another `@unicity`. -/
theorem normalizeNametag_idempotent_iff (ht : C.unicode.Stable) (s : String) :
    normalizeNametag C (normalizeNametag C s) = normalizeNametag C s ∧
        hashNametag C (normalizeNametag C s) = hashNametag C s ↔
      ∀ r, Unicode.toLowercase C.unicode (Unicode.trim s.toList) = r ++ suffix →
        (∀ c ∈ r.getLast?, Unicode.isWhitespace c = false) ∧ ¬suffix <:+ r := by
  have hchars : ∀ c ∈ Unicode.toLowercase C.unicode (Unicode.trim s.toList), C.unicode.Lower c :=
    fun c hc => Unicode.lower_of_mem_toLowercase ht hc
  have htrimmed := Unicode.trimmed_toLowercase ht (Unicode.trimmed_trim s.toList)
  -- The hashes are equal as soon as the normal forms are.
  rw [and_iff_left_of_imp fun hself => by rw [hashNametag, hself, hashNametag]]
  by_cases h : suffix <:+ Unicode.toLowercase C.unicode (Unicode.trim s.toList)
  · obtain ⟨r, hr⟩ := h
    rw [← hr] at hchars htrimmed
    have hhead : ∀ c ∈ r.head?, Unicode.isWhitespace c = false := fun c hc =>
      htrimmed.1 c (by rw [List.head?_append, Option.mem_def.1 hc, Option.some_or]; rfl)
    have hnormal : normalizeNametag C s = .ofList r := by
      rw [normalizeNametag_eq_strip, ← hr, strip_append]
    have hlower : ∀ c ∈ (String.ofList r).toList, C.unicode.Lower c := fun c hc =>
      hchars c (List.mem_append_left _ (by rwa [String.toList_ofList] at hc))
    rw [hnormal, normalizeNametag_eq_self_iff hlower, String.toList_ofList, Unicode.Trimmed,
      and_iff_right hhead, ← hr]
    constructor
    · intro hr' r' hsame
      rwa [← List.append_cancel_right hsame]
    · intro hall
      exact hall r rfl
  · have hnormal : normalizeNametag C s = .ofList _ := strip_of_not_suffix h
    refine iff_of_true ?_ fun r hr => absurd ⟨r, hr.symm⟩ h
    rw [hnormal, normalizeNametag_eq_self_iff (by rwa [String.toList_ofList]), String.toList_ofList]
    exact ⟨htrimmed, h⟩

/-- A nametag with a suffix. -/
theorem normalizeNametag_idempotent_bob :
    normalizeNametag Reference.crates (normalizeNametag Reference.crates " Bob@UNICITY") =
        normalizeNametag Reference.crates " Bob@UNICITY" ∧
      hashNametag Reference.crates (normalizeNametag Reference.crates " Bob@UNICITY") =
        hashNametag Reference.crates " Bob@UNICITY" := by
  refine (normalizeNametag_idempotent_iff Reference.unicode_stable _).2 fun r hr => ?_
  have hbob : Unicode.toLowercase Reference.crates.unicode (Unicode.trim " Bob@UNICITY".toList) =
      "bob".toList ++ suffix := by decide +kernel
  obtain rfl : "bob".toList = r := List.append_cancel_right (hbob.symm.trans hr)
  refine ⟨fun c hc => ?_, by decide⟩
  obtain rfl : 'b' = c := Option.some.inj hc
  decide

end UnicityNostr.Nametag
