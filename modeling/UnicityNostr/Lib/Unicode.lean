import Mathlib.Data.List.DropRight

/-!
# Trimming and lower-casing strings

Characters are Unicode code points. Trimming removes the characters with the
property `White_Space` from both ends (`trim`). Lower-casing maps every
character to its lower-case mapping (`toLowercase`): within ASCII that is fixed,
outside it is read from the tables of the Unicode character database
(`CaseTables`), and the capital sigma depends on whether it ends a word.

Strings of lower-case ASCII text are left alone by both (`trim_eq_self`,
`toLowercase_eq_self`). With tables that keep to what the database documents
(`CaseTables.Stable`), lower-cased strings are in lower case
(`lower_of_mem_toLowercase`) and trimmed if they were (`trimmed_toLowercase`).
-/

namespace Unicode

/-- The tables of the Unicode character database lower-casing consults: the
    lower-case mappings of the characters outside ASCII, and the properties
    `Cased` and `Case_Ignorable`. -/
structure CaseTables where
  toLower : Char → List Char
  cased : Char → Bool
  caseIgnorable : Char → Bool

/-! ## Trimming -/

/-- The property `White_Space`. -/
def isWhitespace (c : Char) : Bool :=
  (0x09 ≤ c.toNat && c.toNat ≤ 0x0d) || c.toNat == 0x20 || c.toNat == 0x85 || c.toNat == 0xa0 ||
    c.toNat == 0x1680 || (0x2000 ≤ c.toNat && c.toNat ≤ 0x200a) || c.toNat == 0x2028 ||
    c.toNat == 0x2029 || c.toNat == 0x202f || c.toNat == 0x205f || c.toNat == 0x3000

/-- The characters without the whitespace at both ends. -/
def trim (s : List Char) : List Char := (s.dropWhile isWhitespace).rdropWhile isWhitespace

/-- No whitespace at either end. -/
def Trimmed (s : List Char) : Prop :=
  (∀ c ∈ s.head?, isWhitespace c = false) ∧ ∀ c ∈ s.getLast?, isWhitespace c = false

/-- Trimming leaves a prefix of what has no whitespace at its start. -/
theorem isPrefix_trim (s : List Char) : trim s <+: s.dropWhile isWhitespace :=
  List.rdropWhile_prefix _ _

theorem trim_sublist (s : List Char) : (trim s).Sublist s :=
  (isPrefix_trim s).sublist.trans (List.dropWhile_sublist _)

theorem trimmed_trim (s : List Char) : Trimmed (trim s) := by
  refine ⟨fun c hc => ?_, fun c hc => ?_⟩
  · have hhead := List.head?_dropWhile_not isWhitespace s
    obtain ⟨rest, hrest⟩ := isPrefix_trim s
    rw [← hrest, List.head?_append, Option.mem_def.1 hc, Option.some_or] at hhead
    simpa using hhead
  · obtain ⟨hne, rfl⟩ := List.mem_getLast?_eq_getLast hc
    exact Bool.eq_false_iff.2 (List.rdropWhile_last_not isWhitespace _ hne)

theorem trim_eq_self_iff {s : List Char} : trim s = s ↔ Trimmed s := by
  constructor
  · intro h
    exact h ▸ trimmed_trim s
  · rintro ⟨hhead, hlast⟩
    have hdrop : s.dropWhile isWhitespace = s := by
      cases s with
      | nil => rfl
      | cons c s => rw [List.dropWhile_cons_of_neg (Bool.eq_false_iff.1 (hhead c rfl))]
    rw [trim, hdrop, List.rdropWhile_eq_self_iff]
    intro hne
    exact Bool.eq_false_iff.1 (hlast _ (List.getLast?_eq_some_getLast hne))

theorem trim_eq_self {s : List Char} (h : ∀ c ∈ s, isWhitespace c = false) : trim s = s :=
  trim_eq_self_iff.2
    ⟨fun c hc => h c (List.mem_of_mem_head? hc), fun c hc => h c (List.mem_of_mem_getLast? hc)⟩

/-- A leading character that is no whitespace is not trimmed. -/
theorem trim_cons {c : Char} (hc : isWhitespace c = false) (s : List Char) :
    ∃ s', trim (c :: s) = c :: s' := by
  rw [trim, List.dropWhile_cons_of_neg (by simp [hc])]
  induction s using List.reverseRecOn with
  | nil => exact ⟨[], by simp [List.rdropWhile, hc]⟩
  | append_singleton s a ih =>
    rw [← List.cons_append, List.rdropWhile_concat]
    split_ifs with ha
    · exact ih
    · exact ⟨s ++ [a], by simp⟩

/-! ## Lower-casing -/

/-- The string with the capital letters of ASCII in lower case:
    `to_ascii_lowercase`. -/
def toAsciiLowercase (s : String) : String := s.map Char.toLower

/-- A character that is no capital letter of ASCII is in lower case. -/
theorem toLower_eq_self {c : Char} (h : c.isUpper = false) : c.toLower = c :=
  dif_neg fun hrange => absurd (h.symm.trans (decide_eq_true hrange)) Bool.false_ne_true

/-- The capital letters of ASCII are `A` to `Z`. -/
theorem isUpper_iff {c : Char} : c.isUpper = true ↔ 65 ≤ c.val.toNat ∧ c.val.toNat ≤ 90 :=
  decide_eq_true_iff

/-- The capital letters are 32 below the small ones. -/
theorem toNat_toLower {c : Char} (h : c.isUpper = true) :
    c.toLower.val.toNat = c.val.toNat + 32 := by
  have hval : c.toLower.val = c.val + 32 := congrArg Char.val (dif_pos (decide_eq_true_iff.1 h))
  have hZ := (isUpper_iff.1 h).2
  rw [hval, UInt32.toNat_add]
  exact Nat.mod_eq_of_lt (show c.val.toNat + 32 < 2 ^ 32 by omega)

theorem toLower_toLower (c : Char) : c.toLower.toLower = c.toLower := by
  by_cases h : c.isUpper = true
  · -- The small letters are no capital letters.
    refine toLower_eq_self (Bool.eq_false_iff.2 fun hlower => ?_)
    have hA := (isUpper_iff.1 h).1
    have hZ := (isUpper_iff.1 hlower).2
    have hnat := toNat_toLower h
    omega
  · rw [toLower_eq_self (Bool.eq_false_iff.2 h), toLower_eq_self (Bool.eq_false_iff.2 h)]

/-- A character takes as many bytes as its lower-case letter. -/
theorem utf8Size_toLower (c : Char) : c.toLower.utf8Size = c.utf8Size := by
  by_cases h : c.isUpper = true
  · obtain ⟨hA, hZ⟩ := isUpper_iff.1 h
    have hnat := toNat_toLower h
    have hlower : c.toLower.val ≤ 127 := by
      rw [UInt32.le_iff_toNat_le, hnat]
      exact Nat.add_le_add_right hZ 32 |>.trans (by decide)
    have hupper : c.val ≤ 127 := UInt32.le_iff_toNat_le.2 (hZ.trans (by decide))
    rw [Char.utf8Size_eq_one_iff.2 hlower, Char.utf8Size_eq_one_iff.2 hupper]
  · rw [toLower_eq_self (Bool.eq_false_iff.2 h)]

/-- A character below the letters is the lower-case letter of itself only. -/
theorem toLower_eq_iff {c d : Char} (hd : d.val.toNat < 65) : c.toLower = d ↔ c = d := by
  by_cases h : c.isUpper = true
  · have hA := (isUpper_iff.1 h).1
    have hnat := toNat_toLower h
    refine iff_of_false ?_ ?_ <;> rintro rfl <;> omega
  · rw [toLower_eq_self (Bool.eq_false_iff.2 h)]

theorem toAsciiLowercase_eq_self {s : String} (h : ∀ c ∈ s.toList, c.toLower = c) :
    toAsciiLowercase s = s := by
  rw [← String.toList_inj, toAsciiLowercase, String.toList_map]
  exact (List.map_congr_left h).trans (List.map_id' _)

theorem toAsciiLowercase_append (s s' : String) :
    toAsciiLowercase (s ++ s') = toAsciiLowercase s ++ toAsciiLowercase s' := by
  simp [toAsciiLowercase, ← String.toList_inj]

@[simp] theorem toAsciiLowercase_toAsciiLowercase (s : String) :
    toAsciiLowercase (toAsciiLowercase s) = toAsciiLowercase s := by
  refine toAsciiLowercase_eq_self fun c hc => ?_
  rw [toAsciiLowercase, String.toList_map] at hc
  obtain ⟨c', -, rfl⟩ := List.mem_map.1 hc
  exact toLower_toLower c'

variable (t : CaseTables)

/-- Whether a cased character follows, after characters to be ignored. -/
def caseIgnorableThenCased (s : List Char) : Bool :=
  match s.dropWhile t.caseIgnorable with
  | [] => false
  | c :: _ => t.cased c

/-- The lower-case mapping of a character; `before` is the text before it,
    backwards, and `after` the text after it. -/
def lowerChar (before : List Char) (c : Char) (after : List Char) : List Char :=
  if c = 'Σ' then
    if caseIgnorableThenCased t before && !caseIgnorableThenCased t after then ['ς'] else ['σ']
  else if c.toNat < 128 then [c.toLower]
  else t.toLower c

/-- The lower-case mappings of the characters that follow `before`. -/
def lowerAfter : List Char → List Char → List Char
  | _, [] => []
  | before, c :: cs => lowerChar t before c cs ++ lowerAfter (c :: before) cs

/-- The characters in lower case. -/
def toLowercase (s : List Char) : List Char := lowerAfter t [] s

variable {t}

/-- A character within ASCII is mapped to its lower-case letter. -/
theorem lowerChar_ascii {c : Char} (hc : c.toNat < 128) (before after : List Char) :
    lowerChar t before c after = [c.toLower] := by
  have hsigma : c ≠ 'Σ' := by
    rintro rfl
    exact absurd hc (by decide)
  rw [lowerChar, if_neg hsigma, if_pos hc]

theorem toLowercase_cons_ascii {c : Char} (hc : c.toNat < 128) (s : List Char) :
    ∃ s', toLowercase t (c :: s) = c.toLower :: s' := by
  refine ⟨lowerAfter t [c] s, ?_⟩
  rw [toLowercase, lowerAfter, lowerChar_ascii hc]
  rfl

theorem toLowercase_eq_self {s : List Char} (h : ∀ c ∈ s, c.toNat < 128 ∧ c.toLower = c) :
    toLowercase t s = s := by
  suffices hs : ∀ before, lowerAfter t before s = s from hs []
  induction s with
  | nil => exact fun _ => rfl
  | cons c s ih =>
    intro before
    obtain ⟨hc, hlower⟩ := h c List.mem_cons_self
    rw [lowerAfter, lowerChar_ascii hc, hlower, ih fun d hd => h d (List.mem_cons_of_mem _ hd)]
    rfl

/-! ## Stable tables -/

/-- A character that is its own lower-case mapping, wherever it stands. -/
def CaseTables.Lower (t : CaseTables) (c : Char) : Prop :=
  c ≠ 'Σ' ∧ (c.toNat < 128 → c.toLower = c) ∧ (128 ≤ c.toNat → t.toLower c = [c])

/-- What the character database keeps to: every character has a mapping, made of
    characters that are their own, and no letter is mapped to whitespace. -/
structure CaseTables.Stable (t : CaseTables) : Prop where
  ne_nil : ∀ c, t.toLower c ≠ []
  lower : ∀ c, 128 ≤ c.toNat → c ≠ 'Σ' → ∀ d ∈ t.toLower c, t.Lower d
  isWhitespace : ∀ c, isWhitespace c = false → ∀ d ∈ t.toLower c, isWhitespace d = false
  sigma : t.Lower 'σ' ∧ t.Lower 'ς'

theorem lowerChar_of_lower {c : Char} (h : t.Lower c) (before after : List Char) :
    lowerChar t before c after = [c] := by
  obtain ⟨hsigma, hascii, hother⟩ := h
  rw [lowerChar, if_neg hsigma]
  split_ifs with hc
  · rw [hascii hc]
  · exact hother (not_lt.1 hc)

/-- Characters in lower case are left alone. -/
theorem toLowercase_of_lower {s : List Char} (h : ∀ c ∈ s, t.Lower c) : toLowercase t s = s := by
  suffices hs : ∀ before, lowerAfter t before s = s from hs []
  induction s with
  | nil => exact fun _ => rfl
  | cons c s ih =>
    intro before
    rw [lowerAfter, lowerChar_of_lower (h c List.mem_cons_self),
      ih fun d hd => h d (List.mem_cons_of_mem _ hd)]
    rfl

/-- The lower-case letter of an ASCII character is one, and in lower case. -/
theorem lower_toLower {c : Char} (hc : c.toNat < 128) :
    t.Lower c.toLower ∧ (isWhitespace c = false → isWhitespace c.toLower = false) := by
  by_cases h : c.isUpper = true
  · obtain ⟨hA, hZ⟩ := isUpper_iff.1 h
    have hnat : c.toLower.toNat = c.toNat + 32 := toNat_toLower h
    change 65 ≤ c.toNat at hA
    change c.toNat ≤ 90 at hZ
    refine ⟨⟨?_, fun _ => toLower_toLower c, fun hlarge => by omega⟩, fun _ => ?_⟩
    · intro hsigma
      rw [hsigma] at hnat
      exact absurd hnat (by simp only [Char.reduceToNat]; omega)
    · simp [isWhitespace, hnat]
      omega
  · rw [toLower_eq_self (Bool.eq_false_iff.2 h)]
    refine ⟨⟨?_, fun _ => toLower_eq_self (Bool.eq_false_iff.2 h), fun hlarge => by omega⟩, id⟩
    rintro rfl
    exact absurd hc (by decide)

/-- The mapping of a character is not empty, in lower case, and no whitespace
    unless the character is. -/
theorem lowerChar_stable (ht : t.Stable) (before : List Char) (c : Char) (after : List Char) :
    lowerChar t before c after ≠ [] ∧ ∀ d ∈ lowerChar t before c after,
      t.Lower d ∧ (isWhitespace c = false → isWhitespace d = false) := by
  unfold lowerChar
  split_ifs with hsigma hfinal hascii
  · exact ⟨List.cons_ne_nil _ _, by simpa using ⟨ht.sigma.2, fun _ => by decide⟩⟩
  · exact ⟨List.cons_ne_nil _ _, by simpa using ⟨ht.sigma.1, fun _ => by decide⟩⟩
  · refine ⟨List.cons_ne_nil _ _, fun d hd => ?_⟩
    obtain rfl := List.mem_singleton.1 hd
    exact lower_toLower hascii
  · exact ⟨ht.ne_nil c, fun d hd =>
      ⟨ht.lower c (not_lt.1 hascii) hsigma d hd, fun hc => ht.isWhitespace c hc d hd⟩⟩

theorem lower_of_mem_toLowercase (ht : t.Stable) {s : List Char} {d : Char}
    (hd : d ∈ toLowercase t s) : t.Lower d := by
  suffices hs : ∀ before, d ∈ lowerAfter t before s → t.Lower d from hs [] hd
  clear hd
  induction s with
  | nil => exact fun _ hd => absurd hd List.not_mem_nil
  | cons c s ih =>
    intro before hd
    rw [lowerAfter, List.mem_append] at hd
    rcases hd with hd | hd
    · exact ((lowerChar_stable ht before c s).2 d hd).1
    · exact ih _ hd

/-- The mapping of the last character comes last. -/
theorem exists_lowerAfter_concat (before s : List Char) (c : Char) :
    ∃ s' before', lowerAfter t before (s ++ [c]) = s' ++ lowerChar t before' c [] := by
  induction s generalizing before with
  | nil => exact ⟨[], before, by rw [List.nil_append, lowerAfter, lowerAfter, List.append_nil]; rfl⟩
  | cons a s ih =>
    obtain ⟨s', before', hs'⟩ := ih (a :: before)
    refine ⟨lowerChar t before a (s ++ [c]) ++ s', before', ?_⟩
    rw [List.cons_append, lowerAfter, hs', List.append_assoc]

/-- What has no whitespace at its ends has none there in lower case. -/
theorem trimmed_toLowercase (ht : t.Stable) {s : List Char} (h : Trimmed s) :
    Trimmed (toLowercase t s) := by
  refine ⟨?_, ?_⟩
  · cases s with
    | nil => exact fun d hd => by simp [toLowercase, lowerAfter] at hd
    | cons c s =>
      obtain ⟨hne, hlower⟩ := lowerChar_stable ht [] c s
      intro d hd
      rw [toLowercase, lowerAfter, List.head?_append_of_ne_nil _ hne] at hd
      exact (hlower d (List.mem_of_mem_head? hd)).2 (h.1 c rfl)
  · induction s using List.reverseRecOn with
    | nil => exact fun d hd => by simp [toLowercase, lowerAfter] at hd
    | append_singleton s c _ =>
      obtain ⟨s', before', hs'⟩ := exists_lowerAfter_concat (t := t) [] s c
      obtain ⟨hne, hlower⟩ := lowerChar_stable ht before' c []
      intro d hd
      rw [toLowercase, hs', List.getLast?_append_of_ne_nil _ hne] at hd
      exact (hlower d (List.mem_of_mem_getLast? hd)).2 (h.2 c List.getLast?_concat)

end Unicode
