import UnicityNostr.Lib.Json

/-!
# Reading compact JSON texts back

A reader of compact texts (`Json.read`), by recursive descent, and the round
trip: `read_text`, the text of an encodable document reads back as the
document. The texts of two different documents are therefore different
(`text_injective`).

The recursion is on a number of steps, of which a text needs at most two for
each of its characters (`reads`).
-/

namespace Json

/-! ## Strings -/

/-- The character of a one-letter escape. -/
def unescape (c : Char) : Option Char :=
  if c = '"' ∨ c = '\\' ∨ c = '/' then some c
  else if c = 'b' then some '\x08'
  else if c = 't' then some '\t'
  else if c = 'n' then some '\n'
  else if c = 'f' then some '\x0c'
  else if c = 'r' then some '\r'
  else none

/-- The characters of a string literal from after its opening quote, and the
    text after its closing one. -/
def readStr : List Char → Option (List Char × List Char)
  | [] => none
  | '"' :: cs => some ([], cs)
  | '\\' :: 'u' :: c₃ :: c₂ :: c₁ :: c₀ :: cs => do
    let n₃ ← Hex.value c₃
    let n₂ ← Hex.value c₂
    let n₁ ← Hex.value c₁
    let n₀ ← Hex.value c₀
    let (s, rest) ← readStr cs
    some (Char.ofNat (((n₃ * 16 + n₂) * 16 + n₁) * 16 + n₀) :: s, rest)
  | '\\' :: c :: cs => do
    let c ← unescape c
    let (s, rest) ← readStr cs
    some (c :: s, rest)
  | c :: cs => do
    let (s, rest) ← readStr cs
    if c.toNat < 0x20 then none else some (c :: s, rest)

/-- Reading an escape of one letter. -/
theorem readStr_letter {l c : Char} (hu : l ≠ 'u') (h : unescape l = some c) (cs : List Char) :
    readStr ('\\' :: l :: cs) = (readStr cs).map fun (s, rest) => (c :: s, rest) := by
  rw [readStr, h, Option.bind_eq_bind, Option.bind_some]
  · rcases readStr cs with _ | ⟨s, rest⟩
    · rfl
    · rfl
  · exact fun _ _ _ _ _ hl _ => hu hl

/-- Reading an escaped character. -/
theorem readStr_escape (c : Char) (cs : List Char) :
    readStr (escape c ++ cs) = (readStr cs).map fun (s, rest) => (c :: s, rest) := by
  have hof : ∀ n, c.toNat = n → c = Char.ofNat n := fun n h => h ▸ (Char.ofNat_toNat c).symm
  unfold escape
  split_ifs with h1 h2 h3 h4 h5 h6 h7 h8
  · subst h1
    exact readStr_letter (by decide) rfl cs
  · subst h2
    exact readStr_letter (by decide) rfl cs
  · exact hof _ h3 ▸ readStr_letter (by decide) rfl cs
  · exact hof _ h4 ▸ readStr_letter (by decide) rfl cs
  · exact hof _ h5 ▸ readStr_letter (by decide) rfl cs
  · exact hof _ h6 ▸ readStr_letter (by decide) rfl cs
  · exact hof _ h7 ▸ readStr_letter (by decide) rfl cs
  · -- A control character without a letter of its own: `\u00XX`.
    have hhi := Hex.value_digit (c.toNat / 16) (by omega)
    have hlo := Hex.value_digit (c.toNat % 16) (by omega)
    have hc : Char.ofNat (c.toNat / 16 * 16 + c.toNat % 16) = c := by
      rw [Nat.div_add_mod']; exact Char.ofNat_toNat c
    have h0 : Hex.value '0' = some 0 := rfl
    cases h : readStr cs <;> simp [readStr, hhi, hlo, h0, h, hc]
  · rw [List.singleton_append, readStr.eq_def]
    split
    · simp_all
    · simp_all
    · simp_all
    · simp_all
    · rename_i h
      cases h
      cases readStr cs <;> simp [h8]

/-- Reading a string literal, from after its opening quote. -/
theorem readStr_chars (s cs : List Char) :
    readStr (s.flatMap escape ++ '"' :: cs) = some (s, cs) := by
  induction s with
  | nil => simp [readStr]
  | cons c s ih => rw [List.flatMap_cons, List.append_assoc, readStr_escape, ih]; rfl

/-! ## Numbers -/

/-- The digits a text starts with, as a number, and the text after them. -/
def readNat (cs : List Char) : Option (Nat × List Char) :=
  match cs.takeWhile Char.isDigit with
  | [] => none
  | ds => some (Nat.ofDigitChars 10 ds 0, cs.dropWhile Char.isDigit)

/-- The text does not start with a digit. -/
def NoDigit (cs : List Char) : Prop := ∀ c ∈ cs.head?, c.isDigit = false

theorem isDigit_of_mem_toDigits {n : Nat} {c : Char} (h : c ∈ Nat.toDigits 10 n) :
    c.isDigit = true :=
  Nat.isDigit_of_mem_toDigits (by decide) (by decide) h

/-- A number is written as one digit or more. -/
theorem exists_digits (n : Nat) :
    ∃ d ds, Nat.toDigits 10 n = d :: ds ∧ d.isDigit = true := by
  obtain ⟨d, ds, hds⟩ := List.exists_cons_of_ne_nil (Nat.toDigits_ne_nil (n := n) (b := 10))
  exact ⟨d, ds, hds, isDigit_of_mem_toDigits (hds ▸ List.mem_cons_self)⟩

/-- Reading a number, up to where its digits end. -/
theorem readNat_toDigits (n : Nat) {cs : List Char} (hcs : NoDigit cs) :
    readNat (Nat.toDigits 10 n ++ cs) = some (n, cs) := by
  have hd : ∀ c ∈ Nat.toDigits 10 n, c.isDigit = true := fun _ => isDigit_of_mem_toDigits
  have htake : cs.takeWhile Char.isDigit = [] := by
    cases cs with
    | nil => rfl
    | cons c cs => simp [hcs c (by simp)]
  have hdrop : cs.dropWhile Char.isDigit = cs := by
    cases cs with
    | nil => rfl
    | cons c cs => simp [hcs c (by simp)]
  have hne : Nat.toDigits 10 n ≠ [] := Nat.toDigits_ne_nil
  rw [readNat, List.takeWhile_append_of_pos hd, htake, List.append_nil,
    List.dropWhile_append_of_pos hd, hdrop]
  split
  · contradiction
  · rename_i h; rw [Nat.ofDigitChars_toDigits (by decide) (by decide)]

/-! ## Documents -/

mutual

/-- The document a text starts with, in at most the given number of steps, and
    the text after it. -/
def readValue : Nat → List Char → Option (Json × List Char)
  | 0, _ => none
  | _ + 1, 'n' :: 'u' :: 'l' :: 'l' :: cs => some (.null, cs)
  | _ + 1, 't' :: 'r' :: 'u' :: 'e' :: cs => some (.bool true, cs)
  | _ + 1, 'f' :: 'a' :: 'l' :: 's' :: 'e' :: cs => some (.bool false, cs)
  | _ + 1, '"' :: cs => (readStr cs).map fun (s, rest) => (.str (String.ofList s), rest)
  | _ + 1, '[' :: ']' :: cs => some (.arr [], cs)
  | n + 1, '[' :: cs => (readElems n cs).map fun (vs, rest) => (.arr vs, rest)
  | _ + 1, '{' :: '}' :: cs => some (.obj [], cs)
  | n + 1, '{' :: cs => (readMembers n cs).map fun (ms, rest) => (.obj ms, rest)
  | _ + 1, '-' :: cs => (readNat cs).map fun (k, rest) => (.num (-k), rest)
  | _ + 1, cs => (readNat cs).map fun (k, rest) => (.num k, rest)

/-- The elements of an array, and the text after its closing bracket. -/
def readElems : Nat → List Char → Option (List Json × List Char)
  | 0, _ => none
  | n + 1, cs => do
    let (v, rest) ← readValue n cs
    match rest with
    | ']' :: rest => some ([v], rest)
    | ',' :: rest =>
      let (vs, rest) ← readElems n rest
      some (v :: vs, rest)
    | _ => none

/-- The members of an object, and the text after its closing brace. -/
def readMembers : Nat → List Char → Option (List (String × Json) × List Char)
  | n + 1, '"' :: cs => do
    let (k, rest) ← readStr cs
    match rest with
    | ':' :: rest =>
      let (v, rest) ← readValue n rest
      match rest with
      | '}' :: rest => some ([(String.ofList k, v)], rest)
      | ',' :: rest =>
        let (ms, rest) ← readMembers n rest
        some ((String.ofList k, v) :: ms, rest)
      | _ => none
    | _ => none
  | _, _ => none

end

/-- The document of a compact text. -/
def read (s : String) : Option Json :=
  match readValue (2 * s.toList.length) s.toList with
  | some (j, []) => some j
  | _ => none

/-! ## The round trip -/

/-- What may stand after a value: not a digit. -/
theorem noDigit_cons {c : Char} (hc : c.isDigit = false) (cs : List Char) : NoDigit (c :: cs) := by
  simpa [NoDigit] using hc

/-- Reading a number. -/
theorem readValue_num (n : Nat) (k : Int) {rest : List Char} (hrest : NoDigit rest) :
    readValue (n + 1) (numChars k ++ rest) = some (.num k, rest) := by
  cases k with
  | ofNat k =>
    -- The digits start with a digit, so no other case of the reader applies.
    obtain ⟨d, ds, hds, hd⟩ := exists_digits k
    have hread := readNat_toDigits k hrest
    rw [numChars, hds, List.cons_append] at *
    rw [readValue.eq_def]
    split <;> simp_all
  | negSucc k => rw [numChars, List.cons_append, readValue, readNat_toDigits _ hrest]; rfl

/-- A value does not start with a closing bracket. -/
theorem chars_head {d : Nat} {j : Json} (hj : Encodable d j) :
    ∃ c cs, chars j = c :: cs ∧ c ≠ ']' := by
  cases j with
  | null => exact ⟨_, _, rfl, by decide⟩
  | bool b => cases b <;> exact ⟨_, _, rfl, by decide⟩
  | num n =>
    cases n with
    | ofNat k =>
      obtain ⟨c, ds, hds, hc⟩ := exists_digits k
      refine ⟨c, ds, by rw [chars, numChars, hds], ?_⟩
      rintro rfl
      exact absurd hc (by decide)
    | negSucc k => exact ⟨_, _, rfl, by decide⟩
  | float _ => cases d <;> exact hj.elim
  | str s => exact ⟨_, _, rfl, by decide⟩
  | arr vs => exact ⟨_, _, by rw [chars], by decide⟩
  | obj ms => exact ⟨_, _, by rw [chars], by decide⟩

/-- An array with an element does not look empty. -/
theorem readValue_arr {n : Nat} {cs : List Char} (hcs : ∀ rest, cs ≠ ']' :: rest) :
    readValue (n + 1) ('[' :: cs) = (readElems n cs).map fun (vs, rest) => (.arr vs, rest) := by
  rw [readValue.eq_def]
  split <;> simp_all

/-- Values are read back in `n` steps, if that is enough for their length. -/
def ReadsValues (n : Nat) : Prop :=
  ∀ d j rest, Encodable d j → 2 * (chars j).length ≤ n → NoDigit rest →
    readValue n (chars j ++ rest) = some (j, rest)

/-- The elements of arrays are read back in `n` steps, if that is enough. -/
def ReadsElems (n : Nat) : Prop :=
  ∀ d vs rest, vs ≠ [] → (∀ v ∈ vs, Encodable d v) → 2 * (elemsChars vs).length + 1 ≤ n →
    readElems n (elemsChars vs ++ ']' :: rest) = some (vs, rest)

/-- The members of objects are read back in `n` steps, if that is enough. -/
def ReadsMembers (n : Nat) : Prop :=
  ∀ d ms rest, ms ≠ [] → (∀ m ∈ ms, Encodable d m.2) → 2 * (membersChars ms).length + 1 ≤ n →
    readMembers n (membersChars ms ++ '}' :: rest) = some (ms, rest)

theorem readsValues_succ {n : Nat} (he : ReadsElems n) (hm : ReadsMembers n) :
    ReadsValues (n + 1) := by
  intro d j rest hj hn hrest
  cases j with
  | null => simp [chars, readValue]
  | bool b => cases b <;> simp [chars, readValue]
  | num k => exact readValue_num n k hrest
  | float _ => cases d <;> exact hj.elim
  | str s =>
    simp only [chars, strChars, List.cons_append, List.append_assoc, List.nil_append,
      readValue, readStr_chars, Option.map_some, String.ofList_toList]
  | arr vs =>
    rcases d with _ | d
    · exact hj.elim
    rcases vs with _ | ⟨v, vs⟩
    · simp [chars, elemsChars, readValue]
    obtain ⟨c, cs, hcs, hc⟩ := chars_head (hj v List.mem_cons_self)
    rw [chars, List.length_cons, List.length_append] at hn
    rw [chars, List.cons_append, List.append_assoc, readValue_arr, List.singleton_append,
      he d (v :: vs) rest (List.cons_ne_nil _ _) hj (by omega)]
    · rfl
    · -- An element does not start with a bracket, so the array does not look empty.
      intro r h
      rw [elemsChars, hcs, List.cons_append, List.cons_append, List.cons.injEq] at h
      exact hc h.1
  | obj ms =>
    rcases d with _ | d
    · exact hj.elim
    rcases ms with _ | ⟨m, ms⟩
    · simp [chars, membersChars, readValue]
    rw [chars, List.length_cons, List.length_append] at hn
    have hread := hm d (m :: ms) rest (List.cons_ne_nil _ _) hj (by omega)
    rw [chars, List.cons_append, List.append_assoc, List.singleton_append]
    -- A member starts with a quote, so the object does not look empty.
    obtain ⟨cs, hcs⟩ : ∃ cs, membersChars (m :: ms) = '"' :: cs := ⟨_, by
      rw [membersChars, memberChars, strChars]; rfl⟩
    rw [hcs, List.cons_append] at hread ⊢
    rw [readValue, hread]
    · rfl
    · intro r h
      simp at h

theorem readsElems_succ {n : Nat} (hv : ReadsValues n) (he : ReadsElems n) :
    ReadsElems (n + 1) := by
  intro d vs rest hne hvs hn
  rcases vs with _ | ⟨v, vs⟩
  · exact absurd rfl hne
  rw [elemsChars, List.length_append] at hn
  rw [elemsChars, List.append_assoc, readElems]
  rcases vs with _ | ⟨w, vs⟩
  · rw [sep, List.isEmpty_nil, if_pos rfl, List.nil_append,
      hv d v _ (hvs v List.mem_cons_self) (by omega) (noDigit_cons (by decide) _)]
    rfl
  · simp only [sep, List.isEmpty_cons, Bool.false_eq_true, if_false, List.length_cons] at hn ⊢
    rw [List.cons_append,
      hv d v _ (hvs v List.mem_cons_self) (by omega) (noDigit_cons (by decide) _)]
    simp only [Option.bind_eq_bind, Option.bind_some]
    rw [he d (w :: vs) rest (List.cons_ne_nil _ _)
      (fun u hu => hvs u (List.mem_cons_of_mem _ hu)) (by omega)]
    rfl

theorem readsMembers_succ {n : Nat} (hv : ReadsValues n) (hm : ReadsMembers n) :
    ReadsMembers (n + 1) := by
  intro d ms rest hne hms hn
  rcases ms with _ | ⟨⟨k, v⟩, ms⟩
  · exact absurd rfl hne
  have henc : Encodable d v := hms _ List.mem_cons_self
  rw [membersChars, memberChars, strChars] at hn ⊢
  simp only [List.length_append, List.length_cons, List.cons_append, List.append_assoc,
    List.nil_append, readMembers, readStr_chars, Option.bind_eq_bind, Option.bind_some,
    String.ofList_toList] at hn ⊢
  rcases ms with _ | ⟨m, ms⟩
  · rw [sep, List.isEmpty_nil, if_pos rfl, List.nil_append,
      hv d v _ henc (by omega) (noDigit_cons (by decide) _)]
    rfl
  · simp only [sep, List.isEmpty_cons, Bool.false_eq_true, if_false, List.length_cons] at hn ⊢
    rw [List.cons_append, hv d v _ henc (by omega) (noDigit_cons (by decide) _)]
    simp only [Option.bind_some]
    rw [hm d (m :: ms) rest (List.cons_ne_nil _ _)
      (fun u hu => hms u (List.mem_cons_of_mem _ hu)) (by omega)]
    rfl

/-- Reading back in enough steps: by induction on the steps, as every value inside
    is read in fewer. -/
theorem reads (n : Nat) : ReadsValues n ∧ ReadsElems n ∧ ReadsMembers n := by
  induction n with
  | zero =>
    refine ⟨fun d j rest hj hn => ?_, fun _ _ _ _ _ hn => by omega, fun _ _ _ _ _ hn => by omega⟩
    obtain ⟨c, cs, hcs, -⟩ := chars_head hj
    simp [hcs] at hn
  | succ n ih =>
    obtain ⟨hv, he, hm⟩ := ih
    exact ⟨readsValues_succ he hm, readsElems_succ hv he, readsMembers_succ hv hm⟩

/-- The text of an encodable document reads back as the document. -/
theorem read_text {d : Nat} {j : Json} (hj : Encodable d j) : read (text j) = some j := by
  have h := (reads (2 * (chars j).length)).1 d j [] hj le_rfl (by simp [NoDigit])
  rw [List.append_nil] at h
  rw [read, text, String.toList_ofList, h]

/-- Different encodable documents have different texts. -/
theorem text_injective {d d' : Nat} {j j' : Json} (hj : Encodable d j) (hj' : Encodable d' j')
    (h : text j = text j') : j = j' := by
  have := read_text hj
  rw [h, read_text hj'] at this
  exact (Option.some.inj this).symm

end Json
