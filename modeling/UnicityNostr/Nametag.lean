import UnicityNostr.Event

/-!
# Nametags

Nametags are addressed privately: the tags a relay indexes are salted hashes of
the normalized nametag, never its plaintext. A nametag is valid if what is left
of it without a leading `@` normalizes to 3 to 20 nametag characters.

* `normalizeNametag_of_chars`: a name of nametag characters is its own normal
  form;
* `normalizeNametag_eq_validatedName_iff`: a valid spelling normalizes to the
  name that was validated if and only if it has no leading `@`.
-/

namespace UnicityNostr.Nametag

def nametagSalt : String := "unicity:nametag:"
def addressSalt : String := "unicity:address:"

/-- The minimum length of a nametag after normalization. -/
def nametagMinLength : Nat := 3
/-- The maximum length of a nametag after normalization. -/
def nametagMaxLength : Nat := 20

/-- The label of the single-owner marker. -/
def nametagMarkerLabel : String := "unicity:nametag"

variable (C : Crates)

/-- The hash of a string, in hexadecimal. -/
def sha256Hex (input : String) : String := C.hex.encode (C.sha256 (utf8 input)).1

/-- The normal form of a nametag: trimmed, in lower case, without a trailing
    `@unicity`. -/
def normalizeNametag (nametag : String) : String :=
  let trimmed := Unicode.trim nametag.toList
  let lower := Unicode.toLowercase C.unicode trimmed
  match lower.dropSuffix? "@unicity".toList with
  | some stripped => .ofList stripped
  | none => .ofList lower

/-- The salted hash of the normalized nametag: the value of the `d` and `t`
    tags. -/
def hashNametag (nametag : String) : String :=
  sha256Hex C (nametagSalt ++ normalizeNametag C nametag)

/-- The salted hash of an address, for reverse lookup. -/
def hashAddressForTag (address : String) : String := sha256Hex C (addressSalt ++ address)

/-- The nametag without a leading `@`. -/
def stripAt (nametag : String) : String :=
  match nametag.toList.dropPrefix? ['@'] with
  | some stripped => .ofList stripped
  | none => nametag

/-- The characters of a nametag: `[a-z0-9_-]`. -/
def isNametagChar (c : Char) : Bool := c.isLower || c.isDigit || c == '_' || c == '-'

/-- Whether the nametag, without a leading `@` and normalized, consists of 3 to
    20 nametag characters. -/
def isValidNametag (nametag : String) : Bool :=
  let n := normalizeNametag C (stripAt nametag)
  let len := n.toList.length
  decide (nametagMinLength ≤ len) && decide (len ≤ nametagMaxLength) && n.toList.all isNametagChar

/-- Whether the event carries the ownership marker. -/
def hasOwnershipMarker (event : Event) : Bool :=
  event.tags.any fun t => t[0]? == some "L" && t[1]? == some nametagMarkerLabel

/-! ## Spellings -/

/-- The name a nametag is validated as. -/
def validatedName (nametag : String) : String := normalizeNametag C (stripAt nametag)

variable {C} {s : String}

theorem isValidNametag_iff : isValidNametag C s = true ↔
    (3 ≤ (validatedName C s).toList.length ∧ (validatedName C s).toList.length ≤ 20) ∧
      ∀ c ∈ (validatedName C s).toList, isNametagChar c = true := by
  rw [isValidNametag]
  simp only [Bool.and_eq_true, decide_eq_true_eq, List.all_eq_true]
  rfl

/-- A hash of nametags is a text of 64 digits, and not empty. -/
theorem hashNametag_ne_empty (h2 : C.hex.TwoDigits) : hashNametag C s ≠ "" := by
  intro h
  have hlen := h2 (C.sha256 (utf8 (nametagSalt ++ normalizeNametag C s))).1
  rw [show C.hex.encode _ = "" from h, (C.sha256 _).2] at hlen
  exact absurd hlen (by decide)

/-- A nametag character is no whitespace, no `@`, and in lower case. -/
theorem isNametagChar_ascii {c : Char} (h : isNametagChar c = true) :
    Unicode.isWhitespace c = false ∧ c ≠ '@' ∧ c.toNat < 128 ∧ c.toLower = c := by
  have hbounds : 97 ≤ c.toNat ∧ c.toNat ≤ 122 ∨ 48 ≤ c.toNat ∧ c.toNat ≤ 57 ∨ c.toNat = 95 ∨
      c.toNat = 45 := by
    simp only [isNametagChar, Bool.or_eq_true, beq_iff_eq] at h
    rcases h with ((h | h) | rfl) | rfl
    · have h := (Bool.and_eq_true _ _).mp h
      exact .inl ⟨of_decide_eq_true h.1, of_decide_eq_true h.2⟩
    · simp [Char.isDigit, UInt32.le_iff_toNat_le] at h
      exact .inr (.inl h)
    · exact .inr (.inr (.inl rfl))
    · exact .inr (.inr (.inr rfl))
  -- What is left is arithmetic on the code point.
  refine ⟨?_, ?_, by omega, ?_⟩
  · simp [Unicode.isWhitespace]
    omega
  · rintro rfl
    exact absurd hbounds (by decide)
  · refine dif_neg ?_
    simp only [ge_iff_le, UInt32.le_iff_toNat_le, not_and, not_le]
    show 65 ≤ c.toNat → 90 < c.toNat
    omega

/-- A name of nametag characters is in normal form. -/
theorem normalizeNametag_of_chars (h : ∀ c ∈ s.toList, isNametagChar c = true) :
    normalizeNametag C s = s := by
  have htrim := Unicode.trim_eq_self fun c hc => (isNametagChar_ascii (h c hc)).1
  have hlower : Unicode.toLowercase C.unicode s.toList = s.toList :=
    Unicode.toLowercase_eq_self fun c hc => (isNametagChar_ascii (h c hc)).2.2
  -- The suffix that is stripped has an `@`, which is no nametag character.
  have hsuffix : s.toList.dropSuffix? "@unicity".toList = none := by
    rw [Option.eq_none_iff_forall_ne_some]
    intro r hr
    obtain ⟨s', hs', hbeq⟩ := List.dropSuffix?_eq_some_iff.1 hr
    obtain rfl := eq_of_beq hbeq
    have hat : '@' ∈ s.toList := by simp [hs']
    exact (isNametagChar_ascii (h _ hat)).2.1 rfl
  simp only [normalizeNametag, htrim, hlower, hsuffix, String.ofList_toList]

/-- A nametag without a leading `@` is validated as it stands. -/
theorem stripAt_of_head (h : s.toList.head? ≠ some '@') : stripAt s = s := by
  have hnone : s.toList.dropPrefix? ['@'] = none := by
    rw [Option.eq_none_iff_forall_ne_some]
    intro r hr
    obtain ⟨p, hp, hbeq⟩ := List.dropPrefix?_eq_some_iff.1 hr
    obtain rfl := eq_of_beq hbeq
    exact h (by rw [hp]; rfl)
  rw [stripAt, hnone]

/-- What follows a leading `@` does not normalize to a name without it. -/
theorem normalizeNametag_of_at (h : s.toList.head? = some '@') :
    normalizeNametag C s = "" ∨ '@' ∈ (normalizeNametag C s).toList := by
  obtain ⟨cs, hcs⟩ : ∃ cs, s.toList = '@' :: cs := List.head?_eq_some_iff.1 h
  obtain ⟨cs', htrim⟩ := Unicode.trim_cons (c := '@') (by decide) cs
  obtain ⟨lower, hlower⟩ :=
    Unicode.toLowercase_cons_ascii (t := C.unicode) (c := '@') (by decide) cs'
  have hat : Char.toLower '@' = '@' := by decide
  -- The `@` survives trimming and lowering, and stripping takes it only with all the rest.
  simp only [normalizeNametag, hcs, htrim, hlower, hat]
  split
  · rename_i r hr
    obtain ⟨s', hs', -⟩ := List.dropSuffix?_eq_some_iff.1 hr
    rcases r with _ | ⟨c, r⟩
    · exact .inl rfl
    · obtain rfl : '@' = c := (List.cons.inj hs').1
      exact .inr (by simp)
  · exact .inr (by simp)

/-- A valid spelling normalizes to the name that was validated if and only if
    it has no leading `@`. -/
theorem normalizeNametag_eq_validatedName_iff (h : isValidNametag C s = true) :
    normalizeNametag C s = validatedName C s ↔ s.toList.head? ≠ some '@' := by
  obtain ⟨⟨hmin, -⟩, hchars⟩ := isValidNametag_iff.1 h
  constructor
  · intro heq hat
    rcases normalizeNametag_of_at (C := C) hat with hempty | hmem
    · rw [← heq, hempty] at hmin
      simp at hmin
    · exact (isNametagChar_ascii (hchars _ (heq ▸ hmem))).2.1 rfl
  · intro hat
    rw [validatedName, stripAt_of_head hat]

/-- The validated name hashes as the spelling does whenever the spelling
    normalizes to it. -/
theorem hashNametag_validatedName (h : isValidNametag C s = true)
    (hnorm : normalizeNametag C s = validatedName C s) :
    hashNametag C s = hashNametag C (validatedName C s) := by
  rw [hashNametag, hnorm, hashNametag, normalizeNametag_of_chars (isValidNametag_iff.1 h).2]

end UnicityNostr.Nametag
