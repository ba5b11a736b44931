import Mathlib.Algebra.Ring.Int.Defs
import Mathlib.Algebra.Ring.Nat
import Mathlib.Data.List.Sort
import UnicityNostr.Lib.Hex

/-!
# JSON documents

A JSON document as it stands in a text (`Json`): the members of an object are
kept in textual order, and a name may occur twice. Numbers are integers, or
literals that are no 64-bit integer, kept as written (`Json.float`).

* `Json.text`: the compact text of a document, without whitespace, the strings
  escaped as in ECMAScript's `JSON.stringify`: `"`, `\` and the control
  characters, everything else left raw. Plain ASCII text stands for itself
  (`Json.strChars_of_plain`).
* `Json.Encodable d`: the documents that nest at most `d` deep, all of whose
  numbers are 64-bit integers. (Readers bound the nesting, and read other
  numbers as floating point.)
* `Json.get?`: looking up a member, the last one of that name counting.
-/

/-- A JSON document. -/
inductive Json
  | null
  | bool (b : Bool)
  | num (n : Int)
  | float (literal : String)
  | str (s : String)
  | arr (elems : List Json)
  | obj (members : List (String × Json))

namespace Json

/-! ## Text -/

/-- The escape of a character in a string literal. -/
def escape (c : Char) : List Char :=
  if c = '"' then ['\\', '"']
  else if c = '\\' then ['\\', '\\']
  else if c.toNat = 0x08 then ['\\', 'b']
  else if c.toNat = 0x09 then ['\\', 't']
  else if c.toNat = 0x0a then ['\\', 'n']
  else if c.toNat = 0x0c then ['\\', 'f']
  else if c.toNat = 0x0d then ['\\', 'r']
  else if c.toNat < 0x20 then
    ['\\', 'u', '0', '0', Hex.digit (c.toNat / 16), Hex.digit (c.toNat % 16)]
  else [c]

/-- A string literal. -/
def strChars (s : String) : List Char :=
  '"' :: (s.toList.flatMap escape ++ ['"'])

/-- The decimal digits of a number. -/
def numChars : Int → List Char
  | .ofNat n => Nat.toDigits 10 n
  | .negSucc n => '-' :: Nat.toDigits 10 (n + 1)

/-- What stands between an item and the `rest` after it: a comma, unless it is
    the last one. -/
def sep {α : Type*} (items : List α) (rest : List Char) : List Char :=
  if items.isEmpty then [] else ',' :: rest

mutual

/-- The characters of the compact text of a document. -/
def chars : Json → List Char
  | .null => ['n', 'u', 'l', 'l']
  | .bool true => ['t', 'r', 'u', 'e']
  | .bool false => ['f', 'a', 'l', 's', 'e']
  | .num n => numChars n
  | .float literal => literal.toList
  | .str s => strChars s
  | .arr elems => '[' :: (elemsChars elems ++ [']'])
  | .obj members => '{' :: (membersChars members ++ ['}'])

/-- The elements of an array, separated by commas. -/
def elemsChars : List Json → List Char
  | [] => []
  | v :: vs => chars v ++ sep vs (elemsChars vs)

/-- The members of an object, separated by commas. -/
def membersChars : List (String × Json) → List Char
  | [] => []
  | m :: ms => memberChars m ++ sep ms (membersChars ms)

/-- A member of an object. -/
def memberChars : String × Json → List Char
  | (k, v) => strChars k ++ ':' :: chars v

end

/-- The compact text of a document. -/
def text (j : Json) : String := String.ofList j.chars

/-- An escape has at least one character. -/
theorem length_le_strChars (s : String) : s.toList.length ≤ (strChars s).length := by
  have hescape : ∀ c, 1 ≤ (escape c).length := by
    intro c
    unfold escape
    split_ifs <;> simp
  have hall : s.toList.length ≤ (s.toList.flatMap escape).length := by
    induction s.toList with
    | nil => exact le_rfl
    | cons c cs ih =>
      have hc := hescape c
      rw [List.flatMap_cons, List.length_append, List.length_cons]
      omega
  simp only [strChars, List.length_cons, List.length_append, List.length_nil]
  omega

/-! ## Plain text -/

/-- A printable ASCII character that stands for itself in a string literal. -/
def plain (c : Char) : Bool := 0x20 ≤ c.toNat && c.toNat < 0x80 && c != '"' && c != '\\'

theorem toNat_of_plain {c : Char} (h : plain c = true) : c.toNat < 128 := by
  simp only [plain, Bool.and_eq_true, decide_eq_true_eq] at h
  exact h.1.1.2

theorem escape_of_plain {c : Char} (h : plain c = true) : escape c = [c] := by
  simp only [plain, Bool.and_eq_true, decide_eq_true_eq, bne_iff_ne] at h
  obtain ⟨⟨⟨hlow, -⟩, hquote⟩, hbackslash⟩ := h
  simp only [escape, if_neg hquote, if_neg hbackslash]
  split_ifs <;> first | rfl | omega

/-- The literal of a plain string is the string in quotes. -/
theorem strChars_of_plain {s : String} (h : ∀ c ∈ s.toList, plain c = true) :
    strChars s = '"' :: (s.toList ++ ['"']) := by
  have hall : s.toList.flatMap escape = s.toList.flatMap fun c => [c] :=
    List.flatMap_congr fun c hc => escape_of_plain (h c hc)
  rw [strChars, hall, List.flatMap_singleton']

/-- A 64-bit number has at most 20 digits, with its sign. -/
theorem length_numChars_le {n : Int} (h : -2 ^ 63 ≤ n) (h' : n < 2 ^ 64) :
    (numChars n).length ≤ 20 := by
  cases n with
  | ofNat n =>
    have hlt : n < 2 ^ 64 := by
      rw [Int.ofNat_eq_natCast] at h'
      exact_mod_cast h'
    exact (Nat.length_toDigits_le_iff (by decide) (by decide)).2 (hlt.trans (by decide))
  | negSucc n =>
    have hlt : n + 1 < 10 ^ 19 := by omega
    have := (Nat.length_toDigits_le_iff (b := 10) (k := 19) (by decide) (by decide)).2 hlt
    rw [numChars, List.length_cons]
    omega

theorem length_numChars_pos (n : Int) : 0 < (numChars n).length := by
  cases n with
  | ofNat n => exact Nat.length_toDigits_pos
  | negSucc n => exact Nat.succ_pos _

theorem plain_of_isAlphanum {c : Char} (h : c.isAlphanum = true) : plain c = true := by
  have hrange : 48 ≤ c.toNat ∧ c.toNat ≤ 57 ∨ 65 ≤ c.toNat ∧ c.toNat ≤ 90 ∨
      97 ≤ c.toNat ∧ c.toNat ≤ 122 := by
    change (c.isUpper || c.isLower || c.isDigit) = true at h
    rw [Bool.or_eq_true, Bool.or_eq_true] at h
    rcases h with (hupper | hlower) | hdigit
    · exact .inr (.inl (decide_eq_true_iff.1 hupper))
    · have h := (Bool.and_eq_true _ _).mp hlower
      exact .inr (.inr ⟨of_decide_eq_true h.1, of_decide_eq_true h.2⟩)
    · have h := (Bool.and_eq_true _ _).mp hdigit
      exact .inl ⟨of_decide_eq_true h.1, of_decide_eq_true h.2⟩
  simp only [plain, Bool.and_eq_true, decide_eq_true_eq, bne_iff_ne]
  refine ⟨⟨⟨by omega, by omega⟩, ?_⟩, ?_⟩
  · rintro rfl
    exact absurd hrange (by decide)
  · rintro rfl
    exact absurd hrange (by decide)

theorem plain_of_mem_numChars {n : Int} {c : Char} (h : c ∈ numChars n) : plain c = true := by
  have hdigit : ∀ {k : Nat}, c ∈ Nat.toDigits 10 k → plain c = true := by
    intro k hc
    refine plain_of_isAlphanum ?_
    rw [Char.isAlphanum, Nat.isDigit_of_mem_toDigits (by decide) (by decide) hc, Bool.or_true]
  cases n with
  | ofNat n => exact hdigit h
  | negSucc n =>
    rcases List.mem_cons.1 h with rfl | h
    · rfl
    · exact hdigit h
/-! ## Encodable documents -/

/-- The document nests at most `d` deep, and its numbers are 64-bit integers. -/
def Encodable : Nat → Json → Prop
  | _, .null => True
  | _, .bool _ => True
  | _, .num n => -2 ^ 63 ≤ n ∧ n < 2 ^ 64
  | _, .float _ => False
  | _, .str _ => True
  | 0, .arr _ => False
  | 0, .obj _ => False
  | d + 1, .arr elems => ∀ v ∈ elems, Encodable d v
  | d + 1, .obj members => ∀ m ∈ members, Encodable d m.2

theorem encodable_str (d : Nat) (s : String) : Encodable d (.str s) := by
  rw [Encodable]
  trivial

/-! ## Looking into a document -/

/-- The string a document is. -/
def asStr : Json → Option String
  | .str s => some s
  | _ => none

/-- The truth value a document is. -/
def asBool : Json → Option Bool
  | .bool b => some b
  | _ => none

/-- The last member of the name `k`. -/
def lastMember (members : List (String × Json)) (k : String) : Option Json :=
  (members.reverse.find? fun m => m.1 == k).map Prod.snd

/-- The member of the name `k`, if it occurs exactly once. -/
def soleMember (members : List (String × Json)) (k : String) : Option Json :=
  match members.filter fun m => m.1 == k with
  | [m] => some m.2
  | _ => none

/-- The member `k` of an object; of several of that name, the last one. -/
def get? (k : String) : Json → Option Json
  | .obj members => lastMember members k
  | _ => none

/-- A lookup finds the members at the end first. -/
theorem lastMember_append (members members' : List (String × Json)) (k : String) :
    lastMember (members ++ members') k = (lastMember members' k).or (lastMember members k) := by
  simp only [lastMember, List.reverse_append, List.find?_append, Option.map_or]

/-- Members of other names do not change a lookup. -/
theorem lastMember_cons_of_ne {members : List (String × Json)} {k k' : String} {v : Json}
    (h : k' ≠ k) : lastMember ((k', v) :: members) k = lastMember members k := by
  have hnone : lastMember [(k', v)] k = none := by simp [lastMember, h]
  rw [← List.singleton_append, lastMember_append, hnone, Option.or_none]

/-- A member is found if no other one of its name follows. -/
theorem lastMember_cons_self {members : List (String × Json)} {k : String} {v : Json}
    (h : ∀ m ∈ members, m.1 ≠ k) : lastMember ((k, v) :: members) k = some v := by
  have hnone : lastMember members k = none := by
    simpa [lastMember] using fun name value hm => h (name, value) hm
  rw [← List.singleton_append, lastMember_append, hnone, Option.none_or]
  simp [lastMember]

/-- A member of a name that occurs once is found. -/
theorem lastMember_of_mem {members : List (String × Json)} {k : String} {v : Json}
    (hnames : (members.map Prod.fst).Nodup) (h : (k, v) ∈ members) :
    lastMember members k = some v := by
  induction members with
  | nil => cases h
  | cons m members ih =>
    obtain ⟨hm, hnames⟩ := List.nodup_cons.1 hnames
    rcases List.mem_cons.1 h with rfl | h
    · refine lastMember_cons_self fun m' hm' hname => hm ?_
      exact List.mem_map.2 ⟨m', hm', hname⟩
    · have hne : m.1 ≠ k := fun hk => hm (hk ▸ List.mem_map_of_mem (f := Prod.fst) h)
      exact (lastMember_cons_of_ne hne).trans (ih hnames h)

/-- The members in the order of their names. -/
def sortedMembers (members : List (String × Json)) : List (String × Json) :=
  members.insertionSort fun m m' => m.1 ≤ m'.1

/-- An object with its members in the order of their names. -/
def sortedObj (members : List (String × Json)) : Json := .obj (sortedMembers members)

theorem perm_sortedMembers (members : List (String × Json)) :
    (sortedMembers members).Perm members :=
  List.perm_insertionSort _ members

/-- Sorting the members does not change a lookup. -/
theorem lastMember_sortedMembers {members : List (String × Json)} {k : String} {v : Json}
    (hnames : (members.map Prod.fst).Nodup) (h : (k, v) ∈ members) :
    lastMember (sortedMembers members) k = some v :=
  lastMember_of_mem (((perm_sortedMembers members).map Prod.fst).nodup_iff.2 hnames)
    ((perm_sortedMembers members).mem_iff.2 h)

theorem encodable_sortedObj {d : Nat} {members : List (String × Json)}
    (h : ∀ m ∈ members, m.2.Encodable d) : (sortedObj members).Encodable (d + 1) := by
  rw [sortedObj, Encodable]
  exact fun m hm => h m ((perm_sortedMembers members).mem_iff.1 hm)

end Json
