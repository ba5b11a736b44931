import UnicityNostr.Event.Integrity

/-!
# Replaceable events

The kinds of events that relays do not keep all of (NIP-01): of replaceable events
they keep the latest of an author, of parameterized ones the latest of an author
and a `d` tag, and ephemeral ones they do not keep.

* `Event.Copies`: the events that verify under an id, which differ in the signature
  only unless the hash collides on them;
* `Event.Succeeds`: an event or a later one at its address, which is a preorder.
-/

namespace UnicityNostr

namespace Kinds

/-- Replaceable event: of kind 0, 3, or 10000 to 19999. -/
def isReplaceable (kind : UInt32) : Bool :=
  kind == 0 || kind == 3 || (decide (10000 ≤ kind) && decide (kind < 20000))

/-- Ephemeral event: of kind 20000 to 29999. -/
def isEphemeral (kind : UInt32) : Bool := decide (20000 ≤ kind) && decide (kind < 30000)

/-- Parameterized replaceable event: of kind 30000 to 39999. -/
def isParameterizedReplaceable (kind : UInt32) : Bool :=
  decide (30000 ≤ kind) && decide (kind < 40000)

end Kinds

namespace Event

/-- The address of a replaceable event: its kind, its author and, if it is
    parameterized, its `d` tag. -/
def address (e : Event) : Option (UInt32 × String × String) :=
  if Kinds.isReplaceable e.kind then some (e.kind, e.pubkey, "")
  else if Kinds.isParameterizedReplaceable e.kind then
    some (e.kind, e.pubkey, (e.tagValue "d").getD "")
  else none

/-- The event itself, or one at its address that is not earlier. -/
inductive Succeeds (e : Event) : Event → Prop
  | refl : Succeeds e e
  | later {e' : Event} {a : UInt32 × String × String} (h : e.address = some a)
    (h' : e'.address = some a) (hle : e.createdAt ≤ e'.createdAt) : Succeeds e e'

/-- The event verifies under the id of the other one. -/
structure Copies (C : Crates) (e e' : Event) : Prop where
  id : e'.id = e.id
  verified : e'.verify C = true

/-- The hash does not collide on the canonical texts of the events. -/
def Apart (C : Crates) (e e' : Event) : Prop :=
  C.sha256 (utf8 e.idText) = C.sha256 (utf8 e'.idText) → utf8 e.idText = utf8 e'.idText

variable {e e' e'' : Event}

/-- A copy is the event with another signature, unless the hash collides. -/
theorem Copies.eq {C : Crates} (hx : C.hex.RoundTrips) (hj : C.json.Compact)
    (h : Copies C e e') (hv : e.verify C = true) (hsha : Apart C e e') :
    e' = { e with sig := e'.sig } := by
  obtain ⟨hpubkey, hdate, hkind, htags, hcontent⟩ : SameFields e e' :=
    idText_injective (utf8_injective (hsha (sha256_eq_of_verify hx hj h.id.symm hv h.verified)))
  have hid := h.id
  cases e'
  simp only at hid hpubkey hdate hkind htags hcontent ⊢
  rw [hid, hpubkey, hdate, hkind, htags, hcontent]

theorem Succeeds.trans (h : Succeeds e e') (h' : Succeeds e' e'') : Succeeds e e'' := by
  cases h with
  | refl => exact h'
  | later ha ha' hle =>
    cases h' with
    | refl => exact .later ha ha' hle
    | later hb hb' hle' =>
      obtain rfl := Option.some.inj (ha'.symm.trans hb)
      exact .later ha hb' (Int64.le_trans hle hle')

/-- Nothing takes the place of an event that is not replaceable. -/
theorem Succeeds.eq (h : Succeeds e e') (ha : e.address = none) : e' = e := by
  cases h with
  | refl => rfl
  | later hsome _ _ => cases ha.symm.trans hsome

theorem fields_of_address {a : UInt32 × String × String} (h : e.address = some a) :
    a.1 = e.kind ∧ a.2.1 = e.pubkey := by
  unfold address at h
  split_ifs at h
  · obtain rfl := Option.some.inj h
    exact ⟨rfl, rfl⟩
  · obtain rfl := Option.some.inj h
    exact ⟨rfl, rfl⟩

/-- What takes the place of an event is of its author and its kind, and is not
    earlier. -/
theorem Succeeds.author (h : Succeeds e e') :
    e'.pubkey = e.pubkey ∧ e'.kind = e.kind ∧ e.createdAt ≤ e'.createdAt := by
  cases h with
  | refl => exact ⟨rfl, rfl, Int64.le_refl _⟩
  | later ha ha' hle =>
    obtain ⟨hkind, hpubkey⟩ := fields_of_address ha
    obtain ⟨hkind', hpubkey'⟩ := fields_of_address ha'
    exact ⟨hpubkey'.symm.trans hpubkey, hkind'.symm.trans hkind, hle⟩

end Event

end UnicityNostr
