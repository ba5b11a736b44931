import UnicityNostr.Client.Session
import UnicityNostr.Reference

/-!
# The grammar of the frames of a relay

The frames of the six types, with the elements each of them requires
(`Carries`). The client reads the elements of a frame by their position, and has a
default for one that is missing or of another type.

* `parseRelayMessage_of_carries`: every frame of the grammar is read as its message;
* `parse_conforms_iff`: a text is read as the grammar says if and only if no default
  stands in for an element.
-/

namespace UnicityNostr.RelayMessage

/-- The type of an element of a frame. -/
inductive Slot
  | string
  | boolean
  | object

/-- The value is of the type. -/
def Slot.fits : Slot → Json → Bool
  | string, .str _ => true
  | boolean, .bool _ => true
  | object, .obj _ => true
  | _, _ => false

/-- The values begin with one of each of the types. -/
def fits : List Slot → List Json → Bool
  | [], _ => true
  | _ :: _, [] => false
  | slot :: slots, value :: values => slot.fits value && fits slots values

/-- The elements that a frame of the type requires. -/
def required (typ : String) : Option (List Slot) :=
  if typ = "EVENT" then some [.string, .object]
  else if typ = "EOSE" then some [.string]
  else if typ = "OK" then some [.string, .boolean, .string]
  else if typ = "CLOSED" then some [.string, .string]
  else if typ = "NOTICE" then some [.string]
  else if typ = "AUTH" then some [.string]
  else none

/-- The elements form a frame of the grammar, which carries the message. There may be
    more elements than the frame requires. -/
inductive Carries : List Json → RelayMessage → Prop
  | event {subId : String} {members : List (String × Json)} {event : Event} (more : List Json)
      (h : Event.ofValue (.obj members) = some event) :
      Carries (.str "EVENT" :: .str subId :: .obj members :: more) (.event subId event)
  | eose (subId : String) (more : List Json) :
      Carries (.str "EOSE" :: .str subId :: more) (.eose subId)
  | ok (id : String) (accepted : Bool) (message : String) (more : List Json) :
      Carries (.str "OK" :: .str id :: .bool accepted :: .str message :: more)
        (.ok id accepted message)
  | closed (subId message : String) (more : List Json) :
      Carries (.str "CLOSED" :: .str subId :: .str message :: more) (.closed subId message)
  | notice (message : String) (more : List Json) :
      Carries (.str "NOTICE" :: .str message :: more) (.notice message)
  | auth (challenge : String) (more : List Json) :
      Carries (.str "AUTH" :: .str challenge :: more) (.auth challenge)

variable (C : Crates) (text : String)

/-- The text is a frame of the grammar, which carries the message. -/
def Frames (m : RelayMessage) : Prop := ∃ arr, C.json.fromStr text = .ok (.arr arr) ∧ Carries arr m

/-- The text is a frame of one of the six types; if of an event, one that can be decoded. -/
structure Typed (typ : String) (rest : List Json) (slots : List Slot) : Prop where
  fromStr : C.json.fromStr text = .ok (.arr (.str typ :: rest))
  required : required typ = some slots
  event : typ = "EVENT" → (rest[1]?.bind Event.ofValue).isSome = true

/-- An element that the frame requires is missing, or of another type. -/
def Defaulted : Prop :=
  ∃ typ rest slots, Typed C text typ rest slots ∧ fits slots rest = false

variable {C text} {slots : List Slot} {values : List Json} {m : RelayMessage}

/-! ## Frames of the grammar -/

theorem fits_string : fits (.string :: slots) values = true ↔
    ∃ s more, values = .str s :: more ∧ fits slots more = true := by
  rcases values with _ | ⟨value, values⟩
  · simp [fits]
  · cases value <;> simp [fits, Slot.fits]

theorem fits_boolean : fits (.boolean :: slots) values = true ↔
    ∃ b more, values = .bool b :: more ∧ fits slots more = true := by
  rcases values with _ | ⟨value, values⟩
  · simp [fits]
  · cases value <;> simp [fits, Slot.fits]

theorem fits_object : fits (.object :: slots) values = true ↔
    ∃ members more, values = .obj members :: more ∧ fits slots more = true := by
  rcases values with _ | ⟨value, values⟩
  · simp [fits]
  · cases value <;> simp [fits, Slot.fits]

/-- A frame of the grammar is read as the message it carries. -/
theorem parseRelayMessage_of_carries {arr : List Json}
    (h : C.json.fromStr text = .ok (.arr arr)) (hm : Carries arr m) :
    parseRelayMessage C text = m := by
  rw [parseRelayMessage, h]
  cases hm with
  | event more hevent => simp [Json.asStr, hevent]
  | _ => simp [Json.asStr, Json.asBool]

/-- A frame of the grammar has a type, and the elements the type requires. -/
theorem typed_of_carries {arr : List Json} (h : C.json.fromStr text = .ok (.arr arr))
    (hm : Carries arr m) :
    ∃ typ rest slots, Typed C text typ rest slots ∧ fits slots rest = true := by
  cases hm with
  | event more hevent => exact ⟨_, _, _, ⟨h, rfl, fun _ => by simp [hevent]⟩, rfl⟩
  | _ => exact ⟨_, _, _, ⟨h, rfl, fun heq => by simp at heq⟩, rfl⟩

theorem Typed.eq {typ typ' : String} {rest rest' : List Json} {slots' : List Slot}
    (h : Typed C text typ rest slots) (h' : Typed C text typ' rest' slots') :
    rest = rest' ∧ slots = slots' := by
  have heq := h.fromStr.symm.trans h'.fromStr
  simp only [Except.ok.injEq, Json.arr.injEq, List.cons.injEq, Json.str.injEq] at heq
  obtain ⟨rfl, rfl⟩ := heq
  exact ⟨rfl, Option.some.inj (h.required.symm.trans h'.required)⟩

/-- A frame with the elements its type requires is one of the grammar. -/
theorem Typed.exists_frames {typ : String} {rest : List Json} (h : Typed C text typ rest slots)
    (hfits : fits slots rest = true) : ∃ m, Frames C text m := by
  obtain ⟨hfrom, hreq, hevent⟩ := h
  rw [RelayMessage.required] at hreq
  split_ifs at hreq <;> obtain rfl := Option.some.inj hreq <;> subst_vars <;>
    simp only [fits_string, fits_boolean, fits_object] at hfits
  · obtain ⟨subId, _, rfl, members, more, rfl, -⟩ := hfits
    obtain ⟨event, he⟩ := Option.isSome_iff_exists.1 (hevent rfl)
    exact ⟨_, _, hfrom, .event more he⟩
  · obtain ⟨subId, more, rfl, -⟩ := hfits
    exact ⟨_, _, hfrom, .eose subId more⟩
  · obtain ⟨id, _, rfl, accepted, _, rfl, message, more, rfl, -⟩ := hfits
    exact ⟨_, _, hfrom, .ok id accepted message more⟩
  · obtain ⟨subId, _, rfl, message, more, rfl, -⟩ := hfits
    exact ⟨_, _, hfrom, .closed subId message more⟩
  · obtain ⟨message, more, rfl, -⟩ := hfits
    exact ⟨_, _, hfrom, .notice message more⟩
  · obtain ⟨challenge, more, rfl, -⟩ := hfits
    exact ⟨_, _, hfrom, .auth challenge more⟩

/-! ## What the client reads -/

/-- An event is read from a frame of its type if the third element decodes. -/
theorem parseRelayMessage_event {rest : List Json}
    (h : C.json.fromStr text = .ok (.arr (.str "EVENT" :: rest))) :
    (∀ t, parseRelayMessage C text ≠ .other t) ↔
      (rest[1]?.bind Event.ofValue).isSome = true := by
  rw [parseRelayMessage, h]
  rcases hvalue : rest[1]? with _ | value
  · simp [Json.asStr, hvalue]
  · cases hevent : Event.ofValue value <;> simp [Json.asStr, hvalue, hevent]

/-- A frame of another type is read whatever its elements are. -/
theorem parseRelayMessage_typ {typ : String} {rest : List Json} (hne : typ ≠ "EVENT")
    (h : C.json.fromStr text = .ok (.arr (.str typ :: rest))) :
    (∀ t, parseRelayMessage C text ≠ .other t) ↔ (required typ).isSome = true := by
  rw [parseRelayMessage, h, required]
  simp only [List.head?_cons, Option.bind_some, Json.asStr, Option.getD_some, hne, if_false]
  by_cases heose : typ = "EOSE"
  · simp [heose]
  by_cases hok : typ = "OK"
  · simp [hok]
  by_cases hclosed : typ = "CLOSED"
  · simp [hclosed]
  by_cases hnotice : typ = "NOTICE"
  · simp [hnotice]
  by_cases hauth : typ = "AUTH"
  · simp [hauth]
  simp [heose, hok, hclosed, hnotice, hauth]

/-- A text is read as a message of the protocol if and only if it is a frame of one of
    the six types, whatever its elements are. -/
theorem parseRelayMessage_ne_other_iff : (∀ t, parseRelayMessage C text ≠ .other t) ↔
    ∃ typ rest slots, Typed C text typ rest slots := by
  constructor
  · intro h
    obtain ⟨typ, rest, hfrom⟩ : ∃ typ rest,
        C.json.fromStr text = .ok (.arr (.str typ :: rest)) := by
      by_contra hnone
      rw [parseRelayMessage] at h
      split at h
      · rename_i arr harr
        rcases arr with _ | ⟨first, rest⟩
        · exact h "" rfl
        · cases first with
          | str typ => exact hnone ⟨typ, rest, harr⟩
          | _ => exact h "" (by simp [Json.asStr])
      · exact h text rfl
    by_cases htyp : typ = "EVENT"
    · subst htyp
      exact ⟨_, rest, _, hfrom, rfl, fun _ => (parseRelayMessage_event hfrom).1 h⟩
    · obtain ⟨slots, hslots⟩ :=
        Option.isSome_iff_exists.1 ((parseRelayMessage_typ htyp hfrom).1 h)
      exact ⟨typ, rest, slots, hfrom, hslots, fun heq => absurd heq htyp⟩
  · rintro ⟨typ, rest, slots, hfrom, hslots, hevent⟩
    by_cases htyp : typ = "EVENT"
    · subst htyp
      exact (parseRelayMessage_event hfrom).2 (hevent rfl)
    · exact (parseRelayMessage_typ htyp hfrom).2 (Option.isSome_iff_exists.2 ⟨slots, hslots⟩)

/-- What conforms to the grammar: a text is read as a message of the protocol if and
    only if it is a frame that carries it. -/
def Conforms (C : Crates) (text : String) : Prop :=
  ∀ m, (∀ t, m ≠ .other t) → (parseRelayMessage C text = m ↔ Frames C text m)

/-- A frame with a default for an element is read as a message nonetheless. -/
theorem not_conforms_of_defaulted (h : Defaulted C text) : ¬Conforms C text := by
  obtain ⟨typ, rest, slots, htyped, hfits⟩ := h
  intro hconforms
  obtain ⟨arr, harr, hm⟩ := (hconforms (parseRelayMessage C text)
    (parseRelayMessage_ne_other_iff.2 ⟨typ, rest, slots, htyped⟩)).1 rfl
  obtain ⟨typ', rest', slots', htyped', hfits'⟩ := typed_of_carries harr hm
  obtain ⟨rfl, rfl⟩ := htyped.eq htyped'
  cases hfits.symm.trans hfits'

/-- A text is read as the grammar says if and only if it is not a frame of one of the
    six types that lacks an element its type requires. -/
theorem parse_conforms_iff (C : Crates) (text : String) :
    Conforms C text ↔ ¬Defaulted C text := by
  constructor
  · exact fun h hdefaulted => not_conforms_of_defaulted hdefaulted h
  · intro h m hm
    constructor
    · rintro rfl
      obtain ⟨typ, rest, slots, htyped⟩ := parseRelayMessage_ne_other_iff.1 hm
      have hfits : fits slots rest = true := by
        by_contra hfits
        exact h ⟨typ, rest, slots, htyped, Bool.eq_false_iff.2 hfits⟩
      obtain ⟨m, arr, harr, hm⟩ := htyped.exists_frames hfits
      rw [parseRelayMessage_of_carries harr hm]
      exact ⟨arr, harr, hm⟩
    · rintro ⟨arr, harr, hcarries⟩
      exact parseRelayMessage_of_carries harr hcarries

/-- An acknowledgement without a truth value is read as the refusal of the event. -/
theorem refused_of_not_boolean {id : String} {verdict : Json} {more : List Json}
    (h : C.json.fromStr text = .ok (.arr (.str "OK" :: .str id :: verdict :: more)))
    (hverdict : verdict.asBool = none) :
    ∃ message, (parseRelayMessage C text).verdictOn id = some (false, message) := by
  rw [parseRelayMessage, h]
  simp [Json.asStr, hverdict, verdictOn]

/-- A challenge without a text is read as one nonetheless, and answered. -/
theorem challenged_of_not_string {rest : List Json}
    (h : C.json.fromStr text = .ok (.arr (.str "AUTH" :: rest))) :
    (parseRelayMessage C text).isAuth = true := by
  rw [parseRelayMessage, h]
  simp [Json.asStr, isAuth]

/-- A frame whose verdict is a text. -/
theorem ok_without_boolean_is_read : ¬∀ text, Conforms Reference.crates text := by
  intro hclaim
  obtain ⟨text, htext⟩ : ∃ text, Reference.crates.json.fromStr text =
      .ok (.arr [.str "OK", .str "id", .str "yes"]) :=
    ⟨_, (Reference.json_roundTrips _ (by simp [Json.Encodable])).1⟩
  exact not_conforms_of_defaulted ⟨"OK", _, _, ⟨htext, rfl, fun heq => by simp at heq⟩, rfl⟩
    (hclaim text)

end UnicityNostr.RelayMessage
