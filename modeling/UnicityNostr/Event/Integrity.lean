import UnicityNostr.Reference

/-!
# The integrity of events

An event id commits to the fields of its event.

* `idText_injective`: different fields have different canonical texts;
* `tamper_evident`: a created event verifies, and events that verify under one id
  have the same fields.
-/

namespace UnicityNostr.Event

variable {C : Crates} {e e' : Event}

/-- The events have the same fields, other than the id and the signature. -/
structure SameFields (e e' : Event) : Prop where
  pubkey : e.pubkey = e'.pubkey
  createdAt : e.createdAt = e'.createdAt
  kind : e.kind = e'.kind
  tags : e.tags = e'.tags
  content : e.content = e'.content

/-- The canonical text of an event: `[0, pubkey, created_at, kind, tags, content]`. -/
def idText (e : Event) : String :=
  Json.text (idJson e.pubkey e.createdAt e.kind e.tags e.content)

/-- Events with the same canonical text have the same fields. -/
theorem idText_injective (h : e.idText = e'.idText) : SameFields e e' := by
  have hdocument := Json.text_injective (encodable_idJson e.pubkey e.createdAt e.kind e.tags
    e.content 0) (encodable_idJson e'.pubkey e'.createdAt e'.kind e'.tags e'.content 0) h
  obtain ⟨hpubkey, hdate, hkind, htags, hcontent⟩ := idJson_inj hdocument
  exact ⟨hpubkey, hdate, hkind, htags, hcontent⟩

/-- What an id is the hash of is the canonical text. -/
theorem idBytes_eq (hj : C.json.Compact) (e : Event) : e.idBytes C = utf8 e.idText := by
  rw [idBytes, hj _ (encodable_idJson _ _ _ _ _ 124), idText]

/-- The id of an event that verifies is the hash of its canonical text. -/
theorem sha256_eq_of_verify (hx : C.hex.RoundTrips) (hj : C.json.Compact)
    (hid : e.id = e'.id) (h : e.verify C = true) (h' : e'.verify C = true) :
    C.sha256 (utf8 e.idText) = C.sha256 (utf8 e'.idText) := by
  have hhash : C.hex.encode (C.sha256 (e.idBytes C)).1 = C.hex.encode (C.sha256 (e'.idBytes C)).1 :=
    ((verify_eq_true_iff.1 h).1.trans hid).trans (verify_eq_true_iff.1 h').1.symm
  have hdecode := hx (C.sha256 (e.idBytes C)).1
  rw [hhash, hx, idBytes_eq hj, idBytes_eq hj] at hdecode
  exact Subtype.ext (Except.ok.inj hdecode).symm

/-- The created events of a verifiable signer verify; events that verify under the
    same id have the same fields, unless the hash collides on their canonical texts;
    and different fields have different canonical texts. -/
theorem tamper_evident (hx : C.hex.RoundTrips) (hj : C.json.Compact) :
    (∀ signer : Signer, signer.Verifiable C → ∀ kind tags content createdAt e,
      create C signer kind tags content createdAt = .ok e → e.verify C = true) ∧
    (∀ e e' : Event, e.id = e'.id → e.verify C = true → e'.verify C = true →
      (C.sha256 (utf8 e.idText) = C.sha256 (utf8 e'.idText) → utf8 e.idText = utf8 e'.idText) →
      SameFields e e') ∧
    ∀ e e' : Event, e.idText = e'.idText → SameFields e e' := by
  refine ⟨fun signer hs kind tags content createdAt e h => verify_of_signed hx hs h, ?_,
    fun e e' h => idText_injective h⟩
  intro e e' hid h h' hsha
  exact idText_injective (utf8_injective (hsha (sha256_eq_of_verify hx hj hid h h')))

/-- Moving a character from one tag to its neighbour changes what the id is the hash
    of, and the event does not verify under its id. -/
theorem tamper_evident_moved :
    ∃ e : Event, e.verify Reference.crates = true ∧ e.tags = [["t", "ab"], ["t", "c"]] ∧
      { e with tags := [["t", "a"], ["t", "bc"]] }.verify Reference.crates = false := by
  obtain ⟨hcreated, hsame, -⟩ :=
    tamper_evident Reference.hex_roundTrips Reference.json_compact
  obtain ⟨e, he⟩ : ∃ e, create Reference.crates (Reference.signer Reference.one).toSigner
      Kinds.chatMessage [["t", "ab"], ["t", "c"]] "" 5 = .ok e := Reference.create_eq_ok _ _ _ _ _
  have hverify := hcreated _ (LocalSigner.verifiable Reference.k256_verifiesSigned _) _ _ _ _ _ he
  obtain ⟨hpubkey, hdate, hkind, htags, hcontent⟩ := fields_of_create he
  obtain ⟨moved, hmoved⟩ : ∃ e', e' = { e with tags := [["t", "a"], ["t", "bc"]] } := ⟨_, rfl⟩
  -- The hash does not collide on the two texts.
  have hsha : Reference.crates.sha256 (utf8 e.idText) ≠
      Reference.crates.sha256 (utf8 moved.idText) := by
    simp only [idText, hmoved, hpubkey, hdate, hkind, htags, hcontent]
    decide +kernel
  refine ⟨e, hverify, htags, Bool.eq_false_iff.2 fun hv => ?_⟩
  rw [← hmoved] at hv
  have hid : e.id = moved.id := by rw [hmoved]
  have htags' : [["t", "ab"], ["t", "c"]] = [["t", "a"], ["t", "bc"]] :=
    htags.symm.trans (((hsame e moved hid hverify hv fun h => absurd h hsha).tags).trans
      (congrArg Event.tags hmoved))
  exact absurd htags' (by decide)

end UnicityNostr.Event
