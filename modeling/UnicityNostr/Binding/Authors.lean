import UnicityNostr.Binding.Resolution

/-!
# Who counts, and as whom

* `relay_cannot_inject`: the owner of a nametag is a matter of the relevant events
  only, whatever a relay puts between them;
* `key_is_author_iff`: the authors that compete are the keys that signed, as long as
  the events spell each key in one way;
* `key_in_two_spellings`: an event whose public key is spelled in capitals verifies,
  and counts as an event of another author.
-/

namespace UnicityNostr.Binding

open Nametag

variable {C : Crates}

/-! ## Relevant events -/

/-- The content is a document with a nametag hash and an address, neither of them
    empty. -/
def HasBindingContent (C : Crates) (content : String) : Prop :=
  ∃ document, C.json.fromStr content = .ok document ∧
    (∃ hash, document.get? "nametag_hash" = some (.str hash) ∧ hash ≠ "") ∧
      ∃ address, document.get? "address" = some (.str address) ∧ address ≠ ""

/-- The event is relevant for the nametag. -/
structure Relevant (C : Crates) (nametagId : String) (e : Event) : Prop where
  kind : e.kind = Kinds.appData
  content : HasBindingContent C e.content
  verify : e.verify C = true
  dTag : e.tagValue "d" = some (hashNametag C nametagId)

theorem hasText_eq_true_iff {document : Json} {k : String} :
    hasText document k = true ↔ ∃ s, document.get? k = some (.str s) ∧ s ≠ "" := by
  simp only [hasText, Option.any_eq_true, Option.bind_eq_some_iff]
  constructor
  · rintro ⟨s, ⟨v, hv, hs⟩, hne⟩
    cases v with
    | str s' =>
      obtain rfl := Option.some.inj hs
      exact ⟨s', hv, by simpa using hne⟩
    | _ => cases hs
  · rintro ⟨s, hv, hne⟩
    exact ⟨s, ⟨_, hv, rfl⟩, by simpa using hne⟩

/-- The relevant events are those that count. -/
theorem countsFor_eq_true_iff {nametagId : String} {e : Event} :
    countsFor C nametagId e = true ↔ Relevant C nametagId e := by
  have hvalid : isValidBindingEvent C e = true ↔ e.kind = Kinds.appData ∧
      (e.tagValue "d").isSome = true ∧ HasBindingContent C e.content ∧ e.verify C = true := by
    unfold isValidBindingEvent
    cases hd : e.tagValue "d" with
    | none => simp
    | some d =>
      by_cases hk : e.kind = Kinds.appData
      · rw [if_neg (by simp [hk]), Bool.and_eq_true]
        simp only [hk, Option.isSome_some, true_and]
        refine and_congr_left fun _ => ?_
        cases hc : C.json.fromStr e.content with
        | error err => simp [HasBindingContent, hc]
        | ok document => simp [HasBindingContent, hc, hasText_eq_true_iff]
      · simp [hk]
  rw [countsFor, Bool.and_eq_true, hvalid, beq_iff_eq]
  constructor
  · rintro ⟨⟨hk, -, hc, hv⟩, hd⟩
    exact ⟨hk, hc, hv, hd⟩
  · rintro ⟨hk, hc, hv, hd⟩
    exact ⟨⟨hk, by rw [hd]; rfl, hc, hv⟩, hd⟩

instance (nametagId : String) : DecidablePred (Relevant C nametagId) := fun _ =>
  decidable_of_iff _ countsFor_eq_true_iff

/-- The relevant events for a nametag. -/
def relevant (C : Crates) (nametagId : String) (events : List Event) : List Event :=
  events.filter fun e => decide (Relevant C nametagId e)

theorem relevant_eq_filter (nametagId : String) (events : List Event) :
    relevant C nametagId events = events.filter (countsFor C nametagId) :=
  List.filter_congr fun e _ => by
    rw [Bool.eq_iff_iff, decide_eq_true_iff, countsFor_eq_true_iff]

/-- The selection is a matter of the included events only. -/
theorem resolveFiltered_congr {events events' : List Event} {incl incl' : Event → Bool}
    (h : events.filter incl = events'.filter incl') :
    resolveFiltered events incl = resolveFiltered events' incl' := by
  refine Option.ext fun e => ?_
  rw [resolveFiltered_eq_some_iff_elected, resolveFiltered_eq_some_iff_elected, Elected, Elected, h]

/-- The owner of a nametag is a matter of the relevant events only, and is their
    owner. -/
theorem relay_cannot_inject (C : Crates) (nametagId : String) {events events' : List Event}
    (h : relevant C nametagId events = relevant C nametagId events') :
    resolveNametagOwner C events nametagId = resolveNametagOwner C events' nametagId ∧
      resolveNametagOwner C events nametagId =
        resolveOwner C (relevant C nametagId events) := by
  constructor
  · rw [relevant_eq_filter, relevant_eq_filter] at h
    exact resolveFiltered_congr h
  · refine resolveFiltered_congr ?_
    -- All relevant events verify.
    have hall : ∀ e ∈ relevant C nametagId events, e.verify C = true := by
      intro e he
      exact (decide_eq_true_iff.1 (List.mem_filter.1 he).2).verify
    rw [List.filter_eq_self.2 hall, relevant_eq_filter]

/-- A relay puts an event of another kind before a binding of `alice`. -/
theorem relay_cannot_inject_alice :
    ∃ e foreign : Event, foreign.verify Reference.crates = true ∧
      Relevant Reference.crates "alice" e ∧ ¬Relevant Reference.crates "alice" foreign ∧
      resolveNametagOwner Reference.crates [foreign, e] "alice" =
        resolveNametagOwner Reference.crates [e] "alice" := by
  obtain ⟨e, he⟩ : ∃ e, e = Reference.binding Reference.one "DIRECT://one" 5 := ⟨_, rfl⟩
  obtain ⟨foreign, hforeign⟩ :=
    Reference.create_eq_ok Reference.two Kinds.chatMessage [["L", nametagMarkerLabel]] "" 9
  obtain ⟨-, -, hkind, -, -⟩ := Event.fields_of_create hforeign
  have hrelevant : Relevant Reference.crates "alice" e := by
    rw [he]
    exact countsFor_eq_true_iff.1 (Reference.countsFor_binding _ (by decide) _)
  have hnot : ¬Relevant Reference.crates "alice" foreign := by
    intro h
    exact absurd (hkind.symm.trans h.kind) (by decide)
  have hsame : relevant Reference.crates "alice" [foreign, e] =
      relevant Reference.crates "alice" [e] := by
    rw [relevant, relevant, List.filter_cons_of_neg (by simpa using hnot)]
  exact ⟨e, foreign, Event.verify_of_signed Reference.hex_roundTrips
    (LocalSigner.verifiable Reference.k256_verifiesSigned _) hforeign, hrelevant, hnot,
    (relay_cannot_inject Reference.crates "alice" hsame).1⟩

/-! ## Authors and keys -/

/-- The key signed the event: it is the one the event states, and the signature of
    the event verifies under it. -/
def SignedBy (C : Crates) (e : Event) (key : U8Array 32) : Prop :=
  C.hex.decode e.pubkey = .ok key.1 ∧ ∃ (id : U8Array 32) (sig : U8Array 64),
    C.hex.decode e.id = .ok id.1 ∧ C.hex.decode e.sig = .ok sig.1 ∧
      Schnorr.verify C sig id key = true

/-- The keys that signed the events. -/
def signers (C : Crates) (events : List Event) : Set (U8Array 32) :=
  {key | ∃ e ∈ events, SignedBy C e key}

/-- The authors among whom the owner is selected: those in the map of latest
    indices. -/
def authors (events : List Event) (incl : Event → Bool) : Set String :=
  {author | (latestIndices events incl)[author]?.isSome = true}

/-- The key an author spells. -/
def keyOf (C : Crates) (author : String) : Option (U8Array 32) :=
  match C.hex.decode author with
  | .ok bytes => U8Array.ofBytes? 32 bytes
  | .error _ => none

/-- Authors are keys: events of one key have an owner, and the authors among whom
    the owner is selected are in one-to-one correspondence with the keys that
    signed. -/
structure AuthorsAreKeys (C : Crates) (events : List Event) : Prop where
  owned : events ≠ [] → (∃ key : U8Array 32, ∀ e ∈ events, C.hex.decode e.pubkey = .ok key.1) →
    ∃ e ∈ events, resolveOwner C events = some e
  bijOn : Set.BijOn (keyOf C) (authors events (Event.verify C)) (some '' signers C events)

/-- The events spell each key in one way, in letters of either case. -/
def SpelledAlike (events : List Event) : Prop :=
  ∀ e ∈ events, ∀ e' ∈ events,
    Unicode.toAsciiLowercase e.pubkey = Unicode.toAsciiLowercase e'.pubkey → e.pubkey = e'.pubkey

theorem mem_authors_iff {events : List Event} {incl : Event → Bool} {author : String} :
    author ∈ authors events incl ↔ ∃ e ∈ events, incl e = true ∧ e.pubkey = author := by
  have hspec := congrArg Option.isSome (latestIndices_spec events incl author)
  rw [Option.isSome_map, Option.isSome_map] at hspec
  rw [authors, Set.mem_ofPred_eq, hspec, Option.isSome_iff_ne_none, Latest.current_ne_none_iff]
  simp only [List.mem_filter, and_assoc]

theorem keyOf_eq_some_iff {author : String} {key : U8Array 32} :
    keyOf C author = some key ↔ C.hex.decode author = .ok key.1 := by
  unfold keyOf
  cases C.hex.decode author with
  | ok bytes => simp [U8Array.ofBytes?_eq_some]
  | error e => simp

/-- An event that verifies is signed by the key its author spells. -/
theorem exists_signedBy {e : Event} (h : e.verify C = true) : ∃ key, SignedBy C e key := by
  obtain ⟨-, id, sig, key, hid, hsig, hkey, hv⟩ := Event.verify_eq_true_iff.1 h
  exact ⟨key, hkey, id, sig, hid, hsig, hv⟩

/-- Two spellings of a key differ in the case of their letters. -/
theorem toAsciiLowercase_eq (hx : C.hex.IgnoresCase) {s s' : String} {key : Bytes}
    (h : C.hex.decode s = .ok key) (h' : C.hex.decode s' = .ok key) :
    Unicode.toAsciiLowercase s = Unicode.toAsciiLowercase s' :=
  ((hx s key).1 h).symm.trans ((hx s' key).1 h')

/-- Authors are keys if and only if the events spell each key in one way. -/
theorem key_is_author_iff (hx : C.hex.IgnoresCase) {events : List Event}
    (hverify : ∀ e ∈ events, e.verify C = true) :
    AuthorsAreKeys C events ↔ SpelledAlike events := by
  constructor
  · intro h e he e' he' hlower
    obtain ⟨key, hkey, -⟩ := exists_signedBy (hverify e he)
    have hkey' : C.hex.decode e'.pubkey = .ok key.1 :=
      (hx _ _).2 (((hx _ _).1 hkey).trans hlower)
    refine h.bijOn.injOn (mem_authors_iff.2 ⟨e, he, hverify e he, rfl⟩)
      (mem_authors_iff.2 ⟨e', he', hverify e' he', rfl⟩) ?_
    rw [keyOf_eq_some_iff.2 hkey, keyOf_eq_some_iff.2 hkey']
  · intro hspelled
    refine ⟨fun hne ⟨key, hkey⟩ => ?_, ?_, ?_, ?_⟩
    · -- The events have one author, whose current binding is selected.
      obtain ⟨e, he⟩ := List.exists_mem_of_ne_nil _ hne
      have hall : ∀ e' ∈ events, e'.pubkey = e.pubkey := fun e' he' =>
        hspelled e' he' e he (toAsciiLowercase_eq hx (hkey e' he') (hkey e he))
      obtain ⟨cur, hcur⟩ := exists_currentBinding (List.mem_filter.2 ⟨he, hverify e he⟩)
      obtain ⟨hcur, hpub⟩ := currentBinding_eq_some_iff.1 hcur
      have howner : resolveOwner C events = some cur :=
        resolveFiltered_of_single_author hcur fun e' he' _ => (hall e' he').trans hpub.symm
      exact ⟨cur, (resolveFiltered_mem howner).1, howner⟩
    · rintro author hauthor
      obtain ⟨e, he, hv, rfl⟩ := mem_authors_iff.1 hauthor
      obtain ⟨key, hkey⟩ := exists_signedBy hv
      exact ⟨key, ⟨e, he, hkey⟩, (keyOf_eq_some_iff.2 hkey.1).symm⟩
    · rintro author hauthor author' hauthor' hkeys
      obtain ⟨e, he, hv, rfl⟩ := mem_authors_iff.1 hauthor
      obtain ⟨e', he', -, rfl⟩ := mem_authors_iff.1 hauthor'
      obtain ⟨key, hkey, -⟩ := exists_signedBy hv
      have hkey' : C.hex.decode e'.pubkey = .ok key.1 :=
        keyOf_eq_some_iff.1 (hkeys.symm.trans (keyOf_eq_some_iff.2 hkey))
      exact hspelled e he e' he' (toAsciiLowercase_eq hx hkey hkey')
    · rintro _ ⟨key, ⟨e, he, hkey⟩, rfl⟩
      exact ⟨e.pubkey, mem_authors_iff.2 ⟨e, he, hverify e he, rfl⟩, keyOf_eq_some_iff.2 hkey.1⟩

/-- The signer of secret 3 signs an unmarked event under any spelling of its key. -/
theorem exists_spelled {author : String} (h : Reference.crates.hex.decode author =
      .ok (Reference.bytes 32 (Reference.point Reference.three)).1) (createdAt : Int64) :
    ∃ e : Event, e.pubkey = author ∧ e.createdAt = createdAt ∧ e.tags = [] ∧
      e.verify Reference.crates = true := by
  obtain ⟨sig, hsig⟩ := Reference.sign_eq_ok (m := Reference.crates.sha256 (utf8
    (Reference.crates.json.toString (Event.idJson author createdAt Kinds.appData [] ""))))
    (Reference.ofBytes_secret Reference.three)
  refine ⟨{ id := Event.calculateId Reference.crates author createdAt Kinds.appData [] "",
            pubkey := author, createdAt, kind := Kinds.appData, tags := [], content := "",
            sig := Reference.crates.hex.encode sig.1 }, rfl, rfl, rfl, ?_⟩
  exact Event.verify_eq_true_iff.2 ⟨rfl, _, sig, _, Reference.hex_roundTrips _,
    Reference.hex_roundTrips _, h, (Reference.signer Reference.three).verifiable
      Reference.k256_verifiesSigned _ _ hsig⟩

/-- The key of secret 3, in lower-case letters. -/
def spelledLow : String := "000000000000000000000000000000000000000000000000000000000000001b"

/-- The key of secret 3, in capital letters. -/
def spelledHigh : String := "000000000000000000000000000000000000000000000000000000000000001B"

theorem decode_spelledLow : Reference.crates.hex.decode spelledLow =
    .ok (Reference.bytes 32 (Reference.point Reference.three)).1 :=
  (Reference.hex_ignoresCase _ _).2 (by decide +kernel)

theorem decode_spelledHigh : Reference.crates.hex.decode spelledHigh =
    .ok (Reference.bytes 32 (Reference.point Reference.three)).1 :=
  (Reference.hex_ignoresCase _ _).2 (by decide +kernel)

/-- Two events under one spelling of a key have an owner. -/
theorem key_is_author_iff_spelledHigh :
    ∃ e e' : Event, e ≠ e' ∧ e.pubkey = spelledHigh ∧ e'.pubkey = spelledHigh ∧
      (∀ x ∈ [e, e'], x.verify Reference.crates = true) ∧
      AuthorsAreKeys Reference.crates [e, e'] := by
  obtain ⟨e, hpub, hdate, -, hv⟩ := exists_spelled decode_spelledHigh 0
  obtain ⟨e', hpub', hdate', -, hv'⟩ := exists_spelled decode_spelledHigh 1
  have hverify : ∀ x ∈ [e, e'], x.verify Reference.crates = true := by simp [hv, hv']
  have hsame : ∀ x ∈ [e, e'], x.pubkey = spelledHigh := by simp [hpub, hpub']
  refine ⟨e, e', ?_, hpub, hpub', hverify, (key_is_author_iff Reference.hex_ignoresCase hverify).2
    fun x hx x' hx' _ => (hsame x hx).trans (hsame x' hx').symm⟩
  rintro rfl
  exact absurd (hdate.symm.trans hdate') (by decide)

/-- Two events of one key, spelled in both ways, have no owner. -/
theorem key_in_two_spellings :
    ¬∀ events : List Event, (∀ e ∈ events, e.verify Reference.crates = true) →
      AuthorsAreKeys Reference.crates events := by
  intro hclaim
  obtain ⟨e₁, hpub₁, -, htags₁, hv₁⟩ := exists_spelled decode_spelledLow 0
  obtain ⟨e₂, hpub₂, -, htags₂, hv₂⟩ := exists_spelled decode_spelledHigh 0
  have hverify : ∀ e ∈ [e₁, e₂], e.verify Reference.crates = true := by simp [hv₁, hv₂]
  have hkey : ∀ e ∈ [e₁, e₂], Reference.crates.hex.decode e.pubkey =
      .ok (Reference.bytes 32 (Reference.point Reference.three)).1 := by
    simp only [List.forall_mem_cons, hpub₁, hpub₂]
    exact ⟨decode_spelledLow, decode_spelledHigh, List.forall_mem_nil _⟩
  obtain ⟨e, -, howner⟩ := (hclaim _ hverify).owned (List.cons_ne_nil _ _) ⟨_, hkey⟩
  obtain ⟨⟨hv, pre, post, hsplit, -⟩, hwins⟩ :=
    elected_iff.1 (resolveFiltered_eq_some_iff_elected.1 howner)
  have hmem : e ∈ [e₁, e₂] := by simp [hsplit]
  have htags : e.tags = [] := by
    rcases List.mem_pair.1 hmem with rfl | rfl <;> assumption
  rcases hwins with ⟨hmarked, -⟩ | ⟨-, hall⟩
  · simp [hasOwnershipMarker, htags] at hmarked
  · -- Nobody is marked, and there are two authors.
    have h₁ := hall e₁ (by simp) hv₁
    have h₂ := hall e₂ (by simp) hv₂
    rw [hpub₁] at h₁
    rw [hpub₂, ← h₁] at h₂
    exact absurd h₂ (by decide)

end UnicityNostr.Binding
