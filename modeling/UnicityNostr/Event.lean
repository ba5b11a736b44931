import UnicityNostr.Signer

/-!
# Events

A Nostr event (NIP-01), its id, the hash of a canonical JSON text of its fields,
and its signature.

* `verify_eq_true_iff`: a verified event states its recomputed id, and its
  signature verifies under its key;
* `create_eq_ok`, `verify_of_signed`: the events a signer creates, which verify;
* `ofJson_toJson`: the JSON document of an event decodes to the event.
-/

namespace UnicityNostr

/-- A tag: a list of strings, the first of which is its name. -/
abbrev Tag := List String

/-- A signed event. -/
structure Event where
  id : String
  pubkey : String
  createdAt : Int64
  kind : UInt32
  tags : List Tag
  content : String
  sig : String
  deriving DecidableEq, Inhabited

/-! ## Kinds -/

/-- NIP-17 seal: signed, encrypts a rumor. -/
def Kinds.seal : UInt32 := 13
/-- NIP-17 private chat message: a rumor. -/
def Kinds.chatMessage : UInt32 := 14
/-- NIP-59 gift wrap. -/
def Kinds.giftWrap : UInt32 := 1059
/-- NIP-42 client authentication. -/
def Kinds.auth : UInt32 := 22242
/-- NIP-78 application data: nametag and identity bindings. -/
def Kinds.appData : UInt32 := 30078

/-! ## Documents

The documents the derived serialization makes, and their decoding. -/

/-- The document of a list of tags. -/
def tagsJson (tags : List Tag) : Json := .arr (tags.map fun t => .arr (t.map .str))

/-- Decoding an `i64`. -/
def asI64 : Json → Option Int64
  | .num n => if -2 ^ 63 ≤ n ∧ n < 2 ^ 63 then some (Int64.ofInt n) else none
  | _ => none

/-- Decoding a `u32`. -/
def asU32 : Json → Option UInt32
  | .num n => if 0 ≤ n ∧ n < 2 ^ 32 then some (UInt32.ofNat n.toNat) else none
  | _ => none

/-- Decoding a tag. -/
def asTag : Json → Option Tag
  | .arr elems => elems.mapM Json.asStr
  | _ => none

/-- Decoding a list of tags. -/
def asTags : Json → Option (List Tag)
  | .arr elems => elems.mapM asTag
  | _ => none

theorem asI64_num (n : Int64) : asI64 (.num n.toInt) = some n := by
  have := n.le_toInt
  have := n.toInt_lt
  rw [asI64, if_pos (by omega), Int64.ofInt_toInt]

theorem asU32_num (n : UInt32) : asU32 (.num n.toNat) = some n := by
  have := n.toNat_lt
  rw [asU32, if_pos (by omega), Int.toNat_natCast, UInt32.ofNat_toNat]

/-- Decoding the elements of an array one by one. -/
theorem mapM_map_some {α β : Type} {f : α → β} {g : β → Option α} (h : ∀ a, g (f a) = some a)
    (xs : List α) : (xs.map f).mapM g = some xs := by
  induction xs with
  | nil => rfl
  | cons x xs ih => rw [List.map_cons, List.mapM_cons, h, ih]; rfl

theorem asTag_arr (t : Tag) : asTag (.arr (t.map .str)) = some t :=
  mapM_map_some (g := Json.asStr) (fun _ => rfl) t

theorem asTags_tagsJson (tags : List Tag) : asTags (tagsJson tags) = some tags :=
  mapM_map_some (g := asTag) asTag_arr tags

theorem encodable_tagsJson (d : Nat) (tags : List Tag) : (tagsJson tags).Encodable (d + 2) := by
  simp [tagsJson, Json.Encodable]

theorem encodable_i64 (d : Nat) (n : Int64) : (Json.num n.toInt).Encodable d := by
  have := n.le_toInt
  have := n.toInt_lt
  rw [Json.Encodable]
  omega

theorem encodable_u32 (d : Nat) (n : UInt32) : (Json.num n.toNat).Encodable d := by
  have := n.toNat_lt
  rw [Json.Encodable]
  omega

/-! ## Hexadecimal fields -/

variable (C : Crates)

/-- The bytes of a hexadecimal field of a fixed length, with the messages of the
    two errors. -/
def hexArray (n : Nat) (hexError lengthError : String) (s : String) : Result (U8Array n) := do
  let bytes ← (C.hex.decode s).mapError fun e => .decode (hexError ++ e)
  Except.okOr (U8Array.ofBytes? n bytes) (.invalidLength lengthError)

/-- The bytes of an event id. -/
def hexId : String → Result (U8Array 32) := hexArray C 32 "hex id: " "id != 32"

variable {C}

theorem hexArray_eq_ok {n : Nat} {hexError lengthError s : String} {bs : U8Array n} :
    hexArray C n hexError lengthError s = .ok bs ↔ C.hex.decode s = .ok bs.1 := by
  simp [hexArray, Except.bind_eq_ok, U8Array.ofBytes?_eq_some]

/-- The value a JSON text decodes to, with the message of the error:
    `from_slice`. -/
def fromSlice (C : Crates) {α : Type} (what : String) (decode : Json → Option α) (bs : Bytes) :
    Result α := do
  let j ← (C.json.fromSlice bs).mapError fun e => .decode (what ++ e)
  Except.okOr (decode j) (.decode (what ++ C.json.dataError j))

/-- A value is read back from the text of its document. -/
theorem fromSlice_toString (hj : C.json.RoundTrips) {α : Type} {what : String}
    {decode : Json → Option α} {j : Json} {a : α} (henc : j.Encodable 127)
    (hdecode : decode j = some a) :
    fromSlice C what decode (utf8 (C.json.toString j)) = .ok a := by
  rw [fromSlice, (hj j henc).2, Except.mapError_ok, Except.bind_ok, hdecode, Except.okOr_some]

/-- An encoded array decodes to itself. -/
theorem hexArray_encode (hx : C.hex.RoundTrips) {n : Nat} (hexError lengthError : String)
    (bs : U8Array n) : hexArray C n hexError lengthError (C.hex.encode bs.1) = .ok bs :=
  hexArray_eq_ok.2 (hx bs.1)

/-! ## Events -/

namespace Event

variable (C)

/-- The canonical document an event id is the hash of. -/
def idJson (pubkey : String) (createdAt : Int64) (kind : UInt32) (tags : List Tag)
    (content : String) : Json :=
  .arr [.num 0, .str pubkey, .num createdAt.toInt, .num kind.toNat, tagsJson tags, .str content]

/-- The event id of the given fields: the hash of their canonical text. -/
def calculateId (pubkey : String) (createdAt : Int64) (kind : UInt32) (tags : List Tag)
    (content : String) : String :=
  C.hex.encode (C.sha256 (utf8 (C.json.toString (idJson pubkey createdAt kind tags content)))).1

/-- An event of the given fields, signed by the signer. -/
def create (signer : Signer) (kind : UInt32) (tags : List Tag) (content : String)
    (createdAt : Int64) : Result Event := do
  let pubkey := C.hex.encode signer.publicKey.1
  let id := calculateId C pubkey createdAt kind tags content
  let idBytes ← hexId C id
  let sig ← signer.schnorrSign idBytes
  return { id, pubkey, createdAt, kind, tags, content, sig := C.hex.encode sig.1 }

/-- Whether the id recomputes and the signature of the id verifies. -/
def verify (e : Event) : Bool :=
  let recomputed := calculateId C e.pubkey e.createdAt e.kind e.tags e.content
  if recomputed ≠ e.id then false
  else
    match C.hex.decode e.id, C.hex.decode e.sig, C.hex.decode e.pubkey with
    | .ok id, .ok sig, .ok pubkey =>
      match U8Array.ofBytes? 32 id with
      | none => false
      | some id =>
        match U8Array.ofBytes? 64 sig with
        | none => false
        | some sig =>
          match U8Array.ofBytes? 32 pubkey with
          | none => false
          | some pubkey => Schnorr.verify C sig id pubkey
    | _, _, _ => false

/-- The first value of the first tag named `name`. -/
def tagValue (e : Event) (name : String) : Option String :=
  (e.tags.find? fun t => t.head? == some name).bind fun t => t[1]?

/-- The members of the document of an event, in the order of its fields. -/
def members (e : Event) : List (String × Json) :=
  [("id", .str e.id), ("pubkey", .str e.pubkey), ("created_at", .num e.createdAt.toInt),
    ("kind", .num e.kind.toNat), ("tags", tagsJson e.tags), ("content", .str e.content),
    ("sig", .str e.sig)]

/-- The document of an event: `to_string`. -/
def toJson (e : Event) : Json := .obj e.members

/-- The document of an event as a value, its members sorted: `to_value`. -/
def toValue (e : Event) : Json := Json.sortedObj e.members

/-- Decoding the fields of an event. -/
def ofFields (id pubkey createdAt kind tags content sig : Json) : Option Event := do
  let id ← id.asStr
  let pubkey ← pubkey.asStr
  let createdAt ← asI64 createdAt
  let kind ← asU32 kind
  let tags ← asTags tags
  let content ← content.asStr
  let sig ← sig.asStr
  some { id, pubkey, createdAt, kind, tags, content, sig }

/-- Decoding an event from its members; unknown ones are ignored. -/
def ofMembers (get : String → Option Json) : Option Event := do
  ofFields (← get "id") (← get "pubkey") (← get "created_at") (← get "kind") (← get "tags")
    (← get "content") (← get "sig")

/-- Decoding an event from a text: an object in which no field occurs twice, or
    the array of its fields. -/
def ofJson : Json → Option Event
  | .obj members => ofMembers (Json.soleMember members)
  | .arr [id, pubkey, createdAt, kind, tags, content, sig] =>
    ofFields id pubkey createdAt kind tags content sig
  | _ => none

/-- Decoding an event from a value, in which the last member of a name counts:
    `from_value`. -/
def ofValue : Json → Option Event
  | .obj members => ofMembers (Json.lastMember members)
  | .arr [id, pubkey, createdAt, kind, tags, content, sig] =>
    ofFields id pubkey createdAt kind tags content sig
  | _ => none

variable {C} {e : Event}

/-- A verified event states its recomputed id, and its signature of that id
    verifies under its key. -/
theorem verify_eq_true_iff : e.verify C = true ↔
    calculateId C e.pubkey e.createdAt e.kind e.tags e.content = e.id ∧
      ∃ (id : U8Array 32) (sig : U8Array 64) (pubkey : U8Array 32),
        C.hex.decode e.id = .ok id.1 ∧ C.hex.decode e.sig = .ok sig.1 ∧
          C.hex.decode e.pubkey = .ok pubkey.1 ∧ Schnorr.verify C sig id pubkey = true := by
  constructor
  · intro h
    dsimp only [verify] at h
    split_ifs at h with hid
    split at h
    · rename_i id sig pubkey hi hs hp
      split at h
      · cases h
      rename_i id' hi'
      split at h
      · cases h
      rename_i sig' hs'
      split at h
      · cases h
      rename_i pubkey' hp'
      rw [U8Array.ofBytes?_eq_some] at hi' hs' hp'
      subst hi' hs' hp'
      exact ⟨not_not.1 hid, id', sig', pubkey', hi, hs, hp, h⟩
    · cases h
  · rintro ⟨hid, id, sig, pubkey, hi, hs, hp, h⟩
    simp only [verify, hid, ne_eq, not_true_eq_false, if_false, hi, hs, hp,
      U8Array.ofBytes?_val, h]

/-- The fields of a created event. -/
theorem fields_of_create {signer : Signer} {kind : UInt32} {tags : List Tag} {content : String}
    {createdAt : Int64} (h : create C signer kind tags content createdAt = .ok e) :
    e.pubkey = C.hex.encode signer.publicKey.1 ∧ e.createdAt = createdAt ∧ e.kind = kind ∧
      e.tags = tags ∧ e.content = content := by
  obtain ⟨id, -, h⟩ := Except.bind_eq_ok.1 h
  obtain ⟨sig, -, h⟩ := Except.bind_eq_ok.1 h
  obtain rfl := Except.ok.inj h
  exact ⟨rfl, rfl, rfl, rfl, rfl⟩

/-- What creating an event does: signing the id of its fields. -/
theorem create_eq_ok (hx : C.hex.RoundTrips) {signer : Signer} {kind : UInt32} {tags : List Tag}
    {content : String} {createdAt : Int64} :
    create C signer kind tags content createdAt = .ok e ↔
      ∃ sig, signer.schnorrSign (C.sha256 (utf8 (C.json.toString
          (idJson (C.hex.encode signer.publicKey.1) createdAt kind tags content)))) = .ok sig ∧
        e = { id := calculateId C (C.hex.encode signer.publicKey.1) createdAt kind tags content,
              pubkey := C.hex.encode signer.publicKey.1, createdAt, kind, tags, content,
              sig := C.hex.encode sig.1 } := by
  have hid : hexId C (calculateId C (C.hex.encode signer.publicKey.1) createdAt kind tags content) =
      .ok _ := hexArray_encode hx _ _ _
  rw [create, hid, Except.bind_ok, Except.bind_eq_ok]
  exact exists_congr fun sig => and_congr_right fun _ => ⟨fun h => (Except.ok.inj h).symm,
    fun h => h ▸ rfl⟩

/-- A signer that signs creates events of all fields. -/
theorem exists_create (hx : C.hex.RoundTrips) {signer : Signer} (hs : signer.Signs)
    (kind : UInt32) (tags : List Tag) (content : String) (createdAt : Int64) :
    ∃ e, create C signer kind tags content createdAt = .ok e := by
  obtain ⟨sig, hsig⟩ := hs (C.sha256 (utf8 (C.json.toString
    (idJson (C.hex.encode signer.publicKey.1) createdAt kind tags content))))
  exact ⟨_, (create_eq_ok hx).2 ⟨sig, hsig, rfl⟩⟩

/-- An event signed under its own key verifies. -/
theorem verify_of_signed (hx : C.hex.RoundTrips) {signer : Signer} (hs : signer.Verifiable C)
    {kind : UInt32} {tags : List Tag} {content : String} {createdAt : Int64}
    (h : create C signer kind tags content createdAt = .ok e) : e.verify C = true := by
  obtain ⟨sig, hsig, rfl⟩ := (create_eq_ok hx).1 h
  exact verify_eq_true_iff.2 ⟨rfl, _, sig, signer.publicKey, hx _, hx _, hx _, hs _ _ hsig⟩

theorem encodable_idJson (pubkey : String) (createdAt : Int64) (kind : UInt32) (tags : List Tag)
    (content : String) (d : Nat) :
    (idJson pubkey createdAt kind tags content).Encodable (d + 3) := by
  simp only [idJson, Json.Encodable, List.mem_cons, List.not_mem_nil, or_false]
  rintro v (rfl | rfl | rfl | rfl | rfl | rfl)
  · simp [Json.Encodable]
  · trivial
  · exact encodable_i64 _ _
  · exact encodable_u32 _ _
  · exact encodable_tagsJson _ _
  · trivial

/-- The canonical document determines the fields. -/
theorem idJson_inj {e e' : Event}
    (h : idJson e.pubkey e.createdAt e.kind e.tags e.content =
      idJson e'.pubkey e'.createdAt e'.kind e'.tags e'.content) :
    e.pubkey = e'.pubkey ∧ e.createdAt = e'.createdAt ∧ e.kind = e'.kind ∧ e.tags = e'.tags ∧
      e.content = e'.content := by
  simp only [idJson, Json.arr.injEq, List.cons.injEq, Json.str.injEq, Json.num.injEq, and_true,
    true_and] at h
  obtain ⟨hpubkey, hdate, hkind, htags, hcontent⟩ := h
  have htags : asTags (tagsJson e.tags) = asTags (tagsJson e'.tags) := htags ▸ rfl
  rw [asTags_tagsJson, asTags_tagsJson] at htags
  exact ⟨hpubkey, Int64.toInt_inj.1 hdate, UInt32.toNat_inj.1 (Int.ofNat.inj hkind),
    Option.some.inj htags, hcontent⟩

/-- The bytes an event id is the hash of. -/
def idBytes (C : Crates) (e : Event) : Bytes :=
  utf8 (C.json.toString (idJson e.pubkey e.createdAt e.kind e.tags e.content))

/-- Events with the same id have the same fields, if the id is the recomputed one
    for both and the hash does not collide on them. -/
theorem fields_eq_of_id_eq (hx : C.hex.RoundTrips) (hj : C.json.RoundTrips) {e' : Event}
    (he : calculateId C e.pubkey e.createdAt e.kind e.tags e.content = e.id)
    (he' : calculateId C e'.pubkey e'.createdAt e'.kind e'.tags e'.content = e'.id)
    (hid : e.id = e'.id)
    (hsha : C.sha256 (e.idBytes C) = C.sha256 (e'.idBytes C) → e.idBytes C = e'.idBytes C) :
    e.pubkey = e'.pubkey ∧ e.createdAt = e'.createdAt ∧ e.kind = e'.kind ∧ e.tags = e'.tags ∧
      e.content = e'.content := by
  have hhash : C.sha256 (e.idBytes C) = C.sha256 (e'.idBytes C) := by
    have h : C.hex.encode (C.sha256 (e.idBytes C)).1 = C.hex.encode (C.sha256 (e'.idBytes C)).1 :=
      he.trans (hid.trans he'.symm)
    have hdecode := hx (C.sha256 (e.idBytes C)).1
    rw [h, hx] at hdecode
    exact Subtype.ext (Except.ok.inj hdecode).symm
  have htext := congrArg fromUtf8 (hsha hhash)
  rw [idBytes, idBytes, fromUtf8_utf8, fromUtf8_utf8] at htext
  refine idJson_inj (Except.ok.inj ((hj _ (encodable_idJson _ _ _ _ _ 124)).1.symm.trans ?_))
  rw [Option.some.inj htext]
  exact (hj _ (encodable_idJson _ _ _ _ _ 124)).1

theorem ofFields_members (e : Event) : ofFields (.str e.id) (.str e.pubkey)
    (.num e.createdAt.toInt) (.num e.kind.toNat) (tagsJson e.tags) (.str e.content) (.str e.sig) =
      some e := by
  simp [ofFields, Json.asStr, asI64_num, asU32_num, asTags_tagsJson]

/-- The document of an event decodes to the event. -/
theorem ofJson_toJson (e : Event) : ofJson e.toJson = some e :=
  ofFields_members e

theorem encodable_members (d : Nat) (e : Event) : ∀ m ∈ e.members, m.2.Encodable (d + 2) := by
  simp only [members, List.mem_cons, List.not_mem_nil, or_false]
  rintro m (rfl | rfl | rfl | rfl | rfl | rfl | rfl)
  · trivial
  · trivial
  · exact encodable_i64 _ _
  · exact encodable_u32 _ _
  · exact encodable_tagsJson _ _
  · trivial
  · trivial

theorem encodable_toJson (d : Nat) (e : Event) : e.toJson.Encodable (d + 3) := by
  rw [toJson, Json.Encodable]
  exact encodable_members d e

/-- The value of an event decodes to the event. -/
theorem ofValue_toValue (e : Event) : ofValue e.toValue = some e := by
  have hnames : (e.members.map Prod.fst).Nodup :=
    (show ["id", "pubkey", "created_at", "kind", "tags", "content", "sig"].Nodup by decide)
  have hget : ∀ k v, (k, v) ∈ e.members →
      Json.lastMember (Json.sortedMembers e.members) k = some v :=
    fun _ _ h => Json.lastMember_sortedMembers hnames h
  rw [toValue, Json.sortedObj, ofValue, ofMembers, hget "id" (.str e.id) (by simp [members]),
    hget "pubkey" (.str e.pubkey) (by simp [members]),
    hget "created_at" (.num e.createdAt.toInt) (by simp [members]),
    hget "kind" (.num e.kind.toNat) (by simp [members]),
    hget "tags" (tagsJson e.tags) (by simp [members]),
    hget "content" (.str e.content) (by simp [members]),
    hget "sig" (.str e.sig) (by simp [members])]
  exact ofFields_members e

theorem encodable_toValue (d : Nat) (e : Event) : e.toValue.Encodable (d + 3) :=
  Json.encodable_sortedObj (encodable_members d e)

end Event

end UnicityNostr
