import Std.Data.TreeMap
import UnicityNostr.Filter
import UnicityNostr.Nametag

/-!
# Nametag and identity bindings

Binding events (kind 30078) state which nametag and which addresses belong to a
public key. Their content is a JSON document, and their tags carry the salted
hashes relays index.

`resolveFiltered` selects the owner among the binding events a relay returned:
per author, the latest counted event is the author's current binding, marked
current bindings are preferred, and exactly one author must be left.

* `createBindingEvent_eq_ok`: the event a created binding is;
* `isValidBindingEvent_created`: a created binding is valid unless its address is
  empty.
-/

namespace UnicityNostr.Binding

open Nametag

/-- Extended identity fields of a richer binding. -/
structure IdentityBindingParams where
  publicKey : Option String := none
  l1Address : Option String := none
  directAddress : Option String := none
  proxyAddress : Option String := none

/-- Parsed binding information. -/
structure BindingInfo where
  transportPubkey : String
  publicKey : Option String := none
  l1Address : Option String := none
  directAddress : Option String := none
  proxyAddress : Option String := none
  nametag : Option String := none
  timestamp : Int64
  deriving DecidableEq

/-- The content of a nametag binding. -/
structure BindingContent where
  nametagHash : String
  address : String
  verified : Int64
  encryptedNametag : Option String
  nametag : Option String
  publicKey : Option String
  l1Address : Option String
  directAddress : Option String
  proxyAddress : Option String

/-- The member of an optional string, left out if absent. -/
def strMember (name : String) (value : Option String) : List (String × Json) :=
  (value.map fun s => (name, Json.str s)).toList

/-- The members of the optional identity fields. -/
def identityMembers (publicKey l1Address directAddress proxyAddress : Option String) :
    List (String × Json) :=
  strMember "public_key" publicKey ++ strMember "l1_address" l1Address ++
    strMember "direct_address" directAddress ++ strMember "proxy_address" proxyAddress

/-- The document of the content of a nametag binding. -/
def BindingContent.toJson (c : BindingContent) : Json :=
  .obj (("nametag_hash", .str c.nametagHash) :: ("address", .str c.address) ::
    ("verified", .num c.verified.toInt) :: (strMember "encrypted_nametag" c.encryptedNametag ++
      strMember "nametag" c.nametag ++
      identityMembers c.publicKey c.l1Address c.directAddress c.proxyAddress))

variable (C : Crates)

/-! ## Creating bindings -/

/-- The tags of the identity fields of a nametag binding. -/
def identityTags (id : IdentityBindingParams) : List Tag :=
  (match id.publicKey with
    | some pk => [["t", hashAddressForTag C pk], ["pubkey", pk]]
    | none => []) ++
  (match id.l1Address with
    | some l1 => [["t", hashAddressForTag C l1], ["l1", l1]]
    | none => []) ++
  (match id.directAddress with
    | some da => [["t", hashAddressForTag C da]]
    | none => []) ++
  match id.proxyAddress with
    | some pa => [["t", hashAddressForTag C pa]]
    | none => []

/-- The tags of a nametag binding. -/
def bindingTags (hashed unicityAddress : String) (identity : Option IdentityBindingParams) :
    List Tag :=
  [["d", hashed], ["L", nametagMarkerLabel], ["nametag", hashed], ["t", hashed],
    ["address", unicityAddress], ["t", hashAddressForTag C unicityAddress]] ++
    match identity with
    | some id => identityTags C id
    | none => []

/-- The content of a nametag binding; the plaintext nametag and the encrypted
    one are embedded with an identity only. -/
def bindingContent (nametagId hashed unicityAddress : String) (verified : Int64)
    (identity : Option IdentityBindingParams) (encryptedNametag : Option String) :
    BindingContent where
  nametagHash := hashed
  address := unicityAddress
  verified := verified
  encryptedNametag := identity.bind fun _ => encryptedNametag
  nametag := identity.map fun _ => nametagId
  publicKey := identity.bind (·.publicKey)
  l1Address := identity.bind (·.l1Address)
  directAddress := identity.bind (·.directAddress)
  proxyAddress := identity.bind (·.proxyAddress)

/-- A signed nametag binding, carrying the ownership marker. -/
def createBindingEvent (signer : Signer) (nametagId unicityAddress : String)
    (verified createdAt : Int64) (identity : Option IdentityBindingParams)
    (encryptedNametag : Option String) : Result Event :=
  if !isValidNametag C nametagId then .error (.malformed "invalid nametag")
  else
    let hashed := hashNametag C nametagId
    let tags := bindingTags C hashed unicityAddress identity
    let content := bindingContent nametagId hashed unicityAddress verified identity encryptedNametag
    Event.create C signer Kinds.appData tags (C.json.toString content.toJson) createdAt

/-- A signed identity binding, without a nametag; its `d` tag is a hash of the
    public key, so that a key has exactly one. -/
def createIdentityBindingEvent (signer : Signer) (identity : IdentityBindingParams)
    (createdAt : Int64) : Result Event :=
  let nostrPubkey := C.hex.encode signer.publicKey.1
  let dTag := sha256Hex C ("unicity:identity:" ++ nostrPubkey)
  let addrs := [identity.publicKey, identity.l1Address, identity.directAddress,
    identity.proxyAddress].filterMap id
  let tags := ["d", dTag] :: addrs.map fun addr => ["t", hashAddressForTag C addr]
  let content := C.json.toString (.obj (identityMembers identity.publicKey identity.l1Address
    identity.directAddress identity.proxyAddress))
  Event.create C signer Kinds.appData tags content createdAt

/-! ## Querying bindings -/

/-- The filter for the bindings of a nametag. -/
def createNametagToPubkeyFilter (nametagId : String) : Filter :=
  ((Filter.builder.kind Kinds.appData).tTags [hashNametag C nametagId]).build

/-- The filter for the bindings of an address. -/
def createAddressToBindingFilter (address : String) : Filter :=
  ((Filter.builder.kind Kinds.appData).tTags [hashAddressForTag C address]).build

/-- The filter for the bindings of a public key. -/
def createPubkeyToNametagFilter (nostrPubkey : String) : Filter :=
  (((Filter.builder.kind Kinds.appData).authors [nostrPubkey]).limit 10).build

/-- Multiplication that stops at the bounds: `saturating_mul`. -/
def saturatingMul (a b : Int64) : Int64 :=
  let product := a.toInt * b.toInt
  if product < -2 ^ 63 then Int64.minValue
  else if product < 2 ^ 63 then Int64.ofInt product
  else Int64.maxValue

/-- The binding information of the content of an event, as far as there is any. -/
def parseBindingInfo (event : Event) : BindingInfo :=
  let ts := saturatingMul event.createdAt 1000
  let get (v : Json) (k : String) := (v.get? k).bind Json.asStr
  match C.json.fromStr event.content with
  | .ok content =>
    { transportPubkey := event.pubkey, publicKey := get content "public_key",
      l1Address := get content "l1_address", directAddress := get content "direct_address",
      proxyAddress := get content "proxy_address", nametag := get content "nametag",
      timestamp := ts }
  | .error _ => { transportPubkey := event.pubkey, timestamp := ts }

/-- Whether a member of a document is a string other than the empty one. -/
def hasText (content : Json) (k : String) : Bool :=
  ((content.get? k).bind Json.asStr).any fun s => !s.isEmpty

/-- Whether the event is a binding event: its kind, its `d` tag, its content,
    and its signature. -/
def isValidBindingEvent (event : Event) : Bool :=
  if event.kind ≠ Kinds.appData ∨ (event.tagValue "d").isNone then false
  else
    let okContent :=
      match C.json.fromStr event.content with
      | .ok c => hasText c "nametag_hash" && hasText c "address"
      | .error _ => false
    okContent && event.verify C

/-! ## Selecting the owner -/

/-- One event more in the map from authors to the index of their latest event:
    of several equally late ones, the first counts. -/
def fileLatest (events : List Event) (latest : Std.TreeMap String Nat) (ev : Event) (i : Nat) :
    Std.TreeMap String Nat :=
  latest.alter ev.pubkey fun
    | none => some i
    | some idx => some (if events[idx]?.any (ev.createdAt > ·.createdAt) then i else idx)

/-- The index of the latest event of each author that is to be included. -/
def latestIndices (events : List Event) (incl : Event → Bool) : Std.TreeMap String Nat :=
  events.zipIdx.foldl (fun latest (ev, i) =>
    if incl ev then fileLatest events latest ev i else latest) {}

/-- The owner among the events that are to be included: the marked current
    bindings are preferred, and exactly one must be left. -/
def resolveFiltered (events : List Event) (incl : Event → Bool) : Option Event :=
  let latest := (latestIndices events incl).toList.map Prod.snd
  let marked := latest.filter fun idx => events[idx]?.any hasOwnershipMarker
  let owners := if marked.isEmpty then latest else marked
  match owners with
  | [idx] => events[idx]?
  | _ => none

/-- The owner among events of which only the signatures are checked. -/
def resolveOwner (events : List Event) : Option Event := resolveFiltered events (Event.verify C)

/-- The public key of the owner. -/
def resolvePubkey (events : List Event) : Option String :=
  (resolveOwner C events).map Event.pubkey

/-- Whether an event counts for a nametag: a binding event with its `d` tag. -/
def countsFor (nametagId : String) (ev : Event) : Bool :=
  isValidBindingEvent C ev && ev.tagValue "d" == some (hashNametag C nametagId)

/-- The owner of a nametag among the events that count for it. -/
def resolveNametagOwner (events : List Event) (nametagId : String) : Option Event :=
  resolveFiltered events (countsFor C nametagId)

/-- The public key of the owner of a nametag. -/
def resolveNametagPubkey (events : List Event) (nametagId : String) : Option String :=
  (resolveNametagOwner C events nametagId).map Event.pubkey

/-! ## Created bindings -/

theorem eq_of_mem_strMember {name : String} {value : Option String} {m : String × Json}
    (h : m ∈ strMember name value) : ∃ s, m = (name, .str s) := by
  obtain ⟨s, -, rfl⟩ : ∃ s, value = some s ∧ (name, Json.str s) = m := by
    simpa [strMember, Option.mem_toList] using h
  exact ⟨s, rfl⟩

/-- The optional members of the content are strings under names of their own. -/
theorem mem_optional {c : BindingContent} {m : String × Json}
    (h : m ∈ strMember "encrypted_nametag" c.encryptedNametag ++ strMember "nametag" c.nametag ++
      identityMembers c.publicKey c.l1Address c.directAddress c.proxyAddress) :
    m.1 ∈ ["encrypted_nametag", "nametag", "public_key", "l1_address", "direct_address",
      "proxy_address"] ∧ ∃ s, m.2 = .str s := by
  simp only [identityMembers, List.mem_append] at h
  rcases h with (h | h) | ((h | h) | h) | h <;> obtain ⟨s, rfl⟩ := eq_of_mem_strMember h <;> simp

variable {C}

theorem get?_nametagHash (c : BindingContent) :
    c.toJson.get? "nametag_hash" = some (.str c.nametagHash) := by
  refine Json.lastMember_cons_self fun m hm hname => ?_
  rcases List.mem_cons.1 hm with rfl | hm
  · exact (show "address" ≠ "nametag_hash" by decide) hname
  rcases List.mem_cons.1 hm with rfl | hm
  · exact (show "verified" ≠ "nametag_hash" by decide) hname
  · exact absurd (hname ▸ (mem_optional hm).1) (by decide)

theorem get?_address (c : BindingContent) : c.toJson.get? "address" = some (.str c.address) := by
  rw [BindingContent.toJson, Json.get?, Json.lastMember_cons_of_ne (by decide)]
  refine Json.lastMember_cons_self fun m hm hname => ?_
  rcases List.mem_cons.1 hm with rfl | hm
  · exact (show "verified" ≠ "address" by decide) hname
  · exact absurd (hname ▸ (mem_optional hm).1) (by decide)

theorem encodable_toJson (d : Nat) (c : BindingContent) : c.toJson.Encodable (d + 1) := by
  rw [BindingContent.toJson, Json.Encodable]
  intro m hm
  rcases List.mem_cons.1 hm with rfl | hm
  · exact Json.encodable_str _ _
  rcases List.mem_cons.1 hm with rfl | hm
  · exact Json.encodable_str _ _
  rcases List.mem_cons.1 hm with rfl | hm
  · exact encodable_i64 _ _
  · obtain ⟨s, hs⟩ := (mem_optional hm).2
    rw [hs]
    exact Json.encodable_str _ _

/-- What creating a binding does, for a valid nametag. -/
theorem createBindingEvent_eq_ok {signer : Signer} {nametagId unicityAddress : String}
    {verified createdAt : Int64} {identity : Option IdentityBindingParams}
    {encryptedNametag : Option String} {e : Event} :
    createBindingEvent C signer nametagId unicityAddress verified createdAt identity
        encryptedNametag = .ok e ↔
      isValidNametag C nametagId = true ∧ Event.create C signer Kinds.appData
        (bindingTags C (hashNametag C nametagId) unicityAddress identity)
        (C.json.toString (bindingContent nametagId (hashNametag C nametagId) unicityAddress
          verified identity encryptedNametag).toJson) createdAt = .ok e := by
  unfold createBindingEvent
  cases isValidNametag C nametagId <;> simp

section

variable {signer : Signer} {nametagId unicityAddress : String}
  {verified createdAt : Int64} {identity : Option IdentityBindingParams}
  {encryptedNametag : Option String} {e : Event}
  (h : createBindingEvent C signer nametagId unicityAddress verified createdAt identity
    encryptedNametag = .ok e)

include h

/-- The fields of a created binding. -/
theorem fields_of_created : e.pubkey = C.hex.encode signer.publicKey.1 ∧
    e.createdAt = createdAt ∧ e.kind = Kinds.appData ∧
    e.tags = bindingTags C (hashNametag C nametagId) unicityAddress identity ∧
    e.content = C.json.toString (bindingContent nametagId (hashNametag C nametagId) unicityAddress
      verified identity encryptedNametag).toJson :=
  Event.fields_of_create (createBindingEvent_eq_ok.1 h).2

/-- The first `d` tag of a created binding is the hash of its nametag. -/
theorem tagValue_d_of_created : e.tagValue "d" = some (hashNametag C nametagId) := by
  obtain ⟨-, -, -, htags, -⟩ := fields_of_created h
  rw [Event.tagValue, htags]
  rfl

/-- The address of a created binding. -/
theorem tagValue_address_of_created : e.tagValue "address" = some unicityAddress := by
  obtain ⟨-, -, -, htags, -⟩ := fields_of_created h
  rw [Event.tagValue, htags]
  rfl

/-- The events created as bindings are valid unless the address is empty. -/
theorem isValidBindingEvent_created (hx : C.hex.RoundTrips) (h2 : C.hex.TwoDigits)
    (hj : C.json.RoundTrips) (hs : signer.Verifiable C) :
    isValidBindingEvent C e = true ↔ unicityAddress ≠ "" := by
  obtain ⟨-, -, hkind, -, hcontent⟩ := fields_of_created h
  have hverify : e.verify C = true :=
    Event.verify_of_signed hx hs (createBindingEvent_eq_ok.1 h).2
  have hhash : hashNametag C nametagId ≠ "" := hashNametag_ne_empty h2
  rw [isValidBindingEvent, if_neg (by simp [hkind, tagValue_d_of_created h]), hcontent,
    (hj _ (encodable_toJson 126 _)).1, hverify]
  simp only [hasText, get?_nametagHash, get?_address]
  simp [bindingContent, Json.asStr, hhash]

/-- A created binding counts for its nametag unless the address is empty. -/
theorem countsFor_created (hx : C.hex.RoundTrips) (h2 : C.hex.TwoDigits) (hj : C.json.RoundTrips)
    (hs : signer.Verifiable C) : countsFor C nametagId e = true ↔ unicityAddress ≠ "" := by
  rw [countsFor, Bool.and_eq_true, isValidBindingEvent_created h hx h2 hj hs,
    tagValue_d_of_created h]
  simp

/-- A created binding carries the ownership marker. -/
theorem hasOwnershipMarker_created : hasOwnershipMarker e = true := by
  obtain ⟨-, -, -, htags, -⟩ := fields_of_created h
  rw [hasOwnershipMarker, htags]
  rfl

end

end UnicityNostr.Binding
