import UnicityNostr.Reference

/-!
# Published bindings are found and read

What is written into a binding is what the three filters look for, and what the
reader gives back: a binding is found by every spelling of its nametag, by its
addresses, and by the key of its signer, and its content reads as the identity it
was created with.

* `matches_tFilter_iff`, `matches_pubkeyFilter`: what the filters look for;
* `toInt_saturatingMul`: timestamps stop at the bounds of 64 bits;
* `published`: all this for both kinds of bindings.
-/

namespace UnicityNostr.Binding

open Nametag

variable {C : Crates}

/-! ## What the filters look for -/

/-- The filters for a hash look for a `t` tag with it. -/
theorem matches_tFilter_iff {value : String} {e : Event} :
    ((Filter.builder.kind Kinds.appData).tTags [value]).build.matches e = true ↔
      e.kind = Kinds.appData ∧ ∃ t ∈ e.tags, t.head? = some "t" ∧ t[1]? = some value := by
  simp [Filter.matches, Filter.prefixMatches, Filter.tagMatches, FilterBuilder.build,
    FilterBuilder.tTags, FilterBuilder.kind, Filter.builder, Option.any_eq_true]

/-- The filter for a key looks for its events. -/
theorem matches_pubkeyFilter {e : Event} (hkind : e.kind = Kinds.appData) :
    (createPubkeyToNametagFilter e.pubkey).matches e = true := by
  simp [Filter.matches, Filter.prefixMatches, Filter.tagMatches, FilterBuilder.build,
    FilterBuilder.authors, FilterBuilder.kind, FilterBuilder.limit, Filter.builder,
    createPubkeyToNametagFilter, hkind]

/-- A nametag is hashed as its normal form. -/
theorem hashNametag_congr {s t : String} (h : normalizeNametag C s = normalizeNametag C t) :
    hashNametag C s = hashNametag C t := by
  rw [hashNametag, hashNametag, h]

/-! ## What the reader gives back -/

theorem lastMember_strMember (name : String) (value : Option String) (k : String) :
    Json.lastMember (strMember name value) k = if name = k then value.map .str else none := by
  cases value <;> by_cases h : name = k <;> simp [strMember, Json.lastMember, h]

/-- The product, within the bounds of 64 bits. -/
theorem toInt_saturatingMul (a b : Int64) :
    (saturatingMul a b).toInt = max (-2 ^ 63) (min (2 ^ 63 - 1) (a.toInt * b.toInt)) := by
  unfold saturatingMul
  dsimp only
  split_ifs with hlow hhigh
  · rw [Int64.toInt_minValue]
    omega
  · rw [Int64.toInt_ofInt_of_le (by omega) (by omega)]
    omega
  · rw [Int64.toInt_maxValue]
    omega

/-- The identity fields of the reader, from an object that ends with them. -/
theorem parseBindingInfo_eq {e : Event} {ms : List (String × Json)} {nametag : Option String}
    {identity : IdentityBindingParams} (hcontent : C.json.fromStr e.content = .ok (.obj (ms ++
      (strMember "nametag" nametag ++ identityMembers identity.publicKey identity.l1Address
        identity.directAddress identity.proxyAddress))))
    (hms : ∀ k ∈ ["public_key", "l1_address", "direct_address", "proxy_address", "nametag"],
      Json.lastMember ms k = none) :
    parseBindingInfo C e =
      { transportPubkey := e.pubkey, publicKey := identity.publicKey,
        l1Address := identity.l1Address, directAddress := identity.directAddress,
        proxyAddress := identity.proxyAddress, nametag := nametag,
        timestamp := saturatingMul e.createdAt 1000 } := by
  have hstr : ∀ value : Option String, (value.map Json.str).bind Json.asStr = value := by
    rintro (_ | s)
    · rfl
    · rfl
  simp only [List.forall_mem_cons, List.not_mem_nil, false_imp_iff, implies_true,
    and_true] at hms
  simp only [parseBindingInfo, hcontent, Json.get?, identityMembers, Json.lastMember_append,
    lastMember_strMember, hms, String.reduceEq, if_true, if_false, Option.or_none, Option.none_or,
    hstr]

/-- The content of a nametag binding ends with its nametag and its identity. -/
theorem toJson_bindingContent {nametagId hashed unicityAddress : String} {verified : Int64}
    {identity : Option IdentityBindingParams} {encryptedNametag : Option String} :
    (bindingContent nametagId hashed unicityAddress verified identity encryptedNametag).toJson =
      .obj (([("nametag_hash", .str hashed), ("address", .str unicityAddress),
        ("verified", .num verified.toInt)] ++
          strMember "encrypted_nametag" (identity.bind fun _ => encryptedNametag)) ++
        (strMember "nametag" (identity.map fun _ => nametagId) ++
          identityMembers (identity.getD {}).publicKey (identity.getD {}).l1Address
            (identity.getD {}).directAddress (identity.getD {}).proxyAddress)) := by
  rcases identity with _ | identity
  · rfl
  · simp [BindingContent.toJson, bindingContent, List.append_assoc]

/-! ## Published bindings -/

/-- The fields of an identity that are present. -/
def IdentityBindingParams.addresses (identity : IdentityBindingParams) : List String :=
  [identity.publicKey, identity.l1Address, identity.directAddress,
    identity.proxyAddress].filterMap id

/-- What is to be read of a binding: its signer, its date in milliseconds within the
    bounds of 64 bits, its nametag, and its identity. -/
def publishedInfo (C : Crates) (signer : LocalSigner C) (createdAt : Int64)
    (nametag : Option String) (identity : IdentityBindingParams) : BindingInfo where
  transportPubkey := C.hex.encode signer.keypair.xonly.1
  publicKey := identity.publicKey
  l1Address := identity.l1Address
  directAddress := identity.directAddress
  proxyAddress := identity.proxyAddress
  nametag := nametag
  timestamp := .ofInt (max (-2 ^ 63) (min (2 ^ 63 - 1) (createdAt.toInt * 1000)))

/-- An event is found by addresses and by the key of its signer, and reads as
    binding information. -/
structure Published (C : Crates) (signer : LocalSigner C) (addresses : List String)
    (info : BindingInfo) (e : Event) : Prop where
  byAddress : ∀ x ∈ addresses, (createAddressToBindingFilter C x).matches e = true
  byKey : (createPubkeyToNametagFilter (C.hex.encode signer.keypair.xonly.1)).matches e = true
  reads : parseBindingInfo C e = info

theorem saturatingMul_eq (a : Int64) : saturatingMul a 1000 =
    .ofInt (max (-2 ^ 63) (min (2 ^ 63 - 1) (a.toInt * 1000))) := by
  have h := toInt_saturatingMul a 1000
  rw [← Int64.toInt_inj, h, Int64.toInt_ofInt_of_le (by omega) (by omega)]
  rfl

theorem mem_addresses {identity : IdentityBindingParams} {x : String} :
    x ∈ identity.addresses ↔ identity.publicKey = some x ∨ identity.l1Address = some x ∨
      identity.directAddress = some x ∨ identity.proxyAddress = some x := by
  simp only [IdentityBindingParams.addresses, List.mem_filterMap, List.mem_cons,
    List.not_mem_nil, or_false, id_eq, exists_eq_or_imp, exists_eq_left]

/-- Every address of an identity has its hash in a `t` tag of a nametag
    binding. -/
theorem mem_identityTags {identity : IdentityBindingParams} {x : String}
    (hx : x ∈ identity.addresses) : ["t", hashAddressForTag C x] ∈ identityTags C identity := by
  simp only [identityTags, List.mem_append]
  rcases mem_addresses.1 hx with h | h | h | h
  · simp [h]
  · simp [h]
  · simp [h]
  · simp [h]

/-- A nametag binding has a `t` tag of each of its addresses. -/
theorem mem_bindingTags {hashed unicityAddress x : String}
    {identity : Option IdentityBindingParams}
    (hx : x = unicityAddress ∨ ∃ id, identity = some id ∧ x ∈ id.addresses) :
    ["t", hashAddressForTag C x] ∈ bindingTags C hashed unicityAddress identity := by
  rcases hx with rfl | ⟨id, rfl, hx⟩
  · simp [bindingTags]
  · exact List.mem_append_right _ (mem_identityTags hx)

/-- A nametag binding is published with its address and its identity. -/
theorem published_of_created (hj : C.json.RoundTrips) {signer : LocalSigner C}
    {nametagId unicityAddress : String} {verified createdAt : Int64}
    {identity : Option IdentityBindingParams} {encryptedNametag : Option String} {e : Event}
    (h : createBindingEvent C signer.toSigner nametagId unicityAddress verified createdAt identity
      encryptedNametag = .ok e) :
    Published C signer (unicityAddress :: (identity.map (·.addresses)).getD [])
      (publishedInfo C signer createdAt (identity.map fun _ => nametagId) (identity.getD {}))
      e := by
  obtain ⟨hpubkey, hcreated, hkind, htags, hcontent⟩ := fields_of_created h
  refine ⟨?_, ?_, ?_⟩
  · intro x hx
    refine matches_tFilter_iff.2 ⟨hkind, ["t", hashAddressForTag C x], ?_, rfl, rfl⟩
    rw [htags]
    refine mem_bindingTags ?_
    rcases identity with _ | identity
    · exact .inl (List.mem_singleton.1 hx)
    · exact (List.mem_cons.1 hx).imp_right fun hx => ⟨identity, rfl, hx⟩
  · rw [← matches_pubkeyFilter hkind, hpubkey]
    rfl
  · have hread := (hj _ (encodable_toJson 126 (bindingContent nametagId (hashNametag C nametagId)
      unicityAddress verified identity encryptedNametag))).1
    rw [← hcontent, toJson_bindingContent] at hread
    rw [parseBindingInfo_eq hread fun k hk => ?_, hpubkey, hcreated, saturatingMul_eq]
    · rfl
    -- The members before these have other names.
    · rw [Json.lastMember_append, lastMember_strMember]
      simp only [List.mem_cons, List.not_mem_nil, or_false] at hk
      rcases hk with rfl | rfl | rfl | rfl | rfl <;> simp [Json.lastMember]

/-- An identity binding is published with its identity. -/
theorem published_of_createdIdentity (hj : C.json.RoundTrips) {signer : LocalSigner C}
    {identity : IdentityBindingParams} {createdAt : Int64} {e : Event}
    (h : createIdentityBindingEvent C signer.toSigner identity createdAt = .ok e) :
    Published C signer identity.addresses (publishedInfo C signer createdAt none identity) e := by
  obtain ⟨hpubkey, hcreated, hkind, htags, hcontent⟩ := Event.fields_of_create h
  refine ⟨?_, ?_, ?_⟩
  · intro x hx
    refine matches_tFilter_iff.2 ⟨hkind, ["t", hashAddressForTag C x], ?_, rfl, rfl⟩
    rw [htags]
    exact List.mem_cons_of_mem _ (List.mem_map_of_mem hx)
  · rw [← matches_pubkeyFilter hkind, hpubkey]
    rfl
  · have hread := (hj (.obj (identityMembers identity.publicKey identity.l1Address
      identity.directAddress identity.proxyAddress)) ?_).1
    · rw [← hcontent] at hread
      have hmembers : C.json.fromStr e.content = .ok (.obj ([] ++ (strMember "nametag" none ++
          identityMembers identity.publicKey identity.l1Address identity.directAddress
            identity.proxyAddress))) := hread
      rw [parseBindingInfo_eq hmembers fun _ _ => rfl, hpubkey, hcreated, saturatingMul_eq]
      rfl
    · rw [Json.Encodable]
      intro m hm
      simp only [identityMembers, List.mem_append] at hm
      rcases hm with ((hm | hm) | hm) | hm <;> obtain ⟨s, rfl⟩ := eq_of_mem_strMember hm <;>
        exact Json.encodable_str _ _

/-- A published binding of either kind is found by every spelling of its nametag, by
    its addresses and by the key of its signer, and reads as what it was created
    with. -/
theorem published (hj : C.json.RoundTrips) (signer : LocalSigner C) (createdAt : Int64) :
    (∀ nametagId unicityAddress verified identity encryptedNametag e,
      createBindingEvent C signer.toSigner nametagId unicityAddress verified createdAt identity
        encryptedNametag = .ok e →
      (∀ m, normalizeNametag C m = normalizeNametag C nametagId →
        (createNametagToPubkeyFilter C m).matches e = true) ∧
      Published C signer (unicityAddress :: (identity.map (·.addresses)).getD [])
        (publishedInfo C signer createdAt (identity.map fun _ => nametagId) (identity.getD {})) e) ∧
    ∀ identity e, createIdentityBindingEvent C signer.toSigner identity createdAt = .ok e →
      Published C signer identity.addresses (publishedInfo C signer createdAt none identity) e := by
  refine ⟨fun nametagId unicityAddress verified identity encryptedNametag e h => ⟨fun m hm => ?_,
    published_of_created hj h⟩, fun identity e h => published_of_createdIdentity hj h⟩
  obtain ⟨-, -, hkind, htags, -⟩ := fields_of_created h
  refine matches_tFilter_iff.2 ⟨hkind, ["t", hashNametag C nametagId], ?_, rfl,
    congrArg some (hashNametag_congr hm).symm⟩
  simp [htags, bindingTags]

/-- A binding of `alice` with an L1 address, whose date exceeds 64 bits in
    milliseconds. -/
theorem published_alice :
    ∃ e, createBindingEvent Reference.crates (Reference.signer Reference.one).toSigner "alice"
        "DIRECT://one" 5 Int64.maxValue (some { l1Address := some "alpha1" }) none = .ok e ∧
      (createAddressToBindingFilter Reference.crates "alpha1").matches e = true ∧
      parseBindingInfo Reference.crates e =
        { transportPubkey := Reference.crates.hex.encode
            (Reference.signer Reference.one).keypair.xonly.1,
          l1Address := some "alpha1", nametag := some "alice", timestamp := Int64.maxValue } := by
  have hn : Nametag.isValidNametag Reference.crates "alice" = true := by decide
  obtain ⟨e, he⟩ := Reference.createBindingEvent_eq_ok Reference.one hn "DIRECT://one" 5
    Int64.maxValue (some { l1Address := some "alpha1" }) none
  obtain ⟨-, hpublished⟩ := (published Reference.json_roundTrips (Reference.signer Reference.one)
    Int64.maxValue).1 _ _ _ _ _ _ he
  exact ⟨e, he, hpublished.byAddress _ (by decide), hpublished.reads⟩

end UnicityNostr.Binding
