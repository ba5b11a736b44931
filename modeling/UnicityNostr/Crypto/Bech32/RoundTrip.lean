import UnicityNostr.Crypto.Bech32.Checksum

/-!
# Texts of byte strings

Encoding and decoding are mutually inverse. A text is accepted exactly if it is, in
lower case, the text of what it is decoded to (`decode_iff`): the symbols are read
off the charset, the last separator is the one before them, and there is one
checksum for the data.

* `readSymbol_iff`, `mapM_utf8_iff`: values and the bytes of their symbols;
* `splitLast_iff`: the last separator;
* `encode_iff`, `decode_iff`: what is encoded, and what is decoded;
* `mutually_inverse`: texts, public keys and secret keys.
-/

namespace UnicityNostr.Bech32

open Unicode

/-! ## Symbols -/

/-- The text of a list of values. -/
def text (values : Bytes) : String := String.ofList (values.map symbol)

/-- The byte of the symbol of a value. -/
def symbolByte (v : UInt8) : UInt8 := charset.getD v.toNat 0

/-- The value of the symbol with a byte. -/
def readSymbol (ch : UInt8) : Option UInt8 := (charset.idxOf? ch).map UInt8.ofNat

variable {v ch : UInt8}

/-- A fact about all values below 32 is checked value by value. -/
theorem forall_fits {P : UInt8 → Prop} (h : ∀ n < 32, P (UInt8.ofNat n)) (hv : v.toNat < 2 ^ 5) :
    P v := UInt8.ofNat_toNat (x := v) ▸ h v.toNat hv

theorem utf8EncodeChar_symbol (hv : v.toNat < 2 ^ 5) :
    String.utf8EncodeChar (symbol v) = [symbolByte v] :=
  forall_fits (P := fun v => String.utf8EncodeChar (symbol v) = [symbolByte v]) (by decide) hv

/-- No symbol is the separator, and none is a capital letter. -/
theorem symbol_ne_separator (hv : v.toNat < 2 ^ 5) :
    symbol v ≠ '1' ∧ (symbol v).toLower = symbol v :=
  forall_fits (P := fun v => symbol v ≠ '1' ∧ (symbol v).toLower = symbol v) (by decide) hv

/-- The values of the symbols. -/
theorem readSymbol_iff : readSymbol ch = some v ↔ v.toNat < 2 ^ 5 ∧ ch = symbolByte v := by
  have hlen : charset.length = 32 := by decide
  constructor
  · intro h
    obtain ⟨i, hi, rfl⟩ := Option.map_eq_some_iff.1 h
    obtain ⟨hlt, rfl, -⟩ := List.idxOf?_eq_some_iff.1 hi
    rw [hlen] at hlt
    have hnat : (UInt8.ofNat i).toNat = i := UInt8.toNat_ofNat_of_lt' (show i < 2 ^ 8 by omega)
    refine ⟨by rwa [hnat], ?_⟩
    rw [symbolByte, hnat, List.getD_eq_getElem?_getD, List.getElem?_eq_getElem, Option.getD_some]
  · rintro ⟨hv, rfl⟩
    exact forall_fits (P := fun v => readSymbol (symbolByte v) = some v) (by decide) hv

variable {values : Bytes}

/-- The bytes of a text of symbols. -/
theorem utf8_text (h : Fits 5 values) : utf8 (text values) = values.map symbolByte := by
  rw [utf8_eq_flatMap, text, String.toList_ofList, List.flatMap_map, List.map_eq_flatMap]
  exact List.flatMap_congr fun v hv => utf8EncodeChar_symbol (h v hv)

/-- Reading the symbols of a text. -/
theorem mapM_readSymbol_iff {bs : Bytes} :
    bs.mapM readSymbol = some values ↔ Fits 5 values ∧ bs = values.map symbolByte := by
  induction bs generalizing values with
  | nil =>
    rcases values with _ | ⟨v, values⟩
    · simp [Fits]
    · simp
  | cons ch bs ih =>
    simp only [List.mapM_cons, Option.bind_eq_bind, Option.bind_eq_some_iff, readSymbol_iff, ih,
      Option.pure_def, Option.some.injEq]
    rcases values with _ | ⟨v, values⟩
    · simp
    · simp only [List.cons.injEq, Fits, List.forall_mem_cons, List.map_cons]
      constructor
      · rintro ⟨u, ⟨hu, rfl⟩, us, ⟨hus, rfl⟩, rfl, rfl⟩
        exact ⟨⟨hu, hus⟩, rfl, rfl⟩
      · rintro ⟨⟨hv, hvs⟩, rfl, rfl⟩
        exact ⟨v, ⟨hv, rfl⟩, values, ⟨hvs, rfl⟩, rfl, rfl⟩

/-- A text that reads as values is the text of the values. -/
theorem mapM_utf8_iff {s : String} :
    (utf8 s).mapM readSymbol = some values ↔ Fits 5 values ∧ s = text values := by
  rw [mapM_readSymbol_iff]
  refine and_congr_right fun hfits => ?_
  rw [← utf8_text hfits, utf8_injective.eq_iff]

/-! ## The separator -/

variable {c : Char} {l before after : List Char}

theorem splitLast_eq_none (hc : c ∉ l) : splitLast c l = none := by
  induction l with
  | nil => rfl
  | cons c' cs ih =>
    obtain ⟨hne, hcs⟩ := not_or.1 (mt List.mem_cons.2 hc)
    rw [splitLast, ih hcs]
    exact if_neg (Ne.symm hne)

theorem splitLast_append (hc : c ∉ after) (before : List Char) :
    splitLast c (before ++ c :: after) = some (before, after) := by
  induction before with
  | nil =>
    rw [List.nil_append, splitLast, splitLast_eq_none hc]
    exact if_pos rfl
  | cons c' before ih => rw [List.cons_append, splitLast, ih]

/-- The last separator is the first one from behind. -/
theorem exists_last (hc : c ∈ l) : ∃ before after, l = before ++ c :: after ∧ c ∉ after := by
  obtain ⟨after, before, hl, hafter⟩ := List.eq_append_cons_of_mem (List.mem_reverse.2 hc)
  refine ⟨before.reverse, after.reverse, ?_, by rwa [List.mem_reverse]⟩
  rw [← List.reverse_reverse l, hl, List.reverse_append, List.reverse_cons, List.append_assoc]
  rfl

/-- The parts before and after the last separator. -/
theorem splitLast_iff :
    splitLast c l = some (before, after) ↔ l = before ++ c :: after ∧ c ∉ after := by
  constructor
  · intro h
    by_cases hc : c ∈ l
    · obtain ⟨before', after', rfl, hafter⟩ := exists_last hc
      rw [splitLast_append hafter] at h
      cases h
      exact ⟨rfl, hafter⟩
    · rw [splitLast_eq_none hc] at h
      cases h
  · rintro ⟨rfl, hafter⟩
    exact splitLast_append hafter before

/-! ## What is encoded -/

/-- The length of a text, in bytes. -/
theorem length_utf8 (hrp : String) (h : Fits 5 values) :
    (utf8 (hrp ++ "1" ++ text values)).length = (utf8 hrp).length + 1 + values.length := by
  rw [utf8_append, utf8_append, utf8_text h, List.length_append, List.length_append,
    List.length_map]
  rfl

/-- A text consists of the prefix, the symbols of the data, and those of the
    checksum. -/
theorem encode_iff {hrp s : String} {data : Bytes} :
    encode hrp data = .ok s ↔ ∃ values, convertBits data 8 5 true = some values ∧
      hrp ++ "1" ++ text (values ++ createChecksum hrp values) = s := by
  rw [encode, Except.bind_eq_ok]
  refine exists_congr fun values => and_congr Except.okOr_eq_ok ?_
  exact Iff.of_eq (Except.ok.injEq _ _)

/-- Every byte string is encoded, with one symbol for five bits. -/
theorem encode_spec (hrp : String) (data : Bytes) :
    ∃ values, Fits 5 values ∧ values.length = (8 * data.length + 4) / 5 + 6 ∧
      encode hrp data = .ok (hrp ++ "1" ++ text values) := by
  obtain ⟨values, hvalues, hfits, hlen⟩ := convertBits_symbols data
  refine ⟨_, fits_append.2 ⟨hfits, fits_createChecksum hrp values⟩, ?_,
    encode_iff.2 ⟨values, hvalues, rfl⟩⟩
  rw [List.length_append, hlen, length_createChecksum]

/-- Capital letters are kept in the prefix, and nowhere else. -/
theorem toAsciiLowercase_text (hrp : String) (h : Fits 5 values) :
    toAsciiLowercase (hrp ++ "1" ++ text values) =
      toAsciiLowercase hrp ++ "1" ++ text values := by
  have hone : toAsciiLowercase "1" = "1" := toAsciiLowercase_eq_self (by simp)
  have htext : toAsciiLowercase (text values) = text values := by
    refine toAsciiLowercase_eq_self fun c hc => ?_
    rw [text, String.toList_ofList] at hc
    obtain ⟨v, hv, rfl⟩ := List.mem_map.1 hc
    exact (symbol_ne_separator (h v hv)).2
  rw [toAsciiLowercase_append, toAsciiLowercase_append, hone, htext]

/-! ## What is decoded -/

/-- The conditions a text is checked for. -/
theorem decode_eq_ok {s hrp : String} {data : Bytes} :
    decode s = .ok (hrp, data) ↔ ∃ chars values,
      splitLast '1' (toAsciiLowercase s).toList = some (hrp.toList, chars) ∧
      ¬ ((utf8 hrp).length < 1 ∨ (utf8 hrp).length + 7 > (utf8 (toAsciiLowercase s)).length ∨
        (utf8 (toAsciiLowercase s)).length > 90) ∧
      (utf8 (String.ofList chars)).mapM readSymbol = some values ∧
      verifyChecksum hrp values = true ∧
      convertBits (values.take (values.length - 6)) 5 8 false = some data := by
  simp only [decode, Except.bind_eq_ok, Except.okOr_eq_ok]
  constructor
  · rintro ⟨⟨before, chars⟩, hsplit, h⟩
    dsimp only at h
    split_ifs at h with hlen
    obtain ⟨values, hvalues, h⟩ := Except.bind_eq_ok.1 h
    split_ifs at h with hsum
    obtain ⟨converted, hconvert, h⟩ := Except.bind_eq_ok.1 h
    cases h
    rw [String.toList_ofList]
    refine ⟨chars, values, hsplit, hlen, Except.okOr_eq_ok.1 hvalues, ?_,
      Except.okOr_eq_ok.1 hconvert⟩
    simpa using hsum
  · rintro ⟨chars, values, hsplit, hlen, hvalues, hsum, hconvert⟩
    have hreads : (utf8 (String.ofList chars)).mapM
        (fun ch => (charset.idxOf? ch).map UInt8.ofNat) = some values := hvalues
    refine ⟨(hrp.toList, chars), hsplit, ?_⟩
    simp only [String.ofList_toList, if_neg hlen, hreads, Except.okOr_some, Except.bind_ok, hsum,
      Bool.not_true, Bool.false_eq_true, if_false, hconvert]
    rfl

/-- A text whose last part is the text of values. -/
theorem eq_of_splitLast {s hrp : String} {chars : List Char}
    (hsplit : splitLast '1' s.toList = some (hrp.toList, chars))
    (htext : String.ofList chars = text values) : s = hrp ++ "1" ++ text values := by
  rw [← String.toList_inj, (splitLast_iff.1 hsplit).1, ← htext]
  simp

/-- A text is accepted if it is, in lower case, the text of what it is decoded to. -/
theorem decode_iff {s hrp : String} {data : Bytes} :
    decode s = .ok (hrp, data) ↔ encode hrp data = .ok (toAsciiLowercase s) ∧ hrp ≠ "" ∧
      (utf8 (toAsciiLowercase s)).length ≤ 90 := by
  rw [decode_eq_ok]
  constructor
  · rintro ⟨chars, values, hsplit, hlen, hvalues, hsum, hconvert⟩
    obtain ⟨hfits, htext⟩ := mapM_utf8_iff.1 hvalues
    have hs : toAsciiLowercase s = hrp ++ "1" ++ text values := eq_of_splitLast hsplit htext
    have hbytes := length_utf8 hrp hfits
    rw [hs] at hlen
    rw [hs, encode_iff]
    refine ⟨?_, ?_, by omega⟩
    · -- The last six values are a checksum, and there is one checksum for the others.
      obtain ⟨rest, sum, rfl, hsix⟩ : ∃ rest sum, values = rest ++ sum ∧ sum.length = 6 :=
        ⟨_, _, (List.take_append_drop (values.length - 6) values).symm, by
          rw [List.length_drop]; omega⟩
      obtain ⟨hrest, hfits'⟩ := fits_append.1 hfits
      rw [verifyChecksum_iff hfits' hsix] at hsum
      rw [List.length_append, hsix, Nat.add_sub_cancel, List.take_left,
        convertBits_symm hrest] at hconvert
      exact ⟨rest, hconvert, by rw [hsum]⟩
    · rintro rfl
      exact hlen (.inl (by decide))
  · rintro ⟨hencode, hhrp, hlen⟩
    obtain ⟨values, hconvert, hs⟩ := encode_iff.1 hencode
    have hvalues : Fits 5 values := by
      obtain ⟨values', hvalues', hfits', -⟩ := convertBits_symbols data
      rwa [Option.some.inj (hconvert.symm.trans hvalues')]
    have hsum := fits_createChecksum hrp values
    have hfits := fits_append.2 ⟨hvalues, hsum⟩
    have hsix := length_createChecksum hrp values
    have hpos : 0 < (utf8 hrp).length :=
      List.length_pos_iff.2 fun h => hhrp (utf8_injective h)
    refine ⟨_, values ++ createChecksum hrp values, splitLast_iff.2 ⟨?_, ?_⟩, ?_,
      mapM_utf8_iff.2 ⟨hfits, rfl⟩, (verifyChecksum_iff hsum hsix).2 rfl, ?_⟩
    · rw [← hs]
      simp [text]
    · intro hmem
      obtain ⟨v, hv, hsymbol⟩ := List.mem_map.1 hmem
      exact (symbol_ne_separator (hfits v hv)).1 hsymbol
    · have hbytes := length_utf8 hrp hfits
      rw [hs, List.length_append, hsix] at hbytes
      omega
    · rw [List.length_append, hsix, Nat.add_sub_cancel, List.take_left, convertBits_symm hvalues]
      exact hconvert

/-! ## Keys -/

/-- A key of 32 bytes is read back from its text, in any letter case. -/
theorem decode_key {s hrp : String} {k : U8Array 32} (hne : hrp ≠ "")
    (hlen : (utf8 hrp).length ≤ 31) :
    decode s = .ok (hrp, k.1) ↔ encode hrp k.1 = .ok (toAsciiLowercase s) := by
  rw [decode_iff]
  refine and_iff_left_of_imp fun h => ⟨hne, ?_⟩
  obtain ⟨values, hfits, hvalues, hencode⟩ := encode_spec hrp k.1
  rw [← Except.ok.inj (hencode.symm.trans h), length_utf8 hrp hfits, hvalues, k.2]
  omega

/-- Decoding a text under the prefix `hrp`, and its byte string as a key. -/
theorem decodePrefixed_iff {s hrp : String} {k : U8Array 32} {e e' : Error} :
    (decode s >>= fun (hrp', data) =>
      if hrp' ≠ hrp then .error e else Except.okOr (U8Array.ofBytes? 32 data) e') = .ok k ↔
      decode s = .ok (hrp, k.1) := by
  rw [Except.bind_eq_ok]
  constructor
  · rintro ⟨⟨hrp', data⟩, hdecode, h⟩
    dsimp only at h
    split_ifs at h with hne
    rw [Except.okOr_eq_ok, U8Array.ofBytes?_eq_some] at h
    rw [hdecode, h, not_not.1 hne]
  · intro h
    exact ⟨(hrp, k.1), h, by simp⟩

theorem decodeNpub_iff {s : String} {k : U8Array 32} :
    decodeNpub s = .ok k ↔ encodeNpub k = .ok (toAsciiLowercase s) :=
  decodePrefixed_iff.trans (decode_key (by decide) (by decide))

theorem decodeNsec_iff {s : String} {k : U8Array 32} :
    decodeNsec s = .ok k ↔ encodeNsec k = .ok (toAsciiLowercase s) :=
  decodePrefixed_iff.trans (decode_key (by decide) (by decide))

/-- The texts of prefixes without capital letters that are short enough are read
    back; what is read is, in lower case, the text of what it is read as; and a public
    or a secret key is read from its text, in lower case, and from nothing else. -/
theorem mutually_inverse :
    (∀ (hrp : String) (data : Bytes), hrp ≠ "" → (∀ c ∈ hrp.toList, c.isUpper = false) →
      (utf8 hrp).length + 1 + (8 * data.length + 4) / 5 + 6 ≤ 90 →
      ∃ s, encode hrp data = .ok s ∧ decode s = .ok (hrp, data)) ∧
    (∀ s hrp data, decode s = .ok (hrp, data) → encode hrp data = .ok (toAsciiLowercase s)) ∧
    (∀ s s' p, toAsciiLowercase s = s → toAsciiLowercase s' = s' →
      decode s = .ok p → decode s' = .ok p → s = s') ∧
    (∀ s k, decodeNpub s = .ok k ↔ encodeNpub k = .ok (toAsciiLowercase s)) ∧
    (∀ s k, decodeNsec s = .ok k ↔ encodeNsec k = .ok (toAsciiLowercase s)) ∧
    (∀ s k, encodeNsec k = .ok (toAsciiLowercase s) →
      decodeNpub s = .error (.malformed "expected npub")) ∧
    ∀ s k, encodeNpub k = .ok (toAsciiLowercase s) →
      decodeNsec s = .error (.malformed "expected nsec") := by
  refine ⟨fun hrp data hne hupper hlen => ?_, fun s hrp data h => (decode_iff.1 h).1, ?_,
    fun s k => decodeNpub_iff, fun s k => decodeNsec_iff, fun s k h => ?_, fun s k h => ?_⟩
  · obtain ⟨values, hfits, hvalues, hencode⟩ := encode_spec hrp data
    have hlower : toAsciiLowercase (hrp ++ "1" ++ text values) = hrp ++ "1" ++ text values := by
      rw [toAsciiLowercase_text hrp hfits,
        toAsciiLowercase_eq_self fun c hc => toLower_eq_self (hupper c hc)]
    refine ⟨_, hencode, decode_iff.2 ⟨by rw [hlower, hencode], hne, ?_⟩⟩
    rw [hlower, length_utf8 hrp hfits, hvalues]
    omega
  · rintro s s' ⟨hrp, data⟩ hs hs' h h'
    have hsame := (decode_iff.1 h).1.symm.trans (decode_iff.1 h').1
    rwa [Except.ok.injEq, hs, hs'] at hsame
  · have hdecode := (decode_key (by decide) (by decide)).2 h
    rw [decodeNpub, hdecode]
    rfl
  · have hdecode := (decode_key (by decide) (by decide)).2 h
    rw [decodeNsec, hdecode]
    rfl

/-- A prefix may contain the separator, and a text may be given in capital letters. -/
theorem mutually_inverse_separator :
    (∃ s, encode "a1" [0xff, 0] = .ok s ∧ decode s = .ok ("a1", [0xff, 0])) ∧
      encode "a" [] = .ok (toAsciiLowercase "A12UEL5L") :=
  ⟨mutually_inverse.1 "a1" [0xff, 0] (by decide) (by simp) (by decide),
    mutually_inverse.2.1 "A12UEL5L" "a" [] (by decide +kernel)⟩

end UnicityNostr.Bech32
