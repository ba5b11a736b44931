import UnicityNostr.Crypto.Bech32.Bip173
import UnicityNostr.Lib.Bch

/-!
# Mistyped texts

The checksum register holds a polynomial over the field of 32 elements, and shifting
it multiplies the polynomial by its variable, modulo one that has three consecutive
powers as roots. So the checksum tells words of at most 89 symbols apart that differ
at no more than four positions.

* `registerAt_shift`: shifting the register;
* `eq_of_foldl_eq`: words with the same checksum;
* `mistyped`: texts and keys with up to four other characters.
-/

namespace UnicityNostr.Bech32

open Gf1024 Unicode

/-! ## The register as a polynomial -/

/-- The value at `x` of the polynomial whose coefficients are the symbols of the
    register. -/
def registerAt (x : Gf1024) (c : UInt32) : Gf1024 :=
  ∑ i ∈ Finset.range 6, of (.ofNat (c.toNat >>> (5 * i))) * x ^ i

theorem registerAt_xor (x : Gf1024) (c c' : UInt32) :
    registerAt x (c ^^^ c') = registerAt x c + registerAt x c' := by
  rw [registerAt, registerAt, registerAt, ← Finset.sum_add_distrib]
  refine Finset.sum_congr rfl fun i _ => ?_
  rw [UInt32.toNat_xor, Nat.shiftRight_xor_distrib, Gf32.ofNat_xor, map_add, add_mul]

theorem registerAt_zero (x : Gf1024) : registerAt x 0 = 0 := by
  have hself := registerAt_xor x 0 0
  rwa [UInt32.xor_self, add_self] at hself

/-- A register of one symbol. -/
theorem registerAt_symbol (x : Gf1024) {v : UInt8} (hv : v.toNat < 2 ^ 5) :
    registerAt x v.toUInt32 = of (.ofNat v.toNat) := by
  rw [registerAt, Finset.sum_range_succ', UInt8.toNat_toUInt32]
  simp [digit_symbol hv]

/-- The sum of the bits that choose among the generators. -/
def chosen (top : UInt32) : List (UInt32 × Nat) → Gf32
  | [] => 0
  | (_, i) :: gs =>
    (if (top >>> UInt32.ofNat i) &&& 1 = 1 then .ofNat (2 ^ i) else 0) + chosen top gs

theorem chosen_generator {t : Nat} (ht : t < 32) :
    chosen (UInt32.ofNat t) generator.zipIdx = .ofNat t := by
  have hall : ∀ t < 32, chosen (UInt32.ofNat t) generator.zipIdx = .ofNat t := by
    decide +kernel
  exact hall t ht

theorem registerAt_taps {x : Gf1024} {gs : List (UInt32 × Nat)}
    (h : ∀ gi ∈ gs, registerAt x gi.1 = of (.ofNat (2 ^ gi.2)) * x ^ 6) (top : UInt32) :
    registerAt x (taps top gs) = of (chosen top gs) * x ^ 6 := by
  induction gs with
  | nil => rw [taps, chosen, registerAt_zero, map_zero, zero_mul]
  | cons gi gs ih =>
    obtain ⟨hgi, hgs⟩ := List.forall_mem_cons.1 h
    rw [taps, chosen, registerAt_xor, ih hgs, map_add, add_mul]
    split_ifs
    · rw [hgi]
    · rw [registerAt_zero, map_zero, zero_mul]

/-- The generators are the products of the bits with the sixth power of a root. -/
theorem registerAt_generator {i : Nat} (hi : i < 3) : ∀ gi ∈ generator.zipIdx,
    registerAt (root i) gi.1 = of (.ofNat (2 ^ gi.2)) * root i ^ 6 := by
  have hall : ∀ i < 3, ∀ gi ∈ generator.zipIdx,
      registerAt (root i) gi.1 = of (.ofNat (2 ^ gi.2)) * root i ^ 6 := by decide +kernel
  exact hall i hi

/-- Shifting the register multiplies its polynomial by the variable, at a root. -/
theorem registerAt_shift {i : Nat} (hi : i < 3) {c : UInt32} (hc : c.toNat < 2 ^ 30) :
    registerAt (root i) (shift c) = root i * registerAt (root i) c := by
  -- The digits are shifted by one, and the last one is shifted out.
  have hlow : ∀ k ∈ Finset.range 5, of (.ofNat ((c.toNat % 2 ^ 25 * 32) >>> (5 * (k + 1)))) *
      root i ^ (k + 1) = root i * (of (.ofNat (c.toNat >>> (5 * k))) * root i ^ k) := by
    intro k hk
    rw [digit_shiftLeft c (Finset.mem_range.1 hk)]
    ring
  obtain ⟨hlt, htop⟩ := shiftRight_eq_ofNat hc
  rw [shift, registerAt_xor, registerAt_taps (registerAt_generator hi), htop,
    chosen_generator hlt]
  rw [registerAt, toNat_shiftLeft, Finset.sum_range_succ', Finset.sum_congr rfl hlow,
    ← Finset.mul_sum, Nat.mul_zero, Nat.shiftRight_zero, digit_zero_shiftLeft, map_zero, zero_mul,
    add_zero, registerAt, Finset.sum_range_succ _ 5]
  ring

/-- The register after some values. -/
theorem registerAt_foldl {i : Nat} (hi : i < 3) {values : Bytes} (hfits : Fits 5 values)
    {c : UInt32} (hc : c.toNat < 2 ^ 30) :
    registerAt (root i) (values.foldl polymodStep c) =
      eval (root i) (values.reverse.map fun v => .ofNat v.toNat) +
        root i ^ values.length * registerAt (root i) c := by
  induction values using List.reverseRecOn with
  | nil => simp [eval]
  | append_singleton values v ih =>
    obtain ⟨hvalues, hv⟩ := fits_append.1 hfits
    have hv : v.toNat < 2 ^ 5 := hv v (List.mem_singleton_self v)
    have heval : eval (root i) ((values ++ [v]).reverse.map fun v => .ofNat v.toNat) =
        of (.ofNat v.toNat) +
          root i * eval (root i) (values.reverse.map fun v => .ofNat v.toNat) := by
      rw [List.reverse_append]
      rfl
    rw [List.foldl_append, List.foldl_cons, List.foldl_nil, polymodStep_eq, Register.take,
      registerAt_xor, registerAt_symbol _ hv, ← polymodStep_eq,
      registerAt_shift hi (toNat_foldl_lt values hc), ih hvalues, heval, List.length_append,
      List.length_singleton]
    ring

/-- Words that bring the register to the same value are equal if they differ at four
    positions at most. -/
theorem eq_of_foldl_eq {values values' : Bytes} {c : UInt32} (hc : c.toNat < 2 ^ 30)
    (hfits : Fits 5 values) (hfits' : Fits 5 values') (hlen : values.length = values'.length)
    (h89 : values.length ≤ 89) (hd : distance values values' ≤ 4)
    (h : values.foldl polymodStep c = values'.foldl polymodStep c) : values = values' := by
  have hinj : ∀ v ∈ values.reverse, ∀ v' ∈ values'.reverse,
      Gf32.ofNat v.toNat = .ofNat v'.toNat → v = v' := by
    intro v hv v' hv' heq
    have hlt : v.toNat < 32 := hfits v (List.mem_reverse.1 hv)
    have hlt' : v'.toNat < 32 := hfits' v' (List.mem_reverse.1 hv')
    have hmod := Gf32.ofNat_eq_iff.1 heq
    rw [Nat.mod_eq_of_lt hlt, Nat.mod_eq_of_lt hlt'] at hmod
    exact UInt8.toNat_inj.1 hmod
  have hmap : (values.reverse.map fun v => Gf32.ofNat v.toNat) =
      values'.reverse.map fun v => Gf32.ofNat v.toNat := by
    refine eq_of_distance (by simpa using hlen) (by simpa using h89) ?_ fun i hi => ?_
    · rwa [distance_map hinj, distance_reverse hlen]
    · have heval := registerAt_foldl hi hfits hc
      rw [h, registerAt_foldl hi hfits' hc, hlen] at heval
      exact (add_right_cancel heval).symm
  rw [← distance_eq_zero_iff hlen, ← distance_reverse hlen, ← distance_map hinj, hmap,
    distance_self]

/-! ## Texts -/

theorem symbol_injective {v v' : UInt8} (hv : v.toNat < 2 ^ 5) (hv' : v'.toNat < 2 ^ 5)
    (h : symbol v = symbol v') : v = v' := by
  have hbytes : symbolByte v = symbolByte v' := by
    have hutf8 := utf8EncodeChar_symbol hv
    rw [h, utf8EncodeChar_symbol hv'] at hutf8
    exact (List.cons.inj hutf8).1.symm
  have hread := readSymbol_iff.2 ⟨hv, rfl⟩
  rw [hbytes, readSymbol_iff.2 ⟨hv', rfl⟩] at hread
  exact (Option.some.inj hread).symm

/-- Words are as far apart as their symbols. -/
theorem distance_symbols {values values' : Bytes} (h : Fits 5 values) (h' : Fits 5 values') :
    distance (values.map symbol) (values'.map symbol) = distance values values' :=
  distance_map fun v hv v' hv' => symbol_injective (h v hv) (h' v' hv')

/-- Of two texts with the same part before the symbols, and symbols that differ at four
    positions at most, only one has a correct checksum. -/
theorem Layout.unique {s t : String} {hrp cs ds : List Char} {values values' : Bytes}
    (h : Layout s hrp cs values) (h' : Layout t hrp ds values') (hlen : (utf8 s).length ≤ 90)
    (heq : cs.length = ds.length)
    (hd : distance (cs.map Char.toLower) (ds.map Char.toLower) ≤ 4) :
    cs.map Char.toLower = ds.map Char.toLower := by
  obtain ⟨hfits, hcs⟩ := h.symbols
  obtain ⟨hfits', hds⟩ := h'.symbols
  have hbytes := h.length_eq
  have hsum := h.verifies
  have hsum' := h'.verifies
  have hvalues : values.length = values'.length := by
    rw [← List.length_map (f := Bip173.symbol), ← hcs, List.length_map, heq,
      ← List.length_map (f := Char.toLower), hds, List.length_map]
  rw [verifyChecksum, beq_iff_eq, polymod_append] at hsum hsum'
  rw [hcs, hds, map_symbol hfits, map_symbol hfits', distance_symbols hfits hfits'] at hd
  rw [hcs, hds, eq_of_foldl_eq (toNat_polymod_lt _) hfits hfits' hvalues (by omega) hd
    (hsum.trans hsum'.symm)]

/-! ## Keys -/

/-- The distance of texts in lower case. -/
def textDistance (s t : String) : Nat :=
  distance (toAsciiLowercase s).toList (toAsciiLowercase t).toList

/-- If a key is read from both texts, it is the same one. -/
def SameKey (s t : String) : Prop := ∀ k k',
  (decodeNpub s = .ok k → decodeNpub t = .ok k' → k = k') ∧
  (decodeNsec s = .ok k → decodeNsec t = .ok k' → k = k') ∧
  (decodeNpub s = .ok k → decodeNsec t ≠ .ok k') ∧
  (decodeNsec s = .ok k → decodeNpub t ≠ .ok k')

/-- The symbols of the text of a key. -/
theorem exists_word {s hrp : String} {k : U8Array 32}
    (h : encode hrp k.1 = .ok (toAsciiLowercase s)) : ∃ values, Fits 5 values ∧
      values.length = 58 ∧ (toAsciiLowercase s).toList = hrp.toList ++ '1' :: values.map symbol ∧
      verifyChecksum hrp values = true := by
  obtain ⟨values, hconvert, hs⟩ := encode_iff.1 h
  obtain ⟨values', hconvert', hfits, hlen⟩ := convertBits_symbols k.1
  obtain rfl := Option.some.inj (hconvert.symm.trans hconvert')
  have hsum := fits_createChecksum hrp values
  have hsix := length_createChecksum hrp values
  refine ⟨_, fits_append.2 ⟨hfits, hsum⟩, ?_, ?_, (verifyChecksum_iff hsum hsix).2 rfl⟩
  · rw [List.length_append, hlen, hsix, k.2]
  · rw [← hs, text]
    simp

/-- The prefixes of keys. -/
def keyPrefixes : List String := ["npub", "nsec"]

/-- The words of the prefixes of keys are as far apart as the prefixes. -/
theorem hrpExpand_keyPrefixes {hrp hrp' : String} (h : hrp ∈ keyPrefixes)
    (h' : hrp' ∈ keyPrefixes) :
    Fits 5 (hrpExpand hrp) ∧ (hrpExpand hrp).length = 9 ∧ hrp.toList.length = 4 ∧
      distance (hrpExpand hrp) (hrpExpand hrp') = distance hrp.toList hrp'.toList ∧
      (hrpExpand hrp = hrpExpand hrp' → hrp = hrp') := by
  have hall : ∀ hrp ∈ keyPrefixes, ∀ hrp' ∈ keyPrefixes,
      (∀ v ∈ hrpExpand hrp, v.toNat < 2 ^ 5) ∧ (hrpExpand hrp).length = 9 ∧
        hrp.toList.length = 4 ∧
        distance (hrpExpand hrp) (hrpExpand hrp') = distance hrp.toList hrp'.toList ∧
        (hrpExpand hrp = hrpExpand hrp' → hrp = hrp') := by decide +kernel
  exact hall hrp h hrp' h'

/-- Texts of keys that differ at four positions at most are equal. -/
theorem eq_of_textDistance {s t hrp hrp' : String} {k k' : U8Array 32}
    (hhrp : hrp ∈ keyPrefixes) (hhrp' : hrp' ∈ keyPrefixes)
    (hs : encode hrp k.1 = .ok (toAsciiLowercase s))
    (ht : encode hrp' k'.1 = .ok (toAsciiLowercase t)) (hd : textDistance s t ≤ 4) :
    hrp = hrp' ∧ toAsciiLowercase s = toAsciiLowercase t := by
  obtain ⟨values, hfits, hlen, hs, hsum⟩ := exists_word hs
  obtain ⟨values', hfits', hlen', ht, hsum'⟩ := exists_word ht
  obtain ⟨hword, hnine, hfour, hdist, hinj⟩ := hrpExpand_keyPrefixes hhrp hhrp'
  obtain ⟨hword', hnine', hfour', -⟩ := hrpExpand_keyPrefixes hhrp' hhrp
  have hwords : distance (hrpExpand hrp ++ values) (hrpExpand hrp' ++ values') ≤ 4 := by
    rw [textDistance, hs, ht, distance_append (hfour.trans hfour'.symm), distance_cons,
      if_pos rfl, add_zero, distance_symbols hfits hfits'] at hd
    rwa [distance_append (hnine.trans hnine'.symm), hdist]
  rw [verifyChecksum, beq_iff_eq, polymod] at hsum hsum'
  have heq := eq_of_foldl_eq (by decide) (fits_append.2 ⟨hword, hfits⟩)
    (fits_append.2 ⟨hword', hfits'⟩)
    (by rw [List.length_append, List.length_append, hnine, hnine', hlen, hlen'])
    (by rw [List.length_append, hnine, hlen]; decide) hwords (hsum.trans hsum'.symm)
  obtain ⟨hexpand, rfl⟩ := List.append_inj heq (hnine.trans hnine'.symm)
  obtain rfl := hinj hexpand
  exact ⟨rfl, String.toList_inj.1 (hs.trans ht.symm)⟩

theorem sameKey_of_textDistance {s t : String} (hd : textDistance s t ≤ 4) : SameKey s t := by
  have hnpub : "npub" ∈ keyPrefixes := List.mem_cons_self
  have hnsec : "nsec" ∈ keyPrefixes := List.mem_cons_of_mem _ (List.mem_singleton_self _)
  intro k k'
  refine ⟨fun hs ht => ?_, fun hs ht => ?_, fun hs ht => ?_, fun hs ht => ?_⟩
  · have hlower := (eq_of_textDistance hnpub hnpub (decodeNpub_iff.1 hs) (decodeNpub_iff.1 ht) hd).2
    rw [decodeNpub_iff, hlower, ← decodeNpub_iff, ht] at hs
    exact (Except.ok.inj hs).symm
  · have hlower := (eq_of_textDistance hnsec hnsec (decodeNsec_iff.1 hs) (decodeNsec_iff.1 ht) hd).2
    rw [decodeNsec_iff, hlower, ← decodeNsec_iff, ht] at hs
    exact (Except.ok.inj hs).symm
  · have hhrp := (eq_of_textDistance hnpub hnsec (decodeNpub_iff.1 hs) (decodeNsec_iff.1 ht) hd).1
    exact absurd hhrp (by decide)
  · have hhrp := (eq_of_textDistance hnsec hnpub (decodeNsec_iff.1 hs) (decodeNpub_iff.1 ht) hd).1
    exact absurd hhrp (by decide)

/-- Two neighbouring characters exchanged. -/
theorem textDistance_swap_le (before : List Char) (a b : Char) (after : List Char) :
    textDistance (String.ofList (before ++ a :: b :: after))
      (String.ofList (before ++ b :: a :: after)) ≤ 2 := by
  rw [textDistance, toAsciiLowercase_ofList, toAsciiLowercase_ofList, String.toList_ofList,
    String.toList_ofList, List.map_append, List.map_append]
  exact distance_swap_le _ _ _ _

/-- A text is not accepted if it differs from one that is, after the last separator, at
    one position at least and four at most, in lower case. No key is read from such a
    text, or with two neighbouring characters exchanged, but the one that was written. -/
theorem mistyped :
    (∀ (s t : String) (start cs ds : List Char), s.toList = start ++ '1' :: cs → '1' ∉ cs →
      t.toList = start ++ '1' :: ds → cs.length = ds.length →
      (∀ d ∈ ds, ∃ v : UInt8, v.toNat < 2 ^ 5 ∧ d.toLower = symbol v) →
      1 ≤ distance (cs.map Char.toLower) (ds.map Char.toLower) →
      distance (cs.map Char.toLower) (ds.map Char.toLower) ≤ 4 →
      (∃ p, decode s = .ok p) → ∃ e, decode t = .error e) ∧
    (∀ s t, textDistance s t ≤ 4 → SameKey s t) ∧
    ∀ (start : List Char) (a b : Char) (rest : List Char),
      SameKey (String.ofList (start ++ a :: b :: rest))
        (String.ofList (start ++ b :: a :: rest)) := by
  refine ⟨fun s t start cs ds hs hcs ht hlen hds hone hd hdecode => ?_,
    fun s t => sameKey_of_textDistance, fun start a b rest =>
      sameKey_of_textDistance ((textDistance_swap_le start a b rest).trans (by decide))⟩
  cases hdecode' : decode t with
  | error e => exact ⟨e, rfl⟩
  | ok p =>
    have hlast : '1' ∉ ds := by
      intro hmem
      obtain ⟨v, hv, hsymbol⟩ := hds '1' hmem
      exact (symbol_ne_separator hv).1 hsymbol.symm
    obtain ⟨h90, hrp, chars, values, h⟩ := decode_ok_iff.1 hdecode
    obtain ⟨-, hrp', chars', values', h'⟩ := decode_ok_iff.1 ⟨p, hdecode'⟩
    obtain ⟨rfl, rfl⟩ := h.split_unique hs hcs
    obtain ⟨rfl, rfl⟩ := h'.split_unique ht hlast
    rw [h.unique h' h90 hlen hd, distance_self] at hone
    exact absurd hone (by decide)

/-- The last symbol of an accepted text, replaced. -/
theorem mistyped_symbol : ∃ e, decode "A12UEL5Q" = .error e := by
  have hdecode : decode "A12UEL5L" = .ok ("a", []) := decode_iff.2 (by decide +kernel)
  have hsymbols : ∀ d ∈ ['2', 'U', 'E', 'L', '5', 'Q'],
      ∃ v : UInt8, v.toNat < 2 ^ 5 ∧ d.toLower = symbol v := by
    simp only [List.forall_mem_cons, List.not_mem_nil, false_imp_iff, implies_true, and_true]
    exact ⟨⟨10, by decide⟩, ⟨28, by decide⟩, ⟨25, by decide⟩, ⟨31, by decide⟩, ⟨20, by decide⟩,
      ⟨0, by decide⟩⟩
  exact mistyped.1 "A12UEL5L" "A12UEL5Q" ['A'] ['2', 'U', 'E', 'L', '5', 'L']
    ['2', 'U', 'E', 'L', '5', 'Q'] (by simp) (by simp) (by simp) rfl hsymbols (by decide)
    (by decide) ⟨_, hdecode⟩

end UnicityNostr.Bech32
