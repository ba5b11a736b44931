import UnicityNostr.Crypto.Bech32.RoundTrip
import UnicityNostr.Lib.Checked

/-!
# Bech32 does not panic

The functions of bech32 with every access that could panic: they end as the
functions of the model do.

* `convertBitsChecked_eq`: fewer bits are left over than a group has, so that
  subtractions and shifts are in range;
* `encode_computes`, `decode_computes`: encoding and decoding.
-/

namespace UnicityNostr.Bech32

/-! ## Checksums -/

def polymodStepChecked (chk : UInt32) (v : UInt8) : Option UInt32 := do
  let top ← Checked.shift 32 25 (chk >>> 25)
  let shifted ← Checked.shift 32 5 ((chk &&& 0x1ffffff) <<< 5)
  generator.zipIdx.foldlM (fun chk (g, i) => do
    let bit ← Checked.shift 32 i (top >>> UInt32.ofNat i)
    return if bit &&& 1 = 1 then chk ^^^ g else chk) (shifted ^^^ v.toUInt32)

def polymodChecked (values : Bytes) : Option UInt32 := values.foldlM polymodStepChecked 1

def hrpExpandChecked (hrp : String) : Option Bytes := do
  let bytes := utf8 hrp
  let high ← bytes.mapM fun c : UInt8 => Checked.shift 8 5 (c >>> 5)
  return high ++ 0 :: bytes.map fun c : UInt8 => c &&& 31

def verifyChecksumChecked (hrp : String) (data : Bytes) : Option Bool := do
  let expanded ← hrpExpandChecked hrp
  let chk ← polymodChecked (expanded ++ data)
  return chk == 1

def createChecksumChecked (hrp : String) (data : Bytes) : Option Bytes := do
  let expanded ← hrpExpandChecked hrp
  let chk ← polymodChecked (expanded ++ data ++ [0, 0, 0, 0, 0, 0])
  let m := chk ^^^ 1
  (List.range 6).mapM fun i => do
    let left ← Checked.sub 5 i
    let symbol ← Checked.shift 32 (5 * left) (m >>> UInt32.ofNat (5 * left))
    return (symbol &&& 31).toUInt8

theorem polymodStepChecked_eq (chk : UInt32) (v : UInt8) :
    polymodStepChecked chk v = some (polymodStep chk v) := by
  have hbits : ∀ p ∈ generator.zipIdx, p.2 < 32 := by decide
  rw [polymodStepChecked, Checked.bind_of_eq_some (Checked.shift_eq_some (by decide) _),
    Checked.bind_of_eq_some (Checked.shift_eq_some (by decide) _)]
  dsimp only [polymodStep]
  refine Checked.foldlM_eq_some fun chk p hp => ?_
  rw [Checked.bind_of_eq_some (Checked.shift_eq_some (hbits p hp) _)]
  rfl

theorem polymodChecked_eq (values : Bytes) : polymodChecked values = some (polymod values) :=
  Checked.foldlM_eq_some fun chk v _ => polymodStepChecked_eq chk v

theorem hrpExpandChecked_eq (hrp : String) : hrpExpandChecked hrp = some (hrpExpand hrp) := by
  have hhigh : (utf8 hrp).mapM (fun c : UInt8 => Checked.shift 8 5 (c >>> 5)) = some _ :=
    Checked.mapM_eq_some fun c _ => Checked.shift_eq_some (by decide) (c >>> 5)
  rw [hrpExpandChecked, Checked.bind_of_eq_some hhigh]
  rfl

theorem verifyChecksumChecked_eq (hrp : String) (data : Bytes) :
    verifyChecksumChecked hrp data = some (verifyChecksum hrp data) := by
  rw [verifyChecksumChecked, Checked.bind_of_eq_some (hrpExpandChecked_eq hrp),
    Checked.bind_of_eq_some (polymodChecked_eq _)]
  rfl

theorem createChecksumChecked_eq (hrp : String) (data : Bytes) :
    createChecksumChecked hrp data = some (createChecksum hrp data) := by
  rw [createChecksumChecked, Checked.bind_of_eq_some (hrpExpandChecked_eq hrp),
    Checked.bind_of_eq_some (polymodChecked_eq _)]
  dsimp only [createChecksum]
  refine Checked.mapM_eq_some fun i hi => ?_
  have hi6 := List.mem_range.1 hi
  rw [Checked.bind_of_eq_some (Checked.sub_eq_some (by omega)),
    Checked.bind_of_eq_some (Checked.shift_eq_some (by omega) _)]
  rfl

/-! ## Regrouping bits -/

/-- Putting out groups; the bits left over shift a word of 32 bits. -/
def Regroup.drainChecked (toBits maxv : Nat) (s : Regroup) : Option Regroup :=
  if 0 < toBits ∧ toBits ≤ s.bits then
    match _h : Checked.sub s.bits toBits with
    | none => none
    | some bits => do
      let group ← Checked.shift 32 bits (s.acc >>> bits)
      drainChecked toBits maxv { s with bits, out := s.out ++ [UInt8.ofNat (group &&& maxv)] }
  else some s
termination_by s.bits
decreasing_by
  have hsub := Checked.eq_of_sub_eq_some _h
  omega

/-- Taking in the groups one by one; one that is too large ends the loop. -/
def Regroup.pushAllChecked (fromBits toBits maxv : Nat) : Bytes → Regroup → Option (Option Regroup)
  | [], s => some (some s)
  | value :: data, s => do
    let high ← Checked.shift 32 fromBits (value.toNat >>> fromBits)
    if high ≠ 0 then return none
    else
      let acc ← Checked.shift 32 fromBits ((s.acc <<< fromBits) % 2 ^ 32)
      let s ← drainChecked toBits maxv { s with
        acc := acc ||| value.toNat, bits := s.bits + fromBits }
      pushAllChecked fromBits toBits maxv data s

/-- The bits left over, filled up with zeros. -/
def Regroup.lastChecked (toBits maxv : Nat) (s : Regroup) : Option Nat := do
  let rest ← Checked.sub toBits s.bits
  let last ← Checked.shift 32 rest ((s.acc <<< rest) % 2 ^ 32)
  return last &&& maxv

def convertBitsChecked (data : Bytes) (fromBits toBits : Nat) (pad : Bool) :
    Option (Option Bytes) := do
  let top ← Checked.shift 32 toBits (1 <<< toBits)
  let maxv ← Checked.sub top 1
  match ← Regroup.pushAllChecked fromBits toBits maxv data {} with
  | none => return none
  | some s =>
    if pad then
      if s.bits > 0 then
        let last ← s.lastChecked toBits maxv
        return some (s.out ++ [UInt8.ofNat last])
      else return some s.out
    else if s.bits ≥ fromBits then return none
    else
      let last ← s.lastChecked toBits maxv
      if last ≠ 0 then return none else return some s.out

variable {fromBits toBits : Nat}

/-- Less than a group is left over. -/
theorem bits_drain_lt (h0 : 0 < toBits) (s : Regroup) : (s.drain toBits).bits < toBits := by
  induction s using Regroup.drain.induct toBits with
  | case1 s hs bits ih =>
    rw [Regroup.drain, if_pos hs]
    exact ih
  | case2 s hs =>
    rw [Regroup.drain, if_neg hs]
    omega

theorem drainChecked_eq {s : Regroup} (h : s.bits ≤ 32) :
    s.drainChecked toBits (1 <<< toBits - 1) = some (s.drain toBits) := by
  induction s using Regroup.drain.induct toBits with
  | case1 s hs bits ih =>
    have hsub := Checked.sub_eq_some hs.2
    rw [Regroup.drainChecked, Regroup.drain, if_pos hs, if_pos hs]
    split
    · rename_i hnone
      cases hsub.symm.trans hnone
    · rename_i bits' hbits'
      obtain rfl : bits = bits' := Option.some.inj (hsub.symm.trans hbits')
      have hbits : bits = s.bits - toBits := rfl
      rw [Checked.bind_of_eq_some (Checked.shift_eq_some (by omega) _)]
      exact ih (by dsimp only; omega)
  | case2 s hs => rw [Regroup.drainChecked, Regroup.drain, if_neg hs, if_neg hs]

/-- The loop takes in all groups, or ends at one that is too large, with less than a
    group left over after each. -/
theorem pushAllChecked_eq (h0 : 0 < toBits) (h32 : toBits + fromBits ≤ 32) {data : Bytes}
    {s : Regroup} (hs : s.bits < toBits) :
    Regroup.pushAllChecked fromBits toBits (1 <<< toBits - 1) data s =
        some (data.foldlM (Regroup.push fromBits toBits) s) ∧
      ∀ s' ∈ data.foldlM (Regroup.push fromBits toBits) s, s'.bits < toBits := by
  induction data generalizing s with
  | nil =>
    refine ⟨rfl, fun s' hs' => ?_⟩
    obtain rfl := Option.some.inj hs'
    exact hs
  | cons value data ih =>
    rw [Regroup.pushAllChecked, Checked.bind_of_eq_some (Checked.shift_eq_some (by omega) _),
      List.foldlM_cons]
    by_cases hlarge : value.toNat >>> fromBits ≠ 0
    · rw [if_pos hlarge, Regroup.push, if_pos hlarge]
      exact ⟨rfl, fun s' hs' => absurd hs' (Option.not_mem_none s')⟩
    · rw [if_neg hlarge, Regroup.push, if_neg hlarge,
        Checked.bind_of_eq_some (Checked.shift_eq_some (by omega) _),
        Checked.bind_of_eq_some (drainChecked_eq (by dsimp only; omega))]
      exact ih (bits_drain_lt h0 _)

theorem lastChecked_eq (hw : toBits < 32) {s : Regroup} (hs : s.bits < toBits) :
    s.lastChecked toBits (1 <<< toBits - 1) =
      some ((s.acc <<< (toBits - s.bits)) % 2 ^ 32 &&& (1 <<< toBits - 1)) := by
  rw [Regroup.lastChecked, Checked.bind_of_eq_some (Checked.sub_eq_some hs.le),
    Checked.bind_of_eq_some (Checked.shift_eq_some (by omega) _)]
  rfl

/-- Converting shifts and subtracts within range, whatever the groups are. -/
theorem convertBitsChecked_eq (h0 : 0 < toBits) (h32 : toBits + fromBits ≤ 32) (hw : toBits < 32)
    (data : Bytes) (pad : Bool) :
    convertBitsChecked data fromBits toBits pad = some (convertBits data fromBits toBits pad) := by
  have hone : 1 ≤ 1 <<< toBits := by
    rw [Nat.one_shiftLeft]
    exact Nat.one_le_two_pow
  obtain ⟨hloop, hleft⟩ : _ ∧ ∀ s ∈ data.foldlM (Regroup.push fromBits toBits) {},
    s.bits < toBits := pushAllChecked_eq h0 h32 h0
  rw [convertBitsChecked, Checked.bind_of_eq_some (Checked.shift_eq_some hw _),
    Checked.bind_of_eq_some (Checked.sub_eq_some hone), Checked.bind_of_eq_some hloop, convertBits]
  cases hfold : data.foldlM (Regroup.push fromBits toBits) {} with
  | none => rfl
  | some s =>
    have hlast := lastChecked_eq hw (hleft s hfold)
    dsimp only [Option.bind_eq_bind, Option.bind_some]
    cases pad with
    | true =>
      rw [if_pos rfl, if_pos rfl]
      split_ifs with hbits
      · rw [hlast]
        rfl
      · rfl
    | false =>
      rw [if_neg Bool.false_ne_true, if_neg Bool.false_ne_true]
      by_cases hbits : s.bits ≥ fromBits
      · rw [if_pos hbits, if_pos (.inl hbits)]
        rfl
      · rw [if_neg hbits, hlast]
        dsimp only [Option.bind_some]
        split_ifs with hzero hrest hrest
        · rfl
        · exact absurd (.inr hzero) hrest
        · exact absurd hrest (not_or.2 ⟨hbits, hzero⟩)
        · rfl

/-! ## Texts -/

/-- The bytes of the symbols. -/
def symbolsChecked (values : Bytes) : Option Bytes :=
  values.mapM fun v => Checked.index charset v.toNat

def encodeChecked (hrp : String) (data : Bytes) : Checked Error String := do
  let converted ← convertBitsChecked data 8 5 true
  let values ← (Except.okOr converted (.malformed "bech32 convert_bits") : Result Bytes)
  let checksum ← createChecksumChecked hrp values
  let symbols ← symbolsChecked (values ++ checksum)
  return hrp ++ "1" ++ String.ofList (symbols.map fun ch : UInt8 => Char.ofNat ch.toNat)

def decodeChecked (s : String) : Checked Error (String × Bytes) := do
  let lower := Unicode.toAsciiLowercase s
  let pos ← (Except.okOr (Checked.rfind '1' lower.toList)
    (.malformed "bech32 no separator") : Result Nat)
  let len := (utf8 lower).length
  if pos < 1 ∨ pos + 7 > len ∨ len > 90 then .error (.malformed "bech32 length")
  else do
    let before ← Checked.textTo lower.toList pos
    let dataChars ← Checked.textFrom lower.toList (pos + 1)
    let hrp := String.ofList before
    let data ← (Except.okOr
      ((utf8 (String.ofList dataChars)).mapM fun ch => (charset.idxOf? ch).map UInt8.ofNat)
      (.malformed "bech32 bad char") : Result Bytes)
    let valid ← verifyChecksumChecked hrp data
    if !valid then .error (.malformed "bech32 checksum")
    else do
      let n ← Checked.sub data.length 6
      let without ← Checked.slice data 0 n
      let converted ← convertBitsChecked without 5 8 false
      let bytes ← (Except.okOr converted (.malformed "bech32 convert_bits") : Result Bytes)
      return (hrp, bytes)

theorem length_utf8_eq_byteLength (cs : List Char) :
    (utf8 (String.ofList cs)).length = Checked.byteLength cs := by
  rw [length_utf8_eq_sum, String.toList_ofList, Checked.byteLength]

/-- The last separator is found where the text is split. -/
theorem rfind_eq (c : Char) (cs : List Char) :
    Checked.rfind c cs = (splitLast c cs).map fun p => Checked.byteLength p.1 := by
  induction cs with
  | nil => rfl
  | cons c' cs ih =>
    rw [Checked.rfind, splitLast, ih]
    cases splitLast c cs with
    | none =>
      dsimp only [Option.map_none]
      split_ifs <;> rfl
    | some p => rfl

theorem symbolsChecked_eq {values : Bytes} (h : Fits 5 values) :
    symbolsChecked values = some (values.map symbolByte) :=
  Checked.mapM_eq_some fun v hv => Checked.index_eq_some (h v hv) 0

/-- Every symbol of a text is one of the charset. -/
theorem encode_computes (hrp : String) (data : Bytes) :
    Checked.Computes (encodeChecked hrp data) (encode hrp data) := by
  obtain ⟨values, hvalues, hfits, -⟩ := convertBits_symbols data
  have hconverted : convertBitsChecked data 8 5 true = some (some values) :=
    hvalues ▸ convertBitsChecked_eq (by decide) (by decide) (by decide) data true
  have hsymbols := symbolsChecked_eq (fits_append.2 ⟨hfits, fits_createChecksum hrp values⟩)
  rw [encode, hvalues]
  refine Checked.computes_access_bind hconverted ?_
  refine Checked.Computes.bind (Checked.computes_lift _) fun values' hvalues' => ?_
  obtain rfl := Except.ok.inj hvalues'
  refine Checked.computes_access_bind (createChecksumChecked_eq hrp values) ?_
  refine Checked.computes_access_bind hsymbols ?_
  rw [List.map_map]
  exact Checked.computes_pure _

/-- The checksum can be taken off the symbols of a text that is long enough, and the text
    is cut before and after its last separator. -/
theorem decode_computes (s : String) : Checked.Computes (decodeChecked s) (decode s) := by
  dsimp only [decodeChecked, decode]
  generalize Unicode.toAsciiLowercase s = lower
  rw [rfind_eq]
  cases hsplit : splitLast '1' lower.toList with
  | none => rfl
  | some p =>
    obtain ⟨before, after⟩ := p
    obtain ⟨hlower, -⟩ := splitLast_iff.1 hsplit
    have hlen : (utf8 lower).length = Checked.byteLength before + 1 + Checked.byteLength after := by
      rw [← String.ofList_toList (s := lower), length_utf8_eq_byteLength, hlower,
        ← List.singleton_append, ← List.append_assoc, Checked.byteLength_append,
        Checked.byteLength_append]
      rfl
    have hbefore : Checked.textTo lower.toList (Checked.byteLength before) = some before :=
      hlower ▸ Checked.textTo_append before _
    have hafter : Checked.textFrom lower.toList (Checked.byteLength before + 1) = some after := by
      have hone : Checked.byteLength (before ++ ['1']) = Checked.byteLength before + 1 :=
        Checked.byteLength_append before ['1']
      rw [← hone, hlower, ← List.singleton_append, ← List.append_assoc]
      exact Checked.textFrom_append (before ++ ['1']) after
    refine Checked.computes_lift_bind rfl ?_
    rw [Except.okOr_some, Except.bind_ok]
    dsimp only
    rw [length_utf8_eq_byteLength]
    refine Checked.computes_ite (fun _ => Checked.computes_error _) fun hlong => ?_
    refine Checked.computes_access_bind hbefore ?_
    refine Checked.computes_access_bind hafter ?_
    refine Checked.Computes.bind (Checked.computes_lift _) fun data hdata => ?_
    refine Checked.computes_access_bind (verifyChecksumChecked_eq _ data) ?_
    refine Checked.computes_ite (fun _ => Checked.computes_error _) fun _ => ?_
    -- One symbol for each byte after the separator.
    have hsix : 6 ≤ data.length := by
      obtain ⟨-, hsymbols⟩ := mapM_readSymbol_iff.1 (Except.okOr_eq_ok.1 hdata)
      have hsame := congrArg List.length hsymbols
      rw [length_utf8_eq_byteLength, List.length_map] at hsame
      omega
    refine Checked.computes_access_bind (Checked.sub_eq_some hsix) ?_
    refine Checked.computes_access_bind (Checked.slice_from_start (Nat.sub_le _ _)) ?_
    refine Checked.computes_access_bind
      (convertBitsChecked_eq (by decide) (by decide) (by decide) _ _) ?_
    refine Checked.Computes.bind (Checked.computes_lift _) fun bytes _ => ?_
    exact Checked.computes_pure _

end UnicityNostr.Bech32
