import UnicityNostr.Crates
import UnicityNostr.Lib.Except
import UnicityNostr.Lib.Radix

/-!
# Bech32

The texts of keys, `npub` and `nsec` (NIP-19): a human-readable prefix, the
separator `1`, and symbols of five bits each, the last six of which are a checksum.
-/

namespace UnicityNostr.Bech32

def charset : Bytes := utf8 "qpzry9x8gf2tvdw0s3jn54khce6mua7l"

def generator : List UInt32 := [0x3b6a57b2, 0x26508e6d, 0x1ea119fa, 0x3d4233dd, 0x2a1462b3]

/-! ## Checksums -/

/-- The checksum register after one more value: its five high bits, shifted out,
    choose among the generators. -/
def polymodStep (chk : UInt32) (v : UInt8) : UInt32 :=
  let top := chk >>> 25
  let chk := ((chk &&& 0x1ffffff) <<< 5) ^^^ v.toUInt32
  generator.zipIdx.foldl (fun chk (g, i) =>
    if (top >>> UInt32.ofNat i) &&& 1 = 1 then chk ^^^ g else chk) chk

def polymod (values : Bytes) : UInt32 := values.foldl polymodStep 1

/-- The values of a prefix: the high bits of its bytes, and the low ones. -/
def hrpExpand (hrp : String) : Bytes :=
  let bytes := utf8 hrp
  bytes.map (fun c : UInt8 => c >>> 5) ++ 0 :: bytes.map fun c : UInt8 => c &&& 31

def verifyChecksum (hrp : String) (data : Bytes) : Bool := polymod (hrpExpand hrp ++ data) == 1

/-- The six symbols that complete the data. -/
def createChecksum (hrp : String) (data : Bytes) : Bytes :=
  let m := polymod (hrpExpand hrp ++ data ++ [0, 0, 0, 0, 0, 0]) ^^^ 1
  (List.range 6).map fun i => ((m >>> UInt32.ofNat (5 * (5 - i))) &&& 31).toUInt8

/-! ## Regrouping bits -/

/-- The accumulator of `convertBits`, of which the low `bits` bits are left over, and
    what is put out. -/
structure Regroup where
  acc : Nat := 0
  bits : Nat := 0
  out : Bytes := []

/-- Putting out groups of `toBits` bits, as long as there are enough. -/
def Regroup.drain (toBits : Nat) (s : Regroup) : Regroup :=
  if 0 < toBits ∧ toBits ≤ s.bits then
    let bits := s.bits - toBits
    drain toBits { s with
      bits := bits, out := s.out ++ [UInt8.ofNat ((s.acc >>> bits) &&& (1 <<< toBits - 1))] }
  else s
termination_by s.bits

/-- Taking in a group of `fromBits` bits. The accumulator has 32 bits, and drops the
    high ones. -/
def Regroup.push (fromBits toBits : Nat) (s : Regroup) (value : UInt8) : Option Regroup :=
  if value.toNat >>> fromBits ≠ 0 then none
  else
    some (Regroup.drain toBits { s with
      acc := (s.acc <<< fromBits) % 2 ^ 32 ||| value.toNat, bits := s.bits + fromBits })

/-- Conversion between bit widths; the bits left over are filled up with zeros, or
    must be fewer than a group, and zeros. -/
def convertBits (data : Bytes) (fromBits toBits : Nat) (pad : Bool) : Option Bytes := do
  let maxv := 1 <<< toBits - 1
  let s ← data.foldlM (Regroup.push fromBits toBits) {}
  if pad then
    if s.bits > 0 then
      return s.out ++ [UInt8.ofNat ((s.acc <<< (toBits - s.bits)) % 2 ^ 32 &&& maxv)]
    else return s.out
  else if s.bits ≥ fromBits ∨ (s.acc <<< (toBits - s.bits)) % 2 ^ 32 &&& maxv ≠ 0 then none
  else return s.out

/-! ## Texts -/

/-- The symbol of a value; a value that has none would be a panic. -/
def symbol (v : UInt8) : Char := Char.ofNat (charset.getD v.toNat 0).toNat

/-- The text of a byte string under a prefix. -/
def encode (hrp : String) (data : Bytes) : Result String := do
  let values ← Except.okOr (convertBits data 8 5 true) (.malformed "bech32 convert_bits")
  let checksum := createChecksum hrp values
  return hrp ++ "1" ++ String.ofList ((values ++ checksum).map symbol)

/-- What stands before the last `c`, and what stands after it. -/
def splitLast (c : Char) : List Char → Option (List Char × List Char)
  | [] => none
  | c' :: cs =>
    match splitLast c cs with
    | some (before, after) => some (c' :: before, after)
    | none => if c' = c then some ([], cs) else none

/-- The prefix and the byte string of a text. -/
def decode (s : String) : Result (String × Bytes) := do
  let lower := Unicode.toAsciiLowercase s
  let (before, dataChars) ← Except.okOr (splitLast '1' lower.toList)
    (.malformed "bech32 no separator")
  let hrp := String.ofList before
  let pos := (utf8 hrp).length
  let len := (utf8 lower).length
  if pos < 1 ∨ pos + 7 > len ∨ len > 90 then .error (.malformed "bech32 length")
  else do
    let data ← Except.okOr
      ((utf8 (String.ofList dataChars)).mapM fun ch => (charset.idxOf? ch).map UInt8.ofNat)
      (.malformed "bech32 bad char")
    if !verifyChecksum hrp data then .error (.malformed "bech32 checksum")
    else do
      let without := data.take (data.length - 6)
      let converted ← Except.okOr (convertBits without 5 8 false) (.malformed "bech32 convert_bits")
      return (hrp, converted)

/-- The text of a public key. -/
def encodeNpub (publicKey : U8Array 32) : Result String := encode "npub" publicKey.1

/-- The text of a secret key. -/
def encodeNsec (privateKey : U8Array 32) : Result String := encode "nsec" privateKey.1

/-- The public key of a text. -/
def decodeNpub (npub : String) : Result (U8Array 32) := do
  let (hrp, data) ← decode npub
  if hrp ≠ "npub" then .error (.malformed "expected npub")
  else Except.okOr (U8Array.ofBytes? 32 data) (.invalidLength "npub != 32 bytes")

/-- The secret key of a text. -/
def decodeNsec (nsec : String) : Result (U8Array 32) := do
  let (hrp, data) ← decode nsec
  if hrp ≠ "nsec" then .error (.malformed "expected nsec")
  else Except.okOr (U8Array.ofBytes? 32 data) (.invalidLength "nsec != 32 bytes")

end UnicityNostr.Bech32
