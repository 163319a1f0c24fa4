import Efsn.Bytes

/-!
# Hex text

`encoding/hex` writes each byte as two lower-case digits taken from
`hextable` and reads digits of either case back.  The helpers of
`common/bytes.go` (`hasHexPrefix`, `isHex`, `FromHex`) and `hexutil.Encode`
sit on top of it; those two files are not among the sources, so their
definitions are modelled from the package's specification and say so.

Every fact about digits is reduced to one statement over the sixteen digit
values, decided once, and to the arithmetic of a byte's two halves.
-/

namespace Efsn

/-- `hextable` of `encoding/hex`: the digits `0123456789abcdef`. -/
def hextable : List UInt8 :=
  [0x30, 0x31, 0x32, 0x33, 0x34, 0x35, 0x36, 0x37, 0x38, 0x39,
    0x61, 0x62, 0x63, 0x64, 0x65, 0x66]

/-- `hex.EncodeToString`: byte `v` becomes `hextable[v>>4]`, `hextable[v&0x0f]`. -/
def hexEncode (src : List UInt8) : List UInt8 :=
  src.flatMap fun v => [hextable.getD (v >>> 4).toNat 0, hextable.getD (v &&& 0x0f).toNat 0]

/-- `fromHexChar` of `encoding/hex`: the value of one digit of either case. -/
def fromHexChar (c : UInt8) : Option UInt8 :=
  if 0x30 ≤ c ∧ c ≤ 0x39 then some (c - 0x30)
  else if 0x61 ≤ c ∧ c ≤ 0x66 then some (c - 0x61 + 10)
  else if 0x41 ≤ c ∧ c ≤ 0x46 then some (c - 0x41 + 10)
  else none

/-- `hex.DecodeString`, keeping what it returns on malformed input: the bytes
decoded before the first pair that is not two digits.  A last unpaired digit
is not decoded. -/
def decodeString : List UInt8 → List UInt8
  | high :: low :: rest =>
      match fromHexChar high, fromHexChar low with
      | some a, some b => ((a <<< 4) ||| b) :: decodeString rest
      | _, _ => []
  | _ => []

/-- Modelled from the spec: `hasHexPrefix` of `common/bytes.go`, which is not
among the sources (`hexutil` keeps an identical `bytesHave0xPrefix`). -/
def hasHexPrefix (s : List UInt8) : Bool :=
  match s with
  | zero :: x :: _ => zero == 0x30 && (x == 0x78 || x == 0x58)
  | _ => false

/-- Modelled from the spec: `isHexCharacter` of `common/bytes.go`. -/
def isHexCharacter (c : UInt8) : Bool :=
  (0x30 ≤ c && c ≤ 0x39) || (0x61 ≤ c && c ≤ 0x66) || (0x41 ≤ c && c ≤ 0x46)

/-- Modelled from the spec: `isHex` of `common/bytes.go`, an even number of
hex characters. -/
def isHex (s : List UInt8) : Bool :=
  s.length % 2 == 0 && s.all isHexCharacter

/-- The text after an optional `0x` or `0X` prefix. -/
def stripHexPrefix (s : List UInt8) : List UInt8 :=
  if hasHexPrefix s then s.drop 2 else s

/-- Modelled from the spec: `FromHex` of `common/bytes.go`.  After an optional
prefix, an odd digit count is padded with a leading `0` before decoding. -/
def fromHex (s : List UInt8) : List UInt8 :=
  let s := stripHexPrefix s
  decodeString (if s.length % 2 = 1 then 0x30 :: s else s)

/-- Modelled from the spec: `hexutil.Encode`, which is not among the sources,
and `hexutil.Bytes.MarshalText`, which writes the same text. -/
def hexutilEncode (b : List UInt8) : List UInt8 :=
  [0x30, 0x78] ++ hexEncode b

/-! ### Digits and halves of a byte -/

theorem UInt8.toNat_shiftRight_four (v : UInt8) : (v >>> 4).toNat = v.toNat / 16 := by
  show (v.toBitVec >>> (UInt8.mod 4 8).toBitVec.toNat).toNat = _
  simp [BitVec.toNat_ushiftRight, Nat.shiftRight_eq_div_pow]
  rfl

theorem UInt8.toNat_and_fifteen (v : UInt8) : (v &&& 0x0f).toNat = v.toNat % 16 := by
  show (v.toBitVec &&& (15 : BitVec 8)).toNat = _
  rw [BitVec.toNat_and]
  exact Nat.and_pow_two_sub_one_eq_mod _ 4

theorem UInt8.ofNat_toNat (v : UInt8) : UInt8.ofNat v.toNat = v :=
  UInt8.toNat.inj (UInt8.toNat_ofNat_of_lt v.toNat_lt_size)

private theorem UInt8.toNat_ofNat_digit {digit : Nat} (fits : digit < 16) :
    (UInt8.ofNat digit).toNat = digit :=
  UInt8.toNat_ofNat_of_lt (by unfold UInt8.size; omega)

/-- The sixteen digits: each reads back as its own value and is a hex character. -/
private theorem hextable_digits : ∀ digit : Fin 16,
    fromHexChar (hextable.getD digit 0) = some (UInt8.ofNat digit) ∧
      isHexCharacter (hextable.getD digit 0) = true ∧ hextable.getD digit 0 ∈ hextable := by
  decide

private theorem joinHalves_fin : ∀ high low : Fin 16,
    ((UInt8.ofNat high <<< 4) ||| UInt8.ofNat low).toNat = high * 16 + low := by
  decide

theorem joinHalves_toNat {high low : UInt8} (highFits : high.toNat < 16)
    (lowFits : low.toNat < 16) :
    ((high <<< 4) ||| low).toNat = high.toNat * 16 + low.toNat := by
  simpa [UInt8.ofNat_toNat] using joinHalves_fin ⟨high.toNat, highFits⟩ ⟨low.toNat, lowFits⟩

theorem fromHexChar_hextable {digit : Nat} (fits : digit < 16) :
    fromHexChar (hextable.getD digit 0) = some (UInt8.ofNat digit) :=
  (hextable_digits ⟨digit, fits⟩).1

theorem isHexCharacter_hextable {digit : Nat} (fits : digit < 16) :
    isHexCharacter (hextable.getD digit 0) = true :=
  (hextable_digits ⟨digit, fits⟩).2.1

theorem hextable_getD_mem {digit : Nat} (fits : digit < 16) : hextable.getD digit 0 ∈ hextable :=
  (hextable_digits ⟨digit, fits⟩).2.2

theorem UInt8.halves_lt (v : UInt8) : v.toNat / 16 < 16 ∧ v.toNat % 16 < 16 := by
  have : v.toNat < 256 := v.toNat_lt_size
  omega

theorem isHexCharacter_iff (c : UInt8) : isHexCharacter c = (fromHexChar c).isSome := by
  unfold isHexCharacter fromHexChar
  split_ifs <;> simp_all

/-! ### Encoding -/

@[simp]
theorem hexEncode_nil : hexEncode [] = [] := rfl

theorem hexEncode_cons (v : UInt8) (rest : List UInt8) :
    hexEncode (v :: rest) =
      hextable.getD (v.toNat / 16) 0 :: hextable.getD (v.toNat % 16) 0 :: hexEncode rest := by
  rw [hexEncode, List.flatMap, List.map_cons, List.flatten_cons, UInt8.toNat_shiftRight_four,
    UInt8.toNat_and_fifteen]
  rfl

@[simp]
theorem hexEncode_length (src : List UInt8) : (hexEncode src).length = 2 * src.length := by
  induction src with
  | nil => rfl
  | cons v rest induction => simp [hexEncode_cons, induction]; omega

theorem hexEncode_all_isHexCharacter (src : List UInt8) :
    (hexEncode src).all isHexCharacter = true := by
  induction src with
  | nil => rfl
  | cons v rest induction =>
      obtain ⟨high, low⟩ := UInt8.halves_lt v
      simp only [hexEncode_cons, List.all_cons, isHexCharacter_hextable high,
        isHexCharacter_hextable low, induction, Bool.and_self]

theorem decodeString_hexEncode (src : List UInt8) : decodeString (hexEncode src) = src := by
  induction src with
  | nil => rfl
  | cons v rest induction =>
      obtain ⟨high, low⟩ := UInt8.halves_lt v
      have joined : ((UInt8.ofNat (v.toNat / 16) <<< 4) ||| UInt8.ofNat (v.toNat % 16)) = v := by
        apply UInt8.toNat.inj
        rw [joinHalves_toNat (by rwa [UInt8.toNat_ofNat_digit high])
          (by rwa [UInt8.toNat_ofNat_digit low]), UInt8.toNat_ofNat_digit high,
          UInt8.toNat_ofNat_digit low]
        omega
      rw [hexEncode_cons, decodeString, fromHexChar_hextable high, fromHexChar_hextable low]
      dsimp only
      rw [joined, induction]

theorem mem_hexEncode {c : UInt8} {src : List UInt8} (member : c ∈ hexEncode src) :
    c ∈ hextable := by
  induction src with
  | nil => simp at member
  | cons v rest induction =>
      obtain ⟨high, low⟩ := UInt8.halves_lt v
      rw [hexEncode_cons] at member
      rcases List.mem_cons.mp member with first | member
      · exact first ▸ hextable_getD_mem high
      rcases List.mem_cons.mp member with second | member
      · exact second ▸ hextable_getD_mem low
      exact induction member

theorem fromHex_of_even {s : List UInt8} (even : (stripHexPrefix s).length % 2 = 0) :
    fromHex s = decodeString (stripHexPrefix s) := by
  simp [fromHex, even]

@[simp]
theorem stripHexPrefix_hexutilEncode (src : List UInt8) :
    stripHexPrefix (hexutilEncode src) = hexEncode src := by
  simp [stripHexPrefix, hasHexPrefix, hexutilEncode]

/-- Plain hex never starts with a prefix: its second character is a digit. -/
theorem hasHexPrefix_hexEncode (src : List UInt8) : hasHexPrefix (hexEncode src) = false := by
  have notX : ∀ c ∈ hextable, (c == 0x78 || c == 0x58) = false := by decide
  cases src with
  | nil => rfl
  | cons v rest =>
      rw [hexEncode_cons, hasHexPrefix, notX _ (hextable_getD_mem (UInt8.halves_lt v).2),
        Bool.and_false]

theorem fromHex_hexutilEncode (src : List UInt8) : fromHex (hexutilEncode src) = src := by
  simp [fromHex, hexutilEncode, stripHexPrefix, hasHexPrefix, decodeString_hexEncode]

end Efsn
