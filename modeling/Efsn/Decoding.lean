import Efsn.Codec
import Efsn.Numeral

/-!
# What the identifier decoders read

Every decoder of identifier text in the package reads hex digits of either
case through `fromHexChar` and takes `0x` and `0X` alike as the prefix, so
none of them sees the case of a letter: texts that lower-case to the same
bytes are accepted or refused alike and decode to the same identifier.  In
particular the checksummed text `Address.Hex` writes is read back by
`UnmarshalText` and `UnmarshalJSON`, whose own counterpart `MarshalText`
writes lower case.

`HexToHash` and `ParseBig256` both read `0x` and hex digits.  They agree on
every such numeral `ParseBig256` accepts; where the value needs more than 256
bits `ParseBig256` refuses it and `HexToHash` keeps its low 256 bits.
`BigToHash` of what `ParseBig256` reads keeps the magnitude and drops the
sign.
-/

namespace Efsn

/-! ### Single bytes -/

/-- What lower-casing a byte leaves as it was, for the decoders: the value of
a hex digit, whether it is one, and the bytes `0`, `"`, `x` and `X` the
prefix and quote tests compare against. -/
structure ToLowerKeeps (c : UInt8) : Prop where
  fromHexChar : fromHexChar (toLowerASCII c) = fromHexChar c
  isHexCharacter : isHexCharacter (toLowerASCII c) = isHexCharacter c
  digitValue : digitValue (toLowerASCII c) = digitValue c
  zero : (toLowerASCII c == 0x30) = (c == 0x30)
  quote : (toLowerASCII c == 0x22) = (c == 0x22)
  x : (toLowerASCII c == 0x78 || toLowerASCII c == 0x58) = (c == 0x78 || c == 0x58)

instance (c : UInt8) : Decidable (ToLowerKeeps c) :=
  decidable_of_iff
    (fromHexChar (toLowerASCII c) = fromHexChar c ∧
      isHexCharacter (toLowerASCII c) = isHexCharacter c ∧
      digitValue (toLowerASCII c) = digitValue c ∧ (toLowerASCII c == 0x30) = (c == 0x30) ∧
      (toLowerASCII c == 0x22) = (c == 0x22) ∧
      (toLowerASCII c == 0x78 || toLowerASCII c == 0x58) = (c == 0x78 || c == 0x58))
    ⟨fun ⟨hexValue, hex, value, zero, quote, x⟩ => ⟨hexValue, hex, value, zero, quote, x⟩,
      fun keeps => ⟨keeps.1, keeps.2, keeps.3, keeps.4, keeps.5, keeps.6⟩⟩

/-- The upper-case letters, the only bytes lower-casing changes. -/
private theorem toLowerKeeps_upper : ∀ k : Fin 26, ToLowerKeeps (UInt8.ofNat (0x41 + k)) := by
  decide

theorem toLowerKeeps (c : UInt8) : ToLowerKeeps c := by
  by_cases upper : 0x41 ≤ c ∧ c ≤ 0x5a
  · have above : 65 ≤ c.toNat := upper.1
    have below : c.toNat ≤ 90 := upper.2
    have back : UInt8.ofNat (0x41 + (c.toNat - 0x41)) = c := by
      rw [Nat.add_sub_cancel' above, UInt8.ofNat_toNat]
    exact back ▸ toLowerKeeps_upper ⟨c.toNat - 0x41, by omega⟩
  · have same : toLowerASCII c = c := if_neg upper
    constructor <;> rw [same]

set_option maxRecDepth 8000 in
private theorem digitValue_lt_of_isHexCharacter_fin : ∀ c : Fin 256,
    isHexCharacter (UInt8.ofNat c) = true → digitValue (UInt8.ofNat c) < 16 := by
  decide

theorem digitValue_lt_of_isHexCharacter {c : UInt8} (hex : isHexCharacter c = true) :
    digitValue c < 16 := by
  have digit := digitValue_lt_of_isHexCharacter_fin ⟨c.toNat, c.toNat_lt_size⟩
  simp only [Fin.val_mk, UInt8.ofNat_toNat] at digit
  exact digit hex

/-! ### Lower-casing the input -/

theorem hasHexPrefix_map_toLowerASCII (s : List UInt8) :
    hasHexPrefix (s.map toLowerASCII) = hasHexPrefix s := by
  match s with
  | zero :: x :: _ =>
      simp only [List.map_cons, hasHexPrefix, (toLowerKeeps zero).zero, (toLowerKeeps x).x]
  | [] => rfl
  | [_] => rfl

theorem stripHexPrefix_map_toLowerASCII (s : List UInt8) :
    stripHexPrefix (s.map toLowerASCII) = (stripHexPrefix s).map toLowerASCII := by
  rw [stripHexPrefix, stripHexPrefix, hasHexPrefix_map_toLowerASCII]
  split
  · rw [List.map_drop]
  · rfl

theorem decodeString_map_toLowerASCII (s : List UInt8) :
    decodeString (s.map toLowerASCII) = decodeString s :=
  decodeString_congr (List.forall₂_map_left_iff.mpr
    (List.forall₂_same.mpr fun c _ => (toLowerKeeps c).fromHexChar))

theorem all_isHexCharacter_map_toLowerASCII (s : List UInt8) :
    (s.map toLowerASCII).all isHexCharacter = s.all isHexCharacter := by
  simp only [List.all_map, Function.comp_def, fun c => (toLowerKeeps c).isHexCharacter]

theorem digitsValue_map_toLowerASCII (base : Nat) (s : List UInt8) :
    digitsValue base (s.map toLowerASCII) = digitsValue base s := by
  simp only [digitsValue, List.foldl_map, fun c => (toLowerKeeps c).digitValue]

theorem fromHex_map_toLowerASCII (s : List UInt8) : fromHex (s.map toLowerASCII) = fromHex s := by
  unfold fromHex
  dsimp only
  rw [stripHexPrefix_map_toLowerASCII, List.length_map]
  split
  · exact decodeString_map_toLowerASCII (0x30 :: stripHexPrefix s)
  · exact decodeString_map_toLowerASCII _

theorem isHexAddress_map_toLowerASCII (s : List UInt8) :
    isHexAddress (s.map toLowerASCII) = isHexAddress s := by
  simp only [isHexAddress, isHex, stripHexPrefix_map_toLowerASCII, List.length_map,
    all_isHexCharacter_map_toLowerASCII]

theorem newMixedcaseAddressFromString_map_toLowerASCII (s : List UInt8) :
    (newMixedcaseAddressFromString (s.map toLowerASCII)).map MixedcaseAddress.addr =
      (newMixedcaseAddressFromString s).map MixedcaseAddress.addr := by
  simp only [newMixedcaseAddressFromString, isHexAddress_map_toLowerASCII,
    fromHex_map_toLowerASCII]
  split <;> rfl

theorem checkText_map_toLowerASCII (input : List UInt8) (wantPrefix : Bool) :
    checkText (input.map toLowerASCII) wantPrefix =
      (checkText input wantPrefix).map (List.map toLowerASCII) := by
  have empty : (input.map toLowerASCII).isEmpty = input.isEmpty := by cases input <;> rfl
  simp only [checkText, empty, hasHexPrefix_map_toLowerASCII, stripHexPrefix_map_toLowerASCII,
    List.length_map]
  split_ifs <;> rfl

theorem unmarshalFixedText_map_toLowerASCII (typname : String) (wantPrefix : Bool)
    (input : List UInt8) {n : Nat} (out : FixedBytes n) :
    unmarshalFixedText typname wantPrefix (input.map toLowerASCII) out =
      unmarshalFixedText typname wantPrefix input out := by
  unfold unmarshalFixedText
  rw [checkText_map_toLowerASCII]
  cases checkText input wantPrefix with
  | error err => rfl
  | ok raw =>
      simp only [Except.map, List.length_map, all_isHexCharacter_map_toLowerASCII,
        decodeString_map_toLowerASCII]

theorem isString_map_toLowerASCII (input : List UInt8) :
    isString (input.map toLowerASCII) = isString input := by
  have quote : ∀ o : Option UInt8, (o.map toLowerASCII == some 0x22) = (o == some 0x22)
    | none => rfl
    | some c => (toLowerKeeps c).quote
  simp only [isString, List.length_map, List.head?_map, List.getLast?_map, quote]

theorem unmarshalFixedJSON_map_toLowerASCII (typname : String) (input : List UInt8) {n : Nat}
    (out : FixedBytes n) :
    unmarshalFixedJSON typname (input.map toLowerASCII) out =
      unmarshalFixedJSON typname input out := by
  unfold unmarshalFixedJSON
  rw [isString_map_toLowerASCII, ← List.map_drop, ← List.map_dropLast,
    unmarshalFixedText_map_toLowerASCII]

/-! ### Case does not matter -/

/-- Whether a decoder of identifier text accepts its input, and what it makes
of it, does not depend on the case of any letter of the input. -/
theorem identifier_decoders_ignore_case {s s' : List UInt8}
    (sameLower : s.map toLowerASCII = s'.map toLowerASCII) :
    hexToHash s = hexToHash s' ∧ hexToAddress s = hexToAddress s' ∧
      isHexAddress s = isHexAddress s' ∧
      (newMixedcaseAddressFromString s).map MixedcaseAddress.addr =
        (newMixedcaseAddressFromString s').map MixedcaseAddress.addr ∧
      (∀ g : Hash, g.unmarshalText s = g.unmarshalText s' ∧
        g.unmarshalJSON s = g.unmarshalJSON s') ∧
      (∀ g : Address, g.unmarshalText s = g.unmarshalText s' ∧
        g.unmarshalJSON s = g.unmarshalJSON s') ∧
      (∀ g : UnprefixedHash, g.unmarshalText s = g.unmarshalText s') ∧
      (∀ g : UnprefixedAddress, g.unmarshalText s = g.unmarshalText s') := by
  have decoded : ∀ {α : Type} (decode : List UInt8 → α),
      (∀ t, decode (t.map toLowerASCII) = decode t) → decode s = decode s' :=
    fun decode keeps => by rw [← keeps s, sameLower, keeps]
  have text : ∀ (typname : String) (wantPrefix : Bool) {n : Nat} (g : FixedBytes n),
      unmarshalFixedText typname wantPrefix s g = unmarshalFixedText typname wantPrefix s' g :=
    fun typname wantPrefix _ g =>
      decoded (unmarshalFixedText typname wantPrefix · g) fun t =>
        unmarshalFixedText_map_toLowerASCII typname wantPrefix t g
  have json : ∀ (typname : String) {n : Nat} (g : FixedBytes n),
      unmarshalFixedJSON typname s g = unmarshalFixedJSON typname s' g :=
    fun typname _ g =>
      decoded (unmarshalFixedJSON typname · g) fun t => unmarshalFixedJSON_map_toLowerASCII typname t g
  exact ⟨decoded hexToHash fun t => congrArg bytesToHash (fromHex_map_toLowerASCII t),
    decoded hexToAddress fun t => congrArg bytesToAddress (fromHex_map_toLowerASCII t),
    decoded isHexAddress isHexAddress_map_toLowerASCII,
    decoded (fun t => (newMixedcaseAddressFromString t).map MixedcaseAddress.addr)
      newMixedcaseAddressFromString_map_toLowerASCII,
    fun g => ⟨text _ _ g, json _ g⟩, fun g => ⟨text _ _ g, json _ g⟩,
    fun g => congrArg (Prod.map id UnprefixedHash.mk) (text _ _ g.hash),
    fun g => congrArg (Prod.map id UnprefixedAddress.mk) (text _ _ g.address)⟩

/-- `0XAb` and `0xaB`, read alike. -/
theorem identifier_decoders_ignore_case_mixed :
    let s : List UInt8 := [0x30, 0x58, 0x41, 0x62]
    let s' : List UInt8 := [0x30, 0x78, 0x61, 0x42]
    s.map toLowerASCII = s'.map toLowerASCII ∧
      hexToHash s = hexToHash s' ∧ hexToAddress s = hexToAddress s' ∧
      isHexAddress s = isHexAddress s' ∧
      (newMixedcaseAddressFromString s).map MixedcaseAddress.addr =
        (newMixedcaseAddressFromString s').map MixedcaseAddress.addr ∧
      (∀ g : Hash, g.unmarshalText s = g.unmarshalText s' ∧
        g.unmarshalJSON s = g.unmarshalJSON s') ∧
      (∀ g : Address, g.unmarshalText s = g.unmarshalText s' ∧
        g.unmarshalJSON s = g.unmarshalJSON s') ∧
      (∀ g : UnprefixedHash, g.unmarshalText s = g.unmarshalText s') ∧
      (∀ g : UnprefixedAddress, g.unmarshalText s = g.unmarshalText s') := by
  intro s s'
  have sameLower : s.map toLowerASCII = s'.map toLowerASCII := by decide
  exact ⟨sameLower, identifier_decoders_ignore_case sameLower⟩

/-- The checksummed text `Address.Hex` writes, whatever the digest, is read
back to the address by `UnmarshalText`, by `UnmarshalJSON` of its JSON string
and by `UnprefixedAddress.UnmarshalText`. -/
theorem checksummed_address_text_decodes (keccak256 : List UInt8 → Hash) (a g : Address) :
    g.unmarshalText (a.hex keccak256) = (.ok (), a) ∧
      g.unmarshalJSON (jsonMarshalText (a.hex keccak256)) = (.ok (), a) ∧
      ∀ u : UnprefixedAddress, u.unmarshalText (a.hex keccak256) = (.ok (), ⟨a⟩) := by
  have read : ∀ (typname : String) (wantPrefix : Bool) (out : Address),
      unmarshalFixedText typname wantPrefix (a.hex keccak256) out = (.ok (), a) :=
    fun typname wantPrefix out => by
      rw [← unmarshalFixedText_map_toLowerASCII, Address.hex_map_toLowerASCII]
      exact unmarshalFixedText_hexutilEncode typname wantPrefix out a
  have digits : (checksumFrom (keccak256 (hexEncode a.bytes)) 0 (hexEncode a.bytes)).all
      isHexCharacter = true :=
    checksumFrom_all_isHexCharacter _ 0 _ fun _ member => mem_hexEncode member
  refine ⟨read _ _ g, ?_, fun u => by
    rw [UnprefixedAddress.unmarshalText, read]
    rfl⟩
  rw [Address.unmarshalJSON, Address.hex, unmarshalFixedJSON_jsonMarshalText _ _ digits]
  exact read _ _ g

/-! ### `HexToHash`, `ParseBig256` and `BigToHash` -/

/-- The bytes `FromHex` decodes from `0x` and hex digits of any length carry
the digits' value. -/
theorem setBytesValue_fromHex {pre d : List UInt8}
    (prefixed : pre = [0x30, 0x78] ∨ pre = [0x30, 0x58]) (digits : d.all isHexCharacter = true) :
    setBytesValue (fromHex (pre ++ d)) = digitsValue 16 d := by
  have stripped : stripHexPrefix (pre ++ d) = d := by rcases prefixed with rfl | rfl <;> rfl
  have even : ∀ text : List UInt8, text.length % 2 = 0 → text.all isHexCharacter = true →
      setBytesValue (decodeString text) = digitsValue 16 text := fun text even hex => by
    rw [← digitsValue_hexEncode, hexEncode_decodeString text even hex,
      digitsValue_map_toLowerASCII]
  unfold fromHex
  dsimp only
  rw [stripped]
  split
  · rw [even (0x30 :: d) (by rw [List.length_cons]; omega) (by rw [List.all_cons, digits]; rfl)]
    exact digitsValue_zeros_append 16 1 d
  · exact even d (by omega) digits

/-- `HexToHash` and `ParseBig256` read `0x` and hex digits alike wherever
`ParseBig256` accepts them; beyond 256 bits `ParseBig256` refuses the value
and `HexToHash` keeps its low 256 bits. -/
theorem hexToHash_agrees_with_parseBig256 {pre d : List UInt8}
    (prefixed : pre = [0x30, 0x78] ∨ pre = [0x30, 0x58]) (nonempty : d ≠ [])
    (digits : d.all isHexCharacter = true) :
    (hexToHash (pre ++ d)).big = ((digitsValue 16 d % 2 ^ 256 : Nat) : Int) ∧
      parseBig256 (pre ++ d) =
        (if digitsValue 16 d < 2 ^ 256 then some (digitsValue 16 d : Int) else none) ∧
      ∀ v, parseBig256 (pre ++ d) = some v → bigToHash v = hexToHash (pre ++ d) := by
  have hashed : (hexToHash (pre ++ d)).big = ((digitsValue 16 d % 2 ^ 256 : Nat) : Int) := by
    show ((FixedBytes.zero HashLength).setBytes (fromHex (pre ++ d))).big = _
    rw [FixedBytes.big_zero_setBytes, setBytesValue_fromHex prefixed digits]
    rfl
  have numeral : SignedNumeral 16 d (digitsValue 16 d) :=
    .unsigned ⟨nonempty, fun c member =>
      digitValue_lt_of_isHexCharacter (List.all_eq_true.mp digits c member)⟩
  have parsed : parseBig256 (pre ++ d) =
      (if digitsValue 16 d < 2 ^ 256 then some (digitsValue 16 d : Int) else none) := by
    have shape : pre ++ d = [0x30, 0x78] ++ d ∨ pre ++ d = [0x30, 0x58] ++ d := by
      rcases prefixed with rfl | rfl <;> simp
    rw [parseBig256_hex shape,
      (setString_eq_some_iff (by decide) (by decide)).mpr numeral, Option.filter_some]
    simp only [decide_eq_true_eq, bitLen_le_iff, Int.natAbs_ofNat]
  refine ⟨hashed, parsed, fun v read => ?_⟩
  rw [parsed] at read
  split at read <;> cases read
  exact FixedBytes.eq_of_big_eq ((FixedBytes.zero_setBytes_intBytes _).trans hashed.symm)

/-- `0XfF`, read by both. -/
theorem hexToHash_agrees_with_parseBig256_fF :
    let pre : List UInt8 := [0x30, 0x58]
    let d : List UInt8 := [0x66, 0x46]
    (pre = [0x30, 0x78] ∨ pre = [0x30, 0x58]) ∧ d ≠ [] ∧ d.all isHexCharacter = true ∧
      (hexToHash (pre ++ d)).big = ((digitsValue 16 d % 2 ^ 256 : Nat) : Int) ∧
      parseBig256 (pre ++ d) =
        (if digitsValue 16 d < 2 ^ 256 then some (digitsValue 16 d : Int) else none) ∧
      ∀ v, parseBig256 (pre ++ d) = some v → bigToHash v = hexToHash (pre ++ d) :=
  ⟨.inr rfl, List.cons_ne_nil _ _, rfl,
    hexToHash_agrees_with_parseBig256 (.inr rfl) (List.cons_ne_nil _ _) rfl⟩

/-- `BigToHash` of what `ParseBig256` reads keeps its magnitude, never cropped,
and drops its sign: the hash of `-v` is the hash of `v`. -/
theorem bigToHash_parseBig256 {s : List UInt8} {v : Int} (read : parseBig256 s = some v) :
    (bigToHash v).big = v.natAbs ∧ bigToHash v = bigToHash (-v) := by
  have bound : v.natAbs < 2 ^ 256 := by
    rcases (parseBig256_eq_some_iff s v).mp read with ⟨-, rfl⟩ | ⟨-, -, -, fits⟩ | ⟨-, fits⟩
    · simp
    · exact fits
    · exact fits
  have unsigned : bigToHash (-v) = bigToHash v := by
    simp only [bigToHash, intBytes, Int.natAbs_neg]
  refine ⟨?_, unsigned.symm⟩
  show ((FixedBytes.zero HashLength).setBytes (intBytes v)).big = _
  have width : 256 ^ HashLength = 2 ^ 256 := by norm_num [HashLength]
  rw [FixedBytes.big_zero_setBytes, setBytesValue_intBytes, width, Nat.mod_eq_of_lt bound]

/-- `ParseBig256("-1")`, through `BigToHash`, is the hash of 1. -/
theorem bigToHash_parseBig256_minus_one :
    parseBig256 [0x2d, 0x31] = some (-1) ∧
      (bigToHash (-1)).big = (-1 : Int).natAbs ∧ bigToHash (-1) = bigToHash (-(-1)) := by
  have read : parseBig256 [0x2d, 0x31] = some (-1) :=
    (parseBig256_eq_some_iff _ _).mpr
      (.inr (.inr ⟨.minus ⟨List.cons_ne_nil _ _, by decide⟩, by decide⟩))
  exact ⟨read, bigToHash_parseBig256 read⟩

end Efsn
