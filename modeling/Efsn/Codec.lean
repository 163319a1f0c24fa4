import Efsn.Checksum

/-!
# Text and JSON codecs of the identifiers

`MarshalText` writes `0x` and lower-case hex (the `Unprefixed` types leave the
prefix out); `json.Marshal` quotes that text.  The readers are the `hexutil`
fixed-width decoders, which are not among the sources and are modelled from
the specification: `UnmarshalFixedText` requires the prefix,
`UnmarshalFixedUnprefixedText` accepts it optionally, `UnmarshalFixedJSON`
unquotes first.  Each checks the length and every digit before its one write
to the receiver, so a rejected input leaves the receiver as it was.
-/

namespace Efsn

inductive HexError where
  | nonString
  | missingPrefix
  | oddLength
  | invalidHex
  | wrongLength (got want : Nat) (typname : String)
deriving DecidableEq

/-- Modelled from the spec: `checkText` of `hexutil`, which is not among the
sources.  Empty text passes; otherwise the `0x` prefix is stripped, or is an
error when required, and the rest must have even length. -/
def checkText (input : List UInt8) (wantPrefix : Bool) : Except HexError (List UInt8) :=
  if input.isEmpty then .ok []
  else if !hasHexPrefix input && wantPrefix then .error .missingPrefix
  else if (stripHexPrefix input).length % 2 ≠ 0 then .error .oddLength
  else .ok (stripHexPrefix input)

/-- Modelled from the spec: `UnmarshalFixedText` (`wantPrefix`) and
`UnmarshalFixedUnprefixedText` of `hexutil`.  Every digit is checked before
`hex.Decode` writes the receiver. -/
def unmarshalFixedText (typname : String) (wantPrefix : Bool) (input : List UInt8)
    {n : Nat} (out : FixedBytes n) : Except HexError Unit × FixedBytes n :=
  match checkText input wantPrefix with
  | .error err => (.error err, out)
  | .ok raw =>
      if raw.length / 2 ≠ n then (.error (.wrongLength raw.length (n * 2) typname), out)
      else if !raw.all isHexCharacter then (.error .invalidHex, out)
      else (.ok (), out.copyFrom (decodeString raw))

/-- Modelled from the spec: `isString` of `hexutil`, a quoted input. -/
def isString (input : List UInt8) : Bool :=
  2 ≤ input.length && input.head? == some 0x22 && input.getLast? == some 0x22

/-- Modelled from the spec: `UnmarshalFixedJSON` of `hexutil`, the prefixed
text decoder on the input without its quotes. -/
def unmarshalFixedJSON (typname : String) (input : List UInt8) {n : Nat} (out : FixedBytes n) :
    Except HexError Unit × FixedBytes n :=
  if isString input then unmarshalFixedText typname true (input.drop 1).dropLast out
  else (.error .nonString, out)

/-- One byte of `encoding/json`'s HTML-safe string encoder: `"` and `\`
get a backslash, newline, return and tab their short escapes, the other
control bytes and `<`, `>`, `&` a `\u00XX` escape.  Bytes from 0x80 on are
passed through; the encoder's UTF-8 check there is left out of the model. -/
def jsonEscape (b : UInt8) : List UInt8 :=
  if b = 0x22 ∨ b = 0x5c then [0x5c, b]
  else if b = 0x0a then [0x5c, 0x6e]
  else if b = 0x0d then [0x5c, 0x72]
  else if b = 0x09 then [0x5c, 0x74]
  else if b < 0x20 ∨ b = 0x3c ∨ b = 0x3e ∨ b = 0x26 then
    [0x5c, 0x75, 0x30, 0x30, hextable.getD (b >>> 4).toNat 0, hextable.getD (b &&& 0x0f).toNat 0]
  else [b]

/-- `json.Marshal` of a value whose `MarshalText` is `text`: a JSON string. -/
def jsonMarshalText (text : List UInt8) : List UInt8 :=
  [0x22] ++ text.flatMap jsonEscape ++ [0x22]

/-! ### The methods -/

def Hash.marshalText (h : Hash) : List UInt8 := hexutilEncode h.bytes

def Hash.unmarshalText (h : Hash) (input : List UInt8) : Except HexError Unit × Hash :=
  unmarshalFixedText "Hash" true input h

def Hash.unmarshalJSON (h : Hash) (input : List UInt8) : Except HexError Unit × Hash :=
  unmarshalFixedJSON "common.Hash" input h

structure UnprefixedHash where
  hash : Hash
deriving DecidableEq

def UnprefixedHash.marshalText (h : UnprefixedHash) : List UInt8 := hexEncode h.hash.bytes

def UnprefixedHash.unmarshalText (h : UnprefixedHash) (input : List UInt8) :
    Except HexError Unit × UnprefixedHash :=
  Prod.map id UnprefixedHash.mk (unmarshalFixedText "UnprefixedHash" false input h.hash)

/-- `Address.MarshalText`: plain lower-case hex, not the checksummed text. -/
def Address.marshalText (a : Address) : List UInt8 := hexutilEncode a.bytes

def Address.unmarshalText (a : Address) (input : List UInt8) : Except HexError Unit × Address :=
  unmarshalFixedText "Address" true input a

def Address.unmarshalJSON (a : Address) (input : List UInt8) : Except HexError Unit × Address :=
  unmarshalFixedJSON "common.Address" input a

structure UnprefixedAddress where
  address : Address
deriving DecidableEq

def UnprefixedAddress.marshalText (a : UnprefixedAddress) : List UInt8 :=
  hexEncode a.address.bytes

def UnprefixedAddress.unmarshalText (a : UnprefixedAddress) (input : List UInt8) :
    Except HexError Unit × UnprefixedAddress :=
  Prod.map id UnprefixedAddress.mk (unmarshalFixedText "UnprefixedAddress" false input a.address)

/-! ### What the decoders accept -/

/-- Text a fixed-width decoder accepts: `0x` or `0X` (optional unless
`wantPrefix`), then exactly `2 * n` hex digits. -/
def IsHexPayload (wantPrefix : Bool) (n : Nat) (input : List UInt8) : Prop :=
  (wantPrefix = true → hasHexPrefix input = true) ∧
    (stripHexPrefix input).length = 2 * n ∧ (stripHexPrefix input).all isHexCharacter = true

def IsJSONHexPayload (n : Nat) (input : List UInt8) : Prop :=
  isString input = true ∧ IsHexPayload true n (input.drop 1).dropLast

theorem checkText_eq_ok {input raw : List UInt8} {wantPrefix : Bool}
    (checked : checkText input wantPrefix = .ok raw) :
    (input = [] ∧ raw = []) ∨
      ((wantPrefix = true → hasHexPrefix input = true) ∧ raw = stripHexPrefix input ∧
        raw.length % 2 = 0) := by
  unfold checkText at checked
  split_ifs at checked with empty missing odd
  · cases checked
    exact .inl ⟨List.isEmpty_iff.mp empty, rfl⟩
  · cases checked
    exact .inr ⟨fun want => by simpa [want] using missing, rfl, by omega⟩

section

variable {n : Nat} (typname : String) (wantPrefix : Bool) (out : FixedBytes n)

theorem unmarshalFixedText_error_keeps {input : List UInt8}
    (failed : (unmarshalFixedText typname wantPrefix input out).1 ≠ .ok ()) :
    (unmarshalFixedText typname wantPrefix input out).2 = out := by
  unfold unmarshalFixedText at failed ⊢
  split
  · rfl
  · split_ifs at failed ⊢ <;> simp_all

theorem unmarshalFixedText_payload (positive : 0 < n) {input : List UInt8}
    (accepted : (unmarshalFixedText typname wantPrefix input out).1 = .ok ()) :
    IsHexPayload wantPrefix n input := by
  unfold unmarshalFixedText at accepted
  split at accepted
  · cases accepted
  · rename_i raw checked
    split_ifs at accepted with length digits
    rcases checkText_eq_ok checked with ⟨-, rfl⟩ | ⟨prefixed, rfl, even⟩
    · simp at length
      omega
    · exact ⟨prefixed, by omega, by simpa using digits⟩

/-- Any other input is an error and the receiver is not written. -/
theorem unmarshalFixedText_rejects (positive : 0 < n) {input : List UInt8}
    (malformed : ¬ IsHexPayload wantPrefix n input) :
    ∃ err, unmarshalFixedText typname wantPrefix input out = (.error err, out) := by
  have failed : (unmarshalFixedText typname wantPrefix input out).1 ≠ .ok () :=
    fun accepted => malformed (unmarshalFixedText_payload typname wantPrefix out positive accepted)
  have kept := unmarshalFixedText_error_keeps typname wantPrefix out failed
  revert failed kept
  rcases unmarshalFixedText typname wantPrefix input out with ⟨_ | _, result⟩
  · rintro - rfl
    exact ⟨_, rfl⟩
  · simp

theorem unmarshalFixedText_accepts {input : List UInt8}
    (wellFormed : IsHexPayload wantPrefix n input) :
    unmarshalFixedText typname wantPrefix input out =
      (.ok (), out.copyFrom (decodeString (stripHexPrefix input))) := by
  obtain ⟨prefixed, length, digits⟩ := wellFormed
  have checked : checkText input wantPrefix = .ok (stripHexPrefix input) := by
    by_cases empty : input = []
    · subst empty
      rfl
    · have present : ¬ (!hasHexPrefix input && wantPrefix) = true := by
        cases wantPrefix <;> simp_all
      simp [checkText, empty, present, length]
  have half : (stripHexPrefix input).length / 2 = n := by omega
  simp [unmarshalFixedText, checked, half, digits]

theorem unmarshalFixedText_hexutilEncode (value : FixedBytes n) :
    unmarshalFixedText typname wantPrefix (hexutilEncode value.bytes) out = (.ok (), value) := by
  have wellFormed : IsHexPayload wantPrefix n (hexutilEncode value.bytes) :=
    ⟨fun _ => rfl, by simp [value.length_eq], by simp [hexEncode_all_isHexCharacter]⟩
  rw [unmarshalFixedText_accepts typname wantPrefix out wellFormed, stripHexPrefix_hexutilEncode,
    decodeString_hexEncode, FixedBytes.copyFrom_of_length _ value.length_eq]

theorem unmarshalFixedText_hexEncode (value : FixedBytes n) :
    unmarshalFixedText typname false (hexEncode value.bytes) out = (.ok (), value) := by
  have stripped : stripHexPrefix (hexEncode value.bytes) = hexEncode value.bytes := by
    simp [stripHexPrefix, hasHexPrefix_hexEncode]
  have wellFormed : IsHexPayload false n (hexEncode value.bytes) :=
    ⟨nofun, by simp [stripped, value.length_eq], by simp [stripped, hexEncode_all_isHexCharacter]⟩
  rw [unmarshalFixedText_accepts typname false out wellFormed, stripped,
    decodeString_hexEncode, FixedBytes.copyFrom_of_length _ value.length_eq]

end

/-! ### JSON -/

set_option maxRecDepth 8000 in
private theorem jsonEscape_hex_bytes : ∀ c : Fin 256,
    (isHexCharacter (UInt8.ofNat c) || UInt8.ofNat c == 0x78) = true →
      jsonEscape (UInt8.ofNat c) = [UInt8.ofNat c] := by
  decide

/-- Hex digits of either case and the `x` of the prefix need no JSON escape. -/
theorem flatMap_jsonEscape_of_hex : ∀ {text : List UInt8},
    (∀ c ∈ text, isHexCharacter c = true ∨ c = 0x78) → text.flatMap jsonEscape = text
  | [], _ => rfl
  | c :: rest, plain => by
      have head := jsonEscape_hex_bytes ⟨c.toNat, c.toNat_lt_size⟩
      rw [UInt8.ofNat_toNat] at head
      rw [List.flatMap_cons, head (by simpa using plain c (List.mem_cons_self _ _)),
        flatMap_jsonEscape_of_hex fun d member => plain d (List.mem_cons_of_mem _ member)]
      rfl

theorem flatMap_jsonEscape_hexPrefixed {body : List UInt8} (digits : body.all isHexCharacter = true) :
    ([0x30, 0x78] ++ body).flatMap jsonEscape = [0x30, 0x78] ++ body := by
  refine flatMap_jsonEscape_of_hex fun c member => ?_
  simp only [List.cons_append, List.nil_append, List.mem_cons] at member
  rcases member with rfl | rfl | member
  · exact .inl rfl
  · exact .inr rfl
  · exact .inl (List.all_eq_true.mp digits c member)

section

variable {n : Nat} (typname : String) (out : FixedBytes n)

/-- The JSON string of `0x` and hex digits is quoted and holds no escape, so
`UnmarshalFixedJSON` reads the text itself. -/
theorem unmarshalFixedJSON_jsonMarshalText {body : List UInt8}
    (digits : body.all isHexCharacter = true) :
    unmarshalFixedJSON typname (jsonMarshalText ([0x30, 0x78] ++ body)) out =
      unmarshalFixedText typname true ([0x30, 0x78] ++ body) out := by
  have quoted : isString (jsonMarshalText ([0x30, 0x78] ++ body)) = true := by
    rw [jsonMarshalText, flatMap_jsonEscape_hexPrefixed digits, isString, List.getLast?_concat]
    simp
  rw [unmarshalFixedJSON, if_pos quoted, jsonMarshalText, flatMap_jsonEscape_hexPrefixed digits]
  exact congrArg (fun text => unmarshalFixedText typname true text out) List.dropLast_concat

theorem unmarshalFixedJSON_marshal (value : FixedBytes n) :
    unmarshalFixedJSON typname (jsonMarshalText (hexutilEncode value.bytes)) out =
      (.ok (), value) :=
  (unmarshalFixedJSON_jsonMarshalText typname out (hexEncode_all_isHexCharacter _)).trans
    (unmarshalFixedText_hexutilEncode typname true out value)

theorem unmarshalFixedJSON_rejects (positive : 0 < n) {input : List UInt8}
    (malformed : ¬ IsJSONHexPayload n input) :
    ∃ err, unmarshalFixedJSON typname input out = (.error err, out) := by
  unfold unmarshalFixedJSON
  split
  · exact unmarshalFixedText_rejects typname true out positive fun payload =>
      malformed ⟨‹_›, payload⟩
  · exact ⟨_, rfl⟩

end

/-- Each text codec is a bijection between values and their canonical text,
and every other input is rejected without touching the receiver. -/
theorem identifier_text_codecs (keccak256 : List UInt8 → Hash) :
    (∀ h g : Hash, g.unmarshalText h.marshalText = (.ok (), h) ∧
      g.unmarshalJSON (jsonMarshalText h.marshalText) = (.ok (), h) ∧ hexToHash h.hex = h) ∧
    (∀ u g : UnprefixedHash, g.unmarshalText u.marshalText = (.ok (), u) ∧
      g.unmarshalText ([0x30, 0x78] ++ u.marshalText) = (.ok (), u)) ∧
    (∀ a g : Address, g.unmarshalText a.marshalText = (.ok (), a) ∧
      g.unmarshalJSON (jsonMarshalText a.marshalText) = (.ok (), a) ∧
      hexToAddress (a.hex keccak256) = a) ∧
    (∀ u g : UnprefixedAddress, g.unmarshalText u.marshalText = (.ok (), u) ∧
      g.unmarshalText ([0x30, 0x78] ++ u.marshalText) = (.ok (), u)) ∧
    (∀ (input : List UInt8) (g : Hash), ¬ IsHexPayload true 32 input →
      ∃ err, g.unmarshalText input = (.error err, g)) ∧
    (∀ (input : List UInt8) (g : Hash), ¬ IsJSONHexPayload 32 input →
      ∃ err, g.unmarshalJSON input = (.error err, g)) ∧
    (∀ (input : List UInt8) (g : UnprefixedHash), ¬ IsHexPayload false 32 input →
      ∃ err, g.unmarshalText input = (.error err, g)) ∧
    (∀ (input : List UInt8) (g : Address), ¬ IsHexPayload true 20 input →
      ∃ err, g.unmarshalText input = (.error err, g)) ∧
    (∀ (input : List UInt8) (g : Address), ¬ IsJSONHexPayload 20 input →
      ∃ err, g.unmarshalJSON input = (.error err, g)) ∧
    (∀ (input : List UInt8) (g : UnprefixedAddress), ¬ IsHexPayload false 20 input →
      ∃ err, g.unmarshalText input = (.error err, g)) := by
  refine ⟨fun h g => ⟨unmarshalFixedText_hexutilEncode _ _ _ h,
      unmarshalFixedJSON_marshal _ _ h, hexToHash_hex h⟩,
    fun u g => ⟨?_, ?_⟩,
    fun a g => ⟨unmarshalFixedText_hexutilEncode _ _ _ a, unmarshalFixedJSON_marshal _ _ a,
      a.hexToAddress_hex keccak256⟩,
    fun u g => ⟨?_, ?_⟩,
    fun input g malformed => unmarshalFixedText_rejects _ _ g (by decide) malformed,
    fun input g malformed => unmarshalFixedJSON_rejects _ g (by decide) malformed,
    fun input g malformed => ?_,
    fun input g malformed => unmarshalFixedText_rejects _ _ g (by decide) malformed,
    fun input g malformed => unmarshalFixedJSON_rejects _ g (by decide) malformed,
    fun input g malformed => ?_⟩
  · simp [UnprefixedHash.unmarshalText, UnprefixedHash.marshalText, unmarshalFixedText_hexEncode]
  · have prefixed : [0x30, 0x78] ++ u.marshalText = hexutilEncode u.hash.bytes := rfl
    simp [UnprefixedHash.unmarshalText, prefixed, unmarshalFixedText_hexutilEncode]
  · simp [UnprefixedAddress.unmarshalText, UnprefixedAddress.marshalText,
      unmarshalFixedText_hexEncode]
  · have prefixed : [0x30, 0x78] ++ u.marshalText = hexutilEncode u.address.bytes := rfl
    simp [UnprefixedAddress.unmarshalText, prefixed, unmarshalFixedText_hexutilEncode]
  · obtain ⟨err, rejected⟩ := unmarshalFixedText_rejects "UnprefixedHash" false g.hash
      (by decide) malformed
    exact ⟨err, by simp [UnprefixedHash.unmarshalText, rejected]⟩
  · obtain ⟨err, rejected⟩ := unmarshalFixedText_rejects "UnprefixedAddress" false g.address
      (by decide) malformed
    exact ⟨err, by simp [UnprefixedAddress.unmarshalText, rejected]⟩

/-! ### Mixed-case addresses in JSON -/

/-- The Go string `json.Unmarshal` reads from a JSON string: the text between
the quotes.  `MixedcaseAddress.UnmarshalJSON` reaches it only with input that
`UnmarshalFixedJSON` accepted, a quoted `0x` and hex digits, which holds no
escape to undo. -/
def jsonUnquote (input : List UInt8) : List UInt8 := (input.drop 1).dropLast

/-- `MixedcaseAddress.UnmarshalJSON`: the address through `UnmarshalFixedJSON`,
then the original text through `json.Unmarshal`. -/
def MixedcaseAddress.unmarshalJSON (ma : MixedcaseAddress) (input : List UInt8) :
    Except HexError Unit × MixedcaseAddress :=
  match unmarshalFixedJSON "common.Address" input ma.addr with
  | (.ok (), addr) => (.ok (), ⟨addr, jsonUnquote input⟩)
  | (.error err, addr) => (.error err, { ma with addr })

/-- `MixedcaseAddress.MarshalJSON`: `json.Marshal` of the original text with
its `0x` or `0X` prefix written `0x`, or with `0x` put before it when it has
none. -/
def MixedcaseAddress.marshalJSON (ma : MixedcaseAddress) : List UInt8 :=
  if ma.original.take 2 = [0x30, 0x78] ∨ ma.original.take 2 = [0x30, 0x58] then
    jsonMarshalText ([0x30, 0x78] ++ ma.original.drop 2)
  else jsonMarshalText ([0x30, 0x78] ++ ma.original)

/-- The mixed-case addresses a caller can hold: each is made by one of the
three constructors. -/
inductive MixedcaseAddress.Obtained (keccak256 : List UInt8 → Hash) : MixedcaseAddress → Prop
  | ofAddress (addr : Address) : Obtained keccak256 (newMixedcaseAddress keccak256 addr)
  | ofString {hexaddr : List UInt8} {ma : MixedcaseAddress} :
      newMixedcaseAddressFromString hexaddr = .ok ma → Obtained keccak256 ma
  | ofJSON {g ma : MixedcaseAddress} {input : List UInt8} :
      g.unmarshalJSON input = (.ok (), ma) → Obtained keccak256 ma

theorem stripHexPrefix_cases (s : List UInt8) :
    s = [0x30, 0x78] ++ stripHexPrefix s ∨ s = [0x30, 0x58] ++ stripHexPrefix s ∨
      s = stripHexPrefix s := by
  match s with
  | zero :: x :: rest =>
      by_cases prefixed : zero = 0x30 ∧ (x = 0x78 ∨ x = 0x58)
      · obtain ⟨rfl, rfl | rfl⟩ := prefixed
        · exact .inl rfl
        · exact .inr (.inl rfl)
      · exact .inr (.inr (by simp [stripHexPrefix, hasHexPrefix, prefixed]))
  | [] => exact .inr (.inr rfl)
  | [_] => exact .inr (.inr rfl)

theorem MixedcaseAddress.marshalJSON_eq (ma : MixedcaseAddress) :
    ma.marshalJSON = jsonMarshalText ([0x30, 0x78] ++ stripHexPrefix ma.original) := by
  obtain ⟨addr, original⟩ := ma
  unfold MixedcaseAddress.marshalJSON
  match original with
  | zero :: x :: rest =>
      by_cases prefixed : zero = 0x30 ∧ (x = 0x78 ∨ x = 0x58)
      · obtain ⟨rfl, rfl | rfl⟩ := prefixed <;> rfl
      · have lower : ¬ (zero = 0x30 ∧ x = 0x78) := fun same => prefixed ⟨same.1, .inl same.2⟩
        have upper : ¬ (zero = 0x30 ∧ x = 0x58) := fun same => prefixed ⟨same.1, .inr same.2⟩
        simp [stripHexPrefix, hasHexPrefix, prefixed, lower, upper]
  | [] => rfl
  | [_] => simp [stripHexPrefix, hasHexPrefix]

theorem Address.copyFrom_decodeString {s : List UInt8} (valid : isHexAddress s = true)
    (g : Address) : g.copyFrom (decodeString (stripHexPrefix s)) = hexToAddress s := by
  have bytes := (hexToAddress_bytes valid).1
  have length : (decodeString (stripHexPrefix s)).length = AddressLength := by
    rw [← bytes]
    exact (hexToAddress s).length_eq
  rw [FixedBytes.copyFrom_of_length g length]
  exact FixedBytes.ext bytes.symm

/-- What `UnmarshalFixedJSON` accepts for an address is a quoted address text,
read as `HexToAddress` reads it. -/
theorem unmarshalFixedJSON_address {input : List UInt8} {g addr : Address}
    (accepted : unmarshalFixedJSON "common.Address" input g = (.ok (), addr)) :
    isHexAddress (jsonUnquote input) = true ∧ addr = hexToAddress (jsonUnquote input) := by
  unfold unmarshalFixedJSON at accepted
  split at accepted
  · have payload := unmarshalFixedText_payload "common.Address" true g (by decide)
      (congrArg Prod.fst accepted)
    have valid : isHexAddress (jsonUnquote input) = true :=
      (isHexAddress_iff _).mpr ⟨by simpa [AddressLength, jsonUnquote] using payload.2.1, payload.2.2⟩
    rw [unmarshalFixedText_accepts _ _ _ payload] at accepted
    exact ⟨valid, (congrArg Prod.snd accepted).symm.trans (Address.copyFrom_decodeString valid g)⟩
  · cases accepted

section

variable (keccak256 : List UInt8 → Hash)

theorem MixedcaseAddress.Obtained.valid {ma : MixedcaseAddress} (obtained : ma.Obtained keccak256) :
    isHexAddress ma.original = true ∧ ma.addr = hexToAddress ma.original := by
  cases obtained with
  | ofAddress addr => exact ⟨addr.isHexAddress_hex keccak256, (addr.hexToAddress_hex keccak256).symm⟩
  | ofString made =>
      unfold newMixedcaseAddressFromString at made
      split at made
      · cases made
      · rename_i checked
        cases made
        exact ⟨by simpa using checked, rfl⟩
  | ofJSON read =>
      unfold MixedcaseAddress.unmarshalJSON at read
      split at read
      · cases read
        exact unmarshalFixedJSON_address ‹_›
      · cases read

end

/-- `UnmarshalJSON` reads back what `MarshalJSON` writes for valid address
text: the same address, and `0x` before the text after the prefix. -/
theorem MixedcaseAddress.unmarshalJSON_marshalJSON {ma : MixedcaseAddress}
    (valid : isHexAddress ma.original = true) (g : MixedcaseAddress) :
    g.unmarshalJSON ma.marshalJSON =
      (.ok (), ⟨hexToAddress ma.original, [0x30, 0x78] ++ stripHexPrefix ma.original⟩) := by
  obtain ⟨length, digits⟩ := (isHexAddress_iff _).mp valid
  have unquoted : jsonUnquote ma.marshalJSON = [0x30, 0x78] ++ stripHexPrefix ma.original := by
    rw [MixedcaseAddress.marshalJSON_eq, jsonMarshalText, flatMap_jsonEscape_hexPrefixed digits]
    exact List.dropLast_concat
  have payload : IsHexPayload true AddressLength ([0x30, 0x78] ++ stripHexPrefix ma.original) :=
    ⟨fun _ => rfl, by simpa [AddressLength] using length, digits⟩
  have read : unmarshalFixedJSON "common.Address" ma.marshalJSON g.addr =
      (.ok (), hexToAddress ma.original) := by
    rw [MixedcaseAddress.marshalJSON_eq, unmarshalFixedJSON_jsonMarshalText _ _ digits,
      unmarshalFixedText_accepts _ _ _ payload]
    exact congrArg _ (Address.copyFrom_decodeString valid g.addr)
  rw [MixedcaseAddress.unmarshalJSON, read, unquoted]

/-- The JSON round trip keeps the address and gives back `0x` and the forty
digits of the original text after its prefix: the value itself when it was
written with `0x`, and otherwise a value whose checksum verdict may differ from
the original's, which is false. -/
theorem mixedcaseAddress_json_roundtrip (keccak256 : List UInt8 → Hash) (ma g : MixedcaseAddress)
    (obtained : ma.Obtained keccak256) :
    g.unmarshalJSON ma.marshalJSON =
        (.ok (), ⟨ma.addr, [0x30, 0x78] ++ stripHexPrefix ma.original⟩) ∧
      (ma.original = [0x30, 0x78] ++ stripHexPrefix ma.original ∨
        ma.original = [0x30, 0x58] ++ stripHexPrefix ma.original ∨
        ma.original = stripHexPrefix ma.original) ∧
      (stripHexPrefix ma.original).length = 40 ∧
      (∀ body, ma.original = [0x30, 0x78] ++ body → g.unmarshalJSON ma.marshalJSON = (.ok (), ma)) ∧
      (ma.original ≠ [0x30, 0x78] ++ stripHexPrefix ma.original →
        ma.validChecksum keccak256 = false) := by
  obtain ⟨valid, addressRead⟩ := obtained.valid
  have read := MixedcaseAddress.unmarshalJSON_marshalJSON valid g
  rw [← addressRead] at read
  refine ⟨read, stripHexPrefix_cases _, ((isHexAddress_iff _).mp valid).1,
    fun body prefixed => ?_, fun respelled => ?_⟩
  · have same : [0x30, 0x78] ++ stripHexPrefix ma.original = ma.original := by
      rw [prefixed]
      rfl
    rw [read, same]
  · rw [MixedcaseAddress.validChecksum, beq_eq_false_iff_ne]
    intro checksummed
    apply respelled
    rw [checksummed]
    rfl

theorem mixedcaseAddress_json_roundtrip_upper :
    let keccak256 : List UInt8 → Hash := fun _ => FixedBytes.zero _
    let ma : MixedcaseAddress := ⟨FixedBytes.zero _, [0x30, 0x58] ++ List.replicate 40 0x30⟩
    ma.Obtained keccak256 ∧
      ma.unmarshalJSON ma.marshalJSON =
          (.ok (), ⟨ma.addr, [0x30, 0x78] ++ stripHexPrefix ma.original⟩) ∧
        (ma.original = [0x30, 0x78] ++ stripHexPrefix ma.original ∨
          ma.original = [0x30, 0x58] ++ stripHexPrefix ma.original ∨
          ma.original = stripHexPrefix ma.original) ∧
        (stripHexPrefix ma.original).length = 40 ∧
        (∀ body, ma.original = [0x30, 0x78] ++ body →
          ma.unmarshalJSON ma.marshalJSON = (.ok (), ma)) ∧
        (ma.original ≠ [0x30, 0x78] ++ stripHexPrefix ma.original →
          ma.validChecksum keccak256 = false) :=
  have read : newMixedcaseAddressFromString ([0x30, 0x58] ++ List.replicate 40 0x30) =
      .ok ⟨FixedBytes.zero _, [0x30, 0x58] ++ List.replicate 40 0x30⟩ := rfl
  ⟨.ofString read, mixedcaseAddress_json_roundtrip _ _ _ (.ofString read)⟩

/-- `0X` and forty zeros is not the checksummed text of the zero address, but
after the round trip it is, whatever the digest: the verdict turns from false
to true. -/
theorem mixedcaseAddress_json_flips_checksum :
    let ma : MixedcaseAddress := ⟨FixedBytes.zero _, [0x30, 0x58] ++ List.replicate 40 0x30⟩
    newMixedcaseAddressFromString ([0x30, 0x58] ++ List.replicate 40 0x30) = .ok ma ∧
      ma.unmarshalJSON ma.marshalJSON =
        (.ok (), ⟨FixedBytes.zero _, [0x30, 0x78] ++ List.replicate 40 0x30⟩) ∧
      ∀ keccak256 : List UInt8 → Hash, ma.validChecksum keccak256 = false ∧
        (MixedcaseAddress.mk (FixedBytes.zero _)
          ([0x30, 0x78] ++ List.replicate 40 0x30)).validChecksum keccak256 = true :=
  ⟨rfl, rfl, fun _ => ⟨rfl, rfl⟩⟩

/-! ### Database values -/

/-- The `interface{}` that `database/sql` hands to `Scan`: a `[]byte`, or a
value of any other dynamic type, of which `Scan` reads only the type name
that `%T` prints. -/
inductive ScanSource where
  | bytes (b : List UInt8)
  | other (typeName : String)
deriving DecidableEq

/-- `Hash.Scan` and `Address.Scan`: the assertion to `[]byte`, the length
check, then one `copy` into the receiver. -/
def FixedBytes.scan {n : Nat} (typname : String) (h : FixedBytes n) :
    ScanSource → Except String Unit × FixedBytes n
  | .other typeName => (.error ("can\x27t scan " ++ typeName ++ " into " ++ typname), h)
  | .bytes srcB =>
      if srcB.length ≠ n then
        (.error ("can\x27t scan []byte of len " ++ toString srcB.length ++ " into " ++ typname ++
          ", want " ++ toString n), h)
      else (.ok (), h.copyFrom srcB)

def Hash.scan (h : Hash) (src : ScanSource) : Except String Unit × Hash :=
  FixedBytes.scan "Hash" h src

def Hash.value (h : Hash) : ScanSource := .bytes h.bytes

def Address.scan (a : Address) (src : ScanSource) : Except String Unit × Address :=
  FixedBytes.scan "Address" a src

def Address.value (a : Address) : ScanSource := .bytes a.bytes

section

variable {n : Nat} (typname : String)

theorem FixedBytes.scan_bytes (g value : FixedBytes n) :
    g.scan typname (.bytes value.bytes) = (.ok (), value) := by
  simp [FixedBytes.scan, value.length_eq, FixedBytes.copyFrom_of_length _ value.length_eq]

theorem FixedBytes.scan_rejects (g : FixedBytes n) {src : ScanSource}
    (wrong : (∀ b, src ≠ .bytes b) ∨ ∃ b, src = .bytes b ∧ b.length ≠ n) :
    ∃ err, g.scan typname src = (.error err, g) := by
  cases src with
  | other typeName => exact ⟨_, rfl⟩
  | bytes b =>
      have wrongLength : b.length ≠ n := by
        rcases wrong with notBytes | ⟨b', same, wrongLength⟩
        · exact absurd rfl (notBytes b)
        · cases same
          exact wrongLength
      exact ⟨_, if_pos wrongLength⟩

end

/-- `Value` then `Scan` restores any hash or address into any receiver, and
every other source is refused without a write. -/
theorem scan_value_persistence :
    (∀ h g : Hash, g.scan h.value = (.ok (), h)) ∧
    (∀ (g : Hash) (src : ScanSource),
      ((∀ b, src ≠ .bytes b) ∨ ∃ b, src = .bytes b ∧ b.length ≠ 32) →
        ∃ err, g.scan src = (.error err, g)) ∧
    (∀ a g : Address, g.scan a.value = (.ok (), a)) ∧
    (∀ (g : Address) (src : ScanSource),
      ((∀ b, src ≠ .bytes b) ∨ ∃ b, src = .bytes b ∧ b.length ≠ 20) →
        ∃ err, g.scan src = (.error err, g)) :=
  ⟨fun h g => FixedBytes.scan_bytes _ g h, fun g _ wrong => FixedBytes.scan_rejects _ g wrong,
    fun a g => FixedBytes.scan_bytes _ g a, fun g _ wrong => FixedBytes.scan_rejects _ g wrong⟩

end Efsn
