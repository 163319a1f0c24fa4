import Mathlib.Data.List.GetD
import Efsn.FixedBytes

/-!
# Checksum-cased address text

`Address.Hex` writes the twenty bytes as forty lower-case digits and then
upper-cases each letter whose nibble of the Keccak-256 digest of that text is
above 7.  The digest is a parameter here: every result below holds for any
function from byte strings to hashes, so nothing depends on the hash itself.

The text only ever changes the case of letters, so case-insensitive readers
(`FromHex`, `IsHexAddress`) see the plain digits, and lower-casing gives the
unchecksummed hex back.
-/

namespace Efsn

/-- ASCII lower-casing, which is what `strings.ToLower` does to hex text. -/
def toLowerASCII (c : UInt8) : UInt8 :=
  if 0x41 ≤ c ∧ c ≤ 0x5a then c + 32 else c

/-- The nibble of the digest that decides the case of character `i`: the
high half of `hash[i/2]` for even `i`, the low half for odd `i`. -/
def checksumNibble (hash : Hash) (i : Nat) : UInt8 :=
  let hashByte := hash.bytes.getD (i / 2) 0
  if i % 2 = 0 then hashByte >>> 4 else hashByte &&& 0xf

/-- The body of the loop of `Address.Hex`: `result[i] -= 32` when
`result[i] > '9'` and the nibble is above 7 (`upper`). -/
def checksumCase (c : UInt8) (upper : Bool) : UInt8 :=
  if c > 0x39 && upper then c - 32 else c

/-- The loop of `Address.Hex` from position `i` on. -/
def checksumFrom (hash : Hash) : Nat → List UInt8 → List UInt8
  | _, [] => []
  | i, c :: rest => checksumCase c (checksumNibble hash i > 7) :: checksumFrom hash (i + 1) rest

/-- `Address.Hex`: `0x` and the EIP-55 checksum-cased digits of `a`. -/
def Address.hex (keccak256 : List UInt8 → Hash) (a : Address) : List UInt8 :=
  let unchecksummed := hexEncode a.bytes
  [0x30, 0x78] ++ checksumFrom (keccak256 unchecksummed) 0 unchecksummed

/-- `IsHexAddress`: after an optional prefix, exactly forty hex characters. -/
def isHexAddress (s : List UInt8) : Bool :=
  let s := stripHexPrefix s
  s.length == 2 * AddressLength && isHex s

/-- `MixedcaseAddress` keeps the text an address was read from. -/
structure MixedcaseAddress where
  addr : Address
  original : List UInt8
deriving DecidableEq

/-- `NewMixedcaseAddress`: the original text is the checksummed one. -/
def newMixedcaseAddress (keccak256 : List UInt8 → Hash) (addr : Address) : MixedcaseAddress :=
  ⟨addr, addr.hex keccak256⟩

def newMixedcaseAddressFromString (hexaddr : List UInt8) : Except String MixedcaseAddress :=
  if !isHexAddress hexaddr then .error "Invalid address"
  else .ok ⟨bytesToAddress (fromHex hexaddr), hexaddr⟩

/-- `MixedcaseAddress.ValidChecksum`: the original text is the checksummed text. -/
def MixedcaseAddress.validChecksum (keccak256 : List UInt8 → Hash) (ma : MixedcaseAddress) :
    Bool :=
  ma.original == ma.addr.hex keccak256

/-- `text` is `plain` with some of its letters `a`-`f` upper-cased. -/
def IsCaseVariant (text plain : List UInt8) : Prop :=
  List.Forall₂ (fun c d => c = d ∨ (0x61 ≤ d ∧ d ≤ 0x66 ∧ c = d - 32)) text plain

/-! ### Single characters -/

/-- What the loop body does to each of the sixteen lower-case digits. -/
private theorem hextable_checksumCase : ∀ c ∈ hextable, ∀ upper : Bool,
    (checksumCase c upper = c ∨ (0x61 ≤ c ∧ c ≤ 0x66 ∧ checksumCase c upper = c - 32)) ∧
      toLowerASCII (checksumCase c upper) = c ∧
      fromHexChar (checksumCase c upper) = fromHexChar c ∧
      isHexCharacter (checksumCase c upper) = true := by
  decide

private theorem checksumCase_hextable : ∀ c ∈ hextable, ∀ upper : Bool,
    checksumCase c upper = if 0x61 ≤ c ∧ upper = true then c - 32 else c := by
  decide

theorem checksumNibble_gt_seven (hash : Hash) (k : Nat) :
    checksumNibble hash k > 7 ↔
      8 ≤ (if k % 2 = 0 then (hash.bytes.getD (k / 2) 0).toNat / 16
        else (hash.bytes.getD (k / 2) 0).toNat % 16) := by
  rw [gt_iff_lt, UInt8.lt_def, BitVec.lt_def, checksumNibble]
  split
  · exact UInt8.toNat_shiftRight_four _ ▸ Iff.rfl
  · exact UInt8.toNat_and_fifteen _ ▸ Iff.rfl

set_option maxRecDepth 8000 in
/-- What a hex character of either case decodes to, for all 256 bytes. -/
private theorem fromHexChar_lower_bytes : ∀ c : Fin 256, ∀ v, fromHexChar (UInt8.ofNat c) = some v →
    v.toNat < 16 ∧ hextable.getD v.toNat 0 = toLowerASCII (UInt8.ofNat c) := by
  decide

theorem fromHexChar_lower {c v : UInt8} (decoded : fromHexChar c = some v) :
    v.toNat < 16 ∧ hextable.getD v.toNat 0 = toLowerASCII c := by
  have := fromHexChar_lower_bytes ⟨c.toNat, c.toNat_lt_size⟩ v
  rw [UInt8.ofNat_toNat] at this
  exact this decoded

/-! ### The checksum loop -/

section

variable (hash : Hash)

theorem checksumFrom_isCaseVariant : ∀ (i : Nat) (text : List UInt8),
    (∀ c ∈ text, c ∈ hextable) → IsCaseVariant (checksumFrom hash i text) text
  | _, [], _ => .nil
  | i, c :: rest, digits =>
      .cons (hextable_checksumCase c (digits c (List.mem_cons_self _ _)) _).1
        (checksumFrom_isCaseVariant (i + 1) rest fun d member =>
          digits d (List.mem_cons_of_mem _ member))

theorem checksumFrom_map_toLowerASCII : ∀ (i : Nat) (text : List UInt8),
    (∀ c ∈ text, c ∈ hextable) → (checksumFrom hash i text).map toLowerASCII = text
  | _, [], _ => rfl
  | i, c :: rest, digits => by
      rw [checksumFrom, List.map_cons,
        (hextable_checksumCase c (digits c (List.mem_cons_self _ _)) _).2.1,
        checksumFrom_map_toLowerASCII (i + 1) rest fun d member =>
          digits d (List.mem_cons_of_mem _ member)]

theorem checksumFrom_fromHexChar : ∀ (i : Nat) (text : List UInt8),
    (∀ c ∈ text, c ∈ hextable) →
      List.Forall₂ (fun c d => fromHexChar c = fromHexChar d) (checksumFrom hash i text) text
  | _, [], _ => .nil
  | i, c :: rest, digits =>
      .cons (hextable_checksumCase c (digits c (List.mem_cons_self _ _)) _).2.2.1
        (checksumFrom_fromHexChar (i + 1) rest fun d member =>
          digits d (List.mem_cons_of_mem _ member))

theorem checksumFrom_all_isHexCharacter : ∀ (i : Nat) (text : List UInt8),
    (∀ c ∈ text, c ∈ hextable) → (checksumFrom hash i text).all isHexCharacter = true
  | _, [], _ => rfl
  | i, c :: rest, digits => by
      rw [checksumFrom, List.all_cons,
        (hextable_checksumCase c (digits c (List.mem_cons_self _ _)) _).2.2.2,
        checksumFrom_all_isHexCharacter (i + 1) rest fun d member =>
          digits d (List.mem_cons_of_mem _ member), Bool.and_self]

theorem checksumFrom_getD : ∀ (i : Nat) (text : List UInt8) {k : Nat}, k < text.length →
    (checksumFrom hash i text).getD k 0 =
      checksumCase (text.getD k 0) (checksumNibble hash (i + k) > 7)
  | _, [], _, outside => absurd outside (Nat.not_lt_zero _)
  | _, _ :: _, 0, _ => rfl
  | i, _ :: rest, k + 1, inside => by
      rw [checksumFrom, List.getD_cons_succ, List.getD_cons_succ,
        checksumFrom_getD (i + 1) rest (Nat.lt_of_succ_lt_succ inside), Nat.add_assoc,
        Nat.add_comm 1 k]

@[simp]
theorem checksumFrom_length : ∀ (i : Nat) (text : List UInt8),
    (checksumFrom hash i text).length = text.length
  | _, [] => rfl
  | i, _ :: rest => by simp [checksumFrom, checksumFrom_length (i + 1) rest]

end

/-! ### Decoding ignores case -/

theorem decodeString_congr : ∀ {text plain : List UInt8},
    List.Forall₂ (fun c d => fromHexChar c = fromHexChar d) text plain →
      decodeString text = decodeString plain
  | _ :: _ :: _, _ :: _ :: _, .cons first (.cons second rest) => by
      simp only [decodeString, first, second, decodeString_congr rest]
  | [], [], _ => rfl
  | [_], [_], _ => rfl
  | [], _ :: _, related => nomatch related
  | _ :: _, [], related => nomatch related
  | [_], _ :: _ :: _, .cons _ related => nomatch related
  | _ :: _ :: _, [_], .cons _ related => nomatch related

/-- Reading hex of either case and writing it back gives the lower-case text. -/
theorem hexEncode_decodeString : ∀ text : List UInt8,
    text.length % 2 = 0 → text.all isHexCharacter = true →
      hexEncode (decodeString text) = text.map toLowerASCII
  | [], _, _ => rfl
  | [_], odd, _ => by simp at odd
  | high :: low :: rest, even, digits => by
      simp only [List.all_cons, Bool.and_eq_true, isHexCharacter_iff,
        Option.isSome_iff_exists] at digits
      obtain ⟨⟨a, highDigit⟩, ⟨b, lowDigit⟩, restDigits⟩ := digits
      obtain ⟨highFits, highLower⟩ := fromHexChar_lower highDigit
      obtain ⟨lowFits, lowLower⟩ := fromHexChar_lower lowDigit
      have joined := joinHalves_toNat highFits lowFits
      have halves : (a.toNat * 16 + b.toNat) / 16 = a.toNat ∧
          (a.toNat * 16 + b.toNat) % 16 = b.toNat := by omega
      rw [decodeString, highDigit, lowDigit]
      dsimp only
      rw [hexEncode_cons, joined, halves.1, halves.2, highLower, lowLower,
        hexEncode_decodeString rest (by simp only [List.length_cons] at even; omega) (by simpa [isHexCharacter_iff] using restDigits)]
      rfl

/-! ### Address text -/

theorem isHexAddress_iff (s : List UInt8) :
    isHexAddress s = true ↔
      (stripHexPrefix s).length = 40 ∧ (stripHexPrefix s).all isHexCharacter = true := by
  simp only [isHexAddress, isHex, AddressLength, Bool.and_eq_true, beq_iff_eq]
  constructor
  · rintro ⟨length, -, digits⟩
    exact ⟨length, digits⟩
  · rintro ⟨length, digits⟩
    exact ⟨length, by omega, digits⟩

theorem hexToAddress_bytes {s : List UInt8} (valid : isHexAddress s = true) :
    (hexToAddress s).bytes = decodeString (stripHexPrefix s) ∧
      hexEncode (hexToAddress s).bytes = (stripHexPrefix s).map toLowerASCII := by
  obtain ⟨length, digits⟩ := (isHexAddress_iff s).mp valid
  have even : (stripHexPrefix s).length % 2 = 0 := by omega
  have rewritten := hexEncode_decodeString _ even digits
  have decodedLength : (decodeString (stripHexPrefix s)).length = AddressLength := by
    have := congrArg List.length rewritten
    simp only [hexEncode_length, List.length_map, length] at this
    simp only [AddressLength]
    omega
  have bytes : (hexToAddress s).bytes = decodeString (stripHexPrefix s) := by
    rw [hexToAddress, fromHex_of_even even, bytesToAddress, Address.setBytes]
    exact FixedBytes.zero_setBytes_of_length decodedLength
  exact ⟨bytes, bytes ▸ rewritten⟩

section

variable (keccak256 : List UInt8 → Hash)

private theorem hexEncode_digits (a : Address) : ∀ c ∈ hexEncode a.bytes, c ∈ hextable :=
  fun _ member => mem_hexEncode member

theorem Address.stripHexPrefix_hex (a : Address) :
    stripHexPrefix (a.hex keccak256) =
      checksumFrom (keccak256 (hexEncode a.bytes)) 0 (hexEncode a.bytes) := by
  simp [stripHexPrefix, hasHexPrefix, Address.hex]

/-- Character `k` of the forty digits `Address.Hex` writes: the lower-case hex
digit of the address, upper-cased exactly when it is a letter and nibble `k` of
the digest of the lower-case text (the high half of byte `k / 2` for even `k`,
the low half for odd `k`) is at least 8. -/
theorem Address.hex_getD (a : Address) {k : Nat} (inside : k < 40) :
    (a.hex keccak256).getD (k + 2) 0 =
      let digit := (hexEncode a.bytes).getD k 0
      let hashByte := (keccak256 (hexEncode a.bytes)).bytes.getD (k / 2) 0
      if 0x61 ≤ digit ∧ 8 ≤ (if k % 2 = 0 then hashByte.toNat / 16 else hashByte.toNat % 16)
      then digit - 32 else digit := by
  have length : k < (hexEncode a.bytes).length := by simpa [a.length_eq, AddressLength] using inside
  have digit : (hexEncode a.bytes).getD k 0 ∈ hextable := by
    rw [List.getD_eq_getElem _ _ length]
    exact mem_hexEncode (List.getElem_mem length)
  show (checksumFrom _ 0 _).getD k 0 = _
  rw [checksumFrom_getD _ 0 _ length, Nat.zero_add, checksumCase_hextable _ digit]
  simp only [decide_eq_true_eq, checksumNibble_gt_seven]

theorem Address.hex_map_toLowerASCII (a : Address) :
    (a.hex keccak256).map toLowerASCII = [0x30, 0x78] ++ hexEncode a.bytes := by
  rw [Address.hex, List.map_append, checksumFrom_map_toLowerASCII _ _ _ (hexEncode_digits a)]
  rfl

theorem Address.isHexAddress_hex (a : Address) : isHexAddress (a.hex keccak256) = true := by
  rw [isHexAddress_iff, Address.stripHexPrefix_hex]
  refine ⟨?_, checksumFrom_all_isHexCharacter _ _ _ (hexEncode_digits a)⟩
  simp [a.length_eq, AddressLength]

theorem Address.hexToAddress_hex (a : Address) : hexToAddress (a.hex keccak256) = a := by
  apply FixedBytes.ext
  rw [(hexToAddress_bytes (a.isHexAddress_hex keccak256)).1, Address.stripHexPrefix_hex,
    decodeString_congr (checksumFrom_fromHexChar _ _ _ (hexEncode_digits a)),
    decodeString_hexEncode]

/-- `Address.Hex` is a case variant of the plain hex of the address, and every
case-insensitive reader gets the address back from it. -/
theorem address_hex_checksum :
    (∀ a : Address,
      (a.hex keccak256).length = 42 ∧
      (∃ cased, a.hex keccak256 = [0x30, 0x78] ++ cased ∧
        IsCaseVariant cased (hexEncode a.bytes)) ∧
      (a.hex keccak256).map toLowerASCII = [0x30, 0x78] ++ hexEncode a.bytes ∧
      isHexAddress (a.hex keccak256) = true ∧
      hexToAddress (a.hex keccak256) = a ∧
      newMixedcaseAddressFromString (a.hex keccak256) = .ok ⟨a, a.hex keccak256⟩ ∧
      (MixedcaseAddress.mk a (a.hex keccak256)).validChecksum keccak256 = true) ∧
    (∀ s : List UInt8, isHexAddress s = true →
      ((hexToAddress s).hex keccak256).map toLowerASCII =
        [0x30, 0x78] ++ (stripHexPrefix s).map toLowerASCII) := by
  refine ⟨fun a => ⟨?_, ⟨_, rfl, checksumFrom_isCaseVariant _ _ _ (hexEncode_digits a)⟩,
    a.hex_map_toLowerASCII keccak256, a.isHexAddress_hex keccak256,
    a.hexToAddress_hex keccak256, ?_, by simp [MixedcaseAddress.validChecksum]⟩, ?_⟩
  · simp [Address.hex, a.length_eq, AddressLength]
  · have decoded : bytesToAddress (fromHex (a.hex keccak256)) = a := a.hexToAddress_hex keccak256
    simp [newMixedcaseAddressFromString, a.isHexAddress_hex keccak256, decoded]
  · intro s valid
    rw [Address.hex_map_toLowerASCII, (hexToAddress_bytes valid).2]

end

end Efsn
