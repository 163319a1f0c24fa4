import Efsn.Hex

/-!
# Fixed-length identifiers

`Hash` and `Address` are Go byte arrays of 32 and 20 bytes.  They share one
representation, a byte list that carries its length, and one copy of every
conversion: `SetBytes` right-aligns its argument, cropping on the left, and
the integer view is `big.Int.SetBytes` of the whole array.  Each Go function
keeps its own name and is the shared definition at its own length.

`SetBytes` overwrites only the last `len(b)` bytes of the receiver, so the
result depends on the receiver's leading bytes whenever `b` is shorter than
the array.  The constructors start from the zero value and do not see this.
-/

namespace Efsn

/-- A Go byte array `[n]byte`; the field `length_eq` is its fixed length. -/
@[ext]
structure FixedBytes (n : Nat) where
  bytes : List UInt8
  length_eq : bytes.length = n
deriving DecidableEq

namespace FixedBytes

variable {n : Nat}

def zero (n : Nat) : FixedBytes n := ⟨List.replicate n 0, List.length_replicate n 0⟩

/-- `b` cropped from the left to at most `n` bytes: `b[len(b)-n:]` when longer. -/
def crop (n : Nat) (b : List UInt8) : List UInt8 :=
  if b.length > n then b.drop (b.length - n) else b

/-- `copy(h[:], src)`: the first `min(n, len(src))` bytes of `h` are overwritten. -/
def copyFrom (h : FixedBytes n) (src : List UInt8) : FixedBytes n where
  bytes := src.take n ++ h.bytes.drop (min src.length n)
  length_eq := by simp [h.length_eq]; omega

theorem copyFrom_of_length (h : FixedBytes n) {src : List UInt8} (exact : src.length = n) :
    h.copyFrom src = ⟨src, exact⟩ := by
  ext1
  show src.take n ++ h.bytes.drop (min src.length n) = src
  rw [List.take_of_length_le (le_of_eq exact), exact, Nat.min_self,
    List.drop_eq_nil_of_le (le_of_eq h.length_eq), List.append_nil]

theorem crop_eq_drop (n : Nat) (b : List UInt8) : crop n b = b.drop (b.length - n) := by
  unfold crop
  split
  · rfl
  · rw [Nat.sub_eq_zero_of_le (by omega), List.drop_zero]

@[simp]
theorem crop_length (n : Nat) (b : List UInt8) : (crop n b).length = min b.length n := by
  rw [crop_eq_drop, List.length_drop]
  omega

/-- `SetBytes`: crop `b` from the left, then `copy(h[n-len(b):], b)`. -/
def setBytes (h : FixedBytes n) (b : List UInt8) : FixedBytes n where
  bytes := h.bytes.take (n - (crop n b).length) ++ crop n b
  length_eq := by simp [h.length_eq]

def big (h : FixedBytes n) : Int := setBytesValue h.bytes

theorem setBytes_bytes (h : FixedBytes n) (b : List UInt8) :
    (h.setBytes b).bytes = h.bytes.take (n - min b.length n) ++ b.drop (b.length - n) := by
  show h.bytes.take (n - (crop n b).length) ++ crop n b = _
  rw [crop_length, crop_eq_drop]

theorem zero_setBytes_bytes (b : List UInt8) :
    ((zero n).setBytes b).bytes = List.replicate (n - min b.length n) 0 ++ b.drop (b.length - n) := by
  simp [setBytes_bytes, zero, List.take_replicate]

theorem zero_setBytes_of_length {b : List UInt8} (exact : b.length = n) :
    ((zero n).setBytes b).bytes = b := by
  simp [zero_setBytes_bytes, exact]

theorem big_zero_setBytes (b : List UInt8) :
    ((zero n).setBytes b).big = ((setBytesValue b % 256 ^ n : Nat) : Int) := by
  rw [big, zero_setBytes_bytes, setBytesValue_replicate_zero, setBytesValue_drop]

theorem eq_of_big_eq {h g : FixedBytes n} (sameBig : h.big = g.big) : h = g :=
  FixedBytes.ext (setBytesValue_injective (h.length_eq.trans g.length_eq.symm)
    (by unfold big at sameBig; exact_mod_cast sameBig))

theorem zero_setBytes_intBytes (v : Nat) :
    ((zero n).setBytes (intBytes v)).big = ((v % 256 ^ n : Nat) : Int) := by
  rw [big_zero_setBytes, setBytesValue_intBytes, Int.natAbs_ofNat]

theorem zero_setBytes_intBytes_big (h : FixedBytes n) : (zero n).setBytes (intBytes h.big) = h := by
  apply eq_of_big_eq
  have small : setBytesValue h.bytes < 256 ^ n := by simpa [h.length_eq] using setBytesValue_lt h.bytes
  rw [big_zero_setBytes, setBytesValue_intBytes, big, Int.natAbs_ofNat, Nat.mod_eq_of_lt small]

theorem zero_setBytes_self (h : FixedBytes n) : (zero n).setBytes h.bytes = h := by
  ext1
  simp [zero_setBytes_bytes, h.length_eq]

/-- `SetBytes` ignores the receiver exactly when the bytes it leaves in place
are already zero. -/
theorem setBytes_eq_zero_setBytes_iff (h : FixedBytes n) (b : List UInt8) :
    h.setBytes b = (zero n).setBytes b ↔ ∀ byte ∈ h.bytes.take (n - b.length), byte = 0 := by
  have kept : n - min b.length n = n - b.length := by omega
  rw [FixedBytes.ext_iff, setBytes_bytes, setBytes_bytes, List.append_left_inj, kept, zero,
    List.take_replicate, List.eq_replicate_iff]
  simp [h.length_eq]

end FixedBytes

/-! ### Hash -/

def HashLength : Nat := 32

abbrev Hash := FixedBytes HashLength

def Hash.setBytes (h : Hash) (b : List UInt8) : Hash := FixedBytes.setBytes h b

def bytesToHash (b : List UInt8) : Hash := Hash.setBytes (FixedBytes.zero HashLength) b

def bigToHash (b : Int) : Hash := bytesToHash (intBytes b)

def hexToHash (s : List UInt8) : Hash := bytesToHash (fromHex s)

def Hash.big (h : Hash) : Int := FixedBytes.big h

def Hash.hex (h : Hash) : List UInt8 := hexutilEncode h.bytes

/-! ### Address -/

def AddressLength : Nat := 20

abbrev Address := FixedBytes AddressLength

def Address.setBytes (a : Address) (b : List UInt8) : Address := FixedBytes.setBytes a b

def bytesToAddress (b : List UInt8) : Address := Address.setBytes (FixedBytes.zero AddressLength) b

def bigToAddress (b : Int) : Address := bytesToAddress (intBytes b)

def hexToAddress (s : List UInt8) : Address := bytesToAddress (fromHex s)

def Address.big (a : Address) : Int := FixedBytes.big a

def Address.hash (a : Address) : Hash := bytesToHash a.bytes

theorem Address.setBytesValue_hash (a : Address) :
    setBytesValue a.hash.bytes = setBytesValue a.bytes := by
  rw [Address.hash, bytesToHash, Hash.setBytes, FixedBytes.zero_setBytes_bytes,
    setBytesValue_replicate_zero, a.length_eq]
  simp [AddressLength, HashLength]

/-- On a receiver of all `0xff` bytes, `SetBytes` of a single byte keeps the
receiver's leading bytes, where `BytesToHash` and `BytesToAddress` of the same
byte have zeros. -/
theorem hash_setBytes_keeps_receiver_prefix :
    (Hash.setBytes ⟨List.replicate 32 0xff, rfl⟩ [0x01]).bytes = List.replicate 31 0xff ++ [0x01] ∧
      (bytesToHash [0x01]).bytes = List.replicate 31 0 ++ [0x01] ∧
      (Address.setBytes ⟨List.replicate 20 0xff, rfl⟩ [0x01]).bytes =
        List.replicate 19 0xff ++ [0x01] ∧
      (bytesToAddress [0x01]).bytes = List.replicate 19 0 ++ [0x01] := by
  decide

theorem hexToHash_hex (h : Hash) : hexToHash h.hex = h := by
  rw [hexToHash, Hash.hex, fromHex_hexutilEncode]
  exact FixedBytes.zero_setBytes_self h

/-- The integer views agree with the byte views, for both identifier types. -/
theorem identifier_integer_views :
    (∀ b : List UInt8, (bytesToHash b).bytes =
      List.replicate (32 - min b.length 32) 0 ++ b.drop (b.length - 32)) ∧
    (∀ b : List UInt8, (bytesToHash b).big =
      ((Nat.ofDigits 256 (b.reverse.map UInt8.toNat) % 2 ^ 256 : Nat) : Int)) ∧
    (∀ v : Nat, (bigToHash v).big = ((v % 2 ^ 256 : Nat) : Int)) ∧
    (∀ h : Hash, bigToHash h.big = h) ∧
    (∀ h : Hash, bytesToHash h.bytes = h) ∧
    (∀ b : List UInt8, (bytesToAddress b).bytes =
      List.replicate (20 - min b.length 20) 0 ++ b.drop (b.length - 20)) ∧
    (∀ b : List UInt8, (bytesToAddress b).big =
      ((Nat.ofDigits 256 (b.reverse.map UInt8.toNat) % 2 ^ 160 : Nat) : Int)) ∧
    (∀ v : Nat, (bigToAddress v).big = ((v % 2 ^ 160 : Nat) : Int)) ∧
    (∀ a : Address, bigToAddress a.big = a) ∧
    (∀ a : Address, a.hash.big = a.big) ∧
    (∀ a : Address, bytesToAddress a.hash.bytes = a) := by
  have hashWidth : (256 : Nat) ^ HashLength = 2 ^ 256 := by norm_num [HashLength]
  have addressWidth : (256 : Nat) ^ AddressLength = 2 ^ 160 := by norm_num [AddressLength]
  refine ⟨fun b => FixedBytes.zero_setBytes_bytes b, fun b => ?_, fun v => ?_,
    FixedBytes.zero_setBytes_intBytes_big, FixedBytes.zero_setBytes_self,
    fun b => FixedBytes.zero_setBytes_bytes b, fun b => ?_, fun v => ?_,
    FixedBytes.zero_setBytes_intBytes_big, fun a => ?_, fun a => ?_⟩
  · rw [← setBytesValue_eq_ofDigits, ← hashWidth]
    exact FixedBytes.big_zero_setBytes b
  · rw [← hashWidth]
    exact FixedBytes.zero_setBytes_intBytes v
  · rw [← setBytesValue_eq_ofDigits, ← addressWidth]
    exact FixedBytes.big_zero_setBytes b
  · rw [← addressWidth]
    exact FixedBytes.zero_setBytes_intBytes v
  · simp only [Hash.big, FixedBytes.big, Address.big, Address.setBytesValue_hash]
  · apply FixedBytes.eq_of_big_eq
    have small : setBytesValue a.bytes < 256 ^ AddressLength := by
      simpa [a.length_eq] using setBytesValue_lt a.bytes
    rw [bytesToAddress, Address.setBytes, FixedBytes.big_zero_setBytes,
      Address.setBytesValue_hash, Nat.mod_eq_of_lt small]
    rfl

end Efsn
