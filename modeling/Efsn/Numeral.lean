import Mathlib.Data.Nat.Size
import Efsn.Hex

/-!
# Reading integers from text

`new(big.Int).SetString(s, base)` reads an optional sign and then the digits
of a natural number, and succeeds only if the whole text is consumed.  With
base 0 the base comes from a prefix: `0x`, `0b`, `0o`, or a leading `0` for
octal.  The model follows the scanner of `math/big` without the `_` digit
separators that base 0 also admits; the package calls base 0 only on the hex
text of a hash, which has none.

`ParseBig256` reads a `0x` or `0X` prefixed text in base 16 and any other
text in base 10, and refuses a value longer than 256 bits.  It inherits the
sign that `SetString` admits: a numeral in either base may start with `+` or
`-`, so negative values are read too.
-/

namespace Efsn

/-- The digit value `math/big` gives a byte: `0`-`9`, then `a`-`z` and `A`-`Z`
from 10; any other byte is no digit in any base. -/
def digitValue (ch : UInt8) : Nat :=
  if 0x30 ≤ ch ∧ ch ≤ 0x39 then (ch - 0x30).toNat
  else if 0x61 ≤ ch ∧ ch ≤ 0x7a then (ch - 0x61).toNat + 10
  else if 0x41 ≤ ch ∧ ch ≤ 0x5a then (ch - 0x41).toNat + 10
  else 63

/-- The digit loop of `nat.scan`: digits below `base` go into `value` up to the
first byte that is not one; `count` is the number of digits read. -/
def scanDigits (base : Nat) : List UInt8 → Nat → Nat → Nat × Nat × List UInt8
  | [], value, count => (value, count, [])
  | ch :: rest, value, count =>
      if digitValue ch < base then scanDigits base rest (value * base + digitValue ch) (count + 1)
      else (value, count, ch :: rest)

/-- `nat.scan` once the base is known; no digit at all is `errNoDigits`. -/
def scanNat (base : Nat) (s : List UInt8) : Option (Nat × List UInt8) :=
  match scanDigits base s 0 0 with
  | (_, 0, _) => none
  | (value, _, rest) => some (value, rest)

/-- `nat.scan`: with base 0 the prefix picks the base, and a leading `0` not
followed by a base letter is the octal prefix, reading as 0 when no octal
digit follows it. -/
def natScan (s : List UInt8) (base : Nat) : Option (Nat × List UInt8) :=
  if base ≠ 0 then scanNat base s
  else
    match s with
    | zero :: ch :: rest =>
        if zero = 0x30 then
          if ch = 0x62 ∨ ch = 0x42 then scanNat 2 rest
          else if ch = 0x6f ∨ ch = 0x4f then scanNat 8 rest
          else if ch = 0x78 ∨ ch = 0x58 then scanNat 16 rest
          else some ((scanNat 8 (ch :: rest)).getD (0, ch :: rest))
        else scanNat 10 s
    | _ => scanNat 10 s

/-- `new(big.Int).SetString(s, base)`: a sign, then `nat.scan`, and nothing
may be left over.  `none` is the `(nil, false)` result. -/
def setString (s : List UInt8) (base : Nat) : Option Int :=
  match s with
  | [] => none
  | ch :: rest =>
      let signed : Bool × List UInt8 :=
        if ch = 0x2d then (true, rest) else if ch = 0x2b then (false, rest) else (false, ch :: rest)
      match natScan signed.2 base with
      | some (value, []) => some (if signed.1 then -(value : Int) else value)
      | _ => none

private theorem digitValue_hextable : ∀ digit : Fin 16, digitValue (hextable.getD digit 0) = digit := by
  decide

theorem scanDigits_hexEncode (b : List UInt8) (value count : Nat) :
    scanDigits 16 (hexEncode b) value count =
      (b.foldl (fun value byte => value * 256 + byte.toNat) value, count + 2 * b.length, []) := by
  induction b generalizing value count with
  | nil => rfl
  | cons v rest induction =>
      obtain ⟨high, low⟩ := UInt8.halves_lt v
      have highDigit := digitValue_hextable ⟨_, high⟩
      have lowDigit := digitValue_hextable ⟨_, low⟩
      have joined : (value * 16 + v.toNat / 16) * 16 + v.toNat % 16 = value * 256 + v.toNat := by
        omega
      simp only [Fin.val_mk] at highDigit lowDigit
      rw [hexEncode_cons, scanDigits, highDigit, if_pos high, scanDigits, lowDigit, if_pos low,
        joined, induction, List.foldl_cons, List.length_cons]
      congr 2
      omega

theorem setString_hexutilEncode {b : List UInt8} (nonempty : b ≠ []) :
    setString (hexutilEncode b) 0 = some (setBytesValue b) := by
  obtain ⟨k, counted⟩ : ∃ k, 0 + 2 * b.length = k + 1 :=
    ⟨2 * b.length - 1, by have := List.length_pos.mpr nonempty; omega⟩
  have scanned : natScan (hexutilEncode b) 0 = some (setBytesValue b, []) := by
    show scanNat 16 (hexEncode b) = _
    rw [scanNat, scanDigits_hexEncode, counted]
    rfl
  show (match natScan (hexutilEncode b) 0 with
    | some (value, []) => some (if false then -(value : Int) else value)
    | _ => none) = _
  rw [scanned]
  rfl

/-- `x.BitLen()`: the length of the absolute value of `x` in bits, 0 for 0. -/
def bitLen (x : Int) : Nat := Nat.size x.natAbs

/-- `ParseBig256(s)`: the empty text is zero, text after a `0x` or `0X` prefix
is read in base 16 and other text in base 10, and a value longer than 256 bits
is refused.  `none` is the `(nil, false)` result. -/
def parseBig256 (s : List UInt8) : Option Int :=
  if s = [] then some 0
  else
    let bigint :=
      if 2 ≤ s.length ∧ (s.take 2 = [0x30, 0x78] ∨ s.take 2 = [0x30, 0x58]) then
        setString (s.drop 2) 16
      else setString s 10
    match bigint with
    | some v => if bitLen v > 256 then none else some v
    | none => none

/-! ### What `SetString` reads -/

def digitsValue (base : Nat) (digits : List UInt8) : Nat :=
  digits.foldl (fun value ch => value * base + digitValue ch) 0

def IsNumeral (base : Nat) (digits : List UInt8) : Prop :=
  digits ≠ [] ∧ ∀ ch ∈ digits, digitValue ch < base

/-- Text that reads as `v` in `base`: digits, after an optional `+` or `-`. -/
inductive SignedNumeral (base : Nat) : List UInt8 → Int → Prop
  | unsigned {digits} : IsNumeral base digits → SignedNumeral base digits (digitsValue base digits)
  | plus {digits} : IsNumeral base digits →
      SignedNumeral base (0x2b :: digits) (digitsValue base digits)
  | minus {digits} : IsNumeral base digits →
      SignedNumeral base (0x2d :: digits) (-(digitsValue base digits : Int))

/-- The numeral of `v` in `base` (up to 16), most significant digit first, with
no leading zero: the text `v.Text(base)` writes. -/
def numeral (base v : Nat) : List UInt8 :=
  if v = 0 then [0x30] else (Nat.digits base v).reverse.map fun digit => hextable.getD digit 0

theorem digitsValue_eq_ofDigits (base : Nat) (digits : List UInt8) :
    digitsValue base digits = Nat.ofDigits base (digits.reverse.map digitValue) := by
  induction digits using List.reverseRecOn with
  | nil => rfl
  | append_singleton front last induction =>
      have step : digitsValue base (front ++ [last]) =
          digitsValue base front * base + digitValue last := by
        simp [digitsValue, List.foldl_append]
      rw [step, induction]
      simp [Nat.ofDigits_cons]
      ring

theorem digitsValue_zeros_append (base zeros : Nat) (digits : List UInt8) :
    digitsValue base (List.replicate zeros 0x30 ++ digits) = digitsValue base digits := by
  induction zeros with
  | zero => rfl
  | succ zeros induction =>
      have zero : 0 * base + digitValue 0x30 = 0 := by simp [digitValue]
      rw [← induction]
      simp only [digitsValue, List.replicate_succ, List.cons_append, List.foldl_cons, zero]

/-- The digit loop reads the longest run of digits and stops at the first
other byte. -/
theorem scanDigits_eq (base : Nat) (s : List UInt8) (value count : Nat) :
    scanDigits base s value count =
      ((s.takeWhile fun ch => digitValue ch < base).foldl
          (fun value ch => value * base + digitValue ch) value,
        count + (s.takeWhile fun ch => digitValue ch < base).length,
        s.dropWhile fun ch => digitValue ch < base) := by
  induction s generalizing value count with
  | nil => rfl
  | cons ch rest induction =>
      by_cases digit : digitValue ch < base
      · rw [scanDigits, if_pos digit, induction]
        simp only [List.takeWhile_cons, List.dropWhile_cons, digit, decide_True, if_true,
          List.foldl_cons, List.length_cons]
        congr 2
        omega
      · rw [scanDigits, if_neg digit]
        simp [List.takeWhile_cons, List.dropWhile_cons, digit]

theorem digitsValue_hexEncode (b : List UInt8) : digitsValue 16 (hexEncode b) = setBytesValue b := by
  have hexDigits : ∀ c ∈ hextable, digitValue c < 16 := by decide
  have digits : ∀ c ∈ hexEncode b, decide (digitValue c < 16) = true := fun c member =>
    decide_eq_true (hexDigits c (mem_hexEncode member))
  have scanned := scanDigits_eq 16 (hexEncode b) 0 0
  rw [scanDigits_hexEncode, List.takeWhile_eq_self_iff.mpr digits] at scanned
  exact (congrArg Prod.fst scanned).symm

/-- `nat.scan` in a fixed base: no digit is an error, otherwise the value of
the leading digits and the text after them. -/
theorem scanNat_eq (base : Nat) (s : List UInt8) :
    scanNat base s =
      if s.takeWhile (fun ch => digitValue ch < base) = [] then none
      else some (digitsValue base (s.takeWhile fun ch => digitValue ch < base),
        s.dropWhile fun ch => digitValue ch < base) := by
  rw [scanNat, scanDigits_eq]
  generalize s.takeWhile (fun ch => digitValue ch < base) = digits
  cases digits <;> rfl

theorem scanNat_eq_some_nil {base : Nat} {s : List UInt8} {v : Nat} :
    scanNat base s = some (v, []) ↔ IsNumeral base s ∧ v = digitsValue base s := by
  rw [scanNat_eq]
  by_cases all : ∀ ch ∈ s, digitValue ch < base
  · have whole : (s.takeWhile fun ch => digitValue ch < base) = s :=
      List.takeWhile_eq_self_iff.mpr (by simpa using all)
    have consumed : (s.dropWhile fun ch => digitValue ch < base) = [] :=
      List.dropWhile_eq_nil_iff.mpr (by simpa using all)
    rw [whole, consumed]
    by_cases empty : s = []
    · simp [empty, IsNumeral]
    · rw [if_neg empty]
      exact ⟨fun read => ⟨⟨empty, all⟩, by cases read; rfl⟩, fun ⟨_, same⟩ => by rw [same]⟩
  · have left : (s.dropWhile fun ch => digitValue ch < base) ≠ [] :=
      mt List.dropWhile_eq_nil_iff.mp (by simpa using all)
    split <;> simp [IsNumeral, all, left]

private theorem sign_not_digit {base : Nat} (small : base ≤ 36) {ch : UInt8}
    (digit : digitValue ch < base) : ch ≠ 0x2d ∧ ch ≠ 0x2b := by
  have minus : digitValue 0x2d = 63 := rfl
  have plus : digitValue 0x2b = 63 := rfl
  constructor <;> rintro rfl <;> omega

/-- In a base from 1 to 36, `SetString` reads exactly the signed numerals. -/
theorem setString_eq_some_iff {base : Nat} (positive : 0 < base) (small : base ≤ 36)
    {s : List UInt8} {v : Int} : setString s base = some v ↔ SignedNumeral base s v := by
  have scan : ∀ digits, natScan digits base = scanNat base digits :=
    fun _ => if_pos (by omega)
  constructor
  · intro read
    cases s with
    | nil => simp [setString] at read
    | cons ch rest =>
        simp only [setString, scan] at read
        split at read
        · rename_i value scanned
          cases read
          by_cases minus : ch = 0x2d
          · simp only [if_pos minus, if_true] at scanned ⊢
            obtain ⟨numeral, rfl⟩ := scanNat_eq_some_nil.mp scanned
            exact minus ▸ .minus numeral
          by_cases plus : ch = 0x2b
          · simp only [if_neg minus, if_pos plus, Bool.false_eq_true, if_false] at scanned ⊢
            obtain ⟨numeral, rfl⟩ := scanNat_eq_some_nil.mp scanned
            exact plus ▸ .plus numeral
          · simp only [if_neg minus, if_neg plus, Bool.false_eq_true, if_false] at scanned ⊢
            obtain ⟨numeral, rfl⟩ := scanNat_eq_some_nil.mp scanned
            exact .unsigned numeral
        · cases read
  · intro numeral
    cases numeral with
    | unsigned numeral =>
        obtain ⟨ch, rest, rfl⟩ := List.exists_cons_of_ne_nil numeral.1
        obtain ⟨minus, plus⟩ := sign_not_digit small (numeral.2 ch (List.mem_cons_self _ _))
        simp [setString, minus, plus, scan, scanNat_eq_some_nil.mpr ⟨numeral, rfl⟩]
    | plus numeral => simp [setString, scan, scanNat_eq_some_nil.mpr ⟨numeral, rfl⟩]
    | minus numeral => simp [setString, scan, scanNat_eq_some_nil.mpr ⟨numeral, rfl⟩]

private theorem digitValue_getD_hextable {digit : Nat} (fits : digit < 16) :
    digitValue (hextable.getD digit 0) = digit :=
  digitValue_hextable ⟨digit, fits⟩

theorem numeral_isNumeral {base : Nat} (two : 2 ≤ base) (small : base ≤ 16) (v : Nat) :
    IsNumeral base (numeral base v) := by
  unfold numeral
  split
  · have zero : digitValue 0x30 = 0 := rfl
    exact ⟨List.cons_ne_nil _ _, fun ch member => by rw [List.mem_singleton.mp member, zero]; omega⟩
  · rename_i nonzero
    refine ⟨by simpa using Nat.digits_ne_nil_iff_ne_zero.mpr nonzero, fun ch member => ?_⟩
    obtain ⟨digit, written, rfl⟩ := List.mem_map.mp member
    have below := Nat.digits_lt_base (by omega) (List.mem_reverse.mp written)
    rwa [digitValue_getD_hextable (by omega)]

theorem digitsValue_numeral {base : Nat} (two : 2 ≤ base) (small : base ≤ 16) (v : Nat) :
    digitsValue base (numeral base v) = v := by
  unfold numeral
  split
  · have zero : digitValue 0x30 = 0 := rfl
    simp [digitsValue, zero, *]
  · have decoded : ∀ digit ∈ Nat.digits base v,
        (digitValue ∘ fun digit => hextable.getD digit 0) digit = digit := fun digit member =>
      digitValue_getD_hextable (by have := Nat.digits_lt_base (by omega) member; omega)
    rw [digitsValue_eq_ofDigits]
    simp only [List.map_reverse, List.reverse_reverse, List.map_map]
    rw [List.map_congr_left decoded, List.map_id', Nat.ofDigits_digits]

/-! ### What `ParseBig256` accepts -/

theorem bitLen_le_iff (x : Int) (k : Nat) : bitLen x ≤ k ↔ x.natAbs < 2 ^ k := Nat.size_le

/-- Once the text is not empty, `ParseBig256` keeps what `SetString` reads in
the base the prefix picks, if it fits in 256 bits. -/
theorem parseBig256_of_ne_nil {s : List UInt8} (nonempty : s ≠ []) :
    parseBig256 s =
      (if 2 ≤ s.length ∧ (s.take 2 = [0x30, 0x78] ∨ s.take 2 = [0x30, 0x58]) then
        setString (s.drop 2) 16
      else setString s 10).filter fun v => bitLen v ≤ 256 := by
  rw [parseBig256, if_neg nonempty]
  dsimp only
  split <;> rename_i read <;> rw [read]
  · rename_i v
    by_cases fits : bitLen v ≤ 256
    · simp [Option.filter_some, fits, Nat.not_lt.mpr fits]
    · simp [Option.filter_some, fits, Nat.lt_of_not_le fits]
  · rfl

private theorem hexPrefixed_drop {s rest : List UInt8}
    (prefixed : s = [0x30, 0x78] ++ rest ∨ s = [0x30, 0x58] ++ rest) : s.drop 2 = rest := by
  rcases prefixed with rfl | rfl <;> rfl

theorem parseBig256_hex {s rest : List UInt8}
    (prefixed : s = [0x30, 0x78] ++ rest ∨ s = [0x30, 0x58] ++ rest) :
    parseBig256 s = (setString rest 16).filter fun v => bitLen v ≤ 256 := by
  rw [parseBig256_of_ne_nil (by rcases prefixed with rfl | rfl <;> simp),
    if_pos (by rcases prefixed with rfl | rfl <;> simp), hexPrefixed_drop prefixed]

theorem parseBig256_decimal {s : List UInt8} (nonempty : s ≠ [])
    (unprefixed : ¬∃ rest, s = [0x30, 0x78] ++ rest ∨ s = [0x30, 0x58] ++ rest) :
    parseBig256 s = (setString s 10).filter fun v => bitLen v ≤ 256 := by
  rw [parseBig256_of_ne_nil nonempty, if_neg]
  rintro ⟨-, front⟩
  refine unprefixed ⟨s.drop 2, ?_⟩
  rcases front with front | front <;> rw [← front, List.take_append_drop] <;> simp

private theorem setString_within_iff {base : Nat} (positive : 0 < base) (small : base ≤ 36)
    (text : List UInt8) (v : Int) :
    (setString text base).filter (fun v => bitLen v ≤ 256) = some v ↔
      SignedNumeral base text v ∧ v.natAbs < 2 ^ 256 := by
  rw [Option.filter_eq_some, Option.mem_def, setString_eq_some_iff positive small,
    decide_eq_true_iff, bitLen_le_iff]

theorem SignedNumeral.ne_nil {base : Nat} {s : List UInt8} {v : Int}
    (numeral : SignedNumeral base s v) : s ≠ [] := by
  cases numeral with
  | unsigned numeral => exact numeral.1
  | plus _ | minus _ => exact List.cons_ne_nil _ _

/-- A decimal numeral never starts with `0x` or `0X`: a letter is no decimal
digit, and a sign is no `0`. -/
theorem SignedNumeral.unprefixed {s : List UInt8} {v : Int} (numeral : SignedNumeral 10 s v) :
    ¬∃ rest, s = [0x30, 0x78] ++ rest ∨ s = [0x30, 0x58] ++ rest := by
  rintro ⟨rest, shape⟩
  cases numeral with
  | unsigned numeral =>
      have lower : digitValue 0x78 = 33 := rfl
      have upper : digitValue 0x58 = 33 := rfl
      rcases shape with rfl | rfl
      · have := numeral.2 0x78 (by simp)
        omega
      · have := numeral.2 0x58 (by simp)
        omega
  | plus _ | minus _ => rcases shape with shape | shape <;> simp at shape

/-- `ParseBig256` accepts the empty text as zero, and otherwise exactly the
signed numerals of at most 256 bits in the base the prefix picks. -/
theorem parseBig256_eq_some_iff (s : List UInt8) (v : Int) :
    parseBig256 s = some v ↔ s = [] ∧ v = 0 ∨
      (∃ rest, (s = [0x30, 0x78] ++ rest ∨ s = [0x30, 0x58] ++ rest) ∧
        SignedNumeral 16 rest v ∧ v.natAbs < 2 ^ 256) ∨
      SignedNumeral 10 s v ∧ v.natAbs < 2 ^ 256 := by
  by_cases empty : s = []
  · subst empty
    constructor
    · exact fun read => .inl ⟨rfl, (Option.some.inj read).symm⟩
    · rintro (⟨-, rfl⟩ | ⟨rest, shape, -⟩ | ⟨numeral, -⟩)
      · rfl
      · rcases shape with shape | shape <;> simp at shape
      · exact absurd rfl numeral.ne_nil
  by_cases prefixed : ∃ rest, s = [0x30, 0x78] ++ rest ∨ s = [0x30, 0x58] ++ rest
  · obtain ⟨rest, shape⟩ := prefixed
    rw [parseBig256_hex shape, setString_within_iff (by decide) (by decide)]
    constructor
    · exact fun read => .inr (.inl ⟨rest, shape, read⟩)
    · rintro (⟨cleared, -⟩ | ⟨other, shape', read⟩ | ⟨decimal, -⟩)
      · exact absurd cleared empty
      · rwa [← (hexPrefixed_drop shape').symm.trans (hexPrefixed_drop shape)]
      · exact absurd ⟨rest, shape⟩ decimal.unprefixed
  · rw [parseBig256_decimal empty prefixed, setString_within_iff (by decide) (by decide)]
    constructor
    · exact fun read => .inr (.inr read)
    · rintro (⟨cleared, -⟩ | ⟨rest, shape, -⟩ | read)
      · exact absurd cleared empty
      · exact absurd ⟨rest, shape⟩ prefixed
      · exact read

/-- Every value below `2 ^ 256` reads back from its decimal numeral, and from
`0x`, any number of zeros and its hex digits. -/
theorem parseBig256_numeral {v : Nat} (fits : v < 2 ^ 256) :
    parseBig256 (numeral 10 v) = some v ∧
      ∀ zeros, parseBig256 ([0x30, 0x78] ++ List.replicate zeros 0x30 ++ numeral 16 v) = some v := by
  have bound : (v : Int).natAbs < 2 ^ 256 := by simpa using fits
  have decimal : SignedNumeral 10 (numeral 10 v) v := by
    have read := SignedNumeral.unsigned (numeral_isNumeral (by decide : 2 ≤ 10) (by decide) v)
    rwa [digitsValue_numeral (by decide) (by decide)] at read
  have hex : ∀ zeros, SignedNumeral 16 (List.replicate zeros 0x30 ++ numeral 16 v) v := by
    intro zeros
    have digits := numeral_isNumeral (by decide : 2 ≤ 16) (by decide) v
    have padded : IsNumeral 16 (List.replicate zeros 0x30 ++ numeral 16 v) := by
      refine ⟨by simp [digits.1], fun ch member => ?_⟩
      rcases List.mem_append.mp member with zero | digit
      · rw [(List.mem_replicate.mp zero).2]
        decide
      · exact digits.2 ch digit
    have read := SignedNumeral.unsigned padded
    rwa [digitsValue_zeros_append, digitsValue_numeral (by decide) (by decide)] at read
  exact ⟨(parseBig256_eq_some_iff _ _).mpr (.inr (.inr ⟨decimal, bound⟩)), fun zeros =>
    (parseBig256_eq_some_iff _ _).mpr
      (.inr (.inl ⟨_, .inl (List.append_assoc _ _ _), hex zeros, bound⟩))⟩

/-- A numeral of a value at or beyond `2 ^ 256` is refused, in either base. -/
theorem parseBig256_long {s : List UInt8} {v : Int}
    (numeral : SignedNumeral 10 s v ∨
      ∃ rest, (s = [0x30, 0x78] ++ rest ∨ s = [0x30, 0x58] ++ rest) ∧ SignedNumeral 16 rest v)
    (long : 2 ^ 256 ≤ v.natAbs) : parseBig256 s = none := by
  have refused : ¬bitLen v ≤ 256 := by
    rw [bitLen_le_iff]
    omega
  rcases numeral with decimal | ⟨rest, shape, hex⟩
  · rw [parseBig256_decimal decimal.ne_nil decimal.unprefixed,
      (setString_eq_some_iff (by decide) (by decide)).mpr decimal]
    simp [Option.filter_some, refused]
  · rw [parseBig256_hex shape, (setString_eq_some_iff (by decide) (by decide)).mpr hex]
    simp [Option.filter_some, refused]

/-- What `ParseBig256` accepts and reads: the empty text as zero, and otherwise
a numeral, signed or not, in the base the prefix picks and of at most 256 bits;
every unsigned value below `2 ^ 256` reads back from its numerals, and every
numeral of a longer value is refused. -/
theorem parseBig256_numerals :
    (∀ s v, parseBig256 s = some v ↔ s = [] ∧ v = 0 ∨
      (∃ rest, (s = [0x30, 0x78] ++ rest ∨ s = [0x30, 0x58] ++ rest) ∧
        SignedNumeral 16 rest v ∧ v.natAbs < 2 ^ 256) ∨
      SignedNumeral 10 s v ∧ v.natAbs < 2 ^ 256) ∧
    (∀ v : Nat, v < 2 ^ 256 → parseBig256 (numeral 10 v) = some v ∧
      ∀ zeros, parseBig256 ([0x30, 0x78] ++ List.replicate zeros 0x30 ++ numeral 16 v) = some v) ∧
    (∀ s v, (SignedNumeral 10 s v ∨
        ∃ rest, (s = [0x30, 0x78] ++ rest ∨ s = [0x30, 0x58] ++ rest) ∧ SignedNumeral 16 rest v) →
      2 ^ 256 ≤ v.natAbs → parseBig256 s = none) :=
  ⟨parseBig256_eq_some_iff, fun _ fits => parseBig256_numeral fits, fun _ _ => parseBig256_long⟩

/-- `ParseBig256("-1")` and `ParseBig256("0x-1")` both succeed with -1. -/
theorem parseBig256_negative :
    parseBig256 [0x2d, 0x31] = some (-1) ∧ parseBig256 [0x30, 0x78, 0x2d, 0x31] = some (-1) :=
  ⟨(parseBig256_eq_some_iff _ _).mpr
      (.inr (.inr ⟨.minus ⟨List.cons_ne_nil _ _, by decide⟩, by decide⟩)),
    (parseBig256_eq_some_iff _ _).mpr
      (.inr (.inl ⟨[0x2d, 0x31], .inl rfl, .minus ⟨List.cons_ne_nil _ _, by decide⟩, by decide⟩))⟩

end Efsn
