import Efsn.Records

/-!
# Transaction parameter checks

Every `Check` method of the source is a sequence of guards: the first one that
fires returns its message, and `nil` comes back when none does. `runGuards`
runs such a sequence, each `check` below lists the source's guards in the
source's order with the source's texts, and a spec lemma beside each one says
in plain arithmetic when it accepts. Later proofs cite the spec lemmas and
never unfold a check.

The `blockNumber` argument every `Check` takes is read by none of them and is
left out; so are the parameter fields no check reads. `timestamp` is the
block time of type `uint64`, and `adjust` of `BuyTicketParam.Check` is an
`int64`, kept as the 64-bit pattern Go adds it with.
-/

namespace Efsn

/-- The checks of one `Check` method in source order: whether each fires,
and the text of the error it returns. -/
def runGuards : List (Bool × String) → Except String Unit
  | [] => .ok ()
  | (fires, message) :: rest => if fires then .error message else runGuards rest

theorem runGuards_eq_ok {guards : List (Bool × String)} :
    runGuards guards = .ok () ↔ ∀ guard ∈ guards, guard.1 = false := by
  induction guards with
  | nil => simp [runGuards]
  | cons guard rest induction =>
      obtain ⟨fires, message⟩ := guard
      cases fires <;> simp [runGuards, induction]

theorem runGuards_eq_error {guards : List (Bool × String)} {message : String}
    (rejected : runGuards guards = .error message) :
    (true, message) ∈ guards := by
  induction guards with
  | nil => cases rejected
  | cons guard rest induction =>
      obtain ⟨fires, text⟩ := guard
      cases fires
      · exact List.mem_cons_of_mem _ (induction rejected)
      · cases rejected
        exact List.mem_cons_self _ _

def notPositive : Option Int → Bool
  | some x => decide (x ≤ 0)
  | none => true

/-- `new(big.Int).Mul(x, y)`; every check multiplies only after both factors
were found set, so a nil factor, on which `Mul` would panic, never reaches
it. -/
def bigMul : Option Int → Option Int → Option Int
  | some x, some y => some (x * y)
  | _, _ => none

/-- `x.Cmp(y) > 0`, reached only with both operands set. -/
def bigGreater : Option Int → Option Int → Bool
  | some x, some y => decide (y < x)
  | _, _ => false

@[simp] theorem notPositive_eq_false {x : Option Int} :
    notPositive x = false ↔ ∃ v, x = some v ∧ 0 < v := by
  cases x <;> simp [notPositive]

@[simp] theorem bigMul_some (x y : Int) : bigMul (some x) (some y) = some (x * y) := rfl

@[simp] theorem bigGreater_some (x y : Int) : bigGreater (some x) (some y) = decide (y < x) := rfl

/-- The guard `Value == nil || Value.Cmp(Big0) <= 0` the value transfers
share. -/
def valueGuard (value : Option Int) : Bool × String :=
  (notPositive value, "Value must be set and greater than 0")

theorem UInt64.le_iff_toNat_le {a b : UInt64} : a ≤ b ↔ a.toNat ≤ b.toNat := Iff.rfl

theorem UInt64.lt_iff_toNat_lt {a b : UInt64} : a < b ↔ a.toNat < b.toNat := Iff.rfl

theorem UInt64.eq_zero_iff_toNat {a : UInt64} : a = 0 ↔ a.toNat = 0 :=
  ⟨fun zero => zero ▸ rfl, fun zero => UInt64.toNat.inj zero⟩

theorem UInt64.toNat_add_of_lt {a b : UInt64} (fits : a.toNat + b.toNat < 2 ^ 64) :
    (a + b).toNat = a.toNat + b.toNat :=
  (BitVec.toNat_add _ _).trans (Nat.mod_eq_of_lt fits)

/-! ## Assets and transfers -/

structure GenAssetParam where
  name : List UInt8
  symbol : List UInt8
  decimals : UInt8
  total : Option Int
  canChange : Bool
  description : List UInt8
deriving DecidableEq

/-- `GenAssetParam.Check`; unlike the other amounts, `Total` is compared with
`< 0`, so a zero supply passes. -/
def GenAssetParam.check (p : GenAssetParam) : Except String Unit :=
  runGuards [
    (p.name.length == 0 || p.symbol.length == 0 || p.total.isNone || p.total.any (· < 0),
      "GenAssetFunc name, symbol and total must be set"),
    (p.decimals > 18, "GenAssetFunc decimals must be between 0 and 18"),
    (p.description.length > 1024, "GenAsset description length is greater than 1024 chars"),
    (p.name.length > 128, "GenAsset name length is greater than 128 chars"),
    (p.symbol.length > 64, "GenAsset symbol length is greater than 64 chars")]

theorem GenAssetParam.check_eq_ok (p : GenAssetParam) :
    p.check = .ok () ↔
      p.name ≠ [] ∧ p.symbol ≠ [] ∧ (∃ total, p.total = some total ∧ 0 ≤ total) ∧
        p.decimals ≤ 18 ∧ p.description.length ≤ 1024 ∧ p.name.length ≤ 128 ∧
        p.symbol.length ≤ 64 := by
  rcases p with ⟨name, symbol, decimals, _ | total, canChange, description⟩ <;>
    simp [GenAssetParam.check, runGuards_eq_ok, and_assoc]

/-- `GenAssetParam.ToAsset`: the literal sets neither `ID` nor `Owner`,
which stay zero. -/
def GenAssetParam.toAsset (p : GenAssetParam) : Asset :=
  { id := FixedBytes.zero _, owner := FixedBytes.zero _, name := p.name, symbol := p.symbol,
    decimals := p.decimals, total := p.total, canChange := p.canChange,
    description := p.description }

/-- `SendAssetParam` (the check does not read `AssetID`). -/
structure SendAssetParam where
  «to» : Address
  value : Option Int
deriving DecidableEq

def SendAssetParam.check (p : SendAssetParam) : Except String Unit :=
  runGuards [valueGuard p.value,
    (p.«to» == FixedBytes.zero _, "receiver address must be set and not zero address")]

theorem SendAssetParam.check_eq_ok (p : SendAssetParam) :
    p.check = .ok () ↔ (∃ v, p.value = some v ∧ 0 < v) ∧ p.«to» ≠ FixedBytes.zero _ := by
  simp [SendAssetParam.check, valueGuard, runGuards_eq_ok]

/-- `TimeLockParam` (the check does not read `Type`, `AssetID` or `To`). -/
structure TimeLockParam where
  startTime : UInt64
  endTime : UInt64
  value : Option Int
deriving DecidableEq

def TimeLockParam.check (p : TimeLockParam) (timestamp : UInt64) : Except String Unit :=
  runGuards [valueGuard p.value,
    (p.startTime > p.endTime, "StartTime must be less than or equal to EndTime"),
    (p.endTime < timestamp, "EndTime must be greater than latest block time")]

theorem TimeLockParam.check_eq_ok (p : TimeLockParam) (timestamp : UInt64) :
    p.check timestamp = .ok () ↔
      (∃ v, p.value = some v ∧ 0 < v) ∧ p.startTime ≤ p.endTime ∧ timestamp ≤ p.endTime := by
  simp [TimeLockParam.check, valueGuard, runGuards_eq_ok]

/-- `AssetValueChangeParam` (the check reads only `Value`). -/
structure AssetValueChangeParam where
  value : Option Int
deriving DecidableEq

def AssetValueChangeParam.check (p : AssetValueChangeParam) : Except String Unit :=
  runGuards [valueGuard p.value]

theorem AssetValueChangeParam.check_eq_ok (p : AssetValueChangeParam) :
    p.check = .ok () ↔ ∃ v, p.value = some v ∧ 0 < v := by
  simp [AssetValueChangeParam.check, valueGuard, runGuards_eq_ok]

/-- `AssetValueChangeExParam` (the check reads `Value` and `TransacData`). -/
structure AssetValueChangeExParam where
  value : Option Int
  transacData : List UInt8
deriving DecidableEq

def AssetValueChangeExParam.check (p : AssetValueChangeExParam) : Except String Unit :=
  runGuards [valueGuard p.value,
    (p.transacData.length > 256, "TransacData must not be greater than 256")]

theorem AssetValueChangeExParam.check_eq_ok (p : AssetValueChangeExParam) :
    p.check = .ok () ↔ (∃ v, p.value = some v ∧ 0 < v) ∧ p.transacData.length ≤ 256 := by
  simp [AssetValueChangeExParam.check, valueGuard, runGuards_eq_ok]

/-! ## Tickets -/

structure BuyTicketParam where
  start : UInt64
  «end» : UInt64
deriving DecidableEq

/-- `BuyTicketParam.Check`. The sums are `uint64` sums, and
`uint64(7*24*3600+adjust)` adds in `int64` and reads the bits back unsigned;
the two block-time guards sit under `if timestamp != 0`. -/
def BuyTicketParam.check (p : BuyTicketParam) (timestamp : UInt64) (adjust : BitVec 64) :
    Except String Unit :=
  runGuards [
    (p.«end» ≤ p.start || p.«end» < p.start + 30 * 24 * 3600,
      "BuyTicket end must be lower than start + 1 month"),
    (timestamp != 0 && p.start > timestamp + 3 * 3600,
      "BuyTicket start must be lower than latest block time + 3 hour"),
    (timestamp != 0 && p.«end» < timestamp + ⟨7 * 24 * 3600 + adjust⟩,
      "BuyTicket end must be greater than latest block time + 1 week")]

theorem BuyTicketParam.check_eq_ok (p : BuyTicketParam) (timestamp : UInt64) (adjust : BitVec 64) :
    p.check timestamp adjust = .ok () ↔
      p.start < p.«end» ∧ p.start + 30 * 24 * 3600 ≤ p.«end» ∧
        (timestamp = 0 ∨ p.start ≤ timestamp + 3 * 3600 ∧
          timestamp + ⟨7 * 24 * 3600 + adjust⟩ ≤ p.«end») := by
  simp only [BuyTicketParam.check, runGuards_eq_ok, List.mem_cons, List.mem_singleton,
    forall_eq_or_imp, forall_eq, List.not_mem_nil, or_false, Bool.or_eq_false_iff,
    Bool.and_eq_false_imp, decide_eq_false_iff_not, bne_iff_ne, ne_eq, UInt64.not_le,
    UInt64.not_lt]
  constructor
  · rintro ⟨⟨lifetime, monthLong⟩, future, expiring⟩
    refine ⟨lifetime, monthLong, ?_⟩
    by_cases noTime : timestamp = 0
    · exact .inl noTime
    · exact .inr ⟨future noTime, expiring noTime⟩
  · rintro ⟨lifetime, monthLong, timed⟩
    exact ⟨⟨lifetime, monthLong⟩, fun set => (timed.resolve_left set).1,
      fun set => (timed.resolve_left set).2⟩

/-- `uint64(7*24*3600+adjust)` is the plain sum when that is not negative and
fits an `int64`. -/
theorem BuyTicketParam.week_toNat {adjust : BitVec 64} (nonnegative : 0 ≤ 604800 + adjust.toInt)
    (fits : 604800 + adjust.toInt < 2 ^ 63) :
    ((UInt64.mk (7 * 24 * 3600 + adjust)).toNat : Int) = 604800 + adjust.toInt := by
  have sum : (UInt64.mk (7 * 24 * 3600 + adjust)).toNat =
      (604800 + adjust.toNat) % 18446744073709551616 :=
    BitVec.toNat_add _ _
  have bound := adjust.isLt
  rw [sum]
  rw [BitVec.toInt_eq_toNat_cond] at nonnegative fits ⊢
  split_ifs at nonnegative fits ⊢ <;> omega

/-- Where none of the three sums wraps, `BuyTicketParam.Check` is the rule over
unbounded integers: the ticket lives at least 30 days, starts at most 3 hours
after the block time and ends no sooner than 7 days plus `adjust` after it. -/
theorem BuyTicketParam.check_eq_ok_of_no_wrap (p : BuyTicketParam) (timestamp : UInt64)
    (adjust : BitVec 64) (lifetimeFits : p.start.toNat + 2592000 < 2 ^ 64)
    (futureFits : timestamp.toNat + 10800 < 2 ^ 64)
    (weekFits : 0 ≤ 604800 + adjust.toInt ∧ 604800 + adjust.toInt < 2 ^ 63 ∧
      timestamp.toNat + 604800 + adjust.toInt < 2 ^ 64) :
    p.check timestamp adjust = .ok () ↔
      (p.start.toNat : Int) < p.«end».toNat ∧ (p.start.toNat : Int) + 2592000 ≤ p.«end».toNat ∧
        (timestamp = 0 ∨ (p.start.toNat : Int) ≤ timestamp.toNat + 10800 ∧
          (timestamp.toNat : Int) + 604800 + adjust.toInt ≤ p.«end».toNat) := by
  have month : (p.start + 30 * 24 * 3600).toNat = p.start.toNat + 2592000 :=
    UInt64.toNat_add_of_lt lifetimeFits
  have hours : (timestamp + 3 * 3600).toNat = timestamp.toNat + 10800 :=
    UInt64.toNat_add_of_lt futureFits
  have week := BuyTicketParam.week_toNat weekFits.1 weekFits.2.1
  have weekSum : ((timestamp + ⟨7 * 24 * 3600 + adjust⟩).toNat : Int) =
      timestamp.toNat + 604800 + adjust.toInt := by
    rw [UInt64.toNat_add_of_lt (by omega), Nat.cast_add, week, Int.add_assoc]
  rw [BuyTicketParam.check_eq_ok, UInt64.lt_iff_toNat_lt, UInt64.le_iff_toNat_le,
    UInt64.le_iff_toNat_le, UInt64.le_iff_toNat_le, month, hours, UInt64.eq_zero_iff_toNat]
  omega

/-- A ticket that starts near the top of the `uint64` range and lives for less
than a day passes: `start+30*24*3600` wraps past zero. A second ticket lives
exactly 30 days, starts on time and would meet `End >= timestamp + 7 days +
adjust` for `adjust = -1000000`, yet is refused, because
`uint64(7*24*3600+adjust)` wraps to almost `2^64`. -/
theorem buyTicket_check_wraps :
    (BuyTicketParam.mk 18446744073709551516 18446744073709551615).check 0 0 = .ok () ∧
      ¬ ((18446744073709551615 : Int) ≥ 18446744073709551516 + 2592000) ∧
      (BuyTicketParam.mk 0 2592000).check 1 (-1000000) ≠ .ok () ∧
      ((2592000 : Int) > 0 ∧ (2592000 : Int) ≥ 0 + 2592000 ∧ (0 : Int) ≤ 1 + 10800 ∧
        (2592000 : Int) ≥ 1 + 604800 + (-1000000 : BitVec 64).toInt) := by
  refine ⟨rfl, by norm_num, fun accepted => ?_, by decide⟩
  cases accepted

/-! ## Swaps -/

/-- `MakeSwapParam` (the check does not read the asset ids, `Targes` or
`Time`). -/
structure MakeSwapParam where
  fromStartTime : UInt64
  fromEndTime : UInt64
  minFromAmount : Option Int
  toStartTime : UInt64
  toEndTime : UInt64
  minToAmount : Option Int
  swapSize : Option Int
  description : List UInt8
deriving DecidableEq

def MakeSwapParam.check (p : MakeSwapParam) (timestamp : UInt64) : Except String Unit :=
  runGuards [
    (notPositive p.minFromAmount || notPositive p.minToAmount || notPositive p.swapSize,
      "MinFromAmount,MinToAmount and SwapSize must be ge 1"),
    (p.description.length > 1024, "MakeSwap description length is greater than 1024 chars"),
    (notPositive (bigMul p.minFromAmount p.swapSize), "size * MinFromAmount too large"),
    (p.fromStartTime > p.fromEndTime, "MakeSwap FromStartTime > FromEndTime"),
    (p.toStartTime > p.toEndTime, "MakeSwap ToStartTime > ToEndTime"),
    (p.fromEndTime ≤ timestamp, "MakeSwap FromEndTime <= latest blockTime"),
    (p.toEndTime ≤ timestamp, "MakeSwap ToEndTime <= latest blockTime")]

def RecallSwapParam.check (swap : Swap) : Except String Unit :=
  runGuards [
    (notPositive swap.minFromAmount, "swap illegal: MinFromAmount must be set and greater than 0"),
    (notPositive swap.swapSize, "swap illegal: SwapSize must be set and greater than 0"),
    (notPositive (bigMul swap.minFromAmount swap.swapSize), "size * minFromAmount too large")]

/-- `TakeSwapParam` (the check does not read `SwapID`). -/
structure TakeSwapParam where
  size : Option Int
deriving DecidableEq

def TakeSwapParam.check (p : TakeSwapParam) (swap : Swap) (timestamp : UInt64) :
    Except String Unit :=
  runGuards [
    (notPositive p.size || swap.swapSize.isNone || bigGreater p.size swap.swapSize,
      "Size must be ge 1 and le Swapsize"),
    (notPositive swap.minFromAmount, "MinFromAmount less than  equal to zero"),
    (notPositive swap.minToAmount, "MinToAmount less than  equal to zero"),
    (notPositive (bigMul swap.minFromAmount p.size), "fromTotal less than  equal to zero"),
    (notPositive (bigMul swap.minToAmount p.size), "toTotal less than  equal to zero"),
    (swap.fromEndTime ≤ timestamp, "swap expired: FromEndTime <= latest blockTime"),
    (swap.toEndTime ≤ timestamp, "swap expired: ToEndTime <= latest blockTime")]

/-- The product guards drop out of the acceptance conditions below: a product of
two positive big integers is positive. -/
theorem MakeSwapParam.check_eq_ok (p : MakeSwapParam) (timestamp : UInt64) :
    p.check timestamp = .ok () ↔
      ∃ minFrom minTo size, p.minFromAmount = some minFrom ∧ p.minToAmount = some minTo ∧
        p.swapSize = some size ∧ 0 < minFrom ∧ 0 < minTo ∧ 0 < size ∧
        p.description.length ≤ 1024 ∧ p.fromStartTime ≤ p.fromEndTime ∧
        p.toStartTime ≤ p.toEndTime ∧ timestamp < p.fromEndTime ∧ timestamp < p.toEndTime := by
  constructor
  · intro accepted
    simp only [MakeSwapParam.check, runGuards_eq_ok, List.mem_cons, List.mem_singleton,
      forall_eq_or_imp, forall_eq, List.not_mem_nil, or_false, Bool.or_eq_false_iff,
      notPositive_eq_false, decide_eq_false_iff_not, UInt64.not_le, UInt64.not_lt,
      Nat.not_lt] at accepted
    obtain ⟨⟨⟨⟨minFrom, minFromSet, minFromPositive⟩, minTo, minToSet, minToPositive⟩, size, sizeSet,
      sizePositive⟩, described, -, fromWindow, toWindow, fromOpen, toOpen⟩ := accepted
    exact ⟨minFrom, minTo, size, minFromSet, minToSet, sizeSet, minFromPositive, minToPositive,
      sizePositive, described, fromWindow, toWindow, fromOpen, toOpen⟩
  · rintro ⟨minFrom, minTo, size, minFromSet, minToSet, sizeSet, minFromPositive, minToPositive,
      sizePositive, described, fromWindow, toWindow, fromOpen, toOpen⟩
    simp [MakeSwapParam.check, runGuards, notPositive, minFromSet, minToSet, sizeSet,
      minFromPositive.not_le, minToPositive.not_le, sizePositive.not_le, described,
      (Int.mul_pos minFromPositive sizePositive).not_le, UInt64.not_lt.mpr fromWindow,
      UInt64.not_lt.mpr toWindow, UInt64.not_le.mpr fromOpen, UInt64.not_le.mpr toOpen]

theorem RecallSwapParam.check_eq_ok (swap : Swap) :
    RecallSwapParam.check swap = .ok () ↔
      ∃ minFrom size, swap.minFromAmount = some minFrom ∧ swap.swapSize = some size ∧
        0 < minFrom ∧ 0 < size := by
  constructor
  · intro accepted
    simp only [RecallSwapParam.check, runGuards_eq_ok, List.mem_cons, List.mem_singleton,
      forall_eq_or_imp, forall_eq, List.not_mem_nil, or_false, notPositive_eq_false] at accepted
    obtain ⟨⟨minFrom, minFromSet, minFromPositive⟩, ⟨size, sizeSet, sizePositive⟩, -⟩ := accepted
    exact ⟨minFrom, size, minFromSet, sizeSet, minFromPositive, sizePositive⟩
  · rintro ⟨minFrom, size, minFromSet, sizeSet, minFromPositive, sizePositive⟩
    simp [RecallSwapParam.check, runGuards, notPositive, minFromSet, sizeSet,
      minFromPositive.not_le, sizePositive.not_le, (Int.mul_pos minFromPositive sizePositive).not_le]

theorem TakeSwapParam.check_eq_ok (size : Option Int) (swap : Swap) (timestamp : UInt64) :
    (TakeSwapParam.mk size).check swap timestamp = .ok () ↔
      ∃ n remaining minFrom minTo, size = some n ∧ swap.swapSize = some remaining ∧
        swap.minFromAmount = some minFrom ∧ swap.minToAmount = some minTo ∧
        0 < n ∧ n ≤ remaining ∧ 0 < minFrom ∧ 0 < minTo ∧
        timestamp < swap.fromEndTime ∧ timestamp < swap.toEndTime := by
  constructor
  · intro accepted
    simp only [TakeSwapParam.check, runGuards_eq_ok, List.mem_cons, List.mem_singleton,
      forall_eq_or_imp, forall_eq, List.not_mem_nil, or_false, Bool.or_eq_false_iff,
      notPositive_eq_false, decide_eq_false_iff_not, UInt64.not_le] at accepted
    obtain ⟨⟨⟨⟨n, rfl, nPositive⟩, sizeSet⟩, withinSize⟩, ⟨minFrom, minFromSet, minFromPositive⟩,
      ⟨minTo, minToSet, minToPositive⟩, -, -, fromOpen, toOpen⟩ := accepted
    cases remainingSet : swap.swapSize with
    | none => simp [remainingSet] at sizeSet
    | some remaining =>
        rw [remainingSet, bigGreater_some, decide_eq_false_iff_not, Int.not_lt] at withinSize
        exact ⟨n, remaining, minFrom, minTo, rfl, rfl, minFromSet, minToSet, nPositive,
          withinSize, minFromPositive, minToPositive, fromOpen, toOpen⟩
  · rintro ⟨n, remaining, minFrom, minTo, rfl, remainingSet, minFromSet, minToSet, nPositive,
      withinSize, minFromPositive, minToPositive, fromOpen, toOpen⟩
    simp [TakeSwapParam.check, runGuards, notPositive, remainingSet, minFromSet, minToSet,
      nPositive.not_le, minFromPositive.not_le, minToPositive.not_le, withinSize.not_lt,
      (Int.mul_pos minFromPositive nPositive).not_le, (Int.mul_pos minToPositive nPositive).not_le,
      UInt64.not_le.mpr fromOpen, UInt64.not_le.mpr toOpen]

/-! ## The block time only closes a request -/

/-- A time lock or a new swap that its check accepts at some block time is
accepted at every earlier one: a request refused for the block time is refused
at every later one. -/
theorem blockTime_only_closes {earlier timestamp : UInt64} (before : earlier ≤ timestamp) :
    (∀ p : TimeLockParam, p.check timestamp = .ok () → p.check earlier = .ok ()) ∧
      ∀ p : MakeSwapParam, p.check timestamp = .ok () → p.check earlier = .ok () := by
  refine ⟨fun p accepted => ?_, fun p accepted => ?_⟩
  · obtain ⟨value, window, unexpired⟩ := (TimeLockParam.check_eq_ok p timestamp).mp accepted
    exact (TimeLockParam.check_eq_ok p earlier).mpr ⟨value, window, Nat.le_trans before unexpired⟩
  · obtain ⟨minFrom, minTo, size, minFromSet, minToSet, sizeSet, minFromPositive, minToPositive,
      sizePositive, described, fromWindow, toWindow, fromOpen, toOpen⟩ :=
      (MakeSwapParam.check_eq_ok p timestamp).mp accepted
    exact (MakeSwapParam.check_eq_ok p earlier).mpr ⟨minFrom, minTo, size, minFromSet, minToSet,
      sizeSet, minFromPositive, minToPositive, sizePositive, described, fromWindow, toWindow,
      Nat.lt_of_le_of_lt before fromOpen, Nat.lt_of_le_of_lt before toOpen⟩

theorem blockTime_only_closes_ninety :
    (90 : UInt64) ≤ 100 ∧
      (∀ p : TimeLockParam, p.check 100 = .ok () → p.check 90 = .ok ()) ∧
      ∀ p : MakeSwapParam, p.check 100 = .ok () → p.check 90 = .ok () :=
  ⟨by decide, blockTime_only_closes (by decide)⟩

end Efsn
