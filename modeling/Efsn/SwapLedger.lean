import Mathlib.Algebra.Order.BigOperators.Group.List
import Efsn.Validation

/-!
# A swap taken step after step

The validators judge one transaction against a swap as it stands; the ledger
that stores the swap lowers its `SwapSize` by the size of every take it
admits. This module runs that bookkeeping over one swap, as the block time
moves forward and takes arrive, and proves what holds at every state a run
reaches: the sizes handed out never exceed the offer, a spent or expired
swap admits nothing, and an open one can be recalled.

The make, take and recall validators are then related to each other and to
the invariant the spec states for a stored swap.
-/

namespace Efsn

theorem UInt64.min_le_iff {a b t : UInt64} : min a b ≤ t ↔ a ≤ t ∨ b ≤ t := by
  show (if a ≤ b then a else b) ≤ t ↔ _
  simp only [UInt64.le_iff_toNat_le]
  split <;> omega

theorem UInt64.lt_min_iff {a b t : UInt64} : t < min a b ↔ t < a ∧ t < b := by
  show t < (if a ≤ b then a else b) ↔ _
  simp only [UInt64.le_iff_toNat_le, UInt64.lt_iff_toNat_lt]
  split <;> omega

/-! ## The swap invariant and the three validators -/

/-- The invariant the spec states for a stored swap. -/
structure Swap.Invariant (s : Swap) : Prop where
  minFromAmount_pos : ∃ v, s.minFromAmount = some v ∧ 0 < v
  minToAmount_pos : ∃ v, s.minToAmount = some v ∧ 0 < v
  swapSize_pos : ∃ v, s.swapSize = some v ∧ 0 < v
  fromWindow : s.fromStartTime ≤ s.fromEndTime
  toWindow : s.toStartTime ≤ s.toEndTime

theorem RecallSwapParam.check_of_take {size : Option Int} {swap : Swap} {timestamp : UInt64}
    (taken : (TakeSwapParam.mk size).check swap timestamp = .ok ()) :
    RecallSwapParam.check swap = .ok () := by
  obtain ⟨n, remaining, minFrom, _, _, sizeSet, minFromSet, _, nPositive, withinSize,
    minFromPositive, -⟩ := (TakeSwapParam.check_eq_ok _ _ _).mp taken
  exact (RecallSwapParam.check_eq_ok swap).mpr
    ⟨minFrom, remaining, minFromSet, sizeSet, minFromPositive, by omega⟩

/-! ## The ledger -/

/-- What the ledger sees happen to one swap. -/
inductive LedgerEvent
  | advance (timestamp : UInt64)
  | take (size : Int)
deriving DecidableEq

/-- One swap as the ledger holds it, the latest block time, and the sizes of
the takes admitted so far, in order. -/
structure SwapLedger where
  swap : Swap
  timestamp : UInt64
  taken : List Int
deriving DecidableEq

def SwapLedger.init (swap : Swap) (timestamp : UInt64) : SwapLedger :=
  ⟨swap, timestamp, []⟩

/-- Modelled from the spec: the ledger bookkeeping around `TakeSwapParam.Check`.
Block time never moves back; a take is admitted exactly when the check accepts
it against the swap as it stands and then lowers `SwapSize` by its size; a
rejected take changes nothing. -/
def SwapLedger.step (l : SwapLedger) : LedgerEvent → Option SwapLedger
  | .advance timestamp => if l.timestamp ≤ timestamp then some { l with timestamp } else none
  | .take n =>
      match (TakeSwapParam.mk (some n)).check l.swap l.timestamp with
      | .ok () =>
          some { l with swap := { l.swap with swapSize := l.swap.swapSize.map (· - n) },
                        taken := l.taken ++ [n] }
      | .error _ => some l

/-- A run of events; `none` when the block time would move back. -/
def SwapLedger.run (l : SwapLedger) : List LedgerEvent → Option SwapLedger
  | [] => some l
  | event :: rest => (l.step event).bind fun next => next.run rest

/-- Everything one step can do. -/
theorem SwapLedger.step_cases {l next : SwapLedger} {event : LedgerEvent}
    (stepped : l.step event = some next) :
    (next.swap = l.swap ∧ next.taken = l.taken) ∨
      ∃ n, (TakeSwapParam.mk (some n)).check l.swap l.timestamp = .ok () ∧
        next.timestamp = l.timestamp ∧ next.taken = l.taken ++ [n] ∧
        next.swap = { l.swap with swapSize := l.swap.swapSize.map (· - n) } := by
  cases event with
  | advance timestamp =>
      simp only [SwapLedger.step] at stepped
      split at stepped <;> cases stepped
      exact .inl ⟨rfl, rfl⟩
  | take n =>
      simp only [SwapLedger.step] at stepped
      split at stepped <;> cases stepped
      · exact .inr ⟨n, ‹_›, rfl, rfl, rfl⟩
      · exact .inl ⟨rfl, rfl⟩

/-- The bookkeeping of a run started from the swap `s`: the swap keeps every
field but `SwapSize`, which is the original one less the admitted sizes, every
admitted size is positive, and once something was taken the remaining size is
set and not negative. -/
structure SwapLedger.Invariant (s : Swap) (l : SwapLedger) : Prop where
  others : l.swap = { s with swapSize := l.swap.swapSize }
  positive : ∀ n ∈ l.taken, 0 < n
  remaining : l.swap.swapSize = s.swapSize.map (· - l.taken.sum)
  nonnegative : l.taken = [] ∨ ∃ r, l.swap.swapSize = some r ∧ 0 ≤ r

theorem SwapLedger.invariant_init (s : Swap) (timestamp : UInt64) :
    (SwapLedger.init s timestamp).Invariant s where
  others := rfl
  positive := by simp [SwapLedger.init]
  remaining := by simp [SwapLedger.init]
  nonnegative := .inl rfl

theorem SwapLedger.Invariant.offered {s : Swap} {l : SwapLedger} {r : Int} (invariant : l.Invariant s)
    (remainingSet : l.swap.swapSize = some r) :
    ∃ size, s.swapSize = some size ∧ size - l.taken.sum = r :=
  Option.map_eq_some'.mp (invariant.remaining ▸ remainingSet)

theorem SwapLedger.invariant_step {s : Swap} {l next : SwapLedger} {event : LedgerEvent}
    (invariant : l.Invariant s) (stepped : l.step event = some next) : next.Invariant s := by
  rcases SwapLedger.step_cases stepped with ⟨sameSwap, sameTaken⟩ | ⟨n, admitted, -, taken, swap⟩
  · exact ⟨sameSwap ▸ invariant.others, sameTaken ▸ invariant.positive,
      sameSwap ▸ sameTaken ▸ invariant.remaining, sameSwap ▸ sameTaken ▸ invariant.nonnegative⟩
  obtain ⟨n', remaining, -, -, sizeSet, remainingSet, -, -, nPositive, withinSize, -⟩ :=
    (TakeSwapParam.check_eq_ok _ _ _).mp admitted
  cases sizeSet
  obtain ⟨size, sizeSet, remainingIs⟩ := invariant.offered remainingSet
  refine ⟨by rw [swap, invariant.others], ?_, ?_,
    .inr ⟨remaining - n, by rw [swap, remainingSet]; rfl, by omega⟩⟩
  · rw [taken]
    exact List.forall_mem_append.mpr ⟨invariant.positive, List.forall_mem_singleton.mpr nPositive⟩
  · simp only [swap, taken, remainingSet, sizeSet, List.sum_append, List.sum_singleton,
      Option.map_some', Option.some.injEq]
    omega

theorem SwapLedger.invariant_run {s : Swap} {l next : SwapLedger} (events : List LedgerEvent)
    (invariant : l.Invariant s) (ran : l.run events = some next) : next.Invariant s := by
  induction events generalizing l with
  | nil =>
      cases ran
      exact invariant
  | cons event rest induction =>
      obtain ⟨middle, stepped, ranRest⟩ := Option.bind_eq_some.mp ran
      exact induction (SwapLedger.invariant_step invariant stepped) ranRest

theorem SwapLedger.Invariant.sum_le {s : Swap} {l : SwapLedger} (invariant : l.Invariant s)
    (nonempty : l.taken ≠ []) : ∃ size, s.swapSize = some size ∧ l.taken.sum ≤ size := by
  obtain ⟨r, remainingSet, nonnegative⟩ := invariant.nonnegative.resolve_left nonempty
  obtain ⟨size, sizeSet, rfl⟩ := invariant.offered remainingSet
  exact ⟨size, sizeSet, by omega⟩

/-- A spent swap, or one past either end time, admits no take. -/
theorem TakeSwapParam.check_closed {size : Option Int} {swap : Swap} {timestamp : UInt64}
    (closed : (∀ r, swap.swapSize = some r → r ≤ 0) ∨
      min swap.fromEndTime swap.toEndTime ≤ timestamp) :
    (TakeSwapParam.mk size).check swap timestamp ≠ .ok () := by
  intro accepted
  obtain ⟨n, remaining, -, -, -, remainingSet, -, -, nPositive, withinSize, -, -, fromOpen,
    toOpen⟩ := (TakeSwapParam.check_eq_ok _ _ _).mp accepted
  rcases closed with spent | expired
  · have := spent remaining remainingSet
    omega
  · rcases UInt64.min_le_iff.mp expired with fromShut | toShut
    · exact absurd fromShut (UInt64.not_le.mpr fromOpen)
    · exact absurd toShut (UInt64.not_le.mpr toOpen)

/-- Along every run over a swap with positive minimum amounts: each admitted
size is positive; once anything is admitted the original `SwapSize` is set and
the admitted sizes, and the amounts of either asset they move, stay within it;
a swap offered with a size that is unset or not positive admits nothing; a
spent or expired swap admits no take; and while some size remains, the swap
can be recalled. -/
theorem swapLedger_take_bounds (s : Swap) (start : UInt64) (events : List LedgerEvent)
    (l : SwapLedger) (minFromPositive : ∃ minFrom, s.minFromAmount = some minFrom ∧ 0 < minFrom)
    (minToPositive : ∃ minTo, s.minToAmount = some minTo ∧ 0 < minTo)
    (ran : (SwapLedger.init s start).run events = some l) :
    (∀ n ∈ l.taken, 0 < n) ∧
      (l.taken ≠ [] → ∃ size minFrom minTo, s.swapSize = some size ∧
        s.minFromAmount = some minFrom ∧ s.minToAmount = some minTo ∧ l.taken.sum ≤ size ∧
        minFrom * l.taken.sum ≤ minFrom * size ∧ minTo * l.taken.sum ≤ minTo * size) ∧
      ((∀ size, s.swapSize = some size → size ≤ 0) → l.taken = []) ∧
      (∀ n, ((∀ r, l.swap.swapSize = some r → r ≤ 0) ∨
          min s.fromEndTime s.toEndTime ≤ l.timestamp) →
        (TakeSwapParam.mk n).check l.swap l.timestamp ≠ .ok ()) ∧
      (∀ r, l.swap.swapSize = some r → 0 < r → RecallSwapParam.check l.swap = .ok ()) := by
  have invariant := SwapLedger.invariant_run events (SwapLedger.invariant_init s start) ran
  obtain ⟨minFrom, minFromSet, minFromPos⟩ := minFromPositive
  obtain ⟨minTo, minToSet, minToPos⟩ := minToPositive
  have fromEnd : l.swap.fromEndTime = s.fromEndTime := by rw [invariant.others]
  have toEnd : l.swap.toEndTime = s.toEndTime := by rw [invariant.others]
  have minFromKept : l.swap.minFromAmount = s.minFromAmount := by rw [invariant.others]
  refine ⟨invariant.positive, fun nonempty => ?_, fun notOffered => ?_, fun n closed => ?_,
    fun r remainingSet remainingPositive => ?_⟩
  · obtain ⟨size, sizeSet, bounded⟩ := invariant.sum_le nonempty
    exact ⟨size, minFrom, minTo, sizeSet, minFromSet, minToSet, bounded,
      Int.mul_le_mul_of_nonneg_left bounded minFromPos.le,
      Int.mul_le_mul_of_nonneg_left bounded minToPos.le⟩
  · by_contra nonempty
    obtain ⟨size, sizeSet, bounded⟩ := invariant.sum_le nonempty
    have positiveSum : 0 < l.taken.sum := List.sum_pos _ invariant.positive nonempty
    have := notOffered size sizeSet
    omega
  · rw [← fromEnd, ← toEnd] at closed
    exact TakeSwapParam.check_closed closed
  · exact (RecallSwapParam.check_eq_ok _).mpr
      ⟨minFrom, r, minFromKept.trans minFromSet, remainingSet, minFromPos,
        remainingPositive⟩

/-- Three lots taken from a swap of ten: the rest can still be recalled. -/
theorem swapLedger_take_bounds_three :
    let s : Swap := ⟨FixedBytes.zero _, FixedBytes.zero _, FixedBytes.zero _, 0, 100, some 1,
      FixedBytes.zero _, 0, 100, some 1, some 10, [], some 0, []⟩
    (SwapLedger.init s 0).run [.take 3] = some ⟨{ s with swapSize := some 7 }, 0, [3]⟩ ∧
      RecallSwapParam.check { s with swapSize := some 7 } = .ok () :=
  ⟨rfl, (swapLedger_take_bounds ⟨FixedBytes.zero _, FixedBytes.zero _, FixedBytes.zero _, 0, 100,
    some 1, FixedBytes.zero _, 0, 100, some 1, some 10, [], some 0, []⟩ 0 [.take 3] _
    ⟨1, rfl, by decide⟩ ⟨1, rfl, by decide⟩ rfl).2.2.2.2 7 rfl (by decide)⟩

/-- A swap whose offered size is negative: no take is ever admitted, and the
empty sum `0` exceeds the offered size. -/
theorem swapLedger_negative_size :
    let s : Swap := ⟨FixedBytes.zero _, FixedBytes.zero _, FixedBytes.zero _, 0, 100, some 1,
      FixedBytes.zero _, 0, 100, some 1, some (-1), [], some 0, []⟩
    (SwapLedger.init s 0).run [.take 1] = some (SwapLedger.init s 0) ∧
      ¬ (SwapLedger.init s 0).taken.sum ≤ -1 := by
  decide

/-- `MakeSwap`, `TakeSwap` and `RecallSwap` agree: a swap built from an accepted
`MakeSwapParam` meets the spec's invariant, can be recalled, and can be taken
in exactly the sizes from one to its `SwapSize` before either end time, the
make's own block time included; and any swap a take is accepted against can
be recalled. -/
theorem makeSwap_take_recall_agree (p : MakeSwapParam) (timestamp : UInt64)
    (accepted : p.check timestamp = .ok ()) (s : Swap)
    (carries : s.minFromAmount = p.minFromAmount ∧ s.minToAmount = p.minToAmount ∧
      s.swapSize = p.swapSize ∧ s.fromStartTime = p.fromStartTime ∧
      s.fromEndTime = p.fromEndTime ∧ s.toStartTime = p.toStartTime ∧
      s.toEndTime = p.toEndTime) :
    s.Invariant ∧ RecallSwapParam.check s = .ok () ∧
      (∀ n later, (TakeSwapParam.mk n).check s later = .ok () ↔
        ∃ k size, n = some k ∧ p.swapSize = some size ∧ 1 ≤ k ∧ k ≤ size ∧
          later < min p.fromEndTime p.toEndTime) ∧
      (∀ k size, p.swapSize = some size → 1 ≤ k → k ≤ size →
        (TakeSwapParam.mk (some k)).check s timestamp = .ok ()) ∧
      (∀ (swap : Swap) n later, (TakeSwapParam.mk n).check swap later = .ok () →
        RecallSwapParam.check swap = .ok ()) := by
  obtain ⟨minFrom, minTo, size, minFromSet, minToSet, sizeSet, minFromPos, minToPos, sizePos, -,
    fromWindow, toWindow, fromOpen, toOpen⟩ := (MakeSwapParam.check_eq_ok p timestamp).mp accepted
  obtain ⟨sMinFrom, sMinTo, sSize, sFromStart, sFromEnd, sToStart, sToEnd⟩ := carries
  have takeIff : ∀ n later, (TakeSwapParam.mk n).check s later = .ok () ↔
      ∃ k size, n = some k ∧ p.swapSize = some size ∧ 1 ≤ k ∧ k ≤ size ∧
        later < min p.fromEndTime p.toEndTime := by
    intro n later
    rw [TakeSwapParam.check_eq_ok, UInt64.lt_min_iff, sMinFrom, sMinTo, sSize, sFromEnd, sToEnd,
      minFromSet, minToSet]
    constructor
    · rintro ⟨k, remaining, -, -, rfl, sizeIs, ⟨⟩, ⟨⟩, kPositive, withinSize, -, -, times⟩
      exact ⟨k, remaining, rfl, sizeIs, kPositive, withinSize, times⟩
    · rintro ⟨k, remaining, rfl, sizeIs, kPositive, withinSize, times⟩
      exact ⟨k, remaining, minFrom, minTo, rfl, sizeIs, rfl, rfl, kPositive, withinSize,
        minFromPos, minToPos, times⟩
  refine ⟨⟨⟨minFrom, sMinFrom.trans minFromSet, minFromPos⟩, ⟨minTo, sMinTo.trans minToSet, minToPos⟩,
      ⟨size, sSize.trans sizeSet, sizePos⟩, sFromStart ▸ sFromEnd ▸ fromWindow,
      sToStart ▸ sToEnd ▸ toWindow⟩, ?_, takeIff, fun k size' sizeIs kPositive withinSize => ?_,
    fun swap n later taken => RecallSwapParam.check_of_take taken⟩
  · exact (RecallSwapParam.check_eq_ok s).mpr
      ⟨minFrom, size, sMinFrom.trans minFromSet, sSize.trans sizeSet, minFromPos, sizePos⟩
  · exact (takeIff _ _).mpr ⟨k, size', rfl, sizeIs, kPositive, withinSize,
      UInt64.lt_min_iff.mpr ⟨fromOpen, toOpen⟩⟩

/-- A swap of ten lots at a hundred of either asset, made at block time zero
and open until time one hundred. -/
theorem makeSwap_take_recall_agree_ten :
    let p := MakeSwapParam.mk 0 100 (some 100) 0 100 (some 100) (some 10) []
    let s : Swap := ⟨FixedBytes.zero _, FixedBytes.zero _, FixedBytes.zero _, 0, 100, some 100,
      FixedBytes.zero _, 0, 100, some 100, some 10, [], some 0, []⟩
    p.check 0 = .ok () ∧ s.Invariant ∧ RecallSwapParam.check s = .ok () :=
  have agree := makeSwap_take_recall_agree
    (MakeSwapParam.mk 0 100 (some 100) 0 100 (some 100) (some 10) []) 0 rfl
    ⟨FixedBytes.zero _, FixedBytes.zero _, FixedBytes.zero _, 0, 100, some 100,
      FixedBytes.zero _, 0, 100, some 100, some 10, [], some 0, []⟩
    ⟨rfl, rfl, rfl, rfl, rfl, rfl, rfl⟩
  ⟨rfl, agree.1, agree.2.1⟩

/-! ## A refused take stays refused -/

/-- How a later state of the ledger stands to an earlier one: the block time
has not moved back, the swap keeps every field but `SwapSize`, and a remaining
size that is set was set before and was no smaller. -/
structure SwapLedger.Follows (l later : SwapLedger) : Prop where
  timestamp : l.timestamp ≤ later.timestamp
  others : later.swap = { l.swap with swapSize := later.swap.swapSize }
  shrinks : ∀ r, later.swap.swapSize = some r → ∃ before, l.swap.swapSize = some before ∧ r ≤ before

theorem SwapLedger.Follows.refl (l : SwapLedger) : l.Follows l :=
  ⟨Nat.le_refl _, rfl, fun r set => ⟨r, set, le_refl r⟩⟩

theorem SwapLedger.Follows.trans {l middle later : SwapLedger} (first : l.Follows middle)
    (second : middle.Follows later) : l.Follows later where
  timestamp := Nat.le_trans first.timestamp second.timestamp
  others := by rw [second.others, first.others]
  shrinks r set := by
    obtain ⟨between, betweenSet, belowBetween⟩ := second.shrinks r set
    obtain ⟨before, beforeSet, belowBefore⟩ := first.shrinks between betweenSet
    exact ⟨before, beforeSet, le_trans belowBetween belowBefore⟩

theorem SwapLedger.step_timestamp {l next : SwapLedger} {event : LedgerEvent}
    (stepped : l.step event = some next) : l.timestamp ≤ next.timestamp := by
  cases event with
  | advance timestamp =>
      simp only [SwapLedger.step] at stepped
      split at stepped <;> cases stepped
      assumption
  | take n =>
      simp only [SwapLedger.step] at stepped
      split at stepped <;> cases stepped <;> exact Nat.le_refl _

theorem SwapLedger.follows_step {l next : SwapLedger} {event : LedgerEvent}
    (stepped : l.step event = some next) : l.Follows next := by
  rcases SwapLedger.step_cases stepped with ⟨sameSwap, -⟩ | ⟨n, admitted, -, -, swap⟩
  · exact ⟨SwapLedger.step_timestamp stepped, by rw [sameSwap],
      fun r set => ⟨r, sameSwap ▸ set, le_refl r⟩⟩
  obtain ⟨n', remaining, -, -, sizeSet, remainingSet, -, -, nPositive, -⟩ :=
    (TakeSwapParam.check_eq_ok _ _ _).mp admitted
  cases sizeSet
  refine ⟨SwapLedger.step_timestamp stepped, by rw [swap], fun r set => ⟨remaining, remainingSet, ?_⟩⟩
  rw [swap, remainingSet, Option.map_some', Option.some.injEq] at set
  omega

theorem SwapLedger.follows_run {l later : SwapLedger} (events : List LedgerEvent)
    (ran : l.run events = some later) : l.Follows later := by
  induction events generalizing l with
  | nil =>
      cases ran
      exact .refl _
  | cons event rest induction =>
      obtain ⟨middle, stepped, ranRest⟩ := Option.bind_eq_some.mp ran
      exact (SwapLedger.follows_step stepped).trans (induction ranRest)

/-- What a later state admits, an earlier one admits too, in the same size or
any smaller positive one. -/
theorem SwapLedger.Follows.take_check {l later : SwapLedger} (follows : l.Follows later)
    {n m : Int} (positive : 0 < n) (smaller : n ≤ m)
    (accepted : (TakeSwapParam.mk (some m)).check later.swap later.timestamp = .ok ()) :
    (TakeSwapParam.mk (some n)).check l.swap l.timestamp = .ok () := by
  rw [follows.others] at accepted
  obtain ⟨m', remaining, minFrom, minTo, sizeSet, remainingSet, minFromSet, minToSet, -, withinSize,
    minFromPositive, minToPositive, fromOpen, toOpen⟩ := (TakeSwapParam.check_eq_ok _ _ _).mp accepted
  cases sizeSet
  obtain ⟨before, beforeSet, shrunk⟩ := follows.shrinks remaining remainingSet
  exact (TakeSwapParam.check_eq_ok _ _ _).mpr ⟨n, before, minFrom, minTo, rfl, beforeSet, minFromSet,
    minToSet, positive, by omega, minFromPositive, minToPositive,
    Nat.lt_of_le_of_lt follows.timestamp fromOpen, Nat.lt_of_le_of_lt follows.timestamp toOpen⟩

/-- From any state, along any run: the block time never moves back, a remaining
size that is set was set at the start and was no smaller there, and a take the
ledger refuses stays refused. Once a positive size is refused, whether the swap
has expired, too little of it remains or its minimum amounts are not positive,
every later state refuses that size and every larger one. -/
theorem swapLedger_refusal_persists {l later : SwapLedger} (events : List LedgerEvent)
    (ran : l.run events = some later) :
    l.timestamp ≤ later.timestamp ∧
      (∀ r, later.swap.swapSize = some r → ∃ before, l.swap.swapSize = some before ∧ r ≤ before) ∧
      ∀ n m : Int, 0 < n → n ≤ m →
        (TakeSwapParam.mk (some n)).check l.swap l.timestamp ≠ .ok () →
        (TakeSwapParam.mk (some m)).check later.swap later.timestamp ≠ .ok () := by
  have follows := SwapLedger.follows_run events ran
  exact ⟨follows.timestamp, follows.shrinks, fun n m positive larger refused accepted =>
    refused (follows.take_check positive larger accepted)⟩

theorem swapLedger_refusal_persists_expired :
    let s : Swap := ⟨FixedBytes.zero _, FixedBytes.zero _, FixedBytes.zero _, 0, 100, some 1,
      FixedBytes.zero _, 0, 100, some 1, some 10, [], some 0, []⟩
    let later : SwapLedger := ⟨{ s with swapSize := some 7 }, 100, [3]⟩
    (SwapLedger.init s 0).run [.take 3, .advance 100] = some later ∧
      (0 : UInt64) ≤ later.timestamp ∧
      (∀ r, later.swap.swapSize = some r → ∃ before, s.swapSize = some before ∧ r ≤ before) ∧
      ∀ n m : Int, 0 < n → n ≤ m →
        (TakeSwapParam.mk (some n)).check s 0 ≠ .ok () →
        (TakeSwapParam.mk (some m)).check later.swap later.timestamp ≠ .ok () :=
  ⟨rfl, @swapLedger_refusal_persists (SwapLedger.init _ 0) _ [.take 3, .advance 100] rfl⟩

end Efsn
