import Efsn.Ticket

/-!
# Assets, swaps and their copies

`Asset` and `Swap` are plain records whose integer fields are `*big.Int`
pointers, so the model keeps each as an `Option Int` that is `none` when nil.
`DeepCopy` dereferences the integer fields it copies, which panics on nil;
the model returns `none` there.

A value model cannot see the sharing `DeepCopy` exists to avoid; what it can
see is which fields a copy carries over.
-/

namespace Efsn

structure Asset where
  id : Hash
  owner : Address
  name : List UInt8
  symbol : List UInt8
  decimals : UInt8
  total : Option Int
  canChange : Bool
  description : List UInt8
deriving DecidableEq

/-- `Asset.DeepCopy`: a fresh `Total`; the literal it builds names every
field but `Description`, which is left at its zero value. -/
def Asset.deepCopy (u : Asset) : Option Asset :=
  u.total.map fun total =>
    { id := u.id, owner := u.owner, name := u.name, symbol := u.symbol, decimals := u.decimals,
      total := some total, canChange := u.canChange, description := [] }

/-- `Swap`; `Targes` is the source's spelling. -/
structure Swap where
  id : Hash
  owner : Address
  fromAssetID : Hash
  fromStartTime : UInt64
  fromEndTime : UInt64
  minFromAmount : Option Int
  toAssetID : Hash
  toStartTime : UInt64
  toEndTime : UInt64
  minToAmount : Option Int
  swapSize : Option Int
  targes : List Address
  time : Option Int
  description : List UInt8
deriving DecidableEq

/-- `Swap.DeepCopy`: fresh integers (a nil one panics) and `Targes` copied
element by element into a new slice of the same length, so it holds the
same addresses. -/
def Swap.deepCopy (s : Swap) : Option Swap := do
  let minFromAmount ← s.minFromAmount
  let minToAmount ← s.minToAmount
  let swapSize ← s.swapSize
  let swapTime ← s.time
  let targets := s.targes
  pure
    { id := s.id, owner := s.owner, fromAssetID := s.fromAssetID,
      fromStartTime := s.fromStartTime, fromEndTime := s.fromEndTime,
      minFromAmount := some minFromAmount, toAssetID := s.toAssetID,
      toStartTime := s.toStartTime, toEndTime := s.toEndTime, minToAmount := some minToAmount,
      swapSize := some swapSize, targes := targets, time := some swapTime,
      description := s.description }

theorem Asset.deepCopy_of_set {u : Asset} {total : Int} (totalSet : u.total = some total) :
    u.deepCopy = some { u with description := [] } := by
  cases u
  cases totalSet
  rfl

theorem Swap.deepCopy_of_set {s : Swap} {minFromAmount minToAmount swapSize time : Int}
    (minFromSet : s.minFromAmount = some minFromAmount) (minToSet : s.minToAmount = some minToAmount)
    (sizeSet : s.swapSize = some swapSize) (timeSet : s.time = some time) :
    s.deepCopy = some s := by
  cases s
  cases minFromSet
  cases minToSet
  cases sizeSet
  cases timeSet
  simp [Swap.deepCopy]

/-- An asset with a description: its copy has an empty one. -/
theorem asset_deepCopy_drops_description :
    let original : Asset := ⟨FixedBytes.zero _, FixedBytes.zero _, [0x46, 0x53, 0x4e],
      [0x46, 0x53, 0x4e], 18, some 1, false, [0x78]⟩
    original.deepCopy = some { original with description := [] } ∧ original.deepCopy ≠ some original := by
  decide

end Efsn
