import Mathlib.Data.List.FinRange
import Efsn.Ticket

/-!
# Ticket slices over whole runs

`sort.Sort` reorders a `TicketSlice` only through `Swap(i, j)`, and callers
keep a slice as a store through `Add` and `Delete`.  This module follows both
over every run.

Whatever swaps a sort makes, the slice stays a permutation of itself with the
same `Get` and `ToMap`, and once it is sorted by `Less` it is the one
ascending order of the IDs.  A run of `Add` and `Delete` in which every added
ID is new refines a finite map from ID to ticket: after the run, `ToMap` and
`Get` of the slice are that map after the same calls.  `Add` itself does not
check that the ID is new, and when it is not, `Get` and `ToMap` part ways unless
the very same ticket is added again.
-/

namespace Efsn

/-! ### Swaps -/

theorem TicketSlice.swap_eq_ofFn (s : TicketSlice) (i j : Fin s.length) :
    s.swap i j = List.ofFn (List.get s ∘ Equiv.swap i j) := by
  apply List.ext_getElem
  · simp [TicketSlice.swap]
  · intro k _ inOfFn
    rw [List.getElem_ofFn]
    obtain ⟨position, rfl⟩ : ∃ position : Fin s.length, position.val = k :=
      ⟨⟨k, by simpa using inOfFn⟩, rfl⟩
    simp only [TicketSlice.swap, List.getElem_set, Fin.val_inj, Function.comp_apply, Fin.eta]
    by_cases atJ : j = position
    · subst atJ
      simp [Equiv.swap_apply_right]
    · by_cases atI : i = position
      · subst atI
        simp [atJ, Equiv.swap_apply_left]
      · simp [atJ, atI, Equiv.swap_apply_of_ne_of_ne (Ne.symm atI) (Ne.symm atJ)]

theorem TicketSlice.swap_perm (s : TicketSlice) (i j : Fin s.length) : (s.swap i j).Perm s := by
  rw [TicketSlice.swap_eq_ofFn]
  exact (Equiv.Perm.ofFn_comp_perm _ _).trans (.of_eq (List.ofFn_get s))

/-- What a sort does to a slice: `Swap(i, j)` calls one after another, with
indices it picks below `Len()`.  An index out of range panics (`none`). -/
def TicketSlice.swaps : TicketSlice → List (Nat × Nat) → Option TicketSlice
  | s, [] => some s
  | s, (i, j) :: rest =>
      if inRange : i < s.length ∧ j < s.length then
        (s.swap ⟨i, inRange.1⟩ ⟨j, inRange.2⟩).swaps rest
      else none

theorem TicketSlice.swaps_perm {s t : TicketSlice} {moves : List (Nat × Nat)}
    (ran : s.swaps moves = some t) : t.Perm s := by
  induction moves generalizing s with
  | nil =>
      cases ran
      rfl
  | cons move rest induction =>
      obtain ⟨i, j⟩ := move
      unfold TicketSlice.swaps at ran
      split at ran
      · exact (induction ran).trans (TicketSlice.swap_perm _ _ _)
      · cases ran

/-! ### Lookups that do not see the order -/

theorem TicketSlice.get_eq_some_iff {s : TicketSlice} (distinct : (s.map Ticket.id).Nodup)
    {tid : Hash} {t : Ticket} : s.get tid = some t ↔ t ∈ s ∧ t.id = tid := by
  constructor
  · intro found
    exact ⟨List.mem_of_find?_eq_some found, by simpa using List.find?_some found⟩
  · rintro ⟨member, rfl⟩
    obtain ⟨u, found⟩ : ∃ u, s.get t.id = some u :=
      Option.ne_none_iff_exists'.mp fun none =>
        (TicketSlice.get_eq_none_iff s t.id).mp none (List.mem_map_of_mem _ member)
    have sameId : u.id = t.id := by simpa using List.find?_some found
    rw [found, List.inj_on_of_nodup_map distinct (List.mem_of_find?_eq_some found) member sameId]

theorem TicketSlice.get_perm {s t : TicketSlice} (distinct : (s.map Ticket.id).Nodup)
    (permuted : t.Perm s) : t.get = s.get := by
  have distinct' : (t.map Ticket.id).Nodup := (permuted.map Ticket.id).nodup_iff.mpr distinct
  funext tid
  apply Option.ext
  intro u
  rw [Option.mem_def, Option.mem_def, TicketSlice.get_eq_some_iff distinct',
    TicketSlice.get_eq_some_iff distinct, permuted.mem_iff]

theorem TicketSlice.eq_of_perm_of_isSorted {s t u : TicketSlice}
    (distinct : (s.map Ticket.id).Nodup) (permutedT : t.Perm s) (permutedU : u.Perm s)
    (sortedT : t.IsSorted) (sortedU : u.IsSorted) : t = u := by
  have strict : ∀ v : TicketSlice, v.Perm s → v.IsSorted →
      v.Pairwise fun a b => a.id.big < b.id.big := fun v permuted sorted =>
    (TicketSlice.isSorted_iff_pairwise ((permuted.map Ticket.id).nodup_iff.mpr distinct)).mp sorted
  haveI : IsAntisymm Ticket fun a b => a.id.big < b.id.big :=
    ⟨fun _ _ below above => absurd (below.trans above) (lt_irrefl _)⟩
  exact List.eq_of_perm_of_sorted (permutedT.trans permutedU.symm)
    (strict t permutedT sortedT) (strict u permutedU sortedU)

/-- Whatever `Swap` calls a sort makes on a slice with distinct IDs, the slice
keeps its tickets, distinct IDs, `Get` and `ToMap`; and a run that leaves it
sorted by `Less` leaves the one sorted permutation of the slice. -/
theorem ticketSlice_sort_by_swaps {s t : TicketSlice} {moves : List (Nat × Nat)}
    (distinct : (s.map Ticket.id).Nodup) (ran : s.swaps moves = some t) :
    t.Perm s ∧ (t.map Ticket.id).Nodup ∧ t.get = s.get ∧ t.toMap = s.toMap ∧
      (t.IsSorted → ∀ u : TicketSlice, u.Perm s → u.IsSorted → u = t) := by
  have permuted := TicketSlice.swaps_perm ran
  have distinct' : (t.map Ticket.id).Nodup := (permuted.map Ticket.id).nodup_iff.mpr distinct
  have sameGet := TicketSlice.get_perm distinct permuted
  refine ⟨permuted, distinct', sameGet, ?_, fun sorted u permutedU sortedU =>
    TicketSlice.eq_of_perm_of_isSorted distinct permutedU permuted sortedU sorted⟩
  funext tid
  rw [TicketSlice.toMap_apply distinct', TicketSlice.toMap_apply distinct, sameGet]

/-- Two tickets out of order, put in order by one swap. -/
theorem ticketSlice_sort_by_swaps_pair :
    let low : Ticket := ⟨bytesToHash [1], FixedBytes.zero _, none, 0, 0, none, none⟩
    let high : Ticket := ⟨bytesToHash [2], FixedBytes.zero _, none, 0, 0, none, none⟩
    let s : TicketSlice := [high, low]
    let t : TicketSlice := [low, high]
    (s.map Ticket.id).Nodup ∧ s.swaps [(0, 1)] = some t ∧
      t.Perm s ∧ (t.map Ticket.id).Nodup ∧ t.get = s.get ∧ t.toMap = s.toMap ∧
        (t.IsSorted → ∀ u : TicketSlice, u.Perm s → u.IsSorted → u = t) := by
  intro low high s t
  have distinct : (s.map Ticket.id).Nodup := by decide
  have ran : s.swaps [(0, 1)] = some t := rfl
  exact ⟨distinct, ran, ticketSlice_sort_by_swaps distinct ran⟩

/-! ### The slice as a store -/

/-- A call a caller makes on a slice it keeps as a store. -/
inductive TicketOp where
  | add (ticket : Ticket)
  | delete (tid : Hash)
deriving DecidableEq

def TicketSlice.perform (s : TicketSlice) : TicketOp → TicketSlice
  | .add ticket => s.add ticket
  | .delete tid => s.delete tid

def TicketSlice.performAll (s : TicketSlice) (ops : List TicketOp) : TicketSlice :=
  ops.foldl TicketSlice.perform s

/-- The same call on the finite map from ID to ticket that a store stands for. -/
def TicketOp.onMap (m : Hash → Option Ticket) : TicketOp → Hash → Option Ticket
  | .add ticket => Function.update m ticket.id (some ticket)
  | .delete tid => Function.update m tid none

def TicketOp.runMap (m : Hash → Option Ticket) (ops : List TicketOp) : Hash → Option Ticket :=
  ops.foldl TicketOp.onMap m

/-- A call that keeps the IDs unique: an added ticket's ID is not yet held.
`Add` does not check this; its callers must. -/
def TicketOp.Fresh (m : Hash → Option Ticket) : TicketOp → Prop
  | .add ticket => m ticket.id = none
  | .delete _ => True

def TicketOp.FreshRun : (Hash → Option Ticket) → List TicketOp → Prop
  | _, [] => True
  | m, op :: ops => op.Fresh m ∧ TicketOp.FreshRun (op.onMap m) ops

theorem TicketSlice.toMap_delete {s : TicketSlice} (distinct : (s.map Ticket.id).Nodup)
    (tid : Hash) : (s.delete tid).toMap = Function.update s.toMap tid none := by
  funext key
  rw [TicketSlice.toMap_apply (TicketSlice.delete_nodup distinct tid),
    TicketSlice.get_delete distinct, Function.update_apply, TicketSlice.toMap_apply distinct]

theorem TicketSlice.perform_step {s : TicketSlice} (distinct : (s.map Ticket.id).Nodup)
    {op : TicketOp} (fresh : op.Fresh s.toMap) :
    ((s.perform op).map Ticket.id).Nodup ∧ (s.perform op).toMap = op.onMap s.toMap := by
  cases op with
  | add ticket =>
      have absent : ticket.id ∉ s.map Ticket.id := by
        rw [← TicketSlice.get_eq_none_iff, ← TicketSlice.toMap_apply distinct]
        exact fresh
      refine ⟨?_, TicketSlice.toMap_add s ticket⟩
      rw [TicketSlice.perform, TicketSlice.add, List.map_append, List.map_singleton,
        ← List.concat_eq_append]
      exact distinct.concat absent
  | delete tid => exact ⟨TicketSlice.delete_nodup distinct tid, TicketSlice.toMap_delete distinct tid⟩

theorem TicketSlice.performAll_refines {s : TicketSlice} {ops : List TicketOp}
    (distinct : (s.map Ticket.id).Nodup) (fresh : TicketOp.FreshRun s.toMap ops) :
    ((s.performAll ops).map Ticket.id).Nodup ∧
      (s.performAll ops).toMap = TicketOp.runMap s.toMap ops := by
  induction ops generalizing s with
  | nil => exact ⟨distinct, rfl⟩
  | cons op ops induction =>
      obtain ⟨freshNow, freshLater⟩ := fresh
      obtain ⟨distinct', mapped⟩ := TicketSlice.perform_step distinct freshNow
      rw [← mapped] at freshLater
      have later := induction distinct' freshLater
      rw [mapped] at later
      exact later

/-- A slice with distinct IDs, under any run of `Add` and `Delete` in which
every added ID is new, keeps distinct IDs, and its `ToMap` and `Get` are the
finite map after the same calls. -/
theorem ticketStore_refines_map {s : TicketSlice} {ops : List TicketOp}
    (distinct : (s.map Ticket.id).Nodup) (fresh : TicketOp.FreshRun s.toMap ops) :
    ((s.performAll ops).map Ticket.id).Nodup ∧
      (s.performAll ops).toMap = TicketOp.runMap s.toMap ops ∧
      ∀ tid, (s.performAll ops).get tid = TicketOp.runMap s.toMap ops tid := by
  obtain ⟨distinct', mapped⟩ := TicketSlice.performAll_refines distinct fresh
  exact ⟨distinct', mapped, fun tid => by rw [← mapped, TicketSlice.toMap_apply distinct']⟩

/-- Two tickets added to an empty slice and the first deleted again. -/
theorem ticketStore_refines_map_two :
    let low : Ticket := ⟨bytesToHash [1], FixedBytes.zero _, none, 0, 0, none, none⟩
    let high : Ticket := ⟨bytesToHash [2], FixedBytes.zero _, none, 0, 0, none, none⟩
    let s : TicketSlice := []
    let ops := [TicketOp.add low, .add high, .delete low.id]
    (s.map Ticket.id).Nodup ∧ TicketOp.FreshRun s.toMap ops ∧
      ((s.performAll ops).map Ticket.id).Nodup ∧
      (s.performAll ops).toMap = TicketOp.runMap s.toMap ops ∧
      ∀ tid, (s.performAll ops).get tid = TicketOp.runMap s.toMap ops tid := by
  intro low high s ops
  have fresh : TicketOp.FreshRun s.toMap ops := ⟨rfl, rfl, trivial, trivial⟩
  exact ⟨List.nodup_nil, fresh, ticketStore_refines_map List.nodup_nil fresh⟩

end Efsn
