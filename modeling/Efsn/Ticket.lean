import Efsn.FixedBytes
import Efsn.Numeral

/-!
# Tickets and ticket slices

A `TicketSlice` is ordered by `Less`, which reads each ticket ID's hex text
back as a big integer, and is used as a small map from ID to ticket by
`Get`, `Add`, `Delete` and `ToMap`.

`Less` agrees with the byte order of the IDs, so on tickets with distinct IDs
it is a strict total order and every sorted permutation of a slice is the
same list.  Under the same uniqueness, the first-match lookup and splice of
`Get` and `Delete` agree with the last-write map built by `ToMap`.
-/

namespace Efsn

/-- `Ticket`; the `*big.Int` fields are `none` when nil. -/
structure Ticket where
  id : Hash
  owner : Address
  height : Option Int
  startTime : UInt64
  expireTime : UInt64
  value : Option Int
  weight : Option Int
deriving DecidableEq

/-- `Ticket.DeepCopy`: fresh `Height` and `Value` (a nil one panics); the copy
takes the ticket's own weight when it is set and a fresh zero when it is nil. -/
def Ticket.deepCopy (t : Ticket) : Option Ticket := do
  let height ← t.height
  let value ← t.value
  let wt : Option Int := match t.weight with
    | some w => some w
    | none => some 0
  pure
    { id := t.id, owner := t.owner, height := some height, startTime := t.startTime,
      expireTime := t.expireTime, value := some value, weight := wt }

theorem Ticket.deepCopy_of_set {t : Ticket} {height value : Int} (heightSet : t.height = some height)
    (valueSet : t.value = some value) :
    t.deepCopy = some { t with weight := some (t.weight.getD 0) } := by
  cases t
  cases heightSet
  cases valueSet
  rename_i weight
  cases weight <;> rfl

abbrev TicketSlice := List Ticket

/-- The comparison `TicketSlice.Less` makes between two tickets: both IDs'
hex texts are read back with `SetString(_, 0)` and compared with `Cmp`.  A
failed read leaves a nil integer, on which `Cmp` panics (`none`). -/
def ticketLess (a b : Ticket) : Option Bool :=
  match setString a.id.hex 0, setString b.id.hex 0 with
  | some x, some y => some (decide (x < y))
  | _, _ => none

def TicketSlice.less (s : TicketSlice) (i j : Fin s.length) : Option Bool :=
  ticketLess s[i] s[j]

/-- `sort.IsSorted` on a `TicketSlice`: no ticket is `Less` than the one
before it. -/
def TicketSlice.IsSorted (s : TicketSlice) : Prop :=
  List.Chain' (fun a b => ticketLess b a = some false) s

instance (s : TicketSlice) : Decidable s.IsSorted :=
  inferInstanceAs (Decidable (List.Chain' _ s))

/-- `TicketSlice.ToMap`: a map from ID to ticket; a later ticket overwrites
an earlier one with the same ID. -/
def TicketSlice.toMap (s : TicketSlice) : Hash → Option Ticket :=
  s.foldl (fun r t => Function.update r t.id (some t)) fun _ => none

/-- `TicketSlice.Get`: the first ticket with the ID, or not found. -/
def TicketSlice.get (s : TicketSlice) (tid : Hash) : Option Ticket :=
  s.find? fun t => t.id == tid

def TicketSlice.add (s : TicketSlice) (ticket : Ticket) : TicketSlice :=
  s ++ [ticket]

/-- `TicketSlice.Delete`: the first ticket with the ID is spliced out,
`append(s[:i], s[i+1:]...)`; without one the slice comes back unchanged. -/
def TicketSlice.delete (s : TicketSlice) (tid : Hash) : TicketSlice :=
  match s.findIdx? fun t => t.id == tid with
  | some i => s.take i ++ s.drop (i + 1)
  | none => s

/-- `TicketSlice.Swap(i, j)`: `s[i], s[j] = s[j], s[i]`. -/
def TicketSlice.swap (s : TicketSlice) (i j : Fin s.length) : TicketSlice :=
  (s.set i s[j]).set j s[i]

/-- `TicketStruct`: a ticket beside the hash it is keyed by. -/
structure TicketStruct where
  hash : Hash
  ticket : Ticket
deriving DecidableEq

abbrev TicketStructSlice := List TicketStruct

def Ticket.toTicketStruct (t : Ticket) : TicketStruct := ⟨t.id, t⟩

def TicketStructSlice.toTicketSlice (s : TicketStructSlice) : TicketSlice :=
  s.map TicketStruct.ticket

def TicketSlice.toTicketStructSlice (s : TicketSlice) : TicketStructSlice :=
  s.map Ticket.toTicketStruct

/-! ### The order -/

theorem Hash.big_eq (h : Hash) : h.big = (setBytesValue h.bytes : Int) := rfl

theorem setString_hash_hex (h : Hash) : setString h.hex 0 = some h.big :=
  setString_hexutilEncode fun empty => by
    have := h.length_eq
    simp [empty, HashLength] at this

theorem ticketLess_eq (a b : Ticket) : ticketLess a b = some (decide (a.id.big < b.id.big)) := by
  simp [ticketLess, setString_hash_hex]

theorem Hash.big_lt_iff_lex (h g : Hash) : h.big < g.big ↔ List.Lex (· < ·) h.bytes g.bytes := by
  rw [Hash.big_eq, Hash.big_eq, Int.ofNat_lt,
    setBytesValue_lt_iff_lex (h.length_eq.trans g.length_eq.symm)]

theorem Hash.big_injective {h g : Hash} (sameBig : h.big = g.big) : h = g :=
  FixedBytes.eq_of_big_eq sameBig

theorem TicketSlice.isSorted_iff (s : TicketSlice) :
    s.IsSorted ↔ List.Chain' (fun a b => a.id.big ≤ b.id.big) s := by
  simp [TicketSlice.IsSorted, ticketLess_eq]

theorem TicketSlice.isSorted_iff_pairwise {s : TicketSlice} (distinct : (s.map Ticket.id).Nodup) :
    s.IsSorted ↔ s.Pairwise fun a b => a.id.big < b.id.big := by
  haveI : IsTrans Ticket fun a b => a.id.big ≤ b.id.big := ⟨fun _ _ _ => le_trans⟩
  rw [TicketSlice.isSorted_iff, List.chain'_iff_pairwise]
  have different : s.Pairwise fun a b => a.id ≠ b.id := List.pairwise_map.mp distinct
  constructor
  · intro ordered
    exact (ordered.and different).imp fun ⟨below, apart⟩ =>
      lt_of_le_of_ne below fun same => apart (Hash.big_injective same)
  · exact fun ordered => ordered.imp le_of_lt

/-- `Less` orders tickets by the byte order of their IDs; on distinct IDs it
is a strict total order, and a slice has exactly one sorted permutation. -/
theorem ticketSlice_less_order :
    (∀ (s : TicketSlice) (i j : Fin s.length),
      s.less i j = some (decide (s[i].id.big < s[j].id.big))) ∧
    (∀ h g : Hash, h.big < g.big ↔ List.Lex (· < ·) h.bytes g.bytes) ∧
    (∀ a : Ticket, ticketLess a a = some false) ∧
    (∀ a b c : Ticket, ticketLess a b = some true → ticketLess b c = some true →
      ticketLess a c = some true) ∧
    (∀ a b : Ticket, a.id ≠ b.id → ticketLess a b = some true ∨ ticketLess b a = some true) ∧
    (∀ s t u : TicketSlice, (s.map Ticket.id).Nodup → t.Perm s → u.Perm s →
      t.IsSorted → u.IsSorted → t = u) ∧
    (∀ s t : TicketSlice, (s.map Ticket.id).Nodup → t.Perm s → t.IsSorted →
      t.Pairwise fun a b => a.id.big < b.id.big) ∧
    (∀ s : TicketSlice, (s.map Ticket.id).Nodup → ∃ t : TicketSlice, t.Perm s ∧ t.IsSorted) := by
  have sortedStrict : ∀ s t : TicketSlice, (s.map Ticket.id).Nodup → t.Perm s → t.IsSorted →
      t.Pairwise fun a b => a.id.big < b.id.big := fun s t distinct permuted sorted =>
    (TicketSlice.isSorted_iff_pairwise ((permuted.map Ticket.id).nodup_iff.mpr distinct)).mp sorted
  refine ⟨fun s i j => ticketLess_eq _ _, Hash.big_lt_iff_lex, fun a => by simp [ticketLess_eq],
    fun a b c => by simpa [ticketLess_eq] using lt_trans, fun a b apart => ?_,
    fun s t u distinct permutedT permutedU sortedT sortedU => ?_, sortedStrict,
    fun s _ => ⟨s.mergeSort fun a b => decide (a.id.big ≤ b.id.big), List.mergeSort_perm _ _, ?_⟩⟩
  · simp only [ticketLess_eq, Option.some.injEq, decide_eq_true_eq]
    exact lt_or_gt_of_ne fun same => apart (Hash.big_injective same)
  · haveI : IsAntisymm Ticket fun a b => a.id.big < b.id.big :=
      ⟨fun _ _ below above => absurd (below.trans above) (lt_irrefl _)⟩
    exact List.eq_of_perm_of_sorted (permutedT.trans permutedU.symm)
      (sortedStrict s t distinct permutedT sortedT) (sortedStrict s u distinct permutedU sortedU)
  · rw [TicketSlice.isSorted_iff]
    have ordered : (s.mergeSort fun a b => decide (a.id.big ≤ b.id.big)).Pairwise
        fun a b => decide (a.id.big ≤ b.id.big) = true :=
      List.sorted_mergeSort (fun _ _ _ => by simpa using le_trans)
        (fun a b => by simpa using le_total _ _) s
    exact (ordered.imp fun below => by simpa using below).chain'

/-! ### The map operations -/

theorem TicketSlice.delete_eq_eraseP (s : TicketSlice) (tid : Hash) :
    s.delete tid = s.eraseP fun t => t.id == tid := by
  induction s with
  | nil => rfl
  | cons t rest induction =>
      by_cases found : (t.id == tid) = true
      · simp [TicketSlice.delete, found]
      · unfold TicketSlice.delete at induction ⊢
        have kept : (t :: rest).eraseP (fun u => u.id == tid) =
            t :: rest.eraseP (fun u => u.id == tid) := List.eraseP_cons_of_neg found
        rw [List.findIdx?_cons, if_neg found, List.findIdx?_succ, kept, ← induction]
        cases rest.findIdx? fun t => t.id == tid <;> rfl

/-- Last-write `ToMap` and first-match `Get` agree when the IDs are distinct. -/
theorem TicketSlice.toMap_apply {s : TicketSlice} (distinct : (s.map Ticket.id).Nodup)
    (key : Hash) : s.toMap key = s.get key := by
  suffices general : ∀ start : Hash → Option Ticket,
      s.foldl (fun (r : Hash → Option Ticket) (t : Ticket) => Function.update r t.id (some t))
        start key = (TicketSlice.get s key).or (start key) by
    simpa using general fun _ => none
  induction s with
  | nil => exact fun _ => rfl
  | cons t rest induction =>
      intro start
      rw [List.map_cons, List.nodup_cons] at distinct
      rw [List.foldl_cons, induction distinct.2]
      by_cases found : t.id = key
      · have absent : TicketSlice.get rest key = none := by
          simpa [TicketSlice.get, ← found] using distinct.1
        have first : TicketSlice.get (t :: rest) key = some t := by simp [TicketSlice.get, found]
        rw [absent, first, found, Function.update_same]
        rfl
      · simp [TicketSlice.get, Function.update_noteq (Ne.symm found), found]

theorem TicketSlice.get_eq_none_iff (s : TicketSlice) (tid : Hash) :
    s.get tid = none ↔ tid ∉ s.map Ticket.id := by
  simp [TicketSlice.get]

theorem TicketSlice.delete_splice {s : TicketSlice} {tid : Hash} (present : tid ∈ s.map Ticket.id) :
    ∃ front t back, s = front ++ t :: back ∧ t.id = tid ∧ s.delete tid = front ++ back := by
  obtain ⟨t, member, same⟩ := List.mem_map.mp present
  obtain ⟨found, front, back, -, matched, split, erased⟩ :=
    @List.exists_of_eraseP _ (fun u => u.id == tid) s t member (by simp [same])
  exact ⟨front, found, back, split, by simpa using matched, (s.delete_eq_eraseP tid).trans erased⟩

theorem TicketSlice.delete_of_absent {s : TicketSlice} {tid : Hash} (absent : tid ∉ s.map Ticket.id) :
    s.delete tid = s := by
  rw [TicketSlice.delete_eq_eraseP, List.eraseP_of_forall_not]
  simpa using absent

theorem TicketSlice.delete_nodup {s : TicketSlice} (distinct : (s.map Ticket.id).Nodup)
    (tid : Hash) : ((s.delete tid).map Ticket.id).Nodup := by
  rw [TicketSlice.delete_eq_eraseP]
  exact distinct.sublist ((List.eraseP_sublist s).map _)

theorem TicketSlice.get_delete {s : TicketSlice} (distinct : (s.map Ticket.id).Nodup)
    (tid key : Hash) : (s.delete tid).get key = if key = tid then none else s.get key := by
  by_cases present : tid ∈ s.map Ticket.id
  · obtain ⟨front, t, back, rfl, rfl, erased⟩ := TicketSlice.delete_splice present
    rw [erased]
    split_ifs with same
    · subst same
      rw [TicketSlice.get_eq_none_iff]
      simp only [List.map_append, List.map_cons, List.nodup_append, List.nodup_cons,
        List.disjoint_cons_right] at distinct
      simp only [List.map_append, List.mem_append, not_or]
      exact ⟨distinct.2.2.1, distinct.2.1.1⟩
    · have other : (t.id == key) = false := by simpa using Ne.symm same
      simp [TicketSlice.get, List.find?_append, List.find?_cons, other]
  · rw [TicketSlice.delete_of_absent present]
    split_ifs with same
    · exact (TicketSlice.get_eq_none_iff _ _).mpr (same ▸ present)
    · rfl

theorem TicketSlice.toMap_add (s : TicketSlice) (t : Ticket) :
    (s.add t).toMap = Function.update s.toMap t.id (some t) := by
  simp [TicketSlice.add, TicketSlice.toMap, List.foldl_append]

/-- The list operations of a slice implement a finite map from ID to ticket. -/
structure TicketSlice.ImplementsMap (s : TicketSlice) : Prop where
  get_eq_toMap : ∀ tid, s.get tid = s.toMap tid
  get_eq_none_iff : ∀ tid, s.get tid = none ↔ tid ∉ s.map Ticket.id
  delete_splice : ∀ tid ∈ s.map Ticket.id,
    ∃ front t back, s = front ++ t :: back ∧ t.id = tid ∧ s.delete tid = front ++ back
  delete_absent : ∀ tid, tid ∉ s.map Ticket.id → s.delete tid = s
  delete_distinct : ∀ tid, ((s.delete tid).map Ticket.id).Nodup
  toMap_delete : ∀ tid, (s.delete tid).toMap = Function.update s.toMap tid none
  add_distinct : ∀ t : Ticket, t.id ∉ s.map Ticket.id → ((s.add t).map Ticket.id).Nodup
  toMap_add : ∀ t : Ticket, t.id ∉ s.map Ticket.id →
    (s.add t).toMap = Function.update s.toMap t.id (some t)

/-- On a slice with distinct IDs, `Get`, `Delete`, `Add` and `ToMap` agree
with the finite map the slice stands for. -/
theorem ticketSlice_implements_map (s : TicketSlice) (distinct : (s.map Ticket.id).Nodup) :
    s.ImplementsMap where
  get_eq_toMap tid := (TicketSlice.toMap_apply distinct tid).symm
  get_eq_none_iff := TicketSlice.get_eq_none_iff s
  delete_splice _ present := TicketSlice.delete_splice present
  delete_absent _ absent := TicketSlice.delete_of_absent absent
  delete_distinct := TicketSlice.delete_nodup distinct
  toMap_delete tid := by
    funext key
    rw [TicketSlice.toMap_apply (TicketSlice.delete_nodup distinct tid),
      TicketSlice.get_delete distinct, Function.update_apply, TicketSlice.toMap_apply distinct]
  add_distinct t fresh := by
    rw [TicketSlice.add, List.map_append, List.map_singleton, ← List.concat_eq_append]
    exact distinct.concat fresh
  toMap_add t _ := TicketSlice.toMap_add s t

/-- Two tickets; deleting the first leaves the second, and the map without
the first ID. -/
theorem ticketSlice_implements_map_pair :
    let low : Ticket := ⟨bytesToHash [1], FixedBytes.zero _, none, 0, 0, none, none⟩
    let high : Ticket := ⟨bytesToHash [2], FixedBytes.zero _, none, 0, 0, none, none⟩
    let s : TicketSlice := [low, high]
    (s.map Ticket.id).Nodup ∧ s.ImplementsMap ∧ s.delete low.id = [high] ∧
      (s.delete low.id).toMap = Function.update s.toMap low.id none := by
  intro low high s
  have distinct : (s.map Ticket.id).Nodup := by decide
  have implements := ticketSlice_implements_map s distinct
  exact ⟨distinct, implements, rfl, implements.toMap_delete low.id⟩

end Efsn
