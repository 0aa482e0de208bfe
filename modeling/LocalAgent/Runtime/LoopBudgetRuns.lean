import LocalAgent.Lib.Avoids
import LocalAgent.Runtime.LoopBudget
import Mathlib.Algebra.Order.BigOperators.Group.List
import Mathlib.Algebra.Order.Pi

/-!
# LocalAgent.Runtime.LoopBudgetRuns — the budget of a loop run over its whole life

Reservations, settlements, delegations and recoveries in any order, each one transaction.

* `BudgetMoves`: everything an operation can do to the budget columns of the root.
* `Balanced`: the columns against the operations and envelopes, and every envelope against its grant.
* `reserveBudgetOperation_avoids`, …: on a balanced root no operation raises
  `LOOP_BUDGET_INCONSISTENT`, and it only moves along `BudgetMoves`.
* `Within`: the limits; kept as long as nothing is settled above its reservation, in v1 always.
* `loop_budget_sound`: all of it, along every run.
-/

namespace LocalAgent.Runtime

variable {kind : BudgetOperationKind} {source : String}

namespace RootBudget

/-! ## Sums -/

def reservedOf (operation : BudgetOperation) : Amounts :=
  if operation.state = .reserved then operation.reserved else 0

/-- What an envelope holds. -/
def unspentOf (allocation : DelegationAllocation) : Amounts :=
  if allocation.state = .reserved then allocation.unspent else 0

def inFlightOf (delegationId : String) (operation : BudgetOperation) : Amounts :=
  if operation.delegationId = some delegationId then reservedOf operation else 0

/-- The reserved amounts of all `RESERVED` operations. -/
def operationsReserved (root : RootBudget) : Amounts :=
  root.operations.sumBy fun _ operation => reservedOf operation

/-- The unspent amounts of all `RESERVED` allocations. -/
def allocationsUnspent (root : RootBudget) : Amounts :=
  root.allocations.sumBy fun _ allocation => unspentOf allocation

/-- The reserved amounts of the `RESERVED` operations of a delegation. -/
def inFlight (root : RootBudget) (delegationId : String) : Amounts :=
  root.operations.sumBy fun _ operation => inFlightOf delegationId operation

theorem sumBy_nonneg {κ ν : Type} [DecidableEq κ] {d : Dict κ ν} {f : κ → ν → Amounts}
    (h : ∀ k v, d.get? k = some v → 0 ≤ f k v) : 0 ≤ d.sumBy f := by
  refine List.sum_nonneg fun x hx => ?_
  obtain ⟨e, he, rfl⟩ := List.mem_map.mp hx
  exact h e.1 e.2 (Dict.get?_eq_some_iff.mpr he)

theorem le_sumBy {κ ν : Type} [DecidableEq κ] {d : Dict κ ν} {f : κ → ν → Amounts}
    (h : ∀ k v, d.get? k = some v → 0 ≤ f k v) {k : κ} {v : ν} (hk : d.get? k = some v) :
    f k v ≤ d.sumBy f := by
  have hrest : 0 ≤ (d.erase k).sumBy f := by
    refine sumBy_nonneg fun k' v' hk' => ?_
    rw [Dict.get?_erase] at hk'
    split_ifs at hk' with hsame
    exact h k' v' hk'
  rw [Dict.sumBy_erase, hk] at hrest
  exact sub_nonneg.mp hrest

/-! ## What an operation can do -/

/-- The asked dimensions are within their limits. -/
def FitsIn (root : RootBudget) (values consumed reserved : Amounts) : Prop :=
  ∀ d, values d ≠ 0 → ∀ limit ∈ root.budgetTotals d, consumed d + reserved d ≤ limit

/-- An envelope comes or goes. -/
inductive EnvelopeEvent where
  | granted (delegationId : String)
  | released (delegationId : String)

/-- Everything an operation can do to the budget columns. -/
inductive BudgetMoves (root : RootBudget) : Option EnvelopeEvent → RootBudget → Prop where
  | touch {lease : RunLease} : BudgetMoves root none (root.touch lease)
  | reserve {id : String} {values : Amounts} {kind : BudgetOperationKind} {generation : ℕ}
      (fresh : root.operations.get? id = none) (nonneg : 0 ≤ values)
      (fits : FitsIn root values root.budgetConsumed (root.budgetReserved + values)) :
      BudgetMoves root none { root with
        operations := root.operations.set id
          ⟨kind, .reserved, values, none, none, generation, none⟩
        budgetReserved := root.budgetReserved + values }
  | reserveDelegated {id delegationId : String} {values : Amounts} {kind : BudgetOperationKind}
      {generation : ℕ} {allocation : DelegationAllocation}
      (fresh : root.operations.get? id = none) (nonneg : 0 ≤ values)
      (found : root.allocations.get? delegationId = some allocation)
      (live : allocation.state = .reserved) (covered : values ≤ allocation.unspent) :
      BudgetMoves root none { root with
        operations := root.operations.set id
          ⟨kind, .reserved, values, none, none, generation, some delegationId⟩
        allocations := root.allocations.set delegationId
          { allocation with unspent := allocation.unspent - values } }
  | settle {id source : String} {values : Amounts} {stored : BudgetOperation}
      (found : root.operations.get? id = some stored) (open_ : stored.state = .reserved)
      (root_ : stored.delegationId = none) (nonneg : 0 ≤ values)
      (fits : root.executionPolicy ≠ .v2 → FitsIn root values (root.budgetConsumed + values)
        (root.budgetReserved - stored.reserved)) :
      BudgetMoves root none { root with
        operations := root.operations.set id
          { stored with state := .settled, actual := some values, source := some source }
        budgetReserved := root.budgetReserved - stored.reserved
        budgetConsumed := root.budgetConsumed + values }
  | settleDelegated {id source delegationId : String} {values : Amounts} {stored : BudgetOperation}
      {allocation : DelegationAllocation}
      (found : root.operations.get? id = some stored) (open_ : stored.state = .reserved)
      (delegated : stored.delegationId = some delegationId) (nonneg : 0 ≤ values)
      (envelope : root.allocations.get? delegationId = some allocation)
      (fits : root.executionPolicy ≠ .v2 → FitsIn root values (root.budgetConsumed + values)
        (root.budgetReserved - stored.reserved +
          (unspentAfter allocation stored.reserved values - allocation.unspent))) :
      BudgetMoves root none { root with
        operations := root.operations.set id
          { stored with state := .settled, actual := some values, source := some source }
        allocations := root.allocations.set delegationId { allocation with
          unspent := unspentAfter allocation stored.reserved values
          consumed := allocation.consumed + values
          overrun := allocation.overrun ||
            decide (∃ d, (allocation.unspent + stored.reserved) d < values d) }
        budgetReserved := root.budgetReserved - stored.reserved +
          (unspentAfter allocation stored.reserved values - allocation.unspent)
        budgetConsumed := root.budgetConsumed + values }
  | recover {id : String} {operation : BudgetOperation}
      (found : root.operations.get? id = some operation) (open_ : operation.state = .reserved)
      (root_ : operation.delegationId = none) :
      BudgetMoves root none { root with
        operations := root.operations.set id { operation with
          state := .settled
          actual := some operation.reserved
          source := some "RECOVERY_CONSERVATIVE" }
        budgetReserved := root.budgetReserved - operation.reserved
        budgetConsumed := root.budgetConsumed + operation.reserved }
  | recoverDelegated {id delegationId : String} {operation : BudgetOperation}
      {allocation : DelegationAllocation}
      (found : root.operations.get? id = some operation) (open_ : operation.state = .reserved)
      (delegated : operation.delegationId = some delegationId)
      (envelope : root.allocations.get? delegationId = some allocation) :
      BudgetMoves root none { root with
        operations := root.operations.set id { operation with
          state := .settled
          actual := some operation.reserved
          source := some "RECOVERY_CONSERVATIVE" }
        allocations := root.allocations.set delegationId
          { allocation with consumed := allocation.consumed + operation.reserved }
        budgetReserved := root.budgetReserved - operation.reserved
        budgetConsumed := root.budgetConsumed + operation.reserved }
  | grant {delegationId : String} {granted : Amounts} {generation : ℕ}
      (absent : root.allocations.get? delegationId = none) (nonneg : 0 ≤ granted)
      (fits : ∀ d, ∀ limit ∈ root.budgetTotals d,
        granted d ≤ max 0 (limit - root.budgetConsumed d - root.budgetReserved d)) :
      BudgetMoves root (some (.granted delegationId)) { root with
        allocations := root.allocations.set delegationId
          ⟨.reserved, granted, granted, 0, false, 0, generation⟩
        budgetReserved := root.budgetReserved + granted }
  | release {delegationId : String} {allocation : DelegationAllocation}
      (found : root.allocations.get? delegationId = some allocation)
      (live : allocation.state = .reserved)
      (idle : ∀ operation ∈ root.operations.values, operation.delegationId = some delegationId →
        operation.state ≠ .reserved) :
      BudgetMoves root (some (.released delegationId)) { root with
        allocations := root.allocations.set delegationId { allocation with
          state := .released
          released := allocation.unspent
          unspent := 0 }
        budgetReserved := root.budgetReserved - allocation.unspent }

/-! ## The balance -/

/-- The amounts of an allocation; a live one has released nothing, a released one keeps nothing. -/
structure AllocationSound (allocation : DelegationAllocation) : Prop where
  reserved : 0 ≤ allocation.reserved
  unspent : 0 ≤ allocation.unspent
  consumed : 0 ≤ allocation.consumed
  released : 0 ≤ allocation.released
  live : allocation.state = .reserved → allocation.released = 0
  done : allocation.state = .released → allocation.unspent = 0

structure Balanced (root : RootBudget) : Prop where
  reserved : root.budgetReserved = root.operationsReserved + root.allocationsUnspent
  consumed : 0 ≤ root.budgetConsumed
  operations : ∀ id operation, root.operations.get? id = some operation → 0 ≤ operation.reserved
  allocations : ∀ id allocation, root.allocations.get? id = some allocation →
    AllocationSound allocation
  /-- what is in flight under a delegation is in flight under a live envelope -/
  envelopes : ∀ id operation delegationId, root.operations.get? id = some operation →
    operation.state = .reserved → operation.delegationId = some delegationId →
    ∃ allocation, root.allocations.get? delegationId = some allocation ∧
      allocation.state = .reserved
  granted : ∀ delegationId allocation, root.allocations.get? delegationId = some allocation →
    allocation.overrun = false → allocation.reserved =
      allocation.unspent + root.inFlight delegationId + allocation.consumed + allocation.released

variable {generation : ℕ} {event : Option EnvelopeEvent} {left : Amounts}

namespace Balanced

variable {root root' : RootBudget}

variable {id delegationId : String}

theorem allocations_set (hs : Balanced root)
    {new : DelegationAllocation} (hnew : AllocationSound new) :
    ∀ id allocation, (root.allocations.set delegationId new).get? id = some allocation →
      AllocationSound allocation := by
  intro id allocation h
  rw [Dict.get?_set] at h
  split_ifs at h with hid
  · exact Option.some.inj h ▸ hnew
  · exact hs.allocations id allocation h

variable {new : BudgetOperation} {old allocation : DelegationAllocation} {values : Amounts}

theorem operations_set (hs : Balanced root) {operationId : String} (hnew : 0 ≤ new.reserved) :
    ∀ id operation, (root.operations.set operationId new).get? id = some operation →
      0 ≤ operation.reserved := by
  intro id operation h
  rw [Dict.get?_set] at h
  split_ifs at h with hid
  · exact Option.some.inj h ▸ hnew
  · exact hs.operations id operation h

/-- The budget rows after an envelope is settled. -/
theorem envelopes_settled (hs : Balanced root) {operationId : String}
    (hnew : new.state = .settled) {allocations : Dict String DelegationAllocation}
    (hstates : ∀ id allocation, root.allocations.get? id = some allocation →
      ∃ allocation', allocations.get? id = some allocation' ∧
        allocation'.state = allocation.state) : ∀ id operation delegationId,
      (root.operations.set operationId new).get? id = some operation →
      operation.state = .reserved → operation.delegationId = some delegationId →
      ∃ allocation, allocations.get? delegationId = some allocation ∧
        allocation.state = .reserved := by
  intro id operation delegationId h hreserved hdelegated
  rcases Dict.get?_set_cases h with ⟨-, rfl⟩ | ⟨-, h⟩
  · cases hnew.symm.trans hreserved
  · obtain ⟨allocation, hfound, hlive⟩ := hs.envelopes id operation delegationId h hreserved hdelegated
    obtain ⟨allocation', hfound', hstate⟩ := hstates delegationId allocation hfound
    exact ⟨allocation', hfound', hstate.trans hlive⟩

/-- Replacing an allocation by one in the same state changes no allocation's state. -/
theorem states_set (new : DelegationAllocation)
    (hold : root.allocations.get? delegationId = some old) (hstate : new.state = old.state) :
    ∀ id allocation, root.allocations.get? id = some allocation →
      ∃ allocation', (root.allocations.set delegationId new).get? id = some allocation' ∧
        allocation'.state = allocation.state := by
  intro id allocation h
  by_cases hid : id = delegationId
  · subst hid
    cases hold.symm.trans h
    exact ⟨new, by simp, hstate⟩
  · exact ⟨allocation, by simpa [hid] using h, rfl⟩

theorem sum_settled {stored : BudgetOperation}
    (hfound : root.operations.get? id = some stored) (hopen : stored.state = .reserved)
    (hnew : new.state = .settled) :
    (root.operations.set id new).sumBy (fun _ operation => reservedOf operation) =
      root.operationsReserved - stored.reserved := by
  rw [Dict.sumBy_set, hfound]
  simp [operationsReserved, reservedOf, hopen, hnew]

theorem inFlight_settled {stored : BudgetOperation}
    (hfound : root.operations.get? id = some stored) (hopen : stored.state = .reserved)
    (hnew : new.state = .settled) :
    (root.operations.set id new).sumBy (fun _ operation => inFlightOf delegationId operation) =
      root.inFlight delegationId -
        if stored.delegationId = some delegationId then stored.reserved else 0 := by
  rw [Dict.sumBy_set, hfound]
  simp [inFlight, inFlightOf, reservedOf, hopen, hnew]

theorem sum_reserved (hfresh : root.operations.get? id = none) (hnew : new.state = .reserved) :
    (root.operations.set id new).sumBy (fun _ operation => reservedOf operation) =
      root.operationsReserved + new.reserved := by
  rw [Dict.sumBy_set, hfresh]
  simp [operationsReserved, reservedOf, hnew]

theorem inFlight_reserved (hfresh : root.operations.get? id = none) (hnew : new.state = .reserved) :
    (root.operations.set id new).sumBy (fun _ operation => inFlightOf delegationId operation) =
      root.inFlight delegationId +
        if new.delegationId = some delegationId then new.reserved else 0 := by
  rw [Dict.sumBy_set, hfresh]
  simp [inFlight, inFlightOf, reservedOf, hnew]

theorem unspent_set {new : DelegationAllocation}
    (hold : root.allocations.get? delegationId = some old) :
    (root.allocations.set delegationId new).sumBy (fun _ allocation => unspentOf allocation) =
      root.allocationsUnspent - unspentOf old + unspentOf new := by
  rw [Dict.sumBy_set, hold]
  rfl

section

variable (hs : Balanced root)
include hs

/-- What is held in reserve is never negative. -/
theorem budgetReserved_nonneg : 0 ≤ root.budgetReserved := by
  rw [hs.reserved]
  refine add_nonneg (sumBy_nonneg fun id operation h => ?_) (sumBy_nonneg fun id allocation h => ?_)
  · unfold reservedOf
    split_ifs
    · exact hs.operations id operation h
    · exact le_rfl
  · unfold unspentOf
    split_ifs
    · exact (hs.allocations id allocation h).unspent
    · exact le_rfl

/-- A fresh reservation of the root keeps the sums balanced. -/
theorem reserve (new : BudgetOperation)
    (hfresh : root.operations.get? id = none) (hnew : new.state = .reserved)
    (hroot : new.delegationId = none) (hnonneg : 0 ≤ new.reserved) :
    Balanced { root with
      operations := root.operations.set id new
      budgetReserved := root.budgetReserved + new.reserved } where
  reserved := by
    simp only [operationsReserved, sum_reserved hfresh hnew, hs.reserved, allocationsUnspent]
    abel
  consumed := hs.consumed
  operations := hs.operations_set hnonneg
  allocations := hs.allocations
  envelopes := by
    intro id' operation delegationId h hreserved hdelegated
    rcases Dict.get?_set_cases h with ⟨-, rfl⟩ | ⟨-, h⟩
    · cases hroot.symm.trans hdelegated
    · exact hs.envelopes id' operation delegationId h hreserved hdelegated
  granted := by
    intro delegationId allocation h hoverrun
    simp only [inFlight, inFlight_reserved hfresh hnew, hroot, reduceCtorEq, if_false, add_zero]
    exact hs.granted delegationId allocation h hoverrun

/-- A fresh reservation of a delegation is taken out of its allocation, not of the root again. -/
theorem reserveDelegated (new : BudgetOperation) (hfresh : root.operations.get? id = none)
    (hnew : new.state = .reserved) (hdelegated : new.delegationId = some delegationId)
    (hnonneg : 0 ≤ new.reserved) (hfound : root.allocations.get? delegationId = some allocation)
    (hlive : allocation.state = .reserved) (hcovered : new.reserved ≤ allocation.unspent) :
    Balanced { root with
      operations := root.operations.set id new
      allocations := root.allocations.set delegationId
        { allocation with unspent := allocation.unspent - new.reserved } } where
  reserved := by
    simp only [operationsReserved, allocationsUnspent]
    rw [sum_reserved hfresh hnew, unspent_set hfound, hs.reserved]
    simp only [unspentOf, hlive, if_true]
    abel
  consumed := hs.consumed
  operations := hs.operations_set hnonneg
  allocations := by
    obtain ⟨hreserved, -, hconsumed, hreleased, hlive', -⟩ :=
      hs.allocations delegationId allocation hfound
    exact hs.allocations_set ⟨hreserved, sub_nonneg.mpr hcovered, hconsumed, hreleased, hlive',
      fun hdone => nomatch hlive.symm.trans hdone⟩
  envelopes := by
    have hstates := states_set { allocation with
      unspent := allocation.unspent - new.reserved } hfound rfl
    intro id' operation delegationId' h hreserved hdelegated'
    have hlive' : ∃ old, root.allocations.get? delegationId' = some old ∧ old.state = .reserved := by
      rcases Dict.get?_set_cases h with ⟨-, rfl⟩ | ⟨-, h⟩
      · cases hdelegated.symm.trans hdelegated'
        exact ⟨allocation, hfound, hlive⟩
      · exact hs.envelopes id' operation delegationId' h hreserved hdelegated'
    obtain ⟨old, hold, hstate⟩ := hlive'
    obtain ⟨kept, hkept, hsame⟩ := hstates delegationId' old hold
    exact ⟨kept, hkept, hsame.trans hstate⟩
  granted := by
    intro delegationId' kept h hoverrun
    simp only [inFlight, inFlight_reserved hfresh hnew, hdelegated, Option.some.injEq]
    rcases Dict.get?_set_cases h with ⟨hid, rfl⟩ | ⟨hid, h⟩
    · subst hid
      have hgranted := hs.granted delegationId' allocation hfound hoverrun
      simp only [if_true]
      rw [hgranted, inFlight]
      abel
    · have hne : delegationId ≠ delegationId' := fun heq => hid heq.symm
      simp only [hne, if_false, add_zero]
      exact hs.granted delegationId' kept h hoverrun

/-- A settled operation of the root moves its amount from reserved to consumed. -/
theorem settle {stored : BudgetOperation}
    (hfound : root.operations.get? id = some stored) (hopen : stored.state = .reserved)
    (hroot : stored.delegationId = none) (hnonneg : 0 ≤ values) (hnew : new.state = .settled)
    (hreserved : new.reserved = stored.reserved) :
    Balanced { root with
      operations := root.operations.set id new
      budgetReserved := root.budgetReserved - stored.reserved
      budgetConsumed := root.budgetConsumed + values } where
  reserved := by
    simp only [operationsReserved, sum_settled hfound hopen hnew, hs.reserved, allocationsUnspent]
    abel
  consumed := add_nonneg hs.consumed hnonneg
  operations := hs.operations_set (hreserved ▸ hs.operations id stored hfound)
  allocations := hs.allocations
  envelopes := hs.envelopes_settled hnew fun _ allocation h => ⟨allocation, h, rfl⟩
  granted := by
    intro delegationId allocation h hoverrun
    simp only [inFlight, inFlight_settled hfound hopen hnew, hroot, reduceCtorEq, if_false, sub_zero]
    exact hs.granted delegationId allocation h hoverrun

/-- A delegated operation is settled: its envelope gets back what it held and pays `values`. -/
theorem settleDelegated {stored : BudgetOperation}
    (new : BudgetOperation) (envelope : DelegationAllocation)
    (hfound : root.operations.get? id = some stored) (hopen : stored.state = .reserved)
    (hdelegated : stored.delegationId = some delegationId) (hnonneg : 0 ≤ values)
    (hnew : new.state = .settled) (hreserved : new.reserved = stored.reserved)
    (hold : root.allocations.get? delegationId = some old) (hstate : envelope.state = old.state)
    (hsound : AllocationSound envelope) (hgranted : envelope.overrun = false → old.overrun = false ∧
      envelope.reserved = old.reserved ∧ envelope.released = old.released ∧
      envelope.unspent + envelope.consumed = old.unspent + old.consumed + stored.reserved) :
    Balanced { root with
      operations := root.operations.set id new
      allocations := root.allocations.set delegationId envelope
      budgetReserved := root.budgetReserved - stored.reserved + (envelope.unspent - old.unspent)
      budgetConsumed := root.budgetConsumed + values } where
  reserved := by
    obtain ⟨_, hlive, hlives⟩ := hs.envelopes id stored delegationId hfound hopen hdelegated
    cases hold.symm.trans hlive
    simp only [operationsReserved, allocationsUnspent]
    rw [sum_settled hfound hopen hnew, unspent_set hold, hs.reserved]
    simp only [unspentOf, hstate, hlives, if_true]
    abel
  consumed := add_nonneg hs.consumed hnonneg
  operations := hs.operations_set (hreserved ▸ hs.operations id stored hfound)
  allocations := hs.allocations_set hsound
  envelopes := hs.envelopes_settled hnew (states_set envelope hold hstate)
  granted := by
    intro delegationId' kept h hoverrun
    simp only [inFlight, inFlight_settled hfound hopen hnew, hdelegated, Option.some.injEq]
    rw [Dict.get?_set] at h
    split_ifs at h with hid
    · cases h
      subst hid
      obtain ⟨hoverrun', hsame, hreleased, hbalance⟩ := hgranted hoverrun
      have hbefore := hs.granted delegationId' old hold hoverrun'
      simp only [if_true]
      calc envelope.reserved
          = old.unspent + old.consumed + root.inFlight delegationId' + old.released := by
            rw [hsame, hbefore]
            abel
        _ = envelope.unspent + envelope.consumed - stored.reserved + root.inFlight delegationId' +
            old.released := by rw [hbalance, add_sub_cancel_right]
        _ = envelope.unspent + (root.inFlight delegationId' - stored.reserved) +
            envelope.consumed + envelope.released := by
            rw [hreleased]
            abel
    · have hne : delegationId ≠ delegationId' := fun heq => hid heq.symm
      simp only [hne, if_false, sub_zero]
      exact hs.granted delegationId' kept h hoverrun

/-- A grant reserves what it grants. -/
theorem grant {granted : Amounts}
    (habsent : root.allocations.get? delegationId = none) (hnonneg : 0 ≤ granted) :
    Balanced { root with
      allocations := root.allocations.set delegationId
        ⟨.reserved, granted, granted, 0, false, 0, generation⟩
      budgetReserved := root.budgetReserved + granted } where
  reserved := by
    show root.budgetReserved + granted = root.operationsReserved +
      (root.allocations.set delegationId _).sumBy fun _ allocation => unspentOf allocation
    rw [Dict.sumBy_set, habsent, hs.reserved]
    simp only [unspentOf, Option.elim_none, if_true, sub_zero, allocationsUnspent]
    abel
  consumed := hs.consumed
  operations := hs.operations
  allocations := hs.allocations_set ⟨hnonneg, hnonneg, le_rfl, le_rfl, fun _ => rfl, nofun⟩
  envelopes := by
    intro id operation delegationId' h hreserved hdelegated
    obtain ⟨live, hlive, hstate⟩ := hs.envelopes id operation delegationId' h hreserved hdelegated
    have hne : delegationId' ≠ delegationId := by
      rintro rfl
      rw [habsent] at hlive
      cases hlive
    exact ⟨live, by simpa [hne] using hlive, hstate⟩
  granted := by
    intro delegationId' kept h hoverrun
    rcases Dict.get?_set_cases h with ⟨hid, rfl⟩ | ⟨-, h⟩
    · -- nothing can be in flight under an envelope that was not there
      have hidle : root.inFlight delegationId' = 0 := by
        refine List.sum_eq_zero fun x hx => ?_
        obtain ⟨e, he, rfl⟩ := List.mem_map.mp hx
        simp only [inFlightOf, reservedOf]
        split_ifs with hdelegated hreserved
        · obtain ⟨_, hlive, -⟩ := hs.envelopes e.1 e.2 delegationId'
            (Dict.get?_eq_some_iff.mpr he) hreserved hdelegated
          rw [hid, habsent] at hlive
          cases hlive
        all_goals rfl
      have hsame : root.inFlight delegationId' = inFlight { root with
        allocations := root.allocations.set delegationId
          ⟨.reserved, granted, granted, 0, false, 0, generation⟩
        budgetReserved := root.budgetReserved + granted } delegationId' := rfl
      rw [← hsame, hidle]
      simp
    · exact hs.granted delegationId' kept h hoverrun

/-- A released envelope returns what it has not spent. -/
theorem release (hfound : root.allocations.get? delegationId = some allocation)
    (hlive : allocation.state = .reserved)
    (hidle : ∀ operation ∈ root.operations.values, operation.delegationId = some delegationId →
      operation.state ≠ .reserved) :
    Balanced { root with
      allocations := root.allocations.set delegationId { allocation with
        state := .released
        released := allocation.unspent
        unspent := 0 }
      budgetReserved := root.budgetReserved - allocation.unspent } where
  reserved := by
    show root.budgetReserved - allocation.unspent = root.operationsReserved +
      (root.allocations.set delegationId _).sumBy fun _ allocation => unspentOf allocation
    rw [unspent_set hfound, hs.reserved]
    simp only [unspentOf, hlive, if_true, reduceCtorEq, if_false]
    abel
  consumed := hs.consumed
  operations := hs.operations
  allocations := by
    have hsound := hs.allocations delegationId allocation hfound
    exact hs.allocations_set ⟨hsound.reserved, le_rfl, hsound.consumed, hsound.unspent,
      nofun, fun _ => rfl⟩
  envelopes := by
    intro id operation delegationId' h hreserved hdelegated
    obtain ⟨live, hlive', hstate⟩ := hs.envelopes id operation delegationId' h hreserved hdelegated
    have hne : delegationId' ≠ delegationId := by
      rintro rfl
      exact hidle operation (Dict.mem_values_iff.mpr ⟨id, h⟩) hdelegated hreserved
    exact ⟨live, by simpa [hne] using hlive', hstate⟩
  granted := by
    intro delegationId' kept h hoverrun
    rcases Dict.get?_set_cases h with ⟨hid, rfl⟩ | ⟨-, h⟩
    · subst hid
      have hbefore := hs.granted delegationId' allocation hfound hoverrun
      rw [(hs.allocations delegationId' allocation hfound).live hlive] at hbefore
      show allocation.reserved = 0 + root.inFlight delegationId' + allocation.consumed +
        allocation.unspent
      rw [hbefore]
      abel
    · exact hs.granted delegationId' kept h hoverrun

end

theorem unspentAfter_balance {stored : Amounts}
    (hcovered : ¬ ∃ d, (allocation.unspent + stored) d < values d) :
    unspentAfter allocation stored values + (allocation.consumed + values) =
      allocation.unspent + allocation.consumed + stored := by
  funext d
  have hd : values d ≤ allocation.unspent d + stored d := not_lt.mp fun h => hcovered ⟨d, h⟩
  simp only [unspentAfter, Pi.add_apply]
  omega

/-- Every move keeps the balance. -/
theorem moves (hs : Balanced root) (h : BudgetMoves root event root') : Balanced root' := by
  cases h with
  | touch => exact ⟨hs.reserved, hs.consumed, hs.operations, hs.allocations, hs.envelopes, hs.granted⟩
  | @reserve id values kind generation hfresh hnonneg hfits =>
    exact hs.reserve ⟨kind, .reserved, values, none, none, generation, none⟩ hfresh rfl rfl hnonneg
  | @reserveDelegated id delegationId values kind generation allocation hfresh hnonneg hfound hlive
      hcovered =>
    exact hs.reserveDelegated
      ⟨kind, .reserved, values, none, none, generation, some delegationId⟩ hfresh rfl rfl hnonneg
      hfound hlive hcovered
  | settle hfound hopen hroot hnonneg => exact hs.settle hfound hopen hroot hnonneg rfl rfl
  | @settleDelegated id source delegationId values stored old hfound hopen hdelegated hnonneg
      henvelope hfits =>
    have hsound := hs.allocations delegationId old henvelope
    have hlive : old.state = .reserved := by
      obtain ⟨_, hlive, hstate⟩ := hs.envelopes id stored delegationId hfound hopen hdelegated
      exact Option.mem_unique henvelope hlive ▸ hstate
    refine hs.settleDelegated
      { stored with state := .settled, actual := some values, source := some source }
      { old with
        unspent := unspentAfter old stored.reserved values
        consumed := old.consumed + values
        overrun := old.overrun ||
          decide (∃ d, (old.unspent + stored.reserved) d < values d) }
      hfound hopen hdelegated hnonneg rfl rfl henvelope rfl ?_ ?_
    · exact ⟨hsound.reserved, fun d => le_max_left _ _, add_nonneg hsound.consumed hnonneg,
        hsound.released, hsound.live, fun hdone => nomatch hlive.symm.trans hdone⟩
    · intro hoverrun
      obtain ⟨hbefore, hcovered⟩ := Bool.or_eq_false_iff.mp hoverrun
      exact ⟨hbefore, rfl, rfl, unspentAfter_balance (of_decide_eq_false hcovered)⟩
  | recover hfound hopen hroot =>
    exact hs.settle hfound hopen hroot (hs.operations _ _ hfound) rfl rfl
  | @recoverDelegated id delegationId operation old hfound hopen hdelegated henvelope =>
    have hsound := hs.allocations delegationId old henvelope
    have hnonneg := hs.operations id operation hfound
    have hsettled := hs.settleDelegated
      { operation with
        state := .settled
        actual := some operation.reserved
        source := some "RECOVERY_CONSERVATIVE" }
      { old with consumed := old.consumed + operation.reserved }
      hfound hopen hdelegated hnonneg rfl rfl henvelope rfl
      ⟨hsound.reserved, hsound.unspent, add_nonneg hsound.consumed hnonneg, hsound.released,
        hsound.live, hsound.done⟩
      fun hoverrun => ⟨hoverrun, rfl, rfl, (add_assoc _ _ _).symm⟩
    simpa using hsettled
  | grant habsent hnonneg => exact hs.grant habsent hnonneg
  | release hfound hlive hidle => exact hs.release hfound hlive hidle

end Balanced

/-! ## Limits -/

/-- Consumed and reserved amounts are within every limit. -/
def Within (root : RootBudget) : Prop :=
  ∀ d, ∀ limit ∈ root.budgetTotals d, root.budgetConsumed d + root.budgetReserved d ≤ limit

/-- No operation is settled above its reservation. -/
def NoOverrun (root : RootBudget) : Prop :=
  ∀ id operation, root.operations.get? id = some operation → operation.state = .settled →
    ∀ actual, operation.actual = some actual → actual ≤ operation.reserved

/-- What every later state keeps of an earlier one. -/
structure BudgetGrows (root root' : RootBudget) : Prop where
  policy : root'.executionPolicy = root.executionPolicy
  totals : root'.budgetTotals = root.budgetTotals
  operations : ∀ id operation, root.operations.get? id = some operation →
    ∃ operation', root'.operations.get? id = some operation' ∧
      operation'.kind = operation.kind ∧ operation'.reserved = operation.reserved ∧
      (operation.state = .settled → operation' = operation)
  /-- an envelope stays -/
  allocations : ∀ id allocation, root.allocations.get? id = some allocation →
    ∃ allocation', root'.allocations.get? id = some allocation'

variable {root root' root'' : RootBudget}

theorem BudgetGrows.refl (root : RootBudget) : BudgetGrows root root :=
  ⟨rfl, rfl, fun _ operation h => ⟨operation, h, rfl, rfl, fun _ => rfl⟩,
    fun _ allocation h => ⟨allocation, h⟩⟩

theorem BudgetGrows.trans (h : BudgetGrows root root') (h' : BudgetGrows root' root'') :
    BudgetGrows root root'' where
  policy := h'.policy.trans h.policy
  totals := h'.totals.trans h.totals
  operations := by
    intro id operation hfound
    obtain ⟨middle, hmiddle, hkind, hreserved, hsettled⟩ := h.operations id operation hfound
    obtain ⟨last, hlast, hkind', hreserved', hsettled'⟩ := h'.operations id middle hmiddle
    refine ⟨last, hlast, hkind'.trans hkind, hreserved'.trans hreserved, fun hstate => ?_⟩
    cases hsettled hstate
    exact hsettled' hstate
  allocations := by
    intro id allocation hfound
    obtain ⟨middle, hmiddle⟩ := h.allocations id allocation hfound
    exact h'.allocations id middle hmiddle

variable {id operationId delegationId : String}

theorem operations_kept {new : BudgetOperation} (h : ∀ old, root.operations.get? id = some old →
      old.state = .reserved ∧ new.kind = old.kind ∧ new.reserved = old.reserved) :
    ∀ id' operation, root.operations.get? id' = some operation →
      ∃ operation', (root.operations.set id new).get? id' = some operation' ∧
        operation'.kind = operation.kind ∧ operation'.reserved = operation.reserved ∧
        (operation.state = .settled → operation' = operation) := by
  intro id' operation hfound
  by_cases hid : id' = id
  · subst hid
    obtain ⟨hopen, hkind, hreserved⟩ := h operation hfound
    exact ⟨new, by simp, hkind, hreserved, fun hsettled => nomatch hopen.symm.trans hsettled⟩
  · exact ⟨operation, by simpa [hid] using hfound, rfl, rfl, fun _ => rfl⟩

theorem allocations_kept {new : DelegationAllocation} :
    ∀ id allocation, root.allocations.get? id = some allocation →
      ∃ allocation', (root.allocations.set delegationId new).get? id = some allocation' := by
  intro id allocation hfound
  by_cases hid : id = delegationId
  · exact ⟨new, by simp [hid]⟩
  · exact ⟨allocation, by simpa [hid] using hfound⟩

/-- Every move of the budget rows is a growth. -/
theorem BudgetMoves.grows (h : BudgetMoves root event root') : BudgetGrows root root' := by
  have hfreshKept : ∀ {id : String} {new : BudgetOperation}, root.operations.get? id = none →
      ∀ old, root.operations.get? id = some old →
        old.state = .reserved ∧ new.kind = old.kind ∧ new.reserved = old.reserved := by
    intro id new hfresh old hold
    rw [hfresh] at hold
    cases hold
  have hsame : ∀ {id : String} {stored new : BudgetOperation},
      root.operations.get? id = some stored → stored.state = .reserved →
      new.kind = stored.kind → new.reserved = stored.reserved →
      ∀ old, root.operations.get? id = some old →
        old.state = .reserved ∧ new.kind = old.kind ∧ new.reserved = old.reserved := by
    intro _ _ _ hfound hopen hkind hreserved _ hold
    cases hfound.symm.trans hold
    exact ⟨hopen, hkind, hreserved⟩
  have hrefl := BudgetGrows.refl root
  cases h with
  | touch => exact ⟨rfl, rfl, hrefl.operations, hrefl.allocations⟩
  | reserve hfresh => exact ⟨rfl, rfl, operations_kept (hfreshKept hfresh), hrefl.allocations⟩
  | reserveDelegated hfresh =>
    exact ⟨rfl, rfl, operations_kept (hfreshKept hfresh), allocations_kept⟩
  | settle hfound hopen | recover hfound hopen =>
    exact ⟨rfl, rfl, operations_kept (hsame hfound hopen rfl rfl), hrefl.allocations⟩
  | settleDelegated hfound hopen | recoverDelegated hfound hopen =>
    exact ⟨rfl, rfl, operations_kept (hsame hfound hopen rfl rfl), allocations_kept⟩
  | grant | release => exact ⟨rfl, rfl, hrefl.operations, allocations_kept⟩

theorem NoOverrun.of_grows (h : BudgetGrows root root') (hs : NoOverrun root') : NoOverrun root := by
  intro id operation hfound hsettled actual hactual
  obtain ⟨operation', hfound', -, -, hkept⟩ := h.operations id operation hfound
  obtain rfl := hkept hsettled
  exact hs id operation' hfound' hsettled actual hactual

theorem Within.of_le (hs : Within root) (htotals : root'.budgetTotals = root.budgetTotals)
    (hle : ∀ d, root'.budgetConsumed d + root'.budgetReserved d ≤
      root.budgetConsumed d + root.budgetReserved d) : Within root' :=
  fun d limit hlimit => (hle d).trans (hs d limit (htotals ▸ hlimit))

variable {operation : BudgetOperation} {limits : TargetLimits}

theorem Within.settled (hs : Within root) (id : String)
    (htotals : root'.budgetTotals = root.budgetTotals)
    (hpolicy : root.executionPolicy = .v1 ∨ NoOverrun root') {values stored : Amounts}
(hfound : root'.operations.get? id = some operation)
    (hsettled : operation.state = .settled) (hactual : operation.actual = some values)
    (hreserved : operation.reserved = stored)
    (hconsumed : root'.budgetConsumed = root.budgetConsumed + values)
    (hbelow : ∀ d, values d ≤ stored d → root'.budgetReserved d + values d ≤ root.budgetReserved d)
    (hzero : ∀ d, values d = 0 → root'.budgetReserved d ≤ root.budgetReserved d)
    (hfits : root.executionPolicy ≠ .v2 →
      FitsIn root values root'.budgetConsumed root'.budgetReserved) : Within root' := by
  rcases hpolicy with hv1 | hbounded
  · intro d limit hlimit
    rw [htotals] at hlimit
    by_cases hd : values d = 0
    · have hreserves := hzero d hd
      have hbefore := hs d limit hlimit
      rw [hconsumed, Pi.add_apply, hd]
      omega
    · exact hfits (by simp [hv1]) d hd limit hlimit
  · refine hs.of_le htotals fun d => ?_
    have hd := hbelow d (hreserved ▸ hbounded id operation hfound hsettled values hactual d)
    rw [hconsumed, Pi.add_apply]
    omega

section

variable (h : BudgetMoves root event root')
include h

/-- Limits are kept in v1 runs, and where nothing is settled above its reservation. -/
theorem BudgetMoves.within (hbalanced : Balanced root)
    (hpolicy : root.executionPolicy = .v1 ∨ NoOverrun root') (hs : Within root) : Within root' := by
  cases h with
  | touch | reserveDelegated => exact hs.of_le rfl fun d => le_rfl
  | @reserve id values kind generation hfresh hnonneg hfits =>
    intro d limit hlimit
    by_cases hd : values d = 0
    · have hbefore := hs d limit hlimit
      simpa [hd] using hbefore
    · exact hfits d hd limit hlimit
  | @settle id source values stored hfound hopen hroot hnonneg hfits =>
    have hstored := hbalanced.operations id stored hfound
    refine hs.settled id rfl hpolicy (by simp; rfl) rfl rfl rfl rfl ?_ ?_ hfits
    · intro d hd
      have hbelow : values d ≤ stored.reserved d := hd
      simp only [Pi.sub_apply]
      omega
    · intro d _
      have hd : 0 ≤ stored.reserved d := hstored d
      simp only [Pi.sub_apply]
      omega
  | @settleDelegated id source delegationId values stored old hfound hopen hdelegated hnonneg
      henvelope hfits =>
    have hunspent := (hbalanced.allocations delegationId old henvelope).unspent
    refine hs.settled id rfl hpolicy (by simp; rfl) rfl rfl rfl rfl ?_ ?_ hfits
    · intro d hd
      have hbelow : values d ≤ stored.reserved d := hd
      have hold : 0 ≤ old.unspent d := hunspent d
      simp only [Pi.add_apply, Pi.sub_apply, unspentAfter]
      omega
    · intro d hd
      have hold : 0 ≤ old.unspent d := hunspent d
      have hstored : 0 ≤ stored.reserved d := hbalanced.operations id stored hfound d
      simp only [Pi.add_apply, Pi.sub_apply, unspentAfter]
      omega
  | recover | recoverDelegated =>
    refine hs.of_le rfl fun d => ?_
    simp only [Pi.add_apply, Pi.sub_apply]
    omega
  | grant _ _ hfits =>
    intro d limit hlimit
    have hd := hfits d limit hlimit
    have hbefore := hs d limit hlimit
    simp only [Pi.add_apply]
    omega
  | release hfound =>
    refine hs.of_le rfl fun d => ?_
    have hold := (hbalanced.allocations _ _ hfound).unspent d
    simp only [Pi.sub_apply, Pi.zero_apply] at hold ⊢
    omega

/-- An allocation stays live until its own release. -/
theorem BudgetMoves.live
    (hother : event ≠ some (.released delegationId)) {allocation : DelegationAllocation}
    (hfound : root.allocations.get? delegationId = some allocation)
    (hlive : allocation.state = .reserved) :
    ∃ allocation', root'.allocations.get? delegationId = some allocation' ∧
      allocation'.state = .reserved := by
  have hset : ∀ {id : String} (new : DelegationAllocation),
      (∀ old, root.allocations.get? id = some old → new.state = old.state) →
      ∃ allocation', (root.allocations.set id new).get? delegationId = some allocation' ∧
        allocation'.state = .reserved := by
    intro id new hnew
    by_cases hid : delegationId = id
    · subst hid
      exact ⟨new, by simp, (hnew allocation hfound).trans hlive⟩
    · exact ⟨allocation, by simpa [hid] using hfound, hlive⟩
  have hsame : ∀ {id : String} {old new : DelegationAllocation},
      root.allocations.get? id = some old → new.state = old.state →
      ∀ other, root.allocations.get? id = some other → new.state = other.state := by
    intro id old _ hold hstate _ hother'
    exact hstate.trans (congrArg _ (Option.mem_unique hold hother'))
  cases h with
  | touch | reserve | settle | recover => exact ⟨allocation, hfound, hlive⟩
  | reserveDelegated _ _ hold | settleDelegated _ _ _ _ hold | recoverDelegated _ _ _ hold =>
    exact hset _ (hsame hold rfl)
  | grant habsent =>
    refine hset _ fun old hold => ?_
    rw [habsent] at hold
    cases hold
  | release =>
    rename_i id old _ _ _
    have hid : delegationId ≠ id := fun heq => hother (heq ▸ rfl)
    exact ⟨allocation, by simpa [hid] using hfound, hlive⟩

/-- Every allocation after a move was there before, but for the one that is granted. -/
theorem BudgetMoves.envelope_before
    (hother : event ≠ some (.granted delegationId)) {allocation : DelegationAllocation}
    (hfound : root'.allocations.get? delegationId = some allocation) :
    ∃ before, root.allocations.get? delegationId = some before := by
  have hset : ∀ {id : String} {old new : DelegationAllocation},
      root.allocations.get? id = some old →
      (root.allocations.set id new).get? delegationId = some allocation →
      ∃ before, root.allocations.get? delegationId = some before := by
    intro id old _ hold h
    by_cases hid : delegationId = id
    · exact ⟨old, hid ▸ hold⟩
    · exact ⟨allocation, by simpa [hid] using h⟩
  cases h with
  | touch | reserve | settle | recover => exact ⟨allocation, hfound⟩
  | reserveDelegated _ _ hold | settleDelegated _ _ _ _ hold | recoverDelegated _ _ _ hold
  | release hold => exact hset hold hfound
  | grant =>
    rename_i id _ _ _ _ _
    have hid : delegationId ≠ id := fun heq => hother (heq ▸ rfl)
    exact ⟨allocation, by simpa [hid] using hfound⟩

end

/-! ## The operations -/

variable {right : Amounts}

theorem budgetAdd_avoids {sign : ℤ} (h : ∀ d, 0 ≤ left d + sign * right d) :
    Avoids loopBudgetInconsistent (budgetAdd left right sign)
      (· = fun d => left d + sign * right d) := by
  unfold budgetAdd
  have hcond : ¬ ∃ d, right d ≠ 0 ∧ left d + sign * right d < 0 := by
    rintro ⟨d, -, hd⟩
    exact absurd (h d) (not_le.mpr hd)
  simp only [raiseIf, hcond, if_false]
  exact avoids_ok rfl

theorem budgetAdd_plus (h : 0 ≤ left + right) :
    Avoids loopBudgetInconsistent (budgetAdd left right 1) (· = left + right) :=
  (budgetAdd_avoids fun d => by simpa using h d).mono fun _ hsum => by
    rw [hsum]
    funext d
    simp

theorem budgetAdd_minus (h : right ≤ left) :
    Avoids loopBudgetInconsistent (budgetAdd left right (-1)) (· = left - right) :=
  (budgetAdd_avoids fun d => by simpa using h d).mono fun _ hsum => by
    rw [hsum]
    funext d
    simp [sub_eq_add_neg]

variable {usage : Option Amounts}

theorem budgetUsage_avoids : Avoids loopBudgetInconsistent (budgetUsage usage) (0 ≤ ·) := by
  cases usage with
  | none => exact avoids_ok le_rfl
  | some =>
    simp only [budgetUsage]
    split
    · exact avoids_error (by simp [loopBudgetInconsistent])
    · rename_i hnone
      refine avoids_ok fun d => ?_
      have hd := List.find?_eq_none.mp hnone d (Dimension.mem_all d)
      simpa using hd

theorem raiseExceeded_avoids {values consumed reserved : Amounts} : Avoids loopBudgetInconsistent
      (raiseExceeded (exceededDimension root values consumed reserved))
      fun _ => FitsIn root values consumed reserved := by
  cases hfind : exceededDimension root values consumed reserved with
  | some d =>
    refine avoids_error ?_
    intro heq
    have htext := congrArg String.length (LoopError.runtime.inj heq)
    revert htext
    cases d <;> decide
  | none =>
    refine avoids_ok fun d hd limit hlimit => ?_
    have hnone := List.find?_eq_none.mp hfind d (Dimension.mem_all d)
    by_contra hover
    exact hnone (by simpa using ⟨hd, limit, hlimit, not_le.mp hover⟩)

/-- What a delegated frame can rely on: its envelope is there. -/
def HasEnvelope (root : RootBudget) (delegationId : Option String) : Prop :=
  ∀ id, delegationId = some id → ∃ allocation, root.allocations.get? id = some allocation

/-- Moves that leave the set of envelopes alone. -/
def Writes (root root' : RootBudget) : Prop :=
  Relation.ReflTransGen (BudgetMoves · none ·) root root'

variable {lease : RunLease}

theorem writes_touch {middle : RootBudget} (h : BudgetMoves root none middle) :
    Writes root (middle.touch lease) :=
  .tail (.single h) .touch

theorem reserveBudgetOperation_avoids (hs : Balanced root) {delegationId : Option String}
(hframe : HasEnvelope root delegationId) :
    Avoids loopBudgetInconsistent
      (root.reserveBudgetOperation lease delegationId operationId usage kind generation)
      (Writes root) := by
  unfold reserveBudgetOperation
  refine budgetUsage_avoids.bind fun values hnonneg => ?_
  split
  · exact (avoids_raiseIf (by simp [loopBudgetInconsistent])).bind fun _ _ => avoids_ok .refl
  · rename_i hfresh
    refine (avoids_raiseIf (by simp [loopBudgetInconsistent])).bind fun _ _ => ?_
    unfold reservation
    cases delegationId with
    | none =>
      refine Avoids.bind (P := fun r => r = (root.allocations, root.budgetReserved + values)) ?_ ?_
      · exact (budgetAdd_plus (add_nonneg hs.budgetReserved_nonneg hnonneg)).bind fun reserved h =>
          avoids_ok (by rw [h])
      · rintro _ rfl
        refine raiseExceeded_avoids.bind fun _ hfits => avoids_ok ?_
        exact writes_touch (.reserve hfresh hnonneg hfits)
    | some id =>
      obtain ⟨allocation, hallocation⟩ := hframe id rfl
      simp only [Option.bind_some, hallocation, Option.map_some]
      refine Avoids.bind (P := fun r => allocation.state = .reserved ∧
        values ≤ allocation.unspent ∧ r = (root.allocations.set id
          { allocation with unspent := allocation.unspent - values }, root.budgetReserved)) ?_ ?_
      · unfold takeFromEnvelope
        refine Avoids.bind (P := fun allocations => allocation.state = .reserved ∧
          values ≤ allocation.unspent ∧ allocations = root.allocations.set id
            { allocation with unspent := allocation.unspent - values }) ?_
          fun allocations h => avoids_ok ⟨h.1, h.2.1, by rw [h.2.2]⟩
        refine (avoids_raiseIf (by simp [loopBudgetInconsistent])).bind fun _ hcond => ?_
        simp only [not_or, not_not, not_exists, not_lt] at hcond
        obtain ⟨hlive, -, hcovered⟩ := hcond
        exact (budgetAdd_minus hcovered).bind fun unspent h =>
          avoids_ok ⟨hlive, hcovered, by rw [h]⟩
      · rintro _ ⟨hlive, hcovered, rfl⟩
        refine raiseExceeded_avoids.bind fun _ _ => avoids_ok ?_
        exact writes_touch (.reserveDelegated hfresh hnonneg hallocation hlive hcovered)

variable {stored : BudgetOperation}

theorem Balanced.stored_le (hs : Balanced root)
    (hfound : root.operations.get? id = some stored) (hopen : stored.state = .reserved) :
    stored.reserved + root.allocationsUnspent ≤ root.budgetReserved := by
  have hle : reservedOf stored ≤ root.operationsReserved := by
    refine le_sumBy (fun id' operation h => ?_) hfound
    unfold reservedOf
    split_ifs
    · exact hs.operations id' operation h
    · exact le_rfl
  rw [reservedOf, if_pos hopen] at hle
  rw [hs.reserved]
  exact add_le_add_left hle _

theorem Balanced.unspent_le (hs : Balanced root) {allocation : DelegationAllocation}
    (hfound : root.allocations.get? id = some allocation) (hlive : allocation.state = .reserved) :
    allocation.unspent ≤ root.allocationsUnspent := by
  have hle : unspentOf allocation ≤ root.allocationsUnspent := by
    refine le_sumBy (fun id' other h => ?_) hfound
    unfold unspentOf
    split_ifs
    · exact (hs.allocations id' other h).unspent
    · exact le_rfl
  rwa [unspentOf, if_pos hlive] at hle

theorem Balanced.allocationsUnspent_nonneg (hs : Balanced root) : 0 ≤ root.allocationsUnspent := by
  refine sumBy_nonneg fun id allocation h => ?_
  unfold unspentOf
  split_ifs
  · exact (hs.allocations id allocation h).unspent
  · exact le_rfl

theorem Balanced.stored_le_reserved (hs : Balanced root)
    (hfound : root.operations.get? id = some stored) (hopen : stored.state = .reserved) :
    stored.reserved ≤ root.budgetReserved :=
  (le_add_of_nonneg_right hs.allocationsUnspent_nonneg).trans (hs.stored_le hfound hopen)

theorem checkLimits_avoids {values consumed reserved : Amounts} :
    Avoids loopBudgetInconsistent (root.checkLimits values consumed reserved)
      fun _ => root.executionPolicy ≠ .v2 → FitsIn root values consumed reserved := by
  unfold checkLimits
  split_ifs with hv2
  · exact raiseExceeded_avoids.mono fun _ hfits _ => hfits
  · exact avoids_ok fun h => absurd h hv2

theorem settledValues_avoids (hstored : 0 ≤ stored.reserved) :
    Avoids loopBudgetInconsistent (settledValues stored usage) (0 ≤ ·) := by
  unfold settledValues
  split_ifs
  · exact avoids_ok hstored
  · exact budgetUsage_avoids

section

variable (hs : Balanced root)
include hs

/-- A settlement of the root, or one that its live envelope takes. -/
theorem settlement_avoids {stored : BudgetOperation}
    {values : Amounts} (hfound : root.operations.get? operationId = some stored)
    (hopen : stored.state = .reserved) (hnonneg : 0 ≤ values) : Avoids loopBudgetInconsistent
      (root.settlement stored values (root.budgetReserved - stored.reserved)) fun r =>
      stored.delegationId = none ∧ r = (root.allocations, root.budgetReserved - stored.reserved) ∨
      ∃ id allocation, stored.delegationId = some id ∧ root.allocations.get? id = some allocation ∧
        r = (root.allocations.set id { allocation with
            unspent := unspentAfter allocation stored.reserved values
            consumed := allocation.consumed + values
            overrun := allocation.overrun ||
              decide (∃ d, (allocation.unspent + stored.reserved) d < values d) },
          root.budgetReserved - stored.reserved +
            (unspentAfter allocation stored.reserved values - allocation.unspent)) := by
  have hstored := hs.operations operationId stored hfound
  unfold settlement
  cases hdelegation : stored.delegationId with
  | none => exact avoids_ok (.inl ⟨rfl, rfl⟩)
  | some id =>
    obtain ⟨allocation, hallocation, hlive⟩ :=
      hs.envelopes operationId stored id hfound hopen hdelegation
    have hsound := hs.allocations id allocation hallocation
    have hfloor : allocation.unspent ≤ root.budgetReserved - stored.reserved :=
      (hs.unspent_le hallocation hlive).trans (le_sub_iff_add_le'.mpr (hs.stored_le hfound hopen))
    simp only [hallocation, orRaise, ok_bind]
    refine (budgetAdd_plus (add_nonneg hsound.unspent hstored)).bind fun balance hbalance => ?_
    refine (budgetAdd_plus ?_).bind fun reserved hreserved => ?_
    · intro d
      have hd := hfloor d
      have hmax : 0 ≤ unspentAfter allocation stored.reserved values d := le_max_left _ _
      simp only [Pi.add_apply, Pi.sub_apply, Pi.zero_apply] at hd ⊢
      omega
    · refine (budgetAdd_plus (add_nonneg hsound.consumed hnonneg)).bind fun consumed hconsumed => ?_
      exact avoids_ok (.inr ⟨id, allocation, rfl, hallocation,
        by rw [hreserved, hconsumed, hbalance]⟩)

theorem settleBudgetOperation_avoids :
    Avoids loopBudgetInconsistent
      (root.settleBudgetOperation lease operationId usage source) (Writes root) := by
  unfold settleBudgetOperation
  refine (avoids_orRaise (by simp [loopBudgetInconsistent])).bind fun stored hfound => ?_
  have hstored := hs.operations operationId stored hfound
  refine (settledValues_avoids hstored).bind fun values hnonneg => ?_
  split_ifs with hsettled
  · exact (avoids_raiseIf (by simp [loopBudgetInconsistent])).bind fun _ _ => avoids_ok .refl
  · have hopen : stored.state = .reserved := by
      cases hstate : stored.state with
      | reserved => rfl
      | settled => exact absurd hstate hsettled
    refine (budgetAdd_minus (hs.stored_le_reserved hfound hopen)).bind fun reserved hreserved => ?_
    refine (budgetAdd_plus (add_nonneg hs.consumed hnonneg)).bind fun consumed hconsumed => ?_
    subst hreserved hconsumed
    refine (settlement_avoids hs hfound hopen hnonneg).bind ?_
    rintro _ (⟨hdelegation, rfl⟩ | ⟨_, _, hdelegation, hallocation, rfl⟩)
    · refine checkLimits_avoids.bind fun _ hfits => avoids_ok ?_
      exact writes_touch (.settle hfound hopen hdelegation hnonneg hfits)
    · refine checkLimits_avoids.bind fun _ hfits => avoids_ok ?_
      exact writes_touch (.settleDelegated hfound hopen hdelegation hnonneg hallocation hfits)

theorem recoverEnvelope_avoids
(hfound : root.operations.get? operationId = some operation) (hopen : operation.state = .reserved) :
    Avoids loopBudgetInconsistent (root.recoverEnvelope operation) fun r =>
      operation.delegationId = none ∧ r = root.allocations ∨
      ∃ id allocation, operation.delegationId = some id ∧
        root.allocations.get? id = some allocation ∧ r = root.allocations.set id
          { allocation with consumed := allocation.consumed + operation.reserved } := by
  have hnonneg := hs.operations operationId operation hfound
  unfold recoverEnvelope
  cases hdelegation : operation.delegationId with
  | none => exact avoids_ok (.inl ⟨rfl, rfl⟩)
  | some id =>
    obtain ⟨allocation, hallocation, -⟩ :=
      hs.envelopes operationId operation id hfound hopen hdelegation
    have hconsumed := (hs.allocations id allocation hallocation).consumed
    simp only [hallocation, orRaise, ok_bind]
    exact (budgetAdd_plus (add_nonneg hconsumed hnonneg)).bind fun consumed h =>
      avoids_ok (.inr ⟨id, allocation, rfl, hallocation, by rw [h]⟩)

theorem recoverOperation_avoids :
    Avoids loopBudgetInconsistent (root.recoverOperation operationId) (Writes root) := by
  unfold recoverOperation
  cases hfound : root.operations.get? operationId with
  | none => exact avoids_ok .refl
  | some operation =>
    simp only
    split_ifs with hopen
    · have hnonneg := hs.operations operationId operation hfound
      refine (budgetAdd_minus (hs.stored_le_reserved hfound hopen)).bind fun reserved hreserved => ?_
      refine (budgetAdd_plus (add_nonneg hs.consumed hnonneg)).bind fun consumed hconsumed => ?_
      subst hreserved hconsumed
      refine (recoverEnvelope_avoids hs hfound hopen).bind ?_
      rintro _ (⟨hdelegation, rfl⟩ | ⟨_, _, hdelegation, hallocation, rfl⟩)
      · exact avoids_ok (.single (.recover hfound hopen hdelegation))
      · exact avoids_ok (.single (.recoverDelegated hfound hopen hdelegation hallocation))
    · exact avoids_ok .refl

theorem Balanced.writes (h : Writes root root') : Balanced root' := by
  induction h with
  | refl => exact hs
  | tail _ hmove ih => exact ih.moves hmove

end

theorem Writes.grows (h : Writes root root') : BudgetGrows root root' := by
  induction h with
  | refl => exact .refl root
  | tail _ hmove ih => exact ih.trans hmove.grows

theorem Writes.within (h : Writes root root') (hbalanced : Balanced root)
    (hpolicy : root.executionPolicy = .v1 ∨ NoOverrun root') (hs : Within root) : Within root' := by
  induction h with
  | refl => exact hs
  | tail hbefore hmove ih =>
    have hgrows := Writes.grows hbefore
    have hpolicy' := hpolicy.imp_right (NoOverrun.of_grows hmove.grows)
    refine hmove.within (hbalanced.writes hbefore) ?_ (ih hpolicy')
    rwa [hgrows.policy]

theorem settleRecoveryBudget_avoids (hs : Balanced root) :
    Avoids loopBudgetInconsistent (root.settleRecoveryBudget lease) (Writes root) := by
  unfold settleRecoveryBudget
  have hloop : Avoids loopBudgetInconsistent (root.operations.keys.foldlM recoverOperation root)
      (Writes root) := by
    refine avoids_foldlM (fun current id hcurrent => ?_) .refl
    exact (recoverOperation_avoids (hs.writes hcurrent)).mono fun next hnext => hcurrent.trans hnext
  refine hloop.bind fun settled hsettled => avoids_ok ?_
  split_ifs
  · exact hsettled.tail .touch
  · exact hsettled

variable {d : Dimension}

theorem availableOf_avoids :
    Avoids loopBudgetInconsistent (root.availableOf d) fun n => root.available d = some n :=
  avoids_orRaise (by simp [loopBudgetInconsistent])

theorem available_eq {n : ℤ} (h : root.available d = some n) :
    0 ≤ n ∧ ∀ limit ∈ root.budgetTotals d,
      n = max 0 (limit - root.budgetConsumed d - root.budgetReserved d) := by
  obtain ⟨_, hlimit, rfl⟩ := Option.map_eq_some_iff.mp h
  refine ⟨le_max_left _ _, fun limit' hlimit' => ?_⟩
  cases hlimit.symm.trans hlimit'
  rfl

/-- What a grant takes is within what every limit leaves. -/
theorem available_getD {other : ℤ} {m : ℤ} (hother : 0 ≤ other) (hm : 0 ≤ m) :
    0 ≤ min m ((root.available d).getD other) ∧ ∀ limit ∈ root.budgetTotals d,
      min m ((root.available d).getD other) ≤
        max 0 (limit - root.budgetConsumed d - root.budgetReserved d) := by
  cases h : root.available d with
  | none =>
    have hnone : root.budgetTotals d = none := by simpa [available] using h
    exact ⟨le_min hm hother, fun limit hlimit => by simp [hnone] at hlimit⟩
  | some =>
    obtain ⟨hn, hlimits⟩ := available_eq h
    exact ⟨le_min hm hn, fun limit hlimit => (min_le_right _ _).trans (hlimits limit hlimit).le⟩

theorem half_le {n limit : ℤ} (hn : 0 ≤ n) : min (n / 2) limit ≤ n := by omega

/-- The amounts of a grant are nonnegative and within what every limit leaves. -/
theorem allocation_avoids :
    Avoids loopBudgetInconsistent (root.allocation limits) fun granted => 0 ≤ granted ∧
      ∀ d, ∀ limit ∈ root.budgetTotals d,
        granted d ≤ max 0 (limit - root.budgetConsumed d - root.budgetReserved d) := by
  unfold allocation
  refine availableOf_avoids.bind fun tokens htokens => ?_
  refine availableOf_avoids.bind fun modelCalls hmodels => ?_
  refine availableOf_avoids.bind fun toolCalls htools => ?_
  refine availableOf_avoids.bind fun costUnits hcosts => ?_
  refine (avoids_raiseIf (by simp [loopBudgetInconsistent])).bind fun _ hpositive => avoids_ok ?_
  obtain ⟨htokens, htokensLimit⟩ := available_eq htokens
  obtain ⟨hmodels, hmodelsLimit⟩ := available_eq hmodels
  obtain ⟨htools, htoolsLimit⟩ := available_eq htools
  obtain ⟨hcosts, hcostsLimit⟩ := available_eq hcosts
  generalize htotal : min (tokens / 2) (limits.totalTokens : ℤ) = total at hpositive ⊢
  generalize hmodel : min 8 (min (modelCalls / 2) (limits.maxModelCalls : ℤ)) = models at hpositive ⊢
  generalize htool : min 4 (min (toolCalls / 2) (limits.maxToolCalls : ℤ)) = tools at hpositive ⊢
  generalize hcost : min (costUnits / 2) (limits.costUnits : ℤ) = costs at hpositive ⊢
  have htotalLe : total ≤ tokens := htotal ▸ half_le htokens
  have hmodelsLe : models ≤ modelCalls := hmodel ▸ (min_le_right _ _).trans (half_le hmodels)
  have htoolsLe : tools ≤ toolCalls := htool ▸ (min_le_right _ _).trans (half_le htools)
  have hcostsLe : costs ≤ costUnits := hcost ▸ half_le hcosts
  clear htotal hmodel htool hcost
  have hsizes : 0 < total ∧ 0 < models ∧ 0 < tools ∧ 0 < costs := by omega
  have hkey : ∀ d, 0 ≤ root.allocationAmounts limits total models tools costs d ∧
      ∀ limit ∈ root.budgetTotals d, root.allocationAmounts limits total models tools costs d ≤
        max 0 (limit - root.budgetConsumed d - root.budgetReserved d) := by
    intro d
    cases d with
    | modelCalls =>
      refine ⟨hsizes.2.1.le, fun limit hlimit => ?_⟩
      rwa [← hmodelsLimit limit hlimit]
    | toolCalls =>
      refine ⟨hsizes.2.2.1.le, fun limit hlimit => ?_⟩
      rwa [← htoolsLimit limit hlimit]
    | totalTokens =>
      refine ⟨hsizes.1.le, fun limit hlimit => ?_⟩
      rwa [← htokensLimit limit hlimit]
    | costUnits =>
      refine ⟨hsizes.2.2.2.le, fun limit hlimit => ?_⟩
      rwa [← hcostsLimit limit hlimit]
    | remoteModelCalls => exact available_getD hsizes.2.1.le hsizes.2.1.le
    | inputTokens | outputTokens => exact available_getD hsizes.1.le (by omega)
    | retries => exact available_getD (by omega) (by omega)
    | _ => exact ⟨le_rfl, fun limit _ => le_max_left _ _⟩
  exact ⟨fun d => (hkey d).1, fun d => (hkey d).2⟩

/-- A grant that is new is one move; a replayed one reads the stored allocation. -/
theorem grant_avoids (hs : Balanced root) :
    Avoids loopBudgetInconsistent (root.grant lease delegationId limits generation) fun root' =>
      (root.allocations.get? delegationId = none → ∃ middle,
        BudgetMoves root (some (.granted delegationId)) middle ∧ root' = middle.touch lease) ∧
      ∃ allocation, root'.allocations.get? delegationId = some allocation ∧
        allocation.state = .reserved := by
  unfold grant
  refine allocation_avoids.bind fun granted ⟨hnonneg, hfits⟩ => ?_
  refine (budgetAdd_plus (add_nonneg hs.budgetReserved_nonneg hnonneg)).bind fun reserved h => ?_
  subst h
  refine avoids_ok ⟨fun habsent => ⟨_, .grant habsent hnonneg hfits, rfl⟩, ?_⟩
  exact ⟨⟨.reserved, granted, granted, 0, false, 0, generation⟩, by simp [touch], rfl⟩

/-- The release of an envelope, whose open operations are settled before it. -/
theorem releaseEnvelope_avoids (hs : Balanced root)
    (hlive : ∀ allocation, root.allocations.get? delegationId = some allocation →
      allocation.state = .reserved) :
    Avoids loopBudgetInconsistent (root.releaseEnvelope lease delegationId) fun root' =>
      ∃ middle, BudgetMoves root (some (.released delegationId)) middle ∧
        root' = middle.touch lease := by
  unfold releaseEnvelope
  refine (avoids_orRaise (by simp [loopBudgetInconsistent])).bind fun envelope hfound => ?_
  refine (avoids_raiseIf (by simp [loopBudgetInconsistent])).bind fun _ hidle => ?_
  have hstate := hlive envelope hfound
  have hle : envelope.unspent ≤ root.budgetReserved := by
    refine (hs.unspent_le hfound hstate).trans ?_
    rw [hs.reserved]
    refine le_add_of_nonneg_left (sumBy_nonneg fun id operation h => ?_)
    unfold reservedOf
    split_ifs
    · exact hs.operations id operation h
    · exact le_rfl
  refine (budgetAdd_minus hle).bind fun reserved h => ?_
  subst h
  refine avoids_ok ⟨_, .release hfound hstate fun operation hmem hdelegated hreserved => ?_, rfl⟩
  exact hidle ⟨operation, hmem, hdelegated, hreserved⟩

end RootBudget

/-! ## Runs -/

namespace LoopBudgetTables

open RootBudget

inductive Action where
  | reserve (lease : RunLease) (lock : Option String) (operationId : String)
    (usage : Option Amounts) (kind : BudgetOperationKind) (generation : ℕ) (frameId : String)
  | settle (lease : RunLease) (lock : Option String) (operationId : String)
    (usage : Option Amounts) (source : String) (frameId : String)
  | createChild (lease : RunLease) (lock : Option String) (frameId delegationId childId : String)
    (limits : TargetLimits) (generation : ℕ)
  | commitChildResult (lease : RunLease) (lock : Option String) (frameId : String)
    (checks : Option String)
  | recover (lease : RunLease) (lock : Option String)

/-- What the transaction does. -/
def outcome (tables : LoopBudgetTables) : Action → Except LoopError LoopBudgetTables
  | .reserve lease lock operationId usage kind generation frameId =>
    tables.reserve lease lock operationId usage kind generation frameId
  | .settle lease lock operationId usage source frameId =>
    tables.settle lease lock operationId usage source frameId
  | .createChild lease lock frameId delegationId childId limits generation =>
    tables.createChild lease lock frameId delegationId childId limits generation
  | .commitChildResult lease lock frameId checks => tables.commitChildResult lease lock frameId checks
  | .recover lease lock => tables.recover lease lock

/-- The tables after the transaction; an exception rolls it back. -/
def step (tables : LoopBudgetTables) (action : Action) : LoopBudgetTables :=
  match tables.outcome action with
  | .ok tables' => tables'
  | .error _ => tables

def run (tables : LoopBudgetTables) (acts : List Action) : LoopBudgetTables :=
  acts.foldl step tables

/-- The consumption of a run at its admission, from a ledger that holds no reservation. -/
structure AdmittedBudget where
  totals : Dimension → Option ℤ
  consumed : Amounts
  nonneg : 0 ≤ consumed
  within : ∀ d, ∀ limit ∈ totals d, consumed d ≤ limit

/-- `initialize`: one root frame, no operation. -/
def initialized (policy : LoopExecutionPolicy) (budget : AdmittedBudget) (frameId : String)
    (token : ℕ) : LoopBudgetTables where
  root := {
    executionPolicy := policy
    budgetTotals := budget.totals
    budgetReserved := 0
    budgetConsumed := budget.consumed
    operations := Dict.empty
    allocations := Dict.empty
    executionVersion := 1
    lastCommittedFencingToken := token }
  frames := Dict.empty.set frameId ⟨.root, none⟩
  delegations := Dict.empty

structure Tied (tables : LoopBudgetTables) : Prop where
  balanced : Balanced tables.root
  frames : ∀ id frame, tables.frames.get? id = some frame →
    HasEnvelope tables.root frame.delegationId
  envelopes : ∀ id allocation, tables.root.allocations.get? id = some allocation →
    ∃ delegation, tables.delegations.get? id = some delegation
  /-- a child without a result has a live envelope -/
  open_ : ∀ id delegation, tables.delegations.get? id = some delegation →
    delegation.hasResult = false → ∃ allocation,
      tables.root.allocations.get? id = some allocation ∧ allocation.state = .reserved

variable {tables tables' : LoopBudgetTables}

/-- What a transaction that returned has done. -/
inductive Effect (tables : LoopBudgetTables) : LoopBudgetTables → Prop where
  | wrote {root : RootBudget} (writes : Writes tables.root root) :
      Effect tables { tables with root := root }
  | created {lease : RunLease} {root : RootBudget} {delegationId childId : String}
      (fresh : delegationId ∉ tables.delegations.keys)
      (granted : BudgetMoves tables.root (some (.granted delegationId)) root)
      (live : ∃ allocation, root.allocations.get? delegationId = some allocation ∧
        allocation.state = .reserved) :
      Effect tables {
        root := root.touch lease
        frames := tables.frames.set childId ⟨.child, some delegationId⟩
        delegations := tables.delegations.set delegationId ⟨childId, false⟩ }
  | released {lease : RunLease} {root : RootBudget} {delegationId : String}
      {delegation : BudgetDelegation}
      (released : BudgetMoves tables.root (some (.released delegationId)) root) :
      Effect tables { tables with
        root := root.touch lease
        delegations := tables.delegations.set delegationId { delegation with hasResult := true } }

theorem ofCheck_avoids {check : Option String} :
    Avoids loopBudgetInconsistent (LoopError.ofCheck check) fun _ => True := by
  cases check with
  | none => exact avoids_ok trivial
  | some => exact avoids_error (by simp [loopBudgetInconsistent])

variable {frameId operationId delegationId : String} {lock : Option String}

theorem lockLoop_avoids :
    Avoids loopBudgetInconsistent (tables.lockLoop lock frameId)
      fun frame => tables.frames.get? frameId = some frame :=
  ofCheck_avoids.bind fun _ _ => avoids_orRaise (by simp [loopBudgetInconsistent])

theorem Tied.absent (ht : Tied tables) (hfresh : delegationId ∉ tables.delegations.keys) :
    tables.root.allocations.get? delegationId = none := by
  cases h : tables.root.allocations.get? delegationId with
  | none => rfl
  | some allocation =>
    obtain ⟨delegation, hdelegation⟩ := ht.envelopes delegationId allocation h
    exact absurd (Dict.mem_keys_iff.mpr ⟨delegation, hdelegation⟩) hfresh

/-- In tied tables no transaction raises `LOOP_BUDGET_INCONSISTENT`. -/
theorem outcome_avoids (ht : Tied tables) (action : Action) :
    Avoids loopBudgetInconsistent (tables.outcome action) (Effect tables) := by
  cases action with
  | reserve _ _ _ _ _ _ frameId =>
    refine lockLoop_avoids.bind fun frame hframe => ?_
    refine (reserveBudgetOperation_avoids ht.balanced (ht.frames frameId frame hframe)).bind
      fun root hroot => ?_
    exact avoids_ok (.wrote hroot)
  | settle =>
    refine lockLoop_avoids.bind fun frame hframe => ?_
    exact (settleBudgetOperation_avoids ht.balanced).bind fun root hroot => avoids_ok (.wrote hroot)
  | createChild =>
    refine lockLoop_avoids.bind fun frame hframe => ?_
    refine (avoids_raiseIf (by simp [loopBudgetInconsistent])).bind fun _ _ => ?_
    refine (grant_avoids ht.balanced).bind fun root ⟨hgrant, hlive⟩ => ?_
    refine (avoids_raiseIf (by simp [loopBudgetInconsistent])).bind fun _ hfresh => ?_
    obtain ⟨-, hfresh⟩ := not_or.mp hfresh
    obtain ⟨middle, hmiddle, rfl⟩ := hgrant (ht.absent hfresh)
    exact avoids_ok (.created hfresh hmiddle hlive)
  | commitChildResult =>
    refine lockLoop_avoids.bind fun child hchild => ?_
    refine (avoids_orRaise (by simp [loopBudgetInconsistent])).bind fun delegationId hdelegated => ?_
    refine (avoids_orRaise (by simp [loopBudgetInconsistent])).bind fun delegation hdelegation => ?_
    refine (avoids_raiseIf (by simp [loopBudgetInconsistent])).bind fun _ _ => ?_
    split_ifs with hresult
    · exact avoids_ok (.wrote .refl)
    · refine ofCheck_avoids.bind fun _ _ => ?_
      have hlive : ∀ allocation, tables.root.allocations.get? delegationId = some allocation →
          allocation.state = .reserved := by
        intro _ hallocation
        obtain ⟨_, hfound, hstate⟩ :=
          ht.open_ delegationId delegation hdelegation (Bool.eq_false_iff.mpr hresult)
        exact Option.mem_unique hallocation hfound ▸ hstate
      refine (releaseEnvelope_avoids ht.balanced hlive).bind fun root hroot => ?_
      obtain ⟨_, hmiddle, rfl⟩ := hroot
      exact avoids_ok (.released hmiddle)
  | recover =>
    refine ofCheck_avoids.bind fun _ _ => ?_
    exact (settleRecoveryBudget_avoids ht.balanced).bind fun root hroot => avoids_ok (.wrote hroot)

theorem Effect.grows (h : Effect tables tables') : BudgetGrows tables.root tables'.root := by
  cases h with
  | wrote hwrites => exact Writes.grows hwrites
  | created _ hgranted | released hgranted => exact hgranted.grows.trans BudgetMoves.touch.grows

theorem Effect.within (h : Effect tables tables') (ht : Tied tables)
    (hpolicy : tables.root.executionPolicy = .v1 ∨ NoOverrun tables'.root)
    (hs : Within tables.root) : Within tables'.root := by
  cases h with
  | wrote hwrites => exact Writes.within hwrites ht.balanced hpolicy hs
  | created _ hgranted | released hgranted => exact hgranted.within ht.balanced hpolicy hs

variable {root root' : RootBudget}

theorem Writes.live (h : Writes root root')
    (hlive : ∃ allocation, root.allocations.get? delegationId = some allocation ∧
      allocation.state = .reserved) :
    ∃ allocation, root'.allocations.get? delegationId = some allocation ∧
      allocation.state = .reserved := by
  induction h with
  | refl => exact hlive
  | tail _ hmove ih =>
    obtain ⟨_, hfound, hstate⟩ := ih
    exact hmove.live nofun hfound hstate

theorem Writes.envelope_before (h : Writes root root') :
    (∃ allocation, root'.allocations.get? delegationId = some allocation) →
      ∃ before, root.allocations.get? delegationId = some before := by
  induction h with
  | refl => exact id
  | tail _ hmove ih =>
    rintro ⟨_, hfound⟩
    exact ih (hmove.envelope_before nofun hfound)

theorem HasEnvelope.grows (h : BudgetGrows root root')
    {delegationId : Option String} (hs : HasEnvelope root delegationId) :
    HasEnvelope root' delegationId := by
  intro id hid
  obtain ⟨allocation, hallocation⟩ := hs id hid
  exact h.allocations id allocation hallocation

/-- Every effect of a transaction keeps the tables tied. -/
theorem Tied.effect (ht : Tied tables) (h : Effect tables tables') : Tied tables' := by
  have hgrows := h.grows
  cases h with
  | wrote hwrites =>
    refine ⟨ht.balanced.writes hwrites, fun id frame hframe => ?_, fun id allocation h => ?_,
      fun id delegation hdelegation hopen => ?_⟩
    · exact HasEnvelope.grows hgrows (ht.frames id frame hframe)
    · obtain ⟨before, hbefore⟩ := Writes.envelope_before hwrites ⟨allocation, h⟩
      exact ht.envelopes id before hbefore
    · exact Writes.live hwrites (ht.open_ id delegation hdelegation hopen)
  | @created lease root delegationId childId hfresh hgranted hlive =>
    refine ⟨(ht.balanced.moves hgranted).moves .touch, fun id frame hframe => ?_,
      fun id allocation h => ?_, fun id delegation hdelegation hopen => ?_⟩
    · rcases Dict.get?_set_cases hframe with ⟨-, rfl⟩ | ⟨-, hframe⟩
      · intro _ hdid
        obtain ⟨allocation, hallocation, -⟩ := hlive
        exact ⟨allocation, Option.some.inj hdid ▸ hallocation⟩
      · exact HasEnvelope.grows hgrows (ht.frames id frame hframe)
    · by_cases hid : id = delegationId
      · exact ⟨⟨childId, false⟩, by simp [hid]⟩
      · have hother : some (EnvelopeEvent.granted delegationId) ≠ some (.granted id) := by
          simpa using fun heq : delegationId = id => hid heq.symm
        obtain ⟨before, hbefore⟩ := hgranted.envelope_before hother h
        obtain ⟨delegation, hdelegation⟩ := ht.envelopes id before hbefore
        exact ⟨delegation, by simpa [hid] using hdelegation⟩
    · by_cases hid : id = delegationId
      · exact hid ▸ hlive
      · have hbefore : tables.delegations.get? id = some delegation := by
          simpa [hid] using hdelegation
        obtain ⟨allocation, hallocation, hstate⟩ := ht.open_ id delegation hbefore hopen
        exact hgranted.live (by simp) hallocation hstate
  | @released lease root delegationId delegation hreleased =>
    refine ⟨(ht.balanced.moves hreleased).moves .touch, fun id frame hframe => ?_,
      fun id allocation h => ?_, fun id other hother hopen => ?_⟩
    · exact HasEnvelope.grows hgrows (ht.frames id frame hframe)
    · obtain ⟨before, hbefore⟩ := hreleased.envelope_before (by simp) h
      obtain ⟨kept, hkept⟩ := ht.envelopes id before hbefore
      by_cases hid : id = delegationId
      · exact ⟨_, by simp [hid]; rfl⟩
      · exact ⟨kept, by simpa [hid] using hkept⟩
    · by_cases hid : id = delegationId
      · obtain rfl : { delegation with hasResult := true } = other :=
          Option.some.inj (by simpa [hid] using hother)
        cases hopen
      · have hbefore : tables.delegations.get? id = some other := by simpa [hid] using hother
        obtain ⟨_, hallocation, hstate⟩ := ht.open_ id other hbefore hopen
        have hne : some (EnvelopeEvent.released delegationId) ≠ some (.released id) := by
          simpa using fun heq : delegationId = id => hid heq.symm
        exact hreleased.live hne hallocation hstate

/-! ## Replays -/

variable {lease : RunLease} {usage : Option Amounts}

/-- What a reservation that is answered has stored. -/
theorem reserveBudgetOperation_stored {delegationId : Option String} {generation : ℕ}
    (h : root.reserveBudgetOperation lease delegationId operationId usage kind generation =
      .ok root') : ∃ values stored, budgetUsage usage = .ok values ∧
      root'.operations.get? operationId = some stored ∧ stored.kind = kind ∧
      stored.reserved = values := by
  obtain ⟨values, hvalues, h⟩ := bind_eq_ok.mp h
  split at h
  · rename_i stored hstored
    simp only [seq_eq_ok, raiseIf_ok, not_or, not_not] at h
    obtain ⟨⟨hreserved, hkind⟩, h⟩ := h
    cases h
    exact ⟨values, stored, hvalues, hstored, hkind, hreserved⟩
  · obtain ⟨-, h⟩ := seq_eq_ok.mp h
    obtain ⟨⟨_, _⟩, -, h⟩ := bind_eq_ok.mp h
    simp only [seq_eq_ok] at h
    cases h.2
    exact ⟨values, ⟨kind, .reserved, values, none, none, generation, delegationId⟩, hvalues,
      by simp [touch], rfl, rfl⟩

/-- What a settlement that is answered has stored. -/
theorem settleBudgetOperation_stored
    (h : root.settleBudgetOperation lease operationId usage source = .ok root') :
    ∃ stored values, root'.operations.get? operationId = some stored ∧
      stored.state = .settled ∧ settledValues stored usage = .ok values ∧
      stored.actual = some values := by
  obtain ⟨stored, hstored, h⟩ := bind_eq_ok.mp h
  obtain ⟨values, hvalues, h⟩ := bind_eq_ok.mp h
  split_ifs at h with hsettled
  · simp only [seq_eq_ok, raiseIf_ok, not_not] at h
    obtain ⟨hactual, h⟩ := h
    cases h
    exact ⟨stored, values, orRaise_ok.mp hstored, hsettled, hvalues, hactual⟩
  · obtain ⟨_, -, h⟩ := bind_eq_ok.mp h
    obtain ⟨_, -, h⟩ := bind_eq_ok.mp h
    obtain ⟨⟨_, _⟩, -, h⟩ := bind_eq_ok.mp h
    simp only [seq_eq_ok] at h
    cases h.2
    exact ⟨{ stored with state := .settled, actual := some values, source := some source }, values,
      by simp [touch], rfl, hvalues, rfl⟩

/-- A stored reservation answers its replay and writes nothing. -/
theorem step_reserve_stored {generation : ℕ} {values : Amounts}
    {stored : BudgetOperation} (hvalues : budgetUsage usage = .ok values)
    (hstored : tables.root.operations.get? operationId = some stored) (hkind : stored.kind = kind)
    (hreserved : stored.reserved = values) :
    tables.step (.reserve lease lock operationId usage kind generation frameId) = tables := by
  have hroot : ∀ delegationId, tables.root.reserveBudgetOperation lease delegationId operationId
      usage kind generation = .ok tables.root := by
    intro _
    simp [reserveBudgetOperation, hvalues, hstored, hkind, hreserved, raiseIf, pure, Except.pure]
  simp only [step, outcome, reserve]
  cases tables.lockLoop lock frameId with
  | error => rfl
  | ok => simp [hroot, pure, Except.pure]

/-- A stored settlement answers its replay and writes nothing. -/
theorem step_settle_stored {values : Amounts}
    {stored : BudgetOperation} (hstored : tables.root.operations.get? operationId = some stored)
    (hsettled : stored.state = .settled) (hvalues : settledValues stored usage = .ok values)
    (hactual : stored.actual = some values) :
    tables.step (.settle lease lock operationId usage source frameId) = tables := by
  have hroot : tables.root.settleBudgetOperation lease operationId usage source =
      .ok tables.root := by
    simp [settleBudgetOperation, hstored, orRaise, hvalues, hsettled, hactual, raiseIf, pure,
      Except.pure]
  simp only [step, outcome, settle]
  cases tables.lockLoop lock frameId with
  | error => rfl
  | ok => simp [hroot, pure, Except.pure]

/-! ## Every run -/

theorem step_cases (tables : LoopBudgetTables) (action : Action) :
    tables.step action = tables ∨ tables.outcome action = .ok (tables.step action) := by
  unfold step
  cases tables.outcome action with
  | error => exact .inl rfl
  | ok => exact .inr rfl

theorem Tied.step (ht : Tied tables) (action : Action) : Tied (tables.step action) := by
  rcases step_cases tables action with hsame | hok
  · rwa [hsame]
  · exact ht.effect ((outcome_avoids ht action).2 _ hok)

theorem Tied.run (ht : Tied tables) (acts : List Action) : Tied (tables.run acts) := by
  induction acts generalizing tables with
  | nil => exact ht
  | cons action _ ih => exact ih (ht.step action)

theorem Tied.run_grows (ht : Tied tables) (acts : List Action) :
    BudgetGrows tables.root (tables.run acts).root := by
  induction acts generalizing tables with
  | nil => exact .refl _
  | cons action _ ih =>
    refine BudgetGrows.trans ?_ (ih (ht.step action))
    rcases step_cases tables action with hsame | hok
    · rw [hsame]
      exact .refl _
    · exact ((outcome_avoids ht action).2 _ hok).grows

/-- No limit is passed in a run, unless policy 2 lets a settlement overrun. -/
theorem Tied.run_keeps_within (ht : Tied tables) (hs : Within tables.root) (acts : List Action)
    (hpolicy : tables.root.executionPolicy = .v1 ∨ NoOverrun (tables.run acts).root) :
    Within (tables.run acts).root := by
  induction acts generalizing tables with
  | nil => exact hs
  | cons action acts ih =>
    have hrest := (ht.step action).run_grows acts
    have hpolicy' := hpolicy.imp_right (NoOverrun.of_grows hrest)
    rcases step_cases tables action with hsame | hok
    · have hpolicy'' : (tables.step action).root.executionPolicy = tables.root.executionPolicy := by
        rw [hsame]
      refine ih (ht.step action) (by rwa [hsame]) ?_
      rwa [hpolicy'']
    · have heffect := (outcome_avoids ht action).2 _ hok
      refine ih (ht.step action) (heffect.within ht hpolicy' hs) ?_
      rwa [heffect.grows.policy]

theorem tied_initialized (policy : LoopExecutionPolicy) (budget : AdmittedBudget)
    (frameId : String) (token : ℕ) : Tied (initialized policy budget frameId token) where
  balanced := by
    refine ⟨?_, budget.nonneg, fun _ _ h => (by cases h), fun _ _ h => (by cases h),
      fun _ _ _ h => (by cases h), fun _ _ h => (by cases h)⟩
    simp [initialized, operationsReserved, allocationsUnspent]
  frames := by
    intro _ _ h
    simp only [initialized, Dict.get?_set, Dict.get?_empty] at h
    split_ifs at h
    cases h
    rintro _ ⟨⟩
  envelopes := fun _ _ h => by cases h
  open_ := fun _ _ h => by cases h

/-- A reservation or settlement made again, under any lease and whatever the lock raises. -/
def Unmoved (tables : LoopBudgetTables) : Action → Prop
  | .reserve _ _ operationId usage kind generation frameId => ∀ lease lock,
    tables.step (.reserve lease lock operationId usage kind generation frameId) = tables
  | .settle _ _ operationId usage source frameId => ∀ lease lock,
    tables.step (.settle lease lock operationId usage source frameId) = tables
  | .createChild .. | .commitChildResult .. | .recover .. => True

structure Sound (tables : LoopBudgetTables) : Prop where
  /-- reserved is what the open operations hold and the live envelopes keep -/
  reserved : tables.root.budgetReserved =
    tables.root.operationsReserved + tables.root.allocationsUnspent
  /-- no component is negative -/
  nonneg : 0 ≤ tables.root.budgetReserved ∧ 0 ≤ tables.root.budgetConsumed
  operations : ∀ id operation, tables.root.operations.get? id = some operation →
    0 ≤ operation.reserved
  allocations : ∀ id allocation, tables.root.allocations.get? id = some allocation →
    AllocationSound allocation
  consistent : ∀ action, tables.outcome action ≠ .error loopBudgetInconsistent
  /-- every envelope without overrun accounts for its grant -/
  granted : ∀ id allocation, tables.root.allocations.get? id = some allocation →
    allocation.overrun = false → allocation.reserved =
      allocation.unspent + tables.root.inFlight id + allocation.consumed + allocation.released
  limits : tables.root.executionPolicy = .v1 ∨ NoOverrun tables.root → Within tables.root
  /-- a reservation or settlement that returned changes nothing at any later time -/
  replays : ∀ action tables', tables.outcome action = .ok tables' → ∀ later,
    Unmoved (tables'.run later) action

/-- An answered transaction is answered alike after any later ones. -/
theorem replays_of_tied (ht : Tied tables) (action : Action)
    (h : tables.outcome action = .ok tables') (later : List Action) :
    Unmoved (tables'.run later) action := by
  have hgrows := (ht.effect ((outcome_avoids ht action).2 _ h)).run_grows later
  cases action with
  | reserve _ _ operationId =>
    intro lease' lock'
    obtain ⟨frame, -, h⟩ := bind_eq_ok.mp h
    obtain ⟨root, hroot, h⟩ := bind_eq_ok.mp h
    cases h
    obtain ⟨values, stored, hvalues, hstored, hkind, hreserved⟩ :=
      reserveBudgetOperation_stored hroot
    obtain ⟨kept, hkept, hkind', hreserved', -⟩ := hgrows.operations operationId stored hstored
    exact step_reserve_stored hvalues hkept (hkind'.trans hkind) (hreserved'.trans hreserved)
  | settle _ _ operationId =>
    intro _ _
    obtain ⟨_, -, h⟩ := bind_eq_ok.mp h
    obtain ⟨_, hroot, h⟩ := bind_eq_ok.mp h
    cases h
    obtain ⟨stored, _, hstored, hsettled, hvalues, hactual⟩ :=
      settleBudgetOperation_stored hroot
    obtain ⟨_, hkept, -, -, hsame⟩ := hgrows.operations operationId stored hstored
    cases hsame hsettled
    exact step_settle_stored hkept hsettled hvalues hactual
  | createChild | commitChildResult | recover => trivial

/-- In every state of every run. -/
theorem loop_budget_sound (policy : LoopExecutionPolicy) (budget : AdmittedBudget)
    (frameId : String) (token : ℕ) (acts : List Action) :
    Sound ((initialized policy budget frameId token).run acts) := by
  have hstart := tied_initialized policy budget frameId token
  have ht := hstart.run acts
  have hwithin : Within (initialized policy budget frameId token).root := by
    intro d limit hlimit
    simpa [initialized] using budget.within d limit hlimit
  exact {
    reserved := ht.balanced.reserved
    nonneg := ⟨ht.balanced.budgetReserved_nonneg, ht.balanced.consumed⟩
    operations := ht.balanced.operations
    allocations := ht.balanced.allocations
    consistent := fun action => (outcome_avoids ht action).1
    granted := ht.balanced.granted
    limits := fun hpolicy => hstart.run_keeps_within hwithin acts
      (hpolicy.imp_left fun hv1 => (hstart.run_grows acts).policy.symm.trans hv1)
    replays := fun action _ h later => replays_of_tied ht action h later }

end LoopBudgetTables

end LocalAgent.Runtime
