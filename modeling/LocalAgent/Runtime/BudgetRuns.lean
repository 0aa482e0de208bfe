import LocalAgent.Runtime.Budget
import Mathlib.Tactic.Linarith

/-!
# LocalAgent.Runtime.BudgetRuns — histories of one budget ledger

A history is a list of ledger calls.  `Effect` is everything a call can do to the ledger, with the
exception it raises; `effect_of_call` derives it once from the code.  Two laws follow by induction
over a history:

* `run_within`: committed usage, reservations and envelopes together stay within every limit;
* `delegation_conserved`: what was allocated to a delegation is its envelope, its outstanding reservations
  and what was committed through it, as long as releases present the reservation that is stored.
-/

namespace LocalAgent.Runtime

namespace BudgetLedger

inductive Call where
  | reserve (usage : BudgetUsage) (reservationType : String) (stepId delegationId : Option String)
      (uuid : String) (createdAt : DateTime) (reading : BudgetReading)
  | commit (reservation : BudgetReservation) (actualUsage : Option BudgetUsage)
      (reading : BudgetReading)
  | release (reservation : BudgetReservation) (reading : BudgetReading)
  | allocateDelegation (delegationId : String) (usage : BudgetUsage) (reading : BudgetReading)
  | releaseDelegation (delegationId : String)

/-- The call as a computation; what it returns does not matter for the ledger. -/
def Call.op : Call → LedgerOp Unit
  | .reserve usage type stepId delegationId uuid createdAt reading =>
    discard (BudgetLedger.reserve usage type stepId delegationId uuid createdAt reading)
  | .commit reservation actualUsage reading =>
    discard (BudgetLedger.commit reservation actualUsage reading)
  | .release reservation reading => discard (BudgetLedger.release reservation reading)
  | .allocateDelegation delegationId usage reading =>
    BudgetLedger.allocateDelegation delegationId usage reading
  | .releaseDelegation delegationId => BudgetLedger.releaseDelegation delegationId

/-- The call is a `commit`. -/
def Call.isCommit : Call → Bool
  | .commit _ _ _ => true
  | _ => false

def run (ledger : BudgetLedger) (calls : List Call) : BudgetLedger :=
  calls.foldl (fun l call => Op.after call.op l) ledger

/-! ## What one call does -/

/-- `usage` fits under every limit on top of what is committed and reserved. -/
def Fits (ledger : BudgetLedger) (usage : BudgetUsage) : Prop :=
  ∀ d limit, ledger.budget.limit d = some limit →
    ledger.committed.amount d + ledger.reserved.amount d + usage.amount d ≤ limit

/-- Everything a call can do: the exception it ends with and the ledger it leaves. -/
inductive Effect (l : BudgetLedger) : Call → Option BudgetError → BudgetLedger → Prop where
  | rejected {call : Call} {e : BudgetError} (h : e ≠ delegationBudgetExceeded)
      (settles : call.isCommit = false) : Effect l call (some e) l
  | commitUnknown {r : BudgetReservation} {actual? : Option BudgetUsage} {reading : BudgetReading}
      (mismatch : l.reservations.get? r.reservationId ≠ some r) :
      Effect l (.commit r actual? reading) (some reservationUnknown) l
  | known {id : String} {usage : BudgetUsage} {reading : BudgetReading}
      (h : id ∈ l.envelopes.keys) : Effect l (.allocateDelegation id usage reading) none l
  | allocated {id : String} {usage : BudgetUsage} {reading : BudgetReading}
      (fresh : id ∉ l.envelopes.keys)
      (fits : ∀ d, l.budget.limit d ≠ none → usage.amount d ≤ l.remainingAmount d) :
      Effect l (.allocateDelegation id usage reading) none
        { l with envelopes := l.envelopes.set id usage }
  | delegationReleased {id : String} (idle : id ∉ l.delegatedReservations.values) :
      Effect l (.releaseDelegation id) none { l with envelopes := l.envelopes.erase id }
  | reserved {usage : BudgetUsage} {type : String} {stepId : Option String} {uuid : String}
      {createdAt : DateTime} {reading : BudgetReading} (fits : l.Fits usage) :
      Effect l (.reserve usage type stepId none uuid createdAt reading) none
        { l with reservations := l.reservations.set uuid ⟨uuid, type, stepId, usage, createdAt⟩ }
  | reservedDelegated {usage available left : BudgetUsage} {type id : String}
      {stepId : Option String} {uuid : String} {createdAt : DateTime} {reading : BudgetReading}
      (found : l.envelopes.get? id = some available) (h : available.minus usage = .ok left) :
      Effect l (.reserve usage type stepId (some id) uuid createdAt reading) none
        { l with
          envelopes := l.envelopes.set id left
          delegatedReservations := l.delegatedReservations.set uuid id
          reservations := l.reservations.set uuid ⟨uuid, type, stepId, usage, createdAt⟩ }
  | committedDelegated {r : BudgetReservation} {actual? : Option BudgetUsage}
      {reading : BudgetReading} {id : String} {available actual : BudgetUsage}
      (stored : l.reservations.get? r.reservationId = some r)
      (delegated : l.delegatedReservations.get? r.reservationId = some id)
      (found : l.envelopes.get? id = some available)
      (used : actual = actual?.getD r.reservedUsage) :
      Effect l (.commit r actual? reading)
        (if ∃ d, (available.plus r.reservedUsage).amount d < actual.amount d then
          some delegationBudgetExceeded else none)
        { l with
          committed := l.committed.plus actual
          reservations := l.reservations.erase r.reservationId
          envelopes :=
            l.envelopes.set id ((available.plus r.reservedUsage).clampedMinus actual)
          delegatedReservations := l.delegatedReservations.erase r.reservationId }
  | committed {r : BudgetReservation} {actual? : Option BudgetUsage} {reading : BudgetReading}
      {actual : BudgetUsage}
      (stored : l.reservations.get? r.reservationId = some r)
      (root : l.delegatedReservations.get? r.reservationId = none)
      (used : actual = actual?.getD r.reservedUsage)
      (fits : Fits { l with reservations := l.reservations.erase r.reservationId } actual) :
      Effect l (.commit r actual? reading) none
        { l with
          committed := l.committed.plus actual
          reservations := l.reservations.erase r.reservationId }
  | commitRestored {r : BudgetReservation} {actual? : Option BudgetUsage}
      {reading : BudgetReading} {e : BudgetError} (h : e ≠ delegationBudgetExceeded)
      (stored : l.reservations.get? r.reservationId = some r)
      (root : l.delegatedReservations.get? r.reservationId = none) :
      Effect l (.commit r actual? reading) (some e)
        { l with
          reservations := (l.reservations.erase r.reservationId).set r.reservationId r }
  | released {r : BudgetReservation} {reading : BudgetReading}
      (stored : l.reservations.get? r.reservationId = some r)
      (root : l.delegatedReservations.get? r.reservationId = none) :
      Effect l (.release r reading) none
        { l with reservations := l.reservations.erase r.reservationId }
  | releasedDelegated {r : BudgetReservation} {reading : BudgetReading} {id : String}
      {envelope : BudgetUsage}
      (stored : l.reservations.get? r.reservationId = some r)
      (delegated : l.delegatedReservations.get? r.reservationId = some id)
      (found : l.envelopes.get? id = some envelope) :
      Effect l (.release r reading) none
        { l with
          reservations := l.reservations.erase r.reservationId
          envelopes := l.envelopes.set id (envelope.plus r.reservedUsage)
          delegatedReservations := l.delegatedReservations.erase r.reservationId }
  | lost {r : BudgetReservation} {reading : BudgetReading}
      (mismatch : l.reservations.get? r.reservationId ≠ some r) :
      Effect l (.release r reading) (some reservationUnknown)
        { l with reservations := l.reservations.erase r.reservationId }

/-- Every delegated reservation belongs to a delegation that has an envelope. -/
def Covered (l : BudgetLedger) : Prop :=
  ∀ uuid id, l.delegatedReservations.get? uuid = some id → id ∈ l.envelopes.keys

/-- An error of a loop of checks is that of one of them. -/
theorem forM_raiseIf_error {c : Dimension → Prop} [∀ d, Decidable (c d)]
    {f : Dimension → BudgetError} {dims : List Dimension} {e : BudgetError}
    (h : dims.forM (fun d => raiseIf (c d) (f d)) = .error e) : ∃ d, e = f d := by
  induction dims with
  | nil => cases h
  | cons d _ ih =>
    by_cases hc : c d
    · refine ⟨d, ?_⟩
      have : (Except.error (f d) : Except BudgetError Unit) = .error e := by
        simpa [List.forM_cons, raiseIf, hc, bind, Except.bind] using h
      exact (Except.error.inj this).symm
    · refine ih ?_
      simpa [List.forM_cons, raiseIf, hc, bind, Except.bind] using h

theorem minus_ne_exceeded {u v : BudgetUsage} : u.minus v ≠ .error delegationBudgetExceeded := by
  unfold BudgetUsage.minus BudgetUsage.make
  split_ifs
  · simp
  · simp [delegationBudgetExceeded]
  · split <;> simp [delegationBudgetExceeded]

variable {l l' : BudgetLedger} {usage : BudgetUsage} {snap : BudgetSnapshot}

theorem guardLimits_eq_ok : l.guardLimits usage snap = .ok () ↔ l.Fits usage := by
  simp only [guardLimits, except_forM_eq_ok, raiseIf_ok, Fits]
  constructor
  · intro h d limit hl
    have := h d (Dimension.mem_all d)
    push Not at this
    exact this limit hl
  · rintro h d - ⟨limit, hl, hlt⟩
    exact absurd (h d limit hl) (not_le.mpr hlt)

/-- The effect of a computation that ended with `result`. -/
def EffectOf {α : Type} (l : BudgetLedger) (call : Call) :
    EStateM.Result BudgetError BudgetLedger α → Prop
  | .ok _ l' => Effect l call none l'
  | .error e l' => Effect l call (some e) l'

theorem exceeded_ne {dimension : String} {requested remaining : ℤ} {time : Bool} :
    BudgetError.exceeded dimension requested remaining snap time ≠ delegationBudgetExceeded := by
  simp [delegationBudgetExceeded]

theorem effect_allocateDelegation (l : BudgetLedger) (id : String) (usage : BudgetUsage)
    (reading : BudgetReading) : EffectOf l (.allocateDelegation id usage reading)
      (allocateDelegation id usage reading l) := by
  unfold allocateDelegation
  rw [Op.get_bind_apply]
  by_cases hid : id ∈ l.envelopes.keys
  · rw [if_pos hid]
    exact .known hid
  · rw [if_neg hid]
    cases hg : l.guardAllocation usage (l.snapshotLocked reading) with
    | error =>
      obtain ⟨d, rfl⟩ := forM_raiseIf_error hg
      exact .rejected exceeded_ne rfl
    | ok =>
      refine .allocated hid fun d hd => ?_
      have hd' := raiseIf_ok.mp (except_forM_eq_ok.mp hg d (Dimension.mem_all d))
      exact not_lt.mp fun hlt => hd' ⟨hd, hlt⟩

theorem effect_releaseDelegation (l : BudgetLedger) (id : String) :
    EffectOf l (.releaseDelegation id) (releaseDelegation id l) := by
  unfold releaseDelegation
  rw [Op.get_bind_apply]
  by_cases hid : id ∈ l.delegatedReservations.values
  · simp only [raiseIf, hid, if_true, Op.lift_error, Op.raise_bind]
    exact .rejected (by decide) rfl
  · simp only [raiseIf, hid, if_false, Op.lift_ok, Op.pure_bind_apply]
    exact .delegationReleased hid

theorem effect_reserve (l : BudgetLedger) (usage : BudgetUsage) (type : String)
    (stepId delegationId : Option String) (uuid : String) (createdAt : DateTime)
    (reading : BudgetReading) :
    EffectOf l (.reserve usage type stepId delegationId uuid createdAt reading)
      (reserve usage type stepId delegationId uuid createdAt reading l) := by
  unfold reserve
  rw [Op.get_bind_apply]
  by_cases htime : ∃ t ∈ (l.snapshotLocked reading).remainingTimeSeconds, t ≤ 0
  · simp only [guardTime, raiseIf, if_pos htime, Op.lift_error, Op.raise_bind]
    exact .rejected exceeded_ne rfl
  · simp only [guardTime, raiseIf, if_neg htime, Op.lift_ok, Op.pure_bind_apply]
    cases delegationId with
    | none =>
      cases hg : l.guardLimits usage (l.snapshotLocked reading) with
      | error =>
        obtain ⟨d, rfl⟩ := forM_raiseIf_error hg
        exact .rejected exceeded_ne rfl
      | ok => exact .reserved (guardLimits_eq_ok.mp hg)
    | some id =>
      simp only [reserveDelegated, Op.get_bind_apply]
      cases he : l.envelopes.get? id with
      | none => exact .rejected (by decide) rfl
      | some available =>
        simp only
        cases hg : guardEnvelope available usage (l.snapshotLocked reading) with
        | error =>
          obtain ⟨d, rfl⟩ := forM_raiseIf_error hg
          exact .rejected exceeded_ne rfl
        | ok =>
          cases hm : available.minus usage with
          | error =>
            refine .rejected ?_ rfl
            rintro rfl
            exact minus_ne_exceeded hm
          | ok => exact .reservedDelegated he hm

theorem effect_commit (hc : l.Covered) (r : BudgetReservation)
    (actual? : Option BudgetUsage) (reading : BudgetReading) :
    EffectOf l (.commit r actual? reading) (commit r actual? reading l) := by
  unfold commit
  rw [Op.get_bind_apply]
  by_cases hstored : l.reservations.get? r.reservationId = some r
  · simp only [raiseIf, hstored, ne_eq, not_true, if_false, Op.lift_ok, Op.pure_bind_apply]
    cases hd : l.delegatedReservations.get? r.reservationId with
    | some =>
      obtain ⟨available, he⟩ := Dict.mem_keys_iff.mp (hc _ _ hd)
      have heffect : Effect l (.commit r actual? reading) _ _ :=
        .committedDelegated hstored hd he rfl
      simp only [commitDelegated, Op.set_bind_apply, Op.get_bind_apply, he]
      by_cases hover : ∃ d, (available.plus r.reservedUsage).amount d <
          (actual?.getD r.reservedUsage).amount d
      · rw [if_pos hover] at heffect
        simp only [raiseIf, if_pos hover]
        exact heffect
      · rw [if_neg hover] at heffect
        simp only [raiseIf, if_neg hover]
        exact heffect
    | none =>
      cases hg : guardLimits { l with reservations := l.reservations.erase r.reservationId }
          (actual?.getD r.reservedUsage)
          (snapshotLocked { l with
            reservations := (l.reservations.erase r.reservationId).set r.reservationId r }
            reading) with
      | error =>
        obtain ⟨d, rfl⟩ := forM_raiseIf_error hg
        exact .commitRestored exceeded_ne hstored hd
      | ok => exact .committed hstored hd rfl (guardLimits_eq_ok.mp hg)
  · simp only [raiseIf, ne_eq, hstored, not_false_eq_true, if_true]
    exact .commitUnknown hstored

theorem effect_release (hc : l.Covered) (r : BudgetReservation) (reading : BudgetReading) :
    EffectOf l (.release r reading) (release r reading l) := by
  unfold release
  rw [Op.get_bind_apply, Op.set_bind_apply]
  by_cases hstored : l.reservations.get? r.reservationId = some r
  · simp only [raiseIf, hstored, ne_eq, not_true, if_false, Op.lift_ok, Op.pure_bind_apply]
    cases hd : l.delegatedReservations.get? r.reservationId with
    | none => exact .released hstored hd
    | some =>
      obtain ⟨_, he⟩ := Dict.mem_keys_iff.mp (hc _ _ hd)
      simp only [Op.set_bind_apply, he]
      exact .releasedDelegated hstored hd he
  · simp only [raiseIf, ne_eq, hstored, not_false_eq_true, if_true]
    exact .lost hstored

variable {call : Call}

theorem effectOf_discard {α : Type} {x : LedgerOp α}
    (h : EffectOf l call (x l)) : EffectOf l call ((discard x : LedgerOp Unit) l) := by
  rw [Op.discard_apply]
  cases hxl : x l <;> rw [hxl] at h <;> exact h

/-- What each call does to the ledger, or that it fails. -/
theorem effect_of_call (hc : l.Covered) (call : Call) :
    Effect l call (Op.error? call.op l) (Op.after call.op l) := by
  have h : EffectOf l call (call.op l) := by
    cases call with
    | reserve => exact effectOf_discard (effect_reserve ..)
    | commit => exact effectOf_discard (effect_commit hc ..)
    | release => exact effectOf_discard (effect_release hc ..)
    | allocateDelegation => exact effect_allocateDelegation ..
    | releaseDelegation => exact effect_releaseDelegation ..
  unfold Op.error? Op.after
  cases hr : call.op l <;> rw [hr] at h <;> exact h

/-! ## Envelopes of delegated reservations -/

theorem covered_new (budget : RunBudget) : (new budget).Covered := by
  intro _ _ h
  simp [new] at h

variable {e? : Option BudgetError}

/-- Reservations stay covered by their delegations. -/
theorem Effect.covered (h : Effect l call e? l') (hc : l.Covered) : l'.Covered := by
  intro uuid id hd
  cases h with
  | rejected | commitUnknown | known | reserved | committed | commitRestored | released | lost =>
    exact hc uuid id hd
  | allocated => exact Dict.mem_keys_set.mpr (Or.inr (hc uuid id hd))
  | @delegationReleased id' hidle =>
    refine Dict.mem_keys_erase.mpr ⟨?_, hc uuid id hd⟩
    rintro rfl
    exact hidle (Dict.mem_values_iff.mpr ⟨uuid, hd⟩)
  | @reservedDelegated _ _ _ _ id' _ uuid' =>
    refine Dict.mem_keys_set.mpr ?_
    by_cases hu : uuid = uuid'
    · simp only [hu, Dict.get?_set, if_true, Option.some.injEq] at hd
      exact Or.inl hd.symm
    · simp only [Dict.get?_set, hu, if_false] at hd
      exact Or.inr (hc uuid id hd)
  | committedDelegated | releasedDelegated =>
    simp only [Dict.get?_erase] at hd
    split_ifs at hd
    exact Dict.mem_keys_set.mpr (Or.inr (hc uuid id hd))

theorem run_covered (calls : List Call) (hc : l.Covered) : (run l calls).Covered := by
  induction calls generalizing l with
  | nil => exact hc
  | cons call _ ih => exact ih ((effect_of_call hc call).covered hc)

/-! ## Nothing is spent beyond a limit -/

theorem reserved_amount (l : BudgetLedger) (d : Dimension) : l.reserved.amount d =
      l.reservations.sumBy (fun _ r => r.reservedUsage.amount d) +
        l.envelopes.sumBy (fun _ u => u.amount d) := by
  unfold reserved
  rw [BudgetUsage.foldl_plus_amount, BudgetUsage.foldl_plus_amount]
  simp [Dict.sumBy, Dict.values, List.map_map, Function.comp_def]

/-- Committed usage, reservations and envelopes together stay within every limit. -/
def Within (l : BudgetLedger) : Prop :=
  ∀ d limit, l.budget.limit d = some limit →
    l.committed.amount d + l.reservations.sumBy (fun _ r => r.reservedUsage.amount d) +
      l.envelopes.sumBy (fun _ u => u.amount d) ≤ limit

theorem within_new (budget : RunBudget) : (new budget).Within := by
  intro d limit h
  have := budget.limit_nonneg d limit h
  simpa [new] using this

theorem elim_reserved_nonneg (r? : Option BudgetReservation) (d : Dimension) :
    0 ≤ r?.elim 0 fun r => r.reservedUsage.amount d := by
  cases r? with
  | none => exact le_rfl
  | some r => exact r.reservedUsage.nonneg d

theorem elim_amount_nonneg (u? : Option BudgetUsage) (d : Dimension) :
    0 ≤ u?.elim 0 fun u => u.amount d := by
  cases u? with
  | none => exact le_rfl
  | some u => exact u.nonneg d

theorem Effect.budget (h : Effect l call e? l') : l'.budget = l.budget := by
  cases h <;> rfl

/-- A call that does not report an overspent delegation keeps the ledger within its limits. -/
theorem Effect.within
    (h : Effect l call e? l') (hw : l.Within) (hne : e? ≠ some delegationBudgetExceeded) :
    l'.Within := by
  intro d limit hl
  rw [h.budget] at hl
  have hold := hw d limit hl
  cases h with
  | rejected | commitUnknown | known => exact hold
  | @allocated id usage _ hfresh hfits =>
    have hfit := hfits d (by simp [hl])
    have hnone : l.envelopes.get? id = none := Dict.get?_eq_none_iff.mpr hfresh
    have hrem : l.remainingAmount d = limit - l.committed.amount d - l.reserved.amount d := by
      have hnn : 0 ≤ limit - l.committed.amount d - l.reserved.amount d := by
        rw [reserved_amount]
        omega
      simp only [remainingAmount, hl]
      exact max_eq_right hnn
    rw [hrem, reserved_amount] at hfit
    simp only [Dict.sumBy_set, hnone, Option.elim_none]
    omega
  | @delegationReleased id hidle =>
    simp only [Dict.sumBy_erase]
    have := elim_amount_nonneg (l.envelopes.get? id) d
    omega
  | @reserved usage _ _ uuid _ _ hfits =>
    have hfit := hfits d limit hl
    rw [reserved_amount] at hfit
    simp only [Dict.sumBy_set]
    have := elim_reserved_nonneg (l.reservations.get? uuid) d
    omega
  | @reservedDelegated usage available left _ id _ uuid _ _ hfound hminus =>
    have hleft := BudgetUsage.minus_amount hminus d
    simp only [Dict.sumBy_set, hfound, Option.elim_some]
    have := elim_reserved_nonneg (l.reservations.get? uuid) d
    omega
  | @committedDelegated r _ _ id available actual hstored hdel hfound hused =>
    have hcover : ¬ ∃ d, (available.plus r.reservedUsage).amount d < actual.amount d := by
      intro hover
      rw [if_pos hover] at hne
      exact hne rfl
    have hd : actual.amount d ≤ available.amount d + r.reservedUsage.amount d := by
      by_contra hlt
      exact hcover ⟨d, not_le.mp hlt⟩
    simp only [Dict.sumBy_set, Dict.sumBy_erase, hfound, hstored, Option.elim_some,
      BudgetUsage.plus_amount, BudgetUsage.clampedMinus_amount]
    omega
  | @committed r _ _ actual hstored hroot hused hfits =>
    have hfit := hfits d limit hl
    simp only [reserved_amount] at hfit
    simp only [BudgetUsage.plus_amount]
    omega
  | @commitRestored r _ _ e _ hstored hroot =>
    simp only [Dict.sumBy_set, Dict.sumBy_erase, Dict.get?_erase, if_true, hstored,
      Option.elim_some, Option.elim_none]
    omega
  | @released r _ hstored hroot =>
    simp only [Dict.sumBy_erase]
    have := elim_reserved_nonneg (l.reservations.get? r.reservationId) d
    omega
  | @releasedDelegated r _ id envelope hstored hdel hfound =>
    simp only [Dict.sumBy_set, Dict.sumBy_erase, hfound, hstored, Option.elim_some,
      BudgetUsage.plus_amount]
    omega
  | @lost r _ hmismatch =>
    simp only [Dict.sumBy_erase]
    have := elim_reserved_nonneg (l.reservations.get? r.reservationId) d
    omega

/-- No call of the history ends with `DELEGATION_BUDGET_EXCEEDED`. -/
def NeverOverspends : BudgetLedger → List Call → Prop
  | _, [] => True
  | l, call :: calls =>
    Op.error? call.op l ≠ some delegationBudgetExceeded ∧ NeverOverspends (Op.after call.op l) calls

instance : ∀ (l : BudgetLedger) (calls : List Call), Decidable (NeverOverspends l calls)
  | _, [] => inferInstanceAs (Decidable True)
  | l, call :: calls =>
    have := instDecidableNeverOverspends (Op.after call.op l) calls
    inferInstanceAs (Decidable (_ ∧ _))

theorem run_budget (calls : List Call) (hc : l.Covered) : (run l calls).budget = l.budget := by
  induction calls generalizing l with
  | nil => rfl
  | cons call _ ih =>
    have heffect := effect_of_call hc call
    exact (ih (heffect.covered hc)).trans heffect.budget

theorem run_within_of_within (calls : List Call) (hc : l.Covered)
    (hw : l.Within) (hnever : NeverOverspends l calls) : (run l calls).Within := by
  induction calls generalizing l with
  | nil => exact hw
  | cons call _ ih =>
    have heffect := effect_of_call hc call
    exact ih (heffect.covered hc) (heffect.within hw hnever.1) hnever.2

/-- **No overspending.**  As long as no delegated commit reported an overspent delegation, in every
dimension with a limit the committed usage, the outstanding reservations and the unspent envelopes
together are within the limit, and no envelope is negative. -/
theorem run_within (budget : RunBudget) (calls : List Call)
    (hnever : NeverOverspends (new budget) calls) : (∀ d limit, budget.limit d = some limit →
      (run (new budget) calls).committed.amount d +
        (run (new budget) calls).reservations.sumBy (fun _ r => r.reservedUsage.amount d) +
        (run (new budget) calls).envelopes.sumBy (fun _ u => u.amount d) ≤ limit) ∧
    ∀ id envelope, (run (new budget) calls).envelopes.get? id = some envelope →
      ∀ d, 0 ≤ envelope.amount d := by
  have hc := covered_new budget
  constructor
  · intro d limit _
    refine run_within_of_within calls hc (within_new budget) hnever d limit ?_
    rwa [run_budget calls hc]
  · exact fun id envelope _ d => envelope.nonneg d

def fiveToolCalls : RunBudget where
  limit d := if d = .toolCalls then some 5 else none
  maxElapsedSeconds := none
  limit_nonneg d n h := by
    split_ifs at h
    · cases h; decide
    · cases h
  elapsed_pos := RunBudget.unlimited.elapsed_pos

/-- `n` tool calls. -/
def toolCalls (n : ℕ) : BudgetUsage := BudgetUsage.single .toolCalls n (by decide)

/-- A reading of the clocks at the start of the run, without a deadline. -/
def startReading : BudgetReading := ⟨0, none, .epochSecond 0⟩

/-- Three tool calls go to a delegation, two of them are reserved there, two more at the root; the
delegated reservation is settled with one call, the other is released. -/
def sampleCalls : List Call :=
  [.allocateDelegation "d" (toolCalls 3) startReading,
    .reserve (toolCalls 2) "tool" none (some "d") "u1" (.epochSecond 1) startReading,
    .reserve (toolCalls 2) "tool" none none "u2" (.epochSecond 1) startReading,
    .commit ⟨"u1", "tool", none, toolCalls 2, .epochSecond 1⟩ (some (toolCalls 1)) startReading,
    .release ⟨"u2", "tool", none, toolCalls 2, .epochSecond 1⟩ startReading]

theorem run_within_sample : NeverOverspends (new fiveToolCalls) sampleCalls ∧
      (run (new fiveToolCalls) sampleCalls).committed.amount .toolCalls = 1 ∧
      (run (new fiveToolCalls) sampleCalls).committed.amount .toolCalls +
        (run (new fiveToolCalls) sampleCalls).reservations.sumBy
          (fun _ r => r.reservedUsage.amount .toolCalls) +
        (run (new fiveToolCalls) sampleCalls).envelopes.sumBy
          (fun _ u => u.amount .toolCalls) ≤ 5 := by
  have hnever : NeverOverspends (new fiveToolCalls) sampleCalls := by decide +kernel
  exact ⟨hnever, by decide +kernel,
    (run_within fiveToolCalls sampleCalls hnever).1 .toolCalls 5 rfl⟩

/-! ## Conservation of a delegation -/

section Delegation

variable (id : String)

/-- The reserved amount of the outstanding reservations of a delegation. -/
def outstanding (l : BudgetLedger) (d : Dimension) : ℤ :=
  l.delegatedReservations.sumBy fun uuid id' =>
    if id' = id then (l.reservations.get? uuid).elim 0 fun r => r.reservedUsage.amount d else 0

def envelopeAmount (l : BudgetLedger) (d : Dimension) : ℤ :=
  (l.envelopes.get? id).elim 0 fun u => u.amount d

/-- The usage a call commits through a delegation: a `commit` of a stored reservation of it. -/
def committedThrough (l : BudgetLedger) (d : Dimension) : Call → ℤ
  | .commit r actual? _ =>
    if l.reservations.get? r.reservationId = some r ∧
        l.delegatedReservations.get? r.reservationId = some id then
      (actual?.getD r.reservedUsage).amount d
    else 0
  | _ => 0

/-- The usage a history commits through a delegation. -/
def spent (d : Dimension) : BudgetLedger → List Call → ℤ
  | _, [] => 0
  | l, call :: calls => committedThrough id l d call + spent d (Op.after call.op l) calls

/-- Between allocation and release: the delegation is not released, `uuid4` gives a fresh identity,
and a commit through the delegation is covered by its envelope and its own reservation. -/
def Ordinary (l : BudgetLedger) : Call → Prop
  | .reserve _ _ _ _ uuid _ _ =>
    uuid ∉ l.reservations.keys ∧ uuid ∉ l.delegatedReservations.keys
  | .commit r actual? _ => l.delegatedReservations.get? r.reservationId = some id →
    ∀ envelope ∈ l.envelopes.get? id, ∀ d,
      (actual?.getD r.reservedUsage).amount d ≤ envelope.amount d + r.reservedUsage.amount d
  | .release _ _ => True
  | .allocateDelegation _ _ _ => True
  | .releaseDelegation id' => id' ≠ id

/-- A release under the id of an outstanding reservation of the delegation presents the reservation
that is stored. -/
def Genuine (l : BudgetLedger) : Call → Prop
  | .release r _ => l.delegatedReservations.get? r.reservationId = some id →
    l.reservations.get? r.reservationId = some r
  | _ => True

/-- Every call of the history satisfies `P` where it is made. -/
def Throughout (P : BudgetLedger → Call → Prop) : BudgetLedger → List Call → Prop
  | _, [] => True
  | l, call :: calls => P l call ∧ Throughout P (Op.after call.op l) calls

instance (l : BudgetLedger) : ∀ call, Decidable (Ordinary id l call)
  | .reserve .. => inferInstanceAs (Decidable (_ ∧ _))
  | .commit .. => inferInstanceAs (Decidable (_ = _ → _))
  | .release .. => inferInstanceAs (Decidable True)
  | .allocateDelegation .. => inferInstanceAs (Decidable True)
  | .releaseDelegation .. => inferInstanceAs (Decidable (_ ≠ _))

instance (l : BudgetLedger) : ∀ call, Decidable (Genuine id l call)
  | .release .. => inferInstanceAs (Decidable (_ = _ → _))
  | .reserve .. | .commit .. | .allocateDelegation .. | .releaseDelegation .. =>
    inferInstanceAs (Decidable True)

instance instDecidableThroughout (P : BudgetLedger → Call → Prop) [∀ l call, Decidable (P l call)] :
    ∀ (l : BudgetLedger) (calls : List Call), Decidable (Throughout P l calls)
  | _, [] => inferInstanceAs (Decidable True)
  | l, call :: calls =>
    have := instDecidableThroughout P (Op.after call.op l) calls
    inferInstanceAs (Decidable (_ ∧ _))

structure Live (l : BudgetLedger) : Prop where
  covered : l.Covered
  envelope : id ∈ l.envelopes.keys
  stored : ∀ uuid, l.delegatedReservations.get? uuid = some id → uuid ∈ l.reservations.keys

variable {id}

variable {l l' : BudgetLedger}

/-- The outstanding usage depends on the reservations of the delegation alone. -/
theorem outstanding_eq (hdel : l'.delegatedReservations = l.delegatedReservations)
    (hres : ∀ uuid, l.delegatedReservations.get? uuid = some id →
      l'.reservations.get? uuid = l.reservations.get? uuid) (d : Dimension) :
    outstanding id l' d = outstanding id l d := by
  unfold outstanding
  rw [hdel]
  refine Dict.sumBy_congr fun uuid id' hid => ?_
  by_cases heq : id' = id
  · subst heq
    simp only [hres uuid hid]
  · simp [heq]

variable {r : BudgetReservation} {calls : List Call}

theorem outstanding_erase {uuid id' : String}
    (hdel : l'.delegatedReservations = l.delegatedReservations.erase uuid)
    (hres : l'.reservations = l.reservations.erase uuid)
    (hid : l.delegatedReservations.get? uuid = some id')
    (hr : l.reservations.get? uuid = some r) (d : Dimension) : outstanding id l' d =
      outstanding id l d - if id' = id then r.reservedUsage.amount d else 0 := by
  unfold outstanding
  have hsame : l'.delegatedReservations.sumBy (fun u i =>
        if i = id then (l'.reservations.get? u).elim 0 fun r => r.reservedUsage.amount d else 0) =
      (l.delegatedReservations.erase uuid).sumBy (fun u i =>
        if i = id then (l.reservations.get? u).elim 0 fun r => r.reservedUsage.amount d else 0) := by
    rw [hdel]
    refine Dict.sumBy_congr fun u i hu => ?_
    have hne : u ≠ uuid := by
      rintro rfl
      simp at hu
    simp [hres, hne]
  rw [hsame, Dict.sumBy_erase, hid]
  simp [hr]

theorem outstanding_set {uuid id' : String}
    (hdel : l'.delegatedReservations = l.delegatedReservations.set uuid id')
    (hres : l'.reservations = l.reservations.set uuid r)
    (hfresh : uuid ∉ l.delegatedReservations.keys) (d : Dimension) : outstanding id l' d =
      outstanding id l d + if id' = id then r.reservedUsage.amount d else 0 := by
  unfold outstanding
  have hnone : l.delegatedReservations.get? uuid = none := Dict.get?_eq_none_iff.mpr hfresh
  rw [hdel, Dict.sumBy_set, hnone, Option.elim_none, sub_zero]
  congr 1
  · refine Dict.sumBy_congr fun u i hu => ?_
    have hne : u ≠ uuid := by
      rintro rfl
      rw [hnone] at hu
      cases hu
    simp [hres, hne]
  · simp [hres]

/-- What a call takes out of the envelope and the outstanding reservations of a live delegation is
what it commits through it. -/
theorem Effect.conserves (h : Effect l call e? l') (hlive : Live id l) (hord : Ordinary id l call)
    (hgen : Genuine id l call) (d : Dimension) :
    envelopeAmount id l' d + outstanding id l' d + committedThrough id l d call =
      envelopeAmount id l d + outstanding id l d := by
  -- erasing a reservation that is not delegated to `id` is invisible to the delegation
  have hforeign : ∀ {uuid : String}, l.delegatedReservations.get? uuid ≠ some id →
      ∀ u, l.delegatedReservations.get? u = some id →
        (l.reservations.erase uuid).get? u = l.reservations.get? u := by
    intro uuid hne u hu
    rw [Dict.get?_erase, if_neg]
    rintro rfl
    exact hne hu
  have hquiet : envelopeAmount id l' d = envelopeAmount id l d →
      outstanding id l' d = outstanding id l d → committedThrough id l d call = 0 →
      envelopeAmount id l' d + outstanding id l' d + committedThrough id l d call =
        envelopeAmount id l d + outstanding id l d := by
    intro henv hout hzero
    rw [henv, hout, hzero, add_zero]
  cases h with
  | @rejected call _ _ hsettles =>
    refine hquiet rfl rfl ?_
    cases call with
    | commit r actual? reading => cases hsettles
    | _ => rfl
  | commitUnknown hmis => simp [committedThrough, hmis]
  | known => simp [committedThrough]
  | @allocated id' usage _ hfresh _ =>
    have hne : id ≠ id' := by
      rintro rfl
      exact hfresh hlive.envelope
    simp [committedThrough, envelopeAmount, outstanding, hne]
  | @delegationReleased id' _ =>
    have hne : id ≠ id' := fun heq => hord heq.symm
    simp [committedThrough, envelopeAmount, outstanding, hne]
  | @reserved usage type stepId uuid createdAt _ _ =>
    refine hquiet rfl (outstanding_eq (by rfl) (fun u hu => ?_) d) rfl
    rw [Dict.get?_set, if_neg]
    rintro rfl
    exact hord.2 (Dict.mem_keys_iff.mpr ⟨_, hu⟩)
  | @reservedDelegated usage available left _ id' _ uuid _ _ hfound hminus =>
    rw [outstanding_set (l := l) rfl rfl hord.2]
    have hleft := BudgetUsage.minus_amount hminus d
    by_cases hid : id' = id
    · subst hid
      simp only [committedThrough, envelopeAmount, Dict.get?_set, if_true, Option.elim_some, hfound]
      omega
    · simp [committedThrough, envelopeAmount, hid, Ne.symm hid]
  | @committedDelegated r actual? _ id' available actual hstored hdel hfound hused =>
    rw [outstanding_erase (l := l) rfl rfl hdel hstored]
    by_cases hid : id' = id
    · subst hid
      have hcover := hord hdel available hfound d
      simp only [committedThrough, hstored, hdel, and_self, if_true, envelopeAmount, Dict.get?_set,
        Option.elim_some, hfound, BudgetUsage.plus_amount, BudgetUsage.clampedMinus_amount, hused]
      omega
    · simp [committedThrough, envelopeAmount, hdel, hid, Ne.symm hid]
  | @committed r actual? _ actual hstored hroot hused _ =>
    exact hquiet rfl (outstanding_eq (by rfl) (hforeign (by simp [hroot])) d)
      (by simp [committedThrough, hroot])
  | @commitRestored r actual? _ e _ hstored hroot =>
    refine hquiet rfl (outstanding_eq (by rfl) (fun u hu => ?_) d) (by simp [committedThrough, hroot])
    by_cases heq : u = r.reservationId
    · simp [heq, hstored]
    · simp [heq]
  | @released r _ hstored hroot =>
    exact hquiet rfl (outstanding_eq (by rfl) (hforeign (by simp [hroot])) d) rfl
  | @releasedDelegated r _ id' envelope hstored hdel hfound =>
    rw [outstanding_erase (l := l) rfl rfl hdel hstored]
    by_cases hid : id' = id
    · subst hid
      simp only [committedThrough, envelopeAmount, Dict.get?_set, if_true, Option.elim_some, hfound,
        BudgetUsage.plus_amount]
      omega
    · simp [committedThrough, envelopeAmount, hid, Ne.symm hid]
  | @lost r _ hmismatch =>
    exact hquiet rfl (outstanding_eq (by rfl) (hforeign fun hdel => hmismatch (hgen hdel)) d) rfl

/-- A delegation stays live until it is released. -/
theorem Effect.live (h : Effect l call e? l') (hlive : Live id l) (hord : Ordinary id l call)
    (hgen : Genuine id l call) : Live id l' := by
  refine ⟨h.covered hlive.covered, ?_, ?_⟩
  · have hin := hlive.envelope
    cases h with
    | rejected | commitUnknown | known | reserved | committed | commitRestored | released | lost =>
      exact hin
    | allocated | reservedDelegated | committedDelegated | releasedDelegated =>
      exact Dict.mem_keys_set.mpr (Or.inr hin)
    | delegationReleased => exact Dict.mem_keys_erase.mpr ⟨fun heq => hord heq.symm, hin⟩
  · intro uuid hu
    have hin := hlive.stored uuid
    cases h with
    | rejected | commitUnknown | known | allocated | delegationReleased => exact hin hu
    | reserved => exact Dict.mem_keys_set.mpr (Or.inr (hin hu))
    | @reservedDelegated _ _ _ _ _ _ uuid' =>
      refine Dict.mem_keys_set.mpr ?_
      by_cases heq : uuid = uuid'
      · exact Or.inl heq
      · simp only [Dict.get?_set, heq, if_false] at hu
        exact Or.inr (hin hu)
    | committedDelegated | releasedDelegated =>
      simp only [Dict.get?_erase] at hu
      split_ifs at hu with heq
      exact Dict.mem_keys_erase.mpr ⟨heq, hin hu⟩
    | committed _ hroot _ _ | released _ hroot =>
      refine Dict.mem_keys_erase.mpr ⟨?_, hin hu⟩
      rintro rfl
      rw [hroot] at hu
      cases hu
    | @commitRestored r =>
      by_cases heq : uuid = r.reservationId
      · exact Dict.mem_keys_set.mpr (Or.inl heq)
      · exact Dict.mem_keys_set.mpr (Or.inr (Dict.mem_keys_erase.mpr ⟨heq, hin hu⟩))
    | lost hmismatch =>
      refine Dict.mem_keys_erase.mpr ⟨?_, hin hu⟩
      rintro rfl
      exact hmismatch (hgen hu)

theorem run_live (hlive : Live id l)
    (hord : Throughout (Ordinary id) l calls) (hgen : Throughout (Genuine id) l calls) :
    Live id (run l calls) := by
  induction calls generalizing l with
  | nil => exact hlive
  | cons call _ ih =>
    have heffect := effect_of_call hlive.covered call
    exact ih (heffect.live hlive hord.1 hgen.1) hord.2 hgen.2

/-- What a live delegation was given is spent, reserved or left, over any calls. -/
theorem run_conserves (hlive : Live id l)
    (hord : Throughout (Ordinary id) l calls) (hgen : Throughout (Genuine id) l calls)
    (d : Dimension) :
    envelopeAmount id (run l calls) d + outstanding id (run l calls) d + spent id d l calls =
      envelopeAmount id l d + outstanding id l d := by
  induction calls generalizing l with
  | nil => exact add_zero _
  | cons call calls ih =>
    have heffect := effect_of_call hlive.covered call
    have hstep := heffect.conserves hlive hord.1 hgen.1 d
    have hrest := ih (heffect.live hlive hord.1 hgen.1) hord.2 hgen.2
    show envelopeAmount id (run (Op.after call.op l) calls) d +
      outstanding id (run (Op.after call.op l) calls) d +
      (committedThrough id l d call + spent id d (Op.after call.op l) calls) = _
    omega

/-- A delegation that was just allocated is live. -/
theorem allocate_live {reading : BudgetReading} (hc : l.Covered) (hfresh : id ∉ l.envelopes.keys)
    (hok : Op.error? (allocateDelegation id usage reading) l = none) :
    Live id (Op.after (allocateDelegation id usage reading) l) ∧ ∀ d,
      envelopeAmount id (Op.after (allocateDelegation id usage reading) l) d = usage.amount d ∧
      outstanding id (Op.after (allocateDelegation id usage reading) l) d = 0 := by
  have heffect : Effect l (.allocateDelegation id usage reading) none
      (Op.after (allocateDelegation id usage reading) l) := by
    rw [← hok]
    exact effect_of_call hc (.allocateDelegation id usage reading)
  have hidle : ∀ uuid, l.delegatedReservations.get? uuid ≠ some id :=
    fun uuid hu => hfresh (hc uuid id hu)
  generalize Op.after (allocateDelegation id usage reading) l = l' at heffect
  cases heffect with
  | known h => exact absurd h hfresh
  | allocated =>
    refine ⟨⟨fun uuid id' hu => Dict.mem_keys_set.mpr (Or.inr (hc uuid id' hu)),
      Dict.mem_keys_set.mpr (Or.inl rfl), fun uuid hu => absurd hu (hidle uuid)⟩, fun d => ⟨?_, ?_⟩⟩
    · simp [envelopeAmount]
    · have hzero : outstanding id l d = l.delegatedReservations.sumBy (fun _ _ => (0 : ℤ)) := by
        refine Dict.sumBy_congr fun uuid id' hu => if_neg ?_
        rintro rfl
        exact hidle uuid hu
      have : l.delegatedReservations.sumBy (fun _ _ => (0 : ℤ)) = 0 := by simp [Dict.sumBy]
      exact (hzero.trans this : outstanding id l d = 0)

/-- The conservation law of a delegation: the allocation is the envelope, the outstanding
reservations and what was committed; giving it back frees exactly the envelope for the root, and is
refused only while a reservation of the delegation is outstanding. -/
structure Conserved (id : String) (usage : BudgetUsage) (start : BudgetLedger)
    (calls : List Call) : Prop where
  sum : ∀ d, usage.amount d = envelopeAmount id (run start calls) d +
    outstanding id (run start calls) d + spent id d start calls
  freed : ∀ l', releaseDelegation id (run start calls) = .ok () l' →
    l'.budget = (run start calls).budget ∧ l'.committed = (run start calls).committed ∧
      ∀ d, l'.reserved.amount d + envelopeAmount id (run start calls) d =
        (run start calls).reserved.amount d
  refused : ∀ e l', releaseDelegation id (run start calls) = .error e l' →
    ∃ uuid r, (run start calls).delegatedReservations.get? uuid = some id ∧
      (run start calls).reservations.get? uuid = some r

/-- **Conservation of a delegation.**  From any reachable ledger, between the allocation of a
delegation and its release: if every release under the id of one of its outstanding reservations
presents the stored reservation, the law holds in every state. -/
theorem delegation_conserved (budget : RunBudget) (before : List Call) (id : String)
    (usage : BudgetUsage) (reading : BudgetReading)
    (hfresh : id ∉ (run (new budget) before).envelopes.keys)
    (hok : Op.error? (allocateDelegation id usage reading) (run (new budget) before) = none)
    (calls : List Call) (hord : Throughout (Ordinary id)
      (Op.after (allocateDelegation id usage reading) (run (new budget) before)) calls)
    (hgen : Throughout (Genuine id)
      (Op.after (allocateDelegation id usage reading) (run (new budget) before)) calls) :
    Conserved id usage
      (Op.after (allocateDelegation id usage reading) (run (new budget) before)) calls := by
  have hc : (run (new budget) before).Covered := run_covered before (covered_new budget)
  obtain ⟨hlive, hstart⟩ := allocate_live hc hfresh hok
  generalize Op.after (allocateDelegation id usage reading) (run (new budget) before) = start
    at hord hgen hlive hstart
  have hend := run_live hlive hord hgen
  refine ⟨fun d => ?_, fun l' hrel => ?_, fun e l' hrel => ?_⟩
  · have hsum := run_conserves hlive hord hgen d
    rw [(hstart d).1, (hstart d).2] at hsum
    omega
  · have heffect := effect_releaseDelegation (run start calls) id
    rw [hrel] at heffect
    cases heffect with
    | delegationReleased =>
      refine ⟨rfl, rfl, fun d => ?_⟩
      rw [reserved_amount, reserved_amount]
      simp only [Dict.sumBy_erase, envelopeAmount]
      omega
  · have hin : id ∈ (run start calls).delegatedReservations.values := by
      by_contra hnot
      have : releaseDelegation id (run start calls) = .ok () { run start calls with
          envelopes := (run start calls).envelopes.erase id } := by
        simp [releaseDelegation, raiseIf, hnot]
      rw [hrel] at this
      cases this
    obtain ⟨uuid, hu⟩ := Dict.mem_values_iff.mp hin
    obtain ⟨r, hr⟩ := Dict.mem_keys_iff.mp (hend.stored uuid hu)
    exact ⟨uuid, r, hu, hr⟩

end Delegation

/-- The delegation of the sample history, allocated first, is conserved through the rest of it. -/
theorem delegation_conserved_sample :
    Conserved "d" (toolCalls 3)
      (Op.after (allocateDelegation "d" (toolCalls 3) startReading) (run (new fiveToolCalls) []))
      sampleCalls.tail :=
  delegation_conserved fiveToolCalls [] "d" (toolCalls 3) startReading (by decide +kernel)
    (by decide +kernel) sampleCalls.tail (by decide +kernel) (by decide +kernel)

/-- The reservation "u1" of two tool calls, and a copy of it that differs in its amount. -/
def lossyCalls : List Call :=
  [.reserve (toolCalls 2) "tool" none (some "d") "u1" (.epochSecond 1) startReading,
    .release ⟨"u1", "tool", none, toolCalls 1, .epochSecond 1⟩ startReading]

/-- A release that presents another reservation under the same id raises, but the stored
reservation is gone: of the three calls allocated only one is accounted for, and the delegation can
never be given back although nothing of it is outstanding. -/
theorem release_loses_reservation :
    Throughout (Ordinary "d")
      (Op.after (allocateDelegation "d" (toolCalls 3) startReading) (new fiveToolCalls))
      lossyCalls ∧
    ¬ Conserved "d" (toolCalls 3)
      (Op.after (allocateDelegation "d" (toolCalls 3) startReading) (new fiveToolCalls))
      lossyCalls := by
  refine ⟨by decide +kernel, fun h => ?_⟩
  have hsum := h.sum .toolCalls
  revert hsum
  decide +kernel

end BudgetLedger

end LocalAgent.Runtime
