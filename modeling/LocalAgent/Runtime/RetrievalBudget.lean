import LocalAgent.Lib.Trace
import LocalAgent.Runtime.BudgetRuns

/-!
# LocalAgent.Runtime.RetrievalBudget — the charges of `core/runtime/retrieval_execution.py`

`RetrievalExecutor._invoke_budgeted` reserves the usage of a blocking operation, hands a worker the
operation with the charge in front of it and waits.  The worker commits under a lock of the call;
whoever waits releases, under the same lock, what is not committed when it leaves.

* `BudgetedCall.step`: one section of the waiter, of the worker, or a ledger call of somebody else.
* `invoke_budgeted_settles`: whatever the order, the reservation is settled exactly once when the
  call is left, and the operation runs exactly when the reservation was committed.
-/

namespace LocalAgent.Runtime

/-! ## The call -/

inductive Settlement where
  | reserved | committed | released
  deriving DecidableEq

/-- How `_invoke_budgeted` ends. -/
inductive BudgetedExit where
  | returned | raised
  deriving DecidableEq

/-- Where the thread of `_invoke_budgeted` is. -/
inductive WaiterPhase where
  /-- before the reservation -/
  | entered
  /-- in the `try`, before `raise_if_cancelled` -/
  | reserved
  /-- in `_submit_blocking` -/
  | submitting
  /-- in `_wait_future` -/
  | waiting
  /-- before the `finally` -/
  | leaving (exit : BudgetedExit)
  | done (exit : BudgetedExit)
  deriving DecidableEq

inductive WorkerPhase where
  | unscheduled
  /-- queued in the thread pool -/
  | scheduled
  /-- `Future.cancel` came first -/
  | cancelled
  /-- before the lock of `budgeted_operation` -/
  | running
  /-- past the lock, before `operation()` -/
  | charged
  | operating
  /-- `operation()` has returned or raised -/
  | finished
  /-- refused after the release, or the commit has raised -/
  | failed
  deriving DecidableEq

/-- The worker has taken the charge. -/
def WorkerPhase.isCharged : WorkerPhase → Bool
  | .charged | .operating | .finished => true
  | _ => false

/-- What an observer writes down. -/
inductive ChargeEvent where
  | committed | released
  /-- `operation()` is called -/
  | operated
  deriving DecidableEq

/-- One call of `_invoke_budgeted` and the ledger it shares with others. -/
structure BudgetedCall where
  ledger : BudgetLedger
  reservation : Option BudgetReservation
  settlement : Settlement
  waiter : WaiterPhase
  worker : WorkerPhase
  history : List ChargeEvent

/-- The ledger call is about the reservation `reservationId`. -/
def BudgetLedger.Call.touches (reservationId : String) : BudgetLedger.Call → Bool
  | .reserve _ _ _ _ uuid _ _ => uuid = reservationId
  | .commit reservation _ _ | .release reservation _ => reservation.reservationId = reservationId
  | .allocateDelegation .. | .releaseDelegation _ => false

variable {usage : BudgetUsage} {stepId : Option String} {createdAt : DateTime}
  {reading : BudgetReading}

namespace BudgetLedger

variable {l : BudgetLedger} {r : BudgetReservation}

/-! ## Reservations without a delegation -/

theorem reserve_root {type uuid : String} {l' : BudgetLedger}
    (h : reserve usage type stepId none uuid createdAt reading l = .ok r l') :
    r.reservationId = uuid ∧ r.reservedUsage = usage ∧
      l' = { l with reservations := l.reservations.set uuid r } := by
  unfold reserve at h
  rw [Op.get_bind_apply] at h
  obtain ⟨_, -, h⟩ := Op.lift_bind_ok_iff.mp h
  obtain ⟨_, -, h⟩ := Op.lift_bind_ok_iff.mp h
  cases h
  exact ⟨rfl, rfl, rfl⟩

theorem commit_root (hc : l.Covered) (hstored : l.reservations.get? r.reservationId = some r)
    (hroot : l.delegatedReservations.get? r.reservationId = none) (actual? : Option BudgetUsage)
    (reading : BudgetReading) :
    (∃ snap l', commit r actual? reading l = .ok snap l' ∧
      l' = { l with
        committed := l.committed.plus (actual?.getD r.reservedUsage)
        reservations := l.reservations.erase r.reservationId } ∧ l'.Covered) ∨
    ∃ e l', commit r actual? reading l = .error e l' ∧
      l' = { l with
        reservations := (l.reservations.erase r.reservationId).set r.reservationId r } ∧
      l'.Covered := by
  unfold commit
  rw [Op.get_bind_apply]
  simp only [raiseIf, hstored, ne_eq, not_true, if_false, Op.lift_ok, Op.pure_bind_apply, hroot]
  cases guardLimits { l with reservations := l.reservations.erase r.reservationId }
      (actual?.getD r.reservedUsage)
      (snapshotLocked { l with
        reservations := (l.reservations.erase r.reservationId).set r.reservationId r } reading) with
  | error e => exact .inr ⟨e, _, rfl, rfl, hc⟩
  | ok => exact .inl ⟨_, _, rfl, rfl, hc⟩

theorem release_root (hc : l.Covered) (hstored : l.reservations.get? r.reservationId = some r)
    (hroot : l.delegatedReservations.get? r.reservationId = none) (reading : BudgetReading) :
    ∃ snap l', release r reading l = .ok snap l' ∧
      l' = { l with reservations := l.reservations.erase r.reservationId } ∧ l'.Covered := by
  unfold release
  rw [Op.get_bind_apply, Op.set_bind_apply]
  simp only [raiseIf, hstored, ne_eq, not_true, if_false, Op.lift_ok, Op.pure_bind_apply, hroot]
  exact ⟨_, _, rfl, rfl, hc⟩

end BudgetLedger

namespace BudgetedCall

/-- A call that has just been made. -/
def new (ledger : BudgetLedger) : BudgetedCall :=
  ⟨ledger, none, .reserved, .entered, .unscheduled, []⟩

inductive Action where
  /-- `timeout_seconds <= 0` -/
  | noTime
  /-- `reserve`, with the fresh identity of the reservation -/
  | reserve (usage : BudgetUsage) (reservationType : String) (stepId : Option String)
      (uuid : String) (createdAt : DateTime) (reading : BudgetReading)
  /-- the first `raise_if_cancelled` -/
  | checkCancelled (cancelled : Bool)
  /-- the thread pool has the operation -/
  | schedule
  /-- `_submit_blocking` returns the handle -/
  | submitted
  | admissionFailed
  /-- timeout, cancellation or another failure while waiting: `cancel_or_detach` -/
  | giveUp
  /-- `future.result` returns; then `raise_if_cancelled` -/
  | result (cancelled : Bool)
  /-- `future.result` raises what the worker has raised -/
  | failure
  /-- the `finally` -/
  | leave (reading : BudgetReading)
  /-- a thread of the pool takes the operation -/
  | start
  /-- the locked section of `budgeted_operation` -/
  | charge (reading : BudgetReading)
  | operate
  | finish
  /-- somebody else uses the ledger -/
  | foreign (call : BudgetLedger.Call)

/-- `cancel_or_detach`: only a queued operation can be cancelled. -/
def cancelOrDetach : WorkerPhase → WorkerPhase
  | .scheduled => .cancelled
  | worker => worker

/-- The reservation that is outstanding is made through `budget_ledger.reserve`. -/
def reserveStep (s : BudgetedCall) (usage : BudgetUsage) (reservationType : String)
    (stepId : Option String) (uuid : String) (createdAt : DateTime) (reading : BudgetReading) :
    BudgetedCall :=
  match BudgetLedger.reserve usage reservationType stepId none uuid createdAt reading s.ledger with
  | .ok reservation ledger =>
    { s with ledger := ledger, reservation := some reservation, waiter := .reserved }
  | .error _ ledger => { s with ledger := ledger, waiter := .done .raised }

/-- The `finally`: what is still reserved is released. -/
def leaveStep (s : BudgetedCall) (reservation : BudgetReservation) (exit : BudgetedExit)
    (reading : BudgetReading) : BudgetedCall :=
  if s.settlement = .reserved then
    match BudgetLedger.release reservation reading s.ledger with
    | .ok _ ledger =>
      { s with
        ledger := ledger
        settlement := .released
        waiter := .done exit
        history := s.history ++ [.released] }
    | .error _ ledger => { s with ledger := ledger, waiter := .done .raised }
  else { s with waiter := .done exit }

/-- The locked section of `budgeted_operation`; the usage of the reservation is the actual one. -/
def chargeStep (s : BudgetedCall) (reservation : BudgetReservation) (reading : BudgetReading) :
    BudgetedCall :=
  if s.settlement = .released then { s with worker := .failed }
  else
    match BudgetLedger.commit reservation (some reservation.reservedUsage) reading s.ledger with
    | .ok _ ledger =>
      { s with
        ledger := ledger
        settlement := .committed
        worker := .charged
        history := s.history ++ [.committed] }
    | .error _ ledger => { s with ledger := ledger, worker := .failed }

/-- One section; `none` when it is not the next one of its thread, or when an identity is not new
or not somebody else's. -/
def step (s : BudgetedCall) : Action → Option BudgetedCall
  | .noTime => if s.waiter = .entered then some { s with waiter := .done .raised } else none
  | .reserve usage type stepId uuid createdAt reading =>
    if s.waiter = .entered ∧ uuid ∉ s.ledger.reservations.keys ∧
        uuid ∉ s.ledger.delegatedReservations.keys then
      some (s.reserveStep usage type stepId uuid createdAt reading)
    else none
  | .checkCancelled cancelled =>
    if s.waiter = .reserved then
      some { s with waiter := if cancelled then .leaving .raised else .submitting }
    else none
  | .schedule =>
    if s.waiter = .submitting ∧ s.worker = .unscheduled then some { s with worker := .scheduled }
    else none
  | .submitted =>
    if s.waiter = .submitting ∧ s.worker ≠ .unscheduled then some { s with waiter := .waiting }
    else none
  | .admissionFailed =>
    if s.waiter = .submitting then some { s with waiter := .leaving .raised } else none
  | .giveUp =>
    if s.waiter = .waiting then
      some { s with worker := cancelOrDetach s.worker, waiter := .leaving .raised }
    else none
  | .result cancelled =>
    if s.waiter = .waiting ∧ s.worker = .finished then
      some { s with waiter := .leaving (if cancelled then .raised else .returned) }
    else none
  | .failure =>
    if s.waiter = .waiting ∧ (s.worker = .finished ∨ s.worker = .failed) then
      some { s with waiter := .leaving .raised }
    else none
  | .leave reading =>
    match s.waiter, s.reservation with
    | .leaving exit, some reservation => some (s.leaveStep reservation exit reading)
    | _, _ => none
  | .start => if s.worker = .scheduled then some { s with worker := .running } else none
  | .charge reading =>
    match s.worker, s.reservation with
    | .running, some reservation => some (s.chargeStep reservation reading)
    | _, _ => none
  | .operate =>
    if s.worker = .charged then
      some { s with worker := .operating, history := s.history ++ [.operated] }
    else none
  | .finish => if s.worker = .operating then some { s with worker := .finished } else none
  | .foreign call =>
    if s.reservation.any fun r => call.touches r.reservationId then none
    else some { s with ledger := Op.after call.op s.ledger }

/-! ## The ledger -/

variable {call : BudgetLedger.Call} {phase : WorkerPhase}

/-- A ledger call under another identifier leaves the reservation as it is. -/
theorem frame_of_effect {l l' : BudgetLedger} {e? : Option BudgetError}
    {id : String} (h : BudgetLedger.Effect l call e? l') (hid : call.touches id = false) :
    l'.reservations.get? id = l.reservations.get? id ∧
      l'.delegatedReservations.get? id = l.delegatedReservations.get? id := by
  cases h with
  | rejected | commitUnknown | known | allocated | delegationReleased => exact ⟨rfl, rfl⟩
  | reserved | reservedDelegated | committedDelegated | committed | commitRestored | released
  | releasedDelegated | lost =>
    have hne := of_decide_eq_false hid
    simp [Ne.symm hne]

/-! ## The invariant -/

/-- What the observer has written, from the settlement and the worker alone. -/
def expected (settlement : Settlement) (worker : WorkerPhase) : List ChargeEvent :=
  match settlement with
  | .reserved => []
  | .released => [.released]
  | .committed => if worker = .charged then [.committed] else [.committed, .operated]

structure Inv (s : BudgetedCall) : Prop where
  covered : s.ledger.Covered
  history : s.history = expected s.settlement s.worker
  stored : ∀ r ∈ s.reservation, s.ledger.delegatedReservations.get? r.reservationId = none ∧
    s.ledger.reservations.get? r.reservationId = if s.settlement = .reserved then some r else none
  charged : s.settlement = .committed ↔ s.worker.isCharged = true
  unmade : s.reservation = none → s.settlement = .reserved ∧ s.worker = .unscheduled ∧
    (s.waiter = .entered ∨ s.waiter = .done .raised)
  made : s.reservation ≠ none → s.waiter ≠ .entered
  ended : s.reservation ≠ none → ∀ exit, s.waiter = .done exit → s.settlement ≠ .reserved

theorem inv_new {ledger : BudgetLedger} (h : ledger.Covered) : Inv (new ledger) where
  covered := h
  history := rfl
  stored _ h := nomatch h
  charged := iff_of_false (by simp [new]) (by simp [new, WorkerPhase.isCharged])
  unmade _ := ⟨rfl, rfl, .inl rfl⟩
  made h := absurd rfl h
  ended h := absurd rfl h

variable {s s' : BudgetedCall}

section

variable (h : Inv s)
include h

/-- A step of the waiter that settles nothing. -/
theorem Inv.moveWaiter {phase : WaiterPhase} (hmade : s.reservation ≠ none)
    (hphase : ∀ exit, phase ≠ .done exit) (hentered : phase ≠ .entered) :
    Inv { s with waiter := phase } where
  covered := h.covered
  history := h.history
  stored := h.stored
  charged := h.charged
  unmade hnone := absurd hnone hmade
  made _ := hentered
  ended _ exit he := absurd he (hphase exit)

/-- A step of the worker that settles nothing. -/
theorem Inv.moveWorker (hmade : s.reservation ≠ none)
    (hcharged : phase.isCharged = s.worker.isCharged)
    (hhistory : expected s.settlement phase = expected s.settlement s.worker) :
    Inv { s with worker := phase } where
  covered := h.covered
  history := h.history.trans hhistory.symm
  stored := h.stored
  charged := by
    show s.settlement = .committed ↔ phase.isCharged = true
    rw [hcharged]
    exact h.charged
  unmade hnone := absurd hnone hmade
  made := h.made
  ended := h.ended

theorem expected_of_not_charged (hworker : s.worker.isCharged = false) :
    expected s.settlement phase = expected s.settlement s.worker := by
  have hne : s.settlement ≠ .committed := by
    intro he
    rw [h.charged.mp he] at hworker
    cases hworker
  cases hs : s.settlement with
  | committed => exact absurd hs hne
  | reserved => rfl
  | released => rfl

theorem Inv.reservation_of_waiter (hentered : s.waiter ≠ .entered)
    (hdone : ∀ exit, s.waiter ≠ .done exit) : s.reservation ≠ none := by
  intro hnone
  rcases (h.unmade hnone).2.2 with hw | hw
  · exact hentered hw
  · exact hdone _ hw

theorem Inv.reservation_of_worker (hworker : s.worker ≠ .unscheduled) : s.reservation ≠ none :=
  fun hnone => hworker (h.unmade hnone).2.1

/-- The reservation that the waiter makes on entry. -/
theorem Inv.reserveStep (hentered : s.waiter = .entered) {type uuid : String}
    (hfresh : uuid ∉ s.ledger.delegatedReservations.keys) :
    Inv (s.reserveStep usage type stepId uuid createdAt reading) := by
  have hnone : s.reservation = none := by
    by_contra hmade
    exact h.made hmade hentered
  obtain ⟨hsettlement, hworker, -⟩ := h.unmade hnone
  have heffect := BudgetLedger.effect_reserve s.ledger usage type stepId none uuid createdAt reading
  unfold BudgetedCall.reserveStep
  cases hr : BudgetLedger.reserve usage type stepId none uuid createdAt reading s.ledger with
  | error =>
    rw [hr] at heffect
    refine ⟨heffect.covered h.covered, h.history, ?_, h.charged, ?_, ?_, ?_⟩
    · intro r hr'
      rw [show s.reservation = none from hnone] at hr'
      cases hr'
    · exact fun _ => ⟨hsettlement, hworker, .inr rfl⟩
    all_goals exact fun hmade => absurd hnone hmade
  | ok r =>
    obtain ⟨hid, -, rfl⟩ := BudgetLedger.reserve_root hr
    refine ⟨h.covered, h.history, ?_, h.charged, ?_, ?_, ?_⟩
    · intro _ hr'
      cases Option.mem_some_iff.mp hr'
      refine ⟨by rw [hid]; exact Dict.get?_eq_none_iff.mpr hfresh, ?_⟩
      show _ = if s.settlement = .reserved then some r else none
      rw [if_pos hsettlement, hid]
      simp
    · rintro ⟨⟩
    · exact fun _ => by simp
    · exact fun _ exit he => by cases he

/-- The waiter leaves; a reservation that is still open is released. -/
theorem Inv.leaveStep {r : BudgetReservation} {exit : BudgetedExit}
    (hr : s.reservation = some r) (reading : BudgetReading) : Inv (s.leaveStep r exit reading) := by
  obtain ⟨hdelegated, hstored⟩ := h.stored r hr
  have hmade : s.reservation ≠ none := by simp [hr]
  unfold BudgetedCall.leaveStep
  split_ifs with hs
  · rw [if_pos hs] at hstored
    obtain ⟨_, _, hok, rfl, hcovered⟩ :=
      BudgetLedger.release_root h.covered hstored hdelegated reading
    rw [hok]
    refine ⟨hcovered, ?_, ?_, ?_, ?_, fun _ => by simp, fun _ _ _ => by simp⟩
    · show s.history ++ [.released] = _
      rw [h.history, hs]
      rfl
    · intro _ hr'
      cases hr.symm.trans hr'
      exact ⟨hdelegated, by simp⟩
    · refine iff_of_false (by simp) ?_
      intro hcharged
      rw [h.charged.mpr hcharged] at hs
      cases hs
    · exact fun hnone => absurd hnone hmade
  · exact ⟨h.covered, h.history, h.stored, h.charged, fun hnone => absurd hnone hmade,
      fun _ => by simp, fun _ _ _ => hs⟩

/-- The charge is taken and written down, or the worker fails and the reservation is where it was. -/
theorem Inv.chargeStep {r : BudgetReservation} (hr : s.reservation = some r)
    (hworker : s.worker = .running) (reading : BudgetReading) : Inv (s.chargeStep r reading) := by
  obtain ⟨hdelegated, hstored⟩ := h.stored r hr
  have hmade : s.reservation ≠ none := by simp [hr]
  have huncharged : s.settlement ≠ .committed := by
    intro he
    have := h.charged.mp he
    rw [hworker] at this
    cases this
  unfold BudgetedCall.chargeStep
  split_ifs with hs
  · exact h.moveWorker hmade (by rw [hworker]; rfl)
      (expected_of_not_charged h (by rw [hworker]; rfl))
  · have hreserved : s.settlement = .reserved := by
      cases hcase : s.settlement with
      | reserved => rfl
      | committed => exact absurd hcase huncharged
      | released => exact absurd hcase hs
    rw [if_pos hreserved] at hstored
    rcases BudgetLedger.commit_root h.covered hstored hdelegated (some r.reservedUsage) reading with
      ⟨snap, ledger, hc, rfl, hcovered⟩ | ⟨e, ledger, hc, rfl, hcovered⟩
    · rw [hc]
      refine ⟨hcovered, ?_, ?_, ?_, fun hnone => absurd hnone hmade, h.made, fun _ _ _ => by simp⟩
      · show s.history ++ [.committed] = _
        rw [h.history, hreserved]
        rfl
      · intro r' hr'
        cases hr.symm.trans hr'
        exact ⟨hdelegated, by simp⟩
      · simp [WorkerPhase.isCharged]
    · rw [hc]
      refine ⟨hcovered, ?_, ?_, ?_, fun hnone => absurd hnone hmade, h.made, h.ended⟩
      · show s.history = expected s.settlement .failed
        rw [h.history, hreserved]
        rfl
      · intro _ hr'
        cases hr.symm.trans hr'
        refine ⟨hdelegated, ?_⟩
        show _ = if s.settlement = .reserved then some r else none
        rw [if_pos hreserved]
        simp
      · exact iff_of_false huncharged (by simp [WorkerPhase.isCharged])

/-- What other calls do to the ledger. -/
theorem Inv.foreign
    (hforeign : ¬ (s.reservation.any fun r => call.touches r.reservationId) = true) :
    Inv { s with ledger := Op.after call.op s.ledger } := by
  have heffect := BudgetLedger.effect_of_call h.covered call
  refine ⟨heffect.covered h.covered, h.history, ?_, h.charged, h.unmade, h.made, h.ended⟩
  intro r hr
  have htouches : call.touches r.reservationId = false := by
    rw [Option.mem_def.mp hr] at hforeign
    simpa using hforeign
  obtain ⟨hreservations, hdelegated⟩ := frame_of_effect heffect htouches
  exact ⟨hdelegated.trans (h.stored r hr).1, hreservations.trans (h.stored r hr).2⟩

end

theorem inv_step {action : Action} (h : s.step action = some s') (hs : Inv s) : Inv s' := by
  cases action with
  | noTime =>
    simp only [step] at h
    split_ifs at h with hw
    cases h
    have hnone : s.reservation = none := by
      by_contra hmade
      exact hs.made hmade hw
    obtain ⟨hsettlement, hworker, -⟩ := hs.unmade hnone
    exact ⟨hs.covered, hs.history, hs.stored, hs.charged,
      fun _ => ⟨hsettlement, hworker, .inr rfl⟩, fun hmade => absurd hnone hmade,
      fun hmade => absurd hnone hmade⟩
  | reserve =>
    simp only [step] at h
    split_ifs at h with hw
    cases h
    exact hs.reserveStep hw.1 hw.2.2
  | checkCancelled =>
    simp only [step] at h
    split_ifs at h with hw hcancelled
    all_goals
      cases h
      have hmade := hs.reservation_of_waiter (by simp [hw]) (by simp [hw])
      exact hs.moveWaiter hmade (by simp) (by simp)
  | schedule =>
    simp only [step] at h
    split_ifs at h with hw
    cases h
    have hmade := hs.reservation_of_waiter (by simp [hw.1]) (by simp [hw.1])
    exact hs.moveWorker hmade (by rw [hw.2]; rfl) (expected_of_not_charged hs (by rw [hw.2]; rfl))
  | submitted | failure =>
    simp only [step] at h
    split_ifs at h with hw
    cases h
    have hmade := hs.reservation_of_waiter (by simp [hw.1]) (by simp [hw.1])
    exact hs.moveWaiter hmade (by simp) (by simp)
  | admissionFailed =>
    simp only [step] at h
    split_ifs at h with hw
    cases h
    have hmade := hs.reservation_of_waiter (by simp [hw]) (by simp [hw])
    exact hs.moveWaiter hmade (by simp) (by simp)
  | giveUp =>
    simp only [step] at h
    split_ifs at h with hw
    cases h
    have hmade := hs.reservation_of_waiter (by simp [hw]) (by simp [hw])
    have hcancel : Inv { s with worker := cancelOrDetach s.worker } := by
      by_cases hscheduled : s.worker = .scheduled
      · refine hs.moveWorker hmade (by rw [hscheduled]; rfl) ?_
        exact expected_of_not_charged hs (by rw [hscheduled]; rfl)
      · have hsame : cancelOrDetach s.worker = s.worker := by
          unfold cancelOrDetach
          split
          · rename_i hcase
            exact absurd hcase hscheduled
          · rfl
        rwa [hsame]
    exact hcancel.moveWaiter hmade (by simp) (by simp)
  | result =>
    simp only [step] at h
    split_ifs at h with hw hcancelled
    all_goals
      cases h
      have hmade := hs.reservation_of_waiter (by simp [hw.1]) (by simp [hw.1])
      exact hs.moveWaiter hmade (by simp) (by simp)
  | leave reading =>
    simp only [step] at h
    split at h
    · rename_i exit r hwaiter hr
      cases h
      exact hs.leaveStep hr reading
    · cases h
  | start =>
    simp only [step] at h
    split_ifs at h with hw
    cases h
    have hmade := hs.reservation_of_worker (by simp [hw])
    exact hs.moveWorker hmade (by rw [hw]; rfl) (expected_of_not_charged hs (by rw [hw]; rfl))
  | charge reading =>
    simp only [step] at h
    split at h
    · rename_i r hworker hr
      cases h
      exact hs.chargeStep hr hworker reading
    · cases h
  | operate =>
    simp only [step] at h
    split_ifs at h with hw
    cases h
    have hmade := hs.reservation_of_worker (by simp [hw])
    have hcommitted := hs.charged.mpr (by rw [hw]; rfl)
    refine ⟨hs.covered, ?_, hs.stored, ?_, fun hnone => absurd hnone hmade, hs.made, hs.ended⟩
    · show s.history ++ [.operated] = expected s.settlement .operating
      rw [hs.history, hcommitted, hw]
      rfl
    · exact iff_of_true hcommitted rfl
  | finish =>
    simp only [step] at h
    split_ifs at h with hw
    cases h
    have hmade := hs.reservation_of_worker (by simp [hw])
    refine hs.moveWorker hmade (by rw [hw]; rfl) ?_
    rw [hw]
    cases s.settlement <;> rfl
  | foreign =>
    simp only [step] at h
    split_ifs at h with hforeign
    cases h
    exact hs.foreign hforeign

/-! ## Every order of the sections -/

/-- What is owed to the ledger and to the adapter. -/
structure ChargedOnce (s : BudgetedCall) : Prop where
  /-- once the call is left, its reservation is settled, and once only -/
  settled : ∀ exit, s.waiter = .done exit → ∀ r ∈ s.reservation,
    s.history.count .committed + s.history.count .released = 1 ∧
      s.ledger.reservations.get? r.reservationId = none
  /-- unless the worker is just between the two, it has run what was charged and nothing else -/
  operates : s.worker ≠ .charged →
    (ChargeEvent.operated ∈ s.history ↔ ChargeEvent.committed ∈ s.history)
  /-- the operation comes after the charge and never after a release -/
  ordered : Trace.EachAfter (fun before e => e = .operated →
    ChargeEvent.committed ∈ before ∧ ChargeEvent.released ∉ before) s.history
  /-- a worker that failed, by a commit that has raised or a release that came first, leaves a
  released reservation behind -/
  failed : s.worker = .failed → ∀ exit, s.waiter = .done exit → s.history = [.released]

/-- The reservation is charged once and by one of the two. -/
theorem Inv.chargedOnce (h : Inv s) : ChargedOnce s where
  settled exit hdone r hr := by
    have hmade : s.reservation ≠ none := by simp [Option.mem_def.mp hr]
    have hne := h.ended hmade exit hdone
    constructor
    · rw [h.history]
      cases hs : s.settlement with
      | reserved => exact absurd hs hne
      | released => rfl
      | committed =>
        unfold expected
        split_ifs <;> rfl
    · rw [(h.stored r hr).2, if_neg hne]
  operates hworker := by
    rw [h.history]
    cases s.settlement with
    | reserved | released => simp [expected]
    | committed => simp [expected, hworker]
  ordered := by
    rw [h.history]
    cases s.settlement with
    | reserved => exact Trace.eachAfter_nil
    | released => exact Trace.eachAfter_nil.snoc fun he => nomatch he
    | committed =>
      have hcommitted := (Trace.eachAfter_nil (P := fun before e => e = ChargeEvent.operated →
        ChargeEvent.committed ∈ before ∧ ChargeEvent.released ∉ before)).snoc
          (a := ChargeEvent.committed) fun he => nomatch he
      unfold expected
      split_ifs
      · exact hcommitted
      · exact hcommitted.snoc (a := ChargeEvent.operated) fun _ => by decide
  failed hworker exit hdone := by
    have hmade := h.reservation_of_worker (by simp [hworker])
    have hne := h.ended hmade exit hdone
    have huncharged : s.settlement ≠ .committed := by
      intro he
      have := h.charged.mp he
      rw [hworker] at this
      cases this
    rw [h.history]
    cases hs : s.settlement with
    | reserved => exact absurd hs hne
    | released => rfl
    | committed => exact absurd hs huncharged

/-- Whatever the order of the sections of the two threads and of everybody else who uses the
ledger. -/
theorem invoke_budgeted_settles (budget : RunBudget) {acts : List Action} {s : BudgetedCall}
    (hrun : Trace.run step (new (BudgetLedger.new budget)) acts = some s) : ChargedOnce s :=
  (Trace.run_invariant (fun _ _ _ => inv_step) hrun
    (inv_new (BudgetLedger.covered_new budget))).chargedOnce

def sampleBudget : RunBudget := .unlimited

def sampleReading : BudgetReading :=
  ⟨0, none, .newYear⟩

theorem vectorQueries_ne : Dimension.vectorQueries ≠ .inputTokens ∧
    Dimension.vectorQueries ≠ .outputTokens := by
  decide

def sampleActions : List Action :=
  [.reserve (BudgetUsage.single .vectorQueries 1 vectorQueries_ne) "retrieval_vector" none "r1"
      sampleReading.now sampleReading,
    .checkCancelled false, .schedule, .submitted, .start, .giveUp, .leave sampleReading,
    .charge sampleReading]

theorem invoke_budgeted_settles_sampleActions :
    ∃ s, Trace.run step (new (BudgetLedger.new sampleBudget)) sampleActions = some s ∧
      s.waiter = .done .raised ∧ s.worker = .failed ∧ ChargedOnce s := by
  have hrun : ((Trace.run step (new (BudgetLedger.new sampleBudget)) sampleActions).any fun s =>
      s.waiter = .done .raised ∧ s.worker = .failed) = true := by decide +kernel
  obtain ⟨s, hs, hwaiter, hworker⟩ := exists_of_any hrun
  exact ⟨s, hs, hwaiter, hworker, invoke_budgeted_settles sampleBudget hs⟩

end BudgetedCall

end LocalAgent.Runtime
