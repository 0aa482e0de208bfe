import LocalAgent.Runtime.DurableExecution
import LocalAgent.Runtime.RunControlRuns

/-!
# LocalAgent.Runtime.DurableExecutionRuns — takeovers, recoveries and late completions

Any number of lease holders start and complete the steps of one run, start and finish its model
attempts and recover it, between the transactions of the run control and the writes of the owners
of tools and approvals.

* `DurableRun.step`: one transaction.
* `Keeps`: what one transaction does to the rows.
* `Grows`: what every later state keeps of an earlier one.
* `durable_execution_sound`: both, along every run; a completion that is answered by the stored row has to
  be the stored one (`Replays`).
-/

namespace LocalAgent.Runtime

open DurableExecutionRepository

/-! ## Runs -/

structure DurableRun (Payload : Type) where
  control : ControlRun
  tables : ExecutionTables Payload
  started : List (ModelAttemptKey × ℕ)
  /-- the fencing token of the last recovery -/
  recoveredUnder : Option ℕ

namespace DurableRun

variable {Payload : Type}

/-- An operation of the repository. -/
inductive Call (Payload : Type) where
  | startStep (stepId : String) (planVersion : ℕ) (attempt : Option ℕ)
    (journalAppend : Except ExecutionError Unit)
  | completeStep (completion : StepCompletion Payload) (journalAppend : Except ExecutionError Unit)
  | prepareRecovery
  | startModelAttempt (start : ModelAttemptStart Payload)
    (admission journalAppend : Except ExecutionError Unit)
  | finishModelAttempt (finish : ModelAttemptFinish Payload)
    (journalAppend : Except ExecutionError Unit)

inductive Action (Payload : Type) where
  | control (action : ControlRun.Action)
  | owners (tools : List (String × ToolInvocationState))
    (approvals : List (String × ApprovalRowState))
  | call (now : ℤ) (lease : RunLease) (call : Call Payload)

/-- A run as `initialize` leaves it. -/
def new (clock : ℤ) (journal : List JournalRecord) (runId : String) (planVersion token : ℕ)
    (stepIds : List String) : DurableRun Payload :=
  ⟨.new clock journal, .initialized runId planVersion token stepIds, [], none⟩

section Step

variable (leaseSeconds : ℕ) (digest : Payload → String)

/-- The state after an operation that returned. -/
def outcome (s : DurableRun Payload) (now : ℤ) (lease : RunLease) :
    Call Payload → Except ExecutionError (DurableRun Payload)
  | .startStep stepId planVersion attempt journalAppend => do
    let (_, tables) ← startStep s.control.tables now s.tables lease stepId planVersion attempt
      journalAppend
    return { s with tables := tables }
  | .completeStep completion journalAppend => do
    let (_, tables) ← completeStep digest s.control.tables now s.tables lease completion
      journalAppend
    return { s with tables := tables }
  | .prepareRecovery => do
    let tables ← prepareRecovery s.control.tables now s.tables lease
    return { s with tables := tables, recoveredUnder := some lease.fencingToken }
  | .startModelAttempt start admission journalAppend => do
    let tables ← startModelAttempt s.control.tables now s.tables lease start admission journalAppend
    return { s with tables := tables, started := s.started ++ [(start.key, lease.fencingToken)] }
  | .finishModelAttempt finish journalAppend => do
    let tables ← finishModelAttempt digest s.control.tables now s.tables lease finish journalAppend
    return { s with tables := tables }

/-- The database clock moves on. -/
def tick (s : DurableRun Payload) (now : ℤ) : DurableRun Payload :=
  { s with control := { s.control with clock := now } }

/-- The step function; an operation that raises is rolled back. -/
def step (s : DurableRun Payload) : Action Payload → Option (DurableRun Payload)
  | .control action =>
    (s.control.step leaseSeconds action).map fun control => { s with control := control }
  | .owners tools approvals =>
    some { s with tables := { s.tables with tools := tools, approvals := approvals } }
  | .call now lease call =>
    if now < s.control.clock then none
    else
      match outcome digest s now lease call with
      | .error _ => some (s.tick now)
      | .ok s' => some (s'.tick now)

/-- A completion that the stored terminal row answers has the stored status, result and error. -/
def Replays (s : DurableRun Payload) : Action Payload → Prop
  | .call _ _ (.completeStep completion _) =>
    ∀ row, s.tables.steps.get? completion.stepId = some row → row.status.isTerminal = true →
      row.resultDigest = some (digest completion.result) →
      row.currentAttempt = completion.attempt →
        row.status = completion.status ∧ row.typedResultPayload = some completion.result ∧
          row.safeError = completion.safeError
  | _ => True

end Step

/-! ## What a step can do -/

variable {leaseSeconds : ℕ} {digest : Payload → String}
variable {s s' t : DurableRun Payload}

/-- The writes of an operation under a current lease. -/
inductive Wrote (digest : Payload → String) (s : DurableRun Payload) (lease : RunLease) :
    DurableRun Payload → Prop where
  | startStep {stepId : String} {row : StepExecutionRow Payload}
      (found : s.tables.steps.get? stepId = some row) (pending : row.status = .pending) :
      Wrote digest s lease { s with
        tables := putStep s.tables stepId (touchStep lease
          { row with status := .running, currentAttempt := row.currentAttempt + 1 }) }
  | completeStep {completion : StepCompletion Payload} {row : StepExecutionRow Payload}
      (found : s.tables.steps.get? completion.stepId = some row) (running : row.status = .running)
      (terminal : completion.status.isTerminal = true) :
      Wrote digest s lease { s with
        tables := putStep s.tables completion.stepId (completedRow digest lease completion row) }
  | prepareRecovery :
      Wrote digest s lease { s with
        tables := recovered s.tables lease
        recoveredUnder := some lease.fencingToken }
  | startModelAttempt {key : ModelAttemptKey} {row : ModelInvocationRow Payload}
      (fresh : ∀ row, s.tables.models.get? key = some row → row.state = .notStarted)
      (started : row.state = .started) :
      Wrote digest s lease { s with
        tables := putModel s.tables key row
        started := s.started ++ [(key, lease.fencingToken)] }
  | finishModelAttempt {finish : ModelAttemptFinish Payload} {row : ModelInvocationRow Payload}
      (found : s.tables.models.get? finish.key = some row) (started : row.state = .started)
      (finishes : finish.state.isFinish = true) :
      Wrote digest s lease { s with
        tables := putModel s.tables finish.key (finishedRow digest lease finish row) }

inductive Moves (leaseSeconds : ℕ) (digest : Payload → String) (s : DurableRun Payload) :
    DurableRun Payload → Prop where
  | control {action : ControlRun.Action} {control : ControlRun}
      (moved : s.control.step leaseSeconds action = some control) :
      Moves leaseSeconds digest s { s with control := control }
  | owners {tools : List (String × ToolInvocationState)}
      {approvals : List (String × ApprovalRowState)} :
      Moves leaseSeconds digest s
        { s with tables := { s.tables with tools := tools, approvals := approvals } }
  | idle {now : ℤ} : Moves leaseSeconds digest s (s.tick now)
  | wrote {now : ℤ} {lease : RunLease} {written : DurableRun Payload}
      (ofRun : lease.runId = s.tables.runId)
      (current : assertCurrent s.control.tables now lease = .ok ())
      (wrote : Wrote digest s lease written) : Moves leaseSeconds digest s (written.tick now)

variable {lease : RunLease} {now : ℤ} {stepId : String} {row : StepExecutionRow Payload}

/-- What each outcome of a lifecycle call writes. -/
theorem outcome_moves {call : Call Payload}
    (h : outcome digest s now lease call = .ok s') : Moves leaseSeconds digest s (s'.tick now) := by
  cases call with
  | startStep =>
    obtain ⟨⟨_, tables⟩, hok, hresult⟩ := bind_eq_ok.mp h
    cases hresult
    obtain ⟨hcurrent, hrun, row, hrow, ⟨-, -, rfl⟩ | ⟨hpending, -, rfl⟩⟩ := startStep_ok hok
    · exact .idle
    · exact .wrote hrun hcurrent (.startStep hrow hpending)
  | completeStep =>
    obtain ⟨⟨_, tables⟩, hok, hresult⟩ := bind_eq_ok.mp h
    cases hresult
    obtain ⟨hcurrent, hrun, -, hterminal, row, hrow, -, ⟨-, -, -, rfl⟩ | ⟨hrunning, rfl⟩⟩ :=
      completeStep_ok hok
    · exact .idle
    · exact .wrote hrun hcurrent (.completeStep hrow hrunning hterminal)
  | prepareRecovery =>
    obtain ⟨tables, hok, hresult⟩ := bind_eq_ok.mp h
    cases hresult
    obtain ⟨hcurrent, hrun, rfl⟩ := prepareRecovery_ok hok
    exact .wrote hrun hcurrent .prepareRecovery
  | startModelAttempt =>
    obtain ⟨tables, hok, hresult⟩ := bind_eq_ok.mp h
    cases hresult
    obtain ⟨hcurrent, hrun, hfresh, row, hstarted, rfl⟩ := startModelAttempt_ok hok
    exact .wrote hrun hcurrent (.startModelAttempt hfresh hstarted)
  | finishModelAttempt =>
    obtain ⟨_, hok, hresult⟩ := bind_eq_ok.mp h
    cases hresult
    obtain ⟨hcurrent, hrun, hfinishes, _, hrow, hstarted, rfl⟩ := finishModelAttempt_ok hok
    exact .wrote hrun hcurrent (.finishModelAttempt hrow hstarted hfinishes)

variable {action : Action Payload} {acts : List (Action Payload)} {row' : StepExecutionRow Payload}

theorem step_moves (h : s.step leaseSeconds digest action = some s') :
    Moves leaseSeconds digest s s' := by
  cases action with
  | control =>
    obtain ⟨_, hcontrol, rfl⟩ := Option.map_eq_some_iff.mp h
    exact .control hcontrol
  | owners =>
    cases h
    exact .owners
  | call =>
    simp only [step] at h
    split_ifs at h with hclock
    split at h
    · cases h
      exact .idle
    · rename_i s₁ houtcome
      cases h
      exact outcome_moves houtcome

/-! ## What a step keeps -/

def token (s : DurableRun Payload) : ℕ := s.control.tokenOf s.tables.runId

/-- What every later state keeps of an earlier one. -/
structure Grows (s s' : DurableRun Payload) : Prop where
  runId : s'.tables.runId = s.tables.runId
  token : s.token ≤ s'.token
  terminal : ∀ stepId row, s.tables.steps.get? stepId = some row → row.status.isTerminal = true →
    s'.tables.steps.get? stepId = some row
  finished : ∀ key row, s.tables.models.get? key = some row → row.state.isFinish = true →
    s'.tables.models.get? key = some row
  started : ∀ key startedUnder, (key, startedUnder) ∈ s'.started →
    (key, startedUnder) ∈ s.started ∨ s.token ≤ startedUnder

theorem Grows.refl (s : DurableRun Payload) : Grows s s where
  runId := rfl
  token := le_rfl
  terminal := fun _ _ h _ => h
  finished := fun _ _ h _ => h
  started := fun _ _ h => .inl h

theorem Grows.trans (h : Grows s t) (h' : Grows t s') : Grows s s' where
  runId := h'.runId.trans h.runId
  token := h.token.trans h'.token
  terminal := fun stepId row hrow hterminal =>
    h'.terminal stepId row (h.terminal stepId row hrow hterminal) hterminal
  finished := fun key row hrow hfinished =>
    h'.finished key row (h.finished key row hrow hfinished) hfinished
  started := by
    intro key startedUnder hmem
    rcases h'.started key startedUnder hmem with hmem | hlater
    · exact h.started key startedUnder hmem
    · exact .inr (h.token.trans hlater)

/-- Fencing tokens never decrease. -/
theorem tokenOf_mono {action : ControlRun.Action} {control control' : ControlRun}
    (h : control.step leaseSeconds action = some control') (runId : String) :
    control.tokenOf runId ≤ control'.tokenOf runId := by
  cases hrow : control.tables.controls.get? runId with
  | none => simp [ControlRun.tokenOf, hrow]
  | some row =>
    obtain ⟨_, hrow', hkept⟩ := (ControlRun.step_moves h).2.keeps.rows runId row hrow
    rw [ControlRun.tokenOf_found hrow, ControlRun.tokenOf_found hrow']
    exact hkept.token

theorem token_of_current (hrun : lease.runId = s.tables.runId)
    (h : assertCurrent s.control.tables now lease = .ok ()) : lease.fencingToken = s.token := by
  obtain ⟨_, hrow, hcurrent⟩ := assertCurrent_ok h
  obtain ⟨-, htoken, -⟩ := ControlRun.current_iff.mp hcurrent
  rw [token, ← hrun, ControlRun.tokenOf_found hrow, htoken]

variable {tables : ExecutionTables Payload}

/-- Terminal steps are not rewritten. -/
theorem terminal_putStep {id : String}
    {old new : StepExecutionRow Payload} (hold : tables.steps.get? id = some old)
    (hopen : old.status.isTerminal = false) :
    ∀ stepId row, tables.steps.get? stepId = some row → row.status.isTerminal = true →
      (putStep tables id new).steps.get? stepId = some row := by
  intro stepId _ hrow hterminal
  have hne : stepId ≠ id := by
    rintro rfl
    cases hold.symm.trans hrow
    exact absurd hterminal (by simp [hopen])
  simpa [putStep, hne] using hrow

theorem finished_putModel {id : ModelAttemptKey} {new : ModelInvocationRow Payload}
    (hopen : ∀ old, tables.models.get? id = some old → old.state.isFinish = false) :
    ∀ key row, tables.models.get? key = some row → row.state.isFinish = true →
      (putModel tables id new).models.get? key = some row := by
  intro key row hrow hfinished
  have hne : key ≠ id := by
    rintro rfl
    exact absurd hfinished (by simp [hopen row hrow])
  simpa [putModel, hne] using hrow

theorem classifyStep_of_not_running (h : row.status ≠ .running) :
    classifyStep tables lease stepId row = row := by
  simp [classifyStep, h]

theorem abandon_of_isFinish {row : ModelInvocationRow Payload}
    (h : row.state.isFinish = true) : abandon lease row = row := by
  have hne : row.state ≠ .started := by
    intro hstarted
    simp [hstarted, ModelAttemptState.isFinish] at h
  simp [abandon, hne]

/-- What a write keeps: terminal steps, finished attempts, journaled events. -/
theorem Wrote.grows (h : Wrote digest s lease s')
    (htoken : lease.fencingToken = s.token) : Grows s s' := by
  cases h with
  | startStep hfound hpending | completeStep hfound hpending =>
    exact ⟨rfl, le_rfl, terminal_putStep hfound (by simp [hpending, StepExecutionStatus.isTerminal]),
      fun _ _ h _ => h, fun _ _ h => .inl h⟩
  | prepareRecovery =>
    refine ⟨rfl, le_rfl, ?_, ?_, fun _ _ h => .inl h⟩
    · intro _ row hrow hterminal
      have hne : row.status ≠ .running := by
        intro hrunning
        simp [hrunning, StepExecutionStatus.isTerminal] at hterminal
      simp [recovered, abandonModels, hrow, classifyStep_of_not_running hne]
    · intro key _ hrow hfinished
      simp [recovered, abandonModels, hrow, abandon_of_isFinish hfinished]
  | startModelAttempt hfresh =>
    refine ⟨rfl, le_rfl, fun _ _ h _ => h, ?_, ?_⟩
    · refine finished_putModel fun old hold => ?_
      simp [hfresh old hold, ModelAttemptState.isFinish]
    · intro _ _ hmem
      rcases mem_snoc hmem with hold | hnew
      · exact .inl hold
      · obtain ⟨-, rfl⟩ := Prod.mk.inj hnew
        exact .inr htoken.ge
  | finishModelAttempt hfound hstarted =>
    refine ⟨rfl, le_rfl, fun _ _ h _ => h, ?_, fun _ _ h => .inl h⟩
    refine finished_putModel fun old hold => ?_
    cases hfound.symm.trans hold
    simp [hstarted, ModelAttemptState.isFinish]

theorem Moves.grows (h : Moves leaseSeconds digest s s') : Grows s s' := by
  cases h with
  | control hmoved =>
    exact ⟨rfl, tokenOf_mono hmoved s.tables.runId, fun _ _ h _ => h, fun _ _ h _ => h,
      fun _ _ h => .inl h⟩
  | owners | idle => exact ⟨rfl, le_rfl, fun _ _ h _ => h, fun _ _ h _ => h, fun _ _ h => .inl h⟩
  | wrote hrun hcurrent hwrote =>
    have hgrows := hwrote.grows (token_of_current hrun hcurrent)
    exact ⟨hgrows.runId, hgrows.token, hgrows.terminal, hgrows.finished, hgrows.started⟩

theorem run_grows (h : Trace.run (step leaseSeconds digest) s acts = some s') : Grows s s' :=
  Trace.run_invariant (P := Grows s) (fun _ _ _ hstep hgrows => hgrows.trans (step_moves hstep).grows)
    h (.refl s)

/-! ## Fencing -/

structure Fenced (s : DurableRun Payload) : Prop where
  attempts : ∀ key startedUnder, (key, startedUnder) ∈ s.started →
    ∃ row, s.tables.models.get? key = some row ∧ row.state ≠ .notStarted
  recovered : ∀ fence, s.recoveredUnder = some fence → fence ≤ s.token ∧
    ∀ key startedUnder, (key, startedUnder) ∈ s.started → startedUnder < fence →
      ∃ row, s.tables.models.get? key = some row ∧ row.state.isFinish = true

namespace Fenced

theorem recovered_of_grows (hs : Fenced s) (h : Grows s s')
    (hsame : s'.recoveredUnder = s.recoveredUnder) (fence : ℕ)
    (hfence : s'.recoveredUnder = some fence) : fence ≤ s'.token ∧
      ∀ key startedUnder, (key, startedUnder) ∈ s'.started → startedUnder < fence →
        ∃ row, s'.tables.models.get? key = some row ∧ row.state.isFinish = true := by
  obtain ⟨htoken, hfinished⟩ := hs.recovered fence (hsame ▸ hfence)
  refine ⟨htoken.trans h.token, fun key startedUnder hmem hlt => ?_⟩
  rcases h.started key startedUnder hmem with hold | hnew
  · obtain ⟨row, hrow, hfinish⟩ := hfinished key startedUnder hold hlt
    exact ⟨row, h.finished key row hrow hfinish, hfinish⟩
  · omega

/-- A write under the current lease keeps the attempts fenced. -/
theorem wrote {lease : RunLease} (hs : Fenced s) (h : Wrote digest s lease s')
    (htoken : lease.fencingToken = s.token) : Fenced s' := by
  have hgrows := h.grows htoken
  cases h with
  | startStep | completeStep => exact ⟨hs.attempts, hs.recovered⟩
  | prepareRecovery =>
    refine ⟨fun key startedUnder hmem => ?_, fun fence hfence => ?_⟩
    · obtain ⟨row, hrow, hstate⟩ := hs.attempts key startedUnder hmem
      refine ⟨abandon lease row, by simp [DurableExecutionRepository.recovered, abandonModels, hrow],
        ?_⟩
      unfold abandon
      split_ifs with hstarted
      · simp
      · exact hstate
    · cases hfence
      refine ⟨htoken.le, fun key startedUnder hmem _ => ?_⟩
      obtain ⟨row, hrow, hstate⟩ := hs.attempts key startedUnder hmem
      refine ⟨abandon lease row, by simp [DurableExecutionRepository.recovered, abandonModels, hrow],
        ?_⟩
      -- an attempt in flight is abandoned, every other one was finished before
      cases hrowState : row.state <;> simp_all [abandon, ModelAttemptState.isFinish]
  | startModelAttempt hfresh hstarted =>
    refine ⟨fun key startedUnder hmem => ?_, hs.recovered_of_grows hgrows rfl⟩
    rename_i started row
    by_cases hkey : key = started
    · exact ⟨row, by simp [putModel, hkey], by simp [hstarted]⟩
    · have hold : (key, startedUnder) ∈ s.started := by
        rcases mem_snoc hmem with hold | hnew
        · exact hold
        · exact absurd (Prod.mk.inj hnew).1 hkey
      obtain ⟨row', hrow', hstate⟩ := hs.attempts key startedUnder hold
      exact ⟨row', by simpa [putModel, hkey] using hrow', hstate⟩
  | finishModelAttempt hfound hstarted hfinishes =>
    refine ⟨fun key startedUnder hmem => ?_, hs.recovered_of_grows hgrows rfl⟩
    rename_i finish row
    by_cases hkey : key = finish.key
    · refine ⟨finishedRow digest lease finish row, by simp [putModel, hkey], ?_⟩
      intro hnot
      rw [show finish.state = .notStarted from hnot] at hfinishes
      cases hfinishes
    · obtain ⟨row', hrow', hstate⟩ := hs.attempts key startedUnder hmem
      exact ⟨row', by simpa [putModel, hkey] using hrow', hstate⟩

theorem moves (hs : Fenced s) (h : Moves leaseSeconds digest s s') : Fenced s' := by
  have hgrows := h.grows
  cases h with
  | control => exact ⟨hs.attempts, hs.recovered_of_grows hgrows rfl⟩
  | owners | idle => exact ⟨hs.attempts, hs.recovered⟩
  | wrote hrun hcurrent hwrote =>
    have hwritten := hs.wrote hwrote (token_of_current hrun hcurrent)
    exact ⟨hwritten.attempts, hwritten.recovered⟩

theorem new (clock : ℤ) (journal : List JournalRecord) (runId : String) (planVersion token : ℕ)
    (stepIds : List String) :
    Fenced (new clock journal runId planVersion token stepIds : DurableRun Payload) where
  attempts := fun _ _ h => nomatch h
  recovered := fun _ h => nomatch h

end Fenced

/-! ## Every run -/

/-- What one transaction does. -/
structure Keeps (digest : Payload → String) (s : DurableRun Payload) (action : Action Payload)
    (s' : DurableRun Payload) : Prop where
  /-- a completion that returns `True` has its outcome stored -/
  completed : ∀ now lease completion journalAppend tables',
    action = .call now lease (.completeStep completion journalAppend) →
    completeStep digest s.control.tables now s.tables lease completion journalAppend =
      .ok (true, tables') →
    ∃ row, s'.tables.steps.get? completion.stepId = some row ∧ row.status = completion.status ∧
      row.typedResultPayload = some completion.result ∧ row.safeError = completion.safeError
  /-- the attempt grows by one exactly when a step leaves `PENDING` for `RUNNING` -/
  attempts : ∀ stepId row, s.tables.steps.get? stepId = some row →
    ∃ row', s'.tables.steps.get? stepId = some row' ∧
      (row.status = .pending ∧ row'.status = .running ∧
          row'.currentAttempt = row.currentAttempt + 1 ∨
        ¬ (row.status = .pending ∧ row'.status = .running) ∧
          row'.currentAttempt = row.currentAttempt)
  /-- a model attempt leaves `STARTED` by being finished -/
  leaves : ∀ key row, s.tables.models.get? key = some row → row.state = .started →
    ∃ row', s'.tables.models.get? key = some row' ∧
      (row'.state = .started ∨ row'.state.isFinish = true)
  /-- what is returned to `PENDING` has no unresolved tool and at most one `UNKNOWN` attempt -/
  replayed : ∀ stepId row row', s.tables.steps.get? stepId = some row → row.status = .running →
    s'.tables.steps.get? stepId = some row' → row'.status = .pending →
      unresolvedTool s.tables stepId = false ∧ unknownCount s'.tables.models stepId ≤ 1

structure Later (s s' : DurableRun Payload) : Prop where
  terminal : ∀ stepId row, s.tables.steps.get? stepId = some row → row.status.isTerminal = true →
    s'.tables.steps.get? stepId = some row
  finished : ∀ key row, s.tables.models.get? key = some row → row.state.isFinish = true →
    s'.tables.models.get? key = some row
  /-- after a recovery no attempt of an older token completes any more -/
  fenced : ∀ fence, s.recoveredUnder = some fence → ∀ key startedUnder,
    (key, startedUnder) ∈ s'.started → startedUnder < fence →
      ∀ row', s'.tables.models.get? key = some row' → row'.state = .completed →
        ∃ row, s.tables.models.get? key = some row ∧ row.state = .completed

theorem later_of_run (hs : Fenced s)
    (h : Trace.run (step leaseSeconds digest) s acts = some s') : Later s s' := by
  have hgrows := run_grows h
  refine ⟨hgrows.terminal, hgrows.finished, fun fence hfence key startedUnder hmem hlt row' => ?_⟩
  intro hrow' hcompleted
  obtain ⟨htoken, hfinished⟩ := hs.recovered fence hfence
  rcases hgrows.started key startedUnder hmem with hold | hnew
  · obtain ⟨row, hrow, hfinish⟩ := hfinished key startedUnder hold hlt
    obtain rfl := Option.some.inj ((hgrows.finished key row hrow hfinish).symm.trans hrow')
    exact ⟨row, hrow, hcompleted⟩
  · omega

theorem attempts_of_eq (hattempt : row'.currentAttempt = row.currentAttempt)
    (hstatus : row'.status = .running → row.status ≠ .pending) :
    row.status = .pending ∧ row'.status = .running ∧
        row'.currentAttempt = row.currentAttempt + 1 ∨
      ¬ (row.status = .pending ∧ row'.status = .running) ∧
        row'.currentAttempt = row.currentAttempt :=
  .inr ⟨fun h => hstatus h.2 h.1, hattempt⟩

theorem same_attempts (row : StepExecutionRow Payload) :
    row.status = .pending ∧ row.status = .running ∧
        row.currentAttempt = row.currentAttempt + 1 ∨
      ¬ (row.status = .pending ∧ row.status = .running) ∧
        row.currentAttempt = row.currentAttempt :=
  attempts_of_eq rfl fun hrunning hpending => nomatch hrunning.symm.trans hpending

variable {lease : RunLease}

/-- The step rows of a write: one row, or all of them after a recovery. -/
theorem Wrote.attempts (h : Wrote digest s lease s') (stepId : String)
    (row : StepExecutionRow Payload) (hrow : s.tables.steps.get? stepId = some row) :
    ∃ row', s'.tables.steps.get? stepId = some row' ∧
      (row.status = .pending ∧ row'.status = .running ∧
          row'.currentAttempt = row.currentAttempt + 1 ∨
        ¬ (row.status = .pending ∧ row'.status = .running) ∧
          row'.currentAttempt = row.currentAttempt) := by
  cases h with
  | @startStep id old hfound hpending =>
    by_cases hid : stepId = id
    · subst hid
      obtain rfl := Option.mem_unique hfound hrow
      exact ⟨touchStep lease
        { old with status := .running, currentAttempt := old.currentAttempt + 1 },
        by simp [putStep], .inl ⟨hpending, rfl, rfl⟩⟩
    · exact ⟨row, by simpa [putStep, hid] using hrow, same_attempts row⟩
  | @completeStep completion old hfound hrunning hterminal =>
    by_cases hid : stepId = completion.stepId
    · subst hid
      obtain rfl := Option.mem_unique hfound hrow
      refine ⟨completedRow digest lease completion old, by simp [putStep], attempts_of_eq rfl ?_⟩
      exact fun _ hpending => by cases hrunning.symm.trans hpending
    · exact ⟨row, by simpa [putStep, hid] using hrow, same_attempts row⟩
  | prepareRecovery =>
    refine ⟨_, by simp [recovered, abandonModels, hrow]; rfl, ?_⟩
    by_cases hrunning : row.status = .running
    · refine attempts_of_eq ?_ fun _ hpending => by cases hrunning.symm.trans hpending
      unfold classifyStep
      split_ifs <;> rfl
    · rw [classifyStep_of_not_running hrunning]
      exact same_attempts row
  | startModelAttempt | finishModelAttempt => exact ⟨row, hrow, same_attempts row⟩

theorem Wrote.leaves (h : Wrote digest s lease s') (key : ModelAttemptKey)
    (row : ModelInvocationRow Payload) (hrow : s.tables.models.get? key = some row)
    (hstarted : row.state = .started) : ∃ row', s'.tables.models.get? key = some row' ∧
      (row'.state = .started ∨ row'.state.isFinish = true) := by
  cases h with
  | startStep | completeStep => exact ⟨row, hrow, .inl hstarted⟩
  | prepareRecovery =>
    refine ⟨abandon lease row, by simp [recovered, abandonModels, hrow], .inr ?_⟩
    simp [abandon, hstarted, ModelAttemptState.isFinish]
  | @startModelAttempt key' row' hfresh hstarted' =>
    by_cases hkey : key = key'
    · exact ⟨row', by simp [putModel, hkey], .inl hstarted'⟩
    · exact ⟨row, by simpa [putModel, hkey] using hrow, .inl hstarted⟩
  | @finishModelAttempt finish old hfound hstarted' hfinishes =>
    by_cases hkey : key = finish.key
    · exact ⟨finishedRow digest lease finish old, by simp [putModel, hkey], .inr hfinishes⟩
    · exact ⟨row, by simpa [putModel, hkey] using hrow, .inl hstarted⟩

theorem of_classifyStep_pending {tables : ExecutionTables Payload}
(hrunning : row.status = .running) (h : (classifyStep tables lease stepId row).status = .pending) :
    unresolvedTool tables stepId = false ∧ unknownCount tables.models stepId ≤ 1 := by
  simp only [classifyStep, hrunning, ne_eq, not_true_eq_false, if_false] at h
  by_cases htool : unresolvedTool tables stepId = true
  · rw [if_pos htool] at h
    cases h
  · rw [if_neg htool] at h
    by_cases hunknown : 2 ≤ unknownCount tables.models stepId
    · rw [if_pos hunknown] at h
      cases h
    · exact ⟨Bool.eq_false_iff.mpr htool, by omega⟩

/-- A step that is completed again gets the answer of its first completion. -/
theorem Wrote.replayed (h : Wrote digest s lease s') (hrow : s.tables.steps.get? stepId = some row)
    (hrunning : row.status = .running) (hrow' : s'.tables.steps.get? stepId = some row')
    (hpending : row'.status = .pending) :
    unresolvedTool s.tables stepId = false ∧ unknownCount s'.tables.models stepId ≤ 1 := by
  have hsame : ∀ old, s.tables.steps.get? stepId = some old → old ≠ row' := by
    rintro old hold rfl
    cases hrow.symm.trans hold
    cases hrunning.symm.trans hpending
  cases h with
  | @startStep id old hfound hold =>
    by_cases hid : stepId = id
    · subst hid
      cases hfound.symm.trans hrow
      cases hrunning.symm.trans hold
    · exact absurd rfl (hsame row' (by simpa [putStep, hid] using hrow'))
  | @completeStep completion old hfound hold hterminal =>
    by_cases hid : stepId = completion.stepId
    · obtain rfl : completedRow digest lease completion old = row' :=
        Option.some.inj (by simpa [putStep, hid] using hrow')
      rw [show completion.status = .pending from hpending] at hterminal
      cases hterminal
    · exact absurd rfl (hsame row' (by simpa [putStep, hid] using hrow'))
  | prepareRecovery =>
    obtain rfl : classifyStep (abandonModels s.tables lease) lease stepId row = row' :=
      Option.some.inj (by simpa [recovered, abandonModels, hrow] using hrow')
    exact of_classifyStep_pending hrunning hpending
  | startModelAttempt | finishModelAttempt => exact absurd rfl (hsame row' hrow')

theorem completed_of_replays {completion : StepCompletion Payload}
    {journalAppend : Except ExecutionError Unit} {tables' : ExecutionTables Payload}
    (hreplays : Replays digest s (.call now lease (.completeStep completion journalAppend)))
    (h : completeStep digest s.control.tables now s.tables lease completion journalAppend =
      .ok (true, tables')) :
    ∃ row, tables'.steps.get? completion.stepId = some row ∧ row.status = completion.status ∧
      row.typedResultPayload = some completion.result ∧ row.safeError = completion.safeError := by
  obtain ⟨-, -, -, -, row, hrow, -, ⟨hterminal, hdigest, hattempt, rfl⟩ | ⟨-, rfl⟩⟩ :=
    completeStep_ok h
  · exact ⟨row, hrow, hreplays row hrow hterminal hdigest hattempt⟩
  · exact ⟨completedRow digest lease completion row, by simp [putStep], rfl, rfl, rfl⟩

/-- What one step keeps for a reader of the tables. -/
theorem step_keeps (hreplays : Replays digest s action)
    (h : s.step leaseSeconds digest action = some s') : Keeps digest s action s' where
  completed := by
    rintro _ _ _ _ _ rfl hok
    simp only [step, outcome, hok, ok_bind] at h
    split_ifs at h with hclock
    cases h
    exact completed_of_replays hreplays hok
  attempts := by
    intro stepId row hrow
    cases step_moves h with
    | wrote _ _ hwrote => exact hwrote.attempts stepId row hrow
    | _ => exact ⟨row, hrow, same_attempts row⟩
  leaves := by
    intro key row hrow hstarted
    cases step_moves h with
    | wrote _ _ hwrote => exact hwrote.leaves key row hrow hstarted
    | _ => exact ⟨row, hrow, .inl hstarted⟩
  replayed := by
    intro _ _ _ hrow hrunning hrow' hpending
    cases step_moves h with
    | wrote _ _ hwrote => exact hwrote.replayed hrow hrunning hrow' hpending
    | _ =>
      cases hrow.symm.trans hrow'
      cases hrunning.symm.trans hpending

/-- In every run whose replayed completions present the stored outcome, every transaction keeps the
rules and every later state keeps what an earlier one has settled. -/
theorem durable_execution_sound {clock : ℤ} {journal : List JournalRecord} {runId : String}
    {planVersion token : ℕ} {stepIds : List String} {acts : List (Action Payload)}
    (halong : Trace.Along (step leaseSeconds digest) (Replays digest)
      (new clock journal runId planVersion token stepIds) acts) :
    Trace.Along (step leaseSeconds digest)
      (fun s action => ∀ s', s.step leaseSeconds digest action = some s' → Keeps digest s action s')
      (new clock journal runId planVersion token stepIds) acts ∧
    ∀ before after s s', acts = before ++ after →
      Trace.run (step leaseSeconds digest) (new clock journal runId planVersion token stepIds)
        before = some s →
      Trace.run (step leaseSeconds digest) s after = some s' → Later s s' := by
  constructor
  · exact Trace.along_mono (fun s action hreplays s' h => step_keeps hreplays h) halong
  · intro _ _ s _ _ hbefore hafter
    have hfenced : Fenced s := Trace.run_invariant
      (fun _ _ _ h hs => Fenced.moves hs (step_moves h)) hbefore (.new ..)
    exact later_of_run hfenced hafter

/-! ## Samples -/

instance [DecidableEq Payload] (s : DurableRun Payload) :
    ∀ action, Decidable (Replays digest s action)
  | .call _ _ (.completeStep completion _) =>
    inferInstanceAs (Decidable (∀ row ∈ s.tables.steps.get? completion.stepId,
      row.status.isTerminal = true → row.resultDigest = some (digest completion.result) →
      row.currentAttempt = completion.attempt →
        row.status = completion.status ∧ row.typedResultPayload = some completion.result ∧
          row.safeError = completion.safeError))
  | .call _ _ (.startStep _ _ _ _) => isTrue trivial
  | .call _ _ .prepareRecovery => isTrue trivial
  | .call _ _ (.startModelAttempt _ _ _) => isTrue trivial
  | .call _ _ (.finishModelAttempt _ _) => isTrue trivial
  | .control _ => isTrue trivial
  | .owners _ _ => isTrue trivial

/-- A payload stands as its canonical text. -/
def sampleCompletion (status : StepExecutionStatus) (safeError : String) :
    StepCompletion String where
  stepId := "s1"
  planVersion := 1
  attempt := 1
  result := "\x7b\"complete\":false,\"content\":\"\"\x7d"
  status := status
  safeError := some safeError

def sampleLease (ownerId : String) (leaseUntil : ℤ) (fencingToken : ℕ) : RunLease :=
  ⟨"run", ownerId, leaseUntil, fencingToken, 1⟩

def sampleNew : DurableRun String := new 0 [] "run" 1 0 ["s1"]

/-- A step fails and is settled once more as cancelled, with the same empty result. -/
def sampleSettledTwice : List (Action String) :=
  [.control (.claim 0 "run" "a"),
    .call 1 (sampleLease "a" 30000000 1) (.startStep "s1" 1 none (.ok ())),
    .call 2 (sampleLease "a" 30000000 1)
      (.completeStep (sampleCompletion .failed "MODEL_FAILED") (.ok ()))]

theorem ok_of_toOption {ε α : Type} {x : Except ε α} {a : α} (h : x.toOption = some a) :
    x = .ok a := by
  cases x with
  | error => cases h
  | ok => exact congrArg Except.ok (Option.some.inj h)

/-- The second settlement returns `True` although the stored status and error are other ones. -/
theorem cancelled_replay_not_kept :
    ∃ s s', Trace.run (step 30 Sha256.hexdigest) sampleNew sampleSettledTwice = some s ∧
      s.step 30 Sha256.hexdigest (.call 3 (sampleLease "a" 30000000 1)
        (.completeStep (sampleCompletion .cancelled "RUN_TERMINATING") (.ok ()))) = some s' ∧
      ¬ Keeps Sha256.hexdigest s (.call 3 (sampleLease "a" 30000000 1)
        (.completeStep (sampleCompletion .cancelled "RUN_TERMINATING") (.ok ()))) s' := by
  have hrun : (Trace.run (step 30 Sha256.hexdigest) sampleNew sampleSettledTwice).any (fun s =>
      (completeStep Sha256.hexdigest s.control.tables 3 s.tables (sampleLease "a" 30000000 1)
        (sampleCompletion .cancelled "RUN_TERMINATING") (.ok ())).toOption.any (fun answer =>
          answer.1 = true ∧ (answer.2.steps.get? "s1").map (·.status) = some .failed) ∧
      s.control.clock ≤ 3) = true := by
    decide +kernel
  obtain ⟨s, hs, hanswer, hclock⟩ := exists_of_any hrun
  obtain ⟨⟨_, tables'⟩, hok, hfailed⟩ := Option.any_eq_true _ _ |>.mp hanswer
  obtain ⟨rfl, hfailed⟩ := of_decide_eq_true hfailed
  have hcompleted := ok_of_toOption hok
  refine ⟨s, ({ s with tables := tables' } : DurableRun String).tick 3, hs, ?_, ?_⟩
  · simp [step, outcome, hcompleted, not_lt.mpr hclock]
  · intro hkeeps
    obtain ⟨row, hrow, hstatus, -⟩ := hkeeps.completed 3 _ _ _ _ rfl hcompleted
    simp only [show ((({ s with tables := tables' } : DurableRun String).tick 3).tables) = tables'
      from rfl] at hrow
    have hrow' : tables'.steps.get? "s1" = some row := hrow
    rw [hrow', Option.map_some, hstatus] at hfailed
    exact absurd hfailed (by decide)

def sampleAttempt : ModelAttemptKey := ⟨"s1", 1, 1⟩

/-- The first owner dies in a model call; the second one recovers, starts the step again and
completes it twice with one outcome, while the first one's late response is refused. -/
def sampleTakeover : List (Action String) :=
  [.control (.claim 0 "run" "a"),
    .call 1 (sampleLease "a" 30000000 1) (.startStep "s1" 1 none (.ok ())),
    .call 2 (sampleLease "a" 30000000 1) (.startModelAttempt
      ⟨sampleAttempt, "request", "provider", "profile", .decision, none⟩ (.ok ()) (.ok ())),
    .control (.claim 40000000 "run" "b"),
    .call 40000001 (sampleLease "b" 70000000 2) .prepareRecovery,
    .call 40000002 (sampleLease "a" 30000000 1)
      (.finishModelAttempt ⟨sampleAttempt, .completed, some "late", none⟩ (.ok ())),
    .call 40000003 (sampleLease "b" 70000000 2) (.startStep "s1" 1 none (.ok ())),
    .call 40000004 (sampleLease "b" 70000000 2)
      (.completeStep { sampleCompletion .failed "MODEL_FAILED" with attempt := 2 } (.ok ())),
    .call 40000005 (sampleLease "b" 70000000 2)
      (.completeStep { sampleCompletion .failed "MODEL_FAILED" with attempt := 2 } (.ok ()))]

theorem durable_execution_sound_sampleTakeover :
    ∃ s, Trace.run (step 30 Sha256.hexdigest) sampleNew sampleTakeover = some s ∧
      (s.tables.steps.get? "s1").map (·.status) = some .failed ∧
      (s.tables.models.get? sampleAttempt).map (·.state) = some .unknown ∧
      Trace.Along (step 30 Sha256.hexdigest)
        (fun s action => ∀ s', s.step 30 Sha256.hexdigest action = some s' →
          Keeps Sha256.hexdigest s action s') sampleNew sampleTakeover := by
  have hrun : (Trace.run (step 30 Sha256.hexdigest) sampleNew sampleTakeover).any (fun s =>
      (s.tables.steps.get? "s1").map (·.status) = some .failed ∧
      (s.tables.models.get? sampleAttempt).map (·.state) = some .unknown) = true ∧
      Trace.Along (step 30 Sha256.hexdigest) (Replays Sha256.hexdigest) sampleNew
        sampleTakeover := by
    decide +kernel
  obtain ⟨hrun, halong⟩ := hrun
  obtain ⟨s, hs, hfailed, hunknown⟩ := exists_of_any hrun
  exact ⟨s, hs, hfailed, hunknown, (durable_execution_sound halong).1⟩

end DurableRun

end LocalAgent.Runtime
