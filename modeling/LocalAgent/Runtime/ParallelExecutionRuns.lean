import LocalAgent.Runtime.ParallelExecution
import LocalAgent.Runtime.StepCompletionRuns

/-!
# LocalAgent.Runtime.ParallelExecutionRuns — how every execution of a batch ends

* `Settles`: a call that gives a step an outcome gives it the outcome that the state shows.
* `Acts`: what a worker, the cleanup or somebody else may do in one step.
* `Orderly`: the deadline does not pass before the group has started, and while a claimed step is
  active no publication of the cleanup breaks off.
* `execution_sound`: along orderly steps a report is about steps that have ended, in the order of the
  claims and with the statuses of the state; and no exception leaves a claimed step active.
-/

namespace LocalAgent.Runtime

open AgentStateMachine (Kept)

instance : Std.Refl Kept := ⟨Kept.refl⟩

instance : IsTrans AgentState Kept := ⟨fun _ _ _ => Kept.trans⟩

/-- The step is running or waits for an approval. -/
def AgentState.Active (state : AgentState) (stepId : String) : Prop :=
  ∃ step ∈ state.steps.get? stepId, step.status.IsActive
  deriving Decidable

/-- The step has reached a terminal status. -/
def AgentState.Ended (state : AgentState) (stepId : String) : Prop :=
  ∃ step ∈ state.steps.get? stepId, step.status.IsTerminal

def StepExecutionOutcome.Agrees (outcome : StepExecutionOutcome) (state : AgentState)
    (stepId : String) : Prop :=
  outcome.stepId = stepId ∧ ∃ step, state.steps.get? stepId = some step ∧
    step.status = outcome.status

namespace ParallelExecutor

open Coroutine

variable {status : StepStatus} {outcome : StepExecutionOutcome} {stepId : String}
  {result : Option DriverResult} {claims : List StepClaim} {e : ExecError}

theorem isTerminal_of_isOutcome (h : status.IsOutcome) : status.IsTerminal := by
  rcases h with h | h | h
  · exact .inl h
  · exact .inr (.inl h)
  · exact .inr (.inr (.inl h))

variable {s' state : AgentState}

theorem Agrees.kept
    (h : outcome.Agrees state stepId) (hkept : Kept state s') : outcome.Agrees s' stepId := by
  obtain ⟨hid, step, hstep, hstatus⟩ := h
  refine ⟨hid, step, hkept.terminal stepId step hstep ?_, hstatus⟩
  rw [hstatus]
  exact isTerminal_of_isOutcome outcome.valid.settled

theorem Ended.kept (h : state.Ended stepId) (hkept : Kept state s') : s'.Ended stepId := by
  obtain ⟨step, hstep, hterm⟩ := h
  exact ⟨step, hkept.terminal stepId step hstep hterm, hterm⟩

theorem Agrees.ended (h : outcome.Agrees state stepId) : state.Ended stepId := by
  obtain ⟨-, step, hstep, hstatus⟩ := h
  refine ⟨step, hstep, ?_⟩
  rw [hstatus]
  exact isTerminal_of_isOutcome outcome.valid.settled

theorem Ended.not_active (h : state.Ended stepId) : ¬ state.Active stepId := by
  rintro ⟨_, hstep', hactive⟩
  obtain ⟨step, hstep, hterm⟩ := h
  obtain rfl := Option.mem_unique hstep hstep'
  revert hterm hactive
  cases step.status <;> decide

/-! ## Outcomes -/

variable {errorMessage safeErrorCode : Option String} {data : StepEventData}
  {completion : StepCompletionResult} {planStep : Option PlanStep}
  {withAttempt parentCancelled : Bool} {current : StepState} {report : ParallelExecutionReport}

theorem new_ok {startedAt endedAt : DateTime} {errorCode : Option String}
    (h : StepExecutionOutcome.new stepId status startedAt endedAt result errorCode errorMessage =
      .ok outcome) : outcome.stepId = stepId ∧ outcome.status = status := by
  unfold StepExecutionOutcome.new at h
  split_ifs at h
  cases h
  exact ⟨rfl, rfl⟩

theorem applyEvent_ok (h : applyEvent data state = .ok () s') :
    AgentStateMachine.applyStepData data state = .ok () s' := by
  unfold applyEvent at h
  split at h
  · next heq => exact (EStateM.Result.ok.inj h).2 ▸ heq
  · cases h

theorem follows_applyEvent (data : StepEventData) : Op.Follows Kept (applyEvent data) := by
  intro state
  refine .single ?_
  unfold Op.after applyEvent
  cases h : AgentStateMachine.applyStepData data state with
  | ok => exact AgentStateMachine.kept_applyStepData h
  | error => exact AgentStateMachine.applyStepData_error h ▸ Kept.refl _

theorem status_applyEvent {target : StepStatus} (h : applyEvent data state = .ok () s')
    (htarget : ∀ status status', stepTransitions status data.eventType = some status' →
      status' = target) : ∃ step, s'.steps.get? data.stepId = some step ∧ step.status = target := by
  obtain ⟨event, rfl, happly⟩ := AgentStateMachine.applyStepData_ok (applyEvent_ok h)
  obtain ⟨step, status, -, htable, -, rfl, -⟩ := AgentStateMachine.applyStepEvent_ok happly
  refine ⟨AgentStateMachine.writeStepEvent step event status, ?_, ?_⟩
  · simp [AgentStateMachine.stepApplied]
  · rw [AgentStateMachine.writeStepEvent_status]
    exact htarget _ _ htable

theorem target_eventTypeOf (h : status.IsOutcome) (current target : StepStatus)
    (htable : stepTransitions current (eventTypeOf status) = some target) : target = status := by
  rcases h with rfl | rfl | rfl
  all_goals cases current <;> simp_all [eventTypeOf, stepTransitions]

/-- The call keeps the state, and gives the step the outcome that the state shows. -/
structure Settles (stepId : String) (x : OutcomeOp) (state : AgentState) : Prop where
  kept : Kept state (Op.after x state)
  agrees : ∀ outcome s', x state = .ok outcome s' → outcome.Agrees s' stepId

variable {now : DateTime.Utc} {claim : StepClaim} {state : AgentState}

/-- An event that the transition table sends to one status settles the step in it. -/
theorem settles_event {eventType : StepEventType} {occurredAt started ended : DateTime}
    {errorCode : Option String}
    (htarget : ∀ current target, stepTransitions current eventType = some target →
      target = status) :
    Settles stepId (do
      applyEvent ⟨eventType, stepId, occurredAt, errorCode, errorMessage⟩
      Op.lift (StepExecutionOutcome.new stepId status started ended result errorCode errorMessage))
      state where
  kept := ((follows_applyEvent _).bind fun _ => Op.follows_lift _).rel state
  agrees := fun outcome s' h => by
    obtain ⟨_, t, happly, hnew⟩ := Op.bind_ok_iff.mp h
    obtain ⟨hvalue, rfl⟩ := Op.lift_ok_iff.mp hnew
    obtain ⟨hid, hstatus⟩ := new_ok hvalue
    obtain ⟨step, hstep, htarget⟩ := status_applyEvent happly htarget
    exact ⟨hid, step, hstep, htarget.trans hstatus.symm⟩

theorem settles_raise (e : ExecError) : Settles stepId (Op.raise e) state :=
  ⟨.refl _, fun _ _ h => nomatch h⟩

theorem Settles.get_bind {f : AgentState → OutcomeOp}
    (h : Settles stepId (f state) state) : Settles stepId (get >>= f) state :=
  ⟨h.kept, h.agrees⟩

/-- The terminal outcome agrees with the state that it leaves. -/
theorem settles_terminal {errorCode : Option String} (hstatus : status.IsOutcome) :
    Settles claim.stepId (terminal now claim status result errorCode errorMessage) state := by
  unfold terminal
  refine .get_bind ?_
  split
  · exact settles_raise _
  · split_ifs
    · exact settles_raise _
    · refine settles_event ?_
      exact target_eventTypeOf hstatus
    · exact settles_raise _

theorem settles_outcomeFromState
    (hstate : ∀ step, state.steps.get? claim.stepId = some step → step.status = status) :
    Settles claim.stepId (outcomeFromState now claim status) state := by
  unfold outcomeFromState
  refine .get_bind ?_
  split
  · exact settles_raise _
  · next current hcurrent =>
    split_ifs
    · refine ⟨(Op.follows_lift _).rel state, fun outcome s' h => ?_⟩
      obtain ⟨hvalue, rfl⟩ := Op.lift_ok_iff.mp h
      obtain ⟨hid, hstatus⟩ := new_ok hvalue
      exact ⟨hid, current, hcurrent, (hstate current hcurrent).trans hstatus.symm⟩
    · exact settles_raise _

theorem settles_settleOutcome {errorCode errorMessage : String} :
    Settles claim.stepId (settleOutcome now claim errorCode errorMessage) state := by
  unfold settleOutcome
  refine .get_bind ?_
  split
  · exact settles_raise _
  · next current hcurrent =>
    split_ifs
    · exact settles_terminal (.inr (.inr rfl))
    · refine settles_outcomeFromState fun step hstep => ?_
      rw [Option.mem_unique hstep hcurrent]

theorem settles_approvalRejectedTerminal :
    Settles claim.stepId (approvalRejectedTerminal now claim) state := by
  unfold approvalRejectedTerminal
  refine .get_bind ?_
  split
  · exact settles_raise _
  · next current hcurrent =>
    split_ifs
    · refine settles_outcomeFromState fun step hstep => ?_
      rw [Option.mem_unique hstep hcurrent]
    · exact settles_raise _
    · refine settles_event fun status target htable => ?_
      cases status <;> simp_all [stepTransitions]

/-- What a completion says of the step is what the state has. -/
theorem settles_completionOutcome
    (hdone : completion.errorCode = none → state.Succeeded claim.stepId) :
    Settles claim.stepId (completionOutcome now claim completion) state := by
  unfold completionOutcome
  refine .get_bind ?_
  split_ifs with herror
  · refine settles_outcomeFromState fun step hstep => ?_
    rw [hstep]
    rfl
  · refine settles_outcomeFromState fun step hstep => ?_
    obtain ⟨done, hget, hstatus⟩ := hdone (not_not.mp herror)
    rwa [← Option.mem_unique hget hstep]

/-! ## Computations of the committer -/

section Committer

open StepResultCommitter (CommitCall emitStep)

variable {α β : Type}

/-- A section of the committer, as a section of the execution. -/
def lifted (act : CommitterInput → CommitterWorld → Except PublishError α × CommitterWorld) :
    ExecInput → ExecWorld → Except PublishError α × ExecWorld :=
  fun i w => ((act i.commit w.commit).1, { w with commit := (act i.commit w.commit).2 })

theorem onCommitter_bind (x : CommitCall α) (f : α → CommitCall β) :
    onCommitter (x >>= f) = onCommitter x >>= fun a => onCommitter (f a) := by
  show zoom _ _ _ (x.run >>= _) = _
  rw [zoom_bind]
  show _ = (zoom _ _ _ x.run >>= _)
  congr 1
  funext r
  cases r <;> rfl

theorem onCommitter_emitStep (record : StepRecord) (close : Bool) :
    onCommitter (emitStep record close fun _ => []) = (tryPerform (lifted fun i w =>
        if record.stepId ∈ w.closedEmitters then (.error .runtime, w)
        else
          match i.beforeAppend with
          | some fault => (.error (fault.error false), w)
          | none => (.ok (), { w with journal := w.journal ++ [record]
                                      history := w.history ++ [] })) >>= fun _ =>
        tryPerform (lifted fun i w =>
          match i.afterAppend with
          | some fault => (.error (fault.error true), w)
          | none => (.ok (), { w with closedEmitters := w.closedEmitters ++
              if close then [record.stepId] else [] })) :
        Fallible ExecInput ExecWorld PublishError Unit) :=
  onCommitter_bind _ _

end Committer

/-! ## What a step may do -/

variable (cfg : ExecConfig)

/-- Every outcome is the one that the state shows. -/
def OutcomesAgree (w : ExecWorld) : Prop := ∀ stepId outcome,
  w.outcomes.get? stepId = some outcome → outcome.Agrees w.commit.state stepId

/-- What holds between any two steps. -/
structure Inv (w : ExecWorld) : Prop where
  valid : w.commit.state.Valid
  begun : ∀ claim ∈ cfg.claims, ∃ step, w.commit.state.steps.get? claim.stepId = some step ∧
    step.status ≠ .pending
  agree : OutcomesAgree w
  commit : ∀ owner ∈ cfg.completionOwner, StepResultCommitter.Inv owner w.commit

/-- What one step of the worker `who` may do; `none` stands for everybody else. -/
structure Acts (who : Option ℕ) (w w' : ExecWorld) : Prop where
  commit : ∀ owner ∈ cfg.completionOwner, StepResultCommitter.Acts owner who w.commit w'.commit
  kept : Kept w.commit.state w'.commit.state
  agree : OutcomesAgree w → OutcomesAgree w'

def contract (n : ℕ) : Contract ExecInput ExecWorld where
  rely := fun w w' => ∃ who, who ≠ some n ∧ Acts cfg who w w'
  guar := Acts cfg (some n)
  allows := fun _ _ => True

variable {cfg}
variable {n : ℕ} {who : Option ℕ} {w w' : ExecWorld}

theorem Acts.keeps (h : Acts cfg who w w') (hw : Inv cfg w) : Inv cfg w' where
  valid := h.kept.valid hw.valid
  begun := fun claim hclaim => by
    obtain ⟨_, hstep, hne⟩ := hw.begun claim hclaim
    exact h.kept.begun _ _ hstep hne
  agree := h.agree hw.agree
  commit := fun owner howner => (h.commit owner howner).keeps (hw.commit owner howner)

theorem Acts.anyone (h : Acts cfg none w w') : Acts cfg who w w' :=
  ⟨fun owner howner => (h.commit owner howner).anyone, h.kept, h.agree⟩

theorem Acts.stable {P : ExecWorld → Prop} (h : Acts cfg none w w')
    (hP : Stable (contract cfg n) P) (hw : P w) : P w' :=
  hP w w' ⟨none, nofun, h⟩ hw

theorem Acts.frame (houtcomes : w'.outcomes = w.outcomes)
    (hkept : Kept w.commit.state w'.commit.state)
    (hguards : w'.commit.completedSteps = w.commit.completedSteps)
    (hhistory : w'.commit.history = w.commit.history) (hstore : w'.commit.store = w.commit.store) :
    Acts cfg who w w' where
  commit := fun _ _ => .frame hguards hhistory hkept fun _ h => hstore ▸ h
  kept := hkept
  agree := fun hw stepId outcome h => Agrees.kept (hw stepId outcome (houtcomes ▸ h)) hkept

theorem acts_same (hcommit : w'.commit = w.commit) (houtcomes : w'.outcomes = w.outcomes) :
    Acts cfg who w w' :=
  .frame houtcomes (hcommit ▸ Kept.refl _) (hcommit ▸ rfl) (hcommit ▸ rfl) (hcommit ▸ rfl)

/-- A settled outcome is a move of the runner's own step. -/
theorem acts_settled {state : AgentState}
    (hkept : Kept w.commit.state state) (hagrees : outcome.Agrees state stepId)
    (hcommit : w'.commit = { w.commit with state := state })
    (houtcomes : w'.outcomes = w.outcomes.set stepId outcome) : Acts cfg who w w' := by
  have hstate : w'.commit.state = state := congrArg CommitterWorld.state hcommit
  refine ⟨fun _ _ => ?_, hstate ▸ hkept, fun hagree other result h => ?_⟩
  · exact .frame (hcommit ▸ rfl) (hcommit ▸ rfl) (hstate ▸ hkept) fun _ h => hcommit ▸ h
  · rw [houtcomes] at h
    rw [hstate]
    by_cases hother : other = stepId
    · subst hother
      obtain rfl : outcome = result := by simpa using h
      exact hagrees
    · exact Agrees.kept (hagree other result (by simpa [hother] using h)) hkept

theorem stable_inv : Stable (contract cfg n) (Inv cfg) :=
  fun _ _ ⟨_, _, hacts⟩ hw => hacts.keeps hw

/-! ## Sections of a worker -/

section Sections

variable {P : ExecWorld → Prop} {ε α β : Type}

theorem triple_quiet (hP : Stable (contract cfg n) P)
    {act : ExecInput → ExecWorld → Except ε α × ExecWorld}
    (hacts : ∀ i w, P w → Acts cfg none w (act i w).2) :
    Triple (contract cfg n) P (tryPerform act) fun _ => P :=
  Triple.tryPerform hP (fun _ => hP) fun w i hw _ =>
    ⟨(hacts i w hw).anyone, (hacts i w hw).stable hP hw⟩

theorem triple_quiet_perform (hP : Stable (contract cfg n) P)
    {act : ExecInput → ExecWorld → α × ExecWorld}
    (hacts : ∀ i w, P w → Acts cfg none w (act i w).2) :
    Triple (contract cfg n) P (perform act : Fallible ExecInput ExecWorld ε α) fun _ => P :=
  Triple.perform hP (fun _ => hP) fun w i hw _ =>
    ⟨(hacts i w hw).anyone, (hacts i w hw).stable hP hw⟩

variable {x : Fallible ExecInput ExecWorld ε α} {trigger : Bool}

section

variable (hP : Stable (contract cfg n) P)
include hP

theorem triple_seq
    {f : α → Fallible ExecInput ExecWorld ε β} (hx : Triple (contract cfg n) P x fun _ => P)
    (hf : ∀ a, Triple (contract cfg n) P (f a) fun _ => P) :
    Triple (contract cfg n) P (x >>= f : Fallible ExecInput ExecWorld ε β) fun _ => P :=
  Triple.except_bind hx hf (fun _ => hP) fun _ _ h => h

theorem triple_try {ε' : Type}
{f : Except ε α → Fallible ExecInput ExecWorld ε' β} (hx : Triple (contract cfg n) P x fun _ => P)
    (hf : ∀ r, Triple (contract cfg n) P (f r) fun _ => P) :
    Triple (contract cfg n) P (attempt x >>= f : Fallible ExecInput ExecWorld ε' β) fun _ => P :=
  Triple.attempt_bind hx (fun _ => hP) hf

theorem triple_pure (a : α) :
    Triple (contract cfg n) P (pure a : Fallible ExecInput ExecWorld ε α) fun _ => P :=
  Triple.except_pure hP fun _ h => h

theorem triple_throw (e : ε) :
    Triple (contract cfg n) P (throw e : Fallible ExecInput ExecWorld ε α) fun _ => P :=
  Triple.except_throw hP fun _ h => h

theorem triple_settle
    {x : DateTime.Utc → OutcomeOp} (hx : ∀ w, P w → ∀ now, Settles stepId (x now) w.commit.state) :
    Triple (contract cfg n) P (settle stepId x) fun _ => P := by
  refine triple_quiet hP fun i w hw => ?_
  have hsettles := hx w hw i.commit.now
  cases hrun : x i.commit.now w.commit.state with
  | ok outcome state =>
    exact acts_settled (Op.after_ok hrun ▸ hsettles.kept) (hsettles.agrees outcome state hrun) rfl rfl
  | error => exact .frame rfl (Op.after_error hrun ▸ hsettles.kept) rfl rfl rfl

theorem triple_emitStep (record : StepRecord) (close : Bool) :
    Triple (contract cfg n) P (onCommitter (StepResultCommitter.emitStep record close fun _ => []))
      fun _ => P := by
  rw [onCommitter_emitStep]
  refine triple_seq hP (triple_quiet hP fun i w _ => ?_)
    fun _ => triple_quiet hP fun i w _ => ?_
  · unfold lifted
    dsimp only
    split_ifs
    · exact acts_same rfl rfl
    · cases i.commit.beforeAppend with
      | some => exact acts_same rfl rfl
      | none => exact .frame rfl (.refl _) rfl (List.append_nil _) rfl
  · unfold lifted
    dsimp only
    cases i.commit.afterAppend with
    | some => exact acts_same rfl rfl
    | none => exact .frame rfl (.refl _) rfl rfl rfl

theorem triple_emitStepCompleted : Triple (contract cfg n) P
      (emitStepCompleted cfg claim planStep status safeErrorCode withAttempt) fun _ => P := by
  unfold emitStepCompleted
  split_ifs
  · exact triple_pure hP _
  refine triple_seq hP (triple_quiet_perform hP fun _ _ _ => acts_same rfl rfl)
    fun ⟨closed, atomicMutation⟩ => ?_
  dsimp only
  split_ifs
  · exact triple_pure hP _
  refine triple_try hP (triple_emitStep hP _ _) fun outcome => ?_
  unfold completionPublished
  split
  · exact triple_pure hP _
  · split_ifs
    · exact triple_pure hP _
    · exact triple_throw hP _

theorem triple_signalFailFast (trigger : Bool) :
    Triple (contract cfg n) P (signalFailFast cfg trigger) fun _ => P := by
  unfold signalFailFast
  split_ifs
  · refine triple_seq hP ?_ fun _ => triple_throw hP _
    exact triple_quiet_perform hP fun _ _ _ => acts_same rfl rfl
  · exact triple_throw hP _
  · exact triple_pure hP _

theorem triple_awaitTurn : Triple (contract cfg n) P awaitTurn fun _ => P := by
  refine triple_quiet hP fun i w _ => ?_
  split_ifs <;> exact acts_same rfl rfl

theorem triple_noteAttempt (stepId : String) :
    Triple (contract cfg n) P (noteAttempt cfg stepId) fun _ => P := by
  unfold noteAttempt
  split_ifs
  · exact triple_pure hP _
  · exact triple_quiet_perform hP fun _ _ _ => acts_same rfl rfl

theorem triple_emitStepStarted :
    Triple (contract cfg n) P (emitStepStarted cfg claim) fun _ => P := by
  have hstart : Triple (contract cfg n) P (startStep cfg) fun _ => P := by
    unfold startStep
    split_ifs
    · refine triple_quiet hP fun i w _ => ?_
      cases i.startError <;> exact acts_same rfl rfl
    · exact triple_pure hP _
  unfold emitStepStarted
  split_ifs
  · exact triple_throw hP _
  · exact triple_seq hP hstart fun _ => triple_noteAttempt hP _
  · refine triple_seq hP hstart fun _ => triple_try hP (triple_emitStep hP _ _) fun outcome => ?_
    unfold startPublished
    split
    · exact triple_noteAttempt hP _
    · split_ifs
      · exact triple_pure hP _
      · exact triple_throw hP _

theorem triple_emitOutput
    {result : DriverResult} : Triple (contract cfg n) P (emitOutput cfg claim result) fun _ => P := by
  unfold emitOutput
  split
  · split_ifs
    · refine triple_quiet hP fun i w _ => ?_
      split_ifs
      · exact acts_same rfl rfl
      · cases i.commit.beforeAppend <;> exact acts_same rfl rfl
    · exact triple_pure hP _
  · exact triple_pure hP _

theorem triple_fail {error : ExecError}
: Triple (contract cfg n) P (fail cfg claim error trigger) fun _ => P :=
  triple_seq hP (triple_settle hP fun _ _ _ => settles_terminal (.inr (.inl rfl)))
    fun _ => triple_seq hP (triple_emitStepCompleted hP) fun _ => triple_signalFailFast hP trigger

theorem triple_reject : Triple (contract cfg n) P (reject cfg claim trigger) fun _ => P :=
  triple_seq hP (triple_settle hP fun _ _ _ => settles_approvalRejectedTerminal)
    fun _ => triple_seq hP (triple_emitStepCompleted hP) fun _ => triple_signalFailFast hP trigger

theorem triple_cancelOwn {errorCode errorMessage : String} :
    Triple (contract cfg n) P (cancelOwn cfg claim errorCode errorMessage) fun _ => P :=
  triple_seq hP (triple_settle hP fun _ _ _ => settles_settleOutcome)
    fun _ => triple_emitStepCompleted hP

theorem triple_handle (outcome : Except ExecError Unit) :
    Triple (contract cfg n) P (handle cfg claim outcome) fun _ => P := by
  unfold handle
  split
  · exact triple_pure hP _
  · exact triple_seq hP (triple_cancelOwn hP) fun _ => triple_throw hP _
  · exact triple_seq hP (triple_quiet_perform hP fun _ _ _ => acts_same rfl rfl)
      fun _ => triple_cancelOwn hP
  · exact triple_reject hP
  · exact triple_fail hP
  · exact triple_fail hP
  · exact triple_throw hP _

end

end Sections

/-! ## The worker -/

/-- The worker has not called `commit` yet. -/
structure Ready (cfg : ExecConfig) (n : ℕ) (w : ExecWorld) : Prop where
  inv : Inv cfg w
  idle : ∀ owner ∈ cfg.completionOwner, StepResultCommitter.Idle owner n w.commit

theorem stable_ready : Stable (contract cfg n) (Ready cfg n) := by
  rintro w _ ⟨who, hwho, hacts⟩ hw
  refine ⟨hacts.keeps hw.inv, fun owner howner => ?_⟩
  exact StepResultCommitter.stable_idle _ _ ⟨who, hwho, hacts.commit owner howner⟩
    (hw.idle owner howner)

/-- `commit` has returned. -/
structure Completed (cfg : ExecConfig) (stepId : String) (completion : StepCompletionResult)
    (w : ExecWorld) : Prop where
  inv : Inv cfg w
  succeeded : completion.errorCode = none → w.commit.state.Succeeded stepId

theorem stable_completed : Stable (contract cfg n) (Completed cfg stepId completion) :=
  fun _ _ ⟨_, _, hacts⟩ hw =>
    ⟨hacts.keeps hw.inv, fun h => hacts.kept.succeeded (hw.succeeded h)⟩

/-- After `commit`. -/
def AfterCommit (cfg : ExecConfig) (stepId : String) :
    Except PublishError StepCompletionResult → ExecWorld → Prop
  | .ok completion => Completed cfg stepId completion
  | .error _ => Inv cfg

theorem stable_afterCommit (r : Except PublishError StepCompletionResult) :
    Stable (contract cfg n) (AfterCommit cfg stepId r) := by
  cases r with
  | ok => exact stable_completed
  | error => exact stable_inv

theorem triple_commit {owner : CommitterConfig} (howner : owner ∈ cfg.completionOwner)
{result : DriverResult} : Triple (contract cfg n) (Ready cfg n)
      (onCommitter (StepResultCommitter.commit owner n claim result))
      (AfterCommit cfg claim.stepId) := by
  have hguar : ∀ (w : ExecWorld) (commit : CommitterWorld), Inv cfg w →
      StepResultCommitter.Acts owner (some n) w.commit commit →
      Acts cfg (some n) w { w with commit := commit } ∧ Inv cfg { w with commit := commit } := by
    intro w commit hw hacts
    have hexec : Acts cfg (some n) w { w with commit := commit } := by
      refine ⟨fun other hother => ?_, hacts.state, fun hagree stepId outcome h =>
        Agrees.kept (hagree stepId outcome h) hacts.state⟩
      cases Option.mem_unique howner hother
      exact hacts
    exact ⟨hexec, hexec.keeps hw⟩
  have hrely : ∀ w w', (contract cfg n).rely w w' →
      (StepResultCommitter.contract owner n).rely w.commit w'.commit :=
    fun w w' ⟨who, hwho, hacts⟩ => ⟨who, hwho, hacts.commit owner howner⟩
  refine (Triple.zoom (fun _ _ => rfl) hrely (fun _ _ _ => trivial) hguar stable_inv
    StepResultCommitter.triple_commit).mono ?_ ?_
  · exact fun w hw => ⟨hw.idle owner howner, hw.inv⟩
  · rintro (e | _) w ⟨hcommit, hinv⟩
    · exact hinv
    · exact ⟨hinv, fun hnone => (hcommit.complete (hcommit.succeeded hnone)).1⟩

/-- A finished runner has the outcome of its step. -/
theorem triple_finish {result : DriverResult} :
    Triple (contract cfg n) (Ready cfg n) (finish cfg n claim result) fun _ => Inv cfg := by
  unfold finish
  split
  · next owner howner =>
    refine Triple.attempt_bind (triple_commit howner) stable_afterCommit fun outcome => ?_
    cases outcome with
    | error => exact triple_throw stable_inv _
    | ok completion =>
      refine Triple.mono (P := Completed cfg claim.stepId completion)
        (Q := fun _ => Completed cfg claim.stepId completion) ?_ (fun _ h => h) fun _ _ h => h.inv
      refine triple_seq stable_completed
        (triple_quiet_perform stable_completed fun _ _ _ => acts_same rfl rfl) fun _ => ?_
      refine triple_seq stable_completed (triple_settle stable_completed fun w hw _ =>
        settles_completionOutcome hw.succeeded) fun _ => ?_
      split_ifs
      · exact triple_signalFailFast stable_completed _
      · exact triple_pure stable_completed _
  · refine Triple.mono (P := Inv cfg) (Q := fun _ => Inv cfg) ?_ (fun _ h => h.inv) fun _ _ h => h
    refine triple_seq stable_inv (triple_emitOutput stable_inv) fun _ => ?_
    exact triple_seq stable_inv (triple_settle stable_inv fun _ _ _ => settles_terminal (.inl rfl))
      fun _ => triple_emitStepCompleted stable_inv

theorem triple_driverReturned (outcome : Except ExecError DriverResult) :
    Triple (contract cfg n) (Ready cfg n) (driverReturned cfg n claim outcome)
      fun _ => Inv cfg := by
  have hkeeps : ∀ {x : ExecCall Unit}, Triple (contract cfg n) (Ready cfg n) x
      (fun _ => Ready cfg n) → Triple (contract cfg n) (Ready cfg n) x fun _ => Inv cfg :=
    fun h => h.mono (fun _ h => h) fun _ _ h => h.inv
  unfold driverReturned
  split
  · exact triple_finish
  · exact hkeeps (triple_reject stable_ready)
  · exact hkeeps (triple_fail stable_ready)
  · exact hkeeps (triple_fail stable_ready)
  · exact hkeeps (triple_fail stable_ready)
  · exact hkeeps (triple_throw stable_ready _)

/-- The body of a runner, from its start to its outcome. -/
theorem triple_body :
    Triple (contract cfg n) (Ready cfg n) (body cfg n claim) fun _ => Inv cfg := by
  have hseq : ∀ {x : ExecCall Unit} {f : Unit → ExecCall Unit},
      Triple (contract cfg n) (Ready cfg n) x (fun _ => Ready cfg n) →
      (∀ a, Triple (contract cfg n) (Ready cfg n) (f a) fun _ => Inv cfg) →
      Triple (contract cfg n) (Ready cfg n) (x >>= f : ExecCall Unit) fun _ => Inv cfg :=
    fun hx hf => Triple.except_bind hx hf (fun _ => stable_ready) fun _ _ h => h.inv
  refine hseq (triple_emitStepStarted stable_ready) fun _ => ?_
  refine hseq (triple_quiet stable_ready fun _ _ _ => acts_same rfl rfl) fun _ => ?_
  refine hseq (triple_awaitTurn stable_ready) fun _ => ?_
  refine hseq (triple_quiet stable_ready fun _ _ _ => acts_same rfl rfl) fun _ => ?_
  refine hseq (triple_quiet stable_ready fun i w _ => ?_) fun _ => ?_
  · split_ifs <;> exact acts_same rfl rfl
  · refine Triple.attempt_bind (M := fun _ => Ready cfg n) ?_ (fun _ => stable_ready)
      triple_driverReturned
    exact triple_quiet stable_ready fun _ _ _ => acts_same rfl rfl

theorem triple_worker :
    Triple (contract cfg n) (Ready cfg n) (worker cfg n claim) fun _ => Inv cfg := by
  refine Triple.except_bind (triple_awaitTurn stable_ready) (fun _ => ?_) (fun _ => stable_ready)
    fun _ _ h => h.inv
  exact Triple.attempt_bind triple_body (fun _ => stable_inv) (triple_handle stable_inv)

/-! ## Cleanup -/

/-- The fields of a cancellation that `StepStateEvent` accepts. -/
structure Wording (errorCode message : String) : Prop where
  code : validateErrorCode (some errorCode) false = .ok ()
  message : validateErrorMessage (some message) = .ok ()

theorem wording_stepCancelled : Wording "STEP_CANCELLED" "步骤执行已取消" :=
  ⟨by decide, by decide⟩

theorem wording_runCancelled : Wording "RUN_CANCELLED" "运行已请求取消" :=
  ⟨by decide, by decide⟩

theorem wording_preflightFailed : Wording "EXECUTION_PREFLIGHT_FAILED" "执行前置校验失败" :=
  ⟨by decide, by decide⟩

theorem make_cancelled {errorCode message : String} {t : DateTime}
    (hid : ¬ Text.isBlank stepId = true) (ht : t.IsUtc) (hwording : Wording errorCode message) :
    ∃ event, StepStateEvent.make ⟨.cancelled, stepId, t, some errorCode, some message⟩ =
      .ok event := by
  have hwell : (⟨.cancelled, stepId, t, some errorCode, some message⟩ : StepEventData).postInit =
      .ok () := by
    simp only [StepEventData.postInit, seq_eq_ok, raiseIf_ok, validateUtcDatetime, not_not]
    exact ⟨hid, ht, hwording.message, hwording.code⟩
  unfold StepStateEvent.make
  split
  · exact ⟨_, rfl⟩
  · next h => cases hwell.symm.trans h

theorem latest_utc {a b : DateTime} (ha : a.IsUtc) (hb : b.IsUtc) : (DateTime.latest a b).IsUtc := by
  rcases DateTime.latest_cases a b with h | h
  · rwa [h]
  · rwa [h]

structure EndsWell (now : DateTime.Utc) (state : AgentState) (claim : StepClaim)
    (current : StepState) : Prop where
  started_utc : (startedAt claim current).IsUtc
  ended_utc : (endedAt now state claim current).IsUtc
  updated : ¬ endedAt now state claim current < state.updatedAt
  ordered : ¬ endedAt now state claim current < startedAt claim current
  started : current.startedAt = some (startedAt claim current)

/-- A step that is active can be cancelled. -/
theorem endsWell (hv : state.Valid)
    (hcurrent : state.steps.get? claim.stepId = some current) (hactive : current.status.IsActive) :
    EndsWell now state claim current := by
  have hstep := (hv.step _ _ hcurrent).2
  obtain ⟨started, hstarted⟩ := Option.ne_none_iff_exists'.mp (hstep.active hactive).1
  have hbegan : startedAt claim current = started := by
    unfold startedAt
    rw [hstarted]
    rfl
  have hutc : (startedAt claim current).IsUtc := hbegan ▸ (hstep.started _ hstarted).1
  refine ⟨hutc, latest_utc (latest_utc now.property hv.updated) hutc, ?_,
    DateTime.not_latest_lt_right _ _, hbegan ▸ hstarted⟩
  have h1 := DateTime.not_latest_lt_right now.val state.updatedAt
  have h2 := DateTime.not_latest_lt_left (DateTime.latest now.val state.updatedAt)
    (startedAt claim current)
  unfold endedAt
  rw [DateTime.lt_iff] at *
  omega

theorem applyEvent_cancelled {errorCode message : String} (hv : state.Valid)
    (hcurrent : state.steps.get? claim.stepId = some current) (hactive : current.status.IsActive)
    (hid : ¬ Text.isBlank claim.stepId = true) (hwording : Wording errorCode message) :
    ∃ s', applyEvent ⟨.cancelled, claim.stepId, endedAt now state claim current, some errorCode,
      some message⟩ state = .ok () s' := by
  have hends : EndsWell now state claim current := endsWell hv hcurrent hactive
  obtain ⟨event, hmake⟩ := make_cancelled hid hends.ended_utc hwording
  have hdata := StepStateEvent.make_eq_ok hmake
  have hcancels : AgentStateMachine.Cancels state event current := by
    refine ⟨by rw [hdata], by rw [hdata]; exact hends.ended_utc, by rw [hdata]; exact hcurrent,
      hactive, by rw [hdata]; exact hends.updated, fun t ht => ?_⟩
    cases hends.started.symm.trans ht
    rw [hdata]
    exact hends.ordered
  have hdone : AgentStateMachine.applyStepData ⟨.cancelled, claim.stepId,
      endedAt now state claim current, some errorCode, some message⟩ state =
      .ok () (AgentStateMachine.stepApplied state event current .cancelled) :=
    Op.lift_bind_ok_iff.mpr ⟨event, hmake, hcancels.apply hv⟩
  unfold applyEvent
  rw [hdone]
  exact ⟨_, rfl⟩

/-- The cancelled step ends in a terminal status. -/
theorem terminal_cancelled {errorCode message : String} (hv : state.Valid)
    (hactive : state.Active claim.stepId) (hid : ¬ Text.isBlank claim.stepId = true)
    (hwording : Wording errorCode message) :
    ∃ outcome s', terminal now claim .cancelled none (some errorCode) (some message) state =
      .ok outcome s' := by
  obtain ⟨current, hcurrent, hactive⟩ := hactive
  have hends : EndsWell now state claim current := endsWell hv hcurrent hactive
  obtain ⟨s', happly⟩ := applyEvent_cancelled hv hcurrent hactive hid hwording
  have hvalid : OutcomeValid .cancelled (startedAt claim current)
      (endedAt now state claim current) (some errorCode) (some message) :=
    ⟨.inr (.inr rfl), hends.started_utc, hends.ended_utc, hends.ordered, nofun⟩
  refine ⟨⟨claim.stepId, .cancelled, startedAt claim current, endedAt now state claim current, none,
    some errorCode, some message, hvalid⟩, s', ?_⟩
  have hnew : StepExecutionOutcome.new claim.stepId .cancelled (startedAt claim current)
      (endedAt now state claim current) none (some errorCode) (some message) =
      .ok ⟨claim.stepId, .cancelled, startedAt claim current, endedAt now state claim current, none,
        some errorCode, some message, hvalid⟩ := by
    unfold StepExecutionOutcome.new
    rw [dif_pos hvalid]
  unfold terminal
  rw [Op.get_bind_apply, hcurrent]
  show (if _ then _ else _ : OutcomeOp) state = _
  rw [if_neg (not_not.mpr hactive), if_neg fun h => h.2 rfl]
  exact Op.bind_ok_iff.mpr ⟨(), _, happly, Op.lift_ok_iff.mpr ⟨hnew, rfl⟩⟩

structure EndedBut (cfg : ExecConfig) (rest : List StepClaim) (w : ExecWorld) : Prop where
  inv : Inv cfg w
  ended : ∀ claim ∈ cfg.claims, claim ∈ rest ∨ w.commit.state.Ended claim.stepId

theorem Inv.ended_of_not_active (hw : Inv cfg w) (hclaim : claim ∈ cfg.claims)
    (h : ¬ w.commit.state.Active claim.stepId) : w.commit.state.Ended claim.stepId := by
  obtain ⟨step, hstep, hpending⟩ := hw.begun claim hclaim
  refine ⟨step, hstep, ?_⟩
  have hactive : ¬ step.status.IsActive := fun hactive => h ⟨step, hstep, hactive⟩
  revert hpending hactive
  cases step.status <;> decide

variable {rest : List StepClaim}

theorem EndedBut.acts (h : EndedBut cfg rest w)
    (hacts : Acts cfg none w w') : EndedBut cfg rest w' :=
  ⟨hacts.keeps h.inv, fun claim hclaim =>
    (h.ended claim hclaim).imp id fun hended => Ended.kept hended hacts.kept⟩

theorem EndedBut.next (h : EndedBut cfg (claim :: rest) w)
    (hended : w.commit.state.Ended claim.stepId) : EndedBut cfg rest w := by
  refine ⟨h.inv, fun other hother => ?_⟩
  rcases h.ended other hother with hmem | hend
  · rcases List.mem_cons.mp hmem with rfl | hmem
    · exact .inr hended
    · exact .inl hmem
  · exact .inr hend

/-- The cleanup goes on after this interruption. -/
def Swallowed (cfg : ExecConfig) (w : ExecWorld) (fault : PublishFault) : Prop :=
  isRuntimeError (fault.error false) = true ∧
    ¬ (cfg.durable = .on true ∧ ∃ stepId ∈ w.cancelling, stepId ∈ w.durableAttempts)
  deriving Decidable

/-- While a claimed step is active, no publication breaks off for good. -/
def Unbroken (cfg : ExecConfig) (w : ExecWorld) (i : ExecInput) : Prop :=
  (∃ claim ∈ cfg.claims, w.commit.state.Active claim.stepId) →
    (∀ fault ∈ i.commit.beforeAppend, Swallowed cfg w fault) ∧
      ∀ fault ∈ i.commit.afterAppend, Swallowed cfg w fault
  deriving Decidable

/-- The contract of the cleanup: the workers have ended, and others only call the state machine. -/
def cleanupContract (cfg : ExecConfig) : Contract ExecInput ExecWorld where
  rely := fun w w' => ∃ state, Kept w.commit.state state ∧
    w' = { w with commit := { w.commit with state := state } }
  guar := fun _ _ => True
  allows := Unbroken cfg

section Cleanup

variable {rest : List StepClaim} {errorCode message : String}

theorem stable_endedBut : Stable (cleanupContract cfg) (EndedBut cfg rest) := by
  rintro w _ ⟨_, hkept, rfl⟩ hw
  exact hw.acts (.frame rfl hkept rfl rfl rfl)

/-- After one claim of the cleanup; with `true` its completion is still to be published. -/
def AfterClaim (cfg : ExecConfig) (claim : StepClaim) (rest : List StepClaim) :
    Except ExecError Bool → ExecWorld → Prop
  | .ok true => fun w => EndedBut cfg rest w ∧ w.cancelling = some claim.stepId
  | .ok false => EndedBut cfg rest
  | .error _ => EndedBut cfg []

theorem stable_afterClaim (r : Except ExecError Bool) :
    Stable (cleanupContract cfg) (AfterClaim cfg claim rest r) := by
  rintro w _ ⟨state, hkept, rfl⟩ hw
  have hrely : (cleanupContract cfg).rely w
      { w with commit := { w.commit with state := state } } := ⟨state, hkept, rfl⟩
  match r, hw with
  | .ok true, ⟨hended, hcancelling⟩ => exact ⟨stable_endedBut _ _ hrely hended, hcancelling⟩
  | .ok false, hended => exact stable_endedBut _ _ hrely hended
  | .error _, hended => exact stable_endedBut _ _ hrely hended

/-- One cancelled claim leaves one fewer to end. -/
theorem EndedBut.cancel (now : DateTime.Utc) (hw : EndedBut cfg (claim :: rest) w)
    (hclaim : claim ∈ cfg.claims) (hactive : w.commit.state.Active claim.stepId)
    (hwording : Wording errorCode message) :
    ∃ outcome state, terminal now claim .cancelled none (some errorCode) (some message)
        w.commit.state = .ok outcome state ∧ Kept w.commit.state state ∧
      outcome.Agrees state claim.stepId := by
  obtain ⟨outcome, state, hterminal⟩ : ∃ outcome state, terminal now claim .cancelled none
      (some errorCode) (some message) w.commit.state = .ok outcome state :=
    terminal_cancelled hw.inv.valid hactive (cfg.named claim hclaim) hwording
  have hsettles : Settles claim.stepId
      (terminal now claim .cancelled none (some errorCode) (some message)) w.commit.state :=
    settles_terminal (.inr (.inr rfl))
  exact ⟨outcome, state, hterminal, Op.after_ok hterminal ▸ hsettles.kept,
    hsettles.agrees outcome state hterminal⟩

/-- The cleanup of one claim. -/
theorem triple_cancelClaim (hclaim : claim ∈ cfg.claims) (hwording : Wording errorCode message) :
    Triple (cleanupContract cfg) (EndedBut cfg (claim :: rest))
      (cancelClaim claim errorCode message) (AfterClaim cfg claim rest) := by
  refine Triple.tryPerform stable_endedBut stable_afterClaim fun w i hw _ => ⟨trivial, ?_⟩
  split_ifs with hany
  · have hactive : w.commit.state.Active claim.stepId := by
      obtain ⟨step, hstep, hstatus⟩ := Option.any_eq_true _ _ |>.mp hany
      exact ⟨step, hstep, of_decide_eq_true hstatus⟩
    obtain ⟨_, _, hterminal, hkept, hagrees⟩ :=
      hw.cancel i.commit.now hclaim hactive hwording
    rw [hterminal]
    refine ⟨EndedBut.next ?_ (Agrees.ended hagrees), rfl⟩
    exact hw.acts (.frame rfl hkept rfl rfl rfl)
  · refine hw.next (hw.inv.ended_of_not_active hclaim ?_)
    rintro ⟨step, hstep, hstatus⟩
    refine hany ?_
    exact Option.any_eq_true _ _ |>.mpr ⟨step, hstep, decide_eq_true hstatus⟩

theorem triple_cancelUnfinishedClaim (hclaim : claim ∈ cfg.claims) :
    Triple (cleanupContract cfg) (EndedBut cfg (claim :: rest)) (cancelUnfinishedClaim claim)
      (AfterClaim cfg claim rest) := by
  refine Triple.tryPerform stable_endedBut stable_afterClaim fun w i hw _ => ⟨trivial, ?_⟩
  split_ifs with hskip
  · refine hw.next ?_
    rcases hskip with hany | hmem
    · obtain ⟨step, hstep, hstatus⟩ := Option.any_eq_true _ _ |>.mp hany
      refine hw.inv.ended_of_not_active hclaim ?_
      rintro ⟨step', hstep', hactive⟩
      cases hstep.symm.trans hstep'
      exact of_decide_eq_true hstatus hactive
    · obtain ⟨outcome, houtcome⟩ := Dict.mem_keys_iff.mp hmem
      exact Agrees.ended (hw.inv.agree _ outcome houtcome)
  · have hactive : w.commit.state.Active claim.stepId := by
      obtain ⟨step, hstep, -⟩ := hw.inv.begun claim hclaim
      refine ⟨step, hstep, by_contra fun hstatus => hskip (.inl ?_)⟩
      exact Option.any_eq_true _ _ |>.mpr ⟨step, hstep, decide_eq_true hstatus⟩
    obtain ⟨_, _, hterminal, hkept, hagrees⟩ :=
      hw.cancel i.commit.now hclaim hactive wording_stepCancelled
    rw [hterminal]
    refine ⟨EndedBut.next ?_ (Agrees.ended hagrees), rfl⟩
    exact hw.acts (acts_settled hkept hagrees rfl rfl)

/-- Between the look at the emitter and the end of the publication. -/
structure Publishing (cfg : ExecConfig) (rest : List StepClaim) (stepId : String)
    (atomicMutation : Bool) (w : ExecWorld) : Prop where
  ended : EndedBut cfg rest w
  cancelling : w.cancelling = some stepId
  isOpen : stepId ∉ w.commit.closedEmitters
  mutation : atomicMutation = true → cfg.durable = .on true ∧ stepId ∈ w.durableAttempts

variable {atomicMutation : Bool}

theorem stable_publishing :
    Stable (cleanupContract cfg) (Publishing cfg rest stepId atomicMutation) := by
  rintro w _ ⟨state, hkept, rfl⟩ hw
  exact ⟨stable_endedBut _ _ ⟨state, hkept, rfl⟩ hw.ended, hw.cancelling, hw.isOpen, hw.mutation⟩

/-- After a publication; an exception that is not swallowed finds no claimed step active. -/
def AfterPublishing (cfg : ExecConfig) (rest : List StepClaim) (atomicMutation : Bool) :
    Except PublishError Unit → ExecWorld → Prop
  | .ok () => EndedBut cfg rest
  | .error error => fun w => EndedBut cfg rest w ∧
      (isRuntimeError error = true ∧ atomicMutation = false ∨ EndedBut cfg [] w)

theorem stable_afterPublishing (r : Except PublishError Unit) :
    Stable (cleanupContract cfg) (AfterPublishing cfg rest atomicMutation r) := by
  cases r with
  | ok => exact stable_endedBut
  | error =>
    intro w w' hrely hw
    exact ⟨stable_endedBut w w' hrely hw.1, hw.2.imp id (stable_endedBut w w' hrely)⟩

theorem Publishing.interrupted {fault : PublishFault}
    (hw : Publishing cfg rest stepId atomicMutation w)
    (hfault : (∃ claim ∈ cfg.claims, w.commit.state.Active claim.stepId) →
      Swallowed cfg w fault) (appended : Bool) :
    AfterPublishing cfg rest atomicMutation (.error (fault.error appended)) w := by
  refine ⟨hw.ended, ?_⟩
  by_cases hactive : ∃ claim ∈ cfg.claims, w.commit.state.Active claim.stepId
  · obtain ⟨hruntime, hmutation⟩ := hfault hactive
    refine .inl ⟨?_, ?_⟩
    · revert hruntime
      cases fault <;> exact fun h => h
    · refine Bool.eq_false_iff.mpr fun htrue => hmutation ⟨(hw.mutation htrue).1, stepId, ?_⟩
      exact ⟨hw.cancelling, (hw.mutation htrue).2⟩
  · refine .inr ⟨hw.ended.inv, fun claim hclaim => .inr ?_⟩
    exact hw.ended.inv.ended_of_not_active hclaim fun h => hactive ⟨claim, hclaim, h⟩

theorem triple_cleanup_emitStep (record : StepRecord) :
    Triple (cleanupContract cfg) (Publishing cfg rest record.stepId atomicMutation)
      (onCommitter (StepResultCommitter.emitStep record true fun _ => []))
      (AfterPublishing cfg rest atomicMutation) := by
  rw [onCommitter_emitStep]
  refine Triple.except_bind (M := fun
      | .ok () => Publishing cfg rest record.stepId atomicMutation
      | .error e => AfterPublishing cfg rest atomicMutation (.error e))
    (Triple.tryPerform stable_publishing ?_ fun w i hw hi => ⟨trivial, ?_⟩) (fun _ => ?_) ?_ ?_
  · rintro (e | u)
    · exact stable_afterPublishing _
    · exact stable_publishing
  · unfold lifted
    dsimp only
    rw [if_neg hw.isOpen]
    cases hfault : i.commit.beforeAppend with
    | some fault => exact hw.interrupted (fun hactive => (hi hactive).1 fault hfault) false
    | none =>
      refine ⟨hw.ended.acts ?_, hw.cancelling, hw.isOpen, hw.mutation⟩
      exact .frame rfl (.refl _) rfl (List.append_nil _) rfl
  · refine Triple.tryPerform stable_publishing stable_afterPublishing fun w i hw hi =>
      ⟨trivial, ?_⟩
    unfold lifted
    dsimp only
    cases hfault : i.commit.afterAppend with
    | some fault => exact hw.interrupted (fun hactive => (hi hactive).2 fault hfault) true
    | none => exact hw.ended.acts (.frame rfl (.refl _) rfl rfl rfl)
  · exact fun e => stable_afterPublishing _
  · exact fun e w hw => hw

def AfterEmission (cfg : ExecConfig) (rest : List StepClaim) :
    Except ExecError Unit → ExecWorld → Prop
  | .ok () => EndedBut cfg rest
  | .error _ => EndedBut cfg []

theorem triple_completionPublished (outcome : Except PublishError Unit) :
    Triple (cleanupContract cfg) (AfterPublishing cfg rest atomicMutation outcome)
      (completionPublished atomicMutation outcome) (AfterEmission cfg rest) := by
  unfold completionPublished
  split
  · exact Triple.except_pure (stable_afterPublishing _) fun _ h => h
  · split_ifs with hswallowed
    · exact Triple.except_pure (stable_afterPublishing _) fun _ h => h.1
    · exact Triple.except_throw (stable_afterPublishing _) fun _ h => h.2.resolve_left hswallowed

theorem triple_cleanup_emitStepCompleted :
    Triple (cleanupContract cfg) (AfterClaim cfg claim rest (.ok true))
      (emitStepCompleted cfg claim planStep status safeErrorCode withAttempt)
      (AfterEmission cfg rest) := by
  have hpure : Triple (cleanupContract cfg) (AfterClaim cfg claim rest (.ok true))
      (pure () : ExecCall Unit) (AfterEmission cfg rest) :=
    Triple.except_pure (stable_afterClaim _) fun _ h => h.1
  unfold emitStepCompleted
  split_ifs
  · exact hpure
  -- nobody closes the emitter between the look at it and the append
  refine Triple.except_bind (M := fun
      | .ok (true, _) => EndedBut cfg rest
      | .ok (false, atomicMutation) => Publishing cfg rest claim.stepId atomicMutation
      | .error _ => EndedBut cfg [])
    (Triple.perform (stable_afterClaim _) ?_ fun w i hw hi => ⟨trivial, ?_⟩)
    (fun ⟨closed, atomicMutation⟩ => ?_) (fun _ => stable_endedBut) fun _ _ h => h
  · rintro ⟨_ | _, atomicMutation⟩
    · exact stable_publishing
    · exact stable_endedBut
  · by_cases hclosed : claim.stepId ∈ w.commit.closedEmitters
    · simp only [decide_eq_true hclosed]
      exact hw.1
    · simp only [decide_eq_false hclosed]
      refine ⟨hw.1, hw.2, hclosed, fun h => ?_⟩
      obtain ⟨⟨-, hdurable⟩, hattempt⟩ := by simpa only [Bool.and_eq_true] using h
      exact ⟨of_decide_eq_true hdurable, of_decide_eq_true hattempt⟩
  · cases closed with
    | true => exact Triple.except_pure stable_endedBut fun _ h => h
    | false =>
      refine Triple.attempt_bind (M := AfterPublishing cfg rest atomicMutation) ?_
        stable_afterPublishing triple_completionPublished
      exact triple_cleanup_emitStep (.completed claim.stepId _)

/-- One round of the cleanup, with its emission. -/
theorem triple_round {x : ExecCall Bool} {emission next : ExecCall Unit}
    (hx : Triple (cleanupContract cfg) (EndedBut cfg (claim :: rest)) x (AfterClaim cfg claim rest))
    (hemission : Triple (cleanupContract cfg) (AfterClaim cfg claim rest (.ok true)) emission
      (AfterEmission cfg rest))
    (hnext : Triple (cleanupContract cfg) (EndedBut cfg rest) next fun _ => EndedBut cfg []) :
    Triple (cleanupContract cfg) (EndedBut cfg (claim :: rest))
      (x >>= fun active => if active then emission >>= fun _ => next else next : ExecCall Unit)
      fun _ => EndedBut cfg [] := by
  refine Triple.except_bind hx (fun active => ?_) (fun _ => stable_afterClaim _) fun _ _ h => h
  cases active with
  | true =>
    exact Triple.except_bind hemission (fun _ => hnext) (fun _ => stable_endedBut) fun _ _ h => h
  | false => exact hnext

/-- The cleanup ends every claim of the batch. -/
theorem triple_cancelClaims (hwording : Wording errorCode message)
    (hclaims : ∀ claim ∈ claims, claim ∈ cfg.claims) :
    Triple (cleanupContract cfg) (EndedBut cfg claims)
      (cancelClaims cfg errorCode message claims) fun _ => EndedBut cfg [] := by
  induction claims with
  | nil => exact Triple.except_pure stable_endedBut fun _ h => h
  | cons _ _ ih =>
    obtain ⟨hclaim, hrest⟩ := List.forall_mem_cons.mp hclaims
    exact triple_round (triple_cancelClaim hclaim hwording) triple_cleanup_emitStepCompleted
      (ih hrest)

theorem triple_cancelUnfinished (hclaims : ∀ claim ∈ claims, claim ∈ cfg.claims) :
    Triple (cleanupContract cfg) (EndedBut cfg claims) (cancelUnfinished cfg claims)
      fun _ => EndedBut cfg [] := by
  induction claims with
  | nil => exact Triple.except_pure stable_endedBut fun _ h => h
  | cons _ _ ih =>
    obtain ⟨hclaim, hrest⟩ := List.forall_mem_cons.mp hclaims
    exact triple_round (triple_cancelUnfinishedClaim hclaim) triple_cleanup_emitStepCompleted
      (ih hrest)

end Cleanup

/-! ## Runs -/

/-- What a report has to say about the batch. -/
structure Reports (cfg : ExecConfig) (state : AgentState) (report : ParallelExecutionReport) :
    Prop where
  order : report.outcomes.map StepExecutionOutcome.stepId = cfg.claims.map StepClaim.stepId
  agrees : ∀ outcome ∈ report.outcomes, outcome.Agrees state outcome.stepId
  partition : (report.succeededStepIds ++ report.failedStepIds ++ report.cancelledStepIds).Perm
    (cfg.claims.map StepClaim.stepId)

theorem Reports.kept {s' : AgentState}
    (h : Reports cfg state report) (hkept : Kept state s') : Reports cfg s' report :=
  ⟨h.order, fun outcome houtcome => Agrees.kept (h.agrees outcome houtcome) hkept, h.partition⟩

/-- Grouped by status the outcomes are those that were given. -/
theorem perm_by_status (outcomes : List StepExecutionOutcome) :
    (outcomes.filter (fun o => o.status = .succeeded) ++
      outcomes.filter (fun o => o.status = .failed) ++
      outcomes.filter (fun o => o.status = .cancelled)).Perm outcomes := by
  induction outcomes with
  | nil => exact .nil
  | cons outcome _ ih =>
    rcases outcome.valid.settled with h | h | h
    · simpa [h] using ih
    · simp only [List.filter_cons, h, decide_true, decide_false, if_true, reduceCtorEq,
        Bool.false_eq_true, if_false, List.append_assoc, List.cons_append]
      refine List.perm_middle.trans (.cons _ ?_)
      simpa using ih
    · simp only [List.filter_cons, h, decide_true, decide_false, if_true, reduceCtorEq,
        Bool.false_eq_true, if_false]
      exact List.perm_middle.trans (.cons _ ih)

theorem ordered_agrees {ordered : List StepExecutionOutcome}
    (h : List.Forall₂ (fun claim outcome => outcome.Agrees state claim.stepId) claims ordered) :
    ordered.map StepExecutionOutcome.stepId = claims.map StepClaim.stepId ∧
      ∀ outcome ∈ ordered, outcome.Agrees state outcome.stepId := by
  induction h with
  | nil => exact ⟨rfl, fun _ h => nomatch h⟩
  | @cons claim outcome claims ordered hagrees _ ih =>
    refine ⟨?_, List.forall_mem_cons.mpr ⟨?_, ih.2⟩⟩
    · rw [List.map_cons, List.map_cons, ih.1, hagrees.1]
    · rwa [hagrees.1]

/-- A report has one outcome for each claim, in the order of the claims. -/
theorem reports_of_report (hw : Inv cfg w)
    (h : ParallelExecutor.report cfg w = .ok report) : Reports cfg w.commit.state report := by
  obtain ⟨ordered, hmap, hreport⟩ := bind_eq_ok.mp h
  cases hreport
  have hclaims : List.Forall₂ (fun claim outcome => outcome.Agrees w.commit.state claim.stepId)
      cfg.claims ordered :=
    (except_mapM_ok hmap).imp fun claim outcome h => hw.agree _ _ (orRaise_ok.mp h)
  obtain ⟨horder, hagrees⟩ := ordered_agrees hclaims
  refine ⟨horder, hagrees, ?_⟩
  show (_ ++ _ ++ _ : List String).Perm _
  rw [← List.map_append, ← List.map_append, ← horder]
  exact (perm_by_status ordered).map _

def Closed (cfg : ExecConfig) (w : ExecWorld) : Except ExecError ParallelExecutionReport → Prop
  | .ok report => EndedBut cfg [] w ∧ Reports cfg w.commit.state report
  | .error error => error.isLoopSignal = false → EndedBut cfg [] w

theorem Closed.acts {result : Except ExecError ParallelExecutionReport} (h : Closed cfg w result)
    (hacts : Acts cfg none w w') : Closed cfg w' result := by
  cases result with
  | ok => exact ⟨h.1.acts hacts, h.2.kept hacts.kept⟩
  | error => exact fun he => (h he).acts hacts

/-- Every coroutine keeps its contract from here on. -/
def Safe (cfg : ExecConfig) (run : ExecRun) : Prop :=
  match run.phase with
  | .preflight => ∀ n, Ready cfg n run.pool.world
  | .working _ => Inv cfg run.pool.world ∧ run.pool.Holds (contract cfg) fun _ _ => Inv cfg
  | .closing _ => ∃ x, run.pool.routines = [x] ∧
      Coroutine.Holds (cleanupContract cfg) x (fun _ => EndedBut cfg []) run.pool.world
  | .finished result => Closed cfg run.pool.world result

/-- The cleanup is on. -/
def ExecPhase.isClosing : ExecPhase → Bool
  | .closing _ => true
  | _ => false

/-- The deadline has not passed at the preflight of a claimed step that is active, and no
publication of the cleanup breaks off while there is one. -/
def Orderly (cfg : ExecConfig) (run : ExecRun) : Action → Prop
  | .preflight inactive => preflight cfg = .ok () ∧ inactive = some .deadlineExceeded →
      ∀ claim ∈ cfg.claims, ¬ run.pool.world.commit.state.Active claim.stepId
  | .advance _ input => run.phase.isClosing = true → Unbroken cfg run.pool.world input
  | _ => True

theorem endedBut_claims (hw : Inv cfg w) : EndedBut cfg cfg.claims w :=
  ⟨hw, fun _ hclaim => .inl hclaim⟩

theorem endedBut_of_inactive (hw : Inv cfg w)
    (h : ∀ claim ∈ cfg.claims, ¬ w.commit.state.Active claim.stepId) : EndedBut cfg [] w :=
  ⟨hw, fun claim hclaim => .inr (hw.ended_of_not_active hclaim (h claim hclaim))⟩

/-! ### Preflight -/

theorem resourceLimits_error {specs : Dict String StepConcurrencySpec} :
    ∀ {claims : List StepClaim} {limits : Dict String ℕ},
      resourceLimits specs claims limits = .error e →
        ∃ errorCode message, e = .infrastructure errorCode message
  | [], _, h => nomatch h
  | claim :: claims, limits, h => by
    unfold resourceLimits at h
    dsimp only at h
    split at h
    · exact resourceLimits_error h
    · split_ifs at h
      · exact ⟨_, _, (Except.error.inj h).symm⟩
      · exact resourceLimits_error h

theorem preflight_error (h : preflight cfg = .error e) :
    ∃ errorCode message, e = .infrastructure errorCode message := by
  unfold preflight raiseIf at h
  split_ifs at h
  · exact ⟨_, _, (Except.error.inj h).symm⟩
  · cases hlimits : resourceLimits cfg.specs cfg.claims Dict.empty with
    | ok =>
      rw [hlimits] at h
      cases h
    | error =>
      rw [hlimits] at h
      cases h
      exact resourceLimits_error hlimits

/-- After the preflight the batch runs or cancels all its claims. -/
theorem safe_afterPreflight {inactive : Option Inactive} (hw : ∀ n, Ready cfg n w)
    (horderly : preflight cfg = .ok () ∧ inactive = some .deadlineExceeded →
      ∀ claim ∈ cfg.claims, ¬ w.commit.state.Active claim.stepId) :
    Safe cfg (afterPreflight cfg w inactive) := by
  have hinv : Inv cfg w := (hw 0).inv
  unfold afterPreflight
  cases hpreflight : preflight cfg with
  | error =>
    obtain ⟨_, _, rfl⟩ := preflight_error hpreflight
    exact ⟨_, rfl, triple_cancelClaims wording_preflightFailed (fun _ h => h) w
      (endedBut_claims hinv)⟩
  | ok =>
    rcases inactive with _ | _ | _
    · refine ⟨hinv, fun n x hx => ?_⟩
      have hx : (cfg.claims.mapIdx fun n claim => (worker cfg n claim).run)[n]? = some x := hx
      obtain ⟨_, -, rfl⟩ := by simpa [List.getElem?_mapIdx] using hx
      exact triple_worker w (hw n)
    · exact ⟨_, rfl, triple_cancelClaims wording_runCancelled (fun _ h => h) w
        (endedBut_claims hinv)⟩
    · exact fun _ => endedBut_of_inactive hinv (horderly ⟨hpreflight, rfl⟩)

/-! ### Steps -/

theorem verdict_signal {errors : List ExecError}
    (h : verdict errors parentCancelled = .signal e) : e.isLoopSignal = true := by
  unfold verdict at h
  cases hfind : errors.find? ExecError.isLoopSignal with
  | some =>
    simp only [hfind] at h
    split_ifs at h
    cases Verdict.signal.inj h
    exact List.find?_some hfind
  | none =>
    simp only [hfind] at h
    split_ifs at h

variable {run run' : ExecRun}

section

variable (hs : Safe cfg run)
include hs

/-- The step of one runner keeps the batch safe. -/
theorem Safe.advance {n : ℕ} {input : ExecInput} (horderly : Orderly cfg run (.advance n input))
    (h : step cfg run (.advance n input) = some run') : Safe cfg run' := by
  unfold step at h
  dsimp only at h
  unfold Safe at hs
  unfold Orderly at horderly
  split at h
  · next errors hphase =>
    rw [hphase] at hs
    obtain ⟨pool, hadvance, rfl⟩ := Option.map_eq_some_iff.mp h
    obtain ⟨hacts, hholds⟩ := Pool.holds_advance hs.2 hadvance trivial
      fun other hother _ _ hacts => ⟨some n, fun heq => hother (Option.some.inj heq).symm, hacts⟩
    exact ⟨hacts.keeps hs.1, hholds⟩
  · next error hphase =>
    simp only [hphase] at hs horderly
    obtain ⟨pool, hadvance, rfl⟩ := Option.map_eq_some_iff.mp h
    obtain ⟨x, hx, hholds⟩ := hs
    have hadvance : Pool.advance ⟨run.pool.world, [x]⟩ n input = some pool := hx ▸ hadvance
    obtain ⟨y, hy, -, hholds⟩ := Pool.holds_advance_alone hholds hadvance (horderly rfl)
    exact ⟨y, congrArg Pool.routines hy, hholds⟩
  · cases h

/-- The join keeps the batch safe. -/
theorem Safe.join (h : step cfg run (.join parentCancelled) = some run') : Safe cfg run' := by
  unfold step at h
  dsimp only at h
  unfold Safe at hs
  split at h
  · next errors hphase =>
    rw [hphase] at hs
    split_ifs at h
    split at h
    · next e hverdict =>
      cases h
      exact fun hsignal => nomatch hsignal.symm.trans (verdict_signal hverdict)
    · cases h
      exact ⟨_, rfl, triple_cancelUnfinished (fun _ h => h) _ (endedBut_claims hs.1)⟩
  · cases h

/-- The conclusion keeps the batch safe. -/
theorem Safe.conclude (h : step cfg run .conclude = some run') : Safe cfg run' := by
  unfold step at h
  dsimp only at h
  unfold Safe at hs
  split at h
  · next error outcome hphase hroutines =>
    rw [hphase] at hs
    obtain ⟨x, hx, hholds⟩ := hs
    cases List.singleton_inj.mp (hroutines.symm.trans hx)
    have hended : EndedBut cfg [] run.pool.world := hholds _ .refl
    cases h
    show Closed cfg run.pool.world (conclusion cfg run.pool.world error outcome)
    unfold conclusion
    split
    · exact fun _ => hended
    · split
      · exact fun _ => hended
      · cases hreport : report cfg run.pool.world with
        | ok => exact ⟨hended, reports_of_report hended.inv hreport⟩
        | error => exact fun _ => hended
  · cases h

/-- What others do to the state meanwhile keeps the batch safe. -/
theorem Safe.interfere {call : AgentStateMachine.Call} :
    Safe cfg ⟨run.phase, { run.pool.world with
      commit := { run.pool.world.commit with
        state := Op.after call.op run.pool.world.commit.state } }, run.pool.routines⟩ := by
  have hkept : Kept run.pool.world.commit.state (Op.after call.op run.pool.world.commit.state) :=
    AgentStateMachine.kept_after call _
  have hacts : Acts cfg none run.pool.world { run.pool.world with
      commit := { run.pool.world.commit with
        state := Op.after call.op run.pool.world.commit.state } } :=
    .frame rfl hkept rfl rfl rfl
  unfold Safe at *
  split at hs
  · next hphase =>
    simp only [hphase]
    exact fun n => hacts.stable stable_ready (hs n)
  · next hphase =>
    simp only [hphase]
    exact ⟨hacts.keeps hs.1, Pool.holds_interfere hs.2 fun n => ⟨none, nofun, hacts⟩⟩
  · next hphase =>
    simp only [hphase]
    obtain ⟨x, hx, hholds⟩ := hs
    exact ⟨x, hx, hholds.rely (.single ⟨_, hkept, rfl⟩)⟩
  · next hphase =>
    simp only [hphase]
    exact hs.acts hacts

theorem Safe.step {action : Action} (horderly : Orderly cfg run action)
    (h : step cfg run action = some run') : Safe cfg run' := by
  cases action with
  | preflight =>
    unfold ParallelExecutor.step at h
    dsimp only at h
    unfold Safe at hs
    split at h
    · next hphase =>
      rw [hphase] at hs
      cases h
      exact safe_afterPreflight hs horderly
    · cases h
  | advance => exact hs.advance horderly h
  | join => exact hs.join h
  | conclude => exact hs.conclude h
  | state =>
    cases h
    exact hs.interfere

end

/-- Every claimed step is running. -/
def Claimed (cfg : ExecConfig) (state : AgentState) : Prop := ∀ claim ∈ cfg.claims,
  ∃ step, state.steps.get? claim.stepId = some step ∧ step.status = .running
  deriving Decidable

theorem Safe.start {store : StepResultStore} {completedSteps : Dict String ℕ}
    {closedEmitters : List String} (hv : state.Valid) (hclaimed : Claimed cfg state) :
    Safe cfg (start store state completedSteps closedEmitters) := by
  intro n
  have hcommit : ∀ owner, StepResultCommitter.Inv owner
      ⟨store, state, completedSteps, closedEmitters, [], []⟩ :=
    fun _ => ⟨Trace.eachAfter_nil, fun _ _ h => nomatch h⟩
  refine ⟨⟨hv, fun claim hclaim => ?_, fun stepId outcome h => ?_, fun _ _ => hcommit _⟩,
    fun _ _ => ⟨hcommit _, (fun _ h => nomatch h), fun _ h => nomatch h⟩⟩
  · obtain ⟨step, hstep, hrunning⟩ := hclaimed claim hclaim
    refine ⟨step, hstep, ?_⟩
    rw [hrunning]
    exact nofun
  · cases h

/-! ### Results -/

structure Sound (cfg : ExecConfig) (state : AgentState)
    (result : Except ExecError ParallelExecutionReport) : Prop where
  ended : ∀ report, result = .ok report → ∀ claim ∈ cfg.claims, state.Ended claim.stepId
  reports : ∀ report, result = .ok report → Reports cfg state report
  raised : ∀ error, result = .error error → error.isLoopSignal = false →
    ∀ claim ∈ cfg.claims, ¬ state.Active claim.stepId

theorem Closed.sound {result : Except ExecError ParallelExecutionReport} (h : Closed cfg w result) :
    Sound cfg w.commit.state result := by
  have hall : EndedBut cfg [] w → ∀ claim ∈ cfg.claims, w.commit.state.Ended claim.stepId :=
    fun hended claim hclaim => (hended.ended claim hclaim).resolve_left List.not_mem_nil
  constructor
  · rintro report rfl
    exact hall h.1
  · rintro _ rfl
    exact h.2
  · rintro _ rfl hsignal claim hclaim
    exact Ended.not_active (hall (h hsignal) claim hclaim)

/-- Along orderly steps, a batch of running steps ends well whatever the schedule. -/
theorem execution_sound {store : StepResultStore} {completedSteps : Dict String ℕ}
    {closedEmitters : List String} {acts : List Action}
    {result : Except ExecError ParallelExecutionReport} (hv : state.Valid)
    (hclaimed : Claimed cfg state) (horderly : Trace.Along (step cfg) (Orderly cfg)
      (start store state completedSteps closedEmitters) acts)
    (hrun : Trace.run (step cfg) (start store state completedSteps closedEmitters) acts = some run)
    (hfinished : run.phase = .finished result) : Sound cfg run.pool.world.commit.state result := by
  have hsafe : Safe cfg run := Trace.run_keeps (fun _ _ _ horderly h hs => hs.step horderly h)
    horderly hrun (.start hv hclaimed)
  unfold Safe at hsafe
  rw [hfinished] at hsafe
  exact hsafe.sound

instance : DecidablePred (Orderly cfg run)
  | .preflight _ => inferInstanceAs (Decidable (_ → ∀ claim ∈ cfg.claims, _))
  | .advance _ input => inferInstanceAs (Decidable (_ → Unbroken cfg run.pool.world input))
  | .join _ | .conclude | .state _ => inferInstanceAs (Decidable True)

/-- The final step and one beside it. -/
def samplePlan : Plan :=
  ⟨"plan", 1, "", [StepResultCommitter.sampleFinalStep,
    ⟨"b", "step", "", [], "done", "agent", .default, .agent, .internal⟩], .epochSecond 0, .deterministic⟩

def sampleOwner : CommitterConfig where
  plan := samplePlan
  store := ⟨samplePlan, 11, 11, 2, Nat.succ_pos 10, Nat.two_pos, le_rfl⟩
  finalStep := StepResultCommitter.sampleFinalStep
  unique := rfl
  distinct := by decide
  hasEventEmitter := true
  hasOutputGate := true
  hasFinalMemoryWriter := true
  hasSemanticMemoryFormation := false

/-- Both steps are running. -/
def sampleState : AgentState :=
  { StepResultCommitter.sampleState with
    steps := StepResultCommitter.sampleState.steps.set "b"
      ⟨"b", "step", .running, .epochSecond 2, some (.epochSecond 3), none, none, none⟩
    activeStepIds := {"a", "b"} }

/-- A batch of two steps, with a completion owner. -/
def sampleBatch : ExecConfig where
  claims := [StepResultCommitter.sampleClaim, { StepResultCommitter.sampleClaim with stepId := "b" }]
  distinct := by decide
  named := by decide
  failureMode := .failFast
  executionMode := .async
  driverIsAsync := true
  specs := Dict.empty
  plan := some samplePlan
  completionOwner := some sampleOwner
  hasEventEmitter := true
  sameEmitter := by decide
  durable := .off
  emitsUserOutput := false

def calmInput (result : StepResult) : ExecInput where
  commit := StepResultCommitter.quietInput
  interrupted := false
  inactive := none
  startError := none
  driver := .ok (.result result)

/-- A turn of each of the two workers. -/
def sampleTurns : List Action :=
  [.advance 0 (calmInput StepResultCommitter.sampleResult),
    .advance 1 (calmInput (.ofText "b" StepResult.b_ne))]

/-- The steps run side by side and are committed, and the cleanup finds nothing to do. -/
def sampleExecution : List Action :=
  [Action.preflight none] ++ (List.replicate 19 sampleTurns).flatten ++
    List.replicate 4 (Action.advance 0 (calmInput StepResultCommitter.sampleResult)) ++
    [Action.join false] ++
    List.replicate 2 (Action.advance 0 (calmInput StepResultCommitter.sampleResult)) ++
    [Action.conclude]

/-- The steps that a finished execution reports. -/
def reportedSteps : ExecPhase → List String
  | .finished (.ok report) => report.succeededStepIds
  | _ => []

theorem execution_sound_sampleExecution : ∃ run report, Trace.run (step sampleBatch)
        (start .new sampleState Dict.empty []) sampleExecution = some run ∧
      run.phase = .finished (.ok report) ∧
      report.succeededStepIds = ["a", "b"] ∧
      Sound sampleBatch run.pool.world.commit.state (.ok report) := by
  have hrun : (Trace.run (step sampleBatch)
      (start .new sampleState Dict.empty []) sampleExecution).any
      (fun run => reportedSteps run.phase = ["a", "b"]) = true := by
    decide +kernel
  obtain ⟨run, hrun, hend⟩ := exists_of_any hrun
  unfold reportedSteps at hend
  split at hend
  · next report hphase =>
    refine ⟨run, report, hrun, hphase, hend, ?_⟩
    exact execution_sound (AgentState.validate_eq_ok_iff.mp (by decide +kernel)) (by decide +kernel)
      (by decide +kernel) hrun hphase
  · cases hend

/-- The deadline has passed at the preflight: `execute` raises, and the step stays running. -/
theorem deadline_leaves_step_active : ∃ run, sampleState.Valid ∧ Claimed sampleBatch sampleState ∧
      Trace.run (step sampleBatch) (start .new sampleState Dict.empty [])
        [.preflight (some .deadlineExceeded)] = some run ∧
      run.phase = .finished (.error .deadlineExceeded) ∧
      ¬ Sound sampleBatch run.pool.world.commit.state (.error .deadlineExceeded) := by
  refine ⟨_, AgentState.validate_eq_ok_iff.mp (by decide +kernel), by decide +kernel, rfl, rfl,
    fun hsound => ?_⟩
  refine hsound.raised _ rfl rfl StepResultCommitter.sampleClaim List.mem_cons_self ?_
  decide +kernel

end ParallelExecutor

end LocalAgent.Runtime
