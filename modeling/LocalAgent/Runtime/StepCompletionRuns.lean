import LocalAgent.Runtime.StepCompletion

/-!
# LocalAgent.Runtime.StepCompletionRuns — every interleaving of the calls of a committer

* `Justified`: what has to stand in the history before an event, and what the event itself shows.
* `Acts`: what a call of `commit`, or the surroundings of the committer, may do in one step.
* `commit_sound`: in every run, every event is justified.
-/

namespace LocalAgent.Runtime

/-- The entry of the step is `READABLE`. -/
def StepResultStore.Readable (store : StepResultStore) (stepId : String) : Prop :=
  ∃ entry ∈ store.entries.get? stepId, entry.status = .readable
  deriving Decidable

def Complete (store : StepResultStore) (state : AgentState) (stepId : String) : Prop :=
  state.Succeeded stepId ∧ store.Readable stepId

/-- The promises of the committer, for an event and those before it. -/
def CompletionEvent.Justified (cfg : CommitterConfig) (before : List CompletionEvent) :
    CompletionEvent → Prop
  | .marked .. | .gateAnswered .. => True
  | .gateCalled _ stepId => ∀ planStep ∈ cfg.plan.steps, planStep.stepId = stepId →
    planStep.outputPolicy ≠ .internal
  | .memoryInvoked _ stepId => stepId = cfg.finalStep.stepId ∧
    (∃ call, .gateAnswered call stepId .delivered ∈ before) ∧
    ∀ call other, .memoryInvoked call other ∉ before
  | .emitted _ stepId payload store state =>
    payload.status = .succeeded → payload.safeErrorCode = none → Complete store state stepId
  | .returned call result store state =>
    (result.commitStatus = .committed ↔ .marked call result.stepId ∈ before) ∧
      (result.commitStatus = .committed → Complete store state result.stepId)

def CompletionEvent.isMemoryInvoked : CompletionEvent → Bool
  | .memoryInvoked .. => true
  | _ => false

/-! ## The state machine and the store keep what is complete -/

variable {e : StateError}

namespace AgentStateMachine

variable {s' state : AgentState}

theorem Kept.succeeded (h : Kept state s') {stepId : String}
    (hs : state.Succeeded stepId) : s'.Succeeded stepId := by
  obtain ⟨step, hstep, hdone⟩ := hs
  exact ⟨step, h.terminal stepId step hstep (.inl hdone), hdone⟩

/-- Applying a record is applying its event. -/
theorem applyStepData_cases (data : StepEventData) (state : AgentState) :
    (∃ event, event.toStepEventData = data ∧
      applyStepData data state = applyStepEvent event state) ∨
    ∃ e, applyStepData data state = .error e state := by
  cases h : StepStateEvent.make data with
  | ok event =>
    refine .inl ⟨event, StepStateEvent.make_eq_ok h, ?_⟩
    show (Op.lift (StepStateEvent.make data) >>= applyStepEvent) state = _
    rw [h]
    rfl
  | error e =>
    refine .inr ⟨e, ?_⟩
    show (Op.lift (StepStateEvent.make data) >>= applyStepEvent) state = _
    rw [h]
    rfl

variable {data : StepEventData}

theorem applyStepData_ok (h : applyStepData data state = .ok () s') :
    ∃ event : StepStateEvent, event.toStepEventData = data ∧
      applyStepEvent event state = .ok () s' := by
  rcases applyStepData_cases data state with ⟨event, hdata, heq⟩ | ⟨e, heq⟩
  · exact ⟨event, hdata, heq.symm.trans h⟩
  · cases heq.symm.trans h

theorem applyStepData_error (h : applyStepData data state = .error e s') : s' = state := by
  rcases applyStepData_cases data state with ⟨event, -, heq⟩ | ⟨_, heq⟩
  · exact call_error (.applyStepEvent event) (heq.symm.trans h)
  · exact (EStateM.Result.error.inj (heq.symm.trans h)).2.symm

theorem kept_applyStepData (h : applyStepData data state = .ok () s') : Kept state s' := by
  obtain ⟨event, -, happly⟩ := applyStepData_ok h
  have hend : Op.after (Call.op (.applyStepEvent event)) state = s' := Op.after_ok happly
  exact hend ▸ kept_after (.applyStepEvent event) state

end AgentStateMachine

namespace StepResultStore

variable {store store' : StepResultStore} {stepId : String}

variable {fault : Bool}

theorem Readable.writePrepared {cfg : StoreConfig} {entry : StepResult} {expectedAgentId : String}
    (h : StepResultStore.writePrepared cfg fault entry expectedAgentId store = .ok () store')
    (hr : store.Readable stepId) : store'.Readable stepId := by
  obtain ⟨-, hadmitted, rfl⟩ := writePrepared_ok h
  obtain ⟨stored, hstored, hread⟩ := hr
  refine ⟨stored, ?_, hread⟩
  have hne : stepId ≠ entry.stepId := by
    rintro rfl
    exact hadmitted.fresh (Dict.mem_keys_iff.mpr ⟨stored, hstored⟩)
  simpa [hne] using hstored

theorem readable_of_markReadable {state : AgentState}
    (h : StepResultStore.markReadable fault stepId state store = .ok () store') :
    state.Succeeded stepId ∧ store'.Readable stepId := by
  obtain ⟨-, -, entry, -, -, hdone, rfl⟩ := markReadable_ok.mp h
  exact ⟨hdone, { entry with status := .readable }, by simp, rfl⟩

theorem Readable.markReadable {state : AgentState} {marked : String}
    (h : StepResultStore.markReadable fault marked state store = .ok () store')
    (hr : store.Readable stepId) : store'.Readable stepId := by
  by_cases heq : stepId = marked
  · subst heq
    exact (readable_of_markReadable h).2
  · obtain ⟨-, -, _, -, -, -, rfl⟩ := markReadable_ok.mp h
    obtain ⟨stored, hstored, hread⟩ := hr
    exact ⟨stored, by simpa [heq] using hstored, hread⟩

end StepResultStore

namespace StepResultCommitter

open Coroutine

variable (cfg : CommitterConfig) {planStep : PlanStep} {P : CommitterWorld → Prop}
  {result : StepCompletionResult} {claim : StepClaim}

theorem not_internal_of_final (hmem : planStep ∈ cfg.plan.steps)
    (hid : planStep.stepId = cfg.finalStep.stepId) : planStep.outputPolicy ≠ .internal := by
  have hfinal : cfg.finalStep ∈ cfg.plan.steps.filter fun step => step.outputPolicy ≠ .internal :=
    cfg.unique ▸ List.mem_singleton.mpr rfl
  obtain ⟨hfinal, hpolicy⟩ := List.mem_filter.mp hfinal
  obtain rfl : planStep = cfg.finalStep :=
    List.inj_on_of_nodup_map cfg.distinct hmem hfinal hid
  exact of_decide_eq_true hpolicy

/-! ## What a step may do -/

structure Inv (w : CommitterWorld) : Prop where
  justified : Trace.EachAfter (CompletionEvent.Justified cfg) w.history
  memory : ∀ call stepId, .memoryInvoked call stepId ∈ w.history →
    w.completedSteps.get? cfg.finalStep.stepId = some call

/-- What one step of the call `who` may do; `none` stands for the surroundings. -/
structure Acts (who : Option ℕ) (w w' : CommitterWorld) : Prop where
  guards : ∀ stepId call, w.completedSteps.get? stepId = some call →
    w'.completedSteps.get? stepId = some call
  state : AgentStateMachine.Kept w.state w'.state
  readable : ∀ stepId, w.store.Readable stepId → w'.store.Readable stepId
  remembers : ∀ event ∈ w.history, event ∈ w'.history
  marks : ∀ call stepId, .marked call stepId ∈ w'.history →
    .marked call stepId ∈ w.history ∨ who = some call
  memory : ∀ call stepId, .memoryInvoked call stepId ∈ w'.history →
    .memoryInvoked call stepId ∈ w.history ∨ who = some call
  keeps : Inv cfg w → Inv cfg w'

def contract (call : ℕ) : Contract CommitterInput CommitterWorld where
  rely := fun w w' => ∃ who, who ≠ some call ∧ Acts cfg who w w'
  guar := Acts cfg (some call)
  allows := fun _ _ => True

variable {cfg}
variable {call : ℕ} {who : Option ℕ} {stepId : String} {w w' w'' : CommitterWorld}

theorem Acts.trans (h : Acts cfg who w w') (h' : Acts cfg who w' w'') : Acts cfg who w w'' where
  guards := fun stepId call hget => h'.guards stepId call (h.guards stepId call hget)
  state := h.state.trans h'.state
  readable := fun stepId hr => h'.readable stepId (h.readable stepId hr)
  remembers := fun event he => h'.remembers event (h.remembers event he)
  marks := fun call stepId he => by
    rcases h'.marks call stepId he with he | hwho
    · exact h.marks call stepId he
    · exact .inr hwho
  memory := fun call stepId he => by
    rcases h'.memory call stepId he with he | hwho
    · exact h.memory call stepId he
    · exact .inr hwho
  keeps := fun hw => h'.keeps (h.keeps hw)

theorem Acts.frame (hguards : w'.completedSteps = w.completedSteps)
    (hhistory : w'.history = w.history) (hs : AgentStateMachine.Kept w.state w'.state)
    (hr : ∀ stepId, w.store.Readable stepId → w'.store.Readable stepId) : Acts cfg who w w' where
  guards := fun stepId call h => by rw [hguards]; exact h
  state := hs
  readable := hr
  remembers := fun event h => by rw [hhistory]; exact h
  marks := fun call stepId h => .inl (hhistory ▸ h)
  memory := fun call stepId h => .inl (hhistory ▸ h)
  keeps := fun hw => by
    refine ⟨hhistory ▸ hw.justified, fun call stepId h => ?_⟩
    rw [hguards]
    exact hw.memory call stepId (hhistory ▸ h)

theorem acts_refl (who : Option ℕ) (w : CommitterWorld) : Acts cfg who w w :=
  .frame rfl rfl (.refl _) fun _ h => h

variable {event : CompletionEvent} {answer : Option DeliveryAttempt} {α : Type}

/-- A noted event that its history justifies. -/
theorem acts_note (hjust : Inv cfg w → event.Justified cfg w.history)
    (hmark : ∀ call stepId, event = .marked call stepId → who = some call)
    (hmemory : ∀ call stepId, event = .memoryInvoked call stepId → who = some call ∧
      w.completedSteps.get? cfg.finalStep.stepId = some call) :
    Acts cfg who w { w with history := w.history ++ [event] } where
  guards := fun _ _ h => h
  state := .refl _
  readable := fun _ h => h
  remembers := fun _ h => List.mem_append_left _ h
  marks := fun call stepId h => by
    rcases mem_snoc h with h | h
    · exact .inl h
    · exact .inr (hmark call stepId h.symm)
  memory := fun call stepId h => by
    rcases mem_snoc h with h | h
    · exact .inl h
    · exact .inr (hmemory call stepId h.symm).1
  keeps := fun hw => by
    refine ⟨hw.justified.snoc (hjust hw), fun call stepId h => ?_⟩
    rcases mem_snoc h with h | h
    · exact hw.memory call stepId h
    · exact (hmemory call stepId h.symm).2

theorem acts_state {state : AgentState} (hs : AgentStateMachine.Kept w.state state) :
    Acts cfg who w { w with state := state } :=
  .frame rfl rfl hs fun _ h => h

theorem acts_store {store : StepResultStore}
    (hr : ∀ stepId, w.store.Readable stepId → store.Readable stepId) :
    Acts cfg who w { w with store := store } :=
  .frame rfl rfl (.refl _) hr

theorem Acts.anyone (h : Acts cfg none w w') : Acts cfg who w w' where
  guards := h.guards
  state := h.state
  readable := h.readable
  remembers := h.remembers
  marks := fun call stepId he => .inl ((h.marks call stepId he).resolve_right nofun)
  memory := fun call stepId he => .inl ((h.memory call stepId he).resolve_right nofun)
  keeps := h.keeps

theorem Acts.stable (h : Acts cfg none w w')
    (hP : Stable (contract cfg call) P) (hw : P w) : P w' :=
  hP w w' ⟨none, nofun, h⟩ hw

/-! ## Assertions -/

theorem stable_inv : Stable (contract cfg call) (Inv cfg) :=
  fun _ _ ⟨_, _, hacts⟩ hw => hacts.keeps hw

/-- This call has not made anything readable and has not invoked the writer. -/
structure Idle (cfg : CommitterConfig) (call : ℕ) (w : CommitterWorld) : Prop where
  inv : Inv cfg w
  unmarked : ∀ stepId, .marked call stepId ∉ w.history
  unremembered : ∀ stepId, .memoryInvoked call stepId ∉ w.history

theorem stable_idle : Stable (contract cfg call) (Idle cfg call) := by
  rintro w _ ⟨_, hwho, hacts⟩ hw
  refine ⟨hacts.keeps hw.inv, fun stepId h => ?_, fun stepId h => ?_⟩
  · exact hw.unmarked stepId ((hacts.marks call stepId h).resolve_right hwho)
  · exact hw.unremembered stepId ((hacts.memory call stepId h).resolve_right hwho)

structure Holding (cfg : CommitterConfig) (call : ℕ) (stepId : String) (w : CommitterWorld) : Prop
    extends Idle cfg call w where
  guard : w.completedSteps.get? stepId = some call

theorem stable_holding : Stable (contract cfg call) (Holding cfg call stepId) :=
  fun w w' h hw => ⟨stable_idle w w' h hw.toIdle, h.choose_spec.2.guards _ _ hw.guard⟩

/-- This call has made the entry readable. -/
structure Marked (cfg : CommitterConfig) (call : ℕ) (stepId : String) (w : CommitterWorld) : Prop
    where
  inv : Inv cfg w
  marked : .marked call stepId ∈ w.history
  complete : Complete w.store w.state stepId

theorem stable_marked : Stable (contract cfg call) (Marked cfg call stepId) := by
  rintro w _ ⟨_, -, hacts⟩ hw
  exact ⟨hacts.keeps hw.inv, hacts.remembers _ hw.marked,
    hacts.state.succeeded hw.complete.1, hacts.readable _ hw.complete.2⟩

structure Delivering (cfg : CommitterConfig) (call : ℕ) (stepId : String) (w : CommitterWorld) :
    Prop extends Marked cfg call stepId w where
  unremembered : ∀ stepId, .memoryInvoked call stepId ∉ w.history
  guard : w.completedSteps.get? stepId = some call

theorem stable_delivering : Stable (contract cfg call) (Delivering cfg call stepId) := by
  rintro w w' ⟨who, hwho, hacts⟩ hw
  refine ⟨stable_marked w w' ⟨who, hwho, hacts⟩ hw.toMarked, fun other h => ?_,
    hacts.guards _ _ hw.guard⟩
  exact hw.unremembered other ((hacts.memory call other h).resolve_right hwho)

structure Answered (cfg : CommitterConfig) (call : ℕ) (stepId : String)
    (answer : Option DeliveryAttempt) (w : CommitterWorld) : Prop
    extends Delivering cfg call stepId w where
  delivered : answer.map DeliveryAttempt.deliveryStatus = some .delivered →
    stepId = cfg.finalStep.stepId ∧ .gateAnswered call stepId .delivered ∈ w.history

theorem stable_answered : Stable (contract cfg call) (Answered cfg call stepId answer) := by
  intro w w' h hw
  refine ⟨stable_delivering w w' h hw.toDelivering, fun hanswer => ?_⟩
  exact ⟨(hw.delivered hanswer).1, h.choose_spec.2.remembers _ (hw.delivered hanswer).2⟩

/-- After `commit` has come to a result. -/
structure Resulted (cfg : CommitterConfig) (call : ℕ) (stepId : String)
    (result : StepCompletionResult) (w : CommitterWorld) : Prop where
  inv : Inv cfg w
  about : result.stepId = stepId
  committed : result.commitStatus = .committed ↔ .marked call stepId ∈ w.history
  complete : result.commitStatus = .committed → Complete w.store w.state stepId
  succeeded : result.errorCode = none → result.commitStatus = .committed

theorem stable_resulted : Stable (contract cfg call) (Resulted cfg call stepId result) := by
  rintro w _ ⟨_, hwho, hacts⟩ hw
  refine ⟨hacts.keeps hw.inv, hw.about, ?_, fun h => ?_, hw.succeeded⟩
  · rw [hw.committed]
    exact ⟨hacts.remembers _, fun h => (hacts.marks call stepId h).resolve_right hwho⟩
  · exact ⟨hacts.state.succeeded (hw.complete h).1, hacts.readable _ (hw.complete h).2⟩

/-- The outcome of `commit`. -/
def Outcome (cfg : CommitterConfig) (call : ℕ) (stepId : String) :
    Except PublishError StepCompletionResult → CommitterWorld → Prop
  | .ok result => Resulted cfg call stepId result
  | .error _ => Inv cfg

theorem stable_outcome (r : Except PublishError StepCompletionResult) :
    Stable (contract cfg call) (Outcome cfg call stepId r) := by
  cases r with
  | ok => exact stable_resulted
  | error => exact stable_inv

/-! ## Sections -/

section

variable (hP : Stable (contract cfg call) P)
include hP

theorem triple_quiet
    {act : CommitterInput → CommitterWorld → Except PublishError α × CommitterWorld} (hacts : ∀ i w, P w → Acts cfg none w (act i w).2) :
    Triple (contract cfg call) P (tryPerform act) fun _ => P :=
  Triple.tryPerform hP (fun _ => hP) fun w i hw _ =>
    ⟨(hacts i w hw).anyone, (hacts i w hw).stable hP hw⟩

theorem triple_quiet_perform {act : CommitterInput → CommitterWorld → α × CommitterWorld} (hacts : ∀ i w, P w → Acts cfg none w (act i w).2) :
    Triple (contract cfg call) P (perform act : CommitCall α) fun _ => P :=
  Triple.perform hP (fun _ => hP) fun w i hw _ =>
    ⟨(hacts i w hw).anyone, (hacts i w hw).stable hP hw⟩

theorem triple_seq {β : Type}
    {Q : Except PublishError β → CommitterWorld → Prop} {x : CommitCall α} {f : α → CommitCall β} (hx : Triple (contract cfg call) P x fun _ => P)
    (hf : ∀ a, Triple (contract cfg call) P (f a) Q) (hq : ∀ e w, P w → Q (.error e) w) :
    Triple (contract cfg call) P (x >>= f : CommitCall β) Q :=
  Triple.except_bind hx hf (fun _ => hP) hq

end

theorem acts_emitted {stepId : String} {payload : StepCompletedPayload} {record : StepRecord}
    (h : payload.status = .succeeded → payload.safeErrorCode = none →
      Complete w.store w.state stepId) :
    Acts cfg none w { w with
      journal := w.journal ++ [record]
      history := w.history ++ [.emitted call stepId payload w.store w.state] } := by
  have hnote : Acts cfg none w { w with
      history := w.history ++ [.emitted call stepId payload w.store w.state] } :=
    acts_note (fun _ => h) nofun nofun
  exact hnote.trans (.frame rfl rfl (.refl _) fun _ h => h)

/-- A success is emitted for a completed step only. -/
theorem triple_emitStepCompleted
    {status : StepStatus} {safeErrorCode : Option String} {charCount : ℕ}
    {delivery : Option DeliveryStatus} (hP : Stable (contract cfg call) P)
    (hcomplete : ∀ w, P w → status = .succeeded → safeErrorCode = none →
      Complete w.store w.state claim.stepId) : Triple (contract cfg call) P
      (emitStepCompleted cfg call claim status safeErrorCode charCount delivery) fun _ => P := by
  have hemit : Triple (contract cfg call) P (emitStep (.completed claim.stepId
      (completedPayload (cfg.plan.step? claim.stepId) status safeErrorCode charCount delivery)) true
      fun w => [.emitted call claim.stepId (completedPayload (cfg.plan.step? claim.stepId) status
        safeErrorCode charCount delivery) w.store w.state]) fun _ => P := by
    refine triple_seq hP (triple_quiet hP fun i w hw => ?_)
      (fun _ => triple_quiet hP fun i w hw => ?_) fun _ _ h => h
    · split_ifs
      · exact acts_refl _ _
      · cases i.beforeAppend with
        | some => exact acts_refl _ _
        | none => exact acts_emitted (hcomplete w hw)
    · cases i.afterAppend with
      | some => exact acts_refl _ _
      | none => exact .frame rfl rfl (.refl _) fun _ h => h
  unfold emitStepCompleted
  split_ifs
  · exact Triple.except_pure hP fun _ h => h
  refine triple_seq hP (triple_quiet_perform hP fun _ _ _ => acts_refl _ _) (fun closed => ?_)
    fun _ _ h => h
  split_ifs
  · exact Triple.except_pure hP fun _ h => h
  · refine Triple.attempt_bind hemit (fun _ => hP) fun outcome => ?_
    unfold published
    split
    · exact Triple.except_pure hP fun _ h => h
    · split_ifs
      · exact Triple.except_pure hP fun _ h => h
      · exact Triple.except_throw hP fun _ h => h

/-- The guard lets one call through for each step. -/
theorem triple_acquireGuard : Triple (contract cfg call) (Idle cfg call) (acquireGuard call stepId)
    fun r w => match r with
      | .ok true => Holding cfg call stepId w
      | _ => Idle cfg call w := by
  refine Triple.perform stable_idle ?_ fun w i hw _ => ?_
  · rintro (_ | _)
    · exact stable_idle
    · exact stable_holding
  split_ifs with hmem
  · exact ⟨acts_refl _ _, hw⟩
  · have hkeeps : ∀ other owner, w.completedSteps.get? other = some owner →
        (w.completedSteps.set stepId call).get? other = some owner := by
      intro other owner hget
      have hne : other ≠ stepId := by
        rintro rfl
        exact hmem (Dict.mem_keys_iff.mpr ⟨owner, hget⟩)
      simpa [hne] using hget
    have hacts : Acts cfg (some call) w
        { w with completedSteps := w.completedSteps.set stepId call } :=
      ⟨hkeeps, .refl _, fun _ h => h, fun _ h => h, fun _ _ h => .inl h, fun _ _ h => .inl h,
        fun hinv => ⟨hinv.justified, fun owner other h => hkeeps _ _ (hinv.memory owner other h)⟩⟩
    exact ⟨hacts, ⟨hacts.keeps hw.inv, hw.unmarked, hw.unremembered⟩, by simp⟩

theorem acts_applyStepData {data : StepEventData} {state : AgentState}
    (h : AgentStateMachine.applyStepData data w.state = .ok () state) :
    Acts cfg none w { w with state := state } :=
  acts_state (AgentStateMachine.kept_applyStepData h)

theorem acts_applyStepData_error {data : StepEventData} {state : AgentState}
    (h : AgentStateMachine.applyStepData data w.state = .error e state) :
    Acts cfg none w { w with state := state } := by
  cases AgentStateMachine.applyStepData_error h
  exact acts_refl none w

theorem triple_applySucceeded :
    Triple (contract cfg call) (Holding cfg call stepId) (applySucceeded claim)
      fun _ => Holding cfg call stepId := by
  refine triple_quiet_perform stable_holding fun i w _ => ?_
  split
  · next h => exact acts_applyStepData h
  · next h => exact acts_applyStepData_error h

/-- The failure is applied and emitted while the step is held. -/
theorem triple_applyFailedAndEmit {errorCode : String} :
    Triple (contract cfg call) (Holding cfg call stepId)
      (applyFailedAndEmit cfg call claim errorCode) fun _ => Holding cfg call stepId := by
  refine triple_seq stable_holding (triple_quiet_perform stable_holding fun i w _ => ?_)
    (fun goesOn => ?_) fun _ _ h => h
  · split
    · exact acts_refl _ _
    · split_ifs
      · split
        · next h => exact acts_applyStepData h
        · next h => exact acts_applyStepData_error h
      · exact acts_refl _ _
  · split_ifs
    · refine triple_seq stable_holding ?_
        (fun _ => Triple.except_pure stable_holding fun _ h => h) fun _ _ h => h
      exact triple_emitStepCompleted stable_holding fun _ _ h => nomatch h
    · exact Triple.except_pure stable_holding fun _ h => h

/-- The result is prepared while the step is held. -/
theorem triple_writePrepared {result : StepResult} :
    Triple (contract cfg call) (Holding cfg call stepId) (writePrepared cfg claim result)
      fun _ => Holding cfg call stepId := by
  refine triple_quiet stable_holding fun i w _ => ?_
  have hsame : ∀ {e : StoreError} {store : StepResultStore},
      StepResultStore.writePrepared cfg.store i.writeFault result claim.preferredAgent w.store =
        .error e store → Acts cfg none w { w with store := store } := by
    intro e _ h
    cases StepResultStore.allOrNothing_writePrepared _ _ _ _ _ _ h
    exact acts_refl none w
  split
  · next h => exact acts_store fun _ hr => StepResultStore.Readable.writePrepared h hr
  all_goals next h => exact hsame h

/-- The mark makes the prepared result readable. -/
theorem triple_markReadable :
    Triple (contract cfg call) (Holding cfg call claim.stepId) (markReadable call claim)
      fun r w => match r with
        | .ok true => Delivering cfg call claim.stepId w
        | _ => Holding cfg call claim.stepId w := by
  refine Triple.tryPerform stable_holding ?_ fun w i hw _ => ?_
  · rintro (e | _ | _)
    · exact stable_holding
    · exact stable_holding
    · exact stable_delivering
  have hsame : ∀ {e : StoreError} {store : StepResultStore},
      StepResultStore.markReadable i.markFault claim.stepId w.state w.store = .error e store →
        store = w.store :=
    fun h => StepResultStore.allOrNothing_markReadable _ _ _ _ _ h
  split
  · next store h =>
    have hstore : Acts cfg (some call) w { w with store := store } :=
      acts_store fun _ hr => StepResultStore.Readable.markReadable h hr
    have hnote : Acts cfg (some call) { w with store := store } { w with
        store := store
        history := w.history ++ [.marked call claim.stepId] } := by
      refine acts_note (fun _ => trivial) (fun _ _ heq => ?_) nofun
      obtain ⟨rfl, -⟩ := CompletionEvent.marked.inj heq
      rfl
    refine ⟨hstore.trans hnote, ⟨(hstore.trans hnote).keeps hw.inv,
      List.mem_concat_self,
      StepResultStore.readable_of_markReadable h⟩, fun other hmem => ?_, hw.guard⟩
    rcases mem_snoc hmem with hmem | hmem
    · exact hw.unremembered other hmem
    · exact nomatch hmem
  all_goals
    next h =>
    cases hsame h
    exact ⟨acts_refl _ _, hw⟩

/-! ## Delivery -/

theorem triple_note (hP : Stable (contract cfg call) P)
    (hnote : ∀ w, P w → Acts cfg none w { w with history := w.history ++ [event] }) :
    Triple (contract cfg call) P (note event) fun _ => P :=
  triple_quiet_perform hP fun _ w hw => hnote w hw

def AfterGate (cfg : CommitterConfig) (call : ℕ) (stepId : String) :
    Except PublishError (Option DeliveryAttempt) → CommitterWorld → Prop
  | .ok answer => Answered cfg call stepId answer
  | .error _ => Inv cfg

theorem stable_afterGate (r : Except PublishError (Option DeliveryAttempt)) :
    Stable (contract cfg call) (AfterGate cfg call stepId r) := by
  cases r with
  | ok => exact stable_answered
  | error => exact stable_inv

/-- The delivery through the gate. -/
theorem triple_deliver :
    Triple (contract cfg call) (Delivering cfg call claim.stepId) (deliver cfg call claim)
      (AfterGate cfg call claim.stepId) := by
  unfold deliver
  split_ifs with hfinal
  · refine triple_seq stable_delivering (triple_note stable_delivering fun w hw => ?_) (fun _ => ?_)
      fun _ _ h => h.inv
    · refine acts_note (fun _ planStep hmem hid => ?_) nofun nofun
      exact not_internal_of_final cfg hmem (hid.trans hfinal.1)
    · refine Triple.tryPerform stable_delivering stable_afterGate fun w i hw _ => ?_
      cases hgate : i.gate with
      | error => exact ⟨acts_refl _ _, hw.inv⟩
      | ok answer =>
        have hacts : Acts cfg none w { w with
            history := w.history ++ [.gateAnswered call claim.stepId answer.deliveryStatus] } :=
          acts_note (fun _ => trivial) nofun nofun
        refine ⟨hacts.anyone, hacts.stable stable_delivering hw, fun hanswer => ⟨hfinal.1, ?_⟩⟩
        have hstatus : answer.deliveryStatus = .delivered := Option.some.inj hanswer
        exact List.mem_append_right _ (hstatus ▸ List.mem_singleton.mpr rfl)
  · exact Triple.except_pure stable_delivering fun w hw => ⟨hw, nofun⟩

/-- What the gate answered is written down. -/
theorem triple_writeDelivered :
    Triple (contract cfg call) (Answered cfg call claim.stepId answer)
      (writeDelivered cfg call claim answer) fun _ => Marked cfg call claim.stepId := by
  unfold writeDelivered
  split_ifs with hwrite
  · refine Triple.except_bind (M := fun _ => Marked cfg call claim.stepId) ?_ (fun _ => ?_)
      (fun _ => stable_marked) fun _ _ h => h
    · refine Triple.perform stable_answered (fun _ => stable_marked) fun w i hw _ => ?_
      obtain ⟨hfinal, hdelivered⟩ := hw.delivered hwrite.1
      have hacts : Acts cfg (some call) w { w with
          history := w.history ++ [.memoryInvoked call claim.stepId] } := by
        refine acts_note (fun hinv => ⟨hfinal, ⟨call, hdelivered⟩, fun owner other hmem => ?_⟩)
          nofun fun owner other heq => ?_
        -- whoever has invoked the writer before holds the final step, and that is this call
        · have howner : some owner = some call := by
            rw [← hw.guard, hfinal]
            exact (hinv.memory owner other hmem).symm
          cases howner
          exact hw.unremembered other hmem
        · obtain ⟨rfl, -⟩ := CompletionEvent.memoryInvoked.inj heq
          exact ⟨rfl, hfinal ▸ hw.guard⟩
      exact ⟨hacts, hacts.keeps hw.inv, hacts.remembers _ hw.marked, hw.complete⟩
    · refine triple_quiet stable_marked fun i w _ => ?_
      cases i.memory <;> exact acts_refl _ _
  · exact Triple.except_pure stable_answered fun _ hw => hw.toMarked

theorem triple_runFormation {receipt : Bool} :
    Triple (contract cfg call) (Marked cfg call stepId) (runFormation cfg receipt)
      fun _ => Marked cfg call stepId := by
  unfold runFormation
  split_ifs
  · refine triple_quiet_perform stable_marked fun i w _ => ?_
    cases i.formation <;> exact acts_refl _ _
  · exact Triple.except_pure stable_marked fun _ h => h

/-! ## The pipeline -/

theorem committedResult_stepId (claim : StepClaim) (result : StepResult) (emitted : Bool)
    (facts : FailureFacts) : (committedResult claim result emitted facts).stepId = claim.stepId := by
  unfold committedResult
  split_ifs
  · rfl
  · rfl
  · split
    · split_ifs <;> rfl
    · rfl

theorem committedResult_committed (claim : StepClaim) (result : StepResult) (emitted : Bool)
    (facts : FailureFacts) :
    (committedResult claim result emitted facts).commitStatus = .committed := by
  unfold committedResult
  split_ifs
  · rfl
  · rfl
  · split
    · split_ifs <;> rfl
    · rfl

theorem Marked.resulted (hw : Marked cfg call stepId w)
    (habout : result.stepId = stepId) (hcommitted : result.commitStatus = .committed) :
    Resulted cfg call stepId result w :=
  ⟨hw.inv, habout, ⟨fun _ => hw.marked, fun _ => hcommitted⟩, fun _ => hw.complete,
    fun _ => hcommitted⟩

theorem Idle.resulted (hw : Idle cfg call w)
    (habout : result.stepId = stepId) (hcommitted : result.commitStatus ≠ .committed)
    (herror : result.errorCode ≠ none) : Resulted cfg call stepId result w :=
  ⟨hw.inv, habout, ⟨fun h => absurd h hcommitted, fun h => absurd h (hw.unmarked stepId)⟩,
    fun h => absurd h hcommitted, fun h => absurd h herror⟩

theorem triple_complete {result : StepResult} :
    Triple (contract cfg call) (Delivering cfg call claim.stepId)
      (complete cfg call claim planStep result) (Outcome cfg call claim.stepId) := by
  refine Triple.except_bind triple_deliver (fun answer => ?_) (fun _ => stable_inv) fun _ _ h => h
  refine Triple.except_bind triple_writeDelivered (fun memory => ?_) (fun _ => stable_marked)
    fun _ _ h => h.inv
  refine triple_seq stable_marked triple_runFormation (fun formation => ?_) fun _ _ h => h.inv
  refine triple_seq stable_marked
    (triple_emitStepCompleted stable_marked fun w hw _ _ => hw.complete) (fun emitted => ?_)
    fun _ _ h => h.inv
  refine Triple.except_pure stable_marked fun w hw => hw.resulted ?_ ?_
  · exact committedResult_stepId _ _ _ _
  · exact committedResult_committed _ _ _ _

theorem triple_succeed {result : StepResult} :
    Triple (contract cfg call) (Holding cfg call claim.stepId)
      (succeed cfg call claim planStep result) (Outcome cfg call claim.stepId) := by
  have hfailed : ∀ (code : StepCompletionErrorCode) (safeMessage : String),
      Triple (contract cfg call) (Holding cfg call claim.stepId)
        (pure (failureResult claim (some result) .prepared code safeMessage .default) :
          CommitCall StepCompletionResult) (Outcome cfg call claim.stepId) :=
    fun code safeMessage => Triple.except_pure stable_holding fun w hw =>
      hw.toIdle.resulted rfl nofun nofun
  refine triple_seq stable_holding triple_applySucceeded (fun applied => ?_) fun _ _ h => h.inv
  split_ifs
  · exact hfailed _ _
  refine Triple.except_bind triple_markReadable (fun marked => ?_) (fun _ => stable_holding)
    fun _ _ h => h.inv
  cases marked with
  | false =>
    refine triple_seq stable_holding ?_ (fun _ => hfailed _ _) fun _ _ h => h.inv
    exact triple_emitStepCompleted stable_holding fun _ _ _ h => nomatch h
  | true => exact triple_complete

theorem triple_failure {result : DriverResult}
    {code : StepCompletionErrorCode} {safeMessage : String} (hP : Stable (contract cfg call) P)
    (hidle : ∀ w, P w → Idle cfg call w) :
    Triple (contract cfg call) P (failure claim result code safeMessage)
      (Outcome cfg call claim.stepId) := by
  unfold failure
  split
  · exact Triple.except_pure hP fun w hw => (hidle w hw).resulted rfl nofun nofun
  · exact Triple.except_pure hP fun w hw => (hidle w hw).resulted rfl nofun nofun
  all_goals exact Triple.except_throw hP fun w hw => (hidle w hw).inv

/-- A commit that has the guard. -/
theorem triple_commitBody {result : DriverResult} :
    Triple (contract cfg call) (Idle cfg call) (commitBody cfg call claim result)
      (Outcome cfg call claim.stepId) := by
  have hrefused : ∀ (code : StepCompletionErrorCode) (safeMessage : String),
      Triple (contract cfg call) (Holding cfg call claim.stepId)
        (applyFailedAndEmit cfg call claim code.value >>= fun _ =>
          failure claim result code safeMessage : CommitCall StepCompletionResult)
        (Outcome cfg call claim.stepId) :=
    fun code safeMessage => triple_seq stable_holding triple_applyFailedAndEmit
      (fun _ => triple_failure stable_holding fun _ h => h.toIdle) fun _ _ h => h.inv
  refine Triple.except_bind triple_acquireGuard (fun acquired => ?_) (fun _ => stable_idle)
    fun _ _ h => h.inv
  cases acquired with
  | false => exact triple_failure stable_idle fun _ h => h
  | true =>
    show Triple (contract cfg call) (Holding cfg call claim.stepId) _ _
    refine triple_seq stable_holding
      (triple_quiet_perform stable_holding fun _ _ _ => acts_refl _ _) (fun isOpen => ?_)
      fun _ _ h => h.inv
    split_ifs
    · exact triple_failure stable_holding fun _ h => h.toIdle
    cases validate cfg claim result with
    | error => exact hrefused _ _
    | ok =>
      refine triple_seq stable_holding triple_writePrepared (fun refusal => ?_) fun _ _ h => h.inv
      cases refusal with
      | some => exact hrefused _ _
      | none => exact triple_succeed

/-- A commit, from its call to its outcome. -/
theorem triple_commit {result : DriverResult} :
    Triple (contract cfg call) (Idle cfg call) (commit cfg call claim result)
      (Outcome cfg call claim.stepId) := by
  refine Triple.except_bind triple_commitBody (fun completion => ?_) (fun _ => stable_inv)
    fun _ _ h => h
  refine Triple.perform stable_resulted (fun r => stable_outcome (.ok r)) fun w i hw _ => ?_
  have hacts : Acts cfg none w { w with
      history := w.history ++ [.returned call completion w.store w.state] } := by
    refine acts_note (fun _ => ?_) nofun nofun
    show _ ∧ _
    rw [hw.about]
    exact ⟨hw.committed, hw.complete⟩
  exact ⟨hacts.anyone, hacts.stable stable_resulted hw⟩

/-! ## Every run -/

/-- The calls on one committer. -/
abbrev CommitPool :=
  Pool CommitterInput CommitterWorld (Except PublishError StepCompletionResult)

inductive Action where
  | commit (claim : StepClaim) (result : DriverResult)
  | advance (call : ℕ) (input : CommitterInput)
  | state (call : AgentStateMachine.Call)
  /-- the first section of `rehydrate_readable` -/
  | rehydrateWrite (fault : Bool) (entry : StepResult)
  /-- the second one -/
  | rehydrateMark (fault : Bool) (stepId : String)
  | «seal»
  /-- only after every call has ended -/
  | clear
  | closeEmitter (stepId : String)

/-- A new committer for a store and a run that may have a past. -/
def start (store : StepResultStore) (state : AgentState) : CommitPool :=
  ⟨⟨store, state, Dict.empty, [], [], []⟩, []⟩

variable (cfg) in
/-- The step function; `none` when the call has ended, or when it is too early to clear. -/
def step (pool : CommitPool) : Action → Option CommitPool
  | .commit claim result =>
    some (pool.spawn (commit cfg pool.routines.length claim result).run)
  | .advance call input => pool.advance call input
  | .state call =>
    some ⟨{ pool.world with state := Op.after call.op pool.world.state }, pool.routines⟩
  | .rehydrateWrite fault entry =>
    some ⟨{ pool.world with
      store := Op.after (StepResultStore.writePrepared cfg.store fault entry entry.producerAgentId)
        pool.world.store }, pool.routines⟩
  | .rehydrateMark fault stepId =>
    some ⟨{ pool.world with
      store := Op.after (StepResultStore.markReadable fault stepId pool.world.state)
        pool.world.store }, pool.routines⟩
  | .«seal» =>
    some ⟨{ pool.world with store := Op.after StepResultStore.«seal» pool.world.store },
      pool.routines⟩
  | .clear =>
    if pool.routines.all isDone then
      some ⟨{ pool.world with store := pool.world.store.clear }, pool.routines⟩
    else none
  | .closeEmitter stepId =>
    some ⟨{ pool.world with closedEmitters := pool.world.closedEmitters ++ [stepId] },
      pool.routines⟩

variable (cfg) in
/-- Every call keeps its contract from here on, and later calls have left no trace. -/
structure Safe (pool : CommitPool) : Prop where
  inv : Inv cfg pool.world
  fresh : ∀ call, pool.routines.length ≤ call → Idle cfg call pool.world
  holds : Pool.Holds (contract cfg) (fun _ _ _ => True) pool

variable {pool pool' : CommitPool}

theorem Safe.interfere (hs : Safe cfg pool) {w : CommitterWorld}
    (hacts : Acts cfg none pool.world w) : Safe cfg ⟨w, pool.routines⟩ where
  inv := hacts.keeps hs.inv
  fresh := fun call hcall => hacts.stable stable_idle (hs.fresh call hcall)
  holds := Pool.holds_interfere hs.holds fun _ => ⟨none, nofun, hacts⟩

theorem acts_section {x : Op StoreError StepResultStore Unit} (hx : Op.AllOrNothing x)
    (h : ∀ store', x w.store = .ok () store' → ∀ stepId, w.store.Readable stepId →
      store'.Readable stepId) :
    Acts cfg who w { w with store := Op.after x w.store } := by
  refine acts_store ?_
  cases hrun : x w.store with
  | ok _ store =>
    rw [Op.after_ok hrun]
    exact h store hrun
  | error =>
    rw [Op.after_error hrun, hx _ _ _ hrun]
    exact fun _ hr => hr

/-- Every action keeps the pool safe. -/
theorem Safe.step {action : Action} (hs : Safe cfg pool) (h : step cfg pool action = some pool') :
    Safe cfg pool' := by
  cases action with
  | commit =>
    cases h
    refine ⟨hs.inv, fun call hcall => hs.fresh call ?_, Pool.holds_spawn hs.holds ?_⟩
    · rw [Pool.spawn, List.length_append] at hcall
      exact Nat.le_of_succ_le hcall
    · exact (triple_commit pool.world (hs.fresh _ le_rfl)).mono fun _ _ _ => trivial
  | advance call =>
    obtain ⟨hacts, hholds⟩ := Pool.holds_advance hs.holds h trivial
      fun other hother _ _ hacts => ⟨some call, fun heq => hother (Option.some.inj heq).symm, hacts⟩
    obtain ⟨hlength, hbound⟩ := Pool.advance_length h
    refine ⟨hacts.keeps hs.inv, fun other hother => ?_, hholds⟩
    refine stable_idle _ _ ⟨some call, fun heq => ?_, hacts⟩ (hs.fresh other (hlength ▸ hother))
    have : call = other := Option.some.inj heq
    omega
  | state call =>
    cases h
    exact hs.interfere (acts_state (AgentStateMachine.kept_after call _))
  | rehydrateWrite =>
    cases h
    refine hs.interfere (acts_section (StepResultStore.allOrNothing_writePrepared _ _ _) ?_)
    exact fun _ hok _ hr => StepResultStore.Readable.writePrepared hok hr
  | rehydrateMark =>
    cases h
    refine hs.interfere (acts_section (StepResultStore.allOrNothing_markReadable _ _) ?_)
    exact fun _ hok _ hr => StepResultStore.Readable.markReadable hok hr
  | «seal» =>
    cases h
    refine hs.interfere (acts_section StepResultStore.allOrNothing_seal fun _ hok _ hr => ?_)
    obtain ⟨-, rfl⟩ := StepResultStore.seal_ok hok
    exact hr
  | clear =>
    simp only [StepResultCommitter.step] at h
    split_ifs at h with hdone
    cases h
    refine ⟨⟨hs.inv.justified, hs.inv.memory⟩, fun call hcall => ?_,
      Pool.holds_of_isDone (List.all_eq_true.mp hdone)⟩
    have hidle := hs.fresh call hcall
    exact ⟨⟨hidle.inv.justified, hidle.inv.memory⟩, hidle.unmarked, hidle.unremembered⟩
  | closeEmitter =>
    cases h
    exact hs.interfere (.frame rfl rfl (.refl _) fun _ h => h)

theorem Safe.start (store : StepResultStore) (state : AgentState) : Safe cfg (start store state) := by
  have hinv : Inv cfg (StepResultCommitter.start store state).world :=
    ⟨Trace.eachAfter_nil, fun _ _ h => nomatch h⟩
  exact ⟨hinv, fun _ _ => ⟨hinv, (fun _ h => nomatch h), fun _ h => nomatch h⟩,
    fun _ _ h => nomatch h⟩

variable (cfg) in
/-- The promises of the committer. -/
structure Sound (history : List CompletionEvent) : Prop where
  once : history.countP CompletionEvent.isMemoryInvoked ≤ 1
  justified : Trace.EachAfter (CompletionEvent.Justified cfg) history

/-- In every state of every run. -/
theorem commit_sound {store : StepResultStore} {state : AgentState} {acts : List Action}
    (hrun : Trace.run (step cfg) (start store state) acts = some pool) :
    Sound cfg pool.world.history := by
  have hsafe : Safe cfg pool :=
    Trace.run_invariant (fun _ _ _ h hs => Safe.step hs h) hrun (.start store state)
  refine ⟨hsafe.inv.justified.countP_le_one fun before event hjust hmemory => ?_,
    hsafe.inv.justified⟩
  cases event with
  | memoryInvoked =>
    refine List.countP_eq_zero.mpr fun other hother hinvoked => ?_
    cases other with
    | memoryInvoked call' stepId' => exact hjust.2.2 call' stepId' hother
    | _ => cases hinvoked
  | _ => cases hmemory

def sampleFinalStep : PlanStep :=
  ⟨"a", "step", "", [], "done", "agent", .default, .agent, .finalPassthrough⟩

def samplePlan : Plan := ⟨"plan", 1, "", [sampleFinalStep], .epochSecond 0, .deterministic⟩

/-- One final step, with a gate and a writer. -/
def sampleCommitter : CommitterConfig where
  plan := samplePlan
  store := ⟨samplePlan, 10, 10, 1, Nat.succ_pos 9, Nat.one_pos, le_rfl⟩
  finalStep := sampleFinalStep
  unique := rfl
  distinct := by decide
  hasEventEmitter := true
  hasOutputGate := true
  hasFinalMemoryWriter := true
  hasSemanticMemoryFormation := false

/-- The step is running. -/
def sampleState : AgentState :=
  ⟨"run", agentStateSchemaVersion, .running, .epochSecond 1, .epochSecond 3,
    Dict.empty.set "a"
      ⟨"a", "step", .running, .epochSecond 2, some (.epochSecond 3), none, none, none⟩,
    {"a"}, none, none, none, none⟩

def sampleClaim : StepClaim := ⟨"plan", 1, "a", .epochSecond 3, .default, "agent", by decide⟩

def sampleResult : StepResult :=
  .ofText "a" StepResult.a_ne

/-- Nothing goes wrong. -/
def quietInput : CommitterInput where
  now := .epochSecond 5
  writeFault := false
  markFault := false
  gate := .ok ⟨"a", some .finalPassthrough, .delivered, none, ""⟩
  memory := .receipt
  formation := .raised
  beforeAppend := none
  afterAppend := none

/-- The step is committed, and committed again. -/
def sampleCommits : List Action :=
  [Action.commit sampleClaim (.result sampleResult)] ++
    List.replicate 13 (Action.advance 0 quietInput) ++
    [Action.commit sampleClaim (.result sampleResult)] ++
      List.replicate 2 (Action.advance 1 quietInput)

theorem commit_sound_sampleCommits :
    ∃ pool, Trace.run (step sampleCommitter) (start .new sampleState) sampleCommits = some pool ∧
      pool.world.history.countP CompletionEvent.isMemoryInvoked = 1 ∧
      Sound sampleCommitter pool.world.history := by
  have hrun : (Trace.run (step sampleCommitter) (start .new sampleState) sampleCommits).any
      (fun pool => pool.world.history.countP CompletionEvent.isMemoryInvoked = 1) = true := by
    decide +kernel
  obtain ⟨pool, hpool, hcount⟩ := exists_of_any hrun
  exact ⟨pool, hpool, hcount, commit_sound hpool⟩

/-- What this event returns is `COMMITTED` exactly for a step that is complete. -/
def CompletionEvent.ReportsComplete : CompletionEvent → Prop
  | .returned _ result store state =>
    result.commitStatus = .committed ↔ Complete store state result.stepId
  | _ => True

def CompletionEvent.reportsNone : CompletionEvent → Bool
  | .returned _ result store state => decide (result.commitStatus = .none ∧
      state.Succeeded result.stepId ∧ store.Readable result.stepId)
  | _ => false

/-- The second call reports `NONE` for a step that has succeeded and can be read. -/
theorem duplicate_commit_reports_none :
    ∃ pool, Trace.run (step sampleCommitter) (start .new sampleState) sampleCommits = some pool ∧
      ∃ event ∈ pool.world.history, ¬ CompletionEvent.ReportsComplete event := by
  have hrun : (Trace.run (step sampleCommitter) (start .new sampleState) sampleCommits).any
      (fun pool => pool.world.history.getLast?.any CompletionEvent.reportsNone) = true := by
    decide +kernel
  obtain ⟨pool, hpool, hlast⟩ := Option.any_eq_true _ _ |>.mp hrun
  obtain ⟨event, hevent, hlast⟩ := Option.any_eq_true _ _ |>.mp hlast
  refine ⟨pool, hpool, ?_⟩
  unfold CompletionEvent.reportsNone at hlast
  split at hlast
  · next call result store state =>
    obtain ⟨hnone, hcomplete⟩ := of_decide_eq_true hlast
    refine ⟨_, List.mem_of_getLast? hevent, fun hreports => ?_⟩
    have hcommitted := hreports.mpr hcomplete
    rw [hnone] at hcommitted
    cases hcommitted
  · cases hlast

end StepResultCommitter

end LocalAgent.Runtime
