import LocalAgent.Runtime.ApprovalController

/-!
# LocalAgent.Runtime.ApprovalControllerSteps — what one step of a controller can do

Every section of the controller is read once; the invariants of the runs use only what is said here.

* `Moved`: what a step does to the records, the journal, the lock and the steps (`moved_of_step`).
* `Listed`: what it does to the tables and to what waits for them (`listed_of_step`).
* `Shape`: how the lock's owner, the records and the registrations go together (`Shape.step`).
-/

namespace LocalAgent.Runtime

open Text (NonBlank)

/-! ## The step states -/

/-- The step waits, and the time is late enough for its decision. -/
def AgentState.Awaits (state : AgentState) (stepId : String) (now : DateTime) : Prop :=
  ∃ step ∈ state.steps.get? stepId, step.status = .waitingForApproval ∧
    ¬ now < state.updatedAt ∧ ∀ t ∈ step.startedAt, ¬ now < t
  deriving Decidable

def ApprovalDecisionValue.target : ApprovalDecisionValue → StepStatus
  | .approve => .running
  | .reject => .failed

namespace ToolApprovalController

variable {state state' : AgentState} {stepId : NonBlank} {now : DateTime.Utc} {move : BridgeMove}

theorem bridge_eq_some (h : bridge move stepId now state = some state') :
    AgentStateMachine.applyStepEvent (move.event stepId now) state = .ok () state' := by
  unfold bridge at h
  split at h
  · next heq => exact heq.trans (by rw [Option.some.inj h])
  · cases h

/-- A step that waits for its approval can take every answer. -/
theorem bridge_of_awaits (hv : state.Valid) (decision : ApprovalDecisionValue)
    (h : state.Awaits stepId now) : (bridge decision.move stepId now state).isSome = true := by
  obtain ⟨step, hstep, hwaiting, hupdated, hstarted⟩ := h
  have hfits : AgentStateMachine.Fits state (decision.move.event stepId now) step
      decision.target := by
    refine ⟨now.property, hstep, .inr hwaiting, ?_, hupdated, hstarted, fun hvalid hcreated => ?_⟩
    · rw [hwaiting]
      cases decision <;> rfl
    · have hactive := hvalid.active (.inr hwaiting)
      cases decision with
      | approve =>
        refine ⟨hvalid.stepId_ne, hvalid.name_ne, hvalid.created, hvalid.started, nofun, nofun,
          fun _ => ⟨hactive.1, rfl⟩, nofun, ?_, nofun, nofun⟩
        rintro (hstatus | hstatus | hstatus | hstatus | hstatus) <;> exact nomatch hstatus
      | reject =>
        refine ⟨hvalid.stepId_ne, hvalid.name_ne, hvalid.created, hvalid.started, fun t ht => ?_,
          nofun, ?_, nofun, fun _ => nofun, nofun, fun _ => .inl ?_⟩
        · cases ht
          exact ⟨now.property, hcreated, hstarted⟩
        · rintro (hstatus | hstatus) <;> exact nomatch hstatus
        · show HasText (some "TOOL_APPROVAL_REJECTED")
          decide
  unfold bridge
  rw [hfits.apply hv]
  rfl

/-- Steps move as the table says, and nobody starts to wait. -/
def Calm (state state' : AgentState) : Prop :=
  ∀ stepId step, state.steps.get? stepId = some step →
    ∃ step', state'.steps.get? stepId = some step' ∧ (step'.status = step.status ∨
      ∃ event, event ≠ .approvalRequested ∧ stepTransitions step.status event = some step'.status)

theorem Calm.refl : Calm state state := fun _ step hstep => ⟨step, hstep, .inl rfl⟩

theorem calm_stepApplied {event : StepStateEvent} {step : StepState} {target : StepStatus}
    (hfound : state.steps.get? event.stepId = some step)
    (htable : stepTransitions step.status event.eventType = some target)
    (htype : event.eventType ≠ .approvalRequested) :
    Calm state (AgentStateMachine.stepApplied state event step target) := by
  intro stepId old hold
  by_cases hid : stepId = event.stepId
  · subst hid
    cases hfound.symm.trans hold
    refine ⟨AgentStateMachine.writeStepEvent step event target,
      by simp [AgentStateMachine.stepApplied], .inr ⟨event.eventType, htype, ?_⟩⟩
    rwa [AgentStateMachine.writeStepEvent_status]
  · exact ⟨old, by simp [AgentStateMachine.stepApplied, hid, hold], .inl rfl⟩

theorem calm_registered {newId name : String} {stepNow touchNow : DateTime}
    (hfresh : newId ∉ state.steps.keys) :
    Calm state (AgentStateMachine.registered state newId name stepNow touchNow) := by
  intro stepId step hstep
  have hne : stepId ≠ newId := by
    rintro rfl
    exact hfresh (Dict.mem_keys_iff.mpr ⟨step, hstep⟩)
  exact ⟨step, by simp [AgentStateMachine.registered, hne, hstep], .inl rfl⟩

/-- No work of the run touches what the approvals wait for. -/
theorem calm_work {call : AgentStateMachine.Call} (hwork : IsWork call = true) :
    Calm state (Op.after call.op state) := by
  cases happly : call.op state with
  | error =>
    rw [Op.after_error happly, AgentStateMachine.call_error call happly]
    exact .refl
  | ok =>
    rw [Op.after_ok happly]
    have hcandidate := AgentStateMachine.candidate_of_ok call happly
    cases call with
    | applyStepEvent =>
      obtain ⟨step, _, hfound, htable, -, rfl, -⟩ := AgentStateMachine.applyStepEvent_ok happly
      exact calm_stepApplied hfound htable (of_decide_eq_true hwork)
    | applyRunEvent =>
      have hframe := AgentStateMachine.applyRunEvent_frame happly
      exact fun stepId step hstep => ⟨step, (hframe.steps stepId).trans hstep, .inl rfl⟩
    | addStep =>
      obtain ⟨-, -, hfresh, rfl, -⟩ := AgentStateMachine.addStepCandidate_eq_ok hcandidate
      exact calm_registered hfresh
    | registerPlanStep =>
      obtain ⟨-, -, hfresh, rfl, -⟩ := AgentStateMachine.registerPlanStepCandidate_eq_ok hcandidate
      exact calm_registered hfresh

/-- What the bridge does to the state of the run. -/
theorem bridge_spec (h : bridge move stepId now state = some state') :
    state'.Valid ∧ (∃ step step', state.steps.get? stepId = some step ∧
        state'.steps.get? stepId = some step' ∧
        stepTransitions step.status move.eventType = some step'.status) ∧
      (move ≠ .runningToWaiting → Calm state state') ∧
      ∀ other, other ≠ stepId.val → state'.steps.get? other = state.steps.get? other := by
  obtain ⟨step, target, hfound, htable, -, rfl, hvalid⟩ :=
    AgentStateMachine.applyStepEvent_ok (bridge_eq_some h)
  refine ⟨hvalid, ⟨step, AgentStateMachine.writeStepEvent step (move.event stepId now) target,
    hfound, ?_, ?_⟩, fun hmove => calm_stepApplied hfound htable ?_, fun other hother => ?_⟩
  · exact (Dict.get?_set _ _ _ _).trans (if_pos rfl)
  · rwa [AgentStateMachine.writeStepEvent_status]
  · cases move with
    | runningToWaiting => exact absurd rfl hmove
    | _ => exact nofun
  · refine (Dict.get?_set _ _ _ _).trans ?_
    rw [if_neg (show other ≠ (move.event stepId now).stepId from hother), Dict.get?_sorted]

/-! ## What one step can do -/

variable {cfg : ApprovalConfig} {w w' : ApprovalWorld} {action : Action}

/-- The statuses that `invalidate` and an inactive run give. -/
def Withdrawn (status : ApprovalStatus) : Prop :=
  status = .invalidatedCancelled ∨ status = .invalidatedTimeout

variable {status : ApprovalStatus} {record : ApprovalRecord} {rest : List String}
  {decision : ApprovalDecisionValue} {invocation : ToolInvocation} {createdAt : DateTime.Utc}

theorem Withdrawn.ne_decision (h : Withdrawn status)
    (decision : ApprovalDecisionValue) : status ≠ decision.status := by
  rcases h with rfl | rfl <;> cases decision <;> exact nofun

theorem decision_status_injective {a b : ApprovalDecisionValue} (h : a.status = b.status) :
    a = b := by
  cases a <;> cases b <;> first | rfl | exact nomatch h

/-- What the owner of the lock relies on. -/
def HolderOk (records : Dict String ApprovalRecord) : LockHolder → Prop
  | .creating request _ => ∀ id record, records.get? id = some record →
      record.request.invocationId ≠ request.invocationId
  | .publishing evidence _ (.request request) =>
    evidence = .requested request.approvalId ∧ records.get? request.approvalId = none
  | .publishing evidence _ (.decide id decision _ _) =>
    evidence = .decided id decision.status ∧
      ∃ record, records.get? id = some record ∧ record.status = .pending
  | .publishing evidence _ (.invalidate status _ id rest) =>
    evidence = .decided id status ∧ Withdrawn status ∧
      (∃ record, records.get? id = some record ∧ record.status.isSettled = false) ∧
      ∀ other ∈ rest, (records.get? other).isSome
  | .invalidating status _ rest =>
    Withdrawn status ∧ ∀ other ∈ rest, (records.get? other).isSome

/-- The evidence of a decision is in the journal, and the decision is not yet made. -/
def Deciding (w : ApprovalWorld) : Prop :=
  ∃ evidence id decision actorDigest decidedAt,
    w.lock = some (.publishing evidence true (.decide id decision actorDigest decidedAt))

/-- A publication of a decision that fails has not reached the journal, and one that returns finds
the step still waiting, and not changed since the decision's time was read. -/
def CleanEnd (w : ApprovalWorld) (outcome : PublishOutcome) : Option LockHolder → Prop
  | some (.publishing _ appended (.decide id _ _ decidedAt)) =>
    (outcome ≠ .returned → appended = false) ∧
      (outcome = .returned → ∀ record ∈ w.records.get? id,
        w.state.Awaits record.request.stepId decidedAt)
  | _ => True

instance (w : ApprovalWorld) (outcome : PublishOutcome) :
    ∀ lock, Decidable (CleanEnd w outcome lock)
  | some (.publishing _ _ (.decide _ _ _ _)) => inferInstanceAs (Decidable (_ ∧ _))
  | some (.publishing _ _ (.request _)) => isTrue trivial
  | some (.publishing _ _ (.invalidate _ _ _ _)) => isTrue trivial
  | some (.creating _ _) => isTrue trivial
  | some (.invalidating _ _ _) => isTrue trivial
  | none => isTrue trivial

def Clean (w : ApprovalWorld) : Action → Prop
  | .endPublication outcome _ => CleanEnd w outcome w.lock
  | _ => True

instance (w : ApprovalWorld) : ∀ action, Decidable (Clean w action)
  | .endPublication outcome _ => inferInstanceAs (Decidable (CleanEnd w outcome w.lock))
  | .request .. | .create .. | .createFailed | .decide .. | .projectAnswer .. | .claim ..
  | .claimDurable .. | .observe .. | .projectStatus .. | .invalidate .. | .invalidateNext ..
  | .append | .close | .work .. | .elsewhere .. => isTrue trivial

/-- Notes about requests and invalidations. -/
def Neutral : ApprovalNote → Prop
  | .published (.requested _) => True
  | .published (.decided _ status) => Withdrawn status
  | _ => False

inductive Projected (w : ApprovalWorld) (answer : DurableAnswer) (record : ApprovalRecord)
    (now : DateTime.Utc) (w' : ApprovalWorld) : Prop
  | taken (decision : ApprovalDecisionValue)
      (status : answer.result.effectiveStatus = decision.status)
      (state : bridge decision.move record.request.stepId (answer.result.decidedAt.getD now)
        w.state = some w'.state)
      (history : w'.history = w.history ++ [.left answer.approvalId decision])
  | ignored (state : w'.state = w.state) (history : w'.history = w.history)
      (refused : (∃ e, computeActorIdDigest answer.actorId = .error e) ∨
        ∀ decision : ApprovalDecisionValue, answer.result.effectiveStatus = decision.status →
          bridge decision.move record.request.stepId (answer.result.decidedAt.getD now)
            w.state = none)

def Backed (tables : ApprovalTables) (request : ApprovalRequest) : Prop :=
  ∃ row, tables.approvals.get? request.approvalId = some row ∧
    row.invocationId = request.invocationId

/-- The registrations are as they were. -/
structure SameRolls (w w' : ApprovalWorld) : Prop where
  closed : w'.closed = w.closed
  registered : w'.registered = w.registered
  active : w'.activeByInvocation = w.activeByInvocation

/-- Everything one step can do to the records, the history, the lock and the steps. -/
inductive Moved (cfg : ApprovalConfig) (w : ApprovalWorld) (action : Action) (w' : ApprovalWorld) :
    Prop
  | idle (records : w'.records = w.records) (history : w'.history = w.history)
      (lock : w'.lock = w.lock) (calm : Calm w.state w'.state)
      (valid : w.state.Valid → w'.state.Valid)
      (rolls : SameRolls w w' ∨ w'.closed = true ∧ w'.registered = [])
  | opened (holder : LockHolder) (records : w'.records = w.records)
      (history : w'.history = w.history) (lock : w'.lock = some holder)
      (state : w'.state = w.state) (idle : ¬ Deciding w)
      (before : ∀ evidence appended next, holder = .publishing evidence appended next →
        appended = false)
      (relies : HolderOk w.records holder) (rolls : SameRolls w w')
      (durable : ∀ request emitter, holder = .creating request emitter → cfg.durable = true)
      (plain : ∀ evidence appended id decision actorDigest decidedAt,
        holder = .publishing evidence appended (.decide id decision actorDigest decidedAt) →
          cfg.durable = false)
      (backed : ∀ evidence appended request,
        holder = .publishing evidence appended (.request request) →
          cfg.durable = true → Backed w'.tables request)
  | dropped (notes : List ApprovalNote) (records : w'.records = w.records)
      (history : w'.history = w.history ++ notes) (neutral : ∀ note ∈ notes, Neutral note)
      (lock : w'.lock = none) (state : w'.state = w.state) (idle : ¬ Deciding w)
      (rolls : SameRolls w w')
  /-- the evidence of a decision is in the journal, and the record is not decided -/
  | lost (notes : List ApprovalNote) (records : w'.records = w.records)
      (history : w'.history = w.history ++ notes)
      (published : ∀ note ∈ notes, ∃ evidence, note = .published evidence)
      (lock : w'.lock = none) (state : w'.state = w.state) (unclean : ¬ Clean w action)
      (rolls : SameRolls w w')
  | appended (evidence : ApprovalEvidence) (next : Continuation)
      (before : w.lock = some (.publishing evidence false next)) (records : w'.records = w.records)
      (history : w'.history = w.history ++ [.journaled evidence])
      (lock : w'.lock = some (.publishing evidence true next)) (state : w'.state = w.state)
      (rolls : SameRolls w w')
  | registered (request : ApprovalRequest) (now : DateTime.Utc) (notes : List ApprovalNote)
      (fresh : w.records.get? request.approvalId = none)
      (records : w'.records = w.records.set request.approvalId ⟨request, none, .pending⟩)
      (history : w'.history = w.history ++ notes ++ [.requested request.approvalId request.stepId])
      (neutral : ∀ note ∈ notes, Neutral note) (lock : w'.lock = none) (idle : ¬ Deciding w)
      (state : bridge .runningToWaiting request.stepId now w.state = some w'.state)
      (rolls : w'.closed = w.closed ∧ (∀ id ∈ w'.registered, id = request.approvalId.val ∨
        id ∈ w.registered) ∧
        w'.activeByInvocation = w.activeByInvocation.set request.invocationId request.approvalId)
      (backed : cfg.durable = true → Backed w'.tables request)
  | decided (record : ApprovalRecord) (decision : ApprovalDecision) (actorDigest : Option String)
      (before : w.lock = some (.publishing (.decided decision.approvalId decision.decision.status)
        true (.decide decision.approvalId decision.decision actorDigest decision.decidedAt)))
      (found : w.records.get? decision.approvalId = some record) (pending : record.status = .pending)
      (records : w'.records = w.records.set decision.approvalId
        ⟨record.request, some decision, decision.decision.status⟩)
      (history : w'.history = w.history ++
        [.published (.decided decision.approvalId decision.decision.status),
          .left decision.approvalId decision.decision])
      (lock : w'.lock = none)
      (state : bridge decision.decision.move record.request.stepId decision.decidedAt w.state =
        some w'.state) (rolls : SameRolls w w')
  | claimed (id : String) (record : ApprovalRecord) (invocation : ToolInvocation)
      (plain : cfg.durable = false) (found : w.records.get? id = some record)
      (approved : record.status = .approved) (matching : record.request.Matches invocation)
      (records : w'.records = w.records.set id { record with status := .executionClaimed })
      (history : w'.history = w.history ++ [.claimed id invocation])
      (before : w.lock = none) (lock : w'.lock = none) (state : w'.state = w.state)
      (rolls : SameRolls w w')
  | lapsed (id : String) (record : ApprovalRecord) (status : ApprovalStatus)
      (plain : cfg.durable = false) (found : w.records.get? id = some record)
      (approved : record.status = .approved) (withdrawn : Withdrawn status)
      (records : w'.records = w.records.set id { record with status := status })
      (history : w'.history = w.history) (before : w.lock = none) (lock : w'.lock = none)
      (state : w'.state = w.state) (rolls : SameRolls w w')
  | invalidated (id : String) (record : ApprovalRecord) (status : ApprovalStatus)
      (now : DateTime.Utc) (rest : List String) (notes : List ApprovalNote)
      (found : w.records.get? id = some record) (unsettled : record.status.isSettled = false)
      (withdrawn : Withdrawn status) (known : ∀ other ∈ rest, (w.records.get? other).isSome)
      (records : w'.records = w.records.set id { record with status := status })
      (history : w'.history = w.history ++ notes) (neutral : ∀ note ∈ notes, Neutral note)
      (lock : w'.lock = some (.invalidating status now rest)) (idle : ¬ Deciding w)
      (calm : Calm w.state w'.state) (valid : w.state.Valid → w'.state.Valid)
      (rolls : SameRolls w w')
  | answered (n : ℕ) (now : DateTime.Utc) (answer : DurableAnswer) (record record' : ApprovalRecord)
      (call : action = .projectAnswer n now) (answered : w.answers[n]? = some answer)
      (found : lookup w answer.approvalId = some record)
      (successful : answer.result.safeErrorCode = none)
      (request : record'.request = record.request)
      (status : record'.status = answer.result.effectiveStatus)
      (records : w'.records = w.records.set answer.approvalId record')
      (before : w.lock = none) (lock : w'.lock = none) (step : Projected w answer record now w')
      (rolls : SameRolls w w')
  | observed (id : String) (status : ApprovalStatus) (record : ApprovalRecord) (move : BridgeMove)
      (now : DateTime.Utc) (entry : (id, status) ∈ w.observed)
      (found : w.records.get? id = some record) (pending : record.status = .pending)
      (asked : observedMove status = some move)
      (records : w'.records = w.records.set id { record with status := status })
      (history : w'.history = w.history ++ ((statusDecision status).map (.left id)).toList)
      (before : w.lock = none) (lock : w'.lock = none)
      (state : bridge move record.request.stepId now w.state = some w'.state)
      (rolls : SameRolls w w')
  | granted (n : ℕ) (claimId : String) (dbNow : ℤ) (createdAt : DateTime.Utc)
      (call : DurableClaimCall) (act : action = .claimDurable n claimId dbNow createdAt)
      (calling : w.claiming[n]? = some call) (durable : cfg.durable = true)
      (approved : ∃ row, w.tables.approvals.get? call.approvalId = some row ∧ row.state = .approved)
      (records : w'.records = w.records)
      (history : w'.history = w.history ++ [.claimed call.approvalId call.invocation])
      (lock : w'.lock = w.lock) (state : w'.state = w.state) (rolls : SameRolls w w')

/-- How the sections and the records of a controller go together. -/
structure Shape (cfg : ApprovalConfig) (w : ApprovalWorld) : Prop where
  valid : w.state.Valid
  known : ∀ id ∈ w.registered, (w.records.get? id).isSome
  holder : ∀ holder, w.lock = some holder → HolderOk w.records holder
  active : w.closed = false → ∀ id record, w.records.get? id = some record →
    (w.activeByInvocation.get? record.request.invocationId).isSome
  plain : cfg.durable = false → w.answers = [] ∧ w.observed = [] ∧ w.claiming = [] ∧
    ∀ request emitter, w.lock ≠ some (.creating request emitter)

theorem SameRolls.trans {w₁ w₂ : ApprovalWorld} (h : SameRolls w w₁) (h' : SameRolls w₁ w₂) :
    SameRolls w w₂ :=
  ⟨h'.closed.trans h.closed, h'.registered.trans h.registered, h'.active.trans h.active⟩

theorem Moved.quiet (records : w'.records = w.records) (history : w'.history = w.history)
    (lock : w'.lock = w.lock) (state : w'.state = w.state) (rolls : SameRolls w w') :
    Moved cfg w action w' :=
  .idle records history lock (state ▸ .refl) (fun hv => state ▸ hv) (.inl rolls)

theorem Moved.unchanged : Moved cfg w action w := .quiet rfl rfl rfl rfl ⟨rfl, rfl, rfl⟩

theorem Moved.abandoned (hidle : ¬ Deciding w) : Moved cfg w action (release w) :=
  .dropped [] rfl (List.append_nil _).symm nofun rfl rfl hidle ⟨rfl, rfl, rfl⟩

theorem not_deciding_of_none (h : w.lock = none) : ¬ Deciding w := by
  rintro ⟨_, _, _, _, _, hlock⟩
  cases h.symm.trans hlock

variable {x : ApprovalWorld × ApprovalReply} {call : ApprovalCall} {bindingDigest claimId : String}
  {tables : ApprovalTables} {actorDigest : Option String} {outcome : PublishOutcome}
  {answer : DurableAnswer} {dbNow : ℤ} {evidence : ApprovalEvidence} {next : Continuation}

theorem locked_eq_some : locked w x = some w' ↔ w.lock = none ∧ x.1 = w' := by
  unfold locked
  split_ifs with h
  all_goals simp [h]

theorem lookup_eq_some {id : String} (h : lookup w id = some record) :
    id ∈ w.registered ∧ w.records.get? id = some record := by
  unfold lookup at h
  split_ifs at h with hmem
  exact ⟨hmem, h⟩

section Sections

variable {w₁ : ApprovalWorld} {notes : List ApprovalNote} {request : ApprovalRequest}

/-- The end of `request_approval`, once the canonical request is known. -/
theorem moved_finishRequest (hbacked : cfg.durable = true → Backed w₁.tables request)
    (hrolls : SameRolls w w₁) (hrecords : w₁.records = w.records)
    (hhistory : w₁.history = w.history ++ notes) (hstate : w₁.state = w.state)
    (hneutral : ∀ note ∈ notes, Neutral note) (hidle : ¬ Deciding w)
    (hfresh : w.records.get? request.approvalId = none) :
    Moved cfg w action (finishRequest w₁ request now).1 := by
  unfold finishRequest
  cases hbridge : bridge .runningToWaiting request.stepId now w₁.state with
  | none => exact .dropped notes hrecords hhistory hneutral rfl hstate hidle (hrolls.trans ⟨rfl, rfl, rfl⟩)
  | some =>
    refine .registered request now notes hfresh ?_ ?_ hneutral rfl hidle ?_
      ⟨hrolls.closed, fun id hid => ?_, ?_⟩ hbacked
    · exact congrArg (Dict.set · _ _) hrecords
    · exact congrArg (· ++ _) hhistory
    · rwa [← hstate]
    · dsimp only at hid
      rw [hrolls.registered] at hid
      split_ifs at hid with hmem
      · exact .inr hid
      · rcases mem_snoc hid with hid | hid
        · exact .inr hid
        · exact .inl hid
    · exact congrArg (Dict.set · _ _) hrolls.active

/-- `request_approval` enters its publication. -/
theorem moved_publishRequest {emitter : Bool}
    (hbacked : cfg.durable = true → Backed w₁.tables request) (hrolls : SameRolls w w₁)
    (hrecords : w₁.records = w.records)
    (hhistory : w₁.history = w.history) (hstate : w₁.state = w.state) (hidle : ¬ Deciding w)
    (hfresh : w.records.get? request.approvalId = none) :
    Moved cfg w action (publishRequest w₁ request emitter now).1 := by
  unfold publishRequest
  split_ifs with hemitter
  · refine .opened _ hrecords hhistory rfl hstate hidle ?_ ⟨rfl, hfresh⟩ (hrolls.trans ⟨rfl, rfl, rfl⟩)
      (fun _ _ heq => nomatch heq) (fun _ _ _ _ _ _ heq => nomatch heq) ?_
    · intro evidence appended _ heq
      exact (LockHolder.publishing.inj heq).2.1.symm
    · intro _ _ _ heq
      cases Continuation.request.inj (LockHolder.publishing.inj heq).2.2
      exact hbacked
  · have hnotes : w₁.history = w.history ++ [] := hhistory.trans (List.append_nil _).symm
    exact moved_finishRequest hbacked hrolls hrecords hnotes hstate nofun hidle hfresh

theorem moved_settleInvalidation {id : String}
(hrolls : SameRolls w w₁) (hrecords : w₁.records = w.records)
    (hhistory : w₁.history = w.history ++ notes) (hstate : w₁.state = w.state)
    (hneutral : ∀ note ∈ notes, Neutral note) (hidle : ¬ Deciding w)
    (hfound : w.records.get? id = some record) (hunsettled : record.status.isSettled = false)
    (hstatus : Withdrawn status) (hrest : ∀ other ∈ rest, (w.records.get? other).isSome) :
    Moved cfg w action (settleInvalidation w₁ status now id rest).1 := by
  have hfound₁ : w₁.records.get? id = some record := by
    rwa [hrecords]
  unfold settleInvalidation
  rw [hfound₁]
  refine .invalidated id record status now rest notes hfound hunsettled hstatus hrest ?_ hhistory
    hneutral rfl hidle ?_ ?_ (hrolls.trans ⟨rfl, rfl, rfl⟩)
  · exact congrArg (Dict.set · _ _) hrecords
  · show Calm w.state ((bridge .waitingToCancelled record.request.stepId now w₁.state).getD w₁.state)
    rw [hstate]
    cases hbridge : bridge .waitingToCancelled record.request.stepId now w.state with
    | none => exact .refl
    | some => exact (bridge_spec hbridge).2.2.1 nofun
  · intro hv
    show ((bridge .waitingToCancelled record.request.stepId now w₁.state).getD w₁.state).Valid
    rw [hstate]
    cases hbridge : bridge .waitingToCancelled record.request.stepId now w.state with
    | none => exact hv
    | some => exact (bridge_spec hbridge).1

end Sections

theorem request_approvalId {approvalId runId : NonBlank}
    {request : ApprovalRequest} (h : call.request approvalId runId now = some request) :
    request.approvalId = approvalId := by
  unfold ApprovalCall.request at h
  split_ifs at h
  rw [← Option.some.inj h]

variable {emitter : Bool}

theorem moved_request {approvalId : NonBlank} {requestedAt : DateTime.Utc} (hw : Shape cfg w)
    (h : step cfg w (.request call approvalId emitter requestedAt now) = some w') :
    Moved cfg w action w' := by
  simp only [step] at h
  split_ifs at h with hid
  have hnone : w.records.get? approvalId = none := Option.not_isSome_iff_eq_none.mp hid
  split at h
  · cases h
    exact .unchanged
  · next request hrequest =>
    obtain ⟨hlock, rfl⟩ := locked_eq_some.mp h
    have hsame : request.approvalId = approvalId := request_approvalId hrequest
    unfold requestApproval
    split_ifs with hclosed hactive hdurable
    · exact .unchanged
    · exact .unchanged
    · refine .opened (.creating request emitter) rfl rfl rfl rfl (not_deciding_of_none hlock) ?_ ?_
        ⟨rfl, rfl, rfl⟩ (fun _ _ _ => hdurable) (fun _ _ _ _ _ _ heq => by cases heq)
        (fun _ _ _ heq => by cases heq)
      · rintro _ _ _ ⟨⟩
      intro id record hrecord hinvocation
      have hsome := hw.active (Bool.eq_false_of_not_eq_true hclosed) id record hrecord
      rw [hinvocation] at hsome
      exact hactive hsome
    · exact moved_publishRequest (fun htrue => absurd htrue hdurable) ⟨rfl, rfl, rfl⟩ rfl rfl rfl
        (not_deciding_of_none hlock) (hsame ▸ hnone)

variable {actorId : Option String} {inactive : Option ApprovalStatus} {id approvalId : String}
  {runId : String}

theorem moved_decide
    (h : step cfg w (.decide runId approvalId bindingDigest decision actorId inactive emitter now) =
      some w') : Moved cfg w action w' := by
  simp only [step] at h
  split_ifs at h with hdurable hinactive
  · cases h
    unfold decideDurable
    split_ifs
    · exact .unchanged
    · split
      · exact .unchanged
      · exact .quiet rfl rfl rfl rfl ⟨rfl, rfl, rfl⟩
  · obtain ⟨hlock, rfl⟩ := locked_eq_some.mp h
    unfold decide
    split
    · exact .unchanged
    split
    · exact .unchanged
    split
    · exact .unchanged
    · next record hrecord =>
      split
      · exact .unchanged
      split
      · exact .unchanged
      · next hstatus =>
        split
        · exact .unchanged
        · exact .unchanged
        · split
          · refine .opened _ rfl rfl rfl rfl (not_deciding_of_none hlock) ?_
              ⟨rfl, record, (lookup_eq_some hrecord).2, not_not.mp hstatus⟩ ⟨rfl, rfl, rfl⟩
              (fun _ _ heq => nomatch heq)
              (fun _ _ _ _ _ _ _ => Bool.eq_false_of_not_eq_true hdurable)
              (fun _ _ _ heq => nomatch heq)
            intro _ _ _ heq
            exact (LockHolder.publishing.inj heq).2.1.symm
          · exact .unchanged

/-- A claim of an approved record, or a refusal that changes nothing. -/
theorem moved_claim
    (h : step cfg w (.claim approvalId invocation inactive) = some w') : Moved cfg w action w' := by
  simp only [step] at h
  split_ifs at h with hdurable hinactive
  · cases h
    unfold readClaim
    split
    · exact .unchanged
    · dsimp only
      split_ifs
      · exact .unchanged
      · exact .unchanged
      · exact .quiet rfl rfl rfl rfl ⟨rfl, rfl, rfl⟩
  · obtain ⟨hlock, rfl⟩ := locked_eq_some.mp h
    have hplain : cfg.durable = false := Bool.eq_false_of_not_eq_true hdurable
    unfold claimExecution
    split_ifs
    · exact .unchanged
    · split
      · exact .unchanged
      · next record hrecord =>
        have hfound := (lookup_eq_some hrecord).2
        split
        · exact .unchanged
        · next hmatch =>
          split
          · exact .unchanged
          · next hstatus =>
            split
            · next status =>
              exact .lapsed approvalId record status hplain hfound (not_not.mp hstatus)
                (hinactive status rfl) rfl rfl hlock hlock rfl ⟨rfl, rfl, rfl⟩
            · exact .claimed approvalId record invocation hplain hfound (not_not.mp hstatus)
                (not_not.mp hmatch) rfl rfl hlock hlock rfl ⟨rfl, rfl, rfl⟩

theorem moved_invalidate (hw : Shape cfg w)
    (h : step cfg w (.invalidate status actorId now) = some w') : Moved cfg w action w' := by
  obtain ⟨hlock, rfl⟩ := locked_eq_some.mp h
  unfold invalidate
  split_ifs with hstatus
  · exact .unchanged
  · split
    · exact .unchanged
    · refine .opened (.invalidating status now w.registered) rfl rfl rfl rfl
        (not_deciding_of_none hlock) ?_ ⟨?_, hw.known⟩ ⟨rfl, rfl, rfl⟩
        (fun _ _ heq => nomatch heq) (fun _ _ _ _ _ _ heq => nomatch heq)
        (fun _ _ _ heq => nomatch heq)
      · exact fun _ _ _ heq => nomatch heq
      by_contra hnot
      exact hstatus (not_or.mp hnot)

theorem moved_invalidateNext (hw : Shape cfg w)
    (h : step cfg w (.invalidateNext emitter) = some w') : Moved cfg w action w' := by
  simp only [step] at h
  split at h
  · next status invalidatedAt rest hlock =>
    cases h
    obtain ⟨hstatus, hknown⟩ := hw.holder _ hlock
    have hidle : ¬ Deciding w := by
      rintro ⟨_, _, _, _, _, hdeciding⟩
      cases hlock.symm.trans hdeciding
    cases rest with
    | nil => exact .abandoned hidle
    | cons id rest =>
      obtain ⟨record, hrecord⟩ := Option.isSome_iff_exists.mp (hknown id List.mem_cons_self)
      have hrest : ∀ other ∈ rest, (w.records.get? other).isSome :=
        fun other hother => hknown other (List.mem_cons_of_mem _ hother)
      simp only [invalidateNext, hrecord, Option.map_some, Option.any_some]
      split_ifs with hsettled hemitter
      · refine .opened (.invalidating status invalidatedAt rest) rfl rfl rfl rfl hidle ?_
          ⟨hstatus, hrest⟩ ⟨rfl, rfl, rfl⟩ (fun _ _ heq => by cases heq)
          (fun _ _ _ _ _ _ heq => by cases heq) (fun _ _ _ heq => by cases heq)
        rintro _ _ _ ⟨⟩
      · have hunsettled : record.status.isSettled = false := Bool.eq_false_of_not_eq_true hsettled
        refine .opened _ rfl rfl rfl rfl hidle ?_
          ⟨rfl, hstatus, ⟨record, hrecord, hunsettled⟩, hrest⟩ ⟨rfl, rfl, rfl⟩
          (fun _ _ heq => by cases heq) (fun _ _ _ _ _ _ heq => by cases heq)
          (fun _ _ _ heq => by cases heq)
        intro _ _ _ heq
        exact (LockHolder.publishing.inj heq).2.1.symm
      · have hunsettled : record.status.isSettled = false := Bool.eq_false_of_not_eq_true hsettled
        exact moved_settleInvalidation ⟨rfl, rfl, rfl⟩ rfl (List.append_nil _).symm rfl (by simp) hidle hrecord
          hunsettled hstatus hrest
  · cases h

/-- An answer without an error is in its row. -/
def Answered (tables : ApprovalTables) (answer : DurableAnswer) : Prop :=
  answer.result.safeErrorCode = none → ∃ row,
    tables.approvals.get? answer.approvalId = some row ∧
      row.status = answer.result.effectiveStatus ∧ (row.status = .approved ∨ row.status = .rejected)

/-- A status that was read, and is not pending, is in its row. -/
def Observed (tables : ApprovalTables) (entry : String × ApprovalStatus) : Prop :=
  ∃ row, tables.approvals.get? entry.1 = some row ∧ row.status = entry.2 ∧ row.state ≠ .pending

/-- What the answers, the reads and the records of a durable controller say of the tables. -/
structure Side (w : ApprovalWorld) : Prop where
  keyed : ∀ id row, w.tables.approvals.get? id = some row → row.approvalId.val = id
  named : ∀ id record, w.records.get? id = some record →
    record.request.approvalId.val = id ∧ Backed w.tables record.request
  requesting : ∀ evidence appended request,
    w.lock = some (.publishing evidence appended (.request request)) → Backed w.tables request
  answers : ∀ answer ∈ w.answers, Answered w.tables answer
  observed : ∀ entry ∈ w.observed, Observed w.tables entry
  tied : ∀ id record, w.records.get? id = some record →
    record.status = .approved ∨ record.status = .rejected →
      ∃ row, w.tables.approvals.get? id = some row ∧ row.status = record.status
  plain : ∀ evidence appended id decision actorDigest decidedAt,
    w.lock ≠ some (.publishing evidence appended (.decide id decision actorDigest decidedAt))
  unclaimed : ∀ id record, w.records.get? id = some record → record.status ≠ .executionClaimed

/-- A request the tables accept has no record yet. -/
theorem fresh_of_create {request canonical : ApprovalRequest} (hside : Side w)
    (hother : ∀ id record, w.records.get? id = some record →
      record.request.invocationId ≠ request.invocationId)
    (h : DurableApprovalService.create w.tables request createdAt = .ok (canonical, tables)) :
    w.records.get? canonical.approvalId = none := by
  refine Option.eq_none_iff_forall_ne_some.mpr fun record hrecord => ?_
  obtain ⟨hname, _, hrow, hinvocation⟩ := hside.named _ record hrecord
  rcases DurableApprovalService.create_ok h with ⟨existing, hfind, rfl, -⟩ | ⟨-, habsent, rfl, -⟩
  · obtain ⟨id, hid⟩ := Dict.mem_values_iff.mp (List.mem_of_find?_eq_some hfind)
    have hmatch : existing.runId = request.runId ∧ existing.invocationId = request.invocationId := by
      simpa using List.find?_some hfind
    have hkey : record.request.approvalId.val = id := hname.trans (hside.keyed id existing hid)
    rw [hkey, hid] at hrow
    cases hrow
    exact hother _ record hrecord (hinvocation.symm.trans hmatch.2)
  · rw [hname, habsent] at hrow
    cases hrow

theorem backed_of_create {request canonical : ApprovalRequest} (hside : Side w)
    (h : DurableApprovalService.create w.tables request createdAt = .ok (canonical, tables)) :
    Backed tables canonical := by
  rcases DurableApprovalService.create_ok h with ⟨existing, hfind, rfl, rfl⟩ | ⟨-, -, rfl, rfl⟩
  · obtain ⟨id, hid⟩ := Dict.mem_values_iff.mp (List.mem_of_find?_eq_some hfind)
    refine ⟨existing, ?_, rfl⟩
    rwa [show existing.request.approvalId.val = id from hside.keyed id existing hid]
  · exact ⟨.ofRequest canonical createdAt, (Dict.get?_set _ _ _ _).trans (if_pos rfl), rfl⟩

theorem moved_create (hw : Shape cfg w) (hside : cfg.durable = true → Side w)
    (h : step cfg w (.create createdAt now) = some w') : Moved cfg w action w' := by
  simp only [step] at h
  split at h
  · next request emitter hlock =>
    cases h
    have hdurable : cfg.durable = true := by
      by_contra hplain
      exact (hw.plain (Bool.eq_false_of_not_eq_true hplain)).2.2.2 request emitter hlock
    have hidle : ¬ Deciding w := by
      rintro ⟨_, _, _, _, _, hdeciding⟩
      cases hlock.symm.trans hdeciding
    unfold createDurable
    split
    · exact .abandoned hidle
    · next canonical tables hcreate =>
      exact moved_publishRequest (fun _ => backed_of_create (hside hdurable) hcreate)
        ⟨rfl, rfl, rfl⟩ rfl rfl rfl hidle
        (fresh_of_create (hside hdurable) (hw.holder _ hlock) hcreate)
  · cases h

theorem moved_createFailed (h : step cfg w .createFailed = some w') : Moved cfg w action w' := by
  simp only [step] at h
  split at h
  · next request emitter hlock =>
    cases h
    refine .abandoned ?_
    rintro ⟨_, _, _, _, _, hdeciding⟩
    cases hlock.symm.trans hdeciding
  · cases h

theorem moved_append (h : step cfg w .append = some w') : Moved cfg w action w' := by
  simp only [step] at h
  split at h
  · next evidence next hlock =>
    cases h
    exact .appended evidence next hlock rfl rfl rfl rfl ⟨rfl, rfl, rfl⟩
  · cases h

/-- The decision is applied to a record that is still pending. -/
theorem moved_finalizeDecision {decidedAt : DateTime.Utc}
    (hw : Shape cfg w) (hfound : w.records.get? id = some record) (hpending : record.status = .pending)
    (hlock : w.lock = some (.publishing (.decided id decision.status) true
      (.decide id decision actorDigest decidedAt))) : Moved cfg w (.endPublication .returned now)
      (finalizeDecision cfg (note w (.published (.decided id decision.status))) id decision
        actorDigest decidedAt).1 := by
  have hfound₁ : (note w (.published (.decided id decision.status))).records.get? id = some record :=
    hfound
  unfold finalizeDecision
  rw [hfound₁]
  dsimp only
  rw [if_neg (not_not.mpr hpending)]
  cases hbridge : bridge decision.move record.request.stepId decidedAt w.state with
  | none =>
    have hbridge₁ : bridge decision.move record.request.stepId decidedAt
        (note w (.published (.decided id decision.status))).state = none := hbridge
    rw [hbridge₁]
    refine .lost _ rfl rfl (fun note hnote => ⟨_, List.mem_singleton.mp hnote⟩) rfl rfl
      (fun hclean => ?_) ⟨rfl, rfl, rfl⟩
    have hend : CleanEnd w .returned w.lock := hclean
    rw [hlock] at hend
    have hawaits := hend.2 rfl record hfound
    have htaken := bridge_of_awaits hw.valid decision hawaits
    rw [hbridge] at htaken
    cases htaken
  | some state =>
    have hbridge₁ : bridge decision.move record.request.stepId decidedAt
        (note w (.published (.decided id decision.status))).state = some state := hbridge
    rw [hbridge₁]
    refine .decided record ⟨id, decision, decidedAt, actorDigest⟩ actorDigest hlock hfound hpending
      rfl ?_ rfl hbridge ⟨rfl, rfl, rfl⟩
    exact List.append_assoc _ _ _

/-- The end of a publication, by its outcome and by what it was for. -/
theorem moved_endPublication (hw : Shape cfg w)
    (hside : cfg.durable = true → Side w) (h : step cfg w (.endPublication outcome now) = some w') :
    Moved cfg w (.endPublication outcome now) w' := by
  simp only [step] at h
  split at h
  · next evidence appended next hlock =>
    obtain ⟨x, hx, rfl⟩ := Option.map_eq_some_iff.mp h
    have hholder := hw.holder _ hlock
    cases next with
    | request =>
      obtain ⟨rfl, hfresh⟩ := hholder
      have hidle : ¬ Deciding w := by
        rintro ⟨_, _, _, _, _, hdeciding⟩
        cases hlock.symm.trans hdeciding
      cases outcome with
      | returned =>
        simp only [endPublication] at hx
        split_ifs at hx
        cases hx
        refine moved_finishRequest (fun hdurable => (hside hdurable).requesting _ _ _ hlock)
          ⟨rfl, rfl, rfl⟩ rfl rfl rfl (fun note hnote => ?_) hidle hfresh
        rw [List.mem_singleton.mp hnote]
        trivial
      | raised | propagated =>
        cases hx
        exact .abandoned hidle
    | decide =>
      obtain ⟨rfl, record, hfound, hpending⟩ := hholder
      cases outcome with
      | returned =>
        simp only [endPublication] at hx
        split_ifs at hx with happended
        cases hx
        exact moved_finalizeDecision hw hfound hpending (happended ▸ hlock)
      | raised | propagated =>
        cases hx
        cases appended with
        | true =>
          refine .lost [] rfl (List.append_nil _).symm nofun rfl rfl (fun hclean => ?_) ⟨rfl, rfl, rfl⟩
          have hend : CleanEnd w _ w.lock := hclean
          rw [hlock] at hend
          exact nomatch hend.1 nofun
        | false =>
          refine .abandoned ?_
          rintro ⟨_, _, _, _, _, hdeciding⟩
          have heq := Option.mem_unique hlock hdeciding
          exact nomatch (LockHolder.publishing.inj heq).2.1
    | invalidate =>
      obtain ⟨rfl, hstatus, ⟨_, hfound, hunsettled⟩, hrest⟩ := hholder
      have hidle : ¬ Deciding w := by
        rintro ⟨_, _, _, _, _, hdeciding⟩
        cases hlock.symm.trans hdeciding
      cases outcome with
      | returned =>
        simp only [endPublication] at hx
        split_ifs at hx
        cases hx
        refine moved_settleInvalidation ⟨rfl, rfl, rfl⟩ rfl rfl rfl (fun note hnote => ?_) hidle hfound hunsettled
          hstatus hrest
        rwa [List.mem_singleton.mp hnote]
      | raised =>
        cases hx
        exact moved_settleInvalidation ⟨rfl, rfl, rfl⟩ rfl (List.append_nil _).symm rfl nofun hidle hfound
          hunsettled hstatus hrest
      | propagated =>
        cases hx
        exact .abandoned hidle
  · cases h

theorem statusDecision_eq_some :
    statusDecision status = some decision ↔ status = decision.status := by
  cases status <;> cases decision <;> decide

theorem projected_of_projectStep {w₁ : ApprovalWorld}
(hstate : w₁.state = w.state) (hhistory : w₁.history = w.history) :
    Projected w answer record now (projectStep w₁ answer.approvalId record.request.stepId
      answer.result.effectiveStatus (answer.result.decidedAt.getD now)) := by
  unfold projectStep
  split
  · next hnone =>
    refine .ignored hstate hhistory (.inr fun decision hdecision => ?_)
    cases hnone.symm.trans (statusDecision_eq_some.mpr hdecision)
  · next decision hdecision =>
    have hstatus := statusDecision_eq_some.mp hdecision
    split
    · next hnone =>
      refine .ignored hstate hhistory (.inr fun other hother => ?_)
      have hsame := statusDecision_eq_some.mpr hother
      cases hdecision.symm.trans hsame
      rwa [← hstate]
    · next state hsome =>
      refine .taken decision hstatus ?_ (congrArg (· ++ _) hhistory)
      rwa [← hstate]

theorem projectStep_frame {w₁ : ApprovalWorld} {stepId : NonBlank} :
    (projectStep w₁ id stepId status now).records = w₁.records ∧
      (projectStep w₁ id stepId status now).lock = w₁.lock ∧
      SameRolls w₁ (projectStep w₁ id stepId status now) := by
  unfold projectStep
  split
  · exact ⟨rfl, rfl, rfl, rfl, rfl⟩
  · split
    all_goals exact ⟨rfl, rfl, rfl, rfl, rfl⟩

variable {n : ℕ}

theorem moved_projectAnswer (h : step cfg w (.projectAnswer n now) = some w') :
    Moved cfg w (.projectAnswer n now) w' := by
  obtain ⟨answer, hanswer, hlocked⟩ := Option.bind_eq_some_iff.mp h
  obtain ⟨hlock, rfl⟩ := locked_eq_some.mp hlocked
  unfold projectAnswer
  split
  · exact .quiet rfl rfl rfl rfl ⟨rfl, rfl, rfl⟩
  · next record hrecord =>
    split
    · exact .quiet rfl rfl rfl rfl ⟨rfl, rfl, rfl⟩
    · next hcode =>
      split
      · next error herror =>
        exact .answered n now answer record
          { record with status := answer.result.effectiveStatus } rfl hanswer hrecord
          (not_not.mp hcode) rfl rfl rfl hlock hlock (.ignored rfl rfl (.inl ⟨error, herror⟩))
          ⟨rfl, rfl, rfl⟩
      · next actorDigest hactor =>
        refine .answered n now answer record
          ⟨record.request, some ⟨answer.approvalId, answer.decision,
            answer.result.decidedAt.getD now, actorDigest⟩, answer.result.effectiveStatus⟩
          rfl hanswer hrecord (not_not.mp hcode) rfl rfl ?_ hlock ?_ ?_ ?_
        · exact projectStep_frame.1
        · exact projectStep_frame.2.1.trans hlock
        · exact projected_of_projectStep rfl rfl
        · exact ⟨projectStep_frame.2.2.closed, projectStep_frame.2.2.registered,
            projectStep_frame.2.2.active⟩

theorem moved_projectStatus (h : step cfg w (.projectStatus n now) = some w') :
    Moved cfg w action w' := by
  obtain ⟨⟨id, status⟩, hentry, hlocked⟩ := Option.bind_eq_some_iff.mp h
  obtain ⟨hlock, rfl⟩ := locked_eq_some.mp hlocked
  unfold projectStatus
  split
  · exact .quiet rfl rfl rfl rfl ⟨rfl, rfl, rfl⟩
  split
  · exact .quiet rfl rfl rfl rfl ⟨rfl, rfl, rfl⟩
  · next record hrecord =>
    split
    · exact .quiet rfl rfl rfl rfl ⟨rfl, rfl, rfl⟩
    · next hpending =>
      split
      · exact .quiet rfl rfl rfl rfl ⟨rfl, rfl, rfl⟩
      · next move hmove =>
        split
        · exact .quiet rfl rfl rfl rfl ⟨rfl, rfl, rfl⟩
        · next state hbridge =>
          exact .observed id status record move now (List.mem_of_getElem? hentry)
            (lookup_eq_some hrecord).2 (not_not.mp hpending) hmove rfl rfl hlock hlock hbridge
            ⟨rfl, rfl, rfl⟩

theorem moved_claimDurable
    (hw : Shape cfg w) (h : step cfg w (.claimDurable n claimId dbNow createdAt) = some w') :
    Moved cfg w (.claimDurable n claimId dbNow createdAt) w' := by
  obtain ⟨call, hcall, hmap⟩ := Option.bind_eq_some_iff.mp h
  obtain ⟨_, -, rfl⟩ := Option.map_eq_some_iff.mp hmap
  have hdurable : cfg.durable = true := by
    by_contra hplain
    rw [(hw.plain (Bool.eq_false_of_not_eq_true hplain)).2.2.1] at hcall
    cases hcall
  unfold claimDurable
  split
  · exact .quiet rfl rfl rfl rfl ⟨rfl, rfl, rfl⟩
  · exact .quiet rfl rfl rfl rfl ⟨rfl, rfl, rfl⟩
  · next claim tables hclaim =>
    refine .granted n claimId dbNow createdAt call rfl hcall hdurable ?_ rfl rfl rfl rfl
      ⟨rfl, rfl, rfl⟩
    exact DurableApprovalService.approved_of_claimExecution hclaim

theorem moved_observe (h : step cfg w (.observe id) = some w') : Moved cfg w action w' := by
  simp only [step] at h
  split_ifs at h
  cases h
  unfold observeStatus
  split
  · exact .unchanged
  · exact .unchanged
  · exact .quiet rfl rfl rfl rfl ⟨rfl, rfl, rfl⟩

/-- One move for every action of the controller. -/
theorem moved_of_step (hw : Shape cfg w) (hside : cfg.durable = true → Side w)
    (h : step cfg w action = some w') : Moved cfg w action w' := by
  cases action with
  | request => exact moved_request hw h
  | create => exact moved_create hw hside h
  | createFailed => exact moved_createFailed h
  | decide =>
    exact moved_decide h
  | projectAnswer => exact moved_projectAnswer h
  | claim => exact moved_claim h
  | claimDurable => exact moved_claimDurable hw h
  | observe => exact moved_observe h
  | projectStatus => exact moved_projectStatus h
  | invalidate => exact moved_invalidate hw h
  | invalidateNext => exact moved_invalidateNext hw h
  | append => exact moved_append h
  | endPublication => exact moved_endPublication hw hside h
  | close =>
    cases h
    exact .idle rfl rfl rfl .refl id (.inr ⟨rfl, rfl⟩)
  | work call =>
    simp only [step] at h
    split_ifs at h with hwork
    cases h
    exact .idle rfl rfl rfl (calm_work hwork) (AgentStateMachine.call_valid call)
      (.inl ⟨rfl, rfl, rfl⟩)
  | elsewhere =>
    obtain ⟨_, -, rfl⟩ := Option.map_eq_some_iff.mp h
    exact .quiet rfl rfl rfl rfl ⟨rfl, rfl, rfl⟩

/-! ## The shape is kept -/

theorem Moved.valid (h : Moved cfg w action w') (hv : w.state.Valid) : w'.state.Valid := by
  cases h with
  | idle _ _ _ _ valid => exact valid hv
  | invalidated =>
    have hvalid : w.state.Valid → w'.state.Valid := by assumption
    exact hvalid hv
  | registered _ _ _ _ _ _ _ _ _ state | decided _ _ _ _ _ _ _ _ _ state
  | observed _ _ _ _ _ _ _ _ _ _ _ _ _ state =>
    exact (bridge_spec state).1
  | answered _ _ _ _ _ _ _ _ _ _ _ _ _ _ step =>
    cases step with
    | taken _ _ state => exact (bridge_spec state).1
    | ignored state => exact state ▸ hv
  | _ =>
    have hstate : w'.state = w.state := by assumption
    rwa [hstate]

/-- How a record of the old world goes on: it is the same, or the one the step writes. -/
def Rewrites (w w' : ApprovalWorld) (id : String) (record record' : ApprovalRecord) : Prop :=
  w.records.get? id = some record ∧ record'.request = record.request ∧
    w'.records = w.records.set id record'

/-- A step leaves the records, rewrites one of them, or adds one. -/
theorem Moved.records_cases (h : Moved cfg w action w') :
    w'.records = w.records ∨ (∃ id record record', Rewrites w w' id record record') ∨
      ∃ request : ApprovalRequest, w.records.get? request.approvalId = none ∧
        w'.records = w.records.set request.approvalId ⟨request, none, .pending⟩ ∧
        w'.closed = w.closed ∧
        (∀ id ∈ w'.registered, id = request.approvalId.val ∨ id ∈ w.registered) ∧
        w'.activeByInvocation = w.activeByInvocation.set request.invocationId
          request.approvalId := by
  cases h with
  | idle records | opened _ records | dropped _ records | lost _ records | granted =>
    exact .inl (by assumption)
  | appended _ _ _ records => exact .inl records
  | registered request _ _ fresh records _ _ _ _ _ rolls =>
    exact .inr (.inr ⟨request, fresh, records, rolls⟩)
  | decided record _ _ _ found _ records =>
    exact .inr (.inl ⟨_, record, _, found, by rfl, records⟩)
  | claimed id record _ _ found _ _ records | lapsed id record _ _ found _ _ records
  | invalidated id record _ _ _ _ found _ _ _ records
  | observed id _ record _ _ _ found _ _ records =>
    exact .inr (.inl ⟨id, record, _, found, by rfl, records⟩)
  | answered _ _ _ record record' _ _ found _ request _ records =>
    exact .inr (.inl ⟨_, record, record', (lookup_eq_some found).2, request, records⟩)

/-- A step leaves the lists, empties them at the close, or adds one request. -/
theorem Moved.rolls_cases (h : Moved cfg w action w') :
    SameRolls w w' ∨ (w'.records = w.records ∧ w'.closed = true ∧ w'.registered = []) ∨
      ∃ request : ApprovalRequest,
        w'.records = w.records.set request.approvalId ⟨request, none, .pending⟩ ∧
        w'.closed = w.closed ∧
        (∀ id ∈ w'.registered, id = request.approvalId.val ∨ id ∈ w.registered) ∧
        w'.activeByInvocation = w.activeByInvocation.set request.invocationId
          request.approvalId := by
  cases h with
  | idle records _ _ _ _ rolls =>
    rcases rolls with rolls | rolls
    · exact .inl rolls
    · exact .inr (.inl ⟨records, rolls⟩)
  | registered request _ _ _ records _ _ _ _ _ rolls =>
    exact .inr (.inr ⟨request, records, rolls⟩)
  | _ => exact .inl (by assumption)

theorem Moved.isSome (h : Moved cfg w action w')
    (hsome : (w.records.get? id).isSome) : (w'.records.get? id).isSome := by
  have hset : ∀ key record, ((w.records.set key record).get? id).isSome := by
    intro key record
    rw [Dict.get?_set]
    split_ifs
    · rfl
    · exact hsome
  rcases h.records_cases with hsame | ⟨_, _, _, -, -, hrecords⟩ |
    ⟨request, -, hrecords, -⟩
  · exact hsame ▸ hsome
  all_goals exact hrecords ▸ hset _ _

theorem holderOk_flag {records : Dict String ApprovalRecord}
{a b : Bool} (h : HolderOk records (.publishing evidence a next)) :
    HolderOk records (.publishing evidence b next) := by
  cases next <;> exact h

theorem Moved.holder (h : Moved cfg w action w') (hw : Shape cfg w) {holder : LockHolder}
    (hlock : w'.lock = some holder) : HolderOk w'.records holder := by
  cases h with
  | idle records _ lock | granted _ _ _ _ _ _ _ _ _ records _ lock =>
    exact records ▸ hw.holder _ (lock.symm.trans hlock)
  | opened _ records _ lock _ _ _ relies =>
    cases lock.symm.trans hlock
    exact records ▸ relies
  | appended _ _ before records _ lock =>
    cases lock.symm.trans hlock
    exact records ▸ holderOk_flag (hw.holder _ before)
  | invalidated _ _ _ _ _ _ _ _ withdrawn known records _ _ lock =>
    cases lock.symm.trans hlock
    refine ⟨withdrawn, fun other hother => ?_⟩
    rw [records, Dict.get?_set]
    split_ifs
    · rfl
    · exact known other hother
  | _ =>
    have hnone : w'.lock = none := by assumption
    cases hnone.symm.trans hlock

theorem Moved.known (h : Moved cfg w action w') (hw : Shape cfg w) :
    ∀ id ∈ w'.registered, (w'.records.get? id).isSome := by
  intro id hid
  rcases h.rolls_cases with hrolls | ⟨-, -, hempty⟩ | ⟨_, hrecords, -, hregistered, -⟩
  · exact h.isSome (hw.known id (hrolls.registered ▸ hid))
  · rw [hempty] at hid
    cases hid
  · rcases hregistered id hid with rfl | hold
    · rw [hrecords, Dict.get?_set, if_pos rfl]
      rfl
    · exact h.isSome (hw.known id hold)

/-- While the controller is open, every record has the entry of its invocation. -/
theorem Moved.active (h : Moved cfg w action w') (hw : Shape cfg w) (hclosed : w'.closed = false) :
    ∀ id record, w'.records.get? id = some record →
      (w'.activeByInvocation.get? record.request.invocationId).isSome := by
  -- a record with the request of an old one
  have hold : SameRolls w w' → ∀ id record, w.records.get? id = some record →
      (w'.activeByInvocation.get? record.request.invocationId).isSome := by
    intro hrolls id record hrecord
    rw [hrolls.active]
    exact hw.active (hrolls.closed ▸ hclosed) id record hrecord
  intro id record hrecord
  rcases h.rolls_cases with hrolls | ⟨-, htrue, -⟩ | ⟨request, hrecords, hsame, -, hactive⟩
  · rcases h.records_cases with hsame | ⟨key, old, _, hfound, hrequest, hrecords⟩ |
      ⟨request, -, hrecords, -, -, hactive⟩
    · exact hold hrolls id record (hsame ▸ hrecord)
    · rw [hrecords, Dict.get?_set] at hrecord
      split_ifs at hrecord with hkey
      · cases hrecord
        rw [hrequest]
        exact hold hrolls key old hfound
      · exact hold hrolls id record hrecord
    · rw [hrecords, Dict.get?_set] at hrecord
      split_ifs at hrecord with hkey
      · cases hrecord
        rw [hactive, Dict.get?_set, if_pos rfl]
        rfl
      · exact hold hrolls id record hrecord
  · cases htrue.symm.trans hclosed
  · rw [hactive, Dict.get?_set]
    split_ifs with hinvocation
    · rfl
    · rw [hrecords, Dict.get?_set] at hrecord
      split_ifs at hrecord with hkey
      · cases hrecord
        exact absurd rfl hinvocation
      · exact hw.active (hsame ▸ hclosed) id record hrecord

/-- What waits for the database is as it was. -/
structure SameLists (w w' : ApprovalWorld) : Prop where
  answers : w'.answers = w.answers
  observed : w'.observed = w.observed
  claiming : w'.claiming = w.claiming
  tables : w'.tables = w.tables

theorem sameLists_finishRequest {request : ApprovalRequest} :
    SameLists w (finishRequest w request now).1 := by
  unfold finishRequest
  split <;> exact ⟨rfl, rfl, rfl, rfl⟩

theorem sameLists_publishRequest {request : ApprovalRequest} :
    SameLists w (publishRequest w request emitter now).1 := by
  unfold publishRequest
  split
  · exact ⟨rfl, rfl, rfl, rfl⟩
  · exact sameLists_finishRequest

theorem sameLists_requestApproval {request : ApprovalRequest} :
    SameLists w (requestApproval cfg w request emitter now).1 := by
  unfold requestApproval
  split_ifs
  · exact ⟨rfl, rfl, rfl, rfl⟩
  · exact ⟨rfl, rfl, rfl, rfl⟩
  · exact ⟨rfl, rfl, rfl, rfl⟩
  · exact sameLists_publishRequest

theorem sameLists_decide : SameLists w
      (decide cfg w runId approvalId bindingDigest decision actorId inactive emitter now).1 := by
  unfold decide
  repeat' split
  all_goals exact ⟨rfl, rfl, rfl, rfl⟩

theorem sameLists_finalizeDecision :
    SameLists w (finalizeDecision cfg w id decision actorDigest now).1 := by
  unfold finalizeDecision
  repeat' split
  all_goals exact ⟨rfl, rfl, rfl, rfl⟩

theorem sameLists_claimExecution : SameLists w (claimExecution cfg w id invocation inactive).1 := by
  unfold claimExecution
  repeat' split
  all_goals exact ⟨rfl, rfl, rfl, rfl⟩

theorem sameLists_invalidate : SameLists w (invalidate w status actorId now).1 := by
  unfold invalidate
  repeat' split
  all_goals exact ⟨rfl, rfl, rfl, rfl⟩

theorem sameLists_settleInvalidation : SameLists w (settleInvalidation w status now id rest).1 := by
  unfold settleInvalidation
  split <;> exact ⟨rfl, rfl, rfl, rfl⟩

theorem sameLists_invalidateNext : SameLists w (invalidateNext w status now emitter rest).1 := by
  unfold invalidateNext
  split
  · exact ⟨rfl, rfl, rfl, rfl⟩
  · split_ifs
    · exact ⟨rfl, rfl, rfl, rfl⟩
    · exact ⟨rfl, rfl, rfl, rfl⟩
    · exact sameLists_settleInvalidation

theorem sameLists_endPublication {appended : Bool}
    (h : endPublication cfg w outcome now evidence appended next = some x) : SameLists w x.1 := by
  have hnote : ∀ {w₁}, SameLists (note w (.published evidence)) w₁ → SameLists w w₁ :=
    fun h => ⟨h.answers, h.observed, h.claiming, h.tables⟩
  cases outcome with
  | returned =>
    simp only [endPublication] at h
    split_ifs at h
    cases h
    cases next with
    | request => exact hnote sameLists_finishRequest
    | decide => exact hnote sameLists_finalizeDecision
    | invalidate => exact hnote sameLists_settleInvalidation
  | raised =>
    cases h
    cases next with
    | request | decide => exact ⟨rfl, rfl, rfl, rfl⟩
    | invalidate => exact sameLists_settleInvalidation
  | propagated =>
    cases h
    exact ⟨rfl, rfl, rfl, rfl⟩

structure Listed (cfg : ApprovalConfig) (w w' : ApprovalWorld) : Prop where
  tables : w'.tables = w.tables ∨
    ∃ action, DurableApprovalService.step w.tables action = some w'.tables
  answers : ∀ answer ∈ w'.answers,
    answer ∈ w.answers ∨ cfg.durable = true ∧ Answered w'.tables answer
  observed : ∀ entry ∈ w'.observed,
    entry ∈ w.observed ∨ cfg.durable = true ∧ Observed w'.tables entry
  claiming : ∀ call ∈ w'.claiming, call ∈ w.claiming ∨ cfg.durable = true

theorem SameLists.listed (h : SameLists w w') : Listed cfg w w' :=
  ⟨.inl h.tables, fun _ ha => .inl (h.answers ▸ ha), fun _ he => .inl (h.observed ▸ he),
    fun _ hc => .inl (h.claiming ▸ hc)⟩

theorem listed_createDurable {request : ApprovalRequest} :
    Listed cfg w (createDurable w request emitter createdAt now).1 := by
  unfold createDurable
  split
  · exact SameLists.listed ⟨rfl, rfl, rfl, rfl⟩
  · next canonical tables hcreate =>
    have hsame : SameLists { w with tables := tables }
        (publishRequest { w with tables := tables } canonical emitter now).1 :=
      sameLists_publishRequest
    refine ⟨.inr ⟨.create request createdAt, ?_⟩, fun _ ha => .inl (hsame.answers ▸ ha),
      fun _ he => .inl (hsame.observed ▸ he), fun _ hc => .inl (hsame.claiming ▸ hc)⟩
    rw [hsame.tables, DurableApprovalService.step, hcreate]
    rfl

theorem listed_decideDurable (hdurable : cfg.durable = true) :
    Listed cfg w (decideDurable cfg w runId approvalId bindingDigest decision actorId now).1 := by
  unfold decideDurable
  split
  · exact SameLists.listed ⟨rfl, rfl, rfl, rfl⟩
  split
  · exact SameLists.listed ⟨rfl, rfl, rfl, rfl⟩
  · next result tables hdecide =>
    refine ⟨.inr ⟨.decide runId approvalId bindingDigest decision actorId now, ?_⟩,
      fun answer ha => ?_, fun _ he => .inl he, fun _ hc => .inl hc⟩
    · rw [DurableApprovalService.step, hdecide]
      rfl
    · rcases mem_snoc ha with ha | rfl
      · exact .inl ha
      · exact .inr ⟨hdurable, fun hcode => DurableApprovalService.status_of_decide hdecide hcode⟩

theorem listed_projectAnswer : Listed cfg w
      (projectAnswer { w with answers := w.answers.eraseIdx n } answer now).1 := by
  have hlists : ∀ {w₁ : ApprovalWorld}, w₁.tables = w.tables →
      w₁.answers = w.answers.eraseIdx n → w₁.observed = w.observed → w₁.claiming = w.claiming →
      Listed cfg w w₁ := by
    intro _ htables hanswers hobserved hclaiming
    exact ⟨.inl htables, fun _ ha => .inl (List.mem_of_mem_eraseIdx (hanswers ▸ ha)),
      fun _ he => .inl (hobserved ▸ he), fun _ hc => .inl (hclaiming ▸ hc)⟩
  unfold projectAnswer
  split
  · exact hlists rfl rfl rfl rfl
  split
  · exact hlists rfl rfl rfl rfl
  dsimp only
  split
  · exact hlists rfl rfl rfl rfl
  · unfold projectStep
    repeat' split
    all_goals exact hlists rfl rfl rfl rfl

theorem listed_projectStatus {id : String} : Listed cfg w
      (projectStatus { w with observed := w.observed.eraseIdx n } id status now).1 := by
  have hlists : ∀ {w₁ : ApprovalWorld}, w₁.tables = w.tables → w₁.answers = w.answers →
      w₁.observed = w.observed.eraseIdx n → w₁.claiming = w.claiming → Listed cfg w w₁ := by
    intro _ htables hanswers hobserved hclaiming
    exact ⟨.inl htables, fun _ ha => .inl (hanswers ▸ ha),
      fun _ he => .inl (List.mem_of_mem_eraseIdx (hobserved ▸ he)),
      fun _ hc => .inl (hclaiming ▸ hc)⟩
  unfold projectStatus
  repeat' split
  all_goals exact hlists rfl rfl rfl rfl

theorem listed_readClaim
    (hdurable : cfg.durable = true) : Listed cfg w (readClaim cfg w id invocation).1 := by
  unfold readClaim
  split
  · exact SameLists.listed ⟨rfl, rfl, rfl, rfl⟩
  dsimp only
  split
  · exact SameLists.listed ⟨rfl, rfl, rfl, rfl⟩
  split
  · exact SameLists.listed ⟨rfl, rfl, rfl, rfl⟩
  · exact ⟨.inl rfl, fun _ ha => .inl ha, fun _ he => .inl he, fun _ _ => .inr hdurable⟩

theorem listed_claimDurable {lease : RunLease} {call : DurableClaimCall} :
    Listed cfg w (claimDurable cfg { w with claiming := w.claiming.eraseIdx n } lease call claimId
      dbNow createdAt).1 := by
  have hkept : ∀ call ∈ w.claiming.eraseIdx n, call ∈ w.claiming ∨ cfg.durable = true :=
    fun _ hc => .inl (List.mem_of_mem_eraseIdx hc)
  unfold claimDurable
  split
  · exact ⟨.inl rfl, fun _ ha => .inl ha, fun _ he => .inl he, hkept⟩
  · exact ⟨.inl rfl, fun _ ha => .inl ha, fun _ he => .inl he, hkept⟩
  · next claim tables hclaim =>
    refine ⟨.inr ⟨.claimExecution lease call.approvalId call.binding claimId dbNow createdAt, ?_⟩,
      fun _ ha => .inl ha, fun _ he => .inl he, hkept⟩
    rw [DurableApprovalService.step, hclaim]
    rfl

theorem listed_observeStatus (hdurable : cfg.durable = true) :
    Listed cfg w (observeStatus w id).1 := by
  unfold observeStatus
  split
  · exact SameLists.listed ⟨rfl, rfl, rfl, rfl⟩
  · exact SameLists.listed ⟨rfl, rfl, rfl, rfl⟩
  · next status hne hstatus =>
    refine ⟨.inl rfl, fun _ ha => .inl ha, fun entry he => ?_, fun _ hc => .inl hc⟩
    rcases mem_snoc he with he | rfl
    · exact .inl he
    · obtain ⟨row, hrow, rfl⟩ := Option.map_eq_some_iff.mp hstatus
      refine .inr ⟨hdurable, row, hrow, rfl, fun hpending => ?_⟩
      exact hne (by rw [DurableApprovalRow.status, hpending])

/-- Every record that a step makes or rewrites is listed. -/
theorem listed_of_step (h : step cfg w action = some w') : Listed cfg w w' := by
  cases action with
  | request =>
    simp only [step] at h
    split_ifs at h
    split at h
    · cases h
      exact SameLists.listed ⟨rfl, rfl, rfl, rfl⟩
    · obtain ⟨-, rfl⟩ := locked_eq_some.mp h
      exact sameLists_requestApproval.listed
  | create =>
    simp only [step] at h
    split at h
    · cases h
      exact listed_createDurable
    · cases h
  | createFailed | append =>
    simp only [step] at h
    split at h
    · cases h
      exact SameLists.listed ⟨rfl, rfl, rfl, rfl⟩
    · cases h
  | decide =>
    simp only [step] at h
    split_ifs at h with hdurable
    · cases h
      exact listed_decideDurable hdurable
    · obtain ⟨-, rfl⟩ := locked_eq_some.mp h
      exact sameLists_decide.listed
  | projectAnswer =>
    obtain ⟨_, -, hlocked⟩ := Option.bind_eq_some_iff.mp h
    obtain ⟨-, rfl⟩ := locked_eq_some.mp hlocked
    exact listed_projectAnswer
  | claim =>
    simp only [step] at h
    split_ifs at h with hdurable
    · cases h
      exact listed_readClaim hdurable
    · obtain ⟨-, rfl⟩ := locked_eq_some.mp h
      exact sameLists_claimExecution.listed
  | claimDurable =>
    obtain ⟨call, -, hmap⟩ := Option.bind_eq_some_iff.mp h
    obtain ⟨_, -, rfl⟩ := Option.map_eq_some_iff.mp hmap
    exact listed_claimDurable
  | observe =>
    simp only [step] at h
    split_ifs at h with hdurable
    cases h
    exact listed_observeStatus hdurable
  | projectStatus =>
    obtain ⟨⟨_, status⟩, -, hlocked⟩ := Option.bind_eq_some_iff.mp h
    obtain ⟨-, rfl⟩ := locked_eq_some.mp hlocked
    exact listed_projectStatus
  | invalidate =>
    obtain ⟨-, rfl⟩ := locked_eq_some.mp h
    exact sameLists_invalidate.listed
  | invalidateNext =>
    simp only [step] at h
    split at h
    · cases h
      exact sameLists_invalidateNext.listed
    · cases h
  | endPublication =>
    simp only [step] at h
    split at h
    · obtain ⟨x, hx, rfl⟩ := Option.map_eq_some_iff.mp h
      exact (sameLists_endPublication hx).listed
    · cases h
  | close =>
    cases h
    exact SameLists.listed ⟨rfl, rfl, rfl, rfl⟩
  | work =>
    simp only [step] at h
    split_ifs at h
    cases h
    exact SameLists.listed ⟨rfl, rfl, rfl, rfl⟩
  | elsewhere other =>
    obtain ⟨_, htables, rfl⟩ := Option.map_eq_some_iff.mp h
    exact ⟨.inr ⟨other, htables⟩, fun _ ha => .inl ha, fun _ he => .inl he, fun _ hc => .inl hc⟩

theorem Moved.not_creating (h : Moved cfg w action w') (hplain : cfg.durable = false)
    (hw : Shape cfg w) (request : ApprovalRequest) (emitter : Bool) :
    w'.lock ≠ some (.creating request emitter) := by
  intro hlock
  cases h with
  | idle _ _ lock =>
    exact (hw.plain hplain).2.2.2 request emitter (lock.symm.trans hlock)
  | granted _ _ _ _ _ _ _ durable =>
    cases hplain.symm.trans durable
  | opened _ _ _ lock _ _ _ _ _ durable =>
    cases lock.symm.trans hlock
    cases hplain.symm.trans (durable request emitter rfl)
  | appended _ _ _ _ _ lock => cases lock.symm.trans hlock
  | invalidated _ _ _ _ _ _ _ _ _ _ _ _ _ lock => exact nomatch lock.symm.trans hlock
  | _ =>
    have hnone : w'.lock = none := by assumption
    cases hnone.symm.trans hlock

/-- The shape of the controller is kept by every step. -/
theorem Shape.step (hw : Shape cfg w) (hside : cfg.durable = true → Side w)
    (h : step cfg w action = some w') : Shape cfg w' := by
  have hmoved := moved_of_step hw hside h
  have hlisted := listed_of_step h
  refine ⟨hmoved.valid hw.valid, hmoved.known hw, fun holder hlock => hmoved.holder hw hlock,
    hmoved.active hw, fun hplain => ?_⟩
  obtain ⟨hanswers, hobserved, hclaiming, -⟩ := hw.plain hplain
  have hlocal : ¬ cfg.durable = true := fun htrue => nomatch hplain.symm.trans htrue
  refine ⟨?_, ?_, ?_, hmoved.not_creating hplain hw⟩
  · refine List.eq_nil_iff_forall_not_mem.mpr fun answer hanswer => ?_
    rcases hlisted.answers answer hanswer with hold | ⟨hdurable, -⟩
    · exact nomatch hanswers ▸ hold
    · exact hlocal hdurable
  · refine List.eq_nil_iff_forall_not_mem.mpr fun entry hentry => ?_
    rcases hlisted.observed entry hentry with hold | ⟨hdurable, -⟩
    · exact nomatch hobserved ▸ hold
    · exact hlocal hdurable
  · refine List.eq_nil_iff_forall_not_mem.mpr fun call hcall => ?_
    rcases hlisted.claiming call hcall with hold | hdurable
    · exact nomatch hclaiming ▸ hold
    · exact hlocal hdurable

theorem shape_start (hv : state.Valid) : Shape cfg (start state) where
  valid := hv
  known := fun _ hid => nomatch hid
  holder := fun _ hlock => nomatch hlock
  active := fun _ _ _ hrecord => nomatch hrecord
  plain := fun _ => ⟨rfl, rfl, rfl, fun _ _ hlock => nomatch hlock⟩

end ToolApprovalController

end LocalAgent.Runtime
