import LocalAgent.Runtime.IncidentResolution

/-!
# LocalAgent.Runtime.IncidentResolutionSteps — what the transactions of a resolution write

* `createAction_cases`, `confirmAction_cases`, …: everything an answered call can have done.
* `Extends`: what no transaction takes back.
* `Inv`: ids, requests, revisions and covered items of the tables, kept by every write.
* `Counted`: applied actions and revisions go together.
* `perform_does`, `step_cases`: what a call and a step do.
* `Does.keeps`, `run_keeps`: one transaction, and every run.
-/

namespace LocalAgent.Runtime

variable {c : Prop}

theorem raiseIf_seq_ok {ε β : Type} [Decidable c] {e : ε}
    {f : Unit → Except ε β} {b : β} : (raiseIf c e >>= f) = .ok b ↔ ¬ c ∧ f () = .ok b := by
  rw [seq_eq_ok, raiseIf_ok]

theorem raiseIf_of_not {ε : Type} [Decidable c] {e : ε} (h : ¬ c) :
    raiseIf c e = .ok () := if_neg h

theorem except_map_eq_ok {ε α β : Type} {x : Except ε α} {f : α → β} {b : β} :
    x.map f = .ok b ↔ ∃ a, x = .ok a ∧ f a = b := by
  cases x <;> simp [Except.map]

namespace ResolutionDesk

variable {s s' t u : ResolutionDesk} {uuid5 : String → String} {principal : CIPrincipal}

/-! ## What a transaction writes -/

variable {k id incidentId instanceId executionId : String} {scope : ResolutionScope}
  {state : CIState} {body : ActionIntent} {actionId requestId : String} {caseId : Option String}
  {expected : Option ℕ} {created : Bool} {row : IncidentAction} {result : ActionResult}

/-- What a resolution scope has checked. -/
theorem resolutionScope_ok (h : s.resolutionScope principal incidentId = .ok scope) :
    principal.human = true ∧ s.incidents.get? incidentId = some scope.incident ∧
      scope.incident.tenantId = principal.tenantId ∧
      scope.incident.ownerUserId = principal.userId ∧
      s.executions.get? scope.incident.executionId = some scope.origin ∧
      scope.instanceId = scope.origin.instanceId ∧
      s.instances.get? scope.instanceId = some scope.scenario ∧
      scope.scenario.ownerUserId = principal.userId ∧
      scope.scenario.tenantId = principal.tenantId := by
  unfold resolutionScope at h
  obtain ⟨hhuman, h⟩ := raiseIf_seq_ok.mp h
  obtain ⟨_, hinc, h⟩ := bind_eq_ok.mp h
  obtain ⟨_, horigin, h⟩ := bind_eq_ok.mp h
  obtain ⟨_, hrow, h⟩ := bind_eq_ok.mp h
  rw [orRaise_ok] at horigin
  cases h
  unfold ownedIncident at hinc
  unfold ownedInstance at hrow
  split at hinc
  · cases hinc
  · rename_i found hfound
    split at hinc
    · rename_i howned
      cases hinc
      split at hrow
      · cases hrow
      · rename_i inst hinst
        split at hrow
        · rename_i howned'
          cases hrow
          exact ⟨by simpa using hhuman, hfound, howned.1, howned.2, horigin, rfl, hinst, howned'.1,
            howned'.2⟩
        · cases hrow
    · cases hinc

theorem resolutionScope_of
    (hhuman : principal.human = true) (hinc : s.incidents.get? incidentId = some scope.incident)
    (htenant : scope.incident.tenantId = principal.tenantId)
    (howner : scope.incident.ownerUserId = principal.userId)
    (horigin : s.executions.get? scope.incident.executionId = some scope.origin)
    (hid : scope.instanceId = scope.origin.instanceId)
    (hinst : s.instances.get? scope.instanceId = some scope.scenario)
    (howner' : scope.scenario.ownerUserId = principal.userId)
    (htenant' : scope.scenario.tenantId = principal.tenantId) :
    s.resolutionScope principal incidentId = .ok scope := by
  have hincident : s.ownedIncident principal incidentId = .ok scope.incident := by
    unfold ownedIncident
    rw [hinc]
    exact if_pos ⟨htenant, howner⟩
  have hscenario : s.ownedInstance principal scope.origin.instanceId = .ok scope.scenario := by
    unfold ownedInstance
    rw [← hid, hinst]
    exact if_pos ⟨howner', htenant'⟩
  unfold resolutionScope
  rw [raiseIf, if_neg (by rw [hhuman]; decide), ok_bind, hincident, ok_bind, horigin]
  show (do
    let row ← s.ownedInstance principal scope.origin.instanceId
    pure (⟨scope.incident, scope.origin, scope.origin.instanceId, row⟩ : ResolutionScope)) = _
  rw [hscenario, ok_bind, ← hid]
  rfl

/-- A new row for an action that nobody has asked for yet, computed from the present state. -/
structure Drafts (s s' : ResolutionDesk) (principal : CIPrincipal) (incidentId : String)
    (body : ActionIntent) (actionId : String) (row : IncidentAction) : Prop where
  writes : s' = { s with actions := s.actions.set actionId row }
  unasked : s.actionOf incidentId body.requestId = none
  scope : ∃ scope, s.resolutionScope principal incidentId = .ok scope ∧
    scope.incident.status.closure = none ∧ row.previewPayload.instanceId = scope.instanceId ∧
    row.baseStateRevision = scope.scenario.stateRevision ∧
    row.previewPayload.baseStateRevision = scope.scenario.stateRevision ∧
    scope.scenario.currentState.preview row.actionKind body.targetCaseId row.parameters =
      .ok row.previewPayload.preview
  fields : row.actionId = actionId ∧ row.incidentId = incidentId ∧
    row.requestId = body.requestId ∧ row.actionKind = body.actionKind ∧
    row.parameters = body.parameters ∧ row.previewDigest = row.previewPayload.digest ∧
    row.status = .previewed

variable {kind : ActionKind} {target : Option String} {parameters : ActionParameters}
  {payload : VerificationPayload} {i : CIIncident} {closure : IncidentClosure} {ν : Type}
  {d : Dict String ν} {p : ν → Bool} {v : IncidentVerification} {revision : ℕ}

theorem preview_ok {preview : ActionPreview}
    (h : state.preview kind target parameters = .ok preview) :
    preview.actionKind = kind ∧ preview.targetCaseId = target := by
  unfold CIState.preview at h
  obtain ⟨-, h⟩ := raiseIf_seq_ok.mp h
  obtain ⟨-, h⟩ := raiseIf_seq_ok.mp h
  obtain ⟨_, -, h⟩ := bind_eq_ok.mp h
  obtain ⟨-, h⟩ := raiseIf_seq_ok.mp h
  cases h
  exact ⟨rfl, rfl⟩

/-- A new action, or the one that was made for the same request. -/
theorem createAction_cases {payload : ActionPayload}
    (h : s.createAction principal incidentId body actionId = .ok (s', payload)) :
    ∃ scope, s.resolutionScope principal incidentId = .ok scope ∧
      ((s' = s ∧ s.actionOf incidentId body.requestId = some payload.row ∧
          payload.row.actionKind = body.actionKind ∧ payload.row.parameters = body.parameters ∧
          payload.row.previewPayload.preview.targetCaseId = body.targetCaseId) ∨
        Drafts s s' principal incidentId body actionId payload.row) := by
  unfold createAction at h
  obtain ⟨scope, hscope, h⟩ := bind_eq_ok.mp h
  split at h
  · rename_i old hold
    obtain ⟨hsame, h⟩ := raiseIf_seq_ok.mp h
    obtain ⟨rfl, rfl⟩ := Prod.ext_iff.mp (Except.ok.inj h)
    push Not at hsame
    exact ⟨scope, hscope, .inl ⟨rfl, hold, hsame⟩⟩
  · rename_i hold
    obtain ⟨hopen, h⟩ := raiseIf_seq_ok.mp h
    obtain ⟨_, hpreview, h⟩ := bind_eq_ok.mp h
    obtain ⟨rfl, rfl⟩ := Prod.ext_iff.mp (Except.ok.inj h)
    refine ⟨scope, hscope, .inr ⟨rfl, hold, ⟨scope, hscope, by simpa using hopen, rfl, rfl, rfl,
      hpreview⟩, ?_⟩⟩
    exact ⟨rfl, rfl, rfl, rfl, rfl, by dsimp only [actionPayload], rfl⟩

/-- The confirmation of a previewed action: its instance moves one revision on. -/
structure Applies (s s' : ResolutionDesk) (incidentId actionId : String)
    (row : IncidentAction) (result : ActionResult) (scope : ResolutionScope) (updated : CIState) :
    Prop where
  writes : s' = { s with
    instances := s.instances.set scope.instanceId
      { scope.scenario with
        currentState := updated, stateRevision := scope.scenario.stateRevision + 1 }
    actions := s.actions.set actionId { row with status := .applied result }
    incidents := s.incidents.set incidentId { scope.incident with status := .pendingVerification } }
  found : s.actions.get? actionId = some row
  mine : row.incidentId = incidentId
  previewed : row.status = .previewed
  opened : scope.incident.status.closure = none
  base : row.baseStateRevision = scope.scenario.stateRevision
  same : scope.scenario.currentState.preview row.actionKind
    row.previewPayload.preview.targetCaseId row.parameters = .ok row.previewPayload.preview
  changed : updated = row.previewPayload.preview.changes.foldl
    (fun state change => state.write change.field change.after) scope.scenario.currentState
  recorded : result.appliedStateRevision = scope.scenario.stateRevision + 1 ∧
    result.confirmedAt = s.now ∧ result.instanceId = scope.instanceId

variable {updated : CIState}

theorem applyPreview_ok {frozen : ActionPreview}
    (h : state.applyPreview kind target parameters frozen = .ok updated) :
    state.preview kind target parameters = .ok frozen ∧
      updated = frozen.changes.foldl (fun u change => u.write change.field change.after) state := by
  unfold CIState.applyPreview at h
  obtain ⟨_, hfound, h⟩ := bind_eq_ok.mp h
  obtain ⟨hsame, h⟩ := raiseIf_seq_ok.mp h
  exact ⟨not_not.mp hsame ▸ hfound, (Except.ok.inj h).symm⟩

/-- A confirmation applies its action, finds it applied, or finds it stale. -/
theorem confirmAction_cases {confirmed : Bool} {digest : String} {payload : ActionPayload}
    (h : s.confirmAction principal incidentId actionId confirmed digest = .ok (s', payload)) :
    ∃ scope, s.resolutionScope principal incidentId = .ok scope ∧ confirmed = true ∧
      payload.row.previewDigest = digest ∧ payload.row.previewPayload.digest = digest ∧
      ((s' = s ∧ s.actions.get? actionId = some payload.row ∧
          payload.row.incidentId = incidentId ∧ payload.row.status.result.isSome = true) ∨
        ∃ row result updated, payload.row = { row with status := .applied result } ∧
          Applies s s' incidentId actionId row result scope updated) := by
  unfold confirmAction at h
  obtain ⟨scope, hscope, h⟩ := bind_eq_ok.mp h
  obtain ⟨row, hrow, h⟩ := bind_eq_ok.mp h
  have hfound : s.actions.get? actionId = some row ∧ row.incidentId = incidentId := by
    unfold incidentAction at hrow
    split at hrow
    · cases hrow
    · rename_i found hfound
      split at hrow
      · rename_i hmine
        cases hrow
        exact ⟨hfound, hmine⟩
      · cases hrow
  obtain ⟨hvalid, h⟩ := raiseIf_seq_ok.mp h
  simp only [not_or, ne_eq, not_not, Bool.not_eq_false] at hvalid
  obtain ⟨hconfirmed, hdigest, hpayload⟩ := hvalid
  refine ⟨scope, hscope, hconfirmed, ?_⟩
  split at h
  · rename_i hdone
    obtain ⟨rfl, rfl⟩ := Prod.ext_iff.mp (Except.ok.inj h)
    exact ⟨hdigest.symm, hpayload.trans hdigest.symm, .inl ⟨rfl, hfound.1, hfound.2, hdone⟩⟩
  · rename_i hdone
    obtain ⟨hopen, h⟩ := raiseIf_seq_ok.mp h
    obtain ⟨hbase, h⟩ := raiseIf_seq_ok.mp h
    obtain ⟨updated, hupdated, h⟩ := bind_eq_ok.mp h
    obtain ⟨rfl, rfl⟩ := Prod.ext_iff.mp (Except.ok.inj h)
    obtain ⟨hpreview, hwritten⟩ := applyPreview_ok hupdated
    refine ⟨hdigest.symm, hpayload.trans hdigest.symm, .inr ⟨row, _, updated, rfl, ?_⟩⟩
    refine ⟨rfl, hfound.1, hfound.2, ?_, by simpa using hopen, not_not.mp hbase, hpreview, hwritten,
      rfl, rfl, rfl⟩
    cases hstatus : row.status with
    | previewed => rfl
    | applied => rw [hstatus] at hdone; exact absurd rfl hdone

/-- A new execution, for a request that nobody has made yet. -/
structure Runs (s s' : ResolutionDesk) (executionId : String)
    (execution : CIExecution) : Prop where
  writes : s' = { s with executions := s.executions.set executionId execution }
  named : execution.executionId = executionId
  unasked : s.executionOf execution.instanceId execution.requestId = none

theorem execute_ok {now : ℤ}
    {result : ExecutionResult} (h : state.execute uuid5 executionId caseId now = .ok result) :
    result.startedAt = now ∧ result.completedAt = now ∧
      ∀ c ∈ caseId, c ≠ "" → result.executionSnapshot.testCase.caseId = c := by
  unfold CIState.execute at h
  obtain ⟨_, hselected, h⟩ := bind_eq_ok.mp h
  obtain ⟨_, hsnapshot, h⟩ := bind_eq_ok.mp h
  obtain ⟨_, -, h⟩ := bind_eq_ok.mp h
  obtain ⟨_, -, h⟩ := bind_eq_ok.mp h
  rw [orRaise_ok] at hselected
  cases h
  refine ⟨rfl, rfl, ?_⟩
  rintro c hc hne
  unfold CIState.snapshotOf at hsnapshot
  obtain ⟨_, -, hsnapshot⟩ := bind_eq_ok.mp hsnapshot
  cases hsnapshot
  obtain rfl : caseId = some c := hc
  have hcase := List.find?_some hselected
  simpa [hne] using hcase

variable {execution : CIExecution}

theorem executeInstance_cases
    (h : s.executeInstance uuid5 principal instanceId requestId caseId expected executionId =
      .ok (s', execution, created)) :
    execution.instanceId = instanceId ∧ execution.requestId = requestId ∧
      (∀ c ∈ caseId, execution.caseId = c) ∧ (∀ r ∈ expected, execution.stateRevision = r) ∧
      (∃ row, s.ownedInstance principal instanceId = .ok row) ∧
      ((s' = s ∧ created = false ∧ s.executionOf instanceId requestId = some execution) ∨
        (created = true ∧ Runs s s' executionId execution)) := by
  unfold executeInstance at h
  obtain ⟨row, hrow, h⟩ := bind_eq_ok.mp h
  split at h
  · rename_i old hold
    obtain ⟨hsame, h⟩ := raiseIf_seq_ok.mp h
    obtain ⟨rfl, h⟩ := Prod.ext_iff.mp (Except.ok.inj h)
    obtain ⟨rfl, rfl⟩ := Prod.ext_iff.mp h
    have hfound := List.find?_some hold
    simp only [decide_eq_true_eq] at hfound
    push Not at hsame
    exact ⟨hfound.1, hfound.2, hsame.1, hsame.2, ⟨row, hrow⟩, .inl ⟨rfl, rfl, hold⟩⟩
  · rename_i hold
    obtain ⟨hstale, h⟩ := raiseIf_seq_ok.mp h
    obtain ⟨hcase, h⟩ := raiseIf_seq_ok.mp h
    obtain ⟨_, hresult, h⟩ := bind_eq_ok.mp h
    obtain ⟨rfl, h⟩ := Prod.ext_iff.mp (Except.ok.inj h)
    obtain ⟨rfl, rfl⟩ := Prod.ext_iff.mp h
    push Not at hstale hcase
    obtain ⟨-, -, hname⟩ := execute_ok hresult
    refine ⟨rfl, rfl, fun c hc => hname c hc (CIState.ne_empty_of_mem_caseIds (hcase c hc)), hstale,
      ⟨row, hrow⟩, .inr ⟨rfl, rfl, rfl, hold⟩⟩

theorem execute_cases {incident : Option CIIncident}
    (h : s.execute uuid5 principal instanceId requestId caseId expected executionId incidentId =
      .ok (s', execution, incident, created)) : ∃ desk made,
      s.executeInstance uuid5 principal instanceId requestId caseId expected executionId =
        .ok (desk, execution, made) ∧
      (s' = desk ∨ (made = true ∧ ∃ i, i.status = .opened ∧ i.incidentId = incidentId ∧
        s' = { desk with incidents := desk.incidents.set incidentId i })) := by
  unfold execute at h
  obtain ⟨⟨desk, _, made⟩, hrun, h⟩ := bind_eq_ok.mp h
  dsimp only at h
  split at h
  · rename_i hfail
    obtain ⟨rfl, h⟩ := Prod.ext_iff.mp (Except.ok.inj h)
    obtain ⟨rfl, -⟩ := Prod.ext_iff.mp h
    exact ⟨desk, made, hrun, .inr ⟨hfail.1, _, rfl, rfl, rfl⟩⟩
  · obtain ⟨rfl, h⟩ := Prod.ext_iff.mp (Except.ok.inj h)
    obtain ⟨rfl, -⟩ := Prod.ext_iff.mp h
    exact ⟨desk, made, hrun, .inl rfl⟩

structure Verifies (s s' : ResolutionDesk) (uuid5 : String → String) (principal : CIPrincipal)
    (incidentId : String) (body : VerificationIntent) (ids : FreshIds)
    (row : IncidentVerification) : Prop where
  unasked : s.verificationOf incidentId body.requestId = none
  runs : ∃ scope desk executions, s.resolutionScope principal incidentId = .ok scope ∧
    scope.incident.status.closure = none ∧
    executeCases uuid5 principal scope.instanceId ids.object scope.scenario.stateRevision
      ids.executions s body.caseIds = .ok (desk, executions) ∧
    s' = { desk with verifications := desk.verifications.set ids.object row } ∧
    row.instanceId = scope.instanceId ∧ row.stateRevision = scope.scenario.stateRevision ∧
    row.items = List.zip body.caseIds (executions.map CIExecution.executionId)
  fields : row.verificationId = ids.object ∧ row.incidentId = incidentId ∧
    row.requestId = body.requestId ∧ row.mode = body.mode ∧
    row.requestedCaseIds = body.caseIds ∧ row.stateRevision = body.expectedStateRevision

theorem verificationPayload_row {row : IncidentVerification} {origin : CIExecution}
(h : s.verificationPayload row origin = .ok payload) : payload.row = row := by
  unfold verificationPayload at h
  obtain ⟨_, -, h⟩ := bind_eq_ok.mp h
  cases h
  rfl

variable {ids : FreshIds}

/-- A new verification, or the one that was made for the same request. -/
theorem createVerification_cases {body : VerificationIntent}
    (h : s.createVerification uuid5 principal incidentId body ids.object ids.executions =
      .ok (s', payload)) : ∃ scope, s.resolutionScope principal incidentId = .ok scope ∧
      ((s' = s ∧ s.verificationOf incidentId body.requestId = some payload.row ∧
          payload.row.mode = body.mode ∧ payload.row.requestedCaseIds = body.caseIds ∧
          payload.row.stateRevision = body.expectedStateRevision) ∨
        Verifies s s' uuid5 principal incidentId body ids payload.row) := by
  unfold createVerification at h
  obtain ⟨scope, hscope, h⟩ := bind_eq_ok.mp h
  split at h
  · rename_i old hold
    obtain ⟨hsame, h⟩ := raiseIf_seq_ok.mp h
    obtain ⟨found, hfound, h⟩ := bind_eq_ok.mp h
    obtain ⟨rfl, rfl⟩ := Prod.ext_iff.mp (Except.ok.inj h)
    cases verificationPayload_row hfound
    push Not at hsame
    exact ⟨scope, hscope, .inl ⟨rfl, hold, hsame⟩⟩
  · rename_i hold
    obtain ⟨hopen, h⟩ := raiseIf_seq_ok.mp h
    obtain ⟨hstale, h⟩ := raiseIf_seq_ok.mp h
    obtain ⟨hcases, h⟩ := raiseIf_seq_ok.mp h
    obtain ⟨⟨desk, executions⟩, hruns, h⟩ := bind_eq_ok.mp h
    obtain ⟨_, hfound, h⟩ := bind_eq_ok.mp h
    obtain ⟨rfl, rfl⟩ := Prod.ext_iff.mp (Except.ok.inj h)
    push Not at hcases hstale
    have hrow := verificationPayload_row hfound
    rw [← hcases.1] at hruns hrow
    refine ⟨scope, hscope, .inr ⟨hold, ⟨scope, desk, executions, hscope, by simpa using hopen,
      hruns, ?_⟩, ?_⟩⟩
    · rw [hrow]
      exact ⟨by rw [← hcases.1], rfl, rfl, rfl⟩
    · rw [hrow]
      exact ⟨rfl, rfl, rfl, rfl, rfl, hstale⟩

structure Closes (s s' : ResolutionDesk) (principal : CIPrincipal) (incidentId : String)
    (body : CloseRequest) (scope : ResolutionScope) (closure : IncidentClosure) : Prop where
  writes : s' = { s with
    incidents := s.incidents.set incidentId { scope.incident with status := .closed closure } }
  opened : scope.incident.status.closure = none
  asked : closure.confirmation = body
  recorded : closure.actionId = body.actionId ∧
    closure.groupVerificationId = body.groupVerificationId ∧
    closure.stateRevision = scope.scenario.stateRevision
  revision : scope.scenario.stateRevision = body.expectedStateRevision
  regression : body.regressionConfirmed = true
  action : (s.latestAction incidentId).map (·.1.actionId) = some body.actionId
  single : (s.latestVerification incidentId .single scope.scenario.stateRevision).map
    (·.verificationId) = some body.singleVerificationId
  group : (s.latestVerification incidentId .group scope.scenario.stateRevision).map
    (·.verificationId) = some body.groupVerificationId
  valid : s.validateClosure scope (s.latestAction incidentId)
    (s.latestVerification incidentId .single scope.scenario.stateRevision)
    (s.latestVerification incidentId .group scope.scenario.stateRevision) = .ok ()

/-- The incident is closed now, or was closed by the same request. -/
theorem closeIncident_cases {body : CloseRequest} {payload : ClosedPayload}
    (h : s.closeIncident principal incidentId body = .ok (s', payload)) :
    payload.incidentId = incidentId ∧ ∃ scope, s.resolutionScope principal incidentId = .ok scope ∧
      ((s' = s ∧ scope.incident.status.closure = some payload.closure ∧
          payload.closure.confirmation = body) ∨
        Closes s s' principal incidentId body scope payload.closure) := by
  unfold closeIncident at h
  obtain ⟨scope, hscope, h⟩ := bind_eq_ok.mp h
  split at h
  · rename_i closure hclosed
    obtain ⟨hsame, h⟩ := raiseIf_seq_ok.mp h
    obtain ⟨rfl, rfl⟩ := Prod.ext_iff.mp (Except.ok.inj h)
    exact ⟨rfl, scope, hscope, .inl ⟨rfl, hclosed, not_not.mp hsame⟩⟩
  · rename_i hopen
    obtain ⟨hasked, h⟩ := raiseIf_seq_ok.mp h
    obtain ⟨hids, h⟩ := raiseIf_seq_ok.mp h
    obtain ⟨hvalid, h⟩ := seq_eq_ok.mp h
    obtain ⟨rfl, rfl⟩ := Prod.ext_iff.mp (Except.ok.inj h)
    push Not at hasked hids
    exact ⟨rfl, scope, hscope, .inr ⟨rfl, hopen, rfl, ⟨rfl, rfl, rfl⟩, hasked.2,
      by simpa using hasked.1, hids.1,
      hids.2.1, hids.2.2, hvalid⟩⟩

/-! ## What stays -/

/-- A row of a later state for an action: everything but the confirmation stays, and that too once
it is there. -/
structure SameAction (a b : IncidentAction) : Prop where
  fields : b.actionId = a.actionId ∧ b.incidentId = a.incidentId ∧ b.requestId = a.requestId ∧
    b.actionKind = a.actionKind ∧ b.parameters = a.parameters ∧
    b.baseStateRevision = a.baseStateRevision ∧ b.previewPayload = a.previewPayload ∧
    b.previewDigest = a.previewDigest
  applied : a.status.result.isSome = true → b = a

theorem SameAction.refl (a : IncidentAction) : SameAction a a :=
  ⟨⟨rfl, rfl, rfl, rfl, rfl, rfl, rfl, rfl⟩, fun _ => rfl⟩

theorem SameAction.trans {a b c : IncidentAction} (h : SameAction a b) (h' : SameAction b c) :
    SameAction a c := by
  obtain ⟨⟨h1, h2, h3, h4, h5, h6, h7, h8⟩, happlied⟩ := h
  obtain ⟨⟨k1, k2, k3, k4, k5, k6, k7, k8⟩, kapplied⟩ := h'
  refine ⟨⟨k1.trans h1, k2.trans h2, k3.trans h3, k4.trans h4, k5.trans h5, k6.trans h6,
    k7.trans h7, k8.trans h8⟩, fun h => ?_⟩
  cases happlied h
  exact kapplied h

/-- A row of a later state for an incident; a closed one is the same. -/
structure SameIncident (a b : CIIncident) : Prop where
  fields : b.incidentId = a.incidentId ∧ b.tenantId = a.tenantId ∧
    b.ownerUserId = a.ownerUserId ∧ b.executionId = a.executionId
  closed : a.status.closure.isSome = true → b = a

theorem SameIncident.refl (a : CIIncident) : SameIncident a a :=
  ⟨⟨rfl, rfl, rfl, rfl⟩, fun _ => rfl⟩

theorem SameIncident.trans {a b c : CIIncident} (h : SameIncident a b) (h' : SameIncident b c) :
    SameIncident a c := by
  obtain ⟨⟨h1, h2, h3, h4⟩, hclosed⟩ := h
  obtain ⟨⟨k1, k2, k3, k4⟩, kclosed⟩ := h'
  refine ⟨⟨k1.trans h1, k2.trans h2, k3.trans h3, k4.trans h4⟩, fun h => ?_⟩
  cases hclosed h
  exact kclosed h

/-- What no transaction takes back. -/
structure Extends (s t : ResolutionDesk) : Prop where
  instances : ∀ id i, s.instances.get? id = some i → ∃ j, t.instances.get? id = some j ∧
    j.ownerUserId = i.ownerUserId ∧ j.tenantId = i.tenantId ∧ i.stateRevision ≤ j.stateRevision
  executions : ∀ id e, s.executions.get? id = some e → t.executions.get? id = some e
  incidents : ∀ id i, s.incidents.get? id = some i →
    ∃ j, t.incidents.get? id = some j ∧ SameIncident i j
  actions : ∀ id a, s.actions.get? id = some a →
    ∃ b, t.actions.get? id = some b ∧ SameAction a b
  verifications : ∀ id v, s.verifications.get? id = some v → t.verifications.get? id = some v
  closed : ∀ id i, s.incidents.get? id = some i → i.status.closure.isSome = true →
    (∀ aid a, t.actions.get? aid = some a → a.incidentId = id → s.actions.get? aid = some a) ∧
      ∀ vid v, t.verifications.get? vid = some v → v.incidentId = id →
        s.verifications.get? vid = some v

theorem Extends.refl (s : ResolutionDesk) : Extends s s :=
  ⟨fun _ i h => ⟨i, h, rfl, rfl, le_rfl⟩, fun _ _ h => h, fun _ i h => ⟨i, h, .refl i⟩,
    fun _ a h => ⟨a, h, .refl a⟩, fun _ _ h => h,
    fun _ _ _ _ => ⟨fun _ _ h _ => h, fun _ _ h _ => h⟩⟩

theorem Extends.trans (h : Extends s t) (h' : Extends t u) : Extends s u := by
  refine ⟨?_, fun id e he => h'.executions id e (h.executions id e he), ?_, ?_,
    fun id v hv => h'.verifications id v (h.verifications id v hv), ?_⟩
  · intro id i hi
    obtain ⟨j, hj, howner, htenant, hle⟩ := h.instances id i hi
    obtain ⟨k, hk, howner', htenant', hle'⟩ := h'.instances id j hj
    exact ⟨k, hk, howner'.trans howner, htenant'.trans htenant, hle.trans hle'⟩
  · intro id i hi
    obtain ⟨j, hj, hsame⟩ := h.incidents id i hi
    obtain ⟨k, hk, hsame'⟩ := h'.incidents id j hj
    exact ⟨k, hk, hsame.trans hsame'⟩
  · intro id a ha
    obtain ⟨b, hb, hsame⟩ := h.actions id a ha
    obtain ⟨c, hc, hsame'⟩ := h'.actions id b hb
    exact ⟨c, hc, hsame.trans hsame'⟩
  · intro id i hi hclosed
    obtain ⟨hacts, hvers⟩ := h.closed id i hi hclosed
    obtain ⟨j, hj, hsame⟩ := h.incidents id i hi
    obtain rfl := hsame.closed hclosed
    obtain ⟨hacts', hvers'⟩ := h'.closed id j hj hclosed
    exact ⟨fun aid a ha hid => hacts aid a (hacts' aid a ha hid) hid,
      fun vid v hv hid => hvers vid v (hvers' vid v hv hid) hid⟩

theorem get?_set_of_fresh {ν : Type} {d : Dict String ν} {v : ν} (h : k ∉ d.keys)
    {w : ν} (hw : d.get? id = some w) : (d.set k v).get? id = some w := by
  have hne : id ≠ k := by
    rintro rfl
    exact h (Dict.mem_keys_iff.mpr ⟨w, hw⟩)
  rw [Dict.get?_set, if_neg hne, hw]

theorem Drafts.extends (h : Drafts s s' principal incidentId body actionId row)
    (hfresh : actionId ∉ s.actions.keys) : Extends s s' := by
  obtain ⟨rfl, -, ⟨_, hscope, hopen, -⟩, ⟨-, hmine, -⟩⟩ := h
  obtain ⟨-, hinc, -⟩ := resolutionScope_ok hscope
  refine ⟨fun _ i h => ⟨i, h, rfl, rfl, le_rfl⟩, fun _ _ h => h, fun _ i h => ⟨i, h, .refl i⟩,
    fun _ a h => ⟨a, get?_set_of_fresh hfresh h, .refl a⟩, fun _ _ h => h, ?_⟩
  intro id i hi hclosed
  refine ⟨fun aid a ha hid => Dict.get?_of_set ha ?_, fun _ _ h _ => h⟩
  rintro rfl
  obtain rfl : incidentId = id := hmine.symm.trans hid
  rw [hinc] at hi
  cases hi
  rw [hopen] at hclosed
  cases hclosed

theorem Runs.extends
    (h : Runs s s' executionId execution) (hfresh : executionId ∉ s.executions.keys) :
    Extends s s' := by
  obtain ⟨rfl, -, -⟩ := h
  exact ⟨fun _ i h => ⟨i, h, rfl, rfl, le_rfl⟩, fun _ _ h => get?_set_of_fresh hfresh h,
    fun _ i h => ⟨i, h, .refl i⟩, fun _ a h => ⟨a, h, .refl a⟩, fun _ _ h => h,
    fun _ _ _ _ => ⟨fun _ _ h _ => h, fun _ _ h _ => h⟩⟩

theorem extends_setIncident (hfresh : id ∉ s.incidents.keys) :
    Extends s { s with incidents := s.incidents.set id i } :=
  ⟨fun _ i h => ⟨i, h, rfl, rfl, le_rfl⟩, fun _ _ h => h,
    fun _ j h => ⟨j, get?_set_of_fresh hfresh h, .refl j⟩, fun _ a h => ⟨a, h, .refl a⟩,
    fun _ _ h => h, fun _ _ _ _ => ⟨fun _ _ h _ => h, fun _ _ h _ => h⟩⟩

theorem Applies.extends (h : Applies s s' incidentId actionId row result scope updated)
    (hscope : s.resolutionScope principal incidentId = .ok scope) : Extends s s' := by
  obtain ⟨rfl, hfound, hmine, hpreviewed, hopen, -, -, -, -⟩ := h
  obtain ⟨-, hinc, -, -, -, -, hinst, -⟩ := resolutionScope_ok hscope
  refine ⟨?_, fun _ _ h => h, ?_, ?_, fun _ _ h => h, ?_⟩
  · intro id i hi
    rw [Dict.get?_set]
    split_ifs with hid
    · rw [hid, hinst] at hi
      cases hi
      exact ⟨_, rfl, rfl, rfl, Nat.le_succ _⟩
    · exact ⟨i, hi, rfl, rfl, le_rfl⟩
  · intro id i hi
    rw [Dict.get?_set]
    split_ifs with hid
    · rw [hid, hinc] at hi
      cases hi
      exact ⟨_, rfl, ⟨rfl, rfl, rfl, rfl⟩, fun hclosed => by rw [hopen] at hclosed; cases hclosed⟩
    · exact ⟨i, hi, .refl i⟩
  · intro id a ha
    rw [Dict.get?_set]
    split_ifs with hid
    · rw [hid, hfound] at ha
      cases ha
      exact ⟨_, rfl, ⟨rfl, rfl, rfl, rfl, rfl, rfl, rfl, rfl⟩,
        fun happlied => by rw [hpreviewed] at happlied; cases happlied⟩
    · exact ⟨a, ha, .refl a⟩
  · intro id i hi hclosed
    refine ⟨fun aid a ha hid => Dict.get?_of_set ha ?_, fun _ _ h _ => h⟩
    rintro rfl
    obtain rfl : incidentId = id := hmine.symm.trans hid
    rw [hinc] at hi
    cases hi
    rw [hopen] at hclosed
    cases hclosed

theorem Closes.extends {body : CloseRequest}
(h : Closes s s' principal incidentId body scope closure)
    (hscope : s.resolutionScope principal incidentId = .ok scope) : Extends s s' := by
  obtain ⟨rfl, hopen, -⟩ := h
  obtain ⟨-, hinc, -⟩ := resolutionScope_ok hscope
  refine ⟨fun _ i h => ⟨i, h, rfl, rfl, le_rfl⟩, fun _ _ h => h, ?_,
    fun _ a h => ⟨a, h, .refl a⟩, fun _ _ h => h,
    fun _ _ _ _ => ⟨fun _ _ h _ => h, fun _ _ h _ => h⟩⟩
  intro _ i hi
  rw [Dict.get?_set]
  split_ifs with hid
  · rw [hid, hinc] at hi
    cases hi
    exact ⟨_, rfl, ⟨rfl, rfl, rfl, rfl⟩, fun hclosed => by rw [hopen] at hclosed; cases hclosed⟩
  · exact ⟨i, hi, .refl i⟩

/-! ## The invariant -/

def About (s : ResolutionDesk) (incidentId instanceId : String) : Prop :=
  ∃ incident origin, s.incidents.get? incidentId = some incident ∧
    s.executions.get? incident.executionId = some origin ∧ origin.instanceId = instanceId

theorem About.mono (h : s.About incidentId instanceId)
    (hext : Extends s t) : t.About incidentId instanceId := by
  obtain ⟨incident, origin, hinc, horigin, rfl⟩ := h
  obtain ⟨j, hj, ⟨-, -, -, hexec⟩, -⟩ := hext.incidents incidentId incident hinc
  exact ⟨j, origin, hj, by rw [hexec]; exact hext.executions _ _ horigin, rfl⟩

theorem About.unique {other : String} (h : s.About incidentId instanceId)
    (h' : s.About incidentId other) : instanceId = other := by
  obtain ⟨i, o, hi, ho, rfl⟩ := h
  obtain ⟨j, p, hj, hp, rfl⟩ := h'
  cases hi.symm.trans hj
  cases ho.symm.trans hp
  rfl

theorem about_of_scope (h : s.resolutionScope principal incidentId = .ok scope) :
    s.About incidentId scope.instanceId := by
  obtain ⟨-, hinc, -, -, horigin, hid, -⟩ := resolutionScope_ok h
  exact ⟨scope.incident, scope.origin, hinc, horigin, hid.symm⟩

def Covers (s : ResolutionDesk) (v : IncidentVerification) (item : String × String) : Prop :=
  ∃ e, s.executions.get? item.2 = some e ∧ e.instanceId = v.instanceId ∧ e.caseId = item.1 ∧
    e.stateRevision = v.stateRevision

/-- Two rows with one key are the same row. -/
def UniqueBy {ν μ : Type} (d : Dict String ν) (key : ν → μ) : Prop :=
  ∀ id e id' e', d.get? id = some e → d.get? id' = some e' → key e = key e' → id = id'

variable {μ : Type} {key : ν → μ}

/-- One more value with a key of its own. -/
theorem UniqueBy.set (h : UniqueBy d key)
    {v : ν} (hnew : ∀ id e, d.get? id = some e → key e = key v → id = k) :
    UniqueBy (d.set k v) key := by
  intro id e id' e' he he' hkey
  rw [Dict.get?_set] at he he'
  by_cases hid : id = k <;> by_cases hid' : id' = k
  · rw [hid, hid']
  · rw [if_pos hid] at he
    rw [if_neg hid'] at he'
    cases he
    rw [hid, hnew id' e' he' hkey.symm]
  · rw [if_neg hid] at he
    rw [if_pos hid'] at he'
    cases he'
    rw [hid', hnew id e he hkey]
  · rw [if_neg hid] at he
    rw [if_neg hid'] at he'
    exact h id e id' e' he he' hkey

theorem UniqueBy.find (h : UniqueBy d key) {v : ν} (hv : d.get? id = some v)
    (hp : ∀ w, p w = true ↔ key w = key v) : d.values.find? p = some v := by
  cases hfind : d.values.find? p with
  | none =>
    have hnot := List.find?_eq_none.mp hfind v (Dict.mem_values_iff.mpr ⟨id, hv⟩)
    exact absurd ((hp v).mpr rfl) hnot
  | some w =>
    obtain ⟨id', hw⟩ := Dict.mem_values_iff.mp (List.mem_of_find?_eq_some hfind)
    cases h id' w id v hw hv ((hp w).mp (List.find?_some hfind))
    rwa [hw] at hv

theorem not_found
    (h : d.values.find? p = none) {v : ν} (hv : d.get? id = some v) : p v = false := by
  simpa using List.find?_eq_none.mp h v (Dict.mem_values_iff.mpr ⟨id, hv⟩)

theorem forall_set {P : String → ν → Prop} {v : ν}
    (hold : ∀ id w, d.get? id = some w → P id w) (hnew : P k v) :
    ∀ id w, (d.set k v).get? id = some w → P id w := by
  intro id w hw
  rcases Dict.get?_set_cases hw with ⟨hid, rfl⟩ | ⟨-, hw⟩
  · rwa [hid]
  · exact hold id w hw

/-- The invariant of the tables. -/
structure Inv (s : ResolutionDesk) : Prop where
  executionIds : ∀ id e, s.executions.get? id = some e → e.executionId = id
  incidentIds : ∀ id i, s.incidents.get? id = some i → i.incidentId = id
  actionIds : ∀ id a, s.actions.get? id = some a → a.actionId = id
  verificationIds : ∀ id v, s.verifications.get? id = some v → v.verificationId = id
  executionRequests : UniqueBy s.executions fun e => (e.instanceId, e.requestId)
  actionRequests : UniqueBy s.actions fun a => (a.incidentId, a.requestId)
  verificationRequests : UniqueBy s.verifications fun v => (v.incidentId, v.requestId)
  covered : ∀ id v, s.verifications.get? id = some v → ∀ item ∈ v.items, s.Covers v item
  previews : ∀ id a, s.actions.get? id = some a → a.previewPayload.digest = a.previewDigest ∧
    a.previewPayload.baseStateRevision = a.baseStateRevision ∧
    s.About a.incidentId a.previewPayload.instanceId
  applied : ∀ id a r, s.actions.get? id = some a → a.status.result = some r →
    r.appliedStateRevision = a.baseStateRevision + 1 ∧
      r.instanceId = a.previewPayload.instanceId ∧
      ∃ i, s.instances.get? r.instanceId = some i ∧ r.appliedStateRevision ≤ i.stateRevision
  once : ∀ id a r id' a' r', s.actions.get? id = some a → a.status.result = some r →
    s.actions.get? id' = some a' → a'.status.result = some r' → r.instanceId = r'.instanceId →
      r.appliedStateRevision = r'.appliedStateRevision → id = id'

theorem Covers.mono {item : String × String} (h : s.Covers v item)
    (hext : Extends s t) : t.Covers v item := by
  obtain ⟨e, he, hrest⟩ := h
  exact ⟨e, hext.executions _ _ he, hrest⟩

theorem Drafts.inv (h : Drafts s s' principal incidentId body actionId row)
    (hfresh : actionId ∉ s.actions.keys) (hinv : s.Inv) : s'.Inv := by
  have hext := h.extends hfresh
  obtain ⟨rfl, hnone, ⟨scope, hscope, -, hinst, hbase, hbase', -⟩, ⟨hid, hmine, hreq, -, -, hdigest,
    hstatus⟩⟩ := h
  have habout := about_of_scope hscope
  refine ⟨hinv.executionIds, hinv.incidentIds, forall_set hinv.actionIds hid, hinv.verificationIds,
    hinv.executionRequests, hinv.actionRequests.set ?_, hinv.verificationRequests, hinv.covered, ?_,
    ?_, ?_⟩
  · intro id a ha hkey
    obtain ⟨hsame, hsame'⟩ := Prod.ext_iff.mp hkey
    have hno := not_found hnone ha
    rw [decide_eq_false_iff_not] at hno
    exact absurd ⟨hsame.trans hmine, hsame'.trans hreq⟩ hno
  · refine forall_set (fun id a ha => ?_) ⟨hdigest.symm, hbase'.trans hbase.symm, ?_⟩
    · obtain ⟨hd, hb, habout'⟩ := hinv.previews id a ha
      exact ⟨hd, hb, habout'.mono hext⟩
    · rw [hmine, hinst]
      exact habout.mono hext
  · intro id a r ha hr
    refine forall_set (P := fun _ a => ∀ r, a.status.result = some r →
      r.appliedStateRevision = a.baseStateRevision + 1 ∧
        r.instanceId = a.previewPayload.instanceId ∧
        ∃ i, s.instances.get? r.instanceId = some i ∧ r.appliedStateRevision ≤ i.stateRevision)
      (fun id a ha r hr => hinv.applied id a r ha hr) ?_ id a ha r hr
    intro r hr
    rw [hstatus] at hr
    cases hr
  · intro id a r id' a' r' ha hr ha' hr'
    have hold : ∀ id a r, (s.actions.set actionId row).get? id = some a →
        a.status.result = some r → s.actions.get? id = some a := by
      intro id a r ha hr
      rw [Dict.get?_set] at ha
      by_cases hk : id = actionId
      · rw [if_pos hk] at ha
        cases ha
        rw [hstatus] at hr
        cases hr
      · rwa [if_neg hk] at ha
    exact hinv.once id a r id' a' r' (hold id a r ha hr) hr (hold id' a' r' ha' hr') hr'

theorem Runs.inv (h : Runs s s' executionId execution) (hfresh : executionId ∉ s.executions.keys)
    (hinv : s.Inv) : s'.Inv := by
  have hext := h.extends hfresh
  obtain ⟨rfl, hid, hnone⟩ := h
  refine ⟨forall_set hinv.executionIds hid, hinv.incidentIds, hinv.actionIds, hinv.verificationIds,
    hinv.executionRequests.set ?_, hinv.actionRequests, hinv.verificationRequests,
    fun id v hv item hitem => (hinv.covered id v hv item hitem).mono hext, ?_, hinv.applied,
    hinv.once⟩
  · intro id e he hkey
    obtain ⟨hsame, hsame'⟩ := Prod.ext_iff.mp hkey
    have hno := not_found hnone he
    rw [decide_eq_false_iff_not] at hno
    exact absurd ⟨hsame, hsame'⟩ hno
  · intro id a ha
    obtain ⟨hd, hb, habout⟩ := hinv.previews id a ha
    exact ⟨hd, hb, habout.mono hext⟩

theorem Inv.setIncident (hinv : s.Inv) (hfresh : id ∉ s.incidents.keys) (hid : i.incidentId = id) :
    Inv { s with incidents := s.incidents.set id i } := by
  have hext := extends_setIncident (i := i) hfresh
  refine ⟨hinv.executionIds, forall_set hinv.incidentIds hid, hinv.actionIds, hinv.verificationIds,
    hinv.executionRequests, hinv.actionRequests, hinv.verificationRequests, hinv.covered, ?_,
    hinv.applied, hinv.once⟩
  intro id a ha
  obtain ⟨hd, hb, habout⟩ := hinv.previews id a ha
  exact ⟨hd, hb, habout.mono hext⟩

theorem Closes.inv {body : CloseRequest} (h : Closes s s' principal incidentId body scope closure)
    (hscope : s.resolutionScope principal incidentId = .ok scope) (hinv : s.Inv) : s'.Inv := by
  have hext := h.extends hscope
  obtain ⟨-, hinc, -⟩ := resolutionScope_ok hscope
  have hnamed : scope.incident.incidentId = incidentId := hinv.incidentIds _ _ hinc
  obtain ⟨rfl, -⟩ := h
  refine ⟨hinv.executionIds, forall_set hinv.incidentIds hnamed,
    hinv.actionIds, hinv.verificationIds, hinv.executionRequests, hinv.actionRequests,
    hinv.verificationRequests, hinv.covered, ?_, hinv.applied, hinv.once⟩
  intro id a ha
  obtain ⟨hd, hb, habout⟩ := hinv.previews id a ha
  exact ⟨hd, hb, habout.mono hext⟩

/-- An applied action keeps the desk in order: the state moves by one revision. -/
theorem Applies.inv (h : Applies s s' incidentId actionId row result scope updated)
    (hscope : s.resolutionScope principal incidentId = .ok scope) (hinv : s.Inv) : s'.Inv := by
  have hext := h.extends hscope
  obtain ⟨-, hinc, -, -, -, -, hinst, -⟩ := resolutionScope_ok hscope
  have habout := about_of_scope hscope
  obtain ⟨rfl, hfound, hmine, -, -, hbase, -, -, hrevision, -, hplace⟩ := h
  obtain ⟨hdigest, hbase', hrow⟩ := hinv.previews actionId row hfound
  have hsame : row.previewPayload.instanceId = scope.instanceId := (hmine ▸ hrow).unique habout
  have hrow' := hrow.mono hext
  have hnamed : scope.incident.incidentId = incidentId := hinv.incidentIds _ _ hinc
  have hcalled : row.actionId = actionId := hinv.actionIds _ _ hfound
  -- The revisions that were reached before are below the new one.
  have hbelow : ∀ id a r, s.actions.get? id = some a → a.status.result = some r →
      r.instanceId = scope.instanceId → r.appliedStateRevision ≤ scope.scenario.stateRevision := by
    intro id a r ha hr hid
    obtain ⟨-, -, i, hi, hle⟩ := hinv.applied id a r ha hr
    rw [hid, hinst] at hi
    cases hi
    exact hle
  have hnew : ∀ id a r, (s.actions.set actionId { row with status := .applied result }).get? id =
      some a → a.status.result = some r → (id = actionId ∧ r = result ∧
        a = { row with status := .applied result }) ∨
        (id ≠ actionId ∧ s.actions.get? id = some a) := by
    intro id a r ha hr
    rcases Dict.get?_set_cases ha with ⟨hk, rfl⟩ | ⟨hk, ha⟩
    · exact .inl ⟨hk, (Option.some.inj hr).symm, rfl⟩
    · exact .inr ⟨hk, ha⟩
  refine ⟨hinv.executionIds, forall_set hinv.incidentIds hnamed,
    forall_set hinv.actionIds hcalled, hinv.verificationIds,
    hinv.executionRequests, hinv.actionRequests.set ?_, hinv.verificationRequests, hinv.covered,
    ?_, ?_, ?_⟩
  · intro id a ha hkey
    exact hinv.actionRequests id a actionId row ha hfound hkey
  · refine forall_set (fun id a ha => ?_) ⟨hdigest, hbase', hrow'⟩
    obtain ⟨hd, hb, habout'⟩ := hinv.previews id a ha
    exact ⟨hd, hb, habout'.mono hext⟩
  · intro id a r ha hr
    obtain ⟨-, rfl, rfl⟩ | ⟨-, hold⟩ := hnew id a r ha hr
    · refine ⟨by rw [hrevision, ← hbase], hplace.trans hsame.symm, ?_⟩
      rw [hplace, hrevision]
      exact ⟨_, by rw [Dict.get?_set, if_pos rfl], le_rfl⟩
    · obtain ⟨hrev, hid, i, hi, hle⟩ := hinv.applied id a r hold hr
      obtain ⟨j, hj, -, -, hmono⟩ := hext.instances _ i hi
      exact ⟨hrev, hid, j, hj, hle.trans hmono⟩
  · intro id a r id' a' r' ha hr ha' hr' hplaces hrevs
    obtain ⟨rfl, rfl, rfl⟩ | ⟨-, hold⟩ := hnew id a r ha hr
    · obtain ⟨rfl, -, -⟩ | ⟨-, hold'⟩ := hnew id' a' r' ha' hr'
      · rfl
      · have hle := hbelow id' a' r' hold' hr' (hplaces.symm.trans hplace)
        rw [← hrevs, hrevision] at hle
        exact absurd hle (Nat.not_succ_le_self _)
    · obtain ⟨rfl, rfl, rfl⟩ | ⟨-, hold'⟩ := hnew id' a' r' ha' hr'
      · have hle := hbelow id a r hold hr (hplaces.trans hplace)
        rw [hrevs, hrevision] at hle
        exact absurd hle (Nat.not_succ_le_self _)
      · exact hinv.once id a r id' a' r' hold hr hold' hr' hplaces hrevs

/-! ## Verifications -/

/-- A request for an execution has been answered. -/
def Asked (s : ResolutionDesk) (instanceId requestId : String) : Prop :=
  ∃ id e, s.executions.get? id = some e ∧ e.instanceId = instanceId ∧ e.requestId = requestId

theorem Asked.not_none (h : s.Asked instanceId requestId) :
    s.executionOf instanceId requestId ≠ none := by
  obtain ⟨_, e, he, hinst, hreq⟩ := h
  intro hnone
  have hno := not_found hnone he
  rw [decide_eq_false_iff_not] at hno
  exact hno ⟨hinst, hreq⟩

/-- What the executions of a verification leave. -/
structure CasesRun (desk desk' : ResolutionDesk) (instanceId : String) (revision : ℕ)
    (cases : List String) (executions : List CIExecution) : Prop where
  writes : desk' = { desk with executions := desk'.executions }
  extends' : Extends desk desk'
  inv : desk'.Inv
  made : List.Forall₂ (fun c e => desk'.executions.get? e.executionId = some e ∧
    e.instanceId = instanceId ∧ e.caseId = c ∧ e.stateRevision = revision) cases executions

theorem executeInstance_inv {desk desk' : ResolutionDesk}
    (h : desk.executeInstance uuid5 principal instanceId requestId caseId expected executionId =
      .ok (desk', execution, created)) (hinv : desk.Inv)
    (hfresh : executionId ∉ desk.executions.keys ∨ desk.Asked instanceId requestId) :
    desk' = { desk with executions := desk'.executions } ∧ Extends desk desk' ∧ desk'.Inv ∧
      desk'.executions.get? execution.executionId = some execution ∧
      ∀ id, id ∈ desk'.executions.keys → id ∈ desk.executions.keys ∨ id = executionId := by
  obtain ⟨hinst, hreq, -, -, -, hcases⟩ := executeInstance_cases h
  rcases hcases with ⟨rfl, -, hfound⟩ | ⟨-, hruns⟩
  · obtain ⟨id, hid⟩ := Dict.mem_values_iff.mp (List.mem_of_find?_eq_some hfound)
    have hnamed := hinv.executionIds id execution hid
    exact ⟨rfl, .refl _, hinv, by rw [hnamed]; exact hid, fun _ h => .inl h⟩
  · have hnew : executionId ∉ desk.executions.keys := by
      refine hfresh.resolve_right fun hasked => ?_
      have hnone := hruns.unasked
      rw [hinst, hreq] at hnone
      exact hasked.not_none hnone
    have hext := hruns.extends hnew
    have hinv' := hruns.inv hnew hinv
    obtain ⟨rfl, hnamed, -⟩ := hruns
    refine ⟨rfl, hext, hinv', ?_, fun id hid => ?_⟩
    · dsimp only
      rw [Dict.get?_set, if_pos hnamed]
    · exact (Dict.mem_keys_set.mp hid).symm

/-- The executions of a verification, one case after the other. -/
theorem executeCases_run {verificationId : String} {executionIds : String → String} :
    ∀ {cases : List String} {desk desk' : ResolutionDesk} {executions : List CIExecution},
      executeCases uuid5 principal instanceId verificationId revision executionIds desk cases =
        .ok (desk', executions) → desk.Inv →
      (∀ c ∈ cases, executionIds c ∉ desk.executions.keys ∨
        desk.Asked instanceId (uuid5 (verificationId ++ ":" ++ c))) →
      (∀ a ∈ cases, ∀ b ∈ cases, executionIds a = executionIds b → a = b) →
      CasesRun desk desk' instanceId revision cases executions
  | [], desk, desk', executions, h, hinv, _, _ => by
    obtain ⟨rfl, rfl⟩ := Prod.ext_iff.mp (Except.ok.inj h)
    exact ⟨rfl, .refl _, hinv, .nil⟩
  | c :: cases, desk, desk', executions, h, hinv, hfresh, hdiff => by
    rw [executeCases] at h
    obtain ⟨⟨_, execution, _⟩, hfirst, h⟩ := bind_eq_ok.mp h
    obtain ⟨⟨_, _⟩, hrest, h⟩ := bind_eq_ok.mp h
    obtain ⟨rfl, rfl⟩ := Prod.ext_iff.mp (Except.ok.inj h)
    obtain ⟨hinst, hreq, hcase, hrev, -, -⟩ := executeInstance_cases hfirst
    obtain ⟨hwrites, hext, hinv', hmade, hkeys⟩ :=
      executeInstance_inv hfirst hinv (hfresh c List.mem_cons_self)
    have htail := executeCases_run hrest hinv' (fun d hd => ?_)
      fun a ha b hb => hdiff a (List.mem_cons_of_mem c ha) b (List.mem_cons_of_mem c hb)
    · refine ⟨?_, hext.trans htail.extends', htail.inv, .cons ?_ htail.made⟩
      · rw [htail.writes, hwrites]
      · exact ⟨htail.extends'.executions _ _ hmade, hinst, hcase c rfl, hrev revision rfl⟩
    · rcases hfresh d (List.mem_cons_of_mem c hd) with hnew | ⟨id, e, he, hasked⟩
      · by_cases hsame : executionIds d = executionIds c
        · cases hdiff d (List.mem_cons_of_mem c hd) c List.mem_cons_self hsame
          exact .inr ⟨_, execution, hmade, hinst, hreq⟩
        · refine .inl fun hmem => ?_
          rcases hkeys _ hmem with hold | heq
          · exact hnew hold
          · exact hsame heq
      · exact .inr ⟨id, e, hext.executions id e he, hasked⟩

theorem CasesRun.covers {desk desk' : ResolutionDesk}
    {cases : List String} {executions : List CIExecution}
    (h : CasesRun desk desk' instanceId revision cases executions)
    (hinst : v.instanceId = instanceId) (hrev : v.stateRevision = revision) :
    ∀ item ∈ List.zip cases (executions.map CIExecution.executionId), desk'.Covers v item := by
  have hmade := h.made
  clear h
  induction hmade with
  | nil => simp
  | cons hfirst _ ih =>
    obtain ⟨hget, hi, hc, hr⟩ := hfirst
    intro item hitem
    rcases List.mem_cons.mp hitem with rfl | hitem
    · exact ⟨_, hget, hi.trans hinst.symm, hc, hr.trans hrev.symm⟩
    · exact ih item hitem

/-- A verification keeps the desk in order, and covers its items. -/
theorem Verifies.keeps {body : VerificationIntent}
    {row : IncidentVerification} (h : Verifies s s' uuid5 principal incidentId body ids row)
    (hfresh : s.IsFresh ids (.createVerification incidentId body)) (hinv : s.Inv) :
    Extends s s' ∧ s'.Inv ∧ s'.instances = s.instances ∧ s'.actions = s.actions ∧
      s'.incidents = s.incidents := by
  obtain ⟨-, hid, -, -, hexecutions⟩ := hfresh
  obtain ⟨hnone, ⟨scope, desk, executions, hscope, hopen, hcases, rfl, hinst, hrev, hitems⟩,
    ⟨hnamed, hmine, hreq, -, -, -⟩⟩ := h
  obtain ⟨-, hinc, -⟩ := resolutionScope_ok hscope
  have hrun := executeCases_run hcases hinv (fun c hc => .inl (hexecutions c hc).1)
    fun a ha => (hexecutions a ha).2
  obtain ⟨hwrites, hext, hinv', -⟩ := id hrun
  have hvers : desk.verifications = s.verifications := by rw [hwrites]
  have hext' : Extends desk
      { desk with verifications := desk.verifications.set ids.object row } := by
    refine ⟨fun _ i h => ⟨i, h, rfl, rfl, le_rfl⟩, fun _ _ h => h, fun _ i h => ⟨i, h, .refl i⟩,
      fun _ a h => ⟨a, h, .refl a⟩, fun _ _ h => get?_set_of_fresh (by rwa [hvers]) h, ?_⟩
    intro id i hi hclosed
    refine ⟨fun _ _ h _ => h, fun vid v hv hvid => ?_⟩
    rw [Dict.get?_set] at hv
    by_cases hk : vid = ids.object
    · rw [if_pos hk] at hv
      cases hv
      obtain rfl : incidentId = id := hmine.symm.trans hvid
      rw [show desk.incidents = s.incidents by rw [hwrites], hinc] at hi
      cases hi
      rw [hopen] at hclosed
      cases hclosed
    · rwa [if_neg hk] at hv
  refine ⟨hext.trans hext', ?_, by rw [hwrites], by rw [hwrites], by rw [hwrites]⟩
  refine ⟨hinv'.executionIds, hinv'.incidentIds, hinv'.actionIds,
    forall_set hinv'.verificationIds hnamed, hinv'.executionRequests, hinv'.actionRequests,
    hinv'.verificationRequests.set ?_, forall_set hinv'.covered ?_, hinv'.previews, hinv'.applied,
    hinv'.once⟩
  · intro _ v hv hkey
    obtain ⟨hsame, hsame'⟩ := Prod.ext_iff.mp hkey
    rw [hvers] at hv
    have hno := not_found hnone hv
    rw [decide_eq_false_iff_not] at hno
    exact absurd ⟨hsame.trans hmine, hsame'.trans hreq⟩ hno
  · rw [hitems]
    exact hrun.covers hinst hrev

/-! ## One transaction -/

/-- Applied actions and revisions go together: an instance stays and none of its actions is
applied, or one action is, computed for this very revision, and the instance is one revision on. -/
def Counted (s s' : ResolutionDesk) : Prop :=
  ∀ id i, s.instances.get? id = some i →
    (s'.instances.get? id = some i ∧ ∀ actionId a, s'.actions.get? actionId = some a →
      a.previewPayload.instanceId = id → a.status.result.isSome = true →
        s.actions.get? actionId = some a) ∨
    ∃ actionId a r, s.actions.get? actionId = some a ∧ a.status = .previewed ∧
      a.previewPayload.instanceId = id ∧ a.previewPayload.baseStateRevision = i.stateRevision ∧
      i.currentState.preview a.actionKind a.previewPayload.preview.targetCaseId a.parameters =
        .ok a.previewPayload.preview ∧
      r.appliedStateRevision = i.stateRevision + 1 ∧
      s'.actions = s.actions.set actionId { a with status := .applied r } ∧
      s'.instances.get? id = some { i with
        stateRevision := i.stateRevision + 1
        currentState := a.previewPayload.preview.changes.foldl
          (fun state change => state.write change.field change.after) i.currentState }

theorem Counted.of_same (hinst : s'.instances = s.instances)
    (hact : ∀ actionId a, s'.actions.get? actionId = some a → a.status.result.isSome = true →
      s.actions.get? actionId = some a) : Counted s s' := fun _ _ hi =>
  .inl ⟨by rw [hinst]; exact hi, fun actionId a ha _ hdone => hact actionId a ha hdone⟩

theorem Drafts.counted (h : Drafts s s' principal incidentId body actionId row) : Counted s s' := by
  obtain ⟨rfl, -, -, ⟨-, -, -, -, -, -, hstatus⟩⟩ := h
  refine Counted.of_same rfl fun aid a ha hdone => Dict.get?_of_set ha ?_
  rintro rfl
  rw [hstatus] at hdone
  cases hdone

theorem Applies.counted (h : Applies s s' incidentId actionId row result scope updated)
    (hscope : s.resolutionScope principal incidentId = .ok scope) (hinv : s.Inv) :
    Counted s s' := by
  obtain ⟨-, -, -, -, -, -, hinst, -⟩ := resolutionScope_ok hscope
  have habout := about_of_scope hscope
  obtain ⟨rfl, hfound, hmine, hpreviewed, -, hbase, hsame, hchanged, hrevision, -, -⟩ := h
  obtain ⟨-, hbase', hrow⟩ := hinv.previews actionId row hfound
  have hwhere : row.previewPayload.instanceId = scope.instanceId := (hmine ▸ hrow).unique habout
  intro id i hi
  by_cases hid : id = scope.instanceId
  · rw [hid, hinst] at hi
    cases hi
    refine .inr ⟨actionId, row, result, hfound, hpreviewed, hwhere.trans hid.symm,
      hbase'.trans hbase, hsame, hrevision, rfl, ?_⟩
    rw [Dict.get?_set, if_pos hid, hchanged]
  · refine .inl ⟨?_, fun aid a ha hwhich _ => ?_⟩
    · dsimp only
      rw [Dict.get?_set, if_neg hid, hi]
    · refine Dict.get?_of_set ha ?_
      rintro rfl
      exact absurd (hwhich.symm.trans hwhere) hid

/-- What an answered call does to the tables: nothing, when it repeats an earlier one, or the
writes of its own transaction. -/
inductive Does (s : ResolutionDesk) (uuid5 : String → String) (principal : CIPrincipal)
    (ids : FreshIds) : ResolutionCall → ResolutionDesk → Prop where
  | nothing (call) : Does s uuid5 principal ids call s
  | executed {inst request which rev desk e made} (hrun : s.executeInstance uuid5 principal inst
      request which rev ids.object = .ok (desk, e, made)) :
      Does s uuid5 principal ids (.execute inst request which rev) desk
  | failed {inst request which rev desk e made j} (hrun : s.executeInstance uuid5 principal inst
      request which rev ids.object = .ok (desk, e, made)) (hopen : j.status = .opened)
      (hnamed : j.incidentId = ids.incident) :
      Does s uuid5 principal ids (.execute inst request which rev)
        { desk with incidents := desk.incidents.set ids.incident j }
  | drafted {incident asked desk draft}
      (h : Drafts s desk principal incident asked ids.object draft) :
      Does s uuid5 principal ids (.createAction incident asked) desk
  | applied {incident action confirmed digest found desk draft outcome after}
      (hscope : s.resolutionScope principal incident = .ok found)
      (h : Applies s desk incident action draft outcome found after) :
      Does s uuid5 principal ids (.confirmAction incident action confirmed digest) desk
  | verified {incident asked desk row'} (h : Verifies s desk uuid5 principal incident asked ids row') :
      Does s uuid5 principal ids (.createVerification incident asked) desk
  | closed {incident asked found desk made}
      (hscope : s.resolutionScope principal incident = .ok found)
      (h : Closes s desk principal incident asked found made) :
      Does s uuid5 principal ids (.closeIncident incident asked) desk

theorem perform_does {call : ResolutionCall} {reply : ResolutionReply}
    (h : s.perform uuid5 principal ids call = .ok (s', reply)) :
    Does s uuid5 principal ids call s' := by
  cases call with
  | execute =>
    obtain ⟨⟨_, _, _, _⟩, hcall, hdone⟩ := except_map_eq_ok.mp h
    obtain ⟨rfl, -⟩ := Prod.ext_iff.mp hdone
    obtain ⟨_, _, hrun, rfl | ⟨-, _, hopen, hnamed, rfl⟩⟩ := execute_cases hcall
    · exact .executed hrun
    · exact .failed hrun hopen hnamed
  | createAction =>
    obtain ⟨⟨_, _⟩, hcall, hdone⟩ := except_map_eq_ok.mp h
    obtain ⟨rfl, -⟩ := Prod.ext_iff.mp hdone
    obtain ⟨-, -, ⟨rfl, -⟩ | hdraft⟩ := createAction_cases hcall
    · exact .nothing _
    · exact .drafted hdraft
  | confirmAction =>
    obtain ⟨⟨_, _⟩, hcall, hdone⟩ := except_map_eq_ok.mp h
    obtain ⟨rfl, -⟩ := Prod.ext_iff.mp hdone
    obtain ⟨_, hscope, -, -, -, ⟨rfl, -⟩ | ⟨_, _, _, -, happlies⟩⟩ := confirmAction_cases hcall
    · exact .nothing _
    · exact .applied hscope happlies
  | createVerification =>
    obtain ⟨⟨_, _⟩, hcall, hdone⟩ := except_map_eq_ok.mp h
    obtain ⟨rfl, -⟩ := Prod.ext_iff.mp hdone
    obtain ⟨-, -, ⟨rfl, -⟩ | hverifies⟩ := createVerification_cases hcall
    · exact .nothing _
    · exact .verified hverifies
  | closeIncident =>
    obtain ⟨⟨_, _⟩, hcall, hdone⟩ := except_map_eq_ok.mp h
    obtain ⟨rfl, -⟩ := Prod.ext_iff.mp hdone
    obtain ⟨-, _, hscope, ⟨rfl, -⟩ | hcloses⟩ := closeIncident_cases hcall
    · exact .nothing _
    · exact .closed hscope hcloses

/-- What one step is. -/
inductive Steps (s : ResolutionDesk) (uuid5 : String → String) :
    ResolutionAction → ResolutionDesk → Prop where
  | answered {user ids' call desk} (hfresh : s.IsFresh ids' call)
      (h : Does s uuid5 user ids' call desk) : Steps s uuid5 (.call user ids' call) desk
  | refused {user ids' call} : Steps s uuid5 (.call user ids' call) s
  | created {inst new} (hnew : inst ∉ s.instances.keys) :
      Steps s uuid5 (.createInstance inst new) { s with instances := s.instances.set inst new }
  | nightly {e incident} (hnew : s.IsNewCase e incident) :
      Steps s uuid5 (.nightlyCase e incident)
        (withIncident { s with executions := s.executions.set e.executionId e } incident)
  | ticked (elapsed) : Steps s uuid5 (.tick elapsed) { s with now := s.now + elapsed }

theorem step_cases {a : ResolutionAction} (h : step uuid5 s a = some s') : Steps s uuid5 a s' := by
  cases a with
  | call =>
    rw [step] at h
    split_ifs at h with hfresh
    split at h
    · next hperform =>
      cases h
      exact .answered hfresh (perform_does hperform)
    · cases h
      exact .refused
  | createInstance =>
    rw [step] at h
    split_ifs at h with hnew
    cases h
    exact .created hnew
  | nightlyCase =>
    rw [step] at h
    split_ifs at h with hnew
    cases h
    exact .nightly hnew
  | tick =>
    cases h
    exact .ticked _

/-- Every call keeps the desk in order and only adds to it. -/
theorem Does.keeps {call : ResolutionCall} (h : Does s uuid5 principal ids call s')
    (hfresh : s.IsFresh ids call) (hinv : s.Inv) : Extends s s' ∧ s'.Inv ∧ Counted s s' := by
  cases h with
  | nothing => exact ⟨.refl s, hinv, Counted.of_same rfl fun _ _ ha _ => ha⟩
  | executed hrun =>
    obtain ⟨hwrites, hext, hinv', -, -⟩ := executeInstance_inv hrun hinv (.inl hfresh.2.2.1)
    exact ⟨hext, hinv', Counted.of_same (by rw [hwrites]) fun _ _ ha _ => by rwa [hwrites] at ha⟩
  | @failed _ _ _ _ mid _ _ _ hrun _ hnamed =>
    obtain ⟨hwrites, hext, hinv', -, -⟩ := executeInstance_inv hrun hinv (.inl hfresh.2.2.1)
    have hnew : ids.incident ∉ mid.incidents.keys := by
      rw [hwrites]
      exact hfresh.2.2.2.1
    exact ⟨hext.trans (extends_setIncident hnew), hinv'.setIncident hnew hnamed,
      Counted.of_same (by rw [hwrites]) fun _ _ ha _ => by rwa [hwrites] at ha⟩
  | drafted hdraft => exact ⟨hdraft.extends hfresh.1, hdraft.inv hfresh.1 hinv, hdraft.counted⟩
  | applied hscope happlies =>
    exact ⟨happlies.extends hscope, happlies.inv hscope hinv, happlies.counted hscope hinv⟩
  | verified hverifies =>
    obtain ⟨hext, hinv', hinst, hact, -⟩ := hverifies.keeps hfresh hinv
    exact ⟨hext, hinv', Counted.of_same hinst fun _ _ ha _ => by rwa [hact] at ha⟩
  | closed hscope hcloses =>
    have hinstances : s'.instances = s.instances := by rw [hcloses.writes]
    have hactions : s'.actions = s.actions := by rw [hcloses.writes]
    exact ⟨hcloses.extends hscope, hcloses.inv hscope hinv,
      Counted.of_same hinstances fun _ _ ha _ => by rwa [hactions] at ha⟩

theorem Inv.tick {elapsed : ℕ} (h : s.Inv) : Inv { s with now := s.now + elapsed } :=
  ⟨h.executionIds, h.incidentIds, h.actionIds, h.verificationIds, h.executionRequests,
    h.actionRequests, h.verificationRequests, h.covered, h.previews, h.applied, h.once⟩

theorem Extends.createInstance {row : ScenarioInstance} (hnew : instanceId ∉ s.instances.keys) :
    Extends s { s with instances := s.instances.set instanceId row } :=
  ⟨fun _ i hi => ⟨i, get?_set_of_fresh hnew hi, rfl, rfl, le_rfl⟩, fun _ _ h => h,
    fun _ i h => ⟨i, h, .refl i⟩, fun _ a h => ⟨a, h, .refl a⟩, fun _ _ h => h,
    fun _ _ _ _ => ⟨fun _ _ h _ => h, fun _ _ h _ => h⟩⟩

theorem Inv.createInstance {row : ScenarioInstance} (h : s.Inv)
    (hnew : instanceId ∉ s.instances.keys) :
    Inv { s with instances := s.instances.set instanceId row } := by
  refine ⟨h.executionIds, h.incidentIds, h.actionIds, h.verificationIds, h.executionRequests,
    h.actionRequests, h.verificationRequests, h.covered, h.previews, ?_, h.once⟩
  intro id a r ha hr
  obtain ⟨hrev, hwhere, i, hi, hle⟩ := h.applied id a r ha hr
  exact ⟨hrev, hwhere, i, get?_set_of_fresh hnew hi, hle⟩

theorem step_keeps {a : ResolutionAction} (h : step uuid5 s a = some s') (hinv : s.Inv) :
    Extends s s' ∧ s'.Inv ∧ Counted s s' := by
  cases step_cases h with
  | answered hfresh hdoes => exact hdoes.keeps hfresh hinv
  | refused => exact ⟨.refl s, hinv, Counted.of_same rfl fun _ _ ha _ => ha⟩
  | created hnew => exact ⟨.createInstance hnew, hinv.createInstance hnew,
      fun _ i hi => .inl ⟨get?_set_of_fresh hnew hi, fun _ _ ha _ _ => ha⟩⟩
  | @nightly execution incident hnew =>
    obtain ⟨hid, hasked, hincident⟩ := hnew
    have hruns : Runs s { s with
        executions := s.executions.set execution.executionId execution }
        execution.executionId execution := ⟨rfl, rfl, by simpa using hasked⟩
    cases incident with
    | none => exact ⟨hruns.extends hid, hruns.inv hid hinv, Counted.of_same rfl
        fun _ _ ha _ => ha⟩
    | some i =>
      obtain ⟨hfresh, -⟩ := hincident i rfl
      exact ⟨(hruns.extends hid).trans (extends_setIncident hfresh),
        (hruns.inv hid hinv).setIncident hfresh rfl, Counted.of_same rfl fun _ _ ha _ => ha⟩
  | ticked => exact ⟨⟨fun _ i h => ⟨i, h, rfl, rfl, le_rfl⟩, fun _ _ h => h,
      fun _ i h => ⟨i, h, .refl i⟩, fun _ a h => ⟨a, h, .refl a⟩, fun _ _ h => h,
      fun _ _ _ _ => ⟨fun _ _ h _ => h, fun _ _ h _ => h⟩⟩, hinv.tick,
      Counted.of_same rfl fun _ _ ha _ => ha⟩

theorem run_keeps {acts : List ResolutionAction} (hinv : s.Inv)
    (h : Trace.run (step uuid5) s acts = some t) : t.Inv ∧ Extends s t :=
  Trace.run_invariant (P := fun u => u.Inv ∧ Extends s u)
    (fun _ _ _ hstep hu => ⟨(step_keeps hstep hu.1).2.1, hu.2.trans (step_keeps hstep hu.1).1⟩) h
    ⟨hinv, .refl s⟩

end ResolutionDesk

end LocalAgent.Runtime
