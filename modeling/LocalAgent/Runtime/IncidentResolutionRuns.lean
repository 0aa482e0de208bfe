import LocalAgent.Lib.Text
import LocalAgent.Runtime.IncidentResolutionSteps

/-!
# LocalAgent.Runtime.IncidentResolutionRuns — closing, eligibility and replays over whole runs

* `Closes.justified`: what a close rests on.
* `Inv.eligibility`: the two evaluations of the closing rule agree on open incidents.
* `perform_replay`: an answered call made again gives the stored row and changes nothing.
* `resolution_sound`: all of it, in every run.
-/

namespace LocalAgent.Runtime

namespace ResolutionDesk

variable {s s' t : ResolutionDesk} {uuid5 : String → String} {principal : CIPrincipal}

/-! ## The close -/

variable {incidentId : String} {a : IncidentAction} {r : ActionResult} {mode : VerificationMode}
  {v : IncidentVerification} {body : CloseRequest} {instanceId actionId : String}
  {payload : ActionPayload} {call : ResolutionCall} {reply : ResolutionReply}

theorem latestAction_mem (h : s.latestAction incidentId = some (a, r)) :
    (∃ id, s.actions.get? id = some a) ∧ a.incidentId = incidentId ∧ a.status.result = some r := by
  have hmem := (List.perm_insertionSort _ _).mem_iff.mp (List.mem_of_head? h)
  obtain ⟨row, hrow, hsome⟩ := List.mem_filterMap.mp hmem
  by_cases hmine : row.incidentId = incidentId
  · rw [if_pos hmine] at hsome
    obtain ⟨_, hfound, hpair⟩ := Option.map_eq_some_iff.mp hsome
    obtain ⟨rfl, rfl⟩ := Prod.ext_iff.mp hpair
    exact ⟨Dict.mem_values_iff.mp hrow, hmine, hfound⟩
  · rw [if_neg hmine] at hsome
    cases hsome

theorem latestVerification_mem {revision : ℕ}
(h : s.latestVerification incidentId mode revision = some v) :
    (∃ id, s.verifications.get? id = some v) ∧ v.incidentId = incidentId ∧ v.mode = mode ∧
      v.stateRevision = revision := by
  have hmem := (List.perm_insertionSort _ _).mem_iff.mp (List.mem_of_head? h)
  obtain ⟨hrow, hfields⟩ := List.mem_filter.mp hmem
  exact ⟨Dict.mem_values_iff.mp hrow, of_decide_eq_true hfields⟩

theorem forM_ok {ε α : Type} {f : α → Except ε Unit} :
    ∀ {xs : List α}, xs.forM f = .ok () → ∀ x ∈ xs, f x = .ok ()
  | [], _, x, hx => by cases hx
  | y :: ys, h, x, hx => by
    rw [List.forM_eq_forM, List.forM_cons] at h
    obtain ⟨hy, hys⟩ := seq_eq_ok.mp h
    rcases List.mem_cons.mp hx with rfl | hx
    · exact hy
    · exact forM_ok hys x hx

theorem exists_zip {α β : Type} : ∀ {xs : List α} {ys : List β}, xs.length = ys.length →
    ∀ y ∈ ys, ∃ x ∈ xs, (x, y) ∈ List.zip xs ys
  | [], [], _, y, hy => by cases hy
  | [], _ :: _, h, _, _ => by cases h
  | _ :: _, [], h, _, _ => by cases h
  | x :: xs, z :: ys, h, y, hy => by
    rcases List.mem_cons.mp hy with rfl | hy
    · exact ⟨x, List.mem_cons_self, List.mem_cons_self⟩
    · obtain ⟨x', hx', hzip⟩ := exists_zip (Nat.succ.inj h) y hy
      exact ⟨x', List.mem_cons_of_mem x hx', List.mem_cons_of_mem _ hzip⟩

/-- A case that an item of a verification has shown to pass, on a revision and from a time on. -/
def Passed (s : ResolutionDesk) (v : IncidentVerification) (instanceId : String) (revision : ℕ)
    (from' : ℤ) (caseId : String) : Prop :=
  ∃ item ∈ v.items, item.1 = caseId ∧ ∃ e, s.executions.get? item.2 = some e ∧
    e.caseId = caseId ∧ e.instanceId = instanceId ∧ e.stateRevision = revision ∧
    from' ≤ e.result.startedAt ∧ e.result.outcome = .pass

theorem validateBatch_passed {scope : ResolutionScope} {confirmedAt : ℤ}
    {batch : IncidentVerification} {cases : List String}
    (h : s.validateBatch scope confirmedAt batch mode cases = .ok ()) :
    ∀ c ∈ cases, s.Passed batch scope.instanceId scope.scenario.stateRevision confirmedAt c := by
  intro c hc
  unfold validateBatch at h
  obtain ⟨hfields, h⟩ := raiseIf_seq_ok.mp h
  push Not at hfields
  obtain ⟨-, -, -, -, -, -, hlength, -⟩ := hfields
  obtain ⟨item, hitem, hzip⟩ := exists_zip hlength c hc
  have hvalid := forM_ok h (item, c) hzip
  unfold validateItem at hvalid
  split at hvalid
  · cases hvalid
  · rename_i e he
    obtain ⟨hmatch, hvalid⟩ := raiseIf_seq_ok.mp hvalid
    have hpass := raiseIf_ok.mp hvalid
    push Not at hmatch hpass
    exact ⟨item, hitem, hmatch.1, e, he, hmatch.2.1, hmatch.2.2.1, hmatch.2.2.2.1,
      hmatch.2.2.2.2, hpass⟩

/-- What closing an incident rests on, in the tables it is closed in. -/
structure Justified (s : ResolutionDesk) (incidentId : String) (closure : IncidentClosure) :
    Prop where
  basis : ∃ instanceId i a r v, s.About incidentId instanceId ∧
    s.instances.get? instanceId = some i ∧ closure.stateRevision = i.stateRevision ∧
    -- The incident's own action is the last change of the instance's state.
    s.actions.get? closure.actionId = some a ∧ a.incidentId = incidentId ∧
    a.status = .applied r ∧ r.instanceId = instanceId ∧
    r.appliedStateRevision = i.stateRevision ∧
    (∀ id b rb, s.actions.get? id = some b → b.status = .applied rb →
      rb.instanceId = instanceId → id ≠ closure.actionId →
        rb.appliedStateRevision < r.appliedStateRevision) ∧
    -- Every case of the catalogue has passed since, in a verification of the incident.
    s.verifications.get? closure.groupVerificationId = some v ∧ v.incidentId = incidentId ∧
    ∀ c ∈ i.currentState.caseIds, s.Passed v instanceId i.stateRevision r.confirmedAt c

theorem status_applied (h : a.status.result = some r) : a.status = .applied r := by
  cases hs : a.status with
  | previewed => rw [hs] at h; cases h
  | applied =>
    rw [hs] at h
    rw [Option.some.inj h]

/-- A closure is justified at the state in which it is made. -/
theorem Closes.justified {scope : ResolutionScope}
    {closure : IncidentClosure} (h : Closes s s' principal incidentId body scope closure)
    (hscope : s.resolutionScope principal incidentId = .ok scope) (hinv : s.Inv) :
    s.Justified incidentId closure := by
  obtain ⟨-, -, -, -, -, -, hinst, -⟩ := resolutionScope_ok hscope
  have habout := about_of_scope hscope
  cases haction : s.latestAction incidentId with
  | none => have hid := h.action; rw [haction] at hid; cases hid
  | some found =>
    obtain ⟨a, r⟩ := found
    cases hgroup : s.latestVerification incidentId .group scope.scenario.stateRevision with
    | none => have hid := h.group; rw [hgroup] at hid; cases hid
    | some v =>
      obtain ⟨⟨aid, ha⟩, hmine, hr⟩ := latestAction_mem haction
      obtain ⟨⟨vid, hv⟩, hvmine, -, -⟩ := latestVerification_mem hgroup
      have haid : aid = closure.actionId := by
        have hid := h.action
        rw [haction] at hid
        rw [h.recorded.1, ← Option.some.inj hid]
        exact (hinv.actionIds aid a ha).symm
      have hvid : vid = closure.groupVerificationId := by
        have hid := h.group
        rw [hgroup] at hid
        rw [h.recorded.2.1, ← Option.some.inj hid]
        exact (hinv.verificationIds vid v hv).symm
      have hvalid := h.valid
      rw [haction, hgroup] at hvalid
      cases hsingle : s.latestVerification incidentId .single scope.scenario.stateRevision with
      | none => have hid := h.single; rw [hsingle] at hid; cases hid
      | some =>
        rw [hsingle] at hvalid
        unfold validateClosure at hvalid
        obtain ⟨hlast, hvalid⟩ := raiseIf_seq_ok.mp hvalid
        obtain ⟨-, hvalid⟩ := seq_eq_ok.mp hvalid
        obtain ⟨-, hplace, -⟩ := hinv.applied aid a r ha hr
        obtain ⟨-, -, hwhere⟩ := hinv.previews aid a ha
        have hplace' : r.instanceId = scope.instanceId :=
          hplace.trans ((hmine ▸ hwhere).unique habout)
        refine ⟨scope.instanceId, scope.scenario, a, r, v, habout, hinst, h.recorded.2.2,
          haid ▸ ha, hmine, status_applied hr, hplace', not_not.mp hlast, ?_, hvid ▸ hv, hvmine,
          validateBatch_passed hvalid⟩
        intro id b rb hb hrb hsame hne
        have hrb' : b.status.result = some rb := by rw [hrb]; rfl
        obtain ⟨-, -, i, hi, hle⟩ := hinv.applied id b rb hb hrb'
        rw [hsame, hinst] at hi
        cases hi
        refine lt_of_le_of_ne (hle.trans (not_not.mp hlast).ge) fun heq => hne ?_
        rw [← haid]
        exact hinv.once id b rb aid a r hb hrb' ha hr (hsame.trans hplace'.symm) heq

/-! ## Eligibility -/

/-- A request to close with the ids that `closure_eligibility` reports, on the current revision. -/
def Reported (e : ClosureEligibility) (revision : ℕ) (body : CloseRequest) : Prop :=
  e.actionId = some body.actionId ∧ e.singleVerificationId = some body.singleVerificationId ∧
    e.groupVerificationId = some body.groupVerificationId ∧
    body.expectedStateRevision = revision ∧ body.regressionConfirmed = true
  deriving Decidable

/-- An open incident is eligible exactly when the closing rule accepts it. -/
theorem eligible_iff_valid {scope : ResolutionScope}
    (hopen : scope.incident.status.closure = none) : (s.closureEligibility scope).eligible = true ↔
      s.validateClosure scope (s.latestAction scope.incident.incidentId)
        (s.latestVerification scope.incident.incidentId .single scope.scenario.stateRevision)
        (s.latestVerification scope.incident.incidentId .group scope.scenario.stateRevision) =
          .ok () := by
  unfold closureEligibility
  simp only [hopen, Option.isSome_none, Bool.false_eq_true, if_false]
  cases s.validateClosure scope (s.latestAction scope.incident.incidentId)
    (s.latestVerification scope.incident.incidentId .single scope.scenario.stateRevision)
    (s.latestVerification scope.incident.incidentId .group scope.scenario.stateRevision) with
  | ok => exact ⟨fun _ => rfl, fun _ => rfl⟩
  | error => exact ⟨fun h => (nomatch h), fun h => (nomatch h)⟩

/-- What `closure_eligibility` promises of `close_incident`: of an open incident, a request with the
ids it reports and the current revision succeeds exactly when the answer is eligible, and an
eligible answer reports all three ids; of a closed one the answer is not eligible. -/
def Eligibility (s : ResolutionDesk) : Prop :=
  ∀ principal incidentId scope, s.resolutionScope principal incidentId = .ok scope →
    let answer := s.closureEligibility scope
    (scope.incident.status.closure = none →
      (∀ body, Reported answer scope.scenario.stateRevision body → (answer.eligible = true ↔
          ∃ s' payload, s.closeIncident principal incidentId body = .ok (s', payload))) ∧
      (answer.eligible = true → ∃ body, Reported answer scope.scenario.stateRevision body)) ∧
    (scope.incident.status.closure.isSome = true → answer.eligible = false)

/-- The eligibility that is shown is that of the closing rule. -/
theorem Inv.eligibility (hinv : s.Inv) : s.Eligibility := by
  intro _ incidentId scope hscope
  obtain ⟨-, hinc, -⟩ := resolutionScope_ok hscope
  obtain rfl : scope.incident.incidentId = incidentId := hinv.incidentIds _ _ hinc
  refine ⟨fun hopen => ⟨fun body hreported => ?_, fun heligible => ?_⟩, fun hclosed => ?_⟩
  · rw [eligible_iff_valid hopen]
    obtain ⟨haction, hsingle, hgroup, hrevision, hconfirmed⟩ := hreported
    constructor
    · intro hvalid
      unfold closeIncident
      rw [hscope, ok_bind]
      simp only [hopen]
      rw [raiseIf_of_not (by rw [hconfirmed, hrevision]; simp), ok_bind,
        raiseIf_of_not (by push Not; exact ⟨haction, hsingle, hgroup⟩), ok_bind, hvalid]
      exact ⟨_, _, rfl⟩
    · rintro ⟨_, _, hclose⟩
      obtain ⟨-, _, hfound, hcases⟩ := closeIncident_cases hclose
      cases hscope.symm.trans hfound
      rcases hcases with ⟨-, hclosed, -⟩ | hcloses
      · rw [hopen] at hclosed
        cases hclosed
      · exact hcloses.valid
  · rw [eligible_iff_valid hopen] at heligible
    unfold validateClosure at heligible
    split at heligible
    · rename_i a r v w haction hsingle hgroup
      exact ⟨⟨"", scope.scenario.stateRevision, a.actionId, v.verificationId, w.verificationId, "",
        "", true⟩, by show Option.map _ (s.latestAction _) = _; rw [haction]; rfl,
        by show Option.map _ (s.latestVerification _ .single _) = _; rw [hsingle]; rfl,
        by show Option.map _ (s.latestVerification _ .group _) = _; rw [hgroup]; rfl, rfl, rfl⟩
    · cases heligible
  · unfold closureEligibility
    simp [hclosed]

/-! ## Replays -/

/-- The row that an answer is about, as the tables have it. -/
def Stored (t : ResolutionDesk) : ResolutionReply → ResolutionReply → Prop
  | .executed e _, .executed e' _ => e' = e ∧ t.executions.get? e.executionId = some e
  | .action p, .action p' => SameAction p.row p'.row ∧ t.actions.get? p.row.actionId = some p'.row
  | .verification p, .verification p' =>
    p'.row = p.row ∧ t.verifications.get? p.row.verificationId = some p.row
  | .closed p, .closed p' => p' = p ∧ ∃ i, t.incidents.get? p.incidentId = some i ∧
    i.status = .closed p.closure
  | _, _ => False

/-- A scope is found in every later state, with its own incident. -/
theorem Extends.scope (hext : Extends s t) {scope : ResolutionScope}
    (h : s.resolutionScope principal incidentId = .ok scope) :
    ∃ later, t.resolutionScope principal incidentId = .ok later ∧ later.origin = scope.origin ∧
      SameIncident scope.incident later.incident := by
  obtain ⟨hhuman, hinc, htenant, howner, horigin, hid, hinst, howner', htenant'⟩ :=
    resolutionScope_ok h
  obtain ⟨j, hj, hsame⟩ := hext.incidents _ _ hinc
  obtain ⟨i, hi, hio, hit, -⟩ := hext.instances _ _ hinst
  obtain ⟨-, hjt, hjo, hje⟩ := hsame.fields
  refine ⟨⟨j, scope.origin, scope.instanceId, i⟩, ?_, rfl, hsame⟩
  exact resolutionScope_of hhuman hj (hjt.trans htenant) (hjo.trans howner)
    (by dsimp only; rw [hje]; exact hext.executions _ _ horigin) hid hi (hio.trans howner')
    (hit.trans htenant')

theorem ownedInstance_later (hext : Extends s t) {row : ScenarioInstance}
    (h : s.ownedInstance principal instanceId = .ok row) :
    ∃ later, t.ownedInstance principal instanceId = .ok later := by
  unfold ownedInstance at h
  split at h
  · cases h
  · rename_i found hfound
    by_cases howned : found.ownerUserId = principal.userId ∧ found.tenantId = principal.tenantId
    · obtain ⟨i, hi, ho, ht, -⟩ := hext.instances _ _ hfound
      refine ⟨i, ?_⟩
      unfold ownedInstance
      rw [hi]
      exact if_pos ⟨ho.trans howned.1, ht.trans howned.2⟩
    · rw [if_neg howned] at h
      cases h

/-- An action that is requested again in a later state. -/
theorem replay_createAction {body : ActionIntent} (later : String)
    (h : s.createAction principal incidentId body actionId = .ok (s', payload))
    (hinv' : s'.Inv) (hext : Extends s s') (hext' : Extends s' t) (hinv : t.Inv) :
    ∃ payload', t.createAction principal incidentId body later = .ok (t, payload') ∧
      Stored t (.action payload) (.action payload') := by
  obtain ⟨_, hscope, hcases⟩ := createAction_cases h
  obtain ⟨found, hfound, -⟩ := (hext.trans hext').scope hscope
  have hrow : (∃ id, s'.actions.get? id = some payload.row) ∧ payload.row.incidentId = incidentId ∧
      payload.row.requestId = body.requestId ∧ payload.row.actionKind = body.actionKind ∧
      payload.row.parameters = body.parameters ∧
      payload.row.previewPayload.preview.targetCaseId = body.targetCaseId := by
    rcases hcases with ⟨rfl, hold, hrest⟩ | hdraft
    · have hmatch := List.find?_some hold
      rw [decide_eq_true_eq] at hmatch
      exact ⟨Dict.mem_values_iff.mp (List.mem_of_find?_eq_some hold), hmatch.1, hmatch.2, hrest⟩
    · obtain ⟨hwrites, -, ⟨_, -, -, -, -, -, hpreview⟩, ⟨-, hmine, hreq, hkind, hparams, -, -⟩⟩ :=
        hdraft
      refine ⟨⟨actionId, ?_⟩, hmine, hreq, hkind, hparams, (preview_ok hpreview).2⟩
      rw [hwrites]
      rw [Dict.get?_set, if_pos rfl]
  obtain ⟨⟨id, hid⟩, hmine, hreq, hkind, hparams, htarget⟩ := hrow
  obtain ⟨b, hb, hsame⟩ := hext'.actions id _ hid
  obtain ⟨-, hbmine, hbreq, hbkind, hbparams, -, hbpreview, -⟩ := hsame.fields
  have hof : t.actionOf incidentId body.requestId = some b := by
    refine hinv.actionRequests.find hb fun w => ?_
    rw [decide_eq_true_eq, Prod.mk.injEq, hbmine, hbreq, hmine, hreq]
  refine ⟨actionPayload b found.scenario.stateRevision, ?_, hsame, ?_⟩
  · unfold createAction
    rw [hfound, ok_bind]
    simp only [hof]
    rw [raiseIf_of_not, ok_bind]
    · rfl
    · push Not
      exact ⟨hbkind.trans hkind, hbparams.trans hparams, by rw [hbpreview]; exact htarget⟩
  · rwa [hinv'.actionIds id _ hid]

theorem replay_confirmAction {confirmed : Bool} {digest : String}
    (h : s.confirmAction principal incidentId actionId confirmed digest = .ok (s', payload))
    (hinv' : s'.Inv) (hext : Extends s s') (hext' : Extends s' t) : ∃ payload',
      t.confirmAction principal incidentId actionId confirmed digest = .ok (t, payload') ∧
      Stored t (.action payload) (.action payload') := by
  obtain ⟨_, hscope, hconfirmed, hdigest, hpayload, hcases⟩ := confirmAction_cases h
  obtain ⟨found, hfound, -⟩ := (hext.trans hext').scope hscope
  have hrow : s'.actions.get? actionId = some payload.row ∧ payload.row.incidentId = incidentId ∧
      payload.row.status.result.isSome = true := by
    rcases hcases with ⟨rfl, hrest⟩ | ⟨_, _, _, hrow, happlies⟩
    · exact hrest
    · rw [hrow, happlies.writes]
      rw [Dict.get?_set, if_pos rfl]
      exact ⟨rfl, happlies.mine, rfl⟩
  obtain ⟨hid, hmine, hdone⟩ := hrow
  obtain ⟨b, hb, hsame⟩ := hext'.actions actionId _ hid
  cases hsame.applied hdone
  refine ⟨actionPayload payload.row found.scenario.stateRevision, ?_, hsame, ?_⟩
  · have haction : t.incidentAction incidentId actionId = .ok payload.row := by
      unfold incidentAction
      rw [hb]
      exact if_pos hmine
    unfold confirmAction
    rw [hfound, ok_bind, haction, ok_bind, raiseIf_of_not, ok_bind, if_pos hdone]
    · rfl
    · rw [hdigest, hpayload]
      simp [hconfirmed]
  · rwa [hinv'.actionIds actionId _ hid]

theorem replay_execute {requestId : String} {caseId : Option String}
    {expected : Option ℕ} {executionId : String} {execution : CIExecution}
    {incident : Option CIIncident} {created : Bool} (ids : FreshIds)
    (h : s.execute uuid5 principal instanceId requestId caseId expected executionId incidentId =
      .ok (s', execution, incident, created))
    (hext : Extends s s') (hext' : Extends s' t) (hinv : t.Inv)
    (hkept : s'.executions.get? execution.executionId = some execution) :
    ∃ incident', t.execute uuid5 principal instanceId requestId caseId expected ids.object
        ids.incident = .ok (t, execution, incident', false) ∧
      Stored t (.executed execution incident) (.executed execution incident') := by
  obtain ⟨_, _, hrun, -⟩ := execute_cases h
  obtain ⟨hinst, hreq, hcase, hrev, ⟨_, hrow⟩, -⟩ := executeInstance_cases hrun
  obtain ⟨_, hfound⟩ := ownedInstance_later (hext.trans hext') hrow
  have hget := hext'.executions _ _ hkept
  have hof : t.executionOf instanceId requestId = some execution := by
    refine hinv.executionRequests.find hget fun w => ?_
    rw [decide_eq_true_eq, Prod.mk.injEq, hinst, hreq]
  refine ⟨t.incidents.values.find? (·.executionId = execution.executionId), ?_, rfl, hget⟩
  have hagain : t.executeInstance uuid5 principal instanceId requestId caseId expected ids.object =
      .ok (t, execution, false) := by
    unfold executeInstance
    rw [hfound, ok_bind]
    simp only [hof]
    rw [raiseIf_of_not, ok_bind]
    · rfl
    · push Not
      exact ⟨hcase, hrev⟩
  unfold execute
  rw [hagain, ok_bind]
  rfl

theorem verificationPayload_ok (origin : CIExecution) (h : ∀ item ∈ v.items, s.Covers v item) :
    ∃ payload, s.verificationPayload v origin = .ok payload := by
  have hitems : ∀ items : List (String × String), (∀ item ∈ items, s.Covers v item) →
      ∃ es, items.mapM (s.verificationItem v) = .ok es := by
    intro items hcovers
    induction items with
    | nil => exact ⟨[], rfl⟩
    | cons item _ ih =>
      obtain ⟨es, hes⟩ := ih fun i hi => hcovers i (List.mem_cons_of_mem item hi)
      obtain ⟨e, he, hmatch⟩ := hcovers item List.mem_cons_self
      have hone : s.verificationItem v item = .ok e := by
        unfold verificationItem
        rw [he]
        exact if_pos hmatch
      refine ⟨e :: es, ?_⟩
      rw [List.mapM_cons, hone, ok_bind, hes, ok_bind]
      rfl
  obtain ⟨_, hes⟩ := hitems v.items h
  unfold verificationPayload
  rw [hes, ok_bind]
  exact ⟨_, rfl⟩

variable {ids : FreshIds}

/-- A verification that is requested again in a later state. -/
theorem replay_createVerification {body : VerificationIntent}
    (ids' : FreshIds) {payload : VerificationPayload}
    (h : s.createVerification uuid5 principal incidentId body ids.object ids.executions =
      .ok (s', payload))
    (hinv' : s'.Inv) (hext : Extends s s') (hext' : Extends s' t) (hinv : t.Inv) :
    ∃ payload', t.createVerification uuid5 principal incidentId body ids'.object ids'.executions =
        .ok (t, payload') ∧ Stored t (.verification payload) (.verification payload') := by
  obtain ⟨_, hscope, hcases⟩ := createVerification_cases h
  obtain ⟨found, hfound, -⟩ := (hext.trans hext').scope hscope
  have hrow : (∃ id, s'.verifications.get? id = some payload.row) ∧
      payload.row.incidentId = incidentId ∧ payload.row.requestId = body.requestId ∧
      payload.row.mode = body.mode ∧ payload.row.requestedCaseIds = body.caseIds ∧
      payload.row.stateRevision = body.expectedStateRevision := by
    rcases hcases with ⟨rfl, hold, hrest⟩ | hverifies
    · have hmatch := List.find?_some hold
      rw [decide_eq_true_eq] at hmatch
      exact ⟨Dict.mem_values_iff.mp (List.mem_of_find?_eq_some hold), hmatch.1, hmatch.2, hrest⟩
    · obtain ⟨-, ⟨_, _, _, -, -, -, hwrites, -⟩, ⟨-, hrest⟩⟩ := hverifies
      refine ⟨⟨ids.object, ?_⟩, hrest⟩
      rw [hwrites]
      rw [Dict.get?_set, if_pos rfl]
  obtain ⟨⟨id, hid⟩, hmine, hreq, hfields⟩ := hrow
  have hget := hext'.verifications id _ hid
  have hof : t.verificationOf incidentId body.requestId = some payload.row := by
    refine hinv.verificationRequests.find hget fun w => ?_
    rw [decide_eq_true_eq, Prod.mk.injEq, hmine, hreq]
  obtain ⟨payload', hpayload⟩ :=
    verificationPayload_ok found.origin (hinv.covered id _ hget)
  refine ⟨payload', ?_, verificationPayload_row hpayload, ?_⟩
  · unfold createVerification
    rw [hfound, ok_bind]
    simp only [hof]
    rw [raiseIf_of_not, ok_bind, hpayload]
    · rfl
    · push Not
      exact hfields
  · rwa [hinv'.verificationIds id _ hid]

theorem replay_closeIncident {payload : ClosedPayload}
    (h : s.closeIncident principal incidentId body = .ok (s', payload))
    (hext : Extends s s') (hext' : Extends s' t) :
    t.closeIncident principal incidentId body = .ok (t, payload) ∧
      Stored t (.closed payload) (.closed payload) := by
  obtain ⟨hnamed, scope, hscope, hcases⟩ := closeIncident_cases h
  obtain ⟨found, hfound, -, -⟩ := (hext.trans hext').scope hscope
  obtain ⟨-, hinc, -⟩ := resolutionScope_ok hscope
  have hrow : ∃ i, s'.incidents.get? incidentId = some i ∧
      i.status.closure = some payload.closure ∧ payload.closure.confirmation = body := by
    rcases hcases with ⟨rfl, hclosed, hasked⟩ | hcloses
    · exact ⟨scope.incident, hinc, hclosed, hasked⟩
    · rw [hcloses.writes]
      rw [Dict.get?_set, if_pos rfl]
      exact ⟨_, rfl, rfl, hcloses.asked⟩
  obtain ⟨i, hi, hclosure, hasked⟩ := hrow
  obtain ⟨j, hj, hsame⟩ := hext'.incidents incidentId i hi
  cases hsame.closed (by rw [hclosure]; rfl)
  obtain ⟨-, hfoundinc, -⟩ := resolutionScope_ok hfound
  cases hj.symm.trans hfoundinc
  refine ⟨?_, rfl, found.incident, by rw [hnamed]; exact hj, ?_⟩
  · unfold closeIncident
    rw [hfound, ok_bind]
    simp only [hclosure]
    rw [raiseIf_of_not (not_not.mpr hasked), ok_bind]
    obtain ⟨_, _⟩ := payload
    obtain rfl : _ = incidentId := hnamed
    rfl
  · cases hs : found.incident.status with
    | opened | pendingVerification => rw [hs] at hclosure; cases hclosure
    | closed => rw [hs] at hclosure; rw [Option.some.inj hclosure]

/-- Every call that was answered is answered alike in every later state. -/
theorem perform_replay
    (h : s.perform uuid5 principal ids call = .ok (s', reply)) (hfresh : s.IsFresh ids call)
    (hinv : s.Inv) (hext : Extends s' t) (hlater : t.Inv) (ids' : FreshIds) :
    ∃ reply', t.perform uuid5 principal ids' call = .ok (t, reply') ∧ Stored t reply reply' := by
  obtain ⟨hmove, hinv', -⟩ := (perform_does h).keeps hfresh hinv
  cases call with
  | execute =>
    obtain ⟨⟨desk, execution, _, _⟩, hrun, hdone⟩ := except_map_eq_ok.mp h
    obtain ⟨rfl, rfl⟩ := Prod.ext_iff.mp hdone
    obtain ⟨_, _, hinstance, hend⟩ := execute_cases hrun
    obtain ⟨-, -, -, hmade, -⟩ := executeInstance_inv hinstance hinv (.inl hfresh.2.2.1)
    have hkept : desk.executions.get? execution.executionId = some execution := by
      rcases hend with rfl | ⟨-, i, -, -, rfl⟩
      all_goals exact hmade
    obtain ⟨incident', hagain, hstored⟩ :=
      replay_execute ids' hrun hmove hext hlater hkept
    exact ⟨.executed execution incident', by rw [perform, hagain]; rfl, hstored⟩
  | createAction =>
    obtain ⟨⟨desk, payload⟩, hrun, hdone⟩ := except_map_eq_ok.mp h
    obtain ⟨rfl, rfl⟩ := Prod.ext_iff.mp hdone
    obtain ⟨payload', hagain, hstored⟩ :=
      replay_createAction ids'.object hrun hinv' hmove hext hlater
    exact ⟨.action payload', by rw [perform, hagain]; rfl, hstored⟩
  | confirmAction =>
    obtain ⟨⟨desk, payload⟩, hrun, hdone⟩ := except_map_eq_ok.mp h
    obtain ⟨rfl, rfl⟩ := Prod.ext_iff.mp hdone
    obtain ⟨payload', hagain, hstored⟩ := replay_confirmAction hrun hinv' hmove hext
    exact ⟨.action payload', by rw [perform, hagain]; rfl, hstored⟩
  | createVerification =>
    obtain ⟨⟨desk, payload⟩, hrun, hdone⟩ := except_map_eq_ok.mp h
    obtain ⟨rfl, rfl⟩ := Prod.ext_iff.mp hdone
    obtain ⟨payload', hagain, hstored⟩ :=
      replay_createVerification ids' hrun hinv' hmove hext hlater
    exact ⟨.verification payload', by rw [perform, hagain]; rfl, hstored⟩
  | closeIncident =>
    obtain ⟨⟨_, payload⟩, hrun, hdone⟩ := except_map_eq_ok.mp h
    obtain ⟨rfl, rfl⟩ := Prod.ext_iff.mp hdone
    obtain ⟨hagain, hstored⟩ := replay_closeIncident hrun hmove hext
    exact ⟨.closed payload, by rw [perform, hagain]; rfl, hstored⟩

/-! ## Runs -/

def ClosesJustified (s s' : ResolutionDesk) : Prop :=
  ∀ id i c, s'.incidents.get? id = some i → i.status = .closed c →
    s.incidents.get? id = some i ∨ s.Justified id c

theorem closesJustified_set {incidents : Dict String CIIncident} {k : String} {j : CIIncident}
    (hsame : s'.incidents = incidents.set k j) (hold : incidents = s.incidents)
    (hopen : j.status.closure = none) : ClosesJustified s s' := by
  intro _ i c hi hclosed
  rw [hsame, Dict.get?_set, hold] at hi
  split_ifs at hi with hk
  · cases hi
    rw [hclosed] at hopen
    cases hopen
  · exact .inl hi

theorem closesJustified_same (hsame : s'.incidents = s.incidents) : ClosesJustified s s' :=
  fun _ _ _ hi _ => .inl (hsame ▸ hi)

/-- No call closes an incident without a passed verification. -/
theorem Does.justified {call : ResolutionCall} (h : Does s uuid5 principal ids call s')
    (hfresh : s.IsFresh ids call) (hinv : s.Inv) : ClosesJustified s s' := by
  cases h with
  | nothing => exact closesJustified_same rfl
  | executed hrun =>
    obtain ⟨hwrites, -⟩ := executeInstance_inv hrun hinv (.inl hfresh.2.2.1)
    exact closesJustified_same (by rw [hwrites])
  | failed hrun hopen =>
    obtain ⟨hwrites, -⟩ := executeInstance_inv hrun hinv (.inl hfresh.2.2.1)
    exact closesJustified_set rfl (by rw [hwrites]) (by rw [hopen]; rfl)
  | drafted hdraft => exact closesJustified_same (by rw [hdraft.writes])
  | applied _ happlies => exact closesJustified_set (by rw [happlies.writes]) rfl rfl
  | verified hverifies => exact closesJustified_same (hverifies.keeps hfresh hinv).2.2.2.2
  | closed hscope hcloses =>
    intro _ i c hi hclosed
    rw [hcloses.writes] at hi
    rcases Dict.get?_set_cases hi with ⟨hk, rfl⟩ | ⟨-, hi⟩
    · cases CIIncidentStatus.closed.inj hclosed
      rw [hk]
      exact .inr (hcloses.justified hscope hinv)
    · exact .inl hi

theorem step_justified {a : ResolutionAction} (h : step uuid5 s a = some s') (hinv : s.Inv) :
    ClosesJustified s s' := by
  cases step_cases h with
  | answered hfresh hdoes => exact hdoes.justified hfresh hinv
  | refused | created | ticked => exact closesJustified_same rfl
  | @nightly _ incident hnew =>
    cases incident with
    | none => exact closesJustified_same rfl
    | some i => exact closesJustified_set rfl rfl (by simpa using (hnew.2.2 i rfl).2)

/-- Empty tables at some time. -/
def opening (now : ℤ) : ResolutionDesk := ⟨.empty, .empty, .empty, .empty, .empty, now⟩

theorem inv_opening (now : ℤ) : (opening now).Inv := by
  refine ⟨?_, ?_, ?_, ?_, ?_, ?_, ?_, ?_, ?_, ?_, ?_⟩
  all_goals
    intro _ _
    simp [opening]

/-- Calls of any users, again and again: an answered call made once more changes nothing. -/
def Replayable (s : ResolutionDesk) (uuid5 : String → String) : Prop :=
  ∀ principal ids call s' reply, s.IsFresh ids call →
    s.perform uuid5 principal ids call = .ok (s', reply) →
    ∀ acts t, Trace.run (step uuid5) s' acts = some t → ∀ ids',
      ∃ reply', t.perform uuid5 principal ids' call = .ok (t, reply') ∧ Stored t reply reply'

/-- In every run: applied actions and revisions go together, what is applied or closed stays, an
incident is closed on its own last change and a whole passed catalogue, the eligibility of an open
incident is what `close_incident` does, and an answered call made again changes nothing. -/
theorem resolution_sound {now : ℤ} {acts : List ResolutionAction}
    (hrun : Trace.run (step uuid5) (opening now) acts = some s) :
    (∀ a s', step uuid5 s a = some s' → Counted s s' ∧ Extends s s' ∧ ClosesJustified s s') ∧
      s.Eligibility ∧ s.Replayable uuid5 := by
  obtain ⟨hinv, -⟩ := run_keeps (inv_opening now) hrun
  refine ⟨fun a s' h => ?_, hinv.eligibility, ?_⟩
  · obtain ⟨hext, -, hcounted⟩ := step_keeps h hinv
    exact ⟨hcounted, hext, step_justified h hinv⟩
  · intro _ _ _ _ _ hfresh hperform _ t hlater ids'
    obtain ⟨-, hinv', -⟩ := (perform_does hperform).keeps hfresh hinv
    obtain ⟨hinv'', hext⟩ := run_keeps hinv' hlater
    exact perform_replay hperform hfresh hinv hext hinv'' ids'

/-! ## A sample -/

/-- An environment whose flag conflicts with the case. -/
def sampleState : CIState where
  environment := ⟨"env-report", "192.0.2.15", "product-2.0", "parser-2.0", "decoder-2.0", 2, 2,
    some (Dict.empty.set "compressed_transport" true), some "compatible"⟩
  testCase := {
    caseId := "case-legacy-report", featureId := "feature-legacy-report"
    requiredFieldRevision := 2, inputRevision := 2, goldenId := "golden-report"
    goldenVersion := "2", comparisonRuleId := "semantic-fields-equal/1"
    compressedTransport := some false, caseId_text := legacyReport_text }
  report := ⟨"report-input", 2, true⟩
  diagnosticsComplete := true

def sampleUser : CIPrincipal := ⟨"tenant", "user", true⟩

def sampleIds (name : String) : FreshIds := ⟨name, name, fun c => name ++ c⟩

def samplePreview : FrozenPreview := ⟨"I", 1, ⟨.setFeatureFlag, none,
  [⟨.compressedTransport, some (.flag true), .flag false⟩], "env-report",
  ["case-legacy-report", "case-report-health"], "设置 compressed_transport"⟩⟩

def sampleClose : CloseRequest :=
  ⟨"close", 2, "A", "S", "G", "the flag", "switched off", true⟩

/-- A failed execution, its action and verifications, and the close. -/
def sampleRun : List ResolutionAction := [
  .createInstance "I" ⟨"tenant", "user", 1, sampleState⟩,
  .call sampleUser (sampleIds "E") (.execute "I" "run" none none),
  .call sampleUser (sampleIds "A")
    (.createAction "E" ⟨"act", .setFeatureFlag, none, .compressedTransport false⟩),
  .call sampleUser (sampleIds "C") (.confirmAction "E" "A" true samplePreview.digest),
  .call sampleUser (sampleIds "S")
    (.createVerification "E" ⟨"one", .single, ["case-legacy-report"], 2⟩),
  .call sampleUser (sampleIds "G")
    (.createVerification "E" ⟨"all", .group, ["case-legacy-report", "case-report-health"], 2⟩),
  .call sampleUser (sampleIds "X") (.closeIncident "E" sampleClose)]

/-- The scope of the sample's incident, what its eligibility is, and its close made once more. -/
def sampleCheck (s : ResolutionDesk) : Bool :=
  match s.resolutionScope sampleUser "E" with
  | .error _ => false
  | .ok scope =>
    decide (Reported (s.closureEligibility scope) scope.scenario.stateRevision sampleClose) &&
      !(s.closureEligibility scope).eligible &&
        (s.closeIncident sampleUser "E" sampleClose).toOption.isSome

theorem sampleRun_closed :
    ∃ s, Trace.run (step id) (opening 0) sampleRun = some s ∧ sampleCheck s = true :=
  (Option.any_eq_true _ _).mp (by decide +kernel)

theorem resolution_sound_sampleRun :
    ∃ s, Trace.run (step id) (opening 0) sampleRun = some s ∧ s.Eligibility := by
  obtain ⟨s, hs, -⟩ := sampleRun_closed
  exact ⟨s, hs, (resolution_sound hs).2.1⟩

/-- Of a closed incident the answer is not eligible, and the request that closed it, which has the
ids that the answer reports, still succeeds. -/
theorem closed_not_eligible_replays :
    ∃ s scope r, Trace.run (step id) (opening 0) sampleRun = some s ∧
      s.resolutionScope sampleUser "E" = .ok scope ∧
      Reported (s.closureEligibility scope) scope.scenario.stateRevision sampleClose ∧
      (s.closureEligibility scope).eligible = false ∧
      s.closeIncident sampleUser "E" sampleClose = .ok r := by
  obtain ⟨s, hs, hcheck⟩ := sampleRun_closed
  unfold sampleCheck at hcheck
  split at hcheck
  · cases hcheck
  · rename_i scope hscope
    simp only [Bool.and_eq_true, decide_eq_true_eq, Bool.not_eq_true'] at hcheck
    obtain ⟨⟨hreported, heligible⟩, hclose⟩ := hcheck
    cases hr : s.closeIncident sampleUser "E" sampleClose with
    | error => rw [hr] at hclose; cases hclose
    | ok r => exact ⟨s, scope, r, hs, hscope, hreported, heligible, hr⟩

end ResolutionDesk

end LocalAgent.Runtime
