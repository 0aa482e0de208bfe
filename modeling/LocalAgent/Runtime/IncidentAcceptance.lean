import LocalAgent.Runtime.IncidentResolutionRuns

/-!
# LocalAgent.Runtime.IncidentAcceptance — which lists of cases `create_verification` accepts

A verification is refused for its list of cases or because one of its executions raises.

* `CIState.Sound`: what `execute` takes for granted of a state; actions keep it.
* `executeCases_total`: the executions of a verification do not raise.
* `Rooted`: in a run from templates every execution is of a case of its instance.
* `verification_accepted_iff`: alone a case can always be verified, as a group only the primary one.
-/

namespace LocalAgent.Runtime

namespace CIState

variable {state : CIState} {uuid5 : String → String}

/-- A known product, known buffers, and a report for the companion; the templates of scenarios and
of nightly slots have them. -/
def Sound (state : CIState) : Prop :=
  state.environment.softwareVersion ∈ productReleases.map Prod.fst ∧
  (∀ behavior ∈ state.environment.bufferBehavior,
    behavior ∈ ["compact", "legacy", "compatible"]) ∧
  ∀ companion ∈ state.regressionCompanion, companion.payloadMatchesGolden.isSome = true
  deriving Decidable

theorem head_caseIds : state.caseIds.head? = some state.testCase.caseId := by
  unfold caseIds caseCatalog
  split
  · rfl
  · dsimp only
    split_ifs <;> rfl

/-! ## Executions do not raise -/

theorem payload_of_related (h : state.Sound) {case : CICase} (hmem : case ∈ state.caseCatalog)
    (hne : case.caseId ≠ state.testCase.caseId) : case.payloadMatchesGolden.isSome = true := by
  unfold caseCatalog at hmem
  split at hmem
  · rename_i companion hcompanion
    rcases List.mem_pair.mp hmem with rfl | rfl
    · exact absurd rfl hne
    · exact h.2.2 _ hcompanion
  · dsimp only at hmem
    split_ifs at hmem
    all_goals
      rcases List.mem_pair.mp hmem with rfl | rfl
      · exact absurd rfl hne
      · rfl

theorem reportOf_total (h : state.Sound) {case : CICase} (hmem : case ∈ state.caseCatalog) :
    ∃ report, state.reportOf case = .ok report := by
  unfold reportOf
  split_ifs with hne
  · obtain ⟨matching, hmatching⟩ := Option.isSome_iff_exists.mp (payload_of_related h hmem hne)
    rw [hmatching]
    exact ⟨_, rfl⟩
  · exact ⟨_, rfl⟩

/-- Every finding of a sound state can be computed. -/
theorem findings_total (h : state.Sound) : ∃ release,
    productRelease state.environment.softwareVersion = .ok release ∧
      ∀ snapshot : CIState, snapshot.environment = state.environment →
        ∃ found, snapshot.findings release = .ok found := by
  obtain ⟨hrelease, hbuffer, -⟩ := h
  have hknown : ∀ version ∈ productReleases.map Prod.fst, ∃ release,
      productRelease version = .ok release ∧
        release.bufferBehavior ∈ ["compact", "legacy", "compatible"] := by
    simp [productReleases, productRelease, List.lookup_cons]
  have hallowed : ∀ behavior ∈ ["compact", "legacy", "compatible"],
      ∃ allowed, allowedBuffers behavior = .ok allowed := by
    simp [allowedBuffers, List.lookup_cons]
  obtain ⟨release, hfound, hbehavior⟩ := hknown _ hrelease
  refine ⟨release, hfound, fun snapshot henv => ?_⟩
  have hmem : state.environment.bufferBehavior.getD release.bufferBehavior ∈
      ["compact", "legacy", "compatible"] := by
    cases hb : state.environment.bufferBehavior with
    | none => exact hbehavior
    | some behavior => exact hbuffer behavior hb
  obtain ⟨allowed, hallowed⟩ := hallowed _ hmem
  unfold findings
  dsimp only
  rw [henv, hallowed, ok_bind]
  exact ⟨_, rfl⟩

/-- `execute` does not raise for a case of a sound state. -/
theorem execute_total (h : state.Sound) {caseId : String} (hcase : caseId ∈ state.caseIds)
    (executionId : String) (now : ℤ) :
    ∃ result, state.execute uuid5 executionId (some caseId) now = .ok result := by
  obtain ⟨case, hmem, rfl⟩ := List.mem_map.mp hcase
  obtain ⟨selected, hselected⟩ := Option.isSome_iff_exists.mp
    (List.find?_isSome (p := (·.caseId = case.caseId)).mpr ⟨case, hmem, decide_eq_true rfl⟩)
  obtain ⟨report, hreport⟩ := reportOf_total h (List.mem_of_find?_eq_some hselected)
  obtain ⟨release, hrelease, hfindings⟩ := findings_total h
  obtain ⟨snapshot, hsnapshot, henv⟩ : ∃ snapshot, state.snapshotOf executionId selected =
      .ok snapshot ∧ snapshot.environment = state.environment := by
    unfold snapshotOf
    rw [hreport, ok_bind]
    exact ⟨_, rfl, rfl⟩
  obtain ⟨found, hfound⟩ := hfindings snapshot henv
  unfold execute
  dsimp only
  rw [if_neg case.caseId_text, orRaise_ok.mpr hselected, ok_bind, hsnapshot, ok_bind, henv,
    hrelease, ok_bind, hfound, ok_bind]
  exact ⟨_, rfl⟩

/-- An execution is of a case of the state. -/
theorem execute_mem {executionId : String} {caseId : Option String} {now : ℤ}
    {result : ExecutionResult} (h : state.execute uuid5 executionId caseId now = .ok result) :
    result.executionSnapshot.testCase.caseId ∈ state.caseIds := by
  unfold execute at h
  obtain ⟨selected, hselected, h⟩ := bind_eq_ok.mp h
  obtain ⟨_, hsnapshot, h⟩ := bind_eq_ok.mp h
  obtain ⟨_, -, h⟩ := bind_eq_ok.mp h
  obtain ⟨_, -, h⟩ := bind_eq_ok.mp h
  cases h
  unfold snapshotOf at hsnapshot
  obtain ⟨_, -, hsnapshot⟩ := bind_eq_ok.mp hsnapshot
  cases hsnapshot
  rw [orRaise_ok] at hselected
  exact List.mem_map_of_mem (List.mem_of_find?_eq_some hselected)

/-! ## Actions -/

/-- What the actions write where `Sound` looks. -/
def Harmless (field : StateField) (after : FieldValue) : Prop :=
  (field = .softwareVersion → after = .text "product-2.1.1") ∧
  (field = .bufferBehavior → after = .text "compatible")

theorem writes_harmless {kind : ActionKind} {writes : List (StateField × FieldValue)}
    (h : state.writes kind = .ok writes) : ∀ w ∈ writes, Harmless w.1 w.2 := by
  unfold Harmless
  cases kind with
  | upgradeParserDecoder | setFeatureFlag =>
    cases h
    decide
  | refreshCaseInput =>
    obtain ⟨-, h⟩ := raiseIf_seq_ok.mp h
    obtain ⟨_, -, h⟩ := bind_eq_ok.mp h
    obtain ⟨-, h⟩ := raiseIf_seq_ok.mp h
    cases h
    decide
  | deliverProductFix =>
    obtain ⟨-, h⟩ := raiseIf_seq_ok.mp h
    cases h
    decide

/-- The cases of a state stay, and so does its soundness. -/
def Kept (state updated : CIState) : Prop :=
  updated.testCase.caseId = state.testCase.caseId ∧ updated.caseIds = state.caseIds ∧
    (state.Sound → updated.Sound)

/-- A harmless write keeps the state sound and its cases the same. -/
theorem kept_write {field : StateField} {after : FieldValue} (h : Harmless field after) :
    Kept state (state.write field after) := by
  have hcase : (state.write field after).testCase.caseId = state.testCase.caseId ∧
      (state.write field after).regressionCompanion = state.regressionCompanion := by
    unfold write
    split <;> exact ⟨rfl, rfl⟩
  refine ⟨hcase.1, ?_, fun ⟨hrelease, hbuffer, hcompanion⟩ => ⟨?_, ?_, hcase.2 ▸ hcompanion⟩⟩
  · unfold caseIds caseCatalog
    rw [hcase.2]
    split
    · simp only [List.map_cons, hcase.1]
    · simp only [hcase.1]
      split_ifs <;> simp only [List.map_cons, hcase.1]
  · unfold write
    split
    · cases h.1 rfl
      exact (by decide : "product-2.1.1" ∈ productReleases.map Prod.fst)
    all_goals exact hrelease
  · unfold write
    split
    case h_6 =>
      cases h.2 rfl
      rintro _ ⟨⟩
      decide
    all_goals exact hbuffer

/-- The changes of a preview keep the state sound. -/
theorem kept_changes {kind : ActionKind} {target : Option String}
    {parameters : ActionParameters} {frozen : ActionPreview}
    (hpreview : state.preview kind target parameters = .ok frozen) :
    Kept state (frozen.changes.foldl (fun u change => u.write change.field change.after) state) := by
  unfold preview at hpreview
  obtain ⟨-, hpreview⟩ := raiseIf_seq_ok.mp hpreview
  obtain ⟨-, hpreview⟩ := raiseIf_seq_ok.mp hpreview
  obtain ⟨writes, hwrites, hpreview⟩ := bind_eq_ok.mp hpreview
  obtain ⟨-, hpreview⟩ := raiseIf_seq_ok.mp hpreview
  cases hpreview
  refine List.foldlRecOn _ _ ⟨rfl, rfl, id⟩ fun u hu change hchange => ?_
  obtain ⟨w, hw, rfl⟩ := List.mem_map.mp hchange
  have hw := @kept_write u _ _ (writes_harmless hwrites w (List.mem_of_mem_filter hw))
  exact ⟨hw.1.trans hu.1, hw.2.1.trans hu.2.1, hw.2.2 ∘ hu.2.2⟩

end CIState

/-- The list that a mode wants. -/
def ResolutionScope.required (scope : ResolutionScope) : VerificationMode → List String
  | .single => [scope.origin.caseId]
  | .group => scope.scenario.currentState.caseIds

namespace ResolutionDesk

variable {s s' t desk : ResolutionDesk} {uuid5 : String → String} {principal : CIPrincipal}
  {incidentId instanceId : String} {row : ScenarioInstance} {scope : ResolutionScope}
  {ids : FreshIds} {body : VerificationIntent}

/-! ## Executions of a verification -/

/-- Whatever has the request of a case's execution is that execution. -/
def Answers (s : ResolutionDesk) (instanceId request caseId : String) (revision : ℕ) : Prop :=
  ∀ id e, s.executions.get? id = some e → e.instanceId = instanceId → e.requestId = request →
    e.caseId = caseId ∧ e.stateRevision = revision

/-- An execution of an owned instance succeeds. -/
theorem executeInstance_total (hrow : desk.ownedInstance principal instanceId = .ok row)
    (hsound : row.currentState.Sound) {request caseId : String}
    (hcase : caseId ∈ row.currentState.caseIds)
    (hanswers : desk.Answers instanceId request caseId row.stateRevision) (executionId : String) :
    ∃ r, desk.executeInstance uuid5 principal instanceId request (some caseId)
      (some row.stateRevision) executionId = .ok r := by
  unfold executeInstance
  rw [hrow, ok_bind]
  split
  · rename_i old hold
    obtain ⟨id, hid⟩ := Dict.mem_values_iff.mp (List.mem_of_find?_eq_some hold)
    have hfound := List.find?_some hold
    simp only [decide_eq_true_eq] at hfound
    obtain ⟨hsame, hrevision⟩ := hanswers id old hid hfound.1 hfound.2
    rw [raiseIf_of_not (by simp [hsame, hrevision]), ok_bind]
    exact ⟨_, rfl⟩
  · obtain ⟨result, hresult⟩ := CIState.execute_total hsound hcase executionId desk.now
    rw [raiseIf_of_not (by simp), ok_bind, raiseIf_of_not (by simp [hcase]), ok_bind, hresult,
      ok_bind]
    exact ⟨_, rfl⟩

/-- The executions of a list of cases succeed, one after the other. -/
theorem executeCases_total {verificationId : String} {executionIds : String → String}
    (hsound : row.currentState.Sound) : ∀ {cases : List String} {desk : ResolutionDesk},
    desk.ownedInstance principal instanceId = .ok row →
    (∀ a ∈ cases, a ∈ row.currentState.caseIds) →
    (∀ a ∈ cases, desk.Answers instanceId (uuid5 (verificationId ++ ":" ++ a)) a
      row.stateRevision) →
    (∀ a ∈ cases, ∀ b ∈ cases,
      uuid5 (verificationId ++ ":" ++ a) = uuid5 (verificationId ++ ":" ++ b) → a = b) →
    ∃ r, executeCases uuid5 principal instanceId verificationId row.stateRevision executionIds desk
      cases = .ok r
  | [], _, _, _, _, _ => ⟨_, rfl⟩
  | c :: cases, desk, hrow, hcases, hanswers, hdiff => by
    obtain ⟨⟨desk', execution, _⟩, hfirst⟩ := executeInstance_total hrow hsound
      (hcases c List.mem_cons_self) (hanswers c List.mem_cons_self) (executionIds c)
    obtain ⟨-, hrequest, hcase, hrevision, -, hwrites⟩ := executeInstance_cases hfirst
    have hlater : desk'.ownedInstance principal instanceId = .ok row ∧ ∀ d ∈ cases,
        desk'.Answers instanceId (uuid5 (verificationId ++ ":" ++ d)) d row.stateRevision := by
      rcases hwrites with ⟨rfl, -, -⟩ | ⟨-, rfl, -, -⟩
      · exact ⟨hrow, fun d hd => hanswers d (List.mem_cons_of_mem c hd)⟩
      · refine ⟨hrow, fun d hd => forall_set (hanswers d (List.mem_cons_of_mem c hd)) ?_⟩
        intro _ hsame
        have hsame := hdiff c List.mem_cons_self d (List.mem_cons_of_mem c hd)
          (hrequest.symm.trans hsame)
        exact ⟨(hcase c rfl).trans hsame, hrevision _ rfl⟩
    obtain ⟨⟨_, _⟩, hrest⟩ := executeCases_total hsound hlater.1
      (fun a ha => hcases a (List.mem_cons_of_mem c ha)) hlater.2
      fun a ha b hb => hdiff a (List.mem_cons_of_mem c ha) b (List.mem_cons_of_mem c hb)
    rw [executeCases, hfirst, ok_bind]
    dsimp only
    rw [hrest, ok_bind]
    exact ⟨_, rfl⟩

/-! ## Lists -/

theorem bind_pure_total {ε α β : Type} {x : Except ε α} {f : α → β} (h : ∃ a, x = .ok a) :
    ∃ b, (x >>= fun a => pure (f a)) = .ok b := by
  obtain ⟨a, rfl⟩ := h
  exact ⟨f a, rfl⟩

/-- A new verification is accepted only for the list of its mode. -/
theorem createVerification_list {r : ResolutionDesk × VerificationPayload}
    (hscope : t.resolutionScope principal incidentId = .ok scope)
    (hnew : t.verificationOf incidentId body.requestId = none)
    (h : t.createVerification uuid5 principal incidentId body ids.object ids.executions = .ok r) :
    scope.scenario.stateRevision = body.expectedStateRevision ∧
      body.caseIds = scope.required body.mode ∧
      (scope.required body.mode).head? = some scope.origin.caseId := by
  unfold createVerification at h
  rw [hscope, ok_bind, hnew] at h
  obtain ⟨-, h⟩ := raiseIf_seq_ok.mp h
  obtain ⟨hrevision, h⟩ := raiseIf_seq_ok.mp h
  obtain ⟨hlist, -⟩ := raiseIf_seq_ok.mp h
  push Not at hrevision hlist
  exact ⟨hrevision, hlist⟩

/-- No execution has a request that the cases of the new verification will have. -/
def NewRequests (s : ResolutionDesk) (uuid5 : String → String) (scope : ResolutionScope)
    (ids : FreshIds) : Prop :=
  ∀ a ∈ scope.scenario.currentState.caseIds,
    (s.executionOf scope.instanceId (uuid5 (ids.object ++ ":" ++ a))).isNone = true ∧
    ∀ b ∈ scope.scenario.currentState.caseIds,
      uuid5 (ids.object ++ ":" ++ a) = uuid5 (ids.object ++ ":" ++ b) → a = b
  deriving Decidable

/-! ## Instances of templates -/

/-- An instance comes from a template, and a nightly execution is of a case of its instance. -/
def Templated (s : ResolutionDesk) : ResolutionAction → Prop
  | .createInstance _ row => row.currentState.Sound
  | .nightlyCase execution _ => ∃ row ∈ s.instances.get? execution.instanceId,
      execution.caseId ∈ row.currentState.caseIds
  | .call _ _ _ | .tick _ => True

instance : DecidablePred s.Templated
  | .createInstance _ row => inferInstanceAs (Decidable row.currentState.Sound)
  | .nightlyCase _ _ => inferInstanceAs (Decidable (∃ row ∈ _, _))
  | .call _ _ _ | .tick _ => inferInstanceAs (Decidable True)

/-- Every instance is sound, and every execution of a case of its instance. -/
structure Rooted (s : ResolutionDesk) : Prop where
  sound : ∀ id row, s.instances.get? id = some row → row.currentState.Sound
  cases : ∀ id e, s.executions.get? id = some e →
    ∃ row ∈ s.instances.get? e.instanceId, e.caseId ∈ row.currentState.caseIds

namespace Rooted

theorem executeInstance {requestId executionId : String} {caseId : Option String}
    {expected : Option ℕ} {execution : CIExecution} {created : Bool} (h : s.Rooted)
    (hrun : s.executeInstance uuid5 principal instanceId requestId caseId expected executionId =
      .ok (s', execution, created)) : s'.Rooted := by
  unfold ResolutionDesk.executeInstance at hrun
  obtain ⟨row, hrow, hrun⟩ := bind_eq_ok.mp hrun
  split at hrun
  · obtain ⟨-, hrun⟩ := raiseIf_seq_ok.mp hrun
    cases hrun
    exact h
  · obtain ⟨-, hrun⟩ := raiseIf_seq_ok.mp hrun
    obtain ⟨-, hrun⟩ := raiseIf_seq_ok.mp hrun
    obtain ⟨_, hresult, hrun⟩ := bind_eq_ok.mp hrun
    cases hrun
    refine ⟨h.sound, forall_set h.cases ⟨row, ?_, CIState.execute_mem hresult⟩⟩
    unfold ownedInstance at hrow
    split at hrow
    · cases hrow
    · split at hrow <;> cases hrow
      assumption

/-- One case after the other. -/
theorem executeCases {verificationId : String} {revision : ℕ} {executionIds : String → String} :
    ∀ {cases : List String} {s s' : ResolutionDesk} {executions : List CIExecution},
      s.Rooted → executeCases uuid5 principal instanceId verificationId revision executionIds s
        cases = .ok (s', executions) → s'.Rooted
  | [], _, _, _, h, hrun => by
    obtain ⟨rfl, -⟩ := Prod.ext_iff.mp (Except.ok.inj hrun)
    exact h
  | _ :: _, _, _, _, h, hrun => by
    rw [ResolutionDesk.executeCases] at hrun
    obtain ⟨⟨_, _, _⟩, hfirst, hrun⟩ := bind_eq_ok.mp hrun
    obtain ⟨⟨_, _⟩, hrest, hrun⟩ := bind_eq_ok.mp hrun
    obtain ⟨rfl, -⟩ := Prod.ext_iff.mp (Except.ok.inj hrun)
    exact (h.executeInstance hfirst).executeCases hrest

/-- A confirmed action keeps the cases of its instance. -/
theorem applies {actionId : String} {row : IncidentAction} {result : ActionResult}
    {updated : CIState} (h : s.Rooted) (hscope : s.resolutionScope principal incidentId = .ok scope)
    (happlies : Applies s s' incidentId actionId row result scope updated) : s'.Rooted := by
  obtain ⟨-, -, -, -, -, -, hinst, -⟩ := resolutionScope_ok hscope
  obtain ⟨-, hcases, hsound⟩ := happlies.changed ▸ CIState.kept_changes happlies.same
  rw [happlies.writes]
  refine ⟨forall_set h.sound (hsound (h.sound _ _ hinst)), fun id e he => ?_⟩
  obtain ⟨found, hfound, hcase⟩ := h.cases id e he
  by_cases hid : e.instanceId = scope.instanceId
  · rw [hid] at hfound
    cases Option.mem_unique hfound hinst
    exact ⟨_, (Dict.get?_set _ _ _ _).trans (if_pos hid), hcases ▸ hcase⟩
  · exact ⟨found, (Dict.get?_set _ _ _ _).trans ((if_neg hid).trans hfound), hcase⟩

theorem does {call : ResolutionCall} (h : s.Rooted) (hdoes : Does s uuid5 principal ids call s') :
    s'.Rooted := by
  cases hdoes with
  | nothing => exact h
  | executed hrun => exact h.executeInstance hrun
  | failed hrun => exact ⟨(h.executeInstance hrun).sound, (h.executeInstance hrun).cases⟩
  | drafted hdraft =>
    rw [hdraft.writes]
    exact ⟨h.sound, h.cases⟩
  | applied hscope happlies => exact h.applies hscope happlies
  | verified hverifies =>
    obtain ⟨_, _, _, -, -, hruns, rfl, -⟩ := hverifies.runs
    exact ⟨(h.executeCases hruns).sound, (h.executeCases hruns).cases⟩
  | closed _ hcloses =>
    rw [hcloses.writes]
    exact ⟨h.sound, h.cases⟩

theorem step {a : ResolutionAction} (h : s.Rooted) (ha : s.Templated a)
    (hstep : s.step uuid5 a = some s') : s'.Rooted := by
  cases step_cases hstep with
  | answered _ hdoes => exact h.does hdoes
  | refused => exact h
  | created hnew =>
    refine ⟨forall_set h.sound ha, fun id e he => ?_⟩
    obtain ⟨row, hrow, hcase⟩ := h.cases id e he
    exact ⟨row, get?_set_of_fresh hnew hrow, hcase⟩
  | @nightly _ incident => cases incident <;> exact ⟨h.sound, forall_set h.cases ha⟩
  | ticked => exact ⟨h.sound, h.cases⟩

end Rooted

/-- **Accepted verifications.**  A new verification of an open incident is accepted exactly for the
list of its mode, and as a group only when the incident is of the primary case. -/
theorem verification_accepted_iff {now : ℤ} {acts : List ResolutionAction}
    (hrun : Trace.run (step uuid5) (opening now) acts = some t)
    (htemplates : Trace.Along (step uuid5) Templated (opening now) acts)
    (hscope : t.resolutionScope principal incidentId = .ok scope)
    (hopen : scope.incident.status.closure = none)
    (hfresh : t.IsFresh ids (.createVerification incidentId body))
    (hnew : t.verificationOf incidentId body.requestId = none)
    (hrequests : t.NewRequests uuid5 scope ids) :
    (∃ r, t.createVerification uuid5 principal incidentId body ids.object ids.executions =
      .ok r) ↔ scope.scenario.stateRevision = body.expectedStateRevision ∧
        body.caseIds = scope.required body.mode ∧ (body.mode = .group →
          scope.origin.caseId = scope.scenario.currentState.testCase.caseId) := by
  obtain ⟨-, -, -, -, horigin, hinstance, hinst, howner⟩ := resolutionScope_ok hscope
  have hrooted : t.Rooted := Trace.run_keeps (P := Rooted) (fun _ _ _ ha hstep h => h.step ha hstep)
    htemplates hrun ⟨fun _ _ h => (nomatch h), fun _ _ h => (nomatch h)⟩
  have hsound := hrooted.sound _ _ hinst
  obtain ⟨_, hfound, hcase⟩ := hrooted.cases _ _ horigin
  rw [← hinstance] at hfound
  cases Option.mem_unique hfound hinst
  have hhead : (scope.required body.mode).head? = some scope.origin.caseId ↔
      (body.mode = .group →
        scope.origin.caseId = scope.scenario.currentState.testCase.caseId) := by
    cases body.mode with
    | single => exact ⟨fun _ => nofun, fun _ => rfl⟩
    | group =>
      rw [ResolutionScope.required, CIState.head_caseIds]
      exact ⟨fun h _ => (Option.some.inj h).symm, fun h => congrArg some (h rfl).symm⟩
  rw [← hhead]
  clear hhead
  refine ⟨fun ⟨_, h⟩ => createVerification_list hscope hnew h, ?_⟩
  rintro ⟨hrevision, hlist, hhead⟩
  have hrow : t.ownedInstance principal scope.instanceId = .ok scope.scenario := by
    unfold ownedInstance
    rw [hinst]
    exact if_pos howner
  have hmem : ∀ a ∈ scope.required body.mode, a ∈ scope.scenario.currentState.caseIds := by
    cases body.mode with
    | single => exact List.forall_mem_singleton.mpr hcase
    | group => exact fun _ h => h
  have htotal : ∃ r, executeCases uuid5 principal scope.instanceId ids.object
      scope.scenario.stateRevision ids.executions t (scope.required body.mode) = .ok r :=
    executeCases_total hsound hrow hmem
      (fun a ha id e he hinst hrequest => of_decide_eq_false
        (not_found (Option.isNone_iff_eq_none.mp (hrequests a (hmem a ha)).1) he)
        ⟨hinst, hrequest⟩ |>.elim)
      fun a ha b hb => (hrequests a (hmem a ha)).2 b (hmem b hb)
  obtain ⟨⟨desk, executions⟩, hruns⟩ := htotal
  obtain ⟨-, -, -, -, hexecutions⟩ := hfresh
  rw [ResolutionCall.caseIds, hlist] at hexecutions
  have hmade := executeCases_run hruns (run_keeps (inv_opening now) hrun).1
    (fun c hc => .inl (hexecutions c hc).1) fun a ha => (hexecutions a ha).2
  obtain ⟨requestId, mode, caseIds, expected⟩ := body
  unfold createVerification
  rw [hscope, ok_bind, hnew]
  cases mode with
  | single | group =>
    dsimp only [ResolutionScope.required] at hlist hhead hruns hmade ⊢
    rw [raiseIf_of_not (by simp [hopen]), ok_bind, raiseIf_of_not (not_not.mpr hrevision), ok_bind,
      raiseIf_of_not (not_or.mpr ⟨not_not.mpr hlist, not_not.mpr hhead⟩), ok_bind, hruns, ok_bind]
    exact bind_pure_total (verificationPayload_ok scope.origin (hmade.covers rfl rfl))

/-! ## An incident of the companion -/

/-- A slot of a nightly plan, whose companion wants the flag off. -/
def companionState : CIState := { sampleState with
  environment := { sampleState.environment with environmentId := "env-config", ip := "192.0.2.23" }
  testCase := { sampleState.testCase with
    caseId := "case-report-health", featureId := "feature-report-health"
    goldenId := "golden-case-report-health", goldenVersion := "1", compressedTransport := none
    payloadMatchesGolden := some true, reportFieldRevision := some 2
    caseId_text := reportHealth_text }
  regressionCompanion := some { sampleState.testCase with
    payloadMatchesGolden := some true, reportFieldRevision := some 2 } }

def companionRun : List ResolutionAction := [
  .createInstance "I" ⟨"tenant", "user", 1, companionState⟩,
  .call sampleUser (sampleIds "E") (.execute "I" "run" (some "case-legacy-report") none)]

def companionIntent : VerificationIntent := ⟨"one", .single, ["case-legacy-report"], 1⟩

/-- What is to be decided of the incident that the run raises. -/
def CompanionOpen (s : ResolutionDesk) (scope : ResolutionScope) : Prop :=
  scope.incident.status.closure.isNone = true ∧
    scope.origin.caseId = "case-legacy-report" ∧ scope.scenario.stateRevision = 1 ∧
    scope.scenario.currentState.caseIds = ["case-report-health", "case-legacy-report"] ∧
    s.IsFresh (sampleIds "S") (.createVerification "E" companionIntent) ∧
    s.NewRequests id scope (sampleIds "S") ∧ s.verifications.values.isEmpty = true
  deriving Decidable

theorem companionRun_open : ∃ s scope, Trace.run (step id) (opening 0) companionRun = some s ∧
    s.resolutionScope sampleUser "E" = .ok scope ∧ s.CompanionOpen scope := by
  obtain ⟨s, hs, hcheck⟩ := (Option.any_eq_true
    (fun s => (s.resolutionScope sampleUser "E").toOption.any fun scope =>
      decide (s.CompanionOpen scope)) (Trace.run (step id) (opening 0) companionRun)).mp
    (by decide +kernel)
  cases hscope : s.resolutionScope sampleUser "E" with
  | error => rw [hscope] at hcheck; cases hcheck
  | ok scope =>
    rw [hscope] at hcheck
    exact ⟨s, scope, hs, hscope, of_decide_eq_true hcheck⟩

theorem verificationOf_isEmpty (h : s.verifications.values.isEmpty = true) (requestId : String) :
    s.verificationOf incidentId requestId = none := by
  rw [verificationOf, List.isEmpty_iff.mp h]
  rfl

theorem verification_accepted_iff_companionRun : ∃ s r,
    Trace.run (step id) (opening 0) companionRun = some s ∧
      s.createVerification id sampleUser "E" companionIntent "S" (sampleIds "S").executions =
        .ok r := by
  obtain ⟨s, scope, hs, hscope, hopen, horigin, hrevision, -, hfresh, hrequests, hempty⟩ :=
    companionRun_open
  obtain ⟨r, hr⟩ := (verification_accepted_iff hs (by decide +kernel) hscope
    (Option.isNone_iff_eq_none.mp hopen) hfresh (verificationOf_isEmpty hempty _) hrequests).mpr
    ⟨hrevision, congrArg (fun c => [c]) horigin.symm, nofun⟩
  exact ⟨s, r, hs, hr⟩

/-- The incident of the companion is open, and no list verifies it as a group. -/
theorem companion_group_rejected : ∃ s scope,
    Trace.run (step id) (opening 0) companionRun = some s ∧
      s.resolutionScope sampleUser "E" = .ok scope ∧
      scope.incident.status.closure.isNone = true ∧
      ∀ (body : VerificationIntent) (ids : FreshIds) r, body.mode = .group →
        s.createVerification id sampleUser "E" body ids.object ids.executions ≠ .ok r := by
  obtain ⟨s, scope, hs, hscope, hopen, horigin, -, hcases, -, -, hempty⟩ := companionRun_open
  refine ⟨s, scope, hs, hscope, hopen, fun body ids r hgroup h => ?_⟩
  obtain ⟨-, -, hhead⟩ := createVerification_list hscope (verificationOf_isEmpty hempty _) h
  rw [hgroup, ResolutionScope.required, hcases, horigin] at hhead
  exact absurd hhead (by decide)

end ResolutionDesk

end LocalAgent.Runtime
