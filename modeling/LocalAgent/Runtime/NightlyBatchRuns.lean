import LocalAgent.Runtime.NightlyBatchSteps

/-!
# LocalAgent.Runtime.NightlyBatchRuns — the histories of nightly batches

* `Nightly.Grows`, `Nightly.Evolves`: a later state of a batch.
* `Nightly.Kept.advanceStep_recorded`, `Nightly.Grows.recorded`: a step that was taken is recorded,
  and what a repeated step returns stays the same.
* `summarize_balanced`, `Nightly.Kept.originalFacts`: the counts agree, over the executed facts.
* `NightlyDesk.nightly_history_sound`: all of it over histories of `create`, `clock`, `advance`.
-/

namespace LocalAgent.Runtime

variable {slot : NightlySlot} {e : NightlyExecution}

section Histories

variable {night night' night'' : Nightly} {v v' version : NightlyVersion} {userId : String}
  {result : NightlyResult} {uuid5 : String → String} {stamp : NightlyStamp} {step : NightlyStep}
  {stamps : String → NightlyStamp}

/-! ## Later states of a batch -/

/-- A later state of a version: what is frozen or was recorded stays. -/
structure NightlyVersion.Continues (v v' : NightlyVersion) : Prop where
  id : v'.versionExecutionId = v.versionExecutionId
  environmentId : v'.environmentId = v.environmentId
  ownerUserId : v'.ownerUserId = v.ownerUserId
  ordinal : v'.ordinal = v.ordinal
  softwareVersion : v'.softwareVersion = v.softwareVersion
  frozenCases : v'.frozenCases = v.frozenCases
  nextCaseIndex : v.nextCaseIndex ≤ v'.nextCaseIndex
  started : v.status ≠ .pending →
    v'.status ≠ .pending ∧ v'.startedBusinessAt = v.startedBusinessAt
  completed : v.status = .completed → v' = v

/-- A later state of a batch: time goes on, rows are only added. -/
structure Nightly.Grows (night night' : Nightly) : Prop where
  batchId : night'.batch.batchId = night.batch.batchId
  businessDate : night'.batch.businessDate = night.batch.businessDate
  clock : night.batch.simulatedNow ≤ night'.batch.simulatedNow
  executions : night.executions <+: night'.executions
  incidents : night.incidents <+: night'.incidents
  versions : ∀ v ∈ night.versions, ∃ v' ∈ night'.versions, v.Continues v'

theorem NightlyVersion.Continues.refl : v.Continues v :=
  ⟨rfl, rfl, rfl, rfl, rfl, rfl, le_rfl, fun h => ⟨h, rfl⟩, fun _ => rfl⟩

theorem NightlyVersion.Continues.trans {v'' : NightlyVersion} (h : v.Continues v')
    (h' : v'.Continues v'') : v.Continues v'' where
  id := h'.id.trans h.id
  environmentId := h'.environmentId.trans h.environmentId
  ownerUserId := h'.ownerUserId.trans h.ownerUserId
  ordinal := h'.ordinal.trans h.ordinal
  softwareVersion := h'.softwareVersion.trans h.softwareVersion
  frozenCases := h'.frozenCases.trans h.frozenCases
  nextCaseIndex := h.nextCaseIndex.trans h'.nextCaseIndex
  started := fun hstarted =>
    have hnext := h.started hstarted
    ⟨(h'.started hnext.1).1, (h'.started hnext.1).2.trans hnext.2⟩
  completed := fun hdone => by
    cases h.completed hdone
    exact h'.completed hdone

theorem Nightly.Grows.refl : night.Grows night :=
  ⟨rfl, rfl, le_rfl, List.prefix_rfl, List.prefix_rfl, fun v hv => ⟨v, hv, .refl⟩⟩

theorem Nightly.Grows.trans (h : night.Grows night') (h' : night'.Grows night'') :
    night.Grows night'' where
  batchId := h'.batchId.trans h.batchId
  businessDate := h'.businessDate.trans h.businessDate
  clock := h.clock.trans h'.clock
  executions := h.executions.trans h'.executions
  incidents := h.incidents.trans h'.incidents
  versions := fun v hv => by
    obtain ⟨v', hv', hnext⟩ := h.versions v hv
    obtain ⟨v'', hv'', hlater⟩ := h'.versions v' hv'
    exact ⟨v'', hv'', hnext.trans hlater⟩

theorem Nightly.setVersion_versions (hnodup : (night.versions.map (·.versionExecutionId)).Nodup)
    (hmem : version ∈ night.versions) (h : version.Continues v') :
    ∀ v ∈ night.versions, ∃ w ∈ (night.setVersion v').versions, v.Continues w := by
  intro v hv
  by_cases hid : v.versionExecutionId = version.versionExecutionId
  · cases eq_of_id hnodup hv hmem hid
    exact ⟨v', mem_setVersion_self hv h.id.symm, h⟩
  · exact ⟨v, mem_setVersion_of_ne hv (by rwa [h.id]), .refl⟩

theorem Nightly.Started.grows (h : night.Started night' version userId result)
    (hkept : night.Kept) (hmem : version ∈ night.versions) : night.Grows night' := by
  rw [h.state]
  refine ⟨rfl, rfl, le_rfl, List.prefix_rfl, List.prefix_rfl,
    setVersion_versions hkept.ids_nodup hmem ?_⟩
  exact ⟨rfl, rfl, rfl, rfl, rfl, rfl, le_rfl, fun hne => absurd h.pending hne,
    fun hdone => absurd (h.pending.symm.trans hdone) (by simp)⟩

variable {caseId : String} {due now : ℤ} {execution : NightlyExecution}

/-- The execution of a case only adds to the night. -/
theorem Nightly.Executed.grows
    (h : night.Executed night' version caseId result slot due execution stamp)
    (hkept : night.Kept) (hmem : version ∈ night.versions) : night.Grows night' := by
  rw [h.state]
  refine ⟨rfl, rfl, le_rfl, List.prefix_append _ _, List.prefix_append _ _,
    setVersion_versions hkept.ids_nodup hmem ?_⟩
  exact ⟨caseDone_id, caseDone_environmentId, caseDone_ownerUserId, caseDone_ordinal,
    caseDone_softwareVersion, caseDone_frozenCases, by simp,
    fun _ => ⟨caseDone_started h.running, caseDone_startedBusinessAt⟩,
    fun hdone => absurd (h.running.symm.trans hdone) (by simp)⟩

theorem Nightly.Kept.advanceStep_grows (hkept : night.Kept)
    (h : night.advanceStep uuid5 userId stamp step = .ok (night', result)) :
    night.Grows night' := by
  rcases advanceStep_cases h with ⟨-, rfl⟩ | ⟨-, _, hmem, -, ⟨-, hstarted⟩ |
    ⟨_, _, _, _, -, -, hexecuted⟩⟩
  · exact .refl
  · exact hstarted.grows hkept hmem
  · exact hexecuted.grows hkept hmem

/-! ## Recorded facts -/

theorem Nightly.executionOf_some {id : String} (h : night.executionOf id caseId = some e) :
    e ∈ night.executions ∧ e.nightlyVersionExecutionId = id ∧ e.caseId = caseId :=
  ⟨List.mem_of_find?_eq_some h, by simpa using List.find?_some h⟩

theorem Nightly.Grows.incidentOf (h : night.Grows night') (hkept : night.Kept)
    (hkept' : night'.Kept) (he : e ∈ night.executions) :
    night'.incidentOf e.executionId = night.incidentOf e.executionId := by
  obtain ⟨_, hadded⟩ := h.incidents
  cases hfound : night.incidentOf e.executionId with
  | some =>
    unfold Nightly.incidentOf at hfound ⊢
    rw [← hadded, List.find?_append, hfound]
    rfl
  | none =>
    have hempty : night.incidents.filter (·.executionId = e.executionId) = [] :=
      List.filter_eq_nil_iff.mpr fun i hi => List.find?_eq_none.mp hfound i hi
    obtain ⟨v, hv, hid⟩ := hkept.known e he
    obtain ⟨v', hv', hnext⟩ := h.versions v hv
    have hreported := hkept.reported e he v hv hid
    rw [hempty] at hreported
    have hpass : e.result.outcome ≠ .fail := fun hfail => by simp [hfail] at hreported
    have hreported' := hkept'.reported e (h.executions.subset he) v' hv' (hnext.id.trans hid)
    rw [if_neg hpass, List.map_eq_nil_iff, List.filter_eq_nil_iff] at hreported'
    exact List.find?_eq_none.mpr hreported'

variable {fact : NightlyResult}

/-- A fact that is recorded is recorded in every grown night. -/
theorem Nightly.Grows.recorded (h : night.Grows night') (hkept : night.Kept)
    (hkept' : night'.Kept) (hfact : night.recorded step = some fact) :
    night'.recorded step = some fact := by
  cases step with
  | start =>
    simp only [Nightly.recorded, Option.bind_eq_some_iff] at hfact ⊢
    obtain ⟨v, hfound, hfact⟩ := hfact
    obtain ⟨hv, rfl⟩ := versionOf_some hfound
    split_ifs at hfact with hstarted
    obtain ⟨v', hv', hnext⟩ := h.versions v hv
    refine ⟨v', hnext.id ▸ versionOf_mem hkept'.ids_nodup hv', ?_⟩
    rwa [if_pos (hnext.started hstarted).1, (hnext.started hstarted).2]
  | completeCase =>
    simp only [Nightly.recorded, Option.bind_eq_some_iff, Option.map_eq_some_iff] at hfact ⊢
    obtain ⟨v, hfound, old, hold, rfl⟩ := hfact
    obtain ⟨hv, rfl⟩ := versionOf_some hfound
    obtain ⟨v', hv', hnext⟩ := h.versions v hv
    obtain ⟨_, hadded⟩ := h.executions
    refine ⟨v', hnext.id ▸ versionOf_mem hkept'.ids_nodup hv', old, ?_, ?_⟩
    · unfold executionOf at hold ⊢
      rw [← hadded, List.find?_append, hold]
      rfl
    · rw [h.incidentOf hkept hkept' (executionOf_some hold).1]
      simp [NightlyFact.payload, hnext.id, hnext.environmentId, hnext.ownerUserId,
        hnext.softwareVersion]

/-- The same result, as a repeated step returns it. -/
def NightlyResult.again : NightlyResult → NightlyResult
  | .started id startedBusinessAt _ => .started id startedBusinessAt true
  | .fact payload _ => .fact payload true

theorem Nightly.recorded_again (h : night.recorded step = some fact) : fact.again = fact := by
  cases step with
  | start =>
    simp only [recorded, Option.bind_eq_some_iff] at h
    obtain ⟨v, -, h⟩ := h
    split_ifs at h
    cases h
    rfl
  | completeCase =>
    simp only [recorded, Option.bind_eq_some_iff, Option.map_eq_some_iff] at h
    obtain ⟨v, -, _, -, rfl⟩ := h
    rfl

theorem Nightly.Started.recorded (h : night.Started night' version userId result)
    (hkept : night'.Kept) (hmem : version ∈ night.versions) :
    night'.recorded (.start version.versionExecutionId) = some result.again := by
  have hself : night.startedVersion userId version ∈ night'.versions := by
    rw [h.state]
    exact mem_setVersion_self hmem rfl
  have hfound : night'.versionOf version.versionExecutionId =
      some (night.startedVersion userId version) := versionOf_mem hkept.ids_nodup hself
  simp [Nightly.recorded, hfound, h.result, NightlyResult.again, startedVersion]

/-- After its execution a case is recorded with its result. -/
theorem Nightly.Executed.recorded
    (h : night.Executed night' version caseId result slot due execution stamp)
    (hkept : night.Kept) (hkept' : night'.Kept) (hmem : version ∈ night.versions)
    (hnone : night.executionOf version.versionExecutionId caseId = none) :
    night'.recorded (.completeCase version.versionExecutionId caseId) = some result.again := by
  have hself : night.caseDone version ∈ night'.versions := by
    rw [h.state]
    exact mem_setVersion_self hmem (by simp)
  have hfound : night'.versionOf version.versionExecutionId =
      some (night.caseDone version) := by
    simpa using versionOf_mem hkept'.ids_nodup hself
  have hexecution : night'.executionOf version.versionExecutionId caseId = some execution := by
    rw [h.state]
    show (night.executions ++ [execution]).find? _ = _
    unfold executionOf at hnone
    rw [List.find?_append, hnone]
    simp [h.ofVersion, h.caseId, h.case]
  have hincident : night'.incidentOf execution.executionId =
      night.failureIncident version execution stamp := by
    rw [h.state]
    show (night.incidents ++ (night.failureIncident version execution stamp).toList).find? _ = _
    rw [List.find?_append, List.find?_eq_none.mpr
      (List.filter_eq_nil_iff.mp (h.no_incident hkept)), Option.none_or]
    unfold failureIncident
    split_ifs <;> simp
  simp [Nightly.recorded, hfound, hexecution, hincident, h.result, NightlyResult.again,
    NightlyFact.payload]

theorem Nightly.Kept.advanceStep_recorded (hkept : night.Kept)
    (h : night.advanceStep uuid5 userId stamp step = .ok (night', result)) :
    night'.recorded step = some result.again := by
  have hkept' := hkept.advanceStep h
  rcases advanceStep_cases h with ⟨hfact, rfl⟩ | ⟨-, _, hmem, -, ⟨rfl, hstarted⟩ |
    ⟨_, _, _, _, rfl, hnone, hexecuted⟩⟩
  · rw [hfact, recorded_again hfact]
  · exact hstarted.recorded hkept' hmem
  · exact hexecuted.recorded hkept hkept' hmem hnone

/-- A recorded step is answered from its record and nothing is written. -/
theorem Nightly.advanceStep_of_recorded (h : night.recorded step = some fact) :
    night.advanceStep uuid5 userId stamp step = .ok (night, fact) := by
  have hversion : ∃ v, night.versionOf step.versionExecutionId = some v := by
    cases step with
    | start | completeCase =>
      simp only [recorded, Option.bind_eq_some_iff] at h
      obtain ⟨v, hv, -⟩ := h
      exact ⟨v, hv⟩
  obtain ⟨v, hv⟩ := hversion
  unfold advanceStep
  rw [hv, h]
  rfl

/-! ## Calls on a batch -/

/-- The steps of one request, one after the other. -/
theorem Nightly.Kept.advanceSteps : ∀ {steps : List NightlyStep} {night night' : Nightly}
    {results : List NightlyResult}, night.Kept →
    Nightly.advanceSteps uuid5 userId stamps night steps = .ok (night', results) →
    night'.Kept ∧ night.Grows night' ∧ (night.batch.status = .completed → night' = night) ∧
      List.Forall₂ (fun step result => night'.recorded step = some result.again) steps results
  | [], night, night', results, hkept, h => by
    cases h
    exact ⟨hkept, .refl, fun _ => rfl, .nil⟩
  | step :: steps, night, night', results, hkept, h => by
    simp only [Nightly.advanceSteps, bind_eq_ok] at h
    obtain ⟨⟨_, _⟩, hfirst, ⟨_, _⟩, hrest, h⟩ := h
    cases h
    have hkept' := hkept.advanceStep hfirst
    have ⟨hlast, hgrows, hsame, hresults⟩ := Nightly.Kept.advanceSteps hkept' hrest
    refine ⟨hlast, (hkept.advanceStep_grows hfirst).trans hgrows, fun hdone => ?_, ?_⟩
    · rcases advanceStep_cases hfirst with ⟨-, rfl⟩ | ⟨hopen, -⟩
      · exact hsame hdone
      · exact absurd hdone hopen
    · exact .cons (hgrows.recorded hkept' hlast (hkept.advanceStep_recorded hfirst)) hresults

/-- A request whose steps are all recorded reads its answers back. -/
theorem Nightly.advanceSteps_of_recorded : ∀ {steps : List NightlyStep},
    (∀ step ∈ steps, (night.recorded step).isSome) →
    Nightly.advanceSteps uuid5 userId stamps night steps =
      .ok (night, steps.filterMap night.recorded)
  | [], _ => rfl
  | step :: steps, h => by
    obtain ⟨_, hfact⟩ := Option.isSome_iff_exists.mp (h step List.mem_cons_self)
    simp only [Nightly.advanceSteps, advanceStep_of_recorded hfact, ok_bind,
      advanceSteps_of_recorded fun s hs => h s (List.mem_cons_of_mem _ hs),
      List.filterMap_cons_some hfact]
    rfl

/-- A later state between two calls: rows are only added, and a completed batch stays as it is. -/
structure Nightly.Evolves (night night' : Nightly) : Prop extends night.Grows night' where
  frozen : night.batch.status = .completed → night' = night

theorem Nightly.Evolves.refl : night.Evolves night := ⟨.refl, fun _ => rfl⟩

theorem Nightly.Evolves.trans (h : night.Evolves night') (h' : night'.Evolves night'') :
    night.Evolves night'' :=
  ⟨h.toGrows.trans h'.toGrows, fun hdone => by
    cases h.frozen hdone
    exact h'.frozen hdone⟩

theorem Nightly.sealBatch_grows (h : night.sealBatch now = .ok night') :
    night.Grows night' ∧ (night.batch.status = .completed → night' = night) := by
  rcases sealBatch_ok h with ⟨rfl, -⟩ | ⟨hopen, -, rfl⟩
  · exact ⟨.refl, fun _ => rfl⟩
  · exact ⟨⟨rfl, rfl, le_rfl, List.prefix_rfl, List.prefix_rfl, fun v hv => ⟨v, hv, .refl⟩⟩,
      fun hdone => absurd hdone hopen⟩

theorem Nightly.sealBatch_recorded (h : night.sealBatch now = .ok night') :
    night'.recorded step = night.recorded step := by
  rcases sealBatch_ok h with ⟨rfl, -⟩ | ⟨-, -, rfl⟩
  · rfl
  · cases step <;> rfl

section Advance

variable {principal : NightlyPrincipal} {steps : List NightlyStep} {sealedAt : ℤ}
  {results : List NightlyResult}

def callOrder (steps : List NightlyStep) : List NightlyStep :=
  steps.insertionSort fun a b => a.versionExecutionId ≤ b.versionExecutionId

theorem Nightly.advance_ok
    (h : night.advance uuid5 principal steps stamps sealedAt = .ok (night', results)) :
    ∃ advanced, Nightly.advanceSteps uuid5 principal.userId stamps night (callOrder steps) =
      .ok (advanced, results) ∧ advanced.sealBatch sealedAt = .ok night' := by
  simp only [advance, bind_eq_ok] at h
  obtain ⟨⟨⟩, -, _, -, ⟨⟩, -, ⟨advanced, _⟩, hsteps, _, hseal, h⟩ := h
  cases h
  exact ⟨advanced, hsteps, hseal⟩

/-- An advance keeps the night sound, lets it evolve and records every step that it answers. -/
theorem Nightly.Sound.advance (hsound : night.Sound)
    (h : night.advance uuid5 principal steps stamps sealedAt = .ok (night', results)) :
    night'.Sound ∧ night.Evolves night' ∧ List.Forall₂
      (fun step result => night'.recorded step = some result.again) (callOrder steps) results := by
  obtain ⟨_, hsteps, hseal⟩ := advance_ok h
  have ⟨hkept, hgrows, hsame, hresults⟩ := hsound.toKept.advanceSteps hsteps
  refine ⟨hkept.sealBatch hseal, ⟨?_, fun hdone => ?_⟩, ?_⟩
  · exact hgrows.trans (sealBatch_grows hseal).1
  · cases hsame hdone
    exact (sealBatch_grows hseal).2 hdone
  · refine hresults.imp fun step result hrecorded => ?_
    rw [sealBatch_recorded hseal, hrecorded]

/-- The replay of an advance changes nothing and gives the same answers. -/
theorem Nightly.Sound.advance_of_recorded (hsound : night.Sound)
    (hrecorded : ∀ step ∈ steps, (night.recorded step).isSome)
    (h : night.advance uuid5 principal steps stamps sealedAt = .ok (night', results)) :
    night' = night ∧ results = (callOrder steps).filterMap night.recorded := by
  obtain ⟨_, hsteps, hseal⟩ := advance_ok h
  have hall : ∀ step ∈ callOrder steps, (night.recorded step).isSome := fun step hstep =>
    hrecorded step ((List.perm_insertionSort _ steps).mem_iff.mp hstep)
  rw [advanceSteps_of_recorded hall] at hsteps
  cases hsteps
  rcases sealBatch_ok hseal with ⟨rfl, -⟩ | ⟨hopen, hcompleted, -⟩
  · exact ⟨rfl, rfl⟩
  · exact absurd (hsound.sealed_of_all hcompleted) hopen

theorem Nightly.Sound.clock (hsound : night.Sound) {target : ℤ}
    (h : night.clock principal target = .ok night') : night'.Sound ∧ night.Evolves night' := by
  simp only [Nightly.clock, bind_eq_ok] at h
  obtain ⟨⟨⟩, -, ⟨⟩, hopen, ⟨⟩, hforward, h⟩ := h
  rw [raiseIf_ok] at hopen hforward
  have hle : night.batch.simulatedNow ≤ target := not_lt.mp hforward
  cases h
  refine ⟨?_, ⟨rfl, rfl, hle, List.prefix_rfl, List.prefix_rfl, fun v hv => ⟨v, hv, .refl⟩⟩,
    fun hdone => absurd hdone hopen⟩
  exact {
    ids_nodup := hsound.ids_nodup
    executionIds_nodup := hsound.executionIds_nodup
    versions := fun v hv => (hsound.versions v hv).frame rfl rfl hle
    ordered := hsound.ordered
    known := hsound.known
    reported := hsound.reported
    incident_known := hsound.incident_known
    completed_all := hsound.completed_all
    sealedAs := SealedAs.of_open hopen (SealedAs.of_ne hopen hsound.sealedAs)
    sealed_of_all := hsound.sealed_of_all }

end Advance

end Histories

/-! ## Summaries -/

section Summaries

theorem sum_indicator (x : String) (ks : List String) :
    (ks.map fun v => if x = v then 1 else 0).sum = ks.count x := by
  induction ks with
  | nil => rfl
  | cons k _ ih =>
    rw [List.map_cons, List.sum_cons, ih, List.count_cons]
    by_cases hk : x = k
    · simp [hk, Nat.add_comm]
    · simp [hk, Ne.symm hk]

/-- Counted by key and summed over the keys, every item is counted once. -/
theorem sum_countP_key (key : FactPayload → String) (p : FactPayload → Prop) [DecidablePred p]
    {ks : List String} (hnodup : ks.Nodup) (items : List FactPayload)
    (hkeys : ∀ i ∈ items, key i ∈ ks) :
    (ks.map fun v => items.countP fun i => key i = v ∧ p i).sum = items.countP fun i => p i := by
  induction items with
  | nil => simp
  | cons i _ ih =>
    have hone : (ks.map fun v => if key i = v then 1 else 0).sum = 1 := by
      rw [sum_indicator]
      exact List.count_eq_one_of_mem hnodup (hkeys i List.mem_cons_self)
    have hfirst : (ks.map fun v => if key i = v ∧ p i then 1 else 0).sum =
        if p i then 1 else 0 := by
      by_cases hp : p i
      · simpa [hp] using hone
      · simp [hp]
    simp only [List.countP_cons, List.sum_map_add, decide_eq_true_eq, hfirst]
    rw [ih fun j hj => hkeys j (List.mem_cons_of_mem _ hj)]

/-- The counts of a summary agree with one another. -/
structure NightlySummary.Balanced (summary : NightlySummary) : Prop where
  items : summary.items.length = summary.total
  outcomes : summary.passed + summary.failed = summary.total
  environments : (summary.byEnvironmentId.map (·.2.total)).sum = summary.total ∧
    (summary.byEnvironmentId.map (·.2.failed)).sum = summary.failed
  versions : (summary.byVersionExecutionId.map (·.2.total)).sum = summary.total ∧
    (summary.byVersionExecutionId.map (·.2.failed)).sum = summary.failed
  owners : (summary.byOwnerUserId.map (·.2.total)).sum = summary.total ∧
    (summary.byOwnerUserId.map (·.2.failed)).sum = summary.failed

/-- The counts by a key sum to the number of items and of failed ones. -/
theorem countsBy_sums (key : FactPayload → String) (items : List FactPayload) :
    ((countsBy key items).map (·.2.total)).sum = items.length ∧
      ((countsBy key items).map (·.2.failed)).sum =
        items.countP fun item => item.outcome = .fail := by
  have hperm := List.perm_insertionSort (fun a b : String => a ≤ b) (items.map key).dedup
  have hnodup := hperm.nodup_iff.mpr (List.nodup_dedup _)
  have hkeys : ∀ i ∈ items, key i ∈ (items.map key).dedup.insertionSort (· ≤ ·) := fun i hi =>
    hperm.mem_iff.mpr (List.mem_dedup.mpr (List.mem_map_of_mem hi))
  constructor
  · have hsum := sum_countP_key key (fun _ => True) hnodup items hkeys
    simp only [and_true, decide_true, List.countP_true] at hsum
    simpa [countsBy, List.map_map, Function.comp_def] using hsum
  · have hsum := sum_countP_key key (fun item => item.outcome = .fail) hnodup items hkeys
    simpa [countsBy, List.map_map, Function.comp_def] using hsum

/-- The totals of a summary agree with its parts. -/
theorem summarize_balanced (facts : List NightlyFact) : (summarize facts).Balanced where
  items := rfl
  outcomes := by
    show (facts.map NightlyFact.payload).countP _ + (facts.map NightlyFact.payload).countP _ =
      (facts.map NightlyFact.payload).length
    generalize facts.map NightlyFact.payload = items
    induction items with
    | nil => rfl
    | cons item =>
      simp only [List.countP_cons, List.length_cons]
      cases item.outcome <;> simp <;> omega
  environments := countsBy_sums _ _
  versions := countsBy_sums _ _
  owners := countsBy_sums _ _

variable {night : Nightly}

/-- With the invariant, the join gives each execution one fact. -/
theorem Nightly.Kept.factsOf (hkept : night.Kept)
    (he : e ∈ night.executions) : (night.factsOf e).map (·.execution) = [e] := by
  obtain ⟨v, hv, hid⟩ := hkept.known e he
  have hversions : night.versions.filter
      (·.versionExecutionId = e.nightlyVersionExecutionId) = [v] := by
    rw [← hid]
    have hnodup := hkept.ids_nodup
    generalize night.versions = versions at hv hnodup
    induction versions with
    | nil => cases hv
    | cons u _ ih =>
      rw [List.map_cons, List.nodup_cons] at hnodup
      rcases List.mem_cons.mp hv with rfl | hv
      · rw [List.filter_cons_of_pos (by simp), List.filter_eq_nil_iff.mpr]
        intro w hw hsame
        exact hnodup.1 (List.mem_map.mpr ⟨w, hw, by simpa using hsame⟩)
      · have hne : u.versionExecutionId ≠ v.versionExecutionId := fun hsame =>
          hnodup.1 (List.mem_map.mpr ⟨v, hv, hsame.symm⟩)
        rw [List.filter_cons_of_neg (by simpa using hne)]
        exact ih hv hnodup.2
  have hreported := hkept.reported e he v hv hid
  unfold Nightly.factsOf
  rw [hversions, List.flatMap_singleton]
  split
  · rfl
  · rename_i hsome
    have hlength := congrArg List.length hreported
    have hone : (night.incidents.filter (·.executionId = e.executionId)).length = 1 := by
      split_ifs at hlength
      · simpa using hlength
      · simp only [List.length_map, List.length_nil, List.length_eq_zero_iff] at hlength
        exact absurd hlength hsome
    obtain ⟨i, hi⟩ := List.length_eq_one_iff.mp hone
    rw [hi]
    rfl

theorem Nightly.Kept.originalFacts (hkept : night.Kept) :
    (night.originalFacts.map (·.execution)).Perm night.executions := by
  refine ((List.perm_insertionSort _ _).map _).trans ?_
  rw [List.map_flatMap]
  have hsame : night.executions.flatMap (fun e => (night.factsOf e).map (·.execution)) =
      night.executions.flatMap fun e => [e] :=
    List.flatMap_congr fun e he => hkept.factsOf he
  rw [hsame, List.flatMap_singleton']

end Summaries

/-! ## New batches -/

section Creation

variable {minutes : ℤ}

theorem plannedSlot_ok {shared : CIEnvironment} {complete : Bool}
    {case other : CICase} (h : plannedSlot shared complete minutes case other = .ok slot) :
    slot.caseId = case.caseId := by
  simp only [plannedSlot, bind_eq_ok] at h
  obtain ⟨_, -, _, -, h⟩ := h
  cases h
  rfl

theorem plannedVersion_ok {state : CIState} {primary companion : CICase}
    {release : String × ProductRelease} {planned : PlanVersion}
    (h : plannedVersion state minutes primary companion release = .ok planned) :
    planned.frozenCases.map (·.caseId) = [primary.caseId, companion.caseId] := by
  simp only [plannedVersion, bind_eq_ok] at h
  obtain ⟨_, hfirst, _, hsecond, h⟩ := h
  cases h
  simp [plannedSlot_ok hfirst, plannedSlot_ok hsecond]

theorem catalog_ne (key : ScenarioKey) (environment : CIEnvironment) {primary companion : CICase}
    (h : ({ scenarioState key with environment } : CIState).caseCatalog = [primary, companion]) :
    primary.caseId ≠ companion.caseId := by
  cases key <;>
  · simp only [scenarioState, CIState.caseCatalog] at h
    simp at h
    obtain ⟨rfl, rfl⟩ := h
    decide

/-- An expanded environment names two frozen cases for each version. -/
theorem expandEnvironment_ok {selection : NightlySelection} {plan : PlanEnvironment}
    (h : expandEnvironment selection = .ok plan) : plan.versions ≠ [] ∧
      ∀ planned ∈ plan.versions, planned.frozenCases.length = 2 ∧
        (planned.frozenCases.map (·.caseId)).Nodup := by
  unfold expandEnvironment at h
  dsimp only at h
  split at h
  · rename_i primary companion hcatalog
    rw [bind_eq_ok] at h
    obtain ⟨_, hversions, h⟩ := h
    cases h
    have hall := except_mapM_ok hversions
    constructor
    · rintro rfl
      exact absurd hall.length_eq (by simp [productReleases])
    · intro _ hplanned
      obtain ⟨k, hk, rfl⟩ := List.mem_iff_getElem.mp hplanned
      have hids := plannedVersion_ok (hall.get (hall.length_eq ▸ hk) hk)
      have htwo := congrArg List.length hids
      rw [List.get_eq_getElem] at hids htwo
      rw [hids]
      exact ⟨by simpa using htwo, by simpa using catalog_ne _ _ hcatalog⟩
  · cases h

variable {principal : NightlyPrincipal} {body : CreateNightly} {batchId : String}
  {plan : List PlanEnvironment} {versionId : String → ℕ → String}

theorem plannedRows_pending {v : NightlyVersion} (h : v ∈ plannedRows versionId plan) :
    v.status = .pending ∧ v.nextCaseIndex = 0 ∧ v.startedBusinessAt = none ∧
      v.completedBusinessAt = none ∧
      ∃ env ∈ plan, ∃ planned ∈ env.versions, v.frozenCases = planned.frozenCases := by
  simp only [plannedRows, List.mem_flatMap, List.mem_map] at h
  obtain ⟨env, henv, ⟨planned, _⟩, hplanned, rfl⟩ := h
  exact ⟨rfl, rfl, rfl, rfl, env, henv, planned, List.fst_mem_of_mem_zipIdx hplanned, rfl⟩

/-- A night starts sound. -/
theorem newNightly_sound (hplan : body.environments.mapM expandEnvironment = .ok plan)
    (hnodup : ((plannedRows versionId plan).map NightlyVersion.versionExecutionId).Nodup) :
    (newNightly principal body batchId plan (plannedRows versionId plan)).Sound := by
  have hall := except_mapM_ok hplan
  have hexpanded : ∀ env ∈ plan, env.versions ≠ [] ∧ ∀ planned ∈ env.versions,
      planned.frozenCases.length = 2 ∧ (planned.frozenCases.map (·.caseId)).Nodup := by
    intro env henv
    obtain ⟨k, hk, rfl⟩ := List.mem_iff_getElem.mp henv
    exact expandEnvironment_ok (hall.get (hall.length_eq ▸ hk) hk)
  have hsome : ∃ v, v ∈ plannedRows versionId plan := by
    have hlength := hall.length_eq
    cases plan with
    | nil => exact absurd body.four_to_six.1 (by simp_all)
    | cons env =>
      obtain ⟨planned, _, hversions⟩ := List.exists_cons_of_ne_nil
        (hexpanded env List.mem_cons_self).1
      simp [plannedRows, hversions]
  constructor
  · constructor
    case ids_nodup => exact hnodup
    case executionIds_nodup => exact List.nodup_nil
    case versions =>
      intro v hv
      obtain ⟨hstatus, hnext, hstarted, hended, env, henv, planned, hplanned, hcases⟩ :=
        plannedRows_pending hv
      have htwo := (hexpanded env henv).2 planned hplanned
      exact ⟨hcases ▸ htwo.1, hcases ▸ htwo.2, by simp [NightlyVersion.Phase, *],
        by simp [hnext, newNightly, Nightly.executionsOf],
        fun k e he => by simp [newNightly, Nightly.executionsOf] at he,
        fun t ht => by simp [hstarted] at ht, fun t ht => by simp [hended] at ht⟩
    case ordered => exact fun v hv hne => absurd (plannedRows_pending hv).1 hne
    case known => exact fun e he => by cases he
    case reported => exact fun e he => by cases he
    case incident_known => exact fun i hi => by cases hi
    case completed_all => exact fun h => by cases h
    case sealedAs => exact Nightly.SealedAs.of_open (fun h => by cases h) ⟨rfl, rfl⟩
  · intro hcompleted
    obtain ⟨v, hv⟩ := hsome
    have hdone := hcompleted v hv
    rw [(plannedRows_pending hv).1] at hdone
    cases hdone

end Creation

/-! ## Runs -/

namespace NightlyDesk

variable {uuid5 : String → String} {desk desk' : NightlyDesk} {call : NightlyCall}

/-- A call leaves each batch in a later state of its own, and may add one. -/
def Continues (desk desk' : NightlyDesk) : Prop :=
  ∀ (i : ℕ) (night : Nightly), desk[i]? = some night →
    ∃ night', desk'[i]? = some night' ∧ night.Evolves night'

theorem Continues.refl : Continues desk desk := fun _ night h => ⟨night, h, .refl⟩

theorem Continues.trans {desk'' : NightlyDesk} (h : Continues desk desk')
    (h' : Continues desk' desk'') : Continues desk desk'' := fun i night hi => by
  obtain ⟨night', hi', hnext⟩ := h i night hi
  obtain ⟨night'', hi'', hlater⟩ := h' i night' hi'
  exact ⟨night'', hi'', hnext.trans hlater⟩

/-- A call on one night touches no other. -/
theorem onBatch_ok {principal : NightlyPrincipal} {batchId : String}
    {f : Nightly → Except NightlyFailure Nightly} (hdesk : ∀ night ∈ desk, night.Sound)
    (hf : ∀ {night night' : Nightly}, night.Sound → f night = .ok night' →
      night'.Sound ∧ night.Evolves night') (h : desk.onBatch principal batchId f = .ok desk') :
    (∀ night ∈ desk', night.Sound) ∧ Continues desk desk' := by
  simp only [onBatch, bind_eq_ok] at h
  obtain ⟨⟨⟩, -, ⟨⟩, -, h⟩ := h
  have hall := except_mapM_ok h
  have hone : ∀ {k : ℕ} {night night' : Nightly}, desk[k]? = some night →
      desk'[k]? = some night' → night'.Sound ∧ night.Evolves night' := by
    intro k night night' hnight hnight'
    obtain ⟨hk, rfl⟩ := List.getElem?_eq_some_iff.mp hnight
    obtain ⟨hk', rfl⟩ := List.getElem?_eq_some_iff.mp hnight'
    have hcall := hall.get hk hk'
    rw [List.get_eq_getElem, List.get_eq_getElem] at hcall
    split_ifs at hcall
    · exact hf (hdesk _ (List.getElem_mem hk)) hcall
    · obtain heq := Except.ok.inj hcall
      exact heq ▸ ⟨hdesk _ (List.getElem_mem hk), .refl⟩
  constructor
  · intro _ hnight'
    obtain ⟨k, hk, rfl⟩ := List.mem_iff_getElem.mp hnight'
    exact (hone (List.getElem?_eq_getElem (hall.length_eq ▸ hk)) (List.getElem?_eq_getElem hk)).1
  · intro k _ hnight
    obtain ⟨hk, -⟩ := List.getElem?_eq_some_iff.mp hnight
    have hk' := List.getElem?_eq_getElem (l := desk') (hall.length_eq ▸ hk)
    exact ⟨_, hk', (hone hnight hk').2⟩

theorem reuse_ok {existing : Nightly} {body : CreateNightly}
    (h : desk.reuse existing body = .ok desk') : desk' = desk := by
  simp only [reuse, bind_eq_ok] at h
  obtain ⟨⟨⟩, -, h⟩ := h
  exact (Except.ok.inj h).symm

/-- A creation adds a sound night or, on a replay, nothing. -/
theorem create_ok {principal : NightlyPrincipal} {body : CreateNightly}
    {users : List NightlyUser} {raced : Bool} {batchId : String} {versionId : String → ℕ → String}
    (h : desk.create principal body users raced batchId versionId = .ok desk') :
    desk' = desk ∨ ∃ night : Nightly, night.Sound ∧ desk' = desk ++ [night] := by
  simp only [create, bind_eq_ok] at h
  obtain ⟨_, -, ⟨⟩, -, h⟩ := h
  split at h
  · exact .inl (reuse_ok h)
  · rw [bind_eq_ok] at h
    obtain ⟨⟨⟩, -, h⟩ := h
    rw [bind_eq_ok] at h
    obtain ⟨_, hplan, h⟩ := h
    split_ifs at h
    · split at h
      · cases h
      · exact .inl (reuse_ok h)
    · rw [bind_eq_ok] at h
      obtain ⟨⟨⟩, hnodup, h⟩ := h
      rw [raiseIf_ok, not_not] at hnodup
      exact .inr ⟨_, newNightly_sound hplan hnodup, (Except.ok.inj h).symm⟩

/-- Every call keeps every night sound and lets each go on. -/
theorem transact_ok (hdesk : ∀ night ∈ desk, night.Sound)
    (h : desk.transact uuid5 call = .ok desk') :
    (∀ night ∈ desk', night.Sound) ∧ Continues desk desk' := by
  cases call with
  | create =>
    rcases create_ok h with rfl | ⟨night, hsound, rfl⟩
    · exact ⟨hdesk, .refl⟩
    · refine ⟨fun n hn => ?_, fun i n hi => ⟨n, ?_, .refl⟩⟩
      · rcases mem_snoc hn with hn | hn
        · exact hdesk n hn
        · rwa [hn]
      · rwa [List.getElem?_append_left (List.getElem?_eq_some_iff.mp hi).1]
  | clock => exact onBatch_ok hdesk (fun hn => hn.clock) h
  | advance principal _ steps stamps sealedAt =>
    refine onBatch_ok hdesk (fun {night night'} hn hcall => ?_) h
    cases hadvance : night.advance uuid5 principal steps stamps sealedAt with
    | error => simp [hadvance, Except.map] at hcall
    | ok =>
      rw [hadvance] at hcall
      cases hcall
      exact ⟨(hn.advance hadvance).1, (hn.advance hadvance).2.1⟩

theorem step_keeps (uuid5 : String → String) (call : NightlyCall)
    (hdesk : ∀ night ∈ desk, night.Sound) :
    (∀ night ∈ desk.step uuid5 call, night.Sound) ∧ Continues desk (desk.step uuid5 call) := by
  unfold step
  cases h : desk.transact uuid5 call with
  | ok => exact transact_ok hdesk h
  | error => exact ⟨hdesk, .refl⟩

theorem run_keeps (uuid5 : String → String) (calls : List NightlyCall) : ∀ {desk : NightlyDesk},
    (∀ night ∈ desk, night.Sound) → (∀ night ∈ desk.run uuid5 calls, night.Sound) ∧
      Continues desk (desk.run uuid5 calls) := by
  induction calls with
  | nil => exact fun hdesk => ⟨hdesk, .refl⟩
  | cons call _ ih =>
    intro _ hdesk
    have ⟨hstep, hnext⟩ := step_keeps uuid5 call hdesk
    exact ⟨(ih hstep).1, hnext.trans (ih hstep).2⟩

/-- Over all histories of the calls: every batch is sound, its summary would be that of exactly the
executed facts with counts that agree, its later states only add to it and a completed one never
changes, a recorded step keeps its fact and a call that repeats it changes nothing, and a call that
raises changes nothing. -/
theorem nightly_history_sound (uuid5 : String → String) (calls later : List NightlyCall) :
    (∀ night ∈ NightlyDesk.run uuid5 [] calls, night.Sound ∧
      (night.originalFacts.map (·.execution)).Perm night.executions ∧
      (summarize night.originalFacts).Balanced) ∧
    (∀ (i : ℕ) (night : Nightly), (NightlyDesk.run uuid5 [] calls)[i]? = some night →
      ∃ night', (NightlyDesk.run uuid5 [] (calls ++ later))[i]? = some night' ∧
        night.Evolves night' ∧ ∀ step fact, night.recorded step = some fact →
          night'.recorded step = some fact) ∧
    (∀ night ∈ NightlyDesk.run uuid5 [] calls, ∀ principal steps stamps sealedAt night' results,
        night.advance uuid5 principal steps stamps sealedAt = .ok (night', results) →
          List.Forall₂ (fun step result => night'.recorded step = some result.again)
            (callOrder steps) results ∧
          ((∀ step ∈ steps, (night.recorded step).isSome) →
            night' = night ∧ results = (callOrder steps).filterMap night.recorded)) ∧
    ∀ call failure, (NightlyDesk.run uuid5 [] calls).transact uuid5 call = .error failure →
        (NightlyDesk.run uuid5 [] calls).step uuid5 call = NightlyDesk.run uuid5 [] calls := by
  have hnone : ∀ night ∈ ([] : NightlyDesk), night.Sound := fun _ h => by cases h
  have hsound := (run_keeps uuid5 calls hnone).1
  refine ⟨fun night hnight => ?_, fun i night hi => ?_, fun night hnight => ?_,
    fun call failure h => ?_⟩
  · have hkept := (hsound night hnight).toKept
    exact ⟨hsound night hnight, hkept.originalFacts, summarize_balanced _⟩
  · have hlater := run_keeps uuid5 later hsound
    rw [show NightlyDesk.run uuid5 [] (calls ++ later) =
      NightlyDesk.run uuid5 (NightlyDesk.run uuid5 [] calls) later from List.foldl_append]
    obtain ⟨night', hi', hevolves⟩ := hlater.2 i night hi
    have hkept := (hsound night (List.mem_of_getElem? hi)).toKept
    have hkept' := (hlater.1 night' (List.mem_of_getElem? hi')).toKept
    exact ⟨night', hi', hevolves, fun step fact hfact =>
      hevolves.toGrows.recorded hkept hkept' hfact⟩
  · intro _ _ _ _ _ _ h
    exact ⟨((hsound night hnight).advance h).2.2,
      fun hall => (hsound night hnight).advance_of_recorded hall h⟩
  · unfold step
    rw [h]

end NightlyDesk

end LocalAgent.Runtime
