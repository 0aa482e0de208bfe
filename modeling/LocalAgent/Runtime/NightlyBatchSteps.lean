import LocalAgent.Runtime.NightlyBatch

/-!
# LocalAgent.Runtime.NightlyBatchSteps — what one call of the nightly service does

* `Nightly.advanceStep_cases`: everything that one step can do.
* `Nightly.Kept`: the invariant of the loop; `Nightly.Sound`: the one between calls.
* `Nightly.Kept.advanceStep`, `Nightly.Kept.sealBatch`: a step and the end of a call keep it.
-/

namespace LocalAgent.Runtime

/-! ## What a step can do -/

section Steps

variable {uuid5 : String → String} {night night' : Nightly} {version : NightlyVersion}
  {userId : String} {stamp : NightlyStamp} {step : NightlyStep} {result : NightlyResult}

/-- The executions of a version, in the order in which they were recorded. -/
def Nightly.executionsOf (night : Nightly) (versionExecutionId : String) : List NightlyExecution :=
  night.executions.filter (·.nightlyVersionExecutionId = versionExecutionId)

structure Nightly.Started (night night' : Nightly) (version : NightlyVersion) (userId : String)
    (result : NightlyResult) : Prop where
  pending : version.status = .pending
  due : scheduledStart night.batch.businessDate ≤ night.batch.simulatedNow
  earlier : ∀ v ∈ night.versions, v.environmentId = version.environmentId →
    v.ordinal < version.ordinal → v.status = .completed
  state : night' = night.withStarted (night.startedVersion userId version)
  result : result = .started version.versionExecutionId (some night.batch.simulatedNow) false

structure Nightly.Executed (night night' : Nightly) (version : NightlyVersion) (caseId : String)
    (result : NightlyResult) (slot : NightlySlot) (due : ℤ) (execution : NightlyExecution)
    (stamp : NightlyStamp) : Prop where
  running : version.status = .running
  next : version.frozenCases[version.nextCaseIndex]? = some slot
  case : slot.caseId = caseId
  dueAt : version.caseDue version.nextCaseIndex = some due
  due : due ≤ night.batch.simulatedNow
  fresh : ∀ e ∈ night.executions, e.executionId ≠ execution.executionId
  caseId : execution.caseId = slot.caseId
  ofVersion : execution.nightlyVersionExecutionId = version.versionExecutionId
  recordedAt : execution.businessCompletedAt = night.batch.simulatedNow
  state : night' = night.withCase version execution (night.failureIncident version execution stamp)
  result : result = .fact (NightlyFact.payload
    ⟨execution, version, night.failureIncident version execution stamp⟩) false

theorem Nightly.versionOf_some {id : String} (h : night.versionOf id = some version) :
    version ∈ night.versions ∧ version.versionExecutionId = id :=
  ⟨List.mem_of_find?_eq_some h, by simpa using List.find?_some h⟩

theorem Nightly.startVersion_ok
    (h : night.startVersion userId version = .ok (night', result))
    (hpending : version.status = .pending) : night.Started night' version userId result := by
  simp only [startVersion, seq_eq_ok, raiseIf_ok] at h
  obtain ⟨hdue, hearlier, h⟩ := h
  cases h
  refine ⟨hpending, not_lt.mp hdue, fun v hv henv hlt => ?_, rfl, rfl⟩
  by_contra hne
  exact hearlier ⟨v, hv, henv, hlt, hne⟩

theorem Nightly.persistNightlyCase_ok {slot : NightlySlot} {execution : NightlyExecution}
    (h : night.persistNightlyCase uuid5 version slot stamp = .ok execution) :
    (∀ e ∈ night.executions, e.executionId ≠ execution.executionId) ∧
      execution.caseId = slot.caseId ∧
      execution.nightlyVersionExecutionId = version.versionExecutionId ∧
      execution.businessCompletedAt = night.batch.simulatedNow := by
  simp only [persistNightlyCase, bind_eq_ok] at h
  obtain ⟨_, -, ⟨⟩, hfresh, h⟩ := h
  cases h
  exact ⟨fun e he hid => raiseIf_ok.mp hfresh ⟨e, he, hid⟩, rfl, rfl, rfl⟩

/-- A completed case is an execution at the night's slot and due time. -/
theorem Nightly.completeCase_ok {caseId : String}
    (h : night.completeCase uuid5 version caseId stamp = .ok (night', result)) :
    ∃ slot due execution,
      night.Executed night' version caseId result slot due execution stamp := by
  simp only [completeCase, bind_eq_ok, orRaise_ok] at h
  obtain ⟨⟨⟩, hrunning, slot, hnext, ⟨⟩, hcase, due, hdueAt, ⟨⟩, hdue, h⟩ := h
  obtain ⟨execution, hexecution, h⟩ := h
  rw [raiseIf_ok, not_not] at hrunning hcase
  rw [raiseIf_ok, not_lt] at hdue
  cases h
  obtain ⟨hfresh, hid, hversion, hat⟩ := persistNightlyCase_ok hexecution
  exact ⟨slot, due, execution, hrunning, hnext, hcase, hdueAt, hdue, hfresh, hid, hversion, hat,
    rfl, rfl⟩

/-- A step is recorded already, starts a version, or executes a case. -/
theorem Nightly.advanceStep_cases
    (h : night.advanceStep uuid5 userId stamp step = .ok (night', result)) :
    (night.recorded step = some result ∧ night' = night) ∨
      (night.batch.status ≠ .completed ∧ ∃ version ∈ night.versions,
        night.versionOf version.versionExecutionId = some version ∧
        ((step = .start version.versionExecutionId ∧
            night.Started night' version userId result) ∨
          ∃ caseId slot due execution, step = .completeCase version.versionExecutionId caseId ∧
            night.executionOf version.versionExecutionId caseId = none ∧
            night.Executed night' version caseId result slot due execution stamp)) := by
  simp only [advanceStep, bind_eq_ok, orRaise_ok] at h
  obtain ⟨version, hversion, h⟩ := h
  obtain ⟨hmem, hid⟩ := versionOf_some hversion
  cases hrecorded : night.recorded step with
  | some =>
    rw [hrecorded] at h
    cases h
    exact .inl ⟨rfl, rfl⟩
  | none =>
    simp only [hrecorded, seq_eq_ok, raiseIf_ok] at h
    obtain ⟨hopen, h⟩ := h
    refine .inr ⟨hopen, version, hmem, by rw [hid, hversion], ?_⟩
    cases step with
    | start id =>
      obtain rfl : version.versionExecutionId = id := hid
      have hpending : version.status = .pending := by
        have hversion' : night.versionOf version.versionExecutionId = some version := hversion
        simpa [recorded, hversion'] using hrecorded
      exact .inl ⟨rfl, startVersion_ok h hpending⟩
    | completeCase id caseId =>
      obtain rfl : version.versionExecutionId = id := hid
      obtain ⟨slot, due, execution, hexecuted⟩ := completeCase_ok h
      have hnone : night.executionOf version.versionExecutionId caseId = none := by
        have hversion' : night.versionOf version.versionExecutionId = some version := hversion
        simpa [recorded, hversion'] using hrecorded
      exact .inr ⟨caseId, slot, due, execution, rfl, hnone, hexecuted⟩

end Steps

/-! ## Writing a version row -/

section Versions

variable {night : Nightly} {v w : NightlyVersion}

theorem Nightly.mem_setVersion (h : w ∈ (night.setVersion v).versions) :
    w = v ∨ (w ∈ night.versions ∧ w.versionExecutionId ≠ v.versionExecutionId) := by
  obtain ⟨u, hu, rfl⟩ := List.mem_map.mp h
  by_cases hid : u.versionExecutionId = v.versionExecutionId
  · simp [hid]
  · simp [hid, hu]

theorem Nightly.setVersion_ids : (night.setVersion v).versions.map (·.versionExecutionId) =
    night.versions.map (·.versionExecutionId) := by
  simp only [setVersion, List.map_map]
  refine List.map_congr_left fun u _ => ?_
  by_cases hid : u.versionExecutionId = v.versionExecutionId <;> simp [hid]

theorem Nightly.mem_setVersion_of_ne (h : w ∈ night.versions)
    (hne : w.versionExecutionId ≠ v.versionExecutionId) : w ∈ (night.setVersion v).versions :=
  List.mem_map.mpr ⟨w, h, by simp [hne]⟩

theorem Nightly.mem_setVersion_self (h : w ∈ night.versions)
    (hid : w.versionExecutionId = v.versionExecutionId) : v ∈ (night.setVersion v).versions :=
  List.mem_map.mpr ⟨w, h, by simp [hid]⟩

theorem Nightly.eq_of_id (hnodup : (night.versions.map (·.versionExecutionId)).Nodup)
    (hv : v ∈ night.versions) (hw : w ∈ night.versions)
    (hid : v.versionExecutionId = w.versionExecutionId) : v = w :=
  List.inj_on_of_nodup_map hnodup hv hw hid

theorem Nightly.versionOf_mem (hnodup : (night.versions.map (·.versionExecutionId)).Nodup)
    (hv : v ∈ night.versions) : night.versionOf v.versionExecutionId = some v := by
  cases hfind : night.versionOf v.versionExecutionId with
  | none => simpa using List.find?_eq_none.mp hfind v hv
  | some =>
    obtain ⟨hu, hid⟩ := versionOf_some hfind
    rw [eq_of_id hnodup hu hv hid]

end Versions

/-! ## The invariant -/

section Invariant

/-- The columns of a version row agree with its status. -/
def NightlyVersion.Phase (v : NightlyVersion) : Prop :=
  match v.status with
  | .pending => v.nextCaseIndex = 0 ∧ v.startedBusinessAt = none ∧ v.completedBusinessAt = none
  | .running =>
    v.nextCaseIndex < 2 ∧ v.startedBusinessAt.isSome ∧ v.completedBusinessAt = none
  | .completed =>
    v.nextCaseIndex = 2 ∧ v.startedBusinessAt.isSome ∧ v.completedBusinessAt.isSome

/-- A version executed its cases in their frozen order, each once and none before it was due. -/
structure NightlyVersion.Sound (night : Nightly) (v : NightlyVersion) : Prop where
  two : v.frozenCases.length = 2
  cases_nodup : (v.frozenCases.map (·.caseId)).Nodup
  phase : v.Phase
  recorded : (night.executionsOf v.versionExecutionId).map (·.caseId) =
    (v.frozenCases.take v.nextCaseIndex).map (·.caseId)
  due : ∀ k e, (night.executionsOf v.versionExecutionId)[k]? = some e →
    ∃ due, v.caseDue k = some due ∧ due ≤ e.businessCompletedAt ∧
      e.businessCompletedAt ≤ night.batch.simulatedNow
  started : ∀ t, v.startedBusinessAt = some t →
    scheduledStart night.batch.businessDate ≤ t ∧ t ≤ night.batch.simulatedNow
  ended : ∀ t, v.completedBusinessAt = some t → t ≤ night.batch.simulatedNow

/-- The earlier versions of a started version's environment were completed before it started. -/
def Nightly.Ordered (night : Nightly) : Prop :=
  ∀ v ∈ night.versions, v.status ≠ .pending → ∀ w ∈ night.versions,
    w.environmentId = v.environmentId → w.ordinal < v.ordinal → w.status = .completed ∧
      ∃ ended started, w.completedBusinessAt = some ended ∧ v.startedBusinessAt = some started ∧
        ended ≤ started

/-- A failed execution has one incident, its version's owner's; a passed one has none. -/
def Nightly.Reported (night : Nightly) : Prop :=
  ∀ e ∈ night.executions, ∀ v ∈ night.versions,
    v.versionExecutionId = e.nightlyVersionExecutionId →
      (night.incidents.filter (·.executionId = e.executionId)).map (·.ownerUserId) =
        if e.result.outcome = .fail then [v.ownerUserId] else []

/-- The sealed columns: those of the recorded facts when completed, and none before. -/
def Nightly.SealedAs (night : Nightly) : Prop :=
  if night.batch.status = .completed then
    night.batch.sealedSummary = some (summarize night.originalFacts) ∧
      night.batch.sealedDigest = some (sha256Digest (summarize night.originalFacts).toJson)
  else night.batch.sealedSummary = none ∧ night.batch.sealedDigest = none

/-- What holds of a batch and its rows between any two steps. -/
structure Nightly.Kept (night : Nightly) : Prop where
  ids_nodup : (night.versions.map (·.versionExecutionId)).Nodup
  executionIds_nodup : (night.executions.map (·.executionId)).Nodup
  versions : ∀ v ∈ night.versions, v.Sound night
  ordered : night.Ordered
  known : ∀ e ∈ night.executions,
    ∃ v ∈ night.versions, v.versionExecutionId = e.nightlyVersionExecutionId
  reported : night.Reported
  incident_known : ∀ i ∈ night.incidents, ∃ e ∈ night.executions, e.executionId = i.executionId
  completed_all : night.batch.status = .completed → night.AllCompleted
  sealedAs : night.SealedAs

/-- Between calls a batch is completed exactly when all its versions are. -/
structure Nightly.Sound (night : Nightly) : Prop extends night.Kept where
  sealed_of_all : night.AllCompleted → night.batch.status = .completed

variable {night night' : Nightly} {v version : NightlyVersion} {userId : String}
  {result : NightlyResult}

/-- A version is sound in every night that has the same executions of it. -/
theorem NightlyVersion.Sound.frame (h : v.Sound night)
    (hexecutions : night'.executionsOf v.versionExecutionId =
      night.executionsOf v.versionExecutionId)
    (hdate : night'.batch.businessDate = night.batch.businessDate)
    (hnow : night.batch.simulatedNow ≤ night'.batch.simulatedNow) : v.Sound night' where
  two := h.two
  cases_nodup := h.cases_nodup
  phase := h.phase
  recorded := by rw [hexecutions]; exact h.recorded
  due := by
    intro k e he
    rw [hexecutions] at he
    obtain ⟨due, hdue, hle, hat⟩ := h.due k e he
    exact ⟨due, hdue, hle, hat.trans hnow⟩
  started := by
    intro t ht
    rw [hdate]
    exact ⟨(h.started t ht).1, (h.started t ht).2.trans hnow⟩
  ended := fun t ht => (h.ended t ht).trans hnow

theorem NightlyVersion.Sound.next_le (h : v.Sound night) : v.nextCaseIndex ≤ 2 := by
  have hphase := h.phase
  unfold Phase at hphase
  split at hphase <;> omega

theorem Nightly.SealedAs.of_ne (h : night.batch.status ≠ .completed) (hsealed : night.SealedAs) :
    night.batch.sealedSummary = none ∧ night.batch.sealedDigest = none := by
  unfold SealedAs at hsealed
  rwa [if_neg h] at hsealed

theorem Nightly.SealedAs.of_open (h : night.batch.status ≠ .completed)
    (hnone : night.batch.sealedSummary = none ∧ night.batch.sealedDigest = none) :
    night.SealedAs := by
  unfold SealedAs
  rwa [if_neg h]

/-! ### A version starts -/

section Start

section

variable (h : night.Started night' version userId result)
include h

/-- The version that is started is sound. -/
theorem Nightly.Started.version_sound
    (hv : version.Sound night) : (night.startedVersion userId version).Sound night' := by
  have hphase : version.nextCaseIndex = 0 ∧ version.startedBusinessAt = none ∧
      version.completedBusinessAt = none := by
    simpa [NightlyVersion.Phase, h.pending] using hv.phase
  have hnone : night.executionsOf version.versionExecutionId = [] := by
    have := hv.recorded
    rw [hphase.1] at this
    simpa using this
  have hsame : night'.executionsOf version.versionExecutionId =
      night.executionsOf version.versionExecutionId := by rw [h.state]; rfl
  have hnow : night'.batch.simulatedNow = night.batch.simulatedNow := by rw [h.state]; rfl
  have hdate : night'.batch.businessDate = night.batch.businessDate := by rw [h.state]; rfl
  refine ⟨hv.two, hv.cases_nodup, ?_, ?_, ?_, ?_, ?_⟩
  · simp [NightlyVersion.Phase, Nightly.startedVersion, hphase]
  · show (night'.executionsOf version.versionExecutionId).map _ = _
    rw [hsame]
    exact hv.recorded
  · intro k e he
    have he' : (night'.executionsOf version.versionExecutionId)[k]? = some e := he
    rw [hsame, hnone] at he'
    simp at he'
  · intro t ht
    cases ht
    rw [hnow, hdate]
    exact ⟨h.due, le_rfl⟩
  · intro t ht
    rw [show (night.startedVersion userId version).completedBusinessAt = none from
      hphase.2.2] at ht
    cases ht

theorem Nightly.Started.ordered
    (hkept : night.Kept) (hmem : version ∈ night.versions) : night'.Ordered := by
  rw [h.state]
  intro u hu hstarted w hw henv hlt
  rcases Nightly.mem_setVersion hu with rfl | ⟨hu, -⟩ <;>
    rcases Nightly.mem_setVersion hw with rfl | ⟨hw, -⟩
  · exact absurd hlt (lt_irrefl _)
  · have hdone := h.earlier w hw henv hlt
    have hphase := (hkept.versions w hw).phase
    simp only [NightlyVersion.Phase, hdone] at hphase
    obtain ⟨ended, hended⟩ := Option.isSome_iff_exists.mp hphase.2.2
    exact ⟨hdone, ended, _, hended, rfl, (hkept.versions w hw).ended ended hended⟩
  · have := (hkept.ordered u hu hstarted version hmem henv hlt).1
    rw [h.pending] at this
    cases this
  · exact hkept.ordered u hu hstarted w hw henv hlt

/-- The start of a version keeps the night's invariant. -/
theorem Nightly.Started.kept (hkept : night.Kept) (hmem : version ∈ night.versions)
    (hopen : night.batch.status ≠ .completed) : night'.Kept where
  ids_nodup := by
    rw [h.state]
    show ((night.setVersion _).versions.map (·.versionExecutionId)).Nodup
    rw [Nightly.setVersion_ids]
    exact hkept.ids_nodup
  executionIds_nodup := by rw [h.state]; exact hkept.executionIds_nodup
  versions := by
    intro u hu
    rw [h.state] at hu
    rcases Nightly.mem_setVersion hu with rfl | ⟨hu, -⟩
    · exact h.version_sound (hkept.versions version hmem)
    · exact (hkept.versions u hu).frame (by rw [h.state]; rfl) (by rw [h.state]; rfl)
        (by rw [h.state]; exact le_rfl)
  ordered := h.ordered hkept hmem
  known := by
    rw [h.state]
    intro e he
    obtain ⟨u, hu, hid⟩ := hkept.known e he
    by_cases hsame : u.versionExecutionId = version.versionExecutionId
    · exact ⟨_, Nightly.mem_setVersion_self (v := night.startedVersion userId version) hu hsame,
        hsame.symm.trans hid⟩
    · exact ⟨u, Nightly.mem_setVersion_of_ne (v := night.startedVersion userId version) hu hsame,
        hid⟩
  reported := by
    rw [h.state]
    intro e he u hu hid
    rcases Nightly.mem_setVersion hu with rfl | ⟨hu, -⟩
    · exact hkept.reported e he version hmem hid
    · exact hkept.reported e he u hu hid
  incident_known := by rw [h.state]; exact hkept.incident_known
  completed_all := by rw [h.state]; rintro ⟨⟩
  sealedAs := by
    have hnone := Nightly.SealedAs.of_ne hopen hkept.sealedAs
    rw [h.state]
    exact Nightly.SealedAs.of_open (fun hdone => by cases hdone) hnone

end

end Start

end Invariant

section Invariant

variable {night night' : Nightly} {v version : NightlyVersion} {userId : String}
  {result : NightlyResult}

/-! ### A case is executed -/

section Case

@[simp] theorem Nightly.caseDone_id :
    (night.caseDone version).versionExecutionId = version.versionExecutionId := by
  unfold caseDone; dsimp only; split_ifs <;> rfl

@[simp] theorem Nightly.caseDone_environmentId :
    (night.caseDone version).environmentId = version.environmentId := by
  unfold caseDone; dsimp only; split_ifs <;> rfl

@[simp] theorem Nightly.caseDone_ordinal : (night.caseDone version).ordinal = version.ordinal := by
  unfold caseDone; dsimp only; split_ifs <;> rfl

@[simp] theorem Nightly.caseDone_ownerUserId :
    (night.caseDone version).ownerUserId = version.ownerUserId := by
  unfold caseDone; dsimp only; split_ifs <;> rfl

@[simp] theorem Nightly.caseDone_softwareVersion :
    (night.caseDone version).softwareVersion = version.softwareVersion := by
  unfold caseDone; dsimp only; split_ifs <;> rfl

@[simp] theorem Nightly.caseDone_frozenCases :
    (night.caseDone version).frozenCases = version.frozenCases := by
  unfold caseDone; dsimp only; split_ifs <;> rfl

@[simp] theorem Nightly.caseDone_startedBusinessAt :
    (night.caseDone version).startedBusinessAt = version.startedBusinessAt := by
  unfold caseDone; dsimp only; split_ifs <;> rfl

@[simp] theorem Nightly.caseDone_nextCaseIndex :
    (night.caseDone version).nextCaseIndex = version.nextCaseIndex + 1 := by
  unfold caseDone; dsimp only; split_ifs <;> rfl

@[simp] theorem Nightly.caseDone_caseDue (k : ℕ) :
    (night.caseDone version).caseDue k = version.caseDue k := by
  simp [NightlyVersion.caseDue]

section

variable (hrunning : version.status = .running)
include hrunning

theorem Nightly.caseDone_phase (hphase : version.Phase) : (night.caseDone version).Phase := by
  simp only [NightlyVersion.Phase, hrunning] at hphase
  obtain ⟨hnext, hstarted, hended⟩ := hphase
  unfold caseDone
  dsimp only
  split_ifs with htwo
  · exact ⟨htwo, hstarted, rfl⟩
  · simp only [NightlyVersion.Phase, hrunning]
    exact ⟨by omega, hstarted, hended⟩

theorem Nightly.caseDone_ended {t : ℤ}
    (hphase : version.Phase) (ht : (night.caseDone version).completedBusinessAt = some t) :
    t = night.batch.simulatedNow := by
  simp only [NightlyVersion.Phase, hrunning] at hphase
  unfold caseDone at ht
  dsimp only at ht
  split_ifs at ht with htwo
  · exact (Option.some.inj ht).symm
  · rw [hphase.2.2] at ht
    cases ht

theorem Nightly.caseDone_started : (night.caseDone version).status ≠ .pending := by
  unfold caseDone
  dsimp only
  split_ifs
  · exact fun h => by cases h
  · simp [hrunning]

end

variable {caseId : String} {slot : NightlySlot} {due : ℤ} {execution : NightlyExecution}
  {stamp : NightlyStamp}

theorem Nightly.Executed.executionsOf
    (h : night.Executed night' version caseId result slot due execution stamp) (id : String) :
    night'.executionsOf id = night.executionsOf id ++
      if id = version.versionExecutionId then [execution] else [] := by
  rw [h.state]
  show (night.executions ++ [execution]).filter _ = _
  rw [List.filter_append]
  refine congrArg₂ _ rfl ?_
  by_cases hid : id = version.versionExecutionId
  · simp [hid, h.ofVersion]
  · rw [if_neg hid]
    simpa [h.ofVersion] using fun hsame => hid hsame.symm

theorem NightlyVersion.Sound.length (hv : v.Sound night) :
    (night.executionsOf v.versionExecutionId).length = v.nextCaseIndex := by
  have hlength := congrArg List.length hv.recorded
  have hle := hv.next_le
  simp only [List.length_map, List.length_take, hv.two] at hlength
  omega

section

variable (h : night.Executed night' version caseId result slot due execution stamp)
include h

/-- The version whose case is executed stays sound. -/
theorem Nightly.Executed.version_sound
    (hv : version.Sound night) : (night.caseDone version).Sound night' := by
  have hsame := h.executionsOf version.versionExecutionId
  rw [if_pos rfl] at hsame
  have hnow : night'.batch.simulatedNow = night.batch.simulatedNow := by rw [h.state]; rfl
  have hdate : night'.batch.businessDate = night.batch.businessDate := by rw [h.state]; rfl
  constructor
  case two => simpa using hv.two
  case cases_nodup => simpa using hv.cases_nodup
  case phase => exact caseDone_phase h.running hv.phase
  case recorded =>
    rw [caseDone_id, hsame, caseDone_frozenCases, caseDone_nextCaseIndex, List.map_append,
      hv.recorded, List.take_add_one, h.next, List.map_append]
    simp [h.caseId]
  case due =>
    intro k e he
    rw [caseDone_id, hsame] at he
    rw [caseDone_caseDue, hnow]
    rcases lt_or_ge k (night.executionsOf version.versionExecutionId).length with hk | hk
    · rw [List.getElem?_append_left hk] at he
      exact hv.due k e he
    · rw [List.getElem?_append_right hk, List.getElem?_singleton] at he
      split_ifs at he with hzero
      cases he
      have hlength := hv.length
      obtain rfl : k = version.nextCaseIndex := by omega
      exact ⟨due, h.dueAt, h.recordedAt ▸ h.due, h.recordedAt.le⟩
  case started =>
    intro t ht
    rw [hnow, hdate]
    exact hv.started t (by simpa using ht)
  case ended =>
    intro t ht
    rw [hnow]
    exact (caseDone_ended h.running hv.phase ht).le

theorem Nightly.Executed.ordered
    (hkept : night.Kept) (hmem : version ∈ night.versions) : night'.Ordered := by
  rw [h.state]
  intro u hu hstarted w hw henv hlt
  rcases Nightly.mem_setVersion hu with rfl | ⟨hu, -⟩ <;>
    rcases Nightly.mem_setVersion hw with rfl | ⟨hw, -⟩
  · exact absurd hlt (lt_irrefl _)
  · rw [caseDone_startedBusinessAt]
    exact hkept.ordered version hmem (by simp [h.running]) w hw (by simpa using henv)
      (by simpa using hlt)
  · have := (hkept.ordered u hu hstarted version hmem (by simpa using henv)
      (by simpa using hlt)).1
    rw [h.running] at this
    cases this
  · exact hkept.ordered u hu hstarted w hw henv hlt

theorem Nightly.Executed.no_incident (hkept : night.Kept) :
    night.incidents.filter (·.executionId = execution.executionId) = [] := by
  refine List.filter_eq_nil_iff.mpr fun i hi hid => ?_
  obtain ⟨e, he, heq⟩ := hkept.incident_known i hi
  exact h.fresh e he (heq.trans (by simpa using hid))

end

theorem Nightly.failureIncident_executionId {i : NightlyIncident}
    (hi : i ∈ (night.failureIncident version execution stamp).toList) :
    i.executionId = execution.executionId := by
  unfold failureIncident at hi
  split_ifs at hi
  · simp only [Option.toList_some, List.mem_singleton] at hi
    rw [hi]
  · simp at hi

section

variable (h : night.Executed night' version caseId result slot due execution stamp)
include h

/-- The report of the executed case agrees with its execution. -/
theorem Nightly.Executed.reported
    (hkept : night.Kept) (hmem : version ∈ night.versions) : night'.Reported := by
  have hempty := h.no_incident hkept
  rw [h.state]
  intro e he u hu hid
  show ((night.incidents ++ (night.failureIncident version execution stamp).toList).filter
    _).map _ = _
  rw [List.filter_append, List.map_append]
  rcases mem_snoc he with he | rfl
  · have hnew : (night.failureIncident version execution stamp).toList.filter
        (fun i => decide (i.executionId = e.executionId)) = [] := by
      refine List.filter_eq_nil_iff.mpr fun i hi hsame => ?_
      rw [failureIncident_executionId hi] at hsame
      exact h.fresh e he (of_decide_eq_true hsame).symm
    rw [hnew, List.map_nil, List.append_nil]
    rcases Nightly.mem_setVersion hu with rfl | ⟨hu, -⟩
    · rw [caseDone_ownerUserId]
      exact hkept.reported e he version hmem (by simpa using hid)
    · exact hkept.reported e he u hu hid
  · rw [hempty]
    rcases Nightly.mem_setVersion hu with rfl | ⟨-, hne⟩
    · unfold failureIncident
      split_ifs <;> simp
    · exact absurd (hid.trans h.ofVersion) (by simpa using hne)

/-- The execution of a case keeps the night's invariant. -/
theorem Nightly.Executed.kept (hkept : night.Kept) (hmem : version ∈ night.versions)
    (hopen : night.batch.status ≠ .completed) : night'.Kept where
  ids_nodup := by
    rw [h.state]
    show ((night.setVersion _).versions.map (·.versionExecutionId)).Nodup
    rw [Nightly.setVersion_ids]
    exact hkept.ids_nodup
  executionIds_nodup := by
    rw [h.state]
    show ((night.executions ++ [execution]).map (·.executionId)).Nodup
    rw [List.map_append, List.map_singleton, List.nodup_append]
    refine ⟨hkept.executionIds_nodup, List.nodup_singleton _, ?_⟩
    intro a ha b hb
    obtain ⟨e, he, rfl⟩ := List.mem_map.mp ha
    rw [List.mem_singleton.mp hb]
    exact h.fresh e he
  versions := by
    intro u hu
    rw [h.state] at hu
    rcases Nightly.mem_setVersion hu with rfl | ⟨hu, hne⟩
    · exact h.version_sound (hkept.versions version hmem)
    · refine (hkept.versions u hu).frame ?_ (by rw [h.state]; rfl) (by rw [h.state]; exact le_rfl)
      rw [h.executionsOf, if_neg (by simpa using hne), List.append_nil]
  ordered := h.ordered hkept hmem
  known := by
    intro e he
    rw [h.state] at he ⊢
    have hself : night.caseDone version ∈ (night.setVersion (night.caseDone version)).versions :=
      Nightly.mem_setVersion_self hmem (by simp)
    rcases mem_snoc he with he | rfl
    · obtain ⟨u, hu, hid⟩ := hkept.known e he
      by_cases hsame : u.versionExecutionId = version.versionExecutionId
      · exact ⟨_, hself, by simpa using hsame.symm.trans hid⟩
      · exact ⟨u, Nightly.mem_setVersion_of_ne hu (by simpa using hsame), hid⟩
    · exact ⟨_, hself, by simpa using h.ofVersion.symm⟩
  reported := h.reported hkept hmem
  incident_known := by
    intro i hi
    rw [h.state] at hi ⊢
    rcases List.mem_append.mp hi with hi | hi
    · obtain ⟨e, he, hid⟩ := hkept.incident_known i hi
      exact ⟨e, List.mem_append_left _ he, hid⟩
    · exact ⟨execution, List.mem_concat_self,
        (failureIncident_executionId hi).symm⟩
  completed_all := by rw [h.state]; exact fun hdone => absurd hdone hopen
  sealedAs := by
    have hnone := Nightly.SealedAs.of_ne hopen hkept.sealedAs
    rw [h.state]
    exact Nightly.SealedAs.of_open hopen hnone

end

end Case

/-! ### Calls -/

section Calls

variable {uuid5 : String → String} {stamp : NightlyStamp} {step : NightlyStep}

theorem Nightly.Kept.advanceStep (hkept : night.Kept)
    (h : night.advanceStep uuid5 userId stamp step = .ok (night', result)) : night'.Kept := by
  rcases advanceStep_cases h with ⟨-, rfl⟩ | ⟨hopen, _, hmem, -, ⟨-, hstarted⟩ |
    ⟨_, _, _, _, -, -, hexecuted⟩⟩
  · exact hkept
  · exact hstarted.kept hkept hmem hopen
  · exact hexecuted.kept hkept hmem hopen

/-- A batch is sealed once all its versions are completed, and only then. -/
theorem Nightly.sealBatch_ok {now : ℤ} (h : night.sealBatch now = .ok night') :
    (night' = night ∧ (night.AllCompleted → night.batch.status = .completed)) ∨
      (night.batch.status ≠ .completed ∧ night.AllCompleted ∧
        night' = { night with batch :=
          { night.batch with
            sealedSummary := some (summarize night.originalFacts)
            sealedDigest := some (sha256Digest (summarize night.originalFacts).toJson)
            sealedAt := some now
            status := .completed } }) := by
  unfold sealBatch at h
  split_ifs at h with hseal
  · rw [seq_eq_ok] at h
    exact .inr ⟨hseal.1, hseal.2, (Except.ok.inj h.2).symm⟩
  · refine .inl ⟨(Except.ok.inj h).symm, fun hall => ?_⟩
    by_contra hopen
    exact hseal ⟨hopen, hall⟩

theorem Nightly.Kept.sealBatch {now : ℤ} (hkept : night.Kept)
    (h : night.sealBatch now = .ok night') : night'.Sound := by
  rcases sealBatch_ok h with ⟨rfl, hall⟩ | ⟨-, hall, rfl⟩
  · exact ⟨hkept, hall⟩
  · exact {
      ids_nodup := hkept.ids_nodup
      executionIds_nodup := hkept.executionIds_nodup
      versions := fun v hv => (hkept.versions v hv).frame rfl rfl le_rfl
      ordered := hkept.ordered
      known := hkept.known
      reported := hkept.reported
      incident_known := hkept.incident_known
      completed_all := fun _ => hall
      sealedAs := by
        unfold SealedAs
        rw [if_pos rfl]
        exact ⟨rfl, rfl⟩
      sealed_of_all := fun _ => rfl }

end Calls

end Invariant

end LocalAgent.Runtime
