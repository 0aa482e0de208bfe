import LocalAgent.Runtime.SchedulerProgress

/-!
# LocalAgent.Runtime.SchedulerPropagation — when propagation goes through

The state machine refuses a `BLOCKED` event that is older than the step it is for.

* `emit_blocked`: the event of a pending step is applied or refused by its time alone.
* `Along`, `propagateStep_along`: what one step of the loop leaves.
* `propagation_settles_iff`: propagation ends with the doomed steps blocked and is then idle,
  exactly when no doomed step was created too late.
-/

namespace LocalAgent.Runtime

namespace SerialScheduler

open AgentStateMachine

/-! ## Blocking one step -/

variable {event : StepStateEvent} {step : StepState} {s : AgentState} {ids : List String}

theorem writeStepEvent_blocked
    (htype : event.eventType = .blocked) (hv : step.Valid) (hpending : step.status = .pending)
    (hutc : event.occurredAt.IsUtc) (hcreated : ¬ event.occurredAt < step.createdAt) :
    (writeStepEvent step event .blocked).Valid := by
  obtain ⟨hstarted, -⟩ := hv.pending hpending
  unfold writeStepEvent
  rw [htype]
  refine ⟨hv.stepId_ne, hv.name_ne, hv.created, hv.started, fun t ht => ?_, nofun, ?_,
    fun _ => hstarted, fun _ => nofun, nofun, nofun⟩
  · cases ht
    refine ⟨hutc, hcreated, fun u hu => ?_⟩
    rw [hstarted] at hu
    cases hu
  · rintro (hstatus | hstatus) <;> exact nomatch hstatus

variable {state : AgentState} {id : String}

theorem not_active_of_pending (hv : state.Valid) (hstep : state.steps.get? id = some step)
    (hpending : step.status = .pending) : id ∉ state.activeStepIds := by
  intro hmem
  obtain ⟨_, hstep', hactive⟩ := (hv.active id).mp hmem
  cases hstep.symm.trans hstep'
  rw [hpending] at hactive
  rcases hactive with h | h <;> exact nomatch h

theorem guard_blocked_iff (hv : state.Valid) (htype : event.eventType = .blocked)
    (hstep : state.steps.get? event.stepId = some step) (hpending : step.status = .pending) :
    guardStepEvent state event step = .ok () ↔
      ¬ event.occurredAt < state.updatedAt ∧ ¬ event.occurredAt < step.createdAt := by
  have hnot := not_active_of_pending hv hstep hpending
  simp [guardStepEvent, guardEventTime, seq_eq_ok, raiseIf_ok, htype, hpending, hnot]

section

variable (hv : state.Valid) (hrun : state.status = .running) (htype : event.eventType = .blocked)
  (hutc : event.occurredAt.IsUtc) (hstep : state.steps.get? event.stepId = some step)
  (hpending : step.status = .pending) (hupdated : ¬ event.occurredAt < state.updatedAt)
  (hcreated : ¬ event.occurredAt < step.createdAt)
include hv hrun htype hutc hstep hpending hupdated hcreated

/-- The state after a pending step was blocked passes `validate`. -/
theorem stepApplied_blocked_valid : (stepApplied state event step .blocked).Valid := by
  have hnot := not_active_of_pending hv hstep hpending
  have hactive : writeActive state.activeStepIds event = state.activeStepIds := by
    unfold writeActive
    rw [htype]
    exact Finset.erase_eq_of_notMem hnot
  have hlive : ¬ state.status.IsTerminal := AgentState.not_isTerminal_iff.mpr (Or.inr hrun)
  refine ⟨hv.version, hv.runId_ne, hv.created, hutc, ?_, hv.nonterminal,
    fun ht => absurd ht hlive, hv.succeeded, hv.cancelled, hv.failed,
    fun stepId other hother => ?_, fun stepId => ?_⟩
  · have h1 := hv.updated_created
    show ¬ event.occurredAt < state.createdAt
    rw [DateTime.lt_iff] at *
    omega
  · by_cases hid : stepId = event.stepId
    · subst hid
      obtain rfl : writeStepEvent step event .blocked = other := by
        simpa [stepApplied] using hother
      obtain ⟨hkey, hstepv⟩ := hv.step _ _ hstep
      refine ⟨?_, writeStepEvent_blocked htype hstepv hpending hutc hcreated⟩
      rwa [Fits.write_stepId]
    · exact hv.step stepId other (by simpa [stepApplied, hid] using hother)
  · show stepId ∈ writeActive state.activeStepIds event ↔ _
    rw [hactive]
    by_cases hid : stepId = event.stepId
    · subst hid
      simp [stepApplied, writeStepEvent_status, hnot, StepStatus.IsActive]
    · rw [hv.active]
      simp [stepApplied, hid]

/-- A valid running state takes the `BLOCKED` event of a pending step whose time fits. -/
theorem applyStepEvent_blocked :
    applyStepEvent event state = .ok () (stepApplied state event step .blocked) := by
  have hvalid := stepApplied_blocked_valid hv hrun htype hutc hstep hpending hupdated hcreated
  have hlisted : ¬ ∃ step ∈ state.steps.get? event.stepId, step.status.IsActive ∧
      endsActive event.eventType = true ∧ event.stepId ∉ state.activeStepIds := by
    rintro ⟨_, _, _, hends, -⟩
    rw [htype] at hends
    cases hends
  have htable : stepTransitions step.status event.eventType = some .blocked := by
    rw [hpending, htype]
    rfl
  have hlive : ¬ step.status.IsTerminal := by rw [hpending]; decide
  have hopen : ¬ state.status.IsTerminal := AgentState.not_isTerminal_iff.mpr (Or.inr hrun)
  have hguard := (guard_blocked_iff hv htype hstep hpending).mpr ⟨hupdated, hcreated⟩
  have hcandidate : stepCandidate event state = .ok (stepApplied state event step .blocked) := by
    unfold stepCandidate
    rw [raiseIf_ok.mpr hlisted, ok_bind, AgentState.validate_eq_ok_iff.mpr hv, ok_bind,
      raiseIf_ok.mpr hopen, ok_bind, hstep]
    show (raiseIf step.status.IsTerminal _ >>= _) = _
    rw [raiseIf_ok.mpr hlive, ok_bind, htable]
    show (guardStepEvent state event step >>= _) = _
    rw [hguard, ok_bind, AgentState.clone_eq hv, ok_bind]
    dsimp only
    rw [Dict.get?_sorted, hstep]
    show ((stepApplied state event step .blocked).validate >>= _) = _
    rw [AgentState.validate_eq_ok_iff.mpr hvalid]
    rfl
  have happly := call_apply (.applyStepEvent event) state
  rwa [show Call.candidate (.applyStepEvent event) state = _ from hcandidate] at happly

end

variable {t : DateTime}

theorem make_blocked (hid : ¬ Text.isBlank id = true) (ht : t.IsUtc) :
    ∃ event, StepStateEvent.make (blockedEvent id t) = .ok event := by
  have hcode : validateErrorCode (some "DEPENDENCY_NOT_SUCCESSFUL") false = .ok () := by decide
  have hmessage : validateErrorMessage (some "前置步骤未成功，当前步骤无法执行") = .ok () := by decide
  have hwell : (blockedEvent id t).postInit = .ok () := by
    simp only [StepEventData.postInit, blockedEvent, seq_eq_ok, validateUtcDatetime]
    exact ⟨raiseIf_ok.mpr hid, raiseIf_ok.mpr (not_not.mpr ht), hmessage, hcode⟩
  unfold StepStateEvent.make
  split
  · exact ⟨_, rfl⟩
  · next h => cases hwell.symm.trans h

/-- A blocking event is applied unless the step was created after it. -/
theorem emit_blocked {w : World} {id : String}
    (hv : w.state.Valid) (hrun : w.state.status = .running) (hid : ¬ Text.isBlank id = true)
    (hutc : t.IsUtc) (hstep : w.state.steps.get? id = some step) (hpending : step.status = .pending)
    (hupdated : ¬ t < w.state.updatedAt) :
    (¬ t < step.createdAt ∧ ∃ event : StepStateEvent, event.toStepEventData = blockedEvent id t ∧
      emit (blockedEvent id t) w =
        .ok () { w with state := stepApplied w.state event step .blocked }) ∨
    (t < step.createdAt ∧ ∃ e, emit (blockedEvent id t) w = .error e w) := by
  obtain ⟨event, hmake⟩ := make_blocked hid hutc
  have hdata := StepStateEvent.make_eq_ok hmake
  have hfound : w.state.steps.get? event.stepId = some step := by rw [hdata]; exact hstep
  have htype : event.eventType = .blocked := by rw [hdata]; rfl
  have htime : event.occurredAt = t := by rw [hdata]; rfl
  have hemit : emit (blockedEvent id t) w = onState (applyStepEvent event) w := by
    unfold emit
    rw [hmake]
    rfl
  by_cases hlate : t < step.createdAt
  · refine Or.inr ⟨hlate, ?_⟩
    rcases emit_cases (blockedEvent id t) w with h | ⟨_, _, _, -, -, -, -, h⟩
    · exact h
    · exfalso
      rw [hemit] at h
      rcases onState_cases (x := applyStepEvent event) w with ⟨e, s, hx, heq⟩ | ⟨s, hx, heq⟩
      · rw [heq] at h
        cases h
      · obtain ⟨_, -, hold, -, hguard, -, -⟩ := applyStepEvent_ok hx
        cases hfound.symm.trans hold
        exact ((guard_blocked_iff hv htype hfound hpending).mp hguard).2 (htime ▸ hlate)
  · refine Or.inl ⟨hlate, event, hdata, ?_⟩
    have happly := applyStepEvent_blocked hv hrun htype (htime ▸ hutc) hfound hpending
      (htime ▸ hupdated) (htime ▸ hlate)
    rw [hemit]
    unfold onState
    rw [happly]

/-! ## One step of the loop -/

/-- The step and its dependencies are registered, and its id can stand in an event. -/
structure Listed (graph : PlanGraph) (s : AgentState) (id : String) : Prop where
  named : ¬ Text.isBlank id = true
  own : id ∈ s.steps.keys
  deps : ∀ d ∈ graph.dependenciesOf id, d ∈ s.steps.keys

theorem stepAt_registered (h : id ∈ s.steps.keys) :
    ∃ step, stepAt s id = .ok step ∧ s.steps.get? id = some step := by
  obtain ⟨step, hstep⟩ := Dict.mem_keys_iff.mp h
  refine ⟨step, ?_, hstep⟩
  unfold stepAt
  rw [hstep]

theorem anyStatus_registered {p : StepStatus → Bool}
    (h : ∀ id ∈ ids, id ∈ s.steps.keys) : ∃ b, anyStatus s p ids = .ok b := by
  induction ids with
  | nil => exact ⟨false, rfl⟩
  | cons _ _ ih =>
    obtain ⟨hid, hids⟩ := List.forall_mem_cons.mp h
    obtain ⟨_, hat, -⟩ := stepAt_registered hid
    obtain ⟨b, hb⟩ := ih hids
    unfold anyStatus
    rw [hat, ok_bind]
    split_ifs
    · exact ⟨true, rfl⟩
    · exact ⟨b, hb⟩

/-- A step with no failed dependency is left alone. -/
theorem propagateStep_of_not_exposed {graph : PlanGraph} {occurredAt : DateTime}
    {w : World} (hlisted : Listed graph w.state id) (hnot : ¬ Exposed graph w.state id) :
    propagateStep graph occurredAt id w = .ok false w := by
  obtain ⟨step, hat, -⟩ := stepAt_registered hlisted.own
  obtain ⟨blocking, hany⟩ := anyStatus_registered (p := StepStatus.isBlocking) hlisted.deps
  unfold propagateStep
  rw [Op.get_bind_apply, hat]
  simp only [Op.lift_ok, Op.pure_bind_apply]
  by_cases hp : step.status = .pending
  · rw [if_neg (not_not.mpr hp), hany]
    simp only [Op.lift_ok, Op.pure_bind_apply]
    cases blocking with
    | false => rfl
    | true =>
      have hpend : w.state.statusOf id = some .pending :=
        (statusOf_of_stepAt hat).trans (congrArg some hp)
      exact absurd ⟨hpend, (anyStatus_ok hany).1 rfl⟩ hnot
  · rw [if_pos hp]
    rfl

/-- A step with a failed dependency gets the blocking event. -/
theorem propagateStep_of_exposed {graph : PlanGraph} {occurredAt : DateTime}
    {w : World} (hlisted : Listed graph w.state id) (he : Exposed graph w.state id) :
    propagateStep graph occurredAt id w =
      (emit (blockedEvent id (effectiveTime occurredAt w.state)) >>= fun _ => pure true) w := by
  obtain ⟨step, hat, -⟩ := stepAt_registered hlisted.own
  obtain ⟨blocking, hany⟩ := anyStatus_registered (p := StepStatus.isBlocking) hlisted.deps
  obtain ⟨hpend, d, hd, _, hds, hblock⟩ := he
  have hp : step.status = .pending :=
    Option.some.inj ((statusOf_of_stepAt hat).symm.trans hpend)
  unfold propagateStep
  rw [Op.get_bind_apply, hat]
  simp only [Op.lift_ok, Op.pure_bind_apply]
  rw [if_neg (not_not.mpr hp), hany]
  simp only [Op.lift_ok, Op.pure_bind_apply]
  cases blocking with
  | true => rfl
  | false =>
    obtain ⟨_, hds', hnot⟩ := (anyStatus_ok hany).2 rfl d hd
    rw [hds] at hds'
    cases hds'
    rw [hblock] at hnot
    cases hnot

/-! ## The loop -/

/-- What propagation has done by `s` when it began in `s₀`. -/
structure Along (graph : PlanGraph) (occurredAt : DateTime) (s₀ s : AgentState) : Prop where
  valid : s.Valid
  run : s.status = .running
  only : OnlyDoomed graph s₀ s
  keys : ∀ id, id ∈ s₀.steps.keys → id ∈ s.steps.keys
  before : ¬ effectiveTime occurredAt s₀ < s.updatedAt
  after : ¬ s.updatedAt < s₀.updatedAt
  kept : ∀ id, s.steps.get? id = s₀.steps.get? id ∨ (s.statusOf id = some .blocked ∧
    ∃ step, s₀.steps.get? id = some step ∧ ¬ effectiveTime occurredAt s₀ < step.createdAt)

theorem Along.refl {graph : PlanGraph} {occurredAt : DateTime} (hv : s.Valid)
    (hrun : s.status = .running) : Along graph occurredAt s s where
  valid := hv
  run := hrun
  only _ := Or.inl rfl
  keys _ := id
  before := DateTime.not_latest_lt_right _ _
  after h := lt_irrefl _ (DateTime.lt_iff.mp h)
  kept _ := Or.inl rfl

/-- The doomed step was created after the time of the call and after the last update. -/
def Late (graph : PlanGraph) (occurredAt : DateTime) (s : AgentState) (id : String) : Prop :=
  Doomed graph s id ∧ ∃ step, s.steps.get? id = some step ∧
    effectiveTime occurredAt s < step.createdAt

theorem effectiveTime_ticks (occurredAt : DateTime) (s : AgentState) :
    (effectiveTime occurredAt s).ticks = max occurredAt.ticks s.updatedAt.ticks := by
  unfold effectiveTime DateTime.latest
  split_ifs with h
  · exact (max_eq_right (DateTime.lt_iff.mp h).le).symm
  · exact (max_eq_left (not_lt.mp (DateTime.lt_iff.not.mp h))).symm

section Steps

variable {graph : PlanGraph} {occurredAt : DateTime} {s₀ : AgentState} {w : World}

theorem Along.ticks (h : Along graph occurredAt s₀ w.state) :
    (effectiveTime occurredAt w.state).ticks = (effectiveTime occurredAt s₀).ticks := by
  have h1 := h.before
  have h2 := h.after
  rw [DateTime.lt_iff, effectiveTime_ticks] at h1
  rw [DateTime.lt_iff] at h2
  rw [effectiveTime_ticks, effectiveTime_ticks]
  omega

variable {id : String}

theorem Along.listed (h : Along graph occurredAt s₀ w.state)
    (hlisted : Listed graph s₀ id) : Listed graph w.state id :=
  ⟨hlisted.named, h.keys id hlisted.own, fun d hd => h.keys d (hlisted.deps d hd)⟩

theorem Along.pending (h : Along graph occurredAt s₀ w.state)
    (hstep : w.state.steps.get? id = some step) (hp : step.status = .pending) :
    s₀.steps.get? id = some step := by
  rcases h.kept id with heq | ⟨hb, -⟩
  · exact heq ▸ hstep
  · have hst : w.state.statusOf id = some .pending := by simp [AgentState.statusOf, hstep, hp]
    rw [hst] at hb
    cases hb

/-- One step of a pass, which can stop only at a step that was created later. -/
theorem propagateStep_along (hutc : occurredAt.IsUtc) (h : Along graph occurredAt s₀ w.state)
    (hlisted : Listed graph s₀ id) : propagateStep graph occurredAt id w = .ok false w ∨
    (∃ w', propagateStep graph occurredAt id w = .ok true w' ∧ Along graph occurredAt s₀ w'.state) ∨
    (Late graph occurredAt s₀ id ∧ ∃ e, propagateStep graph occurredAt id w = .error e w) := by
  have hnow := h.listed hlisted
  by_cases he : Exposed graph w.state id
  · rw [propagateStep_of_exposed hnow he]
    obtain ⟨step, hat, hstep⟩ := stepAt_registered hnow.own
    have hp : step.status = .pending :=
      Option.some.inj ((statusOf_of_stepAt hat).symm.trans he.1)
    have htime : (effectiveTime occurredAt w.state).IsUtc := by
      unfold effectiveTime
      rcases DateTime.latest_cases occurredAt w.state.updatedAt with heq | heq
      · rwa [heq]
      · rw [heq]
        exact h.valid.updated
    rcases emit_blocked h.valid h.run hnow.named htime hstep hp
        (DateTime.not_latest_lt_right _ _) with ⟨hontime, event, hdata, hemit⟩ | ⟨hlate, e, hemit⟩
    · refine Or.inr (Or.inl ⟨_, Op.bind_ok_iff.mpr ⟨_, _, hemit, rfl⟩, ?_⟩)
      have heid : event.stepId = id := by rw [hdata]; rfl
      have htype : event.eventType = .blocked := by rw [hdata]; rfl
      have hat' : event.occurredAt = effectiveTime occurredAt w.state := by rw [hdata]; rfl
      have hblocks : Blocks w.state (stepApplied w.state event step .blocked) id := by
        intro _
        rw [statusOf_stepApplied, heid]
      refine ⟨stepApplied_blocked_valid h.valid h.run htype (hat' ▸ htime) (heid ▸ hstep) hp
        (hat' ▸ DateTime.not_latest_lt_right _ _) (hat' ▸ hontime), h.run,
        h.only.blocks he hblocks, fun other hother => ?_, ?_, ?_, fun other => ?_⟩
      · have hthere := h.keys other hother
        simp [stepApplied, hthere]
      · show ¬ effectiveTime occurredAt s₀ < event.occurredAt
        rw [hat', DateTime.lt_iff, h.ticks]
        exact lt_irrefl _
      · show ¬ event.occurredAt < s₀.updatedAt
        rw [hat', DateTime.lt_iff, h.ticks, effectiveTime_ticks]
        omega
      · by_cases hother : other = id
        · subst hother
          refine Or.inr ⟨by rw [hblocks, if_pos rfl], step, h.pending hstep hp, ?_⟩
          rw [DateTime.lt_iff, ← h.ticks]
          exact DateTime.lt_iff.not.mp hontime
        · have hne : other ≠ event.stepId := heid ▸ hother
          rw [hblocks other, if_neg hother, show (stepApplied w.state event step
            .blocked).steps.get? other = w.state.steps.get? other by simp [stepApplied, hne]]
          exact h.kept other
    · refine Or.inr (Or.inr ⟨⟨h.only.exposed he, step, h.pending hstep hp, ?_⟩, e,
        Op.bind_error_iff.mpr (Or.inl hemit)⟩)
      rw [DateTime.lt_iff, ← h.ticks]
      exact DateTime.lt_iff.mp hlate
  · exact Or.inl (propagateStep_of_not_exposed hnow he)

/-- One pass over the steps. -/
theorem propagatePass_along (hutc : occurredAt.IsUtc)
    (h : Along graph occurredAt s₀ w.state) (hlisted : ∀ id ∈ ids, Listed graph s₀ id) :
    (∃ changed w', propagatePass graph occurredAt ids w = .ok changed w' ∧
      Along graph occurredAt s₀ w'.state) ∨
    ∃ id ∈ ids, Late graph occurredAt s₀ id ∧
      ∃ e t, propagatePass graph occurredAt ids w = .error e t := by
  induction ids generalizing w with
  | nil => exact Or.inl ⟨false, w, rfl, h⟩
  | cons id ids ih =>
    obtain ⟨hid, hids⟩ := List.forall_mem_cons.mp hlisted
    have hrest : ∀ (c : Bool) (t : World), propagateStep graph occurredAt id w = .ok c t →
        Along graph occurredAt s₀ t.state →
        (∃ changed w', propagatePass graph occurredAt (id :: ids) w = .ok changed w' ∧
          Along graph occurredAt s₀ w'.state) ∨
        ∃ id' ∈ id :: ids, Late graph occurredAt s₀ id' ∧
          ∃ e u, propagatePass graph occurredAt (id :: ids) w = .error e u := by
      intro c t hstep ht
      rcases ih ht hids with ⟨_, w', hpass, hw'⟩ | ⟨id', hmem, hlate, e, u, hpass⟩
      · exact Or.inl ⟨_, w', Op.bind_ok_iff.mpr ⟨_, _, hstep, Op.bind_ok_iff.mpr
          ⟨_, _, hpass, rfl⟩⟩, hw'⟩
      · exact Or.inr ⟨id', List.mem_cons_of_mem _ hmem, hlate, e, u, Op.bind_error_iff.mpr
          (Or.inr ⟨_, _, hstep, Op.bind_error_iff.mpr (Or.inl hpass)⟩)⟩
    rcases propagateStep_along hutc h hid with hstep | ⟨t, hstep, ht⟩ | ⟨hlate, e, hstep⟩
    · exact hrest false w hstep h
    · exact hrest true t hstep ht
    · exact Or.inr ⟨id, List.mem_cons_self, hlate, e, w, Op.bind_error_iff.mpr (Or.inl hstep)⟩

theorem propagatePass_of_fixed (hlisted : ∀ id ∈ ids, Listed graph w.state id)
    (hfix : ∀ id ∈ ids, ¬ Exposed graph w.state id) :
    propagatePass graph occurredAt ids w = .ok false w := by
  induction ids with
  | nil => rfl
  | cons _ _ ih =>
    obtain ⟨hid, hids⟩ := List.forall_mem_cons.mp hlisted
    obtain ⟨hnot, hnots⟩ := List.forall_mem_cons.mp hfix
    exact Op.bind_ok_iff.mpr ⟨_, _, propagateStep_of_not_exposed hid hnot,
      Op.bind_ok_iff.mpr ⟨_, _, ih hids hnots, rfl⟩⟩

/-- The loop, which ends within its passes. -/
theorem propagateLoop_along (hutc : occurredAt.IsUtc) {passes : ℕ}
    (h : Along graph occurredAt s₀ w.state)
    (hlisted : ∀ id ∈ graph.topologicalOrder, Listed graph s₀ id)
    (hpasses : pendingCount graph.topologicalOrder w.state < passes) :
    (∃ w', Along graph occurredAt s₀ w'.state ∧
      ∀ more, propagateLoop graph occurredAt (passes + more) w = .ok () w') ∨
    ∃ id ∈ graph.topologicalOrder, Late graph occurredAt s₀ id ∧
      ∃ e t, propagateLoop graph occurredAt passes w = .error e t := by
  induction passes generalizing w with
  | zero => omega
  | succ _ ih =>
    rcases propagatePass_along hutc h hlisted with
      ⟨changed, t, hpass, ht⟩ | ⟨id, hid, hlate, e, t, hpass⟩
    · obtain ⟨-, -, hfewer, -⟩ := propagatePass_ok (List.Subset.refl _) h.only hpass
      cases changed with
      | false =>
        refine Or.inl ⟨t, ht, fun more => ?_⟩
        rw [Nat.succ_add]
        exact Op.bind_ok_iff.mpr ⟨_, _, hpass, rfl⟩
      | true =>
        have hlt := hfewer rfl
        rcases ih ht (by omega) with ⟨w', hw', hloop⟩ | ⟨id, hid, hlate, e, u, hloop⟩
        · refine Or.inl ⟨w', hw', fun more => ?_⟩
          rw [Nat.succ_add]
          exact Op.bind_ok_iff.mpr ⟨_, _, hpass, hloop more⟩
        · exact Or.inr ⟨id, hid, hlate, e, u, Op.bind_error_iff.mpr (Or.inr ⟨_, _, hpass, hloop⟩)⟩
    · exact Or.inr ⟨id, hid, hlate, e, t, Op.bind_error_iff.mpr (Or.inl hpass)⟩

end Steps

/-! ## Propagation as a whole -/

/-- Propagation ends, whatever more passes it is given; exactly the doomed steps are blocked, and a
second propagation at any time changes nothing. -/
def Settles (graph : PlanGraph) (occurredAt : DateTime) (w : World) : Prop :=
  ∃ w', propagateBlocked graph occurredAt w = .ok () w' ∧
    (∀ passes, graph.topologicalOrder.length < passes →
      propagateLoop graph occurredAt passes w = .ok () w') ∧
    (∀ id ∈ graph.topologicalOrder, Doomed graph w.state id →
      w'.state.statusOf id = some .blocked) ∧
    (∀ id, ¬ Doomed graph w.state id → w'.state.statusOf id = w.state.statusOf id) ∧
    ∀ later, propagateBlocked graph later w' = .ok () w'

/-- No doomed step of the plan was created after both the time of the call and the last update of
the state. -/
def OnTime (plan : Plan) (graph : PlanGraph) (occurredAt : DateTime) (s : AgentState) : Prop :=
  ∀ id ∈ planIds plan, Doomed graph s id → ∀ step, s.steps.get? id = some step →
    ¬ effectiveTime occurredAt s < step.createdAt

theorem listed_of_registered {plan : Plan} {graph : PlanGraph}
    (hplan : PlanGraphValidator.validate plan = .ok graph)
    (hreg : ∀ id ∈ planIds plan, id ∈ s.steps.keys) :
    ∀ id ∈ graph.topologicalOrder, Listed graph s id := by
  have hspec := PlanGraphValidator.validate_spec hplan
  have hids : ∀ id ∈ graph.stepIds, id ∈ s.steps.keys := by
    intro id hid
    rw [hspec.stepIds] at hid
    exact hreg id hid
  have hnamed : ∀ step ∈ plan.steps, ¬ Text.isBlank step.stepId = true := by
    intro step hstep
    unfold PlanGraphValidator.validate at hplan
    obtain ⟨hbasic, -⟩ := seq_eq_ok.mp hplan
    simp only [PlanValidator.validate, seq_eq_ok, except_forM_eq_ok] at hbasic
    obtain ⟨-, -, -, -, hsteps⟩ := hbasic
    have hchecked := hsteps step hstep
    simp only [PlanValidator.validateStep, seq_eq_ok, raiseIf_ok] at hchecked
    exact hchecked.1
  intro id hid
  have hmem : id ∈ graph.stepIds := hspec.perm.mem_iff.mp hid
  refine ⟨?_, hids id hmem, fun d hd => hids d (hspec.deps_mem id hmem d hd)⟩
  rw [hspec.stepIds] at hmem
  obtain ⟨step, hstep, rfl⟩ := List.mem_map.mp hmem
  exact hnamed step hstep

/-- **When propagation settles.**  For every accepted plan and every running state that holds its
steps, propagation ends with exactly the doomed steps blocked and is then idle, precisely when no
doomed step was created after the time of the events: `_effective_time` looks at the call and at the
state, the state machine at the step too. -/
theorem propagation_settles_iff {plan : Plan} {graph : PlanGraph}
    (hplan : PlanGraphValidator.validate plan = .ok graph) {occurredAt : DateTime}
    (hutc : occurredAt.IsUtc) {w : World} (hv : w.state.Valid) (hrun : w.state.status = .running)
    (hreg : ∀ id ∈ planIds plan, id ∈ w.state.steps.keys) :
    Settles graph occurredAt w ↔ OnTime plan graph occurredAt w.state := by
  have hspec := PlanGraphValidator.validate_spec hplan
  have hids : ∀ id, id ∈ graph.topologicalOrder ↔ id ∈ planIds plan := by
    intro id
    rw [hspec.perm.mem_iff, hspec.stepIds]
    rfl
  have hlisted := listed_of_registered hplan hreg
  have hcount : pendingCount graph.topologicalOrder w.state < graph.topologicalOrder.length + 1 :=
    Nat.lt_succ_of_le (List.length_filter_le _ _)
  have hcall : propagateBlocked graph occurredAt w =
      propagateLoop graph occurredAt (graph.topologicalOrder.length + 1) w := by
    unfold propagateBlocked
    rw [Op.get_bind_apply, if_neg (not_not.mpr hrun)]
  have hloop := propagateLoop_along hutc (Along.refl hv hrun) hlisted hcount
  constructor
  · rintro ⟨w', hok, -, hblocked, -, -⟩ id hid hdoom step hstep
    rcases hloop with ⟨t, ht, hall⟩ | ⟨_, -, -, e, t, herr⟩
    · obtain rfl : w' = t := by
        rw [hcall, hall 0] at hok
        exact (EStateM.Result.ok.inj hok).2.symm
      rcases ht.kept id with heq | ⟨-, _, hstep', hontime⟩
      · -- a doomed step is blocked at the end, so it is not as it was
        have hst := hblocked id ((hids id).mpr hid) hdoom
        unfold AgentState.statusOf at hst
        rw [heq] at hst
        have hpend := hdoom.pending
        unfold AgentState.statusOf at hpend
        rw [hst] at hpend
        cases hpend
      · cases hstep.symm.trans hstep'
        exact hontime
    · rw [hcall, herr] at hok
      cases hok
  · intro hontime
    rcases hloop with ⟨w', hw', hall⟩ | ⟨id, hid, ⟨hdoom, step, hstep, hlate⟩, -⟩
    · have hok : propagateBlocked graph occurredAt w = .ok () w' := hcall.trans (hall 0)
      obtain ⟨hblocked, hkept, hfix⟩ := propagateBlocked_spec hplan hrun hok
      refine ⟨w', hok, fun passes hpasses => ?_, hblocked, hkept, fun later => ?_⟩
      · obtain ⟨more, rfl⟩ := Nat.exists_eq_add_of_le hpasses
        exact hall more
      · have hidle : propagatePass graph later graph.topologicalOrder w' = .ok false w' :=
          propagatePass_of_fixed (fun id hid => hw'.listed (hlisted id hid)) hfix
        unfold propagateBlocked
        rw [Op.get_bind_apply, if_neg (not_not.mpr hw'.run)]
        exact Op.bind_ok_iff.mpr ⟨_, _, hidle, rfl⟩
    · exact absurd hlate (hontime id ((hids id).mp hid) hdoom step hstep)

/-- `a` has failed and `b`, which waits for it, was created at the given second. -/
def failedWorld (created : Fin 60) : World :=
  { sampleWorld with
    state := { sampleWorld.state with
      updatedAt := .epochSecond 3
      steps := (Dict.empty.set "a" ⟨"a", "step", .failed, .epochSecond 1, some (.epochSecond 2),
        some (.epochSecond 3), some "STEP_FAILED", none⟩).set "b"
        ⟨"b", "step", .pending, .epochSecond created, none, none, none, none⟩ } }

theorem failedWorld_facts (created : Fin 60) (h : created = 1 ∨ created = 9) :
    (failedWorld created).state.Valid ∧ (failedWorld created).state.status = .running ∧
      ∀ id ∈ planIds chainPlan, id ∈ (failedWorld created).state.steps.keys := by
  refine ⟨AgentState.validate_eq_ok_iff.mp ?_, rfl, ?_⟩
  · rcases h with rfl | rfl
    all_goals decide +kernel
  · rcases h with rfl | rfl
    all_goals decide

theorem propagation_settles_chain : ∃ graph, PlanGraphValidator.validate chainPlan = .ok graph ∧
      Settles graph (.epochSecond 4) (failedWorld 1) := by
  obtain ⟨graph, hplan⟩ : ∃ graph, PlanGraphValidator.validate chainPlan = .ok graph := ⟨_, rfl⟩
  obtain ⟨hv, hrun, hreg⟩ := failedWorld_facts 1 (Or.inl rfl)
  have hontime : ∀ id ∈ planIds chainPlan, ∀ step ∈ (failedWorld 1).state.steps.get? id,
      ¬ effectiveTime (.epochSecond 4) (failedWorld 1).state < step.createdAt := by
    decide +kernel
  have hutc : (DateTime.epochSecond 4).IsUtc := rfl
  exact ⟨graph, hplan, (propagation_settles_iff hplan hutc hv hrun hreg).mpr
    fun id hid _ step hstep => hontime id hid step hstep⟩

/-- `b` was created at second 9, the state was last updated at second 3, and the call comes at
second 4: the event is refused. -/
theorem propagation_refused : ∃ graph,
    PlanGraphValidator.validate chainPlan = .ok graph ∧ (failedWorld 9).state.Valid ∧
      (failedWorld 9).state.status = .running ∧
      (∀ id ∈ planIds chainPlan, id ∈ (failedWorld 9).state.steps.keys) ∧
      ¬ Settles graph (.epochSecond 4) (failedWorld 9) := by
  obtain ⟨hv, hrun, hreg⟩ := failedWorld_facts 9 (Or.inr rfl)
  have hrefused : ((PlanGraphValidator.validate chainPlan).toOption.map fun graph =>
      (Op.value? (propagateBlocked graph (.epochSecond 4)) (failedWorld 9)).isNone) =
        some true := by decide +kernel
  obtain ⟨graph, hplan⟩ : ∃ graph, PlanGraphValidator.validate chainPlan = .ok graph := ⟨_, rfl⟩
  refine ⟨graph, hplan, hv, hrun, hreg, ?_⟩
  rintro ⟨_, hok, -⟩
  rw [hplan] at hrefused
  have hnone : (Op.value? (propagateBlocked graph (.epochSecond 4)) (failedWorld 9)).isNone =
      true := Option.some.inj hrefused
  unfold Op.value? at hnone
  rw [hok] at hnone
  cases hnone

end SerialScheduler

end LocalAgent.Runtime
