import LocalAgent.Runtime.GuardianOutcomes

/-!
# LocalAgent.Runtime.GuardianRows — what holds between the rows of a scope

* `Guardian.Rows`: a version has work only when those before it in its cycle are completed, at most
  one work of a version is open, and a result is fetched only for a version that has ended.
* `Outcome.ending`: every end of a work keeps them and says what the rows become.
* `Rows.claimDue`, `Rows.prepare`, `Rows.finish`: the transactions keep them.
-/

namespace LocalAgent.Runtime

variable {status : VersionStatus} {sequence : ℕ} {due : ℤ}

namespace Guardian

/-! ## The invariant -/

/-- A row that is not completed. -/
def Open (s : Guardian) (key : WorkKey) : Prop :=
  ∃ work, s.due.get? key = some work ∧ work.state ≠ .completed

structure Rows (s : Guardian) : Prop where
  ids : ∀ id v, s.versions.get? id = some v → v.versionExecutionId = id
  ordinals : ∀ i v j w, s.versions.get? i = some v → s.versions.get? j = some w →
    v.cycleId = w.cycleId → v.ordinal = w.ordinal → i = j
  placed : ∀ key work, s.due.get? key = some work → ∃ v, s.versions.get? key.versionId = some v ∧
    ∀ j w, s.versions.get? j = some w → w.cycleId = v.cycleId → w.ordinal < v.ordinal →
      w.status = .completed
  unique : ∀ k k', s.Open k → s.Open k' → k.versionId = k'.versionId → k = k'
  ended : ∀ id v, s.versions.get? id = some v → v.status = .completed → v.terminalKnown = true
  fetched : ∀ key work v, s.due.get? key = some work → key.operation = .fetchTerminalResult →
    s.versions.get? key.versionId = some v → v.terminalKnown = true
  attempted : ∀ id v, s.versions.get? id = some v → v.submitAttempts ≠ 0 →
    ∃ key work, s.due.get? key = some work ∧ key.versionId = id
  dispatchable : ∀ key work v, s.due.get? key = some work → work.state ≠ .completed →
    key.operation = .dispatchVersion → work.startedAt = none →
    s.versions.get? key.versionId = some v → v.submitAttempts < 3
  /-- a dispatch that is in flight as a lookup is one of an unknown version -/
  prepared : ∀ key work operation, s.due.get? key = some work → work.state = .claimed →
    work.prepared = some operation → work.startedAt ≠ none ∧
      (operation.read = true → key.operation = .dispatchVersion →
        ∃ v, s.versions.get? key.versionId = some v ∧ v.known = false)

variable {s s' : Guardian}

/-- The rows are about versions and due work alone. -/
theorem Rows.congr (h : s.Rows) (hversions : s'.versions = s.versions) (hdue : s'.due = s.due) :
    s'.Rows := by
  have hopen : ∀ key, s'.Open key ↔ s.Open key := fun key => by rw [Open, Open, hdue]
  refine ⟨?_, ?_, ?_, ?_, ?_, ?_, ?_, ?_, ?_⟩
  · rw [hversions]
    exact h.ids
  · rw [hversions]
    exact h.ordinals
  · rw [hversions, hdue]
    exact h.placed
  · simp only [hopen]
    exact h.unique
  · rw [hversions]
    exact h.ended
  · rw [hversions, hdue]
    exact h.fetched
  · rw [hversions, hdue]
    exact h.attempted
  · rw [hversions, hdue]
    exact h.dispatchable
  · rw [hversions, hdue]
    exact h.prepared

/-! ## Writes of one row -/

/-- A row of a work is written: it may be completed, but not opened again. -/
theorem Rows.setWork (h : s.Rows) {key : WorkKey} {work work' : DueWork}
    (hget : s.due.get? key = some work)
    (hstate : work'.state ≠ .completed → work.state ≠ .completed)
    (hstarted : work'.startedAt = none → work.startedAt = none)
    (hprepared : ∀ operation, work'.state = .claimed → work'.prepared = some operation →
      work'.startedAt ≠ none ∧ (operation.read = true → key.operation = .dispatchVersion →
        ∃ v, s.versions.get? key.versionId = some v ∧ v.known = false)) :
    { s with due := s.due.set key work' }.Rows := by
  have hopen : ∀ k, { s with due := s.due.set key work' }.Open k → s.Open k := by
    rintro k ⟨w, hw, hne⟩
    rcases Dict.get?_set_cases hw with ⟨hk, rfl⟩ | ⟨-, hw⟩
    · exact ⟨work, hk ▸ hget, hstate hne⟩
    · exact ⟨w, hw, hne⟩
  have hback : ∀ k w, (s.due.set key work').get? k = some w → ∃ w', s.due.get? k = some w' := by
    intro k w hw
    rw [Dict.get?_set] at hw
    split_ifs at hw with hk
    · exact ⟨work, hk ▸ hget⟩
    · exact ⟨w, hw⟩
  refine ⟨h.ids, h.ordinals, ?_, ?_, h.ended, ?_, ?_, ?_, ?_⟩
  · intro k w hw
    obtain ⟨w', hw'⟩ := hback k w hw
    exact h.placed k w' hw'
  · exact fun k k' hk hk' => h.unique k k' (hopen k hk) (hopen k' hk')
  · intro k w v hw
    obtain ⟨w', hw'⟩ := hback k w hw
    exact h.fetched k w' v hw'
  · intro id v hv hattempts
    obtain ⟨k, w, hw, hid⟩ := h.attempted id v hv hattempts
    by_cases hk : k = key
    · exact ⟨k, work', by rw [Dict.get?_set, if_pos hk], hid⟩
    · exact ⟨k, w, by rw [Dict.get?_set, if_neg hk]; exact hw, hid⟩
  · intro k w v hw hne hop hnone hv
    rcases Dict.get?_set_cases hw with ⟨hk, rfl⟩ | ⟨-, hw⟩
    · subst hk
      exact h.dispatchable k work v hget (hstate hne) hop (hstarted hnone) hv
    · exact h.dispatchable k w v hw hne hop hnone hv
  · intro k w operation hw hclaimed hprep
    rcases Dict.get?_set_cases hw with ⟨hk, rfl⟩ | ⟨-, hw⟩
    · subst hk
      exact hprepared operation hclaimed hprep
    · exact h.prepared k w operation hw hclaimed hprep

theorem Rows.complete (h : s.Rows) {key : WorkKey} {work work' : DueWork}
    (hget : s.due.get? key = some work) (hsame : work'.startedAt = work.startedAt) (dbNow : ℤ) :
    (s.complete key work' dbNow).Rows := by
  refine h.setWork hget (fun hne => absurd rfl hne) (fun hnone => hsame ▸ hnone) ?_
  intro _ hclaimed
  cases hclaimed

/-- A version is rewritten by a later stage of itself. -/
theorem Rows.setVersion (h : s.Rows) (v₀ : Version) {v : Version}
    (hget : s.versions.get? v.versionExecutionId = some v₀)
    (hcycle : v.cycleId = v₀.cycleId) (hordinal : v.ordinal = v₀.ordinal)
    (hkept : v₀.status = .completed → v.status = .completed)
    (hended : v.status = .completed → v.terminalKnown = true)
    (hknown : v₀.terminalKnown = true → v.terminalKnown = true)
    (hattempts : v.submitAttempts ≠ 0 →
      ∃ key work, s.due.get? key = some work ∧ key.versionId = v.versionExecutionId)
    (hopen : ∀ key work, s.due.get? key = some work → work.state ≠ .completed →
      key.versionId = v.versionExecutionId → key.operation = .dispatchVersion →
      (work.startedAt = none → v.submitAttempts < 3) ∧
      (work.state = .claimed → ∀ operation, work.prepared = some operation →
        operation.read = true → v.known = false)) :
    (s.setVersion v).Rows := by
  have hback : ∀ id w, (s.setVersion v).versions.get? id = some w →
      ∃ w₀, s.versions.get? id = some w₀ ∧ w.cycleId = w₀.cycleId ∧ w.ordinal = w₀.ordinal ∧
        (w₀.status = .completed → w.status = .completed) := by
    intro id w hw
    simp only [Guardian.setVersion, Dict.get?_set] at hw
    split_ifs at hw with hid
    · cases hw
      exact ⟨v₀, hid ▸ hget, hcycle, hordinal, hkept⟩
    · exact ⟨w, hw, rfl, rfl, fun hc => hc⟩
  refine ⟨?_, ?_, ?_, h.unique, ?_, ?_, ?_, ?_, ?_⟩
  · intro id w hw
    simp only [Guardian.setVersion, Dict.get?_set] at hw
    split_ifs at hw with hid
    · cases hw
      exact hid.symm
    · exact h.ids id w hw
  · intro i w j x hw hx hc ho
    obtain ⟨w₀, hw₀, hwc, hwo, -⟩ := hback i w hw
    obtain ⟨x₀, hx₀, hxc, hxo, -⟩ := hback j x hx
    exact h.ordinals i w₀ j x₀ hw₀ hx₀ (by rw [← hwc, ← hxc, hc]) (by rw [← hwo, ← hxo, ho])
  · intro key work hwork
    obtain ⟨w₀, hw₀, hlower⟩ := h.placed key work hwork
    obtain ⟨w, hw, hwc, hwo⟩ : ∃ w, (s.setVersion v).versions.get? key.versionId = some w ∧
        w.cycleId = w₀.cycleId ∧ w.ordinal = w₀.ordinal := by
      simp only [Guardian.setVersion, Dict.get?_set]
      split_ifs with hid
      · rw [hid, hget] at hw₀
        cases hw₀
        exact ⟨v, rfl, hcycle, hordinal⟩
      · exact ⟨w₀, hw₀, rfl, rfl⟩
    refine ⟨w, hw, fun j x hx hxc hxo => ?_⟩
    obtain ⟨x₀, hx₀, hxc₀, hxo₀, hxs⟩ := hback j x hx
    exact hxs (hlower j x₀ hx₀ (by rw [← hxc₀, hxc, hwc]) (by rw [← hxo₀, ← hwo]; exact hxo))
  · intro id w hw hstatus
    simp only [Guardian.setVersion, Dict.get?_set] at hw
    split_ifs at hw with hid
    · cases hw
      exact hended hstatus
    · exact h.ended id w hw hstatus
  · intro key work w hwork hop hw
    simp only [Guardian.setVersion, Dict.get?_set] at hw
    split_ifs at hw with hid
    · cases hw
      exact hknown (h.fetched key work v₀ hwork hop (hid ▸ hget))
    · exact h.fetched key work w hwork hop hw
  · intro id w hw hne
    simp only [Guardian.setVersion, Dict.get?_set] at hw
    split_ifs at hw with hid
    · cases hw
      obtain ⟨key, work, hwork, hkey⟩ := hattempts hne
      exact ⟨key, work, hwork, hkey.trans hid.symm⟩
    · exact h.attempted id w hw hne
  · intro key work w hwork hne hop hnone hw
    simp only [Guardian.setVersion, Dict.get?_set] at hw
    split_ifs at hw with hid
    · cases hw
      exact (hopen key work hwork hne hid hop).1 hnone
    · exact h.dispatchable key work w hwork hne hop hnone hw
  · intro key work operation hwork hclaimed hprep
    obtain ⟨hstarted, hread⟩ := h.prepared key work operation hwork hclaimed hprep
    refine ⟨hstarted, fun hr hop => ?_⟩
    simp only [Guardian.setVersion, Dict.get?_set]
    split_ifs with hid
    · refine ⟨v, rfl, ?_⟩
      exact (hopen key work hwork (by rw [hclaimed]; decide) hid hop).2 hclaimed operation hprep hr
    · exact hread hr hop

/-! ## The end of a work -/

structure Ending (s : Guardian) (cycle : Cycle) (version : Version) : Prop where
  row : s.versions.get? version.versionExecutionId = some version
  cycleId : version.cycleId = cycle.cycleId
  alive : version.status.terminal = false
  worked : ∃ key work, s.due.get? key = some work ∧ key.versionId = version.versionExecutionId
  free : ∀ key, s.Open key → key.versionId ≠ version.versionExecutionId

variable {cycle : Cycle} {version v : Version} {now : ℤ}

theorem Ending.not_completed (h : s.Ending cycle version) : version.status ≠ .completed := by
  intro he
  have := h.alive
  rw [he] at this
  cases this

theorem Ending.lower (h : s.Ending cycle version) (hrows : s.Rows) :
    ∀ j w, s.versions.get? j = some w → w.cycleId = version.cycleId →
      w.ordinal < version.ordinal → w.status = .completed := by
  obtain ⟨key, work, hwork, hid⟩ := h.worked
  obtain ⟨w, hw, hlower⟩ := hrows.placed key work hwork
  rw [hid, h.row] at hw
  cases hw
  exact hlower

theorem Ending.rows (h : s.Ending cycle version) (hrows : s.Rows)
    (hid : v.versionExecutionId = version.versionExecutionId)
    (hcycle : v.cycleId = version.cycleId) (hordinal : v.ordinal = version.ordinal)
    (hended : v.status = .completed → v.terminalKnown = true)
    (hknown : version.terminalKnown = true → v.terminalKnown = true) :
    (s.setVersion v).Rows := by
  refine hrows.setVersion version (hid ▸ h.row) hcycle hordinal
    (fun hc => absurd hc h.not_completed) hended hknown (fun _ => hid ▸ h.worked) ?_
  intro key work hwork hne hkey
  exact absurd (hkey.trans hid) (h.free key ⟨work, hwork, hne⟩)

/-- New due work of a version whose predecessors are completed. -/
theorem Rows.dueWork (h : s.Rows) {operation : GuardianOperation}
    (hget : s.versions.get? v.versionExecutionId = some v)
    (hlower : ∀ j w, s.versions.get? j = some w → w.cycleId = v.cycleId →
      w.ordinal < v.ordinal → w.status = .completed)
    (hfree : ∀ key, s.Open key → key.versionId ≠ v.versionExecutionId)
    (hfetch : operation = .fetchTerminalResult → v.terminalKnown = true)
    (hdispatch : operation = .dispatchVersion → v.submitAttempts < 3) :
    (s.dueWork cycle v operation sequence due).Rows := by
  unfold Guardian.dueWork
  simp only
  split_ifs with hmem
  · exact h
  have hnone : s.due.get? ⟨v.versionExecutionId, operation, sequence⟩ = none :=
    Dict.get?_eq_none_iff.mpr hmem
  refine ⟨h.ids, h.ordinals, ?_, ?_, h.ended, ?_, ?_, ?_, ?_⟩
  · intro key work hwork
    simp only [Dict.get?_set] at hwork
    split_ifs at hwork with hk
    · rw [hk]
      exact ⟨v, hget, hlower⟩
    · exact h.placed key work hwork
  · have hcases : ∀ t k,
        { s with due := s.due.set ⟨v.versionExecutionId, operation, sequence⟩ t }.Open k →
        k = ⟨v.versionExecutionId, operation, sequence⟩ ∨ s.Open k := by
      rintro t k ⟨w, hw, hne⟩
      simp only [Dict.get?_set] at hw
      split_ifs at hw with hk
      · exact .inl hk
      · exact .inr ⟨w, hw, hne⟩
    intro k k' hk hk' hid
    rcases hcases _ k hk with rfl | hk <;> rcases hcases _ k' hk' with rfl | hk'
    · rfl
    · exact absurd hid.symm (hfree k' hk')
    · exact absurd hid (hfree k hk)
    · exact h.unique k k' hk hk' hid
  · intro key work w hwork hop hw
    simp only [Dict.get?_set] at hwork
    split_ifs at hwork with hk
    · subst hk
      cases hget.symm.trans hw
      exact hfetch hop
    · exact h.fetched key work w hwork hop hw
  · intro id w hw hne
    obtain ⟨key, work, hwork, hid⟩ := h.attempted id w hw hne
    refine ⟨key, work, ?_, hid⟩
    rwa [Dict.get?_set, if_neg (fun hk => by rw [hk, hnone] at hwork; cases hwork)]
  · intro key work w hwork hne hop hstart hw
    simp only [Dict.get?_set] at hwork
    split_ifs at hwork with hk
    · subst hk
      cases hget.symm.trans hw
      exact hdispatch hop
    · exact h.dispatchable key work w hwork hne hop hstart hw
  · intro key work op hwork hclaimed hprep
    rcases Dict.get?_set_cases hwork with ⟨-, rfl⟩ | ⟨-, hwork⟩
    · cases hclaimed
    · exact h.prepared key work op hwork hclaimed hprep

theorem mapOccupancy_versions (f : Occupancy → Occupancy) :
    (s.mapOccupancy cycle f).versions = s.versions ∧ (s.mapOccupancy cycle f).due = s.due ∧
      (s.mapOccupancy cycle f).cycles = s.cycles := by
  unfold mapOccupancy
  split <;> exact ⟨rfl, rfl, rfl⟩

theorem stop_rows (s : Guardian) (cycle : Cycle) (v : Version) (status : VersionStatus)
    (reason : String) (now : ℤ) (hold : Bool) :
    (s.stop cycle v status reason now hold).versions = (s.versions.set v.versionExecutionId
      { v with status := status, reason := some reason, completedAt := some now }).mapValues
        (skipPlanned cycle reason now) ∧
    (s.stop cycle v status reason now hold).due = s.due ∧
    (s.stop cycle v status reason now hold).cycles = s.cycles.set cycle.cycleId
      { cycle with status := status.stopped, reason := some reason, completedAt := some now } :=
  @mapOccupancy_versions (s.stopRows cycle v status reason now) cycle
    (stopOccupancy cycle hold now)

theorem release_rows (s : Guardian) (cycle : Cycle) : (s.release cycle).versions = s.versions ∧
    (s.release cycle).due = s.due ∧ (s.release cycle).cycles = s.cycles :=
  mapOccupancy_versions _

theorem skipPlanned_spec (cycle : Cycle) (reason : String) (now : ℤ) (v : Version) :
    (skipPlanned cycle reason now v).versionExecutionId = v.versionExecutionId ∧
    (skipPlanned cycle reason now v).cycleId = v.cycleId ∧
    (skipPlanned cycle reason now v).ordinal = v.ordinal ∧
    ((skipPlanned cycle reason now v).status = .completed ↔ v.status = .completed) ∧
    (skipPlanned cycle reason now v).lastObservedState = v.lastObservedState ∧
    (skipPlanned cycle reason now v).submitAttempts = v.submitAttempts ∧
    (skipPlanned cycle reason now v).known = v.known ∧
    (skipPlanned cycle reason now v).firstUnknownAt = v.firstUnknownAt := by
  unfold skipPlanned
  split_ifs with h
  · refine ⟨rfl, rfl, rfl, ?_, rfl, rfl, rfl, rfl⟩
    rw [h.2]
    constructor <;> intro he <;> cases he
  · exact ⟨rfl, rfl, rfl, Iff.rfl, rfl, rfl, rfl, rfl⟩

/-- The planned versions of a cycle are skipped. -/
theorem Rows.skip (h : s.Rows) (cycle : Cycle) (reason : String) (now : ℤ) :
    { s with versions := s.versions.mapValues (skipPlanned cycle reason now) }.Rows := by
  have hback : ∀ id w, (s.versions.mapValues (skipPlanned cycle reason now)).get? id = some w →
      ∃ w₀, s.versions.get? id = some w₀ ∧ w = skipPlanned cycle reason now w₀ := by
    intro id w hw
    rw [Dict.get?_mapValues] at hw
    obtain ⟨w₀, hw₀, rfl⟩ := Option.map_eq_some_iff.mp hw
    exact ⟨w₀, hw₀, rfl⟩
  have hfor : ∀ id w, s.versions.get? id = some w →
      (s.versions.mapValues (skipPlanned cycle reason now)).get? id =
        some (skipPlanned cycle reason now w) := by
    intro id w hw
    rw [Dict.get?_mapValues, hw]
    rfl
  have hspec := skipPlanned_spec cycle reason now
  have hknown : ∀ w, (skipPlanned cycle reason now w).terminalKnown = w.terminalKnown := by
    intro w
    rw [Version.terminalKnown, Version.terminalKnown, (hspec w).2.2.2.2.1]
  refine ⟨?_, ?_, ?_, h.unique, ?_, ?_, ?_, ?_, ?_⟩
  · intro id w hw
    obtain ⟨w₀, hw₀, rfl⟩ := hback id w hw
    rw [(hspec w₀).1]
    exact h.ids id w₀ hw₀
  · intro i w j x hw hx hc ho
    obtain ⟨w₀, hw₀, rfl⟩ := hback i w hw
    obtain ⟨x₀, hx₀, rfl⟩ := hback j x hx
    rw [(hspec w₀).2.1, (hspec x₀).2.1] at hc
    rw [(hspec w₀).2.2.1, (hspec x₀).2.2.1] at ho
    exact h.ordinals i w₀ j x₀ hw₀ hx₀ hc ho
  · intro key work hwork
    obtain ⟨w₀, hw₀, hlower⟩ := h.placed key work hwork
    refine ⟨_, hfor _ _ hw₀, fun j x hx hc ho => ?_⟩
    obtain ⟨x₀, hx₀, rfl⟩ := hback j x hx
    rw [(hspec w₀).2.1, (hspec x₀).2.1] at hc
    rw [(hspec w₀).2.2.1, (hspec x₀).2.2.1] at ho
    exact (hspec x₀).2.2.2.1.mpr (hlower j x₀ hx₀ hc ho)
  · intro id w hw hstatus
    obtain ⟨w₀, hw₀, rfl⟩ := hback id w hw
    rw [hknown]
    exact h.ended id w₀ hw₀ ((hspec w₀).2.2.2.1.mp hstatus)
  · intro key work w hwork hop hw
    obtain ⟨w₀, hw₀, rfl⟩ := hback _ w hw
    rw [hknown]
    exact h.fetched key work w₀ hwork hop hw₀
  · intro id w hw hne
    obtain ⟨w₀, hw₀, rfl⟩ := hback id w hw
    rw [(hspec w₀).2.2.2.2.2.1] at hne
    exact h.attempted id w₀ hw₀ hne
  · intro key work w hwork hne hop hstart hw
    obtain ⟨w₀, hw₀, rfl⟩ := hback _ w hw
    rw [(hspec w₀).2.2.2.2.2.1]
    exact h.dispatchable key work w₀ hwork hne hop hstart hw₀
  · intro key work op hwork hclaimed hprep
    obtain ⟨hstarted, hread⟩ := h.prepared key work op hwork hclaimed hprep
    refine ⟨hstarted, fun hr hop => ?_⟩
    obtain ⟨w₀, hw₀, hunknown⟩ := hread hr hop
    exact ⟨_, hfor _ _ hw₀, by rw [(hspec w₀).2.2.2.2.2.2.1]; exact hunknown⟩

theorem Ending.stop (h : s.Ending cycle version) (hrows : s.Rows) (hv : version.Evolves v)
(hstatus : status ≠ .completed) (reason : String) (now : ℤ)
    (hold : Bool) : (s.stop cycle v status reason now hold).Rows := by
  have hset := h.rows hrows (v := { v with
    status := status, reason := some reason, completedAt := some now }) hv.id hv.cycleId hv.ordinal
    (fun hc => absurd hc hstatus) hv.terminalKnown
  have hskip : (s.stopRows cycle v status reason now).Rows :=
    (hset.skip cycle reason now).congr rfl rfl
  exact hskip.congr (mapOccupancy_versions _).1 (mapOccupancy_versions _).2.1

/-- `progress` makes the next version due, or completes the cycle. -/
theorem progress_cases (h : s.progress cycle version now = .ok s') :
    (∃ successor due, successor ∈ s.versionsOf cycle ∧ successor.ordinal = version.ordinal + 1 ∧
      successor.status = .planned ∧ s' = s.dueWork cycle successor .dispatchVersion 0 due) ∨
    s' = s ∨
    ((∀ w ∈ s.versionsOf cycle, w.status = .completed) ∧ ∃ status : CycleStatus,
      status.terminal = true ∧ s' = (s.setCycle { cycle with
        status := status, completedAt := some now }).release { cycle with
        status := status, completedAt := some now }) := by
  unfold progress at h
  split_ifs at h with hordinal hall
  · split at h
    · cases h
    · rename_i successor hfind
      have hnext := List.find?_some hfind
      split_ifs at h with hplanned
      · cases h
        exact .inl ⟨successor, _, List.mem_of_find?_eq_some hfind, of_decide_eq_true hnext,
          hplanned, rfl⟩
      · cases h
        exact .inr (.inl rfl)
  · cases h
    refine .inr (.inr ⟨fun w hw => of_decide_eq_true (List.all_eq_true.mp hall w hw), _, ?_, rfl⟩)
    split_ifs <;> rfl

theorem mem_versionsOf (hrows : s.Rows) {w : Version} (hw : w ∈ s.versionsOf cycle) :
    s.versions.get? w.versionExecutionId = some w ∧ w.cycleId = cycle.cycleId := by
  obtain ⟨hmem, hcycle⟩ := List.mem_filter.mp hw
  obtain ⟨id, hid⟩ := Dict.mem_values_iff.mp hmem
  rw [hrows.ids id w hid]
  exact ⟨hid, of_decide_eq_true hcycle⟩

/-- Every outcome keeps the rows. -/
theorem Ending.outcome (h : s.Ending cycle version) (hrows : s.Rows)
    {operation : GuardianOperation} {outcome : ProviderOutcome}
    (hfetched : operation = .fetchTerminalResult → version.terminalKnown = true)
    (ho : Outcome s cycle version operation outcome now s') : s'.Rows := by
  cases ho with
  | stopped _ _ reason hold hv _ hstatus =>
    exact h.stop hrows hv hstatus reason now hold
  | goesOn _ _ _ _ hv hfetch hdispatch =>
    have hset := h.rows hrows hv.id hv.cycleId hv.ordinal
      (fun hc => by
        have := hv.not_terminal h.alive
        rw [hc] at this
        cases this) hv.terminalKnown
    refine hset.dueWork ?_ ?_ ?_ ?_ hdispatch
    · simp [Guardian.setVersion]
    · obtain ⟨key, work, hwork, hid⟩ := h.worked
      obtain ⟨w, hw, hlower⟩ := hset.placed key work hwork
      rw [hid, ← hv.id] at hw
      simp only [Guardian.setVersion, Dict.get?_set, if_true, Option.some.injEq] at hw
      subst hw
      exact hlower
    · intro key hkey
      rw [hv.id]
      exact h.free key hkey
    · intro hop
      exact (hfetch hop).elim id fun hf => hv.terminalKnown (hfetched hf)
  | completed v counts summary _ hv hseen hnext =>
    have hset := h.rows hrows (v := v.completedWith counts summary now) hv.id hv.cycleId
      hv.ordinal (fun _ => hseen) (fun _ => hseen)
    rcases progress_cases hnext with ⟨successor, _, hmem, hordinal, hplanned, rfl⟩ | rfl |
        ⟨-, status, -, rfl⟩
    · obtain ⟨hrow, hcycle⟩ := mem_versionsOf hset hmem
      have hnum : successor.ordinal = version.ordinal + 1 := by
        rw [hordinal, ← hv.ordinal]
      -- the versions before the successor: the completed one, and those before it
      have hlower : ∀ j w,
          (s.setVersion (v.completedWith counts summary now)).versions.get? j = some w →
          w.cycleId = successor.cycleId → w.ordinal < successor.ordinal →
          w.status = .completed := by
        intro j w hw hc _
        simp only [Guardian.setVersion, Dict.get?_set] at hw
        split_ifs at hw with hj
        · cases hw
          rfl
        · have hcv : w.cycleId = version.cycleId := by rw [hc, hcycle, h.cycleId]
          have hov : w.ordinal ≠ version.ordinal := by
            intro he
            exact hj ((hrows.ordinals j w _ version hw h.row hcv he).trans hv.id.symm)
          exact h.lower hrows j w hw hcv (by omega)
      -- a work of the successor would mean that the completed version was completed before
      have hnowork : ∀ key work, s.due.get? key = some work →
          key.versionId ≠ successor.versionExecutionId := by
        intro key work hwork hid
        obtain ⟨w, hw, hbefore⟩ := hrows.placed key work hwork
        have hne : successor.versionExecutionId ≠ version.versionExecutionId := by
          intro he
          simp only [Guardian.setVersion, Dict.get?_set, he, hv.id, if_true,
            Option.some.injEq] at hrow
          rw [← hrow] at hplanned
          cases hplanned
        have hold : s.versions.get? successor.versionExecutionId = some successor := by
          simpa [Guardian.setVersion, Dict.get?_set, hv.id, hne] using hrow
        rw [hid, hold] at hw
        cases hw
        exact h.not_completed (hbefore _ version h.row (by rw [hcycle, h.cycleId]) (by omega))
      have hfree : ∀ key, s.Open key → key.versionId ≠ successor.versionExecutionId := by
        rintro key ⟨work, hwork, -⟩
        exact hnowork key work hwork
      have hzero : successor.submitAttempts < 3 := by
        by_contra hne
        obtain ⟨key, work, hwork, hid⟩ := hset.attempted _ successor hrow (by omega)
        exact hnowork key work hwork hid
      exact hset.dueWork hrow hlower hfree (by simp) fun _ => hzero
    · exact hset
    · exact hset.congr (mapOccupancy_versions _).1 (mapOccupancy_versions _).2.1

end Guardian

namespace Guardian

variable {s s' : Guardian} {cycle : Cycle} {version v : Version} {now dbNow : ℤ} {key : WorkKey}
  {work : DueWork}

/-! ## A work may be completed first -/

theorem complete_mapOccupancy (f : Occupancy → Occupancy) :
    (s.complete key work dbNow).mapOccupancy cycle f =
      (s.mapOccupancy cycle f).complete key work dbNow := by
  unfold mapOccupancy complete
  simp only
  split <;> rfl

theorem complete_stop {reason : String} {hold : Bool} :
    (s.complete key work dbNow).stop cycle version status reason now hold =
      (s.stop cycle version status reason now hold).complete key work dbNow := by
  exact complete_mapOccupancy (s := s.stopRows cycle version status reason now) _

variable {operation : GuardianOperation}

theorem complete_dueWork (hkey : key ∈ s.due.keys) :
    (s.complete key work dbNow).dueWork cycle version operation sequence due =
      (s.dueWork cycle version operation sequence due).complete key work dbNow := by
  have hmem : ∀ k, k ∈ (s.complete key work dbNow).due.keys ↔ k ∈ s.due.keys := by
    intro k
    rw [complete, Dict.mem_keys_set]
    exact ⟨fun h => h.elim (fun he => he ▸ hkey) id, .inr⟩
  unfold dueWork
  simp only [hmem]
  split_ifs with hnew
  · rfl
  · have hne : key ≠ ⟨version.versionExecutionId, operation, sequence⟩ :=
      fun he => hnew (he ▸ hkey)
    simp only [complete]
    rw [Dict.set_comm hne hkey]

theorem complete_progress (hkey : key ∈ s.due.keys) (h : s.progress cycle version now = .ok s') :
    (s.complete key work dbNow).progress cycle version now = .ok (s'.complete key work dbNow) := by
  have hversions : (s.complete key work dbNow).versionsOf cycle = s.versionsOf cycle := rfl
  unfold progress at h ⊢
  rw [hversions]
  split_ifs at h ⊢ with hordinal hall
  · split at h
    · cases h
    · split_ifs at h ⊢ with hplanned
      · cases h
        rw [complete_dueWork hkey]
      · cases h
        rfl
  · cases h
    exact congrArg Except.ok (complete_mapOccupancy (s := s.setCycle _) _)

variable {outcome : ProviderOutcome} {collections : ℕ}

theorem Outcome.complete (hkey : key ∈ s.due.keys)
(h : Outcome s cycle version operation outcome now s') :
    Outcome (s.complete key work dbNow) cycle version operation outcome now
      (s'.complete key work dbNow) := by
  cases h with
  | stopped v status reason hold hv hterminal hstatus hhold =>
    rw [← complete_stop]
    exact .stopped v status reason hold hv hterminal hstatus hhold
  | goesOn v next sequence due hv hfetch hdispatch =>
    have hcomm : ((s.setVersion v).dueWork cycle v next sequence due).complete key work dbNow =
        ((s.complete key work dbNow).setVersion v).dueWork cycle v next sequence due :=
      (complete_dueWork (s := s.setVersion v) hkey).symm
    rw [hcomm]
    exact .goesOn v next sequence due hv hfetch hdispatch
  | completed v counts summary _ hv hseen hnext =>
    exact .completed v counts summary _ hv hseen
      (complete_progress (s := s.setVersion _) hkey hnext)

/-! ## The transactions -/

/-- What `locked` has checked of a claim. -/
theorem locked_spec {claim : WorkClaim} (h : s.locked dbNow claim = .ok (work, cycle, version)) :
    s.due.get? claim.workKey = some work ∧ holds work claim dbNow = true ∧
      s.versions.get? claim.workKey.versionId = some version ∧
      s.cycles.get? version.cycleId = some cycle := by
  unfold locked at h
  split at h
  · cases h
  · rename_i w hw
    split_ifs at h with hholds
    have hid : claim.versionId = claim.workKey.versionId := by
      simp only [holds, Bool.and_eq_true] at hholds
      exact of_decide_eq_true hholds.1.2
    split at h
    · cases h
    · rename_i v hv
      split at h
      · cases h
      · rename_i c hc
        obtain ⟨rfl, rfl, rfl⟩ := Prod.mk.inj (Except.ok.inj h) |>.imp id Prod.mk.inj
        exact ⟨hw, hholds, hid ▸ hv, hc⟩

theorem holds_claimed {claim : WorkClaim} (h : holds work claim dbNow = true) :
    work.state = .claimed := by
  simp only [holds, Bool.and_eq_true] at h
  exact of_decide_eq_true h.1.1.1.1

/-- What the transactions know of the rows that they have locked. -/
structure Locked (s : Guardian) (dbNow : ℤ) (claim : WorkClaim) (work : DueWork) (cycle : Cycle)
    (version : Version) : Prop where
  row : s.due.get? claim.workKey = some work
  held : holds work claim dbNow = true
  ofVersion : s.versions.get? claim.workKey.versionId = some version
  ofCycle : s.cycles.get? version.cycleId = some cycle

theorem Locked.not_completed {claim : WorkClaim} (h : s.Locked dbNow claim work cycle version) :
    work.state ≠ .completed := by
  rw [holds_claimed h.held]
  decide

theorem Locked.ending {claim : WorkClaim} (h : s.Locked dbNow claim work cycle version)
    (hrows : s.Rows) (hcycles : ∀ id c, s.cycles.get? id = some c → c.cycleId = id)
    (halive : version.status.terminal = false) (work' : DueWork) :
    (s.complete claim.workKey work' dbNow).Ending cycle version := by
  have hid := hrows.ids _ _ h.ofVersion
  have hopen : s.Open claim.workKey :=
    ⟨work, h.row, by rw [holds_claimed h.held]; decide⟩
  refine ⟨?_, (hcycles _ _ h.ofCycle).symm, halive, ?_, ?_⟩
  · rw [hid]
    exact h.ofVersion
  · exact ⟨claim.workKey, _, by rw [complete, Dict.get?_set, if_pos rfl], hid.symm⟩
  · rintro key ⟨w, hw, hne⟩ hsame
    rw [complete, Dict.get?_set] at hw
    split_ifs at hw with hk
    · cases hw
      exact hne rfl
    · exact hk (hrows.unique key _ ⟨w, hw, hne⟩ hopen (hsame.trans hid))

theorem Rows.finish (hrows : s.Rows) (hcycles : ∀ id c, s.cycles.get? id = some c → c.cycleId = id)
    {prepared : PreparedWork} (hfetch : prepared.operation = .fetchTerminalResult →
      prepared.claim.workKey.operation = .fetchTerminalResult)
    (h : s.finish dbNow now prepared outcome = .ok s') : s'.Rows := by
  unfold Guardian.finish at h
  split at h
  · cases h
  · rename_i work cycle version hlocked
    obtain ⟨hwork, hheld, hversion, hcycle⟩ := locked_spec hlocked
    split_ifs at h with hterminal
    rw [not_or, Bool.not_eq_true, Bool.not_eq_true] at hterminal
    split at h
    · cases h
    · rename_i t hsettle
      cases h
      have hl : s.Locked dbNow prepared.claim work cycle version := ⟨hwork, hheld, hversion, hcycle⟩
      have hkey : prepared.claim.workKey ∈ s.due.keys := Dict.mem_keys_iff.mpr ⟨work, hwork⟩
      have hend := hl.ending hrows hcycles hterminal.2 (outcomeError work outcome)
      refine hend.outcome (hrows.complete hwork ?_ dbNow) ?_ ((settle_outcome hsettle).complete hkey)
      · cases outcome <;> rfl
      · exact fun hop => hrows.fetched _ work version hwork (hfetch hop) hversion

/-! ## Preparation -/

theorem operationOf_evolves (key : WorkKey) (work : DueWork) (version : Version) (now : ℤ) :
    version.Evolves (operationOf key work version now).2 := by
  unfold operationOf
  simp only
  split_ifs <;> first | exact .refl version | exact version.evolves_markUnknown _

/-- The operation of a claim: a lost submit is reconciled first. -/
theorem operationOf_spec (key : WorkKey) (work : DueWork) (version : Version) (now : ℤ) :
    ((operationOf key work version now).1 = .reconcileRemote ∧
      (operationOf key work version now).2.known = false) ∨
    ((operationOf key work version now).1 = key.operation ∧
      (operationOf key work version now).2 = version ∧ version.known = true ∧
      (key.operation = .dispatchVersion → work.startedAt = none)) := by
  unfold operationOf
  simp only
  by_cases hreclaimed : key.operation = .dispatchVersion ∧ work.startedAt ≠ none
  · left
    simp [hreclaimed, Version.markUnknown]
  · simp only [hreclaimed, if_false, false_or]
    split_ifs with hknown
    · exact .inl ⟨rfl, hknown⟩
    · refine .inr ⟨rfl, rfl, by simpa using hknown, fun hop => ?_⟩
      by_contra hne
      exact hreclaimed ⟨hop, hne⟩

variable {claim : WorkClaim}

section

variable (h : s.Locked dbNow claim work cycle version)
include h

section

variable (hrows : s.Rows)
include hrows

theorem Locked.open_iff :
    ∀ k w, s.due.get? k = some w → w.state ≠ .completed →
      k.versionId = version.versionExecutionId → k = claim.workKey := by
  intro k w hw hne hid
  have hopen : s.Open claim.workKey :=
    ⟨work, h.row, by rw [holds_claimed h.held]; decide⟩
  exact hrows.unique k _ ⟨w, hw, hne⟩ hopen (hid.trans (hrows.ids _ _ h.ofVersion))

theorem Locked.setVersion (halive : version.status.terminal = false) (hv : version.Evolves v)
    (hprepared : ∀ operation, work.prepared = some operation → operation.read = true →
      claim.workKey.operation = .dispatchVersion → v.known = false) :
    (s.setVersion v).Rows ∧ (s.setVersion v).Locked dbNow claim work cycle v := by
  have hid := hrows.ids _ _ h.ofVersion
  constructor
  · refine hrows.setVersion version (by rw [hv.id, hid]; exact h.ofVersion) hv.cycleId hv.ordinal
      ?_ ?_ hv.terminalKnown ?_ ?_
    · intro hc
      rw [hc] at halive
      cases halive
    · intro hc
      have halive' := hv.not_terminal halive
      rw [hc] at halive'
      cases halive'
    · exact fun _ => ⟨claim.workKey, work, h.row, by rw [hv.id, hid]⟩
    · intro k w hw hne hk hop
      cases h.open_iff hrows k w hw hne (hk.trans hv.id)
      obtain rfl := Option.mem_unique hw h.row
      refine ⟨fun hnone => ?_, fun _ operation hprep hread => hprepared operation hprep hread hop⟩
      rw [hv.attempts]
      exact hrows.dispatchable _ w version hw hne hop hnone h.ofVersion
  · refine ⟨h.row, h.held, ?_, ?_⟩
    · simp only [Guardian.setVersion, Dict.get?_set]
      rw [if_pos (by rw [hv.id, hid])]
    · rw [hv.cycleId]
      exact h.ofCycle

theorem Locked.operationOf (halive : version.status.terminal = false) (now : ℤ) :
    (s.setVersion (operationOf claim.workKey work version now).2).Rows ∧
      (s.setVersion (operationOf claim.workKey work version now).2).Locked dbNow claim work cycle
        (operationOf claim.workKey work version now).2 := by
  refine h.setVersion hrows halive (operationOf_evolves _ _ _ _) fun operation hprep hread hop => ?_
  rcases operationOf_spec claim.workKey work version now with ⟨-, hunknown⟩ | ⟨-, -, hknown, -⟩
  · exact hunknown
  · -- a lookup that was prepared under this claim is one of an unknown version
    obtain ⟨v, hv, hunknown⟩ := (hrows.prepared _ work operation h.row
      (holds_claimed h.held) hprep).2 hread hop
    cases h.ofVersion.symm.trans hv
    rw [hknown] at hunknown
    cases hunknown

theorem Locked.stopped (hcycles : ∀ id c, s.cycles.get? id = some c → c.cycleId = id)
    (halive : version.status.terminal = false)
    (hstatus : status ≠ .completed) (reason : String) (hold : Bool) :
    ((s.stop cycle version status reason now hold).complete claim.workKey work dbNow).Rows := by
  rw [← complete_stop]
  exact (h.ending hrows hcycles halive work).stop (hrows.complete h.row rfl dbNow) (.refl version)
    hstatus reason now hold

theorem Locked.requeued (now : ℤ) : (s.requeue claim.workKey work now).Rows := by
  refine hrows.setWork h.row (fun _ => by rw [holds_claimed h.held]; decide) id ?_
  intro _ hready
  cases hready

/-- A submit that is admitted, or put off by the window. -/
theorem Locked.admitSubmit (hcycles : ∀ id c, s.cycles.get? id = some c → c.cycleId = id)
    (halive : version.status.terminal = false) :
    (s.admitSubmit dbNow now claim work cycle version).1.Rows := by
  unfold Guardian.admitSubmit
  simp only
  split_ifs with hfull hattempts
  · exact h.requeued hrows now
  · have hstarts : { s with submitStarts := recent s.submitStarts now ++ [now] }.Rows :=
      hrows.congr rfl rfl
    have hl : { s with submitStarts := recent s.submitStarts now ++ [now] }.Locked dbNow claim work
        cycle version := ⟨h.row, h.held, h.ofVersion, h.ofCycle⟩
    exact hl.stopped hstarts hcycles halive (by decide) _ _
  · have hid := hrows.ids _ _ h.ofVersion
    have hwork : (s.start claim.workKey work .dispatchVersion dbNow now).Rows := by
      refine hrows.setWork h.row id (fun hnone => nomatch hnone) ?_
      intro operation _ hprep
      cases hprep
      exact ⟨Option.some_ne_none _, fun hread => nomatch hread⟩
    have hversion := hwork.setVersion (v := { version with
        submitAttempts := version.submitAttempts + 1
        intentAt := some (version.intentAt.getD now)
        status := .dispatching }) version (by rw [hid]; exact h.ofVersion) rfl rfl
      (fun hc => by
        rw [hc] at halive
        cases halive) (fun hc => nomatch hc) id ?_ ?_
    · exact hversion.congr rfl rfl
    · exact fun _ => ⟨claim.workKey, _, (Dict.get?_set _ _ _ _).trans (if_pos rfl), hid.symm⟩
    · -- the only open work of the version is this one, which is started
      intro k w hw hne hk _
      rw [start, Dict.get?_set] at hw
      split_ifs at hw with hown
      · cases hw
        refine ⟨fun hnone => (nomatch hnone), fun _ operation hprep hread => ?_⟩
        cases hprep
        cases hread
      · exact absurd (h.open_iff hrows k w hw hne hk) hown

end

end

theorem evolves_readVersion (operation : GuardianOperation) (version : Version) (now : ℤ) :
    version.Evolves (readVersion operation version now) ∧
      (readVersion operation version now).known = version.known := by
  unfold readVersion
  by_cases hop : operation = .reconcileRemote
  · rw [if_pos hop]
    exact ⟨⟨rfl, rfl, rfl, rfl, .inl rfl, id, id⟩, rfl⟩
  · rw [if_neg hop]
    exact ⟨⟨rfl, rfl, rfl, rfl, .inl rfl, id, id⟩, rfl⟩

theorem Locked.admitRead (h : s.Locked dbNow claim work cycle version) (hrows : s.Rows)
    (halive : version.status.terminal = false)
    (hunknown : claim.workKey.operation = .dispatchVersion → version.known = false) :
    (s.admitRead dbNow now claim work version operation collections).1.Rows := by
  unfold Guardian.admitRead
  simp only
  split_ifs with hfull
  · exact h.requeued hrows now
  · obtain ⟨hv, hknown⟩ := evolves_readVersion operation version now
    obtain ⟨hset, hl⟩ := h.setVersion hrows halive hv fun _ _ _ hop => hknown.trans (hunknown hop)
    have hstart : ((s.setVersion (readVersion operation version now)).start claim.workKey work
        operation dbNow now).Rows := by
      refine hset.setWork hl.row id (fun hnone => nomatch hnone) ?_
      intro _ _ _
      exact ⟨Option.some_ne_none _, fun _ hop => ⟨_, hl.ofVersion, hknown.trans (hunknown hop)⟩⟩
    exact hstart.congr rfl rfl

theorem Rows.prepare (hrows : s.Rows) (hcycles : ∀ id c, s.cycles.get? id = some c → c.cycleId = id)
    {prepared : Option PreparedWork}
    (h : s.prepare dbNow now claim collections = .ok (s', prepared)) : s'.Rows := by
  unfold Guardian.prepare at h
  split at h
  · cases h
  · rename_i work cycle version hlocked
    obtain ⟨hwork, hheld, hversion, hcycle⟩ := locked_spec hlocked
    have hl : s.Locked dbNow claim work cycle version := ⟨hwork, hheld, hversion, hcycle⟩
    obtain rfl : (s.prepareLocked dbNow now claim work cycle version collections).1 = s' :=
      congrArg Prod.fst (Except.ok.inj h)
    unfold prepareLocked
    split_ifs with hterminal
    · exact hrows.complete hwork rfl dbNow
    rw [not_or, Bool.not_eq_true, Bool.not_eq_true] at hterminal
    obtain ⟨hset, hlset⟩ := hl.operationOf hrows hterminal.2 now
    have halive := (operationOf_evolves claim.workKey work version now).not_terminal hterminal.2
    have hspec := operationOf_spec claim.workKey work version now
    generalize operationOf claim.workKey work version now = planned at *
    obtain ⟨_, v⟩ := planned
    simp only at *
    split_ifs with hlate hover hsubmit
    · exact hlset.stopped hset hcycles halive (by decide) _ _
    · exact hlset.stopped hset hcycles halive (by decide) _ _
    · exact hlset.admitSubmit hset hcycles halive
    · refine hlset.admitRead hset halive fun hop => ?_
      rcases hspec with ⟨-, hunknown⟩ | ⟨hsame, -⟩
      · exact hunknown
      · exact absurd (hsame.trans hop) hsubmit

theorem Rows.claimDue {rows : List (WorkKey × String)} :
    ∀ {s : Guardian}, s.Rows → (s.claimDue dbNow now rows).1.Rows := by
  induction rows with
  | nil => exact fun h => h
  | cons row _ ih =>
    intro s h
    obtain ⟨_, _⟩ := row
    rw [Guardian.claimDue]
    split
    · exact ih h
    · rename_i work hwork
      split_ifs with hclaim
      · refine ih (h.setWork hwork (fun _ => ?_) id ?_)
        · simp only [claimable, Bool.and_eq_true, Bool.or_eq_true, decide_eq_true_eq] at hclaim
          rcases hclaim.2 with hs | ⟨hs, -⟩ <;> rw [hs] <;> decide
        · intro operation _ hnone
          cases hnone
      · exact ih h

end Guardian

end LocalAgent.Runtime
