import LocalAgent.Runtime.GuardianPreparations

/-!
# LocalAgent.Runtime.GuardianProgress — no cycle is stuck, nothing is taken back

* `Guardian.Going`: a cycle that goes on has open work.
* `Ending.fresh`: the number of the work that follows is new.
* `Sequel.going`: the end of a work leaves every cycle that goes on with open work.
* `Guardian.Steady`: what no transaction takes back.
-/

namespace LocalAgent.Runtime

variable {rows : List (WorkKey × String)} {outcome : ProviderOutcome} {sequence : ℕ}
  {prepared : Option PreparedWork}

namespace Guardian

variable {s s' t : Guardian} {cycle c : Cycle} {version v v₀ : Version} {now dbNow : ℤ}
  {key : WorkKey} {work work' next : DueWork} {claim : WorkClaim} {collections : ℕ}

/-! ## Claims and ends -/

theorem Sequenced.claimDue :
    ∀ {s : Guardian}, s.Sequenced → (s.claimDue dbNow now rows).1.Sequenced := by
  induction rows with
  | nil => exact fun h => h
  | cons row _ ih =>
    intro s h
    obtain ⟨key, _⟩ := row
    rw [Guardian.claimDue]
    split
    · exact ih h
    · rename_i work hwork
      split_ifs with hclaim
      · refine ih (h.setWork hwork (fun _ => claimable_open hclaim) id (fun hsome w hw => ?_)
          fun hcompleted => by cases hcompleted)
        exact ⟨fun hp => hsome (h.untouched key work w hwork hw hp).2,
          h.spent key work w hwork hw hsome⟩
      · exact ih h

theorem Sequenced.complete (h : s.Sequenced) (hget : s.due.get? key = some work)
    (hsame : work'.startedAt = work.startedAt) (hstarted : work.startedAt ≠ none) (dbNow : ℤ) :
    (s.complete key work' dbNow).Sequenced := by
  refine h.setWork hget (fun hne => absurd rfl hne) (fun hs => hsame ▸ hs) (fun hs w hw => ?_)
    fun _ => ⟨Option.some_ne_none _, fun _ _ _ => hsame ▸ hstarted⟩
  exact ⟨fun hp => hstarted (h.untouched key work w hget hw hp).2,
    h.spent key work w hget hw hstarted⟩

/-! ## Cycles that go on -/

/-- Some work for a version of the cycle is open. -/
def Busy (s : Guardian) (cycleId : String) : Prop :=
  ∃ key v, s.Open key ∧ s.versions.get? key.versionId = some v ∧ v.cycleId = cycleId

/-- A cycle that goes on has open work. -/
def Going (s : Guardian) : Prop :=
  ∀ id c, s.cycles.get? id = some c → c.status.terminal = false → s.Busy id

/-- The cycle has more work, or it has ended. -/
theorem Going.step (h : s.Going) (cycle : Cycle)
    (hcycles : s'.cycles = s.cycles.set cycle.cycleId c)
    (hkept : ∀ key w, s.Open key → s.versions.get? key.versionId = some w →
      w.cycleId ≠ cycle.cycleId → s'.Open key ∧
        ∃ w', s'.versions.get? key.versionId = some w' ∧ w'.cycleId = w.cycleId)
    (hown : c.status.terminal = true ∨ s'.Busy cycle.cycleId) : s'.Going := by
  intro id x hx hgoing
  rw [hcycles, Dict.get?_set] at hx
  split_ifs at hx with hid
  · cases hx
    rw [hid]
    refine hown.resolve_left fun ht => ?_
    rw [ht] at hgoing
    cases hgoing
  · obtain ⟨key, w, hopen, hw, hin⟩ := h id x hx hgoing
    obtain ⟨hopen', w', hw', hin'⟩ := hkept key w hopen hw (hin ▸ hid)
    exact ⟨key, w', hopen', hw', hin'.trans hin⟩

theorem Going.congr (h : s.Going) (hversions : s'.versions = s.versions) (hdue : s'.due = s.due)
    (hcycles : s'.cycles = s.cycles) : s'.Going := by
  intro id x hx hgoing
  rw [hcycles] at hx
  obtain ⟨key, w, hopen, hw, hin⟩ := h id x hx hgoing
  exact ⟨key, w, (open_congr hdue).mpr hopen, by rw [hversions]; exact hw, hin⟩

theorem Going.setWork (h : s.Going) (hopen : work'.state ≠ .completed) :
    { s with due := s.due.set key work' }.Going := by
  intro id x hx hgoing
  obtain ⟨k, w, ⟨wk, hwk, hne⟩, hw, hin⟩ := h id x hx hgoing
  refine ⟨k, w, ?_, hw, hin⟩
  by_cases hk : k = key
  · exact ⟨work', by rw [Dict.get?_set, if_pos hk], hopen⟩
  · exact ⟨wk, by rw [Dict.get?_set, if_neg hk]; exact hwk, hne⟩

theorem Going.claimDue : ∀ {s : Guardian}, s.Going → (s.claimDue dbNow now rows).1.Going := by
  induction rows with
  | nil => exact fun h => h
  | cons row _ ih =>
    intro s h
    obtain ⟨_, _⟩ := row
    rw [Guardian.claimDue]
    split
    · exact ih h
    · split_ifs
      · exact ih (h.setWork fun hm => by cases hm)
      · exact ih h

/-- Two works that are open in one cycle are of one version. -/
theorem Locked.other (hl : s.Locked dbNow claim work cycle version)
    (hid : cycle.cycleId = version.cycleId) {w : Version} {k : WorkKey}
    (hw : s.versions.get? k.versionId = some w) (hin : w.cycleId ≠ cycle.cycleId) :
    k ≠ claim.workKey ∧ k.versionId ≠ claim.workKey.versionId := by
  have hne : k.versionId ≠ claim.workKey.versionId := by
    intro he
    rw [he, hl.ofVersion] at hw
    cases hw
    exact hin hid.symm
  exact ⟨fun hk => hne (congrArg WorkKey.versionId hk), hne⟩

/-- A preparation leaves its cycle with work. -/
theorem Continued.going
    (hc : Continued s claim work cycle version v c next t prepared) (h : s.Going)
    (hrows : s.Rows) (hl : s.Locked dbNow claim work cycle version)
    (hid : cycle.cycleId = version.cycleId) : t.Going := by
  have hvid := hrows.ids _ _ hl.ofVersion
  have hopened : ∀ k, k ≠ claim.workKey → s.Open k → t.Open k := by
    rintro k hk ⟨w, hw, hne⟩
    exact ⟨w, by rw [hc.due, Dict.get?_set, if_neg hk]; exact hw, hne⟩
  refine h.step cycle hc.cycles (fun k w hk hw hin => ?_) (.inr ?_)
  · obtain ⟨hkey, hver⟩ := hl.other hid hw hin
    refine ⟨hopened k hkey hk, w, ?_, rfl⟩
    rwa [hc.versions, Dict.get?_set, if_neg (hvid ▸ hver)]
  · refine ⟨claim.workKey, v, ⟨next, ?_, hc.state⟩, ?_, hc.cycleId.trans hid.symm⟩
    · rw [hc.due, Dict.get?_set, if_pos rfl]
    · rw [hc.versions, Dict.get?_set, if_pos hvid.symm]

variable {status : VersionStatus} {reason : String} {hold : Bool}

theorem stop_going (h : s.Going)
    (hget : s.versions.get? v.versionExecutionId = some v₀) (hin : v₀.cycleId = cycle.cycleId) :
    (s.stop cycle v status reason now hold).Going := by
  obtain ⟨hversions, hdue, hcycles⟩ := stop_rows s cycle v status reason now hold
  refine h.step cycle hcycles (fun k w hk hw hne => ⟨(open_congr hdue).mpr hk, w, ?_,
    rfl⟩) (.inl (stopped_terminal status))
  rw [hversions, Dict.get?_mapValues, Dict.get?_set]
  have hid : k.versionId ≠ v.versionExecutionId := by
    intro he
    rw [he, hget] at hw
    cases hw
    exact hne hin
  rw [if_neg hid, hw, Option.map_some, skipPlanned, if_neg fun hp => hne hp.1]

theorem Going.complete (h : s.Going) (hv : s.versions.get? key.versionId = some v)
    (hended : ∀ c, s.cycles.get? v.cycleId = some c → c.status.terminal = true) (dbNow : ℤ) :
    (s.complete key work dbNow).Going := by
  intro id x hx hgoing
  obtain ⟨k, w, ⟨wk, hwk, hne⟩, hw, hin⟩ := h id x hx hgoing
  refine ⟨k, w, ⟨wk, ?_, hne⟩, hw, hin⟩
  rw [Guardian.complete, Dict.get?_set, if_neg]
  · exact hwk
  · rintro rfl
    cases hv.symm.trans hw
    rw [hended x (hin ▸ hx)] at hgoing
    cases hgoing

/-- A preparation leaves every cycle that goes on with open work. -/
theorem Going.prepareLocked (hg : s.Going) (h : s.Sequenced) (hrows : s.Rows)
    (hl : s.Locked dbNow claim work cycle version) (halive : version.status.terminal = false)
    (hgoing : cycle.status.terminal = false) (hid : cycle.cycleId = version.cycleId) :
    (s.prepareLocked dbNow now claim work cycle version collections).1.Going := by
  have hvid := hrows.ids _ _ hl.ofVersion
  rcases h.prepareLocked_cases hrows hl halive hgoing hid now collections with
    ⟨v, status, reason, hold, hlooked, hv, hterminal, heq⟩ | ⟨v, c, next, hc⟩
  · rw [heq]
    subst hv
    obtain ⟨hversions, -, hcycles⟩ := stop_rows s cycle
      (operationOf claim.workKey work version now).2 status reason now hold
    have hrow := hlooked.row hrows hl
    refine (stop_going hg hrow hid.symm).complete (v := skipPlanned cycle reason now
      { (operationOf claim.workKey work version now).2 with
        status := status, reason := some reason, completedAt := some now }) ?_ ?_ dbNow
    · rw [hversions, Dict.get?_mapValues, Dict.get?_set, if_pos (by rw [hlooked.id, hvid])]
      rfl
    · intro c hc
      have hin : (skipPlanned cycle reason now
          { (operationOf claim.workKey work version now).2 with
            status := status, reason := some reason, completedAt := some now }).cycleId =
          cycle.cycleId := (skipPlanned_spec cycle reason now _).2.1.trans
            (hlooked.cycleId.trans hid.symm)
      rw [hin, hcycles, Dict.get?_set, if_pos rfl] at hc
      cases hc
      exact stopped_terminal status
  · exact hc.going hg hrows hl hid

end Guardian

namespace Guardian

variable {s s' : Guardian} {cycle c : Cycle} {version v : Version} {now dbNow : ℤ} {key : WorkKey}
  {work next : DueWork}

/-! ## The end of a work -/

variable {operation : GuardianOperation}

theorem Sequel.complete (hkey : key ∈ s.due.keys)
(h : Sequel s cycle version operation outcome now s') :
    Sequel (s.complete key work dbNow) cycle version operation outcome now
      (s'.complete key work dbNow) := by
  cases h with
  | stopped v status reason hold hv hcounted hterminal hstatus hhold =>
    rw [← complete_stop]
    exact .stopped v status reason hold hv hcounted hterminal hstatus hhold
  | goesOn v next sequence due hv hfetch hdispatch hnumbered =>
    have hcomm : ((s.setVersion v).dueWork cycle v next sequence due).complete key work dbNow =
        ((s.complete key work dbNow).setVersion v).dueWork cycle v next sequence due :=
      (complete_dueWork (s := s.setVersion v) hkey).symm
    rw [hcomm]
    exact .goesOn v next sequence due hv hfetch hdispatch hnumbered
  | completed v counts summary _ hv hcounted hseen hnext =>
    exact .completed v counts summary _ hv hcounted hseen
      (complete_progress (s := s.setVersion _) hkey hnext)

theorem Ending.fresh (hend : s.Ending cycle version) (h : s.Sequenced) (hv : version.Evolves v)
(hn : version.Numbered v operation sequence) :
    (⟨v.versionExecutionId, operation, sequence⟩ : WorkKey) ∉ s.due.keys := by
  rw [hv.id]
  intro hmem
  obtain ⟨work, hwork⟩ := Dict.mem_keys_iff.mp hmem
  have hcompleted : work.state = .completed := by
    by_contra hne
    exact hend.free _ ⟨work, hwork, hne⟩ rfl
  have hstarted := h.done _ work version hwork hend.row hend.alive hcompleted
  have hbelow := h.below _ work version hwork hend.row
  have hspent := h.spent _ work version hwork hend.row hstarted
  have hfresh := hn.fresh
  cases operation with
  | dispatchVersion =>
    have hlt : sequence < version.submitAttempts := hspent rfl
    rw [← hv.attempts, ← hfresh.1] at hlt
    exact lt_irrefl _ hlt
  | reconcileRemote =>
    have hlt : sequence < version.reconciliationRequests := hspent rfl
    have heq : sequence = v.reconciliationRequests := hfresh
    rw [← hn.counted.requests, ← heq] at hlt
    exact lt_irrefl _ hlt
  | pollRemote | fetchTerminalResult => exact absurd hfresh.1 (Nat.not_lt.mpr hbelow)

/-- After a version the next one is due, or the cycle is completed. -/
theorem progress_next {s' : Guardian} (h : s.progress cycle version now = .ok s') :
    (∃ successor ∈ s.versionsOf cycle, successor.ordinal = version.ordinal + 1 ∧
      (successor.status = .planned ∧
        s' = s.dueWork cycle successor .dispatchVersion 0 (version.completedAt.getD now) ∨
      successor.status ≠ .planned ∧ s' = s)) ∨
    ∃ status : CycleStatus, status.terminal = true ∧ s' = (s.setCycle { cycle with
        status := status, completedAt := some now }).release { cycle with
        status := status, completedAt := some now } := by
  unfold progress at h
  split_ifs at h with hordinal hall
  · split at h
    · cases h
    · rename_i successor hfind
      have hnext := List.find?_some hfind
      refine .inl ⟨successor, List.mem_of_find?_eq_some hfind, of_decide_eq_true hnext, ?_⟩
      split_ifs at h with hplanned
      · exact .inl ⟨hplanned, (Except.ok.inj h).symm⟩
      · exact .inr ⟨hplanned, (Except.ok.inj h).symm⟩
  · cases h
    refine .inr ⟨_, ?_, rfl⟩
    split_ifs <;> rfl

theorem dueWork_opens (cycle : Cycle) (due : ℤ)
    (hnew : (⟨v.versionExecutionId, operation, sequence⟩ : WorkKey) ∉ s.due.keys) :
    (s.dueWork cycle v operation sequence due).due = s.due.set
      ⟨v.versionExecutionId, operation, sequence⟩ (.new cycle.eligibleAt due) := by
  unfold dueWork
  simp only
  rw [if_neg hnew]

/-- Every outcome leaves its cycle with work or ended. -/
theorem Sequel.going {s₀ : Guardian} (hg : s₀.Going) (hversions : s.versions = s₀.versions)
    (hcycles : s.cycles = s₀.cycles) (hkept : ∀ k, s₀.Open k →
      k.versionId ≠ version.versionExecutionId → s.Open k) (h : s.Sequenced)
    (hrows : s.Rows) (hend : s.Ending cycle version)
    (hcycle : s.cycles.get? cycle.cycleId = some cycle) (hgoing : cycle.status.terminal = false)
    (hodd : version.terminalKnown = true → operation = .fetchTerminalResult)
    (hs : Sequel s cycle version operation outcome now s') : s'.Going := by
  -- the works of other cycles are not touched
  have hother : ∀ k w, s₀.Open k → s₀.versions.get? k.versionId = some w →
      w.cycleId ≠ cycle.cycleId →
      s.Open k ∧ k.versionId ≠ version.versionExecutionId ∧
        s.versions.get? k.versionId = some w := by
    intro k w hk hw hin
    have hne : k.versionId ≠ version.versionExecutionId := by
      intro he
      rw [he, ← hversions, hend.row] at hw
      cases hw
      exact hin hend.cycleId
    exact ⟨hkept k hk hne, hne, by rw [hversions]; exact hw⟩
  cases hs with
  | stopped v status reason hold hv =>
    obtain ⟨hvs, hd, hc⟩ := stop_rows s cycle v status reason now hold
    refine hg.step cycle (hcycles ▸ hc) (fun k w hk hw hin => ?_)
      (.inl (stopped_terminal status))
    obtain ⟨hopen, hne, hrow⟩ := hother k w hk hw hin
    refine ⟨(open_congr hd).mpr hopen, w, ?_, rfl⟩
    rw [hvs, Dict.get?_mapValues, Dict.get?_set, if_neg (hv.id ▸ hne), hrow, Option.map_some,
      skipPlanned, if_neg fun hp => hin hp.1]
  | goesOn v next sequence due hv _ _ hnumbered =>
    have hnew := hend.fresh h hv (hnumbered hodd)
    have hd := dueWork_opens (s := s.setVersion v) cycle due hnew
    obtain ⟨hvs, hc, -⟩ := @dueWork_rows (s.setVersion v) cycle v next sequence due
    refine hg.step cycle (c := cycle) ?_ (fun k w hk hw hin => ?_) (.inr ?_)
    · rw [hc]
      exact hcycles ▸ (Dict.set_self hcycle).symm
    · obtain ⟨⟨wk, hwk, hstate⟩, hne, hrow⟩ := hother k w hk hw hin
      refine ⟨⟨wk, ?_, hstate⟩, w, ?_, rfl⟩
      · rw [hd, Dict.get?_set, if_neg]
        · exact hwk
        · rintro rfl
          exact hne hv.id
      · rwa [hvs, Guardian.setVersion, Dict.get?_set, if_neg (hv.id ▸ hne)]
    · refine ⟨⟨v.versionExecutionId, next, sequence⟩, v,
        ⟨DueWork.new cycle.eligibleAt due, ?_, by rintro ⟨⟩⟩, ?_, hv.cycleId.trans hend.cycleId⟩
      · rw [hd, Dict.get?_set, if_pos rfl]
      · rw [hvs, Guardian.setVersion, Dict.get?_set, if_pos rfl]
  | completed v counts summary _ hv _ hseen hnext =>
    have hset := hend.rows hrows (v := v.completedWith counts summary now) hv.id hv.cycleId
      hv.ordinal (fun _ => hseen) (fun _ => hseen)
    generalize hdef : v.completedWith counts summary now = v₁ at hset hnext
    have hid : v₁.versionExecutionId = version.versionExecutionId := hdef ▸ hv.id
    have hordinal₁ : v₁.ordinal = version.ordinal := hdef ▸ hv.ordinal
    rcases progress_next hnext with ⟨successor, hmem, hordinal, hcase⟩ | ⟨status, hterminal, rfl⟩
    · obtain ⟨hrow, hold, hin, hidle⟩ := hend.successor hrows hset hmem
        (hordinal.trans (congrArg (· + 1) hordinal₁)) hordinal₁
      have hplanned := (h.idle _ successor hold hidle).2 cycle (hin ▸ hcycle) hgoing
      rcases hcase with ⟨-, rfl⟩ | ⟨hnot, -⟩
      · have hnew : (⟨successor.versionExecutionId, .dispatchVersion, 0⟩ : WorkKey) ∉
            (s.setVersion v₁).due.keys := fun hmem => by
          obtain ⟨wk, hwk⟩ := Dict.mem_keys_iff.mp hmem
          exact hidle ⟨_, wk, hwk, rfl⟩
        have hd := dueWork_opens (s := s.setVersion v₁) cycle (v₁.completedAt.getD now) hnew
        obtain ⟨hvs, hc, -⟩ := @dueWork_rows (s.setVersion v₁) cycle successor .dispatchVersion 0
          (v₁.completedAt.getD now)
        refine hg.step cycle (c := cycle) ?_ (fun k w hk hw hne => ?_) (.inr ?_)
        · rw [hc]
          exact hcycles ▸ (Dict.set_self hcycle).symm
        · obtain ⟨⟨wk, hwk, hstate⟩, hne', hrow'⟩ := hother k w hk hw hne
          refine ⟨⟨wk, ?_, hstate⟩, w, ?_, rfl⟩
          · rw [hd, Dict.get?_set, if_neg]
            · exact hwk
            · rintro rfl
              exact hidle ⟨_, wk, hwk, rfl⟩
          · rwa [hvs, Guardian.setVersion, Dict.get?_set, if_neg (hid ▸ hne')]
        · refine ⟨⟨successor.versionExecutionId, .dispatchVersion, 0⟩, successor,
            ⟨DueWork.new cycle.eligibleAt (v₁.completedAt.getD now), ?_, by rintro ⟨⟩⟩, ?_, hin⟩
          · rw [hd, Dict.get?_set, if_pos rfl]
          · rwa [hvs]
      · exact absurd hplanned hnot
    · obtain ⟨hvs, hd, hc⟩ := release_rows
        ((s.setVersion v₁).setCycle { cycle with status := status, completedAt := some now })
        { cycle with status := status, completedAt := some now }
      refine hg.step cycle (c := { cycle with
        status := status, completedAt := some now }) ?_ (fun k w hk hw hne => ?_) (.inl hterminal)
      · rw [hc, ← hcycles]
        rfl
      · obtain ⟨hopen, hne', hrow'⟩ := hother k w hk hw hne
        refine ⟨(open_congr hd).mpr hopen, w, ?_, rfl⟩
        rw [hvs, Guardian.setCycle, Guardian.setVersion, Dict.get?_set,
          if_neg (hid ▸ hne')]
        exact hrow'

end Guardian

namespace Guardian

variable {s s' t : Guardian} {cycle c : Cycle} {version v v₀ : Version} {now dbNow : ℤ}
  {key : WorkKey} {work work' next : DueWork} {claim : WorkClaim} {collections : ℕ}

/-! ## What no transaction takes back -/

/-- A cycle or a version that has ended keeps its status, a work that is completed its row, a work
that was started has been started; no cycle begins. -/
structure Steady (s s' : Guardian) : Prop where
  cycles : ∀ id c, s.cycles.get? id = some c → c.status.terminal = true →
    ∃ c', s'.cycles.get? id = some c' ∧ c'.status = c.status
  versions : ∀ id v, s.versions.get? id = some v → v.status.terminal = true →
    ∃ v', s'.versions.get? id = some v' ∧ v'.status = v.status
  works : ∀ key work, s.due.get? key = some work → work.state = .completed →
    s'.due.get? key = some work
  started : ∀ key work, s.due.get? key = some work → work.startedAt ≠ none →
    ∃ work', s'.due.get? key = some work' ∧ work'.startedAt ≠ none
  ready : ∀ id c, s'.cycles.get? id = some c → c.status = .ready → s.cycles.get? id = some c

theorem Steady.refl (s : Guardian) : s.Steady s :=
  ⟨fun _ c hc _ => ⟨c, hc, rfl⟩, fun _ v hv _ => ⟨v, hv, rfl⟩, fun _ _ hw _ => hw,
    fun _ w hw hs => ⟨w, hw, hs⟩, fun _ _ hc _ => hc⟩

/-- What is steady over two steps. -/
theorem Steady.trans (h : s.Steady s') (h' : s'.Steady t) : s.Steady t where
  cycles id c hc hterminal := by
    obtain ⟨c', hc', hs⟩ := h.cycles id c hc hterminal
    obtain ⟨c'', hc'', hs'⟩ := h'.cycles id c' hc' (by rw [hs]; exact hterminal)
    exact ⟨c'', hc'', hs'.trans hs⟩
  versions id v hv hterminal := by
    obtain ⟨v', hv', hs⟩ := h.versions id v hv hterminal
    obtain ⟨v'', hv'', hs'⟩ := h'.versions id v' hv' (by rw [hs]; exact hterminal)
    exact ⟨v'', hv'', hs'.trans hs⟩
  works key work hw hcompleted := h'.works key work (h.works key work hw hcompleted) hcompleted
  started key work hw hs := by
    obtain ⟨work', hw', hs'⟩ := h.started key work hw hs
    exact h'.started key work' hw' hs'
  ready id c hc hs := h.ready id c (h'.ready id c hc hs) hs

theorem steady_congr (hversions : s'.versions = s.versions) (hdue : s'.due = s.due)
    (hcycles : s'.cycles = s.cycles) : s.Steady s' := by
  refine ⟨?_, ?_, ?_, ?_, ?_⟩
  · rw [hcycles]
    exact fun _ c hc _ => ⟨c, hc, rfl⟩
  · rw [hversions]
    exact fun _ v hv _ => ⟨v, hv, rfl⟩
  · rw [hdue]
    exact fun _ _ hw _ => hw
  · rw [hdue]
    exact fun _ w hw hs => ⟨w, hw, hs⟩
  · rw [hcycles]
    exact fun _ _ hc _ => hc

theorem steady_setVersion (hget : s.versions.get? v.versionExecutionId = some v₀)
    (halive : v₀.status.terminal = false) : s.Steady (s.setVersion v) := by
  refine ⟨fun _ c hc _ => ⟨c, hc, rfl⟩, fun id w hw ht => ⟨w, ?_, rfl⟩, fun _ _ hw _ => hw,
    fun _ w hw hs => ⟨w, hw, hs⟩, fun _ _ hc _ => hc⟩
  rw [Guardian.setVersion, Dict.get?_set, if_neg]
  · exact hw
  · rintro rfl
    cases hget.symm.trans hw
    rw [halive] at ht
    cases ht

theorem steady_setCycle {c₀ : Cycle} (hget : s.cycles.get? c.cycleId = some c₀)
    (halive : c₀.status.terminal = false) (hready : c.status = .ready → c = c₀) :
    s.Steady (s.setCycle c) := by
  refine ⟨fun id x hx ht => ⟨x, ?_, rfl⟩, fun _ v hv _ => ⟨v, hv, rfl⟩, fun _ _ hw _ => hw,
    fun _ w hw hs => ⟨w, hw, hs⟩, fun id x hx hs => ?_⟩
  · rw [Guardian.setCycle, Dict.get?_set, if_neg]
    · exact hx
    · rintro rfl
      cases hget.symm.trans hx
      rw [halive] at ht
      cases ht
  · simp only [Guardian.setCycle, Dict.get?_set] at hx
    split_ifs at hx with hid
    · cases hx
      rw [hid, hget, hready hs]
    · exact hx

theorem steady_skip (cycle : Cycle) (reason : String) (now : ℤ) :
    s.Steady { s with versions := s.versions.mapValues (skipPlanned cycle reason now) } := by
  refine ⟨fun _ c hc _ => ⟨c, hc, rfl⟩, fun id w hw ht => ⟨w, ?_, rfl⟩, fun _ _ hw _ => hw,
    fun _ w hw hs => ⟨w, hw, hs⟩, fun _ _ hc _ => hc⟩
  rw [Dict.get?_mapValues, hw, Option.map_some, skipPlanned, if_neg]
  rintro ⟨-, hplanned⟩
  rw [hplanned] at ht
  cases ht

theorem steady_setWork (hget : s.due.get? key = some work) (hopen : work.state ≠ .completed)
    (hstart : work.startedAt ≠ none → work'.startedAt ≠ none) :
    s.Steady { s with due := s.due.set key work' } := by
  refine ⟨fun _ c hc _ => ⟨c, hc, rfl⟩, fun _ v hv _ => ⟨v, hv, rfl⟩, fun k w hw hcompleted => ?_,
    fun k w hw hs => ?_, fun _ _ hc _ => hc⟩
  · rw [Dict.get?_set, if_neg]
    · exact hw
    · rintro rfl
      cases hget.symm.trans hw
      exact hopen hcompleted
  · by_cases hk : k = key
    · subst hk
      cases hget.symm.trans hw
      exact ⟨work', by rw [Dict.get?_set, if_pos rfl], hstart hs⟩
    · exact ⟨w, by rw [Dict.get?_set, if_neg hk]; exact hw, hs⟩

theorem steady_dueWork {operation : GuardianOperation} {due : ℤ} :
    s.Steady (s.dueWork cycle v operation sequence due) := by
  unfold dueWork
  simp only
  split_ifs with hmem
  · exact .refl s
  · have hne : ∀ k w, s.due.get? k = some w → k ≠ ⟨v.versionExecutionId, operation, sequence⟩ := by
      rintro k w hw rfl
      exact hmem (Dict.mem_keys_iff.mpr ⟨w, hw⟩)
    have hkept : ∀ k w, s.due.get? k = some w →
        (s.due.set ⟨v.versionExecutionId, operation, sequence⟩
          (DueWork.new cycle.eligibleAt due)).get? k = some w := by
      intro k w hw
      rwa [Dict.get?_set, if_neg (hne k w hw)]
    exact ⟨fun _ c hc _ => ⟨c, hc, rfl⟩, fun _ v hv _ => ⟨v, hv, rfl⟩,
      fun k w hw _ => hkept k w hw, fun k w hw hs => ⟨w, hkept k w hw, hs⟩, fun _ _ hc _ => hc⟩

theorem steady_stop (hget : s.versions.get? v.versionExecutionId = some v₀)
    (halive : v₀.status.terminal = false) (hcycle : s.cycles.get? cycle.cycleId = some cycle)
    (hgoing : cycle.status.terminal = false) {status : VersionStatus} {reason : String}
    {hold : Bool} : s.Steady (s.stop cycle v status reason now hold) := by
  have hversion : s.Steady (s.setVersion { v with
      status := status, reason := some reason, completedAt := some now }) :=
    steady_setVersion hget halive
  have hset := hversion.trans (steady_setCycle (c := { cycle with
    status := status.stopped, reason := some reason, completedAt := some now }) hcycle hgoing
    fun hready => by
      have := stopped_terminal status
      change status.stopped = .ready at hready
      rw [hready] at this
      cases this)
  have hrows : s.Steady (s.stopRows cycle v status reason now) :=
    hset.trans (steady_skip cycle reason now)
  obtain ⟨hversions, hdue, hcycles⟩ := stop_rows s cycle v status reason now hold
  exact hrows.trans (steady_congr hversions hdue hcycles)

theorem steady_complete (hget : s.due.get? key = some work) (hopen : work.state ≠ .completed)
    (hsame : work'.startedAt = work.startedAt) : s.Steady (s.complete key work' dbNow) :=
  steady_setWork hget hopen fun hs => hsame ▸ hs

/-- An outcome takes back nothing that was terminal, started or ready. -/
theorem Outcome.steady (hend : s.Ending cycle version)
    (hcycle : s.cycles.get? cycle.cycleId = some cycle) (hgoing : cycle.status.terminal = false)
    {operation : GuardianOperation}
    (ho : Outcome s cycle version operation outcome now s') : s.Steady s' := by
  cases ho with
  | stopped _ _ _ _ hv =>
    exact steady_stop (hv.id ▸ hend.row) hend.alive hcycle hgoing
  | goesOn _ _ _ _ hv =>
    exact (steady_setVersion (hv.id ▸ hend.row) hend.alive).trans steady_dueWork
  | completed v counts summary _ hv _ hnext =>
    have hset : s.Steady (s.setVersion (v.completedWith counts summary now)) :=
      steady_setVersion (v := v.completedWith counts summary now) (hv.id ▸ hend.row) hend.alive
    rcases progress_cases hnext with ⟨_, _, -, -, -, rfl⟩ | rfl |
        ⟨-, status, hterminal, rfl⟩
    · exact hset.trans steady_dueWork
    · exact hset
    · have hc := hset.trans (steady_setCycle (c := { cycle with
          status := status, completedAt := some now }) hcycle hgoing fun hready => by
        change status = .ready at hready
        rw [hready] at hterminal
        cases hterminal)
      exact hc.trans (steady_congr (mapOccupancy_versions _).1 (mapOccupancy_versions _).2.1
        (mapOccupancy_versions _).2.2)

/-- A preparation takes nothing back. -/
theorem Continued.steady (hc : Continued s claim work cycle version v c next t prepared)
    (hrows : s.Rows) (hl : s.Locked dbNow claim work cycle version)
    (halive : version.status.terminal = false) (hgoing : cycle.status.terminal = false)
    (hid : cycle.cycleId = version.cycleId) : s.Steady t := by
  have hvid := hrows.ids _ _ hl.ofVersion
  have hrow : s.versions.get? v.versionExecutionId = some version := by
    rw [hc.id, hvid]
    exact hl.ofVersion
  have hcycle : s.cycles.get? c.cycleId = some cycle := by
    rcases hc.cycle with rfl | rfl <;> exact hid ▸ hl.ofCycle
  have hset : s.Steady ((s.setVersion v).setCycle c) :=
    (steady_setVersion hrow halive).trans (steady_setCycle hcycle hgoing fun hready => by
      rcases hc.cycle with rfl | rfl
      · rfl
      · cases hready)
  have hwork : s.Steady { (s.setVersion v).setCycle c with due := s.due.set claim.workKey next } :=
    hset.trans (steady_setWork (s := (s.setVersion v).setCycle c) hl.row
      hl.not_completed hc.start)
  refine hwork.trans (steady_congr ?_ hc.due ?_)
  · rw [hc.versions, ← hc.id]
    rfl
  · rw [hc.cycles]
    rcases hc.cycle with rfl | rfl <;> rfl

theorem Sequenced.prepareLocked_steady (h : s.Sequenced) (hrows : s.Rows)
    (hl : s.Locked dbNow claim work cycle version) (halive : version.status.terminal = false)
    (hgoing : cycle.status.terminal = false) (hid : cycle.cycleId = version.cycleId) :
    s.Steady (s.prepareLocked dbNow now claim work cycle version collections).1 := by
  have hvid := hrows.ids _ _ hl.ofVersion
  rcases h.prepareLocked_cases hrows hl halive hgoing hid now collections with
    ⟨v, status, reason, hold, hlooked, rfl, -, heq⟩ | ⟨v, c, next, hc⟩
  · rw [heq]
    have hrow := hlooked.row hrows hl
    have hstop : s.Steady (s.stop cycle (operationOf claim.workKey work version now).2 status reason
        now hold) := steady_stop hrow halive (hid ▸ hl.ofCycle) hgoing
    have hwork : (s.stop cycle (operationOf claim.workKey work version now).2 status reason now
        hold).due.get? claim.workKey = some work := by
      rw [(stop_rows ..).2.1]
      exact hl.row
    exact hstop.trans (steady_complete hwork hl.not_completed rfl)
  · exact hc.steady hrows hl halive hgoing hid

theorem steady_claimDue : ∀ {s : Guardian}, s.Steady (s.claimDue dbNow now rows).1 := by
  induction rows with
  | nil => exact fun {s} => .refl s
  | cons row _ ih =>
    intro s
    obtain ⟨key, token⟩ := row
    rw [Guardian.claimDue]
    split
    · exact ih
    · rename_i work hwork
      split_ifs with hclaim
      · have hclaimed : s.Steady { s with due := s.due.set key (claimed work token dbNow) } :=
          steady_setWork hwork (claimable_open hclaim) id
        exact hclaimed.trans ih
      · exact ih

end Guardian

end LocalAgent.Runtime
