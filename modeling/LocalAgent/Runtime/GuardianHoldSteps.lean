import LocalAgent.Runtime.GuardianHolds

/-!
# LocalAgent.Runtime.GuardianHoldSteps — what a step of one cycle keeps of the holds

* `Guardian.Held`: a cycle that goes on occupies its environment; when it does not, its versions
  are final.
* `Guardian.CycleStep`, `Held.step`: a transaction on the work of one version.
* `Outcome.cycleStep`: the end of a work is such a step.
-/

namespace LocalAgent.Runtime

namespace Guardian

variable {s s' : Guardian} {cycle c : Cycle} {version v w : Version} {now : ℤ} {key : WorkKey}
  {work : DueWork} {uncertain proven : List String}

/-! ## The invariant -/

/-- What is known of a version when its cycle gives the environment up. -/
def Final (uncertain proven : List String) (id : String) (v : Version) : Prop :=
  (v.submitAttempts ≠ 0 → v.terminalKnown = true ∨ id ∈ proven ∨ id ∉ uncertain) ∧
    (v.status = .unresolved → id ∈ proven)

/-- The version has, or had, work. -/
def Worked (s : Guardian) (id : String) : Prop :=
  ∃ key work, s.due.get? key = some work ∧ key.versionId = id

structure Held (s : Guardian) (uncertain proven : List String) : Prop where
  rows : s.Rows
  keyed : ∀ id c, s.cycles.get? id = some c → c.cycleId = id
  homed : ∀ id v, s.versions.get? id = some v → ∃ c, s.cycles.get? v.cycleId = some c
  live : ∀ id c, s.cycles.get? id = some c → c.status.terminal = false → s.Occupied c
  works : ∀ key v, s.Open key → s.versions.get? key.versionId = some v →
    v.status.terminal = false ∧ ∀ c, s.cycles.get? v.cycleId = some c → c.status.terminal = false
  unknown : ∀ id ∈ uncertain, ∃ v, s.versions.get? id = some v ∧
    (v.firstUnknownAt ≠ none ∨ v.status = .unresolved)
  unresolved : ∀ id v, s.versions.get? id = some v → v.status = .unresolved → s.Worked id
  released : ∀ id v c, s.versions.get? id = some v → s.cycles.get? v.cycleId = some c →
    s.Occupied c ∨ Final uncertain proven id v

variable {id : String} {j : String}

/-- A cycle works on one version at a time. -/
theorem Rows.worked_unique (hrows : s.Rows)
    (hv : s.versions.get? id = some version) (hworked : s.Worked id)
    (hnot : version.status ≠ .completed) (hw : s.versions.get? j = some w)
    (hcycle : w.cycleId = version.cycleId) (hother : s.Worked j) :
    j = id ∨ w.status = .completed := by
  obtain ⟨k, x, hk, rfl⟩ := hworked
  obtain ⟨k', x', hk', rfl⟩ := hother
  obtain ⟨_, hv₁, hlower⟩ := hrows.placed k x hk
  cases hv.symm.trans hv₁
  obtain ⟨_, hw₁, hlower'⟩ := hrows.placed k' x' hk'
  cases hw.symm.trans hw₁
  rcases Nat.lt_trichotomy w.ordinal version.ordinal with hlt | heq | hgt
  · exact .inr (hlower _ w hw hcycle hlt)
  · exact .inl (hrows.ordinals _ w _ version hw hv hcycle heq)
  · exact absurd (hlower' _ version hv hcycle.symm hgt) hnot

/-- All versions before the one in work are final. -/
theorem Held.final_others (h : s.Held uncertain proven)
    (hv : s.versions.get? id = some version) (hworked : s.Worked id)
    (hnot : version.status ≠ .completed) (hw : s.versions.get? j = some w)
    (hcycle : w.cycleId = version.cycleId) (hne : j ≠ id) :
    (w.submitAttempts ≠ 0 → w.terminalKnown = true) ∧ w.status ≠ .unresolved := by
  constructor
  · intro hattempts
    have hother := h.rows.attempted j w hw hattempts
    exact (h.rows.worked_unique hv hworked hnot hw hcycle hother).elim (absurd · hne)
      (h.rows.ended j w hw)
  · intro hunresolved
    have hother := h.unresolved j w hw hunresolved
    rcases h.rows.worked_unique hv hworked hnot hw hcycle hother with he | hc
    · exact hne he
    · rw [hc] at hunresolved
      cases hunresolved

/-! ## A step of one cycle -/

/-- What a transaction on the work of `version` leaves of the rows of `cycle`, and that it leaves
the other cycles alone. -/
structure CycleStep (s : Guardian) (cycle : Cycle) (version : Version) (s' : Guardian)
    (v : Version) (c : Cycle) (f : Version → Version) : Prop where
  versions : ∀ id, s'.versions.get? id =
    ((s.versions.set version.versionExecutionId v).get? id).map f
  skips : f = (fun w => w) ∨ ∃ reason now, f = skipPlanned cycle reason now
  cycles : s'.cycles = s.cycles.set cycle.cycleId c
  cycleId : c.cycleId = cycle.cycleId
  environment : c.environment = cycle.environment
  home : v.cycleId = version.cycleId
  unknown : version.firstUnknownAt ≠ none → v.firstUnknownAt ≠ none
  due : ∀ id, s.Worked id → s'.Worked id
  opened : ∀ key, s'.Open key →
    (s.Open key ∧ key.versionId ≠ version.versionExecutionId) ∨
    (c.status.terminal = false ∧ ∃ w, s'.versions.get? key.versionId = some w ∧
      w.cycleId = cycle.cycleId ∧ w.status.terminal = false)
  others : ∀ x : Cycle, x.cycleId ≠ cycle.cycleId → s.Occupied x → s'.Occupied x
  kept : s'.Occupied cycle ∨ c.status.terminal = true

theorem skips_spec {f : Version → Version}
    (h : f = (fun w => w) ∨ ∃ reason now, f = skipPlanned cycle reason now) (w : Version) :
    (f w).cycleId = w.cycleId ∧ (f w).submitAttempts = w.submitAttempts ∧
      (f w).terminalKnown = w.terminalKnown ∧ (f w).firstUnknownAt = w.firstUnknownAt ∧
      ((f w).status = .unresolved ↔ w.status = .unresolved) ∧
      (w.cycleId ≠ cycle.cycleId → f w = w) := by
  rcases h with rfl | ⟨_, _, rfl⟩
  · exact ⟨rfl, rfl, rfl, rfl, Iff.rfl, fun _ => rfl⟩
  · unfold skipPlanned
    split_ifs with hplanned
    · refine ⟨rfl, rfl, rfl, rfl, ?_, fun hne => absurd hplanned.1 hne⟩
      rw [hplanned.2]
      constructor <;> intro he <;> cases he
    · exact ⟨rfl, rfl, rfl, rfl, Iff.rfl, fun _ => rfl⟩

variable {f : Version → Version}

theorem CycleStep.back (h : CycleStep s cycle version s' v c f)
    (hw : s'.versions.get? id = some w) : (id = version.versionExecutionId ∧ w = f v) ∨
      (id ≠ version.versionExecutionId ∧ ∃ w₀, s.versions.get? id = some w₀ ∧ w = f w₀) := by
  rw [h.versions] at hw
  obtain ⟨w₀, hw₀, rfl⟩ := Option.map_eq_some_iff.mp hw
  rcases Dict.get?_set_cases hw₀ with ⟨hid, rfl⟩ | ⟨hid, hw₀⟩
  · exact .inl ⟨hid, rfl⟩
  · exact .inr ⟨hid, w₀, hw₀, rfl⟩

/-- A step of one cycle keeps every environment held or rightly free. -/
theorem Held.step (h : s.Held uncertain proven) {uncertain' proven' : List String}
    (hrows : s'.Rows) (hstep : CycleStep s cycle version s' v c f)
    (hversion : s.versions.get? version.versionExecutionId = some version)
    (hcycle : s.cycles.get? cycle.cycleId = some cycle)
    (hhome : version.cycleId = cycle.cycleId) (hworked : s.Worked version.versionExecutionId)
    (hnot : version.status.terminal = false)
    (huncertain : ∀ id ∈ uncertain', id ∈ uncertain ∨ id = version.versionExecutionId)
    (hown : version.versionExecutionId ∈ uncertain' →
      v.firstUnknownAt ≠ none ∨ v.status = .unresolved) (hproven : ∀ id ∈ proven, id ∈ proven')
    (hend : s'.Occupied cycle ∨ Final uncertain' proven' version.versionExecutionId v) :
    s'.Held uncertain' proven' := by
  have hskip := skips_spec hstep.skips
  have hnc : version.status ≠ .completed := by
    intro he
    rw [he] at hnot
    cases hnot
  -- a version of another cycle, and its cycle, are as they were
  have hsame : ∀ id w, s'.versions.get? id = some w → w.cycleId ≠ cycle.cycleId →
      s.versions.get? id = some w ∧ id ≠ version.versionExecutionId := by
    intro id w hw hne
    rcases hstep.back hw with ⟨rfl, rfl⟩ | ⟨hid, w₀, hw₀, rfl⟩
    · rw [(hskip v).1, hstep.home] at hne
      exact absurd hhome hne
    · rw [(hskip w₀).1] at hne
      rw [(hskip w₀).2.2.2.2.2 hne]
      exact ⟨hw₀, hid⟩
  have hcycles : ∀ id x, s'.cycles.get? id = some x →
      id = cycle.cycleId ∧ x = c ∨ id ≠ cycle.cycleId ∧ s.cycles.get? id = some x :=
    fun _ _ hx => Dict.get?_set_cases (hstep.cycles ▸ hx)
  have hkeyed : ∀ id x, s'.cycles.get? id = some x → x.cycleId = id := by
    intro id x hx
    rcases hcycles id x hx with ⟨rfl, rfl⟩ | ⟨-, hx⟩
    · exact hstep.cycleId
    · exact h.keyed id x hx
  have hoccupied : s'.Occupied cycle → s'.Occupied c := by
    rintro ⟨o, ho, hoc⟩
    exact ⟨o, by rw [hstep.environment]; exact ho, by rw [hstep.cycleId]; exact hoc⟩
  refine ⟨hrows, hkeyed, ?_, ?_, ?_, ?_, ?_, ?_⟩
  · intro id w hw
    have hmem : ∀ i x, s.cycles.get? i = some x → ∃ x', s'.cycles.get? i = some x' := by
      intro i x hx
      rw [hstep.cycles, Dict.get?_set]
      split_ifs
      · exact ⟨c, rfl⟩
      · exact ⟨x, hx⟩
    rcases hstep.back hw with ⟨rfl, rfl⟩ | ⟨-, w₀, hw₀, rfl⟩
    · rw [(hskip v).1, hstep.home, hhome]
      exact hmem _ cycle hcycle
    · obtain ⟨x, hx⟩ := h.homed id w₀ hw₀
      rw [(hskip w₀).1]
      exact hmem _ x hx
  · intro id x hx halive
    rcases hcycles id x hx with ⟨rfl, rfl⟩ | ⟨hne, hx⟩
    · refine hoccupied (hstep.kept.resolve_right fun ht => ?_)
      rw [ht] at halive
      cases halive
    · exact hstep.others x (by rw [h.keyed id x hx]; exact hne) (h.live id x hx halive)
  · intro key w hopen hw
    rcases hstep.opened key hopen with ⟨hwas, hid⟩ | ⟨halive, x, hx, hxc, hxs⟩
    · -- the other open work is for another cycle
      rcases hstep.back hw with ⟨he, -⟩ | ⟨-, w₀, hw₀, rfl⟩
      · exact absurd he hid
      have hother : w₀.cycleId ≠ cycle.cycleId := by
        intro he
        obtain ⟨wk, hwk, hwkne⟩ := hwas
        rcases h.rows.worked_unique hversion hworked hnc hw₀ (he.trans hhome.symm)
          ⟨key, wk, hwk, rfl⟩ with hsameid | hcomp
        · exact hid hsameid
        · have := (h.works key w₀ ⟨wk, hwk, hwkne⟩ hw₀).1
          rw [hcomp] at this
          cases this
      obtain ⟨hws, hcs⟩ := h.works key w₀ hwas hw₀
      rw [(hskip w₀).2.2.2.2.2 hother]
      refine ⟨hws, fun x hx => ?_⟩
      rcases hcycles _ x hx with ⟨he, -⟩ | ⟨-, hx⟩
      · exact absurd he hother
      · exact hcs x hx
    · cases hx.symm.trans hw
      refine ⟨hxs, fun y hy => ?_⟩
      rcases hcycles _ y hy with ⟨-, rfl⟩ | ⟨hne, -⟩
      · exact halive
      · exact absurd hxc hne
  · have hrow : s'.versions.get? version.versionExecutionId = some (f v) := by
      rw [hstep.versions, Dict.get?_set, if_pos rfl]
      rfl
    intro id hid
    by_cases he : id = version.versionExecutionId
    · subst he
      refine ⟨f v, hrow, ?_⟩
      rw [(hskip v).2.2.2.1, (hskip v).2.2.2.2.1]
      exact hown hid
    · obtain ⟨w, hw, hunknown⟩ := h.unknown id ((huncertain id hid).resolve_right he)
      refine ⟨f w, ?_, ?_⟩
      · rw [hstep.versions, Dict.get?_set, if_neg he, hw]
        rfl
      · rwa [(hskip w).2.2.2.1, (hskip w).2.2.2.2.1]
  · intro id w hw hunresolved
    rcases hstep.back hw with ⟨rfl, -⟩ | ⟨-, w₀, hw₀, rfl⟩
    · exact hstep.due _ hworked
    · exact hstep.due _ (h.unresolved id w₀ hw₀ ((hskip w₀).2.2.2.2.1.mp hunresolved))
  · intro id w x hw hx
    by_cases hin : w.cycleId = cycle.cycleId
    · rw [hin] at hx
      rcases hcycles _ x hx with ⟨-, rfl⟩ | ⟨hne, -⟩
      · refine hend.imp hoccupied fun hfinal => ?_
        rcases hstep.back hw with ⟨rfl, rfl⟩ | ⟨hid, w₀, hw₀, rfl⟩
        · unfold Final
          rwa [(hskip v).2.1, (hskip v).2.2.1, (hskip v).2.2.2.2.1]
        · rw [(hskip w₀).1] at hin
          obtain ⟨hended, hresolved⟩ := h.final_others hversion hworked hnc hw₀
            (hin.trans hhome.symm) hid
          unfold Final
          rw [(hskip w₀).2.1, (hskip w₀).2.2.1, (hskip w₀).2.2.2.2.1]
          exact ⟨fun ha => .inl (hended ha), fun hu => absurd hu hresolved⟩
      · exact absurd rfl hne
    · obtain ⟨hw₀, hid⟩ := hsame id w hw hin
      rcases hcycles _ x hx with ⟨he, -⟩ | ⟨-, hx⟩
      · exact absurd he hin
      · refine (h.released id w x hw₀ hx).imp ?_ fun hfinal => ?_
        · exact hstep.others x (by rw [h.keyed _ x hx]; exact hin)
        · refine ⟨fun ha => ?_, fun hu => hproven id (hfinal.2 hu)⟩
          rcases hfinal.1 ha with ht | hp | hnu
          · exact .inl ht
          · exact .inr (.inl (hproven id hp))
          · exact .inr (.inr fun hu => ((huncertain id hu).elim hnu) hid)

end Guardian

namespace Guardian

variable {s s' : Guardian} {cycle c x : Cycle} {version v w : Version} {now : ℤ} {key : WorkKey}

/-! ## Occupancies -/

theorem Occupied.congr (h : s.Occupied x) (heq : s'.occupancies = s.occupancies) :
    s'.Occupied x := by
  obtain ⟨o, ho, hc⟩ := h
  exact ⟨o, heq ▸ ho, hc⟩

theorem Occupied.map (h : s.Occupied x) {g : Occupancy → Occupancy}
    (hg : ∀ o, o.cycleId = some x.cycleId → (g o).cycleId = some x.cycleId) :
    (s.mapOccupancy cycle g).Occupied x := by
  obtain ⟨o, ho, hc⟩ := h
  unfold mapOccupancy
  split
  · exact ⟨o, ho, hc⟩
  · rename_i o' ho'
    unfold Occupied
    simp only [Dict.get?_set]
    by_cases henv : x.environment = cycle.environment
    · rw [henv, ho'] at ho
      obtain rfl := Option.some.inj ho
      exact ⟨g o', by rw [if_pos henv], hg o' hc⟩
    · exact ⟨o, by rw [if_neg henv]; exact ho, hc⟩

variable {hold : Bool}

theorem stopOccupancy_keeps (h : hold = true ∨ x.cycleId ≠ cycle.cycleId)
    (o : Occupancy) (ho : o.cycleId = some x.cycleId) :
    (stopOccupancy cycle hold now o).cycleId = some x.cycleId := by
  unfold stopOccupancy
  split_ifs with hhold hcycle
  · exact ho
  · rw [ho] at hcycle
    exact absurd (Option.some.inj hcycle) (h.resolve_left hhold)
  · exact ho

theorem stop_occupied {status : VersionStatus} {reason : String}
    (h : s.Occupied x) (hhold : hold = true ∨ x.cycleId ≠ cycle.cycleId) :
    (s.stop cycle v status reason now hold).Occupied x := by
  have hrows : (s.stopRows cycle v status reason now).Occupied x := h.congr rfl
  exact hrows.map (stopOccupancy_keeps hhold)

/-! ## The end of a work -/

theorem stopped_terminal (status : VersionStatus) : status.stopped.terminal = true := by
  cases status <;> rfl

theorem open_congr (h : s'.due = s.due) : s'.Open key ↔ s.Open key := by
  rw [Open, Open, h]

theorem worked_congr (h : s'.due = s.due) {id : String} : s'.Worked id ↔ s.Worked id := by
  rw [Worked, Worked, h]

/-- The cycle stops, with or without its hold on the environment. -/
theorem Ending.stop_step (h : s.Ending cycle version) (hv : version.Evolves v)
    (status : VersionStatus) (reason : String) (now : ℤ) (hold : Bool) :
    CycleStep s cycle version (s.stop cycle v status reason now hold)
      { v with status := status, reason := some reason, completedAt := some now }
      { cycle with status := status.stopped, reason := some reason, completedAt := some now }
      (skipPlanned cycle reason now) := by
  obtain ⟨hversions, hdue, hcycles⟩ := stop_rows s cycle v status reason now hold
  refine ⟨?_, .inr ⟨reason, now, rfl⟩, hcycles, rfl, rfl, hv.cycleId, hv.firstUnknownAt, ?_, ?_,
    ?_, .inr (stopped_terminal status)⟩
  · intro id
    rw [hversions]
    simp [hv.id]
  · exact fun id hid => (worked_congr hdue).mpr hid
  · intro key hopen
    have hwas : s.Open key := (open_congr hdue).mp hopen
    exact .inl ⟨hwas, h.free key hwas⟩
  · exact fun x hx hoccupied => stop_occupied hoccupied (.inr hx)

theorem dueWork_rows {operation : GuardianOperation} {sequence : ℕ} {due : ℤ} :
    (s.dueWork cycle v operation sequence due).versions = s.versions ∧
      (s.dueWork cycle v operation sequence due).cycles = s.cycles ∧
      (s.dueWork cycle v operation sequence due).occupancies = s.occupancies := by
  unfold dueWork
  simp only
  split_ifs <;> exact ⟨rfl, rfl, rfl⟩

variable {operation : GuardianOperation}

theorem dueWork_open {sequence : ℕ} {due : ℤ}
    (h : (s.dueWork cycle v operation sequence due).Open key) :
    s.Open key ∨ key.versionId = v.versionExecutionId := by
  unfold dueWork at h
  simp only at h
  split_ifs at h with hmem
  · exact .inl h
  · obtain ⟨w, hw, hne⟩ := h
    simp only [Dict.get?_set] at hw
    split_ifs at hw with hk
    · exact .inr (by rw [hk])
    · exact .inl ⟨w, hw, hne⟩

theorem dueWork_worked {sequence : ℕ} {due : ℤ} {id : String}
    (h : s.Worked id) : (s.dueWork cycle v operation sequence due).Worked id := by
  obtain ⟨k, w, hw, hid⟩ := h
  unfold dueWork
  simp only
  split_ifs with hmem
  · exact ⟨k, w, hw, hid⟩
  · refine ⟨k, w, ?_, hid⟩
    rw [Dict.get?_set, if_neg]
    · exact hw
    · intro hk
      subst hk
      exact hmem (Dict.mem_keys_iff.mpr ⟨w, hw⟩)

/-- More work of the same version is due. -/
theorem Ending.dueWork_step (h : s.Ending cycle version) (hv : v.cycleId = version.cycleId)
    (hid : v.versionExecutionId = version.versionExecutionId)
    (hunknown : version.firstUnknownAt ≠ none → v.firstUnknownAt ≠ none)
    (hcycle : s.cycles.get? cycle.cycleId = some cycle) (halive : cycle.status.terminal = false)
    (hoccupied : s.Occupied cycle)
    (hnext : (s.setVersion v).versions.get? w.versionExecutionId = some w)
    (hhome : w.cycleId = cycle.cycleId) (hwalive : w.status.terminal = false)
    (operation : GuardianOperation) (sequence : ℕ) (due : ℤ) :
    CycleStep s cycle version ((s.setVersion v).dueWork cycle w operation sequence due) v cycle
      fun x => x := by
  obtain ⟨hversions, hcycles, hoccupancies⟩ := @dueWork_rows (s.setVersion v) cycle w operation
    sequence due
  refine ⟨?_, .inl rfl, ?_, rfl, rfl, hv, hunknown, ?_, ?_, ?_, ?_⟩
  · intro id
    rw [hversions, Guardian.setVersion, hid, Option.map_id']
  · rw [hcycles, Dict.set_self hcycle]
    rfl
  · exact fun id hw => dueWork_worked (s := s.setVersion v) hw
  · intro key hopen
    rcases dueWork_open hopen with hwas | hkey
    · exact .inl ⟨hwas, h.free key hwas⟩
    · exact .inr ⟨halive, w, by rw [hversions, hkey]; exact hnext, hhome, hwalive⟩
  · exact fun x _ hx => hx.congr hoccupancies
  · exact .inl (hoccupied.congr hoccupancies)

theorem Ending.wait_step (h : s.Ending cycle version) (hv : v.cycleId = version.cycleId)
    (hid : v.versionExecutionId = version.versionExecutionId)
    (hunknown : version.firstUnknownAt ≠ none → v.firstUnknownAt ≠ none)
    (hcycle : s.cycles.get? cycle.cycleId = some cycle) (hoccupied : s.Occupied cycle) :
    CycleStep s cycle version (s.setVersion v) v cycle fun x => x := by
  refine ⟨?_, .inl rfl, (Dict.set_self hcycle).symm, rfl, rfl, hv, hunknown, fun _ hw => hw, ?_,
    fun _ _ hx => hx, .inl hoccupied⟩
  · intro _
    rw [Guardian.setVersion, hid, Option.map_id']
  · exact fun key hopen => .inl ⟨hopen, h.free key hopen⟩

/-- The last version is completed, and the environment is free. -/
theorem Ending.release_step (h : s.Ending cycle version) (hv : v.cycleId = version.cycleId)
    (hid : v.versionExecutionId = version.versionExecutionId)
    (hunknown : version.firstUnknownAt ≠ none → v.firstUnknownAt ≠ none)
    {status : CycleStatus} (hstatus : status.terminal = true) : CycleStep s cycle version
      (((s.setVersion v).setCycle { cycle with
        status := status, completedAt := some now }).release { cycle with
        status := status, completedAt := some now }) v
      { cycle with status := status, completedAt := some now } fun x => x := by
  obtain ⟨hversions, hdue, hcycles⟩ := release_rows
    ((s.setVersion v).setCycle { cycle with status := status, completedAt := some now })
    { cycle with status := status, completedAt := some now }
  refine ⟨?_, .inl rfl, hcycles, rfl, rfl, hv, hunknown, ?_, ?_, ?_, .inr hstatus⟩
  · intro id
    rw [hversions, Guardian.setCycle, Guardian.setVersion, hid, Option.map_id']
  · exact fun id hw => (worked_congr hdue).mpr hw
  · intro key hopen
    have hwas : s.Open key := (open_congr hdue).mp hopen
    exact .inl ⟨hwas, h.free key hwas⟩
  · intro x hne hx
    have hrows : ((s.setVersion v).setCycle { cycle with
        status := status, completedAt := some now }).Occupied x := hx.congr rfl
    refine hrows.map fun o ho => ?_
    split_ifs with hrelease
    · rw [ho] at hrelease
      exact absurd (Option.some.inj hrelease.1) hne
    · exact ho

/-- What an outcome does to its cycle, in the terms of the holds. -/
theorem Outcome.cycleStep {outcome : ProviderOutcome}
    (ho : Outcome s cycle version operation outcome now s') (h : s.Ending cycle version)
    (hrows : s.Rows) (hcycle : s.cycles.get? cycle.cycleId = some cycle)
    (halive : cycle.status.terminal = false) (hoccupied : s.Occupied cycle) :
    ∃ v c f, CycleStep s cycle version s' v c f ∧ (version.terminalKnown = true →
        v.terminalKnown = true) ∧
      (s'.Occupied cycle ∨ v.status ≠ .unresolved ∧ Stops version operation outcome v) := by
  cases ho with
  | stopped _ status reason hold hv _ _ hhold =>
    refine ⟨_, _, _, h.stop_step hv status reason now hold, hv.terminalKnown, ?_⟩
    rcases hhold with ⟨hheld, -⟩ | ⟨hresolved, hstops⟩
    · exact .inl (stop_occupied hoccupied (.inl hheld))
    · exact .inr ⟨hresolved, hstops⟩
  | goesOn v next sequence due hv =>
    refine ⟨v, cycle, _, h.dueWork_step hv.cycleId hv.id hv.firstUnknownAt hcycle halive hoccupied
      ?_ (hv.cycleId.trans h.cycleId) (hv.not_terminal h.alive) next sequence due,
      hv.terminalKnown, .inl (hoccupied.congr dueWork_rows.2.2)⟩
    simp [Guardian.setVersion]
  | completed v counts summary _ hv hseen hnext =>
    have hset := h.rows hrows (v := v.completedWith counts summary now) hv.id hv.cycleId
      hv.ordinal (fun _ => hseen) (fun _ => hseen)
    generalize hdef : v.completedWith counts summary now = v₁ at hset hnext
    have hid : v₁.versionExecutionId = version.versionExecutionId := hdef ▸ hv.id
    have hhome : v₁.cycleId = version.cycleId := hdef ▸ hv.cycleId
    have hunknown : version.firstUnknownAt ≠ none → v₁.firstUnknownAt ≠ none :=
      hdef ▸ hv.firstUnknownAt
    have hstatus : v₁.status = .completed := hdef ▸ rfl
    have hended : v₁.terminalKnown = true := hdef ▸ hseen
    rcases progress_cases hnext with ⟨_, due, hmem, -, hplanned, rfl⟩ | rfl |
        ⟨-, status, hterminal, rfl⟩
    · obtain ⟨hrow, hnext⟩ := mem_versionsOf hset hmem
      exact ⟨v₁, cycle, _, h.dueWork_step hhome hid hunknown hcycle halive hoccupied hrow hnext
        (by rw [hplanned]; rfl) .dispatchVersion 0 due, fun _ => hended,
        .inl (hoccupied.congr dueWork_rows.2.2)⟩
    · exact ⟨v₁, cycle, _, h.wait_step hhome hid hunknown hcycle hoccupied, fun _ => hended,
        .inl hoccupied⟩
    · exact ⟨v₁, _, _, h.release_step hhome hid hunknown hterminal, fun _ => hended,
        .inr ⟨by rw [hstatus]; decide, .inl hended⟩⟩

end Guardian

end LocalAgent.Runtime
