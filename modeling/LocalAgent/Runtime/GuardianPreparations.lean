import LocalAgent.Runtime.GuardianSequences

/-!
# LocalAgent.Runtime.GuardianPreparations — what a preparation does to a work

* `Guardian.Looked`: what a work is prepared as.
* `Guardian.Continued`: a work that goes on after its preparation.
* `Sequenced.prepareLocked_cases`: a preparation stops the version, or the work goes on.
-/

namespace LocalAgent.Runtime

theorem GuardianOperation.numbered_cases {operation : GuardianOperation}
    (h : operation.numbered = true) :
    operation = .dispatchVersion ∨ operation = .reconcileRemote := by
  cases operation with
  | dispatchVersion => exact .inl rfl
  | reconcileRemote => exact .inr rfl
  | pollRemote | fetchTerminalResult => cases h

namespace Guardian

variable {s t : Guardian} {cycle c : Cycle} {version v : Version} {now dbNow : ℤ} {key : WorkKey}
  {work next : DueWork} {claim : WorkClaim} {collections : ℕ}

/-! ## Preparation -/

/-- What a work is prepared as, when the numbers are in order. -/
structure Looked (key : WorkKey) (work : DueWork) (version : Version)
    (planned : GuardianOperation × Version) : Prop where
  id : planned.2.versionExecutionId = version.versionExecutionId
  cycleId : planned.2.cycleId = version.cycleId
  status : planned.2.status = version.status
  counter : ∀ operation, planned.2.counter operation = version.counter operation
  ended : planned.2.terminalKnown = version.terminalKnown
  waiting : key.operation = .dispatchVersion → work.startedAt = none → planned.2.known = true
  known : planned.2.terminalKnown = true → planned.2.known = true
  operation : planned.1 = key.operation ∧ (key.operation = .dispatchVersion →
      work.startedAt = none) ∨
    planned.1 = .reconcileRemote ∧ key.operation ≠ .fetchTerminalResult ∧
      (key.operation = .dispatchVersion → work.startedAt ≠ none)

theorem Looked.row {planned : GuardianOperation × Version}
    (hlooked : Looked claim.workKey work version planned) (hrows : s.Rows)
    (hl : s.Locked dbNow claim work cycle version) :
    s.versions.get? planned.2.versionExecutionId = some version := by
  rw [hlooked.id, hrows.ids _ _ hl.ofVersion]
  exact hl.ofVersion

/-- What was looked up is written to the version of the work. -/
theorem Sequenced.looked (h : s.Sequenced) (hrows : s.Rows)
    (hl : s.Locked dbNow claim work cycle version) (halive : version.status.terminal = false)
    (now : ℤ) :
    Looked claim.workKey work version (operationOf claim.workKey work version now) := by
  have hopen := hl.not_completed
  have hwaiting : claim.workKey.operation = .dispatchVersion → work.startedAt = none →
      version.known = true := h.waiting _ work version hl.row hl.ofVersion hopen
  have hended : version.terminalKnown = true →
      claim.workKey.operation = .fetchTerminalResult :=
    h.ended _ version ⟨work, hl.row, hopen⟩ hl.ofVersion
  have hknown : version.terminalKnown = true → version.known = true :=
    h.known _ version hl.ofVersion halive
  have hfetched : claim.workKey.operation = .fetchTerminalResult → version.terminalKnown = true :=
    fun hop => hrows.fetched _ work version hl.row hop hl.ofVersion
  unfold operationOf
  simp only
  by_cases hreclaimed : claim.workKey.operation = .dispatchVersion ∧ work.startedAt ≠ none
  · -- a dispatch that was started is not one of a version that has ended
    simp only [hreclaimed, ne_eq, true_and, not_false_eq_true, if_true, true_or]
    have hnot : version.terminalKnown ≠ true := fun ht => by
      have := hended ht
      rw [hreclaimed.1] at this
      cases this
    refine ⟨rfl, rfl, rfl, fun operation => by cases operation <;> rfl, rfl,
      fun _ hnone => absurd hnone hreclaimed.2, fun ht => absurd ht hnot, .inr ⟨rfl, ?_, ?_⟩⟩
    · intro hop
      rw [hreclaimed.1] at hop
      cases hop
    · exact fun _ => hreclaimed.2
  · simp only [hreclaimed, if_false, false_or]
    have hfresh : claim.workKey.operation = .dispatchVersion → work.startedAt = none :=
      fun hop => not_not.mp fun hne => hreclaimed ⟨hop, hne⟩
    split_ifs with hunknown
    · refine ⟨rfl, rfl, rfl, fun _ => rfl, rfl, hwaiting, hknown, .inr ⟨rfl, fun hop => ?_,
        fun hop => ?_⟩⟩
      · rw [hknown (hfetched hop)] at hunknown
        cases hunknown
      · rw [hwaiting hop (hfresh hop)] at hunknown
        cases hunknown
    · exact ⟨rfl, rfl, rfl, fun _ => rfl, rfl, hwaiting, hknown, .inl ⟨rfl, hfresh⟩⟩

/-- A work that goes on after its preparation. -/
structure Continued (s : Guardian) (claim : WorkClaim) (work : DueWork) (cycle : Cycle)
    (version v : Version) (c : Cycle) (next : DueWork) (t : Guardian)
    (prepared : Option PreparedWork) : Prop where
  versions : t.versions = s.versions.set version.versionExecutionId v
  cycles : t.cycles = s.cycles.set cycle.cycleId c
  due : t.due = s.due.set claim.workKey next
  id : v.versionExecutionId = version.versionExecutionId
  cycleId : v.cycleId = version.cycleId
  alive : v.status.terminal = false
  planned : v.status = .planned → version.status = .planned
  counter : ∀ operation, version.counter operation ≤ v.counter operation
  cycle : c = cycle ∨ c = { cycle with status := .running }
  state : next.state ≠ .completed
  start : work.startedAt ≠ none → next.startedAt ≠ none
  spent : next.startedAt ≠ none → v.status ≠ .planned ∧
    (claim.workKey.operation.numbered = true →
      claim.workKey.sequence < v.counter claim.workKey.operation)
  waiting : claim.workKey.operation = .dispatchVersion → work.startedAt = none → v.known = true
  ended : v.terminalKnown = version.terminalKnown
  known : v.terminalKnown = true → v.known = true
  prepared : ∀ q, prepared = some q → q.claim = claim ∧ next.startedAt ≠ none ∧
    (q.operation = claim.workKey.operation ∨
      q.operation = .reconcileRemote ∧ claim.workKey.operation ≠ .fetchTerminalResult)

/-- What the version of a read keeps. -/
theorem readVersion_spec (operation : GuardianOperation) (v : Version) (now : ℤ) :
    (readVersion operation v now).terminalKnown = v.terminalKnown ∧
      (readVersion operation v now).status = v.status ∧
      ∀ op, v.counter op ≤ (readVersion operation v now).counter op := by
  unfold readVersion
  by_cases hlookup : operation = .reconcileRemote
  · rw [if_pos hlookup]
    refine ⟨rfl, rfl, fun op => ?_⟩
    cases op with
    | reconcileRemote => exact Nat.le_succ _
    | dispatchVersion | pollRemote | fetchTerminalResult => exact le_refl _
  · rw [if_neg hlookup]
    exact ⟨rfl, rfl, fun op => by cases op <;> exact le_refl _⟩

section Admission

variable {operation : GuardianOperation}
  (hlooked : Looked claim.workKey work version (operation, v)) (h : s.Sequenced)
  (hl : s.Locked dbNow claim work cycle version) (halive : version.status.terminal = false)
  (hid : cycle.cycleId = version.cycleId)
include hlooked h hl halive hid

/-- A work that is not admitted is due again. -/
theorem Looked.requeued (hversions : t.versions = s.versions.set version.versionExecutionId v)
    (hcycles : t.cycles = s.cycles) (hdue : t.due = s.due.set claim.workKey { work with
      state := .ready, claimToken := none, leaseUntil := none, nextAvailableAt := now + second,
      prepared := none }) :
    ∃ v c next, Continued s claim work cycle version v c next t none := by
  have hcycle : s.cycles.get? cycle.cycleId = some cycle := hid ▸ hl.ofCycle
  refine ⟨v, cycle, _, hversions, hcycles.trans (Dict.set_self hcycle).symm, hdue, hlooked.id,
    hlooked.cycleId, hlooked.status ▸ halive, fun hp => hlooked.status.symm.trans hp,
    fun op => (hlooked.counter op).ge, .inl rfl, (by simp), fun hsome => hsome,
    fun hsome => ⟨fun hp => ?_, ?_⟩, hlooked.waiting, hlooked.ended, hlooked.known, (by simp)⟩
  · exact hsome (h.untouched _ work version hl.row hl.ofVersion (hlooked.status.symm.trans hp)).2
  · exact fun hop => (h.spent _ work version hl.row hl.ofVersion hsome hop).trans_eq
      (hlooked.counter _).symm

/-- A submission is admitted, or due again. -/
theorem Looked.admitSubmit (hrows : s.Rows) (hsubmit : operation = .dispatchVersion) :
    ∃ v' c next, Continued s claim work cycle version v' c next
      ((s.setVersion v).admitSubmit dbNow now claim work cycle v).1
      ((s.setVersion v).admitSubmit dbNow now claim work cycle v).2 := by
  have hvid : v.versionExecutionId = version.versionExecutionId := hlooked.id
  have hopen := hl.not_completed
  have hfresh : claim.workKey.operation = .dispatchVersion ∧ work.startedAt = none := by
    rcases hlooked.operation with ⟨hop, hnone⟩ | ⟨hop, -⟩
    · have hop' : claim.workKey.operation = .dispatchVersion := hop.symm.trans hsubmit
      exact ⟨hop', hnone hop'⟩
    · exact absurd (hop.symm.trans hsubmit) (by decide)
  unfold Guardian.admitSubmit
  simp only
  split_ifs with hfull hattempts
  · exact hlooked.requeued h hl halive hid (by rw [← hvid]; rfl) rfl rfl
  · have hless := hrows.dispatchable _ work version hl.row hopen hfresh.1 hfresh.2 hl.ofVersion
    have hsame : v.submitAttempts = version.submitAttempts := hlooked.counter .dispatchVersion
    omega
  · refine ⟨{ v with
        submitAttempts := v.submitAttempts + 1
        intentAt := some (v.intentAt.getD now)
        status := .dispatching }, _, _, ?_, rfl, rfl, hvid, hlooked.cycleId, rfl, (by simp), ?_,
      .inr rfl, hopen, fun _ => Option.some_ne_none _, fun _ => ⟨(by simp), fun _ => ?_⟩,
      hlooked.waiting, hlooked.ended, hlooked.known, ?_⟩
    · simp only [start, Guardian.setVersion, Guardian.setCycle, hvid, Dict.set_set]
    · intro op
      rw [← hlooked.counter]
      cases op with
      | dispatchVersion => exact Nat.le_succ _
      | pollRemote | reconcileRemote | fetchTerminalResult => exact le_refl _
    · have hbelow := h.below _ work version hl.row hl.ofVersion
      rw [hfresh.1] at hbelow ⊢
      have hle : claim.workKey.sequence ≤ v.submitAttempts :=
        hbelow.trans_eq (hlooked.counter .dispatchVersion).symm
      exact Nat.lt_succ_of_le hle
    · intro q hq
      cases hq
      exact ⟨rfl, Option.some_ne_none _, .inl hfresh.1.symm⟩

/-- A read is admitted, or due again. -/
theorem Looked.admitRead (hread : operation ≠ .dispatchVersion) :
    ∃ v' c next, Continued s claim work cycle version v' c next
      ((s.setVersion v).admitRead dbNow now claim work v operation collections).1
      ((s.setVersion v).admitRead dbNow now claim work v operation collections).2 := by
  have hvid : v.versionExecutionId = version.versionExecutionId := hlooked.id
  have hopen := hl.not_completed
  have hcycle : s.cycles.get? cycle.cycleId = some cycle := hid ▸ hl.ofCycle
  obtain ⟨hevolves, hknown⟩ := evolves_readVersion operation v now
  obtain ⟨hseen, hstatus, hcounter⟩ := readVersion_spec operation v now
  have hsame : v.status = version.status := hlooked.status
  unfold Guardian.admitRead
  simp only
  split_ifs with hfull
  · exact hlooked.requeued h hl halive hid (by rw [← hvid]; rfl) rfl rfl
  refine ⟨readVersion operation v now, cycle, _, ?_, (Dict.set_self hcycle).symm, rfl,
    hevolves.id.trans hvid, hevolves.cycleId.trans hlooked.cycleId, ?_, ?_, ?_, .inl rfl, hopen,
    fun _ => Option.some_ne_none _, fun _ => ⟨fun hp => ?_, fun hop => ?_⟩,
    fun hop hnone => hknown.trans (hlooked.waiting hop hnone), hseen.trans hlooked.ended,
    ?_, ?_⟩
  · simp only [start, Guardian.setVersion, hevolves.id, hvid, Dict.set_set]
  · rwa [hstatus, hsame]
  · rw [hstatus, hsame]
    exact fun hp => hp
  · exact fun op => (hlooked.counter op).ge.trans (hcounter op)
  · -- a version that is planned waits for its first dispatch, which is no read
    obtain ⟨hop, hnone⟩ := h.untouched _ work version hl.row hl.ofVersion
      (hsame.symm.trans (hstatus.symm.trans hp))
    rcases hlooked.operation with ⟨hkey, -⟩ | ⟨-, -, hstarted⟩
    · exact hread (hkey.trans hop)
    · exact hstarted hop hnone
  · rcases GuardianOperation.numbered_cases hop with hkey | hkey
    · have hstarted : work.startedAt ≠ none := by
        rcases hlooked.operation with ⟨hsame, -⟩ | ⟨-, -, hstarted⟩
        · exact absurd (hsame.trans hkey) hread
        · exact hstarted hkey
      exact ((h.spent _ work version hl.row hl.ofVersion hstarted hop).trans_eq
        (hlooked.counter _).symm).trans_le (hcounter _)
    · -- a lookup is counted
      have hlookup : operation = .reconcileRemote := by
        rcases hlooked.operation with ⟨hsame, -⟩ | ⟨hlookup, -⟩
        · exact hsame.trans hkey
        · exact hlookup
      have hbelow := h.below _ work version hl.row hl.ofVersion
      rw [hkey] at hbelow ⊢
      have hle : claim.workKey.sequence ≤ v.reconciliationRequests :=
        hbelow.trans_eq (hlooked.counter .reconcileRemote).symm
      rw [hlookup]
      exact Nat.lt_succ_of_le hle
  · rw [hseen, hknown]
    exact hlooked.known
  · intro q hq
    cases hq
    refine ⟨rfl, Option.some_ne_none _, ?_⟩
    rcases hlooked.operation with ⟨hsame, -⟩ | ⟨hlookup, hne, -⟩
    · exact .inl hsame
    · exact .inr ⟨hlookup, hne⟩

end Admission

/-- What a preparation does, by the version and by the operation that is due. -/
theorem Sequenced.prepareLocked_cases (h : s.Sequenced) (hrows : s.Rows)
    (hl : s.Locked dbNow claim work cycle version) (halive : version.status.terminal = false)
    (hgoing : cycle.status.terminal = false) (hid : cycle.cycleId = version.cycleId) (now : ℤ)
    (collections : ℕ) :
    (∃ v status reason hold, Looked claim.workKey work version
        (operationOf claim.workKey work version now) ∧
      v = (operationOf claim.workKey work version now).2 ∧ VersionStatus.terminal status = true ∧
      s.prepareLocked dbNow now claim work cycle version collections =
        ((s.stop cycle v status reason now hold).complete claim.workKey work dbNow, none)) ∨
    ∃ v c next, Continued s claim work cycle version v c next
      (s.prepareLocked dbNow now claim work cycle version collections).1
      (s.prepareLocked dbNow now claim work cycle version collections).2 := by
  have hlooked := h.looked hrows hl halive now
  unfold Guardian.prepareLocked
  rw [if_neg (by rw [halive, hgoing]; decide)]
  generalize operationOf claim.workKey work version now = planned at *
  obtain ⟨operation, v⟩ := planned
  simp only at *
  split_ifs with hlate hover hsubmit
  · exact .inl ⟨v, .infraFailed, _, false, hlooked, rfl, rfl, by rw [setVersion_stop]⟩
  · exact .inl ⟨v, .unresolved, _, true, hlooked, rfl, rfl, by rw [setVersion_stop]⟩
  · exact .inr (hlooked.admitSubmit h hl halive hid hrows hsubmit)
  · exact .inr (hlooked.admitRead h hl halive hid hsubmit)

/-- A work that goes on keeps the numbers in order. -/
theorem Continued.sequenced {prepared : Option PreparedWork}
    (hc : Continued s claim work cycle version v c next t prepared) (h : s.Sequenced)
    (hrows : s.Rows) (hl : s.Locked dbNow claim work cycle version)
    (halive : version.status.terminal = false) (hgoing : cycle.status.terminal = false)
    (hid : cycle.cycleId = version.cycleId) : t.Sequenced := by
  have hvid := hrows.ids _ _ hl.ofVersion
  have hrow : s.versions.get? v.versionExecutionId = some version := by
    rw [hc.id, hvid]
    exact hl.ofVersion
  have hworked : s.Worked v.versionExecutionId := ⟨_, work, hl.row, by rw [hc.id, hvid]⟩
  have hset : (s.setVersion v).Sequenced := by
    refine h.setVersion hrow hworked hc.counter (fun _ => halive) hc.planned ?_ ?_ fun _ => hc.known
    · intro k w hw hk hne hop hnone
      cases hl.open_iff hrows k w hw hne (hk.trans hc.id)
      cases hw.symm.trans hl.row
      exact hc.waiting hop hnone
    · rintro ht k hk hkid
      refine h.ended k version hk ?_ (hc.ended ▸ ht)
      rwa [hkid]
  have hcycle : ((s.setVersion v).setCycle c).Sequenced := by
    refine hset.setCycle fun _ id w hw hin hnot => ?_
    refine (hset.idle id w hw hnot).2 cycle ?_ hgoing
    rw [hin]
    rcases hc.cycle with rfl | rfl <;> exact hid ▸ hl.ofCycle
  have hwork :
      { (s.setVersion v).setCycle c with due := s.due.set claim.workKey next }.Sequenced := by
    refine hcycle.setWork hl.row (fun _ => ?_) hc.start (fun hsome w hw => ?_)
      fun hcompleted => absurd hcompleted hc.state
    · exact hl.not_completed
    · have hown : (s.setVersion v).versions.get? claim.workKey.versionId = some v := by
        rw [Guardian.setVersion, Dict.get?_set, if_pos (by rw [hc.id, hvid])]
      cases hown.symm.trans hw
      exact hc.spent hsome
  refine hwork.congr ?_ hc.due ?_
  · rw [hc.versions, ← hc.id]
    rfl
  · rw [hc.cycles]
    rcases hc.cycle with rfl | rfl <;> rfl

/-- A preparation keeps the numbers in order. -/
theorem Sequenced.prepareLocked (h : s.Sequenced) (hrows : s.Rows)
    (hl : s.Locked dbNow claim work cycle version) (halive : version.status.terminal = false)
    (hgoing : cycle.status.terminal = false) (hid : cycle.cycleId = version.cycleId) :
    (s.prepareLocked dbNow now claim work cycle version collections).1.Sequenced := by
  have hvid := hrows.ids _ _ hl.ofVersion
  rcases h.prepareLocked_cases hrows hl halive hgoing hid now collections with
    ⟨v, status, reason, hold, hlooked, hv, hterminal, heq⟩ | ⟨v, c, next, hc⟩
  · rw [heq]
    subst hv
    have hrow := hlooked.row hrows hl
    have hstop : (s.stop cycle (operationOf claim.workKey work version now).2 status reason now
        hold).Sequenced := by
      refine h.stop hrow ⟨_, work, hl.row, by rw [hlooked.id, hvid]⟩
        (fun op => (hlooked.counter op).ge) ?_ ?_ hterminal reason hold
      · intro k w hw hk hne hop hnone
        cases hl.open_iff hrows k w hw hne (hk.trans hlooked.id)
        cases hw.symm.trans hl.row
        exact hlooked.waiting hop hnone
      · rintro ht k hk hkid
        refine h.ended k version hk ?_ (hlooked.ended ▸ ht)
        rwa [hkid]
    obtain ⟨hversions, hdue, -⟩ := stop_rows s cycle
      (operationOf claim.workKey work version now).2 status reason now hold
    have hafter : ∀ w, (s.stop cycle (operationOf claim.workKey work version now).2 status reason
        now hold).versions.get? claim.workKey.versionId = some w →
        w.status.terminal = true := by
      intro w hw
      simp only [hversions, Dict.get?_mapValues, Dict.get?_set, hlooked.id, hvid, if_true,
        Option.map_some] at hw
      cases hw
      unfold skipPlanned
      split_ifs
      · rfl
      · exact hterminal
    have hrow' : (s.stop cycle (operationOf claim.workKey work version now).2 status reason now
        hold).due.get? claim.workKey = some work := by
      rw [hdue]
      exact hl.row
    refine hstop.setWork hrow' (fun hne => absurd rfl hne) id (fun hsome w hw => ?_)
      fun _ => ⟨Option.some_ne_none _, fun w hw hgo => ?_⟩
    · refine ⟨fun hp => ?_, fun hop => hstop.spent _ work w hrow' hw hsome hop⟩
      have := hafter w hw
      rw [hp] at this
      cases this
    · rw [hafter w hw] at hgo
      cases hgo
  · exact hc.sequenced h hrows hl halive hgoing hid

end Guardian

end LocalAgent.Runtime
