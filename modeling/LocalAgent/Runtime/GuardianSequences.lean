import LocalAgent.Runtime.GuardianHoldTransactions

/-!
# LocalAgent.Runtime.GuardianSequences — the numbers of the works

The key of a due row has a number that one of five counters of its version gives. A number that is
given twice would lose the work that it names.

* `Guardian.Sequenced`: the numbers of the works against the counters, and what the works say of
  their versions.
* `Sequenced.setWork`, `setVersion`, `dueWork`, `setCycle`, `skip`: the writes keep it.
* `Sequenced.sequel`: the end of a work keeps it.
-/

namespace LocalAgent.Runtime

def Version.counter (v : Version) : GuardianOperation → ℕ
  | .dispatchVersion => v.submitAttempts
  | .pollRemote => v.pollSequence
  | .reconcileRemote => v.reconciliationRequests
  | .fetchTerminalResult => v.resultRetries

/-- A work is numbered by the counter that its first start advances. -/
def GuardianOperation.numbered : GuardianOperation → Bool
  | dispatchVersion | reconcileRemote => true
  | pollRemote | fetchTerminalResult => false

variable {operation : GuardianOperation} {sequence : ℕ}

namespace Guardian

variable {s s' : Guardian} {cycle c : Cycle} {v v₀ : Version} {now : ℤ} {key : WorkKey}
  {work work' : DueWork}

/-! ## The invariant -/

structure Sequenced (s : Guardian) : Prop where
  below : ∀ key work v, s.due.get? key = some work → s.versions.get? key.versionId = some v →
    key.sequence ≤ v.counter key.operation
  spent : ∀ key work v, s.due.get? key = some work → s.versions.get? key.versionId = some v →
    work.startedAt ≠ none → key.operation.numbered = true → key.sequence < v.counter key.operation
  done : ∀ key work v, s.due.get? key = some work → s.versions.get? key.versionId = some v →
    v.status.terminal = false → work.state = .completed → work.startedAt ≠ none
  closed : ∀ key work, s.due.get? key = some work → work.state = .completed →
    work.completedAt ≠ none
  waiting : ∀ key work v, s.due.get? key = some work → s.versions.get? key.versionId = some v →
    work.state ≠ .completed → key.operation = .dispatchVersion → work.startedAt = none →
    v.known = true
  ended : ∀ key v, s.Open key → s.versions.get? key.versionId = some v → v.terminalKnown = true →
    key.operation = .fetchTerminalResult
  known : ∀ id v, s.versions.get? id = some v → v.status.terminal = false →
    v.terminalKnown = true → v.known = true
  idle : ∀ id v, s.versions.get? id = some v → ¬s.Worked id →
    (v.known = true ∧ v.terminalKnown = false) ∧
    ∀ c, s.cycles.get? v.cycleId = some c → c.status.terminal = false → v.status = .planned
  untouched : ∀ key work v, s.due.get? key = some work →
    s.versions.get? key.versionId = some v → v.status = .planned →
    key.operation = .dispatchVersion ∧ work.startedAt = none
  begun : ∀ id v, s.versions.get? id = some v → v.status ≠ .planned → v.status ≠ .skipped →
    s.Worked id

theorem Sequenced.congr (h : s.Sequenced) (hversions : s'.versions = s.versions)
    (hdue : s'.due = s.due) (hcycles : s'.cycles = s.cycles) : s'.Sequenced := by
  have hopen : ∀ key, s'.Open key ↔ s.Open key := fun key => open_congr hdue
  have hworked : ∀ id, s'.Worked id ↔ s.Worked id := fun id => worked_congr hdue
  refine ⟨?_, ?_, ?_, ?_, ?_, ?_, ?_, ?_, ?_, ?_⟩
  · rw [hdue, hversions]
    exact h.below
  · rw [hdue, hversions]
    exact h.spent
  · rw [hdue, hversions]
    exact h.done
  · rw [hdue]
    exact h.closed
  · rw [hdue, hversions]
    exact h.waiting
  · simp only [hopen, hversions]
    exact h.ended
  · rw [hversions]
    exact h.known
  · simp only [hworked, hversions, hcycles]
    exact h.idle
  · rw [hdue, hversions]
    exact h.untouched
  · simp only [hworked, hversions]
    exact h.begun

/-! ## Writes of one row -/

section

variable (h : s.Sequenced)
include h

/-- One due work is rewritten; it does not start again. -/
theorem Sequenced.setWork (hget : s.due.get? key = some work)
    (hopen : work'.state ≠ .completed → work.state ≠ .completed)
    (hstart : work.startedAt ≠ none → work'.startedAt ≠ none)
    (hspent : work'.startedAt ≠ none → ∀ v, s.versions.get? key.versionId = some v →
      v.status ≠ .planned ∧
      (key.operation.numbered = true → key.sequence < v.counter key.operation))
    (hdone : work'.state = .completed → work'.completedAt ≠ none ∧
      ∀ v, s.versions.get? key.versionId = some v → v.status.terminal = false →
        work'.startedAt ≠ none) : { s with due := s.due.set key work' }.Sequenced := by
  have hcases : ∀ k w, (s.due.set key work').get? k = some w →
      k = key ∧ w = work' ∨ s.due.get? k = some w :=
    fun _ _ hw => (Dict.get?_set_cases hw).imp_right And.right
  have hwas : ∀ k, { s with due := s.due.set key work' }.Open k → s.Open k := by
    rintro k ⟨w, hw, hne⟩
    rcases hcases k w hw with ⟨rfl, rfl⟩ | hw
    · exact ⟨work, hget, hopen hne⟩
    · exact ⟨w, hw, hne⟩
  have hworked : ∀ id, s.Worked id → { s with due := s.due.set key work' }.Worked id :=
    fun id hid => worked_set key work' hid
  refine ⟨?_, ?_, ?_, ?_, ?_, ?_, h.known, ?_, ?_, ?_⟩
  · intro k w v hw hv
    rcases hcases k w hw with ⟨rfl, rfl⟩ | hw
    · exact h.below _ work v hget hv
    · exact h.below k w v hw hv
  · intro k w v hw hv hstarted hop
    rcases hcases k w hw with ⟨rfl, rfl⟩ | hw
    · exact (hspent hstarted v hv).2 hop
    · exact h.spent k w v hw hv hstarted hop
  · intro k w v hw hv halive hcompleted
    rcases hcases k w hw with ⟨rfl, rfl⟩ | hw
    · exact (hdone hcompleted).2 v hv halive
    · exact h.done k w v hw hv halive hcompleted
  · intro k w hw hcompleted
    rcases hcases k w hw with ⟨rfl, rfl⟩ | hw
    · exact (hdone hcompleted).1
    · exact h.closed k w hw hcompleted
  · intro k w v hw hv hne hop hnone
    rcases hcases k w hw with ⟨rfl, rfl⟩ | hw
    · exact h.waiting _ work v hget hv (hopen hne) hop
        (not_not.mp fun hsome => hstart hsome hnone)
    · exact h.waiting k w v hw hv hne hop hnone
  · exact fun k v hk hv => h.ended k v (hwas k hk) hv
  · exact fun id v hv hnot => h.idle id v hv fun hid => hnot (hworked id hid)
  · intro k w v hw hv hplanned
    rcases hcases k w hw with ⟨rfl, rfl⟩ | hw
    · refine ⟨(h.untouched _ work v hget hv hplanned).1, not_not.mp fun hsome => ?_⟩
      exact (hspent hsome v hv).1 hplanned
    · exact h.untouched k w v hw hv hplanned
  · exact fun id v hv hplanned hskipped => hworked id (h.begun id v hv hplanned hskipped)

/-- A version is rewritten; its counters do not fall. -/
theorem Sequenced.setVersion (hget : s.versions.get? v.versionExecutionId = some v₀)
    (hworked : s.Worked v.versionExecutionId)
    (hcounter : ∀ operation, v₀.counter operation ≤ v.counter operation)
    (halive : v.status.terminal = false → v₀.status.terminal = false)
    (hplanned : v.status = .planned → v₀.status = .planned)
    (hwaiting : ∀ key work, s.due.get? key = some work →
      key.versionId = v.versionExecutionId → work.state ≠ .completed →
      key.operation = .dispatchVersion → work.startedAt = none → v.known = true)
    (hended : v.terminalKnown = true → ∀ key, s.Open key →
      key.versionId = v.versionExecutionId → key.operation = .fetchTerminalResult)
    (hknown : v.status.terminal = false → v.terminalKnown = true → v.known = true) :
    (s.setVersion v).Sequenced := by
  have hcases : ∀ id w, (s.setVersion v).versions.get? id = some w →
      id = v.versionExecutionId ∧ w = v ∨ s.versions.get? id = some w :=
    fun _ _ hw => (Dict.get?_set_cases hw).imp_right And.right
  refine ⟨?_, ?_, ?_, h.closed, ?_, ?_, ?_, ?_, ?_, ?_⟩
  · intro k w x hw hx
    rcases hcases _ x hx with ⟨hid, rfl⟩ | hx
    · exact (h.below k w v₀ hw (hid ▸ hget)).trans (hcounter _)
    · exact h.below k w x hw hx
  · intro k w x hw hx hstarted hop
    rcases hcases _ x hx with ⟨hid, rfl⟩ | hx
    · exact (h.spent k w v₀ hw (hid ▸ hget) hstarted hop).trans_le (hcounter _)
    · exact h.spent k w x hw hx hstarted hop
  · intro k w x hw hx hgoing hcompleted
    rcases hcases _ x hx with ⟨hid, rfl⟩ | hx
    · exact h.done k w v₀ hw (hid ▸ hget) (halive hgoing) hcompleted
    · exact h.done k w x hw hx hgoing hcompleted
  · intro k w x hw hx hne hop hnone
    rcases hcases _ x hx with ⟨hid, rfl⟩ | hx
    · exact hwaiting k w hw hid hne hop hnone
    · exact h.waiting k w x hw hx hne hop hnone
  · intro k x hk hx ht
    rcases hcases _ x hx with ⟨hid, rfl⟩ | hx
    · exact hended ht k hk hid
    · exact h.ended k x hk hx ht
  · intro id x hx hgoing ht
    rcases hcases id x hx with ⟨-, rfl⟩ | hx
    · exact hknown hgoing ht
    · exact h.known id x hx hgoing ht
  · intro id x hx hnot
    rcases hcases id x hx with ⟨rfl, rfl⟩ | hx
    · exact absurd hworked hnot
    · exact h.idle id x hx hnot
  · intro k w x hw hx hp
    rcases hcases _ x hx with ⟨hid, rfl⟩ | hx
    · exact h.untouched k w v₀ hw (hid ▸ hget) (hplanned hp)
    · exact h.untouched k w x hw hx hp
  · intro id x hx hp hs
    rcases hcases id x hx with ⟨rfl, rfl⟩ | hx
    · exact hworked
    · exact h.begun id x hx hp hs

/-- Work with the next number of its operation. -/
theorem Sequenced.dueWork {due : ℤ} (hget : s.versions.get? v.versionExecutionId = some v)
    (hsequence : sequence ≤ v.counter operation)
    (hknown : operation = .dispatchVersion → v.known = true)
    (hended : v.terminalKnown = true → operation = .fetchTerminalResult)
    (hplanned : v.status = .planned → operation = .dispatchVersion) :
    (s.dueWork cycle v operation sequence due).Sequenced := by
  have hkept : ∀ id, s.Worked id → (s.dueWork cycle v operation sequence due).Worked id :=
    fun id hid => dueWork_worked hid
  revert hkept
  unfold Guardian.dueWork
  simp only
  split_ifs with hmem
  · exact fun _ => h
  intro hkept
  have hcases : ∀ k w, (s.due.set ⟨v.versionExecutionId, operation, sequence⟩
      (DueWork.new cycle.eligibleAt due)).get? k = some w →
      k = ⟨v.versionExecutionId, operation, sequence⟩ ∧ w = DueWork.new cycle.eligibleAt due ∨
        s.due.get? k = some w :=
    fun _ _ hw => (Dict.get?_set_cases hw).imp_right And.right
  refine ⟨?_, ?_, ?_, ?_, ?_, ?_, h.known, ?_, ?_, ?_⟩
  · intro k w x hw hx
    rcases hcases k w hw with ⟨rfl, rfl⟩ | hw
    · cases hget.symm.trans hx
      exact hsequence
    · exact h.below k w x hw hx
  · intro k w x hw hx hstarted hop
    rcases hcases k w hw with ⟨rfl, rfl⟩ | hw
    · exact absurd rfl hstarted
    · exact h.spent k w x hw hx hstarted hop
  · intro k w x hw hx hgoing hcompleted
    rcases hcases k w hw with ⟨rfl, rfl⟩ | hw
    · cases hcompleted
    · exact h.done k w x hw hx hgoing hcompleted
  · intro k w hw hcompleted
    rcases hcases k w hw with ⟨rfl, rfl⟩ | hw
    · cases hcompleted
    · exact h.closed k w hw hcompleted
  · intro k w x hw hx hne hop hnone
    rcases hcases k w hw with ⟨rfl, rfl⟩ | hw
    · cases hget.symm.trans hx
      exact hknown hop
    · exact h.waiting k w x hw hx hne hop hnone
  · rintro k x ⟨w, hw, hne⟩ hx ht
    rcases hcases k w hw with ⟨rfl, rfl⟩ | hw
    · cases hget.symm.trans hx
      exact hended ht
    · exact h.ended k x ⟨w, hw, hne⟩ hx ht
  · exact fun id x hx hnot => h.idle id x hx fun hid => hnot (hkept id hid)
  · intro k w x hw hx hp
    rcases hcases k w hw with ⟨rfl, rfl⟩ | hw
    · cases hget.symm.trans hx
      exact ⟨hplanned hp, rfl⟩
    · exact h.untouched k w x hw hx hp
  · exact fun id x hx hp hs => hkept id (h.begun id x hx hp hs)

theorem Sequenced.setCycle
    (hidle : c.status.terminal = false → ∀ id v, s.versions.get? id = some v →
      v.cycleId = c.cycleId → ¬s.Worked id → v.status = .planned) : (s.setCycle c).Sequenced := by
  refine ⟨h.below, h.spent, h.done, h.closed, h.waiting, h.ended, h.known, ?_, h.untouched, h.begun⟩
  intro id v hv hnot
  refine ⟨(h.idle id v hv hnot).1, fun x hx hgoing => ?_⟩
  simp only [Guardian.setCycle, Dict.get?_set] at hx
  split_ifs at hx with hid
  · cases hx
    exact hidle hgoing id v hv hid hnot
  · exact (h.idle id v hv hnot).2 x hx hgoing

/-- Skipped versions have no work. -/
theorem Sequenced.skip (cycle : Cycle) (reason : String) (now : ℤ)
    (hcycle : ∀ c, s.cycles.get? cycle.cycleId = some c → c.status.terminal = true) :
    { s with versions := s.versions.mapValues (skipPlanned cycle reason now) }.Sequenced := by
  have hback : ∀ id w, (s.versions.mapValues (skipPlanned cycle reason now)).get? id = some w →
      s.versions.get? id = some w ∨ ∃ v, s.versions.get? id = some v ∧ v.status = .planned ∧
        v.cycleId = cycle.cycleId ∧
        w = { v with status := .skipped, reason := some reason, completedAt := some now } := by
    intro id w hw
    rw [Dict.get?_mapValues] at hw
    obtain ⟨v, hv, rfl⟩ := Option.map_eq_some_iff.mp hw
    unfold skipPlanned
    split_ifs with hp
    · exact .inr ⟨v, hv, hp.2, hp.1, rfl⟩
    · exact .inl hv
  refine ⟨?_, ?_, ?_, h.closed, ?_, ?_, ?_, ?_, ?_, ?_⟩
  · intro k w x hw hx
    rcases hback _ x hx with hx | ⟨v, hv, -, -, rfl⟩
    · exact h.below k w x hw hx
    · exact h.below k w v hw hv
  · intro k w x hw hx
    rcases hback _ x hx with hx | ⟨v, hv, -, -, rfl⟩
    · exact h.spent k w x hw hx
    · exact h.spent k w v hw hv
  · intro k w x hw hx hgoing
    rcases hback _ x hx with hx | ⟨v, hv, -, -, rfl⟩
    · exact h.done k w x hw hx hgoing
    · cases hgoing
  · intro k w x hw hx
    rcases hback _ x hx with hx | ⟨v, hv, -, -, rfl⟩
    · exact h.waiting k w x hw hx
    · exact h.waiting k w v hw hv
  · intro k x hk hx
    rcases hback _ x hx with hx | ⟨v, hv, -, -, rfl⟩
    · exact h.ended k x hk hx
    · exact h.ended k v hk hv
  · intro id x hx hgoing
    rcases hback id x hx with hx | ⟨v, hv, -, -, rfl⟩
    · exact h.known id x hx hgoing
    · cases hgoing
  · intro id x hx hnot
    rcases hback id x hx with hx | ⟨v, hv, -, hin, rfl⟩
    · exact h.idle id x hx hnot
    · refine ⟨(h.idle id v hv hnot).1, fun c hc hgoing => ?_⟩
      rw [hcycle c (hin ▸ hc)] at hgoing
      cases hgoing
  · intro k w x hw hx hp
    rcases hback _ x hx with hx | ⟨v, hv, -, -, rfl⟩
    · exact h.untouched k w x hw hx hp
    · cases hp
  · intro id x hx hp hs
    rcases hback id x hx with hx | ⟨v, -, -, -, rfl⟩
    · exact h.begun id x hx hp hs
    · exact absurd rfl hs

end

end Guardian

namespace Guardian

variable {s s' : Guardian} {cycle c : Cycle} {version v v₀ : Version} {now : ℤ} {key : WorkKey}
  {work next : DueWork}

/-! ## The end of a work -/

/-- A version is stopped, and its cycle with it. -/
theorem Sequenced.stop (h : s.Sequenced) (hget : s.versions.get? v.versionExecutionId = some v₀)
    (hworked : s.Worked v.versionExecutionId)
    (hcounter : ∀ operation, v₀.counter operation ≤ v.counter operation)
    (hwaiting : ∀ key work, s.due.get? key = some work →
      key.versionId = v.versionExecutionId → work.state ≠ .completed →
      key.operation = .dispatchVersion → work.startedAt = none → v.known = true)
    (hended : v.terminalKnown = true → ∀ key, s.Open key →
      key.versionId = v.versionExecutionId → key.operation = .fetchTerminalResult)
    {status : VersionStatus} (hterminal : status.terminal = true) (reason : String) (hold : Bool) :
    (s.stop cycle v status reason now hold).Sequenced := by
  have hset := h.setVersion (v := { v with
      status := status, reason := some reason, completedAt := some now }) hget hworked hcounter
    (fun halive => by rw [hterminal] at halive; cases halive)
    (fun hplanned => by
      change status = .planned at hplanned
      rw [hplanned] at hterminal
      cases hterminal) hwaiting hended
    (fun halive => by rw [hterminal] at halive; cases halive)
  have hcycle := hset.setCycle (c := { cycle with
      status := status.stopped, reason := some reason, completedAt := some now })
    (fun halive => by rw [stopped_terminal] at halive; cases halive)
  have hskip : (s.stopRows cycle v status reason now).Sequenced := by
    refine hcycle.skip cycle reason now fun c hc => ?_
    simp only [Guardian.setCycle, Dict.get?_set, if_true] at hc
    cases hc
    exact stopped_terminal status
  obtain ⟨hversions, hdue, hcycles⟩ := stop_rows s cycle v status reason now hold
  exact hskip.congr hversions hdue hcycles

theorem counter_numbered {next : GuardianOperation} (hv : version.Evolves v)
    (h : version.Numbered v next sequence) :
    (∀ operation, version.counter operation ≤ v.counter operation) ∧
      sequence ≤ v.counter next := by
  constructor
  · intro operation
    cases operation with
    | dispatchVersion => exact hv.attempts.ge
    | pollRemote => exact h.counted.polls
    | reconcileRemote => exact h.counted.requests.ge
    | fetchTerminalResult => exact h.counted.retries
  · have hfresh := h.fresh
    cases next with
    | dispatchVersion => exact hfresh.1.le
    | pollRemote | fetchTerminalResult => exact hfresh.2
    | reconcileRemote => exact hfresh.le

theorem counter_counted (hv : version.Evolves v) (h : version.Counted v)
    (operation : GuardianOperation) : version.counter operation ≤ v.counter operation := by
  cases operation with
  | dispatchVersion => exact hv.attempts.ge
  | pollRemote => exact h.polls
  | reconcileRemote => exact h.requests.ge
  | fetchTerminalResult => exact h.retries

theorem Rows.not_worked (hrows : s.Rows) {i j : String} {w : Version}
    (hv : s.versions.get? i = some version) (hnot : version.status ≠ .completed)
    (hw : s.versions.get? j = some w) (hin : w.cycleId = version.cycleId)
    (hordinal : version.ordinal < w.ordinal) : ¬s.Worked j := by
  rintro ⟨key, work, hwork, rfl⟩
  obtain ⟨_, hw₁, hlower⟩ := hrows.placed key work hwork
  cases hw.symm.trans hw₁
  exact hnot (hlower i version hv hin.symm hordinal)

/-- The next version of a cycle is planned and has no work yet. -/
theorem Ending.successor (h : s.Ending cycle version) (hrows : s.Rows)
    (hset : (s.setVersion v).Rows) {successor : Version}
    (hmem : successor ∈ (s.setVersion v).versionsOf cycle)
    (hordinal : successor.ordinal = version.ordinal + 1) (hv : v.ordinal = version.ordinal) :
    (s.setVersion v).versions.get? successor.versionExecutionId = some successor ∧
      s.versions.get? successor.versionExecutionId = some successor ∧
      successor.cycleId = cycle.cycleId ∧ ¬s.Worked successor.versionExecutionId := by
  obtain ⟨hrow, hcycle⟩ := mem_versionsOf hset hmem
  have hold : s.versions.get? successor.versionExecutionId = some successor := by
    have hrow' := hrow
    simp only [Guardian.setVersion, Dict.get?_set] at hrow'
    split_ifs at hrow' with hsame
    · cases hrow'
      omega
    · exact hrow'
  exact ⟨hrow, hold, hcycle, hrows.not_worked h.row h.not_completed hold
    (hcycle.trans h.cycleId.symm) (by omega)⟩

/-- The work that follows an outcome is numbered after it. -/
theorem Sequenced.sequel (h : s.Sequenced) (hrows : s.Rows) (hend : s.Ending cycle version)
    (hplanned : version.status ≠ .planned) {outcome : ProviderOutcome}
    (hodd : version.terminalKnown = true → operation = .fetchTerminalResult)
    (hs : Sequel s cycle version operation outcome now s') : s'.Sequenced := by
  -- the version has no open work
  have hfree : ∀ v : Version, v.versionExecutionId = version.versionExecutionId →
      ∀ key work, s.due.get? key = some work → key.versionId = v.versionExecutionId →
        work.state ≠ .completed → key.operation = .dispatchVersion → work.startedAt = none →
        v.known = true := fun v hid key work hwork hkey hne =>
    absurd (hkey.trans hid) (hend.free key ⟨work, hwork, hne⟩)
  have hnone : ∀ v : Version, v.versionExecutionId = version.versionExecutionId →
      v.terminalKnown = true → ∀ key, s.Open key → key.versionId = v.versionExecutionId →
        key.operation = .fetchTerminalResult := fun v hid _ key hk hkey =>
    absurd (hkey.trans hid) (hend.free key hk)
  cases hs with
  | stopped v _ reason hold hv hcounted hterminal =>
    exact h.stop (hv.id ▸ hend.row) (hv.id ▸ hend.worked) (counter_counted hv hcounted)
      (hfree v hv.id) (hnone v hv.id) hterminal reason hold
  | goesOn v _ _ _ hv _ _ hnumbered =>
    have hn := hnumbered hodd
    obtain ⟨hcounter, hsequence⟩ := counter_numbered hv hn
    have hset : (s.setVersion v).Sequenced := by
      refine h.setVersion (hv.id ▸ hend.row) (hv.id ▸ hend.worked) hcounter
        (fun _ => hend.alive) (fun hp => ?_) (hfree v hv.id) (hnone v hv.id) fun _ ht => ?_
      · rcases hv.status with hs | hs
        · exact absurd (hs.symm.trans hp) hplanned
        · rw [hs] at hp
          cases hp
      · rcases (hn.ended ht).2 with hk | ⟨ht', hk⟩
        · exact hk
        · exact hk.trans (h.known _ version hend.row hend.alive ht')
    refine hset.dueWork ((Dict.get?_set _ _ _ _).trans (if_pos rfl)) hsequence (fun hop => ?_)
      (fun ht => (hn.ended ht).1) fun hp => ?_
    · have hfresh := hn.fresh
      rw [hop] at hfresh
      exact hfresh.2
    · rcases hv.status with hs | hs
      · exact absurd (hs.symm.trans hp) hplanned
      · rw [hs] at hp
        cases hp
  | completed v counts summary _ hv hcounted hseen hnext =>
    have hset : (s.setVersion (v.completedWith counts summary now)).Sequenced := by
      refine h.setVersion (v := v.completedWith counts summary now) (hv.id ▸ hend.row)
        (hv.id ▸ hend.worked)
        (fun operation => (counter_counted hv hcounted operation).trans_eq (by
          cases operation <;> rfl))
        (fun halive => nomatch halive) (fun hp => nomatch hp)
        (hfree _ hv.id) (hnone _ hv.id) (fun halive => nomatch halive)
    have hsetRows := hend.rows hrows (v := v.completedWith counts summary now) hv.id hv.cycleId
      hv.ordinal (fun _ => hseen) (fun _ => hseen)
    rcases progress_cases hnext with ⟨successor, _, hmem, hordinal, -, rfl⟩ | rfl |
        ⟨-, status, hterminal, rfl⟩
    · obtain ⟨hrow, hold, -, hidle⟩ := hend.successor hrows (v := v.completedWith counts summary now)
        hsetRows hmem
        (hordinal.trans (congrArg (· + 1) hv.ordinal)) hv.ordinal
      obtain ⟨⟨hk, ht⟩, -⟩ := h.idle _ successor hold hidle
      exact hset.dueWork hrow (Nat.zero_le _) (fun _ => hk)
        (fun hte => by rw [ht] at hte; cases hte) fun _ => rfl
    · exact hset
    · have hc := hset.setCycle (c := { cycle with status := status, completedAt := some now })
        (fun halive => by rw [hterminal] at halive; cases halive)
      obtain ⟨hversions, hdue, hcycles⟩ := release_rows
        ((s.setVersion (v.completedWith counts summary now)).setCycle { cycle with
          status := status, completedAt := some now })
        { cycle with status := status, completedAt := some now }
      exact hc.congr hversions hdue hcycles

end Guardian

end LocalAgent.Runtime
