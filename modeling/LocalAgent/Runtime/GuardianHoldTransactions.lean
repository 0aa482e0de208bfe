import LocalAgent.Runtime.GuardianHoldSteps

/-!
# LocalAgent.Runtime.GuardianHoldTransactions — the transactions keep the holds in order

* `Held.claimDue`, `Held.prepareLocked`, `Held.finish`: a work from its claim to its end.
* `Held.free`, `Held.resolve`: the operator's resolution.
* `Held.discover`: the cycle of a day.
-/

namespace LocalAgent.Runtime

variable {uncertain' : List String}

namespace Guardian

variable {s s' : Guardian} {cycle c x : Cycle} {version v w : Version} {now dbNow : ℤ}
  {key : WorkKey} {work : DueWork} {uncertain proven : List String} {claim : WorkClaim}

/-! ## Steps of the works alone -/

theorem Held.works_only (h : s.Held uncertain proven) (hrows : s'.Rows)
    (hversions : s'.versions = s.versions) (hcycles : s'.cycles = s.cycles)
    (hoccupancies : s'.occupancies = s.occupancies) (hopen : ∀ key, s'.Open key → s.Open key)
    (hworked : ∀ id, s.Worked id → s'.Worked id) : s'.Held uncertain proven := by
  refine ⟨hrows, ?_, ?_, ?_, ?_, ?_, ?_, ?_⟩
  · rw [hcycles]
    exact h.keyed
  · rw [hversions, hcycles]
    exact h.homed
  · rw [hcycles]
    exact fun id c hc halive => (h.live id c hc halive).congr hoccupancies
  · rw [hversions, hcycles]
    exact fun key v hk hv => h.works key v (hopen key hk) hv
  · rw [hversions]
    exact h.unknown
  · rw [hversions]
    exact fun id v hv hu => hworked id (h.unresolved id v hv hu)
  · rw [hversions, hcycles]
    exact fun id v c hv hc => (h.released id v c hv hc).imp_left fun ho => ho.congr hoccupancies

theorem worked_set (key : WorkKey) (w : DueWork) {id : String}
    (h : s.Worked id) : { s with due := s.due.set key w }.Worked id := by
  obtain ⟨k, x, hx, hid⟩ := h
  by_cases hk : k = key
  · exact ⟨k, w, by rw [Dict.get?_set, if_pos hk], hid⟩
  · exact ⟨k, x, by rw [Dict.get?_set, if_neg hk]; exact hx, hid⟩

theorem open_set {w : DueWork} {k : WorkKey}
    (h : { s with due := s.due.set key w }.Open k) : k = key ∨ s.Open k := by
  obtain ⟨x, hx, hne⟩ := h
  simp only [Dict.get?_set] at hx
  split_ifs at hx with hk
  · exact .inl hk
  · exact .inr ⟨x, hx, hne⟩

theorem Held.complete (h : s.Held uncertain proven) (hget : s.due.get? key = some work)
    {work' : DueWork} (hsame : work'.startedAt = work.startedAt) (dbNow : ℤ) :
    (s.complete key work' dbNow).Held uncertain proven := by
  refine h.works_only (h.rows.complete hget hsame dbNow) rfl rfl rfl (fun k hk => ?_)
    fun id hid => worked_set _ _ hid
  rcases open_set hk with rfl | hk
  · obtain ⟨x, hx, hne⟩ := hk
    rw [complete, Dict.get?_set, if_pos rfl] at hx
    cases hx
    exact absurd rfl hne
  · exact hk

theorem claimable_open (hclaim : claimable work dbNow now = true) : work.state ≠ .completed := by
  simp only [claimable, Bool.and_eq_true, Bool.or_eq_true, decide_eq_true_eq] at hclaim
  rcases hclaim.2 with hs | ⟨hs, -⟩ <;> rw [hs] <;> decide

theorem Held.claimDue {rows : List (WorkKey × String)} : ∀ {s : Guardian}, s.Held uncertain proven →
      (s.claimDue dbNow now rows).1.Held uncertain proven := by
  induction rows with
  | nil => exact fun h => h
  | cons row _ ih =>
    intro s h
    obtain ⟨key, token⟩ := row
    have hone : (s.claimDue dbNow now [(key, token)]).1.Rows := h.rows.claimDue
    rw [Guardian.claimDue] at hone ⊢
    split
    · exact ih h
    · rename_i work hwork
      simp only [hwork] at hone
      split_ifs with hclaim
      · rw [if_pos hclaim] at hone
        refine ih (h.works_only hone rfl rfl rfl (fun k hk => ?_) fun id hid => worked_set _ _ hid)
        rcases open_set hk with rfl | hk
        · exact ⟨work, hwork, claimable_open hclaim⟩
        · exact hk
      · exact ih h

/-! ## Locked works -/

theorem Held.locked (h : s.Held uncertain proven) (hl : s.Locked dbNow claim work cycle version) :
    s.versions.get? version.versionExecutionId = some version ∧
      s.cycles.get? cycle.cycleId = some cycle ∧ version.cycleId = cycle.cycleId ∧
      s.Worked version.versionExecutionId ∧ version.status.terminal = false ∧
      cycle.status.terminal = false ∧ s.Occupied cycle := by
  have hid := h.rows.ids _ _ hl.ofVersion
  have hhome := h.keyed _ _ hl.ofCycle
  obtain ⟨halive, hcycles⟩ := h.works _ version
    ⟨work, hl.row, hl.not_completed⟩ hl.ofVersion
  have hcycle := hcycles cycle hl.ofCycle
  exact ⟨hid ▸ hl.ofVersion, hhome ▸ hl.ofCycle, hhome.symm, ⟨_, work, hl.row, hid.symm⟩, halive,
    hcycle, h.live _ cycle hl.ofCycle hcycle⟩

theorem Held.first_unknown (h : s.Held uncertain proven) {id : String}
    (hv : s.versions.get? id = some version) (halive : version.status.terminal = false)
    (hid : id ∈ uncertain) : version.firstUnknownAt ≠ none := by
  obtain ⟨v, hv', hunknown⟩ := h.unknown id hid
  cases hv.symm.trans hv'
  refine hunknown.resolve_right fun hstatus => ?_
  rw [hstatus] at halive
  cases halive

/-! ## The end of a work -/

variable {outcome : ProviderOutcome} {status : VersionStatus} {hold : Bool}

/-- An uncertain outcome is written to the version. -/
theorem settle_uncertain (huncertain : HeldScope.uncertainOutcome version outcome = true)
    (h : s.settle cycle version key .dispatchVersion now outcome = .ok s') :
    ∃ w, s'.versions.get? version.versionExecutionId = some w ∧
      (w.firstUnknownAt ≠ none ∨ w.status = .unresolved) := by
  have hstop : ∀ (v : Version) (reason : String), v.versionExecutionId =
      version.versionExecutionId → ∃ w, (s.stop cycle v .unresolved reason now true).versions.get?
        version.versionExecutionId = some w ∧ (w.firstUnknownAt ≠ none ∨ w.status = .unresolved) := by
    intro v _ hid
    rw [Guardian.stop, (mapOccupancy_versions _).1]
    simp only [stopRows, Guardian.setVersion, Guardian.setCycle, Dict.get?_mapValues, hid,
      Dict.get?_set, if_true, Option.map_some]
    refine ⟨_, rfl, .inr ?_⟩
    unfold skipPlanned
    rw [if_neg (fun hp => by cases hp.2)]
  have hrefused : s.finishSubmit cycle version now none = .ok s' → ∃ w, s'.versions.get?
      version.versionExecutionId = some w ∧ (w.firstUnknownAt ≠ none ∨ w.status = .unresolved) := by
    intro hsubmit
    cases hsubmit
    exact hstop version _ rfl
  cases outcome with
  | error _ uncertain =>
    obtain rfl : uncertain = true := huncertain
    change s.reconcileDue cycle (version.markUnknown (version.intentAt.getD now)) now = .ok s' at h
    unfold reconcileDue at h
    split_ifs at h with hexpired
    · cases h
      exact hstop (version.markUnknown (version.intentAt.getD now)) _ rfl
    · split at h
      · cases h
      · cases h
        refine ⟨version.markUnknown (version.intentAt.getD now), ?_, .inl (Option.some_ne_none _)⟩
        rw [dueWork_rows.1]
        exact (Dict.get?_set _ _ _ _).trans (if_pos rfl)
  | submitted receipt =>
    change s.finishSubmit cycle version now receipt = .ok s' at h
    refine hrefused ?_
    unfold finishSubmit at h ⊢
    rwa [Option.isNone_iff_eq_none.mp huncertain] at h
  | looked lookup => exact hrefused (by cases lookup <;> exact h)
  | read => exact hrefused h

/-- The ids that a finished work adds to those of an uncertain outcome. -/
def uncertainAfter (version : Version) (operation : GuardianOperation) (outcome : ProviderOutcome)
    (uncertain : List String) : List String :=
  if operation = .dispatchVersion ∧ HeldScope.uncertainOutcome version outcome = true then
    version.versionExecutionId :: uncertain
  else uncertain

theorem Held.finish (h : s.Held uncertain proven) {prepared : PreparedWork}
(hfetch : prepared.operation = .fetchTerminalResult →
      prepared.claim.workKey.operation = .fetchTerminalResult)
    (hl : s.Locked dbNow prepared.claim work cycle version)
    (hsafe : prepared.operation = .dispatchVersion → ∀ code, outcome = .error code false →
      version.versionExecutionId ∈ uncertain → version.firstUnknownAt = none) {t : Guardian}
    (hsettle : s.settle cycle version prepared.claim.workKey prepared.operation now outcome =
      .ok t) : (t.complete prepared.claim.workKey (outcomeError work outcome) dbNow).Held
      (uncertainAfter version prepared.operation outcome uncertain)
      (HeldScope.sealing version prepared.operation outcome ++ proven) := by
  obtain ⟨hrow, hcycle, hhome, hworked, halive, hgoing, hoccupied⟩ := h.locked hl
  have hkey : prepared.claim.workKey ∈ s.due.keys := Dict.mem_keys_iff.mpr ⟨work, hl.row⟩
  have hstarted : (outcomeError work outcome).startedAt = work.startedAt := by
    cases outcome <;> rfl
  have hdone := h.complete hl.row hstarted dbNow
  have hend := hl.ending h.rows h.keyed halive (outcomeError work outcome)
  have ho : Outcome (s.complete prepared.claim.workKey (outcomeError work outcome) dbNow) cycle
      version prepared.operation outcome now
      (t.complete prepared.claim.workKey (outcomeError work outcome) dbNow) :=
    (settle_outcome hsettle).complete hkey
  have hfetched : prepared.operation = .fetchTerminalResult → version.terminalKnown = true :=
    fun hop => h.rows.fetched _ work version hl.row (hfetch hop) hl.ofVersion
  obtain ⟨v, c, f, hstep, hknown, hcase⟩ := ho.cycleStep hend hdone.rows hcycle hgoing
    (hoccupied.congr rfl)
  have hskip := skips_spec hstep.skips
  refine hdone.step (hend.outcome hdone.rows hfetched ho) hstep hrow hcycle hhome
    (worked_set _ _ hworked) halive ?_ ?_ (fun id hid => List.mem_append_right _ hid) ?_
  · intro _ hid
    unfold uncertainAfter at hid
    split_ifs at hid
    · exact (List.mem_cons.mp hid).symm
    · exact .inl hid
  · intro hid
    unfold uncertainAfter at hid
    split_ifs at hid with huncertain
    · rw [huncertain.1] at hsettle
      obtain ⟨w, hw, hunknown⟩ := settle_uncertain huncertain.2 hsettle
      have hrow' := hstep.versions version.versionExecutionId
      rw [Dict.get?_set, if_pos rfl] at hrow'
      cases hw.symm.trans hrow'
      rwa [← (hskip v).2.2.2.1, ← (hskip v).2.2.2.2.1]
    · exact .inl (hstep.unknown (h.first_unknown hrow halive hid))
  · refine hcase.imp_right fun ⟨hresolved, hstops⟩ =>
      ⟨fun _ => ?_, fun hu => absurd hu hresolved⟩
    rcases hstops with hended | hop | ⟨hop, code, rfl⟩ | ⟨hop, _, rfl, hcheck⟩
    · exact .inl hended
    · exact .inl (hknown (hfetched hop))
    · refine .inr (.inr fun hid => ?_)
      rw [uncertainAfter, if_neg (fun hu => nomatch hu.2)] at hid
      exact h.first_unknown hrow halive hid (hsafe hop code rfl hid)
    · refine .inr (.inl (List.mem_append_left _ ?_))
      rw [HeldScope.sealing, if_pos ⟨hop, Version.checkSeal_iff.mp hcheck⟩]
      exact List.mem_singleton.mpr rfl

/-! ## Preparation -/

theorem setVersion_stop {reason : String} :
    (s.setVersion v).stop cycle v status reason now hold =
      s.stop cycle v status reason now hold := by
  have hrows : (s.setVersion v).stopRows cycle v status reason now =
      s.stopRows cycle v status reason now := by
    simp only [stopRows, Guardian.setVersion, Guardian.setCycle, Dict.set_set]
  rw [Guardian.stop, Guardian.stop, hrows]

theorem Held.stopped (h : s.Held uncertain proven)
    (hl : s.Locked dbNow claim work cycle version) (hv : version.Evolves v)
    (huncertain : ∀ id ∈ uncertain', id ∈ uncertain ∨ id = version.versionExecutionId)
    (hfirst : version.versionExecutionId ∈ uncertain' → v.firstUnknownAt ≠ none)
(hstatus : status ≠ .completed) (reason : String)
    (hend : hold = true ∨ status ≠ .unresolved ∧ v.terminalKnown = true) :
    (((s.setVersion v).stop cycle v status reason now hold).complete claim.workKey work dbNow).Held
      uncertain' proven := by
  obtain ⟨hrow, hcycle, hhome, hworked, halive, -, hoccupied⟩ := h.locked hl
  rw [setVersion_stop, ← complete_stop]
  have hdone : (s.complete claim.workKey work dbNow).Held uncertain proven :=
    h.complete hl.row rfl dbNow
  have hending := hl.ending h.rows h.keyed halive work
  refine hdone.step (hending.stop hdone.rows hv hstatus reason now hold)
    (hending.stop_step hv status reason now hold) hrow hcycle hhome (worked_set _ _ hworked) halive
    huncertain (fun hid => .inl (hfirst hid)) (fun _ hid => hid) ?_
  rcases hend with hheld | ⟨hresolved, hended⟩
  · exact .inl (stop_occupied (hoccupied.congr rfl) (.inl hheld))
  · exact .inr ⟨fun _ => .inl hended, fun hu => absurd hu hresolved⟩

/-- A preparation that goes on keeps what was submitted before. -/
theorem Held.goes_on (h : s.Held uncertain proven)
    (hl : s.Locked dbNow claim work cycle version) (hrows : s'.Rows) {next : DueWork}
    (hversions : ∀ id, s'.versions.get? id = (s.versions.set version.versionExecutionId v).get? id)
    (hcycles : s'.cycles = s.cycles.set cycle.cycleId c) (hid : c.cycleId = cycle.cycleId)
    (henvironment : c.environment = cycle.environment) (hgoing : c.status.terminal = false)
    (hoccupancies : s'.occupancies = s.occupancies)
    (hdue : s'.due = s.due.set claim.workKey next) (hhome : v.cycleId = version.cycleId)
    (halive : v.status.terminal = false)
    (hunknown : version.firstUnknownAt ≠ none → v.firstUnknownAt ≠ none)
    (huncertain : ∀ id ∈ uncertain', id ∈ uncertain ∨ id = version.versionExecutionId)
    (hfirst : version.versionExecutionId ∈ uncertain' → v.firstUnknownAt ≠ none) :
    s'.Held uncertain' proven := by
  obtain ⟨hrow, hcycle, hin, hworked, halive', -, hoccupied⟩ := h.locked hl
  have hversion := h.rows.ids _ _ hl.ofVersion
  have hstep : CycleStep s cycle version s' v c fun x => x := by
    refine ⟨?_, .inl rfl, hcycles, hid, henvironment, hhome, hunknown, ?_, ?_, ?_, ?_⟩
    · intro id
      rw [hversions, Option.map_id']
    · intro _ hw
      exact (worked_congr hdue (s := { s with due := s.due.set claim.workKey next })).mpr
        (worked_set _ _ hw)
    · intro k hk
      rcases open_set ((open_congr hdue
        (s := { s with due := s.due.set claim.workKey next })).mp hk) with rfl | hwas
      · refine .inr ⟨hgoing, v, ?_, hhome.trans hin, halive⟩
        rw [hversions, Dict.get?_set, if_pos hversion.symm]
      · -- the work is the only one of the version that is open
        by_cases hown : k.versionId = version.versionExecutionId
        · obtain ⟨wk, hwk, hne⟩ := hwas
          cases hl.open_iff h.rows k wk hwk hne hown
          refine .inr ⟨hgoing, v, ?_, hhome.trans hin, halive⟩
          rw [hversions, Dict.get?_set, if_pos hversion.symm]
        · exact .inl ⟨hwas, hown⟩
    · exact fun x _ hx => hx.congr hoccupancies
    · exact .inl (hoccupied.congr hoccupancies)
  exact h.step hrows hstep hrow hcycle hin hworked halive' huncertain
    (fun hmem => .inl (hfirst hmem)) (fun _ hp => hp) (.inl (hoccupied.congr hoccupancies))

def uncertainWith (key : WorkKey) (work : DueWork) (uncertain : List String) : List String :=
  if HeldScope.lost key work then key.versionId :: uncertain else uncertain

theorem operationOf_lost (h : HeldScope.lost key work = true) :
    (operationOf key work version now).2.firstUnknownAt ≠ none := by
  simp only [HeldScope.lost, Bool.and_eq_true, decide_eq_true_eq] at h
  unfold operationOf
  simp only [h, if_true, ne_eq, true_and, not_false_eq_true]
  split_ifs <;> exact Option.some_ne_none _

end Guardian

namespace Guardian

variable {s s' : Guardian} {cycle c x : Cycle} {version v w : Version} {now dbNow : ℤ}
  {key : WorkKey} {work : DueWork} {uncertain proven : List String} {claim : WorkClaim}

/-- Whatever the preparation finds, the holds are kept. -/
theorem Held.prepareLocked (h : s.Held uncertain proven)
    (hlocked : s.locked dbNow claim = .ok (work, cycle, version)) (collections : ℕ) :
    (s.prepareLocked dbNow now claim work cycle version collections).1.Held
      (uncertainWith claim.workKey work uncertain) proven := by
  obtain ⟨hwork, hheld, hversion, hcycle⟩ := locked_spec hlocked
  have hl : s.Locked dbNow claim work cycle version := ⟨hwork, hheld, hversion, hcycle⟩
  obtain ⟨hrow, hcycle', -, -, halive, hgoing, -⟩ := h.locked hl
  have hid := h.rows.ids _ _ hl.ofVersion
  have hrows : (s.prepareLocked dbNow now claim work cycle version collections).1.Rows := by
    have hprepare : s.prepare dbNow now claim collections =
        .ok ((s.prepareLocked dbNow now claim work cycle version collections).1,
          (s.prepareLocked dbNow now claim work cycle version collections).2) := by
      rw [Guardian.prepare, hlocked]
    exact h.rows.prepare h.keyed hprepare
  have huncertain : ∀ id ∈ uncertainWith claim.workKey work uncertain,
      id ∈ uncertain ∨ id = version.versionExecutionId := by
    intro id hmem
    unfold uncertainWith at hmem
    split_ifs at hmem
    · exact ((List.mem_cons.mp hmem).imp_left fun he => he.trans hid.symm).symm
    · exact .inl hmem
  have hev := operationOf_evolves claim.workKey work version now
  have hfirst : version.versionExecutionId ∈ uncertainWith claim.workKey work uncertain →
      (operationOf claim.workKey work version now).2.firstUnknownAt ≠ none := by
    intro hmem
    unfold uncertainWith at hmem
    split_ifs at hmem with hlost
    · exact operationOf_lost hlost
    · exact hev.firstUnknownAt (h.first_unknown hrow halive hmem)
  have hspec := operationOf_spec claim.workKey work version now
  revert hrows
  unfold Guardian.prepareLocked
  rw [if_neg (by rw [halive, hgoing]; decide)]
  generalize operationOf claim.workKey work version now = planned at *
  obtain ⟨operation, v⟩ := planned
  simp only at *
  have halive' := hev.not_terminal halive
  split_ifs with hlate hover hsubmit
  · exact fun _ => h.stopped hl hev huncertain hfirst (by decide) _ (.inr ⟨by decide, hlate.1⟩)
  · exact fun _ => h.stopped hl hev huncertain hfirst (by decide) _ (.inl rfl)
  · unfold Guardian.admitSubmit
    simp only
    split_ifs with hfull hattempts
    · intro hrows
      refine h.goes_on hl hrows ?_ (Dict.set_self hcycle').symm rfl rfl hgoing rfl rfl hev.cycleId
        halive' hev.firstUnknownAt huncertain hfirst
      intro id
      simp only [requeue, Guardian.setVersion, hev.id]
    · -- the budget of a dispatch that was not started is not spent
      rcases hspec with ⟨hlookup, -⟩ | ⟨hsame, rfl, -, hfresh⟩
      · rw [hlookup] at hsubmit
        cases hsubmit
      · have hop : claim.workKey.operation = .dispatchVersion := hsame.symm.trans hsubmit
        have := h.rows.dispatchable _ work v hwork (by rw [holds_claimed hheld]; decide) hop
          (hfresh hop) hversion
        exact absurd this (Nat.not_lt.mpr hattempts)
    · intro hrows
      refine h.goes_on (c := { cycle with status := .running }) hl hrows (v := { v with
        submitAttempts := v.submitAttempts + 1
        intentAt := some (v.intentAt.getD now)
        status := .dispatching }) ?_ rfl rfl rfl rfl rfl rfl hev.cycleId rfl hev.firstUnknownAt
        huncertain hfirst
      intro id
      simp only [start, Guardian.setVersion, Guardian.setCycle, hev.id, Dict.set_set]
  · unfold Guardian.admitRead
    simp only
    split_ifs with hfull
    · intro hrows
      refine h.goes_on hl hrows ?_ (Dict.set_self hcycle').symm rfl rfl hgoing rfl rfl hev.cycleId
        halive' hev.firstUnknownAt huncertain hfirst
      intro id
      simp only [requeue, Guardian.setVersion, hev.id]
    · intro hrows
      have hread := (evolves_readVersion operation v now).1
      refine h.goes_on hl hrows ?_ (Dict.set_self hcycle').symm rfl rfl hgoing rfl rfl
        (hread.cycleId.trans hev.cycleId) (hread.not_terminal halive')
        (fun hne => hread.firstUnknownAt (hev.firstUnknownAt hne)) huncertain
        (fun hmem => hread.firstUnknownAt (hfirst hmem))
      intro _
      simp only [start, Guardian.setVersion, hread.id, hev.id, Dict.set_set]

theorem prepareLocked_fetch {collections : ℕ} {p : PreparedWork}
    (h : (s.prepareLocked dbNow now claim work cycle version collections).2 = some p)
    (hop : p.operation = .fetchTerminalResult) :
    p.claim.workKey.operation = .fetchTerminalResult := by
  have hspec := operationOf_spec claim.workKey work version now
  unfold Guardian.prepareLocked at h
  generalize operationOf claim.workKey work version now = planned at *
  obtain ⟨_, v⟩ := planned
  simp only at *
  split_ifs at h with hterminal hlate hover hsubmit
  · unfold Guardian.admitSubmit at h
    simp only at h
    split_ifs at h
    cases h
    cases hop
  · unfold Guardian.admitRead at h
    simp only at h
    split_ifs at h
    cases h
    rcases hspec with ⟨hlookup, -⟩ | ⟨hsame, -⟩
    · exact absurd (hlookup.symm.trans hop) (by decide)
    · exact hsame.symm.trans hop

/-! ## Resolution -/

/-- What `checkProof` accepts is final proof. -/
theorem checkProof_final {versionId : String} {lookup : LookupResult}
    {packet : Option EvidencePacket} (h : checkProof version lookup packet = .ok ()) :
    Resolution.Final ⟨versionId, version, lookup, packet⟩ := by
  unfold checkProof at h
  split at h
  · rename_i sealed
    split_ifs at h with hseal
    exact .inl ⟨sealed, rfl, Version.checkSeal_iff.mp hseal⟩
  · rename_i receipt packet
    split_ifs at h with hsubmit hremote hsummary hended
    refine .inr ⟨receipt, packet, rfl, rfl, ?_⟩
    rw [Bool.not_eq_false] at hsubmit hsummary
    simp only [Version.checkSubmit, Bool.and_eq_true] at hsubmit
    simp only [Version.checkSummary, Version.shadow, Bool.and_eq_true, decide_eq_true_eq,
      Option.some_inj] at hsummary
    obtain ⟨⟨⟨⟨⟨⟨⟨⟨_, hid⟩, htype⟩, hplan⟩, hsummaryId⟩, _⟩, _⟩, _⟩, _⟩ := hsummary
    refine ⟨Version.agrees_iff.mp hsubmit.1, fun id hbound => ?_, ⟨htype, hid, hsummaryId, of_decide_eq_true hplan⟩,
      ?_⟩
    · -- a version that is bound is bound to this execution
      rw [Option.mem_def] at hbound
      by_contra hne
      exact hremote ⟨by rw [hbound]; exact Option.some_ne_none _, by
        rw [hbound]; exact fun he => hne (Option.some_inj.mp he)⟩
    · cases hstate : packet.summary.remoteState
      all_goals simp [hstate, RemoteState.terminal] at hended ⊢
  · cases h

/-- A hold that is resolved: what its proof was about, and what it has freed. -/
theorem resolveHold_spec {versionId : String} {lookup : LookupResult}
    {packet : Option EvidencePacket} (h : s.resolveHold versionId lookup packet = .ok (s', true)) :
    ∃ version cycle, s.versions.get? versionId = some version ∧
      s.cycles.get? version.cycleId = some cycle ∧ cycle.status = .unresolved ∧
      s.Occupied cycle ∧ Resolution.Final ⟨versionId, version, lookup, packet⟩ ∧
      s' = s.mapOccupancy cycle freed := by
  unfold resolveHold at h
  split at h
  · cases h
  · rename_i version hversion
    split_ifs at h
    split at h
    · cases h
    · rename_i cycle hcycle
      split_ifs at h with hstatus
      split at h
      · cases h
      · rename_i occupancy hoccupancy
        split_ifs at h with hhold hcycleId
        · cases h
        · split at h
          · cases h
          · rename_i hproof
            cases h
            exact ⟨version, cycle, hversion, hcycle, not_not.mp hstatus,
              ⟨occupancy, hoccupancy, not_not.mp hcycleId⟩, checkProof_final hproof, rfl⟩

variable {proven' : List String}

/-- A cycle that is terminal gives its environment back when all is final. -/
theorem Held.free (h : s.Held uncertain proven)
    (hcycle : s.cycles.get? cycle.cycleId = some cycle) (hstatus : cycle.status.terminal = true)
    (hoccupied : s.Occupied cycle) (hproven : ∀ i ∈ proven, i ∈ proven')
    (hfinal : ∀ i w, s.versions.get? i = some w → w.cycleId = cycle.cycleId →
      Final uncertain proven' i w) : (s.mapOccupancy cycle freed).Held uncertain proven' := by
  obtain ⟨hversions, hdue, hcycles⟩ := @mapOccupancy_versions s cycle freed
  obtain ⟨o, ho, hoc⟩ := hoccupied
  -- a cycle other than this one is in an environment that is not touched
  have hothers : ∀ x : Cycle, x.cycleId ≠ cycle.cycleId → s.Occupied x →
      (s.mapOccupancy cycle freed).Occupied x := by
    rintro x hx ⟨o', ho', hxc⟩
    have henv : x.environment ≠ cycle.environment := by
      intro he
      rw [he, ho] at ho'
      cases ho'
      rw [hoc] at hxc
      exact hx (Option.some.inj hxc).symm
    unfold mapOccupancy
    rw [ho]
    exact ⟨o', by rw [Dict.get?_set, if_neg henv]; exact ho', hxc⟩
  refine ⟨h.rows.congr hversions hdue, ?_, ?_, ?_, ?_, ?_, ?_, ?_⟩
  · rw [hcycles]
    exact h.keyed
  · rw [hversions, hcycles]
    exact h.homed
  · rw [hcycles]
    intro i x hx halive
    refine hothers x (fun he => ?_) (h.live i x hx halive)
    rw [h.keyed i x hx] at he
    rw [he, hcycle] at hx
    cases hx
    rw [hstatus] at halive
    cases halive
  · rw [hversions, hcycles]
    exact fun key v hk hv => h.works key v ((open_congr hdue).mp hk) hv
  · rw [hversions]
    exact h.unknown
  · rw [hversions]
    exact fun i v hv hu => (worked_congr hdue).mpr (h.unresolved i v hv hu)
  · rw [hversions, hcycles]
    intro i w x hw hx
    by_cases hin : w.cycleId = cycle.cycleId
    · exact .inr (hfinal i w hw hin)
    · refine (h.released i w x hw hx).imp (hothers x ?_) fun hfinal => ⟨fun ha => ?_, fun hu =>
        hproven i (hfinal.2 hu)⟩
      · rwa [h.keyed _ x hx]
      · exact (hfinal.1 ha).imp_right fun hp => hp.imp_left (hproven i)

theorem Held.resolve (h : s.Held uncertain proven) {id : String}
    (hversion : s.versions.get? id = some version)
    (hcycle : s.cycles.get? version.cycleId = some cycle) (hstatus : cycle.status = .unresolved)
    (hoccupied : s.Occupied cycle) (hunresolved : version.status = .unresolved)
    (hproven : ∀ i ∈ proven, i ∈ proven') (hid : id ∈ proven') :
    (s.mapOccupancy cycle freed).Held uncertain proven' := by
  have hhome := h.keyed _ cycle hcycle
  refine h.free (hhome ▸ hcycle) (by rw [hstatus]; rfl) hoccupied hproven fun i w hw hin => ?_
  by_cases hi : i = id
  · subst hi
    exact ⟨fun _ => .inr (.inl hid), fun _ => hid⟩
  · have hnot : version.status ≠ .completed := by
      rw [hunresolved]
      decide
    obtain ⟨hended, hresolved⟩ := h.final_others hversion
      (h.unresolved id version hversion hunresolved) hnot hw (hin.trans hhome) hi
    exact ⟨fun ha => .inl (hended ha), fun hu => absurd hu hresolved⟩

theorem Held.mono (h : s.Held uncertain proven)
    (huncertain : ∀ i ∈ uncertain', i ∈ uncertain) (hproven : ∀ i ∈ proven, i ∈ proven') :
    s.Held uncertain' proven' := by
  refine ⟨h.rows, h.keyed, h.homed, h.live, h.works, fun i hi => h.unknown i (huncertain i hi),
    h.unresolved, fun i v c hv hc => (h.released i v c hv hc).imp_right fun hfinal => ?_⟩
  exact ⟨fun ha => (hfinal.1 ha).imp_right (Or.imp (hproven i) fun hnot hi =>
    hnot (huncertain i hi)), fun hu => hproven i (hfinal.2 hu)⟩

end Guardian

namespace Guardian

variable {s s' : Guardian} {c x : Cycle} {v w : Version} {now : ℤ} {key : WorkKey} {work : DueWork}
  {uncertain proven : List String} {plan : CyclePlan}

/-! ## Discovery -/

variable {id : String}

theorem Rows.mem_of_worked (h : s.Rows) (hworked : s.Worked id) : id ∈ s.versions.keys := by
  obtain ⟨key, work, hwork, rfl⟩ := hworked
  obtain ⟨v, hv, -⟩ := h.placed key work hwork
  exact Dict.mem_keys_iff.mpr ⟨v, hv⟩

/-- A new version joins the rows. -/
theorem Rows.addVersion (h : s.Rows) (hfresh : v.versionExecutionId ∉ s.versions.keys)
    (hstatus : v.status ≠ .completed) (hattempts : v.submitAttempts = 0)
    (hhome : ∀ j w, s.versions.get? j = some w → w.cycleId = v.cycleId →
      w.ordinal ≠ v.ordinal ∧ ¬s.Worked j) : (s.setVersion v).Rows := by
  have hback : ∀ id w, (s.setVersion v).versions.get? id = some w →
      id = v.versionExecutionId ∧ w = v ∨ s.versions.get? id = some w :=
    fun _ _ hw => (Dict.get?_set_cases hw).imp_right And.right
  have hnone : ∀ key work, s.due.get? key = some work → key.versionId ≠ v.versionExecutionId :=
    fun key work hwork he => hfresh (he ▸ h.mem_of_worked ⟨key, work, hwork, rfl⟩)
  have hold : ∀ key work w, s.due.get? key = some work →
      (s.setVersion v).versions.get? key.versionId = some w →
      s.versions.get? key.versionId = some w := fun key work w hwork hw =>
    (hback _ w hw).resolve_left fun he => hnone key work hwork he.1
  refine ⟨?_, ?_, ?_, h.unique, ?_, ?_, ?_, ?_, ?_⟩
  · intro id w hw
    rcases hback id w hw with ⟨rfl, rfl⟩ | hw
    · rfl
    · exact h.ids id w hw
  · intro i w j x hw hx hc ho
    rcases hback i w hw with ⟨hi, hwv⟩ | hw <;> rcases hback j x hx with ⟨hj, hxv⟩ | hx
    · rw [hi, hj]
    · rw [hwv] at hc ho
      exact absurd ho.symm (hhome j x hx hc.symm).1
    · rw [hxv] at hc ho
      exact absurd ho (hhome i w hw hc).1
    · exact h.ordinals i w j x hw hx hc ho
  · intro key work hwork
    obtain ⟨v₀, hv₀, hlower⟩ := h.placed key work hwork
    refine ⟨v₀, ?_, fun j w hw hc ho => ?_⟩
    · simp only [Guardian.setVersion, Dict.get?_set, if_neg (hnone key work hwork)]
      exact hv₀
    · rcases hback j w hw with ⟨rfl, rfl⟩ | hw
      · exact absurd ⟨key, work, hwork, rfl⟩ (hhome _ v₀ hv₀ hc.symm).2
      · exact hlower j w hw hc ho
  · intro id w hw hcompleted
    rcases hback id w hw with ⟨rfl, rfl⟩ | hw
    · exact absurd hcompleted hstatus
    · exact h.ended id w hw hcompleted
  · exact fun key work w hwork hop hw => h.fetched key work w hwork hop (hold key work w hwork hw)
  · intro id w hw hne
    rcases hback id w hw with ⟨rfl, rfl⟩ | hw
    · exact absurd hattempts hne
    · exact h.attempted id w hw hne
  · exact fun key work w hwork hne hop hstart hw =>
      h.dispatchable key work w hwork hne hop hstart (hold key work w hwork hw)
  · intro key work operation hwork hclaimed hprep
    obtain ⟨hstarted, hread⟩ := h.prepared key work operation hwork hclaimed hprep
    refine ⟨hstarted, fun hr hop => ?_⟩
    obtain ⟨w, hw, hknown⟩ := hread hr hop
    refine ⟨w, ?_, hknown⟩
    simp only [Guardian.setVersion, Dict.get?_set, if_neg (hnone key work hwork)]
    exact hw

theorem row_id (p : PlannedVersion) (cycleId : String) (ordinal : ℕ) (blocked : Bool) :
    (p.row cycleId ordinal blocked).versionExecutionId = p.versionExecutionId := rfl

variable {blocked : Bool}

theorem addVersions_back (hw : (s.addVersions plan blocked).versions.get? id = some w) :
    s.versions.get? id = some w ∨ w.cycleId = plan.cycleId ∧ 1 ≤ w.ordinal ∧
      w.submitAttempts = 0 ∧ w.status = (if blocked then .skipped else .planned) := by
  simp only [addVersions, Guardian.setVersion, Dict.get?_set] at hw
  split_ifs at hw
  · cases hw
    exact .inr ⟨rfl, (by change 1 ≤ 3; decide), rfl, rfl⟩
  · cases hw
    exact .inr ⟨rfl, (by change 1 ≤ 2; decide), rfl, rfl⟩
  · cases hw
    exact .inr ⟨rfl, (by change 1 ≤ 1; decide), rfl, rfl⟩
  · exact .inl hw

theorem Fresh.keeps (hfresh : s.Fresh plan) (hw : s.versions.get? id = some w) :
    (s.addVersions plan blocked).versions.get? id = some w := by
  obtain ⟨-, hfirst, hsecond, hthird, -⟩ := hfresh
  have hmem : id ∈ s.versions.keys := Dict.mem_keys_iff.mpr ⟨w, hw⟩
  have h₁ : id ≠ plan.first.versionExecutionId := fun he => hfirst (he ▸ hmem)
  have h₂ : id ≠ plan.second.versionExecutionId := fun he => hsecond (he ▸ hmem)
  have h₃ : id ≠ plan.third.versionExecutionId := fun he => hthird (he ▸ hmem)
  simp only [addVersions, Guardian.setVersion, Dict.get?_set, row_id, h₁, h₂, h₃, if_false]
  exact hw

theorem Held.addVersions (h : s.Held uncertain proven) (hfresh : s.Fresh plan) (blocked : Bool) :
    (s.addVersions plan blocked).Rows := by
  obtain ⟨hcycle, hfirst, hsecond, hthird, h12, h13, h23⟩ := hfresh
  have hstatus : ∀ (p : PlannedVersion) n, (p.row plan.cycleId n blocked).status ≠ .completed := by
    intro p n
    cases blocked <;> exact nofun
  have hother : ∀ j w, s.versions.get? j = some w → w.cycleId ≠ plan.cycleId := by
    intro j w hw he
    obtain ⟨c, hc⟩ := h.homed j w hw
    exact hcycle (he ▸ Dict.mem_keys_iff.mpr ⟨c, hc⟩)
  have hone : (s.setVersion (plan.first.row plan.cycleId 1 blocked)).Rows :=
    h.rows.addVersion hfirst (hstatus _ _) rfl fun j w hw he => absurd he (hother j w hw)
  have htwo := hone.addVersion (v := plan.second.row plan.cycleId 2 blocked)
    (by
      rw [Guardian.setVersion, Dict.mem_keys_iff]
      rintro ⟨w, hw⟩
      simp only [Dict.get?_set, row_id, h12.symm, if_false] at hw
      exact hsecond (Dict.mem_keys_iff.mpr ⟨w, hw⟩)) (hstatus _ _) rfl (by
      intro j w hw he
      simp only [Guardian.setVersion, Dict.get?_set] at hw
      split_ifs at hw with hj
      · cases hw
        refine ⟨by change 1 ≠ 2; decide, fun hworked => ?_⟩
        subst hj
        exact hfirst (h.rows.mem_of_worked hworked)
      · exact absurd he (hother j w hw))
  refine htwo.addVersion (v := plan.third.row plan.cycleId 3 blocked) ?_ (hstatus _ _) rfl ?_
  · rw [Guardian.setVersion, Guardian.setVersion, Dict.mem_keys_iff]
    rintro ⟨w, hw⟩
    simp only [Dict.get?_set, row_id, h23.symm, h13.symm, if_false] at hw
    exact hthird (Dict.mem_keys_iff.mpr ⟨w, hw⟩)
  · intro j w hw he
    simp only [Guardian.setVersion, Dict.get?_set] at hw
    split_ifs at hw with hj hj'
    · cases hw
      refine ⟨by change 2 ≠ 3; decide, fun hworked => ?_⟩
      subst hj
      exact hsecond (h.rows.mem_of_worked hworked)
    · cases hw
      refine ⟨by change 1 ≠ 3; decide, fun hworked => ?_⟩
      subst hj'
      exact hfirst (h.rows.mem_of_worked hworked)
    · exact absurd he (hother j w hw)

/-- A discovered cycle takes a free environment or waits for it. -/
theorem Held.added (h : s.Held uncertain proven) (hfresh : s.Fresh plan)
    (hrows : s'.Rows) (hversions : s'.versions = (s.addVersions plan blocked).versions)
    (hcycles : s'.cycles = s.cycles.set plan.cycleId (cycleOf plan blocked now))
    (hopen : ∀ key, s'.Open key → s.Open key ∨
      blocked = false ∧ key.versionId = plan.first.versionExecutionId)
    (hworked : ∀ id, s.Worked id → s'.Worked id) (hothers : ∀ x, s.Occupied x → s'.Occupied x)
    (hown : blocked = false → s'.Occupied (cycleOf plan blocked now)) :
    s'.Held uncertain proven := by
  have hnew : ∀ id w, s'.versions.get? id = some w → s.versions.get? id = some w ∨
      w.cycleId = plan.cycleId ∧ 1 ≤ w.ordinal ∧ w.submitAttempts = 0 ∧
        w.status = (if blocked then .skipped else .planned) := by
    rw [hversions]
    exact fun id w hw => addVersions_back hw
  have hcycle : ∀ id x, s'.cycles.get? id = some x →
      id = plan.cycleId ∧ x = cycleOf plan blocked now ∨ s.cycles.get? id = some x :=
    fun _ _ hx => (Dict.get?_set_cases (hcycles ▸ hx)).imp_right And.right
  have hnot : ∀ id w, s.versions.get? id = some w → w.cycleId ≠ plan.cycleId := by
    intro id w hw he
    obtain ⟨c, hc⟩ := h.homed id w hw
    exact hfresh.1 (he ▸ Dict.mem_keys_iff.mpr ⟨c, hc⟩)
  refine ⟨hrows, ?_, ?_, ?_, ?_, ?_, ?_, ?_⟩
  · intro id x hx
    rcases hcycle id x hx with ⟨rfl, rfl⟩ | hx
    · rfl
    · exact h.keyed id x hx
  · intro id w hw
    rw [hcycles]
    rcases hnew id w hw with hw | ⟨hc, -⟩
    · obtain ⟨c, hc⟩ := h.homed id w hw
      exact ⟨c, by rw [Dict.get?_set, if_neg (hnot id w hw)]; exact hc⟩
    · exact ⟨_, by rw [Dict.get?_set, if_pos hc]⟩
  · intro id x hx halive
    rcases hcycle id x hx with ⟨rfl, rfl⟩ | hx
    · cases blocked with
      | false => exact hown rfl
      | true => cases halive
    · exact hothers x (h.live id x hx halive)
  · intro key w hk hw
    rcases hopen key hk with hwas | ⟨rfl, hkey⟩
    · obtain ⟨work, hwork, hne⟩ := hwas
      obtain ⟨v, hv, -⟩ := h.rows.placed key work hwork
      have hsame : (s.addVersions plan blocked).versions.get? key.versionId = some v :=
        hfresh.keeps hv
      rw [← hversions, hw] at hsame
      cases hsame
      obtain ⟨hws, hcs⟩ := h.works key w ⟨work, hwork, hne⟩ hv
      refine ⟨hws, fun x hx => ?_⟩
      rcases hcycle _ x hx with ⟨he, -⟩ | hx
      · exact absurd he (hnot _ w hv)
      · exact hcs x hx
    · rcases hnew _ w hw with hw | ⟨hc, -, -, hstatus⟩
      · exact absurd (hkey ▸ Dict.mem_keys_iff.mpr ⟨w, hw⟩) hfresh.2.1
      · refine ⟨by rw [hstatus]; rfl, fun x hx => ?_⟩
        rw [hc] at hx
        rcases hcycle _ x hx with ⟨-, rfl⟩ | hx
        · rfl
        · exact absurd (Dict.mem_keys_iff.mpr ⟨x, hx⟩) hfresh.1
  · intro id hid
    obtain ⟨v, hv, hunknown⟩ := h.unknown id hid
    exact ⟨v, by rw [hversions]; exact hfresh.keeps hv, hunknown⟩
  · intro id w hw hunresolved
    rcases hnew id w hw with hw | ⟨-, -, -, hstatus⟩
    · exact hworked id (h.unresolved id w hw hunresolved)
    · rw [hstatus] at hunresolved
      cases blocked <;> cases hunresolved
  · intro id w x hw hx
    rcases hnew id w hw with hw | ⟨-, -, hattempts, hstatus⟩
    · rcases hcycle _ x hx with ⟨he, -⟩ | hx
      · exact absurd he (hnot id w hw)
      · exact (h.released id w x hw hx).imp_left (hothers x)
    · refine .inr ⟨fun ha => absurd hattempts ha, fun hu => ?_⟩
      rw [hstatus] at hu
      cases blocked <;> cases hu

theorem Occupied.write (h : s.Occupied x) {environment : String} {o : Occupancy}
    (hocc : s'.occupancies = s.occupancies.set environment o)
    (hkeep : (s.occupancyOf environment).cycleId = some x.cycleId → o.cycleId = some x.cycleId) :
    s'.Occupied x := by
  obtain ⟨o', ho', hc⟩ := h
  unfold Occupied
  rw [hocc]
  simp only [Dict.get?_set]
  split_ifs with henv
  · refine ⟨o, rfl, hkeep ?_⟩
    rwa [occupancyOf, ← henv, ho']
  · exact ⟨o', ho', hc⟩

theorem Held.discover (h : s.Held uncertain proven) (hfresh : s.Fresh plan) (resumed : Bool)
    (now : ℤ) : (s.discover plan resumed now).Held uncertain proven := by
  unfold Guardian.discover
  simp only
  cases hblocked : s.blocked plan.environment resumed with
  | true =>
    rw [if_pos rfl]
    have hrows := h.addVersions hfresh true
    exact h.added hfresh (hrows.congr rfl rfl) rfl rfl (fun _ hk => .inl hk)
      (fun _ hw => hw) (fun x hx => hx.write rfl fun hc => hc) (by simp)
  | false =>
    rw [if_neg (by decide)]
    have hfree : (s.occupancyOf plan.environment).cycleId = none := by
      simp only [blocked, Bool.or_eq_false_iff, decide_eq_false_iff_not, not_not] at hblocked
      exact hblocked.1.1
    have hrows : ((s.addVersions plan false).setCycle (cycleOf plan false now)).Rows :=
      (h.addVersions hfresh false).congr rfl rfl
    have hfirst : ((s.addVersions plan false).setCycle (cycleOf plan false now)).versions.get?
        plan.first.versionExecutionId = some (plan.first.row plan.cycleId 1 false) := by
      obtain ⟨-, -, -, -, h12, h13, -⟩ := hfresh
      simp [Guardian.addVersions, Guardian.setVersion, Guardian.setCycle, row_id, h12, h13]
    have hdue : (((s.addVersions plan false).setCycle (cycleOf plan false now)).dueWork
        (cycleOf plan false now) (plan.first.row plan.cycleId 1 false) .dispatchVersion 0
        (plan.eligibleAt + hashOffset plan.cycleKey 480 * Runtime.second)).Rows := by
      refine hrows.dueWork hfirst ?_ ?_ (by simp) fun _ => by change 0 < 3; decide
      · intro j w hw hc ho
        rcases addVersions_back hw with hw | ⟨-, hordinal, -⟩
        · obtain ⟨c, hc'⟩ := h.homed j w hw
          have hid : w.cycleId = plan.cycleId := hc
          exact absurd (hid ▸ Dict.mem_keys_iff.mpr ⟨c, hc'⟩) hfresh.1
        · have : w.ordinal < 1 := ho
          omega
      · intro key hk he
        obtain ⟨work, hwork, -⟩ := hk
        have hid : key.versionId = plan.first.versionExecutionId := he
        exact hfresh.2.1 (hid ▸ h.rows.mem_of_worked ⟨key, work, hwork, rfl⟩)
    refine h.added hfresh (hdue.congr rfl rfl) dueWork_rows.1 dueWork_rows.2.1 ?_ ?_ ?_ ?_
    · exact fun key hk => (dueWork_open hk).imp id fun hkey => ⟨rfl, hkey⟩
    · exact fun id hw => dueWork_worked (s := (s.addVersions plan false).setCycle _) hw
    · refine fun x hx => hx.write rfl fun hc => ?_
      rw [hfree] at hc
      cases hc
    · exact fun _ => ⟨_, (Dict.get?_set _ _ _ _).trans (if_pos rfl), rfl⟩

end Guardian

end LocalAgent.Runtime
