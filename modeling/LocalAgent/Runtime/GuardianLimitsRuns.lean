import LocalAgent.Runtime.GuardianLimits

/-!
# LocalAgent.Runtime.GuardianLimitsRuns — the limits of a scope over whole runs

* `GuardedScope.Inv`: the windows of the starts, and the reads in flight next to the dispatch works
  that have been prepared as lookups.
* `request_limits`: the windows hold in every run, and the reads in flight where every claim of
  collections leaves room for those lookups.
* `reads_in_flight_exceeded`: a claim of collections does not count a lookup that was a dispatch.
-/

namespace LocalAgent.Runtime

namespace Guardian

variable {s s' : Guardian} {cycle : Cycle} {version v : Version} {now dbNow : ℤ} {key : WorkKey}
  {work : DueWork} {claim : WorkClaim}

/-! ## What the transactions leave alone -/

/-- The rows of works and the starts are as before, but for one new row at the most. -/
structure Adds (s s' : Guardian) : Prop where
  submits : s'.submitStarts = s.submitStarts
  reads : s'.readStarts = s.readStarts
  due : s'.due = s.due ∨ ∃ key eligible due, s'.due = s.due.set key (.new eligible due)

theorem adds_mapOccupancy (f : Occupancy → Occupancy) : s.Adds (s.mapOccupancy cycle f) := by
  unfold mapOccupancy
  split <;> exact ⟨rfl, rfl, .inl rfl⟩

theorem adds_stop (s : Guardian) (cycle : Cycle) (v : Version) (status : VersionStatus)
    (reason : String) (now : ℤ) (hold : Bool) :
    (s.stop cycle v status reason now hold).submitStarts = s.submitStarts ∧
      (s.stop cycle v status reason now hold).readStarts = s.readStarts ∧
      (s.stop cycle v status reason now hold).due = s.due := by
  unfold stop mapOccupancy
  split <;> exact ⟨rfl, rfl, rfl⟩

theorem adds_dueWork (s : Guardian) (cycle : Cycle) (v : Version)
    (operation : GuardianOperation) (sequence : ℕ) (due : ℤ) :
    s.Adds (s.dueWork cycle v operation sequence due) := by
  unfold dueWork
  simp only
  split_ifs
  · exact ⟨rfl, rfl, .inl rfl⟩
  · exact ⟨rfl, rfl, .inr ⟨_, _, _, rfl⟩⟩

variable {operation : GuardianOperation}

theorem Outcome.adds {outcome : ProviderOutcome}
    (h : Outcome s cycle version operation outcome now s') : s.Adds s' := by
  cases h with
  | stopped v status reason hold =>
    obtain ⟨h1, h2, h3⟩ := adds_stop s cycle v status reason now hold
    exact ⟨h1, h2, .inl h3⟩
  | goesOn v next sequence due =>
    obtain ⟨h1, h2, h3⟩ := adds_dueWork (s.setVersion v) cycle v next sequence due
    exact ⟨h1, h2, h3⟩
  | completed _ _ _ _ _ _ hnext =>
    rcases progress_cases hnext with ⟨successor, due, -, -, -, rfl⟩ | rfl | ⟨-, _, -, rfl⟩
    · obtain ⟨h1, h2, h3⟩ := adds_dueWork (s.setVersion _) cycle successor .dispatchVersion 0 due
      exact ⟨h1, h2, h3⟩
    · exact ⟨rfl, rfl, .inl rfl⟩
    · obtain ⟨h1, h2, h3⟩ := adds_mapOccupancy (s := (s.setVersion _).setCycle _) _
      exact ⟨h1, h2, h3⟩

/-! ## What a preparation admits -/

/-- A row that is not a read in flight, at any time. -/
def Idle (work : DueWork) : Prop := ∀ dbNow, GuardedScope.inFlight work dbNow = false

theorem idle_completed (work : DueWork) (t : Option ℤ) :
    Idle { work with state := .completed, completedAt := t } := fun _ => rfl

/-- How a preparation ends: with nothing to do, with a submit request, or with a read. -/
inductive Prepares (s : Guardian) (dbNow now : ℤ) (claim : WorkClaim) (collections : ℕ) :
    Guardian × Option PreparedWork → Prop where
  | idle (s' : Guardian) (w : DueWork) (hw : Idle w)
      (hsubmits : s'.submitStarts = s.submitStarts) (hreads : s'.readStarts = s.readStarts)
      (hdue : s'.due = s.due.set claim.workKey w) :
      Prepares s dbNow now claim collections (s', none)
  | submit (s' : Guardian) (p : Option PreparedWork) (w : DueWork) (hw : Idle w)
      (hroom : (recent s.submitStarts now).length < 10)
      (hsubmits : s'.submitStarts = recent s.submitStarts now ++ [now])
      (hreads : s'.readStarts = s.readStarts) (hdue : s'.due = s.due.set claim.workKey w)
      (hp : ∀ q ∈ p, q.operation = .dispatchVersion ∧ q.claim = claim) :
      Prepares s dbNow now claim collections (s', p)
  | read (s' : Guardian) (p : PreparedWork) (w : DueWork) (v : Version)
      (hroom : (recent s.readStarts now).length < 20)
      (hsubmits : s'.submitStarts = s.submitStarts)
      (hreads : s'.readStarts = recent s.readStarts now ++ [now])
      (hdue : s'.due = s.due.set claim.workKey w) (hrows : (s.setVersion v).Rows)
      (hbusy : (s.setVersion v).busy dbNow claim.workKey false + collections < 20)
      (hp : p.operation.read = true ∧ p.claim = claim ∧
        (p.operation = .fetchTerminalResult → claim.workKey.operation = .fetchTerminalResult)) :
      Prepares s dbNow now claim collections (s', some p)

theorem idle_requeued (work : DueWork) (now : ℤ) :
    Idle { work with
      state := .ready
      claimToken := none
      leaseUntil := none
      nextAvailableAt := now + second
      prepared := none } := fun _ => rfl

/-- What a preparation hands out: a submit, a read, or nothing. -/
theorem prepareLocked_spec (hrows : s.Rows) (hl : s.Locked dbNow claim work cycle version)
    (collections : ℕ) : Prepares s dbNow now claim collections
      (s.prepareLocked dbNow now claim work cycle version collections) := by
  unfold prepareLocked
  split_ifs with hterminal
  · exact .idle _ _ (idle_completed work _) rfl rfl rfl
  rw [not_or, Bool.not_eq_true, Bool.not_eq_true] at hterminal
  obtain ⟨hset, -⟩ := hl.operationOf hrows hterminal.2 now
  have hspec := operationOf_spec claim.workKey work version now
  generalize operationOf claim.workKey work version now = planned at *
  obtain ⟨operation, v⟩ := planned
  simp only at *
  have hstopped : ∀ (s₁ : Guardian) status reason hold,
      ((s₁.stop cycle v status reason now hold).complete claim.workKey work dbNow).submitStarts =
          s₁.submitStarts ∧
        ((s₁.stop cycle v status reason now hold).complete claim.workKey work dbNow).readStarts =
          s₁.readStarts ∧
        ((s₁.stop cycle v status reason now hold).complete claim.workKey work dbNow).due =
          s₁.due.set claim.workKey { work with state := .completed, completedAt := some dbNow } := by
    intro s₁ status reason hold
    obtain ⟨h1, h2, h3⟩ := adds_stop s₁ cycle v status reason now hold
    exact ⟨h1, h2, by rw [complete, h3]⟩
  split_ifs with hlate hover hsubmit
  · obtain ⟨h1, h2, h3⟩ := hstopped (s.setVersion v) .infraFailed "RESULT_COLLECTION_FAILED" false
    exact .idle _ _ (idle_completed work _) h1 h2 h3
  · obtain ⟨h1, h2, h3⟩ := hstopped (s.setVersion v) .unresolved "RECONCILIATION_DEADLINE" true
    exact .idle _ _ (idle_completed work _) h1 h2 h3
  · unfold admitSubmit
    simp only
    split_ifs with hfull hattempts
    · exact .idle _ _ (idle_requeued work now) rfl rfl rfl
    · obtain ⟨h1, h2, h3⟩ := hstopped { s.setVersion v with
        submitStarts := recent s.submitStarts now ++ [now] } .dispatchFailed
        "DISPATCH_BUDGET_EXHAUSTED" false
      exact .submit _ none _ (idle_completed work _) (by
        have hnot := fun h => hfull (.inl h)
        exact Nat.lt_of_not_le hnot) h1 h2 h3 (by simp)
    · refine .submit _ _ { work with
        startedAt := some dbNow
        businessStartedAt := some now
        prepared := some .dispatchVersion } (fun _ => ?_) ?_ rfl rfl rfl ?_
      · simp [GuardedScope.inFlight, GuardianOperation.read]
      · exact Nat.lt_of_not_le fun h => hfull (.inl h)
      · rintro q ⟨⟩
        exact ⟨rfl, rfl⟩
  · unfold admitRead
    simp only
    split_ifs with hfull
    · exact .idle _ _ (idle_requeued work now) rfl rfl rfl
    · refine .read _ _ { work with
        startedAt := some dbNow
        businessStartedAt := some now
        prepared := some operation } v ?_ rfl rfl rfl hset ?_ ⟨?_, rfl, ?_⟩
      · exact Nat.lt_of_not_le fun h => hfull (.inl h)
      · exact Nat.lt_of_not_le fun h => hfull (.inr h)
      · cases operation with
        | dispatchVersion => exact absurd rfl hsubmit
        | pollRemote | reconcileRemote | fetchTerminalResult => rfl
      · intro hop
        rcases hspec with ⟨hrec, -⟩ | ⟨hsame, -⟩
        · rw [hrec] at hop
          cases hop
        · exact hsame.symm.trans hop

variable {collections : ℕ} {r : Guardian × Option PreparedWork} {prepared : PreparedWork}
  {w : DueWork}

theorem prepare_spec (hrows : s.Rows) (h : s.prepare dbNow now claim collections = .ok r) :
    Prepares s dbNow now claim collections r := by
  unfold Guardian.prepare at h
  split at h
  · cases h
  · rename_i work cycle version hlocked
    obtain ⟨hwork, hheld, hversion, hcycle⟩ := locked_spec hlocked
    cases h
    exact prepareLocked_spec hrows ⟨hwork, hheld, hversion, hcycle⟩ collections

theorem finish_spec {outcome : ProviderOutcome} (h : s.finish dbNow now prepared outcome = .ok s') :
    ∃ t w, s.Adds t ∧ Idle w ∧ s' = { t with due := t.due.set prepared.claim.workKey w } := by
  unfold Guardian.finish at h
  split at h
  · cases h
  · split_ifs at h with hterminal
    split at h
    · cases h
    · rename_i t hsettle
      cases h
      exact ⟨t, _, (settle_outcome hsettle).adds, idle_completed _ _, rfl⟩

/-- The reads in flight among the due works. -/
def flying (s : Guardian) (dbNow : ℤ) : ℕ :=
  s.due.countBy fun _ work => GuardedScope.inFlight work dbNow

theorem flying_set_le (hw : Idle w) (hdue : s'.due = s.due.set key w) (dbNow : ℤ) :
    s'.flying dbNow ≤ s.flying dbNow := by
  rw [flying, hdue]
  exact Dict.countBy_set_le (hw dbNow)

theorem idle_new (eligibleAt due : ℤ) : Idle (.new eligibleAt due) := fun _ => rfl

theorem Adds.flying_le (h : s.Adds s') (dbNow : ℤ) : s'.flying dbNow ≤ s.flying dbNow := by
  rcases h.due with heq | ⟨_, eligible, due, heq⟩
  · rw [flying, heq]
    exact le_refl _
  · exact flying_set_le (idle_new eligible due) heq dbNow

/-- A request in flight is a busy row. -/
theorem Rows.busy_of_inFlight (hrows : s.Rows) (hget : s.due.get? key = some work)
    (h : GuardedScope.inFlight work dbNow = true) :
    busyRow work dbNow = true ∧ s.readBusy key = true := by
  simp only [GuardedScope.inFlight, Bool.and_eq_true, decide_eq_true_eq] at h
  obtain ⟨⟨hclaimed, hlease⟩, hprep⟩ := h
  cases hp : work.prepared with
  | none =>
    rw [hp] at hprep
    cases hprep
  | some operation =>
    rw [hp] at hprep
    obtain ⟨hstarted, hunknown⟩ := hrows.prepared key work operation hget hclaimed hp
    constructor
    · simp [busyRow, hclaimed, hstarted, hlease]
    · rw [readBusy, Bool.or_eq_true]
      cases hop : key.operation with
      | dispatchVersion =>
        obtain ⟨v, hv, hknown⟩ := hunknown hprep hop
        right
        simp [hv, hknown]
      | pollRemote | reconcileRemote | fetchTerminalResult => exact .inl rfl

theorem flying_read {v : Version} (dbNow : ℤ) (hrows : (s.setVersion v).Rows)
    (hdue : s'.due = s.due.set claim.workKey w) :
    s'.flying dbNow ≤ (s.setVersion v).busy dbNow claim.workKey false + 1 := by
  rw [flying, hdue, Dict.countBy_set]
  refine Nat.add_le_add ?_ (Bool.toNat_le _)
  refine Dict.countBy_mono fun e he hflies => ?_
  obtain ⟨hin, hne⟩ := (Bool.and_eq_true _ _).mp hflies
  have hget : (s.setVersion v).due.get? e.1 = some e.2 := Dict.get?_eq_some_iff.mpr he
  obtain ⟨hbusy, hread⟩ := hrows.busy_of_inFlight hget hin
  simp only [hbusy, hne, Bool.and_self, Bool.true_and, Bool.false_eq_true, if_false]
  exact hread

theorem flying_claimDue {rows : List (WorkKey × String)} (dbNow' : ℤ) :
    ∀ {s : Guardian}, (s.claimDue dbNow now rows).1.flying dbNow' ≤ s.flying dbNow' := by
  induction rows with
  | nil => exact fun {s} => le_refl _
  | cons row _ ih =>
    intro s
    obtain ⟨_, token⟩ := row
    rw [Guardian.claimDue]
    split
    · exact ih
    · split_ifs with hclaim
      · refine ih.trans (flying_set_le (w := claimed _ token dbNow) (fun t => ?_) rfl dbNow')
        simp [GuardedScope.inFlight, claimed]
      · exact ih

theorem claimDue_starts (dbNow now : ℤ) (rows : List (WorkKey × String)) :
    ∀ (s : Guardian), (s.claimDue dbNow now rows).1.submitStarts = s.submitStarts ∧
      (s.claimDue dbNow now rows).1.readStarts = s.readStarts ∧
      (s.claimDue dbNow now rows).1.cycles = s.cycles := by
  induction rows with
  | nil => exact fun s => ⟨rfl, rfl, rfl⟩
  | cons row _ ih =>
    intro s
    obtain ⟨key, token⟩ := row
    rw [Guardian.claimDue]
    split
    · exact ih s
    · rename_i work hwork
      split_ifs with hclaim
      · exact ih { s with due := s.due.set key (claimed work token dbNow) }
      · exact ih s

/-! ## Cycles keep their ids -/

/-- Every cycle is under its id. -/
def CyclesKeyed (s : Guardian) : Prop := ∀ id c, s.cycles.get? id = some c → c.cycleId = id

theorem CyclesKeyed.setCycle (h : s.CyclesKeyed) (c : Cycle) : (s.setCycle c).CyclesKeyed := by
  intro id c' hc'
  simp only [Guardian.setCycle, Dict.get?_set] at hc'
  split_ifs at hc' with hid
  · cases hc'
    exact hid.symm
  · exact h id c' hc'

theorem CyclesKeyed.congr (h : s.CyclesKeyed) (heq : s'.cycles = s.cycles) : s'.CyclesKeyed := by
  unfold CyclesKeyed
  rwa [heq]

theorem CyclesKeyed.stop (h : s.CyclesKeyed) (cycle : Cycle) (v : Version)
    (status : VersionStatus) (reason : String) (now : ℤ) (hold : Bool) :
    (s.stop cycle v status reason now hold).CyclesKeyed := by
  have hrows : (s.stopRows cycle v status reason now).CyclesKeyed :=
    (h.setCycle { cycle with
      status := status.stopped, reason := some reason, completedAt := some now }).congr rfl
  exact hrows.congr (mapOccupancy_versions _).2.2

theorem Adds.cycles_dueWork {sequence : ℕ} {due : ℤ} :
    (s.dueWork cycle v operation sequence due).cycles = s.cycles := by
  unfold dueWork
  simp only
  split_ifs <;> rfl

theorem CyclesKeyed.outcome (h : s.CyclesKeyed)
    {outcome : ProviderOutcome} (ho : Outcome s cycle version operation outcome now s') :
    s'.CyclesKeyed := by
  cases ho with
  | stopped v status reason hold =>
    exact h.stop cycle v status reason now hold
  | goesOn => exact h.congr Adds.cycles_dueWork
  | completed _ _ _ _ _ _ hnext =>
    rcases progress_cases hnext with ⟨_, _, -, -, -, rfl⟩ | rfl | ⟨-, _, -, rfl⟩
    · exact h.congr Adds.cycles_dueWork
    · exact h
    · refine CyclesKeyed.congr (s := (s.setVersion _).setCycle _) ?_ (mapOccupancy_versions _).2.2
      exact CyclesKeyed.setCycle (s := s.setVersion _) h _

theorem CyclesKeyed.finish (h : s.CyclesKeyed)
    {outcome : ProviderOutcome} (hf : s.finish dbNow now prepared outcome = .ok s') :
    s'.CyclesKeyed := by
  unfold Guardian.finish at hf
  split at hf
  · cases hf
  · split_ifs at hf with hterminal
    split at hf
    · cases hf
    · rename_i t hsettle
      cases hf
      have ht : t.CyclesKeyed := h.outcome (settle_outcome hsettle)
      exact ht

theorem CyclesKeyed.prepare (h : s.CyclesKeyed)
(hp : s.prepare dbNow now claim collections = .ok r) : r.1.CyclesKeyed := by
  unfold Guardian.prepare at hp
  split at hp
  · cases hp
  · rename_i work cycle version hlocked
    cases hp
    unfold prepareLocked
    split_ifs with hterminal
    · exact h
    generalize operationOf claim.workKey work version now = planned
    obtain ⟨_, v⟩ := planned
    simp only
    split_ifs with hlate hover hsubmit
    · exact CyclesKeyed.stop (s := s.setVersion v) h _ _ _ _ _ _
    · exact CyclesKeyed.stop (s := s.setVersion v) h _ _ _ _ _ _
    · unfold admitSubmit
      simp only
      split_ifs with hfull hattempts
      · exact h
      · exact CyclesKeyed.stop (s := { s.setVersion v with
          submitStarts := recent s.submitStarts now ++ [now] }) h _ _ _ _ _ _
      · exact CyclesKeyed.setCycle (s := ({ s.setVersion v with
          submitStarts := recent s.submitStarts now ++ [now] }.setVersion _)) h _
    · unfold admitRead
      simp only
      split_ifs with hfull
      all_goals exact h

end Guardian

namespace GuardedScope

open SlidingWindow

variable {s s' : GuardedScope}

/-! ## The invariant of the scope -/

structure Inv (s : GuardedScope) : Prop where
  rows : s.guardian.Rows
  cycles : s.guardian.CyclesKeyed
  origin : ∀ p ∈ s.prepared, p.operation = .fetchTerminalResult →
    p.claim.workKey.operation = .fetchTerminalResult
  submitsCovered : Covers second s.now s.submits s.guardian.submitStarts
  readsCovered : Covers second s.now s.reads s.guardian.readStarts
  submitsWithin : Within second 10 s.submits
  readsWithin : Within second 20 s.reads

/-- A preparation stays within the window and within the reads in flight. -/
theorem Inv.prepare (h : s.Inv) (claim : WorkClaim) : (s.prepareWork claim).Inv := by
  unfold prepareWork
  split
  · rename_i error _
    cases error
    · exact ⟨h.rows.congr rfl rfl, h.cycles, h.origin, h.submitsCovered, h.readsCovered,
        h.submitsWithin, h.readsWithin⟩
    · exact h
  · rename_i guardian hp
    have hrows := h.rows.prepare h.cycles hp
    have hcycles := h.cycles.prepare hp
    cases Guardian.prepare_spec h.rows hp with
    | idle _ _ _ hsubmits hreads =>
      exact ⟨hrows, hcycles, h.origin, hsubmits ▸ h.submitsCovered, hreads ▸ h.readsCovered,
        h.submitsWithin, h.readsWithin⟩
    | submit _ _ _ _ _ hsubmits hreads =>
      exact ⟨hrows, hcycles, h.origin, hsubmits ▸ h.submitsCovered.keep, hreads ▸ h.readsCovered,
        h.submitsWithin, h.readsWithin⟩
  · rename_i guardian work hp
    have hrows := h.rows.prepare h.cycles hp
    have hcycles := h.cycles.prepare hp
    cases Guardian.prepare_spec h.rows hp with
    | submit _ _ _ _ hroom hsubmits hreads _ hq =>
      obtain ⟨hop, hclaim⟩ := hq work rfl
      refine ⟨hrows, hcycles, ?_, ?_, ?_, ?_, ?_⟩
      · intro p hmem hfetch
        rcases mem_snoc hmem with hmem | hmem
        · exact h.origin p hmem hfetch
        · rw [hmem, hop] at hfetch
          cases hfetch
      · simp only [hop, GuardianOperation.read, Bool.false_eq_true, if_false, hsubmits]
        exact h.submitsCovered.admit
      · simp only [hop, GuardianOperation.read, Bool.false_eq_true, if_false, hreads]
        exact h.readsCovered
      · simp only [hop, GuardianOperation.read, Bool.false_eq_true, if_false]
        exact h.submitsWithin.admit h.submitsCovered hroom
      · simp only [hop, GuardianOperation.read, Bool.false_eq_true, if_false]
        exact h.readsWithin
    | read _ _ _ _ hroom hsubmits hreads _ _ _ hq =>
      obtain ⟨hop, hclaim, hfetch⟩ := hq
      refine ⟨hrows, hcycles, ?_, ?_, ?_, ?_, ?_⟩
      · intro p hmem hop'
        rcases mem_snoc hmem with hmem | rfl
        · exact h.origin p hmem hop'
        · rw [hclaim]
          exact hfetch hop'
      · simp only [hop, if_true, hsubmits]
        exact h.submitsCovered
      · simp only [hop, if_true, hreads]
        exact h.readsCovered.admit
      · simp only [hop, if_true]
        exact h.submitsWithin
      · simp only [hop, if_true]
        exact h.readsWithin.admit h.readsCovered hroom

theorem Inv.finish (h : s.Inv) {work : PreparedWork} (hwork : work ∈ s.prepared)
    (outcome : Guardian.ProviderOutcome) : (s.finishWork work outcome).Inv := by
  unfold finishWork
  split
  · rename_i error _
    cases error
    · exact ⟨h.rows.congr rfl rfl, h.cycles, h.origin, h.submitsCovered, h.readsCovered,
        h.submitsWithin, h.readsWithin⟩
    · exact h
  · rename_i guardian hf
    obtain ⟨t, w, hadds, -, rfl⟩ := Guardian.finish_spec hf
    exact ⟨h.rows.finish h.cycles (h.origin work hwork) hf, h.cycles.finish hf, h.origin,
      hadds.submits ▸ h.submitsCovered, hadds.reads ▸ h.readsCovered, h.submitsWithin,
      h.readsWithin⟩

theorem Inv.collections (h : s.Inv) (rows : Dict String Collection) :
    { s with collections := rows }.Inv :=
  ⟨h.rows, h.cycles, h.origin, h.submitsCovered, h.readsCovered, h.submitsWithin, h.readsWithin⟩

variable {limit : ℕ} {rows : List (String × String)}

theorem step_collections :
    ∃ c, ((s.claimCollections limit rows).map Prod.fst).toOption.getD s =
      { s with collections := c } := by
  unfold claimCollections
  split_ifs
  · exact ⟨_, rfl⟩
  · exact ⟨s.collections, rfl⟩

/-- An ingestion closes one row of the collections or changes nothing. -/
theorem step_ingest (versionId : String) (claim : Option CollectionClaim) (missing : Bool) :
    (s.ingest versionId claim missing).toOption.getD s = s ∨
      ∃ row, s.collections.get? versionId = some row ∧
        (s.ingest versionId claim missing).toOption.getD s =
          { s with collections := s.collections.set versionId (row.settled missing) } := by
  unfold ingest
  split
  · exact .inl rfl
  · rename_i row hrow
    split_ifs
    · exact .inr ⟨row, hrow, rfl⟩
    · exact .inl rfl

theorem step_fail (claim : CollectionClaim) (code : String) :
    (s.fail claim code).toOption.getD s = s ∨
      ∃ row, s.collections.get? claim.versionId = some row ∧
        (s.fail claim code).toOption.getD s =
          { s with collections := s.collections.set claim.versionId (row.failed code s.now).1 } := by
  unfold fail
  split
  · exact .inl rfl
  · rename_i row hrow
    split_ifs
    · exact .inr ⟨row, hrow, rfl⟩
    · exact .inl rfl

variable {a : Action}

/-- Every transaction keeps the invariant. -/
theorem Inv.step (h : s.Inv) (hstep : s.step a = some s') : s'.Inv := by
  cases a with
  | tick _ business =>
    cases hstep
    refine ⟨h.rows, h.cycles, h.origin, h.submitsCovered.later ?_, h.readsCovered.later ?_,
      h.submitsWithin, h.readsWithin⟩
    all_goals
      change s.now ≤ s.now + business
      omega
  | claimDue rows =>
    cases hstep
    obtain ⟨hsubmits, hreads, hcycles⟩ :=
      Guardian.claimDue_starts s.dbNow s.now rows s.guardian
    exact ⟨h.rows.claimDue, h.cycles.congr hcycles, h.origin, hsubmits ▸ h.submitsCovered,
      hreads ▸ h.readsCovered, h.submitsWithin, h.readsWithin⟩
  | prepare claim =>
    cases hstep
    exact h.prepare claim
  | finish _ outcome =>
    simp only [GuardedScope.step] at hstep
    split_ifs at hstep with hwork
    cases hstep
    exact h.finish hwork outcome
  | claimCollections =>
    cases hstep
    obtain ⟨c, hc⟩ := step_collections (s := s)
    rw [hc]
    exact h.collections c
  | ingest versionId claim missing =>
    cases hstep
    rcases step_ingest (s := s) versionId claim missing with heq | ⟨row, -, heq⟩
    · rwa [heq]
    · rw [heq]
      exact h.collections _
  | fail claim code =>
    cases hstep
    rcases step_fail (s := s) claim code with heq | ⟨_, -, heq⟩
    · rwa [heq]
    · rw [heq]
      exact h.collections _

/-! ## Reads in flight -/

/-- A claim of collections that cannot exceed the limit: no dispatch is in flight as a lookup,
which its query does not count, or there is room for all it asks for. -/
def LeavesRoom (s : GuardedScope) : Action → Prop
  | .claimCollections limit _ => s.lookupsOfDispatches = 0 ∨ limit + s.readsInFlight ≤ 20
  | .tick _ _ | .claimDue _ | .prepare _ | .finish _ _ | .ingest _ _ _ | .fail _ _ => True

instance : ∀ (s : GuardedScope) (a : Action), Decidable (s.LeavesRoom a)
  | s, .claimCollections limit _ =>
    inferInstanceAs (Decidable (s.lookupsOfDispatches = 0 ∨ limit + s.readsInFlight ≤ 20))
  | _, .tick _ _ | _, .claimDue _ | _, .prepare _ | _, .finish _ _ | _, .ingest _ _ _
  | _, .fail _ _ => isTrue trivial

theorem leaseLive_of_le {lease : Option ℤ} {t t' : ℤ} (hle : t ≤ t')
    (h : leaseLive lease t' = true) : leaseLive lease t = true := by
  cases lease with
  | none => cases h
  | some l =>
    have : t' < l := of_decide_eq_true h
    exact decide_eq_true (by omega)

theorem readsInFlight_tick (database business : ℕ) :
    { s with dbNow := s.dbNow + database, now := s.now + business }.readsInFlight ≤
      s.readsInFlight := by
  have hle : s.dbNow ≤ s.dbNow + database := by omega
  refine Nat.add_le_add (Dict.countBy_mono fun e _ he => ?_) (Dict.countBy_mono fun e _ he => ?_)
  · simp only [inFlight, Bool.and_eq_true] at he ⊢
    exact ⟨⟨he.1.1, leaseLive_of_le hle he.1.2⟩, he.2⟩
  · simp only [Collection.live, Bool.and_eq_true] at he ⊢
    exact ⟨he.1, leaseLive_of_le hle he.2⟩

theorem readsInFlight_guardian {guardian : Guardian} {prepared : List PreparedWork}
    {submits reads : List ℤ} (h : guardian.flying s.dbNow ≤ s.guardian.flying s.dbNow) :
    { s with
      guardian := guardian, prepared := prepared, submits := submits,
      reads := reads }.readsInFlight ≤ s.readsInFlight :=
  Nat.add_le_add_right h _

theorem readsInFlight_prepare (h : s.Inv) (claim : WorkClaim) (hle : s.readsInFlight ≤ 20) :
    (s.prepareWork claim).readsInFlight ≤ 20 := by
  unfold prepareWork
  split
  · rename_i error _
    refine le_trans (readsInFlight_guardian ?_) hle
    cases error <;> exact le_refl _
  · rename_i guardian hp
    refine le_trans (readsInFlight_guardian ?_) hle
    cases Guardian.prepare_spec h.rows hp with
    | idle _ _ hw _ _ hdue | submit _ _ _ hw _ _ _ hdue => exact Guardian.flying_set_le hw hdue _
  · rename_i guardian work hp
    cases Guardian.prepare_spec h.rows hp with
    | submit _ _ _ hw _ _ _ hdue =>
      exact le_trans (readsInFlight_guardian (Guardian.flying_set_le hw hdue _)) hle
    | read _ _ _ _ _ _ _ hdue hset =>
      have hflying := Guardian.flying_read s.dbNow hset hdue
      change guardian.flying s.dbNow + s.busyCollections ≤ 20
      omega

/-- Claimed collections are live under their claims. -/
theorem live_claimRows (dbNow now : ℤ) (rows : List (String × String)) :
    ∀ (collections : Dict String Collection),
      (claimRows dbNow now collections rows).1.countBy (fun _ row => row.live dbNow) ≤
        collections.countBy (fun _ row => row.live dbNow) + rows.length := by
  induction rows with
  | nil => exact fun _ => le_refl _
  | cons row _ ih =>
    intro collections
    obtain ⟨id, token⟩ := row
    rw [claimRows, List.length_cons]
    split
    · exact (ih collections).trans (by omega)
    · split_ifs
      · refine (ih _).trans ?_
        rw [Dict.countBy_set]
        have hothers := Dict.countBy_mono (d := collections)
          (p := fun k row => row.live dbNow && k ≠ id) (q := fun _ row => row.live dbNow)
          fun e _ he => ((Bool.and_eq_true _ _).mp he).1
        have hone := Bool.toNat_le ((Collection.claimed ‹_› token dbNow).live dbNow)
        omega
      · exact (ih collections).trans (by omega)

theorem flying_le (h : s.Inv) :
    s.guardian.flying s.dbNow ≤ s.busyGuardian + s.lookupsOfDispatches := by
  refine Dict.countBy_add_le fun e he hflies => ?_
  obtain ⟨hbusy, -⟩ := h.rows.busy_of_inFlight (Dict.get?_eq_some_iff.mpr he) hflies
  cases hop : e.1.operation with
  | dispatchVersion => exact .inr (by simp [hflies])
  | pollRemote | reconcileRemote | fetchTerminalResult =>
    exact .inl (by simp [hbusy, GuardianOperation.read])

/-- Collections are claimed up to the room that the lookups leave. -/
theorem readsInFlight_claimCollections (h : s.Inv)
    (hroom : s.lookupsOfDispatches = 0 ∨ limit + s.readsInFlight ≤ 20)
    (hle : s.readsInFlight ≤ 20) :
    (((s.claimCollections limit rows).map Prod.fst).toOption.getD s).readsInFlight ≤ 20 := by
  unfold claimCollections
  split_ifs
  · change s.guardian.flying s.dbNow + (claimRows s.dbNow s.now s.collections
      (rows.take (s.room limit))).1.countBy (fun _ row => row.live s.dbNow) ≤ 20
    have hlive := live_claimRows s.dbNow s.now (rows.take (s.room limit)) s.collections
    have htake : (rows.take (s.room limit)).length ≤ s.room limit := List.length_take_le _ _
    have hflying := flying_le h
    have hbusy : s.collections.countBy (fun _ row => row.live s.dbNow) = s.busyCollections := rfl
    have htotal : s.readsInFlight = s.guardian.flying s.dbNow + s.busyCollections := rfl
    have hmin : s.room limit = min limit (20 - s.busyCollections - s.busyGuardian) := rfl
    omega
  · exact hle

theorem live_failed (row : Collection) (code : String) (now dbNow : ℤ)
    (h : (row.failed code now).1.live dbNow = true) : row.live dbNow = true := by
  unfold Collection.failed at h
  by_cases hattempts : row.attempts < 3
  · rw [if_pos hattempts] at h
    cases h
  · rwa [if_neg hattempts] at h

/-- Every transaction that leaves room keeps the limit. -/
theorem readsInFlight_step (h : s.Inv) (hroom : s.LeavesRoom a)
    (hstep : s.step a = some s') (hle : s.readsInFlight ≤ 20) : s'.readsInFlight ≤ 20 := by
  cases a with
  | tick database business =>
    cases hstep
    exact (readsInFlight_tick database business).trans hle
  | claimDue =>
    cases hstep
    exact le_trans (readsInFlight_guardian (Guardian.flying_claimDue _)) hle
  | prepare claim =>
    cases hstep
    exact readsInFlight_prepare h claim hle
  | finish =>
    simp only [GuardedScope.step] at hstep
    split_ifs at hstep with hwork
    cases hstep
    unfold finishWork
    split
    · rename_i error _
      refine le_trans (readsInFlight_guardian ?_) hle
      cases error <;> exact le_refl _
    · rename_i guardian hf
      obtain ⟨t, w, hadds, hw, rfl⟩ := Guardian.finish_spec hf
      refine le_trans (readsInFlight_guardian ?_) hle
      exact (Guardian.flying_set_le hw rfl _).trans (hadds.flying_le _)
  | claimCollections =>
    cases hstep
    exact readsInFlight_claimCollections h hroom hle
  | ingest versionId claim missing =>
    cases hstep
    rcases step_ingest (s := s) versionId claim missing with heq | ⟨row, -, heq⟩
    · rwa [heq]
    · rw [heq]
      refine le_trans (Nat.add_le_add_left (Dict.countBy_set_le ?_) _) hle
      cases missing <;> rfl
  | fail claim code =>
    cases hstep
    rcases step_fail (s := s) claim code with heq | ⟨row, hrow, heq⟩
    · rwa [heq]
    · rw [heq]
      refine le_trans (Nat.add_le_add_left (Dict.countBy_set_le_of_get? hrow ?_) _) hle
      exact live_failed row code s.now s.dbNow

/-! ## Runs -/

/-- A discovered scope has its rows in order. -/
theorem Discovered.inv (h : s.Discovered) : s.Inv := by
  obtain ⟨hsubmitStarts, hreadStarts, hsubmits, hreads, hprepared⟩ := h.starts
  have hversion : ∀ id v, s.guardian.versions.get? id = some v → v.versionExecutionId = id ∧
      1 ≤ v.ordinal ∧ (v.status = .planned ∨ v.status = .skipped) ∧ v.submitAttempts = 0 :=
    fun id v hv => h.versions (id, v) (Dict.get?_eq_some_iff.mp hv)
  have hdue : ∀ key work, s.guardian.due.get? key = some work →
      key.operation = .dispatchVersion ∧ key.sequence = 0 ∧ work.state = .ready ∧
        work.startedAt = none ∧
        ∃ f ∈ s.guardian.versions.entries, f.1 = key.versionId ∧ f.2.ordinal = 1 :=
    fun key work hw => h.due (key, work) (Dict.get?_eq_some_iff.mp hw)
  have hrows : s.guardian.Rows := by
    refine ⟨fun id v hv => (hversion id v hv).1, ?_, ?_, ?_, ?_, ?_, ?_, ?_, ?_⟩
    · exact fun i v j w hv hw => h.ordinals (i, v) (Dict.get?_eq_some_iff.mp hv) (j, w)
        (Dict.get?_eq_some_iff.mp hw)
    · -- the works are of first versions, before which there is none
      intro key work hw
      obtain ⟨-, -, -, -, ⟨id, v⟩, hmem, rfl, hone⟩ := hdue key work hw
      refine ⟨v, Dict.get?_eq_some_iff.mpr hmem, fun j w hj _ hlt => ?_⟩
      have hpos := (hversion j w hj).2.1
      simp only at hone
      omega
    · rintro ⟨i, o, n⟩ ⟨i', o', n'⟩ ⟨w, hw, -⟩ ⟨w', hw', -⟩ hid
      obtain ⟨ho, hn, -⟩ := hdue _ w hw
      obtain ⟨ho', hn', -⟩ := hdue _ w' hw'
      simp only at ho hn ho' hn' hid
      rw [ho, hn, ho', hn', hid]
    · intro id v hv hstatus
      rcases (hversion id v hv).2.2.1 with hs | hs <;> rw [hs] at hstatus <;> cases hstatus
    · intro key work v hw hop
      rw [(hdue key work hw).1] at hop
      cases hop
    · exact fun id v hv hne => absurd (hversion id v hv).2.2.2 hne
    · intro key work v _ _ _ _ hv
      rw [(hversion _ v hv).2.2.2]
      decide
    · intro key work operation hw hclaimed
      rw [(hdue key work hw).2.2.1] at hclaimed
      cases hclaimed
  refine ⟨hrows, ?_, ?_, ?_, ?_, ?_, ?_⟩
  · exact fun id c hc => h.cycles (id, c) (Dict.get?_eq_some_iff.mp hc)
  · rw [hprepared]
    exact fun p hp => nomatch hp
  · rw [hsubmits, hsubmitStarts]
    exact covers_nil
  · rw [hreads, hreadStarts]
    exact covers_nil
  · rw [hsubmits]
    exact within_nil
  · rw [hreads]
    exact within_nil

theorem Discovered.readsInFlight (h : s.Discovered) : s.readsInFlight = 0 := by
  have hflying : s.guardian.flying s.dbNow = 0 := by
    refine List.countP_eq_zero.mpr fun e he hflies => ?_
    have hready := (h.due e he).2.2.1
    simp [inFlight, hready] at hflies
  have hlive : s.busyCollections = 0 := by
    refine List.countP_eq_zero.mpr fun e he hlive => ?_
    simp only [Collection.live, Bool.and_eq_true, decide_eq_true_eq] at hlive
    exact h.collections e he hlive.1
  change s.guardian.flying s.dbNow + s.busyCollections = 0
  omega

theorem limits_step (hroom : s.LeavesRoom a) (hstep : s.step a = some s')
    (h : s.Inv ∧ s.readsInFlight ≤ 20) : s'.Inv ∧ s'.readsInFlight ≤ 20 :=
  ⟨h.1.step hstep, readsInFlight_step h.1 hroom hstep h.2⟩

/-- In no second are there more than 10 submit requests or 20 reads, and there are never more than
20 reads in flight in a run whose claims of collections leave room. -/
theorem request_limits {s₀ : GuardedScope} {acts : List Action} (hstart : s₀.Discovered)
    (hrun : Trace.run step s₀ acts = some s) :
    Within second 10 s.submits ∧ Within second 20 s.reads ∧
      (Trace.Along step LeavesRoom s₀ acts → s.readsInFlight ≤ 20) := by
  have hinv : s.Inv := Trace.run_invariant (fun _ _ _ hstep h => h.step hstep) hrun hstart.inv
  refine ⟨hinv.submitsWithin, hinv.readsWithin, fun halong => ?_⟩
  have hzero : s₀.readsInFlight ≤ 20 := by
    rw [hstart.readsInFlight]
    decide
  exact (Trace.run_keeps (fun _ _ _ hroom hstep h => limits_step hroom hstep h) halong hrun
    ⟨hstart.inv, hzero⟩).2

/-! ### A dispatch that is taken over -/

def samplePlan (ordinal : ℕ) (productVersion : String) : PlanFields :=
  ⟨"lab", "stable", "project", "suite", ordinal, productVersion⟩

def sampleVersion (ordinal : ℕ) (id : String) : Version where
  versionExecutionId := id
  versionExecutionKey := id
  cycleId := "cycle"
  ordinal := ordinal
  expectedCases := 1
  request := ⟨"provider", "nightly", samplePlan ordinal id⟩
  businessKey := id
  requestDigest := id

def sampleKey : WorkKey := ⟨"V1", .dispatchVersion, 0⟩

def sampleGuardian : Guardian where
  scope := "nightly"
  submitStarts := []
  readStarts := []
  staleWritesRejected := 0
  cycles := Dict.empty.set "cycle" ⟨"cycle", "lab", 0, 36000 * second, .ready, none, none⟩
  versions := ((Dict.empty.set "V1" (sampleVersion 1 "V1")).set "V2" (sampleVersion 2 "V2")).set "V3"
    (sampleVersion 3 "V3")
  due := Dict.empty.set sampleKey (.new 0 0)
  occupancies := Dict.empty.set "lab" ⟨some "cycle", false, none⟩

/-- Rows of a query, with fresh tokens. -/
def sampleRows : List (String × String) :=
  (List.range 20).map fun n => (String.ofList (List.replicate n 'x'), "token")

/-- Twenty collections that wait. -/
def sampleScope : GuardedScope where
  dbNow := 0
  now := 0
  guardian := sampleGuardian
  collections := sampleRows.foldl (fun d row => d.set row.1 ⟨.pending, none, 0, none, 0, 0, none⟩)
    Dict.empty
  prepared := []
  submits := []
  reads := []

/-- A submit request whose worker is lost, and the lookup of who takes the work over. -/
def sampleTakeover : List Action :=
  [.claimDue [(sampleKey, "first")], .prepare ⟨sampleKey, "first", 1, "V1"⟩, .tick 31000000 31000000,
    .claimDue [(sampleKey, "second")], .prepare ⟨sampleKey, "second", 2, "V1"⟩]

theorem sampleScope_discovered : sampleScope.Discovered :=
  ⟨by decide, by decide, by decide, by decide, by decide +kernel, ⟨rfl, rfl, rfl, rfl, rfl⟩⟩

theorem request_limits_sampleTakeover :
    ∃ s, Trace.run step sampleScope (sampleTakeover ++ [.claimCollections 19 sampleRows]) = some s ∧
      Within second 10 s.submits ∧ Within second 20 s.reads ∧ s.readsInFlight ≤ 20 := by
  obtain ⟨s, hs⟩ := Option.isSome_iff_exists.mp (show (Trace.run step sampleScope
    (sampleTakeover ++ [.claimCollections 19 sampleRows])).isSome = true by decide +kernel)
  obtain ⟨hsubmits, hreads, hflight⟩ := request_limits sampleScope_discovered hs
  exact ⟨s, hs, hsubmits, hreads, hflight (by decide +kernel)⟩

/-- The collections' query does not count the lookup. -/
theorem reads_in_flight_exceeded : ¬∀ (s₀ s : GuardedScope) (acts : List Action), s₀.Discovered →
      Trace.run step s₀ acts = some s → s.readsInFlight ≤ 20 := by
  intro hclaim
  obtain ⟨s, hs, hsample⟩ := (Option.any_eq_true
    (fun s : GuardedScope => decide (21 ≤ s.readsInFlight))
    (Trace.run step sampleScope (sampleTakeover ++ [.claimCollections 20 sampleRows]))).mp
    (by decide +kernel)
  have hmore := of_decide_eq_true hsample
  have hle := hclaim sampleScope s _ sampleScope_discovered hs
  omega

end GuardedScope

end LocalAgent.Runtime
