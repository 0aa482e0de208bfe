import LocalAgent.Runtime.GuardianProgress
import LocalAgent.Runtime.GuardianScheduler

/-!
# LocalAgent.Runtime.GuardianSchedulerSteps — the transactions of a scope keep it sound

* `Guardian.Sound`: what every transaction keeps, for any answer of the provider.
* `Sound.prepare`, `finish`, `resolveHold`, `recover`, `discover`: the transactions.
* `Sound.not_stranded`: the recovery finds no successor without work.
-/

namespace LocalAgent.Runtime

namespace Guardian

variable {s s' t : Guardian} {cycle c : Cycle} {version v : Version} {now dbNow : ℤ} {key : WorkKey}
  {work work' next : DueWork} {claim : WorkClaim} {collections : ℕ}

/-! ## The state of the rows -/

/-- What every transaction keeps. -/
structure Sound (s : Guardian) : Prop where
  held : ∃ proven, s.Held [] proven
  sequenced : s.Sequenced
  going : s.Going

/-- A work that was prepared was started, as what its key says or as a lookup. -/
def Origin (s : Guardian) (prepared : PreparedWork) : Prop :=
  (prepared.operation = prepared.claim.workKey.operation ∨
    prepared.operation = .reconcileRemote ∧
      prepared.claim.workKey.operation ≠ .fetchTerminalResult) ∧
  ∃ work, s.due.get? prepared.claim.workKey = some work ∧ work.startedAt ≠ none

variable {prepared : PreparedWork}

theorem Origin.fetch (h : s.Origin prepared) (hop : prepared.operation = .fetchTerminalResult) :
    prepared.claim.workKey.operation = .fetchTerminalResult := by
  rcases h.1 with hsame | ⟨hlookup, -⟩
  · exact hsame.symm.trans hop
  · rw [hlookup] at hop
    cases hop

theorem Sound.locked (h : s.Sound) (hl : s.Locked dbNow claim work cycle version) :
    version.status.terminal = false ∧ cycle.status.terminal = false ∧
      cycle.cycleId = version.cycleId ∧ work.state ≠ .completed := by
  obtain ⟨_, hheld⟩ := h.held
  obtain ⟨-, -, hhome, -, halive, hgoing, -⟩ := hheld.locked hl
  exact ⟨halive, hgoing, hhome.symm, hl.not_completed⟩

theorem Sound.works_only (h : s.Sound) (hget : s.due.get? key = some work) (work' : DueWork)
    (hopen : work'.state ≠ .completed) (hwas : work.state ≠ .completed)
    (hrows : { s with due := s.due.set key work' }.Rows)
    (hsequenced : { s with due := s.due.set key work' }.Sequenced) :
    { s with due := s.due.set key work' }.Sound := by
  obtain ⟨proven, hheld⟩ := h.held
  refine ⟨⟨proven, hheld.works_only hrows rfl rfl rfl (fun k hk => ?_) fun id hid =>
    worked_set _ _ hid⟩, hsequenced, h.going.setWork hopen⟩
  rcases open_set hk with rfl | hk
  · exact ⟨work, hget, hwas⟩
  · exact hk

theorem Sound.rejected (h : s.Sound) (error : GuardianError) : (s.rejected error).Sound := by
  cases error with
  | staleClaim =>
    obtain ⟨proven, hheld⟩ := h.held
    exact ⟨⟨proven, hheld.works_only (hheld.rows.congr rfl rfl) rfl rfl rfl (fun _ hk => hk)
      fun _ hw => hw⟩, h.sequenced.congr rfl rfl rfl, h.going.congr rfl rfl rfl⟩
  | raised => exact h

theorem steady_rejected (error : GuardianError) : s.Steady (s.rejected error) := by
  cases error with
  | staleClaim => exact steady_congr rfl rfl rfl
  | raised => exact .refl s

/-! ## Claims, preparations and ends -/

theorem Sound.claimDue (h : s.Sound) {rows : List (WorkKey × String)} :
    (s.claimDue dbNow now rows).1.Sound := by
  obtain ⟨proven, hheld⟩ := h.held
  exact ⟨⟨proven, hheld.claimDue⟩, h.sequenced.claimDue, h.going.claimDue⟩

theorem Sound.prepare (h : s.Sound) {prepared : Option PreparedWork}
    (hok : s.prepare dbNow now claim collections = .ok (s', prepared)) :
    s'.Sound ∧ s.Steady s' ∧ ∀ p, prepared = some p → s'.Origin p := by
  unfold Guardian.prepare at hok
  split at hok
  · cases hok
  · rename_i work cycle version hlocked
    obtain ⟨hwork, hholds, hversion, hcycle⟩ := locked_spec hlocked
    have hl : s.Locked dbNow claim work cycle version := ⟨hwork, hholds, hversion, hcycle⟩
    obtain ⟨halive, hgoing, hid, -⟩ := h.locked hl
    obtain ⟨proven, hheld⟩ := h.held
    have hs' : s' = (s.prepareLocked dbNow now claim work cycle version collections).1 :=
      (congrArg Prod.fst (Except.ok.inj hok)).symm
    have hp' : prepared = (s.prepareLocked dbNow now claim work cycle version collections).2 :=
      (congrArg Prod.snd (Except.ok.inj hok)).symm
    subst hs' hp'
    refine ⟨⟨⟨proven, (hheld.prepareLocked hlocked collections).mono nofun fun _ hi => hi⟩,
        h.sequenced.prepareLocked hheld.rows hl halive hgoing hid,
        h.going.prepareLocked h.sequenced hheld.rows hl halive hgoing hid⟩,
      h.sequenced.prepareLocked_steady hheld.rows hl halive hgoing hid, fun p hp => ?_⟩
    rcases h.sequenced.prepareLocked_cases hheld.rows hl halive hgoing hid now collections with
      ⟨v, status, reason, hold, -, -, -, heq⟩ | ⟨v, c, next, hc⟩
    · rw [heq] at hp
      cases hp
    · obtain ⟨hclaim, hstarted, hop⟩ := hc.prepared p hp
      refine ⟨by rw [hclaim]; exact hop, next, ?_, hstarted⟩
      rw [hclaim, hc.due, Dict.get?_set, if_pos rfl]

/-- An outcome keeps the scheduler sound. -/
theorem Sound.finish (h : s.Sound) (horigin : s.Origin prepared)
    {outcome : ProviderOutcome} (hok : s.finish dbNow now prepared outcome = .ok s') :
    s'.Sound ∧ s.Steady s' := by
  unfold Guardian.finish at hok
  split at hok
  · cases hok
  · rename_i work cycle version hlocked
    obtain ⟨hwork, hholds, hversion, hcycle⟩ := locked_spec hlocked
    have hl : s.Locked dbNow prepared.claim work cycle version :=
      ⟨hwork, hholds, hversion, hcycle⟩
    obtain ⟨halive, hgoing, hid, hopen⟩ := h.locked hl
    obtain ⟨_, hheld⟩ := h.held
    split_ifs at hok with hterminal
    split at hok
    · cases hok
    · rename_i t hsettle
      cases hok
      have hstarted : work.startedAt ≠ none := by
        obtain ⟨w, hw, hs⟩ := horigin.2
        cases hwork.symm.trans hw
        exact hs
      have hsame : (outcomeError work outcome).startedAt = work.startedAt := by
        cases outcome <;> rfl
      -- a version that is known to have ended has a fetch
      have hodd : version.terminalKnown = true →
          prepared.operation = .fetchTerminalResult := by
        intro ht
        have hkey := h.sequenced.ended _ version ⟨work, hwork, hopen⟩ hversion ht
        rcases horigin.1 with hop | ⟨-, hne⟩
        · exact hop.trans hkey
        · exact absurd hkey hne
      have hplanned : version.status ≠ .planned := fun hp =>
        hstarted (h.sequenced.untouched _ work version hwork hversion hp).2
      have hkey : prepared.claim.workKey ∈ s.due.keys := Dict.mem_keys_iff.mpr ⟨work, hwork⟩
      have hend := hl.ending hheld.rows hheld.keyed halive (outcomeError work outcome)
      have hdone := hheld.rows.complete hwork hsame dbNow
      have hsequenced := h.sequenced.complete hwork hsame hstarted dbNow
      have hsequel : Sequel (s.complete prepared.claim.workKey (outcomeError work outcome) dbNow)
          cycle version prepared.operation outcome now
          (t.complete prepared.claim.workKey (outcomeError work outcome) dbNow) :=
        (settle_sequel hsettle).complete hkey
      have hcycle' : s.cycles.get? cycle.cycleId = some cycle := hid ▸ hcycle
      refine ⟨⟨⟨_, (hheld.finish horigin.fetch hl (fun _ _ _ hmem => nomatch hmem) hsettle).mono
        nofun fun _ hi => hi⟩, hsequenced.sequel hdone hend hplanned hodd hsequel,
        Sequel.going (s := s.complete prepared.claim.workKey (outcomeError work outcome) dbNow)
          h.going rfl rfl ?_ hsequenced hdone hend hcycle' hgoing hodd hsequel⟩, ?_⟩
      · rintro k ⟨w, hw, hne⟩ hother
        refine ⟨w, ?_, hne⟩
        rw [Guardian.complete, Dict.get?_set, if_neg]
        · exact hw
        · rintro rfl
          exact hother (hheld.rows.ids _ _ hversion).symm
      · exact (steady_complete hwork hopen hsame).trans
          (hsequel.toOutcome.steady hend hcycle' hgoing)

/-! ## Resolutions -/

/-- A resolved hold keeps the scheduler sound. -/
theorem Sound.resolveHold (h : s.Sound) {versionId : String} {lookup : LookupResult}
    {packet : Option EvidencePacket} {released : Bool}
    (hok : s.resolveHold versionId lookup packet = .ok (s', released)) :
    s'.Sound ∧ s.Steady s' := by
  cases released with
  | false =>
    obtain rfl : s' = s := by
      unfold Guardian.resolveHold at hok
      split at hok
      · cases hok
      · split_ifs at hok
        split at hok
        · cases hok
        · split_ifs at hok
          split at hok
          · cases hok
          · split_ifs at hok
            · exact (congrArg Prod.fst (Except.ok.inj hok)).symm
            · split at hok
              all_goals cases hok
    exact ⟨h, .refl s'⟩
  | true =>
    obtain ⟨_, cycle, -, hcycle, hstatus, hoccupied, -, rfl⟩ := resolveHold_spec hok
    obtain ⟨proven, hheld⟩ := h.held
    obtain ⟨hversions, hdue, hcycles⟩ := @mapOccupancy_versions s cycle freed
    have hhome := hheld.keyed _ cycle hcycle
    refine ⟨⟨⟨proven ++ s.versions.keys, hheld.free (hhome ▸ hcycle) (by rw [hstatus]; rfl)
      hoccupied (fun _ hi => List.mem_append_left _ hi) fun i w hw _ => ⟨fun _ => .inr (.inr (by simp)),
        fun _ => List.mem_append_right _ (Dict.mem_keys_iff.mpr ⟨w, hw⟩)⟩⟩,
      h.sequenced.congr hversions hdue hcycles, h.going.congr hversions hdue hcycles⟩,
      steady_congr hversions hdue hcycles⟩

/-! ## Recovery -/

/-- Work that is spread over time is moved, and nothing else. -/
theorem spread_keeps {P : Guardian → Prop} (generation : ℕ)
    (hset : ∀ (s : Guardian) key work time, P s → s.due.get? key = some work →
      work.completedAt = none →
      P { s with due := s.due.set key { work with nextAvailableAt := time } })
    (keys : List WorkKey) :
    ∀ {s : Guardian}, P s → P (s.spread dbNow now generation keys) := by
  induction keys with
  | nil => exact fun h => h
  | cons key _ ih =>
    intro s h
    unfold Guardian.spread
    split
    · rename_i work version hwork hversion
      split_ifs with hspread
      · refine ih (hset s key work _ h hwork ?_)
        simp only [spreadable, Bool.and_eq_true] at hspread
        exact of_decide_eq_true hspread.1.1.1.2
      · exact ih h
    · exact ih h

theorem Sound.spread (h : s.Sound) (dbNow now : ℤ) (generation : ℕ) (keys : List WorkKey) :
    (s.spread dbNow now generation keys).Sound ∧ s.Steady (s.spread dbNow now generation keys) := by
  refine spread_keeps (P := fun t => t.Sound ∧ s.Steady t) generation ?_ keys ⟨h, .refl s⟩
  rintro t key work time ⟨ht, hsteady⟩ hget hnone
  have hopen : work.state ≠ .completed := fun hc => ht.sequenced.closed key work hget hc hnone
  obtain ⟨_, hheld⟩ := ht.held
  refine ⟨ht.works_only hget { work with nextAvailableAt := time } hopen hopen ?_ ?_,
    hsteady.trans (steady_setWork hget hopen id)⟩
  · exact hheld.rows.setWork hget (fun _ => hopen) id fun operation hclaimed hprep =>
      hheld.rows.prepared key work operation hget hclaimed hprep
  · refine ht.sequenced.setWork hget (fun _ => hopen) id (fun hs w hw => ?_)
      fun hc => absurd hc hopen
    exact ⟨fun hp => hs (ht.sequenced.untouched key work w hget hw hp).2,
      ht.sequenced.spent key work w hget hw hs⟩

/-- In a sound scheduler no version is without work, so `recover` has none to repair. -/
theorem Sound.not_stranded (h : s.Sound) {id : String}
    (hversion : s.versions.get? id = some version) : s.stranded version = false := by
  rw [← Bool.not_eq_true]
  intro hstranded
  simp only [stranded, Bool.and_eq_true, Option.any_eq_true, List.any_eq_true,
    decide_eq_true_eq] at hstranded
  obtain ⟨⟨hcompleted, cycle, hcycle, hrunning⟩, successor, hmem,
    ⟨⟨hin, hordinal⟩, hplanned⟩, hnone⟩ := hstranded
  obtain ⟨_, hheld⟩ := h.held
  obtain ⟨j, hj⟩ := Dict.mem_values_iff.mp hmem
  obtain ⟨key, w, hopen, hw, hwin⟩ := h.going _ cycle hcycle (by rw [hrunning]; rfl)
  obtain ⟨halive, -⟩ := hheld.works key w hopen hw
  obtain ⟨work, hwork, -⟩ := hopen
  obtain ⟨_, hw', hlower⟩ := hheld.rows.placed key work hwork
  cases hw.symm.trans hw'
  -- the version was begun, so those before it are completed, and the open work is later
  obtain ⟨k, wk, hwk, hkid⟩ := h.sequenced.begun id version hversion
    (by rw [hcompleted]; decide) (by rw [hcompleted]; decide)
  obtain ⟨_, hv', hbefore⟩ := hheld.rows.placed k wk hwk
  rw [hkid, hversion] at hv'
  cases hv'
  rcases Nat.lt_trichotomy w.ordinal successor.ordinal with hlt | heq | hgt
  · have hcompleted' : w.status = .completed := by
      rcases Nat.lt_or_ge w.ordinal version.ordinal with hless | hge
      · exact hbefore _ w hw hwin hless
      · have hsame := hheld.rows.ordinals _ w id version hw hversion hwin (by omega)
        rw [hsame, hversion] at hw
        cases hw
        exact hcompleted
    rw [hcompleted'] at halive
    cases halive
  · have hsame := hheld.rows.ordinals _ w j successor hw hj (hwin.trans hin.symm) heq
    rw [hsame, hj] at hw
    cases hw
    have hop := (h.sequenced.untouched key work successor hwork (by rw [hsame]; exact hj)
      hplanned).1
    have hid := hheld.rows.ids j successor hj
    have hdispatched : s.dispatched successor.versionExecutionId = true := by
      refine List.any_eq_true.mpr ⟨key, Dict.mem_keys_iff.mpr ⟨work, hwork⟩, ?_⟩
      rw [hid, ← hsame, decide_eq_true rfl, decide_eq_true hop]
      rfl
    rw [hdispatched] at hnone
    cases hnone
  · have := hlower j successor hj (hin.trans hwin.symm) hgt
    rw [hplanned] at this
    cases this

theorem Sound.recover (h : s.Sound) {generation : ℕ} {keys : List WorkKey} {ids : List String}
    (hok : s.recover dbNow now generation keys ids = .ok s') : s'.Sound ∧ s.Steady s' := by
  obtain ⟨hsound, hsteady⟩ := h.spread dbNow now generation keys
  unfold Guardian.recover at hok
  simp only at hok
  have hnone : (ids.filter fun id => ((s.spread dbNow now generation keys).versions.get? id).any
      (s.spread dbNow now generation keys).stranded) = [] := by
    refine List.filter_eq_nil_iff.mpr fun id _ => ?_
    rw [Option.any_eq_true]
    rintro ⟨_, hversion, hstranded⟩
    rw [hsound.not_stranded hversion] at hstranded
    cases hstranded
  rw [hnone] at hok
  cases hok
  exact ⟨hsound, hsteady⟩

end Guardian

namespace Guardian

variable {s s' : Guardian} {cycle c : Cycle} {v : Version} {now : ℤ} {key : WorkKey}
  {work : DueWork} {plan : CyclePlan}

/-! ## Discovery -/

/-- A version without work is added to a cycle that is not there yet. -/
theorem Sequenced.addVersion (h : s.Sequenced) (hfresh : v.versionExecutionId ∉ s.versions.keys)
    (hnone : ¬s.Worked v.versionExecutionId)
    (hstatus : v.status = .planned ∨ v.status = .skipped)
    (hknown : v.known = true ∧ v.terminalKnown = false)
    (hcycle : v.cycleId ∉ s.cycles.keys) : (s.setVersion v).Sequenced := by
  have hcases : ∀ id w, (s.setVersion v).versions.get? id = some w →
      id = v.versionExecutionId ∧ w = v ∨ s.versions.get? id = some w :=
    fun _ _ hw => (Dict.get?_set_cases hw).imp_right And.right
  have hold : ∀ k w x, s.due.get? k = some w → (s.setVersion v).versions.get? k.versionId = some x →
      s.versions.get? k.versionId = some x := fun k w x hw hx =>
    (hcases _ x hx).resolve_left fun hnew => hnone ⟨k, w, hw, hnew.1⟩
  refine ⟨fun k w x hw hx => h.below k w x hw (hold k w x hw hx),
    fun k w x hw hx => h.spent k w x hw (hold k w x hw hx),
    fun k w x hw hx => h.done k w x hw (hold k w x hw hx), h.closed,
    fun k w x hw hx => h.waiting k w x hw (hold k w x hw hx), ?_, ?_, ?_,
    fun k w x hw hx => h.untouched k w x hw (hold k w x hw hx), ?_⟩
  · rintro k x ⟨w, hw, hne⟩ hx
    exact h.ended k x ⟨w, hw, hne⟩ (hold k w x hw hx)
  · intro id x hx hgoing ht
    rcases hcases id x hx with ⟨-, rfl⟩ | hx
    · exact hknown.1
    · exact h.known id x hx hgoing ht
  · intro id x hx hnot
    rcases hcases id x hx with ⟨-, rfl⟩ | hx
    · exact ⟨hknown, fun c hc => absurd (Dict.mem_keys_iff.mpr ⟨c, hc⟩) hcycle⟩
    · exact h.idle id x hx hnot
  · intro id x hx hp hs
    rcases hcases id x hx with ⟨-, rfl⟩ | hx
    · exact absurd (hstatus.resolve_left hp) hs
    · exact h.begun id x hx hp hs

theorem row_spec (p : PlannedVersion) (cycleId : String) (ordinal : ℕ) (blocked : Bool) :
    ((p.row cycleId ordinal blocked).status = .planned ∨
      (p.row cycleId ordinal blocked).status = .skipped) ∧
    ((p.row cycleId ordinal blocked).known = true ∧
      (p.row cycleId ordinal blocked).terminalKnown = false) := by
  cases blocked with
  | true => exact ⟨.inr rfl, rfl, rfl⟩
  | false => exact ⟨.inl rfl, rfl, rfl⟩

theorem Sequenced.addVersions (h : s.Sequenced) (hrows : s.Rows) (hfresh : s.Fresh plan)
    (blocked : Bool) : (s.addVersions plan blocked).Sequenced := by
  obtain ⟨hcycle, hfirst, hsecond, hthird, h12, h13, h23⟩ := hfresh
  have hnone : ∀ id, id ∉ s.versions.keys → ¬s.Worked id := fun id hid hworked =>
    hid (hrows.mem_of_worked hworked)
  have hone := h.addVersion (v := plan.first.row plan.cycleId 1 blocked) hfirst
    (hnone _ hfirst) (row_spec _ _ _ _).1 (row_spec _ _ _ _).2 hcycle
  have htwo := hone.addVersion (v := plan.second.row plan.cycleId 2 blocked) (by
      rw [Guardian.setVersion, Dict.mem_keys_set]
      exact fun hmem => hmem.elim (fun he => h12 he.symm) hsecond)
    (hnone _ hsecond) (row_spec _ _ _ _).1 (row_spec _ _ _ _).2 hcycle
  refine htwo.addVersion (v := plan.third.row plan.cycleId 3 blocked) ?_
    (hnone _ hthird) (row_spec _ _ _ _).1 (row_spec _ _ _ _).2 hcycle
  rw [Guardian.setVersion, Guardian.setVersion, Dict.mem_keys_set, Dict.mem_keys_set]
  rintro (he | he | hmem)
  · exact h23 he.symm
  · exact h13 he.symm
  · exact hthird hmem

/-- What a cycle that begins finds: an environment that is free and not on hold. -/
def FreeFor (s : Guardian) (c : Cycle) : Prop :=
  (s.occupancyOf c.environment).cycleId = none ∧ (s.occupancyOf c.environment).safetyHold = false

/-- What no transaction takes back, and what a cycle needs to begin. -/
structure Advances (s s' : Guardian) : Prop where
  cycles : ∀ id c, s.cycles.get? id = some c → c.status.terminal = true →
    ∃ c', s'.cycles.get? id = some c' ∧ c'.status = c.status
  versions : ∀ id v, s.versions.get? id = some v → v.status.terminal = true →
    ∃ v', s'.versions.get? id = some v' ∧ v'.status = v.status
  works : ∀ key work, s.due.get? key = some work → work.state = .completed →
    s'.due.get? key = some work
  begins : ∀ id c, s'.cycles.get? id = some c → c.status = .ready →
    s.cycles.get? id = some c ∨ s.cycles.get? id = none ∧ s.FreeFor c

theorem Steady.advances (h : s.Steady s') : s.Advances s' :=
  ⟨h.cycles, h.versions, h.works, fun id c hc hs => .inl (h.ready id c hc hs)⟩

theorem dueWork_due (h : s'.due = s.due) {operation : GuardianOperation} {sequence : ℕ}
    {due : ℤ} : (s'.dueWork cycle v operation sequence due).due =
      (s.dueWork cycle v operation sequence due).due := by
  unfold dueWork
  simp only [h]
  split_ifs
  · exact h
  · rfl

theorem discover_rows (s : Guardian) (plan : CyclePlan) (resumed : Bool) (now : ℤ) :
    (s.discover plan resumed now).versions =
      (s.addVersions plan (s.blocked plan.environment resumed)).versions ∧
    (s.discover plan resumed now).cycles = s.cycles.set plan.cycleId
      (cycleOf plan (s.blocked plan.environment resumed) now) ∧
    ((s.discover plan resumed now).due = s.due ∧ s.blocked plan.environment resumed = true ∨
      s.blocked plan.environment resumed = false ∧ (s.discover plan resumed now).due =
        (s.dueWork (cycleOf plan false now) (plan.first.row plan.cycleId 1 false) .dispatchVersion 0
          (plan.eligibleAt + hashOffset plan.cycleKey 480 * Runtime.second)).due) := by
  unfold Guardian.discover
  simp only
  cases hblocked : s.blocked plan.environment resumed with
  | true =>
    rw [if_pos rfl]
    exact ⟨rfl, rfl, .inl ⟨rfl, rfl⟩⟩
  | false =>
    rw [if_neg (by decide)]
    have hsame : ((s.addVersions plan false).setCycle (cycleOf plan false now)).due = s.due := rfl
    exact ⟨dueWork_rows.1, dueWork_rows.2.1, .inr ⟨rfl, dueWork_due hsame⟩⟩

/-- A discovered plan is added, and everything else stays. -/
theorem Sound.discover (h : s.Sound) (hfresh : s.Fresh plan) (resumed : Bool) (now : ℤ) :
    (s.discover plan resumed now).Sound ∧ s.Advances (s.discover plan resumed now) ∧
      ∀ p, s.Origin p → (s.discover plan resumed now).Origin p := by
  obtain ⟨proven, hheld⟩ := h.held
  obtain ⟨hversions, hcycles, hdue⟩ := discover_rows s plan resumed now
  have hsequenced := h.sequenced.addVersions hheld.rows hfresh
    (s.blocked plan.environment resumed)
  -- the dispatch of the first version is new
  have hnew : (⟨plan.first.versionExecutionId, .dispatchVersion, 0⟩ : WorkKey) ∉ s.due.keys := by
    intro hmem
    obtain ⟨work, hwork⟩ := Dict.mem_keys_iff.mp hmem
    exact hfresh.2.1 (hheld.rows.mem_of_worked ⟨_, work, hwork, rfl⟩)
  have hkept : ∀ k w, s.due.get? k = some w →
      (s.discover plan resumed now).due.get? k = some w := by
    intro k w hw
    rcases hdue with ⟨hd, -⟩ | ⟨-, hd⟩
    · rwa [hd]
    · rw [hd, dueWork_opens _ _ hnew, Dict.get?_set, if_neg]
      · exact hw
      · rintro rfl
        exact hnew (Dict.mem_keys_iff.mpr ⟨w, hw⟩)
  have hcycle : ∀ id x, s.cycles.get? id = some x → id ≠ plan.cycleId := fun id x hx he =>
    hfresh.1 (he ▸ Dict.mem_keys_iff.mpr ⟨x, hx⟩)
  have hfirst : ∀ blocked, (s.addVersions plan blocked).versions.get?
      plan.first.versionExecutionId = some (plan.first.row plan.cycleId 1 blocked) := by
    intro blocked
    obtain ⟨-, -, -, -, h12, h13, -⟩ := hfresh
    simp [Guardian.addVersions, Guardian.setVersion, row_id, h12, h13]
  refine ⟨⟨⟨proven, hheld.discover hfresh resumed now⟩, ?_, ?_⟩, ⟨?_, ?_, ?_, ?_⟩, ?_⟩
  · -- the versions of the new cycle are planned if it goes on
    have hadded : ((s.addVersions plan (s.blocked plan.environment resumed)).setCycle
        (cycleOf plan (s.blocked plan.environment resumed) now)).Sequenced := by
      refine hsequenced.setCycle fun hgoing id w hw hin _ => ?_
      rcases addVersions_back hw with hold | ⟨-, -, -, hstatus⟩
      · obtain ⟨x, hx⟩ := hheld.homed id w hold
        exact absurd hin (hcycle _ x hx)
      · cases hblocked : s.blocked plan.environment resumed with
        | true =>
          rw [hblocked] at hgoing
          cases hgoing
        | false =>
          rwa [hblocked] at hstatus
    rcases hdue with ⟨hd, -⟩ | ⟨hblocked, hd⟩
    · exact hadded.congr hversions hd hcycles
    · rw [hblocked] at hadded hversions hcycles
      have hwork : (((s.addVersions plan false).setCycle (cycleOf plan false now)).dueWork
          (cycleOf plan false now) (plan.first.row plan.cycleId 1 false) .dispatchVersion 0
          (plan.eligibleAt + hashOffset plan.cycleKey 480 * Runtime.second)).Sequenced :=
        hadded.dueWork (hfirst false) (Nat.zero_le _) (fun _ => rfl) (fun ht => by cases ht)
          fun _ => rfl
      have hsame : ((s.addVersions plan false).setCycle (cycleOf plan false now)).due = s.due := rfl
      refine hwork.congr (hversions.trans ?_) (hd.trans (dueWork_due hsame).symm)
        (hcycles.trans ?_)
      · rw [dueWork_rows.1]
        rfl
      · rw [dueWork_rows.2.1]
        rfl
  · intro id x hx hgoing
    rw [hcycles, Dict.get?_set] at hx
    split_ifs at hx with hid
    · cases hx
      rcases hdue with ⟨-, hblocked⟩ | ⟨hblocked, hd⟩
      · rw [hblocked] at hgoing
        cases hgoing
      · rw [hblocked] at hversions
        refine ⟨⟨plan.first.versionExecutionId, .dispatchVersion, 0⟩,
          plan.first.row plan.cycleId 1 false, ⟨DueWork.new (cycleOf plan false now).eligibleAt
            (plan.eligibleAt + hashOffset plan.cycleKey 480 * Runtime.second), ?_, (by rintro ⟨⟩)⟩, ?_,
          hid.symm⟩
        · rw [hd, dueWork_opens _ _ hnew]
          exact (Dict.get?_set _ _ _ _).trans (if_pos rfl)
        · rw [hversions]
          exact hfirst false
    · obtain ⟨key, w, ⟨work, hwork, hne⟩, hw, hin⟩ := h.going id x hx hgoing
      exact ⟨key, w, ⟨work, hkept key work hwork, hne⟩,
        by rw [hversions]; exact hfresh.keeps hw, hin⟩
  · intro id x hx _
    refine ⟨x, ?_, rfl⟩
    rwa [hcycles, Dict.get?_set, if_neg (hcycle id x hx)]
  · exact fun id w hw _ => ⟨w, by rw [hversions]; exact hfresh.keeps hw, rfl⟩
  · exact fun key work hwork _ => hkept key work hwork
  · intro _ x hx hready
    rw [hcycles, Dict.get?_set] at hx
    split_ifs at hx with hid
    · cases hx
      right
      cases hblocked : s.blocked plan.environment resumed with
      | true =>
        rw [hblocked] at hready
        cases hready
      | false =>
        simp only [blocked, Bool.or_eq_false_iff, decide_eq_false_iff_not, not_not] at hblocked
        exact ⟨hid ▸ Dict.get?_eq_none_iff.mpr hfresh.1, hblocked.1.1, hblocked.1.2⟩
    · exact .inl hx
  · rintro p ⟨hop, work, hwork, hstarted⟩
    exact ⟨hop, work, hkept _ work hwork, hstarted⟩

end Guardian

end LocalAgent.Runtime
