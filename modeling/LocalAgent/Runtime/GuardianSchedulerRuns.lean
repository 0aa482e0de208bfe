import LocalAgent.Runtime.GuardianHoldsRuns
import LocalAgent.Runtime.GuardianSchedulerSteps

/-!
# LocalAgent.Runtime.GuardianSchedulerRuns — runs of all transactions of a scope

* `SchedulerScope.Orderly`: the cycles and versions of a scope in one state.
* `scheduler_orderly`: what holds in every run.
-/

namespace LocalAgent.Runtime

namespace SchedulerScope

open Guardian

variable {s s' : SchedulerScope}

/-- What every step keeps. -/
structure Inv (s : SchedulerScope) : Prop where
  sound : s.guardian.Sound
  origin : ∀ p ∈ s.prepared, s.guardian.Origin p

theorem inv_initial (scope : String) (guardians : Dict String GuardianRow) (dbNow now : ℤ) :
    (initial scope guardians dbNow now).Inv := by
  have hnone : ∀ {κ ν : Type} [DecidableEq κ] {k : κ} {v : ν},
      (Dict.empty : Dict κ ν).get? k ≠ some v := fun h => nomatch h
  refine ⟨⟨⟨[], (HeldScope.inv_initial scope dbNow now).held⟩, ?_, fun id c h => absurd h hnone⟩,
    nofun⟩
  refine ⟨?_, ?_, ?_, ?_, ?_, ?_, ?_, ?_, ?_, ?_⟩
  · exact fun key work v h => absurd h hnone
  · exact fun key work v h => absurd h hnone
  · exact fun key work v h => absurd h hnone
  · exact fun key work h => absurd h hnone
  · exact fun key work v h => absurd h hnone
  · exact fun key v ⟨w, h, _⟩ => absurd h hnone
  · exact fun id v h => absurd h hnone
  · exact fun id v h => absurd h hnone
  · exact fun key work v h => absurd h hnone
  · exact fun id v h => absurd h hnone

theorem Origin.steady {t t' : Guardian} (h : t.Steady t') {p : PreparedWork} (hp : t.Origin p) :
    t'.Origin p := by
  obtain ⟨hop, work, hwork, hstarted⟩ := hp
  exact ⟨hop, h.started _ work hwork hstarted⟩

theorem Inv.steady (h : s.Inv) {t : Guardian} (hsound : t.Sound) (hsteady : s.guardian.Steady t) :
    { s with guardian := t }.Inv ∧ s.guardian.Advances t :=
  ⟨⟨hsound, fun p hp => Origin.steady hsteady (h.origin p hp)⟩, hsteady.advances⟩

theorem Inv.settled (h : s.Inv) {result : Except GuardianError Guardian}
    (hok : ∀ t, result = .ok t → t.Sound ∧ s.guardian.Steady t) :
    (s.settled result).Inv ∧ s.guardian.Advances (s.settled result).guardian := by
  cases result with
  | error error => exact h.steady (h.sound.rejected error) (steady_rejected error)
  | ok t =>
    obtain ⟨hsound, hsteady⟩ := hok t rfl
    exact h.steady hsound hsteady

theorem Inv.prepare (h : s.Inv) (claim : WorkClaim) (collections : ℕ) :
    (s.prepare claim collections).Inv ∧
      s.guardian.Advances (s.prepare claim collections).guardian := by
  unfold SchedulerScope.prepare
  split
  · exact h.settled (nofun)
  · rename_i t prepared hok
    obtain ⟨hsound, hsteady, horigin⟩ := h.sound.prepare hok
    refine ⟨⟨hsound, fun p hp => ?_⟩, hsteady.advances⟩
    rcases List.mem_append.mp hp with hp | hp
    · exact Origin.steady hsteady (h.origin p hp)
    · exact horigin p (Option.mem_toList.mp hp)

/-- Every action keeps the scheduler sound and only advances it. -/
theorem Inv.step (h : s.Inv) {a : Action} (hstep : s.step a = some s') :
    s'.Inv ∧ s.guardian.Advances s'.guardian := by
  have hstay : s.guardian.Advances s.guardian := (Steady.refl s.guardian).advances
  cases a with
  | tick =>
    cases hstep
    exact ⟨⟨h.sound, h.origin⟩, hstay⟩
  | setEnabled =>
    cases hstep
    unfold setEnabled
    split
    · exact ⟨h, hstay⟩
    · exact ⟨⟨h.sound, h.origin⟩, hstay⟩
  | discover _ day plan resumed =>
    simp only [SchedulerScope.step] at hstep
    split_ifs at hstep with hfresh
    split at hstep
    · cases hstep
      exact ⟨h, hstay⟩
    · rename_i row _
      cases hstep
      unfold SchedulerScope.discover
      simp only
      split_ifs with hskip
      · exact ⟨h, hstay⟩
      · have hfresh' : s.guardian.Fresh (planOf row day plan) := hfresh
        obtain ⟨hsound, hadvances, horigin⟩ := h.sound.discover hfresh' resumed s.now
        exact ⟨⟨hsound, fun p hp => horigin p (h.origin p hp)⟩, hadvances⟩
  | claimDue =>
    cases hstep
    exact h.steady h.sound.claimDue steady_claimDue
  | prepare claim collections =>
    cases hstep
    exact h.prepare claim collections
  | finish work =>
    simp only [SchedulerScope.step] at hstep
    split_ifs at hstep with hwork
    cases hstep
    exact h.settled fun t hok => h.sound.finish (h.origin work hwork) hok
  | recover =>
    cases hstep
    exact h.settled fun t hok => h.sound.recover hok
  | resolveHold versionId lookup packet =>
    cases hstep
    refine h.settled fun t hok => ?_
    cases hresolve : s.guardian.resolveHold versionId lookup packet with
    | error =>
      rw [hresolve] at hok
      cases hok
    | ok result =>
      obtain ⟨_, _⟩ := result
      rw [hresolve] at hok
      cases hok
      exact h.sound.resolveHold hresolve

/-! ## What the rows say -/

/-- The version may be asked for by the provider, or is. -/
def underway (v : Version) : Bool := v.status = .dispatching || v.status = .active

/-- The cycles and versions of a scope in one state. -/
structure Orderly (s : Guardian) : Prop where
  /-- one cycle at the most goes on in an environment, the one that occupies it -/
  occupied : ∀ id c, s.cycles.get? id = some c → c.status.terminal = false → s.Occupied c
  alone : ∀ i c j d, s.cycles.get? i = some c → s.cycles.get? j = some d →
    c.environment = d.environment → c.status.terminal = false → d.status.terminal = false → i = j
  serial : ∀ i v j w, s.versions.get? i = some v → s.versions.get? j = some w →
    w.cycleId = v.cycleId → w.ordinal < v.ordinal →
    v.submitAttempts ≠ 0 ∨ underway v = true → w.status = .completed
  single : ∀ i v j w, s.versions.get? i = some v → s.versions.get? j = some w →
    v.cycleId = w.cycleId → underway v = true → underway w = true → i = j
  /-- a cycle that goes on has one work that is not completed -/
  pending : ∀ id c, s.cycles.get? id = some c → c.status.terminal = false →
    ∃! key, s.Open key ∧ ∃ v, s.versions.get? key.versionId = some v ∧ v.cycleId = id

/-- A sound scheduler is orderly. -/
theorem Sound.orderly {s : Guardian} (h : s.Sound) : Orderly s := by
  obtain ⟨_, hheld⟩ := h.held
  have hworked : ∀ i v, s.versions.get? i = some v → v.submitAttempts ≠ 0 ∨ underway v = true →
      s.Worked i := by
    rintro i v hv (hattempts | hunder)
    · exact hheld.rows.attempted i v hv hattempts
    · simp only [underway, Bool.or_eq_true, decide_eq_true_eq] at hunder
      refine h.sequenced.begun i v hv ?_ ?_ <;> rcases hunder with hs | hs <;> rw [hs] <;> decide
  have hopened : ∀ key, s.Open key → s.Worked key.versionId := fun key ⟨work, hwork, _⟩ =>
    ⟨key, work, hwork, rfl⟩
  refine ⟨hheld.live, ?_, ?_, ?_, ?_⟩
  · intro i c j d hc hd henv hgoing hgoing'
    obtain ⟨o, ho, hoc⟩ := hheld.live i c hc hgoing
    obtain ⟨_, ho', hod⟩ := hheld.live j d hd hgoing'
    rw [henv, ho'] at ho
    cases ho
    rw [hoc] at hod
    rw [← hheld.keyed i c hc, ← hheld.keyed j d hd]
    exact Option.some.inj hod
  · intro i v j w hv hw hin hordinal hsent
    obtain ⟨key, work, hwork, rfl⟩ := hworked i v hv hsent
    obtain ⟨_, hv', hlower⟩ := hheld.rows.placed key work hwork
    cases hv.symm.trans hv'
    exact hlower j w hw hin hordinal
  · intro i v j w hv hw hin hunder hunder'
    have hnot : ∀ x : Version, underway x = true → x.status ≠ .completed := by
      intro x hx hc
      rw [underway, hc] at hx
      cases hx
    exact ((hheld.rows.worked_unique hv (hworked i v hv (.inr hunder)) (hnot v hunder) hw hin.symm
      (hworked j w hw (.inr hunder'))).resolve_right (hnot w hunder')).symm
  · intro id c hc hgoing
    obtain ⟨key, v, hopen, hv, hin⟩ := h.going id c hc hgoing
    refine ⟨key, ⟨hopen, v, hv, hin⟩, ?_⟩
    rintro k ⟨hk, w, hw, hwin⟩
    obtain ⟨halive, -⟩ := hheld.works key v hopen hv
    obtain ⟨halive', -⟩ := hheld.works k w hk hw
    have hnot : ∀ x : Version, x.status.terminal = false → x.status ≠ .completed := by
      intro x hx hc
      rw [hc] at hx
      cases hx
    have hsame : k.versionId = key.versionId :=
      (hheld.rows.worked_unique hv (hopened key hopen) (hnot v halive) hw (hwin.trans hin.symm)
        (hopened k hk)).resolve_right (hnot w halive')
    exact hheld.rows.unique k key hk hopen hsame

/-- A preparation or an end whose claim does not hold its work changes the counter of stale writes
and nothing else. -/
def StaleHarmless (s : SchedulerScope) : Prop :=
  ∀ claim, (∀ work, s.guardian.due.get? claim.workKey = some work →
      holds work claim s.dbNow = false) →
    (∀ collections, s.prepare claim collections =
      { s with guardian := s.guardian.rejected .staleClaim }) ∧
    ∀ work outcome, work.claim = claim →
      s.settled (s.guardian.finish s.dbNow s.now work outcome) =
        { s with guardian := s.guardian.rejected .staleClaim }

/-- A claim that is no longer held changes nothing. -/
theorem stale_harmless (s : SchedulerScope) : s.StaleHarmless := by
  intro claim hnot
  have hstale : s.guardian.locked s.dbNow claim = .error .staleClaim := by
    unfold Guardian.locked
    split
    · rfl
    · rename_i work hwork
      rw [if_neg (by rw [hnot work hwork]; decide)]
  constructor
  · intro _
    unfold SchedulerScope.prepare Guardian.prepare
    rw [hstale]
    rfl
  · rintro _ _ rfl
    unfold Guardian.finish
    rw [hstale]
    rfl

theorem holds_unique {work : DueWork} {dbNow : ℤ} {a b : WorkClaim}
    (ha : holds work a dbNow = true) (hb : holds work b dbNow = true) :
    a.token = b.token ∧ a.epoch = b.epoch := by
  simp only [holds, Bool.and_eq_true, decide_eq_true_eq] at ha hb
  exact ⟨Option.mem_unique ha.1.1.1.2 hb.1.1.1.2, ha.1.1.2.symm.trans hb.1.1.2⟩

/-- In every run the cycles and versions are orderly; no transaction takes back an end or a
completed work, or begins a cycle in an environment that is not free; one claim on a work passes,
and a stale one is only counted. -/
theorem scheduler_orderly {scope : String} {guardians : Dict String GuardianRow} {dbNow now : ℤ}
    {acts : List Action}
    (hrun : Trace.run step (initial scope guardians dbNow now) acts = some s) :
    Orderly s.guardian ∧ (∀ a s', s.step a = some s' → s.guardian.Advances s'.guardian) ∧
      (∀ key work, s.guardian.due.get? key = some work → ∀ dbNow a b,
        holds work a dbNow = true → holds work b dbNow = true →
          a.token = b.token ∧ a.epoch = b.epoch) ∧ s.StaleHarmless := by
  have hinv : s.Inv := Trace.run_invariant (fun _ _ _ hstep h => (h.step hstep).1) hrun
    (inv_initial scope guardians dbNow now)
  exact ⟨Sound.orderly hinv.sound, fun a s' hstep => (hinv.step hstep).2,
    fun _ _ _ _ _ _ ha hb => holds_unique ha hb, stale_harmless s⟩

/-- One guardian, its day, and the worker that is lost after its submit request. -/
def sampleGuardians : Dict String GuardianRow :=
  Dict.empty.set "guardian" ⟨"guardian", "lab", true⟩

def sampleRun : List Action :=
  [.discover "guardian" "2026-01-01" HeldScope.samplePlan true, .tick 600000000 600000000,
    .claimDue [((HeldScope.sampleClaim 0 "first" 1).workKey, "first")],
    .prepare (HeldScope.sampleClaim 0 "first" 1) 0, .tick 31000000 31000000,
    .recover 1 [⟨"V1", .pollRemote, 1⟩] ["V1"],
    .claimDue [((HeldScope.sampleClaim 0 "second" 2).workKey, "second")],
    .prepare (HeldScope.sampleClaim 0 "second" 2) 0]

theorem scheduler_orderly_sampleRun :
    ∃ s, Trace.run step (initial "nightly" sampleGuardians 0 0) sampleRun = some s ∧
      Orderly s.guardian := by
  obtain ⟨s, hs⟩ := Option.isSome_iff_exists.mp (show (Trace.run step
    (initial "nightly" sampleGuardians 0 0) sampleRun).isSome = true by decide +kernel)
  exact ⟨s, hs, (scheduler_orderly hs).1⟩

end SchedulerScope

end LocalAgent.Runtime
