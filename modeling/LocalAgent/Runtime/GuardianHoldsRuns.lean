import LocalAgent.Runtime.GuardianHoldTransactions

/-!
# LocalAgent.Runtime.GuardianHoldsRuns — the releases of an environment over whole runs

* `environment_released`: a run whose certain failures follow no uncertain outcome, and whose
  resolutions are about unresolved versions, releases an environment only with all that it asks.
* `uncertain_version_released`: a certain failure after an uncertain outcome releases it without.
-/

namespace LocalAgent.Runtime

namespace HeldScope

open Guardian

variable {s s' : HeldScope}

/-! ## The scope -/

/-- What every step keeps. -/
structure Inv (s : HeldScope) : Prop where
  held : s.guardian.Held s.uncertain (s.sealedIds ++ s.resolutions.map Resolution.versionId)
  origin : ∀ p ∈ s.prepared, p.operation = .fetchTerminalResult →
    p.claim.workKey.operation = .fetchTerminalResult
  final : ∀ r ∈ s.resolutions, r.Final ∧ r.version.status = .unresolved

theorem inv_initial (scope : String) (dbNow now : ℤ) : (initial scope dbNow now).Inv := by
  have hnone : ∀ {κ ν : Type} [DecidableEq κ] {k : κ} {v : ν},
      (Dict.empty : Dict κ ν).get? k ≠ some v := fun h => nomatch h
  refine ⟨⟨⟨?_, ?_, ?_, ?_, ?_, ?_, ?_, ?_, ?_⟩, ?_, ?_, ?_, ?_, nofun, ?_, ?_⟩, nofun, fun _ hr => absurd hr List.not_mem_nil⟩
  · exact fun id v h => absurd h hnone
  · exact fun i v j w h => absurd h hnone
  · exact fun key work h => absurd h hnone
  · exact fun k k' ⟨w, h, _⟩ => absurd h hnone
  · exact fun id v h => absurd h hnone
  · exact fun key work v h => absurd h hnone
  · exact fun id v h => absurd h hnone
  · exact fun key work v h => absurd h hnone
  · exact fun key work operation h => absurd h hnone
  · exact fun id c h => absurd h hnone
  · exact fun id v h => absurd h hnone
  · exact fun id c h => absurd h hnone
  · exact fun key v ⟨w, h, _⟩ => absurd h hnone
  · exact fun id v h => absurd h hnone
  · exact fun id v c h => absurd h hnone

theorem Inv.rejected (h : s.Inv) (error : GuardianError) :
    { s with guardian := s.guardian.rejected error }.Inv := by
  refine ⟨?_, h.origin, h.final⟩
  cases error with
  | staleClaim =>
    exact h.held.works_only (h.held.rows.congr rfl rfl) rfl rfl rfl (fun _ hk => hk)
      fun _ hw => hw
  | raised => exact h.held

theorem Inv.prepare (h : s.Inv) (claim : WorkClaim) (collections : ℕ) :
    (s.prepareWork claim collections).Inv := by
  unfold prepareWork
  split
  · rename_i error _
    exact h.rejected error
  · rename_i work cycle version hlocked
    refine ⟨h.held.prepareLocked hlocked collections, ?_, h.final⟩
    intro p hp hop
    rcases List.mem_append.mp hp with hp | hp
    · exact h.origin p hp hop
    · exact prepareLocked_fetch (Option.mem_toList.mp hp) hop

theorem Inv.finish (h : s.Inv) {work : PreparedWork} (hwork : work ∈ s.prepared)
    {outcome : ProviderOutcome} (hsafe : s.Safe (.finish work outcome)) :
    (s.finishWork work outcome).Inv := by
  unfold finishWork
  split
  · rename_i row cycle version guardian hlocked hfinish
    obtain ⟨hrow, hheld, hversion, hcycle⟩ := locked_spec hlocked
    rw [Guardian.finish, hlocked] at hfinish
    simp only at hfinish
    split_ifs at hfinish with hterminal
    split at hfinish
    · cases hfinish
    · rename_i t hsettle
      cases hfinish
      refine ⟨?_, h.origin, h.final⟩
      rw [List.append_assoc]
      refine h.held.finish (h.origin work hwork) ⟨hrow, hheld, hversion, hcycle⟩ ?_ hsettle
      rintro hop _ rfl
      exact fun _ => hsafe row cycle version hlocked hop
  · exact h.rejected _
  · exact h

theorem Inv.resolve (h : s.Inv) {versionId : String} {lookup : LookupResult}
    {packet : Option EvidencePacket} (hsafe : s.Safe (.resolveHold versionId lookup packet)) :
    (s.resolve versionId lookup packet).Inv := by
  unfold HeldScope.resolve
  split
  · rename_i version guardian hversion hresolve
    obtain ⟨v, cycle, hv, hcycle, hstatus, hoccupied, hproof, rfl⟩ := resolveHold_spec hresolve
    cases hversion.symm.trans hv
    have hunresolved := hsafe version hversion hproof
    refine ⟨?_, h.origin, List.forall_mem_cons.mpr ⟨⟨hproof, hunresolved⟩, h.final⟩⟩
    refine h.held.resolve hversion hcycle hstatus hoccupied hunresolved (fun i hi => ?_)
      (List.mem_append_right _ List.mem_cons_self)
    exact (List.mem_append.mp hi).elim (List.mem_append_left _) fun hi =>
      List.mem_append_right _ (List.mem_cons_of_mem _ hi)
  · exact h

/-- Every safe action keeps the holds and what was proven about them. -/
theorem Inv.step (h : s.Inv) {a : Action} (hsafe : s.Safe a) (hstep : s.step a = some s') :
    s'.Inv := by
  cases a with
  | tick =>
    cases hstep
    exact ⟨h.held, h.origin, h.final⟩
  | discover _ resumed =>
    simp only [HeldScope.step] at hstep
    split_ifs at hstep with hfresh
    cases hstep
    exact ⟨h.held.discover hfresh resumed s.now, h.origin, h.final⟩
  | claimDue =>
    cases hstep
    exact ⟨h.held.claimDue, h.origin, h.final⟩
  | prepare claim collections =>
    cases hstep
    exact h.prepare claim collections
  | finish =>
    simp only [HeldScope.step] at hstep
    split_ifs at hstep with hwork
    cases hstep
    exact h.finish hwork hsafe
  | resolveHold =>
    cases hstep
    exact h.resolve hsafe

theorem Inv.proven (h : s.Inv) {id : String}
    (hid : id ∈ s.sealedIds ++ s.resolutions.map Resolution.versionId) : s.Proven id := by
  refine (List.mem_append.mp hid).imp_right fun hr => ?_
  obtain ⟨r, hmem, rfl⟩ := List.mem_map.mp hr
  exact ⟨r, hmem, rfl, (h.final r hmem).1⟩

/-- In a run whose certain failures follow no uncertain outcome and whose resolutions are about
unresolved versions, an environment is released only when nothing of its cycle is open, and a hold
is released only with final proof. -/
theorem environment_released {scope : String} {dbNow now : ℤ} {acts : List Action}
    (hsafe : Trace.Along step Safe (initial scope dbNow now) acts)
    (hrun : Trace.run step (initial scope dbNow now) acts = some s) : s.Released := by
  have hinv : s.Inv := Trace.run_keeps (fun _ _ _ hs hstep h => h.step hs hstep) hsafe hrun
    (inv_initial scope dbNow now)
  refine ⟨fun id version cycle hversion hcycle => ?_, hinv.final⟩
  refine (hinv.held.released id version cycle hversion hcycle).imp_right fun hfinal => ?_
  exact ⟨fun ha => (hfinal.1 ha).imp_right fun hp => hp.imp_left hinv.proven,
    fun hu => hinv.proven (hfinal.2 hu)⟩

end HeldScope

namespace HeldScope

open Guardian

/-! ### A certain failure after an uncertain one -/

def sampleVersion (ordinal : ℕ) (id : String) : PlannedVersion :=
  ⟨id, id, 1, ⟨"provider", "nightly", ⟨"lab", "stable", "project", "suite", ordinal, id⟩⟩, id, id⟩

def samplePlan : CyclePlan where
  cycleId := "cycle"
  cycleKey := "2026-01-01"
  environment := "lab"
  eligibleAt := 0
  first := sampleVersion 1 "V1"
  second := sampleVersion 2 "V2"
  third := sampleVersion 3 "V3"

def sampleClaim (sequence : ℕ) (token : String) (epoch : ℕ) : WorkClaim :=
  ⟨⟨"V1", .dispatchVersion, sequence⟩, token, epoch, "V1"⟩

/-- The worker of the first submit request is lost, and its work is taken over as a lookup. -/
def sampleLost : List Action :=
  [.discover samplePlan true, .tick 600000000 600000000,
    .claimDue [((sampleClaim 0 "first" 1).workKey, "first")], .prepare (sampleClaim 0 "first" 1) 0,
    .tick 31000000 31000000, .claimDue [((sampleClaim 0 "second" 2).workKey, "second")],
    .prepare (sampleClaim 0 "second" 2) 0]

def sampleLookup (lookup : LookupResult) : Action :=
  .finish ⟨sampleClaim 0 "second" 2, .reconcileRemote, .lookup "V1" "V1", some 2⟩
    (.looked (some lookup))

/-- The lookup does not find the request, which is sent again and fails for certain. -/
def sampleAgain : List Action :=
  [sampleLookup .notCreated, .tick 31000000 31000000,
    .claimDue [((sampleClaim 1 "third" 1).workKey, "third")], .prepare (sampleClaim 1 "third" 1) 0,
    .finish ⟨sampleClaim 1 "third" 1, .dispatchVersion, .submit (sampleVersion 1 "V1").request,
      none⟩ (.error "REJECTED" false)]

/-- The time of the lookups ends, and the version is unresolved. -/
def sampleUnresolved : List Action :=
  sampleLost ++ [.tick 2280000000 2280000000,
    .claimDue [((sampleClaim 0 "third" 3).workKey, "third")], .prepare (sampleClaim 0 "third" 3) 0]

/-- An operator's lookup that proves nothing. -/
def sampleRefused : List Action :=
  sampleUnresolved ++ [.resolveHold "V1" .notCreated none]

/-- The operator brings a seal. -/
def sampleResolved : List Action :=
  sampleRefused ++ [.resolveHold "V1" (.notCreatedFinal ⟨"provider", "V1", "V1", 0⟩) none]

/-- The first version is unresolved. -/
def sampleHeld (s : HeldScope) : Bool :=
  (s.guardian.versions.get? "V1").any fun v => v.status = .unresolved

theorem sampleUnresolved_safe : ∀ a ∈ sampleUnresolved, ∀ s : HeldScope, s.Safe a := by
  unfold sampleUnresolved sampleLost sampleClaim
  simp [Safe]

theorem safe_of_held {s : HeldScope} (h : sampleHeld s = true) (lookup : LookupResult)
    (packet : Option EvidencePacket) : s.Safe (.resolveHold "V1" lookup packet) := by
  obtain ⟨v, hv, hstatus⟩ := exists_of_any h
  intro version hversion _
  cases hv.symm.trans hversion
  exact hstatus

theorem environment_released_sampleResolved :
    ∃ s, Trace.run step (initial "nightly" 0 0) sampleResolved = some s ∧
      s.resolutions.length = 1 ∧ s.Released := by
  obtain ⟨u, hu, hheld⟩ := (Option.any_eq_true sampleHeld
    (Trace.run step (initial "nightly" 0 0) sampleUnresolved)).mp (by decide +kernel)
  obtain ⟨t, ht, hstill⟩ := (Option.any_eq_true sampleHeld
    (Trace.run step (initial "nightly" 0 0) sampleRefused)).mp (by decide +kernel)
  obtain ⟨s, hs, hone⟩ := exists_of_any (p := fun s => s.resolutions.length = 1)
    (show (Trace.run step (initial "nightly" 0 0) sampleResolved).any _ = true by decide +kernel)
  refine ⟨s, hs, hone, environment_released ?_ hs⟩
  have hsafe : Trace.Along step Safe (initial "nightly" 0 0) sampleRefused :=
    (Trace.along_append hu).mpr ⟨Trace.along_of_forall sampleUnresolved_safe _,
      safe_of_held hheld _ _, fun _ _ => trivial⟩
  exact (Trace.along_append ht).mpr ⟨hsafe, safe_of_held hstill _ _, fun _ _ => trivial⟩

/-- The environment of the sample is free, and its first version is uncertain. -/
def sampleFreed (s : HeldScope) : Bool :=
  (s.guardian.versions.get? "V1").any (fun v => v.submitAttempts ≠ 0 && !v.terminalKnown &&
    v.cycleId = "cycle") &&
  (s.guardian.cycles.get? "cycle").any (fun c => c.environment = "lab") &&
  (s.guardian.occupancies.get? "lab").any (fun o => o.cycleId = none) &&
  decide ("V1" ∈ s.uncertain) && s.sealedIds = [] && s.resolutions.isEmpty

theorem sampleFreed_not_released {s : HeldScope} (h : sampleFreed s = true) : ¬s.Released := by
  simp only [sampleFreed, Bool.and_eq_true, Option.any_eq_true, decide_eq_true_eq,
    Bool.not_eq_true'] at h
  obtain ⟨⟨⟨⟨⟨⟨v, hv, ⟨hattempts, hended⟩, hcycle⟩, c, hc, henv⟩, o, ho, hfree⟩, hid⟩, hsealed⟩,
    hobserved⟩ := h
  intro hreleased
  rcases hreleased.1 "V1" v c hv (hcycle ▸ hc) with ⟨_, ho', hcid⟩ | ⟨hfinal, -⟩
  · rw [henv, ho] at ho'
    cases ho'
    rw [hfree] at hcid
    cases hcid
  · rcases hfinal hattempts with ht | hp | hnot
    · rw [hended] at ht
      cases ht
    · rw [Proven, hsealed, List.isEmpty_iff.mp hobserved] at hp
      exact hp.elim (by simp) (by simp)
    · exact hnot hid

/-- A certain failure releases the environment of a version that is still uncertain. -/
theorem uncertain_version_released :
    ¬∀ (s : HeldScope) (acts : List Action),
      Trace.run step (initial "nightly" 0 0) acts = some s → s.Released := by
  intro hclaim
  obtain ⟨s, hs, hfreed⟩ := (Option.any_eq_true sampleFreed
    (Trace.run step (initial "nightly" 0 0) (sampleLost ++ sampleAgain))).mp (by decide +kernel)
  exact sampleFreed_not_released hfreed (hclaim s _ hs)

end HeldScope

end LocalAgent.Runtime
