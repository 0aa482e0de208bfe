import LocalAgent.Runtime.ModelRouting

/-!
# LocalAgent.Runtime.ModelRoutingChain — from a selected profile to a chain of candidates

* `select_sound`: what holds of a selected profile.
* `Admits`, `chain`: which profiles the router takes, and the chain they make (`route_eq`).
* `selected_is_routed`: the router starts its chain with the selected profile exactly when the
  flags and the cost it looks at on its own pass as well (`Agrees`).
* `selected_profile_replaced`: a selection the router silently replaces by another profile.
-/

namespace LocalAgent.Runtime

open ModelSelectionPolicy

/-! ## Budgets -/

def Covers (snapshot : BudgetSnapshot) (amount : Dimension → ℤ) : Prop :=
  (∀ t ∈ snapshot.remainingTimeSeconds, 0 < t) ∧
    ∀ d, snapshot.runBudget.limit d ≠ none → amount d ≤ snapshot.remaining.amount d

variable {snapshot : BudgetSnapshot} {usage : BudgetUsage} {tokens : ℤ}
  {eligible : List ModelProfile}

/-- A call is affordable exactly when the snapshot covers each dimension that it uses. -/
theorem feasible_iff :
    BudgetPolicy.feasible snapshot usage = true ↔ Covers snapshot usage.amount := by
  unfold BudgetPolicy.feasible Covers
  by_cases htime : ∃ t ∈ snapshot.remainingTimeSeconds, t ≤ 0
  · rw [if_pos htime]
    obtain ⟨t, ht, hle⟩ := htime
    refine iff_of_false Bool.false_ne_true ?_
    rintro ⟨hpos, -⟩
    exact absurd (hpos t ht) (not_lt.mpr hle)
  · rw [if_neg htime, List.all_eq_true]
    push Not at htime
    constructor
    · intro h
      refine ⟨htime, fun d hd => ?_⟩
      simpa [hd] using h d (Dimension.mem_all d)
    · rintro ⟨-, h⟩ d -
      by_cases hd : snapshot.runBudget.limit d = none
      · simp [hd]
      · simpa [hd] using h d hd

variable {remote : ℤ} {p : ModelProfile} {cost rawRequired : ℤ}

theorem callUsage_ok (htokens : 0 ≤ tokens) (hremote : 0 ≤ remote) (hcost : 0 ≤ cost) :
    ∃ usage, callUsage p tokens remote cost = .ok usage ∧
      usage.amount = callAmount p tokens remote cost := by
  have hneg : ∀ d, 0 ≤ callAmount p tokens remote cost d := by
    intro d
    cases d <;> simp only [callAmount] <;> omega
  unfold callUsage BudgetUsage.make
  rw [dif_pos hneg, dif_pos fun _ => by simp [callAmount]]
  exact ⟨_, rfl, rfl⟩

theorem callUsage_spec (h : callUsage p tokens remote cost = .ok usage) :
    0 ≤ tokens ∧ usage.amount = callAmount p tokens remote cost := by
  have hamount := BudgetUsage.make_amount h
  refine ⟨?_, hamount⟩
  have := usage.nonneg .inputTokens
  rwa [hamount] at this

/-- Which source the call has matters only for the dimensions that the run limits. -/
theorem covers_callAmount
    {remote' cost' : ℤ} (h : Covers snapshot (callAmount p tokens remote cost)) :
    Covers snapshot (callAmount p tokens remote' cost') ↔
      (snapshot.runBudget.limit .costUnits ≠ none → cost' ≤ snapshot.remaining.amount .costUnits) ∧
      (snapshot.runBudget.limit .remoteModelCalls ≠ none →
        remote' ≤ snapshot.remaining.amount .remoteModelCalls) := by
  constructor
  · rintro ⟨-, hcovers⟩
    exact ⟨hcovers .costUnits, hcovers .remoteModelCalls⟩
  · rintro ⟨hcost, hremote⟩
    refine ⟨h.1, fun d hd => ?_⟩
    have hold := h.2 d hd
    cases d with
    | costUnits => exact hcost hd
    | remoteModelCalls => exact hremote hd
    | _ => exact hold

/-! ## What is selected -/

variable {selection : ModelSelectionPolicy} {request : ModelSelectionRequest}

structure Selected (selection : ModelSelectionPolicy) (request : ModelSelectionRequest)
    (p : ModelProfile) : Prop where
  mem : p ∈ request.availableProfiles
  distinct : (request.availableProfiles.map ModelProfile.profileId).Nodup
  present : missing p request.capabilityRequirements
    (requiredContextWindow selection.contextWindowSafetyRatio
      request.contextRequirements.minimumContextWindow) = []
  covered : ∀ snapshot ∈ request.budgetSnapshot, ∃ usage,
    estimatedUsage p request.contextRequirements.estimatedInputTokens = .ok usage ∧
      BudgetPolicy.feasible snapshot usage = true
  metadata : request.budgetSnapshot ≠ none →
    ¬ (metadataNeeded request.selectionObjective request.budgetSnapshot = true ∧
      p.costProfile = none)

variable {profileId : ModelProfileId} {profiles : List ModelProfile}

theorem lookup_some
    (h : lookup profiles profileId = some p) : p ∈ profiles ∧ p.profileId = profileId :=
  ⟨List.mem_of_find?_eq_some h, by simpa using List.find?_some h⟩

theorem among_lookup (h : among (lookup profiles profileId) eligible = true) :
    ∃ p ∈ eligible, p.profileId = profileId := by
  obtain ⟨p, hp, hmem⟩ := (Option.any_eq_true _ _).mp h
  exact ⟨p, by simpa using hmem, (lookup_some hp).2⟩

variable {d : ModelSelectionDecision} {finalRequired : ℤ}

/-- The profile that is chosen is one of the eligible. -/
theorem choose_mem
    (h : choose selection request profiles eligible finalRequired rawRequired = .ok d) :
    ∃ p ∈ eligible, d.selectedProfileId = some p.profileId := by
  have hdecision : ∀ {profileId reason truncated}, (∃ p ∈ eligible, p.profileId = profileId) →
      ∃ p ∈ eligible, (decision profileId reason truncated).selectedProfileId = some p.profileId := by
    rintro _ _ _ ⟨p, hp, rfl⟩
    exact ⟨p, hp, rfl⟩
  unfold choose at h
  cases eligible with
  | nil => cases h
  | cons first =>
    simp only at h
    split_ifs at h with hremote hlocal hwindow hagents hlong hsteps hrisk hlocal'
    all_goals obtain rfl := Except.ok.inj h
    iterate 6 exact hdecision (among_lookup hremote)
    · exact hdecision (among_lookup (by simpa using hlocal))
    · exact hdecision (among_lookup hlocal')
    · exact hdecision ⟨first, List.mem_cons_self, rfl⟩

theorem mem_feasibleProfiles :
    ∀ {ps feasible : List ModelProfile}, feasibleProfiles snapshot tokens ps = .ok feasible →
      ∀ p ∈ feasible, p ∈ ps ∧ ∃ usage, estimatedUsage p tokens = .ok usage ∧
        BudgetPolicy.feasible snapshot usage = true
  | [], feasible, h, p, hp => by
    cases h
    cases hp
  | q :: ps, feasible, h, p, hp => by
    unfold feasibleProfiles at h
    obtain ⟨usage, husage, h⟩ := bind_eq_ok.mp h
    obtain ⟨rest, hrest, h⟩ := bind_eq_ok.mp h
    have ih := mem_feasibleProfiles hrest
    have hfeasible : (if BudgetPolicy.feasible snapshot usage then q :: rest else rest) = feasible :=
      Except.ok.inj h
    split_ifs at hfeasible with hq
    · subst hfeasible
      rcases List.mem_cons.mp hp with rfl | hp
      · exact ⟨List.mem_cons_self, usage, mapError_ok.mp husage, hq⟩
      · exact ⟨List.mem_cons_of_mem _ (ih p hp).1, (ih p hp).2⟩
    · subst hfeasible
      exact ⟨List.mem_cons_of_mem _ (ih p hp).1, (ih p hp).2⟩

theorem mem_sortEligible : p ∈ sortEligible request eligible ↔ p ∈ eligible := by
  unfold sortEligible
  split <;> exact (List.perm_insertionSort _ _).mem_iff

/-- The profile that the budget lets through is eligible and affordable. -/
theorem selectBudgeted_mem
    (h : selectBudgeted selection request profiles eligible snapshot finalRequired rawRequired =
      .ok d) (hconfirmed : d.confirmationRequired = false) :
    ∃ p ∈ eligible, d.selectedProfileId = some p.profileId ∧
      requireMetadataIfNeeded request p = .ok () ∧
      ∃ usage, estimatedUsage p request.contextRequirements.estimatedInputTokens = .ok usage ∧
        BudgetPolicy.feasible snapshot usage = true := by
  unfold selectBudgeted at h
  obtain ⟨hmetadata, h⟩ := seq_eq_ok.mp h
  obtain ⟨feasible, hfeasible, h⟩ := bind_eq_ok.mp h
  obtain ⟨-, h⟩ := seq_eq_ok.mp h
  suffices hmem : ∃ p ∈ feasible, d.selectedProfileId = some p.profileId by
    obtain ⟨p, hp, hd⟩ := hmem
    obtain ⟨heligible, husage⟩ := mem_feasibleProfiles hfeasible p hp
    exact ⟨p, heligible, hd, except_forM_eq_ok.mp hmetadata p heligible, husage⟩
  split_ifs at h with hremote
  · split at h
    · rename_i p _ _
      split_ifs at h with hp
      cases h
      exact ⟨p, hp, rfl⟩
    · cases h
      cases hconfirmed
    · cases h
  · obtain ⟨p, hp, hd⟩ := choose_mem h
    exact ⟨p, mem_sortEligible.mp hp, hd⟩

/-- The forced profile is enabled, capable and of the right source. -/
theorem selectForced_mem (h : selectForced request profiles profileId finalRequired = .ok d) :
    ∃ p ∈ profiles, d.selectedProfileId = some p.profileId ∧
      missing p request.capabilityRequirements finalRequired = [] ∧
      requireMetadataIfNeeded request p = .ok () ∧
      ∀ snapshot ∈ request.budgetSnapshot, ∃ usage,
        estimatedUsage p request.contextRequirements.estimatedInputTokens = .ok usage ∧
          BudgetPolicy.feasible snapshot usage = true := by
  unfold selectForced at h
  obtain ⟨p, hp, h⟩ := bind_eq_ok.mp h
  obtain ⟨hmem, hid⟩ := lookup_some (orRaise_ok.mp hp)
  obtain ⟨hmissing, h⟩ := seq_eq_ok.mp h
  obtain ⟨hmetadata, h⟩ := seq_eq_ok.mp h
  obtain ⟨hbudget, h⟩ := seq_eq_ok.mp h
  cases h
  refine ⟨p, hmem, by rw [hid]; rfl, not_not.mp (raiseIf_ok.mp hmissing), hmetadata, ?_⟩
  intro _ hsnapshot
  unfold checkForcedBudget at hbudget
  rw [Option.mem_def.mp hsnapshot] at hbudget
  obtain ⟨usage, husage, hbudget⟩ := bind_eq_ok.mp hbudget
  have hfeasible := raiseIf_ok.mp hbudget
  exact ⟨usage, mapError_ok.mp husage, by simpa using hfeasible⟩

/-- A selection without confirmation satisfies every requirement. -/
theorem select_sound (h : selection.select request = .ok d)
    (hconfirmed : d.confirmationRequired = false) :
    ∃ p, Selected selection request p ∧ d.selectedProfileId = some p.profileId := by
  unfold select at h
  obtain ⟨_, hprofiles, h⟩ := bind_eq_ok.mp h
  unfold validateProfiles at hprofiles
  obtain ⟨-, hprofiles⟩ := seq_eq_ok.mp hprofiles
  obtain ⟨hdistinct, hprofiles⟩ := seq_eq_ok.mp hprofiles
  cases hprofiles
  have hdistinct := not_not.mp (raiseIf_ok.mp hdistinct)
  have forced : ∀ profileId, selectForced request request.availableProfiles profileId
      (requiredContextWindow selection.contextWindowSafetyRatio
        request.contextRequirements.minimumContextWindow) = .ok d →
      ∃ p, Selected selection request p ∧ d.selectedProfileId = some p.profileId := by
    intro _ hforced
    obtain ⟨p, hp, hd, hmissing, hmetadata, hbudget⟩ := selectForced_mem hforced
    exact ⟨p, ⟨hp, hdistinct, hmissing, hbudget, fun _ => raiseIf_ok.mp hmetadata⟩, hd⟩
  cases hpreference : request.preference with
  | forceLocal | forceRemote =>
    rw [hpreference] at h
    exact forced _ h
  | auto =>
    rw [hpreference] at h
    obtain ⟨-, h⟩ := seq_eq_ok.mp h
    cases hsnapshot : request.budgetSnapshot with
    | none =>
      rw [hsnapshot] at h
      obtain ⟨p, hp, hd⟩ := choose_mem h
      obtain ⟨hmem, hmissing⟩ := List.mem_filter.mp hp
      refine ⟨p, ⟨hmem, hdistinct, by simpa using hmissing, ?_, ?_⟩, hd⟩
      · rw [hsnapshot]
        exact fun _ hs => nomatch hs
      · exact fun hne => absurd hsnapshot hne
    | some =>
      rw [hsnapshot] at h
      obtain ⟨p, hp, hd, hmetadata, husage⟩ := selectBudgeted_mem h hconfirmed
      obtain ⟨hmem, hmissing⟩ := List.mem_filter.mp hp
      refine ⟨p, ⟨hmem, hdistinct, by simpa using hmissing, ?_, ?_⟩, hd⟩
      · rw [hsnapshot]
        rintro _ hs
        cases Option.mem_some_iff.mp hs
        exact husage
      · exact fun _ => raiseIf_ok.mp hmetadata

/-! ## The chain -/


theorem except_mapM_of_ok {ε α β : Type} {f : α → Except ε β} {g : α → β} {xs : List α}
    (h : ∀ x ∈ xs, f x = .ok (g x)) : xs.mapM f = .ok (xs.map g) := by
  induction xs with
  | nil => rfl
  | cons x _ ih =>
    rw [List.mapM_cons, h x List.mem_cons_self, ok_bind,
      ih fun y hy => h y (List.mem_cons_of_mem _ hy)]
    rfl

namespace ModelRoutingPolicy

variable {policy : ModelRoutingPolicy} {routing : ModelRoutingRequest}

/-- `p` becomes a candidate of a chain that starts with `initial`. -/
structure Admits (policy : ModelRoutingPolicy) (routing : ModelRoutingRequest)
    (initial p : ModelProfile) : Prop where
  preferred : preferenceAllows routing.preference p = true
  present : missing p routing.capabilityRequirements
    (requiredContextWindow policy.contextWindowSafetyRatio
      routing.contextRequirements.minimumContextWindow) = []
  allowed : policy.allows (adjustment initial p) = true
  feasible : ∀ snapshot ∈ routing.budgetSnapshot,
    budgetFeasible snapshot p routing.contextRequirements.estimatedInputTokens = .ok true

/-- The candidate `p` becomes. -/
def candidateOf (routing : ModelRoutingRequest) (initial p : ModelProfile) :
    ModelRoutingCandidate :=
  ⟨p, p.effectiveBreakerKey, adjustment initial p, reasonCode (adjustment initial p),
    routing.breakerStates.get? p.effectiveBreakerKey = some .open⟩

open Classical in
/-- The outcome of one turn of the loop. -/
noncomputable def outcome (policy : ModelRoutingPolicy) (routing : ModelRoutingRequest)
    (initial p : ModelProfile) : Option ModelRoutingCandidate :=
  if Admits policy routing initial p then some (candidateOf routing initial p) else none

theorem cost_nonneg (h : 0 ≤ tokens) : 0 ≤ ModelRoutingPolicy.cost p tokens := by
  unfold ModelRoutingPolicy.cost
  cases p.costProfile with
  | none => exact Int.one_nonneg
  | some c =>
    have hin : 0 ≤ tokens * (c.inputCostUnitsPer1kTokens : ℤ) :=
      mul_nonneg h (Int.natCast_nonneg _)
    have hout : 0 ≤ (p.maxOutputTokens : ℤ) * (c.outputCostUnitsPer1kTokens : ℤ) :=
      mul_nonneg (Int.natCast_nonneg _) (Int.natCast_nonneg _)
    dsimp only
    omega

theorem remoteCalls_nonneg (remote : Bool) : (0 : ℤ) ≤ if remote then 1 else 0 := by
  cases remote <;> decide

theorem budgetFeasible_ok
    (h : 0 ≤ tokens) : ∃ feasible, budgetFeasible snapshot p tokens = .ok feasible := by
  unfold budgetFeasible
  by_cases hmetadata : p.costProfile = none ∧ (snapshot.runBudget.limit .costUnits ≠ none ∨
      snapshot.runBudget.limit .remoteModelCalls ≠ none)
  · rw [if_pos hmetadata]
    exact ⟨false, rfl⟩
  · obtain ⟨_, husage, -⟩ := callUsage_ok (p := p) h (remoteCalls_nonneg p.effectiveIsRemote)
      (cost_nonneg (p := p) h)
    rw [if_neg hmetadata, husage]
    exact ⟨_, rfl⟩

variable {initial : ModelProfile}

/-- One turn of the loop never raises and has the outcome `Admits` says. -/
theorem consider_eq
    (htokens : routing.budgetSnapshot ≠ none → 0 ≤ routing.contextRequirements.estimatedInputTokens)
    (p : ModelProfile) :
    policy.consider routing initial (requiredContextWindow policy.contextWindowSafetyRatio
      routing.contextRequirements.minimumContextWindow) p = .ok (outcome policy routing initial p) := by
  unfold consider
  by_cases hchecks : (!preferenceAllows routing.preference p) = true ∨
      missing p routing.capabilityRequirements (requiredContextWindow
        policy.contextWindowSafetyRatio routing.contextRequirements.minimumContextWindow) ≠ [] ∨
      (!policy.allows (adjustment initial p)) = true
  · simp only [if_pos hchecks]
    unfold outcome
    rw [if_neg]
    · rfl
    · intro hadmits
      rcases hchecks with h | h | h
      · simp [hadmits.preferred] at h
      · exact h hadmits.present
      · simp [hadmits.allowed] at h
  · simp only [if_neg hchecks]
    push Not at hchecks
    obtain ⟨hpreferred, hpresent, hallowed⟩ := hchecks
    have hadmits : (∀ snapshot ∈ routing.budgetSnapshot,
        budgetFeasible snapshot p routing.contextRequirements.estimatedInputTokens = .ok true) →
        Admits policy routing initial p := by
      intro hfeasible
      exact ⟨by simpa using hpreferred, hpresent, by simpa using hallowed, hfeasible⟩
    cases hsnapshot : routing.budgetSnapshot with
    | none =>
      have : Admits policy routing initial p :=
        hadmits (by rw [hsnapshot]; exact fun _ h => by cases h)
      unfold outcome
      rw [if_pos this]
      rfl
    | some snapshot =>
      obtain ⟨feasible, hfeasible⟩ : ∃ feasible, budgetFeasible snapshot p
          routing.contextRequirements.estimatedInputTokens = .ok feasible :=
        budgetFeasible_ok (htokens (by simp [hsnapshot]))
      simp only [hfeasible, ok_bind]
      unfold outcome
      cases feasible with
      | true =>
        have : Admits policy routing initial p := by
          refine hadmits ?_
          rw [hsnapshot]
          intro s hs
          cases Option.mem_some_iff.mp hs
          exact hfeasible
        rw [if_pos this]
        rfl
      | false =>
        have hrefused : ¬ Admits policy routing initial p := by
          intro h
          have := h.feasible snapshot hsnapshot
          rw [hfeasible] at this
          cases this
        rw [if_neg hrefused]
        rfl

/-- The candidates of a chain that starts at `initial`. -/
noncomputable def chain (policy : ModelRoutingPolicy) (routing : ModelRoutingRequest)
    (initial : ModelProfile) : List ModelRoutingCandidate :=
  (initial :: routing.profiles.filter fun p => p.profileId ≠ initial.profileId).filterMap
    (outcome policy routing initial)

/-- The candidates are the admitted profiles, the initial one first. -/
theorem mem_chain {c : ModelRoutingCandidate} :
    c ∈ chain policy routing initial ↔
      ∃ p, (p = initial ∨ p ∈ routing.profiles ∧ p.profileId ≠ initial.profileId) ∧
        Admits policy routing initial p ∧ c = candidateOf routing initial p := by
  unfold chain outcome
  rw [List.mem_filterMap]
  refine exists_congr fun p => ?_
  rw [List.mem_cons, List.mem_filter, decide_eq_true_eq]
  refine and_congr_right fun _ => ?_
  split_ifs with h
  · simp [h, eq_comm]
  · simp [h]

open Classical in
theorem profiles_chain :
    (chain policy routing initial).map ModelRoutingCandidate.profile =
      (initial :: routing.profiles.filter fun p => p.profileId ≠ initial.profileId).filter
        fun p => Admits policy routing initial p := by
  unfold chain
  rw [List.map_filterMap, ← List.filterMap_eq_filter (p := fun p =>
    decide (Admits policy routing initial p))]
  refine List.filterMap_congr fun p _ => ?_
  unfold outcome
  by_cases h : Admits policy routing initial p <;> simp [h, candidateOf, Option.guard]

/-- The route is the chain, or an error when the chain is empty. -/
theorem route_eq
    (htokens : routing.budgetSnapshot ≠ none → 0 ≤ routing.contextRequirements.estimatedInputTokens)
    (hselected : routing.selectionDecision.selectedProfileId = some initial.profileId)
    (hconfirmed : routing.selectionDecision.confirmationRequired = false)
    (hdistinct : (routing.profiles.map ModelProfile.profileId).Nodup)
    (hmem : initial ∈ routing.profiles) :
    ((chain policy routing initial = [] ∧ policy.route routing =
        .error (.routing "NO_ROUTING_CANDIDATE")) ∨
      ∃ decision, policy.route routing = .ok decision ∧
        ((decision.confirmationRequired = true ∧ policy.requireConfirmationForDowngrade = true ∧
            ∃ c ∈ chain policy routing initial, c.adjustment = .downgradeToLocal) ∨
          (decision.confirmationRequired = false ∧
            decision.candidates = chain policy routing initial ∧
            ¬ (policy.requireConfirmationForDowngrade = true ∧
              ∃ c ∈ chain policy routing initial, c.adjustment = .downgradeToLocal)))) := by
  have hlookup : lookup routing.profiles initial.profileId = some initial := by
    cases hfound : lookup routing.profiles initial.profileId with
    | none =>
      have := List.find?_eq_none.mp hfound initial hmem
      simp at this
    | some =>
      obtain ⟨hq, hid⟩ := lookup_some hfound
      exact congrArg some (List.inj_on_of_nodup_map hdistinct hq hmem hid)
  have hmapM : (initial :: routing.profiles.filter fun p =>
      p.profileId ≠ initial.profileId).mapM (policy.consider routing initial
        (requiredContextWindow policy.contextWindowSafetyRatio
          routing.contextRequirements.minimumContextWindow)) =
      .ok ((initial :: routing.profiles.filter fun p => p.profileId ≠ initial.profileId).map
        (outcome policy routing initial)) :=
    except_mapM_of_ok fun p _ => consider_eq htokens p
  have hchain : (((initial :: routing.profiles.filter fun p =>
      p.profileId ≠ initial.profileId).map (outcome policy routing initial)).reduceOption) =
      chain policy routing initial := by
    unfold chain List.reduceOption
    rw [List.filterMap_map]
    rfl
  unfold route
  simp only [hselected, hconfirmed, Bool.false_eq_true, if_false, raiseIf, hdistinct, not_true,
    ok_bind, hlookup, orRaise, hmapM, hchain]
  by_cases hempty : chain policy routing initial = []
  · left
    refine ⟨hempty, ?_⟩
    simp only [hempty, if_true]
    rfl
  · right
    simp only [hempty, if_false, ok_bind]
    by_cases hdown : (((chain policy routing initial).any fun c =>
        c.adjustment = .downgradeToLocal) && policy.requireConfirmationForDowngrade) = true
    · simp only [hdown, if_true]
      refine ⟨_, rfl, .inl ⟨rfl, ?_, ?_⟩⟩
      · exact (Bool.and_eq_true_iff.mp hdown).2
      · simpa using (Bool.and_eq_true_iff.mp hdown).1
    · simp only [hdown]
      refine ⟨_, rfl, .inr ⟨rfl, rfl, ?_⟩⟩
      rintro ⟨hrequire, c, hc, hadjust⟩
      refine hdown (Bool.and_eq_true_iff.mpr ⟨?_, hrequire⟩)
      exact List.any_eq_true.mpr ⟨c, hc, by simpa using hadjust⟩

end ModelRoutingPolicy

/-! ## From the selection to the chain -/

/-- The call of `route` for a decision of `select`, with the same inputs. -/
def ModelSelectionRequest.routing (request : ModelSelectionRequest)
    (decision : ModelSelectionDecision) (breakerStates : Dict String ModelCircuitState) :
    ModelRoutingRequest where
  selectionDecision := decision
  capabilityRequirements := request.capabilityRequirements
  contextRequirements := request.contextRequirements
  profiles := request.availableProfiles
  preference := request.preference
  budgetSnapshot := request.budgetSnapshot
  breakerStates := breakerStates

namespace ModelRoutingPolicy

variable {policy : ModelRoutingPolicy} {routing : ModelRoutingRequest}

/-- What a preference asks of a profile: `FORCE_LOCAL` a local one, `FORCE_REMOTE` a remote one. -/
structure Conforms (preference : ModelPreference) (p : ModelProfile) : Prop where
  forceLocal : preference = .forceLocal → p.effectiveIsRemote = false
  forceRemote : preference = .forceRemote → p.effectiveIsRemote = true

theorem preferenceAllows_iff {preference : ModelPreference} {p : ModelProfile} :
    preferenceAllows preference p = true ↔ Conforms preference p := by
  unfold preferenceAllows
  constructor
  · intro h
    constructor <;> (rintro rfl; simpa using h)
  · intro h
    cases preference with
    | auto => rfl
    | forceLocal => simpa using h.forceLocal rfl
    | forceRemote => exact h.forceRemote rfl

/-- What the router asks of the profile it is handed beyond what the selection has checked: its own
remoteness, its cost with the output, and no downgrade that would have to be confirmed. -/
structure Agrees (policy : ModelRoutingPolicy) (routing : ModelRoutingRequest) (p : ModelProfile) :
    Prop where
  preferred : Conforms routing.preference p
  outputCost : ∀ snapshot ∈ routing.budgetSnapshot, snapshot.runBudget.limit .costUnits ≠ none →
    ModelRoutingPolicy.cost p routing.contextRequirements.estimatedInputTokens ≤
      snapshot.remaining.amount .costUnits
  remoteCalls : ∀ snapshot ∈ routing.budgetSnapshot,
    snapshot.runBudget.limit .remoteModelCalls ≠ none →
    (if p.effectiveIsRemote then 1 else 0) ≤ snapshot.remaining.amount .remoteModelCalls
  unconfirmed : policy.requireConfirmationForDowngrade = true → ∀ q ∈ routing.profiles,
    adjustment p q = .downgradeToLocal → ¬ Admits policy routing p q

/-- The decision is a chain from `p` on, of different profiles that all pass every check. -/
structure RoutedFrom (policy : ModelRoutingPolicy) (routing : ModelRoutingRequest)
    (p : ModelProfile) (d : ModelRoutingDecision) : Prop where
  confirmed : d.confirmationRequired = false
  first : (d.candidates.map ModelRoutingCandidate.profile).head? = some p
  distinct : (d.candidates.map fun c => c.profile.profileId).Nodup
  suitable : ∀ c ∈ d.candidates, c.profile ∈ routing.profiles ∧
    Capable c.profile routing.capabilityRequirements ∧
    requiredContextWindow policy.contextWindowSafetyRatio
      routing.contextRequirements.minimumContextWindow ≤ c.profile.contextWindow ∧
    Conforms routing.preference c.profile ∧
    ∀ snapshot ∈ routing.budgetSnapshot,
      budgetFeasible snapshot c.profile routing.contextRequirements.estimatedInputTokens = .ok true

theorem adjustment_self (p : ModelProfile) : adjustment p p = .none := by
  unfold adjustment
  rw [if_pos rfl]

variable {p : ModelProfile}

/-- The router and the selector agree on what the budget covers. -/
theorem budgetFeasible_iff (husage : estimatedUsage p tokens = .ok usage)
    (hfeasible : BudgetPolicy.feasible snapshot usage = true)
    (hmetadata : ¬ (p.costProfile = none ∧ (snapshot.runBudget.limit .costUnits ≠ none ∨
      snapshot.runBudget.limit .remoteModelCalls ≠ none))) :
    budgetFeasible snapshot p tokens = .ok true ↔ (snapshot.runBudget.limit .costUnits ≠ none →
        ModelRoutingPolicy.cost p tokens ≤ snapshot.remaining.amount .costUnits) ∧
      (snapshot.runBudget.limit .remoteModelCalls ≠ none →
        (if p.effectiveIsRemote then 1 else 0) ≤ snapshot.remaining.amount .remoteModelCalls) := by
  obtain ⟨htokens, hamount⟩ := callUsage_spec husage
  have hcovers := feasible_iff.mp hfeasible
  rw [hamount] at hcovers
  obtain ⟨routed, hrouted, hroutedAmount⟩ := callUsage_ok (p := p) htokens
    (remoteCalls_nonneg p.effectiveIsRemote) (cost_nonneg (p := p) htokens)
  have hvalue : budgetFeasible snapshot p tokens = .ok (BudgetPolicy.feasible snapshot routed) := by
    unfold budgetFeasible
    rw [if_neg hmetadata, hrouted]
    rfl
  rw [hvalue, ← covers_callAmount hcovers, ← hroutedAmount, ← feasible_iff]
  exact ⟨Except.ok.inj, congrArg _⟩

theorem nodup_ordered (h : (routing.profiles.map ModelProfile.profileId).Nodup) :
    ((p :: routing.profiles.filter fun q => q.profileId ≠ p.profileId).map
      ModelProfile.profileId).Nodup := by
  rw [List.map_cons, List.nodup_cons]
  constructor
  · intro hmem
    obtain ⟨q, hq, hid⟩ := List.mem_map.mp hmem
    simpa [hid] using (List.mem_filter.mp hq).2
  · exact h.sublist (List.filter_sublist.map _)

/-- A decision from the chain is routed. -/
theorem routedFrom_chain {d : ModelRoutingDecision}
    (hdistinct : (routing.profiles.map ModelProfile.profileId).Nodup) (hmem : p ∈ routing.profiles)
    (hadmits : Admits policy routing p p) (hconfirmed : d.confirmationRequired = false)
    (hcandidates : d.candidates = chain policy routing p) : RoutedFrom policy routing p d := by
  classical
  refine ⟨hconfirmed, ?_, ?_, ?_⟩
  · rw [hcandidates, profiles_chain, List.filter_cons_of_pos (by simpa using hadmits)]
    rfl
  · have hsublist := (List.filter_sublist (l := p :: routing.profiles.filter fun q =>
      q.profileId ≠ p.profileId) (p := fun q => decide (Admits policy routing p q))).map
        ModelProfile.profileId
    have := (nodup_ordered (p := p) hdistinct).sublist hsublist
    rwa [← profiles_chain, ← hcandidates, List.map_map] at this
  · intro c hc
    rw [hcandidates] at hc
    obtain ⟨q, hq, hadmitted, rfl⟩ := mem_chain.mp hc
    obtain ⟨hwindow, hcapable⟩ := missingNames_eq_nil.mp hadmitted.present
    refine ⟨?_, hcapable, hwindow, preferenceAllows_iff.mp hadmitted.preferred, hadmitted.feasible⟩
    rcases hq with rfl | ⟨hq, -⟩
    · exact hmem
    · exact hq

end ModelRoutingPolicy

open ModelRoutingPolicy

/-- The router admits a selected profile as its first candidate exactly when the flags and the cost
it looks at pass as well. -/
theorem Selected.admits_iff {policy : ModelRoutingPolicy} (hp : Selected selection request p)
    (hratio : policy.contextWindowSafetyRatio = selection.contextWindowSafetyRatio)
    (decision : ModelSelectionDecision) (breakerStates : Dict String ModelCircuitState) :
    Admits policy (request.routing decision breakerStates) p p ↔
      Conforms request.preference p ∧
      ∀ snapshot ∈ request.budgetSnapshot, (snapshot.runBudget.limit .costUnits ≠ none →
          ModelRoutingPolicy.cost p request.contextRequirements.estimatedInputTokens ≤
            snapshot.remaining.amount .costUnits) ∧
        (snapshot.runBudget.limit .remoteModelCalls ≠ none →
          (if p.effectiveIsRemote then 1 else 0) ≤ snapshot.remaining.amount .remoteModelCalls) := by
  have hbudget : ∀ snapshot ∈ request.budgetSnapshot, budgetFeasible snapshot p
      request.contextRequirements.estimatedInputTokens = .ok true ↔
        (snapshot.runBudget.limit .costUnits ≠ none →
          ModelRoutingPolicy.cost p request.contextRequirements.estimatedInputTokens ≤
            snapshot.remaining.amount .costUnits) ∧
        (snapshot.runBudget.limit .remoteModelCalls ≠ none →
          (if p.effectiveIsRemote then 1 else 0) ≤
            snapshot.remaining.amount .remoteModelCalls) := by
    intro snapshot hsnapshot
    obtain ⟨_, husage, hfeasible⟩ := hp.covered snapshot hsnapshot
    refine budgetFeasible_iff husage hfeasible ?_
    rintro ⟨hnone, hlimit⟩
    have hsome : request.budgetSnapshot = some snapshot := hsnapshot
    refine hp.metadata (by simp [hsome]) ⟨?_, hnone⟩
    unfold metadataNeeded
    rw [hsome]
    rcases hlimit with h | h <;> simp [h]
  constructor
  · intro h
    exact ⟨preferenceAllows_iff.mp h.preferred, fun snapshot hs => (hbudget snapshot hs).mp (h.feasible snapshot hs)⟩
  · rintro ⟨hpreferred, hcovered⟩
    obtain ⟨hwindow, hcapable⟩ := missingNames_eq_nil.mp hp.present
    refine ⟨preferenceAllows_iff.mpr hpreferred, ?_, ?_, fun snapshot hs =>
      (hbudget snapshot hs).mpr (hcovered snapshot hs)⟩
    · exact missingNames_eq_nil.mpr ⟨by rw [hratio]; exact hwindow, hcapable⟩
    · rw [adjustment_self]
      rfl

theorem Selected.tokens_nonneg (hp : Selected selection request p)
    (h : request.budgetSnapshot ≠ none) : 0 ≤ request.contextRequirements.estimatedInputTokens := by
  obtain ⟨snapshot, hsnapshot⟩ := Option.ne_none_iff_exists'.mp h
  obtain ⟨_, husage, -⟩ := hp.covered snapshot hsnapshot
  exact (callUsage_spec husage).1

/-- A selected profile meets every requirement; the router starts a sound chain with it, and the
profile conforms to the preference, exactly when `Agrees` holds. -/
theorem selected_is_routed (selection : ModelSelectionPolicy) (policy : ModelRoutingPolicy)
    (hratio : policy.contextWindowSafetyRatio = selection.contextWindowSafetyRatio)
    (request : ModelSelectionRequest) (breakerStates : Dict String ModelCircuitState)
    {decision : ModelSelectionDecision} (hselect : selection.select request = .ok decision)
    (hconfirmed : decision.confirmationRequired = false) :
    ∃ p ∈ request.availableProfiles, decision.selectedProfileId = some p.profileId ∧
      Capable p request.capabilityRequirements ∧
      requiredContextWindow selection.contextWindowSafetyRatio
        request.contextRequirements.minimumContextWindow ≤ p.contextWindow ∧
      ((Conforms request.preference p ∧
          ∃ routed, policy.route (request.routing decision breakerStates) = .ok routed ∧
            RoutedFrom policy (request.routing decision breakerStates) p routed) ↔
        Agrees policy (request.routing decision breakerStates) p) := by
  classical
  obtain ⟨p, hp, hid⟩ := select_sound hselect hconfirmed
  obtain ⟨hwindow, hcapable⟩ := missingNames_eq_nil.mp hp.present
  have hadmits := hp.admits_iff hratio decision breakerStates
  have hroute := @route_eq policy (request.routing decision breakerStates) p
    hp.tokens_nonneg hid hconfirmed hp.distinct hp.mem
  refine ⟨p, hp.mem, hid, hcapable, hwindow, ?_, ?_⟩
  · rintro ⟨hpreferred, _, hrouted, hfrom⟩
    rcases hroute with ⟨-, herror⟩ | ⟨d, hd, hcases⟩
    · rw [herror] at hrouted
      cases hrouted
    cases hd.symm.trans hrouted
    rcases hcases with ⟨hconfirm, -, -⟩ | ⟨-, hcandidates, hnone⟩
    · rw [hfrom.confirmed] at hconfirm
      cases hconfirm
    have hadmitted : Admits policy (request.routing decision breakerStates) p p := by
      have hmem := List.mem_of_head? hfrom.first
      rw [hcandidates, profiles_chain] at hmem
      simpa using (List.mem_filter.mp hmem).2
    obtain ⟨-, hcovered⟩ := hadmits.mp hadmitted
    refine ⟨hpreferred, fun snapshot hs => (hcovered snapshot hs).1,
      fun snapshot hs => (hcovered snapshot hs).2, ?_⟩
    intro hrequire q hq hadjust hq'
    have hother : q.profileId ≠ p.profileId := by
      intro hsame
      unfold adjustment at hadjust
      rw [if_pos hsame] at hadjust
      cases hadjust
    exact hnone ⟨hrequire, _, mem_chain.mpr ⟨q, .inr ⟨hq, hother⟩, hq', rfl⟩, hadjust⟩
  · intro hagrees
    have hadmitted := hadmits.mpr ⟨hagrees.preferred, fun snapshot hs =>
      ⟨hagrees.outputCost snapshot hs, hagrees.remoteCalls snapshot hs⟩⟩
    refine ⟨hagrees.preferred, ?_⟩
    rcases hroute with ⟨hempty, -⟩ | ⟨d, hd, ⟨-, hrequire, c, hc, hadjust⟩ | ⟨hconfirm, heq, -⟩⟩
    · have hfirst : candidateOf (request.routing decision breakerStates) p p ∈
          chain policy (request.routing decision breakerStates) p :=
        mem_chain.mpr ⟨p, .inl rfl, hadmitted, rfl⟩
      rw [hempty] at hfirst
      cases hfirst
    · obtain ⟨q, hq, hq', rfl⟩ := mem_chain.mp hc
      rcases hq with rfl | ⟨hq, -⟩
      · have hself : adjustment q q = .downgradeToLocal := hadjust
        rw [adjustment_self] at hself
        cases hself
      · exact absurd hq' (hagrees.unconfirmed hrequire q hq hadjust)
    · exact ⟨d, hd, routedFrom_chain hp.distinct hp.mem hadmitted hconfirm heq⟩

/-! ### A selection the router replaces -/

/-- A local profile whose output costs ten units for a thousand tokens. -/
def sampleLocal : ModelProfile :=
  { profileId := .localFast, contextWindow := 8000, maxOutputTokens := 1000
    supportsTools := true, supportsStructuredOutput := true, supportsCodeReasoning := true
    supportsLongReasoning := true, qualityTier := 1, latencyTier := 1
    costProfile := some ⟨.localFast, false, 1, 0, 10, 100⟩, isRemote := none, breakerKey := none
    positive := by decide, cost_profileId := by decide }

def sampleRemote : ModelProfile :=
  { profileId := .remoteAdvanced, contextWindow := 8000, maxOutputTokens := 1000
    supportsTools := true, supportsStructuredOutput := true, supportsCodeReasoning := true
    supportsLongReasoning := true, qualityTier := 2, latencyTier := 2
    costProfile := some ⟨.remoteAdvanced, true, 2, 0, 0, 100⟩, isRemote := none
    breakerKey := none, positive := by decide, cost_profileId := by decide }

/-- A budget of `cost` cost units of which nothing is used. -/
def sampleSnapshot (cost : ℕ) : BudgetSnapshot :=
  BudgetLedger.snapshotLocked
    (BudgetLedger.new
      { limit := fun d => if d = .costUnits then some cost else none
        maxElapsedSeconds := none
        limit_nonneg := by
          intro d n hn
          split_ifs at hn
          · obtain rfl := Option.mem_some_iff.mp hn
            exact Int.natCast_nonneg cost
          · cases hn
        elapsed_pos := RunBudget.unlimited.elapsed_pos })
    ⟨0, none, .newYear⟩

/-- A request without special requirements, with `cost` cost units left. -/
def sampleSelection (cost : ℕ) : ModelSelectionRequest where
  capabilityRequirements := .default
  contextRequirements := ⟨100, 2000, 2000, false⟩
  preference := .auto
  availableProfiles := [sampleLocal, sampleRemote]
  budgetSnapshot := some (sampleSnapshot cost)
  selectionObjective := .qualityFirst
  budgetInsufficientAction := .reject

def sampleSelectionPolicy : ModelSelectionPolicy := ⟨11 / 10, 3, by norm_num⟩

def sampleRoutingPolicy : ModelRoutingPolicy := ⟨true, true, false, 11 / 10⟩

/-- The remote model is forced, and a remote profile is selected. -/
def sampleForced : ModelSelectionRequest := { sampleSelection 20 with preference := .forceRemote }

theorem selected_is_routed_sampleSelection :
    ∃ decision, sampleSelectionPolicy.select sampleForced = .ok decision ∧
      decision.selectedProfileId = some .remoteAdvanced ∧
      ∃ p ∈ sampleForced.availableProfiles, decision.selectedProfileId = some p.profileId ∧
        Capable p sampleForced.capabilityRequirements ∧
        ((p.effectiveIsRemote = true ∧ ∃ routed, sampleRoutingPolicy.route
            (sampleForced.routing decision Dict.empty) = .ok routed ∧
              RoutedFrom sampleRoutingPolicy (sampleForced.routing decision Dict.empty) p routed) ↔
          Agrees sampleRoutingPolicy (sampleForced.routing decision Dict.empty) p) := by
  have hselect : (sampleSelectionPolicy.select sampleForced).toOption.any (fun decision =>
      decision.confirmationRequired = false ∧
        decision.selectedProfileId = some .remoteAdvanced) = true := by decide +kernel
  cases hd : sampleSelectionPolicy.select sampleForced with
  | error =>
    rw [hd] at hselect
    cases hselect
  | ok decision =>
    rw [hd] at hselect
    obtain ⟨hconfirmed, hremote⟩ := of_decide_eq_true hselect
    obtain ⟨p, hp, hid, hcapable, -, hiff⟩ := selected_is_routed sampleSelectionPolicy
      sampleRoutingPolicy rfl sampleForced Dict.empty hd hconfirmed
    refine ⟨decision, rfl, hremote, p, hp, hid, hcapable, ?_⟩
    rw [← hiff]
    exact and_congr_left fun _ => ⟨fun h => ⟨nofun, fun _ => h⟩, fun h => h.forceRemote rfl⟩

/-- The selection takes the local profile, and the router goes on with the remote one: only the
router counts the output. -/
theorem selected_profile_replaced :
    ((sampleSelectionPolicy.select (sampleSelection 5)).toOption.any fun decision =>
      decision.confirmationRequired = false ∧ decision.selectedProfileId = some .localFast ∧
      ((sampleRoutingPolicy.route ((sampleSelection 5).routing decision Dict.empty)).toOption.any
        fun routed => routed.candidates.map (fun c => c.profile.profileId) = [.remoteAdvanced])) =
      true := by
  decide +kernel

end LocalAgent.Runtime
