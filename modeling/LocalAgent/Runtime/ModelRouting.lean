import LocalAgent.Runtime.Budget
import LocalAgent.Runtime.CircuitBreaker
import LocalAgent.Runtime.Planning
import Mathlib.Data.Rat.Floor

/-!
# LocalAgent.Runtime.ModelRouting — `core/runtime/model_selection.py`, `core/runtime/model_routing.py`

`ModelSelectionPolicy.select` picks one profile, `ModelRoutingPolicy.route` turns the decision into
a chain of candidates.  Both look at capabilities, the context window, the preference and the
budget; each has its own formulas for the cost of a call and for what counts as remote.

* `ModelSelectionPolicy.select`, `ModelRoutingPolicy.route`: the two policies.
* `callUsage`: the usage vector of a call, which the two fill in differently.
-/

namespace LocalAgent.Runtime

/-! ## Profiles and requests -/

inductive ModelProfileId where
  | localFast | remoteAdvanced | remoteBackup
  deriving DecidableEq

namespace ModelProfileId

def value : ModelProfileId → String
  | localFast => "local_fast" | remoteAdvanced => "remote_advanced"
  | remoteBackup => "remote_backup"

end ModelProfileId

inductive ModelPreference where
  | auto | forceLocal | forceRemote
  deriving DecidableEq

inductive ModelSelectionObjective where
  | speedFirst | qualityFirst | costFirst
  deriving DecidableEq

inductive BudgetInsufficientAction where
  | degrade | reject | requireConfirmation
  deriving DecidableEq

inductive BudgetAdjustment where
  | none | upgradeToRemote | downgradeToLocal | reject | requireConfirmation
  deriving DecidableEq

/-- `ModelCostProfile`; `__post_init__` admits natural numbers only. -/
structure ModelCostProfile where
  profileId : ModelProfileId
  isRemote : Bool
  fixedCallCostUnits : ℕ
  inputCostUnitsPer1kTokens : ℕ
  outputCostUnitsPer1kTokens : ℕ
  estimatedLatencyMs : ℕ
  deriving DecidableEq

/-- What the two policies read of a `ModelProfile`, with what `__post_init__` checks of it. -/
structure ModelProfile where
  profileId : ModelProfileId
  contextWindow : ℕ
  maxOutputTokens : ℕ
  supportsTools : Bool
  supportsStructuredOutput : Bool
  supportsCodeReasoning : Bool
  supportsLongReasoning : Bool
  qualityTier : ℕ
  latencyTier : ℕ
  costProfile : Option ModelCostProfile
  isRemote : Option Bool
  breakerKey : Option String
  positive : 0 < contextWindow ∧ 0 < maxOutputTokens ∧ 0 < qualityTier ∧ 0 < latencyTier
  cost_profileId : ∀ cost ∈ costProfile, cost.profileId = profileId
  deriving DecidableEq

namespace ModelProfile

def effectiveIsRemote (p : ModelProfile) : Bool :=
  match p.isRemote with
  | some flag => flag
  | none =>
    match p.costProfile with
    | some cost => cost.isRemote
    | none => p.profileId = .remoteAdvanced

def effectiveBreakerKey (p : ModelProfile) : String :=
  p.breakerKey.getD ("profile:" ++ p.profileId.value)

end ModelProfile

/-- What the two policies read of `ModelContextRequirements`. -/
structure ModelContextRequirements where
  estimatedInputTokens : ℤ
  minimumContextWindow : ℤ
  rawMinimumContextWindow : ℤ
  wasTruncated : Bool
  deriving DecidableEq

structure ModelSelectionRequest where
  capabilityRequirements : TaskCapabilityRequirements
  contextRequirements : ModelContextRequirements
  preference : ModelPreference
  availableProfiles : List ModelProfile
  budgetSnapshot : Option BudgetSnapshot
  selectionObjective : ModelSelectionObjective
  budgetInsufficientAction : BudgetInsufficientAction

inductive ModelSelectionReason where
  | userForcedLocal | userForcedRemote | localSufficient | contextWindowRequired
  | toolCapabilityRequired | structuredOutputRequired | codeReasoningRequired
  | longReasoningRequired | multiStepPlan | multiAgentRequired | highRiskTask
  deriving DecidableEq

namespace ModelSelectionReason

def value : ModelSelectionReason → String
  | userForcedLocal => "user_forced_local" | userForcedRemote => "user_forced_remote"
  | localSufficient => "local_sufficient" | contextWindowRequired => "context_window_required"
  | toolCapabilityRequired => "tool_capability_required"
  | structuredOutputRequired => "structured_output_required"
  | codeReasoningRequired => "code_reasoning_required"
  | longReasoningRequired => "long_reasoning_required" | multiStepPlan => "multi_step_plan"
  | multiAgentRequired => "multi_agent_required" | highRiskTask => "high_risk_task"

/-- The texts of `_decision`. -/
def text : ModelSelectionReason → String
  | localSufficient => "当前上下文和能力需求均满足，选择本地轻量模型。"
  | contextWindowRequired => "完整上下文需要更大窗口，因此选择远程高级模型。"
  | toolCapabilityRequired => "本地模型不满足工具能力，因此选择远程高级模型。"
  | structuredOutputRequired => "本地模型不满足结构化输出能力，因此选择远程高级模型。"
  | codeReasoningRequired => "本地模型不满足代码推理能力，因此选择远程高级模型。"
  | longReasoningRequired => "任务需要长推理，因此选择远程高级模型。"
  | multiStepPlan => "任务步骤较多，因此选择远程高级模型。"
  | multiAgentRequired => "任务需要多智能体协作，因此选择远程高级模型。"
  | highRiskTask => "任务风险较高，因此选择远程高级模型。"
  | userForcedLocal => "用户强制要求使用本地模型。"
  | userForcedRemote => "用户强制要求使用远程模型。"

end ModelSelectionReason

structure ModelSelectionDecision where
  selectedProfile : Option ModelProfileId
  reasonCode : ModelSelectionReason
  reasonText : String
  matchedRules : List String
  fallbackAllowed : Bool
  capabilityPreferredProfileId : Option ModelProfileId
  selectedProfileId : Option ModelProfileId
  selectionObjective : ModelSelectionObjective
  budgetAdjustment : BudgetAdjustment
  budgetReasonCode : Option String
  estimatedCostUnits : ℤ
  estimatedLatencyMs : ℕ
  qualityTradeoffDisclosed : Bool
  confirmationRequired : Bool
  deriving DecidableEq

/-- What `select` raises. -/
inductive ModelSelectionError where
  | selection (reasonCode : String) (requestedProfile : Option ModelProfileId)
      (missingCapabilities : List String) (requiredContextWindow availableContextWindow : ℤ)
  /-- the `ValueError` of a `BudgetUsage` -/
  | usage (error : BudgetError)
  deriving DecidableEq

/-- `ModelSelectionError(reason_code, requested_profile=...)`. -/
def selectionError (reasonCode : String) (requestedProfile : Option ModelProfileId) :
    ModelSelectionError :=
  .selection reasonCode requestedProfile [] 0 0

/-! ## Capabilities -/

/-- The four capabilities both policies compare: whether they are required, whether `p` has them,
and their name. -/
def capabilities (p : ModelProfile) (req : TaskCapabilityRequirements) :
    List (Bool × Bool × String) :=
  [(req.requiresTools, p.supportsTools, "tools"),
    (req.requiresStructuredOutput, p.supportsStructuredOutput, "structured_output"),
    (req.requiresCodeReasoning, p.supportsCodeReasoning, "code_reasoning"),
    (req.requiresLongReasoning, p.supportsLongReasoning, "long_reasoning")]

/-- The names of what is missing; the router writes them with `requires_` in front. -/
def missingNames (label : String) (p : ModelProfile) (req : TaskCapabilityRequirements)
    (requiredContext : ℤ) : List String :=
  (if (p.contextWindow : ℤ) < requiredContext then ["context_window"] else []) ++
    ((capabilities p req).filter fun c => c.1 && !c.2.1).map fun c => label ++ c.2.2

/-- `p` has every capability that is required. -/
def Capable (p : ModelProfile) (req : TaskCapabilityRequirements) : Prop :=
  (req.requiresTools = true → p.supportsTools = true) ∧
  (req.requiresStructuredOutput = true → p.supportsStructuredOutput = true) ∧
  (req.requiresCodeReasoning = true → p.supportsCodeReasoning = true) ∧
  (req.requiresLongReasoning = true → p.supportsLongReasoning = true)

theorem missingNames_eq_nil {label : String} {p : ModelProfile} {req : TaskCapabilityRequirements}
    {requiredContext : ℤ} : missingNames label p req requiredContext = [] ↔
      requiredContext ≤ p.contextWindow ∧ Capable p req := by
  unfold missingNames capabilities Capable
  rw [List.append_eq_nil_iff, List.map_eq_nil_iff, List.filter_eq_nil_iff]
  refine and_congr ?_ ?_
  · split_ifs with h
    · simp [h]
    · simpa using h
  · simp

/-! ## Selection -/

/-- `ModelSelectionPolicy`; the ratio is at least one. -/
structure ModelSelectionPolicy where
  contextWindowSafetyRatio : ℚ
  multiStepThreshold : ℤ
  ratio_ge : 1 ≤ contextWindowSafetyRatio

namespace ModelSelectionPolicy

def requiredContextWindow (ratio : ℚ) (minimumContextWindow : ℤ) : ℤ :=
  ⌈(minimumContextWindow : ℚ) * ratio⌉

def missing (p : ModelProfile) (req : TaskCapabilityRequirements) (requiredContext : ℤ) :
    List String :=
  missingNames "" p req requiredContext

/-- `_cost`: without the output. -/
def cost (p : ModelProfile) (inputTokens : ℤ) : ℤ :=
  match p.costProfile with
  | none => 0
  | some c => c.fixedCallCostUnits + (inputTokens * c.inputCostUnitsPer1kTokens + 999) / 1000

def latency (p : ModelProfile) : ℕ :=
  match p.costProfile with
  | none => p.latencyTier
  | some c => c.estimatedLatencyMs

/-- The amounts both policies put into a usage vector; they differ in the last two arguments. -/
def callAmount (p : ModelProfile) (inputTokens remoteCalls costUnits : ℤ) : Dimension → ℤ
  | .modelCalls => 1
  | .remoteModelCalls => remoteCalls
  | .inputTokens => inputTokens
  | .outputTokens => p.maxOutputTokens
  | .totalTokens => inputTokens + p.maxOutputTokens
  | .costUnits => costUnits
  | _ => 0

def callUsage (p : ModelProfile) (inputTokens remoteCalls costUnits : ℤ) :
    Except BudgetError BudgetUsage :=
  BudgetUsage.make (callAmount p inputTokens remoteCalls costUnits) false

/-- `_estimated_usage`: remote is what the cost metadata says. -/
def estimatedUsage (p : ModelProfile) (inputTokens : ℤ) : Except BudgetError BudgetUsage :=
  callUsage p inputTokens (if p.costProfile.any ModelCostProfile.isRemote then 1 else 0)
    (cost p inputTokens)

def requiresRemote (req : TaskCapabilityRequirements) (localProfile : Option ModelProfile)
    (rawRequired : ℤ) : Bool :=
  match localProfile with
  | none => true
  | some p => (p.contextWindow : ℤ) < rawRequired || req.requiresMultiAgent ||
      req.requiresLongReasoning || 3 ≤ req.estimatedSteps || req.riskLevel = .high

/-- Cost metadata has to be there. -/
def metadataNeeded (objective : ModelSelectionObjective) (snapshot : Option BudgetSnapshot) : Bool :=
  objective = .costFirst || snapshot.any fun s =>
    s.runBudget.limit .remoteModelCalls ≠ none || s.runBudget.limit .costUnits ≠ none

def requireMetadataIfNeeded (request : ModelSelectionRequest) (p : ModelProfile) :
    Except ModelSelectionError Unit :=
  raiseIf (metadataNeeded request.selectionObjective request.budgetSnapshot = true ∧
    p.costProfile = none) (selectionError "MODEL_BUDGET_METADATA_MISSING" (some p.profileId))

/-- `_validate_profiles`: the mapping keeps the order of the profiles. -/
def validateProfiles (profiles : List ModelProfile) :
    Except ModelSelectionError (List ModelProfile) := do
  raiseIf (profiles = []) (selectionError "no_available_profiles" none)
  raiseIf (¬ (profiles.map ModelProfile.profileId).Nodup)
    (selectionError "duplicate_profile_id" none)
  return profiles

/-- `profiles.get(profile_id)`. -/
def lookup (profiles : List ModelProfile) (profileId : ModelProfileId) : Option ModelProfile :=
  profiles.find? fun p => p.profileId = profileId

/-- `profile in eligible`, where the profile may be missing. -/
def among (p? : Option ModelProfile) (eligible : List ModelProfile) : Bool :=
  p?.any fun p => p ∈ eligible

def firstMissingReason (localProfile : Option ModelProfile) (req : TaskCapabilityRequirements)
    (requiredContext : ℤ) : ModelSelectionReason :=
  match localProfile with
  | none => .contextWindowRequired
  | some p =>
    if (p.contextWindow : ℤ) < requiredContext then .contextWindowRequired
    else if req.requiresTools && !p.supportsTools then .toolCapabilityRequired
    else if req.requiresStructuredOutput && !p.supportsStructuredOutput then
      .structuredOutputRequired
    else if req.requiresCodeReasoning && !p.supportsCodeReasoning then .codeReasoningRequired
    else .longReasoningRequired

def decision (profileId : ModelProfileId) (reason : ModelSelectionReason) (wasTruncated : Bool) :
    ModelSelectionDecision where
  selectedProfile := some profileId
  reasonCode := reason
  reasonText := reason.text
  matchedRules := if wasTruncated then [reason.value, "context_truncated"] else [reason.value]
  fallbackAllowed := false
  capabilityPreferredProfileId := some profileId
  selectedProfileId := some profileId
  selectionObjective := .qualityFirst
  budgetAdjustment := .none
  budgetReasonCode := none
  estimatedCostUnits := 0
  estimatedLatencyMs := 0
  qualityTradeoffDisclosed := false
  confirmationRequired := false

def budgetDecision (selected : ModelProfile) (preferred : ModelProfileId)
    (request : ModelSelectionRequest) (adjustment : BudgetAdjustment) (disclosed : Bool) :
    ModelSelectionDecision where
  selectedProfile := some selected.profileId
  reasonCode := .multiAgentRequired
  reasonText := "远程模型预算不足，已选择满足硬能力的本地模型。"
  matchedRules := ["budget_downgrade"]
  fallbackAllowed := false
  capabilityPreferredProfileId := some preferred
  selectedProfileId := some selected.profileId
  selectionObjective := request.selectionObjective
  budgetAdjustment := adjustment
  budgetReasonCode := some "REMOTE_BUDGET_INSUFFICIENT"
  estimatedCostUnits := cost selected request.contextRequirements.minimumContextWindow
  estimatedLatencyMs := latency selected
  qualityTradeoffDisclosed := disclosed
  confirmationRequired := false

def confirmationDecision (request : ModelSelectionRequest) : ModelSelectionDecision where
  selectedProfile := none
  reasonCode := .multiAgentRequired
  reasonText := "预算不足，需要确认。"
  matchedRules := ["budget_confirmation_required"]
  fallbackAllowed := false
  capabilityPreferredProfileId := some .remoteAdvanced
  selectedProfileId := none
  selectionObjective := request.selectionObjective
  budgetAdjustment := .requireConfirmation
  budgetReasonCode := some "REMOTE_BUDGET_INSUFFICIENT"
  estimatedCostUnits := 0
  estimatedLatencyMs := 0
  qualityTradeoffDisclosed := false
  confirmationRequired := true

/-- The profiles whose estimate the budget still covers, in order. -/
def feasibleProfiles (snapshot : BudgetSnapshot) (inputTokens : ℤ) :
    List ModelProfile → Except ModelSelectionError (List ModelProfile)
  | [] => .ok []
  | p :: ps => do
    let usage ← (estimatedUsage p inputTokens).mapError .usage
    let rest ← feasibleProfiles snapshot inputTokens ps
    return if BudgetPolicy.feasible snapshot usage then p :: rest else rest

/-- `eligible.sort(key=...)`: stable, by the objective. -/
def sortEligible (request : ModelSelectionRequest) (eligible : List ModelProfile) :
    List ModelProfile :=
  match request.selectionObjective with
  | .speedFirst => eligible.insertionSort fun p q => latency p ≤ latency q
  | .costFirst => eligible.insertionSort fun p q =>
      cost p request.contextRequirements.minimumContextWindow ≤
        cost q request.contextRequirements.minimumContextWindow
  | .qualityFirst => eligible.insertionSort fun p q => q.qualityTier ≤ p.qualityTier

variable (policy : ModelSelectionPolicy)

def checkForcedBudget (request : ModelSelectionRequest) (p : ModelProfile) :
    Except ModelSelectionError Unit :=
  match request.budgetSnapshot with
  | none => .ok ()
  | some snapshot => do
    let usage ← (estimatedUsage p request.contextRequirements.estimatedInputTokens).mapError .usage
    raiseIf (BudgetPolicy.feasible snapshot usage = false)
      (selectionError (if p.profileId = .remoteAdvanced then "forced_remote_budget_unavailable"
        else "forced_profile_budget_unavailable") (some p.profileId))

/-- The branch of a forced preference. -/
def selectForced (request : ModelSelectionRequest) (profiles : List ModelProfile)
    (profileId : ModelProfileId) (finalRequired : ℤ) :
    Except ModelSelectionError ModelSelectionDecision := do
  let p ← orRaise (lookup profiles profileId)
    (selectionError "requested_profile_unavailable" (some profileId))
  let absent := missing p request.capabilityRequirements finalRequired
  raiseIf (absent ≠ []) (.selection "forced_profile_constraints_unmet" (some profileId) absent
    finalRequired p.contextWindow)
  requireMetadataIfNeeded request p
  checkForcedBudget request p
  return decision profileId (if profileId = .localFast then .userForcedLocal else .userForcedRemote)
    request.contextRequirements.wasTruncated

/-- The end of `select`: a choice among the eligible profiles. -/
def choose (request : ModelSelectionRequest) (profiles eligible : List ModelProfile)
    (finalRequired rawRequired : ℤ) : Except ModelSelectionError ModelSelectionDecision :=
  let truncated := request.contextRequirements.wasTruncated
  let req := request.capabilityRequirements
  let localProfile := lookup profiles .localFast
  let remote := lookup profiles .remoteAdvanced
  match eligible with
  | [] => .error (.selection "no_profile_satisfies_constraints" none [] finalRequired
      ((profiles.map fun p => (p.contextWindow : ℤ)).max?.getD 0))
  | first :: _ =>
    if among remote eligible then
      if !among localProfile eligible then
        .ok (decision .remoteAdvanced (firstMissingReason localProfile req finalRequired) truncated)
      else if localProfile.any fun p => (p.contextWindow : ℤ) < rawRequired then
        .ok (decision .remoteAdvanced .contextWindowRequired truncated)
      else if req.requiresMultiAgent then .ok (decision .remoteAdvanced .multiAgentRequired false)
      else if req.requiresLongReasoning then
        .ok (decision .remoteAdvanced .longReasoningRequired false)
      else if policy.multiStepThreshold ≤ req.estimatedSteps then
        .ok (decision .remoteAdvanced .multiStepPlan false)
      else if req.riskLevel = .high then .ok (decision .remoteAdvanced .highRiskTask false)
      else .ok (decision .localFast .localSufficient truncated)
    else if among localProfile eligible then .ok (decision .localFast .localSufficient truncated)
    else .ok (decision first.profileId .localSufficient truncated)

/-- The branch of `AUTO` with a budget snapshot. -/
def selectBudgeted (request : ModelSelectionRequest) (profiles eligible : List ModelProfile)
    (snapshot : BudgetSnapshot) (finalRequired rawRequired : ℤ) :
    Except ModelSelectionError ModelSelectionDecision := do
  eligible.forM (requireMetadataIfNeeded request)
  let feasible ← feasibleProfiles snapshot request.contextRequirements.estimatedInputTokens eligible
  let localProfile := lookup profiles .localFast
  let remote := lookup profiles .remoteAdvanced
  let preferredRemote := among remote eligible &&
    requiresRemote request.capabilityRequirements localProfile rawRequired
  raiseIf (feasible = []) (selectionError "budget_unavailable" none)
  if preferredRemote && !among remote feasible then
    match localProfile, request.budgetInsufficientAction with
    | some p, .degrade =>
      if p ∈ feasible then
        return budgetDecision p .remoteAdvanced request .downgradeToLocal true
      else .error (selectionError "budget_unavailable" none)
    | _, .requireConfirmation => return confirmationDecision request
    | _, _ => .error (selectionError "budget_unavailable" none)
  else
    choose policy request profiles (sortEligible request feasible) finalRequired rawRequired

/-- The metadata check of `COST_FIRST`. -/
def requireCostMetadata (request : ModelSelectionRequest) (eligible : List ModelProfile) :
    Except ModelSelectionError Unit :=
  if request.selectionObjective = .costFirst then eligible.forM (requireMetadataIfNeeded request)
  else .ok ()

def select (request : ModelSelectionRequest) : Except ModelSelectionError ModelSelectionDecision := do
  let profiles ← validateProfiles request.availableProfiles
  let context := request.contextRequirements
  let finalRequired := requiredContextWindow policy.contextWindowSafetyRatio
    context.minimumContextWindow
  let rawMinimum := if context.rawMinimumContextWindow = 0 then context.minimumContextWindow
    else context.rawMinimumContextWindow
  let rawRequired := requiredContextWindow policy.contextWindowSafetyRatio rawMinimum
  match request.preference with
  | .forceLocal => selectForced request profiles .localFast finalRequired
  | .forceRemote => selectForced request profiles .remoteAdvanced finalRequired
  | .auto => do
    let eligible := profiles.filter fun p =>
      missing p request.capabilityRequirements finalRequired = []
    requireCostMetadata request eligible
    match request.budgetSnapshot with
    | none => choose policy request profiles eligible finalRequired rawRequired
    | some snapshot =>
      selectBudgeted policy request profiles eligible snapshot finalRequired rawRequired

end ModelSelectionPolicy

/-! ## Routing -/

inductive RoutingAdjustment where
  | none | escalateToRemote | downgradeToLocal | switchSameTier | reject | requireConfirmation
  deriving DecidableEq

structure ModelRoutingCandidate where
  profile : ModelProfile
  breakerKey : String
  adjustment : RoutingAdjustment
  reasonCode : String
  breakerOpenAtDecision : Bool
  deriving DecidableEq

structure ModelRoutingDecision where
  capabilityPreferredProfileId : Option ModelProfileId
  initialSelectedProfileId : Option ModelProfileId
  candidates : List ModelRoutingCandidate
  requiredContextWindow : ℤ
  qualityTradeoffDisclosed : Bool
  confirmationRequired : Bool
  reasonCode : String
  deriving DecidableEq

/-- What `route` raises. -/
inductive ModelRoutingError where
  | routing (reasonCode : String)
  /-- the `ValueError` of a `BudgetUsage` -/
  | usage (error : BudgetError)
  deriving DecidableEq

structure ModelRoutingPolicy where
  allowEscalation : Bool
  allowDowngrade : Bool
  requireConfirmationForDowngrade : Bool
  contextWindowSafetyRatio : ℚ

/-- The arguments of `route` that a selection request does not have. -/
structure ModelRoutingRequest where
  selectionDecision : ModelSelectionDecision
  capabilityRequirements : TaskCapabilityRequirements
  contextRequirements : ModelContextRequirements
  profiles : List ModelProfile
  preference : ModelPreference
  budgetSnapshot : Option BudgetSnapshot
  /-- the states in `breaker_snapshots` -/
  breakerStates : Dict String ModelCircuitState

namespace ModelRoutingPolicy

def preferenceAllows (preference : ModelPreference) (p : ModelProfile) : Bool :=
  match preference with
  | .forceLocal => !p.effectiveIsRemote
  | .forceRemote => p.effectiveIsRemote
  | .auto => true

def adjustment (initial candidate : ModelProfile) : RoutingAdjustment :=
  if candidate.profileId = initial.profileId then .none
  else if !initial.effectiveIsRemote && candidate.effectiveIsRemote then .escalateToRemote
  else if initial.effectiveIsRemote && !candidate.effectiveIsRemote then .downgradeToLocal
  else .switchSameTier

/-- `_reason_code`; the last two adjustments have no entry in the table and never reach it. -/
def reasonCode : RoutingAdjustment → String
  | .none => "INITIAL_SELECTION"
  | .escalateToRemote => "PROVIDER_FAILURE_ESCALATION"
  | .downgradeToLocal => "PROVIDER_FAILURE_DOWNGRADE"
  | .switchSameTier => "PROVIDER_FAILURE_SAME_TIER_SWITCH"
  | .reject | .requireConfirmation => ""

def missing (p : ModelProfile) (req : TaskCapabilityRequirements) (requiredContext : ℤ) :
    List String :=
  missingNames "requires_" p req requiredContext

/-- The cost of a call: with the output, and one unit without metadata. -/
def cost (p : ModelProfile) (inputTokens : ℤ) : ℤ :=
  match p.costProfile with
  | none => 1
  | some c => c.fixedCallCostUnits + (inputTokens * c.inputCostUnitsPer1kTokens + 999) / 1000 +
      ((p.maxOutputTokens : ℤ) * c.outputCostUnitsPer1kTokens + 999) / 1000

def budgetFeasible (snapshot : BudgetSnapshot) (p : ModelProfile) (inputTokens : ℤ) :
    Except ModelRoutingError Bool :=
  if p.costProfile = none ∧ (snapshot.runBudget.limit .costUnits ≠ none ∨
      snapshot.runBudget.limit .remoteModelCalls ≠ none) then .ok false
  else do
    let usage ← (ModelSelectionPolicy.callUsage p inputTokens
      (if p.effectiveIsRemote then 1 else 0) (cost p inputTokens)).mapError .usage
    return BudgetPolicy.feasible snapshot usage

variable (policy : ModelRoutingPolicy)

def allows : RoutingAdjustment → Bool
  | .escalateToRemote => policy.allowEscalation
  | .downgradeToLocal => policy.allowDowngrade
  | _ => true

/-- One turn of the loop of `route`. -/
def consider (request : ModelRoutingRequest) (initial : ModelProfile) (requiredContext : ℤ)
    (p : ModelProfile) : Except ModelRoutingError (Option ModelRoutingCandidate) := do
  let change := adjustment initial p
  if !preferenceAllows request.preference p ∨
      missing p request.capabilityRequirements requiredContext ≠ [] ∨ !policy.allows change then
    return none
  let feasible ←
    match request.budgetSnapshot with
    | none => pure true
    | some snapshot =>
      budgetFeasible snapshot p request.contextRequirements.estimatedInputTokens
  if feasible then
    return some ⟨p, p.effectiveBreakerKey, change, reasonCode change,
      request.breakerStates.get? p.effectiveBreakerKey = some .open⟩
  else return none

def route (request : ModelRoutingRequest) : Except ModelRoutingError ModelRoutingDecision := do
  let selection := request.selectionDecision
  let requiredContext := ModelSelectionPolicy.requiredContextWindow policy.contextWindowSafetyRatio
    request.contextRequirements.minimumContextWindow
  match selection.selectedProfileId with
  | none => return ⟨selection.capabilityPreferredProfileId, none, [], requiredContext, false, true,
      "ROUTING_CONFIRMATION_REQUIRED"⟩
  | some initialId =>
    if selection.confirmationRequired then
      return ⟨selection.capabilityPreferredProfileId, none, [], requiredContext, false, true,
        "ROUTING_CONFIRMATION_REQUIRED"⟩
    raiseIf (¬ (request.profiles.map ModelProfile.profileId).Nodup)
      (.routing "DUPLICATE_PROFILE_ID")
    let initial ← orRaise (ModelSelectionPolicy.lookup request.profiles initialId)
      (.routing "INITIAL_PROFILE_UNAVAILABLE")
    let ordered := initial :: request.profiles.filter fun p => p.profileId ≠ initialId
    let considered ← ordered.mapM (policy.consider request initial requiredContext)
    let candidates := considered.reduceOption
    let downgradeSeen := candidates.any fun c => c.adjustment = .downgradeToLocal
    raiseIf (candidates = []) (.routing "NO_ROUTING_CANDIDATE")
    if downgradeSeen && policy.requireConfirmationForDowngrade then
      return ⟨selection.capabilityPreferredProfileId, some initialId, [], requiredContext, true,
        true, "DOWNGRADE_CONFIRMATION_REQUIRED"⟩
    else
      return ⟨selection.capabilityPreferredProfileId, some initialId, candidates, requiredContext,
        selection.qualityTradeoffDisclosed || downgradeSeen, false, "ROUTING_READY"⟩

end ModelRoutingPolicy

end LocalAgent.Runtime
