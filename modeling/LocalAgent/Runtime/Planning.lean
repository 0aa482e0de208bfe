import LocalAgent.Lib.DateTime
import LocalAgent.Lib.Op
import LocalAgent.Lib.Text

/-!
# LocalAgent.Runtime.Planning — `core/runtime/planning.py`

The immutable description of a plan and the field checks of `PlanValidator`.  Checks that the types
already make (an enum member, a tuple of strings) have no counterpart here.
-/

namespace LocalAgent.Runtime

inductive PlanSource where
  | deterministic | modelGenerated | legacyAdapter
  deriving DecidableEq

inductive RiskLevel where
  | low | medium | high
  deriving DecidableEq

inductive ExecutionKind where
  | agent | synthesis
  deriving DecidableEq

inductive OutputPolicy where
  | internal | finalPassthrough | finalSynthesis
  deriving DecidableEq

/-- What a task needs; `__post_init__` is the last field. -/
structure TaskCapabilityRequirements where
  requiresPlanning : Bool
  requiresTools : Bool
  requiresRag : Bool
  requiresMultiAgent : Bool
  requiresCodeReasoning : Bool
  requiresStructuredOutput : Bool
  requiresLongReasoning : Bool
  riskLevel : RiskLevel
  estimatedSteps : ℤ
  estimatedSteps_pos : 0 < estimatedSteps
  deriving DecidableEq

/-- `TaskCapabilityRequirements()`. -/
def TaskCapabilityRequirements.default : TaskCapabilityRequirements :=
  ⟨false, false, false, false, false, false, false, .low, 1, by decide⟩

structure PlanStep where
  stepId : String
  title : String
  description : String
  dependsOn : List String
  completionCriteria : String
  preferredAgent : String
  capabilityRequirements : TaskCapabilityRequirements
  executionKind : ExecutionKind
  outputPolicy : OutputPolicy
  deriving DecidableEq

structure Plan where
  planId : String
  version : ℤ
  taskSummary : String
  steps : List PlanStep
  createdAt : DateTime
  source : PlanSource
  deriving DecidableEq

/-- The exceptions of `planning.py` and `plan_graph.py`. -/
inductive PlanError where
  /-- a `ValueError` of `PlanValidator` -/
  | value (message : String)
  /-- `PlanGraphValidationError` -/
  | graph (errorCode message planId : String) (planVersion : ℤ)
      (stepId dependencyStepId : Option String) (cyclePath unresolvedStepIds : List String)
  /-- the `AssertionError` of `_find_cycle` -/
  | assertion (message : String)
  deriving DecidableEq

namespace PlanValidator

def validateStep (step : PlanStep) : Except PlanError Unit := do
  raiseIf (Text.isBlank step.stepId = true) (.value "step_id 不能为空")
  raiseIf (Text.isBlank step.title = true) (.value "title 不能为空")
  raiseIf (∃ dependency ∈ step.dependsOn, Text.isBlank dependency = true)
    (.value "depends_on 只能包含非空步骤标识")
  raiseIf (Text.isBlank step.completionCriteria = true) (.value "completion_criteria 不能为空")
  raiseIf (Text.isBlank step.preferredAgent = true) (.value "preferred_agent 不能为空")

/-- `PlanValidator.validate`.  Two aware date-times are compared as instants, so the comparison of
`created_at` with its UTC form holds for every aware value. -/
def validate (plan : Plan) : Except PlanError Unit := do
  raiseIf (Text.isBlank plan.planId = true) (.value "plan_id 不能为空")
  raiseIf (plan.version ≤ 0) (.value "version 必须是正整数")
  raiseIf (plan.createdAt.utcoffset = none) (.value "created_at 必须是带时区的 UTC 时间")
  raiseIf (plan.steps = []) (.value "Plan 必须包含至少一个合法步骤")
  plan.steps.forM validateStep

end PlanValidator

end LocalAgent.Runtime
