import LocalAgent.Lib.Op
import LocalAgent.Runtime.IncidentAdmission

/-!
# LocalAgent.Runtime.CISimulation — `core/ci_simulation`, the simulated executions

The state of a scenario instance, the two cases of its catalogue, what one execution of a case
reports and records as evidence, and the four actions a person may apply to the state.

* `CIState.caseCatalog`, `CIState.execute`: one execution, with its evidence.
* `CIState.preview`, `CIState.applyPreview`: an action's changes, computed and written.
-/

namespace LocalAgent.Runtime

/-! ## Errors and digests -/

/-- What a transaction of the business services raises: a `CIError`, or an error of the program. -/
inductive CIFailure where
  | ciError (code : String) (status : ℕ)
  | valueError (code : String)
  | keyError (key : String)
  deriving DecidableEq

def sha256Digest (value : Json) : String := Sha256.hexdigest value.canonical

def presentFields (fields : List (String × Option Json)) : List (String × Json) :=
  fields.filterMap fun f => f.2.map (f.1, ·)

/-! ## State -/

/-- `environment`; the two last fields are absent from old instances. -/
structure CIEnvironment where
  environmentId : String
  ip : String
  softwareVersion : String
  parserVersion : String
  decoderTableVersion : String
  parserSupportedFieldRevision : ℤ
  decoderSupportedFieldRevision : ℤ
  featureFlags : Option (Dict String Bool)
  bufferBehavior : Option String

structure CICase where
  caseId : String
  featureId : String
  requiredFieldRevision : ℤ
  inputRevision : ℤ
  goldenId : String
  goldenVersion : String
  comparisonRuleId : String
  compressedTransport : Option Bool := none
  inputContract : Option String := none
  bufferRequirement : Option String := none
  payloadMatchesGolden : Option Bool := none
  reportFieldRevision : Option ℤ := none
  caseId_text : caseId ≠ ""

theorem reportCompare_text : "case-report-compare" ≠ "" := by decide

theorem legacyReport_text : "case-legacy-report" ≠ "" := by decide

theorem reportHealth_text : "case-report-health" ≠ "" := by decide

structure CIReport where
  reportArtifactId : String
  fieldRevision : ℤ
  payloadMatchesGolden : Bool

/-- `current_state` of an instance. -/
structure CIState where
  environment : CIEnvironment
  testCase : CICase
  report : CIReport
  diagnosticsComplete : Bool
  regressionCompanion : Option CICase := none

/-- The fields of an environment; without diagnostics the tools are not recorded. -/
def CIEnvironment.fields (env : CIEnvironment) (complete : Bool) : List (String × Json) :=
  let tool (value : Json) : Json := if complete then value else .null
  [("environment_id", .str env.environmentId), ("ip", .str env.ip),
    ("software_version", .str env.softwareVersion),
    ("parser_version", tool (.str env.parserVersion)),
    ("decoder_table_version", tool (.str env.decoderTableVersion)),
    ("parser_supported_field_revision", tool (.int env.parserSupportedFieldRevision)),
    ("decoder_supported_field_revision", tool (.int env.decoderSupportedFieldRevision))] ++
  presentFields [
    ("feature_flags", env.featureFlags.map fun flags => .obj (flags.mapValues Json.bool).entries),
    ("buffer_behavior", env.bufferBehavior.map .str)] ++
  if complete then [] else [("missing_reason", .str "工具安装与能力记录未采集")]

def CICase.fields (case : CICase) : List (String × Json) :=
  [("case_id", Json.str case.caseId), ("feature_id", Json.str case.featureId),
    ("required_field_revision", Json.int case.requiredFieldRevision),
    ("input_revision", Json.int case.inputRevision), ("golden_id", Json.str case.goldenId),
    ("golden_version", Json.str case.goldenVersion),
    ("comparison_rule_id", Json.str case.comparisonRuleId)] ++
  presentFields [("compressed_transport", case.compressedTransport.map .bool),
    ("input_contract", case.inputContract.map .str),
    ("buffer_requirement", case.bufferRequirement.map .str),
    ("payload_matches_golden", case.payloadMatchesGolden.map .bool),
    ("report_field_revision", case.reportFieldRevision.map .int)]

/-- The primary case and its related one, by the primary case the instance really has. -/
def CIState.caseCatalog (state : CIState) : List CICase :=
  let primary := state.testCase
  match state.regressionCompanion with
  | some companion => [primary, companion]
  | none =>
    let related (caseId feature : String) (revision : ℤ) (caseId_text : caseId ≠ "") : CICase :=
      { caseId, featureId := feature, requiredFieldRevision := revision, inputRevision := revision,
        goldenId := "golden-" ++ caseId, goldenVersion := "1",
        comparisonRuleId := "semantic-fields-equal/1", payloadMatchesGolden := some true,
        caseId_text }
    if primary.caseId = "case-legacy-buffer" then
      [primary, { related "case-modern-buffer" "feature-modern-buffer" 2 (by decide) with
        bufferRequirement := some "modern" }]
    else if primary.caseId = "case-report-compare" then
      [primary, related "case-legacy-field-health" "feature-legacy-fields" 1 (by decide)]
    else [primary, related "case-report-health" "feature-report-health" 2 (by decide)]

/-- `required_case_ids`. -/
def CIState.caseIds (state : CIState) : List String := state.caseCatalog.map CICase.caseId

theorem CIState.ne_empty_of_mem_caseIds {state : CIState} {caseId : String}
    (h : caseId ∈ state.caseIds) : caseId ≠ "" := by
  obtain ⟨case, -, rfl⟩ := List.mem_map.mp h
  exact case.caseId_text

/-! ## Execution -/

structure ProductRelease where
  requiredTlvRevision : ℤ
  bufferBehavior : String

/-- `PRODUCT_RELEASES`. -/
def productReleases : List (String × ProductRelease) :=
  [("product-2.0", ⟨2, "compatible"⟩), ("product-2.1", ⟨2, "compact"⟩),
    ("product-2.1.1", ⟨2, "compatible"⟩)]

def productRelease (version : String) : Except CIFailure ProductRelease :=
  orRaise (productReleases.lookup version) (.keyError version)

inductive CIOutcome where
  | pass | fail
  deriving DecidableEq

def CIOutcome.value : CIOutcome → String
  | .pass => "PASS"
  | .fail => "FAIL"

structure EvidenceEntry where
  evidenceId : String
  executionId : String
  kind : String
  capturedAt : String
  availability : String
  mediaType : String
  digest : Option String
  content : Option Json
  missingReason : Option String

def EvidenceEntry.toJson (entry : EvidenceEntry) : Json :=
  .obj [("evidence_id", .str entry.evidenceId), ("execution_id", .str entry.executionId),
    ("kind", .str entry.kind), ("captured_at", .str entry.capturedAt),
    ("availability", .str entry.availability), ("media_type", .str entry.mediaType),
    ("digest", .ofOption entry.digest), ("content", entry.content.getD .null),
    ("missing_reason", .ofOption entry.missingReason)]

def manifestDigestOf (manifest : List EvidenceEntry) : String :=
  sha256Digest (.arr ((manifest.insertionSort fun a b => a.evidenceId ≤ b.evidenceId).map
    EvidenceEntry.toJson))

/-- What `execute` returns. -/
structure ExecutionResult where
  startedAt : ℤ
  completedAt : ℤ
  outcome : CIOutcome
  executionSnapshot : CIState
  summary : Json
  evidenceManifest : List EvidenceEntry
  evidenceDigest : String

/-- The buffers a behaviour accepts. -/
def allowedBuffers (behavior : String) : Except CIFailure (List String) :=
  orRaise ([("compact", ["modern"]), ("legacy", ["legacy"]),
    ("compatible", ["legacy", "modern"])].lookup behavior) (.keyError behavior)

structure Findings where
  preError : Option String
  productError : Option String
  parserError : Option String
  comparisonError : Option String
  parserRan : Bool
  compared : Bool
  outcome : CIOutcome

/-- The findings on a snapshot whose case and report are the executed ones. -/
def CIState.findings (snapshot : CIState) (release : ProductRelease) :
    Except CIFailure Findings := do
  let env := snapshot.environment
  let case := snapshot.testCase
  let revision := snapshot.report.fieldRevision
  let flagError := match case.compressedTransport with
    | some wanted => ((env.featureFlags.bind (·.get? "compressed_transport")).getD true) != wanted
    | none => false
  let inputError := case.inputContract == some "tlv" &&
    (decide (case.inputRevision < release.requiredTlvRevision) || revision != case.inputRevision)
  let preError := if flagError then some "FEATURE_FLAG_CONFLICT"
    else if inputError then some "TLV_INPUT_REVISION_STALE" else none
  let allowed ← allowedBuffers (env.bufferBehavior.getD release.bufferBehavior)
  let productError := match case.bufferRequirement with
    | some buffer =>
      if buffer ≠ "" ∧ buffer ∉ allowed then some "BUFFER_CONTRACT_MISMATCH" else none
    | none => none
  let parserRan := preError.isNone && productError.isNone
  let compatible := decide (revision ≤ env.parserSupportedFieldRevision) &&
    decide (revision ≤ env.decoderSupportedFieldRevision)
  let matching := snapshot.report.payloadMatchesGolden
  let parserError := if parserRan && !compatible then some "UNSUPPORTED_FIELD_REVISION" else none
  return {
    preError, productError, parserRan, parserError
    compared := parserRan && compatible
    comparisonError := if parserError.isSome then some "PARSE_RESULT_EMPTY"
      else if parserRan && compatible && !matching then some "GOLDEN_MISMATCH" else none
    outcome := if parserRan && compatible && matching then .pass else .fail }

def stageJson (stage : String) (ran : Bool) (error : Option String) : Json :=
  .obj [("stage", .str stage), ("status", .str (if ran then "EXECUTED" else "SKIPPED")),
    ("error", .ofOption error)]

def Findings.stages (found : Findings) : Json :=
  .arr [stageJson "PRECHECK" true found.preError,
    stageJson "PRODUCT" found.preError.isNone
      (if found.preError.isNone then found.productError else none),
    stageJson "PARSER" found.parserRan found.parserError,
    stageJson "COMPARISON" found.parserRan found.comparisonError]

def CIState.summaryOf (snapshot : CIState) (found : Findings) (executionId captured : String) :
    Json :=
  .obj [("execution_id", .str executionId),
    ("environment_id", .str snapshot.environment.environmentId),
    ("case_id", .str snapshot.testCase.caseId), ("outcome", .str found.outcome.value),
    ("completed_at", .str captured), ("stages", found.stages)]

/-- The recorded contents by kind; an incomplete diagnosis has no parser log. -/
def CIState.contents (snapshot : CIState) (release : ProductRelease) (found : Findings)
    (executionId captured : String) : List (String × Option Json) :=
  let env := snapshot.environment
  let complete := snapshot.diagnosticsComplete
  let common : List (String × Json) := [("execution_id", .str executionId),
    ("artifact_id", .str snapshot.report.reportArtifactId),
    ("call_id", .str (executionId ++ ":compare"))]
  let skipped : Json := .ofOption (found.preError <|> found.productError)
  let parser : Json := .obj (common ++ [("field_revision", .int snapshot.report.fieldRevision),
    ("parser_supported_field_revision", .int env.parserSupportedFieldRevision),
    ("decoder_supported_field_revision", .int env.decoderSupportedFieldRevision),
    ("parser_version", .str env.parserVersion),
    ("decoder_table_version", .str env.decoderTableVersion),
    ("status", .str (if found.parserRan then "EXECUTED" else "SKIPPED")),
    ("skipped_reason", skipped), ("error", .ofOption found.parserError),
    ("parsed_fields", if found.compared then .obj [("report", .str "decoded")] else .null)])
  let comparison : Json := if complete then
      .obj (common ++ [("caller", .str "COMPARE"), ("callee", .str "PARSER"),
        ("golden_comparison_performed", .bool found.compared),
        ("outcome", .str found.outcome.value), ("error", .ofOption found.comparisonError),
        ("skipped_reason", skipped)])
    else .obj (common ++ [("caller", .str "COMPARE"), ("outcome", .str found.outcome.value),
      ("detail", .str "比较阶段未获得可用结果；调用详细记录未采集")])
  [("CI_SUMMARY", some (snapshot.summaryOf found executionId captured)),
    ("AUTOMATION_LOG", some (.obj (common ++ [("caller", .str "AUTOMATION"),
      ("callee", .str "COMPARE"), ("outcome", .str found.outcome.value), ("stages", found.stages),
      ("container_type", .str "simulated-compressed-report"),
      ("product_release", .obj [("required_tlv_revision", .int release.requiredTlvRevision),
        ("buffer_behavior", .str release.bufferBehavior)])]))),
    ("COMPARISON_LOG", some comparison), ("PARSER_LOG", if complete then some parser else none),
    ("ENVIRONMENT_RECORD", some (.obj (common ++ env.fields complete))),
    ("CASE_REQUIREMENTS", some (.obj (common ++ snapshot.testCase.fields)))]

/-- The entry of one content; `uuid5` is the name-based UUID of a text. -/
def evidenceEntry (uuid5 : String → String) (executionId captured kind : String)
    (content : Option Json) : EvidenceEntry where
  evidenceId := uuid5 (executionId ++ ":" ++ kind)
  executionId
  kind
  capturedAt := captured
  availability := if content.isSome then "AVAILABLE" else "MISSING"
  mediaType := "application/json"
  digest := content.map sha256Digest
  content
  missingReason := if content.isSome then none else some "解析日志未采集"

/-- The report of the executed case: the state's own for the primary case. -/
def CIState.reportOf (state : CIState) (selected : CICase) : Except CIFailure CIReport :=
  if selected.caseId ≠ state.testCase.caseId then
    (orRaise selected.payloadMatchesGolden (.keyError "payload_matches_golden")).map fun matching =>
      ⟨"report-input", selected.reportFieldRevision.getD selected.requiredFieldRevision, matching⟩
  else .ok state.report

/-- The state with the executed case in place of its own, and the report of that case. -/
def CIState.snapshotOf (state : CIState) (executionId : String) (selected : CICase) :
    Except CIFailure CIState := do
  let report ← state.reportOf selected
  return { state with
    testCase := selected
    report := { report with reportArtifactId := executionId ++ ":report" } }

def CIState.execute (state : CIState) (uuid5 : String → String) (executionId : String)
    (caseId : Option String) (now : ℤ) : Except CIFailure ExecutionResult := do
  let wanted := match caseId with
    | some name => if name = "" then state.testCase.caseId else name
    | none => state.testCase.caseId
  let selected ← orRaise (state.caseCatalog.find? (·.caseId = wanted))
    (.valueError "CI_CASE_UNKNOWN")
  let snapshot ← state.snapshotOf executionId selected
  let release ← productRelease snapshot.environment.softwareVersion
  let found ← snapshot.findings release
  let manifest := (snapshot.contents release found executionId (isoTime now)).map fun entry =>
    evidenceEntry uuid5 executionId (isoTime now) entry.1 entry.2
  return {
    startedAt := now
    completedAt := now
    outcome := found.outcome
    executionSnapshot := snapshot
    summary := snapshot.summaryOf found executionId (isoTime now)
    evidenceManifest := manifest
    evidenceDigest := manifestDigestOf manifest }

/-! ## Actions -/

inductive ActionKind where
  | upgradeParserDecoder | setFeatureFlag | refreshCaseInput | deliverProductFix
  deriving DecidableEq

inductive ActionParameters where
  | targetVersion (version : String)
  | compressedTransport (flag : Bool)
  | targetRevision (revision : ℤ)
  deriving DecidableEq

/-- `ACTION_OPTIONS`: the title and the only parameters of each kind. -/
def ActionKind.option : ActionKind → String × ActionParameters
  | .upgradeParserDecoder => ("升级 parser/decoder", .targetVersion "2.0")
  | .setFeatureFlag => ("设置 compressed_transport", .compressedTransport false)
  | .refreshCaseInput => ("刷新主用例 TLV 输入", .targetRevision 2)
  | .deliverProductFix =>
    ("模拟研发交付 product-2.1.1（不修改真实代码）", .targetVersion "product-2.1.1")

/-- A value that an action reads or writes. -/
inductive FieldValue where
  | text (s : String)
  | number (n : ℤ)
  | flag (b : Bool)
  deriving DecidableEq

/-- The fields that actions change and comparisons read. -/
inductive StateField where
  | softwareVersion | parserVersion | decoderTableVersion | parserSupportedFieldRevision
  | decoderSupportedFieldRevision | bufferBehavior | compressedTransport | inputRevision
  | reportFieldRevision
  deriving DecidableEq

def StateField.path : StateField → List String
  | softwareVersion => ["environment", "software_version"]
  | parserVersion => ["environment", "parser_version"]
  | decoderTableVersion => ["environment", "decoder_table_version"]
  | parserSupportedFieldRevision => ["environment", "parser_supported_field_revision"]
  | decoderSupportedFieldRevision => ["environment", "decoder_supported_field_revision"]
  | bufferBehavior => ["environment", "buffer_behavior"]
  | compressedTransport => ["environment", "feature_flags", "compressed_transport"]
  | inputRevision => ["test_case", "input_revision"]
  | reportFieldRevision => ["report", "field_revision"]

/-- What stands at the field's path, if anything. -/
def CIState.read (state : CIState) : StateField → Option FieldValue
  | .softwareVersion => some (.text state.environment.softwareVersion)
  | .parserVersion => some (.text state.environment.parserVersion)
  | .decoderTableVersion => some (.text state.environment.decoderTableVersion)
  | .parserSupportedFieldRevision => some (.number state.environment.parserSupportedFieldRevision)
  | .decoderSupportedFieldRevision => some (.number state.environment.decoderSupportedFieldRevision)
  | .bufferBehavior => state.environment.bufferBehavior.map .text
  | .compressedTransport =>
    (state.environment.featureFlags.bind (·.get? "compressed_transport")).map .flag
  | .inputRevision => some (.number state.testCase.inputRevision)
  | .reportFieldRevision => some (.number state.report.fieldRevision)

/-- The state with one field written; the two kinds always agree in the code's own changes. -/
def CIState.write (state : CIState) (field : StateField) (after : FieldValue) : CIState :=
  let env := state.environment
  match field, after with
  | .softwareVersion, .text v => { state with environment := { env with softwareVersion := v } }
  | .parserVersion, .text v => { state with environment := { env with parserVersion := v } }
  | .decoderTableVersion, .text v =>
    { state with environment := { env with decoderTableVersion := v } }
  | .parserSupportedFieldRevision, .number n =>
    { state with environment := { env with parserSupportedFieldRevision := n } }
  | .decoderSupportedFieldRevision, .number n =>
    { state with environment := { env with decoderSupportedFieldRevision := n } }
  | .bufferBehavior, .text v => { state with environment := { env with bufferBehavior := some v } }
  | .compressedTransport, .flag b =>
    { state with environment := { env with
        featureFlags := some ((env.featureFlags.getD Dict.empty).set "compressed_transport" b) } }
  | .inputRevision, .number n =>
    { state with testCase := { state.testCase with inputRevision := n } }
  | .reportFieldRevision, .number n =>
    { state with report := { state.report with fieldRevision := n } }
  | _, _ => state

structure StateChange where
  field : StateField
  before : Option FieldValue
  after : FieldValue
  deriving DecidableEq

def CIState.writes (state : CIState) (kind : ActionKind) :
    Except CIFailure (List (StateField × FieldValue)) := do
  match kind with
  | .upgradeParserDecoder => return [(.parserVersion, .text "parser-2.0"),
      (.decoderTableVersion, .text "decoder-2.0"), (.parserSupportedFieldRevision, .number 2),
      (.decoderSupportedFieldRevision, .number 2)]
  | .setFeatureFlag => return [(.compressedTransport, .flag false)]
  | .refreshCaseInput =>
    raiseIf (state.testCase.inputContract ≠ some "tlv") (.ciError "CI_ACTION_TARGET_INVALID" 422)
    let release ← productRelease state.environment.softwareVersion
    raiseIf (release.requiredTlvRevision ≠ 2) (.ciError "CI_ACTION_TARGET_INVALID" 422)
    return [(.inputRevision, .number 2), (.reportFieldRevision, .number 2)]
  | .deliverProductFix =>
    raiseIf (state.testCase.bufferRequirement ≠ some "legacy")
      (.ciError "CI_ACTION_TARGET_INVALID" 422)
    let release ← productRelease "product-2.1.1"
    return [(.softwareVersion, .text "product-2.1.1"),
      (.bufferBehavior, .text release.bufferBehavior)]

/-- What `preview` returns; the source kind is always HUMAN_MANUAL. -/
structure ActionPreview where
  actionKind : ActionKind
  targetCaseId : Option String
  changes : List StateChange
  environmentId : String
  caseIds : List String
  description : String
  deriving DecidableEq

def CIState.preview (state : CIState) (kind : ActionKind) (targetCaseId : Option String)
    (parameters : ActionParameters) : Except CIFailure ActionPreview := do
  raiseIf (targetCaseId.isSome ∧ targetCaseId ≠ some state.testCase.caseId)
    (.ciError "CI_ACTION_TARGET_INVALID" 422)
  raiseIf (parameters ≠ kind.option.2) (.ciError "CI_ACTION_PARAMETERS_INVALID" 422)
  let writes ← state.writes kind
  let changes := (writes.filter fun w => state.read w.1 ≠ some w.2).map fun w =>
    StateChange.mk w.1 (state.read w.1) w.2
  raiseIf (changes = []) (.ciError "CI_ACTION_NO_CHANGE" 409)
  return ⟨kind, targetCaseId, changes, state.environment.environmentId, state.caseIds,
    kind.option.1⟩

def CIState.applyPreview (state : CIState) (kind : ActionKind) (targetCaseId : Option String)
    (parameters : ActionParameters) (frozen : ActionPreview) : Except CIFailure CIState := do
  let found ← state.preview kind targetCaseId parameters
  raiseIf (found ≠ frozen) (.ciError "CI_ACTION_STALE" 409)
  return frozen.changes.foldl (fun updated change => updated.write change.field change.after) state

end LocalAgent.Runtime
