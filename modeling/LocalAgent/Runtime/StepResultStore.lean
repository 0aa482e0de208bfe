import LocalAgent.Runtime.Scheduler

/-!
# LocalAgent.Runtime.StepResultStore — `core/runtime/step_result.py`, `step_result_store.py`

The results of the steps of one run.  An entry is written once as `PREPARED`, becomes `READABLE`
after its step has succeeded, and is handed to the steps that depend on it.  Every operation is one
locked section, except `rehydrate_readable`, which is two of them.

* `StepResult`, `DependencyResultView`: values that carry what their constructors check.
* `writePrepared_ok`, `markReadable_ok`, `dependencyViewFor_ok`, `readFinalContent_ok`: what a call
  that returned has checked and done.
* `allOrNothing_writePrepared` and the like: a section that raises has changed nothing.
-/

namespace LocalAgent.Runtime

/-! ## Results -/

inductive ResultContentType where
  | text | markdown
  deriving DecidableEq

inductive ResultDisposition where
  | normal | securityDenied
  deriving DecidableEq

inductive SecurityDenialCode where
  | toolPermissionDenied | toolApprovalRequired | toolGovernanceUnknownPrincipal
  | toolGovernancePolicyMissing | toolRiskUnclassified | toolResourceDenied
  deriving DecidableEq

def DenialAgrees (disposition : ResultDisposition) (code : Option SecurityDenialCode) : Prop :=
  ¬ (disposition = .normal ∧ code ≠ none ∨ disposition = .securityDenied ∧ code = none)
  deriving Decidable

/-- The result of one plan step, with what its constructor checks. -/
structure StepResult where
  stepId : String
  producerAgentId : String
  contentType : ResultContentType
  content : String
  complete : Bool
  resultDisposition : ResultDisposition
  securityDenialCode : Option SecurityDenialCode
  stepId_ne : stepId ≠ ""
  producerAgentId_ne : producerAgentId ≠ ""
  content_not_blank : ¬ Text.isBlank content = true
  denial : DenialAgrees resultDisposition securityDenialCode
  deriving DecidableEq

/-- A text of the agent `agent`. -/
def StepResult.ofText (stepId : String) (h : stepId ≠ "") : StepResult :=
  ⟨stepId, "agent", .text, "text", true, .normal, none, h, by decide, by decide, by decide⟩

theorem StepResult.a_ne : "a" ≠ "" := by decide

theorem StepResult.b_ne : "b" ≠ "" := by decide

/-! ## The store -/

inductive StepResultStoreErrorCode where
  | unknownProducer | duplicateWrite | storeSealed | storeCleared | preparedNotReadable
  | producerNotSucceeded | consumerNotClaimed | consumerNotDependent | entryNotReadable
  | identityMismatch | readNotAllowed | capacityExceeded | invalidLimit
  deriving DecidableEq

inductive StoreFaultPoint where
  | beforeWritePrepared | beforeMarkReadable | beforeDependencyRead
  deriving DecidableEq

inductive StoreError where
  /-- `StepResultStoreError` -/
  | store (errorCode : StepResultStoreErrorCode) (safeMessage : String)
  /-- the `ValueError` of `DependencyResultView` -/
  | value (message : String)
  | fault (point : StoreFaultPoint)
  deriving DecidableEq

inductive StoreEntryStatus where
  | prepared | readable
  deriving DecidableEq

inductive StoreStatus where
  | open | sealed | cleared
  deriving DecidableEq

/-- One dependency as a consumer sees it; `__init__` checks the last field. -/
structure DependencyResultEntry where
  stepId : String
  producerAgentId : String
  contentType : ResultContentType
  content : String
  complete : Bool
  resultDisposition : ResultDisposition
  securityDenialCode : Option SecurityDenialCode
  denial : DenialAgrees resultDisposition securityDenialCode
  deriving DecidableEq

/-- The dependencies of one consumer, each step at most once. -/
structure DependencyResultView where
  entries : List DependencyResultEntry
  nodup : (entries.map DependencyResultEntry.stepId).Nodup
  deriving DecidableEq

/-- `DependencyResultView(entries)`. -/
def DependencyResultView.new (entries : List DependencyResultEntry) :
    Except StoreError DependencyResultView :=
  if h : (entries.map DependencyResultEntry.stepId).Nodup then .ok ⟨entries, h⟩
  else .error (.value "dependency view 不允许重复 step_id")

/-- `_StoreEntry`: the fields of the result and the status. -/
structure StoreEntry where
  result : StepResult
  status : StoreEntryStatus
  deriving DecidableEq

def StoreEntry.toDependencyEntry (entry : StoreEntry) : DependencyResultEntry where
  stepId := entry.result.stepId
  producerAgentId := entry.result.producerAgentId
  contentType := entry.result.contentType
  content := entry.result.content
  complete := entry.result.complete
  resultDisposition := entry.result.resultDisposition
  securityDenialCode := entry.result.securityDenialCode
  denial := entry.result.denial

/-- The plan and the limits of a store, with what `__init__` checks. -/
structure StoreConfig where
  plan : Plan
  perResultChars : ℕ
  runTotalChars : ℕ
  maxEntries : ℕ
  perResultChars_pos : 0 < perResultChars
  maxEntries_pos : 0 < maxEntries
  perResultChars_le : perResultChars ≤ runTotalChars

structure StepResultStore where
  entries : Dict String StoreEntry
  status : StoreStatus

/-- `agent_state.steps.get(step_id)` is there and `SUCCEEDED`. -/
def AgentState.Succeeded (state : AgentState) (stepId : String) : Prop :=
  ∃ step ∈ state.steps.get? stepId, step.status = .succeeded
  deriving Decidable

/-- `_plan_step`: the first step of the plan with this id. -/
def Plan.step? (plan : Plan) (stepId : String) : Option PlanStep :=
  plan.steps.find? fun step => step.stepId = stepId

namespace StepResultStore

def new : StepResultStore := ⟨Dict.empty, .open⟩

/-- The raise of a matched fault rule. -/
def evaluateFault (fault : Bool) (point : StoreFaultPoint) : Except StoreError Unit :=
  raiseIf (fault = true) (.fault point)

def requireOpen (store : StepResultStore) : Except StoreError Unit := do
  raiseIf (store.status = .sealed) (.store .storeSealed "Store 已 seal，拒绝读写")
  raiseIf (store.status = .cleared) (.store .storeCleared "Store 已 clear，拒绝读写")

/-- `sum(len(item.content) for item in self._entries.values())`. -/
def totalChars (store : StepResultStore) : ℕ :=
  (store.entries.values.map fun entry => entry.result.content.length).sum

variable (cfg : StoreConfig)

/-- The checks of `write_prepared` against the plan, the earlier entries and the limits. -/
def checkWrite (store : StepResultStore) (entry : StepResult) (expectedAgentId : String) :
    Except StoreError Unit := do
  let planStep ← orRaise (cfg.plan.step? entry.stepId)
    (.store .unknownProducer "producer Step 不属于当前 Plan")
  raiseIf (planStep.preferredAgent ≠ expectedAgentId)
    (.store .identityMismatch "expected agent 与 Plan 不一致")
  raiseIf (entry.producerAgentId ≠ expectedAgentId)
    (.store .identityMismatch "result producer 与 claim/Plan 不一致")
  raiseIf (entry.stepId ∈ store.entries.keys)
    (.store .duplicateWrite "每个 logical Step 只允许一次成功写入")
  raiseIf (entry.content.length > cfg.perResultChars)
    (.store .capacityExceeded "单结果大小超过上限")
  raiseIf (store.totalChars + entry.content.length > cfg.runTotalChars)
    (.store .capacityExceeded "Run 结果总字符数超过上限")
  raiseIf (store.entries.entries.length ≥ cfg.maxEntries)
    (.store .capacityExceeded "Store 条目数量超过上限")

def writePrepared (fault : Bool) (entry : StepResult) (expectedAgentId : String) :
    Op StoreError StepResultStore Unit := do
  Op.lift (evaluateFault fault .beforeWritePrepared)
  let store ← get
  Op.lift store.requireOpen
  Op.lift (store.checkWrite cfg entry expectedAgentId)
  set { store with entries := store.entries.set entry.stepId ⟨entry, .prepared⟩ }

/-- The checks of `mark_readable`; the entry it is about to mark. -/
def checkMark (store : StepResultStore) (stepId : String) (state : AgentState) :
    Except StoreError StoreEntry := do
  let entry ← orRaise (store.entries.get? stepId)
    (.store .unknownProducer "没有可标记的 PREPARED entry")
  raiseIf (entry.status = .readable) (.store .duplicateWrite "entry 已 READABLE，禁止重复提交")
  raiseIf (¬ state.Succeeded stepId)
    (.store .producerNotSucceeded "producer Step 尚未 SUCCEEDED")
  pure entry

def markReadable (fault : Bool) (stepId : String) (state : AgentState) :
    Op StoreError StepResultStore Unit := do
  Op.lift (evaluateFault fault .beforeMarkReadable)
  let store ← get
  Op.lift store.requireOpen
  let entry ← Op.lift (store.checkMark stepId state)
  set { store with entries := store.entries.set stepId { entry with status := .readable } }

/-- `rehydrate_readable`: two sections, and nothing holds the lock between them. -/
def rehydrateReadable (writeFault markFault : Bool) (entry : StepResult) (state : AgentState) :
    Op StoreError StepResultStore Unit := do
  writePrepared cfg writeFault entry entry.producerAgentId
  markReadable markFault entry.stepId state

/-- One producer of `dependency_view_for`. -/
def dependencyEntry (store : StepResultStore) (state : AgentState) (producerId : String) :
    Except StoreError DependencyResultEntry := do
  let producerStep ← orRaise (cfg.plan.step? producerId)
    (.store .unknownProducer "依赖 producer Step 不属于当前 Plan")
  let entry ← orRaise (store.entries.get? producerId)
    (.store .entryNotReadable "缺少 required producer result")
  raiseIf (entry.status ≠ .readable)
    (.store .entryNotReadable "producer result 尚未 READABLE")
  raiseIf (¬ state.Succeeded producerId)
    (.store .producerNotSucceeded "producer Step 尚未 SUCCEEDED")
  raiseIf (entry.result.producerAgentId ≠ producerStep.preferredAgent)
    (.store .identityMismatch "producer identity 与 Plan 不一致")
  pure entry.toDependencyEntry

/-- The consumer's own checks; what it depends on. -/
def consumerDependencies (claim : StepClaim) : Except StoreError (List String) := do
  raiseIf (claim.planId ≠ cfg.plan.planId)
    (.store .consumerNotClaimed "consumer claim 不属于当前 Plan")
  let planStep ← orRaise (cfg.plan.step? claim.stepId)
    (.store .consumerNotClaimed "consumer Step 不属于当前 Plan")
  raiseIf (planStep.preferredAgent ≠ claim.preferredAgent)
    (.store .consumerNotClaimed "consumer claim agent 与 Plan 不一致")
  raiseIf (planStep.dependsOn = [])
    (.store .readNotAllowed "consumer 没有显式依赖，禁止读取结果")
  pure planStep.dependsOn

def dependencyViewFor (fault : Bool) (claim : StepClaim) (state : AgentState) :
    Op StoreError StepResultStore DependencyResultView := do
  Op.lift (evaluateFault fault .beforeDependencyRead)
  let store ← get
  Op.lift store.requireOpen
  let dependsOn ← Op.lift (consumerDependencies cfg claim)
  let entries ← Op.lift (dependsOn.mapM (store.dependencyEntry cfg state))
  Op.lift (DependencyResultView.new entries)

def hasReadable (store : StepResultStore) (stepId : String) : Bool :=
  store.status = .open && (store.entries.get? stepId).any (·.status = .readable)

/-- The checks of `read_final_content`; the content. -/
def finalContent (store : StepResultStore) (stepId : String) : Except StoreError String := do
  raiseIf (store.status ≠ .open) (.store .storeSealed "Store 已 seal，拒绝读取 final 正文")
  let planStep ← orRaise (cfg.plan.step? stepId)
    (.store .unknownProducer "final Step 不属于当前 Plan")
  raiseIf (planStep.outputPolicy = .internal)
    (.store .readNotAllowed "INTERNAL Step 正文不得读取用于交付")
  let entry ← orRaise ((store.entries.get? stepId).filter (·.status = .readable))
    (.store .entryNotReadable "final entry 尚未 READABLE")
  pure entry.result.content

def readFinalContent (stepId : String) : Op StoreError StepResultStore String := do
  let store ← get
  Op.lift (store.finalContent cfg stepId)

/-- `seal`. -/
def «seal» : Op StoreError StepResultStore Unit := do
  let store ← get
  Op.lift (raiseIf (store.status = .cleared) (.store .storeCleared "Store 已 clear，不能再 seal"))
  set { store with status := .sealed }

def clear (store : StepResultStore) : StepResultStore :=
  if store.status = .cleared then store else ⟨Dict.empty, .cleared⟩

/-! ## What a call that returned has done -/

variable {cfg}
variable {store store' : StepResultStore} {fault : Bool} {state : AgentState}

theorem evaluateFault_ok {point : StoreFaultPoint} :
    evaluateFault fault point = .ok () ↔ fault = false := by
  rw [evaluateFault, raiseIf_ok, Bool.not_eq_true]

theorem requireOpen_ok : store.requireOpen = .ok () ↔ store.status = .open := by
  simp only [requireOpen, seq_eq_ok, raiseIf_ok]
  cases store.status <;> simp

/-- What `write_prepared` has checked. -/
structure Admitted (cfg : StoreConfig) (store : StepResultStore) (entry : StepResult) : Prop where
  planned : ∃ planStep, cfg.plan.step? entry.stepId = some planStep ∧
    planStep.preferredAgent = entry.producerAgentId
  fresh : entry.stepId ∉ store.entries.keys
  perResult : entry.content.length ≤ cfg.perResultChars
  total : store.totalChars + entry.content.length ≤ cfg.runTotalChars
  room : store.entries.entries.length < cfg.maxEntries

variable {entry : StepResult} {expectedAgentId : String} {claim : StepClaim}

theorem checkWrite_ok
    (h : store.checkWrite cfg entry expectedAgentId = .ok ()) : Admitted cfg store entry := by
  obtain ⟨planStep, hplan, h⟩ := bind_eq_ok.mp h
  simp only [seq_eq_ok, raiseIf_ok, not_not, not_lt, not_le, gt_iff_lt, ge_iff_le] at h
  obtain ⟨hexpected, hproducer, hfresh, hper, htotal, hroom⟩ := h
  exact ⟨⟨planStep, orRaise_ok.mp hplan, hexpected.trans hproducer.symm⟩, hfresh, hper, htotal,
    hroom⟩

theorem writePrepared_ok (h : writePrepared cfg fault entry expectedAgentId store = .ok () store') :
    store.status = .open ∧ Admitted cfg store entry ∧
      store' = { store with entries := store.entries.set entry.stepId ⟨entry, .prepared⟩ } := by
  obtain ⟨_, -, h⟩ := Op.lift_bind_ok_iff.mp h
  rw [Op.get_bind_apply] at h
  obtain ⟨_, hopen, h⟩ := Op.lift_bind_ok_iff.mp h
  obtain ⟨_, hcheck, h⟩ := Op.lift_bind_ok_iff.mp h
  obtain ⟨-, rfl⟩ := EStateM.Result.ok.inj h
  exact ⟨requireOpen_ok.mp hopen, checkWrite_ok hcheck, rfl⟩

variable {stepId : String}

/-- What the mark checks. -/
theorem checkMark_ok {entry : StoreEntry} :
    store.checkMark stepId state = .ok entry ↔
      store.entries.get? stepId = some entry ∧ entry.status = .prepared ∧
        state.Succeeded stepId := by
  have hstatus : ¬ entry.status = .readable ↔ entry.status = .prepared := by
    cases entry.status <;> simp
  rw [checkMark, bind_eq_ok]
  simp only [seq_eq_ok, orRaise_ok, raiseIf_ok, not_not]
  constructor
  · rintro ⟨_, hget, hnot, hdone, hpure⟩
    cases hpure
    exact ⟨hget, hstatus.mp hnot, hdone⟩
  · rintro ⟨hget, hprepared, hdone⟩
    exact ⟨entry, hget, hstatus.mpr hprepared, hdone, rfl⟩

/-- What the mark writes. -/
theorem markReadable_ok :
    markReadable fault stepId state store = .ok () store' ↔
      fault = false ∧ store.status = .open ∧ ∃ entry, store.entries.get? stepId = some entry ∧
        entry.status = .prepared ∧ state.Succeeded stepId ∧
        store' = { store with
          entries := store.entries.set stepId { entry with status := .readable } } := by
  simp only [markReadable, Op.lift_bind_ok_iff, Op.get_bind_apply, checkMark_ok, Op.set_apply,
    EStateM.Result.ok.injEq, true_and]
  constructor
  · rintro ⟨_, hfault, _, hopen, entry, ⟨hget, hprepared, hdone⟩, rfl⟩
    exact ⟨evaluateFault_ok.mp hfault, requireOpen_ok.mp hopen, entry, hget, hprepared, hdone, rfl⟩
  · rintro ⟨hfault, hopen, entry, hget, hprepared, hdone, rfl⟩
    exact ⟨(), evaluateFault_ok.mpr hfault, (), requireOpen_ok.mpr hopen, entry,
      ⟨hget, hprepared, hdone⟩, rfl⟩

/-- A dependency is shown when it is committed and its step succeeded. -/
theorem dependencyEntry_ok {producerId : String} {entry : DependencyResultEntry}
    (h : store.dependencyEntry cfg state producerId = .ok entry) :
    ∃ planStep stored, cfg.plan.step? producerId = some planStep ∧
      store.entries.get? producerId = some stored ∧ state.Succeeded producerId ∧
      stored.result.producerAgentId = planStep.preferredAgent ∧
      entry = stored.toDependencyEntry := by
  obtain ⟨planStep, hplan, h⟩ := bind_eq_ok.mp h
  obtain ⟨stored, hstored, h⟩ := bind_eq_ok.mp h
  simp only [seq_eq_ok, raiseIf_ok, not_not] at h
  obtain ⟨-, hdone, hagent, hentry⟩ := h
  exact ⟨planStep, stored, orRaise_ok.mp hplan, orRaise_ok.mp hstored, hdone, hagent,
    (Except.ok.inj hentry).symm⟩

theorem consumerDependencies_ok {dependsOn : List String}
    (h : consumerDependencies cfg claim = .ok dependsOn) :
    ∃ planStep, cfg.plan.step? claim.stepId = some planStep ∧ planStep.dependsOn = dependsOn := by
  simp only [consumerDependencies, seq_eq_ok] at h
  obtain ⟨-, h⟩ := h
  obtain ⟨planStep, hplan, h⟩ := bind_eq_ok.mp h
  simp only [seq_eq_ok] at h
  exact ⟨planStep, orRaise_ok.mp hplan, Except.ok.inj h.2.2⟩

/-- The view has one entry for each dependency, in the plan's order. -/
theorem dependencyViewFor_ok {view : DependencyResultView}
    (h : dependencyViewFor cfg fault claim state store = .ok view store') :
    store' = store ∧ store.status = .open ∧ ∃ planStep,
      cfg.plan.step? claim.stepId = some planStep ∧
      List.Forall₂ (fun producerId entry => store.dependencyEntry cfg state producerId = .ok entry)
        planStep.dependsOn view.entries := by
  obtain ⟨_, -, h⟩ := Op.lift_bind_ok_iff.mp h
  rw [Op.get_bind_apply] at h
  obtain ⟨_, hopen, h⟩ := Op.lift_bind_ok_iff.mp h
  obtain ⟨_, hconsumer, h⟩ := Op.lift_bind_ok_iff.mp h
  obtain ⟨_, hentries, h⟩ := Op.lift_bind_ok_iff.mp h
  obtain ⟨hview, rfl⟩ := Op.lift_ok_iff.mp h
  obtain ⟨planStep, hplan, rfl⟩ := consumerDependencies_ok hconsumer
  unfold DependencyResultView.new at hview
  split_ifs at hview
  cases hview
  exact ⟨rfl, requireOpen_ok.mp hopen, planStep, hplan, except_mapM_ok hentries⟩

theorem readFinalContent_ok {content : String}
    (h : readFinalContent cfg stepId store = .ok content store') :
    store' = store ∧ store.status = .open ∧
      ∃ entry, store.entries.get? stepId = some entry ∧ entry.result.content = content := by
  rw [readFinalContent, Op.get_bind_apply] at h
  obtain ⟨hcontent, rfl⟩ := Op.lift_ok_iff.mp h
  simp only [finalContent, seq_eq_ok, raiseIf_ok, not_not] at hcontent
  obtain ⟨hopen, hcontent⟩ := hcontent
  obtain ⟨_, -, hcontent⟩ := bind_eq_ok.mp hcontent
  simp only [seq_eq_ok] at hcontent
  obtain ⟨entry, hentry, hcontent⟩ := bind_eq_ok.mp hcontent.2
  rw [orRaise_ok, Option.filter_eq_some_iff] at hentry
  exact ⟨rfl, hopen, entry, hentry.1, Except.ok.inj hcontent⟩

theorem seal_ok (h : «seal» store = .ok () store') :
    store.status ≠ .cleared ∧ store' = { store with status := .sealed } := by
  rw [«seal», Op.get_bind_apply] at h
  obtain ⟨_, hstatus, h⟩ := Op.lift_bind_ok_iff.mp h
  exact ⟨raiseIf_ok.mp hstatus, (EStateM.Result.ok.inj h).2.symm⟩

theorem hasReadable_of_not_open (h : store.status ≠ .open) (stepId : String) :
    store.hasReadable stepId = false := by
  simp [hasReadable, h]

/-! ## A section that raises has changed nothing -/

theorem allOrNothing_writePrepared (fault : Bool) (entry : StepResult) (expectedAgentId : String) :
    Op.AllOrNothing (writePrepared cfg fault entry expectedAgentId) :=
  .lift_bind fun _ => .get_bind fun _ => .lift_bind fun _ => .lift_bind fun _ =>
    Op.allOrNothing_set _

theorem allOrNothing_markReadable (fault : Bool) (stepId : String) :
    Op.AllOrNothing (markReadable fault stepId state) :=
  .lift_bind fun _ => .get_bind fun _ => .lift_bind fun _ => .lift_bind fun _ =>
    Op.allOrNothing_set _

theorem allOrNothing_dependencyViewFor (fault : Bool) (claim : StepClaim) :
    Op.AllOrNothing (dependencyViewFor cfg fault claim state) :=
  .lift_bind fun _ => .get_bind fun _ => .lift_bind fun _ => .lift_bind fun _ =>
    .lift_bind fun _ => Op.allOrNothing_lift _

theorem allOrNothing_readFinalContent (stepId : String) :
    Op.AllOrNothing (readFinalContent cfg stepId) :=
  .get_bind fun _ => Op.allOrNothing_lift _

theorem allOrNothing_seal : Op.AllOrNothing «seal» :=
  .get_bind fun _ => .lift_bind fun _ => Op.allOrNothing_set _

end StepResultStore

end LocalAgent.Runtime
