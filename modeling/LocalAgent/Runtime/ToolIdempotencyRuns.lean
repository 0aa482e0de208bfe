import LocalAgent.Runtime.RunControlRuns
import LocalAgent.Runtime.ToolIdempotency

/-!
# LocalAgent.Runtime.ToolIdempotencyRuns — durable invocations over whole runs

Executors compete for the leases of their runs and work on the same rows, with leases kept for as
long as they like.

* `InvocationRun.step`: a transaction of the run control or of the invocation service.
* `Keeps`: states only move along `edge`, changes raise the version, a stale lease does nothing.
* `invocation_sound`: along every run, and no invocation is started twice.
-/

namespace LocalAgent.Runtime

open DurableToolInvocationService

/-! ## Runs -/

/-- The run control, the invocations, and the invocations that went from `PREPARED` to `STARTED`. -/
structure InvocationRun where
  control : ControlRun
  rows : InvocationTable
  started : List String

/-- A transaction of the invocation service. -/
inductive ToolOperation where
  | prepare (request : PrepareRequest) (loopLock loopBind : Except ToolInvocationError Unit)
  | start (invocationId : String) (admission : Except ToolInvocationError Unit)
  | committed (invocationId : String) (providerOperationId : Option String)
    (result : Except ToolInvocationError (Option Json))
    (settlement : Except ToolInvocationError Unit)
  | unknown (invocationId reason : String) (providerOperationId : Option String)
    (settlement : Except ToolInvocationError Unit)
  | takeoverForReconciliation (invocation : ToolInvocation)
    (invocationBindingDigest : Option String)
  | reconcile (invocation : ToolInvocation) (invocationBindingDigest : Option String)
    (lookup : ReconciliationLookup)
  | takeoverForReconciliationRecord (invocationId : String)
  | reconcileDurableRecord (invocationId : String) (hasResult : Bool) (lookup : DurableLookup)
  | recordReconciliationUnknown (invocationId errorCode : String)
    (maxAttempts initialSeconds maxSeconds : ℤ)
  | resolveUnknown (invocationId : String) (isCommitted : Bool)
    (providerOperationId : Option String) (result : Except ToolInvocationError (Option Json))
    (manualAudit : Option ManualResolutionAudit)

/-- Carry out an operation. -/
def performOperation (tx : ToolTransaction) (rows : InvocationTable) :
    ToolOperation → Except ToolInvocationError (DurableToolInvocationRow × InvocationTable)
  | .prepare request loopLock loopBind => prepare tx rows request loopLock loopBind
  | .start invocationId admission => start tx rows invocationId admission
  | .committed invocationId providerOperationId result settlement =>
    committed tx rows invocationId providerOperationId result settlement
  | .unknown invocationId reason providerOperationId settlement =>
    unknown tx rows invocationId reason providerOperationId settlement
  | .takeoverForReconciliation invocation invocationBindingDigest =>
    takeoverForReconciliation tx rows invocation invocationBindingDigest
  | .reconcile invocation invocationBindingDigest lookup =>
    reconcile tx rows invocation invocationBindingDigest lookup
  | .takeoverForReconciliationRecord invocationId =>
    takeoverForReconciliationRecord tx rows invocationId
  | .reconcileDurableRecord invocationId hasResult lookup =>
    reconcileDurableRecord tx rows invocationId hasResult lookup
  | .recordReconciliationUnknown invocationId errorCode maxAttempts initialSeconds maxSeconds =>
    recordReconciliationUnknown tx rows invocationId errorCode maxAttempts initialSeconds maxSeconds
  | .resolveUnknown invocationId isCommitted providerOperationId result manualAudit =>
    resolveUnknown tx rows invocationId isCommitted providerOperationId result manualAudit

namespace InvocationRun

def new (clock : ℤ) (journal : List JournalRecord) : InvocationRun :=
  ⟨.new clock journal, Dict.empty, []⟩

inductive Action where
  | control (action : ControlRun.Action)
  | tool (now utcNow : ℤ) (lease : RunLease) (operation : ToolOperation)

def transaction (s : InvocationRun) (now utcNow : ℤ) (lease : RunLease) : ToolTransaction :=
  ⟨lease, s.control.tables.controls, now, utcNow⟩

/-- The rows that were `PREPARED` and are `STARTED` now. -/
def newlyStarted (rows rows' : InvocationTable) : List String :=
  rows.keys.filter fun invocationId =>
    (rows.get? invocationId).any (·.state = .prepared) &&
      (rows'.get? invocationId).any (·.state = .started)

variable (leaseSeconds : ℕ)

/-- The step function; an operation that raises is rolled back. -/
def step (s : InvocationRun) : Action → Option InvocationRun
  | .control action =>
    (s.control.step leaseSeconds action).map fun control => { s with control := control }
  | .tool now utcNow lease operation =>
    if now < s.control.clock then none
    else
      match performOperation (s.transaction now utcNow lease) s.rows operation with
      | .error _ => some { s with control := { s.control with clock := now } }
      | .ok (_, rows) =>
        some ⟨{ s.control with clock := now }, rows, s.started ++ newlyStarted s.rows rows⟩

def runSteps (clock : ℤ) (journal : List JournalRecord) (acts : List Action) :
    Option InvocationRun :=
  Trace.run (step leaseSeconds) (new clock journal) acts

/-! ## What one transaction keeps -/

variable {leaseSeconds}
variable {s s' : InvocationRun} {tx : ToolTransaction} {row : DurableToolInvocationRow}
  {action : Action}

theorem perform_ok {rows rows' : InvocationTable} {operation : ToolOperation}
(h : performOperation tx rows operation = .ok (row, rows')) : Accepted tx rows rows' := by
  cases operation with
  | prepare => exact prepare_ok h
  | start => exact start_ok h
  | committed => exact committed_ok h
  | unknown => exact unknown_ok h
  | takeoverForReconciliation => exact takeoverForReconciliation_ok h
  | reconcile => exact reconcile_ok h
  | takeoverForReconciliationRecord => exact takeoverForReconciliationRecord_ok h
  | reconcileDurableRecord => exact reconcileDurableRecord_ok h
  | recordReconciliationUnknown => exact recordReconciliationUnknown_ok h
  | resolveUnknown => exact resolveUnknown_ok h

/-- The lease would pass the service's own check. -/
def leaseCurrent (s : InvocationRun) (now : ℤ) (lease : RunLease) : Bool :=
  (s.control.tables.controls.get? lease.runId).any (·.current now lease)

structure Keeps (s : InvocationRun) (action : Action) (s' : InvocationRun) : Prop where
  /-- a row stays; its state stays or moves along an edge, any change raises its version -/
  rows : ∀ invocationId row, s.rows.get? invocationId = some row →
    ∃ row', s'.rows.get? invocationId = some row' ∧ RowMove row row' ∧
      (row.state = .committed ∨ row.state = .notCommitted → row'.state = row.state)
  /-- a new row is `PREPARED` -/
  fresh : ∀ invocationId row', s.rows.get? invocationId = none →
    s'.rows.get? invocationId = some row' → row'.state = .prepared
  /-- an operation whose lease is not current raises and changes nothing -/
  stale : ∀ now utcNow lease operation, action = .tool now utcNow lease operation →
    s.leaseCurrent now lease = false →
    (∃ e, performOperation (s.transaction now utcNow lease) s.rows operation = .error e) ∧ s'.rows = s.rows

theorem RowMove.refl (row : DurableToolInvocationRow) : RowMove row row :=
  ⟨.inl rfl, .inl rfl⟩

variable {row' : DurableToolInvocationRow}

theorem RowMove.settled (h : RowMove row row')
    (hsettled : row.state = .committed ∨ row.state = .notCommitted) : row'.state = row.state := by
  rcases h.state with heq | hedge
  · exact heq
  · rcases hsettled with hstate | hstate
    all_goals
      rw [hstate] at hedge
      cases hstate' : row'.state <;> rw [hstate'] at hedge <;> exact nomatch hedge

theorem RowMove.ne_prepared (h : RowMove row row')
    (hne : row.state ≠ .prepared) : row'.state ≠ .prepared := by
  rcases h.state with heq | hedge
  · rwa [heq]
  · intro hstate
    rw [hstate] at hedge
    cases hstate' : row.state <;> rw [hstate'] at hedge <;> exact nomatch hedge

/-- An accepted transaction moves rows along the state order and adds prepared ones only. -/
theorem accepted_rows {rows rows' : InvocationTable}
    (h : Accepted tx rows rows') : (∀ id row, rows.get? id = some row →
      ∃ row', rows'.get? id = some row' ∧ RowMove row row') ∧
    ∀ id row', rows.get? id = none → rows'.get? id = some row' → row'.state = .prepared := by
  have hsame : ∀ id row', rows.get? id = none → rows.get? id = some row' → row'.state = .prepared :=
    fun _ _ hnone hsome => nomatch hnone.symm.trans hsome
  rcases h.rows with rfl | ⟨key, changed, rfl, hkind⟩
  · exact ⟨fun _ row hrow => ⟨row, hrow, RowMove.refl row⟩, hsame⟩
  · constructor
    · intro id row hrow
      by_cases hid : id = key
      · subst hid
        rcases hkind with ⟨hnone, -⟩ | ⟨_, hold, hmove⟩
        · cases hnone.symm.trans hrow
        · cases hold.symm.trans hrow
          exact ⟨changed, by simp, hmove⟩
      · exact ⟨row, by simpa [hid] using hrow, RowMove.refl row⟩
    · intro id row' hnone hrow'
      by_cases hid : id = key
      · subst hid
        rcases hkind with ⟨-, hstate⟩ | ⟨_, hold, -⟩
        · obtain rfl : changed = row' := by simpa using hrow'
          exact hstate
        · cases hnone.symm.trans hold
      · exact hsame id row' hnone (by simpa [hid] using hrow')

/-- What every step keeps of the rows and the tokens. -/
theorem step_keeps (h : s.step leaseSeconds action = some s') : Keeps s action s' := by
  have hunchanged : s'.rows = s.rows →
      (∀ id row, s.rows.get? id = some row → ∃ row', s'.rows.get? id = some row' ∧
        RowMove row row' ∧
          (row.state = .committed ∨ row.state = .notCommitted → row'.state = row.state)) ∧
      ∀ id row', s.rows.get? id = none → s'.rows.get? id = some row' → row'.state = .prepared := by
    intro heq
    rw [heq]
    exact ⟨fun _ row hrow => ⟨row, hrow, RowMove.refl row, fun _ => rfl⟩,
      fun _ _ hnone hsome => nomatch hnone.symm.trans hsome⟩
  cases action with
  | control =>
    obtain ⟨control, -, rfl⟩ := Option.map_eq_some_iff.mp h
    obtain ⟨hrows, hfresh⟩ := hunchanged rfl
    exact ⟨hrows, hfresh, fun _ _ _ _ heq => nomatch heq⟩
  | tool _ _ lease operation =>
    simp only [step] at h
    split_ifs at h with hclock
    split at h
    · rename_i e herror
      cases h
      obtain ⟨hrows, hfresh⟩ := hunchanged rfl
      refine ⟨hrows, hfresh, fun now' utcNow' lease' operation' heq _ => ?_⟩
      cases heq
      exact ⟨⟨e, herror⟩, rfl⟩
    · rename_i row rows hok
      cases h
      have haccepted := perform_ok hok
      obtain ⟨hrows, hfresh⟩ := accepted_rows haccepted
      refine ⟨fun id row hrow => ?_, hfresh, fun now' utcNow' lease' operation' heq hstale => ?_⟩
      · obtain ⟨row', hrow', hmove⟩ := hrows id row hrow
        exact ⟨row', hrow', hmove, RowMove.settled hmove⟩
      · cases heq
        -- an accepted operation had a current lease
        obtain ⟨control, hcontrol, hcurrent⟩ := haccepted.current
        rw [leaseCurrent, Option.any_eq_false] at hstale
        cases (hstale control hcontrol).symm.trans hcurrent

/-! ## Every run -/

structure Inv (s : InvocationRun) : Prop where
  once : s.started.Nodup
  started : ∀ invocationId ∈ s.started, ∃ row, s.rows.get? invocationId = some row ∧
    row.state ≠ .prepared

/-- Every step keeps the invariant. -/
theorem Inv.step (hs : Inv s) (h : s.step leaseSeconds action = some s') : Inv s' := by
  have hkeeps := step_keeps h
  have hstarted : ∀ id ∈ s.started, ∃ row, s'.rows.get? id = some row ∧ row.state ≠ .prepared := by
    intro id hid
    obtain ⟨row, hrow, hstate⟩ := hs.started id hid
    obtain ⟨row', hrow', hmove, -⟩ := hkeeps.rows id row hrow
    exact ⟨row', hrow', RowMove.ne_prepared hmove hstate⟩
  cases action with
  | control =>
    obtain ⟨_, -, rfl⟩ := Option.map_eq_some_iff.mp h
    exact ⟨hs.once, hstarted⟩
  | tool =>
    simp only [InvocationRun.step] at h
    split_ifs at h with hclock
    split at h
    · cases h
      exact ⟨hs.once, hstarted⟩
    · rename_i row rows hok
      cases h
      have hnew : ∀ id ∈ newlyStarted s.rows rows, (∃ row, s.rows.get? id = some row ∧
          row.state = .prepared) ∧ ∃ row, rows.get? id = some row ∧ row.state ≠ .prepared := by
        intro id hid
        have hid := (List.mem_filter.mp hid).2
        simp only [Bool.and_eq_true, Option.any_eq_true, decide_eq_true_eq] at hid
        obtain ⟨hbefore, row', hrow', hstate⟩ := hid
        exact ⟨hbefore, row', hrow', by rw [hstate]; simp⟩
      refine ⟨?_, fun id hid => ?_⟩
      · refine hs.once.append (s.rows.keys_nodup.filter _) fun id hold hid => ?_
        obtain ⟨_, hrow, hstate⟩ := hs.started id hold
        obtain ⟨_, hrow', hprepared⟩ := (hnew id hid).1
        cases hrow.symm.trans hrow'
        exact hstate hprepared
      · rcases List.mem_append.mp hid with hid | hid
        · exact hstarted id hid
        · exact (hnew id hid).2

/-- In every run no invocation is started twice, and every transaction from its end keeps the
rules. -/
theorem invocation_sound {clock : ℤ} {journal : List JournalRecord} {acts : List Action}
    (hrun : runSteps leaseSeconds clock journal acts = some s) :
    s.started.Nodup ∧ ∀ action s', s.step leaseSeconds action = some s' → Keeps s action s' := by
  have hs : Inv s := Trace.run_invariant (fun _ _ _ h hs => Inv.step hs h) hrun
    ⟨.nil, (fun _ h => nomatch h)⟩
  exact ⟨hs.once, fun action s' h => step_keeps h⟩

def sampleInvocation : ToolInvocation where
  invocationId := "i1"
  toolName := "search"
  argumentsDigest := "d"
  idempotencyKey := none
  resourceKey := none
  invocationId_text := by decide
  toolName_text := by decide
  idempotencyKey_text := ToolInvocation.none_text
  resourceKey_text := ToolInvocation.none_text

/-- The first executor starts the invocation and loses its lease; the second takes it over and a
manual resolution commits it. -/
def sampleRecovery : List Action :=
  [.control (.claim 0 "run" "a"),
    .tool 1 1 ⟨"run", "a", 30000000, 1, 1⟩
      (.prepare ⟨"step", sampleInvocation, "search", some "b", none, none⟩ (.ok ()) (.ok ())),
    .tool 2 2 ⟨"run", "a", 30000000, 1, 1⟩ (.start "i1" (.ok ())),
    .control (.claim 40000000 "run" "b"),
    .tool 40000001 3 ⟨"run", "a", 30000000, 1, 1⟩ (.committed "i1" none (.ok none) (.ok ())),
    .tool 40000002 4 ⟨"run", "b", 70000000, 2, 2⟩ (.takeoverForReconciliationRecord "i1"),
    .tool 40000003 5 ⟨"run", "b", 70000000, 2, 2⟩ (.resolveUnknown "i1" true none (.ok none) none),
    .tool 40000004 6 ⟨"run", "b", 70000000, 2, 2⟩ (.start "i1" (.ok ()))]

theorem invocation_sound_sampleRecovery :
    ∃ s, runSteps 30 0 [] sampleRecovery = some s ∧ s.started = ["i1"] ∧
      (s.rows.get? "i1").any (fun row => row.state = .committed ∧ row.ownerId = "b") = true ∧
      s.started.Nodup ∧ ∀ action s', s.step 30 action = some s' → Keeps s action s' := by
  have hrun : (runSteps 30 0 [] sampleRecovery).any (fun s => s.started = ["i1"] ∧
      (s.rows.get? "i1").any (fun row => row.state = .committed ∧ row.ownerId = "b") = true) =
        true := by
    decide +kernel
  obtain ⟨s, hs, hstarted, hrow⟩ := exists_of_any hrun
  exact ⟨s, hs, hstarted, hrow, invocation_sound hs⟩

end InvocationRun

end LocalAgent.Runtime
