import LocalAgent.Runtime.RetrievalBudget
import Mathlib.Algebra.Order.BigOperators.Group.List

/-!
# LocalAgent.Runtime.RetrievalUsage — what `core/runtime/retrieval_execution.py` reports

A retrieval execution reports its budget usage, and each of its stage records reports the usage of
the stage, as the difference of the committed usage of the shared ledger between two moments
(`_retrieval_usage_since`).

* `RetrievalRun.step`: a ledger call of an execution or of somebody else, the baseline of a
  reporter, or its report.
* `usage_reported`: a report is the sum of the reporter's own charges exactly when what others
  charged in between equals what its own workers charged after it.
* `overlapping_usage`: an execution that reports the charge of another one.
-/

namespace LocalAgent.Runtime

/-! ## Reports -/

/-- The fields of `RetrievalBudgetUsage`. -/
inductive RetrievalDimension where
  | retrievalCalls | embeddingCalls | vectorQueries | keywordQueries | bm25Queries | rrfFusions
  | documentReads | contextChars
  deriving DecidableEq

/-- The field of the same name of a `BudgetUsage`. -/
def RetrievalDimension.toDimension : RetrievalDimension → Dimension
  | retrievalCalls => .retrievalCalls | embeddingCalls => .embeddingCalls
  | vectorQueries => .vectorQueries | keywordQueries => .keywordQueries
  | bm25Queries => .bm25Queries | rrfFusions => .rrfFusions | documentReads => .documentReads
  | contextChars => .contextChars

/-- `RetrievalBudgetUsage`, before its `__post_init__` asks for natural numbers. -/
abbrev RetrievalBudgetUsage := RetrievalDimension → ℤ

def retrievalUsageSince (ledger : BudgetLedger) (baseline : BudgetUsage) : RetrievalBudgetUsage :=
  fun d => ledger.committed.amount d.toDimension - baseline.amount d.toDimension

/-- Whose operation makes a ledger call: an execution, in one of its stages or outside of them. -/
structure ChargeOwner where
  execution : ℕ
  stage : Option ℕ
  deriving DecidableEq

/-- Who reports: the result of an execution, or the record of one of its stages. -/
inductive UsageReporter where
  | result (execution : ℕ)
  | stage (execution stage : ℕ)
  deriving DecidableEq

def UsageReporter.owns : UsageReporter → Option ChargeOwner → Bool
  | .result e, some owner => owner.execution = e
  | .stage e n, some owner => owner.execution = e && owner.stage = some n
  | _, none => false

/-- What one ledger call has added to the committed usage. -/
structure Charge where
  owner : Option ChargeOwner
  amount : Dimension → ℤ

/-- A baseline, with the charges made before it. -/
structure UsageWindow where
  baseline : BudgetUsage
  before : List Charge

/-- A report, with the charges made before and after its baseline. -/
structure UsageReport where
  reporter : UsageReporter
  usage : RetrievalBudgetUsage
  before : List Charge
  during : List Charge

structure RetrievalRun where
  ledger : BudgetLedger
  charges : List Charge
  windows : Dict UsageReporter UsageWindow
  reports : List UsageReport

namespace RetrievalRun

def new (ledger : BudgetLedger) : RetrievalRun := ⟨ledger, [], Dict.empty, []⟩

inductive Action where
  | call (owner : Option ChargeOwner) (call : BudgetLedger.Call)
  /-- the baseline of a reporter is read -/
  | begin (reporter : UsageReporter)
  | report (reporter : UsageReporter)

/-- An operation runs after the baselines it is to be reported against. -/
def Begun (s : RetrievalRun) : Option ChargeOwner → Prop
  | none => True
  | some owner => .result owner.execution ∈ s.windows.keys ∧
      ∀ stage ∈ owner.stage, .stage owner.execution stage ∈ s.windows.keys

instance (s : RetrievalRun) (owner : Option ChargeOwner) : Decidable (s.Begun owner) := by
  unfold Begun
  split <;> infer_instance

def step (s : RetrievalRun) : Action → Option RetrievalRun
  | .call owner call =>
    if s.Begun owner then
      let ledger := Op.after call.op s.ledger
      some { s with
        ledger := ledger
        charges := s.charges ++
          [⟨owner, fun d => ledger.committed.amount d - s.ledger.committed.amount d⟩] }
    else none
  | .begin reporter =>
    if reporter ∈ s.windows.keys then none
    else some { s with
      windows := s.windows.set reporter ⟨s.ledger.committed, s.charges⟩ }
  | .report reporter =>
    match s.windows.get? reporter with
    | none => none
    | some window =>
      some { s with
        reports := s.reports ++ [⟨reporter, retrievalUsageSince s.ledger window.baseline,
          window.before, s.charges.drop window.before.length⟩] }

/-! ## Sums of charges -/

/-- The sum, in one dimension, of the charges whose owner is in `p`. -/
def total (p : Option ChargeOwner → Bool) (d : Dimension) (charges : List Charge) : ℤ :=
  ((charges.filter fun c => p c.owner).map fun c => c.amount d).sum

variable {p : Option ChargeOwner → Bool} {d : Dimension}

@[simp] theorem total_nil : total p d [] = 0 := rfl

@[simp] theorem total_append (xs ys : List Charge) :
    total p d (xs ++ ys) = total p d xs + total p d ys := by
  simp [total, List.filter_append, List.map_append, List.sum_append]

theorem total_eq_zero {xs : List Charge} (h : ∀ c ∈ xs, p c.owner = false) : total p d xs = 0 := by
  have hnone : (xs.filter fun c => p c.owner) = [] := by
    rw [List.filter_eq_nil_iff]
    intro c hc
    simp [h c hc]
  rw [total, hnone]
  rfl

/-- What is charged is the own part and that of the others. -/
theorem total_split (xs : List Charge) :
    total (fun _ => true) d xs = total p d xs + total (fun owner => !p owner) d xs := by
  induction xs with
  | nil => rfl
  | cons c xs ih =>
    have hcons : ∀ q : Option ChargeOwner → Bool, total q d (c :: xs) =
        (if q c.owner then c.amount d else 0) + total q d xs := by
      intro q
      unfold total
      by_cases hq : q c.owner = true
      all_goals simp [hq]
    rw [hcons, hcons p, hcons fun owner => !p owner, ih]
    cases p c.owner <;> simp <;> ring

/-! ## The invariant -/

theorem committed_mono {l : BudgetLedger} (hc : l.Covered) (call : BudgetLedger.Call)
    (d : Dimension) : l.committed.amount d ≤ (Op.after call.op l).committed.amount d := by
  have heffect := BudgetLedger.effect_of_call hc call
  generalize Op.after call.op l = l' at heffect
  generalize Op.error? call.op l = e? at heffect
  cases heffect with
  | @committedDelegated _ _ _ _ _ actual =>
    have := actual.nonneg d
    simp only [BudgetUsage.plus_amount]
    omega
  | @committed _ _ _ actual =>
    have := actual.nonneg d
    simp only [BudgetUsage.plus_amount]
    omega
  | _ => exact le_rfl

structure Inv (initial : BudgetUsage) (s : RetrievalRun) : Prop where
  covered : s.ledger.Covered
  committed : ∀ d, s.ledger.committed.amount d = initial.amount d + total (fun _ => true) d s.charges
  owned : ∀ c ∈ s.charges, ∀ reporter : UsageReporter, reporter.owns c.owner = true →
    reporter ∈ s.windows.keys
  windows : ∀ reporter window, s.windows.get? reporter = some window →
    (∃ rest, s.charges = window.before ++ rest) ∧
    (∀ c ∈ window.before, reporter.owns c.owner = false) ∧
    ∀ d, window.baseline.amount d = initial.amount d + total (fun _ => true) d window.before
  reports : ∀ r ∈ s.reports, (∃ late, s.charges = r.before ++ r.during ++ late) ∧
    (∀ c ∈ r.before, r.reporter.owns c.owner = false) ∧
    ∀ d, r.usage d = total (fun _ => true) d.toDimension r.during
  grows : ∀ c ∈ s.charges, ∀ d, 0 ≤ c.amount d

theorem inv_new {ledger : BudgetLedger} (h : ledger.Covered) : Inv ledger.committed (new ledger) where
  covered := h
  committed d := by simp [new]
  owned _ hc := nomatch hc
  windows reporter window hw := by simp [new] at hw
  reports _ hr := nomatch hr
  grows _ hc := nomatch hc

variable {initial : BudgetUsage} {s s' : RetrievalRun} {reporter : UsageReporter}
  {owner : Option ChargeOwner}

theorem Begun.owns (h : s.Begun owner)
    (howns : reporter.owns owner = true) : reporter ∈ s.windows.keys := by
  cases owner with
  | none => cases reporter <;> cases howns
  | some owner =>
    cases reporter with
    | result e =>
      obtain rfl : owner.execution = e := by simpa [UsageReporter.owns] using howns
      exact h.1
    | stage e stage =>
      obtain ⟨rfl, hstage⟩ : owner.execution = e ∧ owner.stage = some stage := by
        simpa [UsageReporter.owns] using howns
      exact h.2 stage hstage

/-- A ledger call under any owner. -/
theorem Inv.call (h : Inv initial s) (hbegun : s.Begun owner) (call : BudgetLedger.Call) :
    Inv initial { s with
      ledger := Op.after call.op s.ledger
      charges := s.charges ++ [⟨owner, fun d =>
        (Op.after call.op s.ledger).committed.amount d - s.ledger.committed.amount d⟩] } where
  covered := (BudgetLedger.effect_of_call h.covered call).covered h.covered
  committed d := by
    have hold := h.committed d
    rw [total_append]
    simp only [total, List.filter_cons, List.filter_nil, if_true, List.map_cons, List.map_nil,
      List.sum_cons, List.sum_nil] at hold ⊢
    omega
  owned c hc reporter howns := by
    rcases mem_snoc hc with hc | rfl
    · exact h.owned c hc reporter howns
    · exact hbegun.owns howns
  windows reporter window hw := by
    obtain ⟨⟨rest, hrest⟩, hbefore, hbaseline⟩ := h.windows reporter window hw
    exact ⟨⟨rest ++ [_], by rw [hrest, List.append_assoc]⟩, hbefore, hbaseline⟩
  reports r hr := by
    obtain ⟨⟨late, hlate⟩, hbefore, husage⟩ := h.reports r hr
    exact ⟨⟨late ++ [_], by rw [hlate, List.append_assoc]⟩, hbefore, husage⟩
  grows c hc d := by
    rcases mem_snoc hc with hc | rfl
    · exact h.grows c hc d
    · exact sub_nonneg.mpr (committed_mono h.covered call d)

/-- A reporter takes its baseline. -/
theorem Inv.begin (h : Inv initial s) (hfresh : reporter ∉ s.windows.keys) :
    Inv initial { s with windows := s.windows.set reporter ⟨s.ledger.committed, s.charges⟩ } where
  covered := h.covered
  committed := h.committed
  owned c hc reporter' howns := Dict.mem_keys_set.mpr (.inr (h.owned c hc reporter' howns))
  windows reporter' window hw := by
    rcases Dict.get?_set_cases hw with ⟨he, rfl⟩ | ⟨-, hw⟩
    · subst he
      refine ⟨⟨[], (List.append_nil _).symm⟩, fun c hc => ?_, h.committed⟩
      by_contra howns
      exact hfresh (h.owned c hc _ (by simpa using howns))
    · exact h.windows reporter' window hw
  reports := h.reports
  grows := h.grows

/-- A reporter reports the difference to its baseline. -/
theorem Inv.report (h : Inv initial s) {window : UsageWindow}
    (hw : s.windows.get? reporter = some window) :
    Inv initial { s with
      reports := s.reports ++ [⟨reporter, retrievalUsageSince s.ledger window.baseline,
        window.before, s.charges.drop window.before.length⟩] } where
  covered := h.covered
  committed := h.committed
  owned := h.owned
  windows := h.windows
  grows := h.grows
  reports r hr := by
    rcases mem_snoc hr with hr | rfl
    · exact h.reports r hr
    · obtain ⟨⟨rest, hrest⟩, hbefore, hbaseline⟩ := h.windows reporter window hw
      have hdrop : s.charges.drop window.before.length = rest := by rw [hrest, List.drop_left]
      refine ⟨⟨[], by rw [hdrop, hrest, List.append_nil]⟩, hbefore, fun d => ?_⟩
      show s.ledger.committed.amount _ - window.baseline.amount _ = total _ _ _
      rw [h.committed, hbaseline, hdrop, hrest, total_append]
      ring

theorem inv_step {action : Action} (h : s.step action = some s') (hs : Inv initial s) :
    Inv initial s' := by
  cases action with
  | call _ call =>
    simp only [step] at h
    split_ifs at h with hbegun
    cases h
    exact hs.call hbegun call
  | begin =>
    simp only [step] at h
    split_ifs at h with hfresh
    cases h
    exact hs.begin hfresh
  | report =>
    simp only [step] at h
    split at h
    · cases h
    · rename_i window hw
      cases h
      exact hs.report hw

/-! ## Every interleaving -/

/-- A report is the sum of all charges of the reporter's own operations. -/
def Exact (s : RetrievalRun) (r : UsageReport) : Prop :=
  ∀ d : RetrievalDimension, r.usage d = total r.reporter.owns d.toDimension s.charges

/-- What others have charged since the baseline is what the reporter's own operations have charged
after the report. -/
def Undisturbed (s : RetrievalRun) (r : UsageReport) : Prop :=
  ∀ d : RetrievalDimension,
    total (fun owner => !r.reporter.owns owner) d.toDimension r.during =
      total r.reporter.owns d.toDimension (s.charges.drop (r.before ++ r.during).length)

/-- A report is exact exactly when what others charged before it is what its own charge after it. -/
theorem Inv.exact_iff (h : Inv initial s) {r : UsageReport} (hr : r ∈ s.reports) :
    Exact s r ↔ Undisturbed s r := by
  obtain ⟨⟨late, hlate⟩, hbefore, husage⟩ := h.reports r hr
  refine forall_congr' fun d => ?_
  have hdrop : s.charges.drop (r.before ++ r.during).length = late := by
    rw [hlate, List.drop_left]
  have hown : total r.reporter.owns d.toDimension s.charges =
      total r.reporter.owns d.toDimension r.during +
        total r.reporter.owns d.toDimension late := by
    rw [hlate, total_append, total_append, total_eq_zero hbefore, zero_add]
  have hall := total_split (p := r.reporter.owns) (d := d.toDimension) r.during
  rw [husage d, hown, hdrop, hall]
  omega

/-- In every interleaving a report is exact if and only if it was not disturbed; and it is a usage
the constructor accepts. -/
theorem usage_reported (budget : RunBudget) {acts : List Action} {s : RetrievalRun}
    (hrun : Trace.run step (new (BudgetLedger.new budget)) acts = some s) :
    ∀ r ∈ s.reports, (Exact s r ↔ Undisturbed s r) ∧ ∀ d, 0 ≤ r.usage d := by
  have hinv := Trace.run_invariant (fun _ _ _ => inv_step) hrun
    (inv_new (BudgetLedger.covered_new budget))
  intro r hr
  refine ⟨hinv.exact_iff hr, fun d => ?_⟩
  obtain ⟨⟨_, hlate⟩, -, husage⟩ := hinv.reports r hr
  rw [husage d]
  refine List.sum_nonneg fun x hx => ?_
  obtain ⟨c, hc, rfl⟩ := List.mem_map.mp hx
  refine hinv.grows c ?_ d.toDimension
  rw [hlate]
  exact List.mem_append_left _ (List.mem_append_right _ (List.mem_filter.mp hc).1)

/-! ### Two executions that overlap -/

/-- The charge of one vector query: `reserve` and `commit`. -/
def sampleCharge (owner : ChargeOwner) (uuid : String) : List Action :=
  let usage := BudgetUsage.single .vectorQueries 1 BudgetedCall.vectorQueries_ne
  let reading := BudgetedCall.sampleReading
  [.call (some owner) (.reserve usage "retrieval_vector" none none uuid reading.now reading),
    .call (some owner)
      (.commit ⟨uuid, "retrieval_vector", none, usage, reading.now⟩ (some usage) reading)]

/-- Execution 1 charges a vector query between the baseline and the report of execution 0. -/
def sampleOverlap : List Action :=
  [Action.begin (.result 0), Action.begin (.result 1)] ++ sampleCharge ⟨1, none⟩ "r1" ++
    [Action.report (.result 0)]

theorem usage_reported_sampleOverlap :
    ∃ s, Trace.run step (new (BudgetLedger.new BudgetedCall.sampleBudget)) sampleOverlap = some s ∧
      s.reports ≠ [] ∧ ∀ r ∈ s.reports, (Exact s r ↔ Undisturbed s r) ∧ ∀ d, 0 ≤ r.usage d := by
  have hrun : ((Trace.run step (new (BudgetLedger.new BudgetedCall.sampleBudget))
      sampleOverlap).any fun s => s.reports.length = 1) = true := by decide +kernel
  obtain ⟨s, hs, hreports⟩ := (Option.any_eq_true _ _).mp hrun
  refine ⟨s, hs, ?_, usage_reported BudgetedCall.sampleBudget hs⟩
  intro hnone
  rw [hnone] at hreports
  cases hreports

/-- Execution 0 has charged nothing and reports one vector query. -/
theorem overlapping_usage :
    ((Trace.run step (new (BudgetLedger.new BudgetedCall.sampleBudget)) sampleOverlap).any fun s =>
      s.reports.any fun r => r.reporter = .result 0 ∧ r.usage .vectorQueries = 1 ∧
        total r.reporter.owns .vectorQueries s.charges = 0) = true := by
  decide +kernel

end RetrievalRun

end LocalAgent.Runtime
