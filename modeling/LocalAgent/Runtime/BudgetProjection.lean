import LocalAgent.Runtime.BudgetRuns

/-!
# LocalAgent.Runtime.BudgetProjection — `BudgetSnapshot` of `core/runtime/snapshot_contract.py`

The budget part of a checkpoint, projected from a snapshot of the ledger.

* `project_ok_iff`: when the projection is taken.
* `checkpoint_budget_iff`: only an overspent delegation, or an amount that is too large for a
  float, keeps a checkpoint from being taken.
-/

namespace LocalAgent.Runtime

namespace SnapshotContract

open BudgetLedger hiding Fits

inductive ContractError where
  /-- `ValueError` -/
  | value (message : String)
  /-- the `OverflowError` of `isfinite` on an integer -/
  | overflow
  deriving DecidableEq

/-- A number of the projection: an amount, or seconds. -/
inductive Amount where
  | int (n : ℤ)
  | float (x : ℚ)
  deriving DecidableEq

/-- The number itself. -/
def Amount.val : Amount → ℚ
  | .int n => n
  | .float x => x

/-- From here on an integer is rounded to infinity. -/
def floatBound : ℤ := 2 ^ 1024 - 2 ^ 970

/-- `isfinite` answers. -/
def Amount.Converts : Amount → Prop
  | .int n => n < floatBound ∧ -n < floatBound
  | .float _ => True

instance : ∀ a : Amount, Decidable a.Converts
  | .int _ => inferInstanceAs (Decidable (_ ∧ _))
  | .float _ => inferInstanceAs (Decidable True)

/-- `require_finite_number(value, field_name, minimum=0)`. -/
def requireFiniteNumber (value : Amount) (fieldName : String) : Except ContractError Unit := do
  raiseIf (¬value.Converts) .overflow
  raiseIf (value.val < 0) (.value (fieldName ++ " must be >= 0"))

/-- One dimension of the four mappings. -/
structure Entry where
  key : String
  limit : Option Amount
  used : Amount
  reserved : Amount
  remaining : Option Amount
  deriving DecidableEq

/-- The body of the loop of `__post_init__`. -/
def Entry.check (entry : Entry) : Except ContractError Unit := do
  requireFiniteNumber entry.used ("used." ++ entry.key)
  requireFiniteNumber entry.reserved ("reserved." ++ entry.key)
  match entry.limit with
  | none =>
    raiseIf (entry.remaining ≠ none) (.value "unlimited dimensions must use remaining=None")
  | some limit => do
    requireFiniteNumber limit ("limits." ++ entry.key)
    match entry.remaining with
    | none => .error (.value ("remaining." ++ entry.key ++ " must be a number"))
    | some remaining => do
      requireFiniteNumber remaining ("remaining." ++ entry.key)
      raiseIf (limit.val < entry.used.val + entry.reserved.val)
        (.value "used + reserved must not exceed limit")
      raiseIf (remaining.val ≠ limit.val - entry.used.val - entry.reserved.val)
        (.value "remaining must equal limit - used - reserved")

/-- `BudgetSnapshot`.  The four mappings share their keys, so they are one list of entries. -/
structure BudgetSnapshot where
  entries : List Entry
  ledgerVersion : ℤ
  reservationCount : ℕ
  generatedAt : DateTime
  deriving DecidableEq

/-- `__post_init__`; the keys are checked in the order of the list. -/
def BudgetSnapshot.postInit (snapshot : BudgetSnapshot) : Except ContractError BudgetSnapshot := do
  raiseIf (snapshot.entries = [])
    (.value "budget mappings must use the same non-empty dimensions")
  snapshot.entries.forM Entry.check
  raiseIf (snapshot.ledgerVersion < 1) (.value "ledger_version must be >= 1")
  raiseIf (¬snapshot.generatedAt.IsUtc)
    (.value "generated_at must be a timezone-aware UTC datetime")
  return snapshot

/-- The keys of `dimensions`. -/
def dimensions : List Dimension :=
  [.stepStarts, .modelCalls, .remoteModelCalls, .toolCalls, .inputTokens, .outputTokens,
    .totalTokens, .costUnits, .retries, .retrievalCalls, .embeddingCalls, .vectorQueries,
    .keywordQueries, .documentReads, .contextChars]

def dimensionEntry (snapshot : Runtime.BudgetSnapshot) (d : Dimension) : Entry :=
  let limit := snapshot.runBudget.limit d
  { key := d.value
    limit := limit.map Amount.int
    used := .int (snapshot.committedUsage.amount d)
    reserved := .int (snapshot.reservedUsage.amount d)
    remaining := if limit ≠ none then some (.int (snapshot.remaining.amount d)) else none }

/-- The entry of `elapsed_seconds`. -/
def elapsedEntry (snapshot : Runtime.BudgetSnapshot) : Entry :=
  let limit := snapshot.runBudget.maxElapsedSeconds
  let used := match limit with
    | some limit => min snapshot.elapsedSeconds limit
    | none => snapshot.elapsedSeconds
  { key := "elapsed_seconds"
    limit := limit.map Amount.float
    used := .float used
    reserved := .float 0
    remaining := limit.map fun limit => .float (limit - used) }

/-- What `from_runtime_snapshot` gives to the constructor. -/
def projection (snapshot : Runtime.BudgetSnapshot) (ledgerVersion : ℤ) : BudgetSnapshot where
  entries := dimensions.map (dimensionEntry snapshot) ++ [elapsedEntry snapshot]
  ledgerVersion := ledgerVersion
  reservationCount := snapshot.activeReservationCount
  generatedAt := snapshot.generatedAt

def fromRuntimeSnapshot (snapshot : Runtime.BudgetSnapshot) (ledgerVersion : ℤ) :
    Except ContractError BudgetSnapshot := (projection snapshot ledgerVersion).postInit

/-- The equation of the contract. -/
def Entry.Balanced (entry : Entry) : Prop :=
  ∀ limit ∈ entry.limit, ∃ remaining ∈ entry.remaining,
    entry.used.val + entry.reserved.val + remaining.val = limit.val

/-- `BudgetSnapshot.from_runtime_snapshot(ledger.snapshot())` is taken, and balanced. -/
def Checkpoints (ledger : BudgetLedger) (reading : BudgetReading) : Prop :=
  ∃ runtime, BudgetLedger.snapshot none reading ledger = .ok runtime ledger ∧
    ∃ snapshot, fromRuntimeSnapshot runtime 1 = .ok snapshot ∧
      ∀ entry ∈ snapshot.entries, entry.Balanced

structure Fits (ledger : BudgetLedger) (d : Dimension) : Prop where
  used : ledger.committed.amount d < floatBound
  reserved : ledger.reserved.amount d < floatBound
  limit : ∀ limit ∈ ledger.budget.limit d, limit < floatBound ∧
    ledger.committed.amount d + ledger.reserved.amount d ≤ limit

/-! ## The checks -/

variable {fieldName : String} {runtime : Runtime.BudgetSnapshot}

theorem requireFiniteNumber_eq_ok {value : Amount} :
    requireFiniteNumber value fieldName = .ok () ↔ value.Converts ∧ 0 ≤ value.val := by
  unfold requireFiniteNumber
  rw [seq_eq_ok, raiseIf_ok, raiseIf_ok, not_not, not_lt]

/-- When the projection of a runtime snapshot is accepted. -/
theorem fromRuntimeSnapshot_eq_ok {result : BudgetSnapshot}
    (hutc : runtime.generatedAt.IsUtc) (helapsed : (elapsedEntry runtime).check = .ok ()) :
    fromRuntimeSnapshot runtime 1 = .ok result ↔
      (∀ d ∈ dimensions, (dimensionEntry runtime d).check = .ok ()) ∧ projection runtime 1 = result := by
  unfold fromRuntimeSnapshot BudgetSnapshot.postInit
  simp only [seq_eq_ok, raiseIf_ok, except_forM_eq_ok]
  constructor
  · rintro ⟨-, hchecks, -, -, h⟩
    cases h
    exact ⟨fun d hd => hchecks _ (List.mem_append_left _ (List.mem_map_of_mem hd)), rfl⟩
  · rintro ⟨hchecks, rfl⟩
    refine ⟨by simp [projection], fun entry hentry => ?_, by simp [projection], not_not.mpr hutc, rfl⟩
    rcases List.mem_append.mp hentry with hentry | hentry
    · obtain ⟨d, hd, rfl⟩ := List.mem_map.mp hentry
      exact hchecks d hd
    · rwa [List.mem_singleton.mp hentry]

theorem elapsedEntry_check (h : 0 ≤ runtime.elapsedSeconds) :
    (elapsedEntry runtime).check = .ok () ∧ (elapsedEntry runtime).Balanced := by
  unfold Entry.check Entry.Balanced elapsedEntry
  cases hlimit : runtime.runBudget.maxElapsedSeconds with
  | none =>
    simp [seq_eq_ok, requireFiniteNumber_eq_ok, Amount.Converts, Amount.val, h]
  | some limit =>
    have hpos := runtime.runBudget.elapsed_pos limit hlimit
    simp [seq_eq_ok, requireFiniteNumber_eq_ok, Amount.Converts, Amount.val, h, hpos.le]

variable {ledger : BudgetLedger} {reading : BudgetReading}

theorem int_check_iff {n : ℤ} (hn : 0 ≤ n) :
    requireFiniteNumber (.int n) fieldName = .ok () ↔ n < floatBound := by
  have hbound : 0 < floatBound := by decide +kernel
  rw [requireFiniteNumber_eq_ok]
  simp only [Amount.Converts, Amount.val, Int.cast_nonneg_iff]
  omega

/-- When the entry of one dimension passes its check. -/
theorem dimensionEntry_check (d : Dimension) :
    (dimensionEntry (ledger.snapshotLocked reading) d).check = .ok () ↔ Fits ledger d := by
  have hused := ledger.committed.nonneg d
  have hreserved := ledger.reserved.nonneg d
  have hcase : Fits ledger d ↔ ledger.committed.amount d < floatBound ∧
      ledger.reserved.amount d < floatBound ∧ ∀ limit ∈ ledger.budget.limit d,
        limit < floatBound ∧ ledger.committed.amount d + ledger.reserved.amount d ≤ limit :=
    ⟨fun h => ⟨h.used, h.reserved, h.limit⟩, fun h => ⟨h.1, h.2.1, h.2.2⟩⟩
  rw [hcase]
  unfold Entry.check
  cases hlimit : ledger.budget.limit d with
  | none =>
    simp [dimensionEntry, snapshotLocked, int_check_iff, hused, hreserved, hlimit]
  | some limit =>
    have hpos := ledger.budget.limit_nonneg d limit hlimit
    simp only [dimensionEntry, snapshotLocked, hlimit, Option.map_some, seq_eq_ok,
      ne_eq, reduceCtorEq, not_false_eq_true, if_true, int_check_iff hused, int_check_iff hreserved,
      int_check_iff hpos, int_check_iff (le_max_left 0 _), remainingAmount,
      raiseIf_ok, Amount.val, Option.mem_some_iff, forall_eq', not_lt, not_not]
    have hcast : (limit - ledger.committed.amount d - ledger.reserved.amount d : ℚ) =
        ((limit - ledger.committed.amount d - ledger.reserved.amount d : ℤ) : ℚ) := by push_cast; ring
    rw [hcast, Int.cast_inj, ← Int.cast_add, Int.cast_le]
    omega

theorem dimensionEntry_balanced {d : Dimension} (h : Fits ledger d) :
    (dimensionEntry (ledger.snapshotLocked reading) d).Balanced := by
  intro _ hmem
  obtain ⟨n, hn, rfl⟩ := Option.mem_map.mp hmem
  obtain ⟨-, hle⟩ := h.limit n hn
  have hn' : ledger.budget.limit d = some n := hn
  refine ⟨.int (ledger.remainingAmount d), by simp [dimensionEntry, snapshotLocked, hn'], ?_⟩
  have hrem : ledger.committed.amount d + ledger.reserved.amount d + ledger.remainingAmount d = n := by
    simp only [remainingAmount, hn']
    omega
  show (ledger.committed.amount d + ledger.reserved.amount d + ledger.remainingAmount d : ℚ) = n
  exact_mod_cast hrem

/-- A ledger has a checkpoint exactly when every dimension fits. -/
theorem checkpoints_iff (hutc : reading.now.IsUtc) (helapsed : 0 ≤ reading.elapsed) :
    Checkpoints ledger reading ↔ ∀ d ∈ dimensions, Fits ledger d := by
  have htime := elapsedEntry_check
    (show 0 ≤ (ledger.snapshotLocked reading).elapsedSeconds from helapsed)
  constructor
  · rintro ⟨_, hruntime, _, hresult, -⟩ d hd
    cases hruntime
    exact (dimensionEntry_check d).mp (((fromRuntimeSnapshot_eq_ok hutc htime.1).mp hresult).1 d hd)
  · intro hfits
    refine ⟨_, rfl, _, (fromRuntimeSnapshot_eq_ok hutc htime.1).mpr
      ⟨fun d hd => (dimensionEntry_check d).mpr (hfits d hd), rfl⟩, fun entry hentry => ?_⟩
    rcases List.mem_append.mp hentry with hentry | hentry
    · obtain ⟨d, hd, rfl⟩ := List.mem_map.mp hentry
      exact dimensionEntry_balanced (hfits d hd)
    · rw [List.mem_singleton.mp hentry]
      exact htime.2

/-- **Checkpoints of the budget.**  The projection of a ledger is taken, with
`used + reserved + remaining = limit`, exactly when nothing is used or reserved above a limit and
no amount is too large for a float; and only an overspent delegation gets above a limit. -/
theorem checkpoint_budget_iff (ledger : BudgetLedger) (reading : BudgetReading)
    (hutc : reading.now.IsUtc) (helapsed : 0 ≤ reading.elapsed) :
    (Checkpoints ledger reading ↔ ∀ d ∈ dimensions, Fits ledger d) ∧
    ∀ (budget : RunBudget) (calls : List Call), ledger = run (.new budget) calls →
      NeverOverspends (.new budget) calls → ∀ d limit, budget.limit d = some limit →
        ledger.committed.amount d + ledger.reserved.amount d ≤ limit := by
  refine ⟨checkpoints_iff hutc helapsed, fun budget calls hrun hnever d limit hlimit => ?_⟩
  have hc := BudgetLedger.covered_new budget
  have hwithin := BudgetLedger.run_within_of_within calls hc (BudgetLedger.within_new budget) hnever d
    limit (by rw [BudgetLedger.run_budget calls hc]; exact hlimit)
  rw [hrun, BudgetLedger.reserved_amount]
  omega

/-- A delegation of three of the five calls settles one reservation with seven. -/
def overspendingCalls : List Call :=
  [.allocateDelegation "d" (toolCalls 3) startReading,
    .reserve (toolCalls 2) "tool" none (some "d") "u1" (.epochSecond 1)
      startReading,
    .commit ⟨"u1", "tool", none, toolCalls 2, .epochSecond 1⟩
      (some (toolCalls 7)) startReading]

theorem checkpoint_budget_sample :
    (Checkpoints (run (.new fiveToolCalls) sampleCalls) startReading ↔
      ∀ d ∈ dimensions, Fits (run (.new fiveToolCalls) sampleCalls) d) ∧
    (run (.new fiveToolCalls) sampleCalls).committed.amount .toolCalls +
      (run (.new fiveToolCalls) sampleCalls).reserved.amount .toolCalls ≤ 5 :=
  have h := checkpoint_budget_iff (run (.new fiveToolCalls) sampleCalls) startReading rfl le_rfl
  ⟨h.1, h.2 _ _ rfl (by decide +kernel) .toolCalls 5 rfl⟩

theorem overspent_no_checkpoint :
    ¬Checkpoints (run (.new fiveToolCalls) overspendingCalls)
      startReading := by
  rintro ⟨_, hruntime, _, hresult, -⟩
  cases hruntime
  have hraises : (fromRuntimeSnapshot ((run (.new fiveToolCalls)
      overspendingCalls).snapshotLocked startReading) 1).isOk = false := by
    decide +kernel
  rw [hresult] at hraises
  cases hraises

end SnapshotContract

end LocalAgent.Runtime
