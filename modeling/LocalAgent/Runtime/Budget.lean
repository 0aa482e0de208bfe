import LocalAgent.Lib.DateTime
import LocalAgent.Lib.Dict
import LocalAgent.Lib.Op
import Mathlib.Data.Fintype.Pi

/-!
# LocalAgent.Runtime.Budget — `core/runtime/budget.py`

The budget ledger of one run.  A `BudgetUsage` is a vector over the seventeen dimensions whose
`__post_init__` is carried as fields, so a negative amount cannot be built.  The ledger has four
parts: committed usage, outstanding reservations, delegation envelopes and the map from delegated
reservations to their delegation.  What a call reads from outside (the clocks, the deadline, the
fresh `uuid4`) is an argument of the call.
-/

namespace LocalAgent.Runtime

/-! ## Usage vectors -/

/-- `_DIMENSIONS`. -/
inductive Dimension where
  | stepStarts | modelCalls | remoteModelCalls | toolCalls | inputTokens | outputTokens
  | totalTokens | costUnits | retries | retrievalCalls | embeddingCalls | vectorQueries
  | keywordQueries | bm25Queries | rrfFusions | documentReads | contextChars
  deriving DecidableEq

namespace Dimension

def value : Dimension → String
  | stepStarts => "step_starts" | modelCalls => "model_calls"
  | remoteModelCalls => "remote_model_calls" | toolCalls => "tool_calls"
  | inputTokens => "input_tokens" | outputTokens => "output_tokens"
  | totalTokens => "total_tokens" | costUnits => "cost_units" | retries => "retries"
  | retrievalCalls => "retrieval_calls" | embeddingCalls => "embedding_calls"
  | vectorQueries => "vector_queries" | keywordQueries => "keyword_queries"
  | bm25Queries => "bm25_queries" | rrfFusions => "rrf_fusions"
  | documentReads => "document_reads" | contextChars => "context_chars"

/-- The dimensions in the order of `_DIMENSIONS`. -/
def all : List Dimension :=
  [stepStarts, modelCalls, remoteModelCalls, toolCalls, inputTokens, outputTokens, totalTokens,
    costUnits, retries, retrievalCalls, embeddingCalls, vectorQueries, keywordQueries, bm25Queries,
    rrfFusions, documentReads, contextChars]

theorem mem_all (d : Dimension) : d ∈ all := by
  cases d <;> decide

instance : Fintype Dimension := ⟨⟨all, by decide⟩, mem_all⟩

end Dimension

/-- A usage vector; `__post_init__` is the two proof fields. -/
structure BudgetUsage where
  amount : Dimension → ℤ
  allowIndependentTotal : Bool
  nonneg : ∀ d, 0 ≤ amount d
  total_ge : allowIndependentTotal = false →
    amount .inputTokens + amount .outputTokens ≤ amount .totalTokens
  deriving DecidableEq

/-- The limits a ledger reads from a `RunBudget`, with its `__post_init__`. -/
structure RunBudget where
  limit : Dimension → Option ℤ
  maxElapsedSeconds : Option ℚ
  limit_nonneg : ∀ d, ∀ n ∈ limit d, 0 ≤ n
  elapsed_pos : ∀ t ∈ maxElapsedSeconds, 0 < t
  deriving DecidableEq

/-- A budget without limits. -/
def RunBudget.unlimited : RunBudget := ⟨fun _ => none, none, by simp, by simp⟩

structure BudgetReservation where
  reservationId : String
  reservationType : String
  stepId : Option String
  reservedUsage : BudgetUsage
  createdAt : DateTime
  deriving DecidableEq

structure BudgetSnapshot where
  runBudget : RunBudget
  committedUsage : BudgetUsage
  reservedUsage : BudgetUsage
  remaining : BudgetUsage
  elapsedSeconds : ℚ
  remainingTimeSeconds : Option ℚ
  activeReservationCount : ℕ
  exhaustedDimensions : List String
  generatedAt : DateTime
  deriving DecidableEq

/-- The exceptions of `budget.py`. -/
inductive BudgetError where
  /-- `BudgetExceededError`; `time` selects `TIME_BUDGET_EXHAUSTED` -/
  | exceeded (dimension : String) (requested remaining : ℤ) (snapshot : BudgetSnapshot)
      (time : Bool)
  /-- `BudgetReservationError` -/
  | reservation (message : String)
  /-- the `ValueError` of a constructor -/
  | value (message : String)
  /-- the `KeyError` of an indexing -/
  | key (key : String)
  deriving DecidableEq

/-- The error a delegated commit above its envelope ends with. -/
def delegationBudgetExceeded : BudgetError := .reservation "DELEGATION_BUDGET_EXCEEDED"

/-- `BudgetReservationError("Reservation 未知、已结算或已释放")`. -/
def reservationUnknown : BudgetError := .reservation "Reservation 未知、已结算或已释放"

namespace BudgetUsage

/-- `BudgetUsage()`. -/
def zero : BudgetUsage := ⟨fun _ => 0, false, fun _ => le_rfl, fun _ => by simp⟩

/-- A usage of `n` in one dimension other than the token parts. -/
def single (d : Dimension) (n : ℕ) (h : d ≠ .inputTokens ∧ d ≠ .outputTokens) : BudgetUsage where
  amount := fun d' => if d' = d then n else 0
  allowIndependentTotal := false
  nonneg d' := by
    split_ifs
    · exact Int.natCast_nonneg n
    · exact le_rfl
  total_ge _ := by
    rw [if_neg (Ne.symm h.1), if_neg (Ne.symm h.2)]
    split_ifs
    · simp
    · simp

/-- `BudgetUsage(**amount, _allow_independent_total=...)`, with the checks of `__post_init__`. -/
def make (amount : Dimension → ℤ) (allowIndependentTotal : Bool) : Except BudgetError BudgetUsage :=
  if hneg : ∀ d, 0 ≤ amount d then
    if htotal : allowIndependentTotal = false →
        amount .inputTokens + amount .outputTokens ≤ amount .totalTokens then
      .ok ⟨amount, allowIndependentTotal, hneg, htotal⟩
    else .error (.value "total_tokens 不得小于 input_tokens + output_tokens")
  else
    match Dimension.all.find? fun d => amount d < 0 with
    | some d => .error (.value (d.value ++ " 必须是非负整数"))
    | none => .error (.value "")

/-- `plus`: the sum of two well-formed vectors always passes the checks. -/
def plus (u v : BudgetUsage) : BudgetUsage where
  amount d := u.amount d + v.amount d
  allowIndependentTotal := u.allowIndependentTotal || v.allowIndependentTotal
  nonneg d := add_nonneg (u.nonneg d) (v.nonneg d)
  total_ge h := by
    rw [Bool.or_eq_false_iff] at h
    have hu := u.total_ge h.1
    have hv := v.total_ge h.2
    omega

def minus (u v : BudgetUsage) : Except BudgetError BudgetUsage :=
  make (fun d => u.amount d - v.amount d) (u.allowIndependentTotal || v.allowIndependentTotal)

/-- The vector of the differences clamped at zero, with an independent total. -/
def clampedMinus (u v : BudgetUsage) : BudgetUsage where
  amount d := max 0 (u.amount d - v.amount d)
  allowIndependentTotal := true
  nonneg d := le_max_left _ _
  total_ge h := by cases h

@[simp] theorem zero_amount (d : Dimension) : zero.amount d = 0 := rfl

@[simp] theorem plus_amount (u v : BudgetUsage) (d : Dimension) :
    (u.plus v).amount d = u.amount d + v.amount d := rfl

@[simp] theorem clampedMinus_amount (u v : BudgetUsage) (d : Dimension) :
    (u.clampedMinus v).amount d = max 0 (u.amount d - v.amount d) := rfl

theorem make_amount {amount : Dimension → ℤ} {flag : Bool} {u : BudgetUsage}
    (h : make amount flag = .ok u) : u.amount = amount := by
  unfold make at h
  split_ifs at h with h1 h2
  · cases h
    rfl
  · split at h <;> cases h

theorem minus_amount {u v w : BudgetUsage} (h : u.minus v = .ok w) (d : Dimension) :
    w.amount d = u.amount d - v.amount d := by
  rw [make_amount h]

theorem foldl_plus_amount (us : List BudgetUsage) (u : BudgetUsage) (d : Dimension) :
    (us.foldl plus u).amount d = u.amount d + (us.map fun v => v.amount d).sum := by
  induction us generalizing u with
  | nil => simp
  | cons _ _ ih => rw [List.foldl_cons, ih]; simp [add_assoc]

end BudgetUsage

/-! ## The ledger -/

structure BudgetLedger where
  budget : RunBudget
  committed : BudgetUsage
  reservations : Dict String BudgetReservation
  envelopes : Dict String BudgetUsage
  delegatedReservations : Dict String String

/-- What one snapshot reads from outside: elapsed seconds, the deadline callback, `now`. -/
structure BudgetReading where
  elapsed : ℚ
  deadlineRemaining : Option ℚ
  now : DateTime

abbrev LedgerOp := Op BudgetError BudgetLedger

namespace BudgetLedger

/-- `BudgetLedger(budget)`; the delegation dictionaries, created on the first allocation, start
empty. -/
def new (budget : RunBudget) : BudgetLedger :=
  ⟨budget, BudgetUsage.zero, Dict.empty, Dict.empty, Dict.empty⟩

def reserved (ledger : BudgetLedger) : BudgetUsage :=
  ledger.envelopes.values.foldl BudgetUsage.plus
    ((ledger.reservations.values.map BudgetReservation.reservedUsage).foldl BudgetUsage.plus
      BudgetUsage.zero)

/-- The remaining time: the least of the two clamped time limits that are there. -/
def remainingTime (ledger : BudgetLedger) (reading : BudgetReading) : Option ℚ :=
  List.min? (((ledger.budget.maxElapsedSeconds.map fun t => max 0 (t - reading.elapsed)).toList) ++
    (reading.deadlineRemaining.map fun t => max 0 t).toList)

/-- The remaining amount in one dimension; 0 where there is no limit. -/
def remainingAmount (ledger : BudgetLedger) (d : Dimension) : ℤ :=
  match ledger.budget.limit d with
  | some limit => max 0 (limit - ledger.committed.amount d - ledger.reserved.amount d)
  | none => 0

def snapshotLocked (ledger : BudgetLedger) (reading : BudgetReading) : BudgetSnapshot :=
  let rt := ledger.remainingTime reading
  let exhausted := (Dimension.all.filter fun d =>
    ledger.budget.limit d ≠ none ∧ ledger.remainingAmount d = 0).map Dimension.value
  { runBudget := ledger.budget
    committedUsage := ledger.committed
    reservedUsage := ledger.reserved
    remaining :=
      { amount := ledger.remainingAmount
        allowIndependentTotal := true
        nonneg := fun d => by
          unfold remainingAmount
          split
          · exact le_max_left _ _
          · exact le_rfl
        total_ge := fun h => by cases h }
    elapsedSeconds := reading.elapsed
    remainingTimeSeconds := rt
    activeReservationCount := ledger.reservations.keys.length
    exhaustedDimensions :=
      if ∃ t ∈ rt, t ≤ 0 then exhausted ++ ["elapsed_seconds"] else exhausted
    generatedAt := reading.now }

def snapshot (delegationId : Option String) (reading : BudgetReading) : LedgerOp BudgetSnapshot := do
  let ledger ← get
  let snap := ledger.snapshotLocked reading
  match delegationId with
  | none => return snap
  | some id =>
    match ledger.envelopes.get? id with
    | none => Op.raise (.reservation "DELEGATION_ALLOCATION_MISSING")
    | some remaining => return { snap with remaining := remaining }

/-- The admission test of `allocate_delegation`. -/
def guardAllocation (ledger : BudgetLedger) (usage : BudgetUsage) (snap : BudgetSnapshot) :
    Except BudgetError Unit :=
  Dimension.all.forM fun d =>
    raiseIf (ledger.budget.limit d ≠ none ∧ snap.remaining.amount d < usage.amount d)
      (.exceeded d.value (usage.amount d) (snap.remaining.amount d) snap false)

def allocateDelegation (delegationId : String) (usage : BudgetUsage) (reading : BudgetReading) :
    LedgerOp Unit := do
  let ledger ← get
  if delegationId ∈ ledger.envelopes.keys then return ()
  let snap := ledger.snapshotLocked reading
  Op.lift (ledger.guardAllocation usage snap)
  set { ledger with envelopes := ledger.envelopes.set delegationId usage }

def releaseDelegation (delegationId : String) : LedgerOp Unit := do
  let ledger ← get
  Op.lift (raiseIf (delegationId ∈ ledger.delegatedReservations.values)
    (.reservation "DELEGATION_INFLIGHT"))
  set { ledger with envelopes := ledger.envelopes.erase delegationId }

/-- The time check at the start of `reserve`. -/
def guardTime (snap : BudgetSnapshot) : Except BudgetError Unit :=
  raiseIf (∃ t ∈ snap.remainingTimeSeconds, t ≤ 0) (.exceeded "elapsed_seconds" 1 0 snap true)

/-- The root admission test of `reserve` and `commit`: `usage` on top of what is committed and
reserved stays within every limit.  `errorSnap` is the snapshot the exception carries. -/
def guardLimits (ledger : BudgetLedger) (usage : BudgetUsage) (errorSnap : BudgetSnapshot) :
    Except BudgetError Unit :=
  Dimension.all.forM fun d =>
    raiseIf (∃ limit ∈ ledger.budget.limit d,
        limit < ledger.committed.amount d + ledger.reserved.amount d + usage.amount d)
      (.exceeded d.value (usage.amount d) (errorSnap.remaining.amount d) errorSnap false)

/-- The admission test of a delegated `reserve`. -/
def guardEnvelope (available usage : BudgetUsage) (snap : BudgetSnapshot) :
    Except BudgetError Unit :=
  Dimension.all.forM fun d =>
    raiseIf (available.amount d < usage.amount d)
      (.exceeded d.value (usage.amount d) (available.amount d) snap false)

/-- The delegated branch of `reserve`. -/
def reserveDelegated (reservation : BudgetReservation) (delegationId : String)
    (snap : BudgetSnapshot) : LedgerOp BudgetReservation := do
  let ledger ← get
  match ledger.envelopes.get? delegationId with
  | none => Op.raise (.reservation "DELEGATION_ALLOCATION_MISSING")
  | some available => do
    let usage := reservation.reservedUsage
    Op.lift (guardEnvelope available usage snap)
    let left ← Op.lift (available.minus usage)
    set { ledger with
      envelopes := ledger.envelopes.set delegationId left
      delegatedReservations :=
        ledger.delegatedReservations.set reservation.reservationId delegationId
      reservations := ledger.reservations.set reservation.reservationId reservation }
    return reservation

/-- `reserve`; `uuid` and `createdAt` are the fresh identity and the clock reading of the new
reservation. -/
def reserve (usage : BudgetUsage) (reservationType : String) (stepId delegationId : Option String)
    (uuid : String) (createdAt : DateTime) (reading : BudgetReading) :
    LedgerOp BudgetReservation := do
  let ledger ← get
  let snap := ledger.snapshotLocked reading
  Op.lift (guardTime snap)
  let reservation : BudgetReservation := ⟨uuid, reservationType, stepId, usage, createdAt⟩
  match delegationId with
  | some id => reserveDelegated reservation id snap
  | none => do
    Op.lift (ledger.guardLimits usage snap)
    set { ledger with reservations := ledger.reservations.set uuid reservation }
    return reservation

/-- The delegated branch of `commit`: the reservation goes back to the envelope, the actual usage
is taken out of it (clamped at zero) and committed. -/
def commitDelegated (reservation : BudgetReservation) (actual : BudgetUsage) (delegation : String)
    (reading : BudgetReading) : LedgerOp BudgetSnapshot := do
  let ledger ← get
  match ledger.envelopes.get? delegation with
  | none => Op.raise (.key delegation)
  | some available => do
    let refunded := available.plus reservation.reservedUsage
    let next := { ledger with
      envelopes := ledger.envelopes.set delegation (refunded.clampedMinus actual)
      reservations := ledger.reservations.erase reservation.reservationId
      committed := ledger.committed.plus actual }
    set next
    Op.lift (raiseIf (∃ d, refunded.amount d < actual.amount d) delegationBudgetExceeded)
    return next.snapshotLocked reading

/-- `commit`.  The dictionary entry of a delegated reservation is popped before the envelope is
looked up; a rejected root commit puts its reservation back at the end of the dictionary. -/
def commit (reservation : BudgetReservation) (actualUsage : Option BudgetUsage)
    (reading : BudgetReading) : LedgerOp BudgetSnapshot := do
  let ledger ← get
  Op.lift (raiseIf (ledger.reservations.get? reservation.reservationId ≠ some reservation)
    reservationUnknown)
  let actual := actualUsage.getD reservation.reservedUsage
  match ledger.delegatedReservations.get? reservation.reservationId with
  | some delegation => do
    set { ledger with
      delegatedReservations := ledger.delegatedReservations.erase reservation.reservationId }
    commitDelegated reservation actual delegation reading
  | none => do
    let without := { ledger with
      reservations := ledger.reservations.erase reservation.reservationId }
    let restored := { ledger with
      reservations := without.reservations.set reservation.reservationId reservation }
    match without.guardLimits actual (restored.snapshotLocked reading) with
    | .error e => do
      set restored
      Op.raise e
    | .ok () => do
      let next := { without with committed := ledger.committed.plus actual }
      set next
      return next.snapshotLocked reading

/-- `release`.  The reservation is popped before it is compared with the one presented. -/
def release (reservation : BudgetReservation) (reading : BudgetReading) :
    LedgerOp BudgetSnapshot := do
  let ledger ← get
  let stored := ledger.reservations.get? reservation.reservationId
  let popped := { ledger with
    reservations := ledger.reservations.erase reservation.reservationId }
  set popped
  Op.lift (raiseIf (stored ≠ some reservation) reservationUnknown)
  match ledger.delegatedReservations.get? reservation.reservationId with
  | none => return popped.snapshotLocked reading
  | some delegation => do
    let undelegated := { popped with
      delegatedReservations := ledger.delegatedReservations.erase reservation.reservationId }
    set undelegated
    match ledger.envelopes.get? delegation with
    | none => Op.raise (.key delegation)
    | some envelope => do
      let next := { undelegated with
        envelopes := ledger.envelopes.set delegation (envelope.plus reservation.reservedUsage) }
      set next
      return next.snapshotLocked reading

end BudgetLedger

def BudgetPolicy.feasible (snapshot : BudgetSnapshot) (usage : BudgetUsage) : Bool :=
  if ∃ t ∈ snapshot.remainingTimeSeconds, t ≤ 0 then false
  else Dimension.all.all fun d =>
    snapshot.runBudget.limit d = none || usage.amount d ≤ snapshot.remaining.amount d

end LocalAgent.Runtime
