import LocalAgent.Lib.Dict
import LocalAgent.Lib.Text
import Mathlib.Data.List.Dedup
import Mathlib.Data.List.Induction
import Mathlib.Data.List.Sort

/-!
# LocalAgent.Runtime.ToolRecovery — `core/runtime/tool_recovery.py`

`ToolRecoveryDecisionEngine` classifies persisted evidence of tool calls: the items are sorted by
sequence, grouped by invocation, and each group is decided by a chain of rules.  A group is a first
item with the others, so that `max` always has an element.

* `groupBy_items`, `mem_keys_groupBy`: a group is the items with its key, in their order.
* `Candidate`, `decideGroup_candidate_iff`: when the rules answer `SAFE_RETRY_CANDIDATE`.
* `decide_perm`, `decide_identities`, `decide_wellFormed`: the order of the input does not matter,
  every invocation is decided once, and every decision passes its own check.
* `decide_safe_iff`: a candidate has no dangerous evidence exactly when no invocation hides one.
-/

namespace LocalAgent.Runtime

namespace ToolRecovery

inductive EventKind where
  | started | completed | unknown
  deriving DecidableEq, Repr

/-- `ToolRecoveryEvidence`: the fields the engine reads. -/
structure Evidence where
  toolName : String
  invocationIdentityDigest : Option String
  attemptIdentityDigest : Option String
  sideEffectKind : Option String
  sideEffectState : Option String
  retryDisposition : Option String
  executionDetached : Bool
  workerTerminated : Bool
  sequence : ℤ
  eventKind : EventKind
  stepId : Option String
  attemptSequence : Option ℤ
  toolEvidenceSchemaVersion : Option ℤ
  idempotencyKind : Option String
  idempotencyKeyDigest : Option String
  replaySupported : Option Bool
  compensationState : Option String
  outcomeClassification : Option String
  succeeded : Option Bool

/-- A lowercase SHA-256 digest. -/
def isDigest (value : String) : Bool :=
  value.length = 64 && value.toList.all fun c => c ∈ "0123456789abcdef".toList

/-- What `ToolRecoveryEvidence.__post_init__` asks for. -/
structure Evidence.WellFormed (item : Evidence) : Prop where
  toolName : Text.isBlank item.toolName = false
  invocation : ∀ digest ∈ item.invocationIdentityDigest, isDigest digest = true
  attempt : ∀ digest ∈ item.attemptIdentityDigest, isDigest digest = true
  sequence : 0 < item.sequence
  key : ∀ digest ∈ item.idempotencyKeyDigest, isDigest digest = true
  step : ∀ id ∈ item.stepId, Text.isBlank id = false
  attemptSequence : ∀ n ∈ item.attemptSequence, 0 ≤ n
  schemaVersion : ∀ n ∈ item.toolEvidenceSchemaVersion, 0 < n

inductive DecisionStatus where
  | noActionRequired | safeRetryCandidate | doNotRetry | manualReconciliation
  | insufficientEvidence
  deriving DecidableEq, Repr

/-- `ToolRecoveryDecision`. -/
structure Decision where
  invocationIdentityDigest : Option String
  toolName : String
  status : DecisionStatus
  reasons : List String
  attemptSequences : List ℤ
  sideEffectKind : Option String
  idempotencyKind : Option String
  sideEffectState : Option String
  compensationState : Option String
  replaySupported : Option Bool
  idempotencyKeyAvailable : Bool
  executionDetached : Bool
  workerTerminated : Bool
  retryCandidate : Bool
  automaticActionAllowed : Bool

/-- What `ToolRecoveryDecision.__post_init__` asks for. -/
structure Decision.WellFormed (d : Decision) : Prop where
  toolName : Text.isBlank d.toolName = false
  reasons : ∀ reason ∈ d.reasons, reason ≠ ""
  attemptSequences : d.attemptSequences.Pairwise (· < ·)
  manualOnly : d.automaticActionAllowed = false
  candidate : d.retryCandidate = true ↔ d.status = .safeRetryCandidate

/-- `RecoveryProjection`: the status of each step's snapshot. -/
structure Projection where
  stepStates : Dict String String

/-! ## Groups -/

/-- The items of one key, in order. -/
structure Group where
  first : Evidence
  rest : List Evidence

def Group.items (group : Group) : List Evidence := group.first :: group.rest

/-- `grouped[key].append(item)`. -/
def appendTo (groups : Dict String Group) (key : String) (item : Evidence) : Dict String Group :=
  match groups.get? key with
  | none => groups.set key ⟨item, []⟩
  | some group => groups.set key { group with rest := group.rest ++ [item] }

/-- The `defaultdict(list)` of the items that have a key. -/
def groupBy (key : Evidence → Option String) (items : List Evidence) : Dict String Group :=
  items.foldl
    (fun groups item =>
      match key item with
      | none => groups
      | some k => appendTo groups k item)
    Dict.empty

/-- `max(items, key=lambda item: item.sequence)`: the first of the greatest. -/
def Group.latest (group : Group) : Evidence :=
  group.rest.foldl (fun best item => if best.sequence < item.sequence then item else best)
    group.first

/-- `min(item.sequence for item in values)`. -/
def Group.leastSequence (group : Group) : ℤ :=
  group.rest.foldl (fun least item => min least item.sequence) group.first.sequence

/-- `max(attempts.values(), key=...)`, the items of it. -/
def latestAttempt : List Group → List Evidence
  | [] => []
  | group :: groups =>
    (groups.foldl (fun best other =>
      if best.leastSequence < other.leastSequence then other else best) group).items

/-! ## The rules -/

/-- `_decision`. -/
def decision (group : Group) (status : DecisionStatus) (reason : String) : Decision :=
  let latest := group.latest
  let starts := (group.items.filter fun item => item.eventKind = .started).map fun item =>
    item.attemptSequence.getD item.sequence
  let sequences := if starts = [] then group.items.map Evidence.sequence else starts
  { invocationIdentityDigest := latest.invocationIdentityDigest
    toolName := latest.toolName
    status := status
    reasons := [reason]
    attemptSequences := sequences.dedup.insertionSort (· ≤ ·)
    sideEffectKind := latest.sideEffectKind
    idempotencyKind := latest.idempotencyKind
    sideEffectState := latest.sideEffectState
    compensationState := latest.compensationState
    replaySupported := latest.replaySupported
    idempotencyKeyAvailable := latest.idempotencyKeyDigest ≠ none
    executionDetached := latest.executionDetached
    workerTerminated := latest.workerTerminated
    retryCandidate := status = .safeRetryCandidate
    automaticActionAllowed := false }

/-- `_manual`. -/
def manual (group : Group) (reason : String) : Decision :=
  decision group .manualReconciliation reason

/-- `_insufficient`. -/
def insufficient (group : Group) (reason : String) : Decision :=
  decision group .insufficientEvidence reason

/-- `item.compensation_state == "FAILED"`. -/
def Evidence.CompensationFailed (item : Evidence) : Prop := item.compensationState = some "FAILED"

/-- `item.execution_detached and not item.worker_terminated`. -/
def Evidence.DetachedWorker (item : Evidence) : Prop :=
  item.executionDetached = true ∧ item.workerTerminated = false

/-- The item reports an unknown outcome. -/
def Evidence.OutcomeUnknown (item : Evidence) : Prop :=
  item.retryDisposition = some "OUTCOME_UNKNOWN" ∨
    item.outcomeClassification = some "OUTCOME_UNKNOWN" ∨
    item.outcomeClassification = some "POST_COMMIT_RESPONSE_FAILURE" ∨
    item.sideEffectState = some "UNKNOWN"

/-- `NON_IDEMPOTENT` and `COMMITTED`. -/
def Evidence.NonIdempotentCommitted (item : Evidence) : Prop :=
  item.idempotencyKind = some "NON_IDEMPOTENT" ∧ item.sideEffectState = some "COMMITTED"

instance (item : Evidence) : Decidable item.CompensationFailed :=
  inferInstanceAs (Decidable (_ = _))

instance (item : Evidence) : Decidable item.DetachedWorker := inferInstanceAs (Decidable (_ ∧ _))

instance (item : Evidence) : Decidable item.OutcomeUnknown := inferInstanceAs (Decidable (_ ∨ _))

instance (item : Evidence) : Decidable item.NonIdempotentCommitted :=
  inferInstanceAs (Decidable (_ ∧ _))

/-- Exactly one start and at most one completion. -/
def Paired (items : List Evidence) : Prop :=
  (items.filter fun item => item.eventKind = .started).length = 1 ∧
    (items.filter fun item => item.eventKind = .completed).length ≤ 1

instance (items : List Evidence) : Decidable (Paired items) := inferInstanceAs (Decidable (_ ∧ _))

/-- `authoritative_success`. -/
def AuthoritativeSuccess (attempt : List Evidence) (projection : Projection) : Prop :=
  ∃ item ∈ attempt.filter fun item => item.eventKind = .completed,
    item.succeeded = some true ∧
      ∃ stepId ∈ item.stepId, projection.stepStates.get? stepId = some "SUCCEEDED"

instance (attempt : List Evidence) (projection : Projection) :
    Decidable (AuthoritativeSuccess attempt projection) :=
  inferInstanceAs (Decidable (∃ item ∈ attempt.filter _, _ ∧ _))

/-- The attempts of an invocation. -/
def attemptsOf (items : List Evidence) : List Group :=
  (groupBy Evidence.attemptIdentityDigest items).values

/-- The metadata of old evidence may be missing. -/
def Evidence.Incomplete (item : Evidence) : Prop :=
  item.toolEvidenceSchemaVersion = none ∨ item.sideEffectKind = none ∨ item.idempotencyKind = none

instance (item : Evidence) : Decidable item.Incomplete := inferInstanceAs (Decidable (_ ∨ _))

/-- `_decide_group`. -/
def decideGroup (group : Group) (projection : Projection) : Decision :=
  let items := group.items
  let attempts := attemptsOf items
  let latest := group.latest
  if (items.map Evidence.toolName).dedup.length ≠ 1 then
    manual group "INVOCATION_TOOL_NAME_CONFLICT"
  else if ∃ item ∈ items, item.attemptIdentityDigest = none then
    insufficient group "ATTEMPT_IDENTITY_MISSING"
  else if ∃ attempt ∈ attempts, ¬ Paired attempt.items then
    manual group "ATTEMPT_EVENT_PAIRING_INVALID"
  else if ∃ item ∈ items, item.CompensationFailed then
    manual group "COMPENSATION_FAILED"
  else if ∃ item ∈ items, item.OutcomeUnknown ∨ item.DetachedWorker then
    manual group "OUTCOME_UNKNOWN"
  else if AuthoritativeSuccess (latestAttempt attempts) projection then
    if latest.NonIdempotentCommitted then
      decision group .doNotRetry "NON_IDEMPOTENT_COMMITTED_AND_COMPLETED"
    else decision group .noActionRequired "INVOCATION_AUTHORITATIVELY_COMPLETED"
  else if ∃ item ∈ items, item.Incomplete then
    insufficient group "HISTORICAL_EVIDENCE_INCOMPLETE"
  else if latest.NonIdempotentCommitted then
    manual group "NON_IDEMPOTENT_COMMITTED_WITHOUT_COMPLETION"
  else if latest.sideEffectKind = some "NONE" ∧ latest.sideEffectState ≠ some "COMMITTED" ∧
      latest.sideEffectState ≠ some "UNKNOWN" then
    decision group .safeRetryCandidate "NO_SIDE_EFFECT_AND_INVOCATION_INCOMPLETE"
  else if latest.idempotencyKind = some "IDEMPOTENT_WITH_KEY" ∧
      latest.idempotencyKeyDigest ≠ none ∧ latest.replaySupported = some true then
    decision group .safeRetryCandidate "IDEMPOTENT_KEYED_RETRY_CANDIDATE"
  else manual group "INCOMPLETE_INVOCATION_NOT_SAFE_TO_RETRY"

/-- `sorted(evidence, key=lambda value: value.sequence)`. -/
def bySequence (evidence : List Evidence) : List Evidence :=
  evidence.insertionSort fun a b => a.sequence ≤ b.sequence

/-- The groups in the order of their first items. -/
def sortedGroups (evidence : List Evidence) : List (String × Group) :=
  (groupBy Evidence.invocationIdentityDigest (bySequence evidence)).entries.insertionSort
    fun a b => a.2.first.sequence ≤ b.2.first.sequence

/-- The items without an invocation. -/
def unidentified (evidence : List Evidence) : List Evidence :=
  (bySequence evidence).filter fun item => item.invocationIdentityDigest = none

/-- `ToolRecoveryDecisionEngine.decide`. -/
def decide (evidence : List Evidence) (projection : Projection) : List Decision :=
  ((sortedGroups evidence).map fun pair => decideGroup pair.2 projection) ++
    (unidentified evidence).map fun item => insufficient ⟨item, []⟩ "INVOCATION_IDENTITY_MISSING"

/-! ## What a group holds -/

section Groups

variable {key : Evidence → Option String} {items : List Evidence} {k : String} {group : Group}

/-- The items with this key. -/
def withKey (key : Evidence → Option String) (k : String) (items : List Evidence) : List Evidence :=
  items.filter fun item => key item = some k

/-- The items of a key, none when there is no group. -/
def itemsOf (groups : Dict String Group) (k : String) : List Evidence :=
  ((groups.get? k).map Group.items).getD []

theorem itemsOf_appendTo (groups : Dict String Group) (k k' : String) (item : Evidence) :
    itemsOf (appendTo groups k item) k' =
      if k' = k then itemsOf groups k ++ [item] else itemsOf groups k' := by
  unfold itemsOf appendTo
  cases hk : groups.get? k with
  | none =>
    rw [Dict.get?_set]
    split_ifs <;> rfl
  | some group =>
    rw [Dict.get?_set]
    split_ifs <;> rfl

/-- A group is the items with its key, in their order. -/
theorem itemsOf_groupBy (key : Evidence → Option String) (items : List Evidence) (k : String) :
    itemsOf (groupBy key items) k = withKey key k items := by
  induction items using List.reverseRecOn with
  | nil => rfl
  | append_singleton items item ih =>
    have hsplit : withKey key k (items ++ [item]) =
        withKey key k items ++ withKey key k [item] := List.filter_append _ _
    rw [hsplit, ← ih]
    cases hkey : key item with
    | none =>
      have hstep : groupBy key (items ++ [item]) = groupBy key items := by
        rw [groupBy, List.foldl_append, List.foldl_cons, List.foldl_nil, hkey]
        rfl
      have hskip : withKey key k [item] = [] := by simp [withKey, hkey]
      rw [hstep, hskip, List.append_nil]
    | some k' =>
      have hstep : groupBy key (items ++ [item]) = appendTo (groupBy key items) k' item := by
        rw [groupBy, List.foldl_append, List.foldl_cons, List.foldl_nil, hkey]
        rfl
      rw [hstep, itemsOf_appendTo]
      by_cases hk : k = k'
      · subst hk
        have htake : withKey key k [item] = [item] := by simp [withKey, hkey]
        rw [if_pos rfl, htake]
      · have hskip : withKey key k [item] = [] := by simp [withKey, hkey, Ne.symm hk]
        rw [if_neg hk, hskip, List.append_nil]

theorem groupBy_items (h : (groupBy key items).get? k = some group) :
    group.items = withKey key k items := by
  rw [← itemsOf_groupBy, itemsOf, h]
  rfl

theorem mem_keys_groupBy : k ∈ (groupBy key items).keys ↔ ∃ item ∈ items, key item = some k := by
  rw [Dict.mem_keys_iff]
  constructor
  · rintro ⟨group, hget⟩
    have hmem : group.first ∈ withKey key k items := by
      rw [← groupBy_items hget]
      exact List.mem_cons_self
    obtain ⟨hin, hkey⟩ := List.mem_filter.mp hmem
    exact ⟨group.first, hin, of_decide_eq_true hkey⟩
  · rintro ⟨item, hin, hkey⟩
    have hmem : item ∈ itemsOf (groupBy key items) k := by
      rw [itemsOf_groupBy]
      exact List.mem_filter.mpr ⟨hin, decide_eq_true hkey⟩
    cases hget : (groupBy key items).get? k with
    | none =>
      rw [itemsOf, hget] at hmem
      exact nomatch hmem
    | some group => exact ⟨group, rfl⟩

/-- The latest item is one of the group. -/
theorem foldl_latest_mem {rest : List Evidence} {best : Evidence} :
    rest.foldl (fun best item => if best.sequence < item.sequence then item else best) best ∈
      best :: rest := by
  induction rest generalizing best with
  | nil => exact List.mem_cons_self
  | cons item rest ih =>
    rw [List.foldl_cons]
    rcases List.mem_cons.mp (@ih (if best.sequence < item.sequence then item else best))
      with h | h
    · rw [h]
      split_ifs <;> simp
    · exact List.mem_cons_of_mem _ (List.mem_cons_of_mem _ h)

theorem Group.latest_mem (group : Group) : group.latest ∈ group.items := foldl_latest_mem

end Groups

/-! ## When a retry is offered -/

/-- All rules before the last two pass, and one of these offers the retry. -/
structure Candidate (group : Group) (projection : Projection) : Prop where
  oneName : (group.items.map Evidence.toolName).dedup.length = 1
  identified : ∀ item ∈ group.items, item.attemptIdentityDigest ≠ none
  paired : ∀ attempt ∈ attemptsOf group.items, Paired attempt.items
  compensated : ∀ item ∈ group.items, ¬ item.CompensationFailed
  known : ∀ item ∈ group.items, ¬ item.OutcomeUnknown ∧ ¬ item.DetachedWorker
  incomplete : ¬ AuthoritativeSuccess (latestAttempt (attemptsOf group.items)) projection
  recorded : ∀ item ∈ group.items, ¬ item.Incomplete
  uncommitted : ¬ group.latest.NonIdempotentCommitted
  offered : (group.latest.sideEffectKind = some "NONE" ∧
      group.latest.sideEffectState ≠ some "COMMITTED") ∨
    (group.latest.idempotencyKind = some "IDEMPOTENT_WITH_KEY" ∧
      group.latest.idempotencyKeyDigest ≠ none ∧ group.latest.replaySupported = some true)

/-- A rule that answers otherwise does not apply. -/
theorem status_ite {p : Prop} [Decidable p] {a b : Decision} {status : DecisionStatus}
    (h : (if p then a else b).status = status) (ha : a.status ≠ status) :
    ¬ p ∧ b.status = status := by
  by_cases hp : p
  · rw [if_pos hp] at h
    exact absurd h ha
  · rw [if_neg hp] at h
    exact ⟨hp, h⟩

theorem status_ite_of_not {p : Prop} [Decidable p] {a b : Decision} {status : DecisionStatus}
    (hp : ¬ p) (h : b.status = status) : (if p then a else b).status = status := by
  rw [if_neg hp]
  exact h

theorem decideGroup_candidate_iff {group : Group} {projection : Projection} :
    (decideGroup group projection).status = .safeRetryCandidate ↔ Candidate group projection := by
  constructor
  · intro h
    obtain ⟨h1, h⟩ := status_ite h nofun
    obtain ⟨h2, h⟩ := status_ite h nofun
    obtain ⟨h3, h⟩ := status_ite h nofun
    obtain ⟨h4, h⟩ := status_ite h nofun
    obtain ⟨h5, h⟩ := status_ite h nofun
    obtain ⟨h6, h⟩ := status_ite h (by split_ifs <;> exact nofun)
    obtain ⟨h7, h⟩ := status_ite h nofun
    obtain ⟨h8, h⟩ := status_ite h nofun
    refine ⟨not_not.mp h1, fun item hin hnone => h2 ⟨item, hin, hnone⟩, fun attempt hin => ?_,
      fun item hin hf => h4 ⟨item, hin, hf⟩, fun item hin => ⟨?_, ?_⟩, h6,
      fun item hin hi => h7 ⟨item, hin, hi⟩, h8, ?_⟩
    · by_contra hnot
      exact h3 ⟨attempt, hin, hnot⟩
    · exact fun hu => h5 ⟨item, hin, Or.inl hu⟩
    · exact fun hd => h5 ⟨item, hin, Or.inr hd⟩
    · split_ifs at h with h9 h10
      · exact Or.inl ⟨h9.1, h9.2.1⟩
      · exact Or.inr h10
      · exact nomatch h
  · intro h
    have hlatest : group.latest.sideEffectState ≠ some "UNKNOWN" := fun hu =>
      (h.known _ group.latest_mem).1 (Or.inr (Or.inr (Or.inr hu)))
    refine status_ite_of_not (not_not.mpr h.oneName) ?_
    refine status_ite_of_not (fun ⟨item, hin, hnone⟩ => h.identified item hin hnone) ?_
    refine status_ite_of_not (fun ⟨attempt, hin, hnot⟩ => hnot (h.paired attempt hin)) ?_
    refine status_ite_of_not (fun ⟨item, hin, hf⟩ => h.compensated item hin hf) ?_
    refine status_ite_of_not
      (fun ⟨item, hin, hu⟩ => hu.elim (h.known item hin).1 (h.known item hin).2) ?_
    refine status_ite_of_not h.incomplete ?_
    refine status_ite_of_not (fun ⟨item, hin, hi⟩ => h.recorded item hin hi) ?_
    refine status_ite_of_not h.uncommitted ?_
    rcases h.offered with hnone | hkeyed
    · rw [if_pos ⟨hnone.1, hnone.2, hlatest⟩]
      rfl
    · rw [if_pos hkeyed]
      split_ifs <;> rfl

theorem decision_digest (group : Group) (status : DecisionStatus) (reason : String) :
    (decision group status reason).invocationIdentityDigest =
      group.latest.invocationIdentityDigest := rfl

/-- What every rule answers. -/
def IsDecision (group : Group) (d : Decision) : Prop :=
  ∃ status reason, d = decision group status reason ∧ reason ≠ ""

theorem isDecision_ite {group : Group} {p : Prop} [Decidable p] {a b : Decision}
    (ha : IsDecision group a) (hb : IsDecision group b) :
    IsDecision group (if p then a else b) := by
  split_ifs
  · exact ha
  · exact hb

theorem isDecision_decideGroup (group : Group) (projection : Projection) :
    IsDecision group (decideGroup group projection) := by
  refine isDecision_ite ⟨_, _, rfl, by decide⟩ ?_
  refine isDecision_ite ⟨_, _, rfl, by decide⟩ ?_
  refine isDecision_ite ⟨_, _, rfl, by decide⟩ ?_
  refine isDecision_ite ⟨_, _, rfl, by decide⟩ ?_
  refine isDecision_ite ⟨_, _, rfl, by decide⟩ ?_
  refine isDecision_ite
    (isDecision_ite ⟨_, _, rfl, by decide⟩ ⟨_, _, rfl, by decide⟩) ?_
  refine isDecision_ite ⟨_, _, rfl, by decide⟩ ?_
  refine isDecision_ite ⟨_, _, rfl, by decide⟩ ?_
  refine isDecision_ite ⟨_, _, rfl, by decide⟩ ?_
  exact isDecision_ite ⟨_, _, rfl, by decide⟩ ⟨_, _, rfl, by decide⟩

/-- `sorted(set(...))`. -/
theorem sorted_once (numbers : List ℤ) :
    (numbers.dedup.insertionSort (· ≤ ·)).Pairwise (· < ·) := by
  have hnodup := (List.perm_insertionSort (· ≤ ·) numbers.dedup).nodup_iff.mpr
    (List.nodup_dedup numbers)
  exact ((List.pairwise_insertionSort (· ≤ ·) _).and hnodup).imp fun h => lt_of_le_of_ne h.1 h.2

theorem decision_wellFormed {group : Group} {d : Decision} (h : IsDecision group d)
    (hitems : ∀ item ∈ group.items, item.WellFormed) : d.WellFormed := by
  obtain ⟨status, reason, rfl, hreason⟩ := h
  refine ⟨(hitems _ group.latest_mem).toolName, fun r hr => ?_, sorted_once _, rfl,
    decide_eq_true_iff⟩
  exact List.mem_singleton.mp hr ▸ hreason

/-! ## All invocations -/

section Decide

variable {evidence : List Evidence} {projection : Projection} {id : String} {group : Group}

theorem bySequence_perm (evidence : List Evidence) : (bySequence evidence).Perm evidence :=
  List.perm_insertionSort _ _

/-- Items with distinct sequences are sorted in one way only. -/
theorem bySequence_eq {other : List Evidence} (hdistinct : (evidence.map Evidence.sequence).Nodup)
    (hperm : other.Perm evidence) : bySequence other = bySequence evidence := by
  have hsorted : ∀ l, (bySequence l).Pairwise fun a b => a.sequence ≤ b.sequence :=
    fun l => List.pairwise_insertionSort _ l
  refine List.Perm.eq_of_pairwise ?_ (hsorted other) (hsorted evidence)
    (((bySequence_perm other).trans hperm).trans (bySequence_perm evidence).symm)
  intro a b ha hb hab hba
  have ha' : a ∈ evidence := hperm.mem_iff.mp ((bySequence_perm other).mem_iff.mp ha)
  have hb' : b ∈ evidence := (bySequence_perm evidence).mem_iff.mp hb
  exact List.inj_on_of_nodup_map hdistinct ha' hb' (le_antisymm hab hba)

theorem decide_perm {other : List Evidence} (hdistinct : (evidence.map Evidence.sequence).Nodup)
    (hperm : other.Perm evidence) : decide other projection = decide evidence projection := by
  unfold decide sortedGroups unidentified
  rw [bySequence_eq hdistinct hperm]

/-- The items of one invocation. -/
def invocation (evidence : List Evidence) (id : String) : Option Group :=
  (groupBy Evidence.invocationIdentityDigest (bySequence evidence)).get? id

theorem mem_sortedGroups {pair : String × Group} :
    pair ∈ sortedGroups evidence ↔ invocation evidence pair.1 = some pair.2 := by
  rw [sortedGroups, (List.perm_insertionSort _ _).mem_iff, invocation, Dict.get?_eq_some_iff]

theorem invocation_items (h : invocation evidence id = some group) :
    group.items = withKey Evidence.invocationIdentityDigest id (bySequence evidence) :=
  groupBy_items h

theorem mem_invocation (h : invocation evidence id = some group) {item : Evidence} :
    item ∈ group.items ↔ item ∈ evidence ∧ item.invocationIdentityDigest = some id := by
  rw [invocation_items h, withKey, List.mem_filter, (bySequence_perm evidence).mem_iff,
    decide_eq_true_iff]

theorem decideGroup_digest (h : invocation evidence id = some group) :
    (decideGroup group projection).invocationIdentityDigest = some id := by
  obtain ⟨status, reason, heq, -⟩ := isDecision_decideGroup group projection
  rw [heq, decision_digest]
  exact ((mem_invocation h).mp group.latest_mem).2

/-- No decision fails the check of its own constructor. -/
theorem decide_wellFormed (hevidence : ∀ item ∈ evidence, item.WellFormed) :
    ∀ d ∈ decide evidence projection, d.WellFormed := by
  intro d hd
  rcases List.mem_append.mp hd with hd | hd
  · obtain ⟨⟨id, group⟩, hpair, rfl⟩ := List.mem_map.mp hd
    refine decision_wellFormed (isDecision_decideGroup group projection) fun item hitem => ?_
    exact hevidence item ((mem_invocation (mem_sortedGroups.mp hpair)).mp hitem).1
  · obtain ⟨item, hitem, rfl⟩ := List.mem_map.mp hd
    refine decision_wellFormed ⟨_, _, rfl, by decide⟩ fun other hother => ?_
    rw [List.mem_singleton.mp hother]
    exact hevidence item ((bySequence_perm evidence).mem_iff.mp (List.mem_filter.mp hitem).1)

/-- Exactly one decision for each invocation, and one for each item without an invocation. -/
def OnePerInvocation (evidence : List Evidence) (decisions : List Decision) : Prop :=
  ∃ ids : List String, ids.Nodup ∧
    (∀ id, id ∈ ids ↔ ∃ item ∈ evidence, item.invocationIdentityDigest = some id) ∧
    decisions.map Decision.invocationIdentityDigest = ids.map some ++
      List.replicate (evidence.countP fun item => item.invocationIdentityDigest = none) none

theorem decide_identities (evidence : List Evidence) (projection : Projection) :
    OnePerInvocation evidence (decide evidence projection) := by
  refine ⟨(sortedGroups evidence).map Prod.fst, ?_, fun id => ?_, ?_⟩
  · have hperm := (List.perm_insertionSort
      (fun a b : String × Group => a.2.first.sequence ≤ b.2.first.sequence)
      (groupBy Evidence.invocationIdentityDigest (bySequence evidence)).entries).map Prod.fst
    exact hperm.nodup_iff.mpr
      (groupBy Evidence.invocationIdentityDigest (bySequence evidence)).keys_nodup
  · have hkeys : id ∈ (sortedGroups evidence).map Prod.fst ↔
        id ∈ (groupBy Evidence.invocationIdentityDigest (bySequence evidence)).keys :=
      ((List.perm_insertionSort _ _).map Prod.fst).mem_iff
    rw [hkeys, mem_keys_groupBy]
    simp only [(bySequence_perm evidence).mem_iff]
  · have hcount : (unidentified evidence).length =
        evidence.countP fun item => item.invocationIdentityDigest = none := by
      rw [unidentified, ← List.countP_eq_length_filter]
      exact (bySequence_perm evidence).countP_eq _
    rw [decide, List.map_append, List.map_map, List.map_map, List.map_map, ← hcount]
    congr 1
    · refine List.map_congr_left fun pair hpair => ?_
      exact decideGroup_digest (mem_sortedGroups.mp hpair)
    · refine List.eq_replicate_iff.mpr ⟨List.length_map _, fun digest hmem => ?_⟩
      obtain ⟨item, hitem, rfl⟩ := List.mem_map.mp hmem
      exact of_decide_eq_true (List.mem_filter.mp hitem).2

/-- No item of the invocation is dangerous, and every attempt has one start and at most one
completion. -/
structure Harmless (evidence : List Evidence) (id : String) : Prop where
  known : ∀ item ∈ evidence, item.invocationIdentityDigest = some id → ¬ item.OutcomeUnknown
  uncommitted : ∀ item ∈ evidence, item.invocationIdentityDigest = some id →
    ¬ item.NonIdempotentCommitted
  compensated : ∀ item ∈ evidence, item.invocationIdentityDigest = some id →
    ¬ item.CompensationFailed
  attached : ∀ item ∈ evidence, item.invocationIdentityDigest = some id → ¬ item.DetachedWorker
  paired : ∀ item ∈ evidence, item.invocationIdentityDigest = some id →
    ∃ attempt, item.attemptIdentityDigest = some attempt ∧
      Paired (evidence.filter fun other => other.invocationIdentityDigest = some id ∧
        other.attemptIdentityDigest = some attempt)

/-- A retry is offered only for a harmless invocation. -/
def SafeOnly (evidence : List Evidence) (projection : Projection) : Prop :=
  ∀ d ∈ decide evidence projection, d.status = .safeRetryCandidate →
    ∃ id, d.invocationIdentityDigest = some id ∧ Harmless evidence id

/-- The invocation passes every rule, which look at the latest item for a committed side effect, and
an item that is not the latest has one. -/
def Hides (evidence : List Evidence) (projection : Projection) (id : String) : Prop :=
  ∃ group, invocation evidence id = some group ∧ Candidate group projection ∧
    ∃ item ∈ group.items, item.NonIdempotentCommitted

theorem Paired.perm {items items' : List Evidence} (h : Paired items) (hperm : items.Perm items') :
    Paired items' := by
  unfold Paired at h ⊢
  rw [← (hperm.filter _).length_eq, ← (hperm.filter _).length_eq]
  exact h

theorem Candidate.harmless (h : Candidate group projection)
    (hgroup : invocation evidence id = some group)
    (hcommitted : ∀ item ∈ group.items, ¬ item.NonIdempotentCommitted) : Harmless evidence id := by
  have hmem : ∀ item ∈ evidence, item.invocationIdentityDigest = some id → item ∈ group.items :=
    fun item hin hid => (mem_invocation hgroup).mpr ⟨hin, hid⟩
  refine ⟨fun item hin hid => (h.known item (hmem item hin hid)).1,
    fun item hin hid => hcommitted item (hmem item hin hid),
    fun item hin hid => h.compensated item (hmem item hin hid),
    fun item hin hid => (h.known item (hmem item hin hid)).2, fun item hin hid => ?_⟩
  have hitem := hmem item hin hid
  obtain ⟨attempt, hattempt⟩ := Option.ne_none_iff_exists'.mp (h.identified item hitem)
  refine ⟨attempt, hattempt, ?_⟩
  obtain ⟨own, hown⟩ := Dict.mem_keys_iff.mp (mem_keys_groupBy.mpr ⟨item, hitem, hattempt⟩)
  have hpaired := h.paired own (Dict.mem_values_iff.mpr ⟨attempt, hown⟩)
  refine hpaired.perm ?_
  rw [groupBy_items hown, invocation_items hgroup, withKey, withKey, List.filter_filter]
  refine ((bySequence_perm evidence).filter _).trans (List.Perm.of_eq ?_)
  refine List.filter_congr fun other _ => ?_
  rw [Bool.eq_iff_iff]
  simp [and_comm]

/-- **The recovery decisions.**  For items with distinct sequences: the order of the input does not
matter and every invocation is decided once; and a retry is offered only for harmless invocations
exactly when no invocation hides a committed side effect behind a later item. -/
theorem decide_safe_iff (projection : Projection)
    (hdistinct : (evidence.map Evidence.sequence).Nodup) :
    ((∀ other : List Evidence, other.Perm evidence →
        decide other projection = decide evidence projection) ∧
      OnePerInvocation evidence (decide evidence projection) ∧ SafeOnly evidence projection) ↔
    ∀ id, ¬ Hides evidence projection id := by
  constructor
  · rintro ⟨-, -, hsafe⟩ id ⟨group, hgroup, hcandidate, item, hitem, hcommitted⟩
    have hin : decideGroup group projection ∈ decide evidence projection :=
      List.mem_append_left _ (List.mem_map.mpr ⟨(id, group), mem_sortedGroups.mpr hgroup, rfl⟩)
    obtain ⟨id', hid', hharmless⟩ := hsafe _ hin (decideGroup_candidate_iff.mpr hcandidate)
    rw [decideGroup_digest hgroup] at hid'
    obtain rfl := Option.some.inj hid'
    obtain ⟨hevidence, hid⟩ := (mem_invocation hgroup).mp hitem
    exact hharmless.uncommitted item hevidence hid hcommitted
  · intro hnone
    refine ⟨fun other hperm => decide_perm hdistinct hperm,
      decide_identities evidence projection, fun d hd hstatus => ?_⟩
    rcases List.mem_append.mp hd with hd | hd
    · obtain ⟨⟨id, group⟩, hpair, rfl⟩ := List.mem_map.mp hd
      have hgroup := mem_sortedGroups.mp hpair
      have hcandidate := decideGroup_candidate_iff.mp hstatus
      refine ⟨id, decideGroup_digest hgroup, hcandidate.harmless hgroup fun item hitem hc => ?_⟩
      exact hnone id ⟨group, hgroup, hcandidate, item, hitem, hc⟩
    · obtain ⟨item, -, rfl⟩ := List.mem_map.mp hd
      exact nomatch hstatus

/-- An item of an invocation, as a start is recorded. -/
def sampleItem (attempt : String) (sequence : ℤ) : Evidence where
  toolName := "tool"
  invocationIdentityDigest := "1111111111111111111111111111111111111111111111111111111111111111"
  attemptIdentityDigest := attempt
  sideEffectKind := some "NONE"
  sideEffectState := some "NOT_STARTED"
  retryDisposition := none
  executionDetached := false
  workerTerminated := false
  sequence := sequence
  eventKind := .started
  stepId := none
  attemptSequence := none
  toolEvidenceSchemaVersion := some 1
  idempotencyKind := some "IDEMPOTENT"
  idempotencyKeyDigest := none
  replaySupported := none
  compensationState := none
  outcomeClassification := none
  succeeded := none

/-- A first attempt. -/
def firstAttempt : String := "aaaaaaaaaaaaaaaaaaaaaaaaaaaaaaaaaaaaaaaaaaaaaaaaaaaaaaaaaaaaaaaa"

/-- A second attempt. -/
def secondAttempt : String := "bbbbbbbbbbbbbbbbbbbbbbbbbbbbbbbbbbbbbbbbbbbbbbbbbbbbbbbbbbbbbbbb"

/-- A failed attempt and a second one, out of order, with an item of no invocation between them. -/
def retriedEvidence : List Evidence :=
  [sampleItem secondAttempt 4, { sampleItem firstAttempt 2 with invocationIdentityDigest := none },
    { sampleItem firstAttempt 3 with eventKind := .completed, succeeded := some false },
    sampleItem firstAttempt 1]

theorem decide_safe_iff_retriedEvidence :
    (decide retriedEvidence ⟨Dict.empty⟩).map Decision.status =
        [.safeRetryCandidate, .insufficientEvidence] ∧
      decide retriedEvidence.reverse ⟨Dict.empty⟩ = decide retriedEvidence ⟨Dict.empty⟩ ∧
      SafeOnly retriedEvidence ⟨Dict.empty⟩ := by
  have hcommitted : ∀ item ∈ retriedEvidence, ¬ item.NonIdempotentCommitted := by decide
  have hnone : ∀ id, ¬ Hides retriedEvidence ⟨Dict.empty⟩ id := by
    rintro id ⟨group, hgroup, -, item, hitem, h⟩
    exact hcommitted item ((mem_invocation hgroup).mp hitem).1 h
  obtain ⟨horder, -, hsafe⟩ := (decide_safe_iff ⟨Dict.empty⟩ (by decide)).mpr hnone
  exact ⟨by decide +kernel, horder _ (List.reverse_perm _), hsafe⟩

/-- A first attempt that committed a side effect and failed, and a second one that started. -/
def hidingEvidence : List Evidence :=
  [{ sampleItem firstAttempt 1 with idempotencyKind := some "NON_IDEMPOTENT" },
    { sampleItem firstAttempt 2 with
      idempotencyKind := some "NON_IDEMPOTENT", sideEffectState := some "COMMITTED"
      eventKind := .completed, succeeded := some false },
    sampleItem secondAttempt 3]

theorem hidingEvidence_unsafe : (hidingEvidence.map Evidence.sequence).Nodup ∧
    (∀ item ∈ hidingEvidence, item.WellFormed) ∧ ¬ SafeOnly hidingEvidence ⟨Dict.empty⟩ := by
  refine ⟨by decide, fun item hitem => ?_, fun hsafe => ?_⟩
  · simp only [hidingEvidence, List.mem_cons, List.not_mem_nil, or_false] at hitem
    rcases hitem with rfl | rfl | rfl <;>
      constructor <;> decide +kernel
  · have hany : (decide hidingEvidence ⟨Dict.empty⟩).any
        (fun d => d.status = .safeRetryCandidate) = true := by decide +kernel
    obtain ⟨d, hd, hstatus⟩ := List.any_eq_true.mp hany
    obtain ⟨id, hid, hharmless⟩ := hsafe d hd (of_decide_eq_true hstatus)
    have hids : (decide hidingEvidence ⟨Dict.empty⟩).all (fun d =>
        d.invocationIdentityDigest = (sampleItem firstAttempt 1).invocationIdentityDigest) =
        true := by decide +kernel
    have hsame := of_decide_eq_true (List.all_eq_true.mp hids d hd)
    rw [hid] at hsame
    refine hharmless.uncommitted _ (List.mem_cons_of_mem _ List.mem_cons_self) ?_ ⟨rfl, rfl⟩
    exact hsame.symm

end Decide

end ToolRecovery

end LocalAgent.Runtime
