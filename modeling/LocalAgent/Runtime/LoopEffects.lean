import LocalAgent.Lib.Avoids
import LocalAgent.Runtime.LoopFrames

/-!
# LocalAgent.Runtime.LoopEffects — what a transaction on loop frames does

Every transaction of `LoopFrames` that commits has one of six effects on the rows.

* `Kept`: frames keep their counters and receipts; a phase only waits for its tool or stops, for a
  reason (`Stops`); iterations keep their decisions.
* `Effect`: `Kept`, or an iteration is opened, decided, handed off or observed, or a frame delivered.
* `step_effect`: every transaction has one of them.
-/

namespace LocalAgent.Runtime

/-! ## What the effects are about -/

/-- The columns of a frame that effects are about. -/
structure FrameCore where
  stepId : String
  phase : LoopPhase
  currentIteration : ℕ
  committedObservationCursor : ℕ
  finalDeliveryReceipt : Option LoopReceipt

def LoopFrame.core (frame : LoopFrame) : FrameCore :=
  ⟨frame.stepId, frame.phase, frame.currentIteration, frame.committedObservationCursor,
    frame.finalDeliveryReceipt⟩

/-- The columns of an iteration that effects are about. -/
structure IterationCore where
  state : LoopIterationState
  decisionId : Option String
  decisionDigest : Option String
  acceptedModelAttempt : Option (ℕ × ℕ)
  observationCursor : Option ℕ

def LoopIteration.core (row : LoopIteration) : IterationCore :=
  ⟨row.state, row.decisionId, row.decisionDigest, row.acceptedModelAttempt, row.observationCursor⟩

/-- The columns of a delegation that effects are about. -/
def LoopDelegation.core (delegation : LoopDelegation) : String × ℕ × Bool :=
  (delegation.parentFrameId, delegation.parentIteration, delegation.observed)

def phaseFits : LoopIterationState → LoopPhase → Bool
  | .opened, phase | .observed, phase => phase = .needDecision
  | .accepted, phase => phase = .decisionAccepted ∨ phase = .waitTool ∨ phase = .waitActions ∨
      phase = .waitChild
  | .closed, phase => phase = .resultReady

namespace LoopTables

/-- The reported usage of an operation fits into the budget of a v1 run. -/
def FitsSettlement (root : RootBudget) (operationId : String) (usage : Option Amounts) : Prop :=
  root.executionPolicy = .v1 → ∀ stored ∈ root.operations.get? operationId,
    stored.state = .reserved → stored.delegationId = none ∧
      ∀ values ∈ (RootBudget.settledValues stored usage).toOption,
        ∀ d, values d ≠ 0 → ∀ limit ∈ root.budgetTotals d,
          root.budgetConsumed d + values d + (root.budgetReserved d - stored.reserved d) ≤ limit

/-- An attempt of a delivered frame with a context policy reports a usage that fits, and a first
delivery brings an event the journal does not hold. -/
def SettlesWithin (tables : LoopTables) (action : Action) : Prop :=
  match action.2 with
  | .publishLoopFinal _ target _ _ event => ∀ frame ∈ tables.frames.get? target.frameId,
      frame.finalDeliveryReceipt = none → ∀ other ∈ tables.journal, other.eventId ≠ event.eventId
  | .finishModelAttempt _ finish => ∀ frameId ∈ tables.finishFrame finish,
      ∀ frame ∈ tables.frames.get? frameId, frame.finalDeliveryReceipt ≠ none →
        frame.contextPolicy = true → ∀ operationId ∈ finish.operationId,
          FitsSettlement tables.root operationId finish.actualUsage
  | _ => True

inductive Stops (action : Action) (before : LoopTables) (id : String) (frame : LoopFrame) : Prop
  | undelivered (h : frame.finalDeliveryReceipt = none)
  | unready (h : frame.phase ≠ .resultReady)
  | lost (no : ℕ) (row : LoopIteration) (h : before.iterations.get? (id, no) = some row)
    (hopen : row.state = .opened)
  | exceeded (h : ¬ SettlesWithin before action)

inductive FrameMove (action : Action) (before : LoopTables) (id : String)
    (frame frame' : LoopFrame) : Prop
  | same (h : frame'.core = frame.core)
  | waits (hphase : frame.phase = .decisionAccepted)
    (h : frame'.core = { frame.core with phase := .waitTool })
  | stops (h : frame'.core = { frame.core with phase := .stopped })
    (hreason : Stops action before id frame)

/-- A completed attempt keeps its row. -/
def ModelsKept (before after : LoopTables) : Prop :=
  ∀ key model, before.models.get? key = some model → model.state = .completed →
    after.models.get? key = some model

/-- No iteration is opened, decided or observed, and no receipt set. -/
structure Kept (action : Action) (before after : LoopTables) : Prop where
  frames : ∀ id frame, before.frames.get? id = some frame →
    ∃ frame', after.frames.get? id = some frame' ∧ FrameMove action before id frame frame'
  absent : ∀ id, before.frames.get? id = none → after.frames.get? id = none
  rows : ∀ key, (after.iterations.get? key).map LoopIteration.core =
    (before.iterations.get? key).map LoopIteration.core
  delegations : ∀ id, (after.delegations.get? id).map LoopDelegation.core =
    (before.delegations.get? id).map LoopDelegation.core
  models : ModelsKept before after

structure Decides (before after : LoopTables) (id : String) (frame frame' : LoopFrame)
    (row row' : LoopIteration) (decision digest : String) (attempt : ℕ × ℕ) : Prop where
  get : before.frames.get? id = some frame
  deciding : frame.phase = .needDecision
  current : before.iterations.get? (id, frame.currentIteration) = some row
  opened : row.state = .opened
  undecided : row.decisionId = none
  model : ∃ model, before.models.get? ⟨frame.stepId, attempt.1, attempt.2⟩ = some model ∧
    model.state = .completed ∧ model.purpose = .decision ∧ model.loopFrameId = some id ∧
    model.loopIterationNo = some frame.currentIteration
  decided : row'.state = .accepted ∨ row'.state = .closed
  core : row'.core = ⟨row'.state, some decision, some digest, some attempt, row.observationCursor⟩
  fits : phaseFits row'.state frame'.phase = true
  frameCore : frame'.core = { frame.core with phase := frame'.phase }
  iterations : after.iterations = before.iterations.set (id, frame.currentIteration) row'
  models : after.models = before.models

inductive Effect (action : Action) (before after : LoopTables) : Prop
  | kept (h : Kept action before after)
  | opened (id : String) (frame frame' : LoopFrame) (snapshotId : Option String)
    (hget : before.frames.get? id = some frame) (hphase : frame.phase = .needDecision)
    (hclosed : before.openRow id frame = none)
    (hcore : frame'.core = { frame.core with currentIteration := frame.currentIteration + 1 })
    (hframes : after.frames = before.frames.set id frame')
    (hiterations : after.iterations =
      before.iterations.set (id, frame.currentIteration + 1) (LoopIteration.new snapshotId))
    (hmodels : after.models = before.models) (hdelegations : after.delegations = before.delegations)
  | decided (id : String) (frame frame' : LoopFrame) (row row' : LoopIteration)
    (decision digest : String) (attempt : ℕ × ℕ)
    (h : Decides before after id frame frame' row row' decision digest attempt)
    (hframes : after.frames = before.frames.set id frame')
    (hdelegations : after.delegations = before.delegations)
  | handedOff (id childId delegationId : String) (frame frame' child : LoopFrame)
    (row row' : LoopIteration) (decision digest : String) (attempt : ℕ × ℕ)
    (h : Decides before after id frame frame' row row' decision digest attempt)
    (hphase : frame'.phase = .waitChild)
    (habsent : before.frames.get? childId = none)
    (hchild : child.core = ⟨frame.stepId, .needDecision, 0, 0, none⟩)
    (hframes : after.frames = (before.frames.set childId child).set id frame')
    (hobserved : ∀ other delegation, before.delegations.get? other = some delegation →
      delegation.observed = true)
    (hdelegations : after.delegations = before.delegations.set delegationId
      ⟨id, frame.currentIteration, childId, none, false⟩)
  | observed (id : String) (no : ℕ) (frame frame' : LoopFrame) (row row' : LoopIteration)
    (hget : before.frames.get? id = some frame)
    (hrow : before.iterations.get? (id, no) = some row)
    (hphase : frame.phase ≠ .resultReady ∧ frame.phase ≠ .stopped ∧ frame.phase ≠ .needDecision)
    (hcore : frame'.core = { frame.core with
      phase := .needDecision
      committedObservationCursor := frame.committedObservationCursor + 1 })
    (hcore' : row'.core = { row.core with
      state := .observed
      observationCursor := some (frame.committedObservationCursor + 1) })
    (hframes : after.frames = before.frames.set id frame')
    (hiterations : after.iterations = before.iterations.set (id, no) row')
    (hmodels : after.models = before.models)
    (hdelegations : row.state = .accepted ∧ frame.phase ≠ .waitChild ∧
        after.delegations = before.delegations ∨
      frame.phase = .waitChild ∧ ∃ delegationId delegation,
        before.delegations.get? delegationId = some delegation ∧
        delegation.parentFrameId = id ∧ delegation.parentIteration = no ∧
        delegation.observed = false ∧
        after.delegations = before.delegations.set delegationId { delegation with observed := true })
  | delivered (id : String) (frame frame' : LoopFrame) (receipt : LoopReceipt) (event : LoopEvent)
    (journal : List LoopEvent) (hget : before.frames.get? id = some frame)
    (hphase : frame.phase = .resultReady) (hreceipt : frame.finalDeliveryReceipt = none)
    (hcore : frame'.core = { frame.core with finalDeliveryReceipt := some receipt })
    (hevent : event.eventType = .outputDelta ∧ receipt.eventId = event.eventId ∧
      receipt.sequence = event.sequence)
    (hfresh : SettlesWithin before action →
      event ∉ before.journal ∧ journal = before.journal ++ [event])
    (hafter : after = { before with frames := before.frames.set id frame', journal := journal })

variable {lease : RunLease} {checks : LoopChecks} {target : LoopTarget} {action : Action}
variable {tables tables' : LoopTables}

/-! ## Rules for `Kept` -/

theorem ModelsKept.refl (h : tables'.models = tables.models) : ModelsKept tables tables' := by
  intro _ _ hget _
  rw [h, hget]

variable {frame : LoopFrame} {finish : ModelFinish} {call : DecisionCall} {frame' : LoopFrame}
  {root : RootBudget} {no : ℕ} {event : LoopEvent} {sha256 : String → String}
  {resultDigest operationId invocationId : String} {usage : Option Amounts} {settled : LoopTables}
  {rest : ModelAttemptState × Option String}

/-- A frame moves on and everything else stays. -/
theorem Kept.put {id : String}
    (hget : tables.frames.get? id = some frame) (hmove : FrameMove action tables id frame frame')
    (hframes : tables'.frames = tables.frames.set id frame')
    (hrows : ∀ key, (tables'.iterations.get? key).map LoopIteration.core =
      (tables.iterations.get? key).map LoopIteration.core)
    (hdelegations : ∀ id, (tables'.delegations.get? id).map LoopDelegation.core =
      (tables.delegations.get? id).map LoopDelegation.core)
    (hmodels : ModelsKept tables tables') : Kept action tables tables' where
  frames := by
    intro other old hold
    rw [hframes]
    by_cases hid : other = id
    · subst hid
      cases hget.symm.trans hold
      exact ⟨frame', by simp, hmove⟩
    · exact ⟨old, by simp [hid, hold], .same rfl⟩
  absent := by
    intro other hnone
    have hid : other ≠ id := by
      rintro rfl
      rw [hget] at hnone
      cases hnone
    simp [hframes, hid, hnone]
  rows := hrows
  delegations := hdelegations
  models := hmodels

theorem Kept.putFrame {id : String}
    (hget : tables.frames.get? id = some frame) (hmove : FrameMove action tables id frame frame') :
    Kept action tables { tables.putFrame id frame' with root := root } :=
  .put hget hmove rfl (fun _ => rfl) (fun _ => rfl) (.refl rfl)

variable {id frameId : String}

theorem Kept.putIteration {row row' : LoopIteration} (hget : tables.frames.get? id = some frame)
    (hmove : FrameMove action tables id frame frame')
    (hrow : tables.iterations.get? (id, no) = some row) (hcore : row'.core = row.core) :
    Kept action tables (tables.putIteration id frame' no row') := by
  refine .put hget hmove rfl (fun key => ?_) (fun _ => rfl) (.refl rfl)
  simp only [LoopTables.putIteration, Dict.get?_set]
  split_ifs with hkey
  · rw [hkey, hrow, Option.map_some, Option.map_some, hcore]
  · rfl

theorem Kept.quiet (hframes : tables'.frames = tables.frames)
    (hiterations : tables'.iterations = tables.iterations)
    (hdelegations : tables'.delegations = tables.delegations)
    (hmodels : ModelsKept tables tables') : Kept action tables tables' where
  frames := fun id frame hget => ⟨frame, by rw [hframes, hget], .same rfl⟩
  absent := fun id hnone => by rw [hframes, hnone]
  rows := fun key => by rw [hiterations]
  delegations := fun id => by rw [hdelegations]
  models := hmodels

theorem Effect.refl : Effect action tables tables := .kept (.quiet rfl rfl rfl (.refl rfl))

/-! ## Locks -/

theorem lockFrame_ok {access : Option String} {generation : Option ℕ}
(h : tables.lockFrame access frameId generation = .ok frame) :
    tables.frames.get? frameId = some frame := by
  simp only [lockFrame, seq_eq_ok] at h
  obtain ⟨_, hfound, h⟩ := bind_eq_ok.mp h.2
  simp only [seq_eq_ok] at h
  cases h.2
  exact orRaise_ok.mp hfound

theorem lockLoop_ok (h : tables.lockLoop checks target = .ok frame) :
    tables.frames.get? target.frameId = some frame := by
  obtain ⟨_, hfound, h⟩ := bind_eq_ok.mp h
  simp only [seq_eq_ok] at h
  cases h.2
  exact lockFrame_ok hfound

/-! ## Stop and delivery -/

theorem stopLoop_effect {stopCode : String} {stopDetails : List (String × String)}
    (h : tables.stopLoop lease checks target stopCode stopDetails = .ok tables') :
    Effect action tables tables' := by
  obtain ⟨_, hframe, h⟩ := bind_eq_ok.mp h
  have hget := lockFrame_ok hframe
  split_ifs at h with hstopped
  · simp only [seq_eq_ok] at h
    cases h.2
    exact .refl
  · simp only [seq_eq_ok, raiseIf_ok, not_not] at h
    obtain ⟨-, hreceipt, h⟩ := h
    cases h
    exact .kept (.putFrame hget (.stops rfl (.undelivered hreceipt)))

theorem journalAppend_fresh {journal journal' : List LoopEvent}
    (hfresh : ∀ other ∈ journal, other.eventId ≠ event.eventId)
    (h : journalAppend journal event = .ok journal') : journal' = journal ++ [event] := by
  have hnone : journal.find? (·.eventId = event.eventId) = none :=
    List.find?_eq_none.mpr fun other hother => by simpa using hfresh other hother
  simp only [journalAppend, hnone, seq_eq_ok] at h
  exact (Except.ok.inj h.2.2.2).symm

/-- `publish_loop_final` delivers its frame, or finds it delivered. -/
theorem publishLoopFinal_effect {decisionId : String}
    (h : tables.publishLoopFinal lease sha256 checks target decisionId resultDigest event =
      .ok tables') :
    Effect (lease, .publishLoopFinal checks target decisionId resultDigest event) tables
      tables' := by
  simp only [publishLoopFinal, seq_eq_ok, raiseIf_ok, not_not] at h
  obtain ⟨hdelta, h⟩ := h
  obtain ⟨frame, hframe, h⟩ := bind_eq_ok.mp h
  have hget := lockFrame_ok hframe
  cases hreceipt : frame.finalDeliveryReceipt with
  | some =>
    rw [hreceipt] at h
    simp only [seq_eq_ok] at h
    cases h.2
    exact .refl
  | none =>
    rw [hreceipt] at h
    simp only [seq_eq_ok, raiseIf_ok, not_or, not_not] at h
    obtain ⟨-, -, ⟨-, hphase, -⟩, -, -, h⟩ := h
    obtain ⟨journal, hjournal, h⟩ := bind_eq_ok.mp h
    simp only [seq_eq_ok] at h
    cases h.2
    refine .delivered target.frameId frame _
      ⟨decisionId, resultDigest, sha256 event.text, event.eventId, event.sequence⟩ event journal
      hget hphase hreceipt rfl ⟨hdelta, rfl, rfl⟩ (fun hwithin => ?_) rfl
    have hfresh := hwithin frame hget hreceipt
    exact ⟨fun hmem => hfresh event hmem rfl, journalAppend_fresh hfresh hjournal⟩

/-! ## Model attempts -/

theorem startModelAttempt_effect {start : ModelStart}
    (h : tables.startModelAttempt lease checks target start = .ok tables') :
    Effect action tables tables' := by
  obtain ⟨_, -, h⟩ := bind_eq_ok.mp h
  simp only [seq_eq_ok] at h
  obtain ⟨-, -, -, -, h⟩ := h
  obtain ⟨_, -, h⟩ := bind_eq_ok.mp h
  simp only [seq_eq_ok, raiseIf_ok] at h
  obtain ⟨hstartable, h⟩ := h
  obtain ⟨_, -, h⟩ := bind_eq_ok.mp h
  cases h
  refine .kept (.quiet rfl rfl rfl fun key model hmodel hcompleted => ?_)
  have hkey : key ≠ start.key := by
    rintro rfl
    exact hstartable ⟨model, hmodel, by rw [hcompleted]; decide⟩
  simp [hkey, hmodel]

variable {e : LoopError}

theorem ne_of_exhausted {e' : LoopError} (h : e.exhausted ≠ none) (h' : e'.exhausted = none) :
    e' ≠ e := by
  rintro rfl
  exact h h'

theorem budgetAdd_exhausted (he : e.exhausted ≠ none) {left right : Amounts} {sign : ℤ} :
    Avoids e (budgetAdd left right sign) (· = fun d => left d + sign * right d) := by
  unfold budgetAdd
  exact (avoids_raiseIf (ne_of_exhausted he (by decide +kernel))).bind fun _ _ => avoids_ok rfl

/-- Settled values exceed no limit unless the budget was exhausted. -/
theorem settledValues_exhausted (he : e.exhausted ≠ none) {stored : BudgetOperation} :
    Avoids e (RootBudget.settledValues stored usage)
      fun values => values ∈ (RootBudget.settledValues stored usage).toOption := by
  constructor
  · intro h
    unfold RootBudget.settledValues at h
    split_ifs at h
    cases usage with
    | none => cases h
    | some =>
      simp only [budgetUsage] at h
      split at h
      · exact he (Except.error.inj h ▸ rfl)
      · cases h
  · intro _ h
    rw [h]
    rfl

/-- A settlement that fits raises nothing about the budget. -/
theorem settle_fits {source : String} (hfits : FitsSettlement root operationId usage)
    (h : root.settleBudgetOperation lease operationId usage source = .error e) :
    e.exhausted = none := by
  by_contra he
  have havoids : Avoids e (root.settleBudgetOperation lease operationId usage source)
      fun _ => True := by
    unfold RootBudget.settleBudgetOperation
    refine (avoids_orRaise (ne_of_exhausted he (by decide +kernel))).bind fun stored hfound => ?_
    refine (settledValues_exhausted he).bind fun values hvalues => ?_
    split_ifs with hsettled
    · exact (avoids_raiseIf (ne_of_exhausted he (by decide +kernel))).bind
        fun _ _ => avoids_ok trivial
    have hopen : stored.state = .reserved := by
      cases hstate : stored.state with
      | reserved => rfl
      | settled => exact absurd hstate hsettled
    refine (budgetAdd_exhausted he).bind fun reserved hreserved => ?_
    refine (budgetAdd_exhausted he).bind fun consumed hconsumed => ?_
    cases hpolicy : root.executionPolicy with
    | v1 =>
      obtain ⟨hdelegation, hlimits⟩ := hfits hpolicy stored hfound hopen
      have hnone : exceededDimension root values consumed reserved = none := by
        refine List.find?_eq_none.mpr fun d _ hexceeded => ?_
        obtain ⟨hasked, limit, hlimit, hover⟩ := of_decide_eq_true hexceeded
        have hwithin := hlimits values hvalues d hasked limit hlimit
        rw [hconsumed, hreserved] at hover
        simp only at hover
        omega
      simp only [RootBudget.settlement, hdelegation, ok_bind, RootBudget.checkLimits, hpolicy,
        hnone, raiseExceeded]
      exact avoids_ok trivial
    | v2 =>
      refine Avoids.bind (P := fun _ => True) ?_ fun settled _ => ?_
      · cases hdelegation : stored.delegationId with
        | none =>
          simp only [RootBudget.settlement, hdelegation]
          exact avoids_ok trivial
        | some =>
          simp only [RootBudget.settlement, hdelegation]
          refine (avoids_orRaise (ne_of_exhausted he rfl)).bind fun allocation _ => ?_
          refine (budgetAdd_exhausted he).bind fun balance _ => ?_
          refine (budgetAdd_exhausted he).bind fun reserved' _ => ?_
          exact (budgetAdd_exhausted he).bind fun consumed' _ => avoids_ok trivial
      · simp only [RootBudget.checkLimits, hpolicy]
        exact avoids_ok trivial
  exact havoids.1 h

/-- What the settlement of an attempt leaves alone. -/
structure Settles (action : Action) (before after : LoopTables) : Prop where
  kept : Kept action before after
  models : after.models = before.models

/-- A finished attempt settles its operation, and stops its frame when the budget is gone. -/
theorem settleAttempt_settles (hget : tables.frames.get? frameId = some frame)
    (hfits : SettlesWithin tables action → frame.finalDeliveryReceipt ≠ none →
      frame.contextPolicy = true → FitsSettlement tables.root operationId finish.actualUsage)
    (h : tables.settleAttempt lease frameId frame operationId finish = .ok (settled, rest)) :
    Settles action tables settled := by
  unfold settleAttempt at h
  cases hsettle : tables.root.settleBudgetOperation lease operationId finish.actualUsage
      finish.usageSource with
  | ok =>
    rw [hsettle] at h
    cases h
    exact ⟨.quiet rfl rfl rfl (.refl rfl), rfl⟩
  | error e =>
    rw [hsettle] at h
    cases hpolicy : frame.contextPolicy with
    | false =>
      rw [hpolicy] at h
      cases h
    | true =>
      rw [hpolicy] at h
      cases hexhausted : e.exhausted with
      | none =>
        simp only [hexhausted] at h
        cases h
      | some =>
        simp only [hexhausted] at h
        obtain ⟨_, -, h⟩ := bind_eq_ok.mp h
        cases h
        refine ⟨.putFrame hget (.stops rfl ?_), rfl⟩
        by_cases hreceipt : frame.finalDeliveryReceipt = none
        · exact .undelivered hreceipt
        · refine .exceeded fun hwithin => ?_
          have hnone := settle_fits (hfits hwithin hreceipt hpolicy) hsettle
          rw [hexhausted] at hnone
          cases hnone

theorem settleFinish_settles (h : tables.settleFinish lease checks finish = .ok (settled, rest)) :
    Settles (lease, .finishModelAttempt checks finish) tables settled := by
  unfold settleFinish at h
  cases hframe : tables.finishFrame finish with
  | none =>
    rw [hframe] at h
    cases h
    exact ⟨.quiet rfl rfl rfl (.refl rfl), rfl⟩
  | some frameId =>
    rw [hframe] at h
    obtain ⟨frame, hlock, h⟩ := bind_eq_ok.mp h
    obtain ⟨operationId, hoperation, h⟩ := bind_eq_ok.mp h
    have hget := lockLoop_ok hlock
    exact settleAttempt_settles hget (fun hwithin hreceipt hpolicy =>
      hwithin frameId hframe frame hget hreceipt hpolicy operationId
        (orRaise_ok.mp hoperation)) h

theorem finishModelAttempt_effect
    (h : tables.finishModelAttempt lease checks finish = .ok tables') :
    Effect (lease, .finishModelAttempt checks finish) tables tables' := by
  simp only [finishModelAttempt, seq_eq_ok] at h
  obtain ⟨⟨settled, _, _⟩, hsettle, h⟩ := bind_eq_ok.mp h.2
  obtain ⟨_, hrow, h⟩ := bind_eq_ok.mp h
  simp only [seq_eq_ok, raiseIf_ok, not_not] at h
  obtain ⟨hstarted, -, h⟩ := h
  obtain ⟨_, -, h⟩ := bind_eq_ok.mp h
  cases h
  obtain ⟨hkept, hmodels⟩ := settleFinish_settles hsettle
  refine .kept ⟨hkept.frames, hkept.absent, hkept.rows, hkept.delegations, ?_⟩
  intro key model hmodel hcompleted
  have hkey : key ≠ finish.key := by
    rintro rfl
    have hsame : settled.models.get? finish.key = some model := by rw [hmodels, hmodel]
    cases (orRaise_ok.mp hrow).symm.trans hsame
    rw [hstarted] at hcompleted
    cases hcompleted
  have hsame : settled.models.get? key = some model := by rw [hmodels, hmodel]
  simp [hkey, hsame]

/-! ## Iterations and decisions -/

theorem insertIteration_effect {snapshotId : Option String}
    (hget : tables.frames.get? id = some frame) (hphase : frame.phase = .needDecision)
    (hclosed : tables.openRow id frame = none)
    (h : tables.insertIteration lease id frame snapshotId = .ok tables') :
    Effect action tables tables' := by
  simp only [insertIteration, seq_eq_ok] at h
  cases h.2.2
  exact .opened id frame _ snapshotId hget hphase hclosed rfl rfl rfl rfl rfl

theorem openLoopIteration_effect (h : tables.openLoopIteration lease checks target = .ok tables') :
    Effect action tables tables' := by
  obtain ⟨frame, hframe, h⟩ := bind_eq_ok.mp h
  have hget := lockLoop_ok hframe
  cases hopen : tables.openRow target.frameId frame with
  | some =>
    rw [hopen] at h
    simp only [seq_eq_ok] at h
    cases h.2
    exact .refl
  | none =>
    rw [hopen] at h
    simp only [seq_eq_ok, raiseIf_ok, not_not] at h
    obtain ⟨-, hphase, -, -, h⟩ := h
    exact insertIteration_effect hget hphase hopen h

theorem acceptContextAndOpenIteration_effect {snapshotId : String} {known rebind : Bool}
    (h : tables.acceptContextAndOpenIteration lease checks target snapshotId known rebind =
      .ok tables') : Effect action tables tables' := by
  obtain ⟨frame, hframe, h⟩ := bind_eq_ok.mp h
  have hget := lockLoop_ok hframe
  simp only at h
  split_ifs at h with hknown
  · cases h
    exact .refl
  · simp only [seq_eq_ok, raiseIf_ok, not_or, not_not] at h
    obtain ⟨-, ⟨-, hphase⟩, -, h⟩ := h
    cases hopen : tables.openRow target.frameId frame with
    | some =>
      rw [hopen] at h
      simp only [seq_eq_ok] at h
      cases h.2
      have hrow := (Option.filter_eq_some_iff.mp hopen).1
      exact .kept (.putIteration hget (.same rfl) hrow rfl)
    | none =>
      rw [hopen] at h
      simp only [seq_eq_ok] at h
      exact insertIteration_effect hget hphase hopen h.2

theorem decidedFrame_core (lease : RunLease) (frame : LoopFrame) (call : DecisionCall) :
    (decidedFrame lease frame call).core = { frame.core with phase := call.outcome.phase } := by
  unfold decidedFrame
  cases call.outcome <;> rfl

theorem decided_fits (result : DecisionOutcome) :
    phaseFits result.iterationState result.phase = true ∧
      (result.iterationState = .accepted ∨ result.iterationState = .closed) := by
  cases result <;> simp [phaseFits, DecisionOutcome.iterationState, DecisionOutcome.phase]

/-- `accept_decision` closes the iteration of the frame, or opens its tool call. -/
theorem acceptDecision_effect {conflicts : LoopIteration → Bool}
    (h : tables.acceptDecision lease checks target call conflicts = .ok tables') :
    Effect action tables tables' := by
  obtain ⟨frame, hframe, h⟩ := bind_eq_ok.mp h
  obtain ⟨row, hrow, h⟩ := bind_eq_ok.mp h
  have hget := lockLoop_ok hframe
  split_ifs at h with hundecided
  · simp only [seq_eq_ok, raiseIf_ok, not_or, not_not] at h
    obtain ⟨-, ⟨hphase, hcurrent, hopen⟩, ⟨model, hmodel, hcompleted, hbound, hno, hpurpose, -⟩, -,
      h⟩ := h
    obtain ⟨_, hcreated, h⟩ := bind_eq_ok.mp h
    cases h
    have hrow := orRaise_ok.mp hrow
    rw [← hcurrent] at hrow hno
    obtain ⟨hfits, hstate⟩ := decided_fits call.outcome
    have hphase' : (decidedFrame lease frame call).phase = call.outcome.phase :=
      congrArg FrameCore.phase (decidedFrame_core lease frame call)
    -- what the child of a handoff leaves alone
    have hdecides : ∀ middle : LoopTables, middle.iterations = tables.iterations →
        middle.models = tables.models →
        Decides tables (middle.putIteration target.frameId (decidedFrame lease frame call)
          call.iterationNo (decidedIteration row call)) target.frameId frame
          (decidedFrame lease frame call) row (decidedIteration row call) call.decisionId
          call.decisionDigest call.modelAttempt := by
      intro _ hiterations hmodels
      refine ⟨hget, hphase, hrow, hopen, hundecided,
        ⟨model, hmodel, hcompleted, hpurpose, hbound, hno⟩, hstate, rfl, ?_, ?_, ?_, hmodels⟩
      · rwa [hphase']
      · rw [hphase', decidedFrame_core]
      · simp [LoopTables.putIteration, hiterations, hcurrent]
    cases hresult : call.outcome with
    | handoff delegationId childId limits contextPolicy =>
      rw [hresult] at hcreated
      simp only [createChild, seq_eq_ok, raiseIf_ok] at hcreated
      obtain ⟨-, hobserved, hcreated⟩ := hcreated
      obtain ⟨_, -, hcreated⟩ := bind_eq_ok.mp hcreated
      simp only [seq_eq_ok, raiseIf_ok, not_or, not_not] at hcreated
      obtain ⟨⟨habsent, -⟩, hcreated⟩ := hcreated
      cases hcreated
      refine .handedOff target.frameId childId delegationId frame _
        (childFrame lease frame delegationId limits contextPolicy) row _ call.decisionId
        call.decisionDigest call.modelAttempt (hdecides _ rfl rfl) ?_ habsent rfl rfl ?_ ?_
      · rw [hphase', hresult]
        rfl
      · intro other delegation hdelegation
        by_contra hpending
        exact hobserved ⟨delegation, Dict.mem_values_iff.mpr ⟨other, hdelegation⟩,
          Bool.eq_false_iff.mpr hpending⟩
      · simp [LoopTables.putIteration, hcurrent]
    | result | toolCall | toolBatch =>
      rw [hresult] at hcreated
      cases hcreated
      exact .decided _ frame _ row _ _ _ _ (hdecides tables rfl rfl) rfl rfl
  · simp only [seq_eq_ok] at h
    cases h.2
    exact .refl

theorem acceptLoopDecision_effect
    (h : tables.acceptLoopDecision lease checks target call = .ok tables') :
    Effect action tables tables' := by
  unfold acceptLoopDecision at h
  cases hresult : call.outcome with
  | result =>
    rw [hresult] at h
    exact acceptDecision_effect h
  | toolCall =>
    rw [hresult] at h
    simp only [seq_eq_ok] at h
    exact acceptDecision_effect h.2
  | toolBatch | handoff =>
    rw [hresult] at h
    cases h

theorem acceptBatch_effect (h : tables.acceptBatch lease checks target call = .ok tables') :
    Effect action tables tables' := by
  unfold acceptBatch at h
  cases hresult : call.outcome with
  | toolCall =>
    rw [hresult] at h
    cases h
  | result | toolBatch | handoff =>
    rw [hresult] at h
    simp only [seq_eq_ok] at h
    exact acceptDecision_effect h.2

/-! ## Observations -/

variable {iterationNo : ℕ}

theorem bindLoopAction_effect
    (h : tables.bindLoopAction lease checks target iterationNo invocationId = .ok tables') :
    Effect action tables tables' := by
  obtain ⟨_, hframe, h⟩ := bind_eq_ok.mp h
  obtain ⟨_, hrow, h⟩ := bind_eq_ok.mp h
  have hget := lockLoop_ok hframe
  simp only [seq_eq_ok] at h
  replace h := h.2
  split_ifs at h with hv2 hbound
  · simp only [seq_eq_ok] at h
    cases h.2
    exact .refl
  · simp only [seq_eq_ok] at h
    cases h.2
    exact .refl
  · simp only [seq_eq_ok, raiseIf_ok, not_and_or, not_not] at h
    obtain ⟨-, hphase, h⟩ := h
    cases h
    refine .kept (.putIteration hget ?_ (orRaise_ok.mp hrow) rfl)
    rcases hphase with haccepted | hwaits
    · exact .waits haccepted rfl
    · exact .same (by simp [LoopFrame.core, LoopFrame.touch, hwaits])

theorem recordAction_effect (h : tables.recordAction lease checks target = .ok tables') :
    Effect action tables tables' := by
  obtain ⟨_, hframe, h⟩ := bind_eq_ok.mp h
  have hget := lockLoop_ok hframe
  simp only [seq_eq_ok] at h
  cases h.2.2
  exact .kept (.putFrame hget (.same rfl))

variable {observation : String × String}

theorem commitLoopObservation_effect
    (h : tables.commitLoopObservation lease checks target iterationNo invocationId observation =
      .ok tables') : Effect action tables tables' := by
  obtain ⟨frame, hframe, h⟩ := bind_eq_ok.mp h
  obtain ⟨row, hrow, h⟩ := bind_eq_ok.mp h
  have hget := lockLoop_ok hframe
  simp only [seq_eq_ok] at h
  replace h := h.2.2
  split_ifs at h with hobserved
  · simp only [seq_eq_ok] at h
    cases h.2
    exact .refl
  · simp only [seq_eq_ok, raiseIf_ok, not_or, not_not] at h
    obtain ⟨-, ⟨hphase, -, haccepted⟩, h⟩ := h
    cases h
    exact .observed target.frameId iterationNo frame _ row _ hget (orRaise_ok.mp hrow)
      (by simp [hphase]) rfl rfl rfl rfl rfl (.inl ⟨haccepted, by simp [hphase], rfl⟩)

theorem commitBatch_effect
    (h : tables.commitBatch lease checks target iterationNo observation = .ok tables') :
    Effect action tables tables' := by
  obtain ⟨frame, hframe, h⟩ := bind_eq_ok.mp h
  obtain ⟨row, hrow, h⟩ := bind_eq_ok.mp h
  have hget := lockLoop_ok hframe
  split_ifs at h with hobserved
  · cases h
    exact .refl
  · simp only [seq_eq_ok, raiseIf_ok, not_or, not_not] at h
    obtain ⟨-, ⟨hphase, haccepted⟩, -, h⟩ := h
    cases h
    exact .observed target.frameId iterationNo frame _ row _ hget (orRaise_ok.mp hrow)
      (by simp [hphase]) rfl rfl rfl rfl rfl (.inl ⟨haccepted, by simp [hphase], rfl⟩)

theorem delegationOf_ok {entry : String × LoopDelegation}
    (h : tables.delegationOf frameId no = some entry) :
    tables.delegations.get? entry.1 = some entry.2 ∧ entry.2.parentFrameId = frameId ∧
      entry.2.parentIteration = no := by
  unfold delegationOf at h
  have hmatch := List.find?_some h
  exact ⟨Dict.get?_eq_some_iff.mpr (List.mem_of_find?_eq_some h), of_decide_eq_true hmatch⟩

theorem acceptChild_effect
    (h : tables.acceptChild lease checks target iterationNo observation = .ok tables') :
    Effect action tables tables' := by
  obtain ⟨frame, hframe, h⟩ := bind_eq_ok.mp h
  obtain ⟨row, hrow, h⟩ := bind_eq_ok.mp h
  obtain ⟨entry, hentry, h⟩ := bind_eq_ok.mp h
  have hget := lockLoop_ok hframe
  split_ifs at h with hobserved
  · cases h
    exact .refl
  · simp only [seq_eq_ok, raiseIf_ok, not_or, not_not] at h
    obtain ⟨-, ⟨hphase, -⟩, -, h⟩ := h
    cases h
    obtain ⟨hdelegation, hparent, hno⟩ := delegationOf_ok (orRaise_ok.mp hentry)
    exact .observed target.frameId iterationNo frame _ row _ hget (orRaise_ok.mp hrow)
      (by simp [hphase]) rfl rfl rfl rfl rfl (.inr ⟨hphase, entry.1, entry.2, hdelegation, hparent,
        hno, Bool.eq_false_iff.mpr hobserved, rfl⟩)

theorem suspendLoop_effect (h : tables.suspendLoop lease checks target = .ok tables') :
    Effect action tables tables' := by
  obtain ⟨frame, hframe, h⟩ := bind_eq_ok.mp h
  have hget := lockFrame_ok hframe
  simp only [seq_eq_ok] at h
  cases h.2.2
  refine .kept (.putFrame hget ?_)
  by_cases haccepted : frame.phase = .decisionAccepted
  · exact .waits haccepted (by simp [LoopFrame.core, LoopFrame.touch, haccepted])
  · exact .same (by simp [LoopFrame.core, LoopFrame.touch, haccepted])

/-- `commit_child_result` ends the child and wakes its parent. -/
theorem commitChildResult_effect
    (h : tables.commitChildResult lease checks target resultDigest = .ok tables') :
    Effect action tables tables' := by
  obtain ⟨child, hchild, h⟩ := bind_eq_ok.mp h
  obtain ⟨_, -, h⟩ := bind_eq_ok.mp h
  obtain ⟨_, hdelegation, h⟩ := bind_eq_ok.mp h
  have hget := lockLoop_ok hchild
  simp only [seq_eq_ok] at h
  replace h := h.2
  split_ifs at h with hresult
  · cases h
    exact .refl
  · simp only [seq_eq_ok] at h
    obtain ⟨_, -, h⟩ := bind_eq_ok.mp h.2
    cases h
    refine .kept (.put hget ?_ rfl (fun _ => rfl) (fun id => ?_) (.refl rfl))
    · by_cases hready : child.phase = .resultReady
      · exact .same (by simp [LoopFrame.core, LoopFrame.touch, releasedChild, hready])
      · exact .stops (by simp [LoopFrame.core, LoopFrame.touch, releasedChild, hready])
          (.unready hready)
    · rw [Dict.get?_set]
      split_ifs with hid
      · rw [hid, orRaise_ok.mp hdelegation]
        rfl
      · rfl

/-! ## Recovery -/

theorem recoveredIterations_core (key : String × ℕ) :
    (tables.recoveredIterations.get? key).map LoopIteration.core =
      (tables.iterations.get? key).map LoopIteration.core := by
  rw [recoveredIterations, Dict.get?_mapWithKey, Option.map_map]
  refine congrArg (Option.map · _) (funext fun row => ?_)
  simp only [Function.comp_apply]
  split_ifs <;> rfl

theorem recoveredIterations_opened {key : String × ℕ} {row : LoopIteration}
    (hrow : tables.recoveredIterations.get? key = some row) (hopen : row.state = .opened) :
    ∃ old, tables.iterations.get? key = some old ∧ old.state = .opened := by
  have hcore : (tables.recoveredIterations.get? key).map LoopIteration.core =
      (tables.iterations.get? key).map LoopIteration.core := recoveredIterations_core key
  rw [hrow, Option.map_some] at hcore
  obtain ⟨old, hold, hsame⟩ := Option.map_eq_some_iff.mp hcore.symm
  exact ⟨old, hold, (congrArg IterationCore.state hsame).trans hopen⟩

theorem recoveryStops_stops
    (hstops : tables.recoveryStops id frame = true) : Stops action tables id frame := by
  have hlost : ∃ no row, tables.recoveredIterations.get? (id, no) = some row ∧
      row.state = .opened := by
    unfold recoveryStops at hstops
    cases hpolicy : tables.root.executionPolicy with
    | v1 =>
      rw [hpolicy] at hstops
      obtain ⟨row, hrow, hlost⟩ := Option.any_eq_true _ _ |>.mp hstops
      exact ⟨frame.currentIteration, row, hrow, (of_decide_eq_true hlost).1⟩
    | v2 =>
      rw [hpolicy] at hstops
      obtain ⟨⟨⟨_, no⟩, row⟩, hmem, hentry⟩ := List.any_eq_true.mp hstops
      obtain ⟨rfl, -, hlost⟩ := of_decide_eq_true hentry
      exact ⟨no, row, Dict.get?_eq_some_iff.mpr hmem, (of_decide_eq_true hlost).1⟩
  obtain ⟨no, _, hrow, hopen⟩ := hlost
  obtain ⟨old, hold, hopen'⟩ := recoveredIterations_opened hrow hopen
  exact .lost no old hold hopen'

/-- A recovery turns the interrupted attempts into unknown ones. -/
theorem prepareRecovery_effect (h : tables.prepareRecovery lease checks = .ok tables') :
    Effect action tables tables' := by
  simp only [prepareRecovery, seq_eq_ok] at h
  obtain ⟨first, -, h⟩ := bind_eq_ok.mp h.2
  simp only [seq_eq_ok] at h
  replace h := h.2
  split_ifs at h with htoken
  · cases h
    exact .refl
  obtain ⟨_, -, h⟩ := bind_eq_ok.mp h
  cases h
  refine .kept ⟨fun id frame hget => ?_, fun id hnone => ?_, recoveredIterations_core,
    fun _ => rfl, fun key model hmodel hcompleted => ?_⟩
  · refine ⟨tables.recoveredFrame lease (first.resumeGeneration + 1) id frame, ?_, ?_⟩
    · simp [Dict.get?_mapWithKey, hget]
    · by_cases hstops : tables.recoveryStops id frame = true
      · exact .stops (by simp [recoveredFrame, hstops, LoopFrame.core, LoopFrame.touch])
          (recoveryStops_stops hstops)
      · exact .same (by simp [recoveredFrame, hstops, LoopFrame.core, LoopFrame.touch])
  · simp [Dict.get?_mapWithKey, hnone]
  · have hstarted : model.state ≠ .started := by
      rw [hcompleted]
      decide
    simp [Dict.get?_mapValues, hmodel, hstarted]

/-! ## Every transaction -/

/-- The effect of every transaction. -/
theorem step_effect (h : tables.step sha256 action = some tables') :
    Effect action tables tables' := by
  have hok := step_ok h
  obtain ⟨_, call⟩ := action
  cases call with
  | publishLoopFinal => exact publishLoopFinal_effect hok
  | stopLoop => exact stopLoop_effect hok
  | startModelAttempt => exact startModelAttempt_effect hok
  | finishModelAttempt => exact finishModelAttempt_effect hok
  | openLoopIteration => exact openLoopIteration_effect hok
  | acceptContextAndOpenIteration => exact acceptContextAndOpenIteration_effect hok
  | acceptLoopDecision => exact acceptLoopDecision_effect hok
  | acceptBatch => exact acceptBatch_effect hok
  | bindLoopAction => exact bindLoopAction_effect hok
  | recordAction => exact recordAction_effect hok
  | commitLoopObservation => exact commitLoopObservation_effect hok
  | commitBatch => exact commitBatch_effect hok
  | acceptChild => exact acceptChild_effect hok
  | suspendLoop => exact suspendLoop_effect hok
  | commitChildResult => exact commitChildResult_effect hok
  | prepareRecovery => exact prepareRecovery_effect hok

end LoopTables

end LocalAgent.Runtime
