import LocalAgent.Runtime.LoopIterationRuns

/-!
# LocalAgent.Runtime.LoopDeliveryRuns — one delivery per frame, and no stop after it

Runs of the transactions of `LoopFrames` in any order.

* `DeliveredOnce`: what a transaction may do to the receipts.
* `loop_delivery_sound`: while no settlement of a delivered frame exceeds the budget, a receipt is set once,
  together with its one output event, and never on a frame that stops.
-/

namespace LocalAgent.Runtime

namespace LoopTables

/-! ## What holds of every run -/

def DeliveredReady (tables : LoopTables) : Prop :=
  ∀ id frame, tables.frames.get? id = some frame → frame.finalDeliveryReceipt ≠ none →
    frame.phase = .resultReady

/-- What a transaction does to the receipts. -/
structure DeliveredOnce (before after : LoopTables) : Prop where
  kept : ∀ id frame receipt, before.frames.get? id = some frame →
    frame.finalDeliveryReceipt = some receipt →
      ∃ frame', after.frames.get? id = some frame' ∧ frame'.finalDeliveryReceipt = some receipt
  journaled : ∀ id frame' receipt, after.frames.get? id = some frame' →
    frame'.finalDeliveryReceipt = some receipt →
    (∃ frame, before.frames.get? id = some frame ∧ frame.finalDeliveryReceipt = some receipt) ∨
      ∃ frame event, before.frames.get? id = some frame ∧ frame.finalDeliveryReceipt = none ∧
        frame.phase ≠ .stopped ∧ event.eventType = .outputDelta ∧
        receipt.eventId = event.eventId ∧ receipt.sequence = event.sequence ∧
        event ∉ before.journal ∧ after.journal = before.journal ++ [event]
  apart : ∀ id frame, after.frames.get? id = some frame → frame.finalDeliveryReceipt ≠ none →
    frame.phase ≠ .stopped

/-- What a transaction other than a delivery does to the receipts. -/
structure Moves (before after : LoopTables) : Prop where
  kept : ∀ id frame, before.frames.get? id = some frame →
    ∃ frame', after.frames.get? id = some frame' ∧
      frame'.finalDeliveryReceipt = frame.finalDeliveryReceipt ∧
      (frame.finalDeliveryReceipt ≠ none → frame'.phase = frame.phase)
  receipts : ∀ id frame', after.frames.get? id = some frame' →
    frame'.finalDeliveryReceipt ≠ none → ∃ frame, before.frames.get? id = some frame

variable {tables tables' : LoopTables} {action : Action} {frame : LoopFrame}

namespace Moves

variable {id : String} {frame' : LoopFrame}

theorem origin (h : Moves tables tables')
    (hget : tables'.frames.get? id = some frame') (hreceipt : frame'.finalDeliveryReceipt ≠ none) :
    ∃ frame, tables.frames.get? id = some frame ∧
      frame.finalDeliveryReceipt = frame'.finalDeliveryReceipt ∧ frame'.phase = frame.phase := by
  obtain ⟨frame, hframe⟩ := h.receipts id frame' hget hreceipt
  obtain ⟨_, hget', hsame, hphase⟩ := h.kept id frame hframe
  cases hget.symm.trans hget'
  exact ⟨frame, hframe, hsame.symm, hphase (by rwa [← hsame])⟩

theorem ready (h : Moves tables tables') (hs : DeliveredReady tables) : DeliveredReady tables' := by
  intro id _ hget hreceipt
  obtain ⟨frame, hframe, hsame, hphase⟩ := h.origin hget hreceipt
  rw [hphase]
  exact hs id frame hframe (by rwa [hsame])

/-- A frame is delivered once. -/
theorem deliveredOnce (h : Moves tables tables') (hs : DeliveredReady tables) :
    DeliveredOnce tables tables' where
  kept := by
    intro id frame receipt hget hreceipt
    obtain ⟨frame', hget', hsame, -⟩ := h.kept id frame hget
    exact ⟨frame', hget', hsame.trans hreceipt⟩
  journaled := by
    intro id frame' _ hget hreceipt
    obtain ⟨frame, hframe, hsame, -⟩ := h.origin hget (by simp [hreceipt])
    exact .inl ⟨frame, hframe, hsame.trans hreceipt⟩
  apart := by
    intro id frame' hget hreceipt hstopped
    rw [h.ready hs id frame' hget hreceipt] at hstopped
    cases hstopped

theorem put (hget : tables.frames.get? id = some frame)
    (hframes : tables'.frames = tables.frames.set id frame')
    (hreceipt : frame'.finalDeliveryReceipt = frame.finalDeliveryReceipt)
    (hphase : frame.finalDeliveryReceipt ≠ none → frame'.phase = frame.phase) :
    Moves tables tables' where
  kept := by
    intro other old hold
    rw [hframes]
    by_cases hid : other = id
    · subst hid
      cases hget.symm.trans hold
      exact ⟨frame', by simp, hreceipt, hphase⟩
    · exact ⟨old, by simp [hid, hold], rfl, fun _ => rfl⟩
  receipts := by
    intro other new hnew _
    rw [hframes] at hnew
    by_cases hid : other = id
    · exact ⟨frame, hid ▸ hget⟩
    · exact ⟨new, by simpa [hid, Ne.symm hid] using hnew⟩

theorem add {child : LoopFrame} (habsent : tables.frames.get? id = none)
    (hframes : tables'.frames = tables.frames.set id child)
    (hreceipt : child.finalDeliveryReceipt = none) : Moves tables tables' where
  kept := by
    intro other old hold
    have hid : other ≠ id := by
      rintro rfl
      rw [habsent] at hold
      cases hold
    exact ⟨old, by simp [hframes, hid, hold], rfl, fun _ => rfl⟩
  receipts := by
    intro _ new hnew hsome
    rw [hframes, Dict.get?_set] at hnew
    split_ifs at hnew with hid
    · cases hnew
      exact absurd hreceipt hsome
    · exact ⟨new, hnew⟩

theorem trans {tables'' : LoopTables} (h : Moves tables tables') (h' : Moves tables' tables'') :
    Moves tables tables'' where
  kept := by
    intro id frame hget
    obtain ⟨frame', hget', hsame, hphase⟩ := h.kept id frame hget
    obtain ⟨frame'', hget'', hsame', hphase'⟩ := h'.kept id frame' hget'
    refine ⟨frame'', hget'', hsame'.trans hsame, fun hreceipt => ?_⟩
    rw [hphase' (by rwa [hsame]), hphase hreceipt]
  receipts := by
    intro id _ hget hreceipt
    obtain ⟨frame', hget', hsame, -⟩ := h'.origin hget hreceipt
    exact h.receipts id frame' hget' (by rwa [hsame])

end Moves

theorem DeliveredReady.undelivered (hs : DeliveredReady tables) {id : String}
    (hget : tables.frames.get? id = some frame) (hphase : frame.phase ≠ .resultReady) :
    frame.finalDeliveryReceipt = none := by
  by_contra hreceipt
  exact hphase (hs id frame hget hreceipt)

/-- No transaction stops a frame that was delivered, while settlements fit their budget. -/
theorem Stops.of_within {id : String} (h : Stops action tables id frame)
    (hs : DeliveredReady tables) (hc : Coherent tables) (hwithin : SettlesWithin tables action)
    (hget : tables.frames.get? id = some frame) : frame.finalDeliveryReceipt = none := by
  cases h with
  | undelivered hreceipt => exact hreceipt
  | unready hphase => exact hs.undelivered hget hphase
  | lost no row hrow hopen =>
    -- an open iteration is the last one, and its frame is not ready
    refine hs.undelivered hget fun hready => ?_
    have hsound := hc.iterationsSound hget
    obtain ⟨_, hlast, hclosed⟩ := (hsound.ready (by simp [hready])).mp hready
    have hle := ((hsound.numbered no).mp ⟨row, hrow⟩).2
    rcases Nat.lt_or_eq_of_le hle with hlt | rfl
    · have hobserved := hsound.earlier no row hrow hlt
      rw [hopen] at hobserved
      cases hobserved
    · rw [← Option.mem_unique hrow hlast, hopen] at hclosed
      cases hclosed
  | exceeded hnot => exact absurd hwithin hnot

theorem Kept.moves (h : Kept action tables tables') (hs : DeliveredReady tables)
    (hc : Coherent tables) (hwithin : SettlesWithin tables action) : Moves tables tables' where
  kept := by
    intro id frame hget
    obtain ⟨frame', hget', hmove⟩ := h.frames id frame hget
    refine ⟨frame', hget', ?_⟩
    cases hmove with
    | same hcore =>
      exact ⟨congrArg FrameCore.finalDeliveryReceipt hcore,
        fun _ => congrArg FrameCore.phase hcore⟩
    | waits hphase hcore =>
      have hreceipt := hs.undelivered hget (by simp [hphase])
      exact ⟨congrArg FrameCore.finalDeliveryReceipt hcore, fun hsome => absurd hreceipt hsome⟩
    | stops hcore hreason =>
      have hreceipt := hreason.of_within hs hc hwithin hget
      exact ⟨congrArg FrameCore.finalDeliveryReceipt hcore, fun hsome => absurd hreceipt hsome⟩
  receipts := by
    intro id _ hget' _
    cases hget : tables.frames.get? id with
    | none =>
      rw [h.absent id hget] at hget'
      cases hget'
    | some frame => exact ⟨frame, rfl⟩

theorem Decides.moves {id : String} {frame' : LoopFrame} {row row' : LoopIteration}
    {decision digest : String} {attempt : ℕ × ℕ} {middle : LoopTables}
    (h : Decides tables tables' id frame frame' row row' decision digest attempt)
    (hs : DeliveredReady tables) (hget : middle.frames.get? id = some frame)
    (hframes : tables'.frames = middle.frames.set id frame') : Moves middle tables' := by
  have hreceipt := hs.undelivered h.get (by simp [h.deciding])
  exact .put hget hframes (congrArg FrameCore.finalDeliveryReceipt h.frameCore)
    fun hsome => absurd hreceipt hsome

/-- Every transaction keeps what was delivered. -/
theorem Effect.delivers (h : Effect action tables tables') (hs : DeliveredReady tables)
    (hc : Coherent tables) (hwithin : SettlesWithin tables action) :
    DeliveredOnce tables tables' ∧ DeliveredReady tables' := by
  have hmoves : Moves tables tables' → DeliveredOnce tables tables' ∧ DeliveredReady tables' :=
    fun hmoves => ⟨hmoves.deliveredOnce hs, hmoves.ready hs⟩
  cases h with
  | kept h => exact hmoves (h.moves hs hc hwithin)
  | opened _ _ _ _ hget _ _ hcore hframes =>
    exact hmoves (.put hget hframes (congrArg FrameCore.finalDeliveryReceipt hcore)
      fun _ => congrArg FrameCore.phase hcore)
  | decided _ _ _ _ _ _ _ _ h hframes =>
    exact hmoves (h.moves hs h.get hframes)
  | handedOff id childId _ _ _ child _ _ _ _ _ h _ habsent hchild hframes =>
    have hid : id ≠ childId := by
      rintro rfl
      have hget := h.get
      rw [habsent] at hget
      cases hget
    have hadded : Moves tables { tables with frames := tables.frames.set childId child } :=
      .add habsent rfl (congrArg FrameCore.finalDeliveryReceipt hchild)
    exact hmoves (hadded.trans (h.moves hs (by simp [hid, h.get]) hframes))
  | observed _ _ _ _ _ _ hget _ hphase hcore _ hframes =>
    have hreceipt := hs.undelivered hget hphase.1
    exact hmoves (.put hget hframes (congrArg FrameCore.finalDeliveryReceipt hcore)
      fun hsome => absurd hreceipt hsome)
  | delivered id frame frame' receipt event journal hget hphase hreceipt hcore hevent hfresh
      hafter =>
    subst hafter
    have hreceipt' : frame'.finalDeliveryReceipt = some receipt :=
      congrArg FrameCore.finalDeliveryReceipt hcore
    have hready : DeliveredReady
        { tables with frames := tables.frames.set id frame', journal := journal } := by
      intro other old hold hsome
      rcases Dict.get?_set_cases hold with ⟨-, rfl⟩ | ⟨-, hold⟩
      · exact (congrArg FrameCore.phase hcore).trans hphase
      · exact hs other old hold hsome
    refine ⟨⟨fun other old other' hold hsome => ?_, fun other new other' hnew hsome => ?_,
      fun other new hnew hsome hstopped => ?_⟩, hready⟩
    · have hid : other ≠ id := by
        rintro rfl
        cases hget.symm.trans hold
        cases hreceipt.symm.trans hsome
      exact ⟨old, by simp [hid, hold], hsome⟩
    · rcases Dict.get?_set_cases hnew with ⟨hid, rfl⟩ | ⟨-, hnew⟩
      · cases hreceipt'.symm.trans hsome
        obtain ⟨hdelta, hevent, hsequence⟩ := hevent
        obtain ⟨hnew, hjournal⟩ := hfresh hwithin
        exact .inr ⟨frame, event, hid ▸ hget, hreceipt, by simp [hphase], hdelta, hevent,
          hsequence, hnew, hjournal⟩
      · exact .inl ⟨new, hnew, hsome⟩
    · rw [hready other new hnew hsome] at hstopped
      cases hstopped

/-! ## Runs -/

variable {sha256 : String → String}

theorem deliveredReady_new (root : RootBudget) (frameId stepId : String) (contextPolicy : Bool)
    (maxIterations token : ℕ) (journal : List LoopEvent) :
    DeliveredReady (new root frameId stepId contextPolicy maxIterations token journal) := by
  intro _ _ hget hreceipt
  simp only [new, Dict.get?_set, Dict.get?_empty] at hget
  split_ifs at hget
  cases hget
  exact absurd rfl hreceipt

/-- In every run whose settlements of delivered frames fit the budget, every transaction keeps the
receipts there are, sets a new one together with its one output event, and leaves no frame both
delivered and stopped. -/
theorem loop_delivery_sound {root : RootBudget} {frameId stepId : String} {contextPolicy : Bool}
    {maxIterations token : ℕ} {journal : List LoopEvent} {actions : List Action}
    (hrun : Trace.run (step sha256)
      (new root frameId stepId contextPolicy maxIterations token journal) actions = some tables)
    (hstep : tables.step sha256 action = some tables')
    (hwithin : Trace.Along (step sha256) SettlesWithin
      (new root frameId stepId contextPolicy maxIterations token journal) (actions ++ [action])) :
    DeliveredOnce tables tables' := by
  obtain ⟨hbefore, hlast⟩ := (Trace.along_append hrun).mp hwithin
  have hkeeps : DeliveredReady tables ∧ Coherent tables := by
    refine Trace.run_keeps (P := fun t => DeliveredReady t ∧ Coherent t) ?_ hbefore hrun ?_
    · intro _ _ _ hwithin hstep hs
      have heffect := step_effect hstep
      exact ⟨(heffect.delivers hs.1 hs.2 hwithin).2, hs.2.effect heffect⟩
    · exact ⟨deliveredReady_new root frameId stepId contextPolicy maxIterations token journal,
        coherent_new root frameId stepId contextPolicy maxIterations token journal⟩
  exact ((step_effect hstep).delivers hkeeps.1 hkeeps.2 hlast.1).1

/-! ## A memory attempt after the delivery -/

instance (root : RootBudget) (operationId : String) (usage : Option Amounts) :
    Decidable (FitsSettlement root operationId usage) :=
  inferInstanceAs (Decidable (_ → ∀ stored ∈ root.operations.get? operationId,
    stored.state = .reserved → stored.delegationId = none ∧
      ∀ values ∈ (RootBudget.settledValues stored usage).toOption,
        ∀ d, values d ≠ 0 → ∀ limit ∈ root.budgetTotals d,
          root.budgetConsumed d + values d + (root.budgetReserved d - stored.reserved d) ≤ limit))

instance : ∀ (tables : LoopTables) (action : Action), Decidable (SettlesWithin tables action)
  | tables, (_, .publishLoopFinal _ target _ _ event) =>
    inferInstanceAs (Decidable (∀ frame ∈ tables.frames.get? target.frameId,
      frame.finalDeliveryReceipt = none → ∀ other ∈ tables.journal,
        other.eventId ≠ event.eventId))
  | tables, (_, .finishModelAttempt _ finish) =>
    inferInstanceAs (Decidable (∀ frameId ∈ tables.finishFrame finish,
      ∀ frame ∈ tables.frames.get? frameId, frame.finalDeliveryReceipt ≠ none →
        frame.contextPolicy = true → ∀ operationId ∈ finish.operationId,
          FitsSettlement tables.root operationId finish.actualUsage))
  | _, (_, .stopLoop ..) | _, (_, .startModelAttempt ..) | _, (_, .prepareRecovery ..)
  | _, (_, .openLoopIteration ..) | _, (_, .acceptContextAndOpenIteration ..)
  | _, (_, .acceptLoopDecision ..) | _, (_, .acceptBatch ..) | _, (_, .bindLoopAction ..)
  | _, (_, .recordAction ..) | _, (_, .commitLoopObservation ..) | _, (_, .commitBatch ..)
  | _, (_, .acceptChild ..) | _, (_, .suspendLoop ..) | _, (_, .commitChildResult ..) =>
    isTrue trivial

/-- A v1 run with a budget of 100 tokens and a context policy. -/
def sampleLoop : LoopTables := new sampleLoopBudget "frame" "s1" true 16 1 []

/-- One decision, its delivery, and the start of a memory formation attempt. -/
def sampleDelivered : List Action :=
  [(sampleLoopLease, .acceptContextAndOpenIteration noChecks sampleTarget "snapshot-1" false false),
    sampleStart 1 .decision (some 1) (some "snapshot-1") "model:1", sampleFinish 1 "model:1" 10,
    sampleDecision 1 1 (.result "FINAL"),
    (sampleLoopLease, .publishLoopFinal noChecks sampleTarget "decision-1" (Sha256.hexdigest "done")
      ⟨"event-1", 1, .outputDelta, "done"⟩),
    sampleStart 2 .formation none none "formation:1"]

theorem loop_delivery_sound_sampleDelivered :
    ∃ tables tables', Trace.run (step Sha256.hexdigest) sampleLoop sampleDelivered = some tables ∧
      tables.step Sha256.hexdigest (sampleFinish 2 "formation:1" 10) = some tables' ∧
      tables'.journal.length = 1 ∧ DeliveredOnce tables tables' := by
  have hrun : (Trace.run (step Sha256.hexdigest) sampleLoop sampleDelivered).any (fun tables =>
      (tables.step Sha256.hexdigest (sampleFinish 2 "formation:1" 10)).any fun tables' =>
        tables'.journal.length = 1) = true ∧
      Trace.Along (step Sha256.hexdigest) SettlesWithin sampleLoop
        (sampleDelivered ++ [sampleFinish 2 "formation:1" 10]) := by
    decide +kernel
  obtain ⟨hrun, hwithin⟩ := hrun
  obtain ⟨tables, hs, hend⟩ := Option.any_eq_true _ _ |>.mp hrun
  obtain ⟨tables', hs', hlength⟩ := exists_of_any hend
  exact ⟨tables, tables', hs, hs', hlength, loop_delivery_sound hs hs' hwithin⟩

/-- The formation attempt reports more than the budget: the delivered frame is stopped. -/
theorem formation_stops_delivered :
    ∃ tables tables', Trace.run (step Sha256.hexdigest) sampleLoop sampleDelivered = some tables ∧
      tables.step Sha256.hexdigest (sampleFinish 2 "formation:1" 1000) = some tables' ∧
      ¬ DeliveredOnce tables tables' := by
  have hrun : (Trace.run (step Sha256.hexdigest) sampleLoop sampleDelivered).any (fun tables =>
      (tables.step Sha256.hexdigest (sampleFinish 2 "formation:1" 1000)).any fun tables' =>
        (tables'.frames.get? "frame").any fun frame =>
          frame.finalDeliveryReceipt ≠ none ∧ frame.phase = .stopped) = true := by
    decide +kernel
  obtain ⟨tables, hs, hend⟩ := Option.any_eq_true _ _ |>.mp hrun
  obtain ⟨tables', hs', hend⟩ := Option.any_eq_true _ _ |>.mp hend
  obtain ⟨frame, hget, hreceipt, hstopped⟩ := exists_of_any hend
  exact ⟨tables, tables', hs, hs', fun hsound => hsound.apart "frame" frame hget hreceipt hstopped⟩

end LoopTables

end LocalAgent.Runtime
