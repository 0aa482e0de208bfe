import LocalAgent.Runtime.ApprovalControllerRuns

/-!
# LocalAgent.Runtime.ApprovalControllerDurable — the record, the row and the step

A controller with a durable service has the status of an approval in three places: the row of the
database, its own record and the step.  The row is settled once; the record follows the answers of
`decide`, the waiter's reads and the local invalidation, in any order.

* `Side.step`: what the answers, the reads and the records say of the rows stays true.
* `durable_approvals_sound`: when no answer reaches an invalidated record and every decision finds
  its step waiting, the three agree.
-/

namespace LocalAgent.Runtime

open Text (NonBlank)

variable {row : DurableApprovalRow}

namespace DurableApprovalService

variable {tables tables' : ApprovalTables}

/-- Every row is kept under its id. -/
def Keyed (tables : ApprovalTables) : Prop :=
  ∀ id row, tables.approvals.get? id = some row → row.approvalId.val = id

theorem approvalId_eq_of_request {row' : DurableApprovalRow}
    (h : row'.request = row.request) : row'.approvalId = row.approvalId :=
  congrArg ApprovalRequest.approvalId h

/-- The ids of the durable rows stay those of their requests. -/
theorem Keyed.step {action : Action} (hkeyed : Keyed tables)
    (h : step tables action = some tables') : Keyed tables' := by
  cases moved_of_step h with
  | unchanged | claimed | control => exact hkeyed
  | created =>
    intro id row hrow
    rw [put, Dict.get?_set] at hrow
    split_ifs at hrow with hid
    · cases hrow
      exact hid.symm
    · exact hkeyed id row hrow
  | settled _ rows =>
    intro id _ hrow'
    obtain ⟨row, hrow, hstep⟩ := exists_of_rel rows hrow'
    rw [approvalId_eq_of_request hstep.request]
    exact hkeyed id row hrow

theorem status_ne_executionClaimed (row : DurableApprovalRow) : row.status ≠ .executionClaimed := by
  unfold DurableApprovalRow.status
  split
  · split <;> exact nofun
  all_goals exact nofun

end DurableApprovalService

namespace ToolApprovalController

variable {cfg : ApprovalConfig} {w w' : ApprovalWorld} {action : Action} {state : AgentState}

/-! ## The rows -/

theorem Listed.keyed (h : Listed cfg w w') (hkeyed : DurableApprovalService.Keyed w.tables) :
    DurableApprovalService.Keyed w'.tables := by
  rcases h.tables with heq | ⟨_, hstep⟩
  · rwa [heq]
  · exact hkeyed.step hstep

theorem Listed.lasting (h : Listed cfg w w') :
    DurableApprovalService.Lasting w.tables w'.tables := by
  rcases h.tables with heq | ⟨_, hstep⟩
  · rw [heq]
    exact .refl
  · exact (DurableApprovalService.moved_of_step hstep).lasting

variable {tables tables' : ApprovalTables} {request : ApprovalRequest} {notes : List ApprovalNote}

theorem Backed.lasting
    (h : Backed tables request) (hlast : DurableApprovalService.Lasting tables tables') :
    Backed tables' request := by
  obtain ⟨row, hrow, hinvocation⟩ := h
  obtain ⟨row', hrow', hrequest⟩ := hlast.kept _ row hrow
  exact ⟨row', hrow', (DurableApprovalService.invocationId_eq_of_request hrequest).trans hinvocation⟩

variable {id : String}

theorem lasting_status (hlast : DurableApprovalService.Lasting tables tables')
    (hrow : tables.approvals.get? id = some row)
    (hstatus : row.status = .approved ∨ row.status = .rejected) :
    tables'.approvals.get? id = some row := by
  refine hlast.settled id row hrow fun hpending => ?_
  have hstill : row.status = .pending := by rw [DurableApprovalRow.status, hpending]
  rcases hstatus with h | h <;> cases hstill.symm.trans h

theorem Answered.lasting {answer : DurableAnswer}
    (h : Answered tables answer) (hlast : DurableApprovalService.Lasting tables tables') :
    Answered tables' answer := by
  intro hcode
  obtain ⟨row, hrow, heq, hstatus⟩ := h hcode
  exact ⟨row, lasting_status hlast hrow hstatus, heq, hstatus⟩

theorem Observed.lasting {entry : String × ApprovalStatus}
    (h : Observed tables entry) (hlast : DurableApprovalService.Lasting tables tables') :
    Observed tables' entry := by
  obtain ⟨row, hrow, hstatus, hstate⟩ := h
  exact ⟨row, hlast.settled _ row hrow hstate, hstatus, hstate⟩

/-! ## The records -/

/-- What the invariant says of one record. -/
def RecordOk (tables : ApprovalTables) (id : String) (record : ApprovalRecord) : Prop :=
  (record.request.approvalId.val = id ∧ Backed tables record.request) ∧
    (record.status = .approved ∨ record.status = .rejected →
      ∃ row, tables.approvals.get? id = some row ∧ row.status = record.status) ∧
    record.status ≠ .executionClaimed

theorem RecordOk.lasting {record : ApprovalRecord}
    (h : RecordOk tables id record) (hlast : DurableApprovalService.Lasting tables tables') :
    RecordOk tables' id record := by
  obtain ⟨⟨hid, hbacked⟩, htied, hclaimed⟩ := h
  refine ⟨⟨hid, hbacked.lasting hlast⟩, fun hstatus => ?_, hclaimed⟩
  obtain ⟨row, hrow, heq⟩ := htied hstatus
  exact ⟨row, lasting_status hlast hrow (heq ▸ hstatus), heq⟩

theorem Side.record (hside : Side w) {record : ApprovalRecord}
    (hrecord : w.records.get? id = some record) : RecordOk w.tables id record :=
  ⟨hside.named id record hrecord, hside.tied id record hrecord, hside.unclaimed id record hrecord⟩

/-- The records of the controller agree with the rows, also after the rows have moved on. -/
theorem Moved.records_ok (h : Moved cfg w action w') (hdurable : cfg.durable = true)
    (hside : Side w) (hlast : DurableApprovalService.Lasting w.tables w'.tables) :
    ∀ id record, w'.records.get? id = some record → RecordOk w'.tables id record := by
  have hold : ∀ {id record}, w.records.get? id = some record → RecordOk w'.tables id record :=
    fun hrecord => (hside.record hrecord).lasting hlast
  have hset : ∀ {key : String} {record' : ApprovalRecord},
      w'.records = w.records.set key record' → RecordOk w'.tables key record' →
      ∀ id record, w'.records.get? id = some record → RecordOk w'.tables id record := by
    intro _ record' hrecords hok id record hrecord
    rw [hrecords, Dict.get?_set] at hrecord
    split_ifs at hrecord with hid
    · cases hrecord
      exact hid ▸ hok
    · exact hold hrecord
  cases h with
  | idle records | opened _ records | dropped _ records | lost _ records
  | appended _ _ _ records | granted _ _ _ _ _ _ _ _ _ records =>
    exact fun id record hrecord => hold (records ▸ hrecord)
  | registered _ _ _ _ records _ _ _ _ _ _ backed =>
    refine hset records ⟨⟨rfl, backed hdurable⟩, ?_, (by simp)⟩
    rintro (h | h) <;> cases h
  | decided _ _ _ before =>
    exact absurd before (hside.plain _ _ _ _ _ _)
  | claimed _ _ _ plain | lapsed _ _ _ plain => cases plain.symm.trans hdurable
  | invalidated _ _ _ _ _ _ found _ withdrawn _ records =>
    refine hset records ⟨(hold found).1, ?_, ?_⟩
    · rintro (h | h) <;> rcases withdrawn with rfl | rfl <;> cases h
    · rcases withdrawn with rfl | rfl <;> simp
  | answered _ _ answer _ record' _ answered found successful request status records =>
    have hanswer : Answered w'.tables answer :=
      (hside.answers answer (List.mem_of_getElem? answered)).lasting hlast
    obtain ⟨row, hrow, hrowStatus, -⟩ := hanswer successful
    have heq : row.status = record'.status := hrowStatus.trans status.symm
    refine hset records ⟨?_, fun _ => ⟨row, hrow, heq⟩, ?_⟩
    · rw [request]
      exact (hold (lookup_eq_some found).2).1
    · exact heq ▸ DurableApprovalService.status_ne_executionClaimed row
  | observed _ status _ _ _ entry found _ _ records =>
    obtain ⟨row, hrow, hstatus, -⟩ := (hside.observed _ entry).lasting hlast
    refine hset records ⟨(hold found).1, fun _ => ⟨row, hrow, hstatus⟩, ?_⟩
    exact (show row.status = status from hstatus) ▸
      DurableApprovalService.status_ne_executionClaimed row

/-- What one step keeps of the agreement between the controller and the tables. -/
theorem Side.step (hside : Side w) (hdurable : cfg.durable = true) (hw : Shape cfg w)
    (h : step cfg w action = some w') : Side w' := by
  have hmoved := moved_of_step hw (fun _ => hside) h
  have hlisted := listed_of_step h
  have hlast := hlisted.lasting
  have hrecords := hmoved.records_ok hdurable hside hlast
  refine ⟨hlisted.keyed hside.keyed, fun id record hr => (hrecords id record hr).1, ?_, ?_, ?_,
    fun id record hr => (hrecords id record hr).2.1, ?_,
    fun id record hr => (hrecords id record hr).2.2⟩
  · intro evidence appended request hlock
    cases hmoved with
    | idle records history lock | granted _ _ _ _ _ _ _ _ _ _ _ lock =>
      exact (hside.requesting evidence appended request (lock.symm.trans hlock)).lasting hlast
    | opened _ _ _ lock _ _ _ _ _ _ _ backed =>
      cases lock.symm.trans hlock
      exact backed evidence appended request rfl hdurable
    | appended evidence' _ before _ _ lock =>
      obtain ⟨rfl, -, rfl⟩ := LockHolder.publishing.inj (Option.mem_unique lock hlock)
      exact (hside.requesting evidence' false request before).lasting hlast
    | invalidated _ _ _ _ _ _ _ _ _ _ _ _ _ lock => exact nomatch lock.symm.trans hlock
    | _ =>
      have hnone : w'.lock = none := by assumption
      cases hnone.symm.trans hlock
  · intro answer hanswer
    rcases hlisted.answers answer hanswer with hold | ⟨-, hnew⟩
    · exact (hside.answers answer hold).lasting hlast
    · exact hnew
  · intro entry hentry
    rcases hlisted.observed entry hentry with hold | ⟨-, hnew⟩
    · exact (hside.observed entry hold).lasting hlast
    · exact hnew
  · intro _ appended id _ _ _ hlock
    cases hmoved with
    | idle records history lock | granted _ _ _ _ _ _ _ _ _ _ _ lock =>
      exact hside.plain _ _ _ _ _ _ (lock.symm.trans hlock)
    | opened _ _ _ lock _ _ _ _ _ _ plain =>
      cases lock.symm.trans hlock
      cases (plain _ _ _ _ _ _ rfl).symm.trans hdurable
    | appended _ _ before _ _ lock =>
      obtain ⟨rfl, -, rfl⟩ := LockHolder.publishing.inj (Option.mem_unique lock hlock)
      exact hside.plain _ _ _ _ _ _ before
    | invalidated _ _ _ _ _ _ _ _ _ _ _ _ _ lock => exact nomatch lock.symm.trans hlock
    | _ =>
      have hnone : w'.lock = none := by assumption
      cases hnone.symm.trans hlock

theorem side_start : Side (start state) where
  keyed := fun _ _ hrow => nomatch hrow
  named := fun _ _ hrecord => nomatch hrecord
  requesting := fun _ _ _ hlock => nomatch hlock
  answers := fun _ hanswer => nomatch hanswer
  observed := fun _ hentry => nomatch hentry
  tied := fun _ _ hrecord => nomatch hrecord
  plain := fun _ _ _ _ _ _ hlock => nomatch hlock
  unclaimed := fun _ _ hrecord => nomatch hrecord

/-! ## The steps -/

/-- What became of a step after its decision, and the notes made since. -/
def Past (stepId : String) (status : StepStatus) (after : List ApprovalNote) :
    ApprovalDecisionValue → Prop
  | .approve => status = .running ∨ status = .succeeded ∨ status = .failed ∨ status = .cancelled ∨
      -- it waits again, for a later approval
      status = .waitingForApproval ∧ ∃ other, .requested other stepId ∈ after
  | .reject => status = .failed

/-- The step has left `WAITING_FOR_APPROVAL` with the decision. -/
def LeftWith (w : ApprovalWorld) (id stepId : String) (decision : ApprovalDecisionValue) : Prop :=
  ∃ before after step, w.history = before ++ .left id decision :: after ∧
    w.state.steps.get? stepId = some step ∧ Past stepId step.status after decision

/-- The steps of the decided records have left `WAITING_FOR_APPROVAL`. -/
def Followed (w : ApprovalWorld) : Prop :=
  ∀ id record, w.records.get? id = some record → ∀ decision : ApprovalDecisionValue,
    record.status = decision.status → LeftWith w id record.request.stepId decision

variable {stepId : String} {decision : ApprovalDecisionValue} {now : DateTime.Utc}

theorem Past.calm {status status' : StepStatus} {after : List ApprovalNote}
(h : Past stepId status after decision)
    (hmove : status' = status ∨ ∃ event, event ≠ .approvalRequested ∧
      stepTransitions status event = some status') (notes : List ApprovalNote) :
    Past stepId status' (after ++ notes) decision := by
  have hmem : ∀ {other}, .requested other stepId ∈ after → .requested other stepId ∈ after ++ notes :=
    fun h => List.mem_append_left notes h
  rcases hmove with rfl | ⟨event, hevent, htable⟩
  · cases decision with
    | reject => exact h
    | approve =>
      rcases h with h | h | h | h | ⟨h, other, hother⟩
      · exact .inl h
      · exact .inr (.inl h)
      · exact .inr (.inr (.inl h))
      · exact .inr (.inr (.inr (.inl h)))
      · exact .inr (.inr (.inr (.inr ⟨h, other, hmem hother⟩)))
  · -- only a running or a waiting step moves, and it does not wait afterwards
    have hfrom : status' = .running ∨ status' = .succeeded ∨ status' = .failed ∨
        status' = .cancelled ∨ status = .pending := by
      revert htable hevent
      cases status <;> cases event <;> simp [stepTransitions] <;> rintro rfl <;> simp
    cases decision with
    | reject =>
      rw [show status = .failed from h] at htable
      cases event <;> exact nomatch htable
    | approve =>
      rcases hfrom with h' | h' | h' | h' | h'
      · exact .inl h'
      · exact .inr (.inl h')
      · exact .inr (.inr (.inl h'))
      · exact .inr (.inr (.inr (.inl h')))
      · rcases h with h | h | h | h | ⟨h, -⟩ <;> exact nomatch h'.symm.trans h

theorem LeftWith.later (h : LeftWith w id stepId decision)
    (hhistory : w'.history = w.history ++ notes) (hcalm : Calm w.state w'.state) :
    LeftWith w' id stepId decision := by
  obtain ⟨before, after, step, hsplit, hstep, hpast⟩ := h
  obtain ⟨step', hstep', hmove⟩ := hcalm stepId step hstep
  refine ⟨before, after ++ notes, step', ?_, hstep', hpast.calm hmove notes⟩
  rw [hhistory, hsplit, List.append_assoc, List.cons_append]

/-- The run asks again with the same step: what an approval has left to the state is unchanged. -/
theorem LeftWith.asked (h : LeftWith w id stepId decision)
    (hhistory : w'.history = w.history ++ notes ++ [.requested request.approvalId request.stepId])
    (hbridge : bridge .runningToWaiting request.stepId now w.state = some w'.state) :
    LeftWith w' id stepId decision := by
  obtain ⟨before, after, step, hsplit, hstep, hpast⟩ := h
  obtain ⟨-, ⟨old, new, hold, hnew, htable⟩, -, hother⟩ := bridge_spec hbridge
  have hsplit' : w'.history =
      before ++ .left id decision ::
        (after ++ (notes ++ [.requested request.approvalId request.stepId])) := by
    rw [hhistory, hsplit]
    simp
  by_cases hid : stepId = request.stepId.val
  · subst hid
    obtain rfl := Option.mem_unique hold hstep
    refine ⟨before, _, new, hsplit', hnew, ?_⟩
    have hrunning : old.status = .running ∧ new.status = .waitingForApproval := by
      revert htable
      cases old.status <;> simp [stepTransitions, BridgeMove.eventType]
      exact Eq.symm
    cases decision with
    | reject => cases hrunning.1.symm.trans hpast
    | approve =>
      refine .inr (.inr (.inr (.inr ⟨hrunning.2, request.approvalId, ?_⟩)))
      simp
  · exact ⟨before, _, step, hsplit', (hother stepId hid).trans hstep, hpast.calm (.inl rfl) _⟩

theorem leftWith_of_bridge {stepId : NonBlank}
(hhistory : w'.history = w.history ++ [.left id decision])
    (hbridge : bridge decision.move stepId now w.state = some w'.state) :
    LeftWith w' id stepId decision := by
  obtain ⟨-, ⟨old, new, -, hnew, htable⟩, -, -⟩ := bridge_spec hbridge
  refine ⟨w.history, [], new, hhistory, hnew, ?_⟩
  revert htable
  cases decision with
  | approve =>
    cases old.status <;> simp [stepTransitions, BridgeMove.eventType, ApprovalDecisionValue.move]
    exact fun h => .inl h.symm
  | reject =>
    cases old.status <;> simp [stepTransitions, BridgeMove.eventType, ApprovalDecisionValue.move]
    exact Eq.symm

/-! ## Runs -/

/-- A successful answer does not reach an invalidated record, and one that reaches a pending record
finds its step waiting. -/
def Projectable (w : ApprovalWorld) : Action → Prop
  | .projectAnswer n now => ∀ answer ∈ w.answers[n]?, answer.result.safeErrorCode = none →
      ∀ record ∈ lookup w answer.approvalId, ¬ record.status.IsInvalidated ∧
        (record.status = .pending → (∀ actorId ∈ answer.actorId, Text.isBlank actorId = false) ∧
          w.state.Awaits record.request.stepId (answer.result.decidedAt.getD now))
  -- a claim does not find an approved row for an invalidated record
  | .claimDurable n _ _ _ => ∀ call ∈ w.claiming[n]?, ∀ record ∈ w.records.get? call.approvalId,
      record.status.IsInvalidated →
        ∀ row ∈ w.tables.approvals.get? call.approvalId, row.state ≠ .approved
  | _ => True

instance (w : ApprovalWorld) : ∀ action, Decidable (Projectable w action)
  | .projectAnswer n _ => inferInstanceAs (Decidable (∀ answer ∈ w.answers[n]?, _ → _))
  | .claimDurable n _ _ _ => inferInstanceAs (Decidable (∀ call ∈ w.claiming[n]?, _))
  | .request .. | .create .. | .createFailed | .decide .. | .claim .. | .observe ..
  | .projectStatus .. | .invalidate .. | .invalidateNext .. | .append | .endPublication .. | .close
  | .work .. | .elsewhere .. => isTrue trivial

theorem observedMove_status (decision : ApprovalDecisionValue) :
    observedMove decision.status = some decision.move := by
  cases decision <;> rfl

/-- An invalidated record stays so unless a late answer is projected over it. -/
theorem Moved.invalidated_stays (h : Moved cfg w action w') (hdurable : cfg.durable = true)
    (hside : Side w) (hgood : Projectable w action) {record : ApprovalRecord}
    (hrecord : w.records.get? id = some record) (hinvalidated : record.status.IsInvalidated) :
    ∃ after, w'.records.get? id = some after ∧ after.status.IsInvalidated := by
  have hother : ∀ {key : String} {record' : ApprovalRecord},
      w'.records = w.records.set key record' → id ≠ key →
      ∃ after, w'.records.get? id = some after ∧ after.status.IsInvalidated := by
    intro key _ hrecords hne
    refine ⟨record, ?_, hinvalidated⟩
    rwa [hrecords, Dict.get?_set, if_neg hne]
  cases h with
  | idle records | opened _ records | dropped _ records | lost _ records
  | appended _ _ _ records | granted _ _ _ _ _ _ _ _ _ records =>
    exact ⟨record, records ▸ hrecord, hinvalidated⟩
  | registered _ _ _ fresh records =>
    refine hother records ?_
    rintro rfl
    cases fresh.symm.trans hrecord
  | decided _ _ _ before => exact absurd before (hside.plain _ _ _ _ _ _)
  | claimed _ _ _ plain | lapsed _ _ _ plain => cases plain.symm.trans hdurable
  | invalidated key old status _ _ _ _ _ withdrawn _ records =>
    by_cases hid : id = key
    · refine ⟨⟨old.request, old.decision, status⟩, ?_, ?_⟩
      · rw [records, Dict.get?_set, if_pos hid]
      · rcases withdrawn with h | h
        · exact .inl h
        · exact .inr (.inl h)
    · exact hother records hid
  | answered _ _ answer old _ call answered found successful _ _ records =>
    refine hother records ?_
    rintro rfl
    subst call
    obtain rfl := Option.some.inj ((lookup_eq_some found).2.symm.trans hrecord)
    exact (hgood answer answered successful old found).1 hinvalidated
  | observed _ _ _ _ _ _ found pending _ records =>
    refine hother records ?_
    rintro rfl
    cases found.symm.trans hrecord
    rw [pending] at hinvalidated
    rcases hinvalidated with h | h | h <;> exact nomatch h

/-- A claim in a durable run is of a record that is live. -/
theorem Moved.granted_live (h : Moved cfg w action w') (hdurable : cfg.durable = true)
    (hside : Side w) (hgood : Projectable w action) {added : List ApprovalNote}
    (hadded : w'.history = w.history ++ added) {invocation : ToolInvocation}
    (hmem : .claimed id invocation ∈ added) {record : ApprovalRecord}
    (hrecord : w.records.get? id = some record) : ¬ record.status.IsInvalidated := by
  have hnone : ∀ {notes : List ApprovalNote}, w'.history = w.history ++ notes →
      (∀ note ∈ notes, note ≠ .claimed id invocation) → ¬ record.status.IsInvalidated := by
    intro notes hhistory hnotes
    cases List.append_cancel_left (hadded.symm.trans hhistory)
    exact absurd rfl (hnotes _ hmem)
  have hneutral : ∀ {notes : List ApprovalNote}, (∀ note ∈ notes, Neutral note) →
      ∀ note ∈ notes, note ≠ .claimed id invocation := by
    rintro notes hnotes note hnote rfl
    exact hnotes _ hnote
  cases h with
  | idle records history | opened _ records history =>
    exact hnone (history.trans (List.append_nil _).symm) nofun
  | dropped _ _ history neutral | invalidated _ _ _ _ _ _ _ _ _ _ _ history neutral =>
    exact hnone history (hneutral neutral)
  | lost _ _ history published =>
    refine hnone history fun note hnote heq => ?_
    obtain ⟨evidence, rfl⟩ := published note hnote
    cases heq
  | appended _ _ _ _ history =>
    refine hnone history fun note hnote heq => ?_
    cases (List.mem_singleton.mp hnote).symm.trans heq
  | registered _ _ _ _ _ history neutral =>
    refine hnone (history.trans (List.append_assoc _ _ _)) fun note hnote heq => ?_
    rcases mem_snoc hnote with hnote | hnote
    · exact hneutral neutral note hnote heq
    · cases hnote.symm.trans heq
  | decided _ _ _ before => exact absurd before (hside.plain _ _ _ _ _ _)
  | claimed _ _ _ plain | lapsed _ _ _ plain => cases plain.symm.trans hdurable
  | answered _ _ _ _ _ _ _ _ _ _ _ _ _ _ step =>
    cases step with
    | taken _ _ _ history =>
      refine hnone history fun note hnote heq => ?_
      cases (List.mem_singleton.mp hnote).symm.trans heq
    | ignored _ history => exact hnone (history.trans (List.append_nil _).symm) nofun
  | observed _ _ _ _ _ _ _ _ _ _ history =>
    refine hnone history fun note hnote heq => ?_
    obtain ⟨_, -, rfl⟩ := Option.map_eq_some_iff.mp (Option.mem_toList.mp hnote)
    cases heq
  | granted _ _ _ _ call act calling _ approved _ history =>
    cases List.append_cancel_left (hadded.symm.trans history)
    have hcall := ApprovalNote.claimed.inj (List.mem_singleton.mp hmem)
    obtain ⟨row, hrow, happroved⟩ := approved
    subst act
    intro hinvalidated
    rw [hcall.1] at hrecord
    exact hgood call calling record hrecord hinvalidated row hrow happroved

/-- The steps follow the decisions. -/
theorem Moved.followed (h : Moved cfg w action w') (hw : Shape cfg w) (hdurable : cfg.durable = true)
    (hside : Side w) (hgood : Projectable w action) (hf : Followed w) : Followed w' := by
  have hkeep : ∀ {notes}, w'.history = w.history ++ notes → Calm w.state w'.state →
      w'.records = w.records → Followed w' := by
    intro notes hhistory hcalm hrecords id record hrecord decision hstatus
    exact (hf id record (hrecords ▸ hrecord) decision hstatus).later hhistory hcalm
  -- one record is written
  have hset : ∀ {key record' notes}, w'.records = w.records.set key record' →
      w'.history = w.history ++ notes → Calm w.state w'.state →
      (∀ decision : ApprovalDecisionValue, record'.status = decision.status →
        LeftWith w' key record'.request.stepId decision) → Followed w' := by
    intro key record' notes hrecords hhistory hcalm hnew id record hrecord decision hstatus
    rw [hrecords, Dict.get?_set] at hrecord
    split_ifs at hrecord with hid
    · cases hrecord
      exact hid ▸ hnew decision hstatus
    · exact (hf id record hrecord decision hstatus).later hhistory hcalm
  cases h with
  | idle records history _ calm =>
    exact hkeep (history.trans (List.append_nil _).symm) calm records
  | opened _ records history _ state =>
    exact hkeep (history.trans (List.append_nil _).symm) (state ▸ .refl) records
  | dropped _ records history _ _ state | lost _ records history _ _ state
  | appended _ _ _ records history _ state | granted _ _ _ _ _ _ _ _ _ records history _ state =>
    exact hkeep history (state ▸ .refl) records
  | registered _ _ _ _ records history _ _ _ state =>
    intro id record hrecord decision hstatus
    rw [records, Dict.get?_set] at hrecord
    split_ifs at hrecord with hid
    · cases hrecord
      cases decision <;> cases hstatus
    · exact (hf id record hrecord decision hstatus).asked history state
  | decided _ _ _ before => exact absurd before (hside.plain _ _ _ _ _ _)
  | claimed _ _ _ plain | lapsed _ _ _ plain => cases plain.symm.trans hdurable
  | invalidated _ _ _ _ _ _ _ _ withdrawn _ records history _ _ _ calm =>
    refine hset records history calm fun decision hstatus => absurd hstatus ?_
    exact withdrawn.ne_decision decision
  | answered _ _ answer old _ call answered found successful request status records before _ step =>
    subst call
    obtain ⟨hlive, hpending⟩ := hgood answer answered successful old found
    obtain ⟨_, hrow, hrowStatus, -⟩ :=
      hside.answers answer (List.mem_of_getElem? answered) successful
    have hfound := (lookup_eq_some found).2
    cases step with
    | taken decision hdecision state history =>
      refine hset records history ((bridge_spec state).2.2.1 ?_) fun other hother => ?_
      · cases decision <;> rintro ⟨⟩
      · have hsame : decision = other :=
          decision_status_injective (hdecision.symm.trans (status.symm.trans hother))
        subst hsame
        rw [request]
        exact leftWith_of_bridge history state
    | ignored state history refused =>
      have hhistory : w'.history = w.history ++ [] := history.trans (List.append_nil _).symm
      have hcalm : Calm w.state w'.state := state ▸ .refl
      refine hset records hhistory hcalm fun decision hdecision => ?_
      rw [request]
      -- the record had the decision before
      have hbefore : old.status = decision.status := by
        by_cases hold : old.status = .pending
        · obtain ⟨hactor, hawaits⟩ := hpending hold
          have htaken := bridge_of_awaits hw.valid decision hawaits
          rcases refused with ⟨e, he⟩ | hrefused
          · revert he
            cases hactorId : answer.actorId with
            | none => rintro ⟨⟩
            | some actorId =>
              simp [computeActorIdDigest, hactor actorId hactorId, raiseIf]
          · rw [hrefused decision (status.symm.trans hdecision)] at htaken
            cases htaken
        · have hsettled : old.status = .approved ∨ old.status = .rejected := by
            have hclaimed := hside.unclaimed _ old hfound
            revert hlive hold hclaimed
            cases old.status <;> simp [ApprovalStatus.IsInvalidated]
          obtain ⟨_, hrow', heq⟩ := hside.tied _ old hfound hsettled
          cases hrow.symm.trans hrow'
          exact heq.symm.trans (hrowStatus.trans (status.symm.trans hdecision))
      exact (hf _ old hfound decision hbefore).later hhistory hcalm
  | observed _ status _ _ _ _ _ _ asked records history _ _ state =>
    refine hset records history ((bridge_spec state).2.2.1 ?_) fun decision hdecision => ?_
    · rintro rfl
      revert asked
      cases status <;> rintro ⟨⟩
    · have hstatus : status = decision.status := hdecision
      rw [hstatus, observedMove_status] at asked
      cases asked
      rw [statusDecision_eq_some.mpr hstatus] at history
      exact leftWith_of_bridge history state

/-- A controller with a durable service, in every run in which no answer reaches an invalidated
record, every answer for a pending record finds its step waiting, and no claim finds an approved
row for an invalidated record. -/
theorem durable_approvals_sound {acts : List Action} (hdurable : cfg.durable = true)
    (hv : state.Valid) (hrun : Trace.run (step cfg) (start state) acts = some w)
    (hgood : Trace.Along (step cfg) Projectable (start state) acts) :
    Followed w ∧ ∀ action w', Projectable w action → step cfg w action = some w' →
      (∀ id record, w.records.get? id = some record → record.status.IsInvalidated →
        ∃ after, w'.records.get? id = some after ∧ after.status.IsInvalidated) ∧
      ∀ added, w'.history = w.history ++ added → ∀ id invocation,
        .claimed id invocation ∈ added → ∀ record, w.records.get? id = some record →
          ¬ record.status.IsInvalidated := by
  have hkeeps : ∀ s a s', Projectable s a → step cfg s a = some s' →
      Shape cfg s ∧ Side s ∧ Followed s → Shape cfg s' ∧ Side s' ∧ Followed s' := by
    rintro s a _ hg hstep ⟨hs, hside, hf⟩
    have hmoved := moved_of_step hs (fun _ => hside) hstep
    exact ⟨hs.step (fun _ => hside) hstep, hside.step hdurable hs hstep,
      hmoved.followed hs hdurable hside hg hf⟩
  have hstart : Followed (start state) := fun _ _ hrecord => nomatch hrecord
  obtain ⟨hw, hside, hf⟩ :=
    Trace.run_keeps hkeeps hgood hrun ⟨shape_start hv, side_start, hstart⟩
  refine ⟨hf, fun action w' hg hstep => ?_⟩
  have hmoved := moved_of_step hw (fun _ => hside) hstep
  exact ⟨fun id record hrecord hinvalidated =>
      hmoved.invalidated_stays hdurable hside hg hrecord hinvalidated,
    fun added hadded id invocation hmem record hrecord =>
      hmoved.granted_live hdurable hside hg hadded hmem hrecord⟩

theorem step_decideDurable {id binding : String} {inactive : Option ApprovalStatus} {emitter : Bool}
(hdurable : cfg.durable = true)
    (hrow : w.tables.approvals.get? id = some row) (hrun : row.runId.val = cfg.runId.val)
    (hbinding : row.invocationBindingDigest.text = binding) (hpending : row.status = .pending)
    (hactive : DurableApprovalService.decidable w.tables cfg.runId = true) :
    step cfg w (.decide cfg.runId id binding decision none inactive emitter now) =
      some { w with
        tables := DurableApprovalService.put w.tables id (row.decided decision none now)
        answers := w.answers ++ [⟨id, decision, none,
          { runId := cfg.runId, approvalId := id
            effectiveStatus := (row.decided decision none now).status
            decidedAt := some now }⟩] } := by
  have hfilter : (w.tables.approvals.get? id).filter (·.runId.val = cfg.runId.val) = some row := by
    rw [hrow, Option.filter_some, if_pos (decide_eq_true hrun)]
  have hdecided : DurableApprovalService.decide w.tables cfg.runId id binding decision none now =
      .ok ({ runId := cfg.runId, approvalId := id
             effectiveStatus := (row.decided decision none now).status
             decidedAt := some now },
        DurableApprovalService.put w.tables id (row.decided decision none now)) := by
    unfold DurableApprovalService.decide
    rw [hfilter]
    simp only [hbinding, hpending, hactive, ne_eq, not_true_eq_false, if_false, Bool.true_eq_false]
    rfl
  simp [step, if_pos hdurable, decideDurable, hdecided]

/-- The run is active, and the request of the step `a` is stored. -/
def sampleStored : List Action :=
  [.elsewhere (.control (Dict.empty.set "run"
      ⟨some "worker", some 100, 1, .active, 2, none, none, none, none⟩)),
    sampleRequest, .create (.epochSecond 4) (.epochSecond 4)]

theorem isSome_sampleStored :
    (Trace.run (step (sampleConfig true)) (start sampleState) sampleStored).isSome = true := by
  decide +kernel

def storedWorld : ApprovalWorld :=
  (Trace.run (step (sampleConfig true)) (start sampleState) sampleStored).get isSome_sampleStored

theorem isSome_storedRow : (storedWorld.tables.approvals.get? "approval").isSome = true := by
  decide +kernel

def storedRow : DurableApprovalRow :=
  (storedWorld.tables.approvals.get? "approval").get isSome_storedRow

def sampleDurableDecide : Action :=
  .decide "run" "approval" storedRow.invocationBindingDigest.text .approve none none false
    (.epochSecond 5)

def answeredWorld : ApprovalWorld :=
  let decided := storedRow.decided .approve none (.epochSecond 5)
  { storedWorld with
    tables := DurableApprovalService.put storedWorld.tables "approval" decided
    answers := storedWorld.answers ++ [⟨"approval", .approve, none,
      { runId := "run", approvalId := "approval", effectiveStatus := decided.status
        decidedAt := some (.epochSecond 5) }⟩] }

theorem step_sampleDurableDecide :
    step (sampleConfig true) storedWorld sampleDurableDecide = some answeredWorld := by
  have hopen : storedRow.runId.val = "run" ∧ storedRow.status = .pending ∧
      DurableApprovalService.decidable storedWorld.tables "run" = true := by decide +kernel
  exact step_decideDurable rfl (Option.some_get isSome_storedRow).symm hopen.1 rfl hopen.2.1
    hopen.2.2

theorem run_stored {rest : List Action}
    (h : Trace.run (step (sampleConfig true)) answeredWorld rest = some w) :
    Trace.run (step (sampleConfig true)) (start sampleState)
      (sampleStored ++ sampleDurableDecide :: rest) = some w := by
  have hstored : Trace.run (step (sampleConfig true)) (start sampleState) sampleStored =
      some storedWorld := (Option.some_get isSome_sampleStored).symm
  rw [Trace.run_append, hstored, Option.bind_some]
  exact Trace.run_cons.mpr ⟨_, step_sampleDurableDecide, h⟩

theorem durable_approvals_sound_sampleDurableDecide :
    ∃ w, Trace.run (step (sampleConfig true)) (start sampleState)
        (sampleStored ++ [sampleDurableDecide, .projectAnswer 0 ⟨.epochSecond 6, rfl⟩]) = some w ∧
      (w.records.get? "approval").map (·.status) = some .approved ∧ Followed w := by
  have hrest : (Trace.run (step (sampleConfig true)) answeredWorld
      [.projectAnswer 0 ⟨.epochSecond 6, rfl⟩]).any (fun w => Decidable.decide
        ((w.records.get? "approval").map (·.status) = some .approved)) ∧
      Trace.Along (step (sampleConfig true)) Projectable answeredWorld
        [.projectAnswer 0 ⟨.epochSecond 6, rfl⟩] ∧
      Trace.Along (step (sampleConfig true)) Projectable (start sampleState) sampleStored := by
    decide +kernel
  obtain ⟨hrest, hgood, hbefore⟩ := hrest
  obtain ⟨w, hw, hend⟩ := exists_of_any hrest
  have hrun := run_stored hw
  have halong : Trace.Along (step (sampleConfig true)) Projectable (start sampleState)
      (sampleStored ++ [sampleDurableDecide, .projectAnswer 0 ⟨.epochSecond 6, rfl⟩]) :=
    (Trace.along_append (Option.some_get isSome_sampleStored).symm).mpr
      ⟨hbefore, (Trace.along_cons step_sampleDurableDecide).mpr ⟨trivial, hgood⟩⟩
  exact ⟨w, hrun, hend,
    (durable_approvals_sound rfl sampleState_valid hrun halong).1⟩

/-- The waiter times out between the answer of the database and the lock: its invalidation is
overwritten, and the record of a cancelled step is approved. -/
theorem late_answer_overwrites_invalidation :
    ∃ w w', Trace.run (step (sampleConfig true)) (start sampleState)
        (sampleStored ++ sampleDurableDecide ::
          [.invalidate .invalidatedTimeout none ⟨.epochSecond 6, rfl⟩, .invalidateNext false,
            .invalidateNext false]) = some w ∧
      (w.records.get? "approval").map (·.status) = some .invalidatedTimeout ∧
      step (sampleConfig true) w (.projectAnswer 0 ⟨.epochSecond 7, rfl⟩) = some w' ∧
      (w'.records.get? "approval").map (·.status) = some .approved ∧
      (w'.state.steps.get? "a").map (·.status) = some .cancelled := by
  have hrest : (Trace.run (step (sampleConfig true)) answeredWorld
      [.invalidate .invalidatedTimeout none ⟨.epochSecond 6, rfl⟩, .invalidateNext false,
        .invalidateNext false]).any (fun w => Decidable.decide
        ((w.records.get? "approval").map (·.status) = some .invalidatedTimeout) &&
          (step (sampleConfig true) w (.projectAnswer 0 ⟨.epochSecond 7, rfl⟩)).any fun w' =>
            Decidable.decide ((w'.records.get? "approval").map (·.status) = some .approved ∧
              (w'.state.steps.get? "a").map (·.status) = some .cancelled)) = true := by
    decide +kernel
  obtain ⟨w, hw, hend⟩ := Option.any_eq_true _ _ |>.mp hrest
  obtain ⟨htimeout, hlate⟩ := Bool.and_eq_true_iff.mp hend
  obtain ⟨w', hw', hstatus⟩ := exists_of_any hlate
  exact ⟨w, w', run_stored hw, of_decide_eq_true htimeout, hw', hstatus⟩

end ToolApprovalController

end LocalAgent.Runtime
