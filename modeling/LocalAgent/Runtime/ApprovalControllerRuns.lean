import LocalAgent.Runtime.ApprovalControllerSteps

/-!
# LocalAgent.Runtime.ApprovalControllerRuns — approvals over whole runs

A controller without a durable service: how the status of an approval moves, who gets an execution
claim, and when the journal and the record agree on a decision.

* `Granted`, `Agreed`: the invariants (`Granted.moved`, `Agreed.moved`).
* `local_approvals_sound`: they hold in every run, the second where publications end cleanly.
-/

namespace LocalAgent.Runtime

open Text (NonBlank)

namespace ToolApprovalController

variable {cfg : ApprovalConfig} {w w' : ApprovalWorld} {action : Action} {state : AgentState}

/-! ## The status of an approval -/

def StatusMove (a b : ApprovalStatus) : Prop :=
  b = a ∨ a = .pending ∧ (b = .approved ∨ b = .rejected) ∨ a = .approved ∧ b = .executionClaimed ∨
    (a = .pending ∨ a = .approved) ∧ b.IsInvalidated

theorem Withdrawn.isInvalidated {status : ApprovalStatus} (h : Withdrawn status) :
    status.IsInvalidated := by
  rcases h with rfl | rfl
  · exact .inl rfl
  · exact .inr (.inl rfl)

def isClaimOf (id : String) : ApprovalNote → Bool
  | .claimed other _ => other = id
  | _ => false

def isDecisionOf (id : String) : ApprovalNote → Bool
  | .journaled (.decided other status) => other = id ∧ (status = .approved ∨ status = .rejected)
  | _ => false

structure Granted (w : ApprovalWorld) : Prop where
  once : ∀ id, w.history.countP (isClaimOf id) ≤ 1
  claimed : ∀ id invocation, .claimed id invocation ∈ w.history →
    ∃ record, w.records.get? id = some record ∧ record.status = .executionClaimed ∧
      record.request.Matches invocation
  live : ∀ id record, w.records.get? id = some record → record.status ≠ .invalidatedRunTerminal

/-- The evidence of the decision is in the journal, and its publication is under way. -/
def DecidingOf (w : ApprovalWorld) (id : String) (decision : ApprovalDecisionValue) : Prop :=
  ∃ actorDigest decidedAt, w.lock = some (.publishing (.decided id decision.status) true
    (.decide id decision actorDigest decidedAt))

/-- The record has the decision, and is `REJECTED` for a rejection alone. -/
def DecidedOf (w : ApprovalWorld) (id : String) (decision : ApprovalDecisionValue) : Prop :=
  ∃ record made, w.records.get? id = some record ∧ record.status ≠ .pending ∧
    (record.status = .rejected ↔ decision = .reject) ∧
    record.decision = some made ∧ made.decision = decision

structure Agreed (w : ApprovalWorld) : Prop where
  once : ∀ id, w.history.countP (isDecisionOf id) ≤ 1
  journaled : ∀ id decision, .journaled (.decided id decision.status) ∈ w.history →
    DecidingOf w id decision ∨ DecidedOf w id decision
  published : ∀ id decision, .published (.decided id decision.status) ∈ w.history →
    DecidedOf w id decision

variable {note : ApprovalNote} {record : ApprovalRecord} {decision : ApprovalDecisionValue}
  {evidence : ApprovalEvidence} {old : ApprovalRecord} {key : String} {actorDigest : Option String}

variable {record' : ApprovalRecord} {id : String}

theorem get?_of_set {other : String} {record : ApprovalRecord}
    (hrecords : w'.records = w.records.set id record') (h : w.records.get? other = some record) :
    w'.records.get? other = some (if other = id then record' else record) := by
  rw [hrecords, Dict.get?_set]
  split_ifs
  · rfl
  · exact h

/-- One record was rewritten: its status has moved on and its request is the same. -/
theorem forward_of_set
    (hrecords : w'.records = w.records.set id record') (hfound : w.records.get? id = some old)
    (hrequest : record'.request = old.request) (hmove : StatusMove old.status record'.status) :
    ∀ other record, w.records.get? other = some record →
      ∃ after, w'.records.get? other = some after ∧ after.request = record.request ∧
        StatusMove record.status after.status := by
  intro _ _ hrecord
  refine ⟨_, get?_of_set hrecords hrecord, ?_⟩
  split_ifs with hid
  · subst hid
    cases hfound.symm.trans hrecord
    exact ⟨hrequest, hmove⟩
  · exact ⟨rfl, .inl rfl⟩

theorem Granted.unsettled (h : Granted w)
    (hfound : w.records.get? id = some record) (hunsettled : record.status.isSettled = false) :
    record.status = .pending ∨ record.status = .approved := by
  have hlive := h.live id record hfound
  revert hlive hunsettled
  cases record.status <;> simp [ApprovalStatus.isSettled]

/-- No step takes a record back. -/
theorem Moved.forward (h : Moved cfg w action w') (hplain : cfg.durable = false)
    (hw : Shape cfg w) (hg : Granted w) : ∀ id record, w.records.get? id = some record →
      ∃ after, w'.records.get? id = some after ∧ after.request = record.request ∧
        StatusMove record.status after.status := by
  cases h with
  | idle records | opened _ records | dropped _ records | lost _ records
  | appended _ _ _ records =>
    exact fun id record hrecord => ⟨record, records ▸ hrecord, rfl, .inl rfl⟩
  | registered _ _ _ fresh records =>
    intro _ _ hrecord
    refine ⟨_, get?_of_set records hrecord, ?_⟩
    rw [if_neg]
    · exact ⟨rfl, .inl rfl⟩
    · rintro rfl
      cases fresh.symm.trans hrecord
  | decided _ decision _ _ found pending records =>
    refine forward_of_set records found rfl (.inr (.inl ⟨pending, ?_⟩))
    cases decision.decision
    · exact .inl rfl
    · exact .inr rfl
  | claimed _ _ _ _ found approved _ records =>
    exact forward_of_set records found rfl (.inr (.inr (.inl ⟨approved, rfl⟩)))
  | lapsed _ _ _ _ found approved withdrawn records =>
    exact forward_of_set records found rfl
      (.inr (.inr (.inr ⟨.inr approved, withdrawn.isInvalidated⟩)))
  | invalidated _ _ _ _ _ _ found unsettled withdrawn _ records =>
    exact forward_of_set records found rfl
      (.inr (.inr (.inr ⟨hg.unsettled found unsettled, withdrawn.isInvalidated⟩)))
  | answered _ _ _ _ _ _ answered =>
    rw [(hw.plain hplain).1] at answered
    cases answered
  | observed _ _ _ _ _ entry =>
    rw [(hw.plain hplain).2.1] at entry
    cases entry
  | granted _ _ _ _ _ _ _ durable =>
    cases hplain.symm.trans durable

/-- What a step writes down of claims: nothing, or one of an approved record. -/
theorem Moved.added (h : Moved cfg w action w') (hplain : cfg.durable = false) (hw : Shape cfg w) :
    (∃ added, w'.history = w.history ++ added ∧
        ∀ note ∈ added, ∀ id invocation, note ≠ .claimed id invocation) ∨
      ∃ id record invocation, w.records.get? id = some record ∧ record.status = .approved ∧
        record.request.Matches invocation ∧
        w'.records = w.records.set id { record with status := .executionClaimed } ∧
        w'.history = w.history ++ [.claimed id invocation] := by
  have hneutral : ∀ {notes : List ApprovalNote}, (∀ note ∈ notes, Neutral note) →
      ∀ note ∈ notes, ∀ id invocation, note ≠ .claimed id invocation := by
    rintro notes hnotes note hnote id invocation rfl
    exact hnotes _ hnote
  cases h with
  | idle records history | opened _ records history | lapsed _ _ _ _ _ _ _ records history =>
    exact .inl ⟨[], history.trans (List.append_nil _).symm, nofun⟩
  | dropped notes _ history neutral | invalidated _ _ _ _ _ notes _ _ _ _ _ history neutral =>
    exact .inl ⟨notes, history, hneutral neutral⟩
  | lost notes _ history published =>
    refine .inl ⟨notes, history, fun note hnote id invocation heq => ?_⟩
    obtain ⟨evidence, rfl⟩ := published note hnote
    cases heq
  | appended _ _ _ _ history =>
    refine .inl ⟨_, history, fun note hnote id invocation heq => ?_⟩
    cases (List.mem_singleton.mp hnote).symm.trans heq
  | registered _ _ _ _ _ history neutral =>
    refine .inl ⟨_, history.trans (List.append_assoc _ _ _), fun note hnote => ?_⟩
    rcases mem_snoc hnote with hnote | hnote
    · exact hneutral neutral note hnote
    · rw [hnote]
      exact fun _ _ heq => nomatch heq
  | decided _ _ _ _ _ _ _ history =>
    refine .inl ⟨_, history, fun note hnote => ?_⟩
    rcases List.mem_cons.mp hnote with rfl | hnote
    · exact fun _ _ heq => nomatch heq
    · rw [List.mem_singleton.mp hnote]
      exact fun _ _ heq => nomatch heq
  | claimed id record invocation _ found approved matching records history =>
    exact .inr ⟨id, record, invocation, found, approved, matching, records, history⟩
  | answered _ _ _ _ _ _ answered =>
    rw [(hw.plain hplain).1] at answered
    cases answered
  | observed _ _ _ _ _ entry =>
    rw [(hw.plain hplain).2.1] at entry
    cases entry
  | granted _ _ _ _ _ _ _ durable =>
    cases hplain.symm.trans durable

theorem StatusMove.of_claimed {b : ApprovalStatus} (h : StatusMove .executionClaimed b) :
    b = .executionClaimed := by
  rcases h with h | ⟨h, -⟩ | ⟨h, -⟩ | ⟨h | h, -⟩
  · exact h
  all_goals exact nomatch h

theorem Moved.live (h : Moved cfg w action w') (hplain : cfg.durable = false) (hw : Shape cfg w)
    (hg : Granted w) :
    ∀ id record, w'.records.get? id = some record → record.status ≠ .invalidatedRunTerminal := by
  have hset : ∀ {key : String} {record' : ApprovalRecord},
      w'.records = w.records.set key record' → record'.status ≠ .invalidatedRunTerminal →
      ∀ id record, w'.records.get? id = some record → record.status ≠ .invalidatedRunTerminal := by
    intro _ _ hrecords hstatus id record hrecord
    rw [hrecords, Dict.get?_set] at hrecord
    split_ifs at hrecord
    · exact Option.some.inj hrecord ▸ hstatus
    · exact hg.live id record hrecord
  have hwithdrawn : ∀ {status : ApprovalStatus}, Withdrawn status →
      status ≠ .invalidatedRunTerminal := by
    rintro status (rfl | rfl) ⟨⟩
  cases h with
  | idle records | opened _ records | dropped _ records | lost _ records
  | appended _ _ _ records => exact fun id record hrecord => hg.live id record (records ▸ hrecord)
  | registered _ _ _ _ records | claimed _ _ _ _ _ _ _ records => exact hset records (by rintro ⟨⟩)
  | decided _ decision _ _ _ _ records =>
    refine hset records ?_
    cases decision.decision <;> rintro ⟨⟩
  | lapsed _ _ _ _ _ _ withdrawn records | invalidated _ _ _ _ _ _ _ _ withdrawn _ records =>
    exact hset records (hwithdrawn withdrawn)
  | answered _ _ _ _ _ _ answered =>
    rw [(hw.plain hplain).1] at answered
    cases answered
  | observed _ _ _ _ _ entry =>
    rw [(hw.plain hplain).2.1] at entry
    cases entry
  | granted _ _ _ _ _ _ _ durable =>
    cases hplain.symm.trans durable

/-- Claims are of approved records, and each approval is claimed once. -/
theorem Granted.moved (hg : Granted w) (h : Moved cfg w action w') (hplain : cfg.durable = false)
    (hw : Shape cfg w) : Granted w' := by
  -- a claimed record stays claimed
  have hkept : ∀ id invocation, .claimed id invocation ∈ w.history →
      ∃ record, w'.records.get? id = some record ∧ record.status = .executionClaimed ∧
        record.request.Matches invocation := by
    intro id invocation hmem
    obtain ⟨record, hrecord, hstatus, hmatch⟩ := hg.claimed id invocation hmem
    obtain ⟨after, hafter, hrequest, hmove⟩ := h.forward hplain hw hg id record hrecord
    refine ⟨after, hafter, ?_, hrequest ▸ hmatch⟩
    rw [hstatus] at hmove
    exact hmove.of_claimed
  refine ⟨fun id => ?_, fun id invocation hmem => ?_, h.live hplain hw hg⟩
  · rcases h.added hplain hw with ⟨added, hhistory, hnone⟩ |
      ⟨key, record, invocation, hfound, happroved, -, -, hhistory⟩
    · have hzero : added.countP (isClaimOf id) = 0 := by
        refine List.countP_eq_zero.mpr fun note hnote hclaim => ?_
        cases note with
        | claimed other invocation => exact hnone _ hnote other invocation rfl
        | _ => cases hclaim
      rw [hhistory, List.countP_append, hzero]
      exact hg.once id
    · rw [hhistory, List.countP_append, List.countP_singleton]
      split_ifs with hclaim
      · obtain rfl : key = id := of_decide_eq_true hclaim
        have hzero : w.history.countP (isClaimOf key) = 0 := by
          refine List.countP_eq_zero.mpr fun note hnote hclaim => ?_
          cases note with
          | claimed other invocation =>
            obtain rfl : other = key := of_decide_eq_true hclaim
            obtain ⟨_, hold, hstatus, -⟩ := hg.claimed other invocation hnote
            cases hfound.symm.trans hold
            cases happroved.symm.trans hstatus
          | _ => cases hclaim
        omega
      · exact hg.once id
  · rcases h.added hplain hw with ⟨_, hhistory, hnone⟩ |
      ⟨key, record, invocation', hfound, happroved, hmatch, hrecords, hhistory⟩
    · rw [hhistory] at hmem
      rcases List.mem_append.mp hmem with hmem | hmem
      · exact hkept id invocation hmem
      · exact absurd rfl (hnone _ hmem id invocation)
    · rw [hhistory] at hmem
      rcases mem_snoc hmem with hmem | hmem
      · exact hkept id invocation hmem
      · obtain ⟨rfl, rfl⟩ := ApprovalNote.claimed.inj hmem
        refine ⟨{ record with status := .executionClaimed }, ?_, rfl, hmatch⟩
        rw [hrecords, Dict.get?_set, if_pos rfl]

theorem not_decidingOf (h : ¬ Deciding w) (id : String) (decision : ApprovalDecisionValue) :
    ¬ DecidingOf w id decision := by
  rintro ⟨_, _, hlock⟩
  exact h ⟨_, _, _, _, _, hlock⟩

theorem neutral_ne_decision (h : Neutral note) (id : String)
    (decision : ApprovalDecisionValue) : note ≠ .journaled (.decided id decision.status) ∧
      note ≠ .published (.decided id decision.status) := by
  constructor
  · rintro rfl
    exact h
  · rintro rfl
    exact Withdrawn.ne_decision h decision rfl

theorem isDecisionOf_iff : isDecisionOf id note = true ↔
      ∃ decision : ApprovalDecisionValue, note = .journaled (.decided id decision.status) := by
  constructor
  · intro h
    cases note with
    | journaled evidence =>
      cases evidence with
      | decided =>
        obtain ⟨rfl, rfl | rfl⟩ := of_decide_eq_true h
        · exact ⟨.approve, rfl⟩
        · exact ⟨.reject, rfl⟩
      | requested => cases h
    | _ => cases h
  · rintro ⟨decision, rfl⟩
    cases decision <;> simp [isDecisionOf, ApprovalDecisionValue.status]

/-- Outside a decision, a step that writes down none keeps the agreement. -/
theorem Agreed.keep {added : List ApprovalNote} (ha : Agreed w) (hidle : ¬ Deciding w)
    (hhistory : w'.history = w.history ++ added) (hadded : ∀ note ∈ added, ∀ id decision,
      note ≠ .journaled (.decided id (ApprovalDecisionValue.status decision)) ∧
        note ≠ .published (.decided id (ApprovalDecisionValue.status decision)))
    (hrecords : ∀ id decision, DecidedOf w id decision → DecidedOf w' id decision) : Agreed w' := by
  refine ⟨fun id => ?_, fun id decision hmem => ?_, fun id decision hmem => ?_⟩
  · have hzero : added.countP (isDecisionOf id) = 0 := by
      refine List.countP_eq_zero.mpr fun note hnote hdecision => ?_
      obtain ⟨decision, rfl⟩ := isDecisionOf_iff.mp hdecision
      exact (hadded _ hnote id decision).1 rfl
    rw [hhistory, List.countP_append, hzero]
    exact ha.once id
  · rw [hhistory] at hmem
    rcases List.mem_append.mp hmem with hmem | hmem
    · rcases ha.journaled id decision hmem with hdeciding | hdecided
      · exact absurd hdeciding (not_decidingOf hidle id decision)
      · exact .inr (hrecords id decision hdecided)
    · exact absurd rfl (hadded _ hmem id decision).1
  · rw [hhistory] at hmem
    rcases List.mem_append.mp hmem with hmem | hmem
    · exact hrecords id decision (ha.published id decision hmem)
    · exact absurd rfl (hadded _ hmem id decision).2

theorem decidedOf_of_eq (hrecords : w'.records = w.records)
(h : DecidedOf w id decision) : DecidedOf w' id decision := by
  obtain ⟨record, made, hrecord, hrest⟩ := h
  exact ⟨record, made, hrecords ▸ hrecord, hrest⟩

theorem decidedOf_of_set
    (hrecords : w'.records = w.records.set key record') (hfound : w.records.get? key = some old)
    (hdecision : record'.decision = old.decision) (hrejected : old.status ≠ .rejected)
    (hpending' : record'.status ≠ .pending) (hrejected' : record'.status ≠ .rejected)
(h : DecidedOf w id decision) : DecidedOf w' id decision := by
  obtain ⟨_, made, hrecord, hpending, hreject, hmade⟩ := h
  refine ⟨_, made, get?_of_set hrecords hrecord, ?_⟩
  split_ifs with hid
  · subst hid
    cases hfound.symm.trans hrecord
    have hneither : record'.status = .rejected ↔ decision = .reject :=
      ⟨fun h => absurd h hrejected', fun h => absurd (hreject.mpr h) hrejected⟩
    exact ⟨hpending', hneither, hdecision ▸ hmade⟩
  · exact ⟨hpending, hreject, hmade⟩

theorem decidedOf_of_fresh
    (hrecords : w'.records = w.records.set key record') (hfresh : w.records.get? key = none)
(h : DecidedOf w id decision) : DecidedOf w' id decision := by
  obtain ⟨record, made, hrecord, hrest⟩ := h
  refine ⟨record, made, ?_, hrest⟩
  rw [get?_of_set hrecords hrecord, if_neg]
  rintro rfl
  cases hfresh.symm.trans hrecord

/-- The decision that is being published has reached the journal. -/
theorem Agreed.appended {next : Continuation} (ha : Agreed w)
    (hholder : HolderOk w.records (.publishing evidence false next))
    (hlock : w.lock = some (.publishing evidence false next)) (hrecords : w'.records = w.records)
    (hhistory : w'.history = w.history ++ [.journaled evidence])
    (hlock' : w'.lock = some (.publishing evidence true next)) : Agreed w' := by
  have hidle : ¬ Deciding w := by
    rintro ⟨_, _, _, _, _, hdeciding⟩
    have heq := Option.mem_unique hlock hdeciding
    exact nomatch (LockHolder.publishing.inj heq).2.1
  have hold : ∀ id decision, .journaled (.decided id decision.status) ∈ w.history →
      DecidedOf w id decision := fun id decision hmem =>
    (ha.journaled id decision hmem).resolve_left (not_decidingOf hidle id decision)
  -- the evidence of a decision is that of a pending record
  have hnew : ∀ id decision, evidence = .decided id (ApprovalDecisionValue.status decision) →
      DecidingOf w' id decision ∧ ∀ other, ¬ DecidedOf w id other := by
    rintro id decision rfl
    cases next with
    | request => cases hholder.1
    | invalidate =>
      obtain ⟨heq, hstatus, -⟩ := hholder
      exact absurd (ApprovalEvidence.decided.inj heq).2.symm (hstatus.ne_decision decision)
    | decide other _ actorDigest decidedAt =>
      obtain ⟨heq, _, hrecord, hpending⟩ := hholder
      obtain ⟨rfl, hstatus⟩ := ApprovalEvidence.decided.inj heq
      cases decision_status_injective hstatus
      refine ⟨⟨actorDigest, decidedAt, hlock'⟩, ?_⟩
      rintro other ⟨_, _, hrecord', hnot, -⟩
      cases hrecord.symm.trans hrecord'
      exact hnot hpending
  refine ⟨fun id => ?_, fun id decision hmem => ?_, fun id decision hmem => ?_⟩
  · rw [hhistory, List.countP_append, List.countP_singleton]
    split_ifs with hdecision
    · obtain ⟨decision, hnote⟩ := isDecisionOf_iff.mp hdecision
      have hfree := (hnew id decision (ApprovalNote.journaled.inj hnote)).2
      have hzero : w.history.countP (isDecisionOf id) = 0 := by
        refine List.countP_eq_zero.mpr fun note hmem hnote => ?_
        obtain ⟨other, rfl⟩ := isDecisionOf_iff.mp hnote
        exact hfree other (hold id other hmem)
      omega
    · exact ha.once id
  · rw [hhistory] at hmem
    rcases mem_snoc hmem with hmem | hmem
    · exact .inr (decidedOf_of_eq hrecords (hold id decision hmem))
    · have heq := ApprovalNote.journaled.inj hmem
      exact .inl (hnew id decision heq.symm).1
  · rw [hhistory] at hmem
    rcases mem_snoc hmem with hmem | hmem
    · exact decidedOf_of_eq hrecords (ha.published id decision hmem)
    · exact nomatch hmem

/-- The published decision reaches its record. -/
theorem Agreed.decided {made : ApprovalDecision} (ha : Agreed w)
    (hlock : w.lock = some (.publishing (.decided made.approvalId made.decision.status) true
      (.decide made.approvalId made.decision actorDigest made.decidedAt)))
    (hfound : w.records.get? made.approvalId = some record) (hpending : record.status = .pending)
    (hrecords : w'.records = w.records.set made.approvalId
      ⟨record.request, some made, made.decision.status⟩) (hhistory : w'.history = w.history ++
      [.published (.decided made.approvalId made.decision.status),
        .left made.approvalId made.decision]) : Agreed w' := by
  have hmade : DecidedOf w' made.approvalId made.decision := by
    refine ⟨⟨record.request, some made, made.decision.status⟩, made, ?_, ?_, ?_, rfl, rfl⟩
    · rw [hrecords, Dict.get?_set, if_pos rfl]
    · dsimp only
      cases made.decision <;> exact nofun
    · dsimp only
      cases made.decision <;> simp [ApprovalDecisionValue.status]
  have hold : ∀ id decision, DecidedOf w id decision → DecidedOf w' id decision := by
    rintro id decision ⟨other, made', hother, hnot, hrest⟩
    refine ⟨other, made', ?_, hnot, hrest⟩
    rw [get?_of_set hrecords hother, if_neg]
    rintro rfl
    cases hfound.symm.trans hother
    exact hnot hpending
  have hjournaled : ∀ id decision, .journaled (.decided id decision.status) ∈ w.history →
      DecidedOf w' id decision := by
    intro id decision hmem
    rcases ha.journaled id decision hmem with ⟨_, _, hdeciding⟩ | hdecided
    · have heq := Option.mem_unique hlock hdeciding
      obtain ⟨hid, hdecision, -⟩ := Continuation.decide.inj (LockHolder.publishing.inj heq).2.2
      exact hid ▸ hdecision ▸ hmade
    · exact hold id decision hdecided
  refine ⟨fun id => ?_, fun id decision hmem => ?_, fun id decision hmem => ?_⟩
  · rw [hhistory, List.countP_append]
    exact ha.once id
  · rw [hhistory] at hmem
    rcases List.mem_append.mp hmem with hmem | hmem
    · exact .inr (hjournaled id decision hmem)
    · simp at hmem
  · rw [hhistory] at hmem
    rcases List.mem_append.mp hmem with hmem | hmem
    · exact hold id decision (ha.published id decision hmem)
    · have heq : (.published (.decided id decision.status) : ApprovalNote) =
          .published (.decided made.approvalId made.decision.status) := by simpa using hmem
      obtain ⟨rfl, hstatus⟩ := ApprovalEvidence.decided.inj (ApprovalNote.published.inj heq)
      cases decision_status_injective hstatus
      exact hmade

/-- Journal, records and state agree on every decision, after every step that is clean. -/
theorem Agreed.moved (ha : Agreed w) (h : Moved cfg w action w') (hplain : cfg.durable = false)
    (hw : Shape cfg w) (hclean : Clean w action) : Agreed w' := by
  have hneutral : ∀ {notes : List ApprovalNote}, (∀ note ∈ notes, Neutral note) →
      ∀ note ∈ notes, ∀ id decision,
        note ≠ .journaled (.decided id (ApprovalDecisionValue.status decision)) ∧
          note ≠ .published (.decided id (ApprovalDecisionValue.status decision)) :=
    fun hnotes note hnote id decision => neutral_ne_decision (hnotes note hnote) id decision
  cases h with
  | idle records history lock =>
    refine ⟨fun id => history ▸ ha.once id, fun id decision hmem => ?_, fun id decision hmem => ?_⟩
    · rcases ha.journaled id decision (history ▸ hmem) with ⟨digest, decidedAt, hdeciding⟩ | hdecided
      · exact .inl ⟨digest, decidedAt, lock.trans hdeciding⟩
      · exact .inr (decidedOf_of_eq records hdecided)
    · exact decidedOf_of_eq records (ha.published id decision (history ▸ hmem))
  | opened _ records history _ _ idle =>
    exact ha.keep idle (history.trans (List.append_nil _).symm) nofun
      fun _ _ => decidedOf_of_eq records
  | dropped _ records history neutral _ _ idle =>
    exact ha.keep idle history (hneutral neutral) fun _ _ => decidedOf_of_eq records
  | lost _ _ _ _ _ _ unclean => exact absurd hclean unclean
  | appended _ _ before records history lock =>
    exact ha.appended (hw.holder _ before) before records history lock
  | registered _ _ _ fresh records history neutral _ idle =>
    refine ha.keep idle (history.trans (List.append_assoc _ _ _)) (fun note hnote => ?_)
      fun _ _ => decidedOf_of_fresh records fresh
    rcases mem_snoc hnote with hnote | hnote
    · exact hneutral neutral note hnote
    · rw [hnote]
      exact fun _ _ => ⟨(fun heq => nomatch heq), (fun heq => nomatch heq)⟩
  | decided _ _ _ before found pending records history =>
    exact ha.decided before found pending records history
  | claimed _ _ _ _ found approved _ records history before =>
    refine ha.keep (not_deciding_of_none before) history (fun note hnote => ?_)
      fun _ _ => decidedOf_of_set records found rfl (approved ▸ nofun) nofun nofun
    rw [List.mem_singleton.mp hnote]
    exact fun _ _ => ⟨(fun heq => nomatch heq), (fun heq => nomatch heq)⟩
  | lapsed _ _ _ _ found approved withdrawn records history before =>
    refine ha.keep (not_deciding_of_none before) (history.trans (List.append_nil _).symm) nofun
      fun _ _ => decidedOf_of_set records found rfl (approved ▸ nofun) ?_ ?_
    all_goals rcases withdrawn with rfl | rfl <;> exact nofun
  | invalidated _ record _ _ _ _ found unsettled withdrawn _ records history neutral _ idle =>
    have hopen : record.status ≠ .rejected := by
      intro heq
      rw [heq] at unsettled
      cases unsettled
    refine ha.keep idle history (hneutral neutral) fun _ _ =>
      decidedOf_of_set records found rfl hopen ?_ ?_
    all_goals rcases withdrawn with rfl | rfl <;> exact nofun
  | answered _ _ _ _ _ _ answered =>
    rw [(hw.plain hplain).1] at answered
    cases answered
  | observed _ _ _ _ _ entry =>
    rw [(hw.plain hplain).2.1] at entry
    cases entry
  | granted _ _ _ _ _ _ _ durable =>
    cases hplain.symm.trans durable

/-- The step `a` asks for approvals, and `b` is ready. -/
def sampleState : AgentState :=
  ⟨"run", agentStateSchemaVersion, .running, .epochSecond 1, .epochSecond 3,
    (Dict.empty.set "a"
        ⟨"a", "step", .running, .epochSecond 2, some (.epochSecond 3), none, none, none⟩).set "b"
      ⟨"b", "step", .pending, .epochSecond 2, none, none, none, none⟩,
    {"a"}, none, none, none, none⟩

theorem sampleState_valid : sampleState.Valid :=
  AgentState.validate_eq_ok_iff.mp (by decide +kernel)

def sampleConfig (durable : Bool) : ApprovalConfig where
  runId := ⟨"run", rfl⟩
  durable := durable
  lease := some ⟨"run", "worker", 100, 1, 2⟩

def sampleInvocation : ToolInvocation where
  invocationId := "invocation"
  toolName := "tool"
  argumentsDigest := DurableApprovalService.sampleDigest.text
  idempotencyKey := none
  resourceKey := none
  invocationId_text := rfl
  toolName_text := rfl
  idempotencyKey_text := ToolInvocation.none_text
  resourceKey_text := ToolInvocation.none_text

/-- The request of the step `a`. -/
def sampleRequest : Action :=
  .request ⟨"a", sampleInvocation, "tool", none, []⟩ ⟨"approval", rfl⟩ false
    (.epochSecond 4) (.epochSecond 4)

theorem isSome_sampleRequest :
    (step (sampleConfig false) (start sampleState) sampleRequest).isSome = true := by
  decide +kernel

def requestedWorld : ApprovalWorld :=
  (step (sampleConfig false) (start sampleState) sampleRequest).get isSome_sampleRequest

theorem isSome_requestedRecord : (lookup requestedWorld "approval").isSome = true := by
  decide +kernel

def requestedRecord : ApprovalRecord := (lookup requestedWorld "approval").get isSome_requestedRecord

/-- The approval, with the digest of its request. -/
def sampleDecide : Action :=
  .decide "run" "approval" requestedRecord.request.invocationBindingDigest.text .approve none none
    true (.epochSecond 5)

def sampleEnd : Action := .endPublication .returned (.epochSecond 7)

/-- A request is approved, and its execution is claimed. -/
def sampleApproval : List Action :=
  [sampleRequest, sampleDecide, .append, sampleEnd, .claim "approval" sampleInvocation none]

end ToolApprovalController

end LocalAgent.Runtime
