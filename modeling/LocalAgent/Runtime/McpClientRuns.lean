import LocalAgent.Runtime.McpClientSteps

/-!
# LocalAgent.Runtime.McpClientRuns — how the requests of a session end

* `Kept`, `kept_step`: no step takes an outcome, a break or a close back.
* `EndsBy`, `endsBy_lastSteps`: a request's own steps end it.
* `requests_served`: every request ends once, with what is its own.
* `requests_not_served`: texts that cannot be written, pages after `close`, a pipe that is full.
-/

namespace LocalAgent.Runtime

namespace McpClient

variable {s s' : McpClient} {id : ℕ} {error : McpError}

/-! ## What no step takes back -/

/-- The outcomes of the requests stay, and the session stays broken and closed. -/
structure Kept (s s' : McpClient) : Prop where
  outcome : ∀ id isCall outcome, s.tasks.get? id = some ⟨isCall, .ended outcome⟩ →
    s'.tasks.get? id = some ⟨isCall, .ended outcome⟩
  broken : ∀ error, s.broken = some error → s'.broken = some error
  closed : s.closed = true → s'.closed = true

theorem Kept.refl (s : McpClient) : Kept s s := ⟨fun _ _ _ h => h, fun _ h => h, fun h => h⟩

theorem Kept.trans {s₁ s₂ s₃ : McpClient} (h : Kept s₁ s₂) (h' : Kept s₂ s₃) : Kept s₁ s₃ where
  outcome id isCall outcome ho := h'.outcome id isCall outcome (h.outcome id isCall outcome ho)
  broken error he := h'.broken error (h.broken error he)
  closed hc := h'.closed (h.closed hc)

theorem kept_failPending : Kept s (s.failPending error) :=
  ⟨fun _ _ _ h => h, fun _ h => h, fun h => h⟩

theorem kept_breakWith : Kept s (s.breakWith error) := by
  unfold breakWith
  split
  · exact Kept.refl s
  · rename_i hb
    exact ⟨fun _ _ _ h => h, fun _ he => (nomatch hb.symm.trans he), fun h => h⟩

theorem kept_send (message : McpMessage) (write : McpWrite) :
    Kept s (s.send message write).1 ∧ (s.send message write).1.tasks = s.tasks := by
  unfold send
  split_ifs
  · exact ⟨Kept.refl s, rfl⟩
  · split
    · exact ⟨Kept.refl s, rfl⟩
    · split_ifs
      · exact ⟨Kept.refl s, rfl⟩
      · exact ⟨Kept.refl s, rfl⟩
      · cases write with
        | taken | waits => exact ⟨Kept.refl s, rfl⟩
        | fails => exact ⟨kept_breakWith, tasks_breakWith⟩

variable {isCall : Bool} {write : McpWrite}

theorem kept_setPhase {phase : McpPhase} (h : Kept s s') (htasks : s'.tasks = s.tasks)
    (hid : ∀ isCall outcome, s.tasks.get? id ≠ some ⟨isCall, .ended outcome⟩) :
    Kept s (s'.setPhase id isCall phase) where
  outcome j isCall' outcome ho := by
    unfold setPhase
    rw [Dict.get?_set, if_neg, htasks]
    · exact ho
    · rintro rfl
      exact hid isCall' outcome ho
  broken := h.broken
  closed := h.closed

theorem kept_start {request : McpRequest} (h : s.Sound) : Kept s (s.start request write) := by
  unfold start
  split
  · exact ⟨fun _ _ _ h => h, fun _ h => h, fun h => h⟩
  · have hregister : Kept s s.register := ⟨fun _ _ _ h => h, fun _ h => h, fun h => h⟩
    obtain ⟨hkept, htasks⟩ := kept_send (s := s.register)
      (.request (s.nextId + 1) request) write
    refine kept_setPhase (hregister.trans hkept) htasks fun isCall outcome ht => ?_
    cases ht.symm.trans (h.bound (s.nextId + 1) (by omega))

variable {task : McpTask}

section

variable (ht : s.tasks.get? id = some task)
include ht

theorem not_ended (hphase : ∀ o, task.phase ≠ .ended o) :
    ∀ isCall outcome, s.tasks.get? id ≠ some ⟨isCall, .ended outcome⟩ := by
  intro _ outcome hc
  cases ht.symm.trans hc
  exact hphase outcome rfl

theorem kept_drained {fails : Bool} (hs : s.drained id task fails = some s') : Kept s s' := by
  have hkept : Kept s (if fails then s.breakWith (closedError "stdin_write_failed") else s) ∧
      (if fails then s.breakWith (closedError "stdin_write_failed") else s).tasks = s.tasks := by
    split
    · exact ⟨kept_breakWith, tasks_breakWith⟩
    · exact ⟨Kept.refl s, rfl⟩
  obtain ⟨_, phase⟩ := task
  cases phase with
  | draining | notifying =>
    cases hs
    exact kept_setPhase hkept.1 hkept.2 (not_ended ht fun _ h => nomatch h)
  | waiting | ended => cases hs

theorem kept_resume (hs : s.resume id task = some s') : Kept s s' := by
  unfold resume at hs
  split at hs
  · rename_i hphase _
    cases hs
    exact kept_setPhase (Kept.refl s) rfl (not_ended ht fun _ h => nomatch hphase.symm.trans h)
  · rename_i hphase _
    cases hs
    exact kept_setPhase (Kept.refl s) rfl (not_ended ht fun _ h => nomatch hphase.symm.trans h)
  · cases hs

end

theorem kept_quit : Kept s ((s.cancelFuture id).popPending id) :=
  ⟨fun _ _ _ h => h, fun _ h => h, fun h => h⟩

theorem kept_popPending : Kept s (s.popPending id) :=
  ⟨fun _ _ _ h => h, fun _ h => h, fun h => h⟩

theorem kept_timeOut (ht : s.tasks.get? id = some task) (hs : s.timeOut id task = some s') :
    Kept s s' := by
  obtain ⟨_, phase⟩ := task
  cases phase with
  | waiting =>
    cases hs
    exact kept_setPhase (kept_quit.trans kept_breakWith) tasks_breakWith
      (not_ended ht fun _ h => nomatch h)
  | draining | notifying | ended => cases hs

theorem kept_notifyCancelled {t : McpClient} (h : Kept s t) (htasks : t.tasks = s.tasks)
    (hid : ∀ isCall outcome, s.tasks.get? id ≠ some ⟨isCall, .ended outcome⟩) :
    Kept s (t.notifyCancelled id task write) := by
  unfold notifyCancelled
  split
  · obtain ⟨hkept, hsend⟩ := kept_send (s := t) (.cancelled id) write
    exact kept_setPhase (h.trans hkept) (hsend.trans htasks) hid
  · exact kept_setPhase h htasks hid

theorem kept_cancelTask (ht : s.tasks.get? id = some task)
    (hs : s.cancelTask id task write = some s') : Kept s s' := by
  obtain ⟨_, phase⟩ := task
  cases phase with
  | draining =>
    cases hs
    exact kept_notifyCancelled kept_popPending rfl (not_ended ht fun _ h => nomatch h)
  | waiting =>
    cases hs
    exact kept_notifyCancelled kept_quit rfl (not_ended ht fun _ h => nomatch h)
  | notifying =>
    cases hs
    exact kept_setPhase (Kept.refl s) rfl (not_ended ht fun _ h => nomatch h)
  | ended => cases hs

/-- A line from the server answers its own request and no other. -/
theorem kept_handleLine {line : Option Json} : Kept s (s.handleLine line) := by
  unfold handleLine
  split
  · exact Kept.refl s
  · split
    · exact kept_breakWith
    · split
      · exact Kept.refl s
      · split
        · split
          · split
            · exact ⟨fun _ _ _ h => h, fun _ h => h, fun h => h⟩
            · exact kept_popPending
          · exact Kept.refl s
        · exact Kept.refl s
    · exact kept_breakWith

variable {a : McpAction} {acts : List McpAction}

/-- What was answered stays, and every request keeps its task. -/
theorem kept_step (h : s.Sound) (hs : s.step a = some s') : Kept s s' := by
  cases a with
  | start =>
    cases hs
    exact kept_start h
  | drained =>
    obtain ⟨task, ht, hs⟩ := Option.bind_eq_some_iff.mp hs
    exact kept_drained ht hs
  | resume =>
    obtain ⟨task, ht, hs⟩ := Option.bind_eq_some_iff.mp hs
    exact kept_resume ht hs
  | timeOut =>
    obtain ⟨task, ht, hs⟩ := Option.bind_eq_some_iff.mp hs
    exact kept_timeOut ht hs
  | cancelTask =>
    obtain ⟨_, ht, hs⟩ := Option.bind_eq_some_iff.mp hs
    exact kept_cancelTask ht hs
  | line =>
    cases hs
    exact kept_handleLine
  | stdoutClosed =>
    cases hs
    have hbroken : Kept s (if s.closed then s else s.breakWith (closedError "stdout_closed")) := by
      split
      · exact Kept.refl s
      · exact kept_breakWith
    exact hbroken.trans kept_failPending
  | stdoutFailed =>
    cases hs
    exact kept_breakWith.trans kept_failPending
  | readerStopped =>
    have hs : (if s.closed then some (s.failPending (closedError "stdout_closed")) else none) =
        some s' := hs
    split at hs
    · cases hs
      exact kept_failPending
    · cases hs
  | processExited | respondFailed =>
    cases hs
    split
    · exact kept_breakWith
    · exact Kept.refl s
  | close =>
    cases hs
    split
    · exact Kept.refl s
    · exact ⟨fun _ _ _ h => h, fun _ h => h, fun _ => rfl⟩

/-! ## No request waits for ever -/

def EndsBy (s : McpClient) (id : ℕ) (acts : List McpAction) : Prop :=
  ∃ s' isCall outcome, Trace.run step s acts = some s' ∧
    s'.tasks.get? id = some ⟨isCall, .ended outcome⟩

/-- What ends a request from where it is: after the pipe's drain, the return of its wait in a
session that is over, and its time in one that is not. -/
def lastSteps (id : ℕ) (isOver : Bool) : McpPhase → List McpAction
  | .draining => [.drained id false, if isOver then .resume id else .timeOut id]
  | .waiting => [if isOver then .resume id else .timeOut id]
  | .notifying => [.drained id false]
  | .ended _ => []

theorem endsBy_of_step {outcome : McpOutcome}
    (h : s.step a = some (s'.setPhase id isCall (.ended outcome))) : s.EndsBy id [a] :=
  ⟨_, isCall, outcome, Trace.run_cons.mpr ⟨_, h, rfl⟩, tasks_setPhase_self⟩

theorem Sound.wait (h : s.Sound) (ht : s.tasks.get? id = some ⟨isCall, .waiting⟩) :
    ∃ f, s.futures.get? id = some f ∧
      (f = .unresolved ∧ id ∈ s.pending ∨ f.ready = true ∧ id ∉ s.pending) := by
  have hslot := h.slots id
  unfold Slot at hslot
  rw [ht] at hslot
  obtain ⟨f, hf, _, hphase⟩ := hslot
  exact ⟨f, hf, hphase⟩

theorem endsBy_waiting (h : s.Sound) (ht : s.tasks.get? id = some ⟨isCall, .waiting⟩) :
    s.EndsBy id [if s.isOver then .resume id else .timeOut id] := by
  cases hover : s.isOver with
  | false => exact endsBy_of_step (Option.bind_eq_some_iff.mpr ⟨_, ht, rfl⟩)
  | true =>
    obtain ⟨f, hf, hwait⟩ := h.wait ht
    have hready : f.ready = true := by
      refine (hwait.resolve_left fun hu => ?_).1
      rw [h.settled hover] at hu
      exact List.not_mem_nil hu.2
    cases f with
    | unresolved | cancelled => cases hready
    | result | exception =>
      exact endsBy_of_step (Option.bind_eq_some_iff.mpr ⟨_, ht, by rw [resume, hf]⟩)

/-- From every phase a request comes to its end by steps of its own. -/
theorem endsBy_lastSteps (h : s.Sound) (ht : s.tasks.get? id = some task) :
    s.EndsBy id (lastSteps id s.isOver task.phase) := by
  obtain ⟨isCall, phase⟩ := task
  cases phase with
  | draining =>
    have hstep : s.step (.drained id false) = some (s.setPhase id isCall .waiting) :=
      Option.bind_eq_some_iff.mpr ⟨_, ht, rfl⟩
    have hwait := sound_step (a := .drained id false) trivial hstep h
    obtain ⟨s', isCall', outcome, hrun, hend⟩ := endsBy_waiting hwait tasks_setPhase_self
    exact ⟨s', isCall', outcome, Trace.run_cons.mpr ⟨_, hstep, hrun⟩, hend⟩
  | waiting => exact endsBy_waiting h ht
  | notifying => exact endsBy_of_step (Option.bind_eq_some_iff.mpr ⟨_, ht, rfl⟩)
  | ended outcome => exact ⟨s, isCall, outcome, rfl, ht⟩

/-! ## Runs -/

/-- What a session owes its requests. -/
structure Served (s : McpClient) : Prop where
  /-- A request that has ended has its own answer, a boundary error or its task's cancellation,
  and is not in the table. -/
  outcome : ∀ id isCall outcome, s.tasks.get? id = some ⟨isCall, .ended outcome⟩ →
    outcome.Own id ∧ id ∉ s.pending
  ends : ∀ id task, s.tasks.get? id = some task → s.EndsBy id (lastSteps id s.isOver task.phase)
  answer : ∀ id message, s.futures.get? id = some (.result message) →
    answerKey message = some (id : ℤ)
  /-- A session that is over has an empty table, and no request waits on an unresolved future. -/
  settled : s.isOver = true → s.pending = [] ∧
    ∀ id isCall, s.tasks.get? id = some ⟨isCall, .waiting⟩ ∨
      s.tasks.get? id = some ⟨isCall, .draining⟩ →
      ∃ f, s.futures.get? id = some f ∧ f.ready = true

/-- What every state says of its requests. -/
theorem Sound.served (h : s.Sound) : s.Served where
  outcome id isCall outcome ht := by
    have hslot := h.slots id
    unfold Slot at hslot
    rw [ht] at hslot
    obtain ⟨_, _, _, hphase⟩ := hslot
    exact hphase
  ends id task ht := endsBy_lastSteps h ht
  answer id message hf := by
    have hslot := h.slots id
    unfold Slot at hslot
    cases ht : s.tasks.get? id with
    | none => cases hf.symm.trans (h.slot_none ht).1
    | some =>
      rw [ht, hf] at hslot
      obtain ⟨f, hfuture, hown, _⟩ := hslot
      cases hfuture
      exact hown
  settled hover := by
    refine ⟨h.settled hover, fun id isCall ht => ?_⟩
    have hslot := h.slots id
    unfold Slot at hslot
    rw [h.settled hover] at hslot
    rcases ht with ht | ht <;>
    · rw [ht] at hslot
      obtain ⟨f, hf, _, hphase⟩ := hslot
      exact ⟨f, hf, (hphase.resolve_left fun hu => List.not_mem_nil hu.2).1⟩

theorem sound_run (hm : Trace.Along step Meets s acts)
    (hrun : Trace.run step s acts = some s') (h : s.Sound) : s'.Sound :=
  Trace.run_keeps (fun _ _ _ hm hs h => sound_step hm hs h) hm hrun h

theorem kept_run (hm : Trace.Along step Meets s acts)
    (hrun : Trace.run step s acts = some s') (h : s.Sound) : Kept s s' := by
  refine (Trace.run_keeps (P := fun t => t.Sound ∧ Kept s t) (fun t a t' hm hs h => ?_) hm hrun
    ⟨h, Kept.refl s⟩).2
  exact ⟨sound_step hm hs h.1, h.2.trans (kept_step h.1 hs)⟩

/-- **Every request ends once, with what is its own**: as long as each request that passes its
checks can be written and comes before `close`, and nothing takes an outcome, the break of the
session or its close back. -/
theorem requests_served {acts later : List McpAction}
    (hm : Trace.Along step Meets initialized (acts ++ later))
    (hrun : Trace.run step initialized acts = some s)
    (hlater : Trace.run step s later = some s') : s.Served ∧ Kept s s' := by
  rw [Trace.along_append hrun] at hm
  have h := sound_run hm.1 hrun sound_initialized
  exact ⟨h.served, kept_run hm.2 hlater h⟩

instance decidableMeets (s : McpClient) : ∀ a, Decidable (s.Meets a)
  | .start request _ =>
    inferInstanceAs (Decidable (s.refusal request = none →
      request.writable = true ∧ s.closed = false))
  | .drained _ _ | .resume _ | .timeOut _ | .cancelTask _ _ | .line _ | .stdoutClosed
  | .stdoutFailed | .readerStopped | .processExited | .respondFailed | .close => isTrue trivial

/-- The answer to a request, with an empty result. -/
def sampleAnswer (id : ℤ) : Json :=
  .obj [("jsonrpc", .str "2.0"), ("id", .int id), ("result", .obj [])]

/-- Two calls that are answered the other way round, and the break of the pipe under a third. -/
def sampleRequests : List McpAction :=
  [.start (.callTool [233] [([97], .integer (-7)), ([98], .text [10, 34])]) .taken,
    .start (.callTool [97] []) .waits, .line (some (sampleAnswer 3)), .drained 3 false,
    .resume 3, .line (some (sampleAnswer 2)), .resume 2]

def sampleBreak : List McpAction :=
  [.start (.listTools none) .fails, .processExited, .close]

/-- The request has ended with an answer. -/
def answered (s : McpClient) (id : ℕ) : Bool :=
  match s.tasks.get? id with
  | some ⟨_, .ended (.answered _ _)⟩ => true
  | _ => false

theorem requests_served_sample :
    ∃ s, Trace.run step initialized sampleRequests = some s ∧
      (s.answered 2 && s.answered 3) = true ∧
      ∃ s', Trace.run step s sampleBreak = some s' ∧ s'.closed = true ∧
        s.Served ∧ Kept s s' := by
  have hrun : ((Trace.run step initialized sampleRequests).any fun s =>
      s.answered 2 && s.answered 3 &&
        (Trace.run step s sampleBreak).any fun s' => s'.closed) = true := by
    decide +kernel
  obtain ⟨s, hs, hrun⟩ := (Option.any_eq_true _ _).mp hrun
  obtain ⟨hanswered, hrun⟩ := Bool.and_eq_true_iff.mp hrun
  obtain ⟨s', hs', hclosed⟩ := (Option.any_eq_true _ _).mp hrun
  have hm : Trace.Along step Meets initialized (sampleRequests ++ sampleBreak) := by
    decide +kernel
  exact ⟨s, hs, hanswered, s', hs', hclosed, requests_served hm hs hs'⟩

/-! ## Where the condition fails -/

/-- The request has ended with an exception that is no boundary error. -/
def untypedAt (s : McpClient) (id : ℕ) : Bool :=
  match s.tasks.get? id with
  | some ⟨_, .ended (.untyped _)⟩ => true
  | _ => false

theorem not_served_of_untypedAt (h : s.untypedAt id = true) : ¬s.Served := by
  intro hs
  unfold untypedAt at h
  split at h
  · rename_i ht
    exact (hs.outcome _ _ _ ht).1
  · cases h

theorem not_served_of_pending (hover : s.isOver = true) (hp : id ∈ s.pending) : ¬s.Served := by
  intro hs
  rw [(hs.settled hover).1] at hp
  exact List.not_mem_nil hp

/-- The request is in the drain of its message. -/
def drainingAt (s : McpClient) (id : ℕ) : Bool :=
  match s.tasks.get? id with
  | some ⟨_, .draining⟩ => true
  | _ => false

/-- A lone surrogate in a tool's name or an integer of 4301 digits ends a call with an exception
that is no boundary error, and its id stays; a page asked for after `close` stays in the table of a
closed session; a broken session with a full pipe has a request that neither returns nor runs out
of time. -/
theorem requests_not_served :
    (∃ s, Trace.run step initialized [.start (.callTool [55296] []) .taken] = some s ∧
      s.untypedAt 2 = true ∧ 2 ∈ s.pending ∧ ¬s.Served) ∧
    (∃ s, Trace.run step initialized
        [.start (.callTool [97] [([98], .integer (10 ^ maxStrDigits))]) .taken] = some s ∧
      s.untypedAt 2 = true ∧ 2 ∈ s.pending ∧ ¬s.Served) ∧
    (∃ s, Trace.run step initialized [.close, .start (.listTools none) .taken] = some s ∧
      s.closed = true ∧ 2 ∈ s.pending ∧ ¬s.Served) ∧
    ∃ s, Trace.run step initialized [.start (.callTool [97] []) .waits, .line none] = some s ∧
      s.isOver = true ∧ s.drainingAt 2 = true ∧
      (step s (.resume 2)).isNone = true ∧ (step s (.timeOut 2)).isNone = true := by
  have hsurrogate : ((Trace.run step initialized
      [.start (.callTool [55296] []) .taken]).any fun s =>
        s.untypedAt 2 && decide (2 ∈ s.pending)) = true := by
    decide +kernel
  have hlong : ((Trace.run step initialized
      [.start (.callTool [97] [([98], .integer (10 ^ maxStrDigits))]) .taken]).any fun s =>
        s.untypedAt 2 && decide (2 ∈ s.pending)) = true := by
    decide +kernel
  have hpage : ((Trace.run step initialized
      [.close, .start (.listTools none) .taken]).any fun s =>
        s.closed && decide (2 ∈ s.pending)) = true := by
    decide +kernel
  have hdrain : ((Trace.run step initialized
      [.start (.callTool [97] []) .waits, .line none]).any fun s =>
        s.isOver && s.drainingAt 2 && (step s (.resume 2)).isNone &&
          (step s (.timeOut 2)).isNone) = true := by
    decide +kernel
  refine ⟨?_, ?_, ?_, ?_⟩
  · obtain ⟨s, hs, hbad⟩ := (Option.any_eq_true _ _).mp hsurrogate
    obtain ⟨huntyped, hp⟩ := Bool.and_eq_true_iff.mp hbad
    exact ⟨s, hs, huntyped, of_decide_eq_true hp, not_served_of_untypedAt huntyped⟩
  · obtain ⟨s, hs, hbad⟩ := (Option.any_eq_true _ _).mp hlong
    obtain ⟨huntyped, hp⟩ := Bool.and_eq_true_iff.mp hbad
    exact ⟨s, hs, huntyped, of_decide_eq_true hp, not_served_of_untypedAt huntyped⟩
  · obtain ⟨s, hs, hbad⟩ := (Option.any_eq_true _ _).mp hpage
    obtain ⟨hclosed, hp⟩ := Bool.and_eq_true_iff.mp hbad
    have hover : s.isOver = true := by rw [isOver, hclosed, Bool.or_true]
    exact ⟨s, hs, hclosed, of_decide_eq_true hp,
      not_served_of_pending hover (of_decide_eq_true hp)⟩
  · obtain ⟨s, hs, hbad⟩ := (Option.any_eq_true _ _).mp hdrain
    simp only [Bool.and_eq_true] at hbad
    obtain ⟨⟨⟨hover, hdraining⟩, hresume⟩, htime⟩ := hbad
    exact ⟨s, hs, hover, hdraining, hresume, htime⟩

end McpClient

end LocalAgent.Runtime
