import LocalAgent.Runtime.OutputGate

/-!
# LocalAgent.Runtime.OutputGateRuns — every interleaving of the calls on an output gate

* `Acts`: what a call on the gate, or the surroundings of the gate, may do in one step; every call
  relies on the others doing nothing else.
* `Calm`: while a call publishes, no text of the sink is under way, everything in the journal has
  been counted and is the content, and no publication breaks off after its append in a way the gate
  takes for a failure before it.
* `delivery_sound`: along calm steps the text in the journal is the content when `DELIVERED` is
  reported, and there is none when `FAILED` is.
-/

namespace LocalAgent.Runtime

def GateEvent.Sound : GateEvent → Prop
  | .entered _ => True
  | .reported _ attempt content journal =>
    (attempt.deliveryStatus = .delivered → String.join journal = content) ∧
      (attempt.deliveryStatus = .failed → journal = [])

def GateEvent.isEntered : GateEvent → Bool
  | .entered _ => true
  | .reported .. => false

namespace OutputGate

open Coroutine

variable (cfg : GateConfig)

/-- What holds between any two steps. -/
structure Inv (w : GateWorld) : Prop where
  /-- without a streamed text only the publishing call writes to the journal -/
  unstreamed : w.streamStepId = none → w.accepting = [] ∧ (w.publisher = none → w.journal = [])
  source : ∀ stepId ∈ w.streamStepId, stepId = cfg.finalStep.stepId
  counted : w.streamedCharCount = w.streamed.length
  fresh : w.state = .notStarted → w.publisher = none ∧ w.history.countP GateEvent.isEntered = 0
  once : w.history.countP GateEvent.isEntered ≤ 1
  sound : ∀ event ∈ w.history, event.Sound

/-- What one step of the call `who` may do; `none` stands for the surroundings of the gate. -/
structure Acts (who : Option ℕ) (w w' : GateWorld) : Prop where
  publisher : w.state ≠ .notStarted → w'.publisher = w.publisher
  state : w.state ≠ .notStarted → w'.state = w.state ∨
    ∃ call content, who = some call ∧ w.publisher = some (call, content)
  journal : w'.journal = w.journal ∨ ∃ call, who = some call ∧
    (call ∈ w.accepting ∨ ∃ content, w.publisher = some (call, content))
  stream : w.state ≠ .notStarted → w'.streamStepId = w.streamStepId
  others : ∀ call, who ≠ some call → call ∈ w.accepting → call ∈ w'.accepting
  admits : w.state ≠ .notStarted → ∀ call ∈ w'.accepting, call ∈ w.accepting
  keeps : Inv cfg w → Inv cfg w'

/-- The condition on a step that is taken while a call publishes. -/
def Calm (w : GateWorld) (i : GateInput) : Prop := w.state = .publishing →
  w.accepting = [] ∧
  (w.streamStepId ≠ none → String.join w.journal = w.streamed ∧
    (w.journal = [] ∨ w.publisher.map Prod.snd = some w.streamed)) ∧
  (w.journal = [] → w.receipt = none) ∧
  i.afterAppend ≠ some .channelClosed ∧ i.afterAppend ≠ some .runtime ∧
  (i.afterAppend = some .runCancelled → cfg.hasLoopContext = true)
  deriving Decidable

def contract (call : ℕ) : Contract GateInput GateWorld where
  rely := fun w w' => ∃ who, who ≠ some call ∧ Acts cfg who w w'
  guar := Acts cfg (some call)
  allows := Calm cfg

variable {cfg}
variable {call : ℕ} {content text : String} {w w' : GateWorld}

/-! ## Assertions -/

theorem stable_inv : Stable (contract cfg call) (Inv cfg) :=
  fun _ _ ⟨_, _, hacts⟩ hw => hacts.keeps hw

structure Publishes (cfg : GateConfig) (call : ℕ) (content : String) (w : GateWorld) : Prop where
  publisher : w.publisher = some (call, content)
  state : w.state = .publishing
  inv : Inv cfg w

theorem stable_publishes : Stable (contract cfg call) (Publishes cfg call content) := by
  rintro w _ ⟨_, hwho, hacts⟩ hw
  have hstarted : w.state ≠ .notStarted := by rw [hw.state]; nofun
  refine ⟨(hacts.publisher hstarted).trans hw.publisher, ?_, hacts.keeps hw.inv⟩
  rcases hacts.state hstarted with h | ⟨_, _, rfl, hother⟩
  · exact h.trans hw.state
  · cases hother.symm.trans hw.publisher
    exact absurd rfl hwho

/-- This call publishes, nothing of the sink is under way, and the journal is as it says. -/
structure Settled (cfg : GateConfig) (call : ℕ) (content : String) (J : List String → Prop)
    (w : GateWorld) : Prop extends Publishes cfg call content w where
  settled : w.accepting = []
  journal : J w.journal

theorem stable_settled {J : List String → Prop} :
    Stable (contract cfg call) (Settled cfg call content J) := by
  rintro w w' ⟨who, hwho, hacts⟩ hw
  have hstarted : w.state ≠ .notStarted := by rw [hw.state]; nofun
  refine ⟨stable_publishes w w' ⟨who, hwho, hacts⟩ hw.toPublishes, ?_, ?_⟩
  · refine List.eq_nil_iff_forall_not_mem.mpr fun other hother => ?_
    have hmem := hacts.admits hstarted other hother
    rw [hw.settled] at hmem
    cases hmem
  · rcases hacts.journal with h | ⟨_, rfl, hmem | ⟨_, htext⟩⟩
    · rw [h]
      exact hw.journal
    · rw [hw.settled] at hmem
      cases hmem
    · cases htext.symm.trans hw.publisher
      exact absurd rfl hwho

/-- This call of the sink has been admitted and not yet counted. -/
structure Accepts (cfg : GateConfig) (call : ℕ) (w : GateWorld) : Prop where
  admitted : call ∈ w.accepting
  inv : Inv cfg w

theorem stable_accepts : Stable (contract cfg call) (Accepts cfg call) :=
  fun _ _ ⟨_, hwho, hacts⟩ hw => ⟨hacts.others call hwho hw.admitted, hacts.keeps hw.inv⟩

/-! ## Single steps -/

theorem acts_refl (who : Option ℕ) (w : GateWorld) : Acts cfg who w w where
  publisher := fun _ => rfl
  state := fun _ => .inl rfl
  journal := .inl rfl
  stream := fun _ => rfl
  others := fun _ _ h => h
  admits := fun _ _ h => h
  keeps := id

/-- Only a call that publishes or accepts appends to the journal. -/
theorem acts_append (receipt : Option String)
    (h : call ∈ w.accepting ∨ ∃ content, w.publisher = some (call, content)) :
    Acts cfg (some call) w { w with journal := w.journal ++ [text], receipt := receipt } where
  publisher := fun _ => rfl
  state := fun _ => .inl rfl
  journal := .inr ⟨call, rfl, h⟩
  stream := fun _ => rfl
  others := fun _ _ h => h
  admits := fun _ _ h => h
  keeps := fun hw => by
    refine ⟨fun hnone => ⟨(hw.unstreamed hnone).1, fun hpublisher => ?_⟩, hw.source, hw.counted,
      hw.fresh, hw.once, hw.sound⟩
    rcases h with h | ⟨_, h⟩
    · rw [(hw.unstreamed hnone).1] at h
      cases h
    · cases h.symm.trans hpublisher

/-! ## Publications -/

/-- The gate takes the exception for a failure before the append. -/
def Fails (cfg : GateConfig) : PublishError → Prop
  | .memoryContext _ | .publication false | .channelClosed | .runtime => True
  | .runCancelled => cfg.hasLoopContext = false
  | .publication true | .cancelled | .deadlineExceeded | .other => False

/-- After the body of the `try`. -/
def Published (cfg : GateConfig) (call : ℕ) (content : String) :
    Except PublishError Unit → GateWorld → Prop
  | .ok () => Settled cfg call content fun journal => String.join journal = content
  | .error e => Settled cfg call content fun journal => Fails cfg e → journal = []

theorem stable_published (outcome : Except PublishError Unit) :
    Stable (contract cfg call) (Published cfg call content outcome) := by
  cases outcome <;> exact stable_settled

theorem published_error (hw : Settled cfg call content (· = []) w) (e : PublishError) :
    Published cfg call content (.error e) w :=
  ⟨hw.toPublishes, hw.settled, fun _ => hw.journal⟩

/-- The fault of a calm publication after its append is not answered as a failure. -/
theorem not_fails_of_calm {i : GateInput} {fault : PublishFault} (hcalm : Calm cfg w i)
    (hstate : w.state = .publishing) (hfault : i.afterAppend = some fault) :
    ¬ Fails cfg (fault.error true) := by
  obtain ⟨-, -, -, hclosed, hruntime, hcancelled⟩ := hcalm hstate
  rw [hfault] at hclosed hruntime hcancelled
  cases fault with
  | channelClosed => exact absurd rfl hclosed
  | runtime => exact absurd rfl hruntime
  | runCancelled =>
    show ¬ cfg.hasLoopContext = false
    rw [hcancelled rfl]
    nofun
  | publication | cancelled | deadlineExceeded | other => exact id

/-- The emission journals the whole content in one event. -/
theorem triple_emit_publishes {receipt : Option String} :
    Triple (contract cfg call) (Settled cfg call content (· = [])) (emit content receipt)
      (Published cfg call content) := by
  -- the append
  refine Triple.except_bind (M := fun r w => match r with
    | .ok () => Settled cfg call content (· = [content]) w
    | .error e => Published cfg call content (.error e) w) ?_ (fun _ => ?_)
    (fun e => stable_published (.error e)) (fun _ _ h => h)
  · refine Triple.tryPerform stable_settled ?_ fun w i hw _ => ?_
    · rintro (e | _)
      · exact stable_published (.error e)
      · exact stable_settled
    · cases i.beforeAppend with
      | some => exact ⟨acts_refl _ _, published_error hw _⟩
      | none =>
        have hacts : Acts cfg (some call) w { w with
            journal := w.journal ++ [content], receipt := receipt.or w.receipt } :=
          acts_append _ (.inr ⟨content, hw.publisher⟩)
        refine ⟨hacts, ⟨hw.publisher, hw.state, hacts.keeps hw.inv⟩, hw.settled, ?_⟩
        show w.journal ++ [content] = [content]
        rw [hw.journal]
        rfl
  -- and what comes after it
  · refine Triple.tryPerform stable_settled stable_published fun w i hw hcalm => ?_
    cases hfault : i.afterAppend with
    | some =>
      refine ⟨acts_refl _ _, hw.toPublishes, hw.settled, fun hfails => ?_⟩
      exact absurd hfails (not_fails_of_calm hcalm hw.state hfault)
    | none =>
      refine ⟨acts_refl _ _, hw.toPublishes, hw.settled, ?_⟩
      show String.join w.journal = content
      rw [hw.journal]
      rw [String.join_cons, String.join_nil, String.append_empty]

variable {α : Type} {claim : StepClaim} {attempt : DeliveryAttempt}

theorem triple_check {act : GateInput → GateWorld → Except PublishError α × GateWorld}
    (hread : ∀ i w, (act i w).2 = w)
    {Q : Except PublishError α → GateWorld → Prop} (hstable : ∀ r, Stable (contract cfg call) (Q r))
    (h : ∀ i w, Settled cfg call content (· = []) w → Calm cfg w i → Q (act i w).1 w) :
    Triple (contract cfg call) (Settled cfg call content (· = [])) (tryPerform act) Q := by
  refine Triple.tryPerform stable_settled hstable fun w i hw hcalm => ?_
  rw [hread]
  exact ⟨acts_refl _ _, h i w hw hcalm⟩

/-- After a check that passed there is still nothing in the journal. -/
def Checked (cfg : GateConfig) (call : ℕ) (content : String) {α : Type} :
    Except PublishError α → GateWorld → Prop
  | .ok _ => Settled cfg call content (· = [])
  | .error e => Published cfg call content (.error e)

theorem stable_checked (r : Except PublishError α) :
    Stable (contract cfg call) (Checked cfg call content r) := by
  cases r with
  | ok => exact stable_settled
  | error e => exact stable_published (.error e)

theorem checked_of_settled (hw : Settled cfg call content (· = []) w) :
    ∀ r : Except PublishError α, Checked cfg call content r w
  | .ok _ => hw
  | .error e => published_error hw e

theorem triple_check_bind {β : Type} {Q : Except PublishError β → GateWorld → Prop}
    {x : GateCall α} {f : α → GateCall β}
    (hx : Triple (contract cfg call) (Settled cfg call content (· = [])) x
      (Checked cfg call content))
    (hf : ∀ a, Triple (contract cfg call) (Settled cfg call content (· = [])) (f a) Q)
    (hq : ∀ e w, Published cfg call content (.error e) w → Q (.error e) w) :
    Triple (contract cfg call) (Settled cfg call content (· = []))
      (x >>= f : GateCall β) Q :=
  Triple.except_bind hx hf (fun e => stable_published (.error e)) hq

theorem triple_checkGuard : Triple (contract cfg call) (Settled cfg call content (· = []))
    (checkGuard cfg) (Checked cfg call content) := by
  unfold checkGuard
  split_ifs
  · refine triple_check (fun i w => ?_) stable_checked fun i w hw _ => checked_of_settled hw _
    cases i.guardError <;> rfl
  · exact Triple.except_pure stable_settled fun _ hw => hw

theorem triple_checkEmitter : Triple (contract cfg call) (Settled cfg call content (· = []))
    (checkEmitter cfg) (Checked cfg call content) := by
  refine triple_check (fun i w => ?_) stable_checked fun i w hw _ => checked_of_settled hw _
  split_ifs <;> rfl

/-- Before anything is journaled no receipt answers for the content. -/
theorem triple_loadReceipt : Triple (contract cfg call) (Settled cfg call content (· = []))
    (loadReceipt cfg content) fun r w => Checked cfg call content r w ∧ r ≠ .ok true := by
  refine triple_check (fun i w => ?_) (fun r => ?_) fun i w hw hcalm => ?_
  · cases i.loadFault with
    | some => rfl
    | none =>
      cases w.receipt with
      | none => rfl
      | some =>
        show (if _ then _ else _ : Except PublishError Bool × GateWorld).2 = w
        split_ifs <;> rfl
  · exact (stable_checked r).and fun _ _ _ h => h
  · have hreceipt : w.receipt = none := (hcalm hw.state).2.2.1 hw.journal
    refine ⟨checked_of_settled hw _, ?_⟩
    rw [hreceipt]
    cases i.loadFault <;> nofun

theorem triple_publishOutput : Triple (contract cfg call) (Settled cfg call content (· = []))
    (publishOutput cfg content) (Published cfg call content) := by
  unfold publishOutput
  refine triple_check_bind triple_checkEmitter (fun _ => ?_) fun _ _ h => h
  split_ifs
  · refine Triple.except_bind triple_loadReceipt (fun delivered => ?_)
      (fun e => (stable_published (.error e)).and fun _ _ _ h => h) fun e w h => h.1
    cases delivered with
    | true => exact fun w hw => absurd rfl hw.2
    | false => exact triple_emit_publishes.mono (fun w hw => hw.1) fun _ _ h => h
  · exact triple_check_bind triple_checkGuard (fun _ => triple_emit_publishes) fun _ _ h => h

/-! ## The attempt -/

/-- This call publishes; unless something was streamed, nothing is in the journal. -/
structure Entered (cfg : GateConfig) (call : ℕ) (content : String) (w : GateWorld) : Prop
    extends Publishes cfg call content w where
  unstreamed : w.streamStepId = none → Settled cfg call content (· = []) w

theorem stable_entered : Stable (contract cfg call) (Entered cfg call content) := by
  rintro w w' ⟨who, hwho, hacts⟩ hw
  have hstarted : w.state ≠ .notStarted := by rw [hw.state]; nofun
  refine ⟨stable_publishes w w' ⟨who, hwho, hacts⟩ hw.toPublishes, fun hnone => ?_⟩
  rw [hacts.stream hstarted] at hnone
  exact stable_settled w w' ⟨who, hwho, hacts⟩ (hw.unstreamed hnone)

/-- Entering the gate claims it. -/
theorem acts_enter (hnew : w.state = .notStarted) : Acts cfg (some call) w { w with
    state := .publishing
    publisher := some (call, content)
    history := w.history ++ [.entered call] } where
  publisher := fun h => absurd hnew h
  state := fun h => absurd hnew h
  journal := .inl rfl
  stream := fun _ => rfl
  others := fun _ _ h => h
  admits := fun _ _ h => h
  keeps := fun hw => by
    refine ⟨fun hnone => ⟨(hw.unstreamed hnone).1, fun h => nomatch h⟩, hw.source, hw.counted,
      (fun h => nomatch h), ?_, ?_⟩
    · show (w.history ++ [GateEvent.entered call]).countP GateEvent.isEntered ≤ 1
      rw [List.countP_append, (hw.fresh hnew).2]
      exact le_refl 1
    · intro event hevent
      rcases mem_snoc hevent with h | h
      · exact hw.sound event h
      · rw [h]
        trivial

theorem authorize_ok {result : StepResult} {policy : OutputPolicy}
    (h : authorize cfg w claim result = .ok policy) : claim.stepId = cfg.finalStep.stepId := by
  obtain ⟨_, hplan, h⟩ := bind_eq_ok.mp h
  simp only [seq_eq_ok, raiseIf_ok, not_not] at h
  have hid := List.find?_some (orRaise_ok.mp hplan)
  rw [← h.2.2.2.1]
  exact (of_decide_eq_true hid).symm

/-- After the authorization. -/
def AfterEnter (cfg : GateConfig) (call : ℕ) (claim : StepClaim) (content : String) :
    Except PublishError (Except DeliveryAttempt OutputPolicy) → GateWorld → Prop
  | .ok (.ok _), w => claim.stepId = cfg.finalStep.stepId ∧ Entered cfg call content w
  | _, w => Inv cfg w

theorem triple_enter (claim : StepClaim) (result : StepResult) :
    Triple (contract cfg call) (Inv cfg) (enter cfg call claim result)
      (AfterEnter cfg call claim result.content) := by
  refine Triple.perform stable_inv ?_ fun w i hw _ => ?_
  · rintro (_ | _)
    · exact stable_inv
    · exact Stable.and (fun _ _ _ h => h) stable_entered
  by_cases hpublishing : w.state = .publishing
  · rw [if_pos hpublishing]
    exact ⟨acts_refl _ _, hw⟩
  rw [if_neg hpublishing]
  by_cases hnew : w.state = .notStarted
  · rw [if_neg (not_not.mpr hnew)]
    cases hauth : authorize cfg w claim result with
    | error => exact ⟨acts_refl _ _, hw⟩
    | ok =>
      have hacts : Acts cfg (some call) w { w with
          state := .publishing
          publisher := some (call, result.content)
          history := w.history ++ [.entered call] } := acts_enter hnew
      refine ⟨hacts, authorize_ok hauth, ⟨rfl, rfl, hacts.keeps hw⟩, fun hnone => ?_⟩
      obtain ⟨haccepting, hjournal⟩ := hw.unstreamed hnone
      exact ⟨⟨rfl, rfl, hacts.keeps hw⟩, haccepting, hjournal (hw.fresh hnew).1⟩
  · rw [if_pos hnew]
    exact ⟨acts_refl _ _, hw⟩

def StreamRead (cfg : GateConfig) (call : ℕ) (content : String) :
    Except PublishError (Option (String × String × ℕ)) → GateWorld → Prop
  | .ok none => Settled cfg call content (· = [])
  | .ok (some (stepId, streamed, charCount)) => fun w =>
    stepId = cfg.finalStep.stepId ∧ charCount = streamed.length ∧
      Settled cfg call content (fun journal => String.join journal = streamed ∧
        (journal = [] ∨ streamed = content)) w
  | .error _ => fun _ => False

theorem triple_readStream : Triple (contract cfg call) (Entered cfg call content) readStream
    (StreamRead cfg call content) := by
  refine Triple.perform stable_entered ?_ fun w i hw hcalm => ⟨acts_refl _ _, ?_⟩
  · rintro (_ | ⟨stepId, _, _⟩)
    · exact stable_settled
    · exact Stable.and (fun _ _ _ h => h) (Stable.and (fun _ _ _ h => h) stable_settled)
  obtain ⟨hsettled, hcounted, -⟩ := hcalm hw.state
  cases hstream : w.streamStepId with
  | none => exact hw.unstreamed hstream
  | some stepId =>
    obtain ⟨hjoin, hagrees⟩ := hcounted (by rw [hstream]; nofun)
    refine ⟨hw.inv.source stepId hstream, hw.inv.counted, hw.toPublishes, hsettled, hjoin, ?_⟩
    rw [hw.publisher] at hagrees
    exact hagrees.imp id fun h => (Option.some.inj h).symm

/-- The call that holds the gate publishes its content. -/
theorem triple_publish (hclaim : claim.stepId = cfg.finalStep.stepId)
    (hcontent : content.length ≠ 0) : Triple (contract cfg call) (Entered cfg call content)
      (publish cfg claim content) (Published cfg call content) := by
  refine Triple.except_bind triple_readStream (fun stream => ?_) (fun _ _ _ _ h => h)
    fun _ _ h => h.elim
  cases stream with
  | none => exact triple_publishOutput
  | some read =>
    obtain ⟨stepId, streamed, charCount⟩ := read
    have hstable : Stable (contract cfg call)
        (StreamRead cfg call content (.ok (some (stepId, streamed, charCount)))) :=
      Stable.and (fun _ _ _ h => h) (Stable.and (fun _ _ _ h => h) stable_settled)
    show Triple _ _ (if _ then _ else _) _
    split_ifs with hmismatch
    · refine Triple.except_throw hstable fun w hw => ?_
      obtain ⟨rfl, rfl, hw⟩ := hw
      obtain ⟨-, hagrees⟩ := hw.journal
      refine ⟨hw.toPublishes, hw.settled, fun _ => hagrees.resolve_right fun heq => ?_⟩
      -- the streamed text is the content, so nothing can differ
      subst heq
      exact hmismatch.elim (absurd hclaim.symm) fun h => h.elim (absurd rfl) (absurd rfl)
    · refine Triple.except_pure hstable fun w hw => ?_
      obtain ⟨-, rfl, hw⟩ := hw
      obtain ⟨hjoin, hagrees⟩ := hw.journal
      refine ⟨hw.toPublishes, hw.settled, hagrees.elim (fun hempty => ?_) fun heq => hjoin.trans heq⟩
      -- an empty journal is no content
      rw [not_or, not_or, not_not, not_not] at hmismatch
      rw [hempty, String.join_nil] at hjoin
      rw [← hjoin] at hmismatch
      exact absurd hmismatch.2.1.symm hcontent

theorem terminalState_ne (status : DeliveryStatus) : terminalState status ≠ .notStarted := by
  cases status <;> nofun

/-- The answer that is recorded is sound of the journal at that moment. -/
theorem acts_record (hw : Publishes cfg call content w)
    (hsound : (GateEvent.reported call attempt content w.journal).Sound) :
    Acts cfg (some call) w { w with
      state := terminalState attempt.deliveryStatus
      lastAttempt := some attempt
      history := w.history ++ [.reported call attempt content w.journal] } where
  publisher := fun _ => rfl
  state := fun _ => .inr ⟨call, content, rfl, hw.publisher⟩
  journal := .inl rfl
  stream := fun _ => rfl
  others := fun _ _ h => h
  admits := fun _ _ h => h
  keeps := fun hinv => by
    refine ⟨hinv.unstreamed, hinv.source, hinv.counted,
      fun h => absurd h (terminalState_ne _), ?_, ?_⟩
    · show (w.history ++ [GateEvent.reported call attempt content w.journal]).countP
        GateEvent.isEntered ≤ 1
      rw [List.countP_append]
      exact hinv.once
    · intro event hevent
      rcases mem_snoc hevent with h | h
      · exact hinv.sound event h
      · rwa [h]

def Conclusion.Sound (call : ℕ) (content : String) (journal : List String) : Conclusion → Prop
  | .report attempt | .reportAndRaise attempt _ =>
    (GateEvent.reported call attempt content journal).Sound
  | .raise _ => True

variable {journal : List String} {outcome : Except PublishError Unit}

theorem sound_of_unknown (call : ℕ) (h : attempt.deliveryStatus = .outcomeUnknown) :
    (GateEvent.reported call attempt content journal).Sound := by
  constructor
  · exact fun hdelivered => nomatch h.symm.trans hdelivered
  · exact fun hfailed => nomatch h.symm.trans hfailed

theorem sound_of_failed (call : ℕ)
    (h : attempt.deliveryStatus = .failed) (hjournal : journal = []) :
    (GateEvent.reported call attempt content journal).Sound := by
  constructor
  · exact fun hdelivered => nomatch h.symm.trans hdelivered
  · exact fun _ => hjournal

theorem classify_sound (claim : StepClaim) (policy : OutputPolicy)
(hw : Published cfg call content outcome w) :
    (classify cfg claim policy outcome).Sound call content w.journal := by
  cases outcome with
  | ok => exact ⟨fun _ => hw.journal, fun h => nomatch h⟩
  | error e =>
    have hfailed : Fails cfg e → w.journal = [] := hw.journal
    cases e with
    | memoryContext | channelClosed | runtime => exact sound_of_failed call rfl (hfailed trivial)
    | publication partiallyPersisted =>
      cases partiallyPersisted with
      | true => exact sound_of_unknown call rfl
      | false => exact sound_of_failed call rfl (hfailed trivial)
    | runCancelled =>
      unfold classify
      split_ifs with hloop
      · trivial
      · exact sound_of_failed call rfl (hfailed (Bool.eq_false_iff.mpr hloop))
    | cancelled | other => exact sound_of_unknown call rfl
    | deadlineExceeded =>
      unfold classify
      split_ifs with hloop
      · trivial
      · exact sound_of_unknown call rfl

/-- The call publishes, and the report it is about to make is sound. -/
def Concluding (cfg : GateConfig) (call : ℕ) (content : String) (conclusion : Conclusion) :
    GateWorld → Prop :=
  Settled cfg call content fun journal => conclusion.Sound call content journal

theorem Published.concluding
    (hw : Published cfg call content outcome w) (claim : StepClaim) (policy : OutputPolicy) :
    Concluding cfg call content (classify cfg claim policy outcome) w := by
  have hsound := classify_sound claim policy hw
  cases outcome <;> exact ⟨hw.toPublishes, hw.settled, hsound⟩

theorem triple_record {conclusion : Conclusion}
    (hreports : ∀ journal, conclusion.Sound call content journal →
      (GateEvent.reported call attempt content journal).Sound) :
    Triple (contract cfg call) (Concluding cfg call content conclusion)
      (record call content attempt) fun _ => Inv cfg := by
  refine Triple.perform stable_settled (fun _ => stable_inv) fun w i hw _ => ?_
  have hacts : Acts cfg (some call) w { w with
      state := terminalState attempt.deliveryStatus
      lastAttempt := some attempt
      history := w.history ++ [.reported call attempt content w.journal] } :=
    acts_record hw.toPublishes (hreports w.journal hw.journal)
  exact ⟨hacts, hacts.keeps hw.inv⟩

theorem triple_conclude (conclusion : Conclusion) :
    Triple (contract cfg call) (Concluding cfg call content conclusion)
      (conclude call content conclusion) fun _ => Inv cfg := by
  cases conclusion with
  | report =>
    exact Triple.except_bind (triple_record fun _ h => h)
      (fun _ => Triple.except_pure stable_inv fun _ h => h) (fun _ => stable_inv) fun _ _ h => h
  | reportAndRaise =>
    exact Triple.except_bind (triple_record fun _ h => h)
      (fun _ => Triple.except_throw stable_inv fun _ h => h) (fun _ => stable_inv) fun _ _ h => h
  | raise => exact Triple.except_throw stable_settled fun _ h => h.inv

theorem length_ne_zero_of_not_blank {text : String} (h : ¬ Text.isBlank text = true) :
    text.length ≠ 0 := by
  intro hlength
  have htext : text = "" := String.length_eq_zero_iff.mp hlength
  subst htext
  exact h rfl

/-- One attempt, from its entry to its answer. -/
theorem triple_attemptPublish (claim : StepClaim) (result : StepResult) :
    Triple (contract cfg call) (Inv cfg) (attemptPublish cfg call claim result)
      fun _ => Inv cfg := by
  refine Triple.except_bind (triple_enter claim result) (fun entered => ?_) (fun _ => stable_inv)
    fun _ _ h => h
  cases entered with
  | error => exact Triple.except_pure stable_inv fun _ h => h
  | ok policy =>
    intro w hw
    have hpublish : Triple (contract cfg call) _ _ (Published cfg call result.content) :=
      triple_publish hw.1 (length_ne_zero_of_not_blank result.content_not_blank)
    refine Triple.attempt_bind hpublish stable_published (fun outcome => ?_) w hw.2
    exact (triple_conclude _).mono (fun w hw => hw.concluding claim policy) fun _ _ h => h

/-! ## The sink -/

theorem Accepts.streamStepId_ne (hw : Accepts cfg call w) : w.streamStepId ≠ none := by
  intro hnone
  have hadmitted := hw.admitted
  rw [(hw.inv.unstreamed hnone).1] at hadmitted
  cases hadmitted

theorem acts_admitCall (hclaim : claim.stepId = cfg.finalStep.stepId)
    (hnew : w.state = .notStarted) : Acts cfg (some call) w { w with
      streamStepId := some claim.stepId
      accepting := w.accepting ++ [call] } where
  publisher := fun _ => rfl
  state := fun _ => .inl rfl
  journal := .inl rfl
  stream := fun h => absurd hnew h
  others := fun _ _ h => List.mem_append_left _ h
  admits := fun h => absurd hnew h
  keeps := fun hw => by
    refine ⟨(fun h => nomatch h), fun stepId h => ?_, hw.counted, hw.fresh, hw.once, hw.sound⟩
    cases h
    exact hclaim

theorem acts_leave {streamed : String} {charCount : ℕ} (hw : Accepts cfg call w)
    (hcounted : charCount = streamed.length) : Acts cfg (some call) w { w with
      streamed := streamed
      streamedCharCount := charCount
      accepting := w.accepting.erase call } where
  publisher := fun _ => rfl
  state := fun _ => .inl rfl
  journal := .inl rfl
  stream := fun _ => rfl
  others := fun other hother h => by
    refine (List.mem_erase_of_ne ?_).mpr h
    rintro rfl
    exact hother rfl
  admits := fun _ _ h => List.mem_of_mem_erase h
  keeps := fun hinv => ⟨fun hnone => absurd hnone hw.streamStepId_ne, hinv.source, hcounted,
    hinv.fresh, hinv.once, hinv.sound⟩

/-- A call of the stream is admitted for the final step only. -/
theorem triple_admitCall (hclaim : claim.stepId = cfg.finalStep.stepId) :
    Triple (contract cfg call) (Inv cfg) (admitCall cfg call claim) fun r w =>
      match r with
      | .ok () => Accepts cfg call w
      | .error _ => Inv cfg w := by
  refine Triple.tryPerform stable_inv ?_ fun w i hw _ => ?_
  · rintro (e | _)
    · exact stable_inv
    · exact stable_accepts
  by_cases hnew : w.state = .notStarted
  · rw [if_neg (not_not.mpr hnew)]
    split_ifs
    · exact ⟨acts_refl _ _, hw⟩
    · exact ⟨acts_refl _ _, hw⟩
    · have hacts : Acts cfg (some call) w { w with
          streamStepId := some claim.stepId
          accepting := w.accepting ++ [call] } := acts_admitCall hclaim hnew
      exact ⟨hacts, List.mem_concat_self, hacts.keeps hw⟩
  · rw [if_pos hnew]
    exact ⟨acts_refl _ _, hw⟩

theorem triple_emit_accepts : Triple (contract cfg call) (Accepts cfg call) (emit text none)
    fun _ => Accepts cfg call := by
  refine Triple.except_bind (M := fun _ => Accepts cfg call) ?_ (fun _ => ?_)
    (fun _ => stable_accepts) fun _ _ h => h
  · refine Triple.tryPerform stable_accepts (fun _ => stable_accepts) fun w i hw _ => ?_
    cases i.beforeAppend with
    | some => exact ⟨acts_refl _ _, hw⟩
    | none =>
      have hacts : Acts cfg (some call) w { w with
          journal := w.journal ++ [text], receipt := Option.or none w.receipt } :=
        acts_append _ (.inl hw.admitted)
      exact ⟨hacts, hw.admitted, hacts.keeps hw.inv⟩
  · refine Triple.tryPerform stable_accepts (fun _ => stable_accepts) fun w i hw _ => ?_
    cases i.afterAppend <;> exact ⟨acts_refl _ _, hw⟩

theorem triple_stream : Triple (contract cfg call) (Accepts cfg call) (stream cfg text)
    fun _ => Accepts cfg call := by
  have hguard : Triple (contract cfg call) (Accepts cfg call) (checkGuard cfg)
      fun _ => Accepts cfg call := by
    unfold checkGuard
    split_ifs
    · refine Triple.tryPerform stable_accepts (fun _ => stable_accepts) fun w i hw _ => ?_
      cases i.guardError <;> exact ⟨acts_refl _ _, hw⟩
    · exact Triple.except_pure stable_accepts fun _ h => h
  unfold stream
  split_ifs
  · exact Triple.except_throw stable_accepts fun _ h => h
  · exact Triple.except_bind hguard (fun _ => triple_emit_accepts) (fun _ => stable_accepts)
      fun _ _ h => h

theorem triple_count : Triple (contract cfg call) (Accepts cfg call) (count call text)
    fun _ => Inv cfg := by
  refine Triple.perform stable_accepts (fun _ => stable_inv) fun w i hw _ => ?_
  have hacts : Acts cfg (some call) w { w with
      streamed := w.streamed ++ text
      streamedCharCount := w.streamedCharCount + text.length
      accepting := w.accepting.erase call } := by
    refine acts_leave hw ?_
    rw [hw.inv.counted, String.length_append]
  exact ⟨hacts, hacts.keeps hw.inv⟩

theorem triple_abandon (error : PublishError) : Triple (contract cfg call) (Accepts cfg call)
    (abandon call error) fun _ => Inv cfg := by
  refine Triple.except_bind (M := fun _ => Inv cfg) ?_
    (fun _ => Triple.except_throw stable_inv fun _ h => h) (fun _ => stable_inv) fun _ _ h => h
  refine Triple.perform stable_accepts (fun _ => stable_inv) fun w i hw _ => ?_
  have hacts : Acts cfg (some call) w { w with accepting := w.accepting.erase call } :=
    acts_leave hw hw.inv.counted
  exact ⟨hacts, hacts.keeps hw.inv⟩

/-- One piece of streamed text, accepted or refused. -/
theorem triple_accept (hclaim : claim.stepId = cfg.finalStep.stepId) :
    Triple (contract cfg call) (Inv cfg) (accept cfg call claim text) fun _ => Inv cfg := by
  unfold accept
  split_ifs
  · exact Triple.except_pure stable_inv fun _ h => h
  refine Triple.except_bind (triple_admitCall hclaim) (fun _ => ?_) (fun _ => stable_inv)
    fun _ _ h => h
  refine Triple.attempt_bind triple_stream (fun _ => stable_accepts) fun outcome => ?_
  split
  · exact triple_count
  · exact Triple.except_bind triple_count (fun _ => Triple.except_throw stable_inv fun _ h => h)
      (fun _ => stable_inv) fun _ _ h => h
  · exact triple_abandon _

/-! ## Every run -/

abbrev GatePool := Pool GateInput GateWorld (Except PublishError (Option DeliveryAttempt))

inductive Action where
  | attempt (claim : StepClaim) (result : StepResult)
  /-- a sink of `stream_sink` is given a text -/
  | accept (claim : StepClaim) (text : String)
  | advance (call : ℕ) (input : GateInput)
  | close
  /-- what the gate reads has changed -/
  | surroundings (store : StepResultStore) (agentState : AgentState) (runActive : Bool)
      (stepEmitterClosed : Bool)

/-- A new gate; a resumed run may hold the receipt of an earlier delivery. -/
def start (store : StepResultStore) (agentState : AgentState) (receipt : Option String) :
    GatePool :=
  ⟨⟨.notStarted, none, none, "", 0, store, agentState, true, false, receipt, [], none, [], []⟩, []⟩

variable (cfg) in
def attemptCall (call : ℕ) (claim : StepClaim) (result : StepResult) :
    GateCall (Option DeliveryAttempt) := do
  return some (← attemptPublish cfg call claim result)

variable (cfg) in
def acceptCall (call : ℕ) (claim : StepClaim) (text : String) :
    GateCall (Option DeliveryAttempt) := do
  accept cfg call claim text
  return none

variable (cfg) in
/-- The step function; `none` when there is no sink for the claim or the call has ended. -/
def step (pool : GatePool) : Action → Option GatePool
  | .attempt claim result =>
    some (pool.spawn (attemptCall cfg pool.routines.length claim result).run)
  | .accept claim text =>
    if hasSink cfg claim then
      some (pool.spawn (acceptCall cfg pool.routines.length claim text).run)
    else none
  | .advance call input => pool.advance call input
  | .close => some ⟨close pool.world, pool.routines⟩
  | .surroundings store agentState runActive stepEmitterClosed =>
    some ⟨{ pool.world with
      store := store
      agentState := agentState
      runActive := runActive
      stepEmitterClosed := stepEmitterClosed }, pool.routines⟩

variable (cfg) in
/-- Every step that is taken while a call publishes is calm. -/
def CalmAction (pool : GatePool) : Action → Prop
  | .advance _ input => Calm cfg pool.world input
  | _ => True

instance (pool : GatePool) : ∀ action, Decidable (CalmAction cfg pool action)
  | .advance _ input => inferInstanceAs (Decidable (Calm cfg pool.world input))
  | .attempt .. | .accept .. | .close | .surroundings .. => inferInstanceAs (Decidable True)

variable (cfg) in
/-- Every call keeps its contract from here on. -/
structure Safe (pool : GatePool) : Prop where
  inv : Inv cfg pool.world
  holds : Pool.Holds (contract cfg) (fun _ _ _ => True) pool

variable {pool pool' : GatePool}

theorem acts_close (w : GateWorld) : Acts cfg none w (close w) := by
  unfold close
  split_ifs with hnew
  · exact ⟨fun h => absurd hnew h, fun h => absurd hnew h, .inl rfl, fun _ => rfl,
      fun _ _ h => h, fun _ _ h => h, fun hw => ⟨hw.unstreamed, hw.source, hw.counted,
        (fun h => nomatch h), hw.once, hw.sound⟩⟩
  · exact acts_refl none w

theorem Safe.interfere (hs : Safe cfg pool) {w : GateWorld} (hacts : Acts cfg none pool.world w) :
    Safe cfg ⟨w, pool.routines⟩ :=
  ⟨hacts.keeps hs.inv, Pool.holds_interfere hs.holds fun _ => ⟨none, nofun, hacts⟩⟩

theorem Safe.spawn (hs : Safe cfg pool) {x : GateCall (Option DeliveryAttempt)}
    (hx : Triple (contract cfg pool.routines.length) (Inv cfg) x fun _ => Inv cfg) :
    Safe cfg (pool.spawn x.run) :=
  ⟨hs.inv, Pool.holds_spawn hs.holds ((hx pool.world hs.inv).mono fun _ _ _ => trivial)⟩

theorem hasSink_final (h : hasSink cfg claim = true) : claim.stepId = cfg.finalStep.stepId := by
  unfold hasSink at h
  split at h
  · cases h
  · rw [Bool.and_eq_true, Bool.and_eq_true] at h
    exact of_decide_eq_true h.1.1

/-- Every calm action keeps the gate safe. -/
theorem Safe.step {action : Action} (hs : Safe cfg pool) (hcalm : CalmAction cfg pool action)
    (h : step cfg pool action = some pool') : Safe cfg pool' := by
  cases action with
  | attempt claim result =>
    cases h
    exact hs.spawn (Triple.except_bind (triple_attemptPublish claim result)
      (fun _ => Triple.except_pure stable_inv fun _ h => h) (fun _ => stable_inv) fun _ _ h => h)
  | accept =>
    simp only [OutputGate.step] at h
    split_ifs at h with hsink
    cases h
    exact hs.spawn (Triple.except_bind (triple_accept (hasSink_final hsink))
      (fun _ => Triple.except_pure stable_inv fun _ h => h) (fun _ => stable_inv) fun _ _ h => h)
  | advance call =>
    obtain ⟨hacts, hholds⟩ := Pool.holds_advance hs.holds h hcalm
      fun other hother _ _ hacts => ⟨some call, fun heq => hother (Option.some.inj heq).symm, hacts⟩
    exact ⟨hacts.keeps hs.inv, hholds⟩
  | close =>
    cases h
    exact hs.interfere (acts_close pool.world)
  | surroundings =>
    cases h
    refine hs.interfere ?_
    exact ⟨fun _ => rfl, fun _ => .inl rfl, .inl rfl, fun _ => rfl, fun _ _ h => h, fun _ _ h => h,
      fun hw => ⟨hw.unstreamed, hw.source, hw.counted, hw.fresh, hw.once, hw.sound⟩⟩

theorem Safe.start (store : StepResultStore) (agentState : AgentState) (receipt : Option String) :
    Safe cfg (start store agentState receipt) where
  inv := ⟨fun _ => ⟨rfl, fun _ => rfl⟩, (fun _ h => nomatch h), rfl, fun _ => ⟨rfl, rfl⟩,
    Nat.zero_le _, fun _ h => nomatch h⟩
  holds := fun _ _ h => nomatch h

/-- The promises of the gate: one call publishes at the most, and every report is true. -/
structure Sound (pool : GatePool) : Prop where
  once : pool.world.history.countP GateEvent.isEntered ≤ 1
  sound : ∀ event ∈ pool.world.history, event.Sound

def sampleFinalStep : PlanStep :=
  ⟨"a", "step", "", [], "done", "agent", .default, .agent, .finalPassthrough⟩

def sampleFinal : StepResult :=
  .ofText "a" StepResult.a_ne

def sampleStart : GatePool :=
  start ⟨Dict.empty.set "a" ⟨sampleFinal, .readable⟩, .open⟩
    ⟨"run", agentStateSchemaVersion, .running, .epochSecond 1, .epochSecond 1, Dict.empty, ∅, none,
      none, none, none⟩ none

/-- Nothing goes wrong. -/
def quietInput : GateInput := ⟨false, none, none, false, none, none⟩

end OutputGate

end LocalAgent.Runtime
