import LocalAgent.Runtime.McpClient

/-!
# LocalAgent.Runtime.McpClientSteps — what a step of a session keeps

* `McpRequest.dumps_of_writable`: a request of encodable texts goes out as one line.
* `SlotOk`, `Sound`: what the table, the futures and the tasks say of one another.
* `Meets`: the requests that can be written, before `close`.
* `sound_step`: every such step keeps the agreement.
-/

namespace LocalAgent.Runtime

/-! ## Texts that can be written -/

/-- The text goes out as one line. -/
def McpText.Clean (text : McpText) : Prop := ∀ c ∈ text, isSurrogate c = false ∧ c ≠ 10

def ArgumentValue.writable : ArgumentValue → Bool
  | text value => encodable value
  | integer value => hasText value
  | float _ => true

/-- Every text of the request can be encoded, and no integer of it is too long. -/
def McpRequest.writable : McpRequest → Bool
  | callTool name arguments =>
    encodable name && arguments.all fun entry => encodable entry.1 && entry.2.writable
  | listTools cursor => cursor.all encodable

namespace McpText

theorem clean_append {a b : McpText} (ha : a.Clean) (hb : b.Clean) : McpText.Clean (a ++ b) := by
  intro c hc
  rcases List.mem_append.mp hc with hc | hc
  · exact ha c hc
  · exact hb c hc

variable {text : McpText}

theorem clean_cons {c : ℕ} (hc : c < 127 ∧ c ≠ 10) (ht : text.Clean) :
    McpText.Clean (c :: text) := by
  intro d hd
  rcases List.mem_cons.mp hd with rfl | hd
  · exact ⟨by simp only [isSurrogate, Bool.and_eq_false_iff, decide_eq_false_iff_not]; omega, hc.2⟩
  · exact ht d hd

theorem clean_of_small (h : ∀ c ∈ text, c < 127 ∧ c ≠ 10) : text.Clean := by
  intro c hc
  have := h c hc
  exact ⟨by simp only [isSurrogate, Bool.and_eq_false_iff, decide_eq_false_iff_not]; omega,
    this.2⟩

theorem Clean.encodable (h : text.Clean) : encodable text = true :=
  List.all_eq_true.mpr fun c hc => by rw [(h c hc).1]; rfl

theorem Clean.not_mem (h : text.Clean) : 10 ∉ text :=
  fun hc => (h 10 hc).2 rfl

theorem clean_decimalText (n : ℕ) : (decimalText n).Clean := by
  refine clean_of_small fun c hc => ?_
  unfold decimalText at hc
  split_ifs at hc
  · cases List.mem_singleton.mp hc
    decide
  · obtain ⟨d, hd, rfl⟩ := List.mem_map.mp hc
    have := Nat.digits_lt_base (by decide) (List.mem_reverse.mp hd)
    omega

theorem clean_integerText {n : ℤ} (h : hasText n = true) :
    ∃ text, integerText n = some text ∧ text.Clean := by
  refine ⟨_, if_pos h, ?_⟩
  split_ifs
  · exact clean_cons (by decide) (clean_decimalText _)
  · exact clean_decimalText _

theorem mem_escapePoint {c d : ℕ} (h : d ∈ escapePoint c) : d < 127 ∧ d ≠ 10 ∨ d = c ∧ d ≠ 10 := by
  unfold escapePoint at h
  split_ifs at h <;> simp only [List.mem_cons, List.not_mem_nil, or_false] at h <;> omega

theorem clean_quoteText (h : encodable text = true) : (quoteText text).Clean := by
  refine clean_cons (by decide) (clean_append (fun d hd => ?_) (by unfold Clean; decide))
  obtain ⟨c, hc, hd⟩ := List.mem_flatMap.mp hd
  rcases mem_escapePoint hd with hsmall | ⟨rfl, hne⟩
  · have hclean : McpText.Clean [d] := clean_of_small (by simpa using hsmall)
    exact hclean d (List.mem_singleton.mpr rfl)
  · exact ⟨by simpa using List.all_eq_true.mp h d hc, hne⟩

end McpText

open McpText

theorem ArgumentValue.dumps_of_writable {value : ArgumentValue} (h : value.writable = true) :
    ∃ text, value.dumps = some text ∧ text.Clean := by
  cases value with
  | text => exact ⟨_, rfl, clean_quoteText h⟩
  | integer => exact clean_integerText h
  | float value =>
    refine ⟨_, rfl, clean_of_small fun c hc => ?_⟩
    have := value.text_ascii c hc
    omega

/-- Members without lone surrogates and without NaN are written. -/
theorem dumpMembers_of_writable {members : List (McpText × ArgumentValue)}
    (h : members.all (fun entry => encodable entry.1 && entry.2.writable) = true) :
    ∃ text, dumpMembers members = some text ∧ text.Clean := by
  induction members with
  | nil => exact ⟨[], rfl, by intro c hc; cases hc⟩
  | cons entry _ ih =>
    simp only [List.all_cons, Bool.and_eq_true] at h
    obtain ⟨⟨hkey, hvalue⟩, hrest⟩ := h
    obtain ⟨head, hhead, hclean⟩ := entry.2.dumps_of_writable hvalue
    obtain ⟨tail, htail, htails⟩ := ih
      (by simpa only [List.all_eq_true, Bool.and_eq_true] using hrest)
    refine ⟨_, by rw [dumpMembers, hhead, htail]; rfl, ?_⟩
    refine clean_append (clean_append (clean_quoteText hkey) (clean_cons (by decide) hclean)) ?_
    split_ifs
    · intro c hc
      cases hc
    · exact clean_cons (by decide) htails

variable {request : McpRequest} {f : McpFuture}

theorem McpRequest.dumps_of_writable (id : ℕ) (h : request.writable = true) :
    ∃ text, (McpMessage.request id request).dumps = some text ∧ text.Clean := by
  have hhead (method : String) (hm : (asciiText method).Clean) : (requestHead id method).Clean := by
    refine clean_append (clean_append (clean_append (clean_append ?_ (clean_decimalText id)) ?_)
      hm) ?_ <;> unfold Clean <;> decide +kernel
  cases request with
  | callTool =>
    obtain ⟨hname, hargs⟩ := Bool.and_eq_true_iff.mp h
    obtain ⟨_, hmembers, hclean⟩ := dumpMembers_of_writable hargs
    refine ⟨_, by rw [McpMessage.dumps, hmembers]; rfl, ?_⟩
    refine clean_append (clean_append (clean_append (clean_append (clean_append (hhead _ ?_) ?_)
      (clean_quoteText hname)) ?_) hclean) ?_ <;> unfold Clean <;> decide +kernel
  | listTools cursor =>
    cases cursor with
    | none =>
      refine ⟨_, rfl, clean_append (hhead _ ?_) ?_⟩ <;> unfold Clean <;> decide +kernel
    | some =>
      refine ⟨_, rfl, clean_append (clean_append (clean_append (hhead _ ?_) ?_)
        (clean_quoteText h)) ?_⟩ <;> unfold Clean <;> decide +kernel

theorem McpMessage.dumps_cancelled (id : ℕ) :
    ∃ text, (McpMessage.cancelled id).dumps = some text ∧ text.Clean := by
  refine ⟨_, rfl, clean_append (clean_append (clean_append ?_ ?_) (clean_decimalText id)) ?_⟩ <;>
    unfold Clean <;> decide +kernel

/-! ## The invariant -/

/-- What a request may end with: an answer that carries its id, a boundary error, a cancellation. -/
def McpOutcome.Own (id : ℕ) : McpOutcome → Prop
  | .answered message result =>
    answerKey message = some (id : ℤ) ∧ validateResponse message id = .ok result
  | .failed _ => True
  | .cancelled => True
  | .untyped _ => False

def McpFuture.Own (id : ℕ) : McpFuture → Prop
  | .result message => answerKey message = some (id : ℤ)
  | _ => True

/-- A wait on the future returns or raises what it holds. -/
def McpFuture.ready : McpFuture → Bool
  | .result _ => true
  | .exception _ => true
  | _ => false

def McpFuture.fail (error : McpError) : McpFuture → McpFuture
  | .unresolved => .exception error
  | f => f

theorem McpFuture.fail_fail (error : McpError) (f : McpFuture) :
    (f.fail error).fail error = f.fail error := by
  cases f <;> rfl

theorem McpFuture.Own.fail {id : ℕ} {error : McpError} (h : f.Own id) : (f.fail error).Own id := by
  cases f with
  | result => exact h
  | _ => trivial

variable {registered : Prop}

theorem McpFuture.ready_fail {error : McpError} (f : McpFuture)
    (h : f = .unresolved ∧ registered ∨ f.ready = true) : (f.fail error).ready = true := by
  cases f with
  | cancelled => exact h.elim (fun hf => nomatch hf.1) id
  | _ => rfl

def McpPhase.Left (id : ℕ) : McpPhase → Prop
  | .notifying => True
  | .ended outcome => outcome.Own id
  | _ => False

/-- What the table, the future and the task of an id say of one another. -/
def SlotOk (id : ℕ) (registered : Prop) (future : Option McpFuture) : Option McpTask → Prop
  | none => future = none ∧ ¬registered
  | some task => ∃ f, future = some f ∧ f.Own id ∧
    match task.phase with
    | .draining | .waiting => f = .unresolved ∧ registered ∨ f.ready = true ∧ ¬registered
    | phase => phase.Left id ∧ ¬registered

namespace McpClient

/-- The session is broken or closed. -/
def isOver (s : McpClient) : Bool := s.broken.isSome || s.closed

def Slot (s : McpClient) (id : ℕ) : Prop :=
  SlotOk id (id ∈ s.pending) (s.futures.get? id) (s.tasks.get? id)

structure Sound (s : McpClient) : Prop where
  slots : ∀ id, s.Slot id
  bound : ∀ id, s.nextId < id → s.tasks.get? id = none
  nodup : s.pending.Nodup
  settled : s.isOver = true → s.pending = []

variable {s : McpClient} {id : ℕ} {error : McpError}

theorem sound_initialized : initialized.Sound where
  slots _ := ⟨rfl, List.not_mem_nil⟩
  bound _ _ := rfl
  nodup := List.nodup_nil
  settled _ := rfl

/-! ## The parts of a step -/

/-- Failing one future leaves the others. -/
theorem get?_failFuture {futures : Dict ℕ McpFuture} (j : ℕ) :
    (failFuture error futures id).get? j =
      if j = id then (futures.get? j).map (McpFuture.fail error) else futures.get? j := by
  unfold failFuture
  split
  · rename_i hf
    rw [Dict.get?_set]
    split_ifs with hj
    · subst hj
      rw [hf]
      rfl
    · rfl
  · rename_i hf
    split_ifs with hj
    · subst hj
      cases hfuture : futures.get? j with
      | none => rfl
      | some f =>
        cases f with
        | unresolved => exact absurd hfuture hf
        | cancelled | result | exception => rfl
    · rfl

theorem get?_failFutures {l : List ℕ} {futures : Dict ℕ McpFuture} (j : ℕ) :
    (l.foldl (failFuture error) futures).get? j =
      if j ∈ l then (futures.get? j).map (McpFuture.fail error) else futures.get? j := by
  induction l generalizing futures with
  | nil => simp
  | cons i _ ih =>
    rw [List.foldl_cons, ih, get?_failFuture]
    by_cases hj : j = i
    · subst hj
      rw [if_pos rfl, if_pos List.mem_cons_self]
      split_ifs
      · rw [Option.map_map]
        exact congrArg (fun g => (futures.get? j).map g)
          (funext fun f => McpFuture.fail_fail error f)
      · rfl
    · simp [hj]

theorem get?_futures_failPending (j : ℕ) : (s.failPending error).futures.get? j =
      if j ∈ s.pending then (s.futures.get? j).map (McpFuture.fail error)
      else s.futures.get? j := by
  rw [failPending, get?_failFutures]
  simp

/-- A slot is in order when everything that was pending has failed. -/
theorem Slot.failPending (h : s.Slot id) (error : McpError) : (s.failPending error).Slot id := by
  unfold Slot at *
  rw [get?_futures_failPending]
  have hreg : id ∉ (s.failPending error).pending := List.not_mem_nil
  have htasks : (s.failPending error).tasks = s.tasks := rfl
  rw [htasks]
  cases htask : s.tasks.get? id with
  | none =>
    rw [htask] at h
    exact ⟨by rw [if_neg h.2, h.1], hreg⟩
  | some task =>
    rw [htask] at h
    obtain ⟨f, hf, hown, hphase⟩ := h
    split_ifs with hp
    · refine ⟨f.fail error, by rw [hf]; rfl, hown.fail, ?_⟩
      revert hphase
      cases task.phase with
      | draining | waiting =>
        exact fun hphase => .inr ⟨f.ready_fail (hphase.imp_right And.left), hreg⟩
      | notifying | ended => exact fun hphase => absurd hp hphase.2
    · refine ⟨f, hf, hown, ?_⟩
      revert hphase
      cases task.phase with
      | draining | waiting =>
        exact fun hphase => .inr ⟨(hphase.resolve_left fun hw => hp hw.2).1, hreg⟩
      | notifying | ended => exact fun hphase => ⟨hphase.1, hreg⟩

theorem Sound.failPending (h : s.Sound) (error : McpError) : (s.failPending error).Sound where
  slots id := (h.slots id).failPending error
  bound := h.bound
  nodup := List.nodup_nil
  settled _ := rfl

theorem Sound.breakWith (h : s.Sound) (error : McpError) : (s.breakWith error).Sound := by
  unfold McpClient.breakWith
  split
  · exact h
  · exact {
      slots := fun id => Slot.failPending (s := { s with broken := some error }) (h.slots id) error
      bound := h.bound
      nodup := List.nodup_nil
      settled := fun _ => rfl }

theorem Sound.close (h : s.Sound) (error : McpError) :
    (McpClient.failPending { s with closed := true } error).Sound where
  slots id := Slot.failPending (s := { s with closed := true }) (h.slots id) error
  bound := h.bound
  nodup := List.nodup_nil
  settled _ := rfl

theorem Sound.pending_breakWith (h : s.Sound) : (s.breakWith error).pending = [] := by
  refine (h.breakWith error).settled ?_
  unfold isOver McpClient.breakWith
  split
  · rename_i hb
    simp [hb]
  · rfl

@[simp] theorem tasks_breakWith : (s.breakWith error).tasks = s.tasks := by
  unfold McpClient.breakWith
  split <;> rfl

variable {isCall : Bool} {phase : McpPhase} {write : McpWrite}

theorem breakWith_setPhase :
    (s.setPhase id isCall phase).breakWith error =
      (s.breakWith error).setPhase id isCall phase := by
  obtain ⟨_, _, _, _, _, broken, _⟩ := s
  cases broken <;> rfl

theorem setPhase_setPhase {phase' : McpPhase} :
    (s.setPhase id isCall phase).setPhase id isCall phase' = s.setPhase id isCall phase' := by
  unfold setPhase
  rw [Dict.set_set]

/-- A task goes on to another phase. -/
theorem Sound.setPhase {task : McpTask} (h : s.Sound) (ht : s.tasks.get? id = some task)
    (hslot : SlotOk id (id ∈ s.pending) (s.futures.get? id) (some ⟨isCall, phase⟩)) :
    (s.setPhase id isCall phase).Sound where
  slots j := by
    unfold Slot McpClient.setPhase
    rw [Dict.get?_set]
    split_ifs with hj
    · subst hj
      exact hslot
    · exact h.slots j
  bound j hj := by
    unfold McpClient.setPhase
    rw [Dict.get?_set, if_neg]
    · exact h.bound j hj
    · rintro rfl
      cases ht.symm.trans (h.bound j hj)
  nodup := h.nodup
  settled := h.settled

variable {task : McpTask}

theorem Sound.future (h : s.Sound) (ht : s.tasks.get? id = some task) :
    ∃ f, s.futures.get? id = some f ∧ f.Own id := by
  have hslot := h.slots id
  unfold Slot at hslot
  rw [ht] at hslot
  obtain ⟨f, hf, hown, _⟩ := hslot
  exact ⟨f, hf, hown⟩

theorem slotOk_left (hown : f.Own id) (hreg : ¬registered) (hleft : phase.Left id) :
    SlotOk id registered (some f) (some ⟨isCall, phase⟩) := by
  refine ⟨f, rfl, hown, ?_⟩
  cases phase with
  | draining | waiting => exact hleft.elim
  | notifying | ended => exact ⟨hleft, hreg⟩

theorem Sound.leave (h : s.Sound)
    (ht : s.tasks.get? id = some task) (hreg : id ∉ s.pending) (hleft : phase.Left id) :
    (s.setPhase id isCall phase).Sound := by
  obtain ⟨f, hf, hown⟩ := h.future ht
  exact h.setPhase ht (hf ▸ slotOk_left hown hreg hleft)

/-- A request takes itself out of the table. -/
theorem Sound.quit {task : McpTask}
(h : s.Sound) (futures : Dict ℕ McpFuture) (ht : s.tasks.get? id = some task)
    (hne : ∀ j, j ≠ id → futures.get? j = s.futures.get? j)
    (hf : futures.get? id = some f) (hown : f.Own id) (hleft : phase.Left id) :
    (McpClient.setPhase ({ s with futures := futures }.popPending id) id isCall phase).Sound where
  slots j := by
    unfold Slot McpClient.setPhase popPending
    rw [Dict.get?_set]
    split_ifs with hj
    · subst hj
      rw [hf]
      exact slotOk_left hown (fun hm => h.nodup.not_mem_erase hm) hleft
    · rw [hne j hj]
      have hslot := h.slots j
      have hmem : (j ∈ s.pending.erase id) = (j ∈ s.pending) :=
        propext (List.mem_erase_of_ne hj)
      rwa [hmem]
  bound j hj := by
    unfold McpClient.setPhase popPending
    rw [Dict.get?_set, if_neg]
    · exact h.bound j hj
    · rintro rfl
      cases ht.symm.trans (h.bound j hj)
  nodup := h.nodup.erase id
  settled hover := by
    have hnil : s.pending = [] := h.settled hover
    change s.pending.erase id = []
    rw [hnil]
    rfl

theorem Sound.quit_drain (h : s.Sound) (ht : s.tasks.get? id = some task) (hleft : phase.Left id) :
    ((s.popPending id).setPhase id isCall phase).Sound := by
  obtain ⟨f, hf, hown⟩ := h.future ht
  exact h.quit s.futures ht (fun _ _ => rfl) hf hown hleft

theorem Sound.quit_wait (h : s.Sound) (ht : s.tasks.get? id = some task) (hleft : phase.Left id) :
    (((s.cancelFuture id).popPending id).setPhase id isCall phase).Sound := by
  obtain ⟨f, hf, hown⟩ := h.future ht
  unfold cancelFuture
  split
  · have hself : (s.futures.set id .cancelled).get? id = some .cancelled := by
      rw [Dict.get?_set, if_pos rfl]
    refine h.quit _ ht (fun j hj => ?_) hself trivial hleft
    rw [Dict.get?_set, if_neg hj]
  · exact h.quit s.futures ht (fun _ _ => rfl) hf hown hleft

variable {s' : McpClient}

/-! ## Each step keeps the invariant -/

/-- A request that passes its checks can be written, and `close` has not begun. -/
def Meets (s : McpClient) : McpAction → Prop
  | .start request _ => s.refusal request = none → request.writable = true ∧ s.closed = false
  | _ => True

/-- A clean message is written, or the connection is over. -/
theorem send_clean {message : McpMessage}
    (h : ∃ text, message.dumps = some text ∧ text.Clean) : s.send message write =
      if s.isOver then (s, .raised (closedError "connection_not_open"))
      else match write with
        | .taken => (s, .sent)
        | .waits => (s, .waits)
        | .fails => (s.breakWith (closedError "stdin_write_failed"),
            .raised (closedError "stdin_write_failed")) := by
  obtain ⟨text, htext, hclean⟩ := h
  have hover : s.isOver = true ↔ s.broken.isSome = true ∨ s.closed = true := Bool.or_eq_true_iff
  have hencodable : ¬encodable text = false := by rw [hclean.encodable]; decide
  unfold send
  by_cases ho : s.isOver = true
  · rw [if_pos ho, if_pos (hover.mp ho)]
  · rw [if_neg ho, if_neg (mt hover.mpr ho), htext]
    dsimp only
    rw [if_neg hencodable]
    exact if_neg hclean.not_mem

theorem Sound.slot_none (h : s.Sound) (ht : s.tasks.get? id = none) :
    s.futures.get? id = none ∧ id ∉ s.pending := by
  have hslot := h.slots id
  unfold Slot at hslot
  rwa [ht] at hslot

/-- The state with a new request that waits. -/
theorem Sound.register (h : s.Sound) (hover : s.isOver = false)
    (hphase : phase = .draining ∨ phase = .waiting) :
    (s.register.setPhase (s.nextId + 1) isCall phase).Sound where
  slots j := by
    unfold Slot McpClient.setPhase McpClient.register
    rw [Dict.get?_set, Dict.get?_set]
    by_cases hj : j = s.nextId + 1
    · rw [if_pos hj, if_pos hj]
      refine ⟨.unresolved, rfl, trivial, ?_⟩
      have hin : j ∈ s.pending ++ [s.nextId + 1] :=
        List.mem_append_right _ (List.mem_singleton.mpr hj)
      rcases hphase with rfl | rfl <;> exact .inl ⟨rfl, hin⟩
    · rw [if_neg hj, if_neg hj]
      have hmem : (j ∈ s.pending ++ [s.nextId + 1]) = (j ∈ s.pending) := by
        simp [hj]
      rw [hmem]
      exact h.slots j
  bound j hj := by
    have hlt : s.nextId + 1 < j := hj
    unfold McpClient.setPhase McpClient.register
    rw [Dict.get?_set, if_neg (by omega)]
    exact h.bound j (by omega)
  nodup := by
    have hnew := (h.slot_none (h.bound (s.nextId + 1) (by omega))).2
    refine List.nodup_append.mpr ⟨h.nodup, List.nodup_singleton _, fun a ha b hb => ?_⟩
    cases List.mem_singleton.mp hb
    rintro rfl
    exact hnew ha
  settled hnot := nomatch hover.symm.trans hnot

theorem tasks_setPhase_self :
    (s.setPhase id isCall phase).tasks.get? id = some ⟨isCall, phase⟩ := by
  unfold McpClient.setPhase
  rw [Dict.get?_set, if_pos rfl]

theorem broken_of_refusal (h : s.refusal request = none) : s.broken = none := by
  unfold refusal at h
  cases hb : s.broken with
  | none => rfl
  | some => cases request <;> simp [hb] at h

theorem sound_start (h : s.Sound)
    (hm : s.refusal request = none → request.writable = true ∧ s.closed = false) :
    (s.start request write).Sound := by
  unfold start
  split
  · exact ⟨h.slots, h.bound, h.nodup, h.settled⟩
  · rename_i href
    obtain ⟨hwritable, hclosed⟩ := hm href
    have hover : s.isOver = false := by
      rw [isOver, broken_of_refusal href, hclosed]
      rfl
    have hover' : s.register.isOver = false := hover
    dsimp only
    rw [send_clean (request.dumps_of_writable _ hwritable), hover', if_neg (by decide)]
    cases write with
    | taken => exact h.register hover (.inr rfl)
    | waits => exact h.register hover (.inl rfl)
    | fails =>
      -- as if the request had waited for a moment before the pipe broke
      have hwait : (s.register.setPhase (s.nextId + 1) request.isCall .waiting).Sound :=
        h.register hover (.inr rfl)
      have hbroken := hwait.breakWith (closedError "stdin_write_failed")
      have hend : Sound (McpClient.setPhase _ (s.nextId + 1) request.isCall
          (.ended (.failed (closedError "stdin_write_failed")))) := hbroken.leave
        (by rw [tasks_breakWith, tasks_setPhase_self])
        (by rw [hwait.pending_breakWith]; exact List.not_mem_nil) trivial
      rwa [breakWith_setPhase, setPhase_setPhase] at hend

variable {task : McpTask}

/-- A request whose message was drained waits, or has failed. -/
theorem sound_drained {fails : Bool} (h : s.Sound)
    (ht : s.tasks.get? id = some task) (hs : s.drained id task fails = some s') : s'.Sound := by
  have hbroken : Sound (if fails then s.breakWith (closedError "stdin_write_failed") else s) := by
    split
    · exact h.breakWith _
    · exact h
  have htask : (if fails then s.breakWith (closedError "stdin_write_failed") else s).tasks.get? id =
      some task := by
    split
    · rw [tasks_breakWith, ht]
    · exact ht
  have hslot := hbroken.slots id
  unfold Slot at hslot
  rw [htask] at hslot
  obtain ⟨_, phase⟩ := task
  obtain ⟨f, hf, hown, hphase⟩ := hslot
  cases phase with
  | draining =>
    cases hs
    cases fails with
    | true =>
      exact hbroken.leave htask
        (by rw [if_pos rfl, h.pending_breakWith]; exact List.not_mem_nil) trivial
    | false => exact hbroken.setPhase htask ⟨f, hf, hown, hphase⟩
  | waiting | ended => cases hs
  | notifying =>
    cases hs
    exact hbroken.leave htask hphase.2 trivial

variable {message : Json}

theorem own_validateResponse (h : answerKey message = some (id : ℤ)) :
    McpPhase.Left id (.ended (match validateResponse message id with
      | .ok result => .answered message result
      | .error error => .failed error)) := by
  split
  · rename_i hresult
    exact ⟨h, hresult⟩
  · trivial

theorem sound_resume (h : s.Sound) (ht : s.tasks.get? id = some task)
    (hs : s.resume id task = some s') : s'.Sound := by
  have hslot := h.slots id
  unfold Slot at hslot
  rw [ht] at hslot
  obtain ⟨f, hf, hown, hphase⟩ := hslot
  unfold resume at hs
  rw [hf] at hs
  obtain ⟨_, phase⟩ := task
  cases phase with
  | waiting =>
    have hphase : f = .unresolved ∧ id ∈ s.pending ∨ f.ready = true ∧ id ∉ s.pending := hphase
    cases f with
    | unresolved | cancelled => cases hs
    | result =>
      cases hs
      have hreg := (hphase.resolve_left fun hu => nomatch hu.1).2
      exact h.leave ht hreg (own_validateResponse hown)
    | exception =>
      cases hs
      have hreg := (hphase.resolve_left fun hu => nomatch hu.1).2
      exact h.leave ht hreg trivial
  | draining | notifying | ended => cases hs

theorem sound_timeOut (h : s.Sound) (ht : s.tasks.get? id = some task)
    (hs : s.timeOut id task = some s') : s'.Sound := by
  obtain ⟨isCall, phase⟩ := task
  cases phase with
  | waiting =>
    cases hs
    have hend : Sound (((s.cancelFuture id).popPending id).setPhase id isCall
        (.ended (.failed ⟨.transportTimeout, "request_timeout"⟩))) := h.quit_wait ht trivial
    have hbroken := hend.breakWith ⟨.transportTimeout, "request_timeout"⟩
    rwa [breakWith_setPhase] at hbroken
  | draining | notifying | ended => cases hs

theorem sound_notifyCancelled (h : ∀ phase, phase = .notifying ∨ phase = .ended .cancelled →
      (s.setPhase id task.isCall phase).Sound) : (s.notifyCancelled id task write).Sound := by
  unfold notifyCancelled
  split
  · rw [send_clean (McpMessage.dumps_cancelled id)]
    split
    · exact h _ (.inr rfl)
    · cases write with
      | taken => exact h _ (.inr rfl)
      | waits => exact h _ (.inl rfl)
      | fails =>
        have hend := (h _ (.inr rfl)).breakWith (closedError "stdin_write_failed")
        rwa [breakWith_setPhase] at hend
  · exact h _ (.inr rfl)

theorem sound_cancelTask (h : s.Sound)
    (ht : s.tasks.get? id = some task) (hs : s.cancelTask id task write = some s') : s'.Sound := by
  have hleft (phase : McpPhase) (hp : phase = .notifying ∨ phase = .ended .cancelled) :
      phase.Left id := by
    rcases hp with rfl | rfl <;> trivial
  obtain ⟨_, phase⟩ := task
  cases phase with
  | draining =>
    cases hs
    exact sound_notifyCancelled fun phase hp => h.quit_drain ht (hleft phase hp)
  | waiting =>
    cases hs
    exact sound_notifyCancelled fun phase hp => h.quit_wait ht (hleft phase hp)
  | notifying =>
    cases hs
    have hslot := h.slots id
    unfold Slot at hslot
    rw [ht] at hslot
    obtain ⟨f, -, -, hphase⟩ := hslot
    exact h.leave ht hphase.2 trivial
  | ended => cases hs

/-- An answer resolves the future of its own id and takes the id out of the table. -/
theorem sound_answer (h : s.Sound) (hp : id ∈ s.pending)
    (hkey : answerKey message = some (id : ℤ)) :
    Sound { s.popPending id with futures := s.futures.set id (.result message) } where
  slots j := by
    have hslot := h.slots j
    unfold Slot McpClient.popPending at *
    rw [Dict.get?_set]
    by_cases hj : j = id
    · subst hj
      rw [if_pos rfl]
      have hout : j ∉ s.pending.erase j := fun hm => h.nodup.not_mem_erase hm
      cases htask : s.tasks.get? j with
      | none => exact absurd hp (h.slot_none htask).2
      | some task =>
        rw [htask] at hslot
        obtain ⟨f, -, -, hphase⟩ := hslot
        refine ⟨_, rfl, hkey, ?_⟩
        revert hphase
        cases task.phase with
        | draining | waiting => exact fun _ => .inr ⟨rfl, hout⟩
        | notifying | ended => exact fun hphase => absurd hp hphase.2
    · rw [if_neg hj]
      have hmem : (j ∈ s.pending.erase id) = (j ∈ s.pending) :=
        propext (List.mem_erase_of_ne hj)
      rwa [hmem]
  bound := h.bound
  nodup := h.nodup.erase id
  settled hover := by
    have hnil : s.pending = [] := h.settled hover
    rw [hnil] at hp
    exact absurd hp List.not_mem_nil

/-- An id that is pending has an unresolved future. -/
theorem Sound.unresolved (h : s.Sound) (hp : id ∈ s.pending) :
    s.futures.get? id = some .unresolved := by
  have hslot := h.slots id
  unfold Slot at hslot
  cases htask : s.tasks.get? id with
  | none => exact absurd hp (h.slot_none htask).2
  | some task =>
    rw [htask] at hslot
    obtain ⟨f, hf, -, hphase⟩ := hslot
    rw [hf]
    revert hphase
    cases task.phase with
    | draining | waiting =>
      exact fun hphase => congrArg some (hphase.resolve_right fun hr => hr.2 hp).1
    | notifying | ended => exact fun hphase => absurd hp hphase.2

theorem sound_handleLine {line : Option Json} (h : s.Sound) : (s.handleLine line).Sound := by
  unfold handleLine
  split
  · exact h
  · split
    · exact h.breakWith _
    · split
      · exact h
      · split
        · rename_i hkey
          split
          · rename_i hp
            rw [h.unresolved hp]
            exact sound_answer h hp hkey
          · exact h
        · exact h
    · exact h.breakWith _

/-- Every step that meets the condition keeps the client sound. -/
theorem sound_step {a : McpAction} (hm : s.Meets a) (hs : s.step a = some s') (h : s.Sound) :
    s'.Sound := by
  cases a with
  | start =>
    cases hs
    exact sound_start h hm
  | drained =>
    obtain ⟨task, ht, hs⟩ := Option.bind_eq_some_iff.mp hs
    exact sound_drained h ht hs
  | resume =>
    obtain ⟨task, ht, hs⟩ := Option.bind_eq_some_iff.mp hs
    exact sound_resume h ht hs
  | timeOut =>
    obtain ⟨task, ht, hs⟩ := Option.bind_eq_some_iff.mp hs
    exact sound_timeOut h ht hs
  | cancelTask =>
    obtain ⟨_, ht, hs⟩ := Option.bind_eq_some_iff.mp hs
    exact sound_cancelTask h ht hs
  | line =>
    cases hs
    exact sound_handleLine h
  | stdoutClosed =>
    cases hs
    have hbroken : Sound (if s.closed then s else s.breakWith (closedError "stdout_closed")) := by
      split
      · exact h
      · exact h.breakWith _
    exact hbroken.failPending _
  | stdoutFailed =>
    cases hs
    exact (h.breakWith _).failPending _
  | readerStopped =>
    have hs : (if s.closed then some (s.failPending (closedError "stdout_closed")) else none) =
        some s' := hs
    split at hs
    · cases hs
      exact h.failPending _
    · cases hs
  | processExited | respondFailed =>
    cases hs
    split
    · exact h.breakWith _
    · exact h
  | close =>
    cases hs
    split
    · exact h
    · exact h.close _

end McpClient

end LocalAgent.Runtime
