import LocalAgent.Lib.Trace
import Mathlib.Algebra.Order.Ring.Int

/-!
# LocalAgent.Runtime.ClaimGate — `core/runtime/claim_gate.py`

The gate around the scheduler's claims.  Every method holds the gate's lock, so each is one step;
`pause` is several: it announces itself, then polls until no claim is in progress, and lets go of
the lock between two polls.  A poll looks at the number of claims and not at the state, so a pause
that `resume` or `close` has overtaken still writes `PAUSED`.

* `GateRun.step`: the gate with the callers of `pause`.
* `Orderly`: no overtaken pause writes over a pause in force or over `CLOSED` in this step.
* `gate_sound`: along orderly steps `CLOSED` is final, `PAUSED` means that no claim is in progress,
  and at most one caller holds a pause.
-/

namespace LocalAgent.Runtime

/-! ## The gate -/

inductive SchedulerClaimGateState where
  | open | pausing | paused | resuming | closed
  deriving DecidableEq

inductive ClaimGateError where
  /-- `SchedulerClaimGateBusyError` -/
  | pauseInProgress
  /-- `SchedulerClaimGateClosedError` -/
  | closed
  /-- `RuntimeError`: exit without matching entry -/
  | unmatchedExit
  deriving DecidableEq

structure SchedulerClaimGate where
  state : SchedulerClaimGateState
  claimInProgress : ℤ
  pauseOwner : Bool
  deriving DecidableEq

namespace SchedulerClaimGate

def new : SchedulerClaimGate := ⟨.open, 0, false⟩

def enterClaim (gate : SchedulerClaimGate) : Except ClaimGateError Bool × SchedulerClaimGate :=
  if gate.state = .closed then (.error .closed, gate)
  else if gate.state ≠ .open then (.ok false, gate)
  else (.ok true, { gate with claimInProgress := gate.claimInProgress + 1 })

def exitClaim (gate : SchedulerClaimGate) : Except ClaimGateError Unit × SchedulerClaimGate :=
  if gate.claimInProgress ≤ 0 then (.error .unmatchedExit, gate)
  else (.ok (), { gate with claimInProgress := gate.claimInProgress - 1 })

/-- `pause` up to its loop. -/
def beginPause (gate : SchedulerClaimGate) : Except ClaimGateError SchedulerClaimGate :=
  if gate.state = .closed then .error .closed
  else if gate.pauseOwner ∨ gate.state ≠ .open then .error .pauseInProgress
  else .ok { gate with pauseOwner := true, state := .pausing }

/-- One turn of the loop of `pause`; `none` when it goes on to sleep. -/
def pollPause (gate : SchedulerClaimGate) : Option SchedulerClaimGate :=
  if gate.claimInProgress = 0 then some { gate with state := .paused } else none

/-- The handler of `pause`: a timeout, a cancellation of the run or of the task. -/
def failPause (gate : SchedulerClaimGate) : SchedulerClaimGate :=
  { gate with
    state := if gate.state ≠ .closed then .open else gate.state
    pauseOwner := false }

def resume (gate : SchedulerClaimGate) : SchedulerClaimGate :=
  if gate.state = .closed then { gate with pauseOwner := false }
  else if gate.state ≠ .paused ∧ gate.state ≠ .pausing then { gate with pauseOwner := false }
  else { gate with state := .open, pauseOwner := false }

def close (gate : SchedulerClaimGate) : SchedulerClaimGate :=
  { gate with state := .closed, pauseOwner := false }

end SchedulerClaimGate

/-! ## The callers -/

/-- Where a call of `pause` stands. -/
inductive PauseCall where
  | absent
  /-- in its loop; `overtaken` when `resume` or `close` came since it began -/
  | polling (overtaken : Bool)
  | holding
  /-- raised, or returned and resumed -/
  | left
  deriving DecidableEq

/-- The gate and the callers of `pause`. -/
structure GateRun where
  gate : SchedulerClaimGate
  pauses : ℕ → PauseCall
  /-- `close` has returned -/
  closeReturned : Bool

namespace GateRun

def new : GateRun := ⟨.new, fun _ => .absent, false⟩

inductive Action where
  | enterClaim
  | exitClaim
  | beginPause (id : ℕ)
  | pollPause (id : ℕ)
  | failPause (id : ℕ)
  | resume
  | close

/-- The pauses after `resume`. -/
def resumed : PauseCall → PauseCall
  | .polling _ => .polling true
  | .holding => .left
  | call => call

/-- The pauses after `close`. -/
def overtaken : PauseCall → PauseCall
  | .polling _ => .polling true
  | call => call

/-- The step function; `none` when the action is not possible now. -/
def step (s : GateRun) : Action → Option GateRun
  | .enterClaim => some { s with gate := s.gate.enterClaim.2 }
  | .exitClaim => some { s with gate := s.gate.exitClaim.2 }
  | .beginPause id =>
    match s.pauses id with
    | .absent =>
      match s.gate.beginPause with
      | .error _ => some { s with pauses := Function.update s.pauses id .left }
      | .ok gate =>
        some { s with gate := gate, pauses := Function.update s.pauses id (.polling false) }
    | _ => none
  | .pollPause id =>
    match s.pauses id with
    | .polling _ =>
      match s.gate.pollPause with
      | none => some s
      | some gate => some { s with gate := gate, pauses := Function.update s.pauses id .holding }
    | _ => none
  | .failPause id =>
    match s.pauses id with
    | .polling _ =>
      some { s with gate := s.gate.failPause, pauses := Function.update s.pauses id .left }
    | _ => none
  | .resume => some { s with gate := s.gate.resume, pauses := fun id => resumed (s.pauses id) }
  | .close =>
    some { gate := s.gate.close, pauses := fun id => overtaken (s.pauses id), closeReturned := true }

def runSteps (acts : List Action) : Option GateRun := Trace.run step new acts

/-! ## What a step can do -/

variable {s s' : GateRun}

/-- The cases of a step. -/
inductive Moves (s : GateRun) : Action → GateRun → Prop where
  | refuse {action : Action} : Moves s action s
  | enter (opened : s.gate.state = .open) : Moves s .enterClaim
      { s with gate := { s.gate with claimInProgress := s.gate.claimInProgress + 1 } }
  | exit (busy : ¬ s.gate.claimInProgress ≤ 0) : Moves s .exitClaim
      { s with gate := { s.gate with claimInProgress := s.gate.claimInProgress - 1 } }
  | refusePause {id : ℕ} : Moves s (.beginPause id)
      { s with pauses := Function.update s.pauses id .left }
  | beginPause {id : ℕ} (opened : s.gate.state = .open) : Moves s (.beginPause id)
      { s with
        gate := { s.gate with pauseOwner := true, state := .pausing }
        pauses := Function.update s.pauses id (.polling false) }
  | pausePolled {id : ℕ} {late : Bool} (call : s.pauses id = .polling late)
      (free : s.gate.claimInProgress = 0) : Moves s (.pollPause id)
      { s with
        gate := { s.gate with state := .paused }
        pauses := Function.update s.pauses id .holding }
  | failPause {id : ℕ} {late : Bool} (call : s.pauses id = .polling late) : Moves s (.failPause id)
      { s with gate := s.gate.failPause, pauses := Function.update s.pauses id .left }
  | resume : Moves s .resume
      { s with gate := s.gate.resume, pauses := fun id => resumed (s.pauses id) }
  | close : Moves s .close
      { gate := s.gate.close, pauses := fun id => overtaken (s.pauses id), closeReturned := true }

variable {action : Action}

/-- What each section of the gate can do. -/
theorem step_moves (h : s.step action = some s') : Moves s action s' := by
  cases action with
  | enterClaim =>
    cases h
    unfold SchedulerClaimGate.enterClaim
    split_ifs with hclosed hopen
    · exact .refuse
    · exact .refuse
    · exact .enter (not_not.mp hopen)
  | exitClaim =>
    cases h
    unfold SchedulerClaimGate.exitClaim
    split_ifs with hzero
    · exact .refuse
    · exact .exit hzero
  | beginPause =>
    simp only [step, SchedulerClaimGate.beginPause] at h
    split at h
    · split_ifs at h with hclosed hbusy
      · cases h
        exact .refusePause
      · cases h
        exact .refusePause
      · cases h
        exact .beginPause (not_not.mp (not_or.mp hbusy).2)
    · cases h
  | pollPause =>
    simp only [step, SchedulerClaimGate.pollPause] at h
    split at h
    · rename_i late hcall
      split_ifs at h with hfree
      · cases h
        exact .pausePolled hcall hfree
      · cases h
        exact .refuse
    · cases h
  | failPause =>
    simp only [step] at h
    split at h
    · rename_i late hcall
      cases h
      exact .failPause hcall
    · cases h
  | resume =>
    cases h
    exact .resume
  | close =>
    cases h
    exact .close

/-! ## Pauses in force -/

/-- An overtaken pause neither returns nor fails over a pause in force or over `CLOSED`. -/
def Orderly (s : GateRun) : Action → Prop
  | .pollPause id => s.pauses id = .polling true → s.gate.claimInProgress = 0 →
    s.gate.state = .open
  | .failPause id => s.pauses id = .polling true →
    s.gate.state = .open ∨ s.gate.state = .closed
  | _ => True

instance (s : GateRun) : ∀ action, Decidable (Orderly s action)
  | .pollPause _ => inferInstanceAs (Decidable (_ → _ → _))
  | .failPause _ => inferInstanceAs (Decidable (_ → _))
  | .enterClaim => inferInstanceAs (Decidable True)
  | .exitClaim => inferInstanceAs (Decidable True)
  | .beginPause _ => inferInstanceAs (Decidable True)
  | .resume => inferInstanceAs (Decidable True)
  | .close => inferInstanceAs (Decidable True)

/-- A pause that was not overtaken shows in the state of the gate, one at a time. -/
structure InForce (s : GateRun) : Prop where
  closed : s.closeReturned = true → s.gate.state = .closed
  quiescent : s.gate.state = .paused → s.gate.claimInProgress = 0
  polling : ∀ id, s.pauses id = .polling false → s.gate.state = .pausing
  holding : ∀ id, s.pauses id = .holding → s.gate.state = .paused ∨ s.gate.state = .closed
  onePolling : ∀ p q, s.pauses p = .polling false → s.pauses q = .polling false → p = q
  oneHolding : ∀ p q, s.pauses p = .holding → s.pauses q = .holding → p = q

theorem inForce_new : InForce new := by
  constructor <;> intros <;> contradiction

namespace InForce

theorem claims (hs : InForce s) {claims : ℤ} (h : s.gate.state = .paused → claims = 0) :
    InForce { s with gate := { s.gate with claimInProgress := claims } } :=
  ⟨hs.closed, h, hs.polling, hs.holding, hs.onePolling, hs.oneHolding⟩

variable {id : ℕ}

theorem update_ne {pauses : ℕ → PauseCall} {p : ℕ} {call wanted : PauseCall}
    (h : Function.update pauses id call p = wanted) (hne : call ≠ wanted) :
    p ≠ id ∧ pauses p = wanted := by
  by_cases hp : p = id
  · subst hp
    rw [Function.update_self] at h
    exact absurd h hne
  · rw [Function.update_of_ne hp] at h
    exact ⟨hp, h⟩

theorem ends (hs : InForce s) {gate : SchedulerClaimGate}
    (hclosed : s.gate.state = .closed → gate.state = .closed)
    (hpaused : gate.state = .paused → gate.claimInProgress = 0)
    (hpolling : ∀ p, p ≠ id → s.pauses p = .polling false → gate.state = .pausing)
    (hholding : ∀ p, s.pauses p = .holding → gate.state = .paused ∨ gate.state = .closed) :
    InForce { s with gate := gate, pauses := Function.update s.pauses id .left } where
  closed := fun h => hclosed (hs.closed h)
  quiescent := hpaused
  polling := by
    intro p hp
    obtain ⟨hne, hp⟩ := update_ne hp nofun
    exact hpolling p hne hp
  holding := by
    intro p hp
    exact hholding p (update_ne hp nofun).2
  onePolling := by
    intro p q hp hq
    exact hs.onePolling p q (update_ne hp nofun).2 (update_ne hq nofun).2
  oneHolding := by
    intro p q hp hq
    exact hs.oneHolding p q (update_ne hp nofun).2 (update_ne hq nofun).2

theorem none_in_force (hs : InForce s) (h : s.gate.state = .open) :
    (∀ id, s.pauses id ≠ .polling false) ∧ ∀ id, s.pauses id ≠ .holding := by
  refine ⟨fun id hid => ?_, fun id hid => ?_⟩
  · cases h.symm.trans (hs.polling id hid)
  · rcases hs.holding id hid with h' | h'
    all_goals cases h.symm.trans h'

theorem beginPause (hs : InForce s) (h : s.gate.state = .open) :
    InForce { s with
      gate := { s.gate with pauseOwner := true, state := .pausing }
      pauses := Function.update s.pauses id (.polling false) } := by
  obtain ⟨hpolling, hholding⟩ := hs.none_in_force h
  have hself : ∀ p, Function.update s.pauses id (.polling false) p = .polling false → p = id := by
    intro p hp
    by_contra hne
    rw [Function.update_of_ne hne] at hp
    exact hpolling p hp
  refine ⟨fun hreturned => ?_, (fun h => nomatch h), fun _ _ => rfl, ?_, ?_, ?_⟩
  · cases h.symm.trans (hs.closed hreturned)
  · exact fun p hp => absurd (update_ne hp nofun).2 (hholding p)
  · exact fun p q hp hq => (hself p hp).trans (hself q hq).symm
  · exact fun p q hp _ => absurd (update_ne hp nofun).2 (hholding p)

variable {late : Bool}

/-- The gate is paused when no claim is under way. -/
theorem pausePolled (hs : InForce s) (hcall : s.pauses id = .polling late)
    (hfree : s.gate.claimInProgress = 0) (hlate : late = true → s.gate.state = .open) :
    InForce { s with
      gate := { s.gate with state := .paused }
      pauses := Function.update s.pauses id .holding } := by
  -- in both cases the gate is open or pausing, and no other call polls in force
  have hstate : s.gate.state ≠ .paused ∧ s.gate.state ≠ .closed := by
    cases late with
    | true =>
      rw [hlate rfl]
      exact ⟨nofun, nofun⟩
    | false =>
      rw [hs.polling id hcall]
      exact ⟨nofun, nofun⟩
  have hholding : ∀ p, s.pauses p ≠ .holding := by
    intro p hp
    exact (hs.holding p hp).elim hstate.1 hstate.2
  have hpolling : ∀ p, p ≠ id → s.pauses p ≠ .polling false := by
    intro p hne hp
    cases late with
    | true => exact (hs.none_in_force (hlate rfl)).1 p hp
    | false => exact hne (hs.onePolling p id hp hcall)
  have hself : ∀ p, Function.update s.pauses id .holding p = .holding → p = id := by
    intro p hp
    by_contra hne
    rw [Function.update_of_ne hne] at hp
    exact hholding p hp
  refine ⟨fun hreturned => absurd (hs.closed hreturned) hstate.2, fun _ => hfree, ?_,
    fun _ _ => .inl rfl, ?_, fun p q hp hq => (hself p hp).trans (hself q hq).symm⟩
  · intro p hp
    obtain ⟨hne, hp⟩ := update_ne hp nofun
    exact absurd hp (hpolling p hne)
  · intro p q hp _
    obtain ⟨hne, hp⟩ := update_ne hp nofun
    exact absurd hp (hpolling p hne)

/-- A pause has failed: the gate is open again, or closed for good. -/
theorem failPause (hs : InForce s) (hcall : s.pauses id = .polling late)
    (hlate : late = true → s.gate.state = .open ∨ s.gate.state = .closed) :
    InForce { s with gate := s.gate.failPause, pauses := Function.update s.pauses id .left } := by
  have hkeep : s.gate.state = .closed → s.gate.failPause.state = .closed := by
    intro h
    simp [SchedulerClaimGate.failPause, h]
  refine hs.ends hkeep ?_ ?_ ?_
  · intro h
    simp only [SchedulerClaimGate.failPause] at h
    split_ifs at h with hclosed
    exact absurd (not_not.mp hclosed) (by rw [h]; nofun)
  · intro p hne hp
    cases late with
    | true =>
      rcases hlate rfl with h | h
      · exact absurd hp ((hs.none_in_force h).1 p)
      · cases h.symm.trans (hs.polling p hp)
    | false => exact absurd (hs.onePolling p id hp hcall) hne
  · intro p hp
    rcases hs.holding p hp with h | h
    · -- a pause is held, so the failing one was overtaken and the gate is not paused
      cases late with
      | true =>
        rcases hlate rfl with h' | h'
        all_goals cases h.symm.trans h'
      | false => cases h.symm.trans (hs.polling id hcall)
    · exact .inr (hkeep h)

theorem resumed_ne (call : PauseCall) :
    resumed call ≠ .polling false ∧ resumed call ≠ .holding := by
  cases call <;> exact ⟨nofun, nofun⟩

theorem resume (hs : InForce s) :
    InForce { s with gate := s.gate.resume, pauses := fun id => resumed (s.pauses id) } where
  closed := by
    intro hreturned
    simp [SchedulerClaimGate.resume, hs.closed hreturned]
  quiescent := by
    intro h
    simp only [SchedulerClaimGate.resume] at h ⊢
    split_ifs at h ⊢ with hclosed hother
    · exact absurd h (by rw [hclosed]; nofun)
    · exact absurd h hother.1
  polling := fun id h => absurd h (resumed_ne (s.pauses id)).1
  holding := fun id h => absurd h (resumed_ne (s.pauses id)).2
  onePolling := fun p _ h => absurd h (resumed_ne (s.pauses p)).1
  oneHolding := fun p _ h => absurd h (resumed_ne (s.pauses p)).2

theorem overtaken_eq {call : PauseCall} :
    overtaken call ≠ .polling false ∧ (overtaken call = .holding → call = .holding) := by
  cases call <;> exact ⟨nofun, by simp [overtaken]⟩

theorem close (hs : InForce s) : InForce
    { gate := s.gate.close, pauses := fun id => overtaken (s.pauses id), closeReturned := true } where
  closed := fun _ => rfl
  quiescent := fun h => nomatch h
  polling := fun _ h => absurd h overtaken_eq.1
  holding := fun _ _ => .inr rfl
  onePolling := fun _ _ h => absurd h overtaken_eq.1
  oneHolding := fun p q hp hq => hs.oneHolding p q (overtaken_eq.2 hp) (overtaken_eq.2 hq)

/-- A pause that is in force stays so until it is resumed or overtaken. -/
theorem step (hs : InForce s) (horderly : Orderly s action)
    (h : s.step action = some s') : InForce s' := by
  cases step_moves h with
  | refuse => exact hs
  | enter hopen => exact hs.claims fun h => nomatch hopen.symm.trans h
  | exit hbusy => exact hs.claims fun h => absurd (hs.quiescent h).le hbusy
  | refusePause =>
    exact hs.ends id hs.quiescent (fun p _ => hs.polling p) hs.holding
  | beginPause hopen => exact hs.beginPause hopen
  | @pausePolled _ late hcall hfree =>
    refine hs.pausePolled hcall hfree fun hlate => ?_
    subst hlate
    exact horderly hcall hfree
  | @failPause _ late hcall =>
    refine hs.failPause hcall fun hlate => ?_
    subst hlate
    exact horderly hcall
  | resume => exact hs.resume
  | close => exact hs.close

end InForce

/-! ## Every run -/

/-- What a gate promises at every moment. -/
structure Sound (s : GateRun) : Prop where
  /-- once `close` has returned the state is `CLOSED` and no claim is admitted -/
  closed : s.closeReturned = true → s.gate.state = .closed ∧ s.gate.enterClaim.1 ≠ .ok true
  /-- `PAUSED` only without a claim in progress -/
  quiescent : s.gate.state = .paused → s.gate.claimInProgress = 0
  /-- at most one caller holds a pause -/
  single : ∀ p q, s.pauses p = .holding → s.pauses q = .holding → p = q

/-- In every run whose steps are orderly, in every state it reaches. -/
theorem gate_sound {acts : List Action} (hrun : runSteps acts = some s)
    (horderly : Trace.Along step Orderly new acts) : Sound s := by
  have hs : InForce s :=
    Trace.run_keeps (fun _ _ _ ho h hs => InForce.step hs ho h) horderly hrun inForce_new
  refine ⟨fun hreturned => ⟨hs.closed hreturned, ?_⟩, hs.quiescent, hs.oneHolding⟩
  simp [SchedulerClaimGate.enterClaim, hs.closed hreturned]

/-- A pause that waits for a claim, which ends. -/
def samplePause : List Action := [.enterClaim, .beginPause 0, .pollPause 0, .exitClaim, .pollPause 0]

theorem gate_sound_samplePause :
    ∃ s, runSteps samplePause = some s ∧ s.gate.state = .paused ∧ s.pauses 0 = .holding ∧
      Sound s :=
  ⟨_, rfl, rfl, rfl, gate_sound (show runSteps samplePause = some _ from rfl) (by decide)⟩

/-- `close` overtakes a pause that waits for a claim; the pause goes on when the claim ends. -/
def sampleOvertaken : List Action :=
  [.enterClaim, .beginPause 0, .close, .exitClaim, .pollPause 0, .resume]

theorem admitted_after_close :
    ∃ s, runSteps sampleOvertaken = some s ∧ s.closeReturned = true ∧ s.gate.state = .open ∧
      s.gate.enterClaim.1 = .ok true ∧ ¬ Sound s :=
  ⟨_, rfl, rfl, rfl, rfl, fun hs => nomatch (hs.closed rfl).1⟩

end GateRun

end LocalAgent.Runtime
