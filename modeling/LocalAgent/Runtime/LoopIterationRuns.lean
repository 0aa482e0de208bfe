import LocalAgent.Runtime.LoopEffects

/-!
# LocalAgent.Runtime.LoopIterationRuns — iterations, cursors and phases of a loop frame

Runs of all transactions on loop frames, in any order and by any lease holders.

* `FrameOk`: the phase and the cursor of a frame against its iterations, one lemma for every change.
* `Coherent`: every frame is `FrameOk`, decisions refer to their attempts, an unobserved delegation
  belongs to the current iteration of its parent.
* `iterations_sound`: in every reached state the iterations of every frame are numbered, observed in
  order and agree with its phase, and no transaction changes an accepted decision.
-/

namespace LocalAgent.Runtime

/-! ## One frame -/

/-- Iterations of a frame that wait for their observation: the last one, or none. -/
def pendingCount : Option IterationCore → ℕ
  | some row => if row.state = .observed then 0 else 1
  | none => 0

def lastFits : Option IterationCore → LoopPhase → Bool
  | some row, phase => phaseFits row.state phase
  | none, phase => phase = .needDecision

structure FrameOk (rows : ℕ → Option IterationCore) (core : FrameCore) : Prop where
  numbered : ∀ no, (rows no).isSome = true ↔ 1 ≤ no ∧ no ≤ core.currentIteration
  earlier : ∀ no row, rows no = some row → no < core.currentIteration → row.state = .observed
  cursors : ∀ no row, rows no = some row →
    row.observationCursor = if row.state = .observed then some no else none
  committed : core.committedObservationCursor + pendingCount (rows core.currentIteration) =
    core.currentIteration
  phase : core.phase ≠ .stopped → lastFits (rows core.currentIteration) core.phase = true

namespace FrameOk

variable {rows : ℕ → Option IterationCore} {core : FrameCore}

theorem new (stepId : String) {rows : ℕ → Option IterationCore} (hnone : ∀ no, rows no = none) :
    FrameOk rows ⟨stepId, .needDecision, 0, 0, none⟩ where
  numbered no := by
    simp only [hnone, Option.isSome_none]
    constructor
    · exact nofun
    · intro h
      omega
  earlier no row hrow := by
    rw [hnone] at hrow
    cases hrow
  cursors no row hrow := by
    rw [hnone] at hrow
    cases hrow
  committed := by simp [hnone, pendingCount]
  phase _ := by simp [hnone, lastFits]

section

variable (h : FrameOk rows core)
include h

theorem stop : FrameOk rows { core with phase := .stopped } :=
  ⟨h.numbered, h.earlier, h.cursors, h.committed, fun hne => absurd rfl hne⟩

theorem deliver (receipt : Option LoopReceipt) :
    FrameOk rows { core with finalDeliveryReceipt := receipt } :=
  ⟨h.numbered, h.earlier, h.cursors, h.committed, h.phase⟩

/-- Before a decision is needed, the last iteration was accepted. -/
theorem last_accepted (hstopped : core.phase ≠ .stopped)
    (hneed : core.phase ≠ .needDecision) (hready : core.phase ≠ .resultReady) :
    ∃ row, rows core.currentIteration = some row ∧ row.state = .accepted := by
  have hphase := h.phase hstopped
  cases hrow : rows core.currentIteration with
  | none =>
    rw [hrow] at hphase
    exact absurd (of_decide_eq_true hphase) hneed
  | some row =>
    rw [hrow] at hphase
    refine ⟨row, rfl, ?_⟩
    cases hstate : row.state with
    | accepted => rfl
    | opened | observed =>
      simp only [lastFits, hstate, phaseFits] at hphase
      exact absurd (of_decide_eq_true hphase) hneed
    | closed =>
      simp only [lastFits, hstate, phaseFits] at hphase
      exact absurd (of_decide_eq_true hphase) hready

theorem waits (hphase : core.phase = .decisionAccepted) :
    FrameOk rows { core with phase := .waitTool } := by
  refine ⟨h.numbered, h.earlier, h.cursors, h.committed, fun _ => ?_⟩
  obtain ⟨_, hrow, haccepted⟩ :=
    h.last_accepted (by simp [hphase]) (by simp [hphase]) (by simp [hphase])
  simp [hrow, lastFits, haccepted, phaseFits]

end

variable {row : IterationCore}

section

variable (h : FrameOk rows core)
include h

theorem current_of_unobserved {no : ℕ}
    (hrow : rows no = some row) (hstate : row.state ≠ .observed) : no = core.currentIteration := by
  have hle := ((h.numbered no).mp (by rw [hrow]; rfl)).2
  rcases Nat.lt_or_eq_of_le hle with hlt | heq
  · exact absurd (h.earlier no row hrow hlt) hstate
  · exact heq

section

variable (hrow : rows core.currentIteration = some row)
include hrow

theorem putLast {row' : IterationCore} {core' : FrameCore}
    (hcurrent : core'.currentIteration = core.currentIteration) (hcursor : row'.observationCursor =
      if row'.state = .observed then some core.currentIteration else none)
    (hcommitted : core'.committedObservationCursor + pendingCount (some row') =
      core.currentIteration) (hphase : phaseFits row'.state core'.phase = true) :
    FrameOk (fun no => if no = core.currentIteration then some row' else rows no) core' where
  numbered no := by
    rw [hcurrent]
    split_ifs with hno
    · have hbounds := (h.numbered no).mp (by rw [hno, hrow]; rfl)
      simpa using hbounds
    · exact h.numbered no
  earlier no other hother hlt := by
    rw [hcurrent] at hlt
    rw [if_neg (Nat.ne_of_lt hlt)] at hother
    exact h.earlier no other hother hlt
  cursors no other hother := by
    split_ifs at hother with hno
    · cases hother
      rwa [hno]
    · exact h.cursors no other hother
  committed := by
    rwa [hcurrent, if_pos rfl]
  phase _ := by
    rwa [hcurrent, if_pos rfl]

/-- The open iteration is decided. -/
theorem decide {row' : IterationCore} {phase : LoopPhase} (hopen : row.state = .opened)
    (hstate : row'.state = .accepted ∨ row'.state = .closed)
    (hcursor : row'.observationCursor = row.observationCursor)
    (hfits : phaseFits row'.state phase = true) :
    FrameOk (fun no => if no = core.currentIteration then some row' else rows no)
      { core with phase := phase } := by
  have hunobserved : row'.state ≠ .observed := by
    rcases hstate with hstate | hstate <;> simp [hstate]
  have hcommitted := h.committed
  simp only [hrow, pendingCount, hopen] at hcommitted
  refine h.putLast hrow rfl ?_ ?_ hfits
  · rw [hcursor, h.cursors _ row hrow, if_neg hunobserved, hopen]
    rfl
  · simpa [pendingCount, hunobserved] using hcommitted

theorem observe {row' : IterationCore} (haccepted : row.state = .accepted)
    (hstate : row'.state = .observed)
    (hcursor : row'.observationCursor = some (core.committedObservationCursor + 1)) :
    FrameOk (fun no => if no = core.currentIteration then some row' else rows no)
      { core with
        phase := .needDecision
        committedObservationCursor := core.committedObservationCursor + 1 } := by
  have hcommitted := h.committed
  simp only [hrow, pendingCount, haccepted] at hcommitted
  have hnext : core.committedObservationCursor + 1 = core.currentIteration := by
    simpa using hcommitted
  refine h.putLast hrow rfl ?_ ?_ ?_
  · rw [hcursor, if_pos hstate, hnext]
  · simpa [pendingCount, hstate] using hnext
  · simp [hstate, phaseFits]

end

/-- The next iteration is opened, and all before it are closed. -/
theorem openNext {new : IterationCore} (hphase : core.phase = .needDecision)
    (hclosed : ∀ row, rows core.currentIteration = some row → row.state ≠ .opened)
    (hopen : new.state = .opened) (hcursor : new.observationCursor = none) :
    FrameOk (fun no => if no = core.currentIteration + 1 then some new else rows no)
      { core with currentIteration := core.currentIteration + 1 } := by
  -- the last iteration is observed, or there is none
  have hlast : ∀ row, rows core.currentIteration = some row → row.state = .observed := by
    intro row hrow
    have hfits := h.phase (by simp [hphase])
    simp only [hrow, lastFits, hphase] at hfits
    cases hstate : row.state with
    | observed => rfl
    | opened => exact absurd hstate (hclosed row hrow)
    | accepted | closed => simp [hstate, phaseFits] at hfits
  have hcommitted : core.committedObservationCursor = core.currentIteration := by
    have hsum := h.committed
    cases hrow : rows core.currentIteration with
    | none => simpa [hrow, pendingCount] using hsum
    | some row => simpa [hrow, pendingCount, hlast row hrow] using hsum
  refine ⟨fun no => ?_, fun no row hrow hlt => ?_, fun no row hrow => ?_, ?_, fun _ => ?_⟩
  · split_ifs with hno
    · simp [hno]
    · rw [h.numbered no]
      simp only
      omega
  · simp only at hlt
    rw [if_neg (Nat.ne_of_lt hlt)] at hrow
    rcases Nat.lt_or_eq_of_le (Nat.le_of_lt_succ hlt) with hbefore | hsame
    · exact h.earlier no row hrow hbefore
    · exact hlast row (hsame ▸ hrow)
  · split_ifs at hrow with hno
    · cases hrow
      simp [hopen, hcursor]
    · exact h.cursors no row hrow
  · simp [pendingCount, hopen, hcommitted]
  · simp [lastFits, hopen, phaseFits, hphase]

end

end FrameOk

/-! ## All frames -/

namespace LoopTables

variable {tables tables' : LoopTables} {action : Action}

def rowsOf (tables : LoopTables) (id : String) (no : ℕ) : Option IterationCore :=
  (tables.iterations.get? (id, no)).map LoopIteration.core

/-- The model attempt of a decision. -/
def Accepts (tables : LoopTables) (stepId id : String) (no : ℕ) (attempt : ℕ × ℕ) : Prop :=
  ∃ model, tables.models.get? ⟨stepId, attempt.1, attempt.2⟩ = some model ∧
    model.state = .completed ∧ model.purpose = .decision ∧ model.loopFrameId = some id ∧
    model.loopIterationNo = some no

variable {no : ℕ} {attempt : ℕ × ℕ} {delegation : LoopDelegation}

theorem Accepts.mono {stepId id : String}
    (h : Accepts tables stepId id no attempt) (hmodels : ModelsKept tables tables') :
    Accepts tables' stepId id no attempt := by
  obtain ⟨model, hmodel, hcompleted, hrest⟩ := h
  exact ⟨model, hmodels _ model hmodel hcompleted, hcompleted, hrest⟩

/-- The delegation of a frame that waits for its child. -/
def Awaits (tables : LoopTables) (delegation : LoopDelegation) : Prop :=
  ∃ parent, tables.frames.get? delegation.parentFrameId = some parent ∧
    delegation.parentIteration = parent.currentIteration ∧
    (parent.phase = .waitChild ∨ parent.phase = .stopped)

structure Coherent (tables : LoopTables) : Prop where
  frames : ∀ id frame, tables.frames.get? id = some frame →
    FrameOk (tables.rowsOf id) frame.core
  owned : ∀ id no row, tables.rowsOf id no = some row → ∃ frame, tables.frames.get? id = some frame
  accepted : ∀ id frame no row decision, tables.frames.get? id = some frame →
    tables.rowsOf id no = some row → row.decisionId = some decision →
      ∃ digest attempt, row.decisionDigest = some digest ∧
        row.acceptedModelAttempt = some attempt ∧ Accepts tables frame.stepId id no attempt
  delegations : ∀ delegationId delegation, tables.delegations.get? delegationId = some delegation →
    delegation.observed = false → Awaits tables delegation
  single : ∀ delegationId delegation other otherDelegation,
    tables.delegations.get? delegationId = some delegation → delegation.observed = false →
    tables.delegations.get? other = some otherDelegation → otherDelegation.observed = false →
      delegationId = other

variable {row' : LoopIteration}

theorem rowsOf_set {id : String}
    (h : tables'.iterations = tables.iterations.set (id, no) row') (other : String) :
    tables'.rowsOf other = if other = id then
      fun no' => if no' = no then some row'.core else tables.rowsOf id no'
    else tables.rowsOf other := by
  funext no'
  unfold rowsOf
  rw [h, Dict.get?_set]
  by_cases hid : other = id
  · subst hid
    by_cases hno : no' = no <;> simp [hno]
  · simp [hid]

/-- Transactions that only move frames on keep the numbering. -/
theorem Coherent.kept (hc : Coherent tables) (h : Kept action tables tables') :
    Coherent tables' := by
  have hrows : ∀ id, tables'.rowsOf id = tables.rowsOf id := fun id => funext fun no => h.rows _
  have hbefore : ∀ id frame', tables'.frames.get? id = some frame' →
      ∃ frame, tables.frames.get? id = some frame ∧ FrameMove action tables id frame frame' := by
    intro id frame' hget'
    cases hget : tables.frames.get? id with
    | none =>
      rw [h.absent id hget] at hget'
      cases hget'
    | some frame =>
      obtain ⟨_, hmoved, hmove⟩ := h.frames id frame hget
      cases hget'.symm.trans hmoved
      exact ⟨frame, rfl, hmove⟩
  have hdelegation : ∀ id delegation', tables'.delegations.get? id = some delegation' →
      ∃ delegation, tables.delegations.get? id = some delegation ∧
        delegation.core = delegation'.core := by
    intro id delegation' hget'
    have hcore := h.delegations id
    rw [hget', Option.map_some] at hcore
    obtain ⟨delegation, hget, hsame⟩ := Option.map_eq_some_iff.mp hcore.symm
    exact ⟨delegation, hget, hsame⟩
  have hpending : ∀ id delegation', tables'.delegations.get? id = some delegation' →
      delegation'.observed = false → ∃ delegation, tables.delegations.get? id = some delegation ∧
        delegation.core = delegation'.core ∧ delegation.observed = false := by
    intro id delegation' hget' hobserved
    obtain ⟨delegation, hget, hsame⟩ := hdelegation id delegation' hget'
    exact ⟨delegation, hget, hsame, (congrArg (·.2.2) hsame).trans hobserved⟩
  refine ⟨fun id frame' hget' => ?_, fun id no row hrow => ?_,
    fun id frame' no row decision hget' hrow hdecision => ?_, ?_, ?_⟩
  · obtain ⟨frame, hget, hmove⟩ := hbefore id frame' hget'
    have hok := hc.frames id frame hget
    rw [hrows]
    cases hmove with
    | same hcore => exact hcore ▸ hok
    | waits hphase hcore => exact hcore ▸ hok.waits hphase
    | stops hcore => exact hcore ▸ hok.stop
  · rw [hrows] at hrow
    obtain ⟨frame, hget⟩ := hc.owned id no row hrow
    obtain ⟨frame', hget', -⟩ := h.frames id frame hget
    exact ⟨frame', hget'⟩
  · obtain ⟨frame, hget, hmove⟩ := hbefore id frame' hget'
    have hstep : frame'.stepId = frame.stepId := by
      cases hmove with
      | same hcore | waits _ hcore | stops hcore => exact congrArg FrameCore.stepId hcore
    rw [hrows] at hrow
    obtain ⟨digest, attempt, hdigest, hattempt, haccepts⟩ :=
      hc.accepted id frame no row decision hget hrow hdecision
    exact ⟨digest, attempt, hdigest, hattempt, hstep ▸ haccepts.mono h.models⟩
  · intro id delegation' hget' hobserved
    obtain ⟨delegation, hget, hsame, hopen⟩ := hpending id delegation' hget' hobserved
    obtain ⟨parent, hparent, hno, hphase⟩ := hc.delegations id delegation hget hopen
    obtain ⟨parent', hparent', hmove⟩ := h.frames _ parent hparent
    have hid : delegation.parentFrameId = delegation'.parentFrameId := congrArg (·.1) hsame
    refine ⟨parent', hid ▸ hparent', ?_, ?_⟩
    · have hcurrent : parent'.currentIteration = parent.currentIteration := by
        cases hmove with
        | same hcore | waits _ hcore | stops hcore =>
          exact congrArg FrameCore.currentIteration hcore
      rw [hcurrent, ← hno]
      exact (congrArg (·.2.1) hsame).symm
    · cases hmove with
      | same hcore =>
        have hphase' : parent'.phase = parent.phase := congrArg FrameCore.phase hcore
        rwa [hphase']
      | waits hwaits => simp [hwaits] at hphase
      | stops hcore => exact .inr (congrArg FrameCore.phase hcore)
  · intro id delegation' other other' hget hopen hget' hopen'
    obtain ⟨first, hfirst, -, hfirst'⟩ := hpending id delegation' hget hopen
    obtain ⟨second, hsecond, -, hsecond'⟩ := hpending other other' hget' hopen'
    exact hc.single id first other second hfirst hfirst' hsecond hsecond'

variable {frame' : LoopFrame}

theorem Awaits.put {id : String}
    (h : Awaits tables delegation) (hid : delegation.parentFrameId ≠ id)
    (hframes : tables'.frames = tables.frames.set id frame') : Awaits tables' delegation := by
  obtain ⟨parent, hparent, hrest⟩ := h
  exact ⟨parent, by simp [hframes, hid, hparent], hrest⟩

variable {frame : LoopFrame}

theorem Awaits.parent_ne {id : String}
    (h : Awaits tables delegation) (hget : tables.frames.get? id = some frame)
    (hchild : frame.phase ≠ .waitChild) (hstopped : frame.phase ≠ .stopped) :
    delegation.parentFrameId ≠ id := by
  rintro rfl
  obtain ⟨_, hparent, -, hphase⟩ := h
  cases hget.symm.trans hparent
  exact hphase.elim hchild hstopped

section

variable (hc : Coherent tables)
include hc

variable {id : String}

/-- One frame and its rows are written. -/
theorem Coherent.put (hget : tables.frames.get? id = some frame)
    (hframes : tables'.frames = tables.frames.set id frame')
    (hiterations : tables'.iterations = tables.iterations.set (id, no) row')
    (hmodels : tables'.models = tables.models)
    (hok : FrameOk (fun no' => if no' = no then some row'.core else tables.rowsOf id no')
      frame'.core) (hstep : frame'.stepId = frame.stepId)
    (haccepted : ∀ decision, row'.decisionId = some decision →
      ∃ digest attempt, row'.decisionDigest = some digest ∧
        row'.acceptedModelAttempt = some attempt ∧ Accepts tables frame.stepId id no attempt)
    (hdelegations : ∀ delegationId delegation,
      tables'.delegations.get? delegationId = some delegation → delegation.observed = false →
        Awaits tables' delegation) (hsingle : ∀ delegationId delegation other otherDelegation,
      tables'.delegations.get? delegationId = some delegation → delegation.observed = false →
      tables'.delegations.get? other = some otherDelegation → otherDelegation.observed = false →
        delegationId = other) : Coherent tables' := by
  have hkept : ModelsKept tables tables' := .refl hmodels
  refine ⟨fun other old hold => ?_, fun other no' row hrow => ?_,
    fun other old no' row decision hold hrow hdecision => ?_, hdelegations, hsingle⟩
  · rw [rowsOf_set hiterations]
    rw [hframes, Dict.get?_set] at hold
    split_ifs at hold with hid
    · cases hold
      rwa [if_pos hid]
    · rw [if_neg hid]
      exact hc.frames other old hold
  · rw [hframes, Dict.get?_set]
    split_ifs with hid
    · exact ⟨frame', rfl⟩
    · rw [rowsOf_set hiterations, if_neg hid] at hrow
      exact hc.owned other no' row hrow
  · rw [rowsOf_set hiterations] at hrow
    rw [hframes, Dict.get?_set] at hold
    split_ifs at hold hrow with hid
    · cases hold
      subst hid
      rw [hstep]
      simp only at hrow
      split_ifs at hrow with hno
      · cases hrow
        obtain ⟨digest, attempt, hdigest, hattempt, haccepts⟩ := haccepted decision hdecision
        exact ⟨digest, attempt, hdigest, hattempt, hno ▸ haccepts.mono hkept⟩
      · obtain ⟨digest, attempt, hdigest, hattempt, haccepts⟩ :=
          hc.accepted _ frame no' row decision hget hrow hdecision
        exact ⟨digest, attempt, hdigest, hattempt, haccepts.mono hkept⟩
    · obtain ⟨digest, attempt, hdigest, hattempt, haccepts⟩ :=
        hc.accepted other old no' row decision hold hrow hdecision
      exact ⟨digest, attempt, hdigest, hattempt, haccepts.mono hkept⟩

/-- A new frame has no iterations. -/
theorem Coherent.add {childId stepId : String} {child : LoopFrame}
    (habsent : tables.frames.get? childId = none)
    (hchild : child.core = ⟨stepId, .needDecision, 0, 0, none⟩) :
    Coherent { tables with frames := tables.frames.set childId child } := by
  have hnone : ∀ no, tables.rowsOf childId no = none := by
    intro no
    cases hrow : tables.rowsOf childId no with
    | none => rfl
    | some row =>
      obtain ⟨frame, hget⟩ := hc.owned childId no row hrow
      rw [habsent] at hget
      cases hget
  have hne : ∀ id frame, tables.frames.get? id = some frame → id ≠ childId := by
    rintro id frame hget rfl
    rw [habsent] at hget
    cases hget
  refine ⟨fun id frame hget => ?_, fun id no row hrow => ?_,
    fun id frame no row decision hget hrow hdecision => ?_, fun id delegation hget hobserved => ?_,
    hc.single⟩
  · rcases Dict.get?_set_cases hget with ⟨hid, rfl⟩ | ⟨-, hget⟩
    · rw [hchild, hid]
      exact .new stepId hnone
    · exact hc.frames id frame hget
  · obtain ⟨frame, hget⟩ := hc.owned id no row hrow
    exact ⟨frame, by simp [hne id frame hget, hget]⟩
  · simp only [Dict.get?_set] at hget
    split_ifs at hget with hid
    · subst hid
      exact absurd hrow (by simp [rowsOf, show tables.iterations.get? (id, no) = none from
        Option.map_eq_none_iff.mp (hnone no)])
    · exact hc.accepted id frame no row decision hget hrow hdecision
  · have hawaits := hc.delegations id delegation hget hobserved
    obtain ⟨parent, hparent, -⟩ := hawaits
    exact (hc.delegations id delegation hget hobserved).put (hne _ parent hparent) rfl

theorem Coherent.decide {row : LoopIteration} {decision digest : String}
    (h : Decides tables tables' id frame frame' row row' decision digest attempt) :
    FrameOk (fun no => if no = frame.currentIteration then some row'.core
      else tables.rowsOf id no) frame'.core ∧
    ∀ other, row'.decisionId = some other → ∃ digest attempt, row'.decisionDigest = some digest ∧
      row'.acceptedModelAttempt = some attempt ∧
      Accepts tables frame.stepId id frame.currentIteration attempt := by
  have hrow : tables.rowsOf id frame.currentIteration = some row.core := by
    simp [rowsOf, h.current]
  have hcursor : row'.core.observationCursor = row.core.observationCursor := by
    rw [h.core]
    rfl
  refine ⟨?_, fun other _ => ⟨digest, attempt, ?_, ?_, h.model⟩⟩
  · rw [h.frameCore]
    exact (hc.frames id frame h.get).decide hrow h.opened h.decided hcursor h.fits
  · exact congrArg IterationCore.decisionDigest h.core
  · exact congrArg IterationCore.acceptedModelAttempt h.core

/-- A receipt changes nothing else. -/
theorem Coherent.deliver {frame' : LoopFrame}
    {receipt : LoopReceipt} {journal : List LoopEvent} (hget : tables.frames.get? id = some frame)
    (hcore : frame'.core = { frame.core with finalDeliveryReceipt := some receipt }) :
    Coherent { tables with frames := tables.frames.set id frame', journal := journal } := by
  have hstep : frame'.stepId = frame.stepId := congrArg FrameCore.stepId hcore
  have hphase : frame'.phase = frame.phase := congrArg FrameCore.phase hcore
  have hcurrent : frame'.currentIteration = frame.currentIteration :=
    congrArg FrameCore.currentIteration hcore
  refine ⟨fun other old hold => ?_, fun other no row hrow => ?_,
    fun other old no row decision hold hrow hdecision => ?_,
    fun delegationId delegation hdelegation hobserved => ?_, hc.single⟩
  · rcases Dict.get?_set_cases hold with ⟨hid, rfl⟩ | ⟨-, hold⟩
    · rw [hcore, hid]
      exact (hc.frames id frame hget).deliver _
    · exact hc.frames other old hold
  · obtain ⟨old, hold⟩ := hc.owned other no row hrow
    by_cases hid : other = id
    · exact ⟨frame', by simp [hid]⟩
    · exact ⟨old, by simp [hid, hold]⟩
  · rcases Dict.get?_set_cases hold with ⟨hid, rfl⟩ | ⟨-, hold⟩
    · subst hid
      rw [hstep]
      exact hc.accepted _ frame no row decision hget hrow hdecision
    · exact hc.accepted other old no row decision hold hrow hdecision
  · obtain ⟨parent, hparent, hno, hwaits⟩ :=
      hc.delegations delegationId delegation hdelegation hobserved
    by_cases hid : delegation.parentFrameId = id
    · rw [hid] at hparent
      cases hget.symm.trans hparent
      exact ⟨frame', by simp [hid], by rw [hcurrent, hno], by rwa [hphase]⟩
    · exact ⟨parent, by simp [hid, hparent], hno, hwaits⟩

/-- Every effect keeps frames and iterations coherent. -/
theorem Coherent.effect (h : Effect action tables tables') : Coherent tables' := by
  cases h with
  | kept h => exact hc.kept h
  | opened id frame _ _ hget hphase hclosed hcore hframes hiterations hmodels hdelegations =>
    have hok := hc.frames id frame hget
    have hunopened : ∀ row, tables.rowsOf id frame.currentIteration = some row →
        row.state ≠ .opened := by
      intro row hrow hopen
      obtain ⟨stored, hstored, rfl⟩ := Option.map_eq_some_iff.mp hrow
      have hfound : tables.openRow id frame = some stored := by
        rw [openRow, hstored, Option.filter_some,
          if_pos (show Decidable.decide (stored.state = .opened) = true from decide_eq_true hopen)]
      rw [hclosed] at hfound
      cases hfound
    refine hc.put hget hframes hiterations hmodels ?_ (congrArg FrameCore.stepId hcore)
      (fun decision hdecision => nomatch hdecision) ?_ ?_
    · rw [hcore]
      exact hok.openNext hphase hunopened rfl rfl
    · intro delegationId delegation hdelegation hobserved
      rw [hdelegations] at hdelegation
      have hawaits := hc.delegations delegationId delegation hdelegation hobserved
      exact hawaits.put (hawaits.parent_ne hget (by simp [hphase]) (by simp [hphase])) hframes
    · rw [hdelegations]
      exact hc.single
  | decided _ _ _ _ _ _ _ _ h hframes hdelegations =>
    obtain ⟨hok, haccepted⟩ := hc.decide h
    refine hc.put h.get hframes h.iterations h.models hok (congrArg FrameCore.stepId h.frameCore)
      haccepted ?_ ?_
    · intro delegationId delegation hdelegation hobserved
      rw [hdelegations] at hdelegation
      have hawaits := hc.delegations delegationId delegation hdelegation hobserved
      exact hawaits.put (hawaits.parent_ne h.get (by simp [h.deciding]) (by simp [h.deciding]))
        hframes
    · rw [hdelegations]
      exact hc.single
  | handedOff id childId delegationId frame frame' child row row' decision digest attempt h hphase
      habsent hchild hframes hobserved hdelegations =>
    obtain ⟨hok, haccepted⟩ := hc.decide h
    have hid : id ≠ childId := by
      rintro rfl
      have hget := h.get
      rw [habsent] at hget
      cases hget
    have hpending : ∀ other delegation, tables'.delegations.get? other = some delegation →
        delegation.observed = false → other = delegationId ∧
          delegation = ⟨id, frame.currentIteration, childId, none, false⟩ := by
      intro other delegation hother hopen
      rw [hdelegations, Dict.get?_set] at hother
      split_ifs at hother with hsame
      · exact ⟨hsame, (Option.some.inj hother).symm⟩
      · rw [hobserved other delegation hother] at hopen
        cases hopen
    refine (hc.add habsent hchild).put (by simp [hid, h.get]) hframes h.iterations h.models hok
      (congrArg FrameCore.stepId h.frameCore) haccepted ?_ ?_
    · intro other delegation hother hopen
      obtain ⟨-, rfl⟩ := hpending other delegation hother hopen
      refine ⟨frame', by simp [hframes], ?_, .inl hphase⟩
      exact (congrArg FrameCore.currentIteration h.frameCore).symm
    · intro first delegation second delegation' hfirst hopen hsecond hopen'
      rw [(hpending first delegation hfirst hopen).1,
        (hpending second delegation' hsecond hopen').1]
  | observed id no frame frame' row row' hget hrow hphase hcore hcore' hframes hiterations hmodels
      hdelegations =>
    have hok := hc.frames id frame hget
    obtain ⟨last, hlast, haccepted⟩ := hok.last_accepted hphase.2.1 hphase.2.2 hphase.1
    have hstored : tables.rowsOf id no = some row.core := by simp [rowsOf, hrow]
    have hno : no = frame.currentIteration := by
      rcases hdelegations with ⟨hstate, -, -⟩ | ⟨-, delegationId, delegation, hdelegation, hparent,
        hiteration, hopen, -⟩
      · exact hok.current_of_unobserved hstored (by simp [LoopIteration.core, hstate])
      · obtain ⟨_, hget', hcurrent, -⟩ := hc.delegations _ delegation hdelegation hopen
        rw [hparent] at hget'
        cases hget.symm.trans hget'
        exact hiteration.symm.trans hcurrent
    subst hno
    have hsame : last = row.core := Option.mem_unique hlast hstored
    subst hsame
    refine hc.put hget hframes hiterations hmodels ?_ (congrArg FrameCore.stepId hcore) ?_ ?_ ?_
    · rw [hcore]
      exact hok.observe hlast haccepted (congrArg IterationCore.state hcore')
        (congrArg IterationCore.observationCursor hcore')
    · intro decision hdecision
      have hid : row'.decisionId = row.decisionId := congrArg IterationCore.decisionId hcore'
      have hdigest : row'.decisionDigest = row.decisionDigest :=
        congrArg IterationCore.decisionDigest hcore'
      have hattempt : row'.acceptedModelAttempt = row.acceptedModelAttempt :=
        congrArg IterationCore.acceptedModelAttempt hcore'
      rw [hdigest, hattempt]
      exact hc.accepted id frame _ row.core decision hget hstored (hid.symm.trans hdecision)
    · intro other delegation' hother hobserved
      rcases hdelegations with ⟨-, hwaits, hsame⟩ | ⟨-, delegationId, delegation, hdelegation, -, -,
        hopen, hset⟩
      · rw [hsame] at hother
        have hawaits := hc.delegations other delegation' hother hobserved
        exact hawaits.put (hawaits.parent_ne hget hwaits hphase.2.1) hframes
      · -- there was one pending delegation, and it is observed now
        rw [hset, Dict.get?_set] at hother
        split_ifs at hother with hid
        · cases hother
          cases hobserved
        · exact absurd (hc.single other delegation' delegationId delegation hother hobserved
            hdelegation hopen) hid
    · intro first delegation' second delegation'' hfirst hopen' hsecond hopen''
      rcases hdelegations with ⟨-, -, hsame⟩ | ⟨-, delegationId, delegation, hdelegation, -, -,
        hopen, hset⟩
      · rw [hsame] at hfirst hsecond
        exact hc.single first delegation' second delegation'' hfirst hopen' hsecond hopen''
      · rw [hset, Dict.get?_set] at hfirst
        split_ifs at hfirst with hid
        · cases hfirst
          cases hopen'
        · exact absurd (hc.single first delegation' delegationId delegation hfirst hopen'
            hdelegation hopen) hid
  | delivered _ _ _ _ _ _ hget _ _ hcore _ _ hafter =>
    subst hafter
    exact hc.deliver hget hcore

end

/-! ## Runs -/

theorem coherent_new (root : RootBudget) (frameId stepId : String) (contextPolicy : Bool)
    (maxIterations token : ℕ) (journal : List LoopEvent) :
    Coherent (new root frameId stepId contextPolicy maxIterations token journal) where
  frames := by
    intro id frame hget
    simp only [new, Dict.get?_set, Dict.get?_empty] at hget
    split_ifs at hget
    cases hget
    exact .new stepId fun _ => rfl
  owned := fun id no row hrow => nomatch hrow
  accepted := fun id frame no row decision hget hrow => nomatch hrow
  delegations := fun id delegation hget => nomatch hget
  single := fun id delegation other otherDelegation hget => nomatch hget

variable {sha256 : String → String}

theorem coherent_run {actions : List Action} (hc : Coherent tables)
    (h : Trace.run (step sha256) tables actions = some tables') : Coherent tables' :=
  Trace.run_invariant (fun _ _ _ hstep hc => hc.effect (step_effect hstep)) h hc

structure IterationsSound (tables : LoopTables) (id : String) (frame : LoopFrame) : Prop where
  /-- the iterations are `1..current_iteration` -/
  numbered : ∀ no, (∃ row, tables.iterations.get? (id, no) = some row) ↔
    1 ≤ no ∧ no ≤ frame.currentIteration
  /-- all but the last are observed -/
  earlier : ∀ no row, tables.iterations.get? (id, no) = some row → no < frame.currentIteration →
    row.state = .observed
  counted : frame.committedObservationCursor =
    (List.range' 1 frame.currentIteration).countP fun no =>
      (tables.iterations.get? (id, no)).any (·.state = .observed)
  /-- the observation cursors are `1..k` in the order of the iterations -/
  cursors : ∀ no row, tables.iterations.get? (id, no) = some row →
    row.observationCursor = if row.state = .observed then some no else none
  deciding : frame.phase ≠ .stopped → (frame.phase = .needDecision ↔
    ∀ row, tables.iterations.get? (id, frame.currentIteration) = some row →
      row.state = .opened ∨ row.state = .observed)
  waiting : frame.phase ≠ .stopped → ((frame.phase = .decisionAccepted ∨ frame.phase = .waitTool ∨
      frame.phase = .waitActions ∨ frame.phase = .waitChild) ↔
    ∃ row, tables.iterations.get? (id, frame.currentIteration) = some row ∧ row.state = .accepted)
  ready : frame.phase ≠ .stopped → (frame.phase = .resultReady ↔
    ∃ row, tables.iterations.get? (id, frame.currentIteration) = some row ∧ row.state = .closed)
  accepted : ∀ no row decision, tables.iterations.get? (id, no) = some row →
    row.decisionId = some decision → ∃ digest attempt, row.decisionDigest = some digest ∧
      row.acceptedModelAttempt = some attempt ∧ Accepts tables frame.stepId id no attempt

/-- No accepted decision changes. -/
def DecisionsKept (before after : LoopTables) : Prop :=
  ∀ key row, before.iterations.get? key = some row → row.decisionId ≠ none →
    ∃ row', after.iterations.get? key = some row' ∧ row'.decisionId = row.decisionId ∧
      row'.decisionDigest = row.decisionDigest ∧
      row'.acceptedModelAttempt = row.acceptedModelAttempt

theorem countP_range'_last {p : ℕ → Bool} {n : ℕ} (h : ∀ no, 1 ≤ no → no < n → p no = true) :
    (List.range' 1 n).countP p + (if n = 0 ∨ p n = true then 0 else 1) = n := by
  cases n with
  | zero => rfl
  | succ n =>
    have hbefore : (List.range' 1 n).countP p = n := by
      rw [List.countP_eq_length.mpr fun no hno => ?_, List.length_range']
      obtain ⟨hle, hlt⟩ := List.mem_range'_1.mp hno
      exact h no hle (by omega)
    rw [List.range'_1_concat, List.countP_append, hbefore, List.countP_singleton, Nat.add_comm 1 n]
    by_cases hlast : p (n + 1) = true <;> simp [hlast]

/-- What coherence says of the iterations of one frame. -/
theorem Coherent.iterationsSound (hc : Coherent tables) {id : String}
    (hget : tables.frames.get? id = some frame) : IterationsSound tables id frame := by
  have hok := hc.frames id frame hget
  have hstored : ∀ no row, tables.iterations.get? (id, no) = some row →
      tables.rowsOf id no = some row.core := fun no row hrow => by simp [rowsOf, hrow]
  have hnumbered : ∀ no, (∃ row, tables.iterations.get? (id, no) = some row) ↔
      1 ≤ no ∧ no ≤ frame.currentIteration := by
    intro no
    have hbounds := hok.numbered no
    rw [rowsOf, Option.isSome_map] at hbounds
    rwa [← Option.isSome_iff_exists]
  have hfits : ∀ row, tables.iterations.get? (id, frame.currentIteration) = some row →
      frame.phase ≠ .stopped → phaseFits row.state frame.phase = true := by
    intro row hrow hstopped
    have hphase := hok.phase hstopped
    have hlast : tables.rowsOf id frame.core.currentIteration = some row.core := hstored _ row hrow
    rwa [hlast] at hphase
  have hnone : tables.iterations.get? (id, frame.currentIteration) = none →
      frame.phase ≠ .stopped → frame.phase = .needDecision := by
    intro hrow hstopped
    have hphase := hok.phase hstopped
    have hlast : tables.rowsOf id frame.core.currentIteration = none := by
      simp [rowsOf, LoopFrame.core, hrow]
    rw [hlast] at hphase
    exact of_decide_eq_true hphase
  have hcases : frame.phase ≠ .stopped →
      (frame.phase = .needDecision ∧
        ∀ row, tables.iterations.get? (id, frame.currentIteration) = some row →
          row.state = .opened ∨ row.state = .observed) ∨
      ((frame.phase = .decisionAccepted ∨ frame.phase = .waitTool ∨ frame.phase = .waitActions ∨
          frame.phase = .waitChild) ∧
        ∃ row, tables.iterations.get? (id, frame.currentIteration) = some row ∧
          row.state = .accepted) ∨
      (frame.phase = .resultReady ∧
        ∃ row, tables.iterations.get? (id, frame.currentIteration) = some row ∧
          row.state = .closed) := by
    intro hstopped
    cases hrow : tables.iterations.get? (id, frame.currentIteration) with
    | none =>
      exact .inl ⟨hnone hrow hstopped,
        fun row hother => absurd hother (Option.some_ne_none row).symm⟩
    | some row =>
      have hphase := hfits row hrow hstopped
      cases hstate : row.state with
      | opened =>
        rw [hstate] at hphase
        refine .inl ⟨of_decide_eq_true hphase, fun other hother => .inl ?_⟩
        rw [← Option.some.inj hother, hstate]
      | observed =>
        rw [hstate] at hphase
        refine .inl ⟨of_decide_eq_true hphase, fun other hother => .inr ?_⟩
        rw [← Option.some.inj hother, hstate]
      | accepted =>
        rw [hstate] at hphase
        exact .inr (.inl ⟨of_decide_eq_true hphase, row, rfl, hstate⟩)
      | closed =>
        rw [hstate] at hphase
        exact .inr (.inr ⟨of_decide_eq_true hphase, row, rfl, hstate⟩)
  refine ⟨hnumbered, fun no row hrow hlt => hok.earlier no _ (hstored no row hrow) hlt, ?_,
    fun no row hrow => hok.cursors no _ (hstored no row hrow), fun hstopped => ?_,
    fun hstopped => ?_, fun hstopped => ?_, fun no row decision hrow hdecision =>
      hc.accepted id frame no _ decision hget (hstored no row hrow) hdecision⟩
  · have hcount := countP_range'_last (n := frame.currentIteration)
      (p := fun no => (tables.iterations.get? (id, no)).any (·.state = .observed)) (by
        intro no hle hlt
        obtain ⟨row, hrow⟩ := (hnumbered no).mpr ⟨hle, Nat.le_of_lt hlt⟩
        have hobserved : row.state = .observed := hok.earlier no _ (hstored no row hrow) hlt
        simp [hrow, hobserved])
    have hcommitted : frame.committedObservationCursor +
        pendingCount (tables.rowsOf id frame.currentIteration) = frame.currentIteration :=
      hok.committed
    cases hrow : tables.iterations.get? (id, frame.currentIteration) with
    | none =>
      have hzero : frame.currentIteration = 0 := by
        by_contra hpos
        obtain ⟨row, hsome⟩ := (hnumbered frame.currentIteration).mpr ⟨by omega, le_rfl⟩
        rw [hrow] at hsome
        cases hsome
      simp only [rowsOf, hrow, Option.map_none, pendingCount] at hcommitted
      simp only [hzero, true_or, if_true] at hcount
      simp only [hzero] at hcommitted ⊢
      omega
    | some row =>
      have hpos := ((hnumbered frame.currentIteration).mp ⟨row, hrow⟩).1
      have hne : frame.currentIteration ≠ 0 := by omega
      rw [hstored _ row hrow] at hcommitted
      simp only [pendingCount, LoopIteration.core] at hcommitted
      simp only [hrow, hne, false_or, Option.any_some, decide_eq_true_eq] at hcount
      by_cases hobserved : row.state = .observed
      · simp only [hobserved, if_true] at hcommitted hcount
        omega
      · simp only [hobserved, if_false] at hcommitted hcount
        omega
  · rcases hcases hstopped with ⟨hphase, hall⟩ | ⟨hphase, row, hrow, hstate⟩ |
      ⟨hphase, row, hrow, hstate⟩
    · exact ⟨fun _ => hall, fun _ => hphase⟩
    all_goals
      refine ⟨fun hneed => ?_, fun hall => ?_⟩
      · simp [hneed] at hphase
      · have hother := hall row hrow
        simp [hstate] at hother
  · rcases hcases hstopped with ⟨hphase, hall⟩ | ⟨hphase, hrow⟩ | ⟨hphase, row, hrow, hstate⟩
    · refine ⟨fun hwaits => ?_, ?_⟩
      · simp [hphase] at hwaits
      · rintro ⟨row, hrow, hstate⟩
        have hother := hall row hrow
        simp [hstate] at hother
    · exact ⟨fun _ => hrow, fun _ => hphase⟩
    · refine ⟨fun hwaits => ?_, ?_⟩
      · simp [hphase] at hwaits
      · rintro ⟨other, hother, hstate'⟩
        rw [← Option.mem_unique hrow hother, hstate] at hstate'
        cases hstate'
  · rcases hcases hstopped with ⟨hphase, hall⟩ | ⟨hphase, row, hrow, hstate⟩ | ⟨hphase, hrow⟩
    · refine ⟨fun hready => ?_, ?_⟩
      · simp [hphase] at hready
      · rintro ⟨row, hrow, hstate⟩
        have hother := hall row hrow
        simp [hstate] at hother
    · refine ⟨fun hready => ?_, ?_⟩
      · simp [hready] at hphase
      · rintro ⟨other, hother, hstate'⟩
        rw [← Option.mem_unique hrow hother, hstate] at hstate'
        cases hstate'
    · exact ⟨fun _ => hrow, fun _ => hphase⟩

theorem DecisionsKept.refl (h : tables'.iterations = tables.iterations) :
    DecisionsKept tables tables' :=
  fun key row hrow _ => ⟨row, by rw [h, hrow], rfl, rfl, rfl⟩

theorem DecisionsKept.set {key : String × ℕ} {row' : LoopIteration}
    (h : tables'.iterations = tables.iterations.set key row')
    (hkept : ∀ row, tables.iterations.get? key = some row → row.decisionId ≠ none →
      row'.decisionId = row.decisionId ∧ row'.decisionDigest = row.decisionDigest ∧
        row'.acceptedModelAttempt = row.acceptedModelAttempt) : DecisionsKept tables tables' := by
  intro other row hrow hdecided
  rw [h]
  by_cases hkey : other = key
  · subst hkey
    exact ⟨row', by simp, hkept row hrow hdecided⟩
  · exact ⟨row, by simp [hkey, hrow], rfl, rfl, rfl⟩

/-- Decisions are never rewritten. -/
theorem Coherent.decisionsKept (hc : Coherent tables) (h : Effect action tables tables') :
    DecisionsKept tables tables' := by
  cases h with
  | kept h =>
    intro key row hrow _
    have hcore := h.rows key
    rw [hrow, Option.map_some] at hcore
    obtain ⟨row', hrow', hsame⟩ := Option.map_eq_some_iff.mp hcore
    exact ⟨row', hrow', congrArg IterationCore.decisionId hsame,
      congrArg IterationCore.decisionDigest hsame,
      congrArg IterationCore.acceptedModelAttempt hsame⟩
  | opened _ frame _ _ hget _ _ _ _ hiterations =>
    refine .set hiterations fun row hrow => ?_
    have hnumbered := ((hc.iterationsSound hget).numbered (frame.currentIteration + 1)).mp
      ⟨row, hrow⟩
    omega
  | decided _ _ _ _ _ _ _ _ h | handedOff _ _ _ _ _ _ _ _ _ _ _ h =>
    refine .set h.iterations fun old hold hdecided => ?_
    rw [h.current] at hold
    exact absurd h.undecided (Option.some.inj hold ▸ hdecided)
  | observed _ _ _ _ _ _ _ hrow _ _ hcore' _ hiterations =>
    refine .set hiterations fun old hold _ => ?_
    rw [hrow] at hold
    cases hold
    exact ⟨congrArg IterationCore.decisionId hcore', congrArg IterationCore.decisionDigest hcore',
      congrArg IterationCore.acceptedModelAttempt hcore'⟩
  | delivered _ _ _ _ _ _ _ _ _ _ _ _ hafter =>
    subst hafter
    exact .refl rfl

/-- In every state that any interleaving of the transactions reaches, every frame agrees with its
iterations, and no further transaction changes an accepted decision. -/
theorem iterations_sound {root : RootBudget} {frameId stepId : String} {contextPolicy : Bool}
    {maxIterations token : ℕ} {journal : List LoopEvent} {actions : List Action}
    (hrun : Trace.run (step sha256)
      (new root frameId stepId contextPolicy maxIterations token journal) actions = some tables) :
    (∀ id frame, tables.frames.get? id = some frame → IterationsSound tables id frame) ∧
      ∀ action tables', tables.step sha256 action = some tables' →
        DecisionsKept tables tables' := by
  have hc := coherent_run
    (coherent_new root frameId stepId contextPolicy maxIterations token journal) hrun
  exact ⟨fun id frame hget => hc.iterationsSound hget,
    fun action tables' hstep => hc.decisionsKept (step_effect hstep)⟩

/-! ## A tool call and the next iteration -/

def sampleLoopLease : RunLease := ⟨"run", "a", 30000000, 1, 1⟩

def noChecks : LoopChecks := ⟨none, none, none⟩

/-- The root frame, in its first generation. -/
def sampleTarget : LoopTarget := ⟨"frame", some 0, none⟩

def tokens (n : ℤ) : Amounts
  | .totalTokens => n
  | _ => 0

def sampleLoopBudget : RootBudget :=
  ⟨.v1, fun d => if d = .totalTokens then some 100 else none, 0, 0, Dict.empty, Dict.empty, 1, 1⟩

def sampleOpen : Action := (sampleLoopLease, .openLoopIteration noChecks sampleTarget)

def sampleStart (attempt : ℕ) (purpose : ModelPurpose) (iterationNo : Option ℕ)
    (snapshotId : Option String) (operationId : String) : Action :=
  (sampleLoopLease, .startModelAttempt noChecks sampleTarget
    ⟨⟨"s1", 1, attempt⟩, purpose, iterationNo, snapshotId, operationId, some (tokens 10), []⟩)

def sampleFinish (attempt : ℕ) (operationId : String) (used : ℤ) : Action :=
  (sampleLoopLease, .finishModelAttempt noChecks
    ⟨⟨"s1", 1, attempt⟩, .completed, some "frame", some 0, some operationId, some (tokens used),
      "ACTUAL", none, []⟩)

def sampleDecision (iterationNo attempt : ℕ) (result : DecisionOutcome) : Action :=
  (sampleLoopLease, .acceptLoopDecision noChecks sampleTarget
    ⟨iterationNo, "decision-1", "decision-digest", (1, attempt), result⟩)

/-- One tool call from its decision to its observation, and the next iteration. -/
def sampleToolCall : List Action :=
  [sampleOpen, sampleStart 1 .decision (some 1) none "model:1", sampleFinish 1 "model:1" 10,
    sampleDecision 1 1 .toolCall,
    (sampleLoopLease, .bindLoopAction noChecks sampleTarget 1 "action-1"),
    (sampleLoopLease, .suspendLoop noChecks sampleTarget),
    (sampleLoopLease, .commitLoopObservation noChecks sampleTarget 1 "action-1"
      ("observation", "source")),
    sampleOpen]

theorem iterations_sound_sampleToolCall : ∃ tables frame, Trace.run (step id)
        (new sampleLoopBudget "frame" "s1" false 16 1 []) sampleToolCall = some tables ∧
      tables.frames.get? "frame" = some frame ∧ frame.currentIteration = 2 ∧
      frame.committedObservationCursor = 1 ∧ IterationsSound tables "frame" frame := by
  have hrun : (Trace.run (step id) (new sampleLoopBudget "frame" "s1" false 16 1 [])
      sampleToolCall).any (fun tables => (tables.frames.get? "frame").any fun frame =>
        frame.currentIteration = 2 ∧ frame.committedObservationCursor = 1) = true := by
    decide +kernel
  obtain ⟨tables, hs, hend⟩ := Option.any_eq_true _ _ |>.mp hrun
  obtain ⟨frame, hget, hcurrent, hcursor⟩ := exists_of_any hend
  exact ⟨tables, frame, hs, hget, hcurrent, hcursor, (iterations_sound hs).1 "frame" frame hget⟩

end LoopTables

end LocalAgent.Runtime
