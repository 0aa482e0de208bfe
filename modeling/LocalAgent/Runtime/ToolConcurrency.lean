import LocalAgent.Lib.Dict
import LocalAgent.Lib.Trace
import Mathlib.Data.Finset.Basic
import Mathlib.Algebra.Order.Ring.Int

/-!
# LocalAgent.Runtime.ToolConcurrency — `core/runtime/tool_concurrency.py`

A call of `acquire` takes a global permit, a permit of its tool and its resource key, in this
order.  The two permits are taken by worker threads; a cancelled call stops waiting for its worker,
the worker itself goes on.

* `ToolRun.step`: the controller with its calls of `acquire`, their workers and their leases.
* `Transfer`: what an operation adds to the accounts of the controller.
* `giveBack_transfer`: giving back what is held raises nothing.
-/

namespace LocalAgent.Runtime

/-! ## The controller -/

structure BoundedSemaphore where
  initial : ℕ
  value : ℕ
  deriving DecidableEq

namespace BoundedSemaphore

def new (initial : ℕ) : BoundedSemaphore := ⟨initial, initial⟩

/-- `acquire`; `none` while there is no permit. -/
def acquire (semaphore : BoundedSemaphore) : Option BoundedSemaphore :=
  if semaphore.value = 0 then none else some { semaphore with value := semaphore.value - 1 }

/-- `release`; `none` is the `ValueError` of a permit given back twice. -/
def release (semaphore : BoundedSemaphore) : Option BoundedSemaphore :=
  if semaphore.value ≥ semaphore.initial then none
  else some { semaphore with value := semaphore.value + 1 }

end BoundedSemaphore

structure ToolConcurrencyController where
  globalSemaphore : BoundedSemaphore
  toolSemaphores : Dict String BoundedSemaphore
  heldResources : Finset String
  accepting : Bool
  activePermits : ℤ

/-- Which of the two semaphores a call waits for. -/
inductive PermitKind where
  | global | tool
  deriving DecidableEq

/-- What a call of `acquire` remembers to have taken. -/
structure Acquired where
  globalAcquired : Bool
  toolAcquired : Bool
  resourceAcquired : Bool
  deriving DecidableEq

inductive ToolCallStage where
  /-- at the top of the loop of `_acquire_semaphore` -/
  | polling (kind : PermitKind)
  | awaiting (kind : PermitKind) (result : Option Bool)
  /-- in the loop of `_acquire_resource` -/
  | pollingResource
  /-- before the last checks of `acquire` -/
  | checking
  | leased
  | released
  | failed
  | orphaned (kind : PermitKind)
  /-- cancelled, and its worker has obtained a permit -/
  | lost (kind : PermitKind)
  /-- a `ValueError` out of giving back -/
  | broken
  deriving DecidableEq

/-- A call of `acquire` and, once it has returned, its lease. -/
structure ToolCall where
  toolName : String
  maximum : ℕ
  resourceKey : Option String
  stage : ToolCallStage

namespace ToolCallStage

/-- The local variables of `acquire`; a lease gives back all. -/
def acquired : ToolCallStage → Acquired
  | .polling .tool | .awaiting .tool _ => ⟨true, false, false⟩
  | .pollingResource => ⟨true, true, false⟩
  | .checking | .leased => ⟨true, true, true⟩
  | _ => ⟨false, false, false⟩

/-- `acquire` has neither returned nor raised. -/
def inFlight : ToolCallStage → Bool
  | .polling _ | .awaiting _ _ | .pollingResource | .checking => true
  | _ => false

end ToolCallStage

namespace ToolConcurrencyController

def new (maxConcurrency : ℕ) : ToolConcurrencyController :=
  ⟨.new maxConcurrency, Dict.empty, ∅, true, 0⟩

/-- `_tool_semaphore`; `none` is a `ValueError`. -/
def toolSemaphore (controller : ToolConcurrencyController) (toolName : String) (maximum : ℤ) :
    Option ToolConcurrencyController :=
  if maximum ≤ 0 then none
  else
    match controller.toolSemaphores.get? toolName with
    | none =>
      some { controller with
        toolSemaphores := controller.toolSemaphores.set toolName (.new maximum.toNat) }
    | some current => if current.initial ≠ maximum.toNat then none else some controller

def semaphore (controller : ToolConcurrencyController) (call : ToolCall) :
    PermitKind → Option BoundedSemaphore
  | .global => some controller.globalSemaphore
  | .tool => controller.toolSemaphores.get? call.toolName

def setSemaphore (controller : ToolConcurrencyController) (call : ToolCall)
    (semaphore : BoundedSemaphore) : PermitKind → ToolConcurrencyController
  | .global => { controller with globalSemaphore := semaphore }
  | .tool =>
    { controller with toolSemaphores := controller.toolSemaphores.set call.toolName semaphore }

/-- A worker takes a permit. -/
def acquirePermit (controller : ToolConcurrencyController) (call : ToolCall) (kind : PermitKind) :
    Option ToolConcurrencyController :=
  (controller.semaphore call kind).bind fun semaphore =>
    semaphore.acquire.map fun semaphore => controller.setSemaphore call semaphore kind

def releasePermit (controller : ToolConcurrencyController) (call : ToolCall) (kind : PermitKind) :
    Option ToolConcurrencyController :=
  (controller.semaphore call kind).bind fun semaphore =>
    semaphore.release.map fun semaphore => controller.setSemaphore call semaphore kind

def discardResource (controller : ToolConcurrencyController) :
    Option String → ToolConcurrencyController
  | none => controller
  | some key => { controller with heldResources := controller.heldResources.erase key }

/-- Give back what was acquired: the resource key, the permit of the tool, the global permit; with
`false` when one of the two releases raised. -/
def giveBack (controller : ToolConcurrencyController) (call : ToolCall) (acquired : Acquired) :
    Bool × ToolConcurrencyController :=
  let discarded :=
    if acquired.resourceAcquired then controller.discardResource call.resourceKey else controller
  match (if acquired.toolAcquired then discarded.releasePermit call .tool else some discarded) with
  | none => (false, discarded)
  | some returned =>
    match (if acquired.globalAcquired then returned.releasePermit call .global
      else some returned) with
    | none => (false, returned)
    | some returned => (true, returned)

end ToolConcurrencyController

/-! ## Runs -/

structure ToolRun where
  controller : ToolConcurrencyController
  calls : List ToolCall

namespace ToolRun

def new (maxConcurrency : ℕ) : ToolRun := ⟨.new maxConcurrency, []⟩

inductive Action where
  /-- `acquire` up to its first loop -/
  | acquire (toolName : String) (maximum : ℤ) (resourceKey : Option String)
  /-- the call hands `semaphore.acquire` to a worker thread -/
  | submit (call : ℕ)
  | workerObtains (call : ℕ)
  /-- the time slice of the worker ends, or the worker never started -/
  | workerGivesUp (call : ℕ)
  /-- the call goes on with the worker's result -/
  | resume (call : ℕ)
  | pollResource (call : ℕ)
  | grant (call : ℕ)
  /-- the token is cancelled or the time is up, at one of the call's own checks -/
  | fail (call : ℕ)
  /-- the task is cancelled at an await -/
  | cancel (call : ℕ)
  | release (call : ℕ)
  | closeAdmission

def put (s : ToolRun) (i : ℕ) (call : ToolCall) (controller : ToolConcurrencyController)
    (stage : ToolCallStage) : ToolRun :=
  ⟨controller, s.calls.set i { call with stage := stage }⟩

/-- The handler of `acquire`, which leaves the call at `stage`. -/
def unwind (s : ToolRun) (i : ℕ) (call : ToolCall) (stage : ToolCallStage) : ToolRun :=
  match s.controller.giveBack call call.stage.acquired with
  | (true, controller) => s.put i call controller stage
  | (false, controller) => s.put i call controller .broken

def afterPermit (call : ToolCall) : PermitKind → ToolCallStage
  | .global => .polling .tool
  | .tool => if call.resourceKey = none then .checking else .pollingResource

/-- What is left of a cancelled call and its worker. -/
def abandoned (kind : PermitKind) : Option Bool → ToolCallStage
  | none => .orphaned kind
  | some true => .lost kind
  | some false => .failed

/-- A step of one call; `none` when the action is not the call's next. -/
def stepCall (s : ToolRun) (i : ℕ) (call : ToolCall) : Action → Option ToolRun
  | .submit _ =>
    match call.stage with
    | .polling kind => some (s.put i call s.controller (.awaiting kind none))
    | _ => none
  | .workerObtains _ =>
    match call.stage with
    | .awaiting kind none =>
      (s.controller.acquirePermit call kind).map fun controller =>
        s.put i call controller (.awaiting kind (some true))
    | .orphaned kind =>
      (s.controller.acquirePermit call kind).map fun controller =>
        s.put i call controller (.lost kind)
    | _ => none
  | .workerGivesUp _ =>
    match call.stage with
    | .awaiting kind none => some (s.put i call s.controller (.awaiting kind (some false)))
    | .orphaned _ => some (s.put i call s.controller .failed)
    | _ => none
  | .resume _ =>
    match call.stage with
    | .awaiting kind (some true) => some (s.put i call s.controller (afterPermit call kind))
    | .awaiting kind (some false) => some (s.put i call s.controller (.polling kind))
    | _ => none
  | .pollResource _ =>
    match call.stage, call.resourceKey with
    | .pollingResource, some key =>
      if key ∈ s.controller.heldResources then some s
      else
        some (s.put i call
          { s.controller with heldResources := insert key s.controller.heldResources } .checking)
    | _, _ => none
  | .grant _ =>
    match call.stage with
    | .checking =>
      some (s.put i call
        { s.controller with activePermits := s.controller.activePermits + 1 } .leased)
    | _ => none
  | .fail _ =>
    match call.stage with
    | .polling _ | .pollingResource | .checking => some (s.unwind i call .failed)
    | _ => none
  | .cancel _ =>
    match call.stage with
    | .awaiting kind result => some (s.unwind i call (abandoned kind result))
    | .pollingResource => some (s.unwind i call .failed)
    | _ => none
  | .release _ =>
    match call.stage with
    | .leased =>
      match s.controller.giveBack call call.stage.acquired with
      | (true, controller) =>
        some (s.put i call
          { controller with activePermits := controller.activePermits - 1 } .released)
      | (false, controller) => some (s.put i call controller .broken)
    | .released => some s
    | _ => none
  | _ => none

def Action.call? : Action → Option ℕ
  | .submit i | .workerObtains i | .workerGivesUp i | .resume i | .pollResource i | .grant i
  | .fail i | .cancel i | .release i => some i
  | .acquire _ _ _ | .closeAdmission => none

def step (s : ToolRun) : Action → Option ToolRun
  | .acquire toolName maximum resourceKey =>
    if s.controller.accepting = false then some s
    else
      match s.controller.toolSemaphore toolName maximum with
      | none => some s
      | some controller =>
        some ⟨controller, s.calls ++ [⟨toolName, maximum.toNat, resourceKey, .polling .global⟩]⟩
  | .closeAdmission => some { s with controller := { s.controller with accepting := false } }
  | action =>
    action.call?.bind fun i => s.calls[i]?.bind fun call => s.stepCall i call action

def runSteps (maxConcurrency : ℕ) (acts : List Action) : Option ToolRun :=
  Trace.run step (new maxConcurrency) acts

/-! ## Accounts -/

/-- What can be free or held. -/
inductive Account where
  | global
  | tool (name : String)
  | resource (key : String)
  /-- the counter of active permits, which every lease raises by one -/
  | leases
  deriving DecidableEq

end ToolRun

open ToolRun (Account)

namespace ToolConcurrencyController

def free (controller : ToolConcurrencyController) : Account → ℤ
  | .global => controller.globalSemaphore.value
  | .tool name => (controller.toolSemaphores.get? name).elim 0 fun semaphore => semaphore.value
  | .resource key => if key ∈ controller.heldResources then 0 else 1
  | .leases => -controller.activePermits

def total (controller : ToolConcurrencyController) : Account → ℤ
  | .global => controller.globalSemaphore.initial
  | .tool name => (controller.toolSemaphores.get? name).elim 0 fun semaphore => semaphore.initial
  | .resource _ => 1
  | .leases => 0

/-- The controller goes on with `given` more in every account. -/
structure Transfer (c c' : ToolConcurrencyController) (given : Account → ℤ) : Prop where
  free : ∀ account, c'.free account = c.free account + given account
  total : ∀ account, c'.total account = c.total account
  known : ∀ name semaphore, c.toolSemaphores.get? name = some semaphore →
    ∃ semaphore', c'.toolSemaphores.get? name = some semaphore' ∧
      semaphore'.initial = semaphore.initial

variable {c c' c'' : ToolConcurrencyController} {call : ToolCall}

theorem Transfer.refl (c : ToolConcurrencyController) : Transfer c c fun _ => 0 :=
  ⟨fun _ => (add_zero _).symm, fun _ => rfl, fun _ semaphore h => ⟨semaphore, h, rfl⟩⟩

theorem Transfer.trans {given given' : Account → ℤ} (h : Transfer c c' given)
    (h' : Transfer c' c'' given') : Transfer c c'' fun account => given account + given' account where
  free := fun account => by rw [h'.free, h.free, add_assoc]
  total := fun account => by rw [h'.total, h.total]
  known := by
    intro name semaphore hname
    obtain ⟨next, hnext, hinitial⟩ := h.known name semaphore hname
    obtain ⟨last, hlast, hinitial'⟩ := h'.known name next hnext
    exact ⟨last, hlast, hinitial'.trans hinitial⟩

theorem Transfer.congr {given given' : Account → ℤ} (h : Transfer c c' given)
    (heq : ∀ account, given account = given' account) : Transfer c c' given' :=
  ⟨fun account => by rw [h.free, heq], h.total, h.known⟩

def account (call : ToolCall) : PermitKind → Account
  | .global => .global
  | .tool => .tool call.toolName

variable {kind : PermitKind}

/-- A changed semaphore moves its own account only. -/
theorem transfer_setSemaphore {semaphore semaphore' : BoundedSemaphore}
    (h : c.semaphore call kind = some semaphore) (hinitial : semaphore'.initial = semaphore.initial)
    {given : ℤ} (hvalue : (semaphore'.value : ℤ) = semaphore.value + given) :
    Transfer c (c.setSemaphore call semaphore' kind)
      fun a => if a = account call kind then given else 0 := by
  cases kind with
  | global =>
    cases h
    refine ⟨fun a => ?_, fun a => ?_, fun _ found h => ⟨found, h, rfl⟩⟩
    · cases a with
      | global => simp [setSemaphore, free, account, hvalue]
      | tool | resource | leases => exact (add_zero _).symm
    · cases a <;> simp [setSemaphore, total, hinitial]
  | tool =>
    have h : c.toolSemaphores.get? call.toolName = some semaphore := h
    refine ⟨fun a => ?_, fun a => ?_, fun name found hfound => ?_⟩
    · cases a with
      | tool name =>
        by_cases hname : name = call.toolName
        · subst hname
          simp [setSemaphore, free, account, h, hvalue]
        · simp [setSemaphore, free, account, hname]
      | global | resource | leases => exact (add_zero _).symm
    · cases a with
      | tool name =>
        by_cases hname : name = call.toolName
        · subst hname
          simp [setSemaphore, total, h, hinitial]
        · simp [setSemaphore, total, hname]
      | global | resource | leases => rfl
    · by_cases hname : name = call.toolName
      · subst hname
        cases h.symm.trans hfound
        exact ⟨semaphore', by simp [setSemaphore], hinitial⟩
      · exact ⟨found, by simpa [setSemaphore, hname] using hfound, rfl⟩

theorem transfer_acquirePermit (h : c.acquirePermit call kind = some c') :
    Transfer c c' fun a => if a = account call kind then -1 else 0 := by
  obtain ⟨semaphore, hsemaphore, h⟩ := Option.bind_eq_some_iff.mp h
  obtain ⟨_, htaken, rfl⟩ := Option.map_eq_some_iff.mp h
  unfold BoundedSemaphore.acquire at htaken
  split_ifs at htaken with hzero
  cases htaken
  have hvalue : ((semaphore.value - 1 : ℕ) : ℤ) = semaphore.value + -1 := by omega
  exact transfer_setSemaphore hsemaphore (by rfl) hvalue

/-- A released permit is free again. -/
theorem releasePermit_transfer (c : ToolConcurrencyController) (call : ToolCall) (kind : PermitKind)
    (hless : c.free (account call kind) < c.total (account call kind)) :
    ∃ c', c.releasePermit call kind = some c' ∧
      Transfer c c' fun a => if a = account call kind then 1 else 0 := by
  have hsemaphore : ∃ semaphore, c.semaphore call kind = some semaphore ∧
      semaphore.value < semaphore.initial := by
    cases kind with
    | global => exact ⟨_, rfl, by simpa [free, total, account] using hless⟩
    | tool =>
      simp only [free, total, account] at hless
      cases h : c.toolSemaphores.get? call.toolName with
      | none => simp [h] at hless
      | some semaphore => exact ⟨semaphore, h, by simpa [h] using hless⟩
  obtain ⟨semaphore, hsemaphore, hvalue⟩ := hsemaphore
  refine ⟨c.setSemaphore call { semaphore with value := semaphore.value + 1 } kind, ?_,
    transfer_setSemaphore hsemaphore (by rfl) (by push_cast; rfl)⟩
  simp [releasePermit, hsemaphore, BoundedSemaphore.release, not_le.mpr hvalue]

/-- What a call gives back with what it remembers. -/
def returned (call : ToolCall) (acquired : Acquired) : Account → ℤ
  | .global => acquired.globalAcquired.toNat
  | .tool name => (acquired.toolAcquired && name = call.toolName).toNat
  | .resource key => (acquired.resourceAcquired && call.resourceKey = some key).toNat
  | .leases => 0

theorem transfer_discardResource
    (hheld : ∀ key, call.resourceKey = some key → key ∈ c.heldResources) :
    Transfer c (c.discardResource call.resourceKey) (returned call ⟨false, false, true⟩) := by
  refine ⟨fun a => ?_, fun a => ?_, ?_⟩
  · cases hkey : call.resourceKey with
    | none => cases a <;> simp [discardResource, returned, hkey]
    | some key =>
      cases a with
      | resource other =>
        by_cases hother : other = key
        · subst hother
          simp [discardResource, free, returned, hkey, hheld other hkey]
        · simp [discardResource, free, returned, hkey, hother, Ne.symm hother]
      | global | tool | leases => simp [discardResource, free, returned]
  · cases call.resourceKey <;> cases a <;> rfl
  · intro _ semaphore h
    refine ⟨semaphore, ?_, rfl⟩
    cases call.resourceKey <;> exact h

/-- What was obtained is given back. -/
theorem giveBack_transfer {acquired : Acquired}
    (hkey : acquired.resourceAcquired = true → ∀ key, call.resourceKey = some key →
      key ∈ c.heldResources)
    (htool : acquired.toolAcquired = true →
      c.free (.tool call.toolName) < c.total (.tool call.toolName))
    (hglobal : acquired.globalAcquired = true → c.free .global < c.total .global) :
    ∃ c', c.giveBack call acquired = (true, c') ∧ Transfer c c' (returned call acquired) := by
  obtain ⟨globalAcquired, toolAcquired, resourceAcquired⟩ := acquired
  simp only at hkey htool hglobal
  obtain ⟨c₁, hc₁, h₁⟩ : ∃ c₁, (if resourceAcquired = true then c.discardResource call.resourceKey
      else c) = c₁ ∧ Transfer c c₁ (returned call ⟨false, false, resourceAcquired⟩) := by
    cases resourceAcquired with
    | true => exact ⟨_, rfl, transfer_discardResource (hkey rfl)⟩
    | false => exact ⟨c, rfl, (Transfer.refl c).congr fun a => by cases a <;> rfl⟩
  obtain ⟨c₂, hc₂, h₂⟩ : ∃ c₂, (if toolAcquired = true then c₁.releasePermit call .tool
      else some c₁) = some c₂ ∧ Transfer c₁ c₂ (returned call ⟨false, toolAcquired, false⟩) := by
    cases toolAcquired with
    | true =>
      obtain ⟨c₂, hc₂, h₂⟩ := c₁.releasePermit_transfer call .tool (by
        rw [account, h₁.free, h₁.total]
        simpa [returned] using htool rfl)
      exact ⟨c₂, hc₂, h₂.congr fun a => by cases a <;> simp [returned, account, Bool.toNat, Bool.cond_decide]⟩
    | false => exact ⟨c₁, rfl, (Transfer.refl c₁).congr fun a => by cases a <;> rfl⟩
  obtain ⟨c₃, hc₃, h₃⟩ : ∃ c₃, (if globalAcquired = true then c₂.releasePermit call .global
      else some c₂) = some c₃ ∧ Transfer c₂ c₃ (returned call ⟨globalAcquired, false, false⟩) := by
    cases globalAcquired with
    | true =>
      obtain ⟨c₃, hc₃, h₃⟩ := c₂.releasePermit_transfer call .global (by
        rw [account, h₂.free, h₂.total, h₁.free, h₁.total]
        simpa [returned] using hglobal rfl)
      exact ⟨c₃, hc₃, h₃.congr fun a => by cases a <;> simp [returned, account, Bool.toNat]⟩
    | false => exact ⟨c₂, rfl, (Transfer.refl c₂).congr fun a => by cases a <;> rfl⟩
  refine ⟨c₃, ?_, ((h₁.trans h₂).trans h₃).congr fun a => ?_⟩
  · simp only [giveBack, hc₁, hc₂, hc₃]
  · cases a <;> simp [returned]

end ToolConcurrencyController

end LocalAgent.Runtime
