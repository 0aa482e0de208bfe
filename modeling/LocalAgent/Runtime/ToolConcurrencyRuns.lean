import LocalAgent.Runtime.ToolConcurrency

/-!
# LocalAgent.Runtime.ToolConcurrencyRuns — permits over whole runs

* `Balanced`: every permit is free or held by one call, lost ones included.
* `Attended`: no worker obtains a permit for a call that is gone.
* `leases_sound`: the bounds on live leases, and along attended steps nothing is leaked.
-/

namespace LocalAgent.Runtime

open ToolRun (Account)

/-! ## Every permit is free or held -/

namespace ToolCallStage

def holdsGlobal : ToolCallStage → Bool
  | .awaiting .global (some true) | .lost .global => true
  | stage => stage.acquired.globalAcquired

def holdsTool : ToolCallStage → Bool
  | .awaiting .tool (some true) | .lost .tool => true
  | stage => stage.acquired.toolAcquired

/-- All that a call holds: a global permit, one of its tool, its resource key, a lease. -/
def holdings (stage : ToolCallStage) : Bool × Bool × Bool × Bool :=
  (stage.holdsGlobal, stage.holdsTool, stage.acquired.resourceAcquired, stage = .leased)

end ToolCallStage

def ToolCall.holds (call : ToolCall) : Account → Bool
  | .global => call.stage.holdsGlobal
  | .tool name => call.stage.holdsTool && name = call.toolName
  | .resource key => call.stage.acquired.resourceAcquired && call.resourceKey = some key
  | .leases => call.stage = .leased

namespace ToolRun

open ToolConcurrencyController (Transfer)

variable {s s' : ToolRun} {i : ℕ} {call : ToolCall} {maxConcurrency : ℕ}

/-- Every account is balanced, whoever knows of what is held. -/
structure Balanced (maxConcurrency : ℕ) (s : ToolRun) : Prop where
  bound : s.controller.total .global = maxConcurrency
  balance : ∀ account, s.controller.free account + s.calls.countP (·.holds account) =
    s.controller.total account
  known : ∀ call ∈ s.calls, ∃ semaphore,
    s.controller.toolSemaphores.get? call.toolName = some semaphore ∧
      semaphore.initial = call.maximum
  unbroken : ∀ call ∈ s.calls, call.stage ≠ .broken

variable {account : Account}

namespace Balanced

theorem new (maxConcurrency : ℕ) : Balanced maxConcurrency (new maxConcurrency) := by
  refine ⟨rfl, fun account => ?_, (fun _ h => nomatch h), (fun _ h => nomatch h)⟩
  cases account <;> simp [ToolRun.new, ToolConcurrencyController.new, BoundedSemaphore.new,
    ToolConcurrencyController.free, ToolConcurrencyController.total]

variable {stage : ToolCallStage} {controller : ToolConcurrencyController}

section

variable (hs : Balanced maxConcurrency s)
include hs

section

variable (hcall : s.calls[i]? = some call)
include hcall

theorem put {given : Account → ℤ}
    (htransfer : Transfer s.controller controller given) (hstage : stage ≠ .broken)
    (hgiven : ∀ account, given account + (({ call with stage } : ToolCall).holds account).toNat =
      (call.holds account).toNat) : Balanced maxConcurrency (s.put i call controller stage) := by
  have hmem : ∀ other ∈ s.calls.set i { call with stage }, other ∈ s.calls ∨
      other = { call with stage } := fun other h => List.mem_or_eq_of_mem_set h
  refine ⟨(htransfer.total _).trans hs.bound, fun account => ?_, fun other h => ?_,
    fun other h => ?_⟩
  · have hcount := Trace.countP_set_add (p := (·.holds account)) (b := { call with stage }) hcall
    have hbalance := hs.balance account
    have := hgiven account
    rw [ToolRun.put, htransfer.free, htransfer.total, ← hbalance]
    simp only
    omega
  · obtain ⟨old, hold, hname, hmaximum⟩ : ∃ old ∈ s.calls, other.toolName = old.toolName ∧
        other.maximum = old.maximum := by
      rcases hmem other h with h | rfl
      · exact ⟨other, h, rfl, rfl⟩
      · exact ⟨call, List.mem_of_getElem? hcall, rfl, rfl⟩
    obtain ⟨_, hsemaphore, hinitial⟩ := hs.known old hold
    obtain ⟨semaphore', hsemaphore', hinitial'⟩ := htransfer.known _ _ hsemaphore
    rw [hname, hmaximum]
    exact ⟨semaphore', hsemaphore', hinitial'.trans hinitial⟩
  · rcases hmem other h with h | rfl
    · exact hs.unbroken other h
    · exact hstage

theorem held
    (h : call.holds account = true) : s.controller.free account < s.controller.total account := by
  have hcount : 0 < s.calls.countP (·.holds account) :=
    List.countP_pos_iff.mpr ⟨call, List.mem_of_getElem? hcall, h⟩
  have := hs.balance account
  omega

/-- A call can always give back what its stage holds. -/
theorem giveBack :
    ∃ controller, s.controller.giveBack call call.stage.acquired = (true, controller) ∧
      Transfer s.controller controller
        (ToolConcurrencyController.returned call call.stage.acquired) := by
  have hstage : (call.stage.acquired.toolAcquired = true → call.stage.holdsTool = true) ∧
      (call.stage.acquired.globalAcquired = true → call.stage.holdsGlobal = true) := by
    constructor
    · intro h
      unfold ToolCallStage.holdsTool
      split <;> first | rfl | exact h
    · intro h
      unfold ToolCallStage.holdsGlobal
      split <;> first | rfl | exact h
  refine ToolConcurrencyController.giveBack_transfer (fun h key hkey => ?_) (fun h => ?_)
    fun h => hs.held hcall (hstage.2 h)
  · have hholds : call.holds (.resource key) = true := by simp [ToolCall.holds, h, hkey]
    have hless := hs.held hcall hholds
    simp only [ToolConcurrencyController.free, ToolConcurrencyController.total] at hless
    split_ifs at hless with hmem
    · exact hmem
    · omega
  · exact hs.held hcall (by simp [ToolCall.holds, hstage.1 h])

theorem unwind (hstage : stage ≠ .broken)
    (hgiven : ∀ account, ToolConcurrencyController.returned call call.stage.acquired account +
      (({ call with stage } : ToolCall).holds account).toNat = (call.holds account).toNat) :
    Balanced maxConcurrency (s.unwind i call stage) := by
  obtain ⟨_, hback, htransfer⟩ := hs.giveBack hcall
  simp only [ToolRun.unwind, hback]
  exact hs.put hcall htransfer hstage hgiven

end

end

theorem holds_failed (call : ToolCall) (account : Account) :
    ({ call with stage := .failed } : ToolCall).holds account = false := by
  cases account <;> rfl

section

variable (hs : Balanced maxConcurrency s)
include hs

section

variable (hcall : s.calls[i]? = some call)
include hcall

theorem fail (hglobal : call.stage.holdsGlobal = call.stage.acquired.globalAcquired)
    (htool : call.stage.holdsTool = call.stage.acquired.toolAcquired)
    (hlease : call.stage ≠ .leased) : Balanced maxConcurrency (s.unwind i call .failed) := by
  refine hs.unwind hcall nofun fun account => ?_
  rw [holds_failed]
  cases account <;>
    simp [ToolCall.holds, hglobal, htool, hlease, ToolConcurrencyController.returned]

theorem goOn {stage : ToolCallStage} (hstage : stage ≠ .broken)
    (hsame : stage.holdings = call.stage.holdings) :
    Balanced maxConcurrency (s.put i call s.controller stage) := by
  simp only [ToolCallStage.holdings, Prod.mk.injEq] at hsame
  obtain ⟨hglobal, htool, hresource, hlease⟩ := hsame
  refine hs.put hcall (Transfer.refl _) hstage fun account => ?_
  cases account <;> simp only [ToolCall.holds, hglobal, htool, hresource, hlease, zero_add]

theorem obtain_permit {kind : PermitKind}
    (hpermit : s.controller.acquirePermit call kind = some controller) (hstage : stage ≠ .broken)
    (hmore : ∀ account, (({ call with stage } : ToolCall).holds account).toNat =
      (call.holds account).toNat +
        if account = ToolConcurrencyController.account call kind then 1 else 0) :
    Balanced maxConcurrency (s.put i call controller stage) := by
  refine hs.put hcall (ToolConcurrencyController.transfer_acquirePermit hpermit) hstage
    fun account => ?_
  rw [hmore]
  split_ifs <;> push_cast <;> omega

/-- The worker obtains the permit it waits for. -/
theorem workerObtains
    (h : s.stepCall i call (.workerObtains i) = some s') : Balanced maxConcurrency s' := by
  simp only [stepCall] at h
  split at h
  · rename_i kind hstage
    obtain ⟨controller, hpermit, rfl⟩ := Option.map_eq_some_iff.mp h
    refine hs.obtain_permit hcall hpermit (by simp) fun account => ?_
    cases kind <;> cases account <;>
      simp [ToolCall.holds, hstage, ToolCallStage.holdsGlobal, ToolCallStage.holdsTool,
        ToolCallStage.acquired, ToolConcurrencyController.account, Bool.toNat, Bool.cond_decide]
  · rename_i kind hstage
    obtain ⟨_, hpermit, rfl⟩ := Option.map_eq_some_iff.mp h
    refine hs.obtain_permit hcall hpermit (by simp) fun account => ?_
    cases kind <;> cases account <;>
      simp [ToolCall.holds, hstage, ToolCallStage.holdsGlobal, ToolCallStage.holdsTool,
        ToolCallStage.acquired, ToolConcurrencyController.account, Bool.toNat, Bool.cond_decide]
  · cases h

end

end

theorem transfer_insert {key : String} (hheld : key ∉ controller.heldResources) :
    Transfer controller { controller with heldResources := insert key controller.heldResources }
      fun a => if a = .resource key then -1 else 0 := by
  refine ⟨fun a => ?_, fun a => by cases a <;> rfl, fun _ found h => ⟨found, h, rfl⟩⟩
  cases a with
  | resource other =>
    by_cases hother : other = key
    · subst hother
      simp [ToolConcurrencyController.free, hheld]
    · simp [ToolConcurrencyController.free, hother]
  | global | tool | leases => exact (add_zero _).symm

theorem transfer_count (controller : ToolConcurrencyController) (more : ℤ) :
    Transfer controller { controller with activePermits := controller.activePermits + more }
      fun a => if a = .leases then -more else 0 := by
  refine ⟨fun a => ?_, fun a => by cases a <;> rfl, fun _ found h => ⟨found, h, rfl⟩⟩
  cases a with
  | leases => simp only [ToolConcurrencyController.free, if_true]; omega
  | resource | global | tool => exact (add_zero _).symm

section

variable (hs : Balanced maxConcurrency s)
include hs

section

variable (hcall : s.calls[i]? = some call)
include hcall

theorem pollResource
    (h : s.stepCall i call (.pollResource i) = some s') : Balanced maxConcurrency s' := by
  simp only [stepCall] at h
  split at h
  · rename_i key hstage hkey
    split_ifs at h with hheld
    · cases h
      exact hs
    · cases h
      refine hs.put hcall (transfer_insert hheld) nofun fun a => ?_
      cases a with
      | resource other =>
        by_cases hother : other = key
        · subst hother
          simp [ToolCall.holds, hstage, hkey, ToolCallStage.acquired]
        · simp [ToolCall.holds, hstage, hkey, ToolCallStage.acquired, hother, Ne.symm hother]
      | global => simp [ToolCall.holds, hstage, ToolCallStage.holdsGlobal, ToolCallStage.acquired]
      | tool => simp [ToolCall.holds, hstage, ToolCallStage.holdsTool, ToolCallStage.acquired]
      | leases => simp [ToolCall.holds, hstage]
  · cases h

theorem takeNoResource
    (hstage : call.stage = .awaiting .tool (some true)) (hkey : call.resourceKey = none) :
    Balanced maxConcurrency (s.put i call s.controller .checking) := by
  refine hs.put hcall (Transfer.refl _) nofun fun account => ?_
  cases account <;>
    simp [ToolCall.holds, hstage, ToolCallStage.holdsGlobal, ToolCallStage.holdsTool,
      ToolCallStage.acquired, hkey]

theorem grant (h : s.stepCall i call (.grant i) = some s') : Balanced maxConcurrency s' := by
  simp only [stepCall] at h
  split at h
  · rename_i hstage
    cases h
    refine hs.put hcall (transfer_count s.controller 1) nofun fun a => ?_
    cases a <;>
      simp [ToolCall.holds, hstage, ToolCallStage.holdsGlobal, ToolCallStage.holdsTool,
        ToolCallStage.acquired]
  · cases h

theorem release (h : s.stepCall i call (.release i) = some s') : Balanced maxConcurrency s' := by
  obtain ⟨controller, hback, htransfer⟩ := hs.giveBack hcall
  simp only [stepCall, hback] at h
  split at h
  · rename_i hstage
    cases h
    refine hs.put hcall (htransfer.trans (transfer_count controller (-1))) nofun fun a => ?_
    cases a <;>
      simp [ToolCall.holds, hstage, ToolCallStage.holdsGlobal, ToolCallStage.holdsTool,
        ToolCallStage.acquired, ToolConcurrencyController.returned]
  · cases h
    exact hs
  · cases h

/-- Every step of a call keeps the accounts balanced. -/
theorem stepCall {action : Action} (h : s.stepCall i call action = some s') :
    Balanced maxConcurrency s' := by
  cases action with
  | acquire | closeAdmission => cases h
  | workerObtains => exact hs.workerObtains hcall h
  | pollResource => exact hs.pollResource hcall h
  | grant => exact hs.grant hcall h
  | release => exact hs.release hcall h
  | submit =>
    simp only [ToolRun.stepCall] at h
    split at h
    · rename_i kind hstage
      cases h
      exact hs.goOn hcall nofun (by rw [hstage]; cases kind <;> rfl)
    · cases h
  | workerGivesUp =>
    simp only [ToolRun.stepCall] at h
    split at h
    · rename_i kind hstage
      cases h
      exact hs.goOn hcall nofun (by rw [hstage]; cases kind <;> rfl)
    · rename_i kind hstage
      cases h
      exact hs.goOn hcall nofun (by rw [hstage]; cases kind <;> rfl)
    · cases h
  | resume =>
    simp only [ToolRun.stepCall] at h
    split at h
    · rename_i kind hstage
      cases h
      cases kind with
      | global => exact hs.goOn hcall nofun (by rw [hstage]; rfl)
      | tool =>
        simp only [afterPermit]
        split_ifs with hkey
        · exact hs.takeNoResource hcall hstage hkey
        · exact hs.goOn hcall nofun (by rw [hstage]; rfl)
    · rename_i kind hstage
      cases h
      exact hs.goOn hcall nofun (by rw [hstage]; cases kind <;> rfl)
    · cases h
  | fail =>
    simp only [ToolRun.stepCall] at h
    split at h
    · rename_i kind hstage
      cases h
      exact hs.fail hcall (by rw [hstage]; cases kind <;> rfl) (by rw [hstage]; cases kind <;> rfl)
        (by rw [hstage]; nofun)
    · rename_i hstage
      cases h
      exact hs.fail hcall (by rw [hstage]; rfl) (by rw [hstage]; rfl) (by rw [hstage]; nofun)
    · rename_i hstage
      cases h
      exact hs.fail hcall (by rw [hstage]; rfl) (by rw [hstage]; rfl) (by rw [hstage]; nofun)
    · cases h
  | cancel =>
    simp only [ToolRun.stepCall] at h
    split at h
    · rename_i kind result hstage
      cases h
      -- what the worker has obtained stays with the lost call
      refine hs.unwind hcall ?_ fun account => ?_
      · rcases result with _ | _ | _ <;> exact nofun
      · rcases result with _ | _ | _ <;> cases kind <;> cases account <;>
          simp [ToolCall.holds, hstage, ToolCallStage.holdsGlobal, ToolCallStage.holdsTool,
            ToolCallStage.acquired, ToolConcurrencyController.returned, abandoned]
    · rename_i hstage
      cases h
      exact hs.fail hcall (by rw [hstage]; rfl) (by rw [hstage]; rfl) (by rw [hstage]; nofun)
    · cases h

end

theorem append {semaphore : BoundedSemaphore}
    (hknown : s.controller.toolSemaphores.get? call.toolName = some semaphore)
    (hinitial : semaphore.initial = call.maximum) (hstage : call.stage = .polling .global) :
    Balanced maxConcurrency { s with calls := s.calls ++ [call] } := by
  have hholds : ∀ account, call.holds account = false := by
    intro account
    cases account <;> simp [ToolCall.holds, hstage, ToolCallStage.holdsGlobal,
      ToolCallStage.holdsTool, ToolCallStage.acquired]
  have hmem : ∀ other ∈ s.calls ++ [call], other ∈ s.calls ∨ other = call := by simp
  refine ⟨hs.bound, fun account => ?_, fun other hother => ?_, fun other hother => ?_⟩
  · rw [List.countP_append, List.countP_singleton, hholds]
    simpa using hs.balance account
  · rcases hmem other hother with hother | rfl
    · exact hs.known other hother
    · exact ⟨semaphore, hknown, hinitial⟩
  · rcases hmem other hother with hother | rfl
    · exact hs.unbroken other hother
    · rw [hstage]
      exact nofun

end

variable {toolName : String}

/-- The semaphore of a tool that is called for the first time. -/
theorem openTool (hs : Balanced maxConcurrency s)
    (hnone : s.controller.toolSemaphores.get? toolName = none) (maximum : ℕ) :
    Balanced maxConcurrency { s with
      controller := { s.controller with
        toolSemaphores := s.controller.toolSemaphores.set toolName (.new maximum) } } := by
  refine ⟨hs.bound, fun account => ?_, fun call hcall => ?_, hs.unbroken⟩
  · have hbalance := hs.balance account
    cases account with
    | tool name =>
      by_cases hname : name = toolName
      · subst hname
        simp only [ToolConcurrencyController.free, ToolConcurrencyController.total, hnone,
          Option.elim_none] at hbalance
        simp only [ToolConcurrencyController.free, ToolConcurrencyController.total, Dict.get?_set,
          if_true, Option.elim_some, BoundedSemaphore.new]
        omega
      · simpa [ToolConcurrencyController.free, ToolConcurrencyController.total, hname] using
          hbalance
    | global | resource | leases => exact hbalance
  · obtain ⟨semaphore, hsemaphore, hinitial⟩ := hs.known call hcall
    have hname : call.toolName ≠ toolName := by
      intro hname
      rw [hname, hnone] at hsemaphore
      cases hsemaphore
    exact ⟨semaphore, by simpa [hname] using hsemaphore, hinitial⟩

theorem admission (hs : Balanced maxConcurrency s) {maximum : ℤ} {resourceKey : Option String}
    (h : s.controller.toolSemaphore toolName maximum = some controller) : Balanced maxConcurrency
      ⟨controller, s.calls ++ [⟨toolName, maximum.toNat, resourceKey, .polling .global⟩]⟩ := by
  simp only [ToolConcurrencyController.toolSemaphore] at h
  split_ifs at h with hpos
  split at h
  · rename_i hnone
    cases h
    exact (hs.openTool hnone maximum.toNat).append (by simp; rfl) (by rfl) rfl
  · rename_i semaphore hsemaphore
    split_ifs at h with hmaximum
    cases h
    exact hs.append hsemaphore (not_not.mp hmaximum) rfl

end Balanced

/-! ## Steps -/

/-- The cases of a step. -/
inductive Moves (s : ToolRun) : Action → ToolRun → Prop where
  | refuse {action : Action} : Moves s action s
  | admission {toolName : String} {maximum : ℤ} {resourceKey : Option String}
      {controller : ToolConcurrencyController}
      (opened : s.controller.toolSemaphore toolName maximum = some controller) :
      Moves s (.acquire toolName maximum resourceKey)
        ⟨controller, s.calls ++ [⟨toolName, maximum.toNat, resourceKey, .polling .global⟩]⟩
  | close : Moves s .closeAdmission
      { s with controller := { s.controller with accepting := false } }
  | call {action : Action} {i : ℕ} {call : ToolCall} {s' : ToolRun} (about : action.call? = some i)
      (found : s.calls[i]? = some call) (next : s.stepCall i call action = some s') :
      Moves s action s'

variable {action : Action}

/-- Every step is one of the moves. -/
theorem step_moves (h : s.step action = some s') : Moves s action s' := by
  have hcall : ∀ {action : Action}, (action.call?.bind fun i => s.calls[i]?.bind fun call =>
      s.stepCall i call action) = some s' → Moves s action s' := by
    intro action h
    obtain ⟨i, habout, h⟩ := Option.bind_eq_some_iff.mp h
    obtain ⟨_, hfound, hnext⟩ := Option.bind_eq_some_iff.mp h
    exact .call habout hfound hnext
  cases action with
  | acquire =>
    simp only [step] at h
    split_ifs at h
    · cases h
      exact .refuse
    · split at h
      · cases h
        exact .refuse
      · rename_i hopened
        cases h
        exact .admission hopened
  | closeAdmission =>
    cases h
    exact .close
  | _ => exact hcall h

theorem Balanced.step (hs : Balanced maxConcurrency s)
    (h : s.step action = some s') : Balanced maxConcurrency s' := by
  cases step_moves h with
  | refuse => exact hs
  | admission hopened => exact hs.admission hopened
  | close => exact ⟨hs.bound, hs.balance, hs.known, hs.unbroken⟩
  | call _ hfound hnext => exact hs.stepCall hfound hnext

/-! ## Attended workers -/

/-- Cancelled while its worker runs. -/
def isOrphaned : ToolCallStage → Bool
  | .orphaned _ => true
  | _ => false

/-- Its worker has obtained a permit that the call does not know of yet. -/
def awaitsPermit : ToolCallStage → Bool
  | .awaiting _ (some true) => true
  | _ => false

def isLost : ToolCallStage → Bool
  | .lost _ => true
  | _ => false

/-- No worker obtains a permit after its call was cancelled, and no call is cancelled between its
worker's success and its own next step. -/
def Attended (s : ToolRun) : Action → Prop
  | .workerObtains i => ∀ call ∈ s.calls[i]?, isOrphaned call.stage = false
  | .cancel i => ∀ call ∈ s.calls[i]?, awaitsPermit call.stage = false
  | _ => True

instance (s : ToolRun) : ∀ action, Decidable (Attended s action)
  | .workerObtains _ => inferInstanceAs (Decidable (∀ call ∈ _, _))
  | .cancel _ => inferInstanceAs (Decidable (∀ call ∈ _, _))
  | .acquire _ _ _ => inferInstanceAs (Decidable True)
  | .submit _ => inferInstanceAs (Decidable True)
  | .workerGivesUp _ => inferInstanceAs (Decidable True)
  | .resume _ => inferInstanceAs (Decidable True)
  | .pollResource _ => inferInstanceAs (Decidable True)
  | .grant _ => inferInstanceAs (Decidable True)
  | .fail _ => inferInstanceAs (Decidable True)
  | .release _ => inferInstanceAs (Decidable True)
  | .closeAdmission => inferInstanceAs (Decidable True)

/-- No permit is lost. -/
def Found (s : ToolRun) : Prop := ∀ call ∈ s.calls, isLost call.stage = false

variable {stage : ToolCallStage}

theorem Found.put (hs : Found s) {controller : ToolConcurrencyController}
    (h : isLost stage = false) : Found (s.put i call controller stage) := by
  intro other hother
  rcases List.mem_or_eq_of_mem_set hother with hother | rfl
  · exact hs other hother
  · exact h

theorem Found.unwind (hs : Found s) (h : isLost stage = false) : Found (s.unwind i call stage) := by
  unfold ToolRun.unwind
  split
  · exact hs.put h
  · exact hs.put rfl

/-- An attended step leaves every permit with a call that will return it. -/
theorem Found.stepCall (hs : Found s) (hfound : s.calls[i]? = some call)
    (habout : action.call? = some i) (hattended : Attended s action)
    (h : s.stepCall i call action = some s') : Found s' := by
  cases action with
  | acquire | closeAdmission => cases h
  | workerObtains =>
    cases habout
    have hattended := hattended call hfound
    simp only [ToolRun.stepCall] at h
    split at h
    · obtain ⟨_, -, rfl⟩ := Option.map_eq_some_iff.mp h
      exact hs.put rfl
    · rename_i kind hstage
      rw [hstage] at hattended
      cases hattended
    · cases h
  | cancel =>
    cases habout
    have hattended := hattended call hfound
    simp only [ToolRun.stepCall] at h
    split at h
    · rename_i kind result hstage
      rw [hstage] at hattended
      cases h
      refine hs.unwind ?_
      rcases result with _ | _ | _
      · rfl
      · rfl
      · cases hattended
    · cases h
      exact hs.unwind rfl
    · cases h
  | submit | grant =>
    simp only [ToolRun.stepCall] at h
    split at h
    · cases h
      exact hs.put rfl
    · cases h
  | workerGivesUp =>
    simp only [ToolRun.stepCall] at h
    split at h
    · cases h
      exact hs.put rfl
    · cases h
      exact hs.put rfl
    · cases h
  | resume =>
    simp only [ToolRun.stepCall] at h
    split at h
    · rename_i kind _
      cases h
      refine hs.put ?_
      cases kind
      · rfl
      · simp only [afterPermit]
        split_ifs <;> rfl
    · cases h
      exact hs.put rfl
    · cases h
  | pollResource =>
    simp only [ToolRun.stepCall] at h
    split at h
    · split_ifs at h
      · cases h
        exact hs
      · cases h
        exact hs.put rfl
    · cases h
  | fail =>
    simp only [ToolRun.stepCall] at h
    split at h
    · cases h
      exact hs.unwind rfl
    · cases h
      exact hs.unwind rfl
    · cases h
      exact hs.unwind rfl
    · cases h
  | release =>
    simp only [ToolRun.stepCall] at h
    split at h
    · split at h
      all_goals
        cases h
        exact hs.put rfl
    · cases h
      exact hs
    · cases h

theorem Found.step (hs : Found s) (hattended : Attended s action)
    (h : s.step action = some s') : Found s' := by
  cases step_moves h with
  | refuse | close => exact hs
  | admission =>
    intro call hcall
    rcases mem_snoc hcall with hcall | rfl
    · exact hs call hcall
    · rfl
  | call habout hfound hnext => exact hs.stepCall hfound habout hattended hnext

/-! ## Every run -/

/-- The live leases among those `p` selects. -/
def liveLeases (s : ToolRun) (p : ToolCall → Bool) : ℕ :=
  s.calls.countP fun call => call.stage = .leased && p call

/-- What the controller promises at every moment. -/
structure Sound (maxConcurrency : ℕ) (s : ToolRun) : Prop where
  leases : s.liveLeases (fun _ => true) ≤ maxConcurrency
  toolLeases : ∀ call ∈ s.calls,
    s.liveLeases (fun other => other.toolName = call.toolName) ≤ call.maximum
  exclusive : ∀ key, s.liveLeases (fun call => call.resourceKey = some key) ≤ 1
  /-- no `ValueError` for a permit given back twice -/
  unbroken : ∀ call ∈ s.calls, call.stage ≠ .broken
  /-- nothing is leaked: without a call in flight all that is not leased is free -/
  global : (∀ call ∈ s.calls, call.stage.inFlight = false) →
    s.controller.globalSemaphore.value + s.liveLeases (fun _ => true) = maxConcurrency
  tools : (∀ call ∈ s.calls, call.stage.inFlight = false) →
    ∀ name semaphore, s.controller.toolSemaphores.get? name = some semaphore →
      semaphore.value + s.liveLeases (fun call => call.toolName = name) = semaphore.initial
  resources : (∀ call ∈ s.calls, call.stage.inFlight = false) →
    ∀ key, key ∈ s.controller.heldResources ↔
      ∃ call ∈ s.calls, call.stage = .leased ∧ call.resourceKey = some key

variable {p : ToolCall → Bool}

theorem liveLeases_le
    (h : ∀ call : ToolCall, call.stage = .leased → p call = true → call.holds account = true) :
    s.liveLeases p ≤ s.calls.countP (·.holds account) := by
  refine List.countP_mono_left fun call _ hcall => ?_
  rw [Bool.and_eq_true, decide_eq_true_eq] at hcall
  exact h call hcall.1 hcall.2

theorem holdings_over (hidle : stage.inFlight = false)
    (hfound : isLost stage = false) (hleased : stage ≠ .leased) :
    stage.holdings = (false, false, false, false) := by
  cases stage with
  | released | failed | orphaned | broken => rfl
  | leased => exact absurd rfl hleased
  | lost => cases hfound
  | polling | awaiting | pollingResource | checking => cases hidle

/-- With nothing in flight the live leases are what is held. -/
theorem liveLeases_eq (hfound : Found s) (hidle : ∀ call ∈ s.calls, call.stage.inFlight = false)
    (h : ∀ call : ToolCall, call.stage = .leased → p call = call.holds account) :
    s.liveLeases p = s.calls.countP (·.holds account) := by
  refine List.countP_congr fun call hcall => ?_
  by_cases hleased : call.stage = .leased
  · simp [hleased, h call hleased]
  · have hover := holdings_over (hidle call hcall) (hfound call hcall) hleased
    simp only [ToolCallStage.holdings, Prod.mk.injEq] at hover
    have hnothing : call.holds account = false := by
      cases account <;> simp [ToolCall.holds, hover, hleased]
    simp [hleased, hnothing]

/-- Balanced accounts and attended permits give every part of the claim. -/
theorem Balanced.sound (hs : Balanced maxConcurrency s) (hfound : Found s) :
    Sound maxConcurrency s := by
  have hglobal : ∀ call : ToolCall, call.stage = .leased → true = call.holds .global := by
    intro call h
    simp [ToolCall.holds, h, ToolCallStage.holdsGlobal, ToolCallStage.acquired]
  have htool : ∀ name, ∀ call : ToolCall, call.stage = .leased →
      decide (call.toolName = name) = call.holds (.tool name) := by
    intro name call h
    simp [ToolCall.holds, h, ToolCallStage.holdsTool, ToolCallStage.acquired, eq_comm]
  have hresource : ∀ key, ∀ call : ToolCall, call.stage = .leased →
      decide (call.resourceKey = some key) = call.holds (.resource key) := by
    intro key call h
    simp [ToolCall.holds, h, ToolCallStage.acquired]
  have htools : ∀ name semaphore, s.controller.toolSemaphores.get? name = some semaphore →
      semaphore.value + s.calls.countP (·.holds (.tool name)) = semaphore.initial := by
    intro name semaphore h
    have hbalance := hs.balance (.tool name)
    simp only [ToolConcurrencyController.free, ToolConcurrencyController.total, h,
      Option.elim_some] at hbalance
    omega
  have hbound : s.controller.globalSemaphore.value + s.calls.countP (·.holds .global) =
      maxConcurrency := by
    have hbalance := hs.balance .global
    rw [hs.bound] at hbalance
    simp only [ToolConcurrencyController.free] at hbalance
    omega
  refine ⟨?_, fun call hcall => ?_, fun key => ?_, hs.unbroken, fun hidle => ?_,
    fun hidle name semaphore h => ?_, fun hidle key => ?_⟩
  · have hle : s.liveLeases (fun _ => true) ≤ _ :=
      liveLeases_le fun call h _ => (hglobal call h).symm
    omega
  · obtain ⟨semaphore, hsemaphore, hinitial⟩ := hs.known call hcall
    have hle : s.liveLeases (fun other => other.toolName = call.toolName) ≤ _ :=
      liveLeases_le fun other h hp => (htool call.toolName other h).symm.trans hp
    have := htools call.toolName semaphore hsemaphore
    omega
  · have hle : s.liveLeases (fun call => call.resourceKey = some key) ≤ _ :=
      liveLeases_le fun call h hp => (hresource key call h).symm.trans hp
    have hbalance := hs.balance (.resource key)
    simp only [ToolConcurrencyController.free, ToolConcurrencyController.total] at hbalance
    split_ifs at hbalance <;> omega
  · rwa [liveLeases_eq hfound hidle hglobal]
  · rw [liveLeases_eq hfound hidle (htool name)]
    exact htools name semaphore h
  · have hbalance := hs.balance (.resource key)
    rw [← liveLeases_eq hfound hidle (hresource key)] at hbalance
    simp only [ToolConcurrencyController.free, ToolConcurrencyController.total] at hbalance
    have hpos : 0 < s.liveLeases (fun call => call.resourceKey = some key) ↔
        ∃ call ∈ s.calls, call.stage = .leased ∧ call.resourceKey = some key := by
      simp [liveLeases, List.countP_pos_iff]
    rw [← hpos]
    split_ifs at hbalance with hheld
    · exact ⟨fun _ => by omega, fun _ => hheld⟩
    · exact ⟨fun h => absurd h hheld, fun _ => by omega⟩

/-- In every run with attended workers, in every state it reaches. -/
theorem leases_sound {acts : List Action} (hrun : runSteps maxConcurrency acts = some s)
    (hattended : Trace.Along step Attended (new maxConcurrency) acts) : Sound maxConcurrency s := by
  have hs : Balanced maxConcurrency s :=
    Trace.run_invariant (fun _ _ _ h hs => Balanced.step hs h) hrun (Balanced.new maxConcurrency)
  have hfound : Found s :=
    Trace.run_keeps (fun _ _ _ ha h hs => Found.step hs ha h) hattended hrun (fun _ h => nomatch h)
  exact hs.sound hfound

/-- One lease of a tool with a resource key, released twice. -/
def sampleLease : List Action :=
  [.acquire "search" 1 (some "index"), .submit 0, .workerGivesUp 0, .resume 0, .submit 0,
    .workerObtains 0, .resume 0, .submit 0, .workerObtains 0, .resume 0, .pollResource 0, .grant 0,
    .release 0, .release 0]

theorem leases_sound_sampleLease :
    ∃ s, runSteps 1 sampleLease = some s ∧ s.controller.globalSemaphore.value = 1 ∧ Sound 1 s := by
  have hrun : (runSteps 1 sampleLease).any (fun s => s.controller.globalSemaphore.value = 1) =
      true := by decide +kernel
  obtain ⟨s, hs, hfree⟩ := exists_of_any hrun
  exact ⟨s, hs, hfree, leases_sound hs (by decide +kernel)⟩

/-- A call is cancelled while its worker waits for the only permit; the lease ends, and the worker
takes the permit. -/
def sampleLeak : List Action :=
  [.acquire "search" 1 none, .submit 0, .workerObtains 0, .resume 0, .submit 0, .workerObtains 0,
    .resume 0, .grant 0, .acquire "search" 1 none, .submit 1, .cancel 1, .release 0,
    .workerObtains 1]

/-- An unattended cancellation loses the permit that the worker takes. -/
theorem permit_leaked :
    ∃ s, runSteps 1 sampleLeak = some s ∧ s.controller.globalSemaphore.value = 0 ∧
      s.liveLeases (fun _ => true) = 0 ∧ (∀ call ∈ s.calls, call.stage.inFlight = false) ∧
      ¬ Sound 1 s := by
  have hrun : (runSteps 1 sampleLeak).any (fun s => s.controller.globalSemaphore.value = 0 ∧
      s.liveLeases (fun _ => true) = 0 ∧ ∀ call ∈ s.calls, call.stage.inFlight = false) = true := by
    decide +kernel
  obtain ⟨s, hs, hfree, hleases, hidle⟩ := exists_of_any hrun
  refine ⟨s, hs, hfree, hleases, hidle, fun hsound => ?_⟩
  have := hsound.global hidle
  omega

end ToolRun

end LocalAgent.Runtime
