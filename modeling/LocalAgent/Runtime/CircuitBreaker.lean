import LocalAgent.Lib.Binary64
import LocalAgent.Lib.Dict
import LocalAgent.Lib.Trace

/-!
# LocalAgent.Runtime.CircuitBreaker — `core/runtime/circuit_breaker.py`

A breaker counts consecutive failures, opens, and after the recovery timeout lets a few probes
through.  A permit outlives the state it was granted in: `_complete_permit` looks at the present
state and at the kind of the permit, and takes any success as a sign of health.  Clock readings are
floats, and the time since an opening is their rounded difference.

* `BreakerRun.step`: the breaker with its clock and its permits.
* `Timely`: no success of a permit granted before the latest opening arrives while the breaker is
  not closed.
* `breaker_sound`: along timely steps nothing is granted before the recovery timeout of an opening,
  and only the success of a probe granted after it closes the breaker.
-/

namespace LocalAgent.Runtime

/-! ## The breaker -/

inductive ModelCircuitState where
  | closed | open | halfOpen
  deriving DecidableEq

/-- `ModelCircuitBreakerConfig` with what its `__post_init__` checks. -/
structure ModelCircuitBreakerConfig where
  failureThreshold : ℕ
  recoveryTimeoutSeconds : ℚ
  halfOpenMaxCalls : ℕ
  failureThreshold_pos : 0 < failureThreshold
  recoveryTimeoutSeconds_pos : 0 < recoveryTimeoutSeconds
  halfOpenMaxCalls_pos : 0 < halfOpenMaxCalls

/-- The health outcomes of a permit. -/
inductive PermitOutcome where
  | success | failure | indeterminate | abandon
  deriving DecidableEq

structure ModelCircuitBreaker where
  state : ModelCircuitState
  consecutiveFailures : ℕ
  openedAt : Option ℚ
  /-- for every active permit, whether it is a half-open probe -/
  activePermits : Dict String Bool

namespace ModelCircuitBreaker

def new : ModelCircuitBreaker := ⟨.closed, 0, none, Dict.empty⟩

variable (cfg : ModelCircuitBreakerConfig)

/-- `now - self._opened_at`, a difference of floats. -/
def elapsed (openedAt now : ℚ) : ℚ := Binary64.round (now - openedAt)

theorem elapsed_mono {first last now later : ℚ} (hfirst : first ≤ last) (hlast : last ≤ now)
    (hnow : now ≤ later) : elapsed last now ≤ elapsed first later :=
  Binary64.round_mono (sub_nonneg.mpr hlast) (sub_le_sub hnow hfirst)

/-- `_transition_if_recovered_locked`. -/
def transitionIfRecovered (breaker : ModelCircuitBreaker) (now : ℚ) : ModelCircuitBreaker :=
  match breaker.state, breaker.openedAt with
  | .open, some openedAt =>
    if elapsed openedAt now ≥ cfg.recoveryTimeoutSeconds then { breaker with state := .halfOpen }
    else breaker
  | _, _ => breaker

/-- `sum(self._active_permits.values())`. -/
def activeProbes (breaker : ModelCircuitBreaker) : ℕ := breaker.activePermits.values.count true

/-- `acquire_permission`: whether the permit is a probe; `none` is `CircuitOpenError`. -/
def acquirePermission (breaker : ModelCircuitBreaker) (now : ℚ) (permitId : String) :
    Option Bool × ModelCircuitBreaker :=
  let breaker := breaker.transitionIfRecovered cfg now
  match breaker.state with
  | .open => (none, breaker)
  | .closed =>
    (some false, { breaker with activePermits := breaker.activePermits.set permitId false })
  | .halfOpen =>
    if breaker.activeProbes ≥ cfg.halfOpenMaxCalls then (none, breaker)
    else (some true, { breaker with activePermits := breaker.activePermits.set permitId true })

def trip (breaker : ModelCircuitBreaker) (now : ℚ) : ModelCircuitBreaker :=
  { breaker with state := .open, openedAt := some now }

def recordOutcome (breaker : ModelCircuitBreaker) (now : ℚ) (probe : Bool) :
    PermitOutcome → ModelCircuitBreaker
  | .abandon => breaker
  | .indeterminate =>
    if probe ∨ breaker.state = .halfOpen then breaker.trip now else breaker
  | .success => { breaker with state := .closed, consecutiveFailures := 0, openedAt := none }
  | .failure =>
    if probe ∨ breaker.state = .halfOpen then breaker.trip now
    else
      let counted := { breaker with consecutiveFailures := breaker.consecutiveFailures + 1 }
      if counted.consecutiveFailures ≥ cfg.failureThreshold then counted.trip now else counted

/-- `_complete_permit`; `none` is `CircuitPermitStateError`. -/
def completePermit (breaker : ModelCircuitBreaker) (now : ℚ) (permitId : String)
    (outcome : PermitOutcome) : Option ModelCircuitBreaker :=
  match breaker.activePermits.get? permitId with
  | none => none
  | some probe =>
    some (recordOutcome cfg
      { breaker with activePermits := breaker.activePermits.erase permitId } now probe outcome)

end ModelCircuitBreaker

/-! ## Runs -/

structure PermitGrant where
  time : ℚ
  opening : ℕ
  deriving DecidableEq

/-- What an observer of the breaker writes down. -/
inductive BreakerEvent where
  | opened (time : ℚ)
  | granted (time : ℚ)
  /-- back to `CLOSED` through the success of this permit -/
  | closed (probe : Bool) (grantedAt : ℚ)
  deriving DecidableEq

/-- A breaker, the last clock reading, every permit granted so far, and what has happened. -/
structure BreakerRun where
  breaker : ModelCircuitBreaker
  clock : ℚ
  grants : String → Option PermitGrant
  openings : ℕ
  history : List BreakerEvent

namespace BreakerRun

variable (cfg : ModelCircuitBreakerConfig)

def new (clock : ℚ) : BreakerRun := ⟨.new, clock, fun _ => none, 0, []⟩

inductive Action where
  | acquire (now : ℚ) (permitId : String)
  | complete (now : ℚ) (permitId : String) (outcome : PermitOutcome)
  | snapshot (now : ℚ)

def opens (breaker : ModelCircuitBreaker) (probe : Bool) : PermitOutcome → Bool
  | .indeterminate => probe || breaker.state = .halfOpen
  | .failure => probe || breaker.state = .halfOpen ||
    breaker.consecutiveFailures + 1 ≥ cfg.failureThreshold
  | _ => false

/-- The event of a completed permit, if there is one to write down. -/
def completionEvent (s : BreakerRun) (now : ℚ) (probe : Bool) (grantedAt : ℚ)
    (outcome : PermitOutcome) : List BreakerEvent :=
  if opens cfg s.breaker probe outcome then [.opened now]
  else if outcome = .success ∧ s.breaker.state ≠ .closed then [.closed probe grantedAt]
  else []

/-- The step function; `none` when the clock would go back or the permit's id is not new. -/
def step (s : BreakerRun) : Action → Option BreakerRun
  | .acquire now permitId =>
    if now < s.clock ∨ s.grants permitId ≠ none then none
    else
      match s.breaker.acquirePermission cfg now permitId with
      | (none, breaker) => some { s with breaker := breaker, clock := now }
      | (some _, breaker) =>
        some { s with
          breaker := breaker
          clock := now
          grants := Function.update s.grants permitId (some ⟨now, s.openings⟩)
          history := s.history ++ [.granted now] }
  | .complete now permitId outcome =>
    if now < s.clock then none
    else
      match s.breaker.activePermits.get? permitId, s.grants permitId,
        s.breaker.completePermit cfg now permitId outcome with
      | some probe, some grant, some breaker =>
        some { s with
          breaker := breaker
          clock := now
          openings := s.openings + if opens cfg s.breaker probe outcome then 1 else 0
          history := s.history ++ s.completionEvent cfg now probe grant.time outcome }
      | _, _, _ => some { s with clock := now }
  | .snapshot now =>
    if now < s.clock then none
    else some { s with breaker := s.breaker.transitionIfRecovered cfg now, clock := now }

def runSteps (clock : ℚ) (acts : List Action) : Option BreakerRun :=
  Trace.run (step cfg) (new clock) acts

/-! ## What a step can do -/

variable {cfg}
variable {s s' : BreakerRun}

/-- The permit is taken off the active ones; the count of failures is open. -/
def withdraw (s : BreakerRun) (permitId : String) (failures : ℕ) : ModelCircuitBreaker :=
  { s.breaker with
    consecutiveFailures := failures
    activePermits := s.breaker.activePermits.erase permitId }

variable (cfg) in
/-- The cases of a step. -/
inductive Moves (s : BreakerRun) : Action → BreakerRun → Prop where
  | tick {action : Action} {now : ℚ} (later : s.clock ≤ now) : Moves s action
      { s with breaker := s.breaker.transitionIfRecovered cfg now, clock := now }
  | grant {now : ℚ} {permitId : String} {probe : Bool} (later : s.clock ≤ now)
      (fresh : s.grants permitId = none)
      (admits : (s.breaker.transitionIfRecovered cfg now).state ≠ .open)
      (isProbe : (s.breaker.transitionIfRecovered cfg now).state ≠ .closed → probe = true)
      (room : probe = true → s.breaker.activeProbes < cfg.halfOpenMaxCalls) :
      Moves s (.acquire now permitId)
        { s with
          breaker :=
            { s.breaker.transitionIfRecovered cfg now with
              activePermits := s.breaker.activePermits.set permitId probe }
          clock := now
          grants := Function.update s.grants permitId (some ⟨now, s.openings⟩)
          history := s.history ++ [.granted now] }
  | unknown {now : ℚ} {permitId : String} {outcome : PermitOutcome} (later : s.clock ≤ now) :
      Moves s (.complete now permitId outcome) { s with clock := now }
  | keep {now : ℚ} {permitId : String} {outcome : PermitOutcome} (failures : ℕ)
      (later : s.clock ≤ now) : Moves s (.complete now permitId outcome)
        { s with breaker := s.withdraw permitId failures, clock := now }
  | trip {now : ℚ} {permitId : String} {outcome : PermitOutcome} (failures : ℕ)
      (later : s.clock ≤ now) : Moves s (.complete now permitId outcome)
        { s with
          breaker := (s.withdraw permitId failures).trip now
          clock := now
          openings := s.openings + 1
          history := s.history ++ [.opened now] }
  | heal {now : ℚ} {permitId : String} {probe : Bool} {grant : PermitGrant}
      (later : s.clock ≤ now) (active : s.breaker.activePermits.get? permitId = some probe)
      (granted : s.grants permitId = some grant) : Moves s (.complete now permitId .success)
        { s with
          breaker := { s.withdraw permitId 0 with state := .closed, openedAt := none }
          clock := now
          history := s.history ++
            if s.breaker.state ≠ .closed then [.closed probe grant.time] else [] }

theorem activePermits_transitionIfRecovered (breaker : ModelCircuitBreaker) (now : ℚ) :
    (breaker.transitionIfRecovered cfg now).activePermits = breaker.activePermits := by
  unfold ModelCircuitBreaker.transitionIfRecovered
  split
  · split_ifs <;> rfl
  · rfl

/-- A permit is granted by a closed breaker, or as a probe with room, and refused otherwise. -/
theorem acquirePermission_cases (breaker : ModelCircuitBreaker) (now : ℚ) (permitId : String)
    {recovered : ModelCircuitBreaker} (h : breaker.transitionIfRecovered cfg now = recovered) :
    breaker.acquirePermission cfg now permitId = (none, recovered) ∨
    ∃ probe, breaker.acquirePermission cfg now permitId =
        (some probe,
          { recovered with activePermits := recovered.activePermits.set permitId probe }) ∧
      recovered.state ≠ .open ∧ (recovered.state ≠ .closed → probe = true) ∧
      (probe = true → recovered.activeProbes < cfg.halfOpenMaxCalls) := by
  simp only [ModelCircuitBreaker.acquirePermission, h]
  cases hstate : recovered.state with
  | «open» => exact .inl rfl
  | closed =>
    exact .inr ⟨false, rfl, nofun, fun hne => absurd rfl hne, fun hp => nomatch hp⟩
  | halfOpen =>
    by_cases hroom : recovered.activeProbes ≥ cfg.halfOpenMaxCalls
    · exact .inl (by simp [hroom])
    · exact .inr ⟨true, by simp [hroom], nofun, fun _ => rfl, fun _ => not_le.mp hroom⟩

variable {now : ℚ}

theorem acquire_moves {permitId : String}
    (h : s.step cfg (.acquire now permitId) = some s') : Moves cfg s (.acquire now permitId) s' := by
  have hactive : (s.breaker.transitionIfRecovered cfg now).activePermits = _ :=
    activePermits_transitionIfRecovered s.breaker now
  simp only [step] at h
  split_ifs at h with hguard
  rw [not_or, not_lt, not_not] at hguard
  obtain ⟨hlater, hfresh⟩ := hguard
  rcases acquirePermission_cases s.breaker now permitId rfl with
    hrefuse | ⟨probe, hgrant, hopen, hprobe, hroom⟩
  · rw [hrefuse] at h
    cases h
    exact .tick hlater
  · rw [hgrant, hactive] at h
    cases h
    refine .grant hlater hfresh hopen hprobe fun hp => ?_
    have := hroom hp
    rwa [ModelCircuitBreaker.activeProbes, hactive] at this

/-- A completion moves the breaker by its outcome, whatever the permit was granted for. -/
theorem complete_moves {permitId : String} {outcome : PermitOutcome}
    (h : s.step cfg (.complete now permitId outcome) = some s') :
    Moves cfg s (.complete now permitId outcome) s' := by
  simp only [step, ModelCircuitBreaker.completePermit] at h
  split_ifs at h with hlater
  rw [not_lt] at hlater
  split at h
  · rename_i probe grant breaker hprobe hgrant hbreaker
    rw [hprobe] at hbreaker
    cases hbreaker
    cases h
    have hkeep : ∀ failures, Moves cfg s (.complete now permitId outcome) _ :=
      fun failures => .keep failures hlater
    have htrip : ∀ failures, Moves cfg s (.complete now permitId outcome) _ :=
      fun failures => .trip failures hlater
    simp only [withdraw] at hkeep htrip
    cases outcome with
    | abandon => simpa [opens, completionEvent, ModelCircuitBreaker.recordOutcome] using hkeep _
    | indeterminate =>
      by_cases hprobing : probe = true ∨ s.breaker.state = .halfOpen
      · simpa [opens, completionEvent, ModelCircuitBreaker.recordOutcome, hprobing] using
          htrip _
      · simpa [opens, completionEvent, ModelCircuitBreaker.recordOutcome, hprobing] using
          hkeep _
    | success =>
      simpa [opens, completionEvent, ModelCircuitBreaker.recordOutcome, withdraw] using
        Moves.heal hlater hprobe hgrant
    | failure =>
      by_cases hprobing : probe = true ∨ s.breaker.state = .halfOpen
      · simpa [opens, completionEvent, ModelCircuitBreaker.recordOutcome, hprobing] using
          htrip _
      · by_cases hmany : cfg.failureThreshold ≤ s.breaker.consecutiveFailures + 1
        · simpa [opens, completionEvent, ModelCircuitBreaker.recordOutcome, hprobing, hmany] using
            htrip (s.breaker.consecutiveFailures + 1)
        · simpa [opens, completionEvent, ModelCircuitBreaker.recordOutcome, hprobing, hmany] using
            hkeep (s.breaker.consecutiveFailures + 1)
  · cases h
    exact .unknown hlater

variable {action : Action}

theorem step_moves (h : s.step cfg action = some s') : Moves cfg s action s' := by
  cases action with
  | acquire => exact acquire_moves h
  | complete => exact complete_moves h
  | snapshot =>
    simp only [step] at h
    split_ifs at h with hlater
    cases h
    exact .tick (not_lt.mp hlater)

/-! ## Timely completions -/

def Timely (s : BreakerRun) : Action → Prop
  | .complete _ permitId .success => s.breaker.state ≠ .closed →
    ∀ grant ∈ s.grants permitId, grant.opening = s.openings
  | _ => True

instance (s : BreakerRun) : ∀ action, Decidable (Timely s action)
  | .complete _ _ .success => inferInstanceAs (Decidable (_ → ∀ grant ∈ _, _))
  | .complete _ _ .failure => inferInstanceAs (Decidable True)
  | .complete _ _ .indeterminate => inferInstanceAs (Decidable True)
  | .complete _ _ .abandon => inferInstanceAs (Decidable True)
  | .acquire _ _ => inferInstanceAs (Decidable True)
  | .snapshot _ => inferInstanceAs (Decidable True)

variable (cfg) in
/-- What follows an opening keeps the recovery timeout, as floats measure it: a grant, and a return
to `CLOSED` by the grant of its permit. -/
def Respects : BreakerEvent → BreakerEvent → Prop
  | .opened opened, .granted granted =>
    cfg.recoveryTimeoutSeconds ≤ ModelCircuitBreaker.elapsed opened granted
  | .opened opened, .closed _ granted =>
    cfg.recoveryTimeoutSeconds ≤ ModelCircuitBreaker.elapsed opened granted
  | _, _ => True

variable (cfg) in
/-- What the breaker promises at every moment. -/
structure Sound (s : BreakerRun) : Prop where
  /-- nothing is granted before the recovery timeout of an opening has passed, and what closes the
  breaker was granted after it -/
  respects : s.history.Pairwise (Respects cfg)
  probe : ∀ probe granted, .closed probe granted ∈ s.history → probe = true
  probes : s.breaker.activeProbes ≤ cfg.halfOpenMaxCalls

variable (cfg) in
/-- Every opening so far lies at least the recovery timeout before `time`. -/
def RecoveredBy (s : BreakerRun) (time : ℚ) : Prop :=
  ∀ opened, .opened opened ∈ s.history → opened ≤ time ∧
    cfg.recoveryTimeoutSeconds ≤ ModelCircuitBreaker.elapsed opened time

variable (cfg) in
structure Inv (s : BreakerRun) : Prop extends Sound cfg s where
  openings : ∀ opened, .opened opened ∈ s.history → opened ≤ s.clock
  tripped : s.breaker.state ≠ .closed → ∃ last, s.breaker.openedAt = some last ∧
    last ≤ s.clock ∧ ∀ opened, .opened opened ∈ s.history → opened ≤ last
  recovered : s.breaker.state ≠ .open → RecoveredBy cfg s s.clock
  granted : ∀ permitId grant, s.grants permitId = some grant →
    grant.time ≤ s.clock ∧ grant.opening ≤ s.openings
  active : ∀ permitId probe, s.breaker.activePermits.get? permitId = some probe →
    ∃ grant, s.grants permitId = some grant
  current : s.breaker.state ≠ .closed → ∀ permitId probe grant,
    s.breaker.activePermits.get? permitId = some probe → s.grants permitId = some grant →
    grant.opening = s.openings → probe = true ∧ RecoveredBy cfg s grant.time

theorem RecoveredBy.later {s : BreakerRun} {time later : ℚ} (h : RecoveredBy cfg s time)
    (hlater : time ≤ later) : RecoveredBy cfg s later := by
  intro opened hmem
  obtain ⟨hle, helapsed⟩ := h opened hmem
  exact ⟨hle.trans hlater,
    helapsed.trans (ModelCircuitBreaker.elapsed_mono le_rfl hle hlater)⟩

namespace Inv

theorem new (clock : ℚ) : Inv cfg (new clock) where
  respects := .nil
  probe := fun _ _ h => nomatch h
  probes := Nat.zero_le _
  openings := fun _ h => nomatch h
  tripped := fun h => absurd rfl h
  recovered := fun _ _ h => nomatch h
  granted := fun _ _ h => nomatch h
  active := fun _ _ h => nomatch h
  current := fun h => absurd rfl h

theorem later (hs : Inv cfg s) (hlater : s.clock ≤ now) :
    Inv cfg { s with clock := now } where
  respects := hs.respects
  probe := hs.probe
  probes := hs.probes
  openings := fun opened h => (hs.openings opened h).trans hlater
  tripped := fun h =>
    (hs.tripped h).imp fun _ ⟨hlast, hle, hall⟩ => ⟨hlast, hle.trans hlater, hall⟩
  recovered := fun h => (hs.recovered h).later hlater
  granted := fun id grant h => ⟨(hs.granted id grant h).1.trans hlater, (hs.granted id grant h).2⟩
  active := hs.active
  current := hs.current

theorem tick (hs : Inv cfg s) (hlater : s.clock ≤ now) :
    Inv cfg { s with breaker := s.breaker.transitionIfRecovered cfg now, clock := now } := by
  have hs := hs.later hlater
  unfold ModelCircuitBreaker.transitionIfRecovered
  split
  · rename_i last hopen hlast
    split_ifs with hpassed
    · obtain ⟨_, hlast', hclock, hle⟩ := hs.tripped (by rw [hopen]; nofun)
      cases hlast.symm.trans hlast'
      refine ⟨⟨hs.respects, hs.probe, hs.probes⟩, hs.openings,
        fun _ => ⟨last, hlast, hclock, hle⟩, fun _ opened hmem => ?_, hs.granted, hs.active, fun _ => hs.current (by rw [hopen]; nofun)⟩
      have hbefore := hle opened hmem
      exact ⟨hbefore.trans hclock,
        hpassed.trans (ModelCircuitBreaker.elapsed_mono hbefore hclock le_rfl)⟩
    · exact hs
  · exact hs

variable {event : BreakerEvent} {probe : Bool} {failures : ℕ}

theorem respects_append (hs : Inv cfg s) (h : ∀ earlier ∈ s.history, Respects cfg earlier event) :
    (s.history ++ [event]).Pairwise (Respects cfg) := by
  rw [List.pairwise_append]
  refine ⟨hs.respects, List.pairwise_singleton _ _, fun earlier hmem last hlast => ?_⟩
  cases List.mem_singleton.mp hlast
  exact h earlier hmem

theorem opened_mem (hne : ∀ opened, event ≠ .opened opened) {opened : ℚ}
    (h : .opened opened ∈ s.history ++ [event]) : .opened opened ∈ s.history := by
  rcases mem_snoc h with h | h
  · exact h
  · exact absurd h.symm (hne opened)

variable {permitId : String}

/-- A new permit respects the last opening. -/
theorem grant (hs : Inv cfg s) (hfresh : s.grants permitId = none)
    (hopen : s.breaker.state ≠ .open) (hprobe : s.breaker.state ≠ .closed → probe = true)
    (hroom : probe = true → s.breaker.activeProbes < cfg.halfOpenMaxCalls) :
    Inv cfg { s with
      breaker := { s.breaker with activePermits := s.breaker.activePermits.set permitId probe }
      grants := Function.update s.grants permitId (some ⟨s.clock, s.openings⟩)
      history := s.history ++ [.granted s.clock] } := by
  have hnew : permitId ∉ s.breaker.activePermits.keys := by
    intro hmem
    obtain ⟨old, hold⟩ := Dict.mem_keys_iff.mp hmem
    obtain ⟨grant, hgrant⟩ := hs.active permitId old hold
    cases hfresh.symm.trans hgrant
  have hmem : ∀ {opened : ℚ}, .opened opened ∈ s.history ++ [.granted s.clock] →
      .opened opened ∈ s.history := opened_mem (by simp)
  have hrecovered := hs.recovered hopen
  refine ⟨⟨?_, ?_, ?_⟩, fun _ h => hs.openings _ (hmem h), fun h => ?_,
    fun h _ hm => hs.recovered h _ (hmem hm), ?_, ?_, ?_⟩
  · refine hs.respects_append fun earlier hearlier => ?_
    cases earlier with
    | opened opened => exact (hrecovered opened hearlier).2
    | granted | closed => trivial
  · intro probe granted h
    rcases mem_snoc h with h | h
    · exact hs.probe probe granted h
    · exact nomatch h
  · show List.count true (s.breaker.activePermits.set permitId probe).values ≤ _
    rw [Dict.values_set_of_not_mem hnew, List.count_append]
    cases probe with
    | false => exact hs.probes
    | true => exact hroom rfl
  · obtain ⟨last, hlast, hclock, hle⟩ := hs.tripped h
    exact ⟨last, hlast, hclock, fun _ hm => hle _ (hmem hm)⟩
  · intro id grant h
    by_cases hid : id = permitId
    · subst hid
      obtain rfl : (⟨s.clock, s.openings⟩ : PermitGrant) = grant := by
        simpa using h
      exact ⟨le_rfl, le_rfl⟩
    · exact hs.granted id grant (by simpa [Function.update_of_ne hid] using h)
  · intro id flag h
    by_cases hid : id = permitId
    · subst hid
      exact ⟨_, Function.update_self ..⟩
    · obtain ⟨grant, hgrant⟩ := hs.active id flag (by simpa [hid] using h)
      exact ⟨grant, (Function.update_of_ne hid ..).trans hgrant⟩
  · intro hstate id flag grant hactive hgrant hopening
    by_cases hid : id = permitId
    · subst hid
      obtain rfl : (⟨s.clock, s.openings⟩ : PermitGrant) = grant := by
        simpa using hgrant
      obtain rfl : probe = flag := by simpa using hactive
      exact ⟨hprobe hstate, fun _ hm => hrecovered _ (hmem hm)⟩
    · obtain ⟨hflag, htime⟩ := hs.current hstate id flag grant (by simpa [hid] using hactive)
        (by simpa [Function.update_of_ne hid] using hgrant) hopening
      exact ⟨hflag, fun _ hm => htime _ (hmem hm)⟩

theorem activeProbes_withdraw (s : BreakerRun) (permitId : String) (failures : ℕ) :
    (s.withdraw permitId failures).activeProbes ≤ s.breaker.activeProbes :=
  List.Sublist.count_le _ (List.filter_sublist.map Prod.snd)

theorem get?_withdraw {permitId id : String} {probe : Bool}
    (h : (s.breaker.activePermits.erase permitId).get? id = some probe) :
    s.breaker.activePermits.get? id = some probe := by
  rw [Dict.get?_erase] at h
  split_ifs at h
  exact h

theorem keep (hs : Inv cfg s) :
    Inv cfg { s with breaker := s.withdraw permitId failures } where
  respects := hs.respects
  probe := hs.probe
  probes := (activeProbes_withdraw s permitId failures).trans hs.probes
  openings := hs.openings
  tripped := hs.tripped
  recovered := hs.recovered
  granted := hs.granted
  active := fun id probe h => hs.active id probe (get?_withdraw h)
  current := fun hstate id probe grant h => hs.current hstate id probe grant (get?_withdraw h)

/-- The breaker opens: no permit is granted before the time-out has passed. -/
theorem trip (hs : Inv cfg s) :
    Inv cfg { s with
      breaker := (s.withdraw permitId failures).trip s.clock
      openings := s.openings + 1
      history := s.history ++ [.opened s.clock] } := by
  have hle : ∀ opened, .opened opened ∈ s.history ++ [.opened s.clock] → opened ≤ s.clock := by
    intro opened h
    rcases mem_snoc h with h | h
    · exact hs.openings opened h
    · cases BreakerEvent.opened.inj h
      exact le_rfl
  refine ⟨⟨?_, ?_, (activeProbes_withdraw s permitId failures).trans hs.probes⟩, hle,
    fun _ => ⟨s.clock, rfl, le_rfl, hle⟩, fun h => absurd rfl h, ?_,
    fun id probe h => hs.active id probe (get?_withdraw h), ?_⟩
  · refine hs.respects_append fun earlier _ => ?_
    cases earlier <;> trivial
  · intro probe granted h
    rcases mem_snoc h with h | h
    · exact hs.probe probe granted h
    · exact nomatch h
  · exact fun id grant h => ⟨(hs.granted id grant h).1, (hs.granted id grant h).2.trans (by simp)⟩
  · intro _ id _ grant _ hgrant hopening
    have : grant.opening ≤ s.openings := (hs.granted id grant hgrant).2
    simp only at hopening
    omega

/-- A success of a permit of the latest opening closes the breaker. -/
theorem heal (hs : Inv cfg s) {grant : PermitGrant}
    (hactive : s.breaker.activePermits.get? permitId = some probe)
    (hgrant : s.grants permitId = some grant)
    (htimely : s.breaker.state ≠ .closed → grant.opening = s.openings) :
    Inv cfg { s with
      breaker := { s.withdraw permitId 0 with state := .closed, openedAt := none }
      history := s.history ++
        if s.breaker.state ≠ .closed then [.closed probe grant.time] else [] } := by
  have hprobes : (s.withdraw permitId 0).activeProbes ≤ cfg.halfOpenMaxCalls :=
    (activeProbes_withdraw s permitId 0).trans hs.probes
  have hkept : ∀ id flag, (s.withdraw permitId 0).activePermits.get? id = some flag →
      ∃ grant, s.grants id = some grant := fun id flag h => hs.active id flag (get?_withdraw h)
  by_cases hclosed : s.breaker.state = .closed
  · rw [if_neg (not_not.mpr hclosed), List.append_nil]
    exact ⟨⟨hs.respects, hs.probe, hprobes⟩, hs.openings, fun h => absurd rfl h,
      fun _ => hs.recovered (by rw [hclosed]; nofun), hs.granted, hkept, fun h => absurd rfl h⟩
  · rw [if_pos hclosed]
    obtain ⟨hprobe, htime⟩ := hs.current hclosed permitId probe grant hactive hgrant (htimely hclosed)
    have hmem : ∀ {opened : ℚ}, .opened opened ∈ s.history ++ [.closed probe grant.time] →
        .opened opened ∈ s.history := opened_mem (by simp)
    refine ⟨⟨?_, ?_, hprobes⟩, fun _ h => hs.openings _ (hmem h), fun h => absurd rfl h,
      fun _ _ hm => htime.later (hs.granted _ _ hgrant).1 _ (hmem hm), hs.granted, hkept,
      fun h => absurd rfl h⟩
    · refine hs.respects_append fun earlier hearlier => ?_
      cases earlier with
      | opened opened => exact (htime opened hearlier).2
      | granted | closed => trivial
    · intro flag granted h
      rcases List.mem_append.mp h with h | h
      · exact hs.probe flag granted h
      · rw [List.mem_singleton, BreakerEvent.closed.injEq] at h
        exact h.1.trans hprobe

/-- The invariant is kept by every step whose completions are timely. -/
theorem step (hs : Inv cfg s) (htimely : Timely s action)
    (h : s.step cfg action = some s') : Inv cfg s' := by
  cases step_moves h with
  | tick hlater => exact hs.tick hlater
  | grant hlater hfresh hopen hprobe hroom =>
    have hactive (now : ℚ) :
        (s.breaker.transitionIfRecovered cfg now).activePermits = s.breaker.activePermits :=
      activePermits_transitionIfRecovered s.breaker now
    have hgrant := (hs.tick hlater).grant hfresh hopen hprobe fun hp => ?_
    · simpa only [hactive] using hgrant
    · have := hroom hp
      rwa [ModelCircuitBreaker.activeProbes, ← hactive] at this
  | unknown hlater => exact hs.later hlater
  | keep _ hlater => exact (hs.later hlater).keep
  | trip _ hlater => exact (hs.later hlater).trip
  | heal hlater hactive hgrant =>
    exact (hs.later hlater).heal hactive hgrant fun hne => htimely hne _ hgrant

end Inv

/-! ## Every run -/

/-- In every run whose completions are timely, in every state it reaches. -/
theorem breaker_sound {clock : ℚ} {acts : List Action} (hrun : runSteps cfg clock acts = some s)
    (htimely : Trace.Along (step cfg) Timely (new clock) acts) : Sound cfg s :=
  (Trace.run_keeps (fun _ _ _ ht h hs => Inv.step hs ht h) htimely hrun (Inv.new clock)).toSound

/-- One failure opens, one second of recovery, one probe. -/
def sampleConfig : ModelCircuitBreakerConfig := ⟨1, 1, 1, Nat.one_pos, by decide, Nat.one_pos⟩

/-- A failure opens the breaker; a probe heals it after the timeout. -/
def sampleRecovery : List Action :=
  [.acquire 0 "a", .complete 0 "a" .failure, .acquire 0 "b", .acquire 1 "c",
    .complete 2 "c" .success, .acquire 2 "d"]

theorem breaker_sound_sampleRecovery :
    ∃ s, runSteps sampleConfig 0 sampleRecovery = some s ∧
      s.history = [.granted 0, .opened 0, .granted 1, .closed true 1, .granted 2] ∧
      Sound sampleConfig s := by
  have hrun : (runSteps sampleConfig 0 sampleRecovery).any (fun s =>
      s.history = [.granted 0, .opened 0, .granted 1, .closed true 1, .granted 2]) = true := by
    decide +kernel
  obtain ⟨s, hs, hhistory⟩ := Option.any_eq_true _ _ |>.mp hrun
  exact ⟨s, hs, by simpa using hhistory, breaker_sound hs (by decide +kernel)⟩

/-- Two permits of the closed breaker: one fails, then the other succeeds. -/
def sampleStale : List Action :=
  [.acquire 0 "a", .acquire 0 "b", .complete 0 "a" .failure, .complete 0 "b" .success,
    .acquire 0 "c"]

theorem granted_before_recovery :
    ∃ s, runSteps sampleConfig 0 sampleStale = some s ∧
      s.history = [.granted 0, .granted 0, .opened 0, .closed false 0, .granted 0] ∧
      ¬ Sound sampleConfig s := by
  have hrun : (runSteps sampleConfig 0 sampleStale).any (fun s =>
      s.history = [.granted 0, .granted 0, .opened 0, .closed false 0, .granted 0]) = true := by
    decide +kernel
  obtain ⟨s, hs, hhistory⟩ := exists_of_any hrun
  refine ⟨s, hs, hhistory, fun hsound => ?_⟩
  have hclosed := hsound.probe false 0 (by simp [hhistory])
  cases hclosed

end BreakerRun

end LocalAgent.Runtime
