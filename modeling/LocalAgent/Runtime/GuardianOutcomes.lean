import LocalAgent.Runtime.Guardian

/-!
# LocalAgent.Runtime.GuardianOutcomes — what the end of a work does to its cycle

Whatever the provider answers, a finished work stops its version and with it the cycle, leaves one
other work for the version, or completes the version and lets the next one begin.

* `Version.Evolves`: what no outcome changes or takes back.
* `Guardian.Outcome`: the three kinds of end.
* `Guardian.Sequel`: the same, with the number of the work that follows.
* `settle_sequel`, `settle_outcome`: `finish` ends in one of them.
-/

namespace LocalAgent.Runtime

/-! ## Versions -/

/-- A later state of a version that is not at its end. -/
structure Version.Evolves (v v' : Version) : Prop where
  id : v'.versionExecutionId = v.versionExecutionId
  cycleId : v'.cycleId = v.cycleId
  ordinal : v'.ordinal = v.ordinal
  attempts : v'.submitAttempts = v.submitAttempts
  status : v'.status = v.status ∨ v'.status = .active
  terminalKnown : v.terminalKnown = true → v'.terminalKnown = true
  firstUnknownAt : v.firstUnknownAt ≠ none → v'.firstUnknownAt ≠ none

variable {packet : EvidencePacket}

namespace Version

theorem Evolves.refl (v : Version) : v.Evolves v :=
  ⟨rfl, rfl, rfl, rfl, .inl rfl, fun h => h, fun h => h⟩

theorem Evolves.trans {u v w : Version} (h : u.Evolves v) (h' : v.Evolves w) : u.Evolves w where
  id := h'.id.trans h.id
  cycleId := h'.cycleId.trans h.cycleId
  ordinal := h'.ordinal.trans h.ordinal
  attempts := h'.attempts.trans h.attempts
  status := by
    rcases h'.status with hs | hs
    · rw [hs]
      exact h.status
    · exact .inr hs
  terminalKnown ht := h'.terminalKnown (h.terminalKnown ht)
  firstUnknownAt hf := h'.firstUnknownAt (h.firstUnknownAt hf)

theorem Evolves.not_terminal {v v' : Version} (h : v.Evolves v')
    (hv : v.status.terminal = false) : v'.status.terminal = false := by
  rcases h.status with hs | hs
  · rwa [hs]
  · rw [hs]
    rfl

theorem evolves_markUnknown (v : Version) (since : ℤ) : v.Evolves (v.markUnknown since) :=
  ⟨rfl, rfl, rfl, rfl, .inl rfl, id, fun _ => Option.some_ne_none _⟩

theorem evolves_markKnown (v : Version) : v.Evolves v.markKnown :=
  ⟨rfl, rfl, rfl, rfl, .inl rfl, id, id⟩

theorem evolves_bindTo (v : Version) (receipt : SubmitReceipt) (now : ℤ) :
    v.Evolves (v.bindTo receipt now) :=
  ⟨rfl, rfl, rfl, rfl, .inr rfl, id, id⟩

theorem evolves_seen {v : Version} (h : v.checkSummary packet = true)
    (polled : Bool) (now : ℤ) : v.Evolves (v.seen polled packet.summary now) := by
  refine ⟨rfl, rfl, rfl, rfl, .inl rfl, fun ht => ?_, id⟩
  simp only [checkSummary, Bool.and_eq_true, Bool.or_eq_true, Bool.not_eq_true', ht,
    Bool.true_eq_false, false_or] at h
  have hstate : v.lastObservedState = some packet.summary.remoteState :=
    of_decide_eq_true h.1.2
  rwa [terminalKnown, hstate] at ht

end Version

/-! ## Counters -/

/-- The counters of a later state of a version: no lookup was counted, none is taken back. -/
structure Version.Counted (v v' : Version) : Prop where
  requests : v'.reconciliationRequests = v.reconciliationRequests
  polls : v.pollSequence ≤ v'.pollSequence
  retries : v.resultRetries ≤ v'.resultRetries

/-- The number of the work that follows on one of `version`, which is `v` then. -/
def Version.Follows (version v : Version) (next : GuardianOperation) (sequence : ℕ) : Prop :=
  match next with
  | .dispatchVersion => sequence = v.submitAttempts ∧ v.known = true
  | .reconcileRemote => sequence = v.reconciliationRequests
  | .pollRemote => version.pollSequence < sequence ∧ sequence ≤ v.pollSequence
  | .fetchTerminalResult => version.resultRetries < sequence ∧ sequence ≤ v.resultRetries

structure Version.Numbered (version v : Version) (next : GuardianOperation) (sequence : ℕ) :
    Prop where
  counted : version.Counted v
  ended : v.terminalKnown = true → next = .fetchTerminalResult ∧
    (v.known = true ∨ version.terminalKnown = true ∧ v.known = version.known)
  fresh : version.Follows v next sequence

/-- A version whose result was collected. -/
abbrev Version.completedWith (v : Version) (counts : Option CaseCounts) (summary : CISummary)
    (now : ℤ) : Version :=
  { v with
    status := .completed, completedAt := some now, counts := counts,
    terminalSummary := some summary }

namespace Guardian

variable {s s' : Guardian} {cycle : Cycle} {version : Version} {now : ℤ}

/-! ## The end of a work -/

/-- Why a version is stopped without a hold on its environment. -/
def Stops (version : Version) (operation : GuardianOperation) (outcome : ProviderOutcome)
    (v : Version) : Prop :=
  v.terminalKnown = true ∨ operation = .fetchTerminalResult ∨
    (operation = .dispatchVersion ∧ ∃ code, outcome = .error code false) ∨
    (operation = .reconcileRemote ∧ ∃ sealed,
      outcome = .looked (some (.notCreatedFinal sealed)) ∧ version.checkSeal sealed = true)

/-- How a work ends. -/
inductive Outcome (s : Guardian) (cycle : Cycle) (version : Version)
    (operation : GuardianOperation) (outcome : ProviderOutcome) (now : ℤ) : Guardian → Prop where
  | stopped (v : Version) (status : VersionStatus) (reason : String) (hold : Bool)
      (hv : version.Evolves v) (hterminal : status.terminal = true)
      (hstatus : status ≠ .completed)
      (hhold : hold = true ∧ status = .unresolved ∨
        status ≠ .unresolved ∧ Stops version operation outcome v) :
      Outcome s cycle version operation outcome now (s.stop cycle v status reason now hold)
  | goesOn (v : Version) (next : GuardianOperation) (sequence : ℕ) (due : ℤ)
      (hv : version.Evolves v)
      (hfetch : next = .fetchTerminalResult →
        v.terminalKnown = true ∨ operation = .fetchTerminalResult)
      (hdispatch : next = .dispatchVersion → v.submitAttempts < 3) :
      Outcome s cycle version operation outcome now
        ((s.setVersion v).dueWork cycle v next sequence due)
  | completed (v : Version) (counts : Option CaseCounts) (summary : CISummary) (s' : Guardian)
      (hv : version.Evolves v) (hseen : v.terminalKnown = true)
      (hnext : (s.setVersion (v.completedWith counts summary now)).progress cycle
        (v.completedWith counts summary now) now = .ok s') :
      Outcome s cycle version operation outcome now s'

/-- How a work ends, with the number of the work that follows. -/
inductive Sequel (s : Guardian) (cycle : Cycle) (version : Version)
    (operation : GuardianOperation) (outcome : ProviderOutcome) (now : ℤ) : Guardian → Prop where
  | stopped (v : Version) (status : VersionStatus) (reason : String) (hold : Bool)
      (hv : version.Evolves v) (hcounted : version.Counted v)
      (hterminal : status.terminal = true) (hstatus : status ≠ .completed)
      (hhold : hold = true ∧ status = .unresolved ∨
        status ≠ .unresolved ∧ Stops version operation outcome v) :
      Sequel s cycle version operation outcome now (s.stop cycle v status reason now hold)
  | goesOn (v : Version) (next : GuardianOperation) (sequence : ℕ) (due : ℤ)
      (hv : version.Evolves v)
      (hfetch : next = .fetchTerminalResult →
        v.terminalKnown = true ∨ operation = .fetchTerminalResult)
      (hdispatch : next = .dispatchVersion → v.submitAttempts < 3)
      (hnumbered : (version.terminalKnown = true → operation = .fetchTerminalResult) →
        version.Numbered v next sequence) :
      Sequel s cycle version operation outcome now
        ((s.setVersion v).dueWork cycle v next sequence due)
  | completed (v : Version) (counts : Option CaseCounts) (summary : CISummary) (s' : Guardian)
      (hv : version.Evolves v) (hcounted : version.Counted v) (hseen : v.terminalKnown = true)
      (hnext : (s.setVersion (v.completedWith counts summary now)).progress cycle
        (v.completedWith counts summary now) now = .ok s') :
      Sequel s cycle version operation outcome now s'

variable {operation : GuardianOperation} {outcome : ProviderOutcome} {v : Version}

theorem Sequel.toOutcome (h : Sequel s cycle version operation outcome now s') :
    Outcome s cycle version operation outcome now s' := by
  cases h with
  | stopped v status reason hold hv _ hterminal hstatus hhold =>
    exact .stopped v status reason hold hv hterminal hstatus hhold
  | goesOn v next sequence due hv hfetch hdispatch =>
    exact .goesOn v next sequence due hv hfetch hdispatch
  | completed v counts summary s' hv _ hseen hnext =>
    exact .completed v counts summary s' hv hseen hnext

/-- A version that is known to have ended is not polled, dispatched or looked up. -/
def Continues (version : Version) (operation : GuardianOperation) (v : Version) : Prop :=
  v.terminalKnown = true → version.terminalKnown = true ∧ operation ≠ .fetchTerminalResult

theorem Continues.not_ended (h : Continues version operation v)
    (hodd : version.terminalKnown = true → operation = .fetchTerminalResult) :
    v.terminalKnown ≠ true :=
  fun ht => (h ht).2 (hodd (h ht).1)

section

variable (hv : version.Evolves v)
include hv

section

variable (hc : version.Counted v)
include hc

theorem sequel_reconcileDue
    (hgoes : Continues version operation v) (h : s.reconcileDue cycle v now = .ok s') :
    Sequel s cycle version operation outcome now s' := by
  unfold reconcileDue at h
  split_ifs at h with hexpired
  · cases h
    exact .stopped v .unresolved _ true hv hc rfl (by decide) (.inl ⟨rfl, rfl⟩)
  · split at h
    · cases h
    · cases h
      exact .goesOn v .reconcileRemote _ _ hv (nofun) (nofun) fun hodd =>
        ⟨hc, fun ht => absurd ht (hgoes.not_ended hodd), rfl⟩

theorem sequel_pollDue (hgoes : Continues version operation v) (backoff : Bool) :
    Sequel s cycle version operation outcome now (s.pollDue cycle v now backoff) := by
  unfold pollDue
  refine .goesOn _ .pollRemote _ _ (hv.trans ?_) (nofun) (nofun) fun hodd =>
    ⟨⟨hc.requests, hc.polls.trans (Nat.le_succ _), hc.retries⟩,
      fun ht => absurd ht (hgoes.not_ended hodd),
      And.intro (Nat.lt_succ_of_le hc.polls) (le_refl _)⟩
  exact ⟨rfl, rfl, rfl, rfl, .inl rfl, id, id⟩

theorem sequel_resultRetry (hended : v.terminalKnown = true ∨ operation = .fetchTerminalResult)
    (hknown : v.known = true ∨ version.terminalKnown = v.terminalKnown ∧ v.known = version.known) :
    Sequel s cycle version operation outcome now (s.resultRetry cycle v now) := by
  unfold resultRetry
  split_ifs with hlimit
  · refine .stopped v .infraFailed _ false hv hc rfl (by decide) (.inr ⟨by decide, ?_⟩)
    exact hended.elim .inl fun hop => .inr (.inl hop)
  · refine .goesOn _ .fetchTerminalResult _ _ (hv.trans ?_) (fun _ => hended) (nofun) fun _ =>
      ⟨⟨hc.requests, hc.polls, hc.retries.trans (Nat.le_succ _)⟩,
        fun ht => ⟨rfl, hknown.imp_right fun hk => ⟨hk.1.trans ht, hk.2⟩⟩,
        And.intro (Nat.lt_succ_of_le hc.retries) (le_refl _)⟩
    exact ⟨rfl, rfl, rfl, rfl, .inl rfl, id, id⟩

/-- A receipt binds the version to its task. -/
theorem sequel_bind {receipt : SubmitReceipt}
    (hgoes : Continues version operation v) (h : s.bind cycle v receipt now = .ok s') :
    Sequel s cycle version operation outcome now s' := by
  have hbound := hv.trans (v.evolves_bindTo receipt now)
  unfold bind at h
  split_ifs at h with hconflict htaken
  · cases h
    exact .stopped v .unresolved _ true hv hc rfl (by decide) (.inl ⟨rfl, rfl⟩)
  · simp only at h
    split_ifs at h with hcompleted
    · cases h
      have hended : (v.bindTo receipt now).terminalKnown = true := by
        rw [Version.terminalKnown, hcompleted]
        rfl
      exact .goesOn _ .fetchTerminalResult _ _ hbound (fun _ => .inl hended) (nofun)
        fun hodd => absurd hended (hgoes.not_ended hodd)
    · cases h
      exact sequel_pollDue hbound ⟨hc.requests, hc.polls, hc.retries⟩ (fun ht => hgoes ht) false

theorem sequel_pollFailed
    (hgoes : Continues version operation v) (h : s.pollFailed cycle v now = .ok s') :
    Sequel s cycle version operation outcome now s' := by
  have herr : version.Evolves { v with consecutivePollErrors := v.consecutivePollErrors + 1 } :=
    hv.trans ⟨rfl, rfl, rfl, rfl, .inl rfl, id, id⟩
  unfold pollFailed at h
  simp only at h
  split at h
  · cases h
  · split_ifs at h with hsilent
    · exact sequel_reconcileDue (herr.trans (Version.evolves_markUnknown _ _))
        ⟨hc.requests, hc.polls, hc.retries⟩ (fun ht => hgoes ht) h
    · cases h
      exact sequel_pollDue herr ⟨hc.requests, hc.polls, hc.retries⟩ (fun ht => hgoes ht) true

end

end

variable {key : WorkKey}

/-- A summary that was observed moves the version on, to a fetch when it is terminal. -/
theorem sequel_observe (hcheck : version.checkSummary packet = true)
    (h : s.observe cycle version key packet.summary now = .ok s') :
    Sequel s cycle version operation outcome now s' := by
  have hseen := Version.evolves_seen hcheck (decide (key.operation = .pollRemote)) now
  have hcounted : version.Counted
      (version.seen (decide (key.operation = .pollRemote)) packet.summary now) :=
    ⟨rfl, le_refl _, le_refl _⟩
  have hended : packet.summary.remoteState.terminal =
      (version.seen (decide (key.operation = .pollRemote)) packet.summary now).terminalKnown := rfl
  unfold observe at h
  cases hstate : packet.summary.remoteState with
  | completed =>
    rw [hstate] at hended
    simp only [hstate] at h
    split_ifs at h with hvalid
    · exact .completed _ _ _ s' hseen hcounted hended.symm h
    · cases h
      exact sequel_resultRetry hseen hcounted (.inl hended.symm) (.inl rfl)
  | infraFailed =>
    rw [hstate] at hended
    simp only [hstate] at h
    cases h
    exact .stopped _ .infraFailed _ false hseen hcounted rfl (by decide)
      (.inr ⟨by decide, .inl hended.symm⟩)
  | cancelled =>
    rw [hstate] at hended
    simp only [hstate] at h
    cases h
    exact .stopped _ .cancelled _ false hseen hcounted rfl (by decide)
      (.inr ⟨by decide, .inl hended.symm⟩)
  | queued | running =>
    rw [hstate] at hended
    simp only [hstate] at h
    cases h
    exact sequel_pollDue hseen hcounted (fun ht => nomatch hended.trans ht) false

/-! ### Each operation -/

/-- An error of any kind: retried, reconciled, or the cycle stops. -/
theorem sequel_finishError {code : String} {uncertain : Bool}
    (h : s.finishError cycle version operation now code uncertain = .ok s') :
    Sequel s cycle version operation (.error code uncertain) now s' := by
  unfold finishError at h
  cases operation with
  | dispatchVersion =>
    cases uncertain with
    | true =>
      exact sequel_reconcileDue (version.evolves_markUnknown _) ⟨rfl, le_refl _, le_refl _⟩
        (fun ht => ⟨ht, by decide⟩) h
    | false =>
      cases h
      exact .stopped version .dispatchFailed _ false (.refl version) ⟨rfl, le_refl _, le_refl _⟩ rfl
        (by decide)
        (.inr ⟨by decide, .inr (.inr (.inl ⟨rfl, code, rfl⟩))⟩)
  | reconcileRemote =>
    have hv : version.Evolves
        { version with reconciliationErrors := version.reconciliationErrors + 1 } :=
      ⟨rfl, rfl, rfl, rfl, .inl rfl, id, id⟩
    simp only at h
    exact sequel_reconcileDue (hv.trans (Version.evolves_markUnknown _ _))
      ⟨rfl, le_refl _, le_refl _⟩ (fun ht => ⟨ht, by decide⟩) h
  | fetchTerminalResult =>
    cases h
    exact sequel_resultRetry (.refl version) ⟨rfl, le_refl _, le_refl _⟩ (.inr rfl)
      (.inr ⟨rfl, rfl⟩)
  | pollRemote =>
    exact sequel_pollFailed (.refl version) ⟨rfl, le_refl _, le_refl _⟩
      (fun ht => ⟨ht, by decide⟩) h

theorem sequel_unresolved (reason : String) : Sequel s cycle version operation outcome now
    (s.stop cycle version .unresolved reason now true) :=
  .stopped version .unresolved _ true (.refl version) ⟨rfl, le_refl _, le_refl _⟩ rfl
    (by decide) (.inl ⟨rfl, rfl⟩)

theorem sequel_finishSubmit {receipt : Option SubmitReceipt}
    (hop : operation ≠ .fetchTerminalResult)
    (h : s.finishSubmit cycle version now receipt = .ok s') :
    Sequel s cycle version operation outcome now s' := by
  unfold finishSubmit at h
  split at h
  · cases h
    exact sequel_unresolved _
  · exact sequel_bind (.refl version) ⟨rfl, le_refl _, le_refl _⟩ (fun ht => ⟨ht, hop⟩) h

/-- The answer of a reconciliation. -/
theorem sequel_finishLookup {lookup : LookupResult}
    (h : s.finishLookup cycle version now lookup = .ok s') :
    Sequel s cycle version .reconcileRemote (.looked (some lookup)) now s' := by
  have hgoes : Continues version .reconcileRemote version := fun ht => ⟨ht, by decide⟩
  cases lookup with
  | found =>
    simp only [finishLookup] at h
    split_ifs at h with hcheck
    · have hv : version.Evolves { version with reconciliationErrors := 0 } :=
        ⟨rfl, rfl, rfl, rfl, .inl rfl, id, id⟩
      exact sequel_bind hv ⟨rfl, le_refl _, le_refl _⟩ hgoes h
    · cases h
      exact sequel_unresolved _
  | notCreatedFinal sealed =>
    simp only [finishLookup] at h
    split_ifs at h with hcheck
    · cases h
      exact .stopped version .dispatchFailed _ false (.refl version) ⟨rfl, le_refl _, le_refl _⟩ rfl
        (by decide)
        (.inr ⟨by decide, .inr (.inr (.inr ⟨rfl, sealed, rfl, hcheck⟩))⟩)
    · cases h
      exact sequel_unresolved _
  | notCreated =>
    simp only [finishLookup] at h
    split_ifs at h with hbound hattempts
    · exact sequel_reconcileDue (.refl version) ⟨rfl, le_refl _, le_refl _⟩ hgoes h
    · cases h
      exact .goesOn _ .dispatchVersion _ _ version.evolves_markKnown (nofun) (fun _ => hattempts)
        fun hodd => ⟨⟨rfl, le_refl _, le_refl _⟩,
          fun ht => absurd ht (hgoes.not_ended hodd), And.intro rfl rfl⟩
    · cases h
      exact sequel_unresolved _

theorem sequel_finishRead {packet : Option EvidencePacket}
    (h : s.finishRead cycle version key operation now packet = .ok s') :
    Sequel s cycle version operation outcome now s' := by
  have hsame : version.Counted version := ⟨rfl, le_refl _, le_refl _⟩
  unfold finishRead at h
  split at h
  · rename_i packet hpacket
    exact sequel_observe (Option.filter_eq_some_iff.mp hpacket).2 h
  · split_ifs at h with hfetch
    · cases h
      refine sequel_resultRetry (.refl version) hsame
        (hfetch.symm.imp_left fun hobserved => ?_) (.inr ⟨rfl, rfl⟩)
      rw [Version.terminalKnown, hobserved]
      rfl
    · rw [not_or] at hfetch
      exact sequel_pollFailed (.refl version) hsame (fun ht => ⟨ht, hfetch.1⟩) h

/-- One lemma for the outcome of every operation. -/
theorem settle_sequel (h : s.settle cycle version key operation now outcome = .ok s') :
    Sequel s cycle version operation outcome now s' := by
  unfold settle at h
  split at h
  · exact sequel_finishError h
  · exact sequel_finishSubmit (by decide) h
  · exact sequel_finishLookup h
  · exact sequel_finishRead h
  · exact sequel_finishRead h
  · exact sequel_finishSubmit (by decide) h
  · cases h
  all_goals exact sequel_finishRead h

theorem settle_outcome (h : s.settle cycle version key operation now outcome = .ok s') :
    Outcome s cycle version operation outcome now s' :=
  (settle_sequel h).toOutcome

end Guardian

end LocalAgent.Runtime
