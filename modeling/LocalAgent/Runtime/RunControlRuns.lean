import LocalAgent.Runtime.RunControl

/-!
# LocalAgent.Runtime.RunControlRuns — competing executors over whole runs

Any number of executors claim, renew, release, cancel and finalize, with leases kept for as long as
they like, in transactions one after the other on a database clock that does not go back.

* `ControlRun.step`: one transaction.
* `Sound`: tokens tell owners apart, at most one cancel intent and one terminal write for a run.
* `Keeps`: what one transaction leaves alone.
* `control_sound`: both, along every run.
-/

namespace LocalAgent.Runtime

open DurableRunControlService

/-! ## Runs -/

/-- The tables, the database clock, every lease granted so far and every run that was closed. -/
structure ControlRun where
  tables : ControlTables
  clock : ℤ
  granted : List RunLease
  finalized : List String

namespace ControlRun

/-- Before the first claim; the journal may hold anything. -/
def new (clock : ℤ) (journal : List JournalRecord) : ControlRun :=
  ⟨⟨Dict.empty, [], journal⟩, clock, [], []⟩

inductive Action where
  | claim (now : ℤ) (runId ownerId : String)
  | renew (now : ℤ) (lease : RunLease)
  | release (now : ℤ) (lease : RunLease)
  | requestCancel (now : ℤ) (runId reason : String) (commandId : Option String)
    (generated : String)
  | assertCurrent (now : ℤ) (lease : RunLease)
  | finalizeTerminal (now : ℤ) (lease : RunLease) (event : RuntimeEvent)
    (journaledAt : DateTime.Utc) (feedRaises : Bool)

/-- The database time of an operation. -/
def Action.now : Action → ℤ
  | .claim now _ _ | .renew now _ | .release now _ | .requestCancel now _ _ _ _
  | .assertCurrent now _ | .finalizeTerminal now _ _ _ _ => now

variable (leaseSeconds : ℕ)

def outcome (tables : ControlTables) :
    Action → Except RunControlError (ControlTables × Option RunLease × Option String)
  | .claim now runId ownerId => do
    let (lease, tables) ← claim leaseSeconds tables now runId ownerId
    return (tables, some lease, none)
  | .renew now old => do
    let (lease, tables) ← renew leaseSeconds tables now old
    return (tables, some lease, none)
  | .release now lease => do
    let (_, tables) ← release tables now lease
    return (tables, none, none)
  | .requestCancel now runId reason commandId generated => do
    let (_, tables) ← requestCancel tables now runId reason commandId generated
    return (tables, none, none)
  | .assertCurrent now lease => do
    assertCurrent tables now lease
    return (tables, none, none)
  | .finalizeTerminal now lease event journaledAt feedRaises => do
    let (_, tables) ← finalizeTerminal tables now lease event journaledAt feedRaises
    return (tables, none, some lease.runId)

/-- The step function; an operation that raises is rolled back. -/
def step (s : ControlRun) (action : Action) : Option ControlRun :=
  if action.now < s.clock then none
  else
    match outcome leaseSeconds s.tables action with
    | .error _ => some { s with clock := action.now }
    | .ok (tables, lease, closed) =>
      some ⟨tables, action.now, s.granted ++ lease.toList, s.finalized ++ closed.toList⟩

def runSteps (clock : ℤ) (journal : List JournalRecord) (acts : List Action) : Option ControlRun :=
  Trace.run (step leaseSeconds) (new clock journal) acts

/-! ## What a step can do -/

variable {leaseSeconds}
variable {s s' : ControlRun}

def grantTo (s : ControlRun) (now : ℤ) (runId ownerId : String) (leaseUntil : ℤ)
    (row : RunControlRow) : ControlRun :=
  { s with
    tables := put s.tables runId { row with ownerId := some ownerId, leaseUntil := some leaseUntil }
    clock := now
    granted := s.granted ++ [⟨runId, ownerId, leaseUntil, row.fencingToken, row.version⟩] }

/-- The row of a run that is still open gets another one. -/
def rewrite (s : ControlRun) (now : ℤ) (runId : String) (row : RunControlRow) : ControlRun :=
  { s with tables := put s.tables runId row, clock := now }

/-- The cases of a step. -/
inductive Moves (s : ControlRun) : Action → ControlRun → Prop where
  | idle {action : Action} : Moves s action { s with clock := action.now }
  | create {now : ℤ} {runId ownerId : String} {leaseUntil : ℤ}
      (absent : s.tables.controls.get? runId = none) : Moves s (.claim now runId ownerId)
        (s.grantTo now runId ownerId leaseUntil { RunControlRow.blank with fencingToken := 1 })
  | renewal {action : Action} {runId ownerId : String} {leaseUntil : ℤ} {row : RunControlRow}
      (found : s.tables.controls.get? runId = some row) (active : row.state = .active)
      (owned : row.ownerId = some ownerId) (live : row.unexpired action.now = true) :
      Moves s action
        (s.grantTo action.now runId ownerId leaseUntil { row with version := row.version + 1 })
  | takeover {now : ℤ} {runId ownerId : String} {leaseUntil : ℤ} {row : RunControlRow}
      (found : s.tables.controls.get? runId = some row) (active : row.state = .active) :
      Moves s (.claim now runId ownerId) (s.grantTo now runId ownerId leaseUntil
        { row with fencingToken := row.fencingToken + 1, version := row.version + 1 })
  | release {now : ℤ} {lease : RunLease} {row : RunControlRow}
      (found : s.tables.controls.get? lease.runId = some row) (active : row.state = .active) :
      Moves s (.release now lease) (s.rewrite now lease.runId
        { row with ownerId := none, leaseUntil := some now, version := row.version + 1 })
  | intent {now : ℤ} {runId reason generated : String} {commandId : Option String}
      {control : RunControlRow}
      (found : s.tables.controls.get? runId = some control ∧ control.state = .active ∨
        s.tables.controls.get? runId = none ∧ control = RunControlRow.blank) :
      Moves s (.requestCancel now runId reason commandId generated) (s.rewrite now runId control)
  | cancel {now : ℤ} {runId reason generated id : String} {commandId : Option String}
      {control : RunControlRow}
      (found : s.tables.controls.get? runId = some control ∧ control.state = .active ∨
        s.tables.controls.get? runId = none ∧ control = RunControlRow.blank)
      (first : ∀ other ∈ s.tables.commands, other.runId ≠ runId) :
      Moves s (.requestCancel now runId reason commandId generated)
        { s with
          tables := put
            { s.tables with commands := s.tables.commands ++ [⟨id, runId, reason, now⟩] } runId
            { control with
              cancelCommandId := some id
              cancelReason := some reason
              cancelRequestedAt := some now
              version := control.version + 1 }
          clock := now }
  | finalize {now : ℤ} {lease : RunLease} {event : RuntimeEvent} {journaledAt : DateTime.Utc}
      {feedRaises : Bool} {row : RunControlRow} {status : JournalAppendStatus}
      {journal : List JournalRecord} (found : s.tables.controls.get? lease.runId = some row)
      (current : row.current now lease = true)
      (appended : appendInTransaction s.tables.journal event journaledAt = .ok (status, journal)) :
      Moves s (.finalizeTerminal now lease event journaledAt feedRaises)
        { s with
          tables := put { s.tables with journal := journal } lease.runId
            (closeTerminalLocked row event.sequence)
          clock := now
          finalized := s.finalized ++ [lease.runId] }

theorem current_iff {row : RunControlRow} {now : ℤ} {lease : RunLease} :
    row.current now lease = true ↔ row.ownerId = some lease.ownerId ∧
      row.fencingToken = lease.fencingToken ∧ row.state = .active ∧ row.unexpired now = true := by
  simp [RunControlRow.current, RunControlRow.matchesLease, and_assoc]

theorem grantTo_eq (s : ControlRun) (now : ℤ) (runId ownerId : String) (row : RunControlRow) :
    (⟨(leased leaseSeconds s.tables now runId ownerId row).2, now,
      s.granted ++ (some (leased leaseSeconds s.tables now runId ownerId row).1).toList,
      s.finalized ++ (none : Option String).toList⟩ : ControlRun) =
    s.grantTo now runId ownerId (leaseUntilExpr leaseSeconds now) row := by
  simp [grantTo, leased]

variable {action : Action}

/-- Every step is one of the moves. -/
theorem step_moves (h : s.step leaseSeconds action = some s') :
    s.clock ≤ action.now ∧ Moves s action s' := by
  unfold step at h
  split_ifs at h with hclock
  refine ⟨not_lt.mp hclock, ?_⟩
  split at h
  · cases h
    exact .idle
  · rename_i tables lease closed houtcome
    cases h
    cases action with
    | claim now runId ownerId =>
      obtain ⟨⟨granted, tables'⟩, hclaim, hresult⟩ := bind_eq_ok.mp houtcome
      cases hresult
      rcases claim_ok hclaim with ⟨habsent, heq⟩ | ⟨row, hfound, hactive, hcase⟩
      · obtain ⟨rfl, rfl⟩ := Prod.ext_iff.mp heq
        exact grantTo_eq s now runId ownerId _ ▸ .create habsent
      · rcases hcase with ⟨howned, hlive, heq⟩ | ⟨-, heq⟩
        · obtain ⟨rfl, rfl⟩ := Prod.ext_iff.mp heq
          exact grantTo_eq s now runId ownerId _ ▸
            (.renewal hfound hactive howned hlive : Moves s (.claim now runId ownerId) _)
        · obtain ⟨rfl, rfl⟩ := Prod.ext_iff.mp heq
          exact grantTo_eq s now runId ownerId _ ▸ .takeover hfound hactive
    | renew now old =>
      obtain ⟨⟨_, tables'⟩, hrenew, hresult⟩ := bind_eq_ok.mp houtcome
      cases hresult
      obtain ⟨row, hfound, hcurrent, heq⟩ := renew_ok hrenew
      obtain ⟨howned, -, hactive, hlive⟩ := current_iff.mp hcurrent
      obtain ⟨rfl, rfl⟩ := Prod.ext_iff.mp heq
      exact grantTo_eq s now old.runId old.ownerId _ ▸
        (.renewal hfound hactive howned hlive : Moves s (.renew now old) _)
    | release =>
      obtain ⟨⟨_, tables'⟩, hrelease, hresult⟩ := bind_eq_ok.mp houtcome
      cases hresult
      rcases release_ok hrelease with rfl | ⟨_, hfound, hactive, rfl⟩
      · simpa using Moves.idle
      · simpa [rewrite, Action.now] using Moves.release hfound hactive
    | requestCancel =>
      obtain ⟨⟨_, tables'⟩, hcancel, hresult⟩ := bind_eq_ok.mp houtcome
      cases hresult
      obtain ⟨_, hfound, rfl | ⟨_, hfirst, rfl⟩⟩ := requestCancel_ok hcancel
      · simpa [rewrite, Action.now] using Moves.intent hfound
      · simpa [Action.now] using Moves.cancel hfound hfirst
    | assertCurrent =>
      obtain ⟨_, -, hresult⟩ := bind_eq_ok.mp houtcome
      cases hresult
      simpa using Moves.idle
    | finalizeTerminal =>
      obtain ⟨⟨_, _⟩, hfinal, hresult⟩ := bind_eq_ok.mp houtcome
      cases hresult
      obtain ⟨_, _, hfound, hcurrent, happended, rfl⟩ := finalizeTerminal_ok hfinal
      simpa [Action.now] using Moves.finalize hfound hcurrent happended

/-! ## What one transaction leaves alone -/

def tokenOf (s : ControlRun) (runId : String) : ℕ :=
  ((s.tables.controls.get? runId).map (·.fencingToken)).getD 0

structure RowKept (row row' : RunControlRow) : Prop where
  token : row.fencingToken ≤ row'.fencingToken
  version : row' = row ∨ row.version < row'.version
  closed : row.state = .closed → row' = row

/-- The one way to close a run: its current lease, with the event in the journal. -/
def Closes (s : ControlRun) (action : Action) (s' : ControlRun) (runId : String) : Prop :=
  ∃ lease event journaledAt feedRaises row record,
    action = .finalizeTerminal action.now lease event journaledAt feedRaises ∧
    lease.runId = runId ∧ s.tables.controls.get? runId = some row ∧
    row.current action.now lease = true ∧
    s'.tables.controls.get? runId = some (closeTerminalLocked row event.sequence) ∧
    JournalRecord.fromEvent event journaledAt = .ok record ∧
    (s'.tables.journal = s.tables.journal ++ [record] ∨
      s'.tables.journal = s.tables.journal ∧
        ∃ existing ∈ s.tables.journal, existing.isDuplicateOf record = true)

structure Keeps (s : ControlRun) (action : Action) (s' : ControlRun) : Prop where
  /-- tokens and versions only grow, every change grows the version, a closed row stays -/
  rows : ∀ runId row, s.tables.controls.get? runId = some row →
    ∃ row', s'.tables.controls.get? runId = some row' ∧ RowKept row row'
  /-- a lease is granted with a new token, or it renews the current unexpired one -/
  granted : s'.granted = s.granted ∨ ∃ lease, s'.granted = s.granted ++ [lease] ∧
    s'.tokenOf lease.runId = lease.fencingToken ∧
    (s.tokenOf lease.runId < lease.fencingToken ∨
      ∃ row, s.tables.controls.get? lease.runId = some row ∧ row.current action.now lease = true)
  /-- a cancel intent never changes -/
  commands : s.tables.commands <+: s'.tables.commands
  /-- a run is closed and its terminal event written in one transaction of its current lease -/
  terminal : s'.finalized = s.finalized ∧ s'.tables.journal = s.tables.journal ∨
    ∃ runId, s'.finalized = s.finalized ++ [runId] ∧ Closes s action s' runId

theorem RowKept.refl (row : RunControlRow) : RowKept row row :=
  ⟨le_rfl, .inl rfl, fun _ => rfl⟩

variable {tables : ControlTables} {ownerId : String} {leaseUntil : ℤ}

theorem rows_put {runId : String} {row' : RunControlRow}
    (hcontrols : tables.controls = s.tables.controls)
    (h : ∀ row, s.tables.controls.get? runId = some row → RowKept row row') :
    ∀ id row, s.tables.controls.get? id = some row →
      ∃ kept, (put tables runId row').controls.get? id = some kept ∧ RowKept row kept := by
  intro id row hrow
  by_cases hid : id = runId
  · subst hid
    exact ⟨row', by simp [put], h row hrow⟩
  · exact ⟨row, by simpa [put, hid, hcontrols] using hrow, .refl row⟩

theorem rowKept_of_active {row row' : RunControlRow} (hactive : row.state = .active)
    (htoken : row.fencingToken ≤ row'.fencingToken) (hversion : row.version < row'.version) :
    RowKept row row' :=
  ⟨htoken, .inr hversion, fun h => nomatch hactive.symm.trans h⟩

@[simp] theorem get?_put (tables : ControlTables) (runId id : String) (row : RunControlRow) :
    (put tables runId row).controls.get? id =
      if id = runId then some row else tables.controls.get? id := by
  simp [put]

theorem tokenOf_grantTo (s : ControlRun) (now : ℤ) (runId ownerId : String) (leaseUntil : ℤ)
    (row : RunControlRow) :
    (s.grantTo now runId ownerId leaseUntil row).tokenOf runId = row.fencingToken := by
  simp [tokenOf, grantTo]

theorem tokenOf_found {runId : String} {row : RunControlRow}
    (h : s.tables.controls.get? runId = some row) : s.tokenOf runId = row.fencingToken := by
  simp [tokenOf, h]

/-- A lease with a newer token, or the same owner's. -/
theorem Keeps.grantTo {now : ℤ} {runId : String} {row : RunControlRow}
    (hrows : ∀ old, s.tables.controls.get? runId = some old →
      old.state = .active ∧ old.fencingToken ≤ row.fencingToken ∧ old.version < row.version)
    (hlease : s.tokenOf runId < row.fencingToken ∨ ∃ old, s.tables.controls.get? runId = some old ∧
      old.current action.now ⟨runId, ownerId, leaseUntil, row.fencingToken, row.version⟩ = true) :
    Keeps s action (s.grantTo now runId ownerId leaseUntil row) where
  rows := rows_put rfl fun old hold =>
    rowKept_of_active (hrows old hold).1 (hrows old hold).2.1 (hrows old hold).2.2
  granted := .inr ⟨_, rfl, tokenOf_grantTo s now runId ownerId leaseUntil row, hlease⟩
  commands := List.prefix_rfl
  terminal := .inl ⟨rfl, rfl⟩

theorem Keeps.rewrite {now : ℤ} {runId : String} {row : RunControlRow}
    (hrows : ∀ old, s.tables.controls.get? runId = some old → RowKept old row) :
    Keeps s action (s.rewrite now runId row) where
  rows := rows_put rfl hrows
  granted := .inl rfl
  commands := List.prefix_rfl
  terminal := .inl ⟨rfl, rfl⟩

/-- What every move keeps of the rows, the tokens and the finalized runs. -/
theorem Moves.keeps (h : Moves s action s') : Keeps s action s' := by
  cases h with
  | idle =>
    exact ⟨fun _ row h => ⟨row, h, .refl row⟩, .inl rfl, List.prefix_rfl, .inl ⟨rfl, rfl⟩⟩
  | create habsent =>
    refine Keeps.grantTo (fun old hold => ?_) (.inl ?_)
    · cases habsent.symm.trans hold
    · simp [tokenOf, habsent]
  | renewal hfound hactive howned hlive =>
    refine Keeps.grantTo (fun old hold => ?_) (.inr ⟨_, hfound, ?_⟩)
    · cases hfound.symm.trans hold
      exact ⟨hactive, le_rfl, Nat.lt_succ_self _⟩
    · exact current_iff.mpr ⟨howned, rfl, hactive, hlive⟩
  | takeover hfound hactive =>
    refine Keeps.grantTo (fun old hold => ?_) (.inl ?_)
    · cases hfound.symm.trans hold
      exact ⟨hactive, Nat.le_succ _, Nat.lt_succ_self _⟩
    · rw [tokenOf_found hfound]
      exact Nat.lt_succ_self _
  | release hfound hactive =>
    refine Keeps.rewrite fun old hold => ?_
    cases hfound.symm.trans hold
    exact rowKept_of_active hactive le_rfl (Nat.lt_succ_self _)
  | intent hfound =>
    refine Keeps.rewrite fun old hold => ?_
    rcases hfound with ⟨hfound, -⟩ | ⟨habsent, -⟩
    · cases hfound.symm.trans hold
      exact .refl _
    · cases habsent.symm.trans hold
  | cancel hfound =>
    refine ⟨rows_put rfl fun old hold => ?_, .inl rfl, List.prefix_append _ _, .inl ⟨rfl, rfl⟩⟩
    rcases hfound with ⟨hfound, hactive⟩ | ⟨habsent, -⟩
    · cases hfound.symm.trans hold
      exact rowKept_of_active hactive le_rfl (Nat.lt_succ_self _)
    · cases habsent.symm.trans hold
  | @finalize now lease event journaledAt feedRaises row status journal hfound hcurrent happended =>
    have hactive := (current_iff.mp hcurrent).2.2.1
    obtain ⟨record, hrecord, hjournal⟩ := appendInTransaction_ok happended
    refine ⟨rows_put rfl fun old hold => ?_, .inl rfl, List.prefix_rfl,
      .inr ⟨lease.runId, rfl, lease, event, journaledAt, feedRaises, row, record, rfl, rfl, hfound,
        hcurrent, by simp, hrecord, hjournal⟩⟩
    cases hfound.symm.trans hold
    exact rowKept_of_active hactive le_rfl (Nat.lt_succ_self _)

/-! ## Every run -/

/-- What holds in every reachable state. -/
structure Sound (s : ControlRun) : Prop where
  owners : ∀ a ∈ s.granted, ∀ b ∈ s.granted, a.runId = b.runId → a.fencingToken = b.fencingToken →
    a.ownerId = b.ownerId
  current : ∀ (now : ℤ) (a b : RunLease), a.runId = b.runId →
    assertCurrent s.tables now a = .ok () → assertCurrent s.tables now b = .ok () →
    a.ownerId = b.ownerId ∧ a.fencingToken = b.fencingToken
  commands : s.tables.commands.Pairwise fun a b => a.runId ≠ b.runId
  /-- the terminal writes so far, at most one for a run, are the closed rows -/
  once : s.finalized.Nodup
  closed : ∀ runId, runId ∈ s.finalized ↔
    ∃ row, s.tables.controls.get? runId = some row ∧ row.state = .closed

structure Inv (s : ControlRun) : Prop where
  owners : ∀ a ∈ s.granted, ∀ b ∈ s.granted, a.runId = b.runId → a.fencingToken = b.fencingToken →
    a.ownerId = b.ownerId
  leases : ∀ lease ∈ s.granted, ∃ row, s.tables.controls.get? lease.runId = some row ∧
    lease.fencingToken ≤ row.fencingToken ∧
    (lease.fencingToken = row.fencingToken → ∀ ownerId, row.ownerId = some ownerId →
      lease.ownerId = ownerId)
  commands : s.tables.commands.Pairwise fun a b => a.runId ≠ b.runId
  once : s.finalized.Nodup
  closed : ∀ runId, runId ∈ s.finalized ↔
    ∃ row, s.tables.controls.get? runId = some row ∧ row.state = .closed

namespace Inv

theorem new (clock : ℤ) (journal : List JournalRecord) : Inv (new clock journal) where
  owners := fun _ h => nomatch h
  leases := fun _ h => nomatch h
  commands := .nil
  once := .nil
  closed := fun _ => ⟨(fun h => nomatch h), (fun ⟨_, h, _⟩ => nomatch h)⟩

/-- A run is finalized exactly when its row is closed. -/
theorem closed_put (hs : Inv s) (runId : String) (row : RunControlRow)
    (hactive : row.state = .active)
    (hold : ∀ old, s.tables.controls.get? runId = some old → old.state = .active) :
    ∀ id, id ∈ s.finalized ↔
      ∃ found, (if id = runId then some row else s.tables.controls.get? id) = some found ∧
        found.state = .closed := by
  intro id
  rw [hs.closed]
  by_cases hid : id = runId
  · subst hid
    constructor
    · rintro ⟨old, hfound, hclosed⟩
      cases hclosed.symm.trans (hold old hfound)
    · rintro ⟨_, hfound, hclosed⟩
      rw [if_pos rfl] at hfound
      cases hfound
      cases hclosed.symm.trans hactive
  · rw [if_neg hid]

/-- Every lease that was given is at most the row's token. -/
theorem leases_put (hs : Inv s) (runId : String) (row : RunControlRow)
    (h : ∀ old, s.tables.controls.get? runId = some old →
      old.fencingToken < row.fencingToken ∨
        old.fencingToken = row.fencingToken ∧ (row.ownerId = none ∨ row.ownerId = old.ownerId)) :
    ∀ lease ∈ s.granted, ∃ found,
      (if lease.runId = runId then some row else s.tables.controls.get? lease.runId) = some found ∧
      lease.fencingToken ≤ found.fencingToken ∧
      (lease.fencingToken = found.fencingToken → ∀ ownerId, found.ownerId = some ownerId →
        lease.ownerId = ownerId) := by
  intro lease hlease
  obtain ⟨old, hold, hle, howner⟩ := hs.leases lease hlease
  split_ifs with hid
  · refine ⟨row, rfl, ?_⟩
    rcases h old (hid ▸ hold) with hlt | ⟨heq, hsame⟩
    · exact ⟨(hle.trans_lt hlt).le, fun htoken => absurd htoken (hle.trans_lt hlt).ne⟩
    · refine ⟨hle.trans heq.le, fun htoken ownerId hrow => ?_⟩
      rcases hsame with hnone | hsame
      · cases hnone.symm.trans hrow
      · exact howner (htoken.trans heq.symm) ownerId (hsame ▸ hrow)
  · exact ⟨old, hold, hle, howner⟩

variable {now : ℤ} {runId : String} {row : RunControlRow}

theorem grantTo (hs : Inv s) (hactive : row.state = .active)
    (h : ∀ old, s.tables.controls.get? runId = some old → old.state = .active ∧
      (old.fencingToken < row.fencingToken ∨
        old.fencingToken = row.fencingToken ∧ old.ownerId = some ownerId)) :
    Inv (s.grantTo now runId ownerId leaseUntil row) := by
  -- an earlier lease of the run has a smaller token, or the same token and the same owner
  have hearlier : ∀ lease ∈ s.granted, lease.runId = runId →
      lease.fencingToken = row.fencingToken → lease.ownerId = ownerId := by
    intro lease hlease hrun htoken
    obtain ⟨old, hold, hle, howner⟩ := hs.leases lease hlease
    rcases (h old (hrun ▸ hold)).2 with hlt | ⟨heq, hsame⟩
    · exact absurd htoken (hle.trans_lt hlt).ne
    · exact howner (htoken.trans heq.symm) ownerId hsame
  have hmem : ∀ {lease}, lease ∈ (s.grantTo now runId ownerId leaseUntil row).granted →
      lease ∈ s.granted ∨
        lease = ⟨runId, ownerId, leaseUntil, row.fencingToken, row.version⟩ := by
    intro lease hlease
    simpa [ControlRun.grantTo] using hlease
  refine ⟨?_, ?_, hs.commands, hs.once, ?_⟩
  · intro a ha b hb hrun htoken
    rcases hmem ha with ha | rfl
    · rcases hmem hb with hb | rfl
      · exact hs.owners a ha b hb hrun htoken
      · exact hearlier a ha hrun htoken
    · rcases hmem hb with hb | rfl
      · exact (hearlier b hb hrun.symm htoken.symm).symm
      · rfl
  · intro lease hlease
    rcases hmem hlease with hlease | rfl
    · have hput := hs.leases_put runId
        { row with ownerId := some ownerId, leaseUntil := some leaseUntil }
        (fun old hold => (h old hold).2.imp_right fun ⟨heq, hsame⟩ => ⟨heq, .inr hsame.symm⟩)
        lease hlease
      simpa [ControlRun.grantTo] using hput
    · exact ⟨{ row with ownerId := some ownerId, leaseUntil := some leaseUntil },
        by simp [ControlRun.grantTo], le_rfl, fun _ id hid => Option.some.inj hid⟩
  · intro id
    have hput := hs.closed_put runId
      { row with ownerId := some ownerId, leaseUntil := some leaseUntil } hactive
      (fun old hold => (h old hold).1) id
    simpa [ControlRun.grantTo] using hput

theorem write (hs : Inv s) (hcontrols : tables.controls = s.tables.controls)
    (hcommands : tables.commands.Pairwise fun a b => a.runId ≠ b.runId)
    (hactive : row.state = .active)
    (h : ∀ old, s.tables.controls.get? runId = some old → old.state = .active ∧
      old.fencingToken = row.fencingToken ∧ (row.ownerId = none ∨ row.ownerId = old.ownerId)) :
    Inv { s with tables := put tables runId row, clock := now } := by
  refine ⟨hs.owners, ?_, hcommands, hs.once, ?_⟩
  · intro lease hlease
    have hput := hs.leases_put runId row (fun old hold => .inr (h old hold).2) lease hlease
    simpa [hcontrols] using hput
  · intro id
    have hput := hs.closed_put runId row hactive (fun old hold => (h old hold).1) id
    simpa [hcontrols] using hput

/-- A finalized run and its terminal event. -/
theorem finalize (hs : Inv s) {journal : List JournalRecord} {sequence : ℕ}
    (hfound : s.tables.controls.get? runId = some row) (hactive : row.state = .active) :
    Inv { s with
      tables := put { s.tables with journal := journal } runId (closeTerminalLocked row sequence)
      clock := now
      finalized := s.finalized ++ [runId] } := by
  have hfresh : runId ∉ s.finalized := by
    intro hmem
    obtain ⟨old, hold, hclosed⟩ := (hs.closed runId).mp hmem
    cases hfound.symm.trans hold
    cases hactive.symm.trans hclosed
  refine ⟨hs.owners, ?_, hs.commands, ?_, ?_⟩
  · intro lease hlease
    have hput := hs.leases_put runId (closeTerminalLocked row sequence) (fun old hold => ?_) lease
      hlease
    · simpa using hput
    · cases hfound.symm.trans hold
      exact .inr ⟨rfl, .inl rfl⟩
  · rw [← List.concat_eq_append]
    exact hs.once.concat hfresh
  · intro id
    by_cases hid : id = runId
    · subst hid
      exact ⟨fun _ => ⟨closeTerminalLocked row sequence, by simp, rfl⟩, fun _ => by simp⟩
    · simp [hid, hs.closed]

theorem step (hs : Inv s) (h : s.step leaseSeconds action = some s') : Inv s' := by
  cases (step_moves h).2 with
  | idle => exact ⟨hs.owners, hs.leases, hs.commands, hs.once, hs.closed⟩
  | create habsent => exact hs.grantTo rfl fun old hold => nomatch habsent.symm.trans hold
  | renewal hfound hactive howned =>
    refine hs.grantTo hactive fun old hold => ?_
    cases hfound.symm.trans hold
    exact ⟨hactive, .inr ⟨rfl, howned⟩⟩
  | takeover hfound hactive =>
    refine hs.grantTo hactive fun old hold => ?_
    cases hfound.symm.trans hold
    exact ⟨hactive, .inl (Nat.lt_succ_self _)⟩
  | release hfound hactive =>
    refine hs.write rfl hs.commands hactive fun old hold => ?_
    cases hfound.symm.trans hold
    exact ⟨hactive, rfl, .inl rfl⟩
  | intent hfound =>
    rcases hfound with ⟨hfound, hactive⟩ | ⟨habsent, rfl⟩
    · refine hs.write rfl hs.commands hactive fun old hold => ?_
      cases hfound.symm.trans hold
      exact ⟨hactive, rfl, .inr rfl⟩
    · exact hs.write rfl hs.commands rfl fun old hold => nomatch habsent.symm.trans hold
  | @cancel now runId reason _ id _ _ hfound hfirst =>
    have hcommands : (s.tables.commands ++
        [(⟨id, runId, reason, now⟩ : RunControlCommandRow)]).Pairwise
          (fun a b => a.runId ≠ b.runId) := by
      rw [List.pairwise_append]
      refine ⟨hs.commands, List.pairwise_singleton _ _, fun other hother last hlast => ?_⟩
      cases List.mem_singleton.mp hlast
      exact hfirst other hother
    rcases hfound with ⟨hfound, hactive⟩ | ⟨habsent, rfl⟩
    · refine hs.write rfl hcommands hactive fun old hold => ?_
      cases hfound.symm.trans hold
      exact ⟨hactive, rfl, .inr rfl⟩
    · exact hs.write rfl hcommands rfl fun old hold => nomatch habsent.symm.trans hold
  | finalize hfound hcurrent => exact hs.finalize hfound (current_iff.mp hcurrent).2.2.1

/-- The invariant gives every part of the claim. -/
theorem sound (hs : Inv s) : Sound s where
  owners := hs.owners
  current := by
    intro now a b hrun ha hb
    have hcurrent : ∀ lease, assertCurrent s.tables now lease = .ok () →
        ∃ row, s.tables.controls.get? lease.runId = some row ∧ row.current now lease = true := by
      intro _ h
      simp only [assertCurrent, seq_eq_ok] at h
      obtain ⟨-, h⟩ := h
      split at h
      · rename_i row hrow
        split_ifs at h with hcurrent
        exact ⟨row, hrow, hcurrent⟩
      · cases h
    obtain ⟨_, hrow, hcurrentA⟩ := hcurrent a ha
    obtain ⟨_, hrow', hcurrentB⟩ := hcurrent b hb
    cases hrow.symm.trans (hrun ▸ hrow')
    obtain ⟨hownerA, htokenA, -⟩ := current_iff.mp hcurrentA
    obtain ⟨hownerB, htokenB, -⟩ := current_iff.mp hcurrentB
    exact ⟨Option.mem_unique hownerA hownerB, htokenA.symm.trans htokenB⟩
  commands := hs.commands
  once := hs.once
  closed := hs.closed

end Inv

/-- In every state of every run, and for every transaction from there. -/
theorem control_sound {clock : ℤ} {journal : List JournalRecord} {acts : List Action}
    (hrun : runSteps leaseSeconds clock journal acts = some s) :
    Sound s ∧ ∀ action s', s.step leaseSeconds action = some s' → Keeps s action s' := by
  have hs : Inv s :=
    Trace.run_invariant (fun _ _ _ h hs => Inv.step hs h) hrun (Inv.new clock journal)
  exact ⟨hs.sound, fun action s' h => (step_moves h).2.keeps⟩

/-- `RUN_COMPLETED` of the sample run. -/
def sampleCompleted : RuntimeEvent where
  schemaVersion := runtimeEventSchemaVersion
  eventId := "e1"
  runId := "run"
  traceId := "trace"
  sequence := 1
  eventType := .runCompleted
  emittedAt := DateTime.epochSecond 0
  component := "run"
  payload := {
    type := .runCompleted
    attrs := ⟨[("status", .str "COMPLETED"), ("stop_reason", .str "DONE"), ("duration_ms", .int 0),
      ("safe_error_code", .none), ("delivery_status", .none), ("final_step_status", .none),
      ("memory_commit_status", .none), ("memory_duration_ms", .int 0), ("shape", .none)],
      by simp⟩ }
  stepId := none
  stepSequence := none
  spanId := none
  parentSpanId := none

/-- A takeover after the first lease ran out; the first owner's lease no longer finalizes. -/
def sampleTakeover : List Action :=
  [.claim 0 "run" "a", .requestCancel 1 "run" "stop" none "c1", .claim 2 "run" "b",
    .claim 40000000 "run" "b",
    .finalizeTerminal 40000001 ⟨"run", "a", 30000000, 1, 1⟩ sampleCompleted
      (.epochSecond 0) false,
    .finalizeTerminal 40000002 ⟨"run", "b", 70000000, 2, 3⟩ sampleCompleted
      (.epochSecond 0) false,
    .claim 90000000 "run" "a"]

theorem control_sound_sampleTakeover :
    ∃ s, runSteps 30 0 [] sampleTakeover = some s ∧ s.finalized = ["run"] ∧
      s.granted.map (fun lease => (lease.ownerId, lease.fencingToken)) = [("a", 1), ("b", 2)] ∧
      Sound s ∧ ∀ action s', s.step 30 action = some s' → Keeps s action s' := by
  have hrun : (runSteps 30 0 [] sampleTakeover).any (fun s => s.finalized = ["run"] ∧
      s.granted.map (fun lease => (lease.ownerId, lease.fencingToken)) = [("a", 1), ("b", 2)]) =
        true := by
    decide +kernel
  obtain ⟨s, hs, hfinalized, hgranted⟩ := exists_of_any hrun
  exact ⟨s, hs, hfinalized, hgranted, control_sound hs⟩

end ControlRun

end LocalAgent.Runtime
