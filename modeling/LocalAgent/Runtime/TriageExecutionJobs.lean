import LocalAgent.Runtime.TriageExecution

/-!
# LocalAgent.Runtime.TriageExecutionJobs — claims on the triage jobs

A claim fences a job with its owner, its token and the epoch of the execution row; whoever finishes
the job lets the lease end at that moment.

* `step_claim`, `step_renew`, `step_finish`: what a transaction does to the rows.
* `JobTable.Inv.step`: a finished job stays as it was left, and every transaction keeps that.
* `JobTable.Inv.passes`: only the claim that was returned last passes the fence.
-/

namespace LocalAgent.Runtime

/-! ## The fence -/

/-- The fence lets through the owner whose lease is still running. -/
theorem fence_eq_ok_iff {execution : Option JobExecution} {claim : JobClaim} {now : ℤ}
    {row : JobExecution} :
    fence execution claim now = .ok row ↔
      execution = some row ∧ row.owner = some claim.owner ∧ row.token = some claim.token ∧
        row.epoch = claim.epoch ∧ ∃ lease, row.leaseUntil = some lease ∧ now < lease := by
  unfold fence
  cases execution with
  | none => simp
  | some =>
    simp only [Option.mem_def, Option.some.injEq]
    split_ifs with hne hlease
    · refine ⟨fun h => (nomatch h), ?_⟩
      rintro ⟨rfl, howner, htoken, hepoch, -⟩
      exact absurd (by rw [howner, htoken, hepoch]) hne
    · simp only [ne_eq, Prod.mk.injEq, not_not] at hne
      constructor
      · intro h
        cases h
        exact ⟨rfl, hne.1, hne.2.1, hne.2.2, hlease⟩
      · rintro ⟨rfl, -⟩
        rfl
    · refine ⟨fun h => (nomatch h), ?_⟩
      rintro ⟨rfl, -, -, -, hl⟩
      exact absurd hl hlease

namespace JobTable

def Passes (s : JobTable) (now : ℤ) (claim : JobClaim) : Prop :=
  ∃ entry row, s.rows.get? claim.jobId = some entry ∧ fence entry.execution claim now = .ok row

/-! ## What a transaction does -/

variable {jobId : Option String} {id : String} {entry : JobEntry} {row : JobExecution}
  {scope : String} {locked : List String} {request : FinishRequest}

theorem nextJob_spec {s : JobTable} {now : ℤ}
    (h : s.nextJob scope jobId locked now = some (id, entry)) :
    s.rows.get? id = some entry ∧ claimable scope jobId now id entry = true := by
  have hmem := List.mem_of_mem_head? h
  rw [List.mem_insertionSort, List.mem_filter, Bool.and_eq_true] at hmem
  exact ⟨Dict.get?_eq_some_iff.mpr hmem.1, hmem.2.1⟩

theorem claimable_spec {now : ℤ} (h : claimable scope jobId now id entry = true)
    (hrow : entry.execution = some row) :
    entry.job.status.isOpen = true ∧ ∀ lease, row.leaseUntil = some lease → lease ≤ now := by
  simp only [claimable, Bool.and_eq_true, hrow] at h
  obtain ⟨⟨⟨⟨-, hopen⟩, -⟩, hlease⟩, -⟩ := h
  refine ⟨hopen, fun lease hl => ?_⟩
  rw [hl] at hlease
  exact of_decide_eq_true hlease

/-- A claim takes an open job whose lease has run out. -/
theorem step_claim {s : JobTable} {now : ℤ} {service : TriageService} {owner token : String} :
    s.step now (.claim service owner token jobId locked) = s ∨
      ∃ id entry row, s.rows.get? id = some entry ∧ entry.execution = some row ∧
        entry.job.status.isOpen = true ∧ (∀ lease, row.leaseUntil = some lease → lease ≤ now) ∧
        s.step now (.claim service owner token jobId locked) =
          { s with
            rows := s.rows.set id (taken entry row owner token now)
            issued := s.issued ++ [⟨id, owner, token, row.epoch + 1⟩] } := by
  cases hnext : s.nextJob service.scope jobId locked now with
  | none => exact .inl (by simp [step, claim, hnext, Except.map, Except.toOption])
  | some next =>
    obtain ⟨id, entry⟩ := next
    obtain ⟨hget, hclaimable⟩ := nextJob_spec hnext
    cases hrow : entry.execution with
    | none => exact .inl (by simp [step, claim, hnext, hrow, Except.map, Except.toOption])
    | some row =>
      cases hcheck : service.checkManifest entry.job.subjectManifest with
      | error =>
        exact .inl (by simp [step, claim, hnext, hrow, hcheck, Except.map, Except.toOption])
      | ok =>
        obtain ⟨hopen, hlease⟩ := claimable_spec hclaimable hrow
        refine .inr ⟨id, entry, row, hget, hrow, hopen, hlease, ?_⟩
        simp [step, claim, hnext, hrow, hcheck, Except.map, Except.toOption]

/-- A renewal extends the lease of its owner only. -/
theorem step_renew {s : JobTable} {now : ℤ} {claim : JobClaim} :
    s.step now (.renew claim) = s ∨
      ∃ entry row, s.rows.get? claim.jobId = some entry ∧
        fence entry.execution claim now = .ok row ∧
        s.step now (.renew claim) = { s with
          rows := s.rows.set claim.jobId { entry with
            execution := some { row with leaseUntil := some (now + leaseDuration) } } } := by
  cases hget : s.rows.get? claim.jobId with
  | none => exact .inl (by simp [step, renew, hget, Except.toOption])
  | some entry =>
    cases hfence : fence entry.execution claim now with
    | error => exact .inl (by simp [step, renew, hget, hfence, Except.toOption])
    | ok row =>
      exact .inr ⟨entry, row, rfl, hfence, by simp [step, renew, hget, hfence, Except.toOption]⟩

theorem step_finish {s : JobTable} {now : ℤ} {claim : JobClaim} :
    s.step now (.finish claim request) = s ∨
      ∃ entry row, s.rows.get? claim.jobId = some entry ∧
        fence entry.execution claim now = .ok row ∧
        s.step now (.finish claim request) = { s with
          rows := s.rows.set claim.jobId
            ⟨{ entry.job with status := request.status }, some (request.bind now row)⟩
          closed := s.closed ++ [⟨claim, now, entry,
            ⟨{ entry.job with status := request.status }, some (request.bind now row)⟩⟩] } := by
  cases hget : s.rows.get? claim.jobId with
  | none => exact .inl (by simp [step, finish, hget, Except.toOption])
  | some entry =>
    cases hfence : fence entry.execution claim now with
    | error => exact .inl (by simp [step, finish, hget, hfence, Except.toOption])
    | ok row =>
      exact .inr ⟨entry, row, rfl, hfence, by simp [step, finish, hget, hfence, Except.toOption]⟩

theorem status_not_open (request : FinishRequest) : request.status.isOpen = false := by
  cases request with
  | final =>
    rw [FinishRequest.status]
    split_ifs <;> rfl
  | unresolved => rfl

theorem bind_leaseUntil (request : FinishRequest) (now : ℤ) (row : JobExecution) :
    (request.bind now row).leaseUntil = some now := by
  cases request <;> rfl

theorem bind_owner (request : FinishRequest) (now : ℤ) (row : JobExecution) :
    (request.bind now row).owner = row.owner ∧ (request.bind now row).token = row.token ∧
      (request.bind now row).epoch = row.epoch := by
  cases request <;> exact ⟨rfl, rfl, rfl⟩

/-! ## The invariant -/

/-- A finished job: by whom, from which rows, and that it was not finished before. -/
def Closes (earlier : List JobClosing) (closing : JobClosing) : Prop :=
  (∃ row, fence closing.before.execution closing.claim closing.finishedAt = .ok row) ∧
    closing.before.job.status = .running ∧
    closing.after.job.status.isOpen = false ∧
    ∀ other ∈ earlier, other.claim.jobId ≠ closing.claim.jobId

def Carries (row : JobExecution) (claim : JobClaim) : Prop :=
  row.owner = some claim.owner ∧ row.token = some claim.token ∧ row.epoch = claim.epoch

structure Inv (rows₀ : Dict String JobEntry) (now : ℤ) (s : JobTable) : Prop where
  leased : ∀ id entry row lease, s.rows.get? id = some entry → entry.execution = some row →
    row.leaseUntil = some lease → ∃ claim ∈ s.issued, claim.jobId = id ∧ Carries row claim
  newest : ∀ claim ∈ s.issued, ∃ entry row, s.rows.get? claim.jobId = some entry ∧
    entry.execution = some row ∧ claim.epoch ≤ row.epoch
  distinct : ∀ c ∈ s.issued, ∀ d ∈ s.issued, c.jobId = d.jobId → c.epoch = d.epoch → c = d
  running : ∀ id entry row lease, s.rows.get? id = some entry → entry.execution = some row →
    row.leaseUntil = some lease → now < lease → entry.job.status = .running
  kept : ∀ closing ∈ s.closed, s.rows.get? closing.claim.jobId = some closing.after ∧
    closing.after.job.status.isOpen = false ∧
    ∃ row lease, closing.after.execution = some row ∧ row.leaseUntil = some lease ∧ lease ≤ now
  once : Trace.EachAfter Closes s.closed
  left : ∀ id entry₀ entry, rows₀.get? id = some entry₀ → s.rows.get? id = some entry →
    entry₀.job.status.isOpen = true → entry.job.status.isOpen = false →
    ∃ closing ∈ s.closed, closing.claim.jobId = id

variable {rows₀ : Dict String JobEntry} {now : ℤ} {s : JobTable}

section

variable (h : Inv rows₀ now s)
include h

theorem Inv.later {now' : ℤ} (hle : now ≤ now') : Inv rows₀ now' s where
  leased := h.leased
  newest := h.newest
  distinct := h.distinct
  running id entry row lease hget hrow hlease hlt :=
    h.running id entry row lease hget hrow hlease (by omega)
  kept closing hc := by
    obtain ⟨hget, hopen, row, lease, hrow, hlease, hle'⟩ := h.kept closing hc
    exact ⟨hget, hopen, row, lease, hrow, hlease, by omega⟩
  once := h.once
  left := h.left

/-- A job that is open or leased has not been closed. -/
theorem Inv.not_closed (hget : s.rows.get? id = some entry) (hrow : entry.execution = some row)
    (hlive : entry.job.status.isOpen = true ∨ ∃ lease, row.leaseUntil = some lease ∧ now < lease) :
    ∀ closing ∈ s.closed, closing.claim.jobId ≠ id := by
  rintro closing hc rfl
  obtain ⟨hafter, hopen, row', lease, hrow', hlease, hle⟩ := h.kept closing hc
  cases hget.symm.trans hafter
  cases hrow.symm.trans hrow'
  rcases hlive with h1 | ⟨lease', hl', hlt⟩
  · rw [hopen] at h1
    cases h1
  · have := Option.mem_unique hlease hl'
    omega

theorem Inv.kept_set {entry' : JobEntry} (hid : ∀ closing ∈ s.closed, closing.claim.jobId ≠ id) :
    ∀ closing ∈ s.closed,
      (s.rows.set id entry').get? closing.claim.jobId = some closing.after ∧
        closing.after.job.status.isOpen = false ∧
        ∃ row lease, closing.after.execution = some row ∧ row.leaseUntil = some lease ∧
          lease ≤ now := by
  intro closing hc
  rw [Dict.get?_set, if_neg (fun he => hid closing hc (by rw [he]))]
  exact h.kept closing hc

theorem Inv.claim {owner token : String}
(hget : s.rows.get? id = some entry) (hrow : entry.execution = some row)
    (hopen : entry.job.status.isOpen = true) :
    Inv rows₀ now { s with
      rows := s.rows.set id (taken entry row owner token now)
      issued := s.issued ++ [⟨id, owner, token, row.epoch + 1⟩] } where
  leased id' entry' row' lease hget' hrow' hlease := by
    rcases Dict.get?_set_cases hget' with ⟨hid, rfl⟩ | ⟨-, hget'⟩
    · cases hrow'
      exact ⟨_, List.mem_append_right _ List.mem_cons_self, hid.symm, rfl, rfl, rfl⟩
    · obtain ⟨claim, hc, hcarries⟩ := h.leased id' entry' row' lease hget' hrow' hlease
      exact ⟨claim, List.mem_append_left _ hc, hcarries⟩
  newest claim hc := by
    rcases mem_snoc hc with hc | rfl
    · obtain ⟨entry', row', hget', hrow', hle⟩ := h.newest claim hc
      rw [Dict.get?_set]
      split_ifs with hid
      · rw [hid, hget] at hget'
        cases hget'
        cases hrow.symm.trans hrow'
        exact ⟨_, _, rfl, rfl, by simpa using Nat.le_succ_of_le hle⟩
      · exact ⟨entry', row', hget', hrow', hle⟩
    · exact ⟨_, _, by rw [Dict.get?_set, if_pos rfl], rfl, le_refl _⟩
  distinct c hc d hd hjob hepoch := by
    have hold : ∀ e ∈ s.issued, e.jobId = id → e.epoch ≤ row.epoch := by
      intro e he hid
      obtain ⟨entry', row', hget', hrow', hle⟩ := h.newest e he
      rw [hid, hget] at hget'
      cases hget'
      cases hrow.symm.trans hrow'
      exact hle
    rcases mem_snoc hc with hc | rfl <;> rcases mem_snoc hd with hd | rfl
    · exact h.distinct c hc d hd hjob hepoch
    · have := hold c hc hjob
      simp only at hepoch
      omega
    · have := hold d hd hjob.symm
      simp only at hepoch
      omega
    · rfl
  running id' entry' row' lease hget' hrow' hlease hlt := by
    rcases Dict.get?_set_cases hget' with ⟨-, rfl⟩ | ⟨-, hget'⟩
    · rfl
    · exact h.running id' entry' row' lease hget' hrow' hlease hlt
  kept := h.kept_set (h.not_closed hget hrow (.inl hopen))
  once := h.once
  left id' entry₀ entry' hget₀ hget' hopen₀ hclosed := by
    rcases Dict.get?_set_cases hget' with ⟨-, rfl⟩ | ⟨-, hget'⟩
    · cases hclosed
    · exact h.left id' entry₀ entry' hget₀ hget' hopen₀ hclosed

variable {claim : JobClaim}

theorem Inv.renew (hget : s.rows.get? claim.jobId = some entry)
    (hfence : fence entry.execution claim now = .ok row) :
    Inv rows₀ now { s with
      rows := s.rows.set claim.jobId { entry with
        execution := some { row with leaseUntil := some (now + leaseDuration) } } } := by
  obtain ⟨hrow, -, -, -, lease, hlease, hlt⟩ := fence_eq_ok_iff.mp hfence
  refine ⟨?_, ?_, h.distinct, ?_, ?_, h.once, ?_⟩
  · intro id' entry' row' lease' hget' hrow' hlease'
    rcases Dict.get?_set_cases hget' with ⟨hid, rfl⟩ | ⟨-, hget'⟩
    · cases hrow'
      obtain ⟨c, hc, hjob, hcarries⟩ := h.leased _ _ _ _ hget hrow hlease
      exact ⟨c, hc, hjob.trans hid.symm, hcarries⟩
    · exact h.leased id' entry' row' lease' hget' hrow' hlease'
  · intro c hc
    obtain ⟨entry', row', hget', hrow', hle⟩ := h.newest c hc
    rw [Dict.get?_set]
    split_ifs with hid
    · rw [hid, hget] at hget'
      cases hget'
      cases hrow.symm.trans hrow'
      exact ⟨_, _, rfl, rfl, hle⟩
    · exact ⟨entry', row', hget', hrow', hle⟩
  · intro id' entry' row' lease' hget' hrow' hlease' hlt'
    rcases Dict.get?_set_cases hget' with ⟨-, rfl⟩ | ⟨-, hget'⟩
    · have hstatus := h.running _ _ _ _ hget hrow hlease hlt
      exact hstatus
    · exact h.running id' entry' row' lease' hget' hrow' hlease' hlt'
  · exact h.kept_set (h.not_closed hget hrow (.inr ⟨lease, hlease, hlt⟩))
  · intro id' entry₀ entry' hget₀ hget' hopen₀ hclosed
    rcases Dict.get?_set_cases hget' with ⟨hid, rfl⟩ | ⟨-, hget'⟩
    · rw [← hid] at hget
      exact h.left id' entry₀ entry hget₀ hget hopen₀ hclosed
    · exact h.left id' entry₀ entry' hget₀ hget' hopen₀ hclosed

theorem Inv.finish
(hget : s.rows.get? claim.jobId = some entry) (hfence : fence entry.execution claim now = .ok row) :
    Inv rows₀ now { s with
      rows := s.rows.set claim.jobId
        ⟨{ entry.job with status := request.status }, some (request.bind now row)⟩
      closed := s.closed ++ [⟨claim, now, entry,
        ⟨{ entry.job with status := request.status }, some (request.bind now row)⟩⟩] } := by
  obtain ⟨hrow, -, -, -, lease, hlease, hlt⟩ := fence_eq_ok_iff.mp hfence
  have hnot := h.not_closed hget hrow (.inr ⟨lease, hlease, hlt⟩)
  refine ⟨?_, ?_, h.distinct, ?_, ?_, ?_, ?_⟩
  · intro id' entry' row' lease' hget' hrow' hlease'
    rcases Dict.get?_set_cases hget' with ⟨hid, rfl⟩ | ⟨-, hget'⟩
    · cases hrow'
      obtain ⟨c, hc, hjob, hcarries⟩ := h.leased _ _ _ _ hget hrow hlease
      obtain ⟨h1, h2, h3⟩ := bind_owner request now row
      exact ⟨c, hc, hjob.trans hid.symm, h1 ▸ hcarries.1, h2 ▸ hcarries.2.1, h3 ▸ hcarries.2.2⟩
    · exact h.leased id' entry' row' lease' hget' hrow' hlease'
  · intro c hc
    obtain ⟨entry', row', hget', hrow', hle⟩ := h.newest c hc
    rw [Dict.get?_set]
    split_ifs with hid
    · rw [hid, hget] at hget'
      cases hget'
      cases hrow.symm.trans hrow'
      exact ⟨_, _, rfl, rfl, (bind_owner request now row).2.2.symm ▸ hle⟩
    · exact ⟨entry', row', hget', hrow', hle⟩
  · intro id' entry' row' lease' hget' hrow' hlease' hlt'
    rcases Dict.get?_set_cases hget' with ⟨-, rfl⟩ | ⟨-, hget'⟩
    · cases hrow'
      rw [bind_leaseUntil] at hlease'
      have := Option.some.inj hlease'
      omega
    · exact h.running id' entry' row' lease' hget' hrow' hlease' hlt'
  · intro closing hc
    rcases mem_snoc hc with hc | rfl
    · exact h.kept_set hnot closing hc
    · exact ⟨by rw [Dict.get?_set, if_pos rfl], status_not_open request, _, now, rfl,
        bind_leaseUntil request now row, le_refl now⟩
  · exact h.once.snoc ⟨⟨row, hfence⟩, h.running _ _ _ _ hget hrow hlease hlt,
      status_not_open request, hnot⟩
  · intro id' entry₀ entry' hget₀ hget' hopen₀ hclosed
    rw [Dict.get?_set] at hget'
    split_ifs at hget' with hid
    · exact ⟨_, List.mem_append_right _ List.mem_cons_self, hid.symm⟩
    · obtain ⟨closing, hc, hjob⟩ := h.left id' entry₀ entry' hget₀ hget' hopen₀ hclosed
      exact ⟨closing, List.mem_append_left _ hc, hjob⟩

theorem Inv.step (a : Action) : Inv rows₀ now (s.step now a) := by
  cases a with
  | claim =>
    rcases step_claim (s := s) with heq | ⟨_, entry, row, hget, hrow, hopen, -, heq⟩
    · rwa [heq]
    · rw [heq]
      exact h.claim hget hrow hopen
  | renew =>
    rcases step_renew (s := s) with heq | ⟨entry, row, hget, hfence, heq⟩
    · rwa [heq]
    · rw [heq]
      exact h.renew hget hfence
  | finish =>
    rcases step_finish (s := s) with heq | ⟨_, _, hget, hfence, heq⟩
    · rwa [heq]
    · rw [heq]
      exact h.finish hget hfence

/-- A claim that passes the fence is the newest of its job. -/
theorem Inv.passes (hpass : s.Passes now claim) :
    claim ∈ s.issued ∧ ∀ other ∈ s.issued, other.jobId = claim.jobId → other ≠ claim →
      other.epoch < claim.epoch := by
  obtain ⟨_, _, hget, hfence⟩ := hpass
  obtain ⟨hrow, howner, htoken, hepoch, _, hlease, -⟩ := fence_eq_ok_iff.mp hfence
  obtain ⟨c, hc, hjob, hcowner, hctoken, hcepoch⟩ := h.leased _ _ _ _ hget hrow hlease
  obtain rfl : c = claim := by
    obtain ⟨_, _, _, _⟩ := c
    obtain ⟨j, o, t, e⟩ := claim
    simp only at *
    rw [hjob, Option.mem_unique hcowner howner,
      Option.mem_unique hctoken htoken, hcepoch.symm.trans hepoch]
  refine ⟨hc, fun other ho hid hne => ?_⟩
  obtain ⟨entry', row', hget', hrow', hle⟩ := h.newest other ho
  rw [hid, hget] at hget'
  cases hget'
  cases hrow.symm.trans hrow'
  have hdiff : other.epoch ≠ c.epoch := fun he => hne (h.distinct other ho c hc hid he)
  omega

end

end JobTable

end LocalAgent.Runtime
