import LocalAgent.Runtime.ExternalExecution

/-!
# LocalAgent.Runtime.ExternalExecutionRuns — the executions over whole runs

* `JobsKept`, `CallsKept`, `TriagesKept`: the invariant, of the rows and of both kinds of callers.
* `Settles`: what a later state leaves as it was.
* `jobs_sound`: runs in which no caller adopts a job that another one has in hand or whose start was
  tried.
-/

namespace LocalAgent.Runtime

namespace ExternalExecution

variable {s s' : ExternalExecution} {jobs : Dict String ExternalJob}

/-! ## Reads -/

section Reads

variable {missionId requestDigest executionId jobId : String} {job : ExternalJob}

theorem openJob_some (h : s.openJob missionId requestDigest = some (jobId, job)) :
    s.jobs.get? jobId = some job ∧ job.missionId = missionId ∧
      job.requestDigest = requestDigest ∧ job.status.isOpen = true := by
  have hmem := List.mem_reverse.mp (List.mem_of_find?_eq_some h)
  exact ⟨Dict.get?_eq_some_iff.mpr hmem, by simpa using List.find?_some h⟩

theorem openJob_none (h : s.openJob missionId requestDigest = none)
    (hjob : s.jobs.get? jobId = some job) (hmission : job.missionId = missionId)
    (hdigest : job.requestDigest = requestDigest) : job.status.isOpen = false := by
  have hmem := List.mem_reverse.mpr (Dict.get?_eq_some_iff.mp hjob)
  have hnot := List.find?_eq_none.mp h _ hmem
  simpa [hmission, hdigest] using hnot

theorem byExecution_some (h : s.byExecution executionId = some (jobId, job)) :
    s.jobs.get? jobId = some job ∧ job.executionId = some executionId :=
  ⟨Dict.get?_eq_some_iff.mpr (List.mem_of_find?_eq_some h), by simpa using List.find?_some h⟩

theorem byExecution_none (h : s.byExecution executionId = none)
    (hjob : s.jobs.get? jobId = some job) : job.executionId ≠ some executionId := by
  simpa using List.find?_eq_none.mp h _ (Dict.get?_eq_some_iff.mp hjob)

end Reads

/-! ## The invariant -/

structure RowKept (job : ExternalJob) : Prop where
  pending : job.status = .pending → job.executionId = none
  running : job.status = .running → job.executionId.isSome = true
  triage : job.triage ≠ none → job.status = .failed

/-- Every row agrees with its status, no execution id stands twice, and no request has two open
jobs. -/
structure JobsKept (jobs : Dict String ExternalJob) : Prop where
  rows : ∀ {k job}, jobs.get? k = some job → RowKept job
  executions : ∀ {k k' job job' e}, jobs.get? k = some job → jobs.get? k' = some job' →
    job.executionId = some e → job'.executionId = some e → k = k'
  requests : ∀ {k k' job job'}, jobs.get? k = some job → jobs.get? k' = some job' →
    job.missionId = job'.missionId → job.requestDigest = job'.requestDigest →
    job.status.isOpen = true → job'.status.isOpen = true → k = k'

/-- A caller's job is pending and nobody else has it in hand; no start is tried twice. -/
structure CallsKept (s : ExternalExecution) : Prop where
  pending : ∀ {c call k}, s.calls.get? c = some call → call.job = some k →
    ∃ job, s.jobs.get? k = some job ∧ job.status = .pending
  alone : ∀ {c c' call call' k}, s.calls.get? c = some call → s.calls.get? c' = some call' →
    call.job = some k → call'.job = some k → c = c'
  untried : ∀ {c k}, s.calls.get? c = some (.ready k) → k ∉ s.starts
  nodup : s.starts.Nodup
  known : ∀ k ∈ s.starts, k ∈ s.jobs.keys

/-- A triage under way is the only one of its execution, whose row says so. -/
structure TriagesKept (s : ExternalExecution) : Prop where
  running : ∀ {t e}, s.triages.get? t = some ⟨e, false⟩ →
    ∃ k job, s.jobs.get? k = some job ∧ job.executionId = some e ∧ job.triage = some .running
  written : ∀ {t e}, s.triages.get? t = some ⟨e, true⟩ →
    ∃ k job result, s.jobs.get? k = some job ∧ job.executionId = some e ∧
      job.triage = some (.completed result)
  alone : ∀ {t t' e}, s.triages.get? t = some ⟨e, false⟩ → s.triages.get? t' = some ⟨e, false⟩ →
    t = t'

/-- What holds in every state of a run. -/
structure Kept (s : ExternalExecution) : Prop where
  jobs : JobsKept s.jobs
  calls : CallsKept s
  triages : TriagesKept s

/-- A later state of a row. -/
structure RowSettles (job job' : ExternalJob) : Prop where
  missionId : job'.missionId = job.missionId
  requestDigest : job'.requestDigest = job.requestDigest
  executionId : ∀ e, job.executionId = some e → job'.executionId = some e
  settled : job.status.isSettled = true → job'.status = job.status
  triage : ∀ result, job.triage = some (.completed result) →
    job'.triage = some (.completed result)

/-- Rows stay, each in a later state, and starts are only added. -/
structure Settles (s s' : ExternalExecution) : Prop where
  rows : ∀ {k job}, s.jobs.get? k = some job →
    ∃ job', s'.jobs.get? k = some job' ∧ RowSettles job job'
  starts : s.starts <+: s'.starts

theorem RowSettles.refl {job : ExternalJob} : RowSettles job job :=
  ⟨rfl, rfl, fun _ h => h, fun _ => rfl, fun _ h => h⟩

theorem RowSettles.trans {job job' job'' : ExternalJob} (h : RowSettles job job')
    (h' : RowSettles job' job'') : RowSettles job job'' where
  missionId := h'.missionId.trans h.missionId
  requestDigest := h'.requestDigest.trans h.requestDigest
  executionId := fun e he => h'.executionId e (h.executionId e he)
  settled := fun hs => by
    have hsame := h.settled hs
    exact (h'.settled (hsame ▸ hs)).trans hsame
  triage := fun result ht => h'.triage result (h.triage result ht)

theorem Settles.refl : Settles s s :=
  ⟨fun {_ job} h => ⟨job, h, .refl⟩, List.prefix_rfl⟩

theorem Settles.trans {s'' : ExternalExecution} (h : Settles s s') (h' : Settles s' s'') :
    Settles s s'' where
  rows := fun hk => by
    obtain ⟨_, hjob', hrow⟩ := h.rows hk
    obtain ⟨job'', hjob'', hrow'⟩ := h'.rows hjob'
    exact ⟨job'', hjob'', hrow.trans hrow'⟩
  starts := h.starts.trans h'.starts

theorem CallsKept.of_eq (h : CallsKept s) (hjobs : s'.jobs = s.jobs) (hcalls : s'.calls = s.calls)
    (hstarts : s'.starts = s.starts) : CallsKept s' where
  pending := by rw [hjobs, hcalls]; exact h.pending
  alone := by rw [hcalls]; exact h.alone
  untried := by rw [hcalls, hstarts]; exact h.untried
  nodup := by rw [hstarts]; exact h.nodup
  known := by rw [hjobs, hstarts]; exact h.known

theorem TriagesKept.of_eq (h : TriagesKept s) (hjobs : s'.jobs = s.jobs)
    (htriages : s'.triages = s.triages) : TriagesKept s' where
  running := by rw [hjobs, htriages]; exact h.running
  written := by rw [hjobs, htriages]; exact h.written
  alone := by rw [htriages]; exact h.alone

/-! ### Writing one row -/

section Rows

variable {k : String} {job job' : ExternalJob}

/-- A row may be written when what it says stays apart from the other rows. -/
theorem JobsKept.set (h : JobsKept jobs) (hrow : RowKept job')
    (hexecution : ∀ {k' other e}, k' ≠ k → jobs.get? k' = some other →
      job'.executionId = some e → other.executionId ≠ some e)
    (hrequest : ∀ {k' other}, k' ≠ k → jobs.get? k' = some other →
      job'.missionId = other.missionId → job'.requestDigest = other.requestDigest →
      job'.status.isOpen = true → other.status.isOpen = false) : JobsKept (jobs.set k job') where
  rows := by
    intro _ _ hk'
    rw [Dict.get?_set] at hk'
    split_ifs at hk'
    · exact Option.some.inj hk' ▸ hrow
    · exact h.rows hk'
  executions := by
    intro a b ja jb e ha hb hea heb
    rw [Dict.get?_set] at ha hb
    split_ifs at ha hb with hak hbk hbk
    · rw [hak, hbk]
    · cases ha
      exact absurd heb (hexecution hbk hb hea)
    · cases hb
      exact absurd hea (hexecution hak ha heb)
    · exact h.executions ha hb hea heb
  requests := by
    intro a b _ _ ha hb hmission hdigest hopena hopenb
    rw [Dict.get?_set] at ha hb
    split_ifs at ha hb with hak hbk hbk
    · rw [hak, hbk]
    · cases ha
      exact absurd hopenb (by simp [hrequest hbk hb hmission hdigest hopena])
    · cases hb
      exact absurd hopena (by simp [hrequest hak ha hmission.symm hdigest.symm hopenb])
    · exact h.requests ha hb hmission hdigest hopena hopenb

theorem JobsKept.rewrite (h : JobsKept jobs) (hk : jobs.get? k = some job) (hrow : RowKept job')
    (hmission : job'.missionId = job.missionId) (hdigest : job'.requestDigest = job.requestDigest)
    (hexecution : job'.executionId = job.executionId)
    (hopen : job'.status.isOpen = true → job.status.isOpen = true) :
    JobsKept (jobs.set k job') := by
  refine h.set hrow (fun hne hother he hsame => ?_) (fun hne hother hm hd ho => ?_)
  · exact hne (h.executions hother hk hsame (hexecution ▸ he))
  · by_contra hopened
    exact hne (h.requests hother hk (hmission ▸ hm).symm (hdigest ▸ hd).symm
      (by simpa using hopened) (hopen ho))

theorem CallsKept.set_job (h : CallsKept s)
    (hfree : ∀ {c call}, s.calls.get? c = some call → call.job ≠ some k) :
    CallsKept { s with jobs := s.jobs.set k job' } where
  pending := by
    intro c _ k' hc hk'
    obtain ⟨other, hother, hpending⟩ := h.pending hc hk'
    have hne : k' ≠ k := fun hsame => hfree hc (hsame ▸ hk')
    exact ⟨other, by simpa [hne] using hother, hpending⟩
  alone := h.alone
  untried := h.untried
  nodup := h.nodup
  known := fun k' hk' => Dict.mem_keys_set.mpr (.inr (h.known k' hk'))

theorem TriagesKept.set_job (h : TriagesKept s) (hk : s.jobs.get? k = some job)
    (hexecution : ∀ e, job.executionId = some e → job'.executionId = some e)
    (htriage : job'.triage = job.triage) :
    TriagesKept { s with jobs := s.jobs.set k job' } := by
  have hrow : ∀ {k₀ job₀ e p}, s.jobs.get? k₀ = some job₀ → job₀.executionId = some e →
      job₀.triage = some p → ∃ k₁ job₁, (s.jobs.set k job').get? k₁ = some job₁ ∧
        job₁.executionId = some e ∧ job₁.triage = some p := by
    intro k₀ job₀ e p h₀ he hp
    by_cases hsame : k₀ = k
    · subst hsame
      cases h₀.symm.trans hk
      exact ⟨k₀, job', by simp, hexecution e he, htriage.trans hp⟩
    · exact ⟨k₀, job₀, by simpa [hsame] using h₀, he, hp⟩
  refine ⟨fun ht => ?_, fun ht => ?_, h.alone⟩
  · obtain ⟨k₀, job₀, h₀, he, hp⟩ := h.running ht
    exact hrow h₀ he hp
  · obtain ⟨_, _, result, h₀, he, hp⟩ := h.written ht
    obtain ⟨k₁, job₁, h₁, he₁, hp₁⟩ := hrow h₀ he hp
    exact ⟨k₁, job₁, result, h₁, he₁, hp₁⟩

theorem Settles.set_job (hk : s.jobs.get? k = some job) (hrow : RowSettles job job') :
    ∀ {k₀ job₀}, s.jobs.get? k₀ = some job₀ →
      ∃ job₁, (s.jobs.set k job').get? k₀ = some job₁ ∧ RowSettles job₀ job₁ := by
  intro k₀ job₀ h₀
  by_cases hsame : k₀ = k
  · subst hsame
    cases h₀.symm.trans hk
    exact ⟨job', by simp, hrow⟩
  · exact ⟨job₀, by simpa [hsame] using h₀, .refl⟩

end Rows

/-! ### Callers -/

section Callers

variable {c : ℕ} {k : String} {job : ExternalJob}

theorem CallsKept.erase (h : CallsKept s) : CallsKept { s with calls := s.calls.erase c } where
  pending := by
    intro c' _ k' hc' hk'
    rw [show ({ s with calls := s.calls.erase c } : ExternalExecution).calls.get? c' =
      if c' = c then none else s.calls.get? c' from Dict.get?_erase ..] at hc'
    split_ifs at hc'
    exact h.pending hc' hk'
  alone := by
    intro _ _ _ _ k' h₁ h₂ hk₁ hk₂
    simp only [Dict.get?_erase] at h₁ h₂
    split_ifs at h₁ h₂
    exact h.alone h₁ h₂ hk₁ hk₂
  untried := by
    intro _ _ hc'
    simp only [Dict.get?_erase] at hc'
    split_ifs at hc'
    exact h.untried hc'
  nodup := h.nodup
  known := h.known

theorem CallsKept.set_planning (h : CallsKept s) {missionId requestDigest : String} :
    CallsKept { s with calls := s.calls.set c (.planning missionId requestDigest) } where
  pending := by
    intro c' _ k' hc' hk'
    simp only [Dict.get?_set] at hc'
    split_ifs at hc'
    · cases hc'
      cases hk'
    · exact h.pending hc' hk'
  alone := by
    intro _ _ _ _ k' h₁ h₂ hk₁ hk₂
    simp only [Dict.get?_set] at h₁ h₂
    split_ifs at h₁ h₂ with ha hb hb
    · rw [ha, hb]
    · cases h₁
      cases hk₁
    · cases h₂
      cases hk₂
    · exact h.alone h₁ h₂ hk₁ hk₂
  untried := by
    intro _ _ hc'
    simp only [Dict.get?_set] at hc'
    split_ifs at hc'
    · cases hc'
    · exact h.untried hc'
  nodup := h.nodup
  known := h.known

/-- A caller takes a pending job in hand that nobody touched. -/
theorem CallsKept.set_ready (h : CallsKept s) (hk : s.jobs.get? k = some job)
    (hpending : job.status = .pending) (hfree : s.Untouched k) :
    CallsKept { s with calls := s.calls.set c (.ready k) } := by
  have hother : ∀ {c' call'}, s.calls.get? c' = some call' → call'.job ≠ some k :=
    fun hc' => hfree.2 _ (Dict.get?_eq_some_iff.mp hc')
  refine ⟨?_, ?_, ?_, h.nodup, h.known⟩
  · intro c' _ k' hc' hk'
    simp only [Dict.get?_set] at hc'
    split_ifs at hc'
    · cases hc'
      cases hk'
      exact ⟨job, hk, hpending⟩
    · exact h.pending hc' hk'
  · intro _ _ _ _ k' h₁ h₂ hk₁ hk₂
    simp only [Dict.get?_set] at h₁ h₂
    split_ifs at h₁ h₂ with ha hb hb
    · rw [ha, hb]
    · cases h₁
      cases hk₁
      exact absurd hk₂ (hother h₂)
    · cases h₂
      cases hk₂
      exact absurd hk₁ (hother h₁)
    · exact h.alone h₁ h₂ hk₁ hk₂
  · intro _ _ hc'
    simp only [Dict.get?_set] at hc'
    split_ifs at hc'
    · cases hc'
      exact hfree.1
    · exact h.untried hc'

/-- The start tool is invoked by the only caller that has the job in hand. -/
theorem CallsKept.set_invoked (h : CallsKept s) (hc : s.calls.get? c = some (.ready k)) :
    CallsKept { s with calls := s.calls.set c (.invoked k), starts := s.starts ++ [k] } := by
  obtain ⟨job, hjob, hpending⟩ := h.pending hc rfl
  have huntried := h.untried hc
  refine ⟨?_, ?_, ?_, ?_, ?_⟩
  · intro c' _ k' hc' hk'
    simp only [Dict.get?_set] at hc'
    split_ifs at hc'
    · cases hc'
      cases hk'
      exact ⟨job, hjob, hpending⟩
    · exact h.pending hc' hk'
  · intro _ _ _ _ k' h₁ h₂ hk₁ hk₂
    simp only [Dict.get?_set] at h₁ h₂
    split_ifs at h₁ h₂ with ha hb hb
    · rw [ha, hb]
    · cases h₁
      cases hk₁
      exact ha.trans (h.alone hc h₂ rfl hk₂)
    · cases h₂
      cases hk₂
      exact (h.alone h₁ hc hk₁ rfl).trans hb.symm
    · exact h.alone h₁ h₂ hk₁ hk₂
  · intro _ k' hc'
    simp only [Dict.get?_set] at hc'
    split_ifs at hc' with hsame
    · cases hc'
    · refine fun hmem => ?_
      rcases mem_snoc hmem with hmem | rfl
      · exact h.untried hc' hmem
      · exact hsame (h.alone hc' hc rfl rfl)
  · rw [List.nodup_append]
    refine ⟨h.nodup, List.nodup_singleton _, fun a ha b hb => ?_⟩
    rw [List.mem_singleton.mp hb]
    rintro rfl
    exact huntried ha
  · intro k' hk'
    rcases mem_snoc hk' with hk' | hk'
    · exact h.known k' hk'
    · rw [hk']
      exact Dict.mem_keys_iff.mpr ⟨job, hjob⟩

end Callers

/-! ## Steps -/

variable {outcome : StartOutcome}

section Steps

variable {c t : ℕ} {k : String} {job : ExternalJob}

theorem RowKept.fresh (h : RowKept job) (hpending : job.status = .pending) :
    job.executionId = none ∧ job.triage = none := by
  refine ⟨h.pending hpending, ?_⟩
  by_contra hne
  have := h.triage hne
  rw [hpending] at this
  cases this

theorem RowKept.of_failed (h : job.status = .failed) : RowKept job where
  pending := fun hp => by rw [h] at hp; cases hp
  running := fun hr => by rw [h] at hr; cases hr
  triage := fun _ => h

theorem RowSettles.of_pending {job' : ExternalJob} (h : RowKept job)
    (hpending : job.status = .pending) (hmission : job'.missionId = job.missionId)
    (hdigest : job'.requestDigest = job.requestDigest) : RowSettles job job' := by
  obtain ⟨hexecution, htriage⟩ := h.fresh hpending
  refine ⟨hmission, hdigest, fun e he => ?_, fun hs => ?_, fun r hr => ?_⟩
  · rw [hexecution] at he; cases he
  · rw [hpending] at hs; cases hs
  · rw [htriage] at hr; cases hr

theorem pendingJob_of_openJob {missionId requestDigest : String}
    (hopen : s.openJob missionId requestDigest = some (k, job)) (hpending : job.status = .pending) :
    s.pendingJob missionId requestDigest = some k := by
  simp [pendingJob, hopen, hpending]

section

variable (h : Kept s)
include h

theorem Kept.adopt {missionId requestDigest : String}
    (hopen : s.openJob missionId requestDigest = some (k, job)) (hpending : job.status = .pending)
    (hfree : ∀ jobId ∈ s.pendingJob missionId requestDigest, s.Untouched jobId) :
    Kept { s with calls := s.calls.set c (.ready k) } where
  jobs := h.jobs
  calls := h.calls.set_ready (openJob_some hopen).1 hpending
    (hfree k (pendingJob_of_openJob hopen hpending))
  triages := h.triages.of_eq rfl rfl

/-- A mission adopts a job of its digest that nobody has touched, or makes its own. -/
theorem Kept.begin {missionId requestDigest : String} {bound : Bool}
    (hfree : s.AdoptsUntouched (.begin c missionId requestDigest bound))
    (hstep : s.begin c missionId requestDigest bound = some s') : Kept s' ∧ Settles s s' := by
  unfold ExternalExecution.begin at hstep
  split_ifs at hstep with hcall hbound
  · cases hstep
    exact ⟨h, .refl⟩
  · obtain rfl : bound = true := by simpa using hbound
    split at hstep
    · cases hstep
      exact ⟨⟨h.jobs, h.calls.set_planning, h.triages.of_eq rfl rfl⟩, Settles.refl.rows,
        List.prefix_rfl⟩
    · rename_i hopen
      split_ifs at hstep with hpending
      · cases hstep
        exact ⟨h.adopt hopen hpending hfree, Settles.refl.rows, List.prefix_rfl⟩
      · cases hstep
        exact ⟨h, .refl⟩

/-- A new row of a request that has no open job, in the hands of the caller that adds it. -/
theorem Kept.addJob {missionId requestDigest : String}
    (hopen : s.openJob missionId requestDigest = none) (hnew : k ∉ s.jobs.keys) :
    Kept { s with
      jobs := s.jobs.set k (plannedJob missionId requestDigest)
      calls := s.calls.set c (.ready k) } := by
  have hnone : s.jobs.get? k = none := Dict.get?_eq_none_iff.mpr hnew
  have hnobody : ∀ {c' call'}, s.calls.get? c' = some call' → call'.job ≠ some k := by
    intro _ _ hc' hk'
    obtain ⟨_, hjob, -⟩ := h.calls.pending hc' hk'
    rw [hnone] at hjob
    cases hjob
  have hcalls : CallsKept { s with jobs := s.jobs.set k (plannedJob missionId requestDigest) } :=
    h.calls.set_job hnobody
  refine ⟨?_, ?_, ?_⟩
  · refine h.jobs.set ⟨fun _ => rfl, fun hr => (by cases hr), fun ht => absurd rfl ht⟩
      (fun _ _ he => (by cases he)) (fun _ hother hm hd _ => ?_)
    exact openJob_none hopen hother hm.symm hd.symm
  · have hself : (s.jobs.set k (plannedJob missionId requestDigest)).get? k =
        some (plannedJob missionId requestDigest) := by simp
    refine hcalls.set_ready hself rfl ⟨fun hmem => hnew (h.calls.known k hmem), fun e he => ?_⟩
    exact hnobody (Dict.get?_eq_some_iff.mpr he)
  · have hkeep : ∀ {k₀ job₀}, s.jobs.get? k₀ = some job₀ →
        (s.jobs.set k (plannedJob missionId requestDigest)).get? k₀ = some job₀ := by
      intro k₀ job₀ h₀
      have hne : k₀ ≠ k := fun hsame => by rw [hsame, hnone] at h₀; cases h₀
      simpa [hne] using h₀
    refine ⟨fun ht => ?_, fun ht => ?_, h.triages.alone⟩
    · obtain ⟨k₀, job₀, h₀, he, hp⟩ := h.triages.running ht
      exact ⟨k₀, job₀, hkeep h₀, he, hp⟩
    · obtain ⟨k₀, job₀, result, h₀, he, hp⟩ := h.triages.written ht
      exact ⟨k₀, job₀, result, hkeep h₀, he, hp⟩

theorem Kept.eraseCall : Kept { s with calls := s.calls.erase c } :=
  ⟨h.jobs, h.calls.erase, h.triages.of_eq rfl rfl⟩

theorem Kept.plan {newJobId : String} {admitted : Bool}
    (hfree : s.AdoptsUntouched (.plan c newJobId admitted))
    (hstep : s.plan c newJobId admitted = some s') : Kept s' ∧ Settles s s' := by
  unfold ExternalExecution.plan at hstep
  split at hstep
  · rename_i missionId requestDigest hcall
    by_cases hadmitted : admitted = false
    · rw [if_pos hadmitted] at hstep
      cases hstep
      exact ⟨h.eraseCall, Settles.refl.rows, List.prefix_rfl⟩
    · rw [if_neg hadmitted] at hstep
      obtain rfl : admitted = true := by simpa using hadmitted
      have hpendingFree : ∀ jobId ∈ s.pendingJob missionId requestDigest, s.Untouched jobId := by
        simpa [AdoptsUntouched, adopts, hcall] using hfree
      split at hstep
      · rename_i hopen
        split_ifs at hstep with hpending
        · cases hstep
          exact ⟨h.adopt hopen hpending hpendingFree, Settles.refl.rows, List.prefix_rfl⟩
        · cases hstep
          exact ⟨h.eraseCall, Settles.refl.rows, List.prefix_rfl⟩
      · rename_i hopen
        split_ifs at hstep with hnew
        · cases hstep
          exact ⟨h.eraseCall, Settles.refl.rows, List.prefix_rfl⟩
        · cases hstep
          refine ⟨h.addJob hopen hnew, fun {k₀ job₀} h₀ => ⟨job₀, ?_, .refl⟩, List.prefix_rfl⟩
          have hne : k₀ ≠ newJobId := fun hsame =>
            hnew (hsame ▸ Dict.mem_keys_iff.mpr ⟨job₀, h₀⟩)
          simpa [hne] using h₀
  · cases hstep

theorem Kept.invoke (hstep : s.invoke c = some s') : Kept s' ∧ Settles s s' := by
  unfold ExternalExecution.invoke at hstep
  split at hstep
  · rename_i jobId hcall
    cases hstep
    exact ⟨⟨h.jobs, h.calls.set_invoked hcall, h.triages.of_eq rfl rfl⟩, Settles.refl.rows,
      List.prefix_append _ _⟩
  · cases hstep

end

/-! ### Settling a start -/

theorem Kept.settle_set (h : Kept s) (hcall : s.calls.get? c = some (.invoked k))
    (hjob : s.jobs.get? k = some job) (hpending : job.status = .pending) {job' : ExternalJob}
    (hjobs : JobsKept (s.jobs.set k job')) (hmission : job'.missionId = job.missionId)
    (hdigest : job'.requestDigest = job.requestDigest) (htriage : job'.triage = job.triage) :
    Kept { s with jobs := s.jobs.set k job', calls := s.calls.erase c } ∧
      Settles s { s with jobs := s.jobs.set k job', calls := s.calls.erase c } := by
  have hrow := h.jobs.rows hjob
  have hnone := (hrow.fresh hpending).1
  refine ⟨⟨hjobs, ?_, ?_⟩, ?_, List.prefix_rfl⟩
  · refine (h.calls.erase (c := c)).set_job fun {c' call'} hc' hk' => ?_
    simp only [Dict.get?_erase] at hc'
    split_ifs at hc' with hne
    exact hne (h.calls.alone hc' hcall hk' rfl)
  · exact (h.triages.set_job hjob (fun e he => (by rw [hnone] at he; cases he)) htriage).of_eq
      rfl rfl
  · exact Settles.set_job hjob (.of_pending hrow hpending hmission hdigest)

variable {status : ExternalExecutionStatus}

/-- A failed start leaves its job without an execution. -/
theorem Kept.settle_failed (h : Kept s) (hcall : s.calls.get? c = some (.invoked k)) {code : String}
    (hstatus : status = .unknown ∨ status = .cancelled) :
    Kept { s with jobs := s.updateById k (startFailed status code), calls := s.calls.erase c } ∧
      Settles s
        { s with jobs := s.updateById k (startFailed status code), calls := s.calls.erase c } := by
  obtain ⟨job, hjob, hpending⟩ := h.calls.pending hcall rfl
  have hrow := h.jobs.rows hjob
  have hupdate : s.updateById k (startFailed status code) =
      s.jobs.set k (startFailed status code job) := by
    unfold updateById
    rw [hjob]
  rw [hupdate]
  refine h.settle_set hcall hjob hpending (h.jobs.rewrite hjob ?_ rfl rfl rfl ?_) rfl rfl rfl
  · refine ⟨fun hp => ?_, fun hr => ?_, fun ht => absurd (hrow.fresh hpending).2 ht⟩
    · exact (hrow.fresh hpending).1
    · rcases hstatus with rfl | rfl <;> cases hr
  · intro
    rw [hpending]
    rfl

variable {committed : Bool}

/-- A start has given the job its execution. -/
theorem Kept.settle_started (h : Kept s) (hcall : s.calls.get? c = some (.invoked k))
    {executionId : String} :
    Kept { s with
      jobs := s.startSucceeded k executionId committed, calls := s.calls.erase c } ∧
      Settles s { s with
        jobs := s.startSucceeded k executionId committed, calls := s.calls.erase c } := by
  obtain ⟨_, hjob, hpending⟩ := h.calls.pending hcall rfl
  unfold startSucceeded
  rw [hjob]
  dsimp only
  split_ifs with hset
  · refine h.settle_set hcall hjob hpending (h.jobs.set ?_ ?_ ?_) rfl rfl rfl
    · exact ⟨fun hp => (by cases hp), fun _ => rfl,
        fun ht => absurd ((h.jobs.rows hjob).fresh hpending).2 ht⟩
    · intro k' other e hne hother he hsame
      cases he
      exact byExecution_none hset.2.2 hother hsame
    · intro _ _ hne hother hm hd _
      by_contra hopen
      exact hne (h.jobs.requests hjob hother hm hd (by rw [hpending]; rfl)
        (by simpa using hopen)).symm
  · exact ⟨h.eraseCall, Settles.refl.rows, List.prefix_rfl⟩

theorem Kept.settle (h : Kept s)
    (hstep : s.settle c outcome committed = some s') : Kept s' ∧ Settles s s' := by
  unfold ExternalExecution.settle at hstep
  split at hstep
  · rename_i jobId hcall
    cases hstep
    cases outcome with
    | toolError _ outcomeUnknown =>
      refine h.settle_failed hcall ?_
      cases outcomeUnknown
      · exact .inr rfl
      · exact .inl rfl
    | raised | executionIdMissing => exact h.settle_failed hcall (.inl rfl)
    | started => exact h.settle_started hcall
  · cases hstep

/-! ### Results and triages -/

section

variable (h : Kept s)
include h

theorem Kept.not_in_hand (hjob : s.jobs.get? k = some job)
    (hstatus : job.status ≠ .pending) {c' : ℕ} {call' : StartCall}
    (hc' : s.calls.get? c' = some call') : call'.job ≠ some k := by
  intro hk'
  obtain ⟨_, hother, hpending⟩ := h.calls.pending hc' hk'
  cases hother.symm.trans hjob
  exact hstatus hpending

/-- An execution's report settles its job at most once. -/
theorem Kept.ingest {expectedJobId : Option String} {executionId payload : String} :
    Kept (s.ingest expectedJobId executionId status payload committed) ∧
      Settles s (s.ingest expectedJobId executionId status payload committed) := by
  unfold ExternalExecution.ingest
  split
  · exact ⟨h, .refl⟩
  · rename_i jobId job hrow
    obtain ⟨hjob, hexecution⟩ := byExecution_some (Option.filter_eq_some_iff.mp hrow).1
    split_ifs with hkeep
    · exact ⟨h, .refl⟩
    · simp only [not_or, Bool.not_eq_true, Bool.not_eq_false] at hkeep
      obtain ⟨hopen, hresult, -⟩ := hkeep
      have hkept := h.jobs.rows hjob
      have hrunning : job.status = .running := by
        cases hstatus : job.status
        case pending =>
          have := hkept.pending hstatus
          rw [hexecution] at this
          cases this
        case running => rfl
        all_goals
          rw [hstatus] at hopen
          cases hopen
      have htriage : job.triage = none := by
        by_contra hne
        have := hkept.triage hne
        rw [hrunning] at this
        cases this
      refine ⟨⟨?_, ?_, ?_⟩, ?_, List.prefix_rfl⟩
      · refine h.jobs.rewrite hjob ⟨fun hp => ?_, fun hr => ?_, fun ht => absurd htriage ht⟩
          rfl rfl rfl (fun _ => by rw [hrunning]; rfl)
        · rw [show status = .pending from hp] at hresult
          cases hresult
        · rw [show status = .running from hr] at hresult
          cases hresult
      · exact h.calls.set_job (h.not_in_hand hjob (by simp [hrunning]))
      · exact h.triages.set_job hjob (fun e he => he) rfl
      · have hsettles : RowSettles job (withResult status payload job) :=
          ⟨rfl, rfl, fun e he => he, fun hs => absurd hs (by simp [hopen]), fun r hr => hr⟩
        exact fun {k₀ job₀} h₀ => Settles.set_job hjob hsettles h₀

theorem Kept.triage_failed (hjob : s.jobs.get? k = some job) {p : JobTriage}
    (hp : job.triage = some p) : job.status = .failed :=
  (h.jobs.rows hjob).triage (by simp [hp])

/-- A triage is claimed by one worker at a time. -/
theorem Kept.claimTriage {executionId : String}
    (hstep : s.claimTriage t executionId = some s') : Kept s' ∧ Settles s s' := by
  unfold ExternalExecution.claimTriage at hstep
  split_ifs at hstep with ht
  split at hstep
  · cases hstep
    exact ⟨h, .refl⟩
  · rename_i jobId job hrow
    obtain ⟨hjob, hexecution⟩ := byExecution_some hrow
    split_ifs at hstep with hclaim
    · cases hstep
      obtain ⟨hfailed, hnone⟩ := hclaim
      have hother : ∀ {k₀ job₀ p}, s.jobs.get? k₀ = some job₀ → job₀.triage = some p →
          k₀ ≠ jobId := by
        rintro k₀ job₀ p h₀ hp rfl
        cases h₀.symm.trans hjob
        rw [hnone] at hp
        cases hp
      refine ⟨⟨?_, ?_, ?_, ?_, ?_⟩, ?_, List.prefix_rfl⟩
      · exact h.jobs.rewrite hjob (.of_failed hfailed) rfl rfl rfl (fun ho => ho)
      · exact (h.calls.set_job (h.not_in_hand hjob (by simp [hfailed]))).of_eq rfl rfl rfl
      · intro t' e ht'
        simp only [Dict.get?_set] at ht'
        split_ifs at ht'
        · obtain ⟨rfl⟩ := ht'
          exact ⟨jobId, { job with triage := some .running }, by simp, hexecution, rfl⟩
        · obtain ⟨k₀, job₀, h₀, he, hp⟩ := h.triages.running ht'
          exact ⟨k₀, job₀, by simpa [hother h₀ hp] using h₀, he, hp⟩
      · intro t' e ht'
        simp only [Dict.get?_set] at ht'
        split_ifs at ht'
        · cases ht'
        · obtain ⟨k₀, job₀, result, h₀, he, hp⟩ := h.triages.written ht'
          exact ⟨k₀, job₀, result, by simpa [hother h₀ hp] using h₀, he, hp⟩
      · have hnotBoth : ∀ {t'}, s.triages.get? t' ≠ some ⟨executionId, false⟩ := by
          intro _ ht'
          obtain ⟨k₀, job₀, h₀, he, hp⟩ := h.triages.running ht'
          exact hother h₀ hp (h.jobs.executions h₀ hjob he hexecution)
        intro _ _ e h₁ h₂
        simp only [Dict.get?_set] at h₁ h₂
        split_ifs at h₁ h₂ with ha hb hb
        · rw [ha, hb]
        · obtain ⟨rfl⟩ := h₁
          exact absurd h₂ hnotBoth
        · obtain ⟨rfl⟩ := h₂
          exact absurd h₁ hnotBoth
        · exact h.triages.alone h₁ h₂
      · have hsettles : RowSettles job { job with triage := some .running } :=
          ⟨rfl, rfl, fun e he => he, fun _ => rfl, fun r hr => absurd hr (by simp [hnone])⟩
        exact fun {k₀ job₀} h₀ => Settles.set_job hjob hsettles h₀
    · cases hstep
      exact ⟨h, .refl⟩

theorem Kept.triage_row {executionId : String}
    (ht : s.triages.get? t = some ⟨executionId, false⟩) {jobId : String}
    (hrow : s.byExecution executionId = some (jobId, job)) : job.triage = some .running := by
  obtain ⟨hjob, hexecution⟩ := byExecution_some hrow
  obtain ⟨_, _, h₀, he, hp⟩ := h.triages.running ht
  cases h.jobs.executions h₀ hjob he hexecution
  cases h₀.symm.trans hjob
  exact hp

/-- The triage of a row is written: to its result, or back to none, by the caller it belongs to. -/
theorem Kept.set_triage {executionId jobId : String}
    (ht : s.triages.get? t = some ⟨executionId, false⟩)
    (hrow : s.byExecution executionId = some (jobId, job)) {payload : Option JobTriage}
    {triages : Dict ℕ TriageCall}
    (hothers : ∀ {t' call}, triages.get? t' = some call → t' ≠ t → s.triages.get? t' = some call)
    (hself : ∀ {call}, triages.get? t = some call → call = ⟨executionId, true⟩ ∧
      ∃ result, payload = some (.completed result)) :
    Kept { s with jobs := s.jobs.set jobId { job with triage := payload }, triages := triages } ∧
      Settles s
        { s with jobs := s.jobs.set jobId { job with triage := payload }, triages := triages } := by
  obtain ⟨hjob, hexecution⟩ := byExecution_some hrow
  have hrunning := h.triage_row ht hrow
  have hfailed := h.triage_failed hjob hrunning
  have hkeep : ∀ {k₀ job₀}, s.jobs.get? k₀ = some job₀ → k₀ ≠ jobId →
      (s.jobs.set jobId { job with triage := payload }).get? k₀ = some job₀ := by
    intro k₀ job₀ h₀ hne
    simpa [hne] using h₀
  refine ⟨⟨?_, ?_, ?_, ?_, ?_⟩, ?_, List.prefix_rfl⟩
  · exact h.jobs.rewrite hjob (.of_failed hfailed) rfl rfl rfl (fun ho => ho)
  · exact (h.calls.set_job (h.not_in_hand hjob (by simp [hfailed]))).of_eq rfl rfl rfl
  · intro t' e ht'
    by_cases hsame : t' = t
    · subst hsame
      cases (hself ht').1
    · have hold := hothers ht' hsame
      obtain ⟨k₀, job₀, h₀, he, hp⟩ := h.triages.running hold
      refine ⟨k₀, job₀, hkeep h₀ ?_, he, hp⟩
      rintro rfl
      cases h₀.symm.trans hjob
      cases he.symm.trans hexecution
      exact hsame (h.triages.alone hold ht)
  · intro t' e ht'
    by_cases hsame : t' = t
    · subst hsame
      obtain ⟨hcall, result, rfl⟩ := hself ht'
      obtain ⟨rfl⟩ := hcall
      exact ⟨jobId, { job with triage := some (.completed result) }, result, by simp,
        hexecution, rfl⟩
    · obtain ⟨k₀, job₀, result, h₀, he, hp⟩ := h.triages.written (hothers ht' hsame)
      refine ⟨k₀, job₀, result, hkeep h₀ ?_, he, hp⟩
      rintro rfl
      cases h₀.symm.trans hjob
      rw [hrunning] at hp
      cases hp
  · intro t₁ t₂ e h₁ h₂
    by_cases ha : t₁ = t
    · subst ha
      cases (hself h₁).1
    · by_cases hb : t₂ = t
      · subst hb
        cases (hself h₂).1
      · exact h.triages.alone (hothers h₁ ha) (hothers h₂ hb)
  · have hsettles : RowSettles job { job with triage := payload } :=
      ⟨rfl, rfl, fun e he => he, fun _ => rfl, fun r hr => absurd hr (by simp [hrunning])⟩
    exact fun {k₀ job₀} h₀ => Settles.set_job hjob hsettles h₀

theorem Kept.completeTriage {result : String}
    (hstep : s.completeTriage t result = some s') : Kept s' ∧ Settles s s' := by
  unfold ExternalExecution.completeTriage at hstep
  split at hstep
  · rename_i executionId ht
    split at hstep
    · cases hstep
      exact ⟨h, .refl⟩
    · rename_i hrow
      cases hstep
      refine h.set_triage ht hrow (fun ht' hne => by simpa [hne] using ht')
        (fun ht' => ⟨?_, result, rfl⟩)
      simpa using ht'.symm
  · cases hstep

theorem Kept.eraseTriage : Kept { s with triages := s.triages.erase t } := by
  refine ⟨h.jobs, ⟨h.calls.pending, h.calls.alone, h.calls.untried, h.calls.nodup,
    h.calls.known⟩, fun ht => ?_, fun ht => ?_, fun h₁ h₂ => ?_⟩
  · simp only [Dict.get?_erase] at ht
    split_ifs at ht
    exact h.triages.running ht
  · simp only [Dict.get?_erase] at ht
    split_ifs at ht
    exact h.triages.written ht
  · simp only [Dict.get?_erase] at h₁ h₂
    split_ifs at h₁ h₂
    exact h.triages.alone h₁ h₂

theorem Kept.failTriage (hstep : s.failTriage t = some s') : Kept s' ∧ Settles s s' := by
  unfold ExternalExecution.failTriage at hstep
  split at hstep
  · rename_i executionId written ht
    split at hstep
    · cases hstep
      exact ⟨h.eraseTriage, Settles.refl.rows, List.prefix_rfl⟩
    · rename_i jobId job hrow
      split_ifs at hstep with hrunning
      · cases hstep
        obtain ⟨hjob, hexecution⟩ := byExecution_some hrow
        cases written with
        | false =>
          refine h.set_triage ht hrow (fun ht' hne => by simpa [hne] using ht') (fun ht' => ?_)
          simp at ht'
        | true =>
          -- a written result stands in the row, which then is not running
          obtain ⟨_, _, _, h₀, he, hp⟩ := h.triages.written ht
          cases h.jobs.executions h₀ hjob he hexecution
          cases h₀.symm.trans hjob
          rw [hrunning] at hp
          cases hp
      · cases hstep
        exact ⟨h.eraseTriage, Settles.refl.rows, List.prefix_rfl⟩
  · cases hstep

/-- Every action keeps the jobs, the calls and the triages in order. -/
theorem Kept.step {action : Action} (hfree : s.AdoptsUntouched action)
    (hstep : s.step action = some s') : Kept s' ∧ Settles s s' := by
  cases action with
  | begin => exact h.begin hfree hstep
  | plan => exact h.plan hfree hstep
  | invoke => exact h.invoke hstep
  | settle => exact h.settle hstep
  | stop =>
    cases hstep
    exact ⟨h.eraseCall, Settles.refl.rows, List.prefix_rfl⟩
  | ingest =>
    cases hstep
    exact h.ingest
  | claimTriage => exact h.claimTriage hstep
  | completeTriage => exact h.completeTriage hstep
  | failTriage => exact h.failTriage hstep
  | stopTriage =>
    cases hstep
    exact ⟨h.eraseTriage, Settles.refl.rows, List.prefix_rfl⟩

end

end Steps

/-! ## Runs -/

section Runs

theorem kept_new : Kept new := by
  refine ⟨⟨?_, ?_, ?_⟩, ⟨?_, ?_, ?_, List.nodup_nil, ?_⟩, ?_, ?_, ?_⟩ <;> simp [new]

/-- What a run leaves: the invariant, and that a failed start moves no job that is running. -/
structure Sound (s s' : ExternalExecution) : Prop where
  kept : Kept s'
  settles : Settles s s'
  failed_start : ∀ {c outcome committed s''}, s'.settle c outcome committed = some s'' →
    (∀ executionId, outcome ≠ .started executionId) → ∀ {k job}, s'.jobs.get? k = some job →
      job.status ≠ .pending → s''.jobs.get? k = some job

theorem updateById_of_ne {k jobId : String} {job : ExternalJob} {write : ExternalJob → ExternalJob}
    (hjob : s.jobs.get? k = some job) (hne : k ≠ jobId) :
    (s.updateById jobId write).get? k = some job := by
  unfold updateById
  split
  · exact hjob
  · simpa [hne] using hjob

theorem Kept.failed_start (h : Kept s) {c : ℕ} {committed : Bool}
    (hstep : s.settle c outcome committed = some s')
    (hfailed : ∀ executionId, outcome ≠ .started executionId) {k : String} {job : ExternalJob}
    (hjob : s.jobs.get? k = some job) (hstatus : job.status ≠ .pending) :
    s'.jobs.get? k = some job := by
  unfold ExternalExecution.settle at hstep
  split at hstep
  · rename_i jobId hcall
    cases hstep
    have hne : k ≠ jobId := fun hsame =>
      h.not_in_hand hjob hstatus hcall (congrArg some hsame.symm)
    cases outcome with
    | toolError | raised | executionIdMissing => exact updateById_of_ne hjob hne
    | started executionId => exact absurd rfl (hfailed executionId)
  · cases hstep

/-- What settled stays settled over the rest of a run. -/
theorem run_settles {acts : List Action} : ∀ {s s' : ExternalExecution},
    Trace.Along step AdoptsUntouched s acts → Trace.run step s acts = some s' → Kept s →
      Kept s' ∧ Settles s s' := by
  induction acts with
  | nil =>
    intro s s' _ hrun h
    cases hrun
    exact ⟨h, .refl⟩
  | cons _ _ ih =>
    intro s _ halong hrun h
    obtain ⟨u, hu, hrest⟩ := Trace.run_cons.mp hrun
    have ⟨hkept, hsettles⟩ := h.step halong.1 hu
    have ⟨hkept', hsettles'⟩ := ih (halong.2 u hu) hrest hkept
    exact ⟨hkept', hsettles.trans hsettles'⟩

/-- In every run in which no caller adopts a job that another one has in hand or whose start was
tried, the invariant holds in every state, and later states leave what is settled as it is. -/
theorem jobs_sound {acts rest : List Action} (hrun : Trace.run step new acts = some s)
    (hlater : Trace.run step s rest = some s')
    (hadopts : Trace.Along step AdoptsUntouched new (acts ++ rest)) :
    Sound s s' := by
  obtain ⟨hbefore, hafter⟩ := (Trace.along_append hrun).mp hadopts
  have hkept := (run_settles hbefore hrun kept_new).1
  have ⟨hkept', hsettles⟩ := run_settles hafter hlater hkept
  exact ⟨hkept', hsettles, fun hstep hfailed => fun hjob hstatus =>
    hkept'.failed_start hstep hfailed hjob hstatus⟩

/-- One caller plans a job, invokes the start tool and is answered. -/
def sampleStart : List Action :=
  [.begin 1 "m" "digest" true, .plan 1 "job" true, .invoke 1, .settle 1 (.started "exec") true]

/-- The execution fails and its triage is written. -/
def sampleTriage : List Action :=
  [.ingest none "exec" .failed "log" true, .claimTriage 1 "exec", .completeTriage 1 "PRODUCT"]

theorem jobs_sound_sample :
    ∃ s s' : ExternalExecution, Trace.run step new sampleStart = some s ∧
      Trace.run step s sampleTriage = some s' ∧ s'.starts = ["job"] ∧ Sound s s' := by
  have hsample : ((Trace.run step new sampleStart).bind fun s =>
      (Trace.run step s sampleTriage).map (·.starts)) = some ["job"] := by decide +kernel
  obtain ⟨s, hrun, hlast⟩ := Option.bind_eq_some_iff.mp hsample
  obtain ⟨s', hlater, hstarts⟩ := Option.map_eq_some_iff.mp hlast
  have hadopts : Trace.Along step AdoptsUntouched new (sampleStart ++ sampleTriage) := by
    decide +kernel
  exact ⟨s, s', hrun, hlater, hstarts, jobs_sound hrun hlater hadopts⟩

/-- A second caller adopts the pending job while the first one waits for the tool; the first is
answered, and then the second one's start fails. -/
def adoptedStart : List Action :=
  [.begin 1 "m" "digest" true, .plan 1 "job" true, .invoke 1, .begin 2 "m" "digest" true,
    .invoke 2, .settle 1 (.started "exec") true,
    .settle 2 (.toolError "TOOL_TIMEOUT" false) true]

/-- The start tool was invoked twice for the job, which was running and now is cancelled. -/
theorem running_job_cancelled :
    ∃ s s' : ExternalExecution, Trace.run step new (adoptedStart.take 6) = some s ∧
      Trace.run step new adoptedStart = some s' ∧
      (s.jobs.get? "job").map (fun job => (job.status, job.executionId)) =
        some (.running, some "exec") ∧
      (s'.jobs.get? "job").map (fun job => (job.status, job.executionId)) =
        some (.cancelled, some "exec") ∧
      s'.starts = ["job", "job"] := by
  have hsample : ((Trace.run step new (adoptedStart.take 6)).bind fun s =>
      (Trace.run step new adoptedStart).map fun s' =>
        ((s.jobs.get? "job").map (fun job => (job.status, job.executionId)),
          (s'.jobs.get? "job").map (fun job => (job.status, job.executionId)), s'.starts)) =
      some (some (.running, some "exec"), some (.cancelled, some "exec"), ["job", "job"]) := by
    decide +kernel
  obtain ⟨s, hrun, hlast⟩ := Option.bind_eq_some_iff.mp hsample
  obtain ⟨s', hrun', hvalues⟩ := Option.map_eq_some_iff.mp hlast
  simp only [Prod.mk.injEq] at hvalues
  exact ⟨s, s', hrun, hrun', hvalues⟩

end Runs

end ExternalExecution

end LocalAgent.Runtime
