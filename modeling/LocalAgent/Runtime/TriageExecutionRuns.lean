import LocalAgent.Runtime.TriageExecutionJobs

/-!
# LocalAgent.Runtime.TriageExecutionRuns — any workers on the triage tables

The reads of an initial run and of its repair run are counted together, under the lock of the row
of the initial run; operations of other analyses come in between.

* `recordRead_fits`: a row that `read_evidence` inserts leaves the reads of the analysis within the
  quota.
* `ReadTable.Inv.step`: the lock keeps that true up to the commit.
* `triage_execution_safe`: claims, bindings, quotas and replays after any run of the workers.
* `failed_read_repeated`: a repeated operation that had found nothing.
-/

namespace LocalAgent.Runtime

/-! ## One read -/

/-- The limits of one analysis, over the reads of its runs. -/
structure WithinQuota (reads : List EvidenceRead) : Prop where
  count : reads.length ≤ 8
  artifacts : reads.countP EvidenceRead.artifact ≤ 4
  bytes : (reads.map EvidenceRead.byteCount).sum ≤ 1048576

/-- A row that answers the call, and that the reads leave room for. -/
structure Fits (reads : List EvidenceRead) (call : ReadCall) (row : EvidenceRead) : Prop where
  quota : WithinQuota (reads ++ [row])
  operation : row.operationId = call.operationId
  run : row.runId = call.runId
  evidence : row.evidence.evidenceId.get = call.evidenceId

theorem withinQuota_nil : WithinQuota [] := ⟨by decide, by decide, by decide⟩

theorem bare_evidenceId (evidenceId : Option String) :
    (Evidence.bare evidenceId).evidenceId.get = evidenceId := by
  cases evidenceId <;> rfl

theorem findEvidence_spec {evidenceId : Option String} {sources : List Evidence} {source : Evidence}
    (h : findEvidence evidenceId sources = .ok (some source)) :
    source.evidenceId.get = evidenceId := by
  induction sources with
  | nil => cases h
  | cons _ _ ih =>
    rw [findEvidence] at h
    split_ifs at h with habsent hid
    · cases Except.ok.inj h
      exact hid
    · exact ih h

variable {reads : List EvidenceRead} {row : EvidenceRead} {run : TriageRun} {call : ReadCall}

/-- One more read within the quota. -/
theorem WithinQuota.snoc {artifact : Bool} (h : WithinQuota reads) (hcount : reads.length < 8)
    (hbudget : withinArtifactBudget reads row.byteCount artifact = true)
    (hartifact : row.artifact = artifact) : WithinQuota (reads ++ [row]) := by
  simp only [withinArtifactBudget, Bool.and_eq_true, decide_eq_true_eq, Bool.not_eq_true',
    Bool.and_eq_false_iff, decide_eq_false_iff_not] at hbudget
  obtain ⟨hbytes, hmax⟩ := hbudget
  refine ⟨?_, ?_, ?_⟩
  · rw [List.length_append, List.length_singleton]
    omega
  · rw [List.countP_append, List.countP_singleton, hartifact]
    have hold := h.artifacts
    rcases hmax with hfalse | hfew
    · rw [hfalse]
      simpa using hold
    · split_ifs <;> omega
  · rw [List.map_append, List.sum_append]
    simpa using hbytes

/-- A recorded source fits its call. -/
theorem recordSource_fits {scope : String} {source : Option Evidence}
    (h : recordSource scope run call reads source = .ok row) (hquota : WithinQuota reads)
    (hcount : reads.length < 8)
    (hsource : ∀ e, source = some e → e.evidenceId.get = call.evidenceId) :
    Fits reads call row := by
  unfold recordSource at h
  split at h
  · split_ifs at h with hdigest hbudget
    cases h
    exact ⟨hquota.snoc hcount hbudget rfl, rfl, rfl, hsource _ rfl⟩
  · split_ifs at h with hbudget
    cases h
    exact ⟨hquota.snoc hcount hbudget rfl, rfl, rfl, bare_evidenceId call.evidenceId⟩

theorem recordRead_fits {service : TriageService} {now : ℤ}
    (h : recordRead service run call reads now = .ok row) (hquota : WithinQuota reads) :
    Fits reads call row := by
  unfold recordRead at h
  split_ifs at h with hbudget
  have hcount : reads.length < 8 := by
    rw [not_or] at hbudget
    omega
  split at h
  · cases h
  · split at h
    · cases h
    · rename_i source hfind
      refine recordSource_fits h hquota hcount ?_
      rintro e rfl
      exact findEvidence_spec hfind

namespace ReadTable

/-! ## Runs are only added -/

variable {s : ReadTable} {now : ℤ}

theorem insertRun_cases (runs : List TriageRun) (values : TriageRun) :
    insertRun runs values = runs ∨
      insertRun runs values = runs ++ [values] ∧ ∀ run ∈ runs, run.runId ≠ values.runId := by
  unfold insertRun
  split_ifs with h
  · exact .inl rfl
  · refine .inr ⟨rfl, fun run hrun hid => h ?_⟩
    rw [List.any_eq_true]
    exact ⟨run, hrun, by simp [hid]⟩

variable {s' : ReadTable}

theorem run?_insertRun {values run : TriageRun} {runId : String}
    (hruns : s'.runs = insertRun s.runs values) (h : s.run? runId = some run) :
    s'.run? runId = some run := by
  unfold run? at h ⊢
  rw [hruns]
  rcases insertRun_cases s.runs values with heq | ⟨heq, -⟩
  · rw [heq, h]
  · rw [heq, List.find?_append, h]
    rfl

theorem run?_insertRun_cases {values run : TriageRun} {runId : String}
    (hruns : s'.runs = insertRun s.runs values) (h : s'.run? runId = some run) :
    s.run? runId = some run ∨ run = values := by
  unfold run? at h ⊢
  rw [hruns] at h
  rcases insertRun_cases s.runs values with heq | ⟨heq, -⟩
  · rw [heq] at h
    exact .inl h
  · rw [heq, List.find?_append, Option.or_eq_some_iff] at h
    rcases h with h | ⟨-, h⟩
    · exact .inl h
    · exact .inr (List.mem_singleton.mp (List.mem_of_find?_eq_some h))

theorem read?_eq_none {operationId : String} (h : s.read? operationId = none) :
    ∀ read ∈ s.reads, read.operationId ≠ operationId := by
  intro read hread hid
  have := List.find?_eq_none.mp h read hread
  exact this (decide_eq_true hid)

theorem mem_of_read? {operationId : String} {read : EvidenceRead}
    (h : s.read? operationId = some read) : read ∈ s.reads ∧ read.operationId = operationId := by
  have hid := List.find?_some h
  exact ⟨List.mem_of_find?_eq_some h, of_decide_eq_true hid⟩

/-! ## The invariant -/

/-- An answer to an operation that was recorded before repeats what was recorded, unless the call
is of another scope, or of another run that was overtaken. -/
def Replays (s : ReadTable) (a : ReadAnswer) : Prop :=
  ∀ read ∈ a.table, read.operationId = a.call.operationId →
    a.result = replayRead read a.call ∨
    (a.result = .error "EVIDENCE_SCOPE_DENIED" ∧
      (read.runId = a.call.runId → ∃ run, s.run? a.call.runId = some run ∧ run.scope ≠ a.scope)) ∨
    (a.result = .error "IntegrityError" ∧ read.runId ≠ a.call.runId)

structure Inv (s : ReadTable) : Prop where
  stored : ∀ read ∈ s.reads, (s.run? read.runId).isSome
  anchored : ∀ runId run, s.run? runId = some run → (s.run? run.anchorRunId).isSome
  held : ∀ worker p, s.pending.get? worker = some p → s.run? p.call.runId = some p.run
  exclusive : ∀ v p w q, s.pending.get? v = some p → s.pending.get? w = some q →
    p.run.anchorRunId = q.run.anchorRunId → v = w
  decided : ∀ worker p row, s.pending.get? worker = some p → p.row = some row →
    Fits (s.group p.run.anchorRunId) p.call row ∧
      ∀ read ∈ s.group p.run.anchorRunId, read.operationId ≠ row.operationId
  quota : ∀ anchor, WithinQuota (s.group anchor)
  ids : (s.reads.map EvidenceRead.operationId).Nodup
  bound : ∀ values ∈ s.reserved, s.run? values.runId = some values
  answered : ∀ a ∈ s.answers, s.Replays a

theorem inv_new : Inv ⟨[], [], [], Dict.empty, []⟩ where
  stored _ h := nomatch h
  anchored _ _ h := nomatch h
  held _ _ h := nomatch h
  exclusive _ _ _ _ h := nomatch h
  decided _ _ _ h := nomatch h
  quota _ := withinQuota_nil
  ids := List.nodup_nil
  bound _ h := nomatch h
  answered _ h := nomatch h

/-! ### Reservations -/

theorem Inv.group_insertRun (h : s.Inv) {values : TriageRun}
    (hruns : s'.runs = insertRun s.runs values) (hreads : s'.reads = s.reads) (anchor : String) :
    s'.group anchor = s.group anchor := by
  unfold group
  rw [hreads]
  refine List.filter_congr fun read hread => ?_
  obtain ⟨run, hrun⟩ := Option.isSome_iff_exists.mp (h.stored read hread)
  rw [inGroup, inGroup, hrun, run?_insertRun hruns hrun]

theorem Replays.insertRun {values : TriageRun} {a : ReadAnswer}
    (h : s.Replays a) (hruns : s'.runs = insertRun s.runs values) : s'.Replays a := by
  intro read hread hid
  rcases h read hread hid with hr | ⟨hr, hscope⟩ | hr
  · exact .inl hr
  · refine .inr (.inl ⟨hr, fun hrun => ?_⟩)
    obtain ⟨run, hget, hne⟩ := hscope hrun
    exact ⟨run, run?_insertRun hruns hget, hne⟩
  · exact .inr (.inr hr)

variable {service : TriageService} {worker : ℕ} {request : ReserveRequest} {absentAt : Option ℤ}

theorem reserveRun_spec {s' : ReadTable} (h : s.reserveRun service request absentAt = .ok s') :
    ∃ payload, s' = { s with
        runs := insertRun s.runs (values service request payload)
        reserved := s.reserved ++ [values service request payload] } ∧
      s'.run? request.runId = some (values service request payload) := by
  unfold reserveRun at h
  cases hcheck : service.checkManifest request.manifest with
  | error => simp [hcheck, bind, Except.bind] at h
  | ok =>
    cases hpayload : service.authorize request with
    | error => simp [hcheck, hpayload, bind, Except.bind] at h
    | ok payload =>
      simp only [hcheck, hpayload, bind, Except.bind] at h
      cases hvisible : payload.visibleEvidence.forM
          (checkVisible service.scope request.executionPolicy) with
      | error =>
        simp only [hvisible] at h
        split_ifs at h
      | ok =>
        simp only [hvisible] at h
        split_ifs at h with hdeadline hrow
        cases h
        exact ⟨payload, rfl, hrow⟩

/-- A reservation adds an anchor or joins one that is stored. -/
theorem Inv.reserveRun (h : s.Inv)
    (hanchor : ∀ anchor ∈ request.anchor, anchor ≠ request.runId → (s.run? anchor).isSome)
    (hres : s.reserveRun service request absentAt = .ok s') : s'.Inv := by
  obtain ⟨payload, heq, hrow⟩ := reserveRun_spec hres
  have hruns : s'.runs = insertRun s.runs (values service request payload) := by rw [heq]
  have hreads : s'.reads = s.reads := by rw [heq]
  have hpending : s'.pending = s.pending := by rw [heq]
  have hkeep : ∀ runId, (s.run? runId).isSome → (s'.run? runId).isSome := by
    intro runId hsome
    obtain ⟨run, hrun⟩ := Option.isSome_iff_exists.mp hsome
    rw [run?_insertRun hruns hrun]
    rfl
  refine ⟨?_, ?_, ?_, ?_, ?_, ?_, ?_, ?_, ?_⟩
  · rw [hreads]
    exact fun read hread => hkeep _ (h.stored read hread)
  · intro runId run hrun
    rcases run?_insertRun_cases hruns hrun with hold | rfl
    · exact hkeep _ (h.anchored runId run hold)
    · -- the new row: its anchor is itself, or the caller's initial run
      by_cases hself : (values service request payload).anchorRunId = request.runId
      · rw [hself, hrow]
        rfl
      · cases hreq : request.anchor with
        | none => exact absurd (by simp [values, hreq]) hself
        | some anchor =>
          have hid : (values service request payload).anchorRunId = anchor := by
            simp [values, hreq]
          rw [hid] at hself ⊢
          exact hkeep _ (hanchor anchor hreq hself)
  · rw [hpending]
    exact fun worker p hp => run?_insertRun hruns (h.held worker p hp)
  · rw [hpending]
    exact h.exclusive
  · rw [hpending]
    intro worker p row hp hprow
    rw [h.group_insertRun hruns hreads]
    exact h.decided worker p row hp hprow
  · intro anchor
    rw [h.group_insertRun hruns hreads]
    exact h.quota anchor
  · rw [hreads]
    exact h.ids
  · intro v hv
    rw [heq] at hv
    rcases mem_snoc hv with hv | hv
    · exact run?_insertRun hruns (h.bound v hv)
    · rwa [hv]
  · intro a ha
    rw [heq] at ha
    exact (h.answered a ha).insertRun hruns

/-! ### Transactions that read -/

theorem Inv.ended (h : s.Inv) (hruns : s'.runs = s.runs)
    (hreads : s'.reads = s.reads) (hreserved : s'.reserved = s.reserved)
    (hpending : ∀ worker p, s'.pending.get? worker = some p → s.pending.get? worker = some p)
    (hanswers : ∀ a ∈ s'.answers, a ∈ s.answers ∨ s.Replays a) : s'.Inv := by
  have hrun : ∀ runId, s'.run? runId = s.run? runId := fun runId => by rw [run?, run?, hruns]
  have hgroup : ∀ anchor, s'.group anchor = s.group anchor := by
    intro _
    rw [group, group, hreads]
    exact List.filter_congr fun read _ => by rw [inGroup, inGroup, hrun]
  refine ⟨?_, ?_, ?_, ?_, ?_, ?_, ?_, ?_, ?_⟩
  · simp only [hreads, hrun]
    exact h.stored
  · simp only [hrun]
    exact h.anchored
  · simp only [hrun]
    exact fun worker p hp => h.held worker p (hpending worker p hp)
  · exact fun v p w q hp hq => h.exclusive v p w q (hpending v p hp) (hpending w q hq)
  · simp only [hgroup]
    exact fun worker p row hp => h.decided worker p row (hpending worker p hp)
  · simp only [hgroup]
    exact h.quota
  · rw [hreads]
    exact h.ids
  · simp only [hreserved, hrun]
    exact h.bound
  · intro a ha
    have hold : s.Replays a := (hanswers a ha).elim (h.answered a) id
    simpa only [Replays, hrun] using hold

variable {p : PendingRead}

theorem get?_erase_some {worker v : ℕ}
    (h : (s.pending.erase worker).get? v = some p) : s.pending.get? v = some p := by
  rw [Dict.get?_erase] at h
  split_ifs at h
  exact h

theorem Inv.answer (h : s.Inv)
    {result : Except String Evidence} (ha : s.Replays ⟨service.scope, call, s.reads, result⟩) :
    (s.answer service call result).Inv :=
  h.ended rfl rfl rfl (fun _ _ hp => hp) fun a hmem =>
    (List.mem_append.mp hmem).imp_right fun hnew => by rwa [List.mem_singleton.mp hnew]

theorem Inv.erase (h : s.Inv) (worker : ℕ) : { s with pending := s.pending.erase worker }.Inv :=
  h.ended rfl rfl rfl (fun _ _ hp => get?_erase_some hp) fun _ ha => .inl ha

/-- A read begins while its anchor is free. -/
theorem Inv.beginRead (h : s.Inv) (hrun : s.run? call.runId = some run)
    (hfree : s.lockedBy run.anchorRunId = false) :
    { s with pending := s.pending.set worker ⟨service, call, run, none⟩ }.Inv := by
  -- the anchor row exists, so that nobody else holds its lock
  have hnobody : ∀ v p, s.pending.get? v = some p → p.run.anchorRunId ≠ run.anchorRunId := by
    intro v p hp he
    have hmem := Dict.get?_eq_some_iff.mp hp
    rw [lockedBy, h.anchored _ run hrun, Bool.true_and, List.any_eq_false] at hfree
    exact hfree (v, p) hmem (decide_eq_true he)
  refine ⟨h.stored, h.anchored, ?_, ?_, ?_, h.quota, h.ids, h.bound, h.answered⟩
  · intro v p hp
    rcases Dict.get?_set_cases hp with ⟨-, rfl⟩ | ⟨-, hp⟩
    · exact hrun
    · exact h.held v p hp
  · intro v p w q hp hq hanchor
    simp only [Dict.get?_set] at hp hq
    split_ifs at hp hq with hv hw hw
    · exact hv.trans hw.symm
    · cases hp
      exact absurd hanchor.symm (hnobody w q hq)
    · cases hq
      exact absurd hanchor (hnobody v p hp)
    · exact h.exclusive v p w q hp hq hanchor
  · intro v p row hp hrow
    rcases Dict.get?_set_cases hp with ⟨-, rfl⟩ | ⟨-, hp⟩
    · cases hrow
    · exact h.decided v p row hp hrow

/-- The checks under the anchor's lock. -/
theorem Inv.belowLock (h : s.Inv)
    (hp : s.pending.get? worker = some p) : (s.belowLock now worker p).Inv := by
  unfold ReadTable.belowLock
  cases hread : s.read? p.call.operationId with
  | some existing =>
    obtain ⟨hmem, hid⟩ := mem_of_read? hread
    refine (h.erase worker).answer fun read hr hop => .inl ?_
    -- the operation id is a key, so the recorded read is the one that was found
    have hsame : read = existing :=
      List.inj_on_of_nodup_map h.ids hr hmem (hop.trans hid.symm)
    rw [hsame]
  | none =>
    have hnew := read?_eq_none hread
    cases hrec : recordRead p.service p.run p.call (s.group p.run.anchorRunId) now with
    | error =>
      exact (h.erase worker).answer fun read hr hop => absurd hop (hnew read hr)
    | ok =>
      have hfits := recordRead_fits hrec (h.quota _)
      refine ⟨h.stored, h.anchored, ?_, ?_, ?_, h.quota, h.ids, h.bound, h.answered⟩
      · intro v q hq
        rcases Dict.get?_set_cases hq with ⟨-, rfl⟩ | ⟨-, hq⟩
        · exact h.held worker p hp
        · exact h.held v q hq
      · intro v q w r hq hr hanchor
        simp only [Dict.get?_set] at hq hr
        split_ifs at hq hr with hv hw hw
        · exact hv.trans hw.symm
        · cases hq
          exact hv.trans (h.exclusive worker p w r hp hr hanchor)
        · cases hr
          exact (h.exclusive v q worker p hq hp hanchor).trans hw.symm
        · exact h.exclusive v q w r hq hr hanchor
      · intro v q row' hq hrow'
        rcases Dict.get?_set_cases hq with ⟨-, rfl⟩ | ⟨-, hq⟩
        · cases hrow'
          refine ⟨hfits, fun read hr hop => ?_⟩
          exact hnew read (List.mem_of_mem_filter hr) (hop.trans hfits.operation)
        · exact h.decided v q row' hq hrow'

/-! ### The commit of a read -/

theorem group_snoc (row : EvidenceRead) (anchor : String) :
    { s with reads := s.reads ++ [row] }.group anchor =
      if s.inGroup anchor row then s.group anchor ++ [row] else s.group anchor := by
  have hin : { s with reads := s.reads ++ [row] }.inGroup anchor = s.inGroup anchor := rfl
  rw [group, hin, List.filter_append, List.filter_singleton, group]
  split_ifs with h
  all_goals simp [h]

theorem inGroup_iff {anchor : String} {read : EvidenceRead} : s.inGroup anchor read = true ↔
      ∃ run, s.run? read.runId = some run ∧ run.anchorRunId = anchor := by
  simp [inGroup, Option.map_eq_some_iff]

/-- The row of a transaction that holds the lock enters the table. -/
theorem Inv.insertRead (h : s.Inv) {p : PendingRead}
    (hp : s.pending.get? worker = some p) (hrow : p.row = some row)
    (hnew : s.read? row.operationId = none) :
    { s with pending := s.pending.erase worker, reads := s.reads ++ [row] }.Inv := by
  obtain ⟨hfits, -⟩ := h.decided worker p row hp hrow
  have hrun : s.run? row.runId = some p.run := hfits.run ▸ h.held worker p hp
  have hin : ∀ anchor, s.inGroup anchor row = true ↔ p.run.anchorRunId = anchor := by
    intro anchor
    rw [inGroup_iff, hrun]
    simp
  have hgroup : ∀ anchor,
      { s with pending := s.pending.erase worker, reads := s.reads ++ [row] }.group anchor =
        if p.run.anchorRunId = anchor then s.group anchor ++ [row] else s.group anchor := by
    intro anchor
    simp only [← hin]
    exact group_snoc row anchor
  refine ⟨?_, h.anchored, ?_, ?_, ?_, ?_, ?_, h.bound, h.answered⟩
  · intro read hread
    rcases mem_snoc hread with hread | hread
    · exact h.stored read hread
    · rw [hread]
      exact Option.isSome_iff_exists.mpr ⟨p.run, hrun⟩
  · exact fun v q hq => h.held v q (get?_erase_some hq)
  · exact fun v q w r hq hr => h.exclusive v q w r (get?_erase_some hq) (get?_erase_some hr)
  · -- the lock: whoever else has decided is of another analysis
    intro v q row' hq hrow'
    have hother : p.run.anchorRunId ≠ q.run.anchorRunId := by
      intro he
      cases h.exclusive worker p v q hp (get?_erase_some hq) he
      simp only [Dict.get?_erase] at hq
      simp at hq
    rw [hgroup, if_neg hother]
    exact h.decided v q row' (get?_erase_some hq) hrow'
  · intro anchor
    rw [hgroup]
    split_ifs with ha
    · exact ha ▸ hfits.quota
    · exact h.quota anchor
  · rw [List.map_append, List.map_singleton, ← List.concat_eq_append]
    refine List.Nodup.concat (fun hmem => ?_) h.ids
    obtain ⟨read, hread, hid⟩ := List.mem_map.mp hmem
    exact read?_eq_none hnew read hread hid

/-- A read is written. -/
theorem Inv.commit (h : s.Inv) (hp : s.pending.get? worker = some p) (hrow : p.row = some row) :
    (s.commit worker p row).Inv := by
  obtain ⟨hfits, hfresh⟩ := h.decided worker p row hp hrow
  unfold ReadTable.commit
  cases hread : s.read? row.operationId with
  | some =>
    obtain ⟨-, -⟩ := mem_of_read? hread
    refine (h.erase worker).answer fun read hr hop => .inr (.inr ⟨rfl, fun hsame => ?_⟩)
    -- a read of the same run is of the same analysis, whose lock is held since the decision
    refine hfresh read (List.mem_filter.mpr ⟨hr, inGroup_iff.mpr ⟨p.run, ?_, rfl⟩⟩)
      (hop.trans hfits.operation.symm)
    rw [show read.runId = p.call.runId from hsame]
    exact h.held worker p hp
  | none =>
    refine (h.insertRead hp hrow hread).ended rfl rfl rfl (fun _ _ hq => hq) fun a ha => ?_
    refine (List.mem_append.mp ha).imp_right fun hnew => ?_
    rw [List.mem_singleton.mp hnew]
    exact fun read hr hop => absurd (hop.trans hfits.operation.symm) (read?_eq_none hread read hr)

/-- Every part of a transaction keeps the invariant. -/
theorem Inv.step (h : s.Inv) {a : Action} (hstep : s.step now a = some s') : s'.Inv := by
  cases a with
  | reserveRun service request absentAt =>
    simp only [ReadTable.step] at hstep
    split_ifs at hstep with hguard
    cases hstep
    cases hres : s.reserveRun service request absentAt with
    | error => exact h
    | ok => exact h.reserveRun hguard.1 hres
  | beginRead _ _ call =>
    simp only [ReadTable.step] at hstep
    split_ifs at hstep with hbusy
    cases hrun : s.run? call.runId with
    | none =>
      rw [hrun] at hstep
      cases hstep
      refine h.answer fun read hr hop => .inr (.inl ⟨rfl, fun hsame => ?_⟩)
      have hsome := h.stored read hr
      rw [show read.runId = call.runId from hsame, hrun] at hsome
      cases hsome
    | some run =>
      rw [hrun] at hstep
      simp only at hstep
      split_ifs at hstep with hscope hlocked
      · cases hstep
        exact h.answer fun read hr hop => .inr (.inl ⟨rfl, fun _ => ⟨run, hrun, hscope⟩⟩)
      · cases hstep
        exact h.beginRead hrun (by simpa using hlocked)
  | decideRead =>
    simp only [ReadTable.step] at hstep
    split at hstep
    · cases hstep
      rename_i hp
      exact h.belowLock hp
    · cases hstep
  | commitRead =>
    simp only [ReadTable.step] at hstep
    split at hstep
    · cases hstep
      rename_i hp
      exact h.commit hp rfl
    · cases hstep
  | abortRead worker =>
    simp only [ReadTable.step] at hstep
    split_ifs at hstep with hbusy
    cases hstep
    exact h.erase worker

end ReadTable

namespace TriageWorld

/-! ## Runs of the workers -/

/-- What holds of a state that any workers have reached from the admitted `jobs`. -/
structure Safe (jobs : Dict String AnalysisJob) (s : TriageWorld) : Prop where
  fenced : ∀ c d, s.jobs.Passes s.clock c → s.jobs.Passes s.clock d → c.jobId = d.jobId → c = d
  /-- and it is the one that was returned last -/
  current : ∀ c, s.jobs.Passes s.clock c → c ∈ s.jobs.issued ∧
    ∀ other ∈ s.jobs.issued, other.jobId = c.jobId → other ≠ c → other.epoch < c.epoch
  once : ∀ id, s.jobs.closed.countP (fun closing => closing.claim.jobId = id) ≤ 1
  /-- by the claim that passed the fence then, and it is now as it was left -/
  closings : ∀ closing ∈ s.jobs.closed,
    (∃ row, fence closing.before.execution closing.claim closing.finishedAt = .ok row) ∧
    closing.before.job.status = .running ∧
    s.jobs.rows.get? closing.claim.jobId = some closing.after
  left : ∀ id job entry, jobs.get? id = some job → s.jobs.rows.get? id = some entry →
    job.status.isOpen = true → entry.job.status.isOpen = false →
    ∃ closing ∈ s.jobs.closed, closing.claim.jobId = id
  /-- a run has the binding of every reservation that returned -/
  bound : ∀ values ∈ s.table.reserved, s.table.run? values.runId = some values
  /-- the initial run and its repair run share one quota -/
  quota : ∀ anchor, WithinQuota (s.table.group anchor)
  ids : (s.table.reads.map EvidenceRead.operationId).Nodup
  /-- and answered from its record from then on -/
  answered : ∀ a ∈ s.table.answers, s.table.Replays a

structure Inv (jobs : Dict String JobEntry) (s : TriageWorld) : Prop where
  jobs : s.jobs.Inv jobs s.clock
  table : s.table.Inv

theorem Inv.step {jobs : Dict String JobEntry} {s s' : TriageWorld} (h : s.Inv jobs) {a : Action}
    (hstep : s.step a = some s') : s'.Inv jobs := by
  cases a with
  | tick microseconds =>
    cases hstep
    refine ⟨h.jobs.later ?_, h.table⟩
    change s.clock ≤ s.clock + microseconds
    omega
  | job action =>
    cases hstep
    exact ⟨h.jobs.step action, h.table⟩
  | read =>
    obtain ⟨_, htable, rfl⟩ := Option.map_eq_some_iff.mp hstep
    exact ⟨h.jobs, h.table.step htable⟩

theorem inv_new (clock : ℤ) (jobs : Dict String AnalysisJob) (triaged : List String) :
    (new clock jobs triaged).Inv (new clock jobs triaged).jobs.rows := by
  -- an admitted execution has no lease
  have hlease : ∀ id entry row lease, (new clock jobs triaged).jobs.rows.get? id = some entry →
      entry.execution = some row → row.leaseUntil = some lease → False := by
    intro id entry row lease hget hrow hl
    simp only [new, Dict.get?_mapWithKey, Option.map_eq_some_iff] at hget
    obtain ⟨_, -, rfl⟩ := hget
    simp only at hrow
    split_ifs at hrow
    cases hrow
    cases hl
  refine ⟨⟨?_, ?_, ?_, ?_, ?_, Trace.eachAfter_nil, ?_⟩, ReadTable.inv_new⟩
  · exact fun id entry row lease hget hrow hl => (hlease id entry row lease hget hrow hl).elim
  · exact fun claim hc => by cases hc
  · exact fun c hc => by cases hc
  · exact fun id entry row lease hget hrow hl => (hlease id entry row lease hget hrow hl).elim
  · exact fun closing hc => by cases hc
  · intro _ _ _ hget₀ hget hopen hclosed
    cases hget₀.symm.trans hget
    rw [hopen] at hclosed
    cases hclosed

/-- The invariant gives the quota and the fence. -/
theorem Inv.safe {clock : ℤ} {jobs : Dict String AnalysisJob} {triaged : List String}
    {s : TriageWorld} (h : s.Inv (new clock jobs triaged).jobs.rows) : s.Safe jobs where
  fenced c d hc hd hjob := by
    by_contra hne
    obtain ⟨hissued, hlast⟩ := h.jobs.passes hc
    obtain ⟨hissued', hlast'⟩ := h.jobs.passes hd
    have hlt := hlast d hissued' hjob.symm (Ne.symm hne)
    have hlt' := hlast' c hissued hjob hne
    omega
  current c hc := h.jobs.passes hc
  once id := by
    refine Trace.EachAfter.countP_le_one ?_ h.jobs.once
    intro _ closing hcloses hid
    rw [List.countP_eq_zero]
    intro other ho hsame
    exact hcloses.2.2.2 other ho ((of_decide_eq_true hsame).trans (of_decide_eq_true hid).symm)
  closings closing hc := by
    obtain ⟨earlier, later, heq⟩ := List.append_of_mem hc
    obtain ⟨hfence, hrunning, -, -⟩ := h.jobs.once earlier closing later heq
    exact ⟨hfence, hrunning, (h.jobs.kept closing hc).1⟩
  left id job entry hjob hget hopen hclosed := by
    refine h.jobs.left id ⟨job, if id ∈ triaged then some .admitted else none⟩ entry ?_ hget hopen
      hclosed
    simp [new, hjob]
  bound := h.table.bound
  quota := h.table.quota
  ids := h.table.ids
  answered := h.table.answered

/-- Whatever the workers do, in any order of their transactions. -/
theorem triage_execution_safe {clock : ℤ} {jobs : Dict String AnalysisJob} {triaged : List String}
    {acts : List Action} {s : TriageWorld}
    (hrun : Trace.run step (new clock jobs triaged) acts = some s) : s.Safe jobs :=
  (Trace.run_invariant (P := Inv (new clock jobs triaged).jobs.rows)
    (fun _ _ _ hstep h => h.step hstep) hrun (inv_new clock jobs triaged)).safe

/-! ### A run with a takeover, a repair run and a failed read -/

def sampleContent : EvidenceContent := .text "build failed"

def samplePayload : TriagePayload where
  visibleEvidence := [⟨.text "log", .text "AUTHORIZED_ARTIFACT", .text "AVAILABLE", .text "nightly",
    .text sampleContent.sha256, some sampleContent⟩]
  deadlineAt := 120000000
  inputDigest := "input"

def sampleService : TriageService where
  scope := "nightly"
  checkManifest manifest :=
    if manifest.executionEnabled then .ok () else .error "NON_EXECUTABLE_SUBJECT"
  authorize _ := .ok samplePayload
  payload _ := .ok samplePayload

def sampleManifest : SubjectManifest := ⟨"triage", true, "subject"⟩

def sampleRequest (runId : String) (anchor : Option String) (role : TriageRole) : ReserveRequest :=
  ⟨runId, "query", sampleManifest, anchor, role, some "job", none, .nightly, none⟩

def sampleJobs : Dict String AnalysisJob :=
  Dict.empty.set "job" ⟨"nightly", sampleManifest, some 0, .ready⟩

def sampleFinal : FinalRun :=
  ⟨"repair", "{}", ⟨"VALID", some "{}", none⟩, "receipt", none, "SUCCEEDED"⟩

/-- One read from its begin to its commit. -/
def sampleRead (worker : ℕ) (runId operationId evidenceId : String) : List Action :=
  [.read (.beginRead worker sampleService ⟨runId, operationId, some evidenceId⟩),
    .read (.decideRead worker), .read (.commitRead worker)]

def sampleActions : List Action :=
  [Action.job (.claim sampleService "first" "token-1" none []),
    Action.read (.reserveRun sampleService (sampleRequest "initial" none .initial) (some 0))] ++
  sampleRead 1 "initial" "read-1" "log" ++
  [Action.tick 31000000, Action.job (.claim sampleService "second" "token-2" none []),
    Action.job (.finish ⟨"job", "first", "token-1", 1⟩ (.unresolved none)),
    Action.read (.reserveRun sampleService (sampleRequest "repair" (some "initial") .schemaRepair)
      (some 31000000))] ++
  sampleRead 2 "repair" "read-2" "missing" ++
  [Action.job (.finish ⟨"job", "second", "token-2", 2⟩ (.final sampleFinal))]

theorem triage_execution_safe_sampleActions :
    ∃ s, Trace.run step (new 0 sampleJobs ["job"]) sampleActions = some s ∧
      s.jobs.closed.length = 1 ∧ (s.table.group "initial").length = 2 ∧ s.Safe sampleJobs := by
  obtain ⟨s, hs, hsample⟩ := (Option.any_eq_true
    (fun s : TriageWorld => decide (s.jobs.closed.length = 1 ∧ (s.table.group "initial").length = 2))
    (Trace.run step (new 0 sampleJobs ["job"]) sampleActions)).mp (by decide +kernel)
  obtain ⟨hclosed, hgroup⟩ := of_decide_eq_true hsample
  exact ⟨s, hs, hclosed, hgroup, triage_execution_safe hs⟩

/-- A read that failed is not answered with its record when it is repeated. -/
theorem failed_read_repeated :
    ¬∀ (clock : ℤ) (jobs : Dict String AnalysisJob) (triaged : List String) (acts : List Action)
      (s : TriageWorld), Trace.run step (new clock jobs triaged) acts = some s →
      ∀ a ∈ s.table.answers, ∀ read ∈ a.table, read.operationId = a.call.operationId →
        a.result.toOption = some read.evidence := by
  intro hclaim
  obtain ⟨s, hs, hsample⟩ := (Option.any_eq_true
    (fun s : TriageWorld => s.table.answers.any fun a => a.table.any fun read =>
      decide (read.operationId = a.call.operationId ∧ a.result.toOption ≠ some read.evidence))
    (Trace.run step (new 0 sampleJobs ["job"])
      (sampleActions ++ [.read (.beginRead 1 sampleService ⟨"repair", "read-2", some "missing"⟩),
        .read (.decideRead 1)]))).mp (by decide +kernel)
  obtain ⟨a, ha, hread⟩ := List.any_eq_true.mp hsample
  obtain ⟨read, hr, hfail⟩ := List.any_eq_true.mp hread
  obtain ⟨hid, hne⟩ := of_decide_eq_true hfail
  exact hne (hclaim _ _ _ _ s hs a ha read hr hid)

end TriageWorld

end LocalAgent.Runtime
