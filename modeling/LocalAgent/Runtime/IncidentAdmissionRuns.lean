import LocalAgent.Runtime.IncidentAdmission

/-!
# LocalAgent.Runtime.IncidentAdmissionRuns — the budget of analyses over whole runs

* `Analysis.Inv`: the rows of incidents, revisions, jobs and budget agree.
* `admitIncident_spec`: a turn changes nothing, or freezes one revision and adds its job.
* `admission_budget`: what holds of every state, step and call of a run.
-/

namespace LocalAgent.Runtime

namespace Analysis

variable {s s' : Analysis} {incident : Incident} {served : Served}

/-! ## Sizes -/

theorem length_digits (w n : ℕ) : (digits w n).length = w := by
  induction w generalizing n with
  | zero => rfl
  | succ _ ih => rw [digits, List.length_append, ih]; rfl

theorem length_isoTime (time : ℤ) : (isoTime time).length ≤ 32 := by
  have hfraction : ∀ n, (DateTime.fractionText n).length ≤ 7 := by
    intro n
    unfold DateTime.fractionText
    split_ifs
    · exact Nat.zero_le _
    · rw [List.length_cons, length_digits]
  have hoffset : (DateTime.offsetText (some 0)).length = 6 := by decide
  have := hfraction ((time % dayMicros).toNat % 1000000)
  simp only [isoTime, String.length_ofList, List.length_append, List.length_cons, length_digits,
    hoffset]
  omega

/-- A draft that leaves room for the items of a job's input, and has its policy. -/
def Fits (draft : Json) : Prop :=
  draft.size ≤ 128 * 1024 - 1024 ∧ ∃ policy, draft.get? "evidence_policy" = some (.obj policy)

theorem size_str (text : String) : (Json.str text).size ≤ 6 * text.length + 2 := by
  unfold Json.size Json.canonical
  exact Json.size_quote text

variable {n : ℕ}

theorem size_revision (h : n ≤ 2147483647) : (Json.int n).size ≤ 40 := by
  have hlength : (toString (n : ℤ)).length ≤ 10 := by
    change (Nat.repr n).length ≤ 10
    exact Nat.repr_length n 10 (by omega) (by omega)
  have hbytes : ∀ cs : List Char, String.utf8Len cs ≤ 4 * cs.length := by
    intro cs
    induction cs with
    | nil => exact Nat.zero_le _
    | cons c =>
      have := Char.utf8Size_le_four c
      rw [String.utf8Len, List.length_cons]
      omega
  have := hbytes (toString (n : ℤ)).toList
  rw [← String.utf8ByteSize_ofList, String.ofList_toList, String.length_toList] at this
  unfold Json.size Json.canonical
  omega

variable {id : String} {now : ℤ} {touches : List IncidentTouch} {job : IncidentJob}

/-- The payload of a job fits its column. -/
theorem size_payload {r : EvidenceRevision} {payload : Json}
    (hfits : Fits r.manifest) (hid : id.length = 36) (hn : n ≤ 2147483647)
    (hdigest : r.manifestDigest.length = 64) (h : payloadOf id n r now = some payload) :
    payload.size ≤ 128 * 1024 := by
  unfold payloadOf at h
  obtain ⟨_, h₁, h⟩ := Option.bind_eq_some_iff.mp h
  obtain ⟨_, h₂, h⟩ := Option.bind_eq_some_iff.mp h
  obtain ⟨_, h₃, h⟩ := Option.bind_eq_some_iff.mp h
  have hone := Json.size_setItem h₁
  have htwo := Json.size_setItem h₃
  have hthree := Json.size_setItem_of_get? h₂ h
  have hkeys : (Json.quote "incident_ref").utf8ByteSize ≤ 14 ∧
      (Json.quote "incident_id").utf8ByteSize ≤ 13 ∧
      (Json.quote "evidence_revision").utf8ByteSize ≤ 19 ∧
      (Json.quote "manifest_digest").utf8ByteSize ≤ 17 ∧
      (Json.quote "deadline_at").utf8ByteSize ≤ 13 := by decide +kernel
  have hideal := size_str id
  have hdig := size_str r.manifestDigest
  have hdead := size_str (isoTime (now + 180 * second))
  have hlen := length_isoTime (now + 180 * second)
  have hrev := size_revision hn
  have href := Json.size_obj [("incident_id", .str id), ("evidence_revision", .int n),
    ("manifest_digest", .str r.manifestDigest)]
  simp only [Json.itemsSize, Json.itemSize, List.map_cons, List.map_nil, List.sum_cons,
    List.sum_nil] at href
  simp only [Json.itemSize] at hone htwo
  have := hfits.1
  omega

/-! ## The invariant -/

structure Inv (s : Analysis) : Prop where
  ids : ∀ id i, s.incidents.get? id = some i → i.incidentId = id ∧ id.length = 36
  numbers : ∀ id i, s.incidents.get? id = some i → i.evidenceRevision ≤ 2147483647
  drafts : ∀ id i, s.incidents.get? id = some i → Fits i.draft
  manifests : ∀ k r, s.revisions.get? k = some r → Fits r.manifest ∧ r.manifestDigest.length = 64
  revised : ∀ k, (∃ r, s.revisions.get? k = some r) ↔
    ∃ i, s.incidents.get? k.1 = some i ∧ 1 ≤ k.2 ∧ k.2 ≤ i.evidenceRevision
  jobbed : ∀ k, (∃ r, s.revisions.get? k = some r) ↔ ∃ job, s.jobs.get? k = some job
  keyed : ∀ k job, s.jobs.get? k = some job → job.incidentId = k.1 ∧ job.revision = k.2
  counted : s.jobs.countBy (fun _ job => decide (job.admittedAt ≠ none)) = s.admittedTotal
  capped : s.admittedTotal ≤ 60
  full : ∀ k job, s.jobs.get? k = some job → job.admittedAt = none → 60 ≤ s.admittedTotal
  past : ∀ k job t, s.jobs.get? k = some job → job.admittedAt = some t → t ≤ s.now
  twice : ∀ id, s.jobs.countBy (fun _ job =>
    decide (job.incidentId = id ∧ job.admittedAt ≠ none)) ≤ 2
  apart : ∀ id n n' job job' t t', s.jobs.get? (id, n) = some job →
    s.jobs.get? (id, n') = some job' → n < n' → job.admittedAt = some t →
    job'.admittedAt = some t' → t + 1800 * second ≤ t' ∧
      ∀ r r', s.revisions.get? (id, n) = some r → s.revisions.get? (id, n') = some r' →
        r.materialDigest ≠ r'.materialDigest

theorem inv_initial (now : ℤ) : (initial now).Inv := by
  have hnone : ∀ {κ ν : Type} [DecidableEq κ] {k : κ} {v : ν},
      (Dict.empty : Dict κ ν).get? k ≠ some v := fun h => nomatch h
  refine ⟨?_, ?_, ?_, ?_, ?_, ?_, ?_, rfl, Nat.zero_le _, ?_, ?_, ?_, ?_⟩
  · exact fun id i h => absurd h hnone
  · exact fun id i h => absurd h hnone
  · exact fun id i h => absurd h hnone
  · exact fun k r h => absurd h hnone
  · exact fun k => ⟨fun ⟨r, h⟩ => absurd h hnone, fun ⟨i, h, _⟩ => absurd h hnone⟩
  · exact fun k => ⟨fun ⟨r, h⟩ => absurd h hnone, fun ⟨job, h⟩ => absurd h hnone⟩
  · exact fun k job h => absurd h hnone
  · exact fun k job h => absurd h hnone
  · exact fun k job t h => absurd h hnone
  · exact fun id => Nat.zero_le _
  · exact fun id n n' job job' t t' h => absurd h hnone

/-! ## Ingestion -/

/-- The incidents are written: their numbers stay, their drafts fit. -/
theorem Inv.incidents (h : s.Inv) {incidents : Dict String Incident}
    (hids : ∀ id i, incidents.get? id = some i → i.incidentId = id ∧ id.length = 36 ∧ Fits i.draft)
    (hnumbers : ∀ id i, incidents.get? id = some i → i.evidenceRevision = 0 ∧
      s.incidents.get? id = none ∨ ∃ i₀, s.incidents.get? id = some i₀ ∧
        i.evidenceRevision = i₀.evidenceRevision)
    (hkept : ∀ id i, s.incidents.get? id = some i → ∃ i', incidents.get? id = some i') :
    { s with incidents := incidents }.Inv := by
  refine ⟨fun id i hi => ⟨(hids id i hi).1, (hids id i hi).2.1⟩, ?_,
    fun id i hi => (hids id i hi).2.2,
    h.manifests, ?_, h.jobbed, h.keyed, h.counted, h.capped, h.full, h.past, h.twice, h.apart⟩
  · intro id i hi
    rcases hnumbers id i hi with ⟨hzero, -⟩ | ⟨i₀, hi₀, heq⟩
    · omega
    · rw [heq]
      exact h.numbers id i₀ hi₀
  · intro k
    rw [h.revised k]
    constructor
    · rintro ⟨i₀, hi₀, h1, hle⟩
      obtain ⟨i, hi⟩ := hkept k.1 i₀ hi₀
      rcases hnumbers k.1 i hi with ⟨-, hnone⟩ | ⟨_, hi₁, heq⟩
      · rw [hi₀] at hnone
        cases hnone
      · cases hi₀.symm.trans hi₁
        exact ⟨i, hi, h1, heq ▸ hle⟩
    · rintro ⟨i, hi, h1, hle⟩
      rcases hnumbers k.1 i hi with ⟨hzero, -⟩ | ⟨i₀, hi₀, heq⟩
      · omega
      · exact ⟨i₀, hi₀, h1, heq ▸ hle⟩

theorem fits_draft {parts : DraftParts} (h : ¬128 * 1024 - 1024 < parts.draft.size) :
    Fits parts.draft :=
  ⟨Nat.le_of_not_lt h, _, rfl⟩

/-- A touch changes the incident alone. -/
theorem Inv.ingestTouch (h : s.Inv) {touch : IncidentTouch} (hid : touch.incidentId.length = 36)
    (hok : s.ingestTouch touch = .ok s') : s'.Inv := by
  unfold Analysis.ingestTouch Incident.refreshDraft at hok
  split at hok
  · cases hok
  · rename_i incident hrefresh
    split_ifs at hrefresh with hsize
    cases hrefresh
    cases hok
    rw [not_or] at hsize
    have hwas : (∃ i, s.incidents.get? touch.incidentId = some i ∧
        (s.touched touch).incidentId = i.incidentId ∧
        (s.touched touch).evidenceRevision = i.evidenceRevision) ∨
        s.incidents.get? touch.incidentId = none ∧
          (s.touched touch).incidentId = touch.incidentId ∧
          (s.touched touch).evidenceRevision = 0 := by
      unfold touched
      cases hget : s.incidents.get? touch.incidentId with
      | none => exact .inr ⟨rfl, rfl, rfl⟩
      | some i => exact .inl ⟨i, rfl, rfl, rfl⟩
    refine h.incidents ?_ ?_ ?_
    · intro id i hi
      rcases Dict.get?_set_cases hi with ⟨hkey, rfl⟩ | ⟨-, hi⟩
      · refine ⟨?_, hkey ▸ hid, fits_draft hsize.2⟩
        rcases hwas with ⟨i₀, hi₀, heq, -⟩ | ⟨-, heq, -⟩
        · exact (heq.trans (h.ids _ i₀ hi₀).1).trans hkey.symm
        · exact heq.trans hkey.symm
      · exact ⟨(h.ids id i hi).1, (h.ids id i hi).2, h.drafts id i hi⟩
    · intro id i hi
      rcases Dict.get?_set_cases hi with ⟨hkey, rfl⟩ | ⟨-, hi⟩
      · subst hkey
        rcases hwas with ⟨i₀, hi₀, -, heq⟩ | ⟨hnone, -, heq⟩
        · exact .inr ⟨i₀, hi₀, heq⟩
        · exact .inl ⟨heq, hnone⟩
      · exact .inr ⟨i, hi, rfl⟩
    · intro _ i hi
      rw [Dict.get?_set]
      split_ifs
      · exact ⟨_, rfl⟩
      · exact ⟨i, hi⟩

theorem Inv.ingest :
    ∀ {s : Analysis}, s.Inv → (∀ touch ∈ touches, touch.incidentId.length = 36) →
      s.ingest touches = .ok s' → s'.Inv := by
  induction touches with
  | nil =>
    intro s h _ hok
    cases hok
    exact h
  | cons touch _ ih =>
    intro s h hids hok
    rw [Analysis.ingest] at hok
    split at hok
    · cases hok
    · rename_i t ht
      exact ih (h.ingestTouch (hids touch List.mem_cons_self) ht)
        (fun x hx => hids x (List.mem_cons_of_mem _ hx)) hok

theorem Inv.refresh (h : s.Inv) (ids : List String) : (s.refresh ids).Inv := by
  refine h.incidents ?_ ?_ ?_
  · intro id i hi
    rw [Dict.get?_mapValues] at hi
    obtain ⟨i₀, hi₀, rfl⟩ := Option.map_eq_some_iff.mp hi
    have hdraft := h.drafts id i₀ hi₀
    obtain ⟨hid, hlen⟩ := h.ids id i₀ hi₀
    split_ifs <;> exact ⟨hid, hlen, hdraft⟩
  · intro id i hi
    rw [Dict.get?_mapValues] at hi
    obtain ⟨i₀, hi₀, rfl⟩ := Option.map_eq_some_iff.mp hi
    refine .inr ⟨i₀, hi₀, ?_⟩
    split_ifs <;> rfl
  · intro _ i hi
    rw [Dict.get?_mapValues, hi]
    exact ⟨_, rfl⟩

/-! ## One turn of a call -/

structure Adds (s : Analysis) (incident : Incident) (s' : Analysis) (served : Served) : Prop where
  open_ : waits (s.admittedJobs incident.incidentId) s.now = false
  number : incident.evidenceRevision < 2147483647
  changed : ∀ latest, s.latest incident = some latest →
    latest.materialDigest ≠ incident.materialDigest
  added : ∃ kind payload, s' = (s.freeze incident).addJob (s.advanced incident) kind payload
  outcome : served = if s.admittedTotal < 60 then .admitted else .deferred

theorem hexdigest_length (text : String) : (Sha256.hexdigest text).length = 64 := by
  have h := Sha256.hexdigest_isHexDigest text
  simp only [Sha256.isHexDigest, Bool.and_eq_true, beq_iff_eq] at h
  exact h.1

theorem frozen_digest (s : Analysis) (incident : Incident) :
    (s.frozen incident).manifestDigest.length = 64 :=
  hexdigest_length (Json.canonical incident.draft)

theorem Inv.latest (h : s.Inv) (hi : s.incidents.get? incident.incidentId = some incident) :
    (s.latest incident = none ↔ incident.evidenceRevision = 0) := by
  unfold Analysis.latest
  split_ifs with hzero
  · exact ⟨fun _ => hzero, fun _ => rfl⟩
  · constructor
    · intro hnone
      obtain ⟨r, hr⟩ := (h.revised (incident.incidentId, incident.evidenceRevision)).mpr
        ⟨incident, hi, by change 1 ≤ incident.evidenceRevision; omega, le_refl _⟩
      rw [hr] at hnone
      cases hnone
    · exact fun he => absurd he hzero

theorem Inv.no_revision_ahead (h : s.Inv)
    (hi : s.incidents.get? incident.incidentId = some incident) :
    s.revisions.get? (incident.incidentId, incident.evidenceRevision + 1) = none := by
  cases hr : s.revisions.get? (incident.incidentId, incident.evidenceRevision + 1) with
  | none => rfl
  | some r =>
    obtain ⟨i, hi', -, hle⟩ := (h.revised _).mp ⟨r, hr⟩
    cases hi.symm.trans hi'
    exact absurd hle (by change ¬(incident.evidenceRevision + 1 ≤ _); omega)

theorem Inv.no_job_ahead (h : s.Inv) (hi : s.incidents.get? incident.incidentId = some incident) :
    s.jobs.get? (incident.incidentId, incident.evidenceRevision + 1) = none := by
  cases hj : s.jobs.get? (incident.incidentId, incident.evidenceRevision + 1) with
  | none => rfl
  | some job =>
    obtain ⟨r, hr⟩ := (h.jobbed _).mpr ⟨job, hj⟩
    exact absurd ((h.no_revision_ahead hi).symm.trans hr) (nofun)

/-- What is enqueued for the latest revision fits the budget of bytes. -/
theorem Inv.enqueue_frozen (h : s.Inv) (hi : s.incidents.get? incident.incidentId = some incident)
    (hnumber : incident.evidenceRevision < 2147483647) {kind : AnalysisKind} :
    (∃ payload, (s.freeze incident).enqueue (s.advanced incident) (s.frozen incident) kind =
      .ok ((s.freeze incident).addJob (s.advanced incident) kind payload,
        if s.admittedTotal < 60 then .admitted else .deferred)) ∨
    (s.freeze incident).enqueue (s.advanced incident) (s.frozen incident) kind =
      .error "KeyError" := by
  have hfresh : (s.freeze incident).jobs.get? ((s.advanced incident).incidentId,
      (s.advanced incident).evidenceRevision) = none := h.no_job_ahead hi
  unfold enqueue
  rw [hfresh]
  cases hpayload : payloadOf (s.advanced incident).incidentId
      (s.advanced incident).evidenceRevision (s.frozen incident) (s.freeze incident).now with
  | none => exact .inr rfl
  | some payload =>
    have hlimit : (s.advanced incident).evidenceRevision ≤ 2147483647 := hnumber
    have hsize := size_payload (h.drafts _ _ hi) (h.ids _ _ hi).2 hlimit
      (frozen_digest s incident) hpayload
    left
    refine ⟨payload, ?_⟩
    simp only [if_neg (Nat.not_lt.mpr hsize)]
    rfl

/-- A turn leaves the rows alone, or freezes one revision and adds its job. -/
theorem Inv.admitIncident (h : s.Inv) (hi : s.incidents.get? incident.incidentId = some incident) :
    (∃ served, s.admitIncident incident = .ok (s, served) ∧ (served = .skipped ∨ served = .kept)) ∨
    (∃ s' served, s.admitIncident incident = .ok (s', served) ∧ Adds s incident s' served) ∨
    ∃ error, s.admitIncident incident = .error error ∧ error ≠ "ANALYSIS_INPUT_BYTE_BUDGET" := by
  have herror : ∀ {e : String}, incident.hasMembers = .error e →
      e ≠ "ANALYSIS_INPUT_BYTE_BUDGET" := by
    intro e he
    unfold Incident.hasMembers at he
    split at he
    · cases he
    · cases he
      decide
  unfold Analysis.admitIncident
  cases hmembers : incident.hasMembers with
  | error e => exact .inr (.inr ⟨e, rfl, herror hmembers⟩)
  | ok present =>
    cases present with
    | false => exact .inl ⟨_, rfl, .inl rfl⟩
    | true =>
      simp only
      by_cases hwaits : waits (s.admittedJobs incident.incidentId) s.now = true
      · rw [if_pos hwaits]
        exact .inl ⟨_, rfl, .inl rfl⟩
      rw [if_neg hwaits]
      rw [Bool.not_eq_true] at hwaits
      cases hlatest : s.latest incident with
      | none =>
        have hzero := (h.latest hi).mp hlatest
        by_cases hjobs : s.admittedJobs incident.incidentId ≠ []
        · simp only [if_pos hjobs]
          exact .inr (.inr ⟨_, rfl, by decide⟩)
        simp only [if_neg hjobs]
        rcases h.enqueue_frozen hi (by omega) with ⟨payload, heq⟩ | heq
        · refine .inr (.inl ⟨_, _, heq, hwaits, by omega, ?_, ⟨_, payload, rfl⟩, rfl⟩)
          intro latest hsome
          rw [hlatest] at hsome
          cases hsome
        · exact .inr (.inr ⟨_, heq, by decide⟩)
      | some latest =>
        simp only
        by_cases hsame : latest.materialDigest = incident.materialDigest
        · rw [if_pos hsame]
          by_cases hjobs : s.admittedJobs incident.incidentId ≠ []
          · rw [if_pos hjobs]
            exact .inl ⟨_, rfl, .inl rfl⟩
          rw [if_neg hjobs]
          -- the present revision has its job
          have hnumber : incident.evidenceRevision ≠ 0 := fun hzero => by
            rw [(h.latest hi).mpr hzero] at hlatest
            cases hlatest
          obtain ⟨_, hjob⟩ := (h.jobbed (incident.incidentId, incident.evidenceRevision)).mp
            ((h.revised _).mpr ⟨incident, hi, by change 1 ≤ incident.evidenceRevision; omega,
              le_refl _⟩)
          left
          unfold enqueue
          rw [hjob]
          refine ⟨_, rfl, ?_⟩
          split_ifs
          · exact .inr rfl
          · exact .inl rfl
        rw [if_neg hsame]
        by_cases hlimit : 2147483647 ≤ incident.evidenceRevision
        · rw [if_pos hlimit]
          exact .inr (.inr ⟨_, rfl, by decide⟩)
        rw [if_neg hlimit]
        rcases h.enqueue_frozen hi (Nat.lt_of_not_le hlimit) with ⟨payload, heq⟩ | heq
        · refine .inr (.inl ⟨_, _, heq, hwaits, Nat.lt_of_not_le hlimit, ?_, ⟨_, payload, rfl⟩,
            rfl⟩)
          intro _ hsome
          cases hlatest.symm.trans hsome
          exact hsame
        · exact .inr (.inr ⟨_, heq, by decide⟩)

/-! ## A job that is added -/

theorem admittedTotal_addJob (incident : Incident) (kind : AnalysisKind) (payload : Json) :
    (s.addJob incident kind payload).admittedTotal =
      s.admittedTotal + (if s.admittedTotal < 60 then 1 else 0) := by
  by_cases hroom : s.admittedTotal < 60
  · simp only [addJob, decide_eq_true hroom, if_true, if_pos hroom]
    rfl
  · simp only [addJob, decide_eq_false hroom, Bool.false_eq_true, if_false, if_neg hroom]
    rfl

theorem length_admittedJobs (id : String) : (s.admittedJobs id).length = s.jobs.countBy fun _ job =>
      decide (job.incidentId = id ∧ job.admittedAt ≠ none) := by
  rw [admittedJobs, List.length_insertionSort, ← List.countP_eq_length_filter, Dict.countBy,
    Dict.values, List.countP_map]
  rfl

theorem mem_admittedJobs {k : String × ℕ}
    (hget : s.jobs.get? k = some job) (hid : job.incidentId = id)
    (hadmitted : job.admittedAt ≠ none) : job ∈ s.admittedJobs id := by
  refine (List.mem_insertionSort _).mpr (List.mem_filter.mpr ⟨?_, decide_eq_true ⟨hid, hadmitted⟩⟩)
  exact Dict.mem_values_iff.mpr ⟨k, hget⟩

/-- Without a reason to wait there is room for one more job, half an hour after the last. -/
theorem waits_spec {jobs : List IncidentJob} (h : waits jobs now = false) :
    jobs.length ≤ 1 ∧ ∀ job ∈ jobs, job.admittedAt.getD 0 + 1800 * second ≤ now := by
  simp only [waits, Bool.or_eq_false_iff, decide_eq_false_iff_not, Nat.not_le] at h
  obtain ⟨hlength, hlast⟩ := h
  refine ⟨by omega, fun job hjob => ?_⟩
  match jobs, hlength, hjob with
  | [only], _, hjob =>
    cases List.mem_singleton.mp hjob
    simp only [List.getLast?_singleton, decide_eq_false_iff_not, not_lt] at hlast
    exact hlast

/-- The latest admitted job is of an earlier revision. -/
theorem Inv.admitted_latest (h : s.Inv) (hi : s.incidents.get? incident.incidentId = some incident)
    (hwaits : waits (s.admittedJobs incident.incidentId) s.now = false)
    (hroom : s.admittedTotal < 60)
    (hjob : s.jobs.get? (incident.incidentId, n) = some job) (hadmitted : job.admittedAt ≠ none) :
    n = incident.evidenceRevision := by
  obtain ⟨i, hi', hone, hle⟩ := (h.revised _).mp ((h.jobbed _).mpr ⟨job, hjob⟩)
  cases hi.symm.trans hi'
  by_contra hne
  -- the latest revision has a job too, which is admitted as there is room
  obtain ⟨other, hother⟩ := (h.jobbed (incident.incidentId, incident.evidenceRevision)).mp
    ((h.revised _).mpr ⟨incident, hi, le_trans hone hle, le_refl _⟩)
  have hother' : other.admittedAt ≠ none := fun hnone =>
    absurd (h.full _ other hother hnone) (Nat.not_le.mpr hroom)
  have hmem := mem_admittedJobs hjob (h.keyed _ job hjob).1 hadmitted
  have hmem' := mem_admittedJobs hother (h.keyed _ other hother).1 hother'
  have hlength := (waits_spec hwaits).1
  have hsame : job = other := by
    match hlist : s.admittedJobs incident.incidentId, hlength with
    | [], _ =>
      rw [hlist] at hmem
      cases hmem
    | [only], _ =>
      simp only [hlist] at hmem hmem'
      rw [List.mem_singleton.mp hmem, List.mem_singleton.mp hmem']
  have hnumber := (h.keyed _ job hjob).2
  rw [hsame, (h.keyed _ other hother).2] at hnumber
  exact hne hnumber.symm

/-- What such a turn writes: the incident, its next revision, and the job of that revision. -/
structure Added (s : Analysis) (incident : Incident) (s' : Analysis) (job : IncidentJob) :
    Prop where
  now : s'.now = s.now
  incidents : s'.incidents = s.incidents.set incident.incidentId (s.advanced incident)
  revisions : s'.revisions =
    s.revisions.set (incident.incidentId, incident.evidenceRevision + 1) (s.frozen incident)
  jobs : s'.jobs = s.jobs.set (incident.incidentId, incident.evidenceRevision + 1) job
  incidentId : job.incidentId = incident.incidentId
  revision : job.revision = incident.evidenceRevision + 1
  admittedAt : job.admittedAt = if s.admittedTotal < 60 then some s.now else none
  total : s'.admittedTotal = s.admittedTotal + if s.admittedTotal < 60 then 1 else 0

theorem Adds.writes (h : Adds s incident s' served) : ∃ job, Added s incident s' job := by
  obtain ⟨-, -, -, ⟨kind, payload, rfl⟩, -⟩ := h
  refine ⟨_, rfl, rfl, rfl, rfl, rfl, rfl, ?_, admittedTotal_addJob _ _ _⟩
  by_cases hroom : s.admittedTotal < 60
  · simp only [if_pos hroom]
    exact if_pos (decide_eq_true hroom)
  · simp only [if_neg hroom]
    exact if_neg (by rw [decide_eq_true_eq]; exact hroom)

section Added

variable {i : Incident} {k : String × ℕ} {r : EvidenceRevision} {x : IncidentJob}
  (hadded : Added s incident s' job)
include hadded

theorem Added.incident_cases (hx : s'.incidents.get? id = some i) :
    id = incident.incidentId ∧ i = s.advanced incident ∨
      id ≠ incident.incidentId ∧ s.incidents.get? id = some i :=
  Dict.get?_set_cases (hadded.incidents ▸ hx)

theorem Added.revision_cases (hx : s'.revisions.get? k = some r) :
    k = (incident.incidentId, incident.evidenceRevision + 1) ∧ r = s.frozen incident ∨
      k ≠ (incident.incidentId, incident.evidenceRevision + 1) ∧ s.revisions.get? k = some r :=
  Dict.get?_set_cases (hadded.revisions ▸ hx)

theorem Added.job_cases (hx : s'.jobs.get? k = some x) :
    k = (incident.incidentId, incident.evidenceRevision + 1) ∧ x = job ∨
      k ≠ (incident.incidentId, incident.evidenceRevision + 1) ∧ s.jobs.get? k = some x :=
  Dict.get?_set_cases (hadded.jobs ▸ hx)

theorem Added.grown : s.admittedTotal ≤ s'.admittedTotal :=
  hadded.total ▸ Nat.le_add_right _ _

variable (h : s.Inv) (hi : s.incidents.get? incident.incidentId = some incident)
include h hi

/-- The revisions are still those the incidents number. -/
theorem Added.revised : (∃ r, s'.revisions.get? k = some r) ↔
    ∃ i, s'.incidents.get? k.1 = some i ∧ 1 ≤ k.2 ∧ k.2 ≤ i.evidenceRevision := by
  constructor
  · rintro ⟨r, hr⟩
    rw [hadded.incidents]
    rcases hadded.revision_cases hr with ⟨rfl, -⟩ | ⟨-, hr⟩
    · exact ⟨s.advanced incident, by simp, by omega, le_refl _⟩
    · obtain ⟨i, hi', hone, hle⟩ := (h.revised k).mp ⟨r, hr⟩
      rw [Dict.get?_set]
      by_cases hk : k.1 = incident.incidentId
      · rw [hk] at hi'
        cases hi.symm.trans hi'
        exact ⟨s.advanced incident, if_pos hk, hone, Nat.le_succ_of_le hle⟩
      · exact ⟨i, (if_neg hk).trans hi', hone, hle⟩
  · rintro ⟨i, hx, hone, hle⟩
    rw [hadded.revisions, Dict.get?_set]
    split_ifs with hk
    · exact ⟨_, rfl⟩
    · refine (h.revised k).mpr ?_
      rcases hadded.incident_cases hx with ⟨hid', rfl⟩ | ⟨-, hx⟩
      · have hle' : k.2 ≤ incident.evidenceRevision + 1 := hle
        have hne : k.2 ≠ incident.evidenceRevision + 1 := fun he => hk (Prod.ext hid' he)
        exact ⟨incident, hid' ▸ hi, hone, by omega⟩
      · exact ⟨i, hx, hone, hle⟩

variable (hadds : Adds s incident s' served)
include hadds

/-- An incident has no more than two admitted jobs. -/
theorem Added.twice (id : String) : s'.jobs.countBy (fun _ job =>
    decide (job.incidentId = id ∧ job.admittedAt ≠ none)) ≤ 2 := by
  rw [hadded.jobs, Dict.countBy_set_of_none (h.no_job_ahead hi)]
  have hbefore := h.twice id
  by_cases hown : incident.incidentId = id
  · subst hown
    have hfew := (waits_spec hadds.open_).1
    rw [length_admittedJobs] at hfew
    have := Bool.toNat_le (decide (job.incidentId = incident.incidentId ∧ job.admittedAt ≠ none))
    omega
  · have hother : decide (job.incidentId = id ∧ job.admittedAt ≠ none) = false :=
      decide_eq_false fun hx => hown (hadded.incidentId.symm.trans hx.1)
    rwa [hother]

/-- The job that is added comes half an hour after the admitted one, and of other material. -/
theorem Added.after {t t' : ℤ} (hx : s.jobs.get? (incident.incidentId, n) = some x)
    (ht : x.admittedAt = some t) (ht' : job.admittedAt = some t') :
    t + 1800 * second ≤ t' ∧ ∀ r, s.revisions.get? (incident.incidentId, n) = some r →
      r.materialDigest ≠ incident.materialDigest := by
  rw [hadded.admittedAt] at ht'
  split_ifs at ht' with hroom
  cases ht'
  have hnone : x.admittedAt ≠ none := ht ▸ Option.some_ne_none _
  have hlatest := h.admitted_latest hi hadds.open_ hroom hx hnone
  have hapart := (waits_spec hadds.open_).2 x (mem_admittedJobs hx (h.keyed _ x hx).1 hnone)
  rw [ht] at hapart
  refine ⟨hapart, fun r hr => hadds.changed r ?_⟩
  obtain ⟨i, -, hone, -⟩ := (h.revised _).mp ⟨r, hr⟩
  have hpos : 1 ≤ n := hone
  rwa [Analysis.latest, if_neg (by omega), ← hlatest]

/-- Two admitted jobs of one incident are apart, the added one included. -/
theorem Added.apart (id : String) (n n' : ℕ) (x x' : IncidentJob) (t t' : ℤ)
    (hx : s'.jobs.get? (id, n) = some x) (hx' : s'.jobs.get? (id, n') = some x') (hlt : n < n')
    (ht : x.admittedAt = some t) (ht' : x'.admittedAt = some t') : t + 1800 * second ≤ t' ∧
      ∀ r r', s'.revisions.get? (id, n) = some r → s'.revisions.get? (id, n') = some r' →
        r.materialDigest ≠ r'.materialDigest := by
  rcases hadded.job_cases hx with ⟨he, rfl⟩ | ⟨hne, hx⟩
  · -- the job that is added is the last
    cases he
    rcases hadded.job_cases hx' with ⟨he', -⟩ | ⟨-, hx'⟩
    · cases he'
      exact absurd hlt (Nat.lt_irrefl _)
    · obtain ⟨i, hi', -, hle⟩ := (h.revised _).mp ((h.jobbed _).mpr ⟨x', hx'⟩)
      cases hi.symm.trans hi'
      have hle' : n' ≤ incident.evidenceRevision := hle
      omega
  have hold : ∀ r, s'.revisions.get? (id, n) = some r → s.revisions.get? (id, n) = some r :=
    fun _ hr => ((hadded.revision_cases hr).resolve_left fun he => hne he.1).2
  rcases hadded.job_cases hx' with ⟨he', rfl⟩ | ⟨hne', hx'⟩
  · cases he'
    obtain ⟨hapart, hdigest⟩ := hadded.after h hi hadds hx ht ht'
    refine ⟨hapart, fun r r' hr hr' => ?_⟩
    rcases hadded.revision_cases hr' with ⟨-, rfl⟩ | ⟨hne', -⟩
    · exact hdigest r (hold r hr)
    · exact absurd rfl hne'
  · obtain ⟨hapart, hdigests⟩ := h.apart id n n' x x' t t' hx hx' hlt ht ht'
    exact ⟨hapart, fun r r' hr hr' => hdigests r r' (hold r hr)
      ((hadded.revision_cases hr').resolve_left fun he => hne' he.1).2⟩

end Added

/-- A turn that adds a revision or a job keeps the budget. -/
theorem Inv.adds (h : s.Inv) (hi : s.incidents.get? incident.incidentId = some incident)
    (hadds : Adds s incident s' served) : s'.Inv := by
  obtain ⟨job, hadded⟩ := hadds.writes
  constructor
  case ids =>
    intro id i hx
    rcases hadded.incident_cases hx with ⟨rfl, rfl⟩ | ⟨-, hx⟩
    · exact ⟨rfl, (h.ids _ _ hi).2⟩
    · exact h.ids id i hx
  case numbers =>
    intro id i hx
    rcases hadded.incident_cases hx with ⟨rfl, rfl⟩ | ⟨-, hx⟩
    · exact hadds.number
    · exact h.numbers id i hx
  case drafts =>
    intro id i hx
    rcases hadded.incident_cases hx with ⟨rfl, rfl⟩ | ⟨-, hx⟩
    · have hdraft : Fits incident.draft := h.drafts _ _ hi
      exact hdraft
    · exact h.drafts id i hx
  case manifests =>
    intro k r hx
    rcases hadded.revision_cases hx with ⟨rfl, rfl⟩ | ⟨-, hx⟩
    · exact ⟨h.drafts _ _ hi, frozen_digest s incident⟩
    · exact h.manifests k r hx
  case revised => exact fun _ => hadded.revised h hi
  case jobbed =>
    intro k
    rw [hadded.jobs, hadded.revisions]
    simp only [Dict.get?_set]
    split_ifs with hk
    · exact ⟨fun _ => ⟨_, rfl⟩, fun _ => ⟨_, rfl⟩⟩
    · exact h.jobbed k
  case keyed =>
    intro k x hx
    rcases hadded.job_cases hx with ⟨rfl, rfl⟩ | ⟨-, hx⟩
    · exact ⟨hadded.incidentId, hadded.revision⟩
    · exact h.keyed k x hx
  case counted =>
    rw [hadded.jobs, Dict.countBy_set_of_none (h.no_job_ahead hi), h.counted, hadded.total,
      hadded.admittedAt]
    split_ifs <;> rfl
  case capped =>
    rw [hadded.total]
    have := h.capped
    split_ifs <;> omega
  case full =>
    intro k x hx hnone
    refine le_trans ?_ hadded.grown
    rcases hadded.job_cases hx with ⟨rfl, rfl⟩ | ⟨-, hx⟩
    · rw [hadded.admittedAt] at hnone
      split_ifs at hnone with hroom
      exact Nat.le_of_not_lt hroom
    · exact h.full k x hx hnone
  case past =>
    intro k x t hx ht
    rw [hadded.now]
    rcases hadded.job_cases hx with ⟨rfl, rfl⟩ | ⟨-, hx⟩
    · rw [hadded.admittedAt] at ht
      split_ifs at ht
      cases ht
      exact le_refl _
    · exact h.past k x t hx ht
  case twice => exact hadded.twice h hi hadds
  case apart => exact hadded.apart h hi hadds

/-! ## What a step may change -/

/-- The number of an incident's revisions. -/
def number (s : Analysis) (id : String) : ℕ :=
  ((s.incidents.get? id).map Incident.evidenceRevision).getD 0

/-- The revisions of the incident are as they were. -/
structure Same (s s' : Analysis) (id : String) : Prop where
  number : s'.number id = s.number id
  revisions : ∀ n, s'.revisions.get? (id, n) = s.revisions.get? (id, n)

/-- The number of the incident goes up by one exactly when a revision is frozen, of another digest
than the latest. -/
def Moved (s s' : Analysis) (id : String) : Prop :=
  Same s s' id ∨
    s'.number id = s.number id + 1 ∧ s.revisions.get? (id, s.number id + 1) = none ∧
    ∃ r, s'.revisions.get? (id, s.number id + 1) = some r ∧
      ∀ latest, s.revisions.get? (id, s.number id) = some latest →
        r.materialDigest ≠ latest.materialDigest

structure Keeps (s s' : Analysis) : Prop where
  jobs : ∀ k job, s.jobs.get? k = some job → s'.jobs.get? k = some job
  revisions : ∀ k r, s.revisions.get? k = some r → s'.revisions.get? k = some r

theorem Same.refl (s : Analysis) (id : String) : Same s s id := ⟨rfl, fun _ => rfl⟩

theorem Keeps.refl (s : Analysis) : Keeps s s := ⟨fun _ _ h => h, fun _ _ h => h⟩

variable {t : Analysis}

theorem Same.trans (h : Same s t id) (h' : Same t s' id) : Same s s' id :=
  ⟨h'.number.trans h.number, fun n => (h'.revisions n).trans (h.revisions n)⟩

theorem Keeps.trans (h : Keeps s t) (h' : Keeps t s') : Keeps s s' :=
  ⟨fun k job hj => h'.jobs k job (h.jobs k job hj),
    fun k r hr => h'.revisions k r (h.revisions k r hr)⟩

theorem Moved.trans_same (h : Moved s t id) (h' : Same t s' id) : Moved s s' id := by
  rcases h with h | ⟨hnumber, hnone, r, hr, hdigest⟩
  · exact .inl (h.trans h')
  · exact .inr ⟨h'.number.trans hnumber, hnone, r, (h'.revisions _).trans hr, hdigest⟩

theorem Same.trans_moved (h : Same s t id) (h' : Moved t s' id) : Moved s s' id := by
  rcases h' with h' | ⟨hnumber, hnone, r, hr, hdigest⟩
  · exact .inl (h.trans h')
  · rw [h.number] at hnumber hnone hr hdigest
    rw [h.revisions] at hnone
    refine .inr ⟨hnumber, hnone, r, hr, fun latest hlatest => hdigest latest ?_⟩
    rwa [h.revisions]

/-- What a turn of a call does. -/
structure Turn (s : Analysis) (incident : Incident) (s' : Analysis) (served : Served) : Prop where
  inv : s'.Inv
  keeps : Keeps s s'
  moved : Moved s s' incident.incidentId
  others : ∀ id, id ≠ incident.incidentId →
    Same s s' id ∧ s'.incidents.get? id = s.incidents.get? id
  grows : s.admittedTotal ≤ s'.admittedTotal
  admitted : served = .admitted → s.admittedTotal < 60
  deferred : served = .deferred → 60 ≤ s'.admittedTotal

/-- What a turn has added is of its incident. -/
theorem Inv.turn_adds (h : s.Inv) (hi : s.incidents.get? incident.incidentId = some incident)
    (hadds : Adds s incident s' served) : Turn s incident s' served := by
  obtain ⟨job, hadded⟩ := hadds.writes
  have hnumber : s.number incident.incidentId = incident.evidenceRevision := by
    rw [number, hi]
    rfl
  have hother : ∀ id, id ≠ incident.incidentId →
      s'.incidents.get? id = s.incidents.get? id := fun id hne => by
    rw [hadded.incidents, Dict.get?_set, if_neg hne]
  constructor
  case inv => exact h.adds hi hadds
  case keeps =>
    constructor
    · intro k _ hjob
      rw [hadded.jobs, Dict.get?_set, if_neg]
      · exact hjob
      · rintro rfl
        cases (h.no_job_ahead hi).symm.trans hjob
    · intro k _ hr
      rw [hadded.revisions, Dict.get?_set, if_neg]
      · exact hr
      · rintro rfl
        cases (h.no_revision_ahead hi).symm.trans hr
  case moved =>
    refine .inr ⟨?_, ?_, s.frozen incident, ?_, ?_⟩
    · rw [hnumber, number, hadded.incidents, Dict.get?_set, if_pos rfl]
      rfl
    · rw [hnumber]
      exact h.no_revision_ahead hi
    · rw [hnumber, hadded.revisions, Dict.get?_set, if_pos rfl]
    · intro latest hlatest
      rw [hnumber] at hlatest
      refine fun heq => hadds.changed latest ?_ heq.symm
      rw [Analysis.latest, if_neg]
      · exact hlatest
      · intro hzero
        obtain ⟨i, -, hone, -⟩ := (h.revised _).mp ⟨latest, hlatest⟩
        rw [hzero] at hone
        exact absurd hone (by change ¬(1 ≤ 0); decide)
  case others =>
    intro id hne
    refine ⟨⟨by rw [number, number, hother id hne], fun n => ?_⟩, hother id hne⟩
    rw [hadded.revisions, Dict.get?_set, if_neg]
    exact fun he => hne (Prod.mk.inj he).1
  case grows => exact hadded.grown
  case admitted =>
    intro he
    rw [hadds.outcome] at he
    split_ifs at he with hroom
    exact hroom
  case deferred =>
    intro he
    rw [hadds.outcome] at he
    split_ifs at he with hroom
    exact le_trans (Nat.le_of_not_lt hroom) hadded.grown

theorem Inv.turn (h : s.Inv) (hi : s.incidents.get? incident.incidentId = some incident)
    (hok : s.admitIncident incident = .ok (s', served)) : Turn s incident s' served := by
  rcases h.admitIncident hi with ⟨served', heq, hserved⟩ | ⟨t, served', heq, hadds⟩ |
      ⟨error, heq, -⟩
  · rw [heq] at hok
    cases hok
    refine ⟨h, .refl s, .inl (.refl s _), fun id _ => ⟨.refl s id, rfl⟩, le_refl _, ?_, ?_⟩
    all_goals
      rintro rfl
      rcases hserved with he | he <;> cases he
  · rw [heq] at hok
    cases hok
    exact h.turn_adds hi hadds
  · rw [heq] at hok
    cases hok

/-! ## A call -/

structure Call (s : Analysis) (incidents : List Incident) (s' : Analysis)
    (served : List (Incident × Served)) : Prop where
  inv : s'.Inv
  keeps : Keeps s s'
  moved : ∀ id, Moved s s' id
  others : ∀ id, id ∉ incidents.map Incident.incidentId → Same s s' id
  grows : s.admittedTotal ≤ s'.admittedTotal
  order : served.map Prod.fst = incidents
  room : ∀ e ∈ served, e.2 = .admitted → s.admittedTotal < 60
  cut : served.Pairwise fun a b => a.2 = .deferred → b.2 ≠ .admitted

variable {incidents : List Incident}

/-- The turns of one call, in order. -/
theorem Inv.admitAll :
    ∀ {s : Analysis} {served : List (Incident × Served)}, s.Inv →
      (∀ i ∈ incidents, s.incidents.get? i.incidentId = some i) →
      (incidents.map Incident.incidentId).Nodup → s.admitAll incidents = .ok (s', served) →
      Call s incidents s' served := by
  induction incidents with
  | nil =>
    intro s served h _ _ hok
    obtain ⟨rfl, rfl⟩ := Prod.mk.inj (Except.ok.inj hok)
    exact ⟨h, .refl s, fun id => .inl (.refl s id), fun id _ => .refl s id, le_refl _, rfl, nofun,
      .nil⟩
  | cons incident incidents ih =>
    intro s _ h hrows hnodup hok
    rw [Analysis.admitAll] at hok
    split at hok
    · cases hok
    · rename_i t first hfirst
      split at hok
      · cases hok
      · rename_i t' rest hrest
        obtain ⟨rfl, rfl⟩ := Prod.mk.inj (Except.ok.inj hok)
        obtain ⟨hnot, hnodup'⟩ := List.nodup_cons.mp hnodup
        have hturn := h.turn (hrows incident List.mem_cons_self) hfirst
        have hcall : Call t incidents t' rest := by
          refine ih hturn.inv (fun i hi => ?_) hnodup' hrest
          have hne : i.incidentId ≠ incident.incidentId := fun he =>
            hnot (he ▸ List.mem_map_of_mem hi)
          rw [(hturn.others _ hne).2]
          exact hrows i (List.mem_cons_of_mem _ hi)
        refine ⟨hcall.inv, hturn.keeps.trans hcall.keeps, fun id => ?_, fun id hid => ?_,
          hturn.grows.trans hcall.grows, ?_, ?_, ?_⟩
        · by_cases hid : id = incident.incidentId
          · subst hid
            exact hturn.moved.trans_same (hcall.others _ hnot)
          · exact (hturn.others id hid).1.trans_moved (hcall.moved id)
        · rw [List.map_cons, List.mem_cons, not_or] at hid
          exact (hturn.others id hid.1).1.trans (hcall.others id hid.2)
        · rw [List.map_cons, hcall.order]
        · intro e he hadmitted
          rcases List.mem_cons.mp he with rfl | he
          · exact hturn.admitted hadmitted
          · exact lt_of_le_of_lt hturn.grows (hcall.room e he hadmitted)
        · refine List.pairwise_cons.mpr ⟨fun e he hdeferred hadmitted => ?_, hcall.cut⟩
          have hfull := hturn.deferred hdeferred
          exact absurd (hcall.room e he hadmitted) (Nat.not_lt.mpr hfull)

/-- No turn of a call raises. -/
theorem Inv.admitAll_error : ∀ {s : Analysis} {error : String}, s.Inv →
      (∀ i ∈ incidents, s.incidents.get? i.incidentId = some i) →
      (incidents.map Incident.incidentId).Nodup → s.admitAll incidents = .error error →
      error ≠ "ANALYSIS_INPUT_BYTE_BUDGET" := by
  induction incidents with
  | nil =>
    intro s error _ _ _ herr
    cases herr
  | cons incident _ ih =>
    intro s error h hrows hnodup herr
    obtain ⟨hnot, hnodup'⟩ := List.nodup_cons.mp hnodup
    rw [Analysis.admitAll] at herr
    split at herr
    · rename_i e hfirst
      cases herr
      rcases h.admitIncident (hrows incident List.mem_cons_self) with ⟨served, heq, -⟩ |
          ⟨t, served, heq, -⟩ | ⟨error, heq, hne⟩
      · rw [heq] at hfirst
        cases hfirst
      · rw [heq] at hfirst
        cases hfirst
      · rw [heq] at hfirst
        cases hfirst
        exact hne
    · rename_i t first hfirst
      have hturn := h.turn (hrows incident List.mem_cons_self) hfirst
      split at herr
      · rename_i e hrest
        cases herr
        refine ih hturn.inv (fun i hi => ?_) hnodup' hrest
        have hne : i.incidentId ≠ incident.incidentId := fun he =>
          hnot (he ▸ List.mem_map_of_mem hi)
        rw [(hturn.others _ hne).2]
        exact hrows i (List.mem_cons_of_mem _ hi)
      · cases herr

theorem Inv.eligible (h : s.Inv) : (∀ i ∈ s.eligible, s.incidents.get? i.incidentId = some i) ∧
      (s.eligible.map Incident.incidentId).Nodup := by
  have hids : ∀ e ∈ s.incidents.entries, e.2.incidentId = e.1 := fun e he =>
    (h.ids e.1 e.2 (Dict.get?_eq_some_iff.mpr he)).1
  constructor
  · intro i hi
    have hmem := (List.mem_filter.mp ((List.mem_insertionSort _).mp hi)).1
    obtain ⟨id, hid⟩ := Dict.mem_values_iff.mp hmem
    rwa [(h.ids id i hid).1]
  · have hvalues : (s.incidents.values.map Incident.incidentId).Nodup := by
      have heq : s.incidents.values.map Incident.incidentId = s.incidents.keys := by
        rw [Dict.values, Dict.keys, List.map_map]
        exact List.map_congr_left hids
      rw [heq]
      exact s.incidents.keys_nodup
    refine ((List.perm_insertionSort Before _).map Incident.incidentId).nodup_iff.mpr ?_
    exact (List.filter_sublist.map Incident.incidentId).nodup hvalues

theorem Inv.budgeted (h : s.Inv) : { s with budget := some (s.budget.getD ⟨0, none⟩) }.Inv := by
  have htotal : ({ s with budget := some (s.budget.getD ⟨0, none⟩) } : Analysis).admittedTotal =
      s.admittedTotal := by
    unfold admittedTotal
    cases s.budget <;> rfl
  refine ⟨h.ids, h.numbers, h.drafts, h.manifests, h.revised, h.jobbed, h.keyed, ?_, ?_, ?_, h.past,
    h.twice, h.apart⟩
  · rw [htotal]
    exact h.counted
  · rw [htotal]
    exact h.capped
  · rw [htotal]
    exact h.full

theorem Inv.admitDay (h : s.Inv) {served : List (Incident × Served)}
    (hok : s.admitDay = .ok (s', served)) :
    Call { s with budget := some (s.budget.getD ⟨0, none⟩) } s.eligible s' served :=
  h.budgeted.admitAll h.eligible.1 h.eligible.2 hok

/-! ## Runs -/

theorem ingest_rows :
    ∀ {s : Analysis}, s.Inv → (∀ touch ∈ touches, touch.incidentId.length = 36) →
      s.ingest touches = .ok s' →
      s'.jobs = s.jobs ∧ s'.revisions = s.revisions ∧ ∀ id, s'.number id = s.number id := by
  induction touches with
  | nil =>
    intro s _ _ hok
    cases hok
    exact ⟨rfl, rfl, fun _ => rfl⟩
  | cons touch _ ih =>
    intro s h hids hok
    rw [Analysis.ingest] at hok
    split at hok
    · cases hok
    · rename_i t ht
      obtain ⟨hjobs, hrevisions, hnumbers⟩ := ih (h.ingestTouch (hids touch List.mem_cons_self) ht)
        (fun x hx => hids x (List.mem_cons_of_mem _ hx)) hok
      unfold Analysis.ingestTouch Incident.refreshDraft at ht
      split at ht
      · cases ht
      · rename_i incident hrefresh
        split_ifs at hrefresh
        cases hrefresh
        cases ht
        refine ⟨hjobs, hrevisions, fun id => (hnumbers id).trans ?_⟩
        simp only [number, Dict.get?_set]
        split_ifs with hid
        · subst hid
          unfold touched
          cases s.incidents.get? touch.incidentId <;> rfl
        · rfl

theorem refresh_number (ids : List String) (id : String) :
    (s.refresh ids).number id = s.number id := by
  rw [number, number, refresh]
  simp only [Dict.get?_mapValues]
  cases s.incidents.get? id with
  | none => rfl
  | some =>
    simp only [Option.map_some]
    split_ifs <;> rfl

instance : Std.Total Before := by
  refine ⟨fun a b => ?_⟩
  rcases lt_trichotomy a.firstSeenAt b.firstSeenAt with hlt | heq | hgt
  · exact .inl (.inl hlt)
  · rcases String.le_total a.incidentKey b.incidentKey with hle | hle
    · exact .inl (.inr ⟨heq, hle⟩)
    · exact .inr (.inr ⟨heq.symm, hle⟩)
  · exact .inr (.inl hgt)

instance : IsTrans Incident Before := by
  refine ⟨fun a b c hab hbc => ?_⟩
  rcases hab with hab | ⟨hab, hkey⟩ <;> rcases hbc with hbc | ⟨hbc, hkey'⟩
  · exact .inl (hab.trans hbc)
  · exact .inl (hbc ▸ hab)
  · exact .inl (hab ▸ hbc)
  · exact .inr ⟨hab.trans hbc, String.le_trans hkey hkey'⟩

/-- Every action keeps the invariant, the jobs and the revisions. -/
theorem Inv.step (h : s.Inv) {a : Action} (hstep : s.step a = some s') :
    s'.Inv ∧ Keeps s s' ∧ ∀ id, Moved s s' id := by
  have hstay : s.Inv ∧ Keeps s s ∧ ∀ id, Moved s s id :=
    ⟨h, .refl s, fun id => .inl (.refl s id)⟩
  cases a with
  | tick business =>
    cases hstep
    refine ⟨⟨h.ids, h.numbers, h.drafts, h.manifests, h.revised, h.jobbed, h.keyed, h.counted,
      h.capped, h.full, fun k job t hjob ht => ?_, h.twice, h.apart⟩, ⟨fun _ _ hj => hj,
      fun _ _ hr => hr⟩, fun id => .inl ⟨rfl, fun _ => rfl⟩⟩
    have := h.past k job t hjob ht
    change t ≤ s.now + business
    omega
  | ingest touches =>
    simp only [Analysis.step] at hstep
    split_ifs at hstep with hids
    cases hstep
    cases hok : s.ingest touches with
    | error => exact hstay
    | ok t =>
      obtain ⟨hjobs, hrevisions, hnumbers⟩ := ingest_rows h hids hok
      change t.Inv ∧ Keeps s t ∧ ∀ id, Moved s t id
      refine ⟨h.ingest hids hok, ⟨fun k job hj => ?_, fun k r hr => ?_⟩, fun id =>
        .inl ⟨hnumbers id, fun n => ?_⟩⟩
      · rwa [hjobs]
      · rwa [hrevisions]
      · rw [hrevisions]
  | refresh ids =>
    cases hstep
    exact ⟨h.refresh ids, ⟨fun _ _ hj => hj, fun _ _ hr => hr⟩,
      fun id => .inl ⟨refresh_number ids id, fun _ => rfl⟩⟩
  | admitDay =>
    simp only [Analysis.step] at hstep
    split_ifs at hstep with hcommits
    · cases hstep
      cases hok : s.admitDay with
      | error => exact hstay
      | ok r =>
        obtain ⟨t, _⟩ := r
        have hcall := h.admitDay hok
        exact ⟨hcall.inv, ⟨hcall.keeps.jobs, hcall.keeps.revisions⟩, fun id =>
          (hcall.moved id).imp_left fun hsame => ⟨hsame.number, hsame.revisions⟩⟩
    · cases hstep
      exact hstay

/-- The admissions of a day: the budget counts the jobs that were admitted, an incident has at most
two of them, half an hour apart and of different digests; jobs and revisions stay as they are, and
the number of an incident counts its revisions; a call serves the incidents in their order, none is
admitted after one was deferred, and no input is too large. -/
theorem admission_budget {now : ℤ} {acts : List Action}
    (hrun : Trace.run step (initial now) acts = some s) :
    (s.jobs.countBy (fun _ job => decide (job.admittedAt ≠ none)) = s.admittedTotal ∧
      s.admittedTotal ≤ 60) ∧
    (∀ id, s.jobs.countBy (fun _ job => decide (job.incidentId = id ∧ job.admittedAt ≠ none)) ≤ 2) ∧
    (∀ id n n' job job' t t', s.jobs.get? (id, n) = some job → s.jobs.get? (id, n') = some job' →
      n < n' → job.admittedAt = some t → job'.admittedAt = some t' → t + 1800 * second ≤ t' ∧
      ∀ r r', s.revisions.get? (id, n) = some r → s.revisions.get? (id, n') = some r' →
        r.materialDigest ≠ r'.materialDigest) ∧
    (∀ a s', s.step a = some s' → Keeps s s' ∧ ∀ id, Moved s s' id) ∧
    (∀ s' served, s.admitDay = .ok (s', served) → (served.map Prod.fst).Pairwise Before ∧
      served.Pairwise fun a b => a.2 = .deferred → b.2 ≠ .admitted) ∧
    s.admitDay ≠ .error "ANALYSIS_INPUT_BYTE_BUDGET" := by
  have hinv : s.Inv :=
    Trace.run_invariant (fun _ _ _ hstep h => (h.step hstep).1) hrun (inv_initial now)
  refine ⟨⟨hinv.counted, hinv.capped⟩, hinv.twice, hinv.apart, fun a s' hstep =>
    (hinv.step hstep).2, fun s' served hok => ?_, fun herr => ?_⟩
  · have hcall := hinv.admitDay hok
    refine ⟨?_, hcall.cut⟩
    rw [hcall.order]
    exact List.pairwise_insertionSort Before _
  · exact hinv.budgeted.admitAll_error hinv.eligible.1 hinv.eligible.2 herr rfl

def sampleTouch (changeRef : String) : IncidentTouch :=
  ⟨"00000000-0000-0000-0000-000000000001", "key", "signature", ["loader"], [changeRef],
    ⟨1, 0, [], [], 1⟩⟩

/-- A day on which a case is ingested and its incident admitted after ten minutes; a case with
another change follows, and half an hour later the incident is admitted again. -/
def sampleDay : List Action :=
  [.ingest [sampleTouch "change:1"], .tick 600000000, .admitDay true,
    .ingest [sampleTouch "change:2"], .tick 1800000000, .admitDay true]

/-- When the first and the second revision of the sample incident were admitted. -/
def sampleAdmitted (s : Analysis) (revision : ℕ) : Option ℤ :=
  (s.jobs.get? ((sampleTouch "").incidentId, revision)).bind IncidentJob.admittedAt

theorem admission_budget_sampleDay :
    ∃ s t t', Trace.run step (initial 0) sampleDay = some s ∧
      s.jobs.countBy (fun _ job => decide (job.admittedAt ≠ none)) = 2 ∧
      sampleAdmitted s 1 = some t ∧ sampleAdmitted s 2 = some t' ∧ t + 1800 * second ≤ t' := by
  have htwo : (Trace.run step (initial 0) sampleDay).any (fun s => s.admittedTotal = 2 ∧
      (sampleAdmitted s 1).isSome = true ∧ (sampleAdmitted s 2).isSome = true) = true := by
    decide +kernel
  obtain ⟨s, hrun, htotal, hfirst, hsecond⟩ := exists_of_any htwo
  obtain ⟨t, ht⟩ := Option.isSome_iff_exists.mp hfirst
  obtain ⟨t', ht'⟩ := Option.isSome_iff_exists.mp hsecond
  obtain ⟨⟨hcount, -⟩, -, hapart, -⟩ := admission_budget hrun
  obtain ⟨job, hjob, hat⟩ := Option.bind_eq_some_iff.mp ht
  obtain ⟨job', hjob', hat'⟩ := Option.bind_eq_some_iff.mp ht'
  exact ⟨s, t, t', hrun, hcount.trans htotal, ht, ht',
    (hapart _ 1 2 job job' t t' hjob hjob' (by decide) hat hat').1⟩

end Analysis

end LocalAgent.Runtime
