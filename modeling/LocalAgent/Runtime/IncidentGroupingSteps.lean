import LocalAgent.Runtime.IncidentGrouping
import LocalAgent.Runtime.IncidentResolutionSteps

/-!
# LocalAgent.Runtime.IncidentGroupingSteps — what observations and decisions write

* `payload_own`: a payload of no manager is about the user's own failures.
* `Joins`, `Decides`: everything an observation or a decision can have done.
* `Inv`: where the memberships of a failure are; `Moves`: what a decision does to them.
-/

namespace LocalAgent.Runtime

namespace GroupingDesk

variable {s s' : GroupingDesk} {principal : CIPrincipal}

/-! ## What a user sees -/

/-- The records of one owner in a payload: members, their evidence, and what the history names. -/
structure OwnOnly (s : GroupingDesk) (principal : CIPrincipal) (groupId : String)
    (p : GroupPayload) : Prop where
  members : ∀ m ∈ p.members, ∃ j ∈ s.membersOf groupId,
    j.incident.ownerUserId = principal.userId ∧ m = memberPayload principal j
  events : ∀ e ∈ p.history,
    (∀ id ∈ e.incidentIds, ∃ j ∈ s.membersOf groupId,
      j.incident.ownerUserId = principal.userId ∧ j.incident.incidentId = id) ∧
    (∀ m ∈ e.before ++ e.after, ∃ j ∈ s.membersOf groupId,
      j.incident.ownerUserId = principal.userId ∧ j.incident.incidentId = m.incidentId) ∧
    (∀ actor ∈ e.actorUserId, actor = principal.userId) ∧
    (e.reason.isSome = true → e.actorUserId = some principal.userId)

variable {id newId batchId groupId : String} {group : IncidentGroup} {body : GroupDecision}
  {result : DecisionResult}

/-- Without the rights of a manager a payload shows own incidents only. -/
theorem payload_own {p : GroupPayload}
    (h : s.payload principal groupId group false = .ok p) : s.OwnOnly principal groupId p := by
  unfold payload at h
  obtain ⟨-, h⟩ := raiseIf_seq_ok.mp h
  cases h
  have hvisible : ∀ j ∈ (s.membersOf groupId).filter fun m =>
      false || decide (m.incident.ownerUserId = principal.userId), j ∈ s.membersOf groupId ∧
        j.incident.ownerUserId = principal.userId := by
    intro j hj
    obtain ⟨hmem, hmine⟩ := List.mem_filter.mp hj
    rw [Bool.false_or, decide_eq_true_eq] at hmine
    exact ⟨hmem, hmine⟩
  have hnamed : ∀ id ∈ ((s.membersOf groupId).filter fun m =>
      false || decide (m.incident.ownerUserId = principal.userId)).map (·.incident.incidentId),
      ∃ j ∈ s.membersOf groupId, j.incident.ownerUserId = principal.userId ∧
        j.incident.incidentId = id := by
    intro id hid
    obtain ⟨j, hj, rfl⟩ := List.mem_map.mp hid
    obtain ⟨hmem, hmine⟩ := hvisible j hj
    exact ⟨j, hmem, hmine, rfl⟩
  constructor
  · intro m hm
    obtain ⟨j, hj, rfl⟩ := List.mem_map.mp hm
    obtain ⟨hmem, hmine⟩ := hvisible j hj
    exact ⟨j, hmem, hmine, rfl⟩
  · intro e he
    obtain ⟨event, -, hevent⟩ := List.mem_filterMap.mp he
    unfold eventPayload at hevent
    dsimp only at hevent
    split at hevent
    · cases hevent
    · cases hevent
      refine ⟨fun id hid => hnamed id ?_, fun m hm => hnamed m.incidentId ?_, ?_, ?_⟩
      · simpa using (List.mem_filter.mp hid).2
      · rcases List.mem_append.mp hm with hm | hm
        all_goals simpa using (List.mem_filter.mp hm).2
      · intro _ hactor
        by_cases hmine : event.actorUserId = principal.userId
        · rw [if_pos (by simp [hmine])] at hactor
          rw [← Option.some.inj hactor, hmine]
        · rw [if_neg (by simp [hmine])] at hactor
          cases hactor
      · intro hreason
        dsimp only at hreason ⊢
        by_cases hmine : event.actorUserId = principal.userId
        · rw [if_pos (by simp [hmine]), hmine]
        · rw [if_neg (by simp [hmine])] at hreason
          cases hreason

/-! ## What a step writes -/

/-- What `observe` writes when the evidence has a signature. -/
structure Joins (s s' : GroupingDesk) (batchId : String) (execution : CIExecution)
    (incident : CIIncident) (groupId : String) : Prop where
  group : ∃ payload group, (signature execution).payload = some payload ∧
    s'.groups = s.groups.set groupId group ∧ group.batchId = batchId ∧
    ((∃ old, s.groups.get? groupId = some old ∧ old.batchId = batchId ∧
        group = { old with revision := old.revision + 1 }) ∨
      (groupId ∉ s.groups.keys ∧ group.history = []))
  member : ∃ refs, s'.members = s.members.set (groupId, incident.incidentId)
    ⟨execution.executionId, refs, .candidate, s.now, none, none⟩
  rest : s'.incidents = s.incidents ∧ s'.executions = s.executions ∧ s'.now = s.now

/-- What `observe` does, by the signature and the groups of the batch. -/
theorem observe_cases (batchId : String) (execution : CIExecution) (incident : CIIncident)
    (hnew : newId ∉ s.groups.keys) : ((signature execution).payload = none ∧
        s.observe batchId execution incident newId = s) ∨
      ∃ groupId, Joins s (s.observe batchId execution incident newId) batchId execution incident
        groupId := by
  unfold observe
  dsimp only
  cases hpayload : (signature execution).payload with
  | none => exact .inl ⟨rfl, rfl⟩
  | some payload =>
    refine .inr ?_
    dsimp only
    cases hauto : s.autoGroup batchId (sha256Digest payload) with
    | none =>
      exact ⟨newId, ⟨payload, _, hpayload, rfl, rfl, .inr ⟨hnew, rfl⟩⟩, ⟨_, rfl⟩, rfl, rfl, rfl⟩
    | some found =>
      obtain ⟨id, group⟩ := found
      have hfound := List.find?_some hauto
      rw [decide_eq_true_eq] at hfound
      have hget : s.groups.get? id = some group :=
        Dict.get?_eq_some_iff.mpr (List.mem_of_find?_eq_some hauto)
      exact ⟨id, ⟨payload, _, hpayload, rfl, hfound.1, .inl ⟨group, hget, hfound.1, rfl⟩⟩,
        ⟨_, rfl⟩, rfl, rfl, rfl⟩

theorem mem_membersOf {j : JoinedMember} (h : j ∈ s.membersOf groupId) :
    ∃ id, s.members.get? (groupId, id) = some j.member ∧ s.incidents.get? id = some j.incident ∧
      s.executions.get? j.member.executionId = some j.execution := by
  have hmem := (List.perm_insertionSort _ _).mem_iff.mp h
  obtain ⟨⟨⟨g, id⟩, m⟩, hentry, hjoin⟩ := List.mem_filterMap.mp hmem
  by_cases hg : g = groupId
  · rw [if_pos hg] at hjoin
    split at hjoin
    · rename_i incident execution hinc hexec
      cases hjoin
      exact ⟨id, by rw [← hg]; exact Dict.get?_eq_some_iff.mpr hentry, hinc, hexec⟩
    · cases hjoin
  · rw [if_neg hg] at hjoin
    cases hjoin

theorem mem_membersOf_of {m : GroupMember} {i : CIIncident}
    {e : CIExecution} (hm : s.members.get? (groupId, id) = some m)
    (hi : s.incidents.get? id = some i) (he : s.executions.get? m.executionId = some e) :
    ⟨m, i, e⟩ ∈ s.membersOf groupId := by
  refine (List.perm_insertionSort _ _).mem_iff.mpr
    (List.mem_filterMap.mpr ⟨((groupId, id), m), Dict.get?_eq_some_iff.mp hm, ?_⟩)
  rw [if_pos rfl, hi, he]

structure Decides (s s' : GroupingDesk) (principal : CIPrincipal) (batchId groupId : String)
    (body : GroupDecision) (newId : String) (group : IncidentGroup) (result : DecisionResult) :
    Prop where
  writes : s' = { s with
    groups := s.decidedGroups principal groupId group body newId
    members := s.decidedMembers principal groupId body newId }
  found : s.groups.get? groupId = some group ∧ group.batchId = batchId
  unasked : group.history.find? (·.requestId = body.requestId) = none
  covers : (s.selectedMembers groupId body).length = body.incidentIds.length
  result : result = decisionResult groupId group body newId

variable {manager : Bool}

theorem getGroup_ok (h : s.getGroup principal batchId groupId manager = .ok group) :
    s.groups.get? groupId = some group ∧ group.batchId = batchId ∧ (manager = true ∨
      ∃ m ∈ s.membersOf groupId, m.incident.ownerUserId = principal.userId) := by
  unfold getGroup at h
  split at h
  · cases h
  · rename_i found hfound
    split at h
    · rename_i hok
      cases h
      exact ⟨hfound, hok⟩
    · cases h

/-- What a decision has checked before it is made. -/
theorem decideGroup_cases
    (h : s.decideGroup principal batchId groupId manager body newId = .ok (s', result)) :
    ∃ group, s.getGroup principal batchId groupId manager = .ok group ∧
      ((s' = s ∧ ∃ event, group.history.find? (·.requestId = body.requestId) = some event ∧
          event.digest = body.digest ∧ event.actorUserId = principal.userId ∧
          event.result = result) ∨
        Decides s s' principal batchId groupId body newId group result) := by
  unfold decideGroup at h
  obtain ⟨group, hgroup, h⟩ := bind_eq_ok.mp h
  refine ⟨group, hgroup, ?_⟩
  obtain ⟨hfound, hbatch, -⟩ := getGroup_ok hgroup
  split at h
  · rename_i previous hprevious
    obtain ⟨hsame, h⟩ := raiseIf_seq_ok.mp h
    obtain ⟨rfl, rfl⟩ := Prod.ext_iff.mp (Except.ok.inj h)
    push Not at hsame
    exact .inl ⟨rfl, previous, hprevious, hsame.1, hsame.2, rfl⟩
  · rename_i hnone
    obtain ⟨-, h⟩ := raiseIf_seq_ok.mp h
    obtain ⟨hselected, h⟩ := raiseIf_seq_ok.mp h
    obtain ⟨-, h⟩ := raiseIf_seq_ok.mp h
    obtain ⟨rfl, rfl⟩ := Prod.ext_iff.mp (Except.ok.inj h)
    push Not at hselected
    exact .inr ⟨rfl, ⟨hfound, hbatch⟩, hnone, hselected.1, rfl⟩

/-! ## Memberships -/

/-- The incident has a membership in the group. -/
def Has (s : GroupingDesk) (groupId id : String) : Prop :=
  ∃ m, s.members.get? (groupId, id) = some m

/-- The incident has a membership in the group that is not excluded. -/
def Current (s : GroupingDesk) (groupId id : String) : Prop :=
  ∃ m, s.members.get? (groupId, id) = some m ∧ m.decision ≠ .excluded

/-- An EXCLUDE decision has named the incident. -/
def Excluded (s : GroupingDesk) (id : String) : Prop :=
  ∃ groupId group, s.groups.get? groupId = some group ∧ ∃ event ∈ group.history,
    event.kind = .exclude ∧ id ∈ event.incidentIds

theorem Current.has (h : s.Current groupId id) : s.Has groupId id := by
  obtain ⟨m, hm, -⟩ := h
  exact ⟨m, hm⟩

/-- The invariant of the tables. -/
structure Inv (s : GroupingDesk) : Prop where
  incidentIds : ∀ id i, s.incidents.get? id = some i → i.incidentId = id
  placed : ∀ g id m, s.members.get? (g, id) = some m → g ∈ s.groups.keys ∧
    id ∈ s.incidents.keys ∧ m.executionId ∈ s.executions.keys
  batches : ∀ id g g' G G', s.Has g id → s.Has g' id → s.groups.get? g = some G →
    s.groups.get? g' = some G' → G.batchId = G'.batchId
  single : ∀ id g g', s.Current g id → s.Current g' id → g = g'
  kept : ∀ id g, s.Has g id → (∃ g', s.Current g' id) ∨ s.Excluded id
  gone : ∀ id g, s.Excluded id → ¬ s.Current g id
  named : ∀ id, s.Excluded id → id ∈ s.incidents.keys
  seen : ∀ id i, s.incidents.get? id = some i → ∃ e, s.executions.get? i.executionId = some e ∧
    ((signature e).payload.isSome = true ↔ ∃ g, s.Has g id)

theorem pairwise_membersOf (hinv : s.Inv) (groupId : String) :
    ((s.membersOf groupId).map (·.incident.incidentId)).Nodup := by
  have hentries : s.members.entries.Pairwise fun a b => a.1 ≠ b.1 :=
    List.pairwise_map.mp s.members.keys_nodup
  refine List.pairwise_map.mpr
    (((List.perm_insertionSort _ _).pairwise_iff fun h => Ne.symm h).mpr ?_)
  refine List.Pairwise.filterMap _ ?_ hentries
  intro a a' hne b hb b' hb' heq
  split_ifs at hb hb' with hg hg'
  split at hb
  · rename_i hinc _
    cases hb
    split at hb'
    · rename_i hinc' _
      cases hb'
      have hid := hinv.incidentIds _ _ hinc
      rw [heq, hinv.incidentIds _ _ hinc'] at hid
      exact hne (Prod.ext (hg.trans hg'.symm) hid.symm)
    · cases hb'
  · cases hb

/-! ## The members of a decision -/

/-- The members that were added, by key. -/
theorem get?_addMembers {now : ℤ} {target : String} {ms : List JoinedMember} :
    ∀ {d : Dict (String × String) GroupMember} {k : String × String},
      (k.1 ≠ target ∨ k.2 ∉ ms.map (·.incident.incidentId) →
        (addMembers now target d ms).get? k = d.get? k) ∧
      (k.1 = target → k.2 ∈ ms.map (·.incident.incidentId) → ∃ m ∈ ms,
        m.incident.incidentId = k.2 ∧ (addMembers now target d ms).get? k =
          some ⟨m.member.executionId, m.member.evidenceRefs, .candidate, now, none, none⟩) := by
  induction ms with
  | nil => exact fun {d k} => ⟨fun _ => rfl, fun _ h => (nomatch h)⟩
  | cons m rest ih =>
    intro d k
    constructor
    · intro hk
      have hne : k ≠ (target, m.incident.incidentId) := by
        rintro rfl
        rcases hk with hk | hk
        · exact hk rfl
        · exact hk List.mem_cons_self
      rw [addMembers, ih.1 (hk.imp_right fun h hin => h (List.mem_cons_of_mem _ hin)),
        Dict.get?_set, if_neg hne]
    · intro hk hin
      by_cases hrest : k.2 ∈ rest.map (·.incident.incidentId)
      · obtain ⟨m', hm', hid, hget⟩ := (ih (d := d.set (target, m.incident.incidentId)
          ⟨m.member.executionId, m.member.evidenceRefs, .candidate, now, none, none⟩)).2 hk hrest
        exact ⟨m', List.mem_cons_of_mem m hm', hid, hget⟩
      · have hid : m.incident.incidentId = k.2 := by
          rcases List.mem_cons.mp hin with h | h
          · exact h.symm
          · exact absurd h hrest
        refine ⟨m, List.mem_cons_self, hid, ?_⟩
        rw [addMembers, ih.1 (.inr hrest), Dict.get?_set, if_pos (Prod.ext hk hid.symm)]

/-- What a decision does to the memberships. -/
structure Moves (s s' : GroupingDesk) (groupId newId : String) (body : GroupDecision) : Prop where
  has : ∀ g id, s'.Has g id ↔
    s.Has g id ∨ (body.kind = .split ∧ g = newId ∧ id ∈ body.incidentIds)
  current : ∀ g id, s'.Current g id ↔
    (s.Current g id ∧ ¬ (g = groupId ∧ id ∈ body.incidentIds ∧ body.kind ≠ .confirm)) ∨
      (body.kind = .split ∧ g = newId ∧ id ∈ body.incidentIds)
  selected : ∀ id ∈ body.incidentIds, s.Current groupId id
  same : ∀ g id, g ≠ groupId → g ≠ newId → s'.members.get? (g, id) = s.members.get? (g, id)
  stays : ∀ g id m, g ≠ newId → s.members.get? (g, id) = some m →
    ∃ m', s'.members.get? (g, id) = some m' ∧ m'.executionId = m.executionId
  executions : ∀ g id m, s'.members.get? (g, id) = some m →
    ∃ g' m', (∃ id', s.members.get? (g', id') = some m') ∧ m.executionId = m'.executionId

theorem get?_decideMembers {groupId : String} {ids : List String} {decision : MemberDecision}
    {g id : String} : (s.decideMembers groupId ids decision principal).get? (g, id) =
      (s.members.get? (g, id)).map fun m =>
        if g = groupId ∧ id ∈ ids ∧ m.decision ≠ .excluded then
          { m with
            decision, decidedAt := some s.now, decidedByUserId := some principal.userId }
        else m := by
  unfold decideMembers
  rw [Dict.get?_mapWithKey]

theorem mem_selectedMembers {m : JoinedMember}
    (h : m ∈ s.selectedMembers groupId body) : m ∈ s.membersOf groupId ∧
      m.member.decision ≠ .excluded ∧ m.incident.incidentId ∈ body.incidentIds := by
  obtain ⟨hcurrent, hid⟩ := List.mem_filter.mp h
  obtain ⟨hmem, hdecision⟩ := List.mem_filter.mp hcurrent
  exact ⟨hmem, by simpa using hdecision, by simpa using hid⟩

section

variable (h : Decides s s' principal batchId groupId body newId group result)
include h

theorem Decides.selected (hinv : s.Inv) (hid : id ∈ body.incidentIds) :
    ∃ m ∈ s.selectedMembers groupId body, m.incident.incidentId = id := by
  have hnodup : ((s.selectedMembers groupId body).map (·.incident.incidentId)).Nodup :=
    (pairwise_membersOf hinv groupId).sublist
      ((List.filter_sublist.trans List.filter_sublist).map _)
  have hsub : (s.selectedMembers groupId body).map (·.incident.incidentId) ⊆ body.incidentIds := by
    intro i hi
    obtain ⟨m, hm, rfl⟩ := List.mem_map.mp hi
    exact (mem_selectedMembers hm).2.2
  have hperm := (List.subperm_of_subset hnodup hsub).perm_of_length_le
    (by rw [List.length_map]; exact h.covers.ge)
  obtain ⟨m, hm, hmid⟩ := List.mem_map.mp (hperm.mem_iff.mpr hid)
  exact ⟨m, hm, hmid⟩

/-- Every kind of decision, as a move of memberships. -/
theorem Decides.moves (hinv : s.Inv) : Moves s s' groupId newId body := by
  have hselected : ∀ id ∈ body.incidentIds, s.Current groupId id := by
    intro id hid
    obtain ⟨m, hm, rfl⟩ := h.selected hinv hid
    obtain ⟨hmem, hdecision, -⟩ := mem_selectedMembers hm
    obtain ⟨id', hget, hinc, -⟩ := mem_membersOf hmem
    rw [hinv.incidentIds id' _ hinc]
    exact ⟨m.member, hget, hdecision⟩
  have hnames : ∀ id, id ∈ (s.selectedMembers groupId body).map (·.incident.incidentId) ↔
      id ∈ body.incidentIds := by
    intro id
    constructor
    · intro hid
      obtain ⟨m, hm, rfl⟩ := List.mem_map.mp hid
      exact (mem_selectedMembers hm).2.2
    · intro hid
      obtain ⟨m, hm, hmid⟩ := h.selected hinv hid
      exact List.mem_map.mpr ⟨m, hm, hmid⟩
  have hmembers : s'.members = s.decidedMembers principal groupId body newId := by rw [h.writes]
  -- A membership of the target is new; every other one is the old one, decided if it is named.
  have hold : ∀ g id, ¬ (body.kind = .split ∧ g = newId ∧ id ∈ body.incidentIds) →
      s'.members.get? (g, id) = (s.members.get? (g, id)).map fun m =>
        if g = groupId ∧ id ∈ body.incidentIds ∧ m.decision ≠ .excluded then
          { m with
            decision := DecisionKind.decision body.kind
            decidedAt := some s.now, decidedByUserId := some principal.userId }
        else m := by
    intro g id hnot
    rw [hmembers]
    unfold decidedMembers
    split_ifs with hsplit
    · rw [get?_addMembers.1, get?_decideMembers]
      by_cases hg : g = newId
      · refine .inr fun hid => hnot ⟨hsplit, hg, (hnames id).mp hid⟩
      · exact .inl hg
    · rw [get?_decideMembers]
  have htarget : ∀ id, body.kind = .split → id ∈ body.incidentIds →
      ∃ m ∈ s.selectedMembers groupId body, m.incident.incidentId = id ∧
        s'.members.get? (newId, id) =
          some ⟨m.member.executionId, m.member.evidenceRefs, .candidate, s.now, none, none⟩ := by
    intro id hsplit hid
    rw [hmembers]
    unfold decidedMembers
    rw [if_pos hsplit]
    exact (get?_addMembers (k := (newId, id))).2 rfl ((hnames id).mpr hid)
  refine ⟨?_, ?_, hselected, ?_, ?_, ?_⟩
  · intro g id
    by_cases hcase : body.kind = .split ∧ g = newId ∧ id ∈ body.incidentIds
    · obtain ⟨hsplit, rfl, hid⟩ := hcase
      obtain ⟨m, -, -, hget⟩ := htarget id hsplit hid
      exact ⟨fun _ => .inr ⟨hsplit, rfl, hid⟩, fun _ => ⟨_, hget⟩⟩
    · unfold Has
      rw [hold g id hcase]
      constructor
      · rintro ⟨m, hm⟩
        obtain ⟨old, hold', -⟩ := Option.map_eq_some_iff.mp hm
        exact .inl ⟨old, hold'⟩
      · rintro (⟨m, hm⟩ | hnot)
        · exact ⟨_, by rw [hm]; rfl⟩
        · exact absurd hnot hcase
  · intro g id
    by_cases hcase : body.kind = .split ∧ g = newId ∧ id ∈ body.incidentIds
    · obtain ⟨hsplit, rfl, hid⟩ := hcase
      obtain ⟨m, -, -, hget⟩ := htarget id hsplit hid
      exact ⟨fun _ => .inr ⟨hsplit, rfl, hid⟩, fun _ => ⟨_, hget, fun h => (by cases h)⟩⟩
    · unfold Current
      rw [hold g id hcase]
      constructor
      · rintro ⟨m, hm, hdecision⟩
        obtain ⟨old, hget, rfl⟩ := Option.map_eq_some_iff.mp hm
        split_ifs at hdecision with hmarked
        · refine .inl ⟨⟨old, hget, hmarked.2.2⟩, fun hlost => hdecision ?_⟩
          cases hkind : body.kind with
          | confirm => exact absurd hkind hlost.2.2
          | exclude | split => rfl
        · exact .inl ⟨⟨old, hget, hdecision⟩, fun hlost => hmarked ⟨hlost.1, hlost.2.1, hdecision⟩⟩
      · rintro (⟨⟨m, hm, _⟩, hstays⟩ | hnot)
        · rw [hm]
          refine ⟨_, rfl, ?_⟩
          dsimp only
          by_cases hmarked : g = groupId ∧ id ∈ body.incidentIds ∧ m.decision ≠ .excluded
          · rw [if_pos hmarked]
            have hkind : body.kind = .confirm := by
              by_contra hother
              exact hstays ⟨hmarked.1, hmarked.2.1, hother⟩
            rw [hkind]
            exact fun h => (by cases h)
          · rwa [if_neg hmarked]
        · exact absurd hnot hcase
  · intro g id hg hg'
    rw [hold g id fun hcase => hg' hcase.2.1]
    cases s.members.get? (g, id) with
    | none => rfl
    | some => exact congrArg some (if_neg fun hmarked => hg hmarked.1)
  · intro g id m hg hm
    rw [hold g id fun hcase => hg hcase.2.1, hm]
    refine ⟨_, rfl, ?_⟩
    dsimp only
    by_cases hmarked : g = groupId ∧ id ∈ body.incidentIds ∧ m.decision ≠ .excluded
    · rw [if_pos hmarked]
    · rw [if_neg hmarked]
  · intro g id m hm
    by_cases hcase : body.kind = .split ∧ g = newId ∧ id ∈ body.incidentIds
    · obtain ⟨hsplit, rfl, hid⟩ := hcase
      obtain ⟨j, hj, -, hget⟩ := htarget id hsplit hid
      obtain ⟨id', hget', -⟩ := mem_membersOf (mem_selectedMembers hj).1
      rw [hm] at hget
      cases hget
      exact ⟨groupId, j.member, ⟨id', hget'⟩, rfl⟩
    · rw [hold g id hcase] at hm
      obtain ⟨old, hget, rfl⟩ := Option.map_eq_some_iff.mp hm
      refine ⟨g, old, ⟨id, hget⟩, ?_⟩
      by_cases hmarked : g = groupId ∧ id ∈ body.incidentIds ∧ old.decision ≠ .excluded
      · rw [if_pos hmarked]
      · rw [if_neg hmarked]

end

end GroupingDesk

end LocalAgent.Runtime
