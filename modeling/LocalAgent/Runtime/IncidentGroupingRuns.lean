import LocalAgent.Lib.Text
import LocalAgent.Runtime.IncidentGroupingSteps

/-!
# LocalAgent.Runtime.IncidentGroupingRuns — groups, revisions and replays over whole runs

* `Decides.inv`, `observed_keeps`: both transactions keep the invariant.
* `decideGroup_replay`: an answered decision is not taken twice.
* `grouping_sound`: one group for each failure, growing revisions, replays and privacy.
-/

namespace LocalAgent.Runtime

namespace GroupingDesk

variable {s s' t u : GroupingDesk} {principal : CIPrincipal}

/-! ## What a step keeps -/

/-- What no step takes back. -/
structure Extends (s t : GroupingDesk) : Prop where
  groups : ∀ g G, s.groups.get? g = some G → ∃ G', t.groups.get? g = some G' ∧
    G'.batchId = G.batchId ∧ G.revision ≤ G'.revision ∧ G.history <+: G'.history
  members : ∀ g id m, s.members.get? (g, id) = some m →
    ∃ m', t.members.get? (g, id) = some m' ∧ m'.executionId = m.executionId
  incidents : ∀ id i, s.incidents.get? id = some i →
    ∃ j, t.incidents.get? id = some j ∧ j.ownerUserId = i.ownerUserId
  executions : ∀ id e, s.executions.get? id = some e → t.executions.get? id = some e

theorem Extends.refl (s : GroupingDesk) : Extends s s :=
  ⟨fun _ G h => ⟨G, h, rfl, le_rfl, List.prefix_rfl⟩, fun _ _ m h => ⟨m, h, rfl⟩,
    fun _ i h => ⟨i, h, rfl⟩, fun _ _ h => h⟩

theorem Extends.trans (h : Extends s t) (h' : Extends t u) : Extends s u := by
  refine ⟨?_, ?_, ?_, fun id e he => h'.executions id e (h.executions id e he)⟩
  · intro g G hG
    obtain ⟨G', hG', hbatch, hrev, hhist⟩ := h.groups g G hG
    obtain ⟨G'', hG'', hbatch', hrev', hhist'⟩ := h'.groups g G' hG'
    exact ⟨G'', hG'', hbatch'.trans hbatch, hrev.trans hrev', hhist.trans hhist'⟩
  · intro g id m hm
    obtain ⟨m', hm', he⟩ := h.members g id m hm
    obtain ⟨m'', hm'', he'⟩ := h'.members g id m' hm'
    exact ⟨m'', hm'', he'.trans he⟩
  · intro id i hi
    obtain ⟨j, hj, ho⟩ := h.incidents id i hi
    obtain ⟨k, hk, ho'⟩ := h'.incidents id j hj
    exact ⟨k, hk, ho'.trans ho⟩

/-- A group whose memberships change has a higher revision afterwards. -/
def Counts (s s' : GroupingDesk) : Prop :=
  ∀ g G G', s.groups.get? g = some G → s'.groups.get? g = some G' →
    (∃ id, s'.members.get? (g, id) ≠ s.members.get? (g, id)) → G.revision < G'.revision

variable {newId batchId groupId : String} {body : GroupDecision} {group : IncidentGroup}
  {result : DecisionResult}

section

variable (h : Decides s s' principal batchId groupId body newId group result)
include h

/-- What a decision does to its group, and to the group it splits off. -/
theorem Decides.groups (hnew : newId ∉ s.groups.keys) :
    (∃ G, s'.groups.get? groupId = some G ∧ G.batchId = group.batchId ∧
      G.revision = group.revision + 1 ∧
      G.history = group.history ++ [s.decisionEvent principal groupId group body newId]) ∧
    (∀ g, g ≠ groupId → g ≠ newId → s'.groups.get? g = s.groups.get? g) ∧
    (∀ G, s'.groups.get? newId = some G → body.kind = .split ∧ G.batchId = group.batchId ∧
      G.history = [s.decisionEvent principal groupId group body newId]) ∧
    (body.kind = .split → newId ∈ s'.groups.keys) := by
  have hne : groupId ≠ newId := by
    rintro rfl
    exact hnew (Dict.mem_keys_iff.mpr ⟨group, h.found.1⟩)
  have hnone : s.groups.get? newId = none := Dict.get?_eq_none_iff.mpr hnew
  rw [h.writes]
  unfold decidedGroups
  by_cases hsplit : body.kind = .split
  · simp only [if_pos hsplit, Dict.get?_set, if_neg hne, if_true, Dict.mem_keys_set]
    refine ⟨⟨_, rfl, rfl, rfl, rfl⟩, fun g hg hg' => by rw [if_neg hg', if_neg hg], ?_,
      fun _ => .inl trivial⟩
    intro G hG
    cases hG
    exact ⟨hsplit, rfl, rfl⟩
  · simp only [if_neg hsplit, Dict.get?_set, if_true, if_neg hne.symm, hnone]
    exact ⟨⟨_, rfl, rfl, rfl, rfl⟩, fun g hg _ => if_neg hg, fun G hG => (nomatch hG),
      fun h => absurd h hsplit⟩

/-- Only an EXCLUDE decision takes incidents out. -/
theorem Decides.excluded (hnew : newId ∉ s.groups.keys) (id : String) :
    s'.Excluded id ↔ s.Excluded id ∨ (body.kind = .exclude ∧ id ∈ body.incidentIds) := by
  obtain ⟨⟨G₀, hG₀, -, -, hhist₀⟩, hother, htarget, -⟩ := h.groups hnew
  constructor
  · rintro ⟨g, G, hG, event, hevent, hkind, hid⟩
    by_cases hg : g = groupId
    · rw [hg, hG₀] at hG
      cases hG
      rw [hhist₀] at hevent
      rcases mem_snoc hevent with hold | hlast
      · exact .inl ⟨groupId, group, h.found.1, event, hold, hkind, hid⟩
      · rw [hlast] at hkind hid
        exact .inr ⟨hkind, hid⟩
    · by_cases hg' : g = newId
      · rw [hg'] at hG
        obtain ⟨-, -, hhist⟩ := htarget G hG
        rw [hhist] at hevent
        rw [List.mem_singleton.mp hevent] at hkind hid
        exact .inr ⟨hkind, hid⟩
      · rw [hother g hg hg'] at hG
        exact .inl ⟨g, G, hG, event, hevent, hkind, hid⟩
  · rintro (⟨g, G, hG, event, hevent, hkind, hid⟩ | ⟨hkind, hid⟩)
    · by_cases hg : g = groupId
      · rw [hg, h.found.1] at hG
        cases hG
        exact ⟨groupId, G₀, hG₀, event, by rw [hhist₀]; exact List.mem_append_left _ hevent, hkind,
          hid⟩
      · have hg' : g ≠ newId := by
          rintro rfl
          exact hnew (Dict.mem_keys_iff.mpr ⟨G, hG⟩)
        exact ⟨g, G, by rw [hother g hg hg']; exact hG, event, hevent, hkind, hid⟩
    · exact ⟨groupId, G₀, hG₀, s.decisionEvent principal groupId group body newId,
        by rw [hhist₀]; exact List.mem_concat_self, hkind, hid⟩

/-- A decision only adds to the history. -/
theorem Decides.extends (hinv : s.Inv) (hnew : newId ∉ s.groups.keys) : Extends s s' := by
  obtain ⟨⟨G₀, hG₀, hbatch₀, hrev₀, hhist₀⟩, hother, -, -⟩ := h.groups hnew
  have hincidents : s'.incidents = s.incidents := by rw [h.writes]
  have hexecutions : s'.executions = s.executions := by rw [h.writes]
  refine ⟨?_, ?_, fun _ i hi => ⟨i, by rw [hincidents]; exact hi, rfl⟩,
    fun _ _ he => by rw [hexecutions]; exact he⟩
  · intro g G hG
    by_cases hg : g = groupId
    · rw [hg, h.found.1] at hG
      cases hG
      rw [hg]
      exact ⟨G₀, hG₀, hbatch₀, by omega, by rw [hhist₀]; exact List.prefix_append _ _⟩
    · have hg' : g ≠ newId := by
        rintro rfl
        exact hnew (Dict.mem_keys_iff.mpr ⟨G, hG⟩)
      exact ⟨G, by rw [hother g hg hg']; exact hG, rfl, le_rfl, List.prefix_rfl⟩
  · intro g id m hm
    have hg' : g ≠ newId := by
      rintro rfl
      exact hnew (hinv.placed g id m hm).1
    exact (h.moves hinv).stays g id m hg' hm

theorem Decides.counts (hinv : s.Inv) (hnew : newId ∉ s.groups.keys) : Counts s s' := by
  obtain ⟨⟨G₀, hG₀, -, hrev₀, -⟩, -, -, -⟩ := h.groups hnew
  rintro g G _ hG hG' ⟨id, hchanged⟩
  have hg' : g ≠ newId := by
    rintro rfl
    exact hnew (Dict.mem_keys_iff.mpr ⟨G, hG⟩)
  have hg : g = groupId := by
    by_contra hg
    exact hchanged ((h.moves hinv).same g id hg hg')
  rw [hg, h.found.1] at hG
  rw [hg, hG₀] at hG'
  cases hG
  cases hG'
  omega

/-- A decision leaves every incident in one group. -/
theorem Decides.inv (hinv : s.Inv) (hnew : newId ∉ s.groups.keys) : s'.Inv := by
  have hext := h.extends hinv hnew
  have hmoves := h.moves hinv
  have hexcl := h.excluded hnew
  obtain ⟨⟨_, -, -, -, -⟩, -, htarget, hsplits⟩ := h.groups hnew
  have hincidents : s'.incidents = s.incidents := by rw [h.writes]
  have hexecutions : s'.executions = s.executions := by rw [h.writes]
  have hnone : ∀ id, ¬ s.Has newId id := by
    rintro id ⟨m, hm⟩
    exact hnew (hinv.placed newId id m hm).1
  -- Every membership comes with an old one of the same incident in a group of the same batch.
  have hsource : ∀ g id G, s'.Has g id → s'.groups.get? g = some G →
      ∃ g₁ G₁, s.Has g₁ id ∧ s.groups.get? g₁ = some G₁ ∧ G₁.batchId = G.batchId := by
    intro g id G hhas hG
    rcases (hmoves.has g id).mp hhas with hold | ⟨hsplit, rfl, hid⟩
    · obtain ⟨m, hm⟩ := hold
      obtain ⟨G₁, hG₁⟩ := Dict.mem_keys_iff.mp (hinv.placed g id m hm).1
      obtain ⟨G', hG', hbatch, -, -⟩ := hext.groups g G₁ hG₁
      rw [hG] at hG'
      cases hG'
      exact ⟨g, G₁, ⟨m, hm⟩, hG₁, hbatch.symm⟩
    · obtain ⟨-, hbatch, -⟩ := htarget G hG
      exact ⟨groupId, group, (hmoves.selected id hid).has, h.found.1, hbatch.symm⟩
  refine ⟨by rw [hincidents]; exact hinv.incidentIds, ?_, ?_, ?_, ?_, ?_, ?_, ?_⟩
  · intro g id m hm
    obtain ⟨g', m', ⟨id', hm'⟩, hexec⟩ := hmoves.executions g id m hm
    refine ⟨?_, ?_, ?_⟩
    · rcases (hmoves.has g id).mp ⟨m, hm⟩ with ⟨old, hold⟩ | ⟨hsplit, rfl, -⟩
      · obtain ⟨G, hG⟩ := Dict.mem_keys_iff.mp (hinv.placed g id old hold).1
        obtain ⟨G', hG', -⟩ := hext.groups g G hG
        exact Dict.mem_keys_iff.mpr ⟨G', hG'⟩
      · exact hsplits hsplit
    · rw [hincidents]
      rcases (hmoves.has g id).mp ⟨m, hm⟩ with ⟨old, hold⟩ | ⟨-, -, hid⟩
      · exact (hinv.placed g id old hold).2.1
      · obtain ⟨old, hold, -⟩ := hmoves.selected id hid
        exact (hinv.placed groupId id old hold).2.1
    · rw [hexecutions, hexec]
      exact (hinv.placed g' id' m' hm').2.2
  · intro id g g' G G' hhas hhas' hG hG'
    obtain ⟨g₁, G₁, hhas₁, hG₁, hbatch₁⟩ := hsource g id G hhas hG
    obtain ⟨g₂, G₂, hhas₂, hG₂, hbatch₂⟩ := hsource g' id G' hhas' hG'
    rw [← hbatch₁, ← hbatch₂]
    exact hinv.batches id g₁ g₂ G₁ G₂ hhas₁ hhas₂ hG₁ hG₂
  · intro id g g' hcur hcur'
    rcases (hmoves.current g id).mp hcur with ⟨hold, hstays⟩ | ⟨hsplit, rfl, hid⟩
    · rcases (hmoves.current g' id).mp hcur' with ⟨hold', -⟩ | ⟨hsplit, rfl, hid⟩
      · exact hinv.single id g g' hold hold'
      · have hsame := hinv.single id g groupId hold (hmoves.selected id hid)
        exact absurd ⟨hsame, hid, by rw [hsplit]; decide⟩ hstays
    · rcases (hmoves.current g' id).mp hcur' with ⟨hold', hstays'⟩ | ⟨-, rfl, -⟩
      · have hsame := hinv.single id g' groupId hold' (hmoves.selected id hid)
        exact absurd ⟨hsame, hid, by rw [hsplit]; decide⟩ hstays'
      · rfl
  · intro id g hhas
    have hlater : s.Has g id ∨ id ∈ body.incidentIds := by
      rcases (hmoves.has g id).mp hhas with hold | ⟨-, -, hid⟩
      · exact .inl hold
      · exact .inr hid
    have hbefore : (∃ g', s.Current g' id) ∨ s.Excluded id := by
      rcases hlater with hold | hid
      · exact hinv.kept id g hold
      · exact .inl ⟨groupId, hmoves.selected id hid⟩
    rcases hbefore with ⟨g', hcur⟩ | hgone
    · by_cases hlost : g' = groupId ∧ id ∈ body.incidentIds ∧ body.kind ≠ .confirm
      · obtain ⟨-, hid, hkind⟩ := hlost
        cases hdecided : body.kind with
        | confirm => exact absurd hdecided hkind
        | exclude => exact .inr ((hexcl id).mpr (.inr ⟨hdecided, hid⟩))
        | split => exact .inl ⟨newId, (hmoves.current newId id).mpr (.inr ⟨hdecided, rfl, hid⟩)⟩
      · exact .inl ⟨g', (hmoves.current g' id).mpr (.inl ⟨hcur, hlost⟩)⟩
    · exact .inr ((hexcl id).mpr (.inl hgone))
  · intro id g hgone hcur
    rcases (hexcl id).mp hgone with hold | ⟨hkind, hid⟩
    · rcases (hmoves.current g id).mp hcur with ⟨hcur', -⟩ | ⟨-, -, hid⟩
      · exact hinv.gone id g hold hcur'
      · exact hinv.gone id groupId hold (hmoves.selected id hid)
    · rcases (hmoves.current g id).mp hcur with ⟨hcur', hstays⟩ | ⟨hsplit, -, -⟩
      · have hsame := hinv.single id g groupId hcur' (hmoves.selected id hid)
        exact hstays ⟨hsame, hid, by rw [hkind]; decide⟩
      · rw [hkind] at hsplit
        cases hsplit
  · intro id hgone
    rw [hincidents]
    rcases (hexcl id).mp hgone with hold | ⟨-, hid⟩
    · exact hinv.named id hold
    · obtain ⟨m, hm, -⟩ := hmoves.selected id hid
      exact (hinv.placed groupId id m hm).2.1
  · intro id i hi
    rw [hincidents] at hi
    obtain ⟨e, he, hseen⟩ := hinv.seen id i hi
    refine ⟨e, by rw [hexecutions]; exact he, hseen.trans ?_⟩
    constructor
    · rintro ⟨g, hg⟩
      exact ⟨g, (hmoves.has g id).mpr (.inl hg)⟩
    · rintro ⟨g, hg⟩
      rcases (hmoves.has g id).mp hg with hold | ⟨-, -, hid⟩
      · exact ⟨g, hold⟩
      · exact ⟨groupId, (hmoves.selected id hid).has⟩

end

/-! ## Observation keeps the invariant -/

/-- What the observation of a new failure keeps. -/
structure Observed (s s' : GroupingDesk) : Prop where
  extends' : Extends s s'
  inv : s'.Inv
  counts : Counts s s'

section

variable {s' : GroupingDesk} {execution : CIExecution} {incident : CIIncident} {g id : String}

theorem withFailure_incidents (hinv : s.Inv) {i : CIIncident}
    (hi : (s.withFailure execution incident).incidents.get? id = some i) :
    i.incidentId = id ∧
      (id = incident.incidentId ∧ i = incident ∨ s.incidents.get? id = some i) := by
  rcases Dict.get?_set_cases hi with ⟨rfl, rfl⟩ | ⟨-, hold⟩
  · exact ⟨rfl, .inl ⟨rfl, rfl⟩⟩
  · exact ⟨hinv.incidentIds id i hold, .inr hold⟩

theorem mem_withFailure_incidents (h : id ∈ s.incidents.keys) :
    id ∈ (s.withFailure execution incident).incidents.keys := Dict.mem_keys_set.mpr (.inr h)

theorem mem_withFailure_executions (h : id ∈ s.executions.keys) :
    id ∈ (s.withFailure execution incident).executions.keys := Dict.mem_keys_set.mpr (.inr h)

theorem Inv.not_has (hinv : s.Inv) (hincident : id ∉ s.incidents.keys) : ¬ s.Has g id :=
  fun ⟨m, hm⟩ => hincident (hinv.placed g _ m hm).2.1

namespace Joins

variable (hjoins : Joins (s.withFailure execution incident) s' batchId execution incident groupId)

include hjoins

/-- Only the new incident's membership is new. -/
theorem others (hid : id ≠ incident.incidentId) : s'.members.get? (g, id) = s.members.get? (g, id) := by
  obtain ⟨_, hmembers⟩ := hjoins.member
  rw [hmembers, Dict.get?_set, if_neg fun heq => hid (Prod.ext_iff.mp heq).2]
  rfl

theorem added : ∃ refs, s'.members.get? (groupId, incident.incidentId) =
    some ⟨execution.executionId, refs, .candidate, s.now, none, none⟩ := by
  obtain ⟨refs, hmembers⟩ := hjoins.member
  exact ⟨refs, by rw [hmembers, Dict.get?_set, if_pos rfl]; rfl⟩

theorem current : s'.Current groupId incident.incidentId := by
  obtain ⟨_, hadded⟩ := hjoins.added
  exact ⟨_, hadded, fun h => (nomatch h)⟩

theorem has_iff (hid : id ≠ incident.incidentId) : s'.Has g id ↔ s.Has g id := by
  unfold Has
  rw [hjoins.others hid]

theorem current_iff (hid : id ≠ incident.incidentId) : s'.Current g id ↔ s.Current g id := by
  unfold Current
  rw [hjoins.others hid]

/-- The new incident is in no other group. -/
theorem only (hinv : s.Inv) (hincident : incident.incidentId ∉ s.incidents.keys)
    (h : s'.Has g incident.incidentId) : g = groupId := by
  obtain ⟨m, hm⟩ := h
  obtain ⟨_, hmembers⟩ := hjoins.member
  by_contra hg
  rw [hmembers, Dict.get?_set, if_neg fun heq => hg (Prod.ext_iff.mp heq).1] at hm
  exact hinv.not_has hincident ⟨m, hm⟩

/-- The group of the incident has a new revision, every other is as it was. -/
theorem groups {G : IncidentGroup} (hG : s.groups.get? g = some G) :
    ∃ G', s'.groups.get? g = some G' ∧ G'.batchId = G.batchId ∧ G.revision ≤ G'.revision ∧
      G'.history = G.history ∧ (g = groupId → G.revision < G'.revision) := by
  obtain ⟨_, _, -, hgroups, -, hsource⟩ := hjoins.group
  rw [hgroups, Dict.get?_set]
  split_ifs with hg
  · rcases hsource with ⟨old, hold, -, rfl⟩ | ⟨hfresh, -⟩
    · rw [hg] at hG
      cases hG.symm.trans hold
      exact ⟨_, rfl, rfl, Nat.le_succ _, rfl, fun _ => Nat.lt_succ_self _⟩
    · rw [hg] at hG
      exact absurd (Dict.mem_keys_iff.mpr ⟨G, hG⟩) hfresh
  · exact ⟨G, hG, rfl, le_rfl, rfl, fun h => absurd h hg⟩

theorem excluded_iff : s'.Excluded id ↔ s.Excluded id := by
  constructor
  · rintro ⟨g, G, hG, event, hevent, hrest⟩
    obtain ⟨_, _, -, hgroups, -, hsource⟩ := hjoins.group
    rw [hgroups, Dict.get?_set] at hG
    split_ifs at hG with hg
    · cases hG
      rcases hsource with ⟨old, hold, -, rfl⟩ | ⟨-, hempty⟩
      · exact ⟨groupId, old, hold, event, hevent, hrest⟩
      · rw [hempty] at hevent
        cases hevent
    · exact ⟨g, G, hG, event, hevent, hrest⟩
  · rintro ⟨g, G, hG, event, hevent, hrest⟩
    obtain ⟨G', hG', -, -, hhist, -⟩ := hjoins.groups hG
    exact ⟨g, G', hG', event, by rw [hhist]; exact hevent, hrest⟩

theorem extends' (hinv : s.Inv) (hincident : incident.incidentId ∉ s.incidents.keys)
    (hexecution : execution.executionId ∉ s.executions.keys) : Extends s s' where
  groups g G hG := by
    obtain ⟨G', hG', hb, hr, hh, -⟩ := hjoins.groups hG
    exact ⟨G', hG', hb, hr, hh ▸ List.prefix_rfl⟩
  members g id m hm := by
    have hid : id ≠ incident.incidentId := by
      rintro rfl
      exact hinv.not_has hincident ⟨m, hm⟩
    exact ⟨m, by rw [hjoins.others hid]; exact hm, rfl⟩
  incidents id i hi :=
    ⟨i, by rw [hjoins.rest.1]; exact ResolutionDesk.get?_set_of_fresh hincident hi, rfl⟩
  executions id e he := by
    rw [hjoins.rest.2.1]
    exact ResolutionDesk.get?_set_of_fresh hexecution he

theorem batches (hinv : s.Inv) (hincident : incident.incidentId ∉ s.incidents.keys) (id : String)
    (g g' : String) (G G' : IncidentGroup) (hg : s'.Has g id) (hg' : s'.Has g' id)
    (hG : s'.groups.get? g = some G) (hG' : s'.groups.get? g' = some G') :
    G.batchId = G'.batchId := by
  by_cases hid : id = incident.incidentId
  · rw [hid] at hg hg'
    cases hjoins.only hinv hincident hg
    cases hjoins.only hinv hincident hg'
    rw [Option.mem_unique hG hG']
  · obtain ⟨m, hm⟩ := (hjoins.has_iff hid).mp hg
    obtain ⟨m', hm'⟩ := (hjoins.has_iff hid).mp hg'
    obtain ⟨G₁, hG₁⟩ := Dict.mem_keys_iff.mp (hinv.placed g id m hm).1
    obtain ⟨G₂, hG₂⟩ := Dict.mem_keys_iff.mp (hinv.placed g' id m' hm').1
    obtain ⟨_, hG₃, hb, -⟩ := hjoins.groups hG₁
    obtain ⟨_, hG₄, hb', -⟩ := hjoins.groups hG₂
    cases hG.symm.trans hG₃
    cases hG'.symm.trans hG₄
    rw [hb, hb']
    exact hinv.batches id g g' G₁ G₂ ⟨m, hm⟩ ⟨m', hm'⟩ hG₁ hG₂

theorem placed (hinv : s.Inv) (hincident : incident.incidentId ∉ s.incidents.keys) (g id : String)
    (m : GroupMember) (hm : s'.members.get? (g, id) = some m) :
    g ∈ s'.groups.keys ∧ id ∈ s'.incidents.keys ∧ m.executionId ∈ s'.executions.keys := by
  obtain ⟨_, _, -, hgroups, -⟩ := hjoins.group
  rw [hjoins.rest.1, hjoins.rest.2.1, hgroups]
  by_cases hid : id = incident.incidentId
  · obtain rfl : g = groupId := hjoins.only hinv hincident ⟨m, hid ▸ hm⟩
    obtain ⟨_, hadded⟩ := hjoins.added
    rw [hid, hadded] at hm
    cases hm
    exact ⟨Dict.mem_keys_set.mpr (.inl rfl), Dict.mem_keys_set.mpr (.inl hid),
      Dict.mem_keys_set.mpr (.inl rfl)⟩
  · rw [hjoins.others hid] at hm
    obtain ⟨hg, hi, he⟩ := hinv.placed g id m hm
    exact ⟨Dict.mem_keys_set.mpr (.inr hg), mem_withFailure_incidents hi,
      mem_withFailure_executions he⟩

/-- The new incident has a group and a signature. -/
theorem seen (hinv : s.Inv) (hexecution : execution.executionId ∉ s.executions.keys)
    (hincident : incident.incidentId ∉ s.incidents.keys)
    (horigin : incident.executionId = execution.executionId) (id : String) (i : CIIncident)
    (hi : s'.incidents.get? id = some i) : ∃ e, s'.executions.get? i.executionId = some e ∧
      ((signature e).payload.isSome = true ↔ ∃ g, s'.Has g id) := by
  rw [hjoins.rest.1] at hi
  rw [hjoins.rest.2.1]
  rcases withFailure_incidents hinv hi with ⟨-, ⟨rfl, rfl⟩ | hold⟩
  · obtain ⟨_, _, hpayload, -⟩ := hjoins.group
    refine ⟨execution, (Dict.get?_set _ _ _ _).trans (if_pos horigin), ?_⟩
    rw [hpayload]
    exact ⟨fun _ => ⟨groupId, hjoins.current.has⟩, fun _ => rfl⟩
  · have hid : id ≠ incident.incidentId := by
      rintro rfl
      exact hincident (Dict.mem_keys_iff.mpr ⟨i, hold⟩)
    obtain ⟨e, he, hseen⟩ := hinv.seen id i hold
    exact ⟨e, ResolutionDesk.get?_set_of_fresh hexecution he,
      hseen.trans (exists_congr fun g => (hjoins.has_iff hid).symm)⟩

theorem inv (hinv : s.Inv) (hincident : incident.incidentId ∉ s.incidents.keys)
    (hexecution : execution.executionId ∉ s.executions.keys)
    (horigin : incident.executionId = execution.executionId) : s'.Inv where
  incidentIds id i hi := by
    rw [hjoins.rest.1] at hi
    exact (withFailure_incidents hinv hi).1
  placed := hjoins.placed hinv hincident
  batches := hjoins.batches hinv hincident
  single id g g' hg hg' := by
    by_cases hid : id = incident.incidentId
    · rw [hid] at hg hg'
      rw [hjoins.only hinv hincident hg.has, hjoins.only hinv hincident hg'.has]
    · exact hinv.single id g g' ((hjoins.current_iff hid).mp hg) ((hjoins.current_iff hid).mp hg')
  kept id g hg := by
    by_cases hid : id = incident.incidentId
    · rw [hid]
      exact .inl ⟨groupId, hjoins.current⟩
    · rcases hinv.kept id g ((hjoins.has_iff hid).mp hg) with ⟨g', hcur⟩ | hgone
      · exact .inl ⟨g', (hjoins.current_iff hid).mpr hcur⟩
      · exact .inr (hjoins.excluded_iff.mpr hgone)
  gone id g hgone hcur := by
    have hgone' := hjoins.excluded_iff.mp hgone
    by_cases hid : id = incident.incidentId
    · exact hincident (hid ▸ hinv.named id hgone')
    · exact hinv.gone id g hgone' ((hjoins.current_iff hid).mp hcur)
  named id hgone := by
    rw [hjoins.rest.1]
    exact mem_withFailure_incidents (hinv.named id (hjoins.excluded_iff.mp hgone))
  seen := hjoins.seen hinv hexecution hincident horigin

theorem counts : Counts s s' := by
  rintro g G _ hG hG' ⟨_, hchanged⟩
  obtain ⟨_, hG₁, -, -, -, hmore⟩ := hjoins.groups hG
  cases hG'.symm.trans hG₁
  refine hmore ?_
  by_contra hg
  obtain ⟨_, hmembers⟩ := hjoins.member
  refine hchanged ?_
  rw [hmembers, Dict.get?_set, if_neg fun heq => hg (Prod.ext_iff.mp heq).1]
  rfl

end Joins

/-- Without a signature the incident is in no group. -/
theorem unsigned_keeps (hinv : s.Inv) (hincident : incident.incidentId ∉ s.incidents.keys)
    (hexecution : execution.executionId ∉ s.executions.keys)
    (horigin : incident.executionId = execution.executionId)
    (hpayload : (signature execution).payload = none) :
    Observed s (s.withFailure execution incident) where
  extends' := ⟨fun _ G h => ⟨G, h, rfl, le_rfl, List.prefix_rfl⟩, fun _ _ m h => ⟨m, h, rfl⟩,
    fun _ i hi => ⟨i, ResolutionDesk.get?_set_of_fresh hincident hi, rfl⟩,
    fun _ _ he => ResolutionDesk.get?_set_of_fresh hexecution he⟩
  inv := { hinv with
    incidentIds := fun _ _ hi => (withFailure_incidents hinv hi).1
    placed := fun g id m hm =>
      have ⟨hg, hi, he⟩ := hinv.placed g id m hm
      ⟨hg, mem_withFailure_incidents hi, mem_withFailure_executions he⟩
    named := fun id hid => mem_withFailure_incidents (hinv.named id hid)
    seen := by
      intro id i hi
      rcases withFailure_incidents hinv hi with ⟨-, ⟨rfl, rfl⟩ | hold⟩
      · refine ⟨execution, (Dict.get?_set _ _ _ _).trans (if_pos horigin), ?_⟩
        rw [hpayload]
        exact ⟨fun h => (nomatch h), fun ⟨_, hg⟩ => absurd hg (hinv.not_has hincident)⟩
      · obtain ⟨e, he, hseen⟩ := hinv.seen id i hold
        exact ⟨e, ResolutionDesk.get?_set_of_fresh hexecution he, hseen⟩ }
  counts := by
    rintro g G G' hG hG' ⟨id, hchanged⟩
    exact absurd rfl hchanged

/-- An observation puts its incident into one group, or into none without a signature. -/
theorem observed_keeps (batchId : String) (hinv : s.Inv)
    (hincident : incident.incidentId ∉ s.incidents.keys)
    (hexecution : execution.executionId ∉ s.executions.keys) (hnew : newId ∉ s.groups.keys)
    (horigin : incident.executionId = execution.executionId) : Observed s
      ((s.withFailure execution incident).observe batchId execution incident newId) := by
  rcases observe_cases (s := s.withFailure execution incident) batchId execution incident hnew with
    ⟨hpayload, hsame⟩ | ⟨_, hjoins⟩
  · rw [hsame]
    exact unsigned_keeps hinv hincident hexecution horigin hpayload
  · exact ⟨hjoins.extends' hinv hincident hexecution,
      hjoins.inv hinv hincident hexecution horigin, hjoins.counts⟩

end

/-! ## Runs -/

theorem Inv.tick {elapsed : ℕ} (h : s.Inv) : Inv { s with now := s.now + elapsed } :=
  ⟨h.incidentIds, h.placed, h.batches, h.single, h.kept, h.gone, h.named, h.seen⟩

/-- Every action keeps the desk in order, and its histories. -/
theorem step_keeps {a : GroupingAction} (h : step s a = some s') (hinv : s.Inv) :
    Extends s s' ∧ s'.Inv ∧ Counts s s' := by
  have hstay : Extends s s ∧ s.Inv ∧ Counts s s :=
    ⟨.refl s, hinv, fun g G G' _ _ hchanged => absurd rfl hchanged.choose_spec⟩
  cases a with
  | observed batchId =>
    rw [step] at h
    split at h
    · rename_i hnew
      cases h
      obtain ⟨hext, hinv', hcounts⟩ :=
        observed_keeps batchId hinv hnew.1 hnew.2.1 hnew.2.2.1 hnew.2.2.2
      exact ⟨hext, hinv', hcounts⟩
    · cases h
  | decided =>
    rw [step] at h
    split at h
    · rename_i hnew
      split at h
      · rename_i found result hdecide
        cases h
        obtain ⟨_, -, ⟨rfl, -⟩ | hdecides⟩ := decideGroup_cases hdecide
        · exact hstay
        · exact ⟨hdecides.extends hinv hnew, hdecides.inv hinv hnew, hdecides.counts hinv hnew⟩
      · cases h
        exact hstay
    · cases h
  | statusChanged incidentId status =>
    rw [step] at h
    split at h
    · rename_i incident hincident
      cases h
      have hget : ∀ id i, (s.incidents.set incidentId { incident with status }).get? id = some i →
          ∃ j, s.incidents.get? id = some j ∧ i.incidentId = j.incidentId ∧
            i.executionId = j.executionId := by
        intro id i hi
        rcases Dict.get?_set_cases hi with ⟨hid, rfl⟩ | ⟨-, hi⟩
        · exact ⟨incident, by rw [hid]; exact hincident, rfl, rfl⟩
        · exact ⟨i, hi, rfl, rfl⟩
      refine ⟨⟨fun _ G h => ⟨G, h, rfl, le_rfl, List.prefix_rfl⟩, fun _ _ m h => ⟨m, h, rfl⟩, ?_,
        fun _ _ h => h⟩, ⟨?_, ?_, hinv.batches, hinv.single, hinv.kept, hinv.gone,
        fun id hid => Dict.mem_keys_set.mpr (.inr (hinv.named id hid)), ?_⟩,
        fun g G G' _ _ hchanged => absurd rfl hchanged.choose_spec⟩
      · intro id i hi
        rw [Dict.get?_set]
        split_ifs with hid
        · rw [hid, hincident] at hi
          cases hi
          exact ⟨_, rfl, rfl⟩
        · exact ⟨i, hi, rfl⟩
      · intro id i hi
        obtain ⟨j, hj, hsame, -⟩ := hget id i hi
        exact hsame.trans (hinv.incidentIds id j hj)
      · intro g id m hm
        obtain ⟨hg, hi, he⟩ := hinv.placed g id m hm
        exact ⟨hg, Dict.mem_keys_set.mpr (.inr hi), he⟩
      · intro id i hi
        obtain ⟨j, hj, -, hexec⟩ := hget id i hi
        rw [hexec]
        exact hinv.seen id j hj
    · cases h
  | tick =>
    cases h
    exact ⟨⟨hstay.1.groups, hstay.1.members, hstay.1.incidents, hstay.1.executions⟩, hinv.tick,
      hstay.2.2⟩

theorem run_keeps {acts : List GroupingAction} (hinv : s.Inv)
    (h : Trace.run step s acts = some t) : t.Inv ∧ Extends s t :=
  Trace.run_invariant (P := fun u => u.Inv ∧ Extends s u)
    (fun _ _ _ hstep hu => ⟨(step_keeps hstep hu.1).2.1, hu.2.trans (step_keeps hstep hu.1).1⟩) h
    ⟨hinv, .refl s⟩

/-- A decision that is asked again gets its answer, and changes nothing. -/
theorem decideGroup_replay {later : String} {manager : Bool}
    (h : s.decideGroup principal batchId groupId manager body newId = .ok (s', result))
    (hinv : s.Inv) (hnew : newId ∉ s.groups.keys) (hext : Extends s' t) :
    t.decideGroup principal batchId groupId manager body later = .ok (t, result) := by
  obtain ⟨group, hgroup, hcases⟩ := decideGroup_cases h
  obtain ⟨hfound, hbatch, hallowed⟩ := getGroup_ok hgroup
  -- The event that answers the request is in the group's history now.
  have hevent : Extends s s' ∧ ∃ G event, s'.groups.get? groupId = some G ∧
      G.batchId = batchId ∧ G.history.find? (·.requestId = body.requestId) = some event ∧
      event.digest = body.digest ∧ event.actorUserId = principal.userId ∧
      event.result = result := by
    rcases hcases with ⟨rfl, event, hfind, hrest⟩ | hdecides
    · exact ⟨.refl _, group, event, hfound, hbatch, hfind, hrest⟩
    · obtain ⟨⟨G, hG, hbatch', -, hhist⟩, -, -, -⟩ := hdecides.groups hnew
      refine ⟨hdecides.extends hinv hnew, G, s.decisionEvent principal groupId group body newId, hG,
        hbatch'.trans hbatch, ?_, rfl, rfl, hdecides.result.symm⟩
      rw [hhist, List.find?_append, hdecides.unasked, Option.none_or, List.find?_cons_of_pos]
      exact decide_eq_true rfl
  obtain ⟨hmove, G, event, hG, hbatch', hfind, hdigest, hactor, hresult⟩ := hevent
  obtain ⟨G', hG', hbatch'', -, ⟨_, hmore⟩⟩ := hext.groups groupId G hG
  have hagain : t.getGroup principal batchId groupId manager = .ok G' := by
    unfold getGroup
    rw [hG']
    refine if_pos ⟨hbatch''.trans hbatch', hallowed.imp_right ?_⟩
    rintro ⟨m, hm, hmine⟩
    obtain ⟨id, hmem, hinc, hexe⟩ := mem_membersOf hm
    obtain ⟨_, hm', hsame⟩ := (hmove.trans hext).members groupId id _ hmem
    obtain ⟨j, hj, howner⟩ := (hmove.trans hext).incidents id _ hinc
    have he := (hmove.trans hext).executions _ _ hexe
    rw [← hsame] at he
    exact ⟨_, mem_membersOf_of hm' hj he, howner.trans hmine⟩
  have hfind' : G'.history.find? (·.requestId = body.requestId) = some event := by
    rw [← hmore, List.find?_append, hfind, Option.some_or]
  unfold decideGroup
  rw [hagain, ok_bind]
  simp only [hfind']
  rw [raiseIf_of_not, ok_bind]
  · rw [hresult]
    rfl
  · push Not
    exact ⟨hdigest, hactor⟩

/-! ## The promises of the groups -/

/-- The memberships of the observed failures: never two current ones, exactly one for a failure
with a signature that no EXCLUDE decision has named, none at all for a failure without a signature,
and all in groups of one batch. -/
def OneGroup (s : GroupingDesk) : Prop :=
  ∀ id i e, s.incidents.get? id = some i → s.executions.get? i.executionId = some e →
    (∀ g g', s.Current g id → s.Current g' id → g = g') ∧
    ((signature e).payload.isSome = true → ((∃ g, s.Current g id) ↔ ¬ s.Excluded id)) ∧
    ((signature e).payload = none → ∀ g, ¬ s.Has g id) ∧
    ∀ g g' G G', s.Has g id → s.Has g' id → s.groups.get? g = some G →
      s.groups.get? g' = some G' → G.batchId = G'.batchId

theorem Inv.oneGroup (hinv : s.Inv) : s.OneGroup := by
  intro id i e hi he
  obtain ⟨_, he', hseen⟩ := hinv.seen id i hi
  cases he.symm.trans he'
  refine ⟨hinv.single id, fun hpayload => ⟨?_, fun hnot => ?_⟩, fun hnone g hg => ?_,
    hinv.batches id⟩
  · rintro ⟨g, hcur⟩ hgone
    exact hinv.gone id g hgone hcur
  · obtain ⟨g, hg⟩ := hseen.mp hpayload
    exact (hinv.kept id g hg).resolve_right hnot
  · have hsome := hseen.mpr ⟨g, hg⟩
    rw [hnone] at hsome
    cases hsome

/-- An answered decision, asked again in any later state, changes nothing. -/
def Replayable (s : GroupingDesk) : Prop :=
  ∀ principal batchId groupId manager body newId s' result, newId ∉ s.groups.keys →
    s.decideGroup principal batchId groupId manager body newId = .ok (s', result) →
    ∀ acts t, Trace.run step s' acts = some t → ∀ later,
      t.decideGroup principal batchId groupId manager body later = .ok (t, result)

/-- What a user who is no manager reads of any group is about the user's own failures. -/
def Private (s : GroupingDesk) : Prop :=
  ∀ principal groupId group p, s.payload principal groupId group false = .ok p →
    s.OwnOnly principal groupId p

/-- Empty tables at some time. -/
def opening (now : ℤ) : GroupingDesk := ⟨.empty, .empty, .empty, .empty, now⟩

theorem inv_opening (now : ℤ) : (opening now).Inv := by
  have hnone : ∀ id, ¬ (opening now).Excluded id := by
    rintro id ⟨g, G, hG, -⟩
    cases hG
  exact ⟨fun _ _ h => (nomatch h), fun _ _ _ h => (nomatch h), fun _ _ _ _ _ ⟨_, h⟩ => (nomatch h),
    fun _ _ _ ⟨_, h, _⟩ => (nomatch h), fun _ _ ⟨_, h⟩ => (nomatch h),
    fun id _ h => absurd h (hnone id), fun id h => absurd h (hnone id), fun _ _ h => (nomatch h)⟩

/-- In every run each failure has one group, a group's revision grows with its memberships, an
answered decision is not taken twice, and owners only read about their own failures. -/
theorem grouping_sound {now : ℤ} {acts : List GroupingAction}
    (hrun : Trace.run step (opening now) acts = some s) :
    s.OneGroup ∧ (∀ a s', step s a = some s' → Counts s s' ∧ Extends s s') ∧ s.Replayable ∧
      s.Private := by
  obtain ⟨hinv, -⟩ := run_keeps (inv_opening now) hrun
  refine ⟨hinv.oneGroup, fun a s' hstep => ?_, ?_, fun _ _ _ _ hp => payload_own hp⟩
  · obtain ⟨hext, -, hcounts⟩ := step_keeps hstep hinv
    exact ⟨hcounts, hext⟩
  · intro _ _ _ _ _ _ s' _ hnew hdecide _ t hlater _
    have hinv' : s'.Inv := by
      obtain ⟨_, -, ⟨rfl, -⟩ | hdecides⟩ := decideGroup_cases hdecide
      · exact hinv
      · exact hdecides.inv hinv hnew
    exact decideGroup_replay hdecide hinv hnew (run_keeps hinv' hlater).2

/-! ## Samples -/

/-- A failure with a signature joins the group of its signature, or opens it. -/
theorem step_signed {execution : CIExecution} {incident : CIIncident} {payload : Json}
    {refs : List EvidenceRef} {target : String × IncidentGroup}
    (hfresh : incident.incidentId ∉ s.incidents.keys ∧ execution.executionId ∉ s.executions.keys ∧
      newId ∉ s.groups.keys ∧ incident.executionId = execution.executionId)
    (hsignature : signature execution = ⟨some payload, none, refs⟩)
    (htarget : (s.autoGroup batchId (sha256Digest payload) = none ∧
        target = (newId, ⟨batchId, groupingRule, sha256Digest payload, payload, .auto, 1, s.now, []⟩)) ∨
      ∃ id group, s.autoGroup batchId (sha256Digest payload) = some (id, group) ∧
        target = (id, { group with revision := group.revision + 1 })) :
    s.step (.observed batchId execution incident newId) = some {
      groups := s.groups.set target.1 target.2
      members := s.members.set (target.1, incident.incidentId)
        ⟨execution.executionId, refs, .candidate, s.now, none, none⟩
      incidents := s.incidents.set incident.incidentId incident
      executions := s.executions.set execution.executionId execution
      now := s.now } := by
  unfold step
  dsimp only
  rw [if_pos hfresh]
  unfold observe
  rw [hsignature]
  dsimp only
  rcases htarget with ⟨hauto, rfl⟩ | ⟨id, group, hauto, rfl⟩
  all_goals
    rw [show (s.withFailure execution incident).autoGroup batchId (sha256Digest payload) =
      s.autoGroup batchId (sha256Digest payload) from rfl, hauto]
    rfl

/-- A nightly case of an environment, with what its evidence shows. -/
def sampleExecution (executionId environmentId : String) (manifest : List EvidenceEntry) :
    CIExecution where
  executionId
  instanceId := "instance"
  requestId := "nightly-original"
  environmentId
  caseId := "case-report-compare"
  featureId := "feature-report-fields"
  stateRevision := 1
  result := {
    startedAt := 0
    completedAt := 0
    outcome := .fail
    executionSnapshot := {
      environment :=
        ⟨environmentId, "192.0.2.21", "product-2.0", "parser-1.0", "decoder-1.0", 1, 1, none, none⟩
      testCase := {
        caseId := "case-report-compare", featureId := "feature-report-fields"
        requiredFieldRevision := 2, inputRevision := 2, goldenId := "golden-report"
        goldenVersion := "2", comparisonRuleId := "semantic-fields-equal/1"
        caseId_text := reportCompare_text }
      report := ⟨"report-input", 2, true⟩
      diagnosticsComplete := true }
    summary := .null
    evidenceManifest := manifest
    evidenceDigest := manifestDigestOf manifest }

def sampleFailure (incidentId executionId ownerUserId : String) : CIIncident :=
  ⟨incidentId, executionId, "tenant", ownerUserId, "夜间 CI 失败 · case-report-compare", 0, .opened⟩

/-- The parser does not support the revision of the report. -/
def sampleContent (executionId : String) (fields : List (String × Json)) : Json :=
  .obj (("execution_id", .str executionId) :: ("call_id", .str "call") ::
    ("artifact_id", .str "report") :: fields)

def sampleTools : List (String × Json) :=
  [("parser_version", .str "parser-1.0"), ("decoder_table_version", .str "decoder-1.0"),
    ("parser_supported_field_revision", .int 1), ("decoder_supported_field_revision", .int 1)]

def sampleError : Json := .str "UNSUPPORTED_FIELD_REVISION"

def sampleEntry (executionId kind : String) (fields : List (String × Json)) : EvidenceEntry where
  evidenceId := kind
  executionId
  kind
  capturedAt := "1970-01-01T00:00:00+00:00"
  availability := "AVAILABLE"
  mediaType := "application/json"
  digest := some (sha256Digest (sampleContent executionId fields))
  content := some (sampleContent executionId fields)
  missingReason := none

def sampleManifest (executionId : String) : List EvidenceEntry :=
  [sampleEntry executionId "PARSER_LOG" (sampleTools ++ [("field_revision", .int 2),
      ("status", .str "EXECUTED"), ("skipped_reason", .null), ("error", sampleError)]),
    sampleEntry executionId "ENVIRONMENT_RECORD"
      (sampleTools ++ [("software_version", .str "product-2.0")]),
    sampleEntry executionId "CASE_REQUIREMENTS" [("required_field_revision", .int 2),
      ("feature_id", .str "feature-report-fields"),
      ("comparison_rule_id", .str "semantic-fields-equal/1")],
    sampleEntry executionId "COMPARISON_LOG" [("caller", .str "COMPARE"),
      ("callee", .str "PARSER"), ("error", .str "PARSE_RESULT_EMPTY"), ("skipped_reason", .null)],
    sampleEntry executionId "CI_SUMMARY" [("stages", .arr [.obj [("stage", .str "PARSER"),
      ("status", .str "EXECUTED"), ("error", sampleError)]])]]

def sampleSignature : Json :=
  .obj ([("rule_version", .str groupingRule), ("software_version", .str "product-2.0"),
    ("feature_id", .str "feature-report-fields"),
    ("comparison_rule_id", .str "semantic-fields-equal/1"), ("field_revision", .int 2),
    ("required_field_revision", .int 2)] ++ sampleTools ++ [("stage", .str "PARSER"),
    ("error", sampleError), ("caller", .str "COMPARE"), ("callee", .str "PARSER")])

theorem signature_sampleManifest (executionId environmentId : String) :
    signature (sampleExecution executionId environmentId (sampleManifest executionId)) =
      ⟨some sampleSignature, none, (sampleManifest executionId).map fun entry =>
        ⟨entry.evidenceId, sha256Digest (entry.content.getD .null), entry.kind⟩⟩ := by
  have hcontent : ∀ kind fields, (sampleManifest executionId).reverse.find? (·.kind = kind) =
      some (sampleEntry executionId kind fields) →
      requiredContent (sampleExecution executionId environmentId (sampleManifest executionId)) kind =
        some (sampleContent executionId fields,
          ⟨kind, sha256Digest (sampleContent executionId fields), kind⟩) := by
    intro kind fields hfind
    unfold requiredContent
    rw [show (sampleExecution executionId environmentId
      (sampleManifest executionId)).result.evidenceManifest = sampleManifest executionId from rfl,
      hfind]
    exact if_pos ⟨rfl, rfl, by simp [Json.same, Json.getField, sampleExecution]⟩
  have hdigest : manifestDigestOf
      (sampleExecution executionId environmentId (sampleManifest executionId)).result.evidenceManifest =
        (sampleExecution executionId environmentId (sampleManifest executionId)).result.evidenceDigest :=
    rfl
  unfold signature
  rw [if_neg (not_not.mpr hdigest), hcontent "PARSER_LOG" _ rfl, hcontent "ENVIRONMENT_RECORD" _ rfl,
    hcontent "CASE_REQUIREMENTS" _ rfl, hcontent "COMPARISON_LOG" _ rfl,
    hcontent "CI_SUMMARY" _ rfl]
  rfl

/-- Two failures with one signature; a manager takes the second one out of their group. -/
def sampleExclude : GroupingAction :=
  .decided ⟨"tenant", "manager", true⟩ "batch" "G" true {
    requestId := "request"
    expectedGroupRevision := 2
    kind := .exclude
    incidentIds := ["I2"]
    reason := "unrelated"
    incidentIds_nodup := by decide
    incidentIds_ne := by decide } "H"

def sampleRun : List GroupingAction :=
  [.observed "batch" (sampleExecution "E1" "env-parser-a" (sampleManifest "E1"))
      (sampleFailure "I1" "E1" "owner") "G",
    .observed "batch" (sampleExecution "E2" "env-parser-b" (sampleManifest "E2"))
      (sampleFailure "I2" "E2" "other") "H", sampleExclude]

def sampleGroup (revision : ℕ) : IncidentGroup :=
  ⟨"batch", groupingRule, sha256Digest sampleSignature, sampleSignature, .auto, revision, 0, []⟩

def sampleMember (executionId : String) : GroupMember :=
  ⟨executionId, (sampleManifest executionId).map fun entry =>
    ⟨entry.evidenceId, sha256Digest (entry.content.getD .null), entry.kind⟩, .candidate, 0, none, none⟩

/-- The first failure in the group of its signature. -/
def sampleDesk : GroupingDesk where
  groups := Dict.empty.set "G" (sampleGroup 1)
  members := Dict.empty.set ("G", "I1") (sampleMember "E1")
  incidents := Dict.empty.set "I1" (sampleFailure "I1" "E1" "owner")
  executions := Dict.empty.set "E1" (sampleExecution "E1" "env-parser-a" (sampleManifest "E1"))
  now := 0

/-- Both failures. -/
def sampleGrouped : GroupingDesk where
  groups := sampleDesk.groups.set "G" (sampleGroup 2)
  members := sampleDesk.members.set ("G", "I2") (sampleMember "E2")
  incidents := sampleDesk.incidents.set "I2" (sampleFailure "I2" "E2" "other")
  executions := sampleDesk.executions.set "E2"
    (sampleExecution "E2" "env-parser-b" (sampleManifest "E2"))
  now := 0

theorem sampleRun_grouped : ∃ s, Trace.run step (opening 0) sampleRun = some s ∧
    s.Current "G" "I1" ∧ s.Excluded "I2" := by
  have hfirst : step (opening 0) (.observed "batch"
      (sampleExecution "E1" "env-parser-a" (sampleManifest "E1"))
      (sampleFailure "I1" "E1" "owner") "G") = some sampleDesk :=
    step_signed (by decide) (signature_sampleManifest _ _) (.inl ⟨rfl, rfl⟩)
  have hauto : sampleDesk.autoGroup "batch" (sha256Digest sampleSignature) =
      some ("G", sampleGroup 1) := List.find?_cons_of_pos (decide_eq_true ⟨rfl, rfl, rfl, rfl⟩)
  have hsecond : step sampleDesk (.observed "batch"
      (sampleExecution "E2" "env-parser-b" (sampleManifest "E2"))
      (sampleFailure "I2" "E2" "other") "H") = some sampleGrouped :=
    step_signed (by decide) (signature_sampleManifest _ _) (.inr ⟨_, _, hauto, rfl⟩)
  have hthird : (step sampleGrouped sampleExclude).any (fun s =>
      (s.members.get? ("G", "I1")).any (·.decision = .candidate) ∧
      (s.groups.get? "G").any fun g => g.history.any fun event =>
        event.kind = .exclude ∧ "I2" ∈ event.incidentIds) = true := by
    decide +kernel
  obtain ⟨s, hs, hmember, hgroup⟩ := exists_of_any hthird
  obtain ⟨member, hget, hcandidate⟩ := (Option.any_eq_true _ _).mp hmember
  obtain ⟨group, hfound, hevents⟩ := (Option.any_eq_true _ _).mp hgroup
  obtain ⟨event, hevent, hexcludes⟩ := List.any_eq_true.mp hevents
  refine ⟨s, ?_, ⟨member, hget, ?_⟩, "G", group, hfound, event, hevent, of_decide_eq_true hexcludes⟩
  · exact Trace.run_cons.mpr ⟨_, hfirst, Trace.run_cons.mpr ⟨_, hsecond,
      Trace.run_cons.mpr ⟨s, hs, rfl⟩⟩⟩
  · rw [of_decide_eq_true hcandidate]
    exact nofun

theorem grouping_sound_sampleRun :
    ∃ s, Trace.run step (opening 0) sampleRun = some s ∧ s.Current "G" "I1" ∧ s.Excluded "I2" ∧
      s.OneGroup ∧ s.Replayable ∧ s.Private := by
  obtain ⟨s, hs, hcurrent, hexcluded⟩ := sampleRun_grouped
  obtain ⟨hone, -, hreplay, hprivate⟩ := grouping_sound hs
  exact ⟨s, hs, hcurrent, hexcluded, hone, hreplay, hprivate⟩

/-- A failure whose evidence was lost. -/
def unsignedRun : List GroupingAction :=
  [.observed "batch" (sampleExecution "E" "env-parser-a" []) (sampleFailure "I" "E" "owner") "G"]

/-- A failure without a signature has been observed, no decision has excluded it, and it has no
membership. -/
theorem unsigned_ungrouped : ∃ s i, Trace.run step (opening 0) unsignedRun = some s ∧
    s.incidents.get? "I" = some i ∧ ¬ s.Excluded "I" ∧ ¬ ∃ g, s.Current g "I" := by
  obtain ⟨s, hs, hempty⟩ : ∃ s, Trace.run step (opening 0) unsignedRun = some s ∧
      (s.members.entries.isEmpty && s.groups.entries.isEmpty &&
        (s.incidents.get? "I").isSome) = true :=
    (Option.any_eq_true _ _).mp (by decide +kernel)
  simp only [Bool.and_eq_true, List.isEmpty_iff] at hempty
  obtain ⟨⟨hmembers, hgroups⟩, hincident⟩ := hempty
  obtain ⟨i, hi⟩ := Option.isSome_iff_exists.mp hincident
  refine ⟨s, i, hs, hi, ?_, ?_⟩
  · rintro ⟨g, G, hG, -⟩
    have hmem := Dict.get?_eq_some_iff.mp hG
    rw [hgroups] at hmem
    cases hmem
  · rintro ⟨g, m, hm, -⟩
    have hmem := Dict.get?_eq_some_iff.mp hm
    rw [hmembers] at hmem
    cases hmem

end GroupingDesk

end LocalAgent.Runtime
