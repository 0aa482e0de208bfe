import LocalAgent.Runtime.PlanGraph
import Mathlib.Data.Finset.Card

/-!
# LocalAgent.Runtime.PlanOrder — correctness of the plan graph

The references of an accepted plan are sound (`addSteps_spec`), and Kahn's loop keeps the invariant
`KahnInv`: in-degrees count the dependencies that are not in the result yet, the heap holds exactly
the steps that have none left, and the result is in dependency order.  `validate_spec` puts the two
together, and `validate_acyclic` says what it means for the plan.
-/

namespace LocalAgent.Runtime

namespace PlanGraphValidator

/-! ## References -/

/-- The edges that one step adds. -/
theorem addDependencies_spec {plan : Plan} {index : Dict String ℕ} {stepId : String}
    {rest seen : List String} {dependents result : Dict String (List String)}
    (h : addDependencies plan index stepId seen rest dependents = .ok result) :
    rest.Nodup ∧ (∀ u ∈ rest, u ∉ seen ∧ u ∈ index.keys ∧ u ≠ stepId) ∧
      ∀ u, (result.get? u).getD [] =
        if u ∈ rest then (dependents.get? u).getD [] ++ [stepId] else (dependents.get? u).getD [] := by
  induction rest generalizing seen dependents with
  | nil =>
    obtain rfl : dependents = result := by simpa [addDependencies] using h
    simp
  | cons a rest ih =>
    simp only [addDependencies, seq_eq_ok, raiseIf_ok, not_not] at h
    obtain ⟨hindex, hself, hseen, hrec⟩ := h
    obtain ⟨hnd, hsound, hget⟩ := ih hrec
    have ha : a ∉ rest := fun hm => (hsound a hm).1 List.mem_cons_self
    refine ⟨List.nodup_cons.mpr ⟨ha, hnd⟩, ?_, ?_⟩
    · intro u hu
      rcases List.mem_cons.mp hu with rfl | hu
      · exact ⟨hseen, hindex, hself⟩
      · obtain ⟨h1, h2, h3⟩ := hsound u hu
        exact ⟨fun hm => h1 (List.mem_cons_of_mem a hm), h2, h3⟩
    · intro u
      rw [hget u]
      by_cases hu : u = a
      · subst hu
        simp [ha]
      · simp [hu]

/-- The edges that the steps of a plan add, with the dependents that are their converse. -/
theorem addSteps_spec {plan : Plan} {index : Dict String ℕ} {steps : List PlanStep}
    {dependencies dependents : Dict String (List String)}
    {result : Dict String (List String) × Dict String (List String)}
    (hnd : (steps.map PlanStep.stepId).Nodup)
    (h : addSteps plan index steps dependencies dependents = .ok result) :
    (∀ id ∉ steps.map PlanStep.stepId, result.1.get? id = dependencies.get? id) ∧
    (∀ step ∈ steps, result.1.get? step.stepId = some step.dependsOn ∧ step.dependsOn.Nodup ∧
      ∀ u ∈ step.dependsOn, u ∈ index.keys ∧ u ≠ step.stepId) ∧
    (∀ u v, v ∈ (result.2.get? u).getD [] ↔
      v ∈ (dependents.get? u).getD [] ∨ ∃ step ∈ steps, step.stepId = v ∧ u ∈ step.dependsOn) ∧
    (∀ u, ((dependents.get? u).getD []).Nodup →
      (∀ v ∈ (dependents.get? u).getD [], v ∉ steps.map PlanStep.stepId) →
      ((result.2.get? u).getD []).Nodup) := by
  induction steps generalizing dependencies dependents with
  | nil =>
    obtain rfl : (dependencies, dependents) = result := by simpa [addSteps] using h
    simp
  | cons step _ ih =>
    simp only [addSteps, bind_eq_ok] at h
    obtain ⟨_, hadd, hrec⟩ := h
    obtain ⟨hdnd, hsound, hget⟩ := addDependencies_spec hadd
    rw [List.map_cons, List.nodup_cons] at hnd
    obtain ⟨hother, hown, hconv, hnodup⟩ := ih hnd.2 hrec
    refine ⟨?_, ?_, ?_, ?_⟩
    · intro id hid
      rw [List.map_cons, List.mem_cons, not_or] at hid
      rw [hother id hid.2, Dict.get?_set, if_neg hid.1]
    · intro s hs
      rcases List.mem_cons.mp hs with rfl | hs
      · refine ⟨?_, hdnd, fun u hu => (hsound u hu).2⟩
        rw [hother _ hnd.1, Dict.get?_set, if_pos rfl]
      · exact hown s hs
    · intro u v
      rw [hconv u v, hget u]
      by_cases hu : u ∈ step.dependsOn
      · simp only [hu, if_true, List.mem_append, List.mem_singleton, List.exists_mem_cons_iff,
          and_true]
        rw [or_assoc, @eq_comm _ v]
      · simp [hu]
    · intro u hndu hfresh
      refine hnodup u ?_ ?_
      · rw [hget u]
        split_ifs
        · refine List.Nodup.append hndu (List.nodup_singleton _) ?_
          intro x hx hx'
          rw [List.mem_singleton] at hx'
          subst hx'
          exact hfresh _ hx (by simp)
        · exact hndu
      · intro v hv
        rw [hget u] at hv
        split_ifs at hv
        · rcases List.mem_append.mp hv with hv | hv
          · exact fun hm => hfresh v hv (List.mem_cons_of_mem _ hm)
          · rw [List.mem_singleton] at hv
            subst hv
            exact hnd.1
        · exact fun hm => hfresh v hv (List.mem_cons_of_mem _ hm)

/-! ## The heap and the inner loop -/

variable {e : ℕ × String}

theorem foldl_least_mem {es : List (ℕ × String)} :
    es.foldl (fun m x => if heapLe m x then m else x) e ∈ e :: es := by
  induction es generalizing e with
  | nil => simp
  | cons a _ ih =>
    rw [List.foldl_cons]
    rcases List.mem_cons.mp (ih (e := if heapLe e a then e else a)) with h | h
    · rw [h]
      split_ifs <;> simp
    · exact List.mem_cons_of_mem _ (List.mem_cons_of_mem _ h)

theorem heappop_eq_some {heap rest : List (ℕ × String)}
    (h : heappop heap = some (e, rest)) : e ∈ heap ∧ rest = heap.erase e := by
  cases heap with
  | nil => cases h
  | cons =>
    simp only [heappop, Option.some.injEq, Prod.mk.injEq] at h
    obtain ⟨rfl, rfl⟩ := h
    exact ⟨foldl_least_mem, rfl⟩

theorem heappop_eq_none {heap : List (ℕ × String)} (h : heappop heap = none) : heap = [] := by
  cases heap with
  | nil => rfl
  | cons => cases h

/-- The inner loop in closed form: every listed step loses one edge, and those that had exactly one
are pushed. -/
theorem foldl_relax (index : Dict String ℕ) {vs : List String} (hnd : vs.Nodup) (k : Kahn) :
    (vs.foldl (relax index) k).result = k.result ∧
    (∀ v, ((vs.foldl (relax index) k).indegree.get? v).getD 0 =
      if v ∈ vs then (k.indegree.get? v).getD 0 - 1 else (k.indegree.get? v).getD 0) ∧
    (vs.foldl (relax index) k).ready.map Prod.snd =
      k.ready.map Prod.snd ++ vs.filter fun v => (k.indegree.get? v).getD 0 - 1 = 0 := by
  induction vs generalizing k with
  | nil => simp
  | cons a vs ih =>
    rw [List.nodup_cons] at hnd
    obtain ⟨hres, hdeg, hready⟩ := ih hnd.2 (relax index k a)
    have hdeg' : ∀ v, ((relax index k a).indegree.get? v).getD 0 =
        if v = a then (k.indegree.get? a).getD 0 - 1 else (k.indegree.get? v).getD 0 := by
      intro v
      by_cases hv : v = a <;> simp [relax, hv]
    rw [List.foldl_cons]
    refine ⟨hres, fun v => ?_, ?_⟩
    · rw [hdeg v, hdeg' v]
      by_cases hv : v = a
      · subst hv
        simp [hnd.1]
      · simp [hv]
    · have hfilter : (vs.filter fun v => ((relax index k a).indegree.get? v).getD 0 - 1 = 0) =
          vs.filter fun v => (k.indegree.get? v).getD 0 - 1 = 0 := by
        refine List.filter_congr fun v hv => ?_
        rw [hdeg' v, if_neg fun h : v = a => hnd.1 (h ▸ hv)]
      rw [hready, hfilter]
      by_cases hz : (k.indegree.get? a).getD 0 - 1 = 0
      all_goals simp [relax, hz]

/-! ## The loop -/

section Loop

variable {ids : List String} {dependencies dependents : Dict String (List String)}
  {index : Dict String ℕ}

def depsOf (dependencies : Dict String (List String)) (id : String) : List String :=
  (dependencies.get? id).getD []

/-- Sound references: unique ids, dependencies inside the plan and without repetition, `dependents`
the converse of `dependencies`. -/
structure Sound (ids : List String) (dependencies dependents : Dict String (List String)) :
    Prop where
  ids_nodup : ids.Nodup
  deps_nodup : ∀ v ∈ ids, (depsOf dependencies v).Nodup
  deps_mem : ∀ v ∈ ids, ∀ u ∈ depsOf dependencies v, u ∈ ids
  dependents_nodup : ∀ u ∈ ids, ((dependents.get? u).getD []).Nodup
  converse : ∀ u ∈ ids, ∀ v,
    v ∈ (dependents.get? u).getD [] ↔ v ∈ ids ∧ u ∈ depsOf dependencies v

/-- How many dependencies of `v` are not in the result yet. -/
def openDeps (dependencies : Dict String (List String)) (result : List String) (v : String) : ℕ :=
  ((depsOf dependencies v).filter fun u => u ∉ result).length

/-- The invariant of `while ready`. -/
structure KahnInv (ids : List String) (dependencies : Dict String (List String)) (k : Kahn) :
    Prop where
  nodup : (k.result ++ k.ready.map Prod.snd).Nodup
  subset : ∀ v ∈ k.result ++ k.ready.map Prod.snd, v ∈ ids
  indegree : ∀ v ∈ ids, (k.indegree.get? v).getD 0 = openDeps dependencies k.result v
  queued : ∀ v ∈ ids, openDeps dependencies k.result v = 0 → v ∈ k.result ++ k.ready.map Prod.snd
  ready : ∀ v ∈ k.ready.map Prod.snd, openDeps dependencies k.result v = 0
  order : ReadyOrder (depsOf dependencies) [] k.result

variable {result : List String} {k : Kahn}

theorem openDeps_eq_zero {v : String} :
    openDeps dependencies result v = 0 ↔ ∀ u ∈ depsOf dependencies v, u ∈ result := by
  simp [openDeps, List.filter_eq_nil_iff]

/-- An emitted step closes exactly the dependencies on it. -/
theorem openDeps_append {u v : String} (hnd : (depsOf dependencies v).Nodup) (hu : u ∉ result) :
    (openDeps dependencies (result ++ [u]) v : ℤ) =
      if u ∈ depsOf dependencies v then (openDeps dependencies result v : ℤ) - 1
      else openDeps dependencies result v := by
  have hfilter : ((depsOf dependencies v).filter fun w => w ∉ result ++ [u]) =
      ((depsOf dependencies v).filter fun w => w ∉ result).filter fun w => w ≠ u := by
    rw [List.filter_filter]
    refine List.filter_congr fun w _ => ?_
    by_cases hw : w = u <;> simp [hw]
  have herase : (((depsOf dependencies v).filter fun w => w ∉ result).filter fun w => w ≠ u) =
      ((depsOf dependencies v).filter fun w => w ∉ result).erase u := by
    rw [List.Nodup.erase_eq_filter (hnd.filter _)]
    simp [bne, BEq.beq]
  unfold openDeps
  rw [hfilter, herase, List.length_erase]
  have hmem : u ∈ ((depsOf dependencies v).filter fun w => w ∉ result) ↔
      u ∈ depsOf dependencies v := by simp [hu]
  by_cases h : u ∈ depsOf dependencies v
  · rw [if_pos (hmem.mpr h), if_pos h]
    have : 0 < ((depsOf dependencies v).filter fun w => w ∉ result).length :=
      List.length_pos_of_mem (hmem.mpr h)
    omega
  · rw [if_neg (fun hm => h (hmem.mp hm)), if_neg h]

/-- One turn of the loop keeps the invariant. -/
theorem KahnInv.step (index : Dict String ℕ) (hs : Sound ids dependencies dependents)
    (hk : KahnInv ids dependencies k) {rest : List (ℕ × String)}
    (hpop : heappop k.ready = some (e, rest)) :
    KahnInv ids dependencies (((dependents.get? e.2).getD []).foldl (relax index)
      { k with ready := rest, result := k.result ++ [e.2] }) := by
  obtain ⟨hmem, rfl⟩ := heappop_eq_some hpop
  have hperm : (k.ready.map Prod.snd).Perm (e.2 :: (k.ready.erase e).map Prod.snd) :=
    (List.perm_cons_erase hmem).map Prod.snd
  have hu : e.2 ∈ k.ready.map Prod.snd := hperm.mem_iff.mpr List.mem_cons_self
  have huids : e.2 ∈ ids := hk.subset _ (List.mem_append_right _ hu)
  obtain ⟨-, -, hdisj⟩ := List.nodup_append'.mp hk.nodup
  have hnotin : e.2 ∉ k.result := fun h => hdisj h hu
  have hndents := hs.dependents_nodup _ huids
  obtain ⟨hres, hdeg, hready⟩ := foldl_relax index hndents
    { k with ready := k.ready.erase e, result := k.result ++ [e.2] }
  -- what was pushed: the dependents of `e.2` that had only this dependency open
  have hpushed : ∀ v, v ∈ ((dependents.get? e.2).getD []).filter
      (fun v => (k.indegree.get? v).getD 0 - 1 = 0) →
      v ∈ ids ∧ e.2 ∈ depsOf dependencies v ∧
        openDeps dependencies (k.result ++ [e.2]) v = 0 := by
    intro v hv
    obtain ⟨hv1, hv2⟩ := List.mem_filter.mp hv
    obtain ⟨hvids, hdep⟩ := (hs.converse _ huids v).mp hv1
    have happ := openDeps_append (hs.deps_nodup v hvids) hnotin
    rw [if_pos hdep, ← hk.indegree v hvids] at happ
    refine ⟨hvids, hdep, ?_⟩
    have : (k.indegree.get? v).getD 0 - 1 = 0 := by simpa using hv2
    omega
  have hperm' : (k.result ++ k.ready.map Prod.snd).Perm
      ((k.result ++ [e.2]) ++ (k.ready.erase e).map Prod.snd) := by
    rw [List.append_assoc]
    exact List.Perm.append_left _ hperm
  generalize hk' : ((dependents.get? e.2).getD []).foldl (relax index)
    { k with ready := k.ready.erase e, result := k.result ++ [e.2] } = k' at hres hdeg hready
  simp only at hres hdeg hready
  have hlist : k'.result ++ k'.ready.map Prod.snd =
      ((k.result ++ [e.2]) ++ (k.ready.erase e).map Prod.snd) ++
        ((dependents.get? e.2).getD []).filter
          (fun v => (k.indegree.get? v).getD 0 - 1 = 0) := by
    rw [hres, hready, ← List.append_assoc]
  have hsame : ∀ v, v ∈ (k.result ++ [e.2]) ++ (k.ready.erase e).map Prod.snd ↔
      v ∈ k.result ++ k.ready.map Prod.snd := fun v => hperm'.mem_iff.symm
  refine ⟨?_, ?_, ?_, ?_, ?_, ?_⟩
  · rw [hlist]
    refine List.nodup_append'.mpr ⟨hperm'.nodup_iff.mp hk.nodup, hndents.filter _, ?_⟩
    -- a pushed step is in neither the old heap nor the old result: `e.2` was still open for it
    intro v hold hnew
    obtain ⟨-, hdep, -⟩ := hpushed v hnew
    rw [hsame v] at hold
    rcases List.mem_append.mp hold with hold | hold
    · rcases hk.order.deps_mem hold _ hdep with h | h
      · cases h
      · exact hnotin h
    · exact hnotin (openDeps_eq_zero.mp (hk.ready v hold) _ hdep)
  · intro v hv
    rw [hlist] at hv
    rcases List.mem_append.mp hv with hv | hv
    · exact hk.subset v ((hsame v).mp hv)
    · exact (hpushed v hv).1
  · intro v hv
    rw [hdeg v, hres]
    rw [openDeps_append (hs.deps_nodup v hv) hnotin, hk.indegree v hv]
    have hiff : v ∈ (dependents.get? e.2).getD [] ↔ e.2 ∈ depsOf dependencies v := by
      rw [hs.converse _ huids v]
      exact ⟨And.right, fun h => ⟨hv, h⟩⟩
    simp only [hiff]
  · intro v hv hzero
    rw [hres] at hzero
    rw [hlist]
    have happ := openDeps_append (hs.deps_nodup v hv) hnotin
    by_cases hdep : e.2 ∈ depsOf dependencies v
    · refine List.mem_append_right _ (List.mem_filter.mpr ⟨?_, ?_⟩)
      · exact (hs.converse _ huids v).mpr ⟨hv, hdep⟩
      · rw [if_pos hdep, ← hk.indegree v hv] at happ
        simp only [decide_eq_true_eq]
        omega
    · rw [if_neg hdep] at happ
      refine List.mem_append_left _ ((hsame v).mpr (hk.queued v hv ?_))
      omega
  · intro v hv
    rw [hready] at hv
    rw [hres]
    rcases List.mem_append.mp hv with hv | hv
    · have hold := hk.ready v (hperm.mem_iff.mpr (List.mem_cons_of_mem _ hv))
      rw [openDeps_eq_zero] at hold ⊢
      exact fun u hu => List.mem_append_left _ (hold u hu)
    · exact (hpushed v hv).2.2
  · rw [hres]
    refine readyOrder_concat.mpr ⟨hk.order, fun y hy => Or.inr ?_⟩
    exact openDeps_eq_zero.mp (hk.ready _ hu) y hy

theorem kahnLoop_spec (index : Dict String ℕ) (hs : Sound ids dependencies dependents) (fuel : ℕ)
(hk : KahnInv ids dependencies k) (hfuel : ids.length ≤ fuel + k.result.length) :
    KahnInv ids dependencies (kahnLoop dependents index fuel k) ∧
      (kahnLoop dependents index fuel k).ready = [] := by
  induction fuel generalizing k with
  | zero =>
    have hle : (k.result ++ k.ready.map Prod.snd).length ≤ ids.length :=
      (hk.nodup.subperm hk.subset).length_le
    rw [List.length_append, List.length_map] at hle
    exact ⟨hk, List.eq_nil_of_length_eq_zero (by omega : k.ready.length = 0)⟩
  | succ _ ih =>
    unfold kahnLoop
    cases hpop : heappop k.ready with
    | none => exact ⟨hk, heappop_eq_none hpop⟩
    | some p =>
      obtain ⟨⟨i, stepId⟩, _⟩ := p
      have hstep := KahnInv.step index hs hk hpop
      refine ih hstep ?_
      have hnd := hs.dependents_nodup stepId
        (hk.subset _ (List.mem_append_right _
          (List.mem_map_of_mem (f := Prod.snd) (heappop_eq_some hpop).1)))
      rw [(foldl_relax index hnd _).1, List.length_append, List.length_singleton]
      omega

theorem kahnInv_start (index : Dict String ℕ) (hs : Sound ids dependencies dependents) :
    KahnInv ids dependencies (kahnStart ids dependencies index) := by
  have hready : (kahnStart ids dependencies index).ready.map Prod.snd =
      ids.filter fun id => ((dependencies.get? id).getD []).length = 0 := by
    simp [kahnStart, List.map_map, Function.comp_def]
  have hopen : ∀ v, openDeps dependencies [] v = ((dependencies.get? v).getD []).length := by
    intro v
    simp [openDeps, depsOf]
  refine ⟨?_, ?_, ?_, ?_, ?_, trivial⟩
  · rw [hready]
    exact hs.ids_nodup.filter _
  · intro v hv
    rw [hready] at hv
    exact (List.mem_filter.mp hv).1
  · intro v hv
    have hget : (kahnStart ids dependencies index).indegree.get? v =
        some (((dependencies.get? v).getD []).length : ℤ) := by
      rw [show (kahnStart ids dependencies index).indegree = ids.foldl
        (fun d id => d.set id (((dependencies.get? id).getD []).length : ℤ)) Dict.empty from rfl,
        Dict.get?_foldl_set, if_pos hv]
    rw [hget]
    exact congrArg Nat.cast (hopen v).symm
  · intro v hv hzero
    rw [hready]
    rw [show (kahnStart ids dependencies index).result = [] from rfl, hopen] at hzero
    exact List.mem_filter.mpr ⟨hv, by simpa using hzero⟩
  · intro v hv
    rw [hready] at hv
    rw [show (kahnStart ids dependencies index).result = [] from rfl, hopen]
    simpa using (List.mem_filter.mp hv).2

/-- An order without a rest has every step once, after its dependencies. -/
theorem stableKahn_spec (hs : Sound ids dependencies dependents)
    (hall : (stableKahn ids dependencies dependents index).2 = []) :
    (stableKahn ids dependencies dependents index).1.Perm ids ∧
      ReadyOrder (depsOf dependencies) [] (stableKahn ids dependencies dependents index).1 := by
  obtain ⟨hk, hempty⟩ := kahnLoop_spec index hs ids.length (kahnInv_start index hs)
    (by omega)
  have hnd := hk.nodup
  have hsub := hk.subset
  rw [hempty, List.map_nil, List.append_nil] at hnd hsub
  refine ⟨(List.perm_ext_iff_of_nodup hnd hs.ids_nodup).mpr fun v => ⟨hsub v, fun hv => ?_⟩,
    hk.order⟩
  have hdeg := List.filter_eq_nil_iff.mp hall v hv
  have hzero := hk.indegree v hv
  have hin := hk.queued v hv (by
    simp only [decide_eq_true_eq, not_lt] at hdeg
    omega)
  rwa [hempty, List.map_nil, List.append_nil] at hin

end Loop

/-! ## Accepted plans -/

structure WellOrdered (plan : Plan) (graph : PlanGraph) : Prop where
  stepIds : graph.stepIds = plan.steps.map PlanStep.stepId
  nodup : graph.stepIds.Nodup
  deps : ∀ step ∈ plan.steps, graph.dependenciesOf step.stepId = step.dependsOn
  deps_mem : ∀ id ∈ graph.stepIds, ∀ u ∈ graph.dependenciesOf id, u ∈ graph.stepIds
  perm : graph.topologicalOrder.Perm graph.stepIds
  order : ReadyOrder graph.dependenciesOf [] graph.topologicalOrder

variable {id : String} {items : List String}

theorem mem_keys_indexOf {ids : List String} : id ∈ (indexOf ids).keys ↔ id ∈ ids := by
  unfold indexOf
  rw [Dict.mem_keys_foldl_set (f := fun e : String × ℕ => e.1)]
  simp

theorem nodup_of_indexOf {ids : List String} (h : (indexOf ids).keys.length = ids.length) :
    ids.Nodup := by
  have hset : (indexOf ids).keys.toFinset = ids.toFinset := by
    ext id
    simp [mem_keys_indexOf]
  have hcard : ids.toFinset.card = ids.length := by
    rw [← hset, List.toFinset_card_of_nodup (indexOf ids).keys_nodup, h]
  have hdedup : ids.dedup.length = ids.length := by
    rw [← hcard, List.card_toFinset]
  exact List.dedup_eq_self.mp ((List.dedup_sublist ids).eq_of_length hdedup)

theorem mem_sortByIndex {index : Dict String ℕ} : id ∈ sortByIndex index items ↔ id ∈ items :=
  (List.perm_insertionSort _ items).mem_iff

theorem nodup_sortByIndex {index : Dict String ℕ} : (sortByIndex index items).Nodup ↔ items.Nodup :=
  (List.perm_insertionSort _ items).nodup_iff

/-- `dependency_id in step.depends_on`, for the step with this id. -/
def DependsOn (plan : Plan) (stepId dependencyId : String) : Prop :=
  ∃ step ∈ plan.steps, step.stepId = stepId ∧ dependencyId ∈ step.dependsOn

/-- The dictionaries the loop over the steps starts with. -/
def emptyDependents (plan : Plan) : Dict String (List String) :=
  (plan.steps.map PlanStep.stepId).foldl (fun d id => d.set id []) Dict.empty

/-- `{step_id: tuple(sorted(items, key=index.__getitem__))}`. -/
def orderedDependents (plan : Plan) (dependents : Dict String (List String)) :
    Dict String (List String) :=
  dependents.mapValues (sortByIndex (indexOf (plan.steps.map PlanStep.stepId)))

section Added

variable {plan : Plan} {dependencies dependents : Dict String (List String)}

/-- What the loop over the steps leaves in the two dictionaries. -/
theorem addSteps_dependsOn (hnd : (plan.steps.map PlanStep.stepId).Nodup)
    (h : addSteps plan (indexOf (plan.steps.map PlanStep.stepId)) plan.steps Dict.empty
      (emptyDependents plan) = .ok (dependencies, dependents)) :
    (∀ id u, u ∈ depsOf dependencies id ↔ DependsOn plan id u) ∧
    (∀ u id, id ∈ ((orderedDependents plan dependents).get? u).getD [] ↔ DependsOn plan id u) ∧
    ∀ u, (((orderedDependents plan dependents).get? u).getD []).Nodup := by
  obtain ⟨hother, hown, hconv, hdnodup⟩ := addSteps_spec hnd h
  have hempty : ∀ u, ((emptyDependents plan).get? u).getD [] = [] := by
    intro u
    rw [emptyDependents, Dict.get?_foldl_set (g := fun _ => [])]
    split_ifs <;> simp
  have hget : ∀ u, ((orderedDependents plan dependents).get? u).getD [] =
      sortByIndex (indexOf (plan.steps.map PlanStep.stepId)) ((dependents.get? u).getD []) := by
    intro u
    rw [orderedDependents, Dict.get?_mapValues]
    cases dependents.get? u with
    | none => rfl
    | some => rfl
  refine ⟨fun id u => ⟨fun hu => ?_, ?_⟩, fun u id => ?_, fun u => ?_⟩
  · by_cases hid : id ∈ plan.steps.map PlanStep.stepId
    · obtain ⟨step, hm, rfl⟩ := List.mem_map.mp hid
      rw [depsOf, (hown step hm).1, Option.getD_some] at hu
      exact ⟨step, hm, rfl, hu⟩
    · rw [depsOf, hother id hid, Dict.get?_empty] at hu
      cases hu
  · rintro ⟨step, hm, rfl, _⟩
    rwa [depsOf, (hown step hm).1]
  · rw [hget, mem_sortByIndex, hconv u id, hempty]
    exact ⟨fun hm => hm.resolve_left List.not_mem_nil, Or.inr⟩
  · rw [hget, nodup_sortByIndex]
    exact hdnodup u (by rw [hempty]; exact List.nodup_nil) (by simp [hempty])

theorem addSteps_sound (hnd : (plan.steps.map PlanStep.stepId).Nodup)
    (h : addSteps plan (indexOf (plan.steps.map PlanStep.stepId)) plan.steps Dict.empty
      (emptyDependents plan) = .ok (dependencies, dependents)) :
    Sound (plan.steps.map PlanStep.stepId) dependencies (orderedDependents plan dependents) := by
  obtain ⟨hdeps, hdependents, hnodup⟩ := addSteps_dependsOn hnd h
  obtain ⟨-, hown, -, -⟩ := addSteps_spec hnd h
  refine ⟨hnd, ?_, ?_, fun u _ => hnodup u, ?_⟩
  · intro v hv
    obtain ⟨step, hm, rfl⟩ := List.mem_map.mp hv
    rw [depsOf, (hown step hm).1]
    exact (hown step hm).2.1
  · intro v _ u hu
    obtain ⟨step, hm, -, hdep⟩ := (hdeps v u).mp hu
    exact mem_keys_indexOf.mp ((hown step hm).2.2 u hdep).1
  · intro u _ v
    rw [hdependents, hdeps]
    constructor
    · rintro ⟨step, hm, rfl, hu⟩
      exact ⟨List.mem_map_of_mem hm, step, hm, rfl, hu⟩
    · exact And.right

end Added

/-- **Accepted plans are well ordered.** -/
theorem validate_spec {plan : Plan} {graph : PlanGraph} (h : validate plan = .ok graph) :
    WellOrdered plan graph := by
  simp only [validate, seq_eq_ok, raiseIf_ok, not_not] at h
  obtain ⟨-, hlen, h⟩ := h
  have hnd : (plan.steps.map PlanStep.stepId).Nodup := nodup_of_indexOf hlen
  obtain ⟨⟨_, _⟩, hadd, h⟩ := bind_eq_ok.mp h
  obtain ⟨-, hown, -, -⟩ := addSteps_spec hnd hadd
  have hsound := addSteps_sound hnd hadd
  simp only at h
  split_ifs at h with hall
  · exact absurd (bind_eq_ok.mp h) (by simp)
  · rw [not_not] at hall
    obtain ⟨hperm, horder⟩ := stableKahn_spec hsound hall
    simp only [pure, Except.pure, Except.ok.injEq] at h
    subst h
    refine ⟨rfl, hnd, ?_, hsound.deps_mem, hperm, horder⟩
    intro step hm
    simp [PlanGraph.dependenciesOf, (hown step hm).1]

/-- **Accepted plans have no cycle.**  The order of an accepted plan lists every step once and after
its dependencies, and no chain of dependencies leads from a step back to itself. -/
theorem validate_acyclic {plan : Plan} {graph : PlanGraph} (h : validate plan = .ok graph) :
    graph.topologicalOrder.Nodup ∧
    (∀ stepId, stepId ∈ graph.topologicalOrder ↔ stepId ∈ plan.steps.map PlanStep.stepId) ∧
    (∀ before stepId rest, graph.topologicalOrder = before ++ stepId :: rest →
      ∀ u, DependsOn plan stepId u → u ∈ before) ∧
    ∀ stepId, ¬ Relation.TransGen (DependsOn plan) stepId stepId := by
  have hw := validate_spec h
  have hmem : ∀ stepId,
      stepId ∈ graph.topologicalOrder ↔ stepId ∈ plan.steps.map PlanStep.stepId := fun stepId => by
    rw [hw.perm.mem_iff, hw.stepIds]
  have hdeps : ∀ stepId u, DependsOn plan stepId u → u ∈ graph.dependenciesOf stepId := by
    rintro _ _ ⟨step, hstep, rfl, hu⟩
    rwa [hw.deps step hstep]
  refine ⟨hw.perm.nodup_iff.mpr hw.nodup, hmem, fun before stepId rest heq u hu => ?_,
    fun stepId hcycle => ?_⟩
  · exact ((heq ▸ hw.order).deps_before u (hdeps stepId u hu)).resolve_left List.not_mem_nil
  · obtain ⟨_, ⟨step, hstep, hid, -⟩, -⟩ := Relation.TransGen.head'_iff.mp hcycle
    exact hw.order.acyclic hdeps stepId ((hmem stepId).mpr (List.mem_map.mpr ⟨step, hstep, hid⟩))
      hcycle

/-- `b` is declared before `a`, which it waits for. -/
def twoSteps : Plan :=
  ⟨"plan", 1, "", [⟨"b", "step", "", ["a"], "done", "agent", .default, .agent, .internal⟩,
    ⟨"a", "step", "", [], "done", "agent", .default, .agent, .internal⟩], .epochSecond 0,
    .deterministic⟩

theorem validate_acyclic_two : ∃ graph, validate twoSteps = .ok graph ∧
    graph.topologicalOrder = ["a", "b"] ∧
    ∀ stepId, ¬ Relation.TransGen (DependsOn twoSteps) stepId stepId := by
  obtain ⟨graph, h, horder⟩ : ∃ graph, validate twoSteps = .ok graph ∧
      graph.topologicalOrder = ["a", "b"] := ⟨_, rfl, rfl⟩
  exact ⟨graph, h, horder, (validate_acyclic h).2.2.2⟩

end PlanGraphValidator

end LocalAgent.Runtime
