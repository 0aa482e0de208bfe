import LocalAgent.Runtime.LoopBatchRows

/-!
# LocalAgent.Runtime.LoopBatchRuns — tool batches over whole runs

Acceptances, drivers, crashes and moves of tool rows in any order.

* `DriverOk`: what the local variables of `advance_batch` say about the rows.
* `reads_succeeded`: when a write is in the wave, every read of its batch has succeeded.
* `batches_sound`: one write in a batch, reads before the write, one end for every action, one result
  for every call, and no repetition over the run.
-/

namespace LocalAgent.Runtime

variable {stage : CallStage}

namespace BatchTables

variable {cfg : BatchConfig} {t t' : BatchTables} {frameId : String} {iterationNo : ℕ}

/-! ## Drivers -/

/-- What the local variables of a driver say about the rows of its batch. -/
structure DriverOk (t : BatchTables) (frameId : String) (d : BatchDriver) : Prop where
  past : t.Past frameId d.iterationNo
  known : ∀ action ∈ d.ordered ++ d.wave.map Prod.fst,
    ∃ row ∈ t.batch frameId d.iterationNo, row.toLoopAction = action
  covers : ∀ row ∈ t.batch frameId d.iterationNo, row.IsOpen →
    row.toLoopAction ∈ d.ordered ++ d.wave.map Prod.fst
  readsLead : d.ordered.Pairwise fun a b => b.recipe.readOnly = true → a.recipe.readOnly = true
  aloneWrite : ∀ slot ∈ d.wave, slot.1.recipe.readOnly = false → d.readonlyFailed = none ∧
    (∀ action ∈ d.ordered, action.recipe.readOnly = false) ∧
    ∀ other ∈ d.wave, other.1.recipe.readOnly = false
  reads : d.readonlyFailed = none → ∀ row ∈ t.batch frameId d.iterationNo,
    row.recipe.readOnly = true → row.toLoopAction ∉ d.wave.map Prod.fst →
    ∀ result ∈ row.result, result.1.outcome = "SUCCEEDED"
  ended : ∀ slot ∈ d.wave, ∀ cause, slot.2 = .ended cause →
    ∃ row ∈ t.batch frameId d.iterationNo, row.toLoopAction = slot.1 ∧ ¬row.IsOpen ∧
      (cause = none → row.Succeeded)

namespace DriverOk

variable {d : BatchDriver} {g : LoopActionRow → LoopActionRow}

/-- What the driver of a batch knows stays true when rows move on. -/
theorem keep (hd : DriverOk t frameId d) (hm : Moved g t t') (hpast : t'.Past frameId d.iterationNo)
    (hnew : ∀ row ∈ t.batch frameId d.iterationNo, row.toLoopAction ∉ d.wave.map Prod.fst →
      (g row).result = row.result) : DriverOk t' frameId d := by
  have hmem : ∀ row' ∈ t'.batch frameId d.iterationNo,
      ∃ row ∈ t.batch frameId d.iterationNo, row' = g row ∧ ActionMove row (g row) := by
    intro row' hrow'
    rw [hm.batch] at hrow'
    obtain ⟨row, hrow, rfl⟩ := List.mem_map.mp hrow'
    exact ⟨row, hrow, rfl, hm.moves row (mem_batch.mp hrow).1⟩
  have hmap : ∀ row ∈ t.batch frameId d.iterationNo, g row ∈ t'.batch frameId d.iterationNo := by
    intro row hrow
    rw [hm.batch]
    exact List.mem_map_of_mem hrow
  refine ⟨hpast, ?_, ?_, hd.readsLead, hd.aloneWrite, ?_, ?_⟩
  · intro action haction
    obtain ⟨row, hrow, rfl⟩ := hd.known action haction
    exact ⟨g row, hmap row hrow, (hm.moves row (mem_batch.mp hrow).1).action⟩
  · intro row' hrow' hopen
    obtain ⟨row, hrow, rfl, hmove⟩ := hmem row' hrow'
    rw [hmove.action]
    exact hd.covers row hrow (hmove.open_of_open hopen)
  · intro hnone row' hrow' hreadOnly hwave result hresult
    obtain ⟨row, hrow, rfl, hmove⟩ := hmem row' hrow'
    rw [hmove.action] at hreadOnly hwave
    rw [hnew row hrow hwave] at hresult
    exact hd.reads hnone row hrow hreadOnly hwave result hresult
  · intro slot hslot cause hstage
    obtain ⟨row, hrow, haction, hclosed, hsucceeded⟩ := hd.ended slot hslot cause hstage
    have hmove := hm.moves row (mem_batch.mp hrow).1
    exact ⟨g row, hmap row hrow, hmove.action.trans haction,
      fun hopen => hclosed (hmove.open_of_open hopen), fun hcause =>
        hmove.succeeded (hsucceeded hcause)⟩

theorem keepFrame (hd : DriverOk t frameId d) (hactions : t'.actions = t.actions)
    (hpast : ∀ frameId iterationNo, t.Past frameId iterationNo → t'.Past frameId iterationNo) :
    DriverOk t' frameId d :=
  hd.keep (Moved.same hactions) (hpast _ _ hd.past) fun _ _ _ => rfl

theorem keepBatch (hd : DriverOk t frameId d) (hpast : t'.Past frameId d.iterationNo)
    (hbatch : t'.batch frameId d.iterationNo = t.batch frameId d.iterationNo) :
    DriverOk t' frameId d where
  past := hpast
  known := hbatch ▸ hd.known
  covers := hbatch ▸ hd.covers
  readsLead := hd.readsLead
  aloneWrite := hd.aloneWrite
  reads := hbatch ▸ hd.reads
  ended := hbatch ▸ hd.ended

variable {slot : LoopAction × CallStage} {action : LoopAction} {rest : List LoopAction}

/-- Before a write is started, the reads of its wave have succeeded. -/
theorem reads_succeeded (hd : DriverOk t frameId d) (hs : Settled t) (hslot : slot ∈ d.wave)
    (hwrite : slot.1.recipe.readOnly = false) {read : LoopActionRow}
    (hread : read ∈ t.batch frameId d.iterationNo) (hreadOnly : read.recipe.readOnly = true) :
    read.Succeeded := by
  obtain ⟨hnone, hordered, hwave⟩ := hd.aloneWrite slot hslot hwrite
  have hnotWave : ∀ row : LoopActionRow, row.recipe.readOnly = true →
      row.toLoopAction ∉ d.wave.map Prod.fst := by
    intro row hrow hmem
    obtain ⟨other, hother, heq⟩ := List.mem_map.mp hmem
    have := hwave other hother
    rw [heq, hrow] at this
    cases this
  -- reads are no longer pending, so they are closed
  have hclosed : ∀ row ∈ t.batch frameId d.iterationNo, row.recipe.readOnly = true →
      ¬row.IsOpen := by
    intro row hrow hro hopen
    rcases List.mem_append.mp (hd.covers row hrow hopen) with hmem | hmem
    · cases hro.symm.trans (hordered _ hmem)
    · exact hnotWave row hro hmem
  have hsucceeded : ∀ row ∈ t.batch frameId d.iterationNo, row.recipe.readOnly = true →
      ∀ result ∈ row.result, result.1.outcome = "SUCCEEDED" :=
    fun row hrow hro => hd.reads hnone row hrow hro (hnotWave row hro)
  cases hresult : read.result with
  | some result => exact ⟨result, hresult, hsucceeded read hread hreadOnly result hresult⟩
  | none =>
    have hskip : read.notExecuted ≠ none := fun hskip =>
      hclosed read hread hreadOnly ⟨hresult, hskip⟩
    obtain ⟨hmem, hin⟩ := mem_batch.mp hread
    obtain ⟨cause, hcause, hbatch, tool, htool, hfailed⟩ := hs.caused read hmem hskip
    obtain ⟨-, htouched⟩ := BatchTool.touched_of_failed hfailed
    have hcauseBatch : cause ∈ t.batch frameId d.iterationNo :=
      mem_batch.mpr ⟨hcause, hbatch.1.trans hin.1, hbatch.2.trans hin.2⟩
    cases hkind : cause.recipe.readOnly with
    | false =>
      -- the cause would be the write itself, which starts after the reads
      exact hs.readsFirst cause hcause hkind ⟨tool, htool, htouched⟩ read hmem
        ⟨hbatch.1.symm, hbatch.2.symm⟩ hreadOnly
    | true =>
      -- the cause is a read with a failed tool, and its result says so
      exfalso
      cases hcauseResult : cause.result with
      | some result =>
        obtain ⟨_, htool', -, committed, hcommitted, rfl⟩ :=
          hs.results cause hcause result hcauseResult
        cases htool.symm.trans htool'
        have hok := hsucceeded cause hcauseBatch hkind _ hcauseResult
        rw [Option.mem_def] at hcommitted
        have hok' : committed.status = "SUCCEEDED" := hok
        simp [BatchTool.failed, hcommitted, hok'] at hfailed
      | none =>
        have hcauseSkip : cause.notExecuted ≠ none := fun hnone' =>
          hclosed cause hcauseBatch hkind ⟨hcauseResult, hnone'⟩
        cases htouched.symm.trans (hs.untouched cause hcause hcauseSkip tool htool)

/-- A driver that has just begun. -/
theorem advance {iterationNo : ℕ} (hpast : t.Past frameId iterationNo)
    (h : t.advance frameId iterationNo = .ok d) : DriverOk t frameId d := by
  obtain ⟨-, h⟩ := seq_eq_ok.mp h
  cases h
  refine ⟨hpast, ?_, ?_, ?_, fun _ hslot => (nomatch hslot), ?_, fun _ hslot => nomatch hslot⟩
  · intro action haction
    have hpending : action ∈ ((t.batch frameId iterationNo).filter fun row =>
        row.result = none ∧ row.notExecuted = none).map LoopActionRow.toLoopAction := by
      rw [List.map_nil, List.append_nil] at haction
      rcases List.mem_append.mp haction with haction | haction <;>
        exact (List.mem_filter.mp haction).1
    obtain ⟨row, hrow, rfl⟩ := List.mem_map.mp hpending
    exact ⟨row, (List.mem_filter.mp hrow).1, rfl⟩
  · intro row hrow hopen
    have hpending : row.toLoopAction ∈ ((t.batch frameId iterationNo).filter fun row =>
        row.result = none ∧ row.notExecuted = none).map LoopActionRow.toLoopAction :=
      List.mem_map_of_mem (List.mem_filter.mpr ⟨hrow, decide_eq_true hopen⟩)
    rw [List.map_nil, List.append_nil, List.mem_append, List.mem_filter, List.mem_filter]
    cases hkind : row.recipe.readOnly with
    | true => exact .inl ⟨hpending, rfl⟩
    | false => exact .inr ⟨hpending, rfl⟩
  · refine List.pairwise_append.mpr ⟨?_, ?_, fun a ha _ _ _ => (List.mem_filter.mp ha).2⟩
    · exact List.pairwise_of_forall_mem_list fun a ha _ _ _ => (List.mem_filter.mp ha).2
    · refine List.pairwise_of_forall_mem_list fun a _ b hb hro => ?_
      have hwrite := (List.mem_filter.mp hb).2
      rw [hro] at hwrite
      cases hwrite
  · intro hnone row hrow _ _ result hresult
    have hfind := List.find?_eq_none.mp (Option.map_eq_none_iff.mp hnone) row hrow
    by_contra hne
    refine hfind (Option.any_eq_true _ _ |>.mpr ⟨result, hresult, decide_eq_true hne⟩)

/-- The driver skips one action. -/
theorem skipped (hd : DriverOk t frameId d) (hordered : d.ordered = action :: rest)
    (hclosed : ∀ row ∈ t.batch frameId d.iterationNo, row.toLoopAction = action → ¬row.IsOpen) :
    DriverOk t frameId { d with ordered := rest } where
  past := hd.past
  known other hother := by
    refine hd.known other ?_
    rw [hordered]
    exact List.mem_cons_of_mem _ hother
  covers row hrow hopen := by
    have hmem := hd.covers row hrow hopen
    rw [hordered, List.cons_append] at hmem
    rcases List.mem_cons.mp hmem with heq | hmem
    · exact absurd hopen (hclosed row hrow heq)
    · exact hmem
  readsLead := by
    have hlead := hd.readsLead
    rw [hordered] at hlead
    exact hlead.of_cons
  aloneWrite slot hslot hwrite := by
    obtain ⟨hnone, hwrites, hwave⟩ := hd.aloneWrite slot hslot hwrite
    refine ⟨hnone, fun other hother => hwrites other ?_, hwave⟩
    rw [hordered]
    exact List.mem_cons_of_mem _ hother
  reads := hd.reads
  ended := hd.ended

theorem takeWave_append (policy : LoopPolicyV2) (action : LoopAction) (rest : List LoopAction) :
    (BatchDriver.takeWave policy action rest).1 ++ (BatchDriver.takeWave policy action rest).2 =
      action :: rest := by
  unfold BatchDriver.takeWave
  split
  · rfl
  · split_ifs <;> rfl

/-- A wave is a run of reads, or one action. -/
theorem takeWave_cases (policy : LoopPolicyV2) (action : LoopAction) (rest : List LoopAction) :
    BatchDriver.takeWave policy action rest = ([action], rest) ∨
      ∀ other ∈ (BatchDriver.takeWave policy action rest).1,
        other.recipe.concurrentSafe = true := by
  unfold BatchDriver.takeWave
  split
  · exact .inl rfl
  · split_ifs with hbesides
    · right
      simp only [BatchDriver.besides, Bool.and_eq_true] at hbesides
      intro _ hother
      rcases List.mem_cons.mp hother with rfl | hother
      · exact hbesides.1.1.2
      · cases List.mem_singleton.mp hother
        exact hbesides.1.2
    · exact .inl rfl

theorem wave (hd : DriverOk t frameId d) (ht : Accepted cfg t) {policy : LoopPolicyV2}
(hwave : d.wave = [])
    (hordered : d.ordered = action :: rest) (hcause : d.skipCause policy action = none) :
    DriverOk t frameId { d with
      wave := (BatchDriver.takeWave policy action rest).1.map fun action => (action, .running)
      ordered := (BatchDriver.takeWave policy action rest).2 } := by
  have hsplit := takeWave_append policy action rest
  have hfst : ((BatchDriver.takeWave policy action rest).1.map fun action =>
      ((action, .running) : LoopAction × CallStage)).map Prod.fst =
        (BatchDriver.takeWave policy action rest).1 := by
    rw [List.map_map]
    exact List.map_id _
  have hmem : ∀ other, other ∈ (BatchDriver.takeWave policy action rest).2 ++
      (BatchDriver.takeWave policy action rest).1 ↔ other ∈ d.ordered ++ d.wave.map Prod.fst := by
    intro other
    rw [hwave, List.map_nil, List.append_nil, hordered, ← hsplit, List.mem_append, List.mem_append,
      or_comm]
  refine ⟨hd.past, ?_, ?_, ?_, ?_, ?_, ?_⟩
  · intro other hother
    rw [hfst] at hother
    exact hd.known other ((hmem other).mp hother)
  · intro row hrow hopen
    rw [hfst]
    exact (hmem _).mpr (hd.covers row hrow hopen)
  · have hlead := hd.readsLead
    rw [hordered, ← hsplit] at hlead
    exact (List.pairwise_append.mp hlead).2.1
  · intro slot hslot hwrite
    obtain ⟨other, hother, rfl⟩ := List.mem_map.mp hslot
    rcases takeWave_cases policy action rest with heq | hsafe
    · -- a wave of one: what is left in `ordered` follows the write
      rw [heq] at hother ⊢
      obtain rfl := List.mem_singleton.mp hother
      have hlead := hd.readsLead
      rw [hordered] at hlead
      refine ⟨?_, fun later hlater => ?_, fun slot' hslot' => ?_⟩
      · have hkind : other.recipe.readOnly = false := hwrite
        simp only [BatchDriver.skipCause, hkind, Bool.false_eq_true, if_false,
          Option.or_eq_none_iff] at hcause
        exact hcause.2
      · cases hkind : later.recipe.readOnly with
        | false => rfl
        | true => cases hwrite.symm.trans ((List.pairwise_cons.mp hlead).1 later hlater hkind)
      · obtain ⟨_, hsame, rfl⟩ := List.mem_map.mp hslot'
        cases List.mem_singleton.mp hsame
        exact hwrite
    · -- a wave of two: both are concurrent-safe, hence read-only
      exfalso
      have hknown : other ∈ d.ordered ++ d.wave.map Prod.fst :=
        (hmem other).mp (List.mem_append_right _ hother)
      obtain ⟨row, hrow, rfl⟩ := hd.known other hknown
      obtain ⟨_, _, _, -, hrecipe⟩ :=
        ht.built row.toLoopAction (List.mem_map_of_mem (mem_batch.mp hrow).1)
      have hconcurrent := hsafe _ hother
      have hwrite' : row.recipe.readOnly = false := hwrite
      rw [hrecipe] at hconcurrent hwrite'
      simp only [ToolBuild.recipe, Bool.and_eq_true] at hconcurrent hwrite'
      cases hwrite'.symm.trans hconcurrent.1
  · intro hnone row hrow hro _ result hresult
    refine hd.reads hnone row hrow hro ?_ result hresult
    rw [hwave]
    exact List.not_mem_nil
  · intro _ hslot _ hstage
    obtain ⟨_, -, rfl⟩ := List.mem_map.mp hslot
    cases hstage

theorem setStage_fst (d : BatchDriver) (actionId : ActionId) (stage : CallStage) :
    (d.setStage actionId stage).wave.map Prod.fst = d.wave.map Prod.fst := by
  rw [BatchDriver.setStage, List.map_map]
  refine List.map_congr_left fun slot _ => ?_
  simp only [Function.comp_apply]
  split_ifs <;> rfl

theorem mem_setStage {actionId : ActionId} (h : slot ∈ (d.setStage actionId stage).wave) :
    ∃ old ∈ d.wave, slot.1 = old.1 ∧ (old.1.actionId = actionId ∧ slot.2 = stage ∨ slot = old) := by
  obtain ⟨old, hold, rfl⟩ := List.mem_map.mp h
  refine ⟨old, hold, ?_⟩
  split_ifs with hid
  · exact ⟨rfl, .inl ⟨hid, rfl⟩⟩
  · exact ⟨rfl, .inr rfl⟩

theorem setStage (hd : DriverOk t frameId d) {actionId : ActionId}
    (hended : ∀ cause, stage = .ended cause → ∀ slot ∈ d.wave, slot.1.actionId = actionId →
      ∃ row ∈ t.batch frameId d.iterationNo, row.toLoopAction = slot.1 ∧ ¬row.IsOpen ∧
        (cause = none → row.Succeeded)) :
    DriverOk t frameId (d.setStage actionId stage) where
  past := hd.past
  known action haction := hd.known action (by rwa [setStage_fst] at haction)
  covers row hrow hopen := by
    rw [setStage_fst]
    exact hd.covers row hrow hopen
  readsLead := hd.readsLead
  aloneWrite slot hslot hwrite := by
    obtain ⟨old, hold, hfst, -⟩ := mem_setStage hslot
    obtain ⟨hnone, hordered, hwave⟩ := hd.aloneWrite old hold (hfst ▸ hwrite)
    refine ⟨hnone, hordered, fun other hother => ?_⟩
    obtain ⟨old', hold', hfst', -⟩ := mem_setStage hother
    rw [hfst']
    exact hwave old' hold'
  reads hnone row hrow hro hwave := by
    rw [setStage_fst] at hwave
    exact hd.reads hnone row hrow hro hwave
  ended slot hslot cause hstage := by
    obtain ⟨old, hold, hfst, ⟨hid, hstage'⟩ | rfl⟩ := mem_setStage hslot
    · rw [hfst]
      exact hended cause (hstage'.symm.trans hstage) old hold hid
    · exact hd.ended slot hold cause hstage

/-- A wave of calls that have all returned is over. -/
theorem join (hd : DriverOk t frameId d) (ht : Accepted cfg t)
    (hover : ∀ slot ∈ d.wave, ∃ cause, slot.2 = .ended cause) : DriverOk t frameId d.join := by
  have hclosed : ∀ row ∈ t.batch frameId d.iterationNo, row.toLoopAction ∈ d.wave.map Prod.fst →
      ¬row.IsOpen ∧ ((∀ slot ∈ d.wave, slot.2.cause = none) → row.Succeeded) := by
    intro row hrow hmem
    obtain ⟨slot, hslot, hfst⟩ := List.mem_map.mp hmem
    obtain ⟨cause, hstage⟩ := hover slot hslot
    obtain ⟨_, hrow', haction, hopen, hsucceeded⟩ := hd.ended slot hslot cause hstage
    obtain rfl := ht.row_unique (mem_batch.mp hrow').1 (mem_batch.mp hrow).1
      (congrArg LoopAction.actionId (haction.trans hfst))
    refine ⟨hopen, fun hall => hsucceeded ?_⟩
    have := hall slot hslot
    rwa [hstage] at this
  refine ⟨hd.past, ?_, ?_, hd.readsLead, fun _ hslot => (nomatch hslot), ?_,
    fun _ hslot => (nomatch hslot)⟩
  · intro action haction
    refine hd.known action ?_
    have haction : action ∈ d.ordered ++ [] := haction
    rw [List.append_nil] at haction
    exact List.mem_append_left _ haction
  · intro row hrow hopen
    show row.toLoopAction ∈ d.ordered ++ []
    rw [List.append_nil]
    rcases List.mem_append.mp (hd.covers row hrow hopen) with hmem | hmem
    · exact hmem
    · exact absurd hopen (hclosed row hrow hmem).1
  · intro hnone row hrow hro _ result hresult
    have hnone : (if d.wave.head?.any fun slot => slot.1.recipe.readOnly then
        d.readonlyFailed.or (d.failed.or (d.wave.findSome? fun slot => slot.2.cause))
      else d.readonlyFailed) = none := hnone
    by_cases hmem : row.toLoopAction ∈ d.wave.map Prod.fst
    · -- the wave has this read, so no call of it failed
      have hhead : (d.wave.head?.any fun slot => slot.1.recipe.readOnly) = true := by
        obtain ⟨slot, hslot, hfst⟩ := List.mem_map.mp hmem
        cases hwave : d.wave with
        | nil => exact nomatch hwave ▸ hslot
        | cons first =>
          rw [List.head?_cons, Option.any_some]
          by_contra hwrite
          rw [Bool.not_eq_true] at hwrite
          have hfirst : first ∈ d.wave := hwave ▸ List.mem_cons_self
          have := (hd.aloneWrite first hfirst hwrite).2.2 slot hslot
          rw [hfst, hro] at this
          cases this
      rw [if_pos hhead, Option.or_eq_none_iff, Option.or_eq_none_iff, List.findSome?_eq_none_iff]
        at hnone
      obtain ⟨_, hresult', hok⟩ := (hclosed row hrow hmem).2 hnone.2.2
      cases hresult'.symm.trans hresult
      exact hok
    · refine hd.reads ?_ row hrow hro hmem result hresult
      split_ifs at hnone
      · exact (Option.or_eq_none_iff.mp hnone).1
      · exact hnone

end DriverOk

end BatchTables

/-! ## Runs -/

namespace BatchRun

open BatchTables

variable {cfg : BatchConfig} {s s' : BatchRun} {frameId : String}

/-- What holds in every state of a run. -/
structure Inv (cfg : BatchConfig) (s : BatchRun) : Prop where
  accepted : Accepted cfg s.tables
  settled : Settled s.tables
  drivers : ∀ frameId d, s.drivers frameId = some d → DriverOk s.tables frameId d

namespace Inv

theorem setDriver (hs : Inv cfg s) {driver : Option BatchDriver}
    (h : ∀ d, driver = some d → DriverOk s.tables frameId d) :
    Inv cfg (s.setDriver frameId driver) where
  accepted := hs.accepted
  settled := hs.settled
  drivers other d hd := by
    have hd : Function.update s.drivers frameId driver other = some d := hd
    by_cases hother : other = frameId
    · subst hother
      rw [Function.update_self] at hd
      exact h d hd
    · rw [Function.update_of_ne hother] at hd
      exact hs.drivers other d hd

theorem keepActions (hs : Inv cfg s) {t' : BatchTables} {g : LoopActionRow → LoopActionRow}
    (hm : Moved g s.tables t') (hsame : ∀ row, (g row).result = row.result)
    (hrecords : t'.records = s.tables.records)
    (hpast : ∀ frameId iterationNo, s.tables.Past frameId iterationNo → t'.Past frameId iterationNo)
    (hsettled : Settled t') : Inv cfg { s with tables := t' } where
  accepted := hs.accepted.keep hm.accepted hrecords hpast
  settled := hsettled
  drivers frameId d hd :=
    (hs.drivers frameId d hd).keep hm (hpast _ _ (hs.drivers frameId d hd).past)
      fun row _ _ => hsame row

theorem setFrame (hs : Inv cfg s) {frame' : BatchFrame}
    (hlater : ∀ frame, s.tables.frames frameId = some frame →
      BatchFrame.LaterThan frame' frame) :
    Inv cfg { s with tables := s.tables.setFrame frameId frame' } :=
  hs.keepActions (Moved.same rfl) (fun _ => rfl) rfl (fun _ _ hpast => hpast.setFrame hlater)
    (hs.settled.setFrame hlater)

theorem movePhase (hs : Inv cfg s) {old : BatchPhase} {f : BatchFrame → BatchFrame}
    (hf : ∀ frame, frame.phase = old → BatchFrame.LaterThan (f frame) frame)
    (h : s.movePhase frameId old f = some s') : Inv cfg s' := by
  obtain ⟨frame, hframe, h⟩ := Option.bind_eq_some_iff.mp h
  split_ifs at h with hphase
  cases h
  refine hs.setFrame fun frame' hframe' => ?_
  cases hframe.symm.trans hframe'
  exact hf frame hphase

variable {frame : BatchFrame} {calls : List LoopCall}

theorem acceptBatch (hs : Inv cfg s)
    {rows : List LoopAction} (h : AcceptsBatch cfg s.tables frameId frame calls rows) :
    Inv cfg { s with tables := s.tables.withBatch frameId frame calls rows } where
  accepted := h.accepted hs.accepted
  settled := h.settled hs.accepted hs.settled
  drivers other d hd :=
    have hpast := (hs.drivers other d hd).past
    (hs.drivers other d hd).keepBatch (h.past_kept hpast) (h.batch_kept hpast)

theorem accept (hs : Inv cfg s) {t' : BatchTables}
    (h : s.accept cfg frameId calls = .ok t') : Inv cfg { s with tables := t' } := by
  obtain ⟨_, -, h⟩ := bind_eq_ok.mp h
  obtain ⟨⟨_, _⟩, hprepared, h⟩ := bind_eq_ok.mp h
  obtain ⟨_, hrecipes, hprepared⟩ := bind_eq_ok.mp hprepared
  obtain ⟨-, hprepared⟩ := seq_eq_ok.mp hprepared
  cases hprepared
  obtain ⟨_, _, hadds, rfl⟩ := acceptBatch_ok (prepareRecipes_built hrecipes) h
  exact hs.acceptBatch hadds

theorem handoff (hs : Inv cfg s) {call : LoopCall} {t' : BatchTables}
    (h : s.tables.acceptHandoff frameId call = .ok t') : Inv cfg { s with tables := t' } := by
  obtain ⟨frame, hframe, hphase, hunused, rfl⟩ := acceptHandoff_ok h
  have hlater : ∀ old, s.tables.frames frameId = some old →
      BatchFrame.LaterThan { frame with phase := .handedOff } old :=
    later_of_opened hframe rfl nofun
  exact ⟨hs.accepted.handoff hframe hphase hunused, hs.settled.handoff hframe,
    fun other d hd => (hs.drivers other d hd).keepFrame rfl fun _ _ hpast =>
      hpast.setFrame hlater⟩

variable {result : Except LoopError BatchTables}

theorem transact (hs : Inv cfg s) (h : ∀ t', result = .ok t' → Inv cfg { s with tables := t' }) :
    Inv cfg (s.transact result) := by
  unfold BatchRun.transact
  cases result with
  | ok t' => exact h t' rfl
  | error => exact hs

/-! ### The transactions of a driver -/

section Records

variable {d : BatchDriver} {actionId : ActionId}

theorem recordNotExecuted (hs : Inv cfg s) {iterationNo : ℕ} {notExecuted : NotExecuted}
    {t' : BatchTables}
    (h : s.tables.recordNotExecuted frameId iterationNo actionId notExecuted = .ok t') :
    Inv cfg { s with tables := t' } ∧
      ∀ row ∈ t'.actions, row.actionId = actionId → ¬row.IsOpen := by
  obtain ⟨row, hrow, rfl, hin, huntouched, hcause, hold, rfl⟩ := recordNotExecuted_ok h
  have hm := moved_skip hs.accepted hs.settled hrow huntouched hold
  refine ⟨hs.keepActions hm (fun _ => ?_) rfl (fun _ _ hpast => hpast)
    (hs.settled.skip hs.accepted hrow huntouched ?_ hold), ?_⟩
  · split_ifs <;> rfl
  · rwa [hin.1, hin.2]
  · intro _ hrow' hid hopen
    obtain ⟨_, -, rfl⟩ := List.mem_map.mp hrow'
    split_ifs at hid hopen with hkey
    · cases hopen.2
    · exact hkey hid

/-- A call of the wave records its result. -/
theorem recordResult (hs : Inv cfg s) (hdriver : s.drivers frameId = some d)
    (hwave : ∃ slot ∈ d.wave, slot.1.actionId = actionId) {result : CommittedResult}
    {t' : BatchTables}
    (h : s.tables.recordResult frameId d.iterationNo actionId result.projection result.digest =
      .ok t') :
    Inv cfg { s with tables := t' } ∧ ∀ row ∈ t'.actions, row.actionId = actionId →
      row.result = some (result.projection, result.digest) := by
  obtain ⟨row, hrow, rfl, hin, hskip, htool, hold, rfl⟩ := recordResult_ok h
  have hm := moved_result hs.accepted hrow hskip hold
  refine ⟨⟨hs.accepted.keep hm.accepted rfl fun _ _ hpast => hpast,
    hs.settled.result hs.accepted hrow hskip htool hold, fun other d' hd' =>
      (hs.drivers other d' hd').keep hm (hs.drivers other d' hd').past
        fun row' hrow' hnotWave => ?_⟩, ?_⟩
  · -- the row of the result is in this driver's wave, and no other driver has its batch
    by_cases hid : row'.actionId = row.actionId
    · exfalso
      cases hs.accepted.row_unique (mem_batch.mp hrow').1 hrow hid
      have hother : other = frameId := (mem_batch.mp hrow').2.1.symm.trans hin.1
      subst hother
      cases hdriver.symm.trans hd'
      obtain ⟨slot, hslot, hslotId⟩ := hwave
      obtain ⟨_, hrow₂, haction⟩ := (hs.drivers other d hdriver).known slot.1
        (List.mem_append_right _ (List.mem_map_of_mem hslot))
      obtain rfl := hs.accepted.row_unique (mem_batch.mp hrow₂).1 hrow
        ((congrArg LoopAction.actionId haction).trans hslotId)
      exact hnotWave (haction ▸ List.mem_map_of_mem hslot)
    · rw [if_neg hid]
  · intro _ hrow' hid
    obtain ⟨_, -, rfl⟩ := List.mem_map.mp hrow'
    split_ifs at hid ⊢ with hkey
    · rfl
    · exact absurd hid hkey

end Records

section Calls

variable {d : BatchDriver} {actionId : ActionId}

theorem at_mem (h : d.At actionId stage) : ∃ slot ∈ d.wave, slot.1.actionId = actionId := by
  obtain ⟨slot, hslot, hid, -⟩ := h
  exact ⟨slot, hslot, hid⟩

section

variable (hs : Inv cfg s)
include hs

theorem setStage (hdriver : s.drivers frameId = some d) (hstage : ∀ cause, stage ≠ .ended cause) :
    Inv cfg (s.setDriver frameId (some (d.setStage actionId stage))) := by
  refine hs.setDriver fun d' hd' => ?_
  cases hd'
  exact (hs.drivers frameId d hdriver).setStage fun cause h => absurd h (hstage cause)

theorem serve (hdriver : s.drivers frameId = some d)
    (h : ∀ t', result = .ok t' → Inv cfg { s with tables := t' }) :
    Inv cfg (s.serve frameId d actionId result) := by
  unfold BatchRun.serve
  cases result with
  | ok t' => exact h t' rfl
  | error => exact hs.setStage hdriver fun _ => nofun

theorem prepare {t' : BatchTables}
    (h : s.tables.prepareTool actionId = .ok t') : Inv cfg { s with tables := t' } := by
  have hsettled := hs.settled.prepareTool h
  obtain ⟨-, ⟨-, rfl⟩ | ⟨-, rfl⟩⟩ := prepareTool_ok h
  · exact hs.keepActions moved_bound (fun row => (bound_same row).1) rfl (fun _ _ hpast => hpast)
      hsettled
  · exact hs.keepActions ⟨rfl, moved_bound.moves⟩ (fun row => (bound_same row).1) rfl (fun _ _ hpast => hpast) hsettled

theorem start (hdriver : s.drivers frameId = some d)
    (hwave : ∃ slot ∈ d.wave, slot.1.actionId = actionId) {approvalPending : Bool}
    {t' : BatchTables} (h : s.tables.startTool actionId approvalPending = .ok t') :
    Inv cfg { s with tables := t' } := by
  have hd := hs.drivers frameId d hdriver
  have hsettled := hs.settled.startTool hs.accepted h ?_
  · obtain ⟨_, _, _, _, _, _, _, rfl⟩ := startTool_ok h
    exact hs.keepActions (Moved.same rfl) (fun _ => rfl) rfl (fun _ _ hpast => hpast) hsettled
  · intro _ hwrite hid _ _ hread hin hreadOnly'
    obtain ⟨slot, hslot, hslotId⟩ := hwave
    obtain ⟨_, hrow, haction⟩ := hd.known slot.1
      (List.mem_append_right _ (List.mem_map_of_mem hslot))
    obtain rfl := hs.accepted.row_unique (mem_batch.mp hrow).1 hwrite
      ((congrArg LoopAction.actionId haction).trans (hslotId.trans hid.symm))
    refine hd.reads_succeeded hs.settled hslot ?_ (mem_batch.mpr ⟨hread, ?_⟩) hreadOnly'
    · rwa [← haction]
    · have hbatch := (mem_batch.mp hrow).2
      rw [← hid] at hin
      exact ⟨hin.1.trans hbatch.1, hin.2.trans hbatch.2⟩

theorem settle {state : ToolInvocationState} {result : Option CommittedResult}
    {t' : BatchTables} (h : s.tables.settleTool actionId state result = some t') :
    Inv cfg { s with tables := t' } := by
  have hsettled := hs.settled.settleTool h
  obtain ⟨_, _, _, _, _, rfl⟩ := settleTool_eq_some h
  exact hs.keepActions (Moved.same rfl) (fun _ => rfl) rfl (fun _ _ hpast => hpast) hsettled

theorem endBy (hdriver : s.drivers frameId = some d) {cause : Option ActionId}
    (h : ∀ t', result = .ok t' → Inv cfg { s with tables := t' } ∧
      ∀ row ∈ t'.actions, row.actionId = actionId → ¬row.IsOpen ∧ (cause = none → row.Succeeded)) :
    Inv cfg (s.endBy frameId d actionId result cause) := by
  unfold BatchRun.endBy
  cases result with
  | error => exact hs.setStage hdriver fun _ => nofun
  | ok t' =>
    obtain ⟨hinv, hrows⟩ := h t' rfl
    refine hinv.setDriver fun d' hd' => ?_
    cases hd'
    have hd : DriverOk t' frameId d := hinv.drivers frameId d hdriver
    refine hd.setStage fun cause' hcause' slot hslot hid => ?_
    cases CallStage.ended.inj hcause'
    obtain ⟨row, hrow, haction⟩ := hd.known slot.1
      (List.mem_append_right _ (List.mem_map_of_mem hslot))
    exact ⟨row, hrow, haction, hrows row (mem_batch.mp hrow).1
      ((congrArg LoopAction.actionId haction).trans hid)⟩

/-- A call of the wave ends. -/
theorem endCall (hdriver : s.drivers frameId = some d)
    (hwave : ∃ slot ∈ d.wave, slot.1.actionId = actionId) (batchSkip : Bool) :
    Inv cfg (s.endCall frameId d actionId batchSkip) := by
  unfold BatchRun.endCall
  split
  · rename_i result hresult
    refine hs.endBy hdriver fun t' ht' => ?_
    obtain ⟨hinv, hrows⟩ := hs.recordResult hdriver hwave ht'
    refine ⟨hinv, fun row hrow hid => ⟨fun hopen => ?_, fun hcause => ?_⟩⟩
    · cases hopen.1.symm.trans (hrows row hrow hid)
    · refine ⟨_, hrows row hrow hid, ?_⟩
      by_contra hne
      have hne : ¬result.status = "SUCCEEDED" := hne
      rw [if_neg hne] at hcause
      cases hcause
  · dsimp only
    split
    · refine hs.endBy hdriver fun t' ht' => ?_
      obtain ⟨hinv, hrows⟩ := hs.recordNotExecuted ht'
      exact ⟨hinv, fun row hrow hid => ⟨hrows row hrow hid, nofun⟩⟩
    · exact hs.setStage hdriver fun _ => nofun

end

end Calls

/-! ### The loop of a driver -/

section Loop

variable {d : BatchDriver}

theorem next (hs : Inv cfg s) (hdriver : s.drivers frameId = some d)
    (h : s.next frameId frame d = some s') : Inv cfg s' := by
  have hd := hs.drivers frameId d hdriver
  unfold BatchRun.next at h
  split at h
  · rename_i action rest hwave hordered
    split at h
    · cases h
      unfold BatchRun.transactBy
      split
      · rename_i t' ht'
        obtain ⟨hinv, hrows⟩ := hs.recordNotExecuted ht'
        refine hinv.setDriver fun d' hd' => ?_
        cases hd'
        refine DriverOk.skipped (hinv.drivers frameId d hdriver) hordered fun row hrow haction => ?_
        exact hrows row (mem_batch.mp hrow).1 (congrArg LoopAction.actionId haction)
      · exact hs.setDriver fun _ h => nomatch h
    · rename_i hcause
      cases h
      refine hs.setDriver fun d' hd' => ?_
      cases hd'
      exact hd.wave hs.accepted hwave hordered hcause
  · cases h

theorem join (hs : Inv cfg s) (hdriver : s.drivers frameId = some d)
    (h : s.join frameId d = some s') : Inv cfg s' := by
  unfold BatchRun.join at h
  split_ifs at h with hover hraised
  · cases h
    exact hs.setDriver fun _ h => nomatch h
  · cases h
    refine hs.setDriver fun d' hd' => ?_
    cases hd'
    refine (hs.drivers frameId d hdriver).join hs.accepted fun slot hslot => ?_
    have hstage := hover.2 slot hslot
    cases hs : slot.2 with
    | ended cause => exact ⟨cause, rfl⟩
    | raised => exact absurd ⟨slot, hslot, hs⟩ hraised
    | running | returned => rw [hs] at hstage; exact nomatch hstage

theorem commit (hs : Inv cfg s) {iterationNo : ℕ} {t' : BatchTables}
    (h : s.tables.commitBatch frameId iterationNo = .ok t') : Inv cfg { s with tables := t' } := by
  obtain ⟨hactions, hrecords, hpast⟩ := moved_commit h
  exact hs.keepActions (Moved.same hactions) (fun _ => rfl) hrecords hpast
    (hs.settled.commit hs.accepted h)

end Loop

theorem of_calling {actionId : ActionId} {d : BatchDriver}
    (h : s.calling frameId actionId = some d) :
    s.drivers frameId = some d ∧ ∃ slot ∈ d.wave, slot.1.actionId = actionId := by
  obtain ⟨hdriver, hat⟩ := Option.filter_eq_some_iff.mp h
  exact ⟨hdriver, at_mem (of_decide_eq_true hat)⟩

/-- Every step keeps the invariant. -/
theorem step (hs : Inv cfg s) {action : BatchAction} (h : s.step cfg action = some s') :
    Inv cfg s' := by
  cases action with
  | openFrame =>
    simp only [BatchRun.step] at h
    split_ifs at h with hnone
    cases h
    refine hs.setFrame fun frame hframe => ?_
    rw [hframe] at hnone
    cases hnone
  | openIteration =>
    exact hs.movePhase (fun frame _ => .inl (Nat.lt_succ_self _)) h
  | accept =>
    cases h
    exact hs.transact fun _ ht' => hs.accept ht'
  | handoff =>
    cases h
    exact hs.transact fun _ ht' => hs.handoff ht'
  | childReturned =>
    exact hs.movePhase (f := fun frame => { frame with phase := .observed })
      (fun frame _ => .inr ⟨rfl, fun _ h => nomatch h⟩) h
  | stop =>
    exact hs.movePhase (f := fun frame => { frame with phase := .stopped })
      (fun frame _ => .inr ⟨rfl, fun _ h => nomatch h⟩) h
  | advance =>
    obtain ⟨frame, hframe, h⟩ := Option.bind_eq_some_iff.mp h
    split_ifs at h with hready
    cases h
    unfold BatchRun.begun
    split
    · rename_i d hd
      refine hs.setDriver fun d' hd' => ?_
      cases hd'
      refine DriverOk.advance ⟨frame, hframe, .inr ⟨rfl, ?_⟩⟩ hd
      rw [hready.1]
      exact nofun
    · exact hs
  | next =>
    obtain ⟨d, hd, h⟩ := Option.bind_eq_some_iff.mp h
    obtain ⟨_, -, h⟩ := Option.bind_eq_some_iff.mp h
    exact hs.next hd h
  | prepare =>
    obtain ⟨d, hd, rfl⟩ := Option.map_eq_some_iff.mp h
    exact hs.serve (of_calling hd).1 fun _ ht' => hs.prepare ht'
  | start =>
    obtain ⟨d, hd, rfl⟩ := Option.map_eq_some_iff.mp h
    obtain ⟨hdriver, hwave⟩ := of_calling hd
    exact hs.serve hdriver fun _ ht' => hs.start hdriver hwave ht'
  | settle =>
    obtain ⟨_, ht', rfl⟩ := Option.map_eq_some_iff.mp h
    exact hs.settle ht'
  | callReturns =>
    obtain ⟨d, hd, rfl⟩ := Option.map_eq_some_iff.mp h
    exact hs.setStage (of_calling hd).1 fun _ => nofun
  | endCall _ _ batchSkip =>
    obtain ⟨d, hd, rfl⟩ := Option.map_eq_some_iff.mp h
    obtain ⟨hdriver, hat⟩ := Option.filter_eq_some_iff.mp hd
    exact hs.endCall hdriver (at_mem (of_decide_eq_true hat)) batchSkip
  | join =>
    obtain ⟨d, hd, h⟩ := Option.bind_eq_some_iff.mp h
    exact hs.join hd h
  | finish =>
    obtain ⟨d, -, h⟩ := Option.bind_eq_some_iff.mp h
    split_ifs at h
    cases h
    exact (hs.transact fun _ ht' => hs.commit ht').setDriver fun _ h => nomatch h
  | crash =>
    cases h
    exact hs.setDriver fun _ h => nomatch h

theorem new : Inv cfg new where
  accepted :=
    { past := fun _ h => nomatch h
      pastRecords := fun _ h => nomatch h
      ordinals := fun _ _ => rfl
      oneWrite := fun _ _ => Nat.zero_le 1
      built := fun _ h => nomatch h
      writes := List.Pairwise.nil
      calls := List.Pairwise.nil
      polling := fun _ h => nomatch h
      recorded := fun _ h => nomatch h
      callIds := fun _ => List.nodup_nil }
  settled :=
    { owned := fun _ _ h => nomatch h
      results := fun _ h => nomatch h
      untouched := fun _ h => nomatch h
      caused := fun _ h => nomatch h
      readsFirst := fun _ h => nomatch h
      observed := fun _ h => nomatch h
      once := List.Pairwise.nil }
  drivers _ _ h := nomatch h

end Inv

/-! ## The batches of a run -/

/-- An action that is not read-only. -/
def IsWrite (row : LoopActionRow) : Prop := row.recipe.readOnly = false

structure BatchesSound (s : BatchRun) : Prop where
  oneWrite : ∀ frameId iterationNo,
    ((s.tables.batch frameId iterationNo).filter fun row => !row.recipe.readOnly).length ≤ 1
  /-- a write whose tool has been started comes after reads that all succeeded -/
  readsFirst : ∀ write ∈ s.tables.actions, IsWrite write →
    (∃ tool, s.tables.tools write.actionId = some tool ∧ tool.touched = true) →
    ∀ read ∈ s.tables.batch write.actionId.frameId write.actionId.iterationNo,
      read.recipe.readOnly = true → read.Succeeded
  oneEnd : ∀ row ∈ s.tables.actions, row.result = none ∨ row.notExecuted = none
  neverStarted : ∀ row ∈ s.tables.actions, row.notExecuted ≠ none →
    ∀ tool ∈ s.tables.tools row.actionId, tool.touched = false
  /-- an observed batch has an end for every action, and one result for every call of the assistant
  record, in the order of the ordinals; no batch is observed twice -/
  observed : ∀ observation ∈ s.tables.observations,
    (∀ row ∈ s.tables.batch observation.frameId observation.iterationNo, ¬row.IsOpen) ∧
    (s.tables.batch observation.frameId observation.iterationNo).map LoopActionRow.observed? =
      observation.results.map some ∧
    observation.results.map ObservedCall.actionId =
      (List.range observation.results.length).map
        (fun ordinal => ⟨observation.frameId, observation.iterationNo, ordinal⟩) ∧
    ∃ record ∈ s.tables.records, record.frameId = observation.frameId ∧
      record.iterationNo = observation.iterationNo ∧
      observation.results.map ObservedCall.callId = record.toolCalls.map LoopCall.callId
  observedOnce : s.tables.observations.Pairwise fun a b =>
    ¬(b.frameId = a.frameId ∧ b.iterationNo = a.iterationNo)
  /-- no two accepted writes have one tool and one digest of arguments -/
  noRepeatedWrite : s.tables.actions.Pairwise fun a b => ¬(IsWrite a ∧ IsWrite b ∧
    b.recipe.toolName = a.recipe.toolName ∧
    b.recipe.argumentsDigest = a.recipe.argumentsDigest)
  callIds : ∀ frameId, (s.tables.usedCalls frameId).Nodup
  actionCallIds : s.tables.actions.Pairwise fun a b =>
    a.actionId.frameId = b.actionId.frameId → a.protocolCallId ≠ b.protocolCallId
  /-- a bounded-polling call is accepted at most as often as its specification says -/
  polling : ∀ row ∈ s.tables.actions, row.recipe.boundedPolling = true →
    (s.tables.actions.countP fun other => row.recipe.sameArguments other.recipe) ≤
      row.recipe.maxPollAttempts

/-- What the invariant says of every batch. -/
theorem Inv.sound (hs : Inv cfg s) : BatchesSound s where
  oneWrite frameId iterationNo := by
    have hcount := hs.accepted.oneWrite frameId iterationNo
    rw [← batch_accepted, List.countP_map] at hcount
    rwa [← List.countP_eq_length_filter]
  readsFirst write hwrite hreadOnly htouched read hread hreadOnly' :=
    hs.settled.readsFirst write hwrite hreadOnly htouched read (mem_batch.mp hread).1
      (mem_batch.mp hread).2 hreadOnly'
  oneEnd row hrow := by
    cases hresult : row.result with
    | none => exact .inl rfl
    | some result =>
      right
      by_contra hskip
      obtain ⟨tool, htool, hstate, -⟩ := hs.settled.results row hrow result hresult
      have := hs.settled.untouched row hrow hskip tool htool
      simp [BatchTool.touched, hstate] at this
  neverStarted := hs.settled.untouched
  observed observation hobservation := by
    obtain ⟨-, hrows, hrecord⟩ := hs.settled.observed observation hobservation
    refine ⟨fun row hrow hopen => ?_, hrows, ?_, hrecord⟩
    · have hmem : row.observed? ∈ observation.results.map some := hrows ▸ List.mem_map_of_mem hrow
      rw [LoopActionRow.observed?, hopen.1, hopen.2] at hmem
      obtain ⟨_, -, hentry⟩ := List.mem_map.mp hmem
      cases hentry
    · have hids := hs.accepted.ordinals observation.frameId observation.iterationNo
      have hlength : observation.results.length =
          (s.tables.batch observation.frameId observation.iterationNo).length := by
        have := congrArg List.length hrows
        rwa [List.length_map, List.length_map, eq_comm] at this
      rw [← batch_accepted, List.map_map, List.length_map] at hids
      rwa [(entries_of_observed hrows).2, hlength, List.range_eq_range']
  observedOnce := hs.settled.once
  noRepeatedWrite := by
    refine (List.pairwise_map.mp hs.accepted.writes).imp fun hne => ?_
    rintro ⟨ha, hb, htool, hdigest⟩
    exact hne ⟨ha, hb, Recipe.sameCall_iff.mpr ⟨htool.symm, hdigest.symm⟩⟩
  callIds := hs.accepted.callIds
  actionCallIds := List.pairwise_map.mp hs.accepted.calls
  polling row hrow hbounded := by
    have hcount := hs.accepted.polling row.toLoopAction (List.mem_map_of_mem hrow) hbounded
    rwa [BatchTables.accepted, List.countP_map] at hcount

/-- In every run, with drivers, crashes and moves of tools in any order, batches keep their rules. -/
theorem batches_sound {acts : List BatchAction} (hrun : Trace.run (step cfg) new acts = some s) :
    BatchesSound s :=
  (Trace.run_invariant (P := Inv cfg) (fun _ _ _ h hs => hs.step h) hrun Inv.new).sound

/-! ### A batch with a crash -/

/-- Two readers that may run beside each other, and a writer. -/
def sampleConfig : BatchConfig where
  registry toolName arguments :=
    if toolName = "write" then some ⟨arguments, false, 1, false, 1, none, none⟩
    else some ⟨arguments, true, 2, false, 1, none, none⟩
  identity actionId := toString actionId.ordinal
  digest arguments := arguments

def sampleId (ordinal : ℕ) : ActionId := ⟨"f", 1, ordinal⟩

def sampleSuccess : Option CommittedResult := some ⟨"SUCCEEDED", "ok", "d"⟩

/-- The tool of a call starts and is committed, and the call ends. -/
def sampleExecution (ordinal : ℕ) : List BatchAction :=
  [.prepare "f" (sampleId ordinal), .start "f" (sampleId ordinal) false,
    .settle (sampleId ordinal) .committed sampleSuccess, .callReturns "f" (sampleId ordinal),
    .endCall "f" (sampleId ordinal) false]

/-- The driver crashes in its first wave, after one read; another one finishes the batch. -/
def sampleBatch : List BatchAction :=
  [BatchAction.openFrame "f" ⟨false, 4, 2⟩,
    BatchAction.accept "f" [⟨"c0", "write", "w"⟩, ⟨"c1", "read", "a"⟩, ⟨"c2", "read", "b"⟩],
    BatchAction.advance "f", BatchAction.next "f"] ++ sampleExecution 1 ++ [BatchAction.crash "f",
      BatchAction.advance "f", BatchAction.next "f"] ++
  sampleExecution 2 ++ [BatchAction.join "f", BatchAction.next "f"] ++ sampleExecution 0 ++
    [BatchAction.join "f", BatchAction.finish "f"]

theorem batches_sound_sampleBatch : ∃ s, Trace.run (step sampleConfig) new sampleBatch = some s ∧
    BatchesSound s ∧ s.tables.observations.map (fun observation =>
      observation.results.map ObservedCall.callId) = [["c0", "c1", "c2"]] := by
  have hrun : ((Trace.run (step sampleConfig) new sampleBatch).any fun s =>
      s.tables.observations.map (fun observation =>
        observation.results.map ObservedCall.callId) = [["c0", "c1", "c2"]]) = true := by
    decide +kernel
  obtain ⟨s, hs, hend⟩ := exists_of_any hrun
  exact ⟨s, hs, batches_sound hs, hend⟩

end BatchRun

end LocalAgent.Runtime
