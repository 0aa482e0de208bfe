import LocalAgent.Runtime.LoopBatches

/-!
# LocalAgent.Runtime.LoopBatchRows — what batches and their transactions keep

The rows of tool batches under acceptances, ends of actions, moves of tools and observations.

* `Accepted`: what the accepted actions of a run keep, whatever becomes of them.
* `Settled`: how results, skipped actions, tool rows and observations fit together.
* one lemma per transaction that says what it wrote, and one that it keeps `Settled`.
-/

namespace LocalAgent.Runtime

/-! ## Recipes -/

/-- The recipe is what the pinned adapter makes of a call. -/
def Recipe.Built (cfg : BatchConfig) (recipe : Recipe) : Prop :=
  ∃ call build actionId, cfg.registry call.toolName call.arguments = some build ∧
    recipe = build.recipe call actionId

def Recipe.sameArguments (recipe other : Recipe) : Bool :=
  other.toolName = recipe.toolName && other.arguments = recipe.arguments

theorem Recipe.sameArguments_iff {recipe other : Recipe} : recipe.sameArguments other = true ↔
    other.toolName = recipe.toolName ∧ other.arguments = recipe.arguments := by
  simp [sameArguments]

theorem Recipe.sameCall_iff {recipe other : Recipe} : recipe.sameCall other = true ↔
    other.toolName = recipe.toolName ∧ other.argumentsDigest = recipe.argumentsDigest := by
  simp [sameCall]

theorem Recipe.Built.agree {cfg : BatchConfig} {recipe other : Recipe} (h : recipe.Built cfg)
    (hother : other.Built cfg) (hsame : recipe.sameArguments other = true) :
    other.argumentsDigest = recipe.argumentsDigest ∧
      other.boundedPolling = recipe.boundedPolling ∧
      other.maxPollAttempts = recipe.maxPollAttempts := by
  obtain ⟨call, _, _, hbuild, rfl⟩ := h
  obtain ⟨call', _, _, hbuild', rfl⟩ := hother
  obtain ⟨htool, harguments⟩ := sameArguments_iff.mp hsame
  have htool : call'.toolName = call.toolName := htool
  have harguments : call'.arguments = call.arguments := harguments
  rw [htool, harguments, hbuild] at hbuild'
  cases hbuild'
  exact ⟨rfl, rfl, rfl⟩

/-- The recipes of a batch are built from their calls. -/
theorem prepareRecipes_built {cfg : BatchConfig} {frameId : String} {iterationNo : ℕ}
    {calls : List LoopCall} :
    ∀ {ordinal : ℕ} {recipes : List Recipe},
      prepareRecipes cfg.registry cfg.identity frameId iterationNo ordinal calls = .ok recipes →
      ∀ recipe ∈ recipes, recipe.Built cfg := by
  induction calls with
  | nil =>
    intro ordinal recipes h recipe hrecipe
    cases h
    cases hrecipe
  | cons call _ ih =>
    intro _ _ h recipe hrecipe
    obtain ⟨build, hbuild, h⟩ := bind_eq_ok.mp h
    obtain ⟨_, hrest, h⟩ := bind_eq_ok.mp h
    cases h
    rcases List.mem_cons.mp hrecipe with rfl | hrecipe
    · exact ⟨call, build, _, orRaise_ok.mp hbuild, rfl⟩
    · exact ih hrest recipe hrecipe

/-! ## Acceptance row by row -/

/-- No bounded-polling call is among the actions more often than its specification allows. -/
def PollingKept (actions : List LoopAction) : Prop :=
  ∀ action ∈ actions, action.recipe.boundedPolling = true →
    (actions.countP fun other => action.recipe.sameArguments other.recipe) ≤
      action.recipe.maxPollAttempts

variable {action : LoopAction} {row' : LoopActionRow}

theorem PollingKept.snoc {cfg : BatchConfig} {actions : List LoopAction}
    (h : PollingKept actions) (hbuilt : ∀ other ∈ actions ++ [action], other.recipe.Built cfg)
    (hcount : action.recipe.boundedPolling = true →
      (actions.countP fun other => action.recipe.sameCall other.recipe) <
        action.recipe.maxPollAttempts) : PollingKept (actions ++ [action]) := by
  intro old hold hbounded
  have hbuiltOld := hbuilt old hold
  have hbuiltNew := hbuilt action (List.mem_append_right _ List.mem_cons_self)
  rw [List.countP_append, List.countP_singleton]
  by_cases hsame : old.recipe.sameArguments action.recipe = true
  · obtain ⟨hdigest, hpoll, hmax⟩ := hbuiltOld.agree hbuiltNew hsame
    -- equal arguments have equal digests, and the check counted the digests
    have hle : (actions.countP fun other => old.recipe.sameArguments other.recipe) ≤
        actions.countP fun other => action.recipe.sameCall other.recipe := by
      refine List.countP_mono_left fun other hother hsameOther => ?_
      obtain ⟨hdigestOther, -, -⟩ :=
        hbuiltOld.agree (hbuilt other (List.mem_append_left _ hother)) hsameOther
      rw [Recipe.sameArguments_iff] at hsame hsameOther
      rw [Recipe.sameCall_iff]
      exact ⟨hsameOther.1.trans hsame.1.symm, hdigestOther.trans hdigest.symm⟩
    have hlt := hcount (hpoll.trans hbounded)
    rw [if_pos hsame]
    omega
  · rw [if_neg hsame]
    rcases mem_snoc hold with hold | rfl
    · exact h old hold hbounded
    · exact absurd (Recipe.sameArguments_iff.mpr ⟨rfl, rfl⟩) hsame

section AcceptRows

variable {oldActions : List LoopAction} {digest : String → String} {frameId : String}
  {iterationNo : ℕ} {pairs : List (Recipe × LoopCall)}

/-- The rows of a batch are its recipes and calls in order, under fresh call ids, and none of their
writes repeats an accepted one. -/
theorem acceptRows_ok :
    ∀ {earlier : List Recipe} {ids : List String} {rows : List LoopAction},
      acceptRows oldActions digest frameId iterationNo earlier ids pairs = .ok rows →
      rows.map LoopAction.recipe = pairs.map Prod.fst ∧
      rows.map LoopAction.protocolCallId = pairs.map (fun pair => pair.2.callId) ∧
      rows.map LoopAction.actionId = (List.range' earlier.length rows.length).map
        (fun ordinal => ⟨frameId, iterationNo, ordinal⟩) ∧
      (ids.Nodup → (ids ++ pairs.map fun pair => pair.2.callId).Nodup) ∧
      (∀ row ∈ rows, row.recipe.readOnly = false →
        ∀ action ∈ oldActions, ¬row.recipe.repeats action.recipe = true) ∧
      ∀ row ∈ rows, ∀ action ∈ oldActions, action.actionId.frameId = frameId →
        action.protocolCallId ≠ row.protocolCallId := by
  induction pairs with
  | nil =>
    intro earlier ids rows h
    cases h
    exact ⟨rfl, rfl, rfl, fun hids => by rwa [List.map_nil, List.append_nil],
      fun _ h => (nomatch h), fun _ h => nomatch h⟩
  | cons pair _ ih =>
    intro _ ids _ h
    obtain ⟨_, call⟩ := pair
    simp only [acceptRows, seq_eq_ok, raiseIf_ok] at h
    obtain ⟨-, -, hid, hwrite, h⟩ := h
    obtain ⟨_, hrest, h⟩ := bind_eq_ok.mp h
    cases h
    obtain ⟨hrecipes, hcalls, hactions, hnodup, hwrites, hfresh⟩ := ih hrest
    refine ⟨?_, ?_, ?_, fun hids => ?_, ?_, ?_⟩
    · rw [List.map_cons, List.map_cons, hrecipes]
    · rw [List.map_cons, List.map_cons, hcalls]
    · rw [List.map_cons, hactions, List.length_cons, List.range'_succ, List.map_cons,
        List.length_append, List.length_singleton]
    · have hids' : (ids ++ [call.callId]).Nodup :=
        List.nodup_append.mpr ⟨hids, List.nodup_singleton _, fun a ha b hb hab => by
          cases List.mem_singleton.mp hb
          exact hid (.inl (hab ▸ ha))⟩
      have := hnodup hids'
      rwa [List.append_assoc, List.singleton_append] at this
    · intro row hrow hreadOnly action haction hrepeats
      rcases List.mem_cons.mp hrow with rfl | hrow
      · exact hwrite ⟨hreadOnly, action, haction, hrepeats⟩
      · exact hwrites row hrow hreadOnly action haction hrepeats
    · intro row hrow action haction hframe hsame
      rcases List.mem_cons.mp hrow with rfl | hrow
      · exact hid (.inr ⟨action, haction, hframe, hsame⟩)
      · exact hfresh row hrow action haction hframe hsame

/-- Only polling calls repeat an earlier call of the frame. -/
theorem acceptRows_polling {cfg : BatchConfig} :
    ∀ {earlierRows : List LoopAction} {ids : List String} {rows : List LoopAction},
      acceptRows oldActions digest frameId iterationNo (earlierRows.map LoopAction.recipe) ids
        pairs = .ok rows →
      PollingKept (oldActions ++ earlierRows) →
      (∀ action ∈ oldActions ++ earlierRows ++ rows, action.recipe.Built cfg) →
      PollingKept (oldActions ++ earlierRows ++ rows) := by
  induction pairs with
  | nil =>
    intro earlierRows ids rows h hkept _
    cases h
    rwa [List.append_nil]
  | cons pair pairs ih =>
    intro earlierRows ids _ h hkept hbuilt
    obtain ⟨recipe, call⟩ := pair
    simp only [acceptRows, seq_eq_ok, raiseIf_ok] at h
    obtain ⟨-, hpoll, -, -, h⟩ := h
    obtain ⟨rest, hrest, h⟩ := bind_eq_ok.mp h
    cases h
    set row : LoopAction :=
      ⟨⟨frameId, iterationNo, (earlierRows.map LoopAction.recipe).length⟩, call.callId, recipe⟩
    have hsplit : oldActions ++ earlierRows ++ row :: rest =
        oldActions ++ (earlierRows ++ [row]) ++ rest := by simp
    rw [hsplit] at hbuilt ⊢
    have hrest : acceptRows oldActions digest frameId iterationNo
        ((earlierRows ++ [row]).map LoopAction.recipe) (ids ++ [call.callId]) pairs = .ok rest := by
      rwa [List.map_append]
    refine ih hrest ?_ hbuilt
    rw [← List.append_assoc]
    refine hkept.snoc (fun other hother => hbuilt other ?_) fun hbounded => ?_
    · rw [← List.append_assoc]
      exact List.mem_append_left _ hother
    · rw [List.countP_append]
      have hlt : ¬recipe.maxPollAttempts ≤ _ := fun hle => hpoll ⟨hbounded, hle⟩
      rwa [List.countP_map, not_le] at hlt

end AcceptRows

theorem pairwise_of_countP_le_one {α : Type} {p : α → Bool} :
    ∀ {l : List α}, l.countP p ≤ 1 → l.Pairwise fun a b => ¬(p a = true ∧ p b = true)
  | [], _ => List.Pairwise.nil
  | a :: l, h => by
    rw [List.countP_cons] at h
    refine List.pairwise_cons.mpr ⟨fun b hb ⟨ha, hpb⟩ => ?_, pairwise_of_countP_le_one (by omega)⟩
    have hpos := List.countP_pos_iff.mpr ⟨b, hb, hpb⟩
    rw [if_pos ha] at h
    omega

/-! ## Frames -/

/-- `frame'` is later in the life of a frame than `frame`. -/
def BatchFrame.LaterThan (frame' frame : BatchFrame) : Prop :=
  frame.iterationNo < frame'.iterationNo ∨
    frame.iterationNo = frame'.iterationNo ∧ (frame.phase ≠ .opened → frame'.phase ≠ .opened)

variable {frameId' : String} {iterationNo' : ℕ}

namespace BatchTables

variable {cfg : BatchConfig} {t t' : BatchTables} {frameId : String} {iterationNo : ℕ}

/-- The decision of this iteration has been accepted, or never will be. -/
def Past (t : BatchTables) (frameId : String) (iterationNo : ℕ) : Prop :=
  ∃ frame, t.frames frameId = some frame ∧
    (iterationNo < frame.iterationNo ∨ iterationNo = frame.iterationNo ∧ frame.phase ≠ .opened)

theorem Past.setFrame (h : t.Past frameId iterationNo) {other : String} {frame' : BatchFrame}
    (hlater : ∀ frame, t.frames other = some frame → BatchFrame.LaterThan frame' frame) :
    (t.setFrame other frame').Past frameId iterationNo := by
  obtain ⟨frame, hframe, hpast⟩ := h
  by_cases hkey : frameId = other
  · subst hkey
    refine ⟨frame', Function.update_self .., ?_⟩
    rcases hlater frame hframe with hlt | ⟨heq, hphase⟩ <;> rcases hpast with hpast | ⟨hit, hp⟩
    · exact .inl (hpast.trans hlt)
    · exact .inl (hit ▸ hlt)
    · exact .inl (heq ▸ hpast)
    · exact .inr ⟨hit.trans heq, hphase hp⟩
  · exact ⟨frame, (Function.update_of_ne hkey ..).trans hframe, hpast⟩

/-! ## What has been accepted -/

/-- The accepted actions of the run, in the order of their acceptance. -/
def accepted (t : BatchTables) : List LoopAction := t.actions.map LoopActionRow.toLoopAction

theorem batch_accepted :
    (t.batch frameId iterationNo).map LoopActionRow.toLoopAction =
      t.accepted.filter fun action => action.InBatch frameId iterationNo := by
  rw [accepted, List.filter_map]
  rfl

structure Accepted (cfg : BatchConfig) (t : BatchTables) : Prop where
  past : ∀ action ∈ t.accepted, t.Past action.actionId.frameId action.actionId.iterationNo
  pastRecords : ∀ record ∈ t.records, t.Past record.frameId record.iterationNo
  ordinals : ∀ frameId iterationNo,
    ((t.accepted.filter fun action => action.InBatch frameId iterationNo).map
      LoopAction.actionId) =
    (List.range' 0 (t.accepted.filter fun action =>
      action.InBatch frameId iterationNo).length).map fun ordinal => ⟨frameId, iterationNo, ordinal⟩
  oneWrite : ∀ frameId iterationNo,
    (t.accepted.filter fun action => action.InBatch frameId iterationNo).countP
      (fun action => !action.recipe.readOnly) ≤ 1
  built : ∀ action ∈ t.accepted, action.recipe.Built cfg
  writes : t.accepted.Pairwise fun a b => ¬(a.recipe.readOnly = false ∧ b.recipe.readOnly = false ∧
    b.recipe.sameCall a.recipe = true)
  calls : t.accepted.Pairwise fun a b => a.actionId.frameId = b.actionId.frameId →
    a.protocolCallId ≠ b.protocolCallId
  polling : PollingKept t.accepted
  recorded : ∀ record ∈ t.records,
    (t.accepted.filter fun action => action.InBatch record.frameId record.iterationNo) = [] ∨
    (t.accepted.filter fun action => action.InBatch record.frameId record.iterationNo).map
      LoopAction.protocolCallId = record.toolCalls.map LoopCall.callId
  callIds : ∀ frameId, (t.usedCalls frameId).Nodup

namespace Accepted

theorem keep (h : Accepted cfg t) (haccepted : t'.accepted = t.accepted)
    (hrecords : t'.records = t.records)
    (hpast : ∀ frameId iterationNo, t.Past frameId iterationNo → t'.Past frameId iterationNo) :
    Accepted cfg t' where
  past action haction := hpast _ _ (h.past action (haccepted ▸ haction))
  pastRecords record hrecord := hpast _ _ (h.pastRecords record (hrecords ▸ hrecord))
  ordinals := haccepted ▸ h.ordinals
  oneWrite := haccepted ▸ h.oneWrite
  built := haccepted ▸ h.built
  writes := haccepted ▸ h.writes
  calls := haccepted ▸ h.calls
  polling := haccepted ▸ h.polling
  recorded := haccepted ▸ hrecords ▸ h.recorded
  callIds frameId := by
    rw [usedCalls, hrecords]
    exact h.callIds frameId

theorem nodup_batch (h : Accepted cfg t) (frameId : String) (iterationNo : ℕ) :
    ((t.batch frameId iterationNo).map fun row => row.actionId).Nodup := by
  have hmap : ((t.batch frameId iterationNo).map fun row => row.actionId) =
      ((t.batch frameId iterationNo).map LoopActionRow.toLoopAction).map LoopAction.actionId := by
    rw [List.map_map]
    rfl
  rw [hmap, batch_accepted, h.ordinals]
  refine (List.nodup_range' ..).map fun a b hab => ?_
  exact congrArg ActionId.ordinal hab

theorem row_unique (h : Accepted cfg t) {row : LoopActionRow} (hrow : row ∈ t.actions)
    (hrow' : row' ∈ t.actions) (hid : row.actionId = row'.actionId) : row = row' := by
  refine List.inj_on_of_nodup_map
    (h.nodup_batch row.actionId.frameId row.actionId.iterationNo) ?_ ?_ hid
  · exact List.mem_filter.mpr ⟨hrow, decide_eq_true ⟨rfl, rfl⟩⟩
  · exact List.mem_filter.mpr ⟨hrow', decide_eq_true ⟨by rw [hid], by rw [hid]⟩⟩

end Accepted

theorem mem_batch {row : LoopActionRow} :
    row ∈ t.batch frameId iterationNo ↔ row ∈ t.actions ∧ row.InBatch frameId iterationNo := by
  rw [batch, List.mem_filter, decide_eq_true_eq]

theorem action?_eq_some {actionId : ActionId} {row : LoopActionRow}
    (h : t.action? actionId = some row) : row ∈ t.actions ∧ row.actionId = actionId := by
  unfold action? at h
  exact ⟨List.mem_of_find?_eq_some h, by simpa using List.find?_some h⟩

/-! ## Acceptance keeps it -/

structure AcceptsBatch (cfg : BatchConfig) (t : BatchTables) (frameId : String)
    (frame : BatchFrame) (calls : List LoopCall) (rows : List LoopAction) : Prop where
  found : t.frames frameId = some frame
  opened : frame.phase = .opened
  unused : ∀ call ∈ calls, call.callId ∉ t.usedCalls frameId
  nodup : (calls.map LoopCall.callId).Nodup
  callIds : rows.map LoopAction.protocolCallId = calls.map LoopCall.callId
  actionIds : rows.map LoopAction.actionId = (List.range' 0 rows.length).map
    fun ordinal => ⟨frameId, frame.iterationNo, ordinal⟩
  oneWrite : rows.countP (fun action => !action.recipe.readOnly) ≤ 1
  built : ∀ action ∈ rows, action.recipe.Built cfg
  newWrites : ∀ row ∈ rows, row.recipe.readOnly = false →
    ∀ action ∈ t.accepted, ¬row.recipe.repeats action.recipe = true
  newCalls : ∀ row ∈ rows, ∀ action ∈ t.accepted, action.actionId.frameId = frameId →
    action.protocolCallId ≠ row.protocolCallId
  polling : (∀ action ∈ t.accepted ++ rows, action.recipe.Built cfg) → PollingKept t.accepted →
    PollingKept (t.accepted ++ rows)

def withBatch (t : BatchTables) (frameId : String) (frame : BatchFrame) (calls : List LoopCall)
    (rows : List LoopAction) : BatchTables :=
  { t.setFrame frameId { frame with phase := .accepted } with
    actions := t.actions ++ rows.map LoopAction.row
    records := t.records ++ [⟨frameId, frame.iterationNo, calls⟩] }

/-- What `accept_batch` has checked before it writes its rows. -/
theorem acceptBatch_ok {calls : List LoopCall} {recipes : List Recipe}
    (hbuilt : ∀ recipe ∈ recipes, recipe.Built cfg)
    (h : t.acceptBatch cfg.digest frameId calls recipes calls = .ok t') :
    ∃ frame rows, AcceptsBatch cfg t frameId frame calls rows ∧
      t' = t.withBatch frameId frame calls rows := by
  obtain ⟨frame, hframe, h⟩ := bind_eq_ok.mp h
  simp only [seq_eq_ok, raiseIf_ok, not_not] at h
  obtain ⟨hopened, hunused, ⟨-, hlength, -⟩, hwrites, h⟩ := h
  obtain ⟨rows, hrows, h⟩ := bind_eq_ok.mp h
  cases h
  obtain ⟨hrecipes, hcalls, hactions, hnodup, hnew, hfresh⟩ := acceptRows_ok hrows
  have hzip : (recipes.zip calls).map (fun pair => pair.2.callId) = calls.map LoopCall.callId := by
    have hsnd : (recipes.zip calls).map Prod.snd = calls := List.map_snd_zip hlength.ge
    calc (recipes.zip calls).map (fun pair => pair.2.callId)
        = ((recipes.zip calls).map Prod.snd).map LoopCall.callId := by
          rw [List.map_map]
          rfl
      _ = calls.map LoopCall.callId := by rw [hsnd]
  rw [List.map_fst_zip hlength.le] at hrecipes
  refine ⟨frame, rows, ⟨orRaise_ok.mp hframe, hopened, fun call hcall hused =>
    hunused ⟨call, hcall, hused⟩, ?_, hcalls.trans hzip, hactions, ?_, ?_, hnew, hfresh, ?_⟩, rfl⟩
  · have := hnodup List.nodup_nil
    rwa [List.nil_append, hzip] at this
  · have hcount : rows.countP (fun action => !action.recipe.readOnly) =
        recipes.countP fun recipe => !recipe.readOnly := by
      rw [← hrecipes, List.countP_map]
      rfl
    rw [hcount]
    omega
  · intro _ haction
    refine hbuilt _ ?_
    rw [← hrecipes]
    exact List.mem_map_of_mem haction
  · intro _ _
    have hstart : acceptRows t.accepted cfg.digest frameId frame.iterationNo
        (([] : List LoopAction).map LoopAction.recipe) [] (recipes.zip calls) = .ok rows := hrows
    have hpolling := acceptRows_polling hstart (by rwa [List.append_nil]) (by rwa [List.append_nil])
    rwa [List.append_nil] at hpolling

namespace AcceptsBatch

variable {frame : BatchFrame} {calls : List LoopCall} {rows : List LoopAction}

section

variable (h : AcceptsBatch cfg t frameId frame calls rows)
include h

theorem inBatch (haction : action ∈ rows) : action.InBatch frameId frame.iterationNo := by
  have hid : action.actionId ∈ rows.map LoopAction.actionId := List.mem_map_of_mem haction
  rw [h.actionIds] at hid
  obtain ⟨_, -, hordinal⟩ := List.mem_map.mp hid
  exact ⟨by rw [← hordinal], by rw [← hordinal]⟩

theorem later :
    ∀ old, t.frames frameId = some old →
      BatchFrame.LaterThan { frame with phase := .accepted } old := by
  intro _ hold
  cases hold.symm.trans h.found
  exact .inr ⟨rfl, fun _ => nofun⟩

theorem not_past : ¬t.Past frameId frame.iterationNo := by
  rintro ⟨_, hold, hlt | ⟨-, hphase⟩⟩
  · cases hold.symm.trans h.found
    exact absurd hlt (lt_irrefl _)
  · cases hold.symm.trans h.found
    exact hphase h.opened

end

theorem past_new : (t.withBatch frameId frame calls rows).Past frameId frame.iterationNo :=
  ⟨_, Function.update_self .., .inr ⟨rfl, nofun⟩⟩

section

variable (h : AcceptsBatch cfg t frameId frame calls rows)
include h

theorem past_kept (hpast : t.Past frameId' iterationNo') :
    (t.withBatch frameId frame calls rows).Past frameId' iterationNo' :=
  hpast.setFrame h.later

theorem filter_other (hkey : ¬(frameId' = frameId ∧ iterationNo' = frame.iterationNo)) :
    (rows.filter fun action => action.InBatch frameId' iterationNo') = [] := by
  refine List.filter_eq_nil_iff.mpr fun action haction hin => hkey ?_
  have hbatch := h.inBatch haction
  have hin := of_decide_eq_true hin
  exact ⟨hin.1.symm.trans hbatch.1, hin.2.symm.trans hbatch.2⟩

theorem filter_new : (rows.filter fun action => action.InBatch frameId frame.iterationNo) = rows :=
  List.filter_eq_self.mpr fun _ haction => decide_eq_true (h.inBatch haction)

theorem filter_old (ht : Accepted cfg t) :
    (t.accepted.filter fun action => action.InBatch frameId frame.iterationNo) = [] := by
  refine List.filter_eq_nil_iff.mpr fun action haction hin => h.not_past ?_
  obtain ⟨hframe, hiteration⟩ := of_decide_eq_true hin
  rw [← hframe, ← hiteration]
  exact ht.past action haction

end

theorem accepted_eq : (t.withBatch frameId frame calls rows).accepted = t.accepted ++ rows := by
  simp only [accepted, withBatch, List.map_append, List.map_map]
  congr 1
  exact List.map_id rows

theorem filter_cases (h : AcceptsBatch cfg t frameId frame calls rows) (ht : Accepted cfg t)
    (frameId' : String) (iterationNo' : ℕ) :
    ((t.accepted ++ rows).filter fun action => action.InBatch frameId' iterationNo') =
        (t.accepted.filter fun action => action.InBatch frameId' iterationNo') ∨
      frameId' = frameId ∧ iterationNo' = frame.iterationNo ∧
        ((t.accepted ++ rows).filter fun action => action.InBatch frameId' iterationNo') = rows := by
  rw [List.filter_append]
  by_cases hkey : frameId' = frameId ∧ iterationNo' = frame.iterationNo
  · obtain ⟨rfl, rfl⟩ := hkey
    rw [h.filter_old ht, h.filter_new]
    exact .inr ⟨rfl, rfl, rfl⟩
  · rw [h.filter_other hkey, List.append_nil]
    exact .inl rfl

theorem usedCalls_eq (frameId' : String) :
    (t.withBatch frameId frame calls rows).usedCalls frameId' =
      t.usedCalls frameId' ++ if frameId = frameId' then calls.map LoopCall.callId else [] := by
  simp only [usedCalls, withBatch, List.filter_append, List.flatMap_append]
  congr 1
  by_cases hframe : frameId = frameId' <;> simp [hframe]

/-- A batch is accepted once: call ids and numbers are new. -/
theorem accepted (h : AcceptsBatch cfg t frameId frame calls rows) (ht : Accepted cfg t) :
    Accepted cfg (t.withBatch frameId frame calls rows) where
  past action haction := by
    rw [accepted_eq] at haction
    rcases List.mem_append.mp haction with haction | haction
    · exact h.past_kept (ht.past action haction)
    · obtain ⟨hframe, hiteration⟩ := h.inBatch haction
      rw [hframe, hiteration]
      exact past_new
  pastRecords record hrecord := by
    rcases mem_snoc hrecord with hrecord | rfl
    · exact h.past_kept (ht.pastRecords record hrecord)
    · exact past_new
  ordinals frameId' iterationNo' := by
    rw [accepted_eq]
    rcases h.filter_cases ht frameId' iterationNo' with heq | ⟨rfl, rfl, heq⟩
    · rw [heq]
      exact ht.ordinals frameId' iterationNo'
    · rw [heq]
      exact h.actionIds
  oneWrite frameId' iterationNo' := by
    rw [accepted_eq]
    rcases h.filter_cases ht frameId' iterationNo' with heq | ⟨rfl, rfl, heq⟩
    · rw [heq]
      exact ht.oneWrite frameId' iterationNo'
    · rw [heq]
      exact h.oneWrite
  built action haction := by
    rw [accepted_eq] at haction
    rcases List.mem_append.mp haction with haction | haction
    · exact ht.built action haction
    · exact h.built action haction
  writes := by
    rw [accepted_eq]
    refine List.pairwise_append.mpr ⟨ht.writes, ?_, fun a ha b hb ⟨hwrite, hwrite', hsame⟩ => ?_⟩
    · refine (pairwise_of_countP_le_one h.oneWrite).imp fun hpair hwrites => hpair ?_
      rw [hwrites.1, hwrites.2.1]
      exact ⟨rfl, rfl⟩
    · refine h.newWrites b hb hwrite' a ha ?_
      obtain ⟨htool, hdigest⟩ := Recipe.sameCall_iff.mp hsame
      simp [Recipe.repeats, hwrite, htool, hdigest]
  calls := by
    rw [accepted_eq]
    refine List.pairwise_append.mpr ⟨ht.calls, ?_, fun a ha b hb hframe => ?_⟩
    · have hnodup : (rows.map LoopAction.protocolCallId).Nodup := h.callIds ▸ h.nodup
      refine (List.pairwise_map.mp hnodup).imp ?_
      intro a b hne _
      exact hne
    · exact h.newCalls b hb a ha (hframe.trans (h.inBatch hb).1)
  polling := by
    rw [accepted_eq]
    refine h.polling (fun action haction => ?_) ht.polling
    rcases List.mem_append.mp haction with haction | haction
    · exact ht.built action haction
    · exact h.built action haction
  recorded record hrecord := by
    rw [accepted_eq]
    rcases mem_snoc hrecord with hrecord | rfl
    · rcases h.filter_cases ht record.frameId record.iterationNo with heq | ⟨hframe, hit, -⟩
      · rw [heq]
        exact ht.recorded record hrecord
      · have hpast := ht.pastRecords record hrecord
        rw [hframe, hit] at hpast
        exact absurd hpast h.not_past
    · rw [List.filter_append, h.filter_old ht, h.filter_new, List.nil_append]
      exact .inr h.callIds
  callIds frameId' := by
    rw [usedCalls_eq]
    split_ifs with hframe
    · subst hframe
      refine List.nodup_append.mpr ⟨ht.callIds _, h.nodup, fun a ha b hb hab => ?_⟩
      obtain ⟨call, hcall, rfl⟩ := List.mem_map.mp hb
      exact h.unused call hcall (hab ▸ ha)
    · rw [List.append_nil]
      exact ht.callIds frameId'

end AcceptsBatch

/-! ## Results, skipped actions and tool rows -/

end BatchTables

/-- The action has neither a result nor a reason. -/
def LoopActionRow.IsOpen (row : LoopActionRow) : Prop := row.result = none ∧ row.notExecuted = none

def LoopActionRow.Succeeded (row : LoopActionRow) : Prop :=
  ∃ result ∈ row.result, result.1.outcome = "SUCCEEDED"

/-- The entry of the observation that the row stands for. -/
def LoopActionRow.observed? (row : LoopActionRow) : Option ObservedCall :=
  match row.notExecuted with
  | some notExecuted => some ⟨row.protocolCallId, row.actionId, .notExecuted notExecuted⟩
  | none => row.result.map fun result => ⟨row.protocolCallId, row.actionId, .executed result.1⟩

structure ActionMove (row row' : LoopActionRow) : Prop where
  action : row'.toLoopAction = row.toLoopAction
  moved : row'.result = row.result ∧ row'.notExecuted = row.notExecuted ∨
    row.IsOpen ∧ ¬row'.IsOpen

theorem ActionMove.refl (row : LoopActionRow) : ActionMove row row := ⟨rfl, .inl ⟨rfl, rfl⟩⟩

theorem ActionMove.open_of_open {row : LoopActionRow} (h : ActionMove row row') (hopen : row'.IsOpen) :
    row.IsOpen := by
  rcases h.moved with ⟨hresult, hskip⟩ | ⟨hopen', -⟩
  · exact ⟨hresult ▸ hopen.1, hskip ▸ hopen.2⟩
  · exact hopen'

theorem ActionMove.succeeded {row : LoopActionRow} (h : ActionMove row row') (hs : row.Succeeded) :
    row'.Succeeded := by
  obtain ⟨result, hresult, hs⟩ := hs
  rcases h.moved with ⟨hsame, -⟩ | ⟨hopen, -⟩
  · exact ⟨result, hsame ▸ hresult, hs⟩
  · cases hopen.1.symm.trans hresult

theorem ActionMove.observed? {row row' : LoopActionRow} (h : ActionMove row row')
    (hs : row.observed? ≠ none) : row'.observed? = row.observed? := by
  rcases h.moved with ⟨hresult, hskip⟩ | ⟨hopen, -⟩
  · rw [LoopActionRow.observed?, LoopActionRow.observed?, hresult, hskip, h.action]
  · refine absurd ?_ hs
    rw [LoopActionRow.observed?, hopen.1, hopen.2]
    rfl

theorem BatchTool.touched_of_failed {tool : BatchTool}
    (h : tool.failed = true) : tool.state = .committed ∧ tool.touched = true := by
  simp only [BatchTool.failed, Bool.and_eq_true, decide_eq_true_eq] at h
  refine ⟨h.1, ?_⟩
  simp [BatchTool.touched, h.1]

namespace BatchTables

variable {cfg : BatchConfig} {t t' : BatchTables} {frameId : String} {iterationNo : ℕ}

/-- Every row moves on as `g` says. -/
structure Moved (g : LoopActionRow → LoopActionRow) (t t' : BatchTables) : Prop where
  actions : t'.actions = t.actions.map g
  moves : ∀ row ∈ t.actions, ActionMove row (g row)

namespace Moved

variable {g : LoopActionRow → LoopActionRow}

theorem same (h : t'.actions = t.actions) : Moved id t t' :=
  ⟨by rw [h, List.map_id], fun row _ => .refl row⟩

theorem accepted (h : Moved g t t') : t'.accepted = t.accepted := by
  rw [BatchTables.accepted, h.actions, List.map_map]
  exact List.map_congr_left fun row hrow => (h.moves row hrow).action

theorem batch (h : Moved g t t') (frameId : String) (iterationNo : ℕ) :
    t'.batch frameId iterationNo = (t.batch frameId iterationNo).map g := by
  rw [BatchTables.batch, h.actions, List.filter_map, BatchTables.batch]
  congr 1
  refine List.filter_congr fun row hrow => ?_
  show decide (LoopAction.InBatch _ _ (g row).toLoopAction) = _
  rw [(h.moves row hrow).action]

theorem mem (h : Moved g t t') (hrow' : row' ∈ t'.actions) : ∃ row ∈ t.actions, row' = g row := by
  rw [h.actions] at hrow'
  obtain ⟨row, hrow, rfl⟩ := List.mem_map.mp hrow'
  exact ⟨row, hrow, rfl⟩

variable {row : LoopActionRow}

theorem mem_map (h : Moved g t t') (hrow : row ∈ t.actions) : g row ∈ t'.actions := by
  rw [h.actions]
  exact List.mem_map_of_mem hrow

theorem actionId (h : Moved g t t') (hrow : row ∈ t.actions) : (g row).actionId = row.actionId :=
  congrArg LoopAction.actionId (h.moves row hrow).action

theorem recipe (h : Moved g t t') (hrow : row ∈ t.actions) : (g row).recipe = row.recipe :=
  congrArg LoopAction.recipe (h.moves row hrow).action

end Moved

/-- How rows, tools and observations of a run fit together. -/
structure Settled (t : BatchTables) : Prop where
  owned : ∀ actionId tool, t.tools actionId = some tool → ∃ row ∈ t.actions, row.actionId = actionId
  results : ∀ row ∈ t.actions, ∀ result ∈ row.result, ∃ tool,
    t.tools row.actionId = some tool ∧ tool.state = .committed ∧
      ∃ committed ∈ tool.committedResult, result = (committed.projection, committed.digest)
  untouched : ∀ row ∈ t.actions, row.notExecuted ≠ none →
    ∀ tool ∈ t.tools row.actionId, tool.touched = false
  caused : ∀ row ∈ t.actions, row.notExecuted ≠ none → ∃ cause ∈ t.actions,
    cause.InBatch row.actionId.frameId row.actionId.iterationNo ∧
      ∃ tool, t.tools cause.actionId = some tool ∧ tool.failed = true
  readsFirst : ∀ write ∈ t.actions, write.recipe.readOnly = false →
    (∃ tool, t.tools write.actionId = some tool ∧ tool.touched = true) →
    ∀ read ∈ t.actions, read.InBatch write.actionId.frameId write.actionId.iterationNo →
      read.recipe.readOnly = true → read.Succeeded
  observed : ∀ observation ∈ t.observations,
    t.Past observation.frameId observation.iterationNo ∧
    (t.batch observation.frameId observation.iterationNo).map LoopActionRow.observed? =
      observation.results.map some ∧
    ∃ record ∈ t.records, record.frameId = observation.frameId ∧
      record.iterationNo = observation.iterationNo ∧
      observation.results.map ObservedCall.callId = record.toolCalls.map LoopCall.callId
  once : t.observations.Pairwise fun a b =>
    ¬(b.frameId = a.frameId ∧ b.iterationNo = a.iterationNo)

namespace Settled

variable {g : LoopActionRow → LoopActionRow}

/-- What a step has to show for the rows and tools to go on fitting together. -/
theorem keep (hs : Settled t) (hm : Moved g t t') (hobservations : t'.observations = t.observations)
    (hrecords : t'.records = t.records)
    (hpast : ∀ frameId iterationNo, t.Past frameId iterationNo → t'.Past frameId iterationNo)
    (howned : ∀ actionId tool, t'.tools actionId = some tool →
      ∃ row ∈ t.actions, row.actionId = actionId)
    (hcommitted : ∀ actionId tool, t.tools actionId = some tool → tool.state = .committed →
      t'.tools actionId = some tool)
    (hresult : ∀ row ∈ t.actions, row.IsOpen → ∀ result ∈ (g row).result, ∃ tool,
      t'.tools row.actionId = some tool ∧ tool.state = .committed ∧
        ∃ committed ∈ tool.committedResult, result = (committed.projection, committed.digest))
    (huntouched : ∀ row ∈ t.actions, (g row).notExecuted ≠ none →
      ∀ tool ∈ t'.tools row.actionId, tool.touched = false)
    (hcaused : ∀ row ∈ t.actions, row.IsOpen → (g row).notExecuted ≠ none →
      ∃ cause ∈ t.actions, cause.InBatch row.actionId.frameId row.actionId.iterationNo ∧
        ∃ tool, t.tools cause.actionId = some tool ∧ tool.failed = true)
    (hreads : ∀ write ∈ t.actions, write.recipe.readOnly = false →
      (∃ tool, t'.tools write.actionId = some tool ∧ tool.touched = true) →
      (∃ tool, t.tools write.actionId = some tool ∧ tool.touched = true) ∨
      ∀ read ∈ t.actions, read.InBatch write.actionId.frameId write.actionId.iterationNo →
        read.recipe.readOnly = true → read.Succeeded) :
    Settled t' where
  owned actionId tool htool := by
    obtain ⟨row, hrow, hid⟩ := howned actionId tool htool
    exact ⟨g row, hm.mem_map hrow, (hm.actionId hrow).trans hid⟩
  results row' hrow' result hres := by
    obtain ⟨row, hrow, rfl⟩ := hm.mem hrow'
    rw [hm.actionId hrow]
    rcases (hm.moves row hrow).moved with ⟨hsame, -⟩ | ⟨hopen, -⟩
    · obtain ⟨tool, htool, hstate, hc⟩ := hs.results row hrow result (hsame ▸ hres)
      exact ⟨tool, hcommitted _ tool htool hstate, hstate, hc⟩
    · exact hresult row hrow hopen result hres
  untouched row' hrow' hskip := by
    obtain ⟨row, hrow, rfl⟩ := hm.mem hrow'
    rw [hm.actionId hrow]
    exact huntouched row hrow hskip
  caused row' hrow' hskip := by
    obtain ⟨row, hrow, rfl⟩ := hm.mem hrow'
    have hcause : ∃ cause ∈ t.actions,
        cause.InBatch row.actionId.frameId row.actionId.iterationNo ∧
          ∃ tool, t.tools cause.actionId = some tool ∧ tool.failed = true := by
      rcases (hm.moves row hrow).moved with ⟨-, hsame⟩ | ⟨hopen, -⟩
      · exact hs.caused row hrow (hsame ▸ hskip)
      · exact hcaused row hrow hopen hskip
    obtain ⟨cause, hcause, hin, tool, htool, hfailed⟩ := hcause
    refine ⟨g cause, hm.mem_map hcause, ?_, tool, ?_, hfailed⟩
    · rwa [hm.actionId hrow, (hm.moves cause hcause).action]
    · rw [hm.actionId hcause]
      exact hcommitted _ tool htool (BatchTool.touched_of_failed hfailed).1
  readsFirst write' hwrite' hreadOnly htouched read' hread' hin hreadOnly' := by
    obtain ⟨write, hwrite, rfl⟩ := hm.mem hwrite'
    obtain ⟨read, hread, rfl⟩ := hm.mem hread'
    rw [hm.actionId hwrite] at htouched hin
    rw [hm.recipe hwrite] at hreadOnly
    rw [hm.recipe hread] at hreadOnly'
    rw [(hm.moves read hread).action] at hin
    refine (hm.moves read hread).succeeded ?_
    rcases hreads write hwrite hreadOnly htouched with hold | hall
    · exact hs.readsFirst write hwrite hreadOnly hold read hread hin hreadOnly'
    · exact hall read hread hin hreadOnly'
  observed observation hobservation := by
    rw [hobservations] at hobservation
    obtain ⟨hpast', hrows, hrecord⟩ := hs.observed observation hobservation
    refine ⟨hpast _ _ hpast', ?_, hrecords ▸ hrecord⟩
    rw [hm.batch, List.map_map, ← hrows]
    refine List.map_congr_left fun row hrow => ?_
    refine (hm.moves row (mem_batch.mp hrow).1).observed? fun hnone => ?_
    have hmem : row.observed? ∈ observation.results.map some :=
      hrows ▸ List.mem_map_of_mem hrow
    obtain ⟨_, -, hentry⟩ := List.mem_map.mp hmem
    cases hentry.trans hnone
  once := hobservations ▸ hs.once

end Settled

/-! ## The transactions -/

theorem lockLoop_eq_ok {frame : BatchFrame} :
    t.lockLoop frameId = .ok frame ↔ t.frames frameId = some frame := orRaise_ok

section SetAction

variable {actionId : ActionId} {f : LoopActionRow → LoopActionRow}

theorem moved_setAction
    (h : ∀ row ∈ t.actions, row.actionId = actionId → ActionMove row (f row)) :
    Moved (fun row => if row.actionId = actionId then f row else row) t (t.setAction actionId f) := by
  refine ⟨rfl, fun row hrow => ?_⟩
  show ActionMove row (if row.actionId = actionId then f row else row)
  split_ifs with hid
  · exact h row hrow hid
  · exact .refl row

theorem moved_bound : Moved
    (fun row => if row.actionId = actionId then { row with bound := true } else row) t
    (t.setAction actionId fun row => { row with bound := true }) :=
  moved_setAction fun _ _ _ => ⟨rfl, .inl ⟨rfl, rfl⟩⟩

end SetAction

variable {frame' : BatchFrame}

namespace Settled

variable {g : LoopActionRow → LoopActionRow} {actionId : ActionId}

theorem keepTools (hs : Settled t) (hm : Moved g t t')
    (hsame : ∀ row ∈ t.actions, (g row).result = row.result ∧ (g row).notExecuted = row.notExecuted)
    (hobservations : t'.observations = t.observations) (hrecords : t'.records = t.records)
    (hpast : ∀ frameId iterationNo, t.Past frameId iterationNo → t'.Past frameId iterationNo)
    (howned : ∀ actionId tool, t'.tools actionId = some tool →
      ∃ row ∈ t.actions, row.actionId = actionId)
    (hcommitted : ∀ actionId tool, t.tools actionId = some tool → tool.state = .committed →
      t'.tools actionId = some tool)
    (huntouched : ∀ row ∈ t.actions, row.notExecuted ≠ none →
      ∀ tool ∈ t'.tools row.actionId, tool.touched = false)
    (hreads : ∀ write ∈ t.actions, write.recipe.readOnly = false →
      (∃ tool, t'.tools write.actionId = some tool ∧ tool.touched = true) →
      (∃ tool, t.tools write.actionId = some tool ∧ tool.touched = true) ∨
      ∀ read ∈ t.actions, read.InBatch write.actionId.frameId write.actionId.iterationNo →
        read.recipe.readOnly = true → read.Succeeded) : Settled t' := by
  refine hs.keep hm hobservations hrecords hpast howned hcommitted ?_ ?_ ?_ hreads
  · intro row hrow hopen _ hresult
    rw [(hsame row hrow).1, hopen.1] at hresult
    cases hresult
  · intro row hrow hskip
    rw [(hsame row hrow).2] at hskip
    exact huntouched row hrow hskip
  · intro row hrow hopen hskip
    rw [(hsame row hrow).2] at hskip
    exact absurd hopen.2 hskip

theorem setFrame (hs : Settled t)
    (hlater : ∀ frame, t.frames frameId = some frame → BatchFrame.LaterThan frame' frame) :
    Settled (t.setFrame frameId frame') :=
  hs.keepTools (Moved.same rfl) (fun _ _ => ⟨rfl, rfl⟩) rfl rfl
    (fun _ _ hpast => hpast.setFrame hlater) hs.owned (fun _ _ htool _ => htool) hs.untouched
    fun _ _ _ htouched => .inl htouched

end Settled

/-! ### Tool rows -/

section Tools

variable {actionId : ActionId}

theorem bindLoopAction_ok (h : t.bindLoopAction actionId = .ok t') :
    (∃ row ∈ t.actions, row.actionId = actionId) ∧
      t' = t.setAction actionId fun row => { row with bound := true } := by
  obtain ⟨_, -, h⟩ := bind_eq_ok.mp h
  obtain ⟨row, hrow, h⟩ := bind_eq_ok.mp h
  obtain ⟨-, h⟩ := seq_eq_ok.mp h
  obtain ⟨hmem, hid⟩ := action?_eq_some (orRaise_ok.mp hrow)
  exact ⟨⟨row, hmem, hid⟩, (Except.ok.inj h).symm⟩

theorem prepareTool_ok (h : t.prepareTool actionId = .ok t') :
    (∃ row ∈ t.actions, row.actionId = actionId) ∧
      ((∃ tool, t.tools actionId = some tool) ∧
        t' = t.setAction actionId (fun row => { row with bound := true }) ∨
      t.tools actionId = none ∧
        t' = (t.setTool actionId ⟨.prepared, false, none⟩).setAction actionId
          fun row => { row with bound := true }) := by
  unfold prepareTool at h
  split at h
  · rename_i hnone
    obtain ⟨hrow, rfl⟩ := bindLoopAction_ok h
    exact ⟨hrow, .inr ⟨hnone, rfl⟩⟩
  · rename_i tool htool
    obtain ⟨hrow, rfl⟩ := bindLoopAction_ok h
    exact ⟨hrow, .inl ⟨⟨tool, htool⟩, rfl⟩⟩

theorem bound_same (row : LoopActionRow) :
    (if row.actionId = actionId then { row with bound := true } else row).result = row.result ∧
      (if row.actionId = actionId then { row with bound := true } else row).notExecuted =
        row.notExecuted := by
  split_ifs <;> exact ⟨rfl, rfl⟩

/-- A prepared tool leaves settled rows alone. -/
theorem Settled.prepareTool (hs : Settled t) (h : t.prepareTool actionId = .ok t') :
    Settled t' := by
  obtain ⟨hrow, ⟨-, rfl⟩ | ⟨hnone, rfl⟩⟩ := prepareTool_ok h
  · exact hs.keepTools moved_bound (fun row _ => bound_same row) rfl rfl (fun _ _ hpast => hpast)
      hs.owned (fun _ _ htool _ => htool) hs.untouched fun _ _ _ htouched => .inl htouched
  · have htools : ∀ other, other ≠ actionId →
        (t.setTool actionId ⟨.prepared, false, none⟩).tools other = t.tools other :=
      fun other hne => Function.update_of_ne hne ..
    have hself : (t.setTool actionId ⟨.prepared, false, none⟩).tools actionId =
        some ⟨.prepared, false, none⟩ := Function.update_self ..
    refine hs.keepTools ⟨rfl, moved_bound.moves⟩ (fun row _ => bound_same row) rfl rfl (fun _ _ hpast => hpast)
      ?_ ?_ ?_ ?_
    · intro other tool htool
      by_cases hid : other = actionId
      · exact hid ▸ hrow
      · exact hs.owned other tool ((htools other hid).symm.trans htool)
    · intro other tool htool _
      have hid : other ≠ actionId := fun hid => nomatch (hid ▸ htool).symm.trans hnone
      exact (htools other hid).trans htool
    · intro row hmem hskip tool htool
      by_cases hid : row.actionId = actionId
      · rw [hid] at htool
        cases hself.symm.trans htool
        rfl
      · exact hs.untouched row hmem hskip tool ((htools _ hid).symm.trans htool)
    · rintro write - - ⟨tool, htool, htouched⟩
      by_cases hid : write.actionId = actionId
      · rw [hid] at htool
        cases hself.symm.trans htool
        cases htouched
      · exact .inl ⟨tool, (htools _ hid).symm.trans htool, htouched⟩

variable {state : ToolInvocationState} {result : Option CommittedResult} {approvalPending : Bool}

theorem settleTool_eq_some (h : t.settleTool actionId state result = some t') :
    ∃ tool tool', t.tools actionId = some tool ∧ tool.state ≠ .prepared ∧
      tool.state ≠ .committed ∧ t' = t.setTool actionId tool' := by
  obtain ⟨tool, htool, h⟩ := Option.bind_eq_some_iff.mp h
  split_ifs at h with hedge
  · refine ⟨tool, _, htool, fun hstate => ?_, fun hstate => ?_, (Option.some.inj h).symm⟩
    · rw [hstate] at hedge
      cases state with
      | started => exact hedge.2 rfl
      | _ => exact absurd hedge.1 (by decide)
    · rw [hstate] at hedge
      cases state <;> exact absurd hedge.1 (by decide)

/-- A settlement is final. -/
theorem Settled.settleTool (hs : Settled t) (h : t.settleTool actionId state result = some t') :
    Settled t' := by
  obtain ⟨tool, tool', htool, hprepared, hcommitted, rfl⟩ := settleTool_eq_some h
  have hself : (t.setTool actionId tool').tools actionId = some tool' := Function.update_self ..
  have htools : ∀ other, other ≠ actionId →
      (t.setTool actionId tool').tools other = t.tools other :=
    fun other hne => Function.update_of_ne hne ..
  have htouched : tool.touched = true := by simp [BatchTool.touched, hprepared]
  refine hs.keepTools (Moved.same rfl) (fun _ _ => ⟨rfl, rfl⟩) rfl rfl (fun _ _ hpast => hpast)
    ?_ ?_ ?_ ?_
  · intro other tool₁ htool₁
    by_cases hid : other = actionId
    · exact hid ▸ hs.owned actionId tool htool
    · exact hs.owned other tool₁ ((htools other hid).symm.trans htool₁)
  · intro other tool₁ htool₁ hstate
    by_cases hid : other = actionId
    · subst hid
      cases htool.symm.trans htool₁
      exact absurd hstate hcommitted
    · exact (htools other hid).trans htool₁
  · intro row hmem hskip tool₁ htool₁
    by_cases hid : row.actionId = actionId
    · have := hs.untouched row hmem hskip tool (hid ▸ htool)
      cases htouched.symm.trans this
    · exact hs.untouched row hmem hskip tool₁ ((htools _ hid).symm.trans htool₁)
  · rintro write - - ⟨tool₁, htool₁, htouched₁⟩
    by_cases hid : write.actionId = actionId
    · exact .inl ⟨tool, hid ▸ htool, htouched⟩
    · exact .inl ⟨tool₁, (htools _ hid).symm.trans htool₁, htouched₁⟩

theorem startTool_ok (h : t.startTool actionId approvalPending = .ok t') :
    ∃ row tool, row ∈ t.actions ∧ row.actionId = actionId ∧ row.notExecuted = none ∧
      t.tools actionId = some tool ∧ tool.state = .prepared ∧
      t' = t.setTool actionId { tool with state := .started, started := true } := by
  obtain ⟨hadmitted, h⟩ := seq_eq_ok.mp h
  obtain ⟨tool, htool, h⟩ := bind_eq_ok.mp h
  obtain ⟨hstate, h⟩ := seq_eq_ok.mp h
  obtain ⟨_, -, hadmitted⟩ := bind_eq_ok.mp hadmitted
  obtain ⟨row, hrow, hadmitted⟩ := bind_eq_ok.mp hadmitted
  obtain ⟨hbinding, -⟩ := seq_eq_ok.mp hadmitted
  rw [raiseIf_ok, not_or, not_not] at hbinding
  rw [raiseIf_ok, not_not] at hstate
  obtain ⟨hmem, hid⟩ := action?_eq_some (orRaise_ok.mp hrow)
  exact ⟨row, tool, hmem, hid, hbinding.1, orRaise_ok.mp htool, hstate, (Except.ok.inj h).symm⟩

/-- A start is sound when all reads beside a write have succeeded. -/
theorem Settled.startTool (hs : Settled t) (ht : Accepted cfg t)
    (h : t.startTool actionId approvalPending = .ok t')
    (hreads : ∀ write ∈ t.actions, write.actionId = actionId → write.recipe.readOnly = false →
      ∀ read ∈ t.actions, read.InBatch actionId.frameId actionId.iterationNo →
        read.recipe.readOnly = true → read.Succeeded) : Settled t' := by
  obtain ⟨row, tool, hmem, hid, hskip, htool, hstate, rfl⟩ := startTool_ok h
  have htools : ∀ other, other ≠ actionId →
      (t.setTool actionId { tool with state := .started, started := true }).tools other =
        t.tools other :=
    fun other hne => Function.update_of_ne hne ..
  refine hs.keepTools (Moved.same rfl) (fun _ _ => ⟨rfl, rfl⟩) rfl rfl (fun _ _ hpast => hpast)
    ?_ ?_ ?_ ?_
  · intro other tool₁ htool₁
    by_cases hother : other = actionId
    · exact ⟨row, hmem, hid.trans hother.symm⟩
    · exact hs.owned other tool₁ ((htools other hother).symm.trans htool₁)
  · intro other tool₁ htool₁ hcommitted
    by_cases hother : other = actionId
    · subst hother
      cases htool.symm.trans htool₁
      cases hstate.symm.trans hcommitted
    · exact (htools other hother).trans htool₁
  · intro row' hmem' hskip' tool₁ htool₁
    by_cases hother : row'.actionId = actionId
    · cases ht.row_unique hmem' hmem (hother.trans hid.symm)
      exact absurd hskip hskip'
    · exact hs.untouched row' hmem' hskip' tool₁ ((htools _ hother).symm.trans htool₁)
  · rintro write hwrite hreadOnly ⟨tool₁, htool₁, htouched₁⟩
    by_cases hother : write.actionId = actionId
    · exact .inr (hother ▸ hreads write hwrite hother hreadOnly)
    · exact .inl ⟨tool₁, (htools _ hother).symm.trans htool₁, htouched₁⟩

end Tools

/-! ### Ends of actions -/

section Records

variable {actionId : ActionId}

theorem waitingAction_ok {frame : BatchFrame} {row : LoopActionRow}
    (h : t.waitingAction frameId iterationNo actionId = .ok (frame, row)) :
    row ∈ t.actions ∧ row.actionId = actionId ∧ row.InBatch frameId iterationNo := by
  obtain ⟨_, -, h⟩ := bind_eq_ok.mp h
  obtain ⟨_, hrow, h⟩ := bind_eq_ok.mp h
  obtain ⟨hbinding, h⟩ := seq_eq_ok.mp h
  cases h
  rw [raiseIf_ok, not_or, not_not] at hbinding
  obtain ⟨hmem, hid⟩ := action?_eq_some (orRaise_ok.mp hrow)
  exact ⟨hmem, hid, hbinding.1⟩

variable {notExecuted : NotExecuted}

/-- A row that is skipped has a failed cause before it. -/
theorem recordNotExecuted_ok
    (h : t.recordNotExecuted frameId iterationNo actionId notExecuted = .ok t') :
    ∃ row ∈ t.actions, row.actionId = actionId ∧ row.InBatch frameId iterationNo ∧
      (∀ tool ∈ t.tools actionId, tool.touched = false) ∧
      (∃ cause ∈ t.actions, cause.InBatch frameId iterationNo ∧ t.confirmedFailure cause = true) ∧
      (row.notExecuted = none ∨ row.notExecuted = some notExecuted) ∧
      t' = t.setAction actionId fun row => { row with notExecuted := some notExecuted } := by
  obtain ⟨⟨_, row⟩, hwaiting, h⟩ := bind_eq_ok.mp h
  obtain ⟨huntouched, h⟩ := seq_eq_ok.mp h
  obtain ⟨cause, hcause, h⟩ := bind_eq_ok.mp h
  obtain ⟨hproven, h⟩ := seq_eq_ok.mp h
  obtain ⟨hconflict, h⟩ := seq_eq_ok.mp h
  obtain ⟨hmem, hid, hin⟩ := waitingAction_ok hwaiting
  obtain ⟨hcauseMem, -⟩ := action?_eq_some (orRaise_ok.mp hcause)
  rw [raiseIf_ok] at huntouched hproven hconflict
  rw [not_or, not_or, not_not, not_not] at hproven
  refine ⟨row, hmem, hid, hin, fun tool htool => ?_, ⟨cause, hcauseMem, hproven.1, hproven.2.1⟩, ?_,
    (Except.ok.inj h).symm⟩
  · rw [Option.mem_def] at htool
    rw [htool] at huntouched
    simpa using huntouched
  · cases hold : row.notExecuted with
    | none => exact .inl rfl
    | some old =>
      refine .inr (congrArg some ?_)
      by_contra hne
      exact hconflict ⟨old, hold, hne⟩

/-- A result is recorded for a tool that has settled. -/
theorem recordResult_ok {projection : Projection} {sourceDigest : String}
    (h : t.recordResult frameId iterationNo actionId projection sourceDigest = .ok t') :
    ∃ row ∈ t.actions, row.actionId = actionId ∧ row.InBatch frameId iterationNo ∧
      row.notExecuted = none ∧
      (∃ tool, t.tools actionId = some tool ∧ tool.state = .committed ∧
        ∃ committed ∈ tool.committedResult,
          (projection, sourceDigest) = (committed.projection, committed.digest)) ∧
      (row.result = none ∨ row.result = some (projection, sourceDigest)) ∧
      t' = t.setAction actionId fun row =>
        { row with result := some (projection, sourceDigest) } := by
  obtain ⟨⟨_, row⟩, hwaiting, h⟩ := bind_eq_ok.mp h
  obtain ⟨tool, htool, h⟩ := bind_eq_ok.mp h
  obtain ⟨hcommitted, h⟩ := seq_eq_ok.mp h
  obtain ⟨hprojection, h⟩ := seq_eq_ok.mp h
  obtain ⟨hconflict, h⟩ := seq_eq_ok.mp h
  obtain ⟨hmem, hid, hin⟩ := waitingAction_ok hwaiting
  rw [raiseIf_ok] at hcommitted hprojection hconflict
  simp only [not_or, not_not] at hcommitted hprojection
  obtain ⟨hskip, hstate, hdigest, -⟩ := hcommitted
  obtain ⟨committed, hresult, hp⟩ := Option.map_eq_some_iff.mp hprojection
  rw [hresult, Option.map_some] at hdigest
  refine ⟨row, hmem, hid, hin, hskip, ⟨tool, orRaise_ok.mp htool, hstate, committed, hresult,
    Prod.ext hp.symm (Option.some.inj hdigest).symm⟩, ?_, (Except.ok.inj h).symm⟩
  cases hold : row.result with
  | none => exact .inl rfl
  | some old =>
    refine .inr (congrArg some ?_)
    by_contra hne
    exact hconflict ⟨old, hold, hne⟩

theorem Settled.tool_failed (hs : Settled t) {cause : LoopActionRow} (hcause : cause ∈ t.actions)
    (h : t.confirmedFailure cause = true) :
    ∃ tool, t.tools cause.actionId = some tool ∧ tool.failed = true := by
  rw [confirmedFailure, Bool.or_eq_true] at h
  rcases h with h | h
  · obtain ⟨result, hresult, hfailed⟩ := exists_of_any h
    obtain ⟨tool, htool, hstate, committed, hcommitted, rfl⟩ :=
      hs.results cause hcause result hresult
    refine ⟨tool, htool, ?_⟩
    rw [Option.mem_def] at hcommitted
    have hne : committed.status ≠ "SUCCEEDED" := hfailed
    simp [BatchTool.failed, hstate, hcommitted, hne]
  · exact Option.any_eq_true _ _ |>.mp h

theorem moved_skip (ht : Accepted cfg t) (hs : Settled t) {row : LoopActionRow}
(hrow : row ∈ t.actions) (huntouched : ∀ tool ∈ t.tools row.actionId, tool.touched = false)
    (hold : row.notExecuted = none ∨ row.notExecuted = some notExecuted) :
    Moved (fun r => if r.actionId = row.actionId then { r with notExecuted := some notExecuted }
      else r) t (t.setAction row.actionId fun r => { r with notExecuted := some notExecuted }) := by
  refine moved_setAction fun row' hrow' hid => ?_
  obtain rfl := ht.row_unique hrow' hrow hid
  refine ⟨rfl, ?_⟩
  rcases hold with hold | hold
  · refine .inr ⟨⟨?_, hold⟩, fun hopen => nomatch hopen.2⟩
    cases hresult : row'.result with
    | none => rfl
    | some result =>
      obtain ⟨tool, htool, hstate, -⟩ := hs.results row' hrow result hresult
      have := huntouched tool htool
      simp [BatchTool.touched, hstate] at this
  · exact .inl ⟨rfl, hold.symm⟩

theorem moved_result (ht : Accepted cfg t) {row : LoopActionRow} {result : Projection × String}
    (hrow : row ∈ t.actions) (hskip : row.notExecuted = none)
    (hold : row.result = none ∨ row.result = some result) :
    Moved (fun r => if r.actionId = row.actionId then { r with result := some result } else r) t
      (t.setAction row.actionId fun r => { r with result := some result }) := by
  refine moved_setAction fun row' hrow' hid => ?_
  cases ht.row_unique hrow' hrow hid
  refine ⟨rfl, ?_⟩
  rcases hold with hold | hold
  · exact .inr ⟨⟨hold, hskip⟩, fun hopen => nomatch hopen.1⟩
  · exact .inl ⟨hold.symm, rfl⟩

theorem Settled.skip (hs : Settled t) (ht : Accepted cfg t) {row : LoopActionRow}
(hrow : row ∈ t.actions) (huntouched : ∀ tool ∈ t.tools row.actionId, tool.touched = false)
    (hcause : ∃ cause ∈ t.actions, cause.InBatch row.actionId.frameId row.actionId.iterationNo ∧
        t.confirmedFailure cause = true)
    (hold : row.notExecuted = none ∨ row.notExecuted = some notExecuted) :
    Settled (t.setAction row.actionId fun r => { r with notExecuted := some notExecuted }) := by
  refine hs.keep (moved_skip ht hs hrow huntouched hold) rfl rfl (fun _ _ hpast => hpast) hs.owned
    (fun _ _ htool _ => htool) ?_ ?_ ?_ fun _ _ _ htouched => .inl htouched
  · intro row' _ hopen _ hresult
    split_ifs at hresult
    all_goals cases hopen.1.symm.trans hresult
  · intro row' hrow' hskip tool htool
    by_cases hid : row'.actionId = row.actionId
    · exact huntouched tool (hid ▸ htool)
    · rw [if_neg hid] at hskip
      exact hs.untouched row' hrow' hskip tool htool
  · intro row' _ hopen hskip
    by_cases hid : row'.actionId = row.actionId
    · obtain ⟨cause, hmem, hin, hfailed⟩ := hcause
      exact ⟨cause, hmem, hid ▸ hin, hs.tool_failed hmem hfailed⟩
    · rw [if_neg hid] at hskip
      exact absurd hopen.2 hskip

theorem Settled.result (hs : Settled t) (ht : Accepted cfg t) {row : LoopActionRow}
    {result : Projection × String} (hrow : row ∈ t.actions) (hskip : row.notExecuted = none)
    (htool : ∃ tool, t.tools row.actionId = some tool ∧ tool.state = .committed ∧
      ∃ committed ∈ tool.committedResult, result = (committed.projection, committed.digest))
    (hold : row.result = none ∨ row.result = some result) :
    Settled (t.setAction row.actionId fun r => { r with result := some result }) := by
  refine hs.keep (moved_result ht hrow hskip hold) rfl rfl (fun _ _ hpast => hpast) hs.owned
    (fun _ _ htool _ => htool) ?_ ?_ ?_ fun _ _ _ htouched => .inl htouched
  · intro row' _ hopen _ hresult
    split_ifs at hresult with hid
    · cases hresult
      exact hid ▸ htool
    · cases hopen.1.symm.trans hresult
  · intro row' hrow' hskip' tool htool'
    have hskip' : row'.notExecuted ≠ none := by
      split_ifs at hskip' <;> exact hskip'
    exact hs.untouched row' hrow' hskip' tool htool'
  · intro row' _ hopen hskip'
    have hskip' : row'.notExecuted ≠ none := by
      split_ifs at hskip' <;> exact hskip'
    exact absurd hopen.2 hskip'

end Records

/-! ### Observations -/

theorem observedCall_ok {row : LoopActionRow} {entry : ObservedCall}
    (h : t.observedCall row = .ok entry) : row.observed? = some entry := by
  unfold observedCall at h
  cases hskip : row.notExecuted with
  | some =>
    simp only [hskip] at h
    obtain ⟨-, h⟩ := seq_eq_ok.mp h
    cases h
    rw [LoopActionRow.observed?, hskip]
  | none =>
    simp only [hskip] at h
    obtain ⟨_, -, h⟩ := bind_eq_ok.mp h
    obtain ⟨_, hresult, h⟩ := bind_eq_ok.mp h
    obtain ⟨-, h⟩ := seq_eq_ok.mp h
    cases h
    rw [LoopActionRow.observed?, hskip, orRaise_ok.mp hresult]
    rfl

theorem map_eq_map_some {α β : Type} {f : α → Option β} {xs : List α} {ys : List β}
    (h : List.Forall₂ (fun x y => f x = some y) xs ys) : xs.map f = ys.map some := by
  induction h with
  | nil => rfl
  | cons hhead _ ih => rw [List.map_cons, List.map_cons, hhead, ih]

/-- The entries of a commit are those of the rows, in the order of the calls. -/
theorem entries_of_observed {rows : List LoopActionRow} :
    ∀ {results : List ObservedCall}, rows.map LoopActionRow.observed? = results.map some →
      results.map ObservedCall.callId = rows.map (fun row => row.protocolCallId) ∧
        results.map ObservedCall.actionId = rows.map (fun row => row.actionId) := by
  induction rows with
  | nil =>
    intro results h
    cases List.map_eq_nil_iff.mp h.symm
    exact ⟨rfl, rfl⟩
  | cons row _ ih =>
    intro _ h
    obtain ⟨entry, _, rfl, hentry, hrest⟩ := List.map_eq_cons_iff.mp h.symm
    obtain ⟨hcalls, hactions⟩ := ih hrest.symm
    have hboth : entry.callId = row.protocolCallId ∧ entry.actionId = row.actionId := by
      rw [LoopActionRow.observed?] at hentry
      cases hskip : row.notExecuted with
      | some =>
        rw [hskip] at hentry
        cases hentry
        exact ⟨rfl, rfl⟩
      | none =>
        rw [hskip] at hentry
        obtain ⟨_, -, rfl⟩ := Option.map_eq_some_iff.mp hentry.symm
        exact ⟨rfl, rfl⟩
    exact ⟨by rw [List.map_cons, List.map_cons, hcalls, hboth.1],
      by rw [List.map_cons, List.map_cons, hactions, hboth.2]⟩

def withObservation (t : BatchTables) (frame : BatchFrame) (observation : Observation) :
    BatchTables :=
  { t.setFrame observation.frameId { frame with phase := .observed } with
    observations := t.observations ++ [observation] }

/-- A commit needs every call observed, or was made before. -/
theorem commitBatch_ok (h : t.commitBatch frameId iterationNo = .ok t') :
    t' = t ∨ ∃ frame record results, t.frames frameId = some frame ∧ frame.phase = .accepted ∧
      frame.iterationNo = iterationNo ∧ record ∈ t.records ∧ record.frameId = frameId ∧
      record.iterationNo = iterationNo ∧ t.batch frameId iterationNo ≠ [] ∧
      (t.batch frameId iterationNo).map LoopActionRow.observed? = results.map some ∧
      ¬t.Observed frameId iterationNo ∧
      t' = t.withObservation frame ⟨frameId, iterationNo, results⟩ := by
  unfold commitBatch at h
  split_ifs at h with hobserved
  · exact .inl (Except.ok.inj h).symm
  · obtain ⟨frame, hframe, h⟩ := bind_eq_ok.mp h
    obtain ⟨hphase, h⟩ := seq_eq_ok.mp h
    obtain ⟨record, hrecord, h⟩ := bind_eq_ok.mp h
    obtain ⟨hcomplete, h⟩ := seq_eq_ok.mp h
    obtain ⟨results, hresults, h⟩ := bind_eq_ok.mp h
    rw [raiseIf_ok] at hphase hcomplete
    simp only [not_or, not_not] at hphase hcomplete
    have hfound := orRaise_ok.mp hrecord
    unfold assistantRecord? at hfound
    have hkey := List.find?_some hfound
    rw [decide_eq_true_eq] at hkey
    refine .inr ⟨frame, record, results, lockLoop_eq_ok.mp hframe, hphase.1, hphase.2,
      List.mem_of_find?_eq_some hfound, hkey.1, hkey.2, hcomplete.1, ?_, hobserved,
      (Except.ok.inj h).symm⟩
    exact map_eq_map_some ((except_mapM_ok hresults).imp fun _ _ => observedCall_ok)

theorem later_of_opened {frame : BatchFrame} (hframe : t.frames frameId = some frame)
    (hiteration : frame'.iterationNo = frame.iterationNo) (hphase : frame'.phase ≠ .opened) :
    ∀ old, t.frames frameId = some old → BatchFrame.LaterThan frame' old := by
  intro _ hold
  cases hframe.symm.trans hold
  exact .inr ⟨hiteration.symm, fun _ => hphase⟩

theorem moved_commit (h : t.commitBatch frameId iterationNo = .ok t') :
    t'.actions = t.actions ∧ t'.records = t.records ∧
      ∀ frameId' iterationNo', t.Past frameId' iterationNo' → t'.Past frameId' iterationNo' := by
  rcases commitBatch_ok h with rfl | ⟨_, _, _, hframe, _, _, _, _, _, _, _, _, rfl⟩
  · exact ⟨rfl, rfl, fun _ _ hpast => hpast⟩
  · exact ⟨rfl, rfl, fun _ _ hpast => hpast.setFrame (later_of_opened hframe rfl nofun)⟩

theorem Settled.commit (hs : Settled t) (ht : Accepted cfg t)
    (h : t.commitBatch frameId iterationNo = .ok t') : Settled t' := by
  rcases commitBatch_ok h with rfl | ⟨frame, record, _, hframe, -, hiteration, hrecord,
    hrecordFrame, hrecordIteration, hne, hrows, hobserved, rfl⟩
  · exact hs
  · have hs' : Settled (t.setFrame frameId { frame with phase := .observed }) :=
      hs.setFrame (later_of_opened hframe rfl nofun)
    refine { hs' with observed := ?_, once := ?_ }
    · intro observation hobservation
      rcases mem_snoc hobservation with hobservation | rfl
      · exact hs'.observed observation hobservation
      · refine ⟨⟨_, Function.update_self .., .inr ⟨hiteration.symm, nofun⟩⟩, hrows,
          record, hrecord, hrecordFrame, hrecordIteration, ?_⟩
        rw [(entries_of_observed hrows).1]
        have hrecorded := ht.recorded record hrecord
        rw [hrecordFrame, hrecordIteration, ← batch_accepted] at hrecorded
        rcases hrecorded with hnil | heq
        · exact absurd (List.map_eq_nil_iff.mp hnil) hne
        · rw [← heq, List.map_map]
          rfl
    · refine List.pairwise_append.mpr ⟨hs.once, List.pairwise_singleton .., ?_⟩
      intro old hold _ hnew hkey
      cases List.mem_singleton.mp hnew
      exact hobserved ⟨old, hold, hkey.1.symm, hkey.2.symm⟩

/-! ### Decisions -/

section Decisions

variable {frame : BatchFrame} {calls : List LoopCall} {rows : List LoopAction}

theorem AcceptsBatch.batch_kept (h : AcceptsBatch cfg t frameId frame calls rows)
(hpast : t.Past frameId' iterationNo') :
    (t.withBatch frameId frame calls rows).batch frameId' iterationNo' =
      t.batch frameId' iterationNo' := by
  simp only [batch, withBatch, List.filter_append]
  have hnil : (rows.map LoopAction.row).filter
      (fun row => row.InBatch frameId' iterationNo') = [] := by
    refine List.filter_eq_nil_iff.mpr fun row hrow hin => h.not_past ?_
    obtain ⟨action, haction, rfl⟩ := List.mem_map.mp hrow
    obtain ⟨hframe, hiteration⟩ := h.inBatch haction
    have hin' : action.InBatch frameId' iterationNo' := of_decide_eq_true hin
    rwa [← hframe, ← hiteration, hin'.1, hin'.2]
  rw [hnil, List.append_nil]

/-- New rows are settled in no way. -/
theorem AcceptsBatch.settled (h : AcceptsBatch cfg t frameId frame calls rows)
    (ht : Accepted cfg t) (hs : Settled t) : Settled (t.withBatch frameId frame calls rows) := by
  have hsplit : ∀ row ∈ (t.withBatch frameId frame calls rows).actions,
      row ∈ t.actions ∨ row.IsOpen ∧ row.InBatch frameId frame.iterationNo := by
    intro row hrow
    rcases List.mem_append.mp hrow with hrow | hrow
    · exact .inl hrow
    · obtain ⟨action, haction, rfl⟩ := List.mem_map.mp hrow
      exact .inr ⟨⟨rfl, rfl⟩, h.inBatch haction⟩
  have hpastRow : ∀ row ∈ t.actions, t.Past row.actionId.frameId row.actionId.iterationNo :=
    fun row hrow => ht.past row.toLoopAction (List.mem_map_of_mem hrow)
  refine ⟨?_, ?_, ?_, ?_, ?_, ?_, hs.once⟩
  · intro actionId tool htool
    obtain ⟨row, hrow, hid⟩ := hs.owned actionId tool htool
    exact ⟨row, List.mem_append_left _ hrow, hid⟩
  · intro row hrow result hresult
    rcases hsplit row hrow with hrow | ⟨hopen, -⟩
    · exact hs.results row hrow result hresult
    · cases hopen.1.symm.trans hresult
  · intro row hrow hskip
    rcases hsplit row hrow with hrow | ⟨hopen, -⟩
    · exact hs.untouched row hrow hskip
    · exact absurd hopen.2 hskip
  · intro row hrow hskip
    rcases hsplit row hrow with hrow | ⟨hopen, -⟩
    · obtain ⟨cause, hcause, hrest⟩ := hs.caused row hrow hskip
      exact ⟨cause, List.mem_append_left _ hcause, hrest⟩
    · exact absurd hopen.2 hskip
  · intro write hwrite hreadOnly htouched read hread hin hreadOnly'
    -- a tool row belongs to an old action, and the batch of an old action is past
    have hold : write ∈ t.actions := by
      rcases hsplit write hwrite with hold | ⟨-, hbatch⟩
      · exact hold
      · obtain ⟨tool, htool, -⟩ := htouched
        obtain ⟨row, hrow, hid⟩ := hs.owned _ tool htool
        have hpast := hpastRow row hrow
        rw [hid, hbatch.1, hbatch.2] at hpast
        exact absurd hpast h.not_past
    rcases hsplit read hread with hread | ⟨-, hbatch⟩
    · exact hs.readsFirst write hold hreadOnly htouched read hread hin hreadOnly'
    · have hpast := hpastRow write hold
      rw [← hin.1, ← hin.2, hbatch.1, hbatch.2] at hpast
      exact absurd hpast h.not_past
  · intro observation hobservation
    obtain ⟨hpast, hrows, record, hrecord, hrest⟩ := hs.observed observation hobservation
    refine ⟨h.past_kept hpast, ?_, record, List.mem_append_left _ hrecord, hrest⟩
    rwa [h.batch_kept hpast]

/-- The tables after a hand-off. -/
def withHandoff (t : BatchTables) (frameId : String) (frame : BatchFrame) (call : LoopCall) :
    BatchTables :=
  { t.setFrame frameId { frame with phase := .handedOff } with
    records := t.records ++ [⟨frameId, frame.iterationNo, [call]⟩] }

variable {call : LoopCall}

theorem acceptHandoff_ok (h : t.acceptHandoff frameId call = .ok t') :
    ∃ frame, t.frames frameId = some frame ∧ frame.phase = .opened ∧
      call.callId ∉ t.usedCalls frameId ∧ t' = t.withHandoff frameId frame call := by
  obtain ⟨frame, hframe, h⟩ := bind_eq_ok.mp h
  simp only [seq_eq_ok, raiseIf_ok, not_not] at h
  obtain ⟨hphase, hunused, h⟩ := h
  exact ⟨frame, lockLoop_eq_ok.mp hframe, hphase, hunused, (Except.ok.inj h).symm⟩

theorem Accepted.setFrame (ht : Accepted cfg t)
    (hlater : ∀ frame, t.frames frameId = some frame → BatchFrame.LaterThan frame' frame) :
    Accepted cfg (t.setFrame frameId frame') :=
  ht.keep rfl rfl fun _ _ hpast => hpast.setFrame hlater

/-- A hand-off is a batch of one call. -/
theorem Accepted.handoff (ht : Accepted cfg t)
    (hframe : t.frames frameId = some frame) (hphase : frame.phase = .opened)
    (hunused : call.callId ∉ t.usedCalls frameId) :
    Accepted cfg (t.withHandoff frameId frame call) := by
  have ht' : Accepted cfg (t.setFrame frameId { frame with phase := .handedOff }) :=
    ht.setFrame (later_of_opened hframe rfl nofun)
  have hnotPast : ¬t.Past frameId frame.iterationNo := by
    rintro ⟨_, hold, hlt | ⟨-, hphase'⟩⟩
    · cases hold.symm.trans hframe
      exact absurd hlt (lt_irrefl _)
    · cases hold.symm.trans hframe
      exact hphase' hphase
  refine { ht' with pastRecords := ?_, recorded := ?_, callIds := ?_ }
  · intro record hrecord
    rcases mem_snoc hrecord with hrecord | rfl
    · exact ht'.pastRecords record hrecord
    · exact ⟨_, Function.update_self .., .inr ⟨rfl, nofun⟩⟩
  · intro record hrecord
    rcases mem_snoc hrecord with hrecord | rfl
    · exact ht'.recorded record hrecord
    · refine .inl (List.filter_eq_nil_iff.mpr fun action haction hin => hnotPast ?_)
      have hin' : action.InBatch frameId frame.iterationNo := of_decide_eq_true hin
      rw [← hin'.1, ← hin'.2]
      exact ht.past action haction
  · intro frameId'
    have hused : (t.withHandoff frameId frame call).usedCalls frameId' =
        t.usedCalls frameId' ++ if frameId = frameId' then [call.callId] else [] := by
      simp only [usedCalls, withHandoff, List.filter_append, List.flatMap_append]
      congr 1
      by_cases hframe : frameId = frameId' <;> simp [hframe]
    rw [hused]
    split_ifs with hkey
    · subst hkey
      refine List.nodup_append.mpr ⟨ht.callIds _, List.nodup_singleton _, fun a ha b hb hab => ?_⟩
      cases List.mem_singleton.mp hb
      exact hunused (hab ▸ ha)
    · rw [List.append_nil]
      exact ht.callIds frameId'

theorem Settled.handoff (hs : Settled t)
    (hframe : t.frames frameId = some frame) : Settled (t.withHandoff frameId frame call) := by
  have hs' : Settled (t.setFrame frameId { frame with phase := .handedOff }) :=
    hs.setFrame (later_of_opened hframe rfl nofun)
  refine { hs' with observed := ?_ }
  intro observation hobservation
  obtain ⟨hpast, hrows, record, hrecord, hrest⟩ := hs'.observed observation hobservation
  exact ⟨hpast, hrows, record, List.mem_append_left _ hrecord, hrest⟩

end Decisions

end BatchTables

end LocalAgent.Runtime
