import LocalAgent.Runtime.StepResultStore

/-!
# LocalAgent.Runtime.StepResultRuns — every interleaving of the calls of a result store

Each action is one locked section.  `rehydrate_readable` is two actions, and anything may happen in
between; the steps of the run change their states freely.

* `StoreRun.Kept`: what holds in every state of every run: one entry for a step, its content for
  ever, views in the order of `depends_on`, the limits, and no access after `seal` or `clear`.
* `Smooth`: the second section of a rehydration does not raise, or finds the store cleared.
* `store_sound`: along smooth steps a call that raises also leaves no entry behind.
-/

namespace LocalAgent.Runtime

/-- What an observer of the store writes down. -/
inductive StoreEvent where
  | wrote (entry : StepResult)
  | marked (stepId : String)
  | viewed (claim : StepClaim) (state : AgentState) (view : DependencyResultView)
  | readFinal (stepId content : String)
  /-- `seal` or `clear` has returned -/
  | closed
  /-- a section raised; `own` is the entry that the same call has written before -/
  | raised (before after : Dict String StoreEntry) (own : Option String)

namespace StoreEvent

def IsAccess : StoreEvent → Prop
  | wrote _ | marked _ | viewed .. | readFinal .. => True
  | closed | raised .. => False

def written? : StoreEvent → Option StepResult
  | wrote entry => some entry
  | _ => none

end StoreEvent

/-- A store, the states of the steps, the rehydrations between their sections, and what has
happened. -/
structure StoreRun where
  store : StepResultStore
  state : AgentState
  rehydrating : List StepResult
  history : List StoreEvent

namespace StoreRun

open StepResultStore

variable (cfg : StoreConfig)

def new (state : AgentState) : StoreRun := ⟨.new, state, [], []⟩

/-- Every result that was ever stored. -/
def written (history : List StoreEvent) : List StepResult :=
  history.filterMap StoreEvent.written?

inductive Action where
  | changeStates (state : AgentState)
  | writePrepared (fault : Bool) (entry : StepResult) (expectedAgentId : String)
  | markReadable (fault : Bool) (stepId : String)
  | rehydrateWrite (fault : Bool) (entry : StepResult)
  | rehydrateMark (fault : Bool) (entry : StepResult)
  | dependencyViewFor (fault : Bool) (claim : StepClaim)
  | readFinalContent (stepId : String)
  | «seal»
  | clear

/-- One section, and the event it leaves. -/
def perform {α : Type} (s : StoreRun) (own : Option String) (event : α → StoreEvent)
    (x : Op StoreError StepResultStore α) : StoreRun :=
  match x s.store with
  | .ok a store => { s with store := store, history := s.history ++ [event a] }
  | .error _ store =>
    { s with
      store := store
      history := s.history ++ [.raised s.store.entries store.entries own] }

/-- The step function; `none` when there is no rehydration to go on with. -/
def step (s : StoreRun) : Action → Option StoreRun
  | .changeStates state => some { s with state := state }
  | .writePrepared fault entry expectedAgentId =>
    some (s.perform none (fun _ => .wrote entry)
      (StepResultStore.writePrepared cfg fault entry expectedAgentId))
  | .markReadable fault stepId =>
    some (s.perform none (fun _ => .marked stepId)
      (StepResultStore.markReadable fault stepId s.state))
  | .rehydrateWrite fault entry =>
    let write := StepResultStore.writePrepared cfg fault entry entry.producerAgentId
    some { s.perform none (fun _ => .wrote entry) write with
      rehydrating := s.rehydrating ++
        if (Op.value? write s.store).isSome then [entry] else [] }
  | .rehydrateMark fault entry =>
    if entry ∈ s.rehydrating then
      some { s.perform (some entry.stepId) (fun _ => .marked entry.stepId)
          (StepResultStore.markReadable fault entry.stepId s.state) with
        rehydrating := s.rehydrating.erase entry }
    else none
  | .dependencyViewFor fault claim =>
    some (s.perform none (fun view => .viewed claim s.state view)
      (StepResultStore.dependencyViewFor cfg fault claim s.state))
  | .readFinalContent stepId =>
    some (s.perform none (fun content => .readFinal stepId content)
      (StepResultStore.readFinalContent cfg stepId))
  | .«seal» => some (s.perform none (fun _ => .closed) StepResultStore.«seal»)
  | .clear => some { s with store := s.store.clear, history := s.history ++ [.closed] }

def runSteps (state : AgentState) (acts : List Action) : Option StoreRun :=
  Trace.run (step cfg) (new state) acts

/-! ## What a step can do -/

variable {cfg}
variable {s s' : StoreRun} {action : Action}

variable (cfg) in
/-- The cases of a step. -/
inductive Moves (s : StoreRun) : Action → StoreRun → Prop where
  | change (state : AgentState) : Moves s (.changeStates state) { s with state := state }
  | raise {action : Action} (own : Option String) (rehydrating : List StepResult)
      (refused : ∀ stepId ∈ own, ∃ fault entry, action = .rehydrateMark fault entry ∧
        entry.stepId = stepId ∧ ∀ store', markReadable fault stepId s.state s.store ≠ .ok () store') :
      Moves s action { s with
        rehydrating := rehydrating
        history := s.history ++ [.raised s.store.entries s.store.entries own] }
  | write {action : Action} (entry : StepResult) (rehydrating : List StepResult)
      (opened : s.store.status = .open) (admitted : Admitted cfg s.store entry) :
      Moves s action { s with
        store :=
          { s.store with entries := s.store.entries.set entry.stepId ⟨entry, .prepared⟩ }
        rehydrating := rehydrating
        history := s.history ++ [.wrote entry] }
  | mark {action : Action} (stepId : String) (entry : StoreEntry) (rehydrating : List StepResult)
      (opened : s.store.status = .open) (stored : s.store.entries.get? stepId = some entry) :
      Moves s action { s with
        store :=
          { s.store with
            entries := s.store.entries.set stepId { entry with status := .readable } }
        rehydrating := rehydrating
        history := s.history ++ [.marked stepId] }
  | view {action : Action} (claim : StepClaim) (view : DependencyResultView)
      (opened : s.store.status = .open) (consumer : PlanStep)
      (planned : cfg.plan.step? claim.stepId = some consumer)
      (entries : List.Forall₂
        (fun producerId entry => s.store.dependencyEntry cfg s.state producerId = .ok entry)
        consumer.dependsOn view.entries) :
      Moves s action { s with history := s.history ++ [.viewed claim s.state view] }
  | read {action : Action} (stepId : String) (entry : StoreEntry) (opened : s.store.status = .open)
      (stored : s.store.entries.get? stepId = some entry) :
      Moves s action { s with
        history := s.history ++ [.readFinal stepId entry.result.content] }
  | «seal» {action : Action} (standing : s.store.status ≠ .cleared) : Moves s action { s with
      store := { s.store with status := .sealed }
      history := s.history ++ [.closed] }
  | clear {action : Action} : Moves s action { s with
      store := s.store.clear
      history := s.history ++ [.closed] }

variable {α : Type} {event : StoreEvent}

theorem perform_cases {x : Op StoreError StepResultStore α} (hx : Op.AllOrNothing x)
    (s : StoreRun) (own : Option String) (event : α → StoreEvent) :
    (∃ a store, x s.store = .ok a store ∧ s.perform own event x =
      { s with store := store, history := s.history ++ [event a] }) ∨
    (∃ e, x s.store = .error e s.store) ∧ s.perform own event x =
      { s with history := s.history ++ [.raised s.store.entries s.store.entries own] } := by
  unfold perform
  cases h : x s.store with
  | ok a store => exact .inl ⟨a, store, rfl, rfl⟩
  | error e =>
    cases hx _ _ _ h
    exact .inr ⟨⟨e, rfl⟩, rfl⟩

theorem Moves.refuse (action : Action) (rehydrating : List StepResult) :
    Moves cfg s action { s with
      rehydrating := rehydrating
      history := s.history ++ [.raised s.store.entries s.store.entries none] } :=
  .raise none rehydrating fun _ h => nomatch h

/-- Every step is one of the moves. -/
theorem step_moves (h : s.step cfg action = some s') : Moves cfg s action s' := by
  cases action with
  | changeStates state =>
    cases h
    exact .change state
  | writePrepared fault entry expectedAgentId =>
    cases h
    rcases perform_cases (allOrNothing_writePrepared fault entry expectedAgentId) s none
      (fun _ => .wrote entry) with ⟨_, store, hok, heq⟩ | ⟨-, heq⟩
    · obtain ⟨hopen, hadmitted, rfl⟩ := writePrepared_ok hok
      exact heq ▸ .write entry s.rehydrating hopen hadmitted
    · exact heq ▸ .refuse _ s.rehydrating
  | markReadable fault stepId =>
    cases h
    rcases perform_cases (allOrNothing_markReadable fault stepId) s none
      (fun _ => .marked stepId) with ⟨_, store, hok, heq⟩ | ⟨-, heq⟩
    · obtain ⟨-, hopen, entry, hentry, -, -, rfl⟩ := markReadable_ok.mp hok
      exact heq ▸ .mark stepId entry s.rehydrating hopen hentry
    · exact heq ▸ .refuse _ s.rehydrating
  | rehydrateWrite fault entry =>
    cases h
    rcases perform_cases (allOrNothing_writePrepared fault entry entry.producerAgentId) s
      none (fun _ => .wrote entry) with ⟨_, store, hok, heq⟩ | ⟨-, heq⟩
    · obtain ⟨hopen, hadmitted, rfl⟩ := writePrepared_ok hok
      rw [heq]
      exact .write entry _ hopen hadmitted
    · rw [heq]
      exact .refuse _ _
  | rehydrateMark fault entry =>
    simp only [step] at h
    split_ifs at h
    cases h
    rcases perform_cases (allOrNothing_markReadable fault entry.stepId) s
      (some entry.stepId) (fun _ => .marked entry.stepId) with
      ⟨_, store, hok, heq⟩ | ⟨⟨e, herror⟩, heq⟩
    · obtain ⟨-, hopen, stored, hstored, -, -, rfl⟩ := markReadable_ok.mp hok
      rw [heq]
      exact .mark entry.stepId stored _ hopen hstored
    · rw [heq]
      refine .raise (some entry.stepId) _ fun stepId hown => ?_
      cases hown
      exact ⟨fault, entry, rfl, rfl, fun _ hok => nomatch herror.symm.trans hok⟩
  | dependencyViewFor fault claim =>
    cases h
    rcases perform_cases (allOrNothing_dependencyViewFor fault claim) s none
      (fun view => .viewed claim s.state view) with ⟨view, store, hok, heq⟩ | ⟨-, heq⟩
    · obtain ⟨rfl, hopen, consumer, hplan, hentries⟩ := dependencyViewFor_ok hok
      exact heq ▸ .view claim view hopen consumer hplan hentries
    · exact heq ▸ .refuse _ s.rehydrating
  | readFinalContent stepId =>
    cases h
    rcases perform_cases (allOrNothing_readFinalContent stepId) s none
      (fun content => .readFinal stepId content) with ⟨content, store, hok, heq⟩ | ⟨-, heq⟩
    · obtain ⟨rfl, hopen, entry, hentry, rfl⟩ := readFinalContent_ok hok
      exact heq ▸ .read stepId entry hopen hentry
    · exact heq ▸ .refuse _ s.rehydrating
  | «seal» =>
    cases h
    rcases perform_cases allOrNothing_seal s none (fun _ => .closed) with
      ⟨_, store, hok, heq⟩ | ⟨-, heq⟩
    · obtain ⟨hstanding, rfl⟩ := seal_ok hok
      exact heq ▸ .seal hstanding
    · exact heq ▸ .refuse _ s.rehydrating
  | clear =>
    cases h
    exact .clear

/-! ## What every run keeps -/

variable (cfg) in
/-- The producer has succeeded, and its content was written by the agent the plan prefers. -/
def Produced (written : List StepResult) (state : AgentState) (entry : DependencyResultEntry) :
    Prop :=
  state.Succeeded entry.stepId ∧ ∃ producer, cfg.plan.step? entry.stepId = some producer ∧
    ∃ result ∈ written, result.stepId = entry.stepId ∧ result.content = entry.content ∧
      result.producerAgentId = producer.preferredAgent

variable (cfg) in
/-- What a consumer got: its explicit dependencies, in their order. -/
structure ViewSound (written : List StepResult) (claim : StepClaim) (state : AgentState)
    (view : DependencyResultView) : Prop where
  ordered : ∃ consumer, cfg.plan.step? claim.stepId = some consumer ∧
    view.entries.map DependencyResultEntry.stepId = consumer.dependsOn
  produced : ∀ entry ∈ view.entries, Produced cfg written state entry

variable (cfg) in
/-- What holds of the store and its history in every state of every run. -/
structure Kept (store : StepResultStore) (history : List StoreEvent) : Prop where
  once : ((written history).map StepResult.stepId).Nodup
  stored : ∀ stepId entry, store.entries.get? stepId = some entry →
    entry.result ∈ written history ∧ entry.result.stepId = stepId
  views : ∀ claim state view, .viewed claim state view ∈ history →
    ViewSound cfg (written history) claim state view
  reads : ∀ stepId content, .readFinal stepId content ∈ history →
    ∃ result ∈ written history, result.stepId = stepId ∧ result.content = content
  perResult : ∀ stepId entry, store.entries.get? stepId = some entry →
    entry.result.content.length ≤ cfg.perResultChars
  total : store.totalChars ≤ cfg.runTotalChars
  count : store.entries.entries.length ≤ cfg.maxEntries
  /-- after `seal` or `clear` nothing is written, marked or read -/
  quiet : history.Pairwise fun earlier later => earlier = .closed → ¬ later.IsAccess
  dark : .closed ∈ history → ∀ stepId, store.hasReadable stepId = false

variable (cfg) in
/-- `Kept` with what carries it from step to step. -/
structure Inv (store : StepResultStore) (history : List StoreEvent) : Prop
    extends Kept cfg store history where
  closed : .closed ∈ history → store.status ≠ .open
  remembered : store.status ≠ .cleared → ∀ result ∈ written history,
    result.stepId ∈ store.entries.keys
  emptied : store.status = .cleared → store.entries = Dict.empty

theorem written_append (history : List StoreEvent) (event : StoreEvent) :
    written (history ++ [event]) = written history ++ event.written?.toList := by
  rw [written, written, List.filterMap_append]
  cases event <;> rfl

variable {claim : StepClaim} {state : AgentState} {view : DependencyResultView} {entry : StepResult}
  {stepId : String}

theorem ViewSound.mono {old grown : List StepResult} (hsub : old ⊆ grown)
(h : ViewSound cfg old claim state view) : ViewSound cfg grown claim state view := by
  refine ⟨h.ordered, fun entry hentry => ?_⟩
  obtain ⟨hdone, producer, hproducer, result, hresult, hrest⟩ := h.produced entry hentry
  exact ⟨hdone, producer, hproducer, result, hsub hresult, hrest⟩

namespace Inv

variable {store : StepResultStore} {history : List StoreEvent}

theorem new : Inv cfg .new [] where
  once := List.nodup_nil
  stored := fun _ _ h => nomatch h
  views := fun _ _ _ h => nomatch h
  reads := fun _ _ h => nomatch h
  perResult := fun _ _ h => nomatch h
  total := Nat.zero_le _
  count := Nat.zero_le _
  quiet := .nil
  dark := fun h => nomatch h
  closed := fun h => nomatch h
  remembered := fun _ _ h => nomatch h
  emptied := fun h => nomatch h

section

variable (hs : Inv cfg store history)
include hs

theorem quiet_append (haccess : event.IsAccess → store.status = .open) :
    (history ++ [event]).Pairwise fun earlier later => earlier = .closed → ¬ later.IsAccess := by
  rw [List.pairwise_append]
  refine ⟨hs.quiet, List.pairwise_singleton _ _, fun earlier hmem later hlater => ?_⟩
  cases List.mem_singleton.mp hlater
  rintro rfl haccessed
  exact hs.closed hmem (haccess haccessed)

/-- An event that stores nothing. -/
theorem observe (hnone : event.written? = none) (haccess : event.IsAccess → store.status = .open)
    (hclosed : event = .closed → store.status ≠ .open)
    (hview : ∀ claim state view, event = .viewed claim state view →
      ViewSound cfg (written history) claim state view)
    (hread : ∀ stepId content, event = .readFinal stepId content →
      ∃ result ∈ written history, result.stepId = stepId ∧ result.content = content) :
    Inv cfg store (history ++ [event]) := by
  have hwritten : written (history ++ [event]) = written history := by
    rw [written_append, hnone]
    exact List.append_nil _
  have hstatus : .closed ∈ history ++ [event] → store.status ≠ .open := by
    intro h
    rcases mem_snoc h with h | h
    · exact hs.closed h
    · exact hclosed h.symm
  refine ⟨⟨?_, ?_, ?_, ?_, hs.perResult, hs.total, hs.count, hs.quiet_append haccess, ?_⟩,
    hstatus, ?_, hs.emptied⟩
  · rw [hwritten]
    exact hs.once
  · rw [hwritten]
    exact hs.stored
  · intro claim state view h
    rw [hwritten]
    rcases mem_snoc h with h | h
    · exact hs.views claim state view h
    · exact hview claim state view h.symm
  · intro stepId content h
    rw [hwritten]
    rcases mem_snoc h with h | h
    · exact hs.reads stepId content h
    · exact hread stepId content h.symm
  · exact fun h stepId => hasReadable_of_not_open (hstatus h) stepId
  · rw [hwritten]
    exact hs.remembered

theorem raise (before after : Dict String StoreEntry)
    (own : Option String) : Inv cfg store (history ++ [.raised before after own]) :=
  hs.observe rfl (fun h => h.elim) (fun h => nomatch h) (fun _ _ _ h => nomatch h)
    fun _ _ h => nomatch h

theorem close (hclosed : store.status ≠ .open) : Inv cfg store (history ++ [.closed]) :=
  hs.observe rfl (fun h => h.elim) (fun _ => hclosed) (fun _ _ _ h => nomatch h)
    fun _ _ h => nomatch h

theorem empty : Inv cfg ⟨Dict.empty, .cleared⟩ history where
  once := hs.once
  stored := fun _ _ h => nomatch h
  views := hs.views
  reads := hs.reads
  perResult := fun _ _ h => nomatch h
  total := Nat.zero_le _
  count := Nat.zero_le _
  quiet := hs.quiet
  dark := fun _ => hasReadable_of_not_open nofun
  closed := fun _ => nofun
  remembered := fun h => absurd rfl h
  emptied := fun _ => rfl

/-- A written entry that is admitted. -/
theorem write (hopen : store.status = .open) (hentry : Admitted cfg store entry) :
    Inv cfg { store with entries := store.entries.set entry.stepId ⟨entry, .prepared⟩ }
      (history ++ [.wrote entry]) := by
  have hwritten : written (history ++ [.wrote entry]) = written history ++ [entry] :=
    written_append history (.wrote entry)
  have hsub : written history ⊆ written (history ++ [.wrote entry]) := by
    rw [hwritten]
    exact List.subset_append_left _ _
  have hstanding : store.status ≠ .cleared := by
    rw [hopen]
    nofun
  have hnotClosed : .closed ∉ history ++ [.wrote entry] := by
    intro h
    rcases mem_snoc h with h | h
    · exact hs.closed h hopen
    · exact nomatch h
  have hmem : ∀ {event : StoreEvent}, event ∈ history ++ [.wrote entry] →
      event.written? = none → event ∈ history := by
    intro _ h hnone
    rcases mem_snoc h with h | h
    · exact h
    · rw [h] at hnone
      cases hnone
  refine ⟨⟨?_, ?_, ?_, ?_, ?_, ?_, ?_, hs.quiet_append fun _ => hopen, fun h => absurd h hnotClosed⟩,
    fun h => absurd h hnotClosed, ?_, fun h => absurd h hstanding⟩
  · rw [hwritten, List.map_append, List.map_singleton, ← List.concat_eq_append]
    refine hs.once.concat fun h => ?_
    obtain ⟨result, hresult, hid⟩ := List.mem_map.mp h
    exact hentry.fresh (hid ▸ hs.remembered hstanding result hresult)
  · intro stepId stored hget
    rw [Dict.get?_set] at hget
    rw [hwritten]
    split_ifs at hget with hid
    · cases hget
      exact ⟨List.mem_concat_self, hid.symm⟩
    · exact ⟨List.mem_append_left _ (hs.stored stepId stored hget).1,
        (hs.stored stepId stored hget).2⟩
  · exact fun claim state view h => (hs.views claim state view (hmem h rfl)).mono hsub
  · intro stepId content h
    obtain ⟨result, hresult, hrest⟩ := hs.reads stepId content (hmem h rfl)
    exact ⟨result, hsub hresult, hrest⟩
  · intro stepId stored hget
    rw [Dict.get?_set] at hget
    split_ifs at hget
    · cases hget
      exact hentry.perResult
    · exact hs.perResult stepId stored hget
  · show ((store.entries.set entry.stepId ⟨entry, .prepared⟩).values.map _).sum ≤ _
    rw [Dict.values_set_of_not_mem hentry.fresh, List.map_append, List.sum_append]
    exact hentry.total
  · show (store.entries.set entry.stepId ⟨entry, .prepared⟩).entries.length ≤ _
    rw [Dict.entries_set_of_not_mem hentry.fresh, List.length_append]
    exact hentry.room
  · intro _ result hresult
    rw [hwritten] at hresult
    rw [Dict.mem_keys_set]
    rcases mem_snoc hresult with h | h
    · exact .inr (hs.remembered hstanding result h)
    · exact .inl (by rw [h])

/-- An entry becomes readable; its result stays. -/
theorem mark {entry : StoreEntry}
    (hopen : store.status = .open) (hentry : store.entries.get? stepId = some entry) :
    Inv cfg
      { store with entries := store.entries.set stepId { entry with status := .readable } }
      (history ++ [.marked stepId]) := by
  have hold : ∀ id stored,
      (store.entries.set stepId { entry with status := .readable }).get? id = some stored →
      ∃ old, store.entries.get? id = some old ∧ old.result = stored.result := by
    intro id stored hget
    rcases Dict.get?_set_cases hget with ⟨hid, rfl⟩ | ⟨-, hget⟩
    · exact ⟨entry, hid ▸ hentry, rfl⟩
    · exact ⟨stored, hget, rfl⟩
  have hnotClosed : .closed ∉ history := fun h => hs.closed h hopen
  have hmarked : Inv cfg
      { store with entries := store.entries.set stepId { entry with status := .readable } }
      history := by
    refine ⟨⟨hs.once, ?_, hs.views, hs.reads, ?_, ?_, ?_, hs.quiet,
      fun h => absurd h hnotClosed⟩, hs.closed, ?_, fun h => ?_⟩
    · intro id stored hget
      obtain ⟨old, hgetOld, hresult⟩ := hold id stored hget
      exact hresult ▸ hs.stored id old hgetOld
    · intro id stored hget
      obtain ⟨old, hgetOld, hresult⟩ := hold id stored hget
      exact hresult ▸ hs.perResult id old hgetOld
    · have hsame : (store.entries.set stepId { entry with status := .readable }).values.map
          (fun entry => entry.result.content.length) = _ := Dict.map_values_set hentry rfl
      exact (congrArg List.sum hsame).trans_le hs.total
    · have hlength := congrArg List.length
        (Dict.keys_set store.entries stepId { entry with status := .readable })
      rw [if_pos (Dict.mem_keys_iff.mpr ⟨entry, hentry⟩), Dict.keys, Dict.keys, List.length_map,
        List.length_map] at hlength
      exact hlength ▸ hs.count
    · exact fun hstanding result hresult =>
        Dict.mem_keys_set.mpr (.inr (hs.remembered hstanding result hresult))
    · cases hopen.symm.trans h
  exact hmarked.observe rfl (fun _ => hopen) (fun h => by cases h) (fun _ _ _ h => by cases h)
    fun _ _ h => by cases h

end

theorem forall₂_map_eq {β : Type} {f : β → α} {P : β → Prop} {keys : List α} {values : List β}
    (h : List.Forall₂ (fun key value => f value = key ∧ P value) keys values) :
    values.map f = keys ∧ ∀ value ∈ values, P value := by
  induction h with
  | nil => exact ⟨rfl, fun _ h => nomatch h⟩
  | cons hhead _ ih =>
    rw [List.map_cons, hhead.1, ih.1]
    exact ⟨rfl, List.forall_mem_cons.mpr ⟨hhead.2, ih.2⟩⟩

/-- A view shows what was written for the dependencies, in their order. -/
theorem viewSound (hs : Inv cfg store history) {consumer : PlanStep}
    (hplan : cfg.plan.step? claim.stepId = some consumer) (hentries : List.Forall₂
      (fun producerId entry => store.dependencyEntry cfg state producerId = .ok entry)
      consumer.dependsOn view.entries) : ViewSound cfg (written history) claim state view := by
  have hfiled : List.Forall₂ (fun producerId entry => entry.stepId = producerId ∧
      Produced cfg (written history) state entry) consumer.dependsOn view.entries := by
    refine hentries.imp fun producerId entry h => ?_
    obtain ⟨producer, stored, hproducer, hstored, hdone, hagent, rfl⟩ := dependencyEntry_ok h
    obtain ⟨hmem, rfl⟩ := hs.stored producerId stored hstored
    exact ⟨rfl, hdone, producer, hproducer, stored.result, hmem, rfl, rfl, hagent⟩
  obtain ⟨hids, hproduced⟩ := forall₂_map_eq hfiled
  exact ⟨⟨consumer, hplan, hids⟩, hproduced⟩

/-- Every step keeps the store's invariant. -/
theorem step (hs : Inv cfg s.store s.history) (h : s.step cfg action = some s') :
    Inv cfg s'.store s'.history := by
  cases step_moves h with
  | change => exact hs
  | raise own => exact hs.raise _ _ own
  | write _ _ hopen hadmitted => exact hs.write hopen hadmitted
  | mark _ _ _ hopen hentry => exact hs.mark hopen hentry
  | view _ _ hopen _ hplan hentries =>
    refine hs.observe rfl (fun _ => hopen) (fun h => nomatch h) (fun _ _ _ h => ?_)
      fun _ _ h => nomatch h
    obtain ⟨rfl, rfl, rfl⟩ := StoreEvent.viewed.inj h
    exact hs.viewSound hplan hentries
  | read stepId entry hopen hentry =>
    refine hs.observe rfl (fun _ => hopen) (fun h => nomatch h) (fun _ _ _ h => nomatch h)
      fun _ _ h => ?_
    obtain ⟨rfl, rfl⟩ := StoreEvent.readFinal.inj h
    exact ⟨entry.result, (hs.stored stepId entry hentry).1, (hs.stored stepId entry hentry).2, rfl⟩
  | «seal» hstanding =>
    have hsealed : Inv cfg { s.store with status := .sealed } s.history :=
      { hs with
        dark := fun _ => hasReadable_of_not_open nofun
        closed := fun _ => nofun
        remembered := fun _ => hs.remembered hstanding
        emptied := fun h => nomatch h }
    exact hsealed.close nofun
  | clear =>
    have hcleared : Inv cfg s.store.clear s.history := by
      unfold StepResultStore.clear
      split_ifs with hstatus
      · exact hs
      · exact hs.empty
    refine hcleared.close ?_
    unfold StepResultStore.clear
    split_ifs with hstatus
    · rw [hstatus]
      nofun
    · nofun

end Inv

/-! ## Rehydration -/

theorem perform_store (s : StoreRun) (own : Option String) (event : α → StoreEvent)
    (x : Op StoreError StepResultStore α) : (s.perform own event x).store = Op.after x s.store := by
  unfold perform Op.after
  cases x s.store <;> rfl

theorem perform_state (s : StoreRun) (own : Option String) (event : α → StoreEvent)
    (x : Op StoreError StepResultStore α) : (s.perform own event x).state = s.state := by
  unfold perform
  cases x s.store <;> rfl

theorem rehydrateMark_step (fault : Bool) (hentry : entry ∈ s.rehydrating) :
    ∃ s', s.step cfg (.rehydrateMark fault entry) = some s' ∧
      s'.store = Op.after (markReadable fault entry.stepId s.state) s.store := by
  rw [step, if_pos hentry]
  exact ⟨_, rfl, perform_store ..⟩

/-- Without another section in between, the two actions do what `rehydrate_readable` does. -/
theorem rehydrateReadable_run (s : StoreRun) (writeFault markFault : Bool) (entry : StepResult) :
    ∃ s', s'.store = Op.after (rehydrateReadable cfg writeFault markFault entry s.state) s.store ∧
      (Trace.run (step cfg) s [.rehydrateWrite writeFault entry] = some s' ∨
        Trace.run (step cfg) s [.rehydrateWrite writeFault entry, .rehydrateMark markFault entry] =
          some s') := by
  obtain ⟨s₁, hstep, hstore, hstate, hrehydrating⟩ : ∃ s₁,
      s.step cfg (.rehydrateWrite writeFault entry) = some s₁ ∧
      s₁.store = Op.after (writePrepared cfg writeFault entry entry.producerAgentId) s.store ∧
      s₁.state = s.state ∧
      s₁.rehydrating = s.rehydrating ++ if (Op.value? (writePrepared cfg writeFault entry
        entry.producerAgentId) s.store).isSome then [entry] else [] :=
    ⟨_, rfl, perform_store .., perform_state .., rfl⟩
  rcases Op.bind_cases (writePrepared cfg writeFault entry entry.producerAgentId)
    (fun _ => markReadable markFault entry.stepId s.state) s.store with
    ⟨e, store, hwrite, hboth⟩ | ⟨_, store, hwrite, hboth⟩
  · -- the write raised, and so does the call
    refine ⟨s₁, ?_, .inl (Trace.run_cons.mpr ⟨s₁, hstep, rfl⟩)⟩
    rw [hstore, Op.after_error hwrite]
    exact (Op.after_error hboth).symm
  · rw [Op.value?_ok hwrite] at hrehydrating
    have hentry : entry ∈ s₁.rehydrating := by
      rw [hrehydrating]
      exact List.mem_concat_self
    obtain ⟨s₂, hmark, hstore₂⟩ : ∃ s₂, s₁.step cfg (.rehydrateMark markFault entry) = some s₂ ∧
      s₂.store = Op.after (markReadable markFault entry.stepId s₁.state) s₁.store :=
      rehydrateMark_step markFault hentry
    refine ⟨s₂, ?_, .inr (Trace.run_cons.mpr ⟨s₁, hstep, Trace.run_cons.mpr ⟨s₂, hmark, rfl⟩⟩)⟩
    rw [hstore₂, hstate, hstore, Op.after_ok hwrite]
    exact (Op.after_eq hboth).symm

/-- The second section of a rehydration finds no fault, an open store, its own entry still
`PREPARED` and its step succeeded; or the store has been cleared. -/
def Smooth (s : StoreRun) : Action → Prop
  | .rehydrateMark fault entry => s.store.status = .cleared ∨
    fault = false ∧ s.store.status = .open ∧
      (∃ stored ∈ s.store.entries.get? entry.stepId, stored.status = .prepared) ∧
      s.state.Succeeded entry.stepId
  | _ => True

instance (s : StoreRun) : ∀ action, Decidable (Smooth s action)
  | .rehydrateMark _ entry =>
    inferInstanceAs (Decidable (_ ∨ _ ∧ _ ∧ (∃ stored ∈ s.store.entries.get? entry.stepId, _) ∧ _))
  | .changeStates _ | .writePrepared .. | .markReadable .. | .rehydrateWrite ..
  | .dependencyViewFor .. | .readFinalContent _ | .«seal» | .clear =>
    inferInstanceAs (Decidable True)

/-- A call that raised has left the entries alone, and none of its own behind. -/
def Unchanged (history : List StoreEvent) : Prop :=
  ∀ before after own, .raised before after own ∈ history →
    after = before ∧ ∀ stepId ∈ own, stepId ∉ after.keys

theorem Unchanged.append {history : List StoreEvent} (hs : Unchanged history)
    (h : ∀ before after own, event = .raised before after own →
      after = before ∧ ∀ stepId ∈ own, stepId ∉ after.keys) : Unchanged (history ++ [event]) := by
  intro before after own hmem
  rcases mem_snoc hmem with hmem | hmem
  · exact hs before after own hmem
  · exact h before after own hmem.symm

/-- Without a disturbing step no entry changes its content. -/
theorem Unchanged.step (hs : Unchanged s.history) (hinv : Inv cfg s.store s.history)
    (hsmooth : Smooth s action) (h : s.step cfg action = some s') : Unchanged s'.history := by
  cases step_moves h with
  | change => exact hs
  | raise _ _ hrefused =>
    refine hs.append fun before after own' heq => ?_
    obtain ⟨rfl, rfl, rfl⟩ := StoreEvent.raised.inj heq
    refine ⟨rfl, fun stepId hown => ?_⟩
    obtain ⟨_, entry, rfl, rfl, hraised⟩ := hrefused stepId hown
    rcases hsmooth with hcleared | ⟨hfault, hopen, ⟨stored, hstored, hprepared⟩, hdone⟩
    · rw [hinv.emptied hcleared]
      exact List.not_mem_nil
    · exact absurd (markReadable_ok.mpr ⟨hfault, hopen, stored, hstored, hprepared, hdone, rfl⟩)
        (hraised _)
  | write | mark | view | read | clear => exact hs.append fun _ _ _ heq => nomatch heq
  | «seal» => exact hs.append fun _ _ _ heq => nomatch heq

/-! ## Every run -/

theorem written_step (h : s.step cfg action = some s') : written s.history ⊆ written s'.history := by
  have happend : ∀ event : StoreEvent, written s.history ⊆ written (s.history ++ [event]) := by
    intro _
    rw [written_append]
    exact List.subset_append_left _ _
  cases step_moves h with
  | change => exact List.Subset.refl _
  | _ => exact happend _

/-- The content of an entry is the same in every later state. -/
theorem content_kept {acts : List Action} (hs : Inv cfg s.store s.history)
    (hrun : Trace.run (step cfg) s acts = some s') {entry later : StoreEntry}
    (hentry : s.store.entries.get? stepId = some entry)
    (hlater : s'.store.entries.get? stepId = some later) : later.result = entry.result := by
  obtain ⟨hs', hsub⟩ := Trace.run_invariant
    (P := fun t => Inv cfg t.store t.history ∧ written s.history ⊆ written t.history)
    (fun _ _ _ h ht => ⟨ht.1.step h, List.Subset.trans ht.2 (written_step h)⟩) hrun ⟨hs, List.Subset.refl _⟩
  obtain ⟨hmem, hid⟩ := hs.stored stepId entry hentry
  obtain ⟨hmem', hid'⟩ := hs'.stored stepId later hlater
  exact List.inj_on_of_nodup_map hs'.once hmem' (hsub hmem) (hid'.trans hid.symm)

variable (cfg) in
structure Sound (s : StoreRun) : Prop extends Kept cfg s.store s.history where
  unchanged : Unchanged s.history

/-- In every run whose rehydrations go through, in every state it reaches and for every run that
goes on from there. -/
theorem store_sound {state : AgentState} {acts : List Action}
    (hrun : runSteps cfg state acts = some s)
    (hsmooth : Trace.Along (step cfg) Smooth (new state) acts) :
    Sound cfg s ∧ ∀ more s', Trace.run (step cfg) s more = some s' →
      ∀ stepId entry later, s.store.entries.get? stepId = some entry →
        s'.store.entries.get? stepId = some later → later.result = entry.result := by
  obtain ⟨hinv, hunchanged⟩ := Trace.run_keeps
    (P := fun t => Inv cfg t.store t.history ∧ Unchanged t.history)
    (fun _ _ _ hok h ht => ⟨ht.1.step h, ht.2.step ht.1 hok h⟩) hsmooth hrun
    ⟨Inv.new, fun _ _ _ h => nomatch h⟩
  exact ⟨⟨hinv.toKept, hunchanged⟩, fun more s' hmore stepId entry later hentry hlater =>
    content_kept hinv hmore hentry hlater⟩

/-- `b` depends on `a`; the agent of both is `agent`. -/
def samplePair : StoreConfig where
  plan := ⟨"plan", 1, "",
    [⟨"a", "step", "", [], "done", "agent", .default, .agent, .internal⟩,
      ⟨"b", "step", "", ["a"], "done", "agent", .default, .agent, .finalPassthrough⟩],
    .epochSecond 0, .deterministic⟩
  perResultChars := 4
  runTotalChars := 8
  maxEntries := 2
  perResultChars_pos := by decide
  maxEntries_pos := by decide
  perResultChars_le := by decide

def sampleResult (stepId : String) (h : stepId ≠ "") : StepResult :=
  .ofText stepId h

/-- A run with `a` and `b` in the same status. -/
def sampleStates (status : StepStatus) : AgentState :=
  ⟨"run", agentStateSchemaVersion, .running, .epochSecond 1, .epochSecond 1,
    (Dict.empty.set "a" ⟨"a", "step", status, .epochSecond 1, none, none, none, none⟩).set "b"
      ⟨"b", "step", status, .epochSecond 1, none, none, none, none⟩,
    ∅, none, none, none, none⟩

def sampleClaim : StepClaim :=
  ⟨"plan", 1, "b", .epochSecond 2, .default, "agent", (DateTime.Utc.epochSecond 2).2⟩

/-- `a` goes the live way, `b` is rehydrated; after the seal nothing can be read. -/
def sampleLife : List Action :=
  [.writePrepared false (sampleResult "a" StepResult.a_ne) "agent", .markReadable false "a",
    .changeStates (sampleStates .succeeded), .markReadable false "a",
    .dependencyViewFor false sampleClaim, .rehydrateWrite false (sampleResult "b" StepResult.b_ne),
    .rehydrateMark false (sampleResult "b" StepResult.b_ne), .readFinalContent "b", .«seal»,
    .readFinalContent "b", .clear]

def StoreEvent.kind : StoreEvent → String
  | .wrote entry => "wrote " ++ entry.stepId
  | .marked stepId => "marked " ++ stepId
  | .viewed _ _ view => "viewed " ++ String.join (view.entries.map (·.content))
  | .readFinal stepId content => "read " ++ stepId ++ " " ++ content
  | .closed => "closed"
  | .raised _ after own => "raised " ++ toString (own.any (· ∈ after.keys))

theorem store_sound_sampleLife :
    ∃ s, runSteps samplePair (sampleStates .running) sampleLife = some s ∧
      s.history.map StoreEvent.kind = ["wrote a", "raised false", "marked a", "viewed text",
        "wrote b", "marked b", "read b text", "closed", "raised false", "closed"] ∧
      Sound samplePair s := by
  have hrun : (runSteps samplePair (sampleStates .running) sampleLife).any (fun s =>
      s.history.map StoreEvent.kind = ["wrote a", "raised false", "marked a", "viewed text",
        "wrote b", "marked b", "read b text", "closed", "raised false", "closed"]) = true := by
    decide +kernel
  obtain ⟨s, hs, hhistory⟩ := exists_of_any hrun
  exact ⟨s, hs, hhistory, (store_sound hs (by decide +kernel)).1⟩

/-- `a` has not succeeded when it is rehydrated. -/
def sampleResidue : List Action :=
  [.rehydrateWrite false (sampleResult "a" StepResult.a_ne),
    .rehydrateMark false (sampleResult "a" StepResult.a_ne)]

def StoreEvent.leavesEntry : StoreEvent → Bool
  | .raised _ after (some stepId) => stepId ∈ after.keys
  | _ => false

/-- The call raised, and its entry is in the store. -/
theorem rehydration_leaves_entry :
    ∃ s, runSteps samplePair (sampleStates .running) sampleResidue = some s ∧
      ¬ Sound samplePair s := by
  have hrun : (runSteps samplePair (sampleStates .running) sampleResidue).any (fun s =>
      s.history.any StoreEvent.leavesEntry) = true := by
    decide +kernel
  obtain ⟨s, hs, hhistory⟩ := Option.any_eq_true _ _ |>.mp hrun
  obtain ⟨_, hmem, hevent⟩ := List.any_eq_true.mp hhistory
  refine ⟨s, hs, fun hsound => ?_⟩
  unfold StoreEvent.leavesEntry at hevent
  split at hevent
  · rename_i before after stepId
    exact (hsound.unchanged before after (some stepId) hmem).2 stepId rfl (of_decide_eq_true hevent)
  · cases hevent

end StoreRun

end LocalAgent.Runtime
