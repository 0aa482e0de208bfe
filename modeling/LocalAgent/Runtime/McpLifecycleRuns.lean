import LocalAgent.Runtime.McpLifecycleSteps

/-!
# LocalAgent.Runtime.McpLifecycleRuns — what is left when the component is closed

* `Frame`, `frame_step`: what a task does that the close looks at.
* `Shut`, `shut_step`: where `close` is, and which clients have exited by then.
* `sessions_owned`: sessions, loops and clients over whole runs.
* `sessions_not_owned`: a second `close` answers while the first still waits.
-/

namespace LocalAgent.Runtime

namespace McpIntegration

variable {discovered : Option OwnedClient}

section Clients

variable {s s' s'' : McpIntegration} {server : String} {id task : ℕ} {loop : ReconnectLoop}
  {client : OwnedClient}

/-! ## What the close and the table of clients keep -/

structure Same (s s' : McpIntegration) : Prop where
  closed : s'.closed = s.closed
  phase : s'.closePhase = s.closePhase
  returned : s'.returned = s.returned
  clients : s'.clients = s.clients
  owned : s'.ownedClients = s.ownedClients
  published : s'.published = s.published

theorem Same.refl (s : McpIntegration) : Same s s := ⟨rfl, rfl, rfl, rfl, rfl, rfl⟩

theorem Same.trans (h : Same s s') (h' : Same s' s'') : Same s s'' :=
  ⟨h'.closed.trans h.closed, h'.phase.trans h.phase, h'.returned.trans h.returned,
    h'.clients.trans h.clients, h'.owned.trans h.owned, h'.published.trans h.published⟩

theorem same_scheduleReconnect {old : ℕ} : Same s (s.scheduleReconnect server old) := by
  unfold scheduleReconnect
  split_ifs
  · exact ⟨rfl, rfl, rfl, rfl, rfl, rfl⟩
  · split <;> exact ⟨rfl, rfl, rfl, rfl, rfl, rfl⟩

theorem same_onClientBroken : Same s (s.onClientBroken server id) := by
  unfold onClientBroken
  split_ifs
  · exact Same.refl s
  · split
    · split_ifs
      · refine Same.trans ?_ (same_scheduleReconnect)
        exact ⟨rfl, rfl, rfl, rfl, rfl, rfl⟩
      · exact Same.refl s
    · exact Same.refl s

theorem same_reportBroken (entries : List (String × SessionBinding)) :
    ∀ s : McpIntegration, Same s (reportBroken entries s) := by
  induction entries with
  | nil => exact Same.refl
  | cons _ _ ih =>
    intro s
    unfold reportBroken
    split
    · split_ifs
      · exact same_onClientBroken.trans (ih _)
      · exact ih s
    · exact ih s

theorem same_startNext (servers : List (String × Bool)) :
    ∀ s : McpIntegration, Same s (s.startNext servers) := by
  induction servers with
  | nil =>
    intro s
    refine Same.trans ?_ (same_reportBroken _ _)
    exact ⟨rfl, rfl, rfl, rfl, rfl, rfl⟩
  | cons entry _ ih =>
    obtain ⟨_, enabled⟩ := entry
    intro s
    cases enabled with
    | false =>
      refine Same.trans ?_ (ih _)
      exact ⟨rfl, rfl, rfl, rfl, rfl, rfl⟩
    | true => exact ⟨rfl, rfl, rfl, rfl, rfl, rfl⟩

theorem same_endLoop : Same s (s.endLoop task loop) := by
  unfold endLoop
  split_ifs
  · dsimp only
    split
    · refine Same.trans ?_ (same_scheduleReconnect)
      exact ⟨rfl, rfl, rfl, rfl, rfl, rfl⟩
    · exact ⟨rfl, rfl, rfl, rfl, rfl, rfl⟩
  · exact ⟨rfl, rfl, rfl, rfl, rfl, rfl⟩

variable {attempt : ℕ}

theorem same_nextAttempt : Same s (s.nextAttempt task loop attempt) := by
  unfold nextAttempt
  split_ifs
  · refine Same.trans ?_ same_endLoop
    exact ⟨rfl, rfl, rfl, rfl, rfl, rfl⟩
  · exact same_endLoop
  · exact ⟨rfl, rfl, rfl, rfl, rfl, rfl⟩

/-- The close is where it was, the clients owned are in the table once, and nothing is published
after `close`. -/
structure Frame (s s' : McpIntegration) : Prop where
  closed : s'.closed = s.closed
  phase : s'.closePhase = s.closePhase
  returned : s'.returned = s.returned
  owned : s.ownedClients.Nodup ∧ (∀ id ∈ s.ownedClients, (s.clients.get? id).isSome = true) →
    s'.ownedClients.Nodup ∧ ∀ id ∈ s'.ownedClients, (s'.clients.get? id).isSome = true
  published : s.closed = true → s'.published = s.published

theorem Same.frame (h : Same s s') : Frame s s' :=
  ⟨h.closed, h.phase, h.returned, fun ho => by rw [h.owned, h.clients]; exact ho,
    fun _ => h.published⟩

theorem Frame.trans (h : Frame s s') (h' : Frame s' s'') : Frame s s'' :=
  ⟨h'.closed.trans h.closed, h'.phase.trans h.phase, h'.returned.trans h.returned,
    fun ho => h'.owned (h.owned ho),
    fun hc => (h'.published (h.closed.trans hc)).trans (h.published hc)⟩

theorem frame_setClient (id : ℕ) (client : OwnedClient) :
    Frame s { s with clients := s.clients.set id client } := by
  refine ⟨rfl, rfl, rfl, fun ho => ⟨ho.1, fun i hi => ?_⟩, fun _ => rfl⟩
  rw [Dict.get?_set]
  split_ifs
  · rfl
  · exact ho.2 i hi

theorem frame_own (client : OwnedClient) (hnew : s.clients.get? id = none) :
    Frame s (s.own id client) := by
  refine ⟨rfl, rfl, rfl, fun ho => ⟨?_, fun i hi => ?_⟩, fun _ => rfl⟩
  · refine List.nodup_append.mpr ⟨ho.1, List.nodup_singleton _, fun a ha b hb => ?_⟩
    cases List.mem_singleton.mp hb
    rintro rfl
    have hsome := ho.2 a ha
    rw [hnew] at hsome
    cases hsome
  · unfold own
    rw [Dict.get?_set]
    split_ifs with heq
    · rfl
    · rcases mem_snoc hi with hi | hi
      · exact ho.2 i hi
      · exact absurd hi heq

theorem frame_rejected (client : OwnedClient) (hnew : s.clients.get? id = none) :
    Frame s ((s.own id client).closeClient id client) :=
  (frame_own client hnew).trans (frame_setClient id { client with closed := true })

theorem frame_publish {generation : ℕ}
    (h : s.publishSession server id client generation = some s') : Frame s s' := by
  unfold publishSession at h
  split_ifs at h with hnot
  cases h
  exact ⟨rfl, rfl, rfl, fun ho => ho, fun hc => absurd (.inl hc) hnot⟩

theorem frame_startDiscovered {rest : List (String × Bool)} (hnew : s.clients.get? id = none) :
    Frame s (s.startDiscovered server rest id discovered) := by
  cases discovered with
  | none =>
    refine Same.frame (Same.trans ?_ (same_startNext rest _))
    exact ⟨rfl, rfl, rfl, rfl, rfl, rfl⟩
  | some client =>
    unfold startDiscovered
    dsimp only
    split
    · rename_i published hpublish
      have hframe := (frame_own client hnew).trans (frame_publish hpublish)
      refine hframe.trans (Same.frame (Same.trans ?_ (same_startNext rest _)))
      exact ⟨rfl, rfl, rfl, rfl, rfl, rfl⟩
    · refine (frame_rejected client hnew).trans (Same.frame ?_)
      exact ⟨rfl, rfl, rfl, rfl, rfl, rfl⟩

theorem frame_loopDiscovered {frozen : ServerDiscovery} (hnew : s.clients.get? id = none) :
    Frame s (s.loopDiscovered task loop attempt id frozen discovered) := by
  cases discovered with
  | none =>
    refine Same.frame (Same.trans ?_ same_nextAttempt)
    exact ⟨rfl, rfl, rfl, rfl, rfl, rfl⟩
  | some client =>
    unfold loopDiscovered
    dsimp only
    split
    · refine (frame_own client hnew).trans (Same.frame (Same.trans ?_ same_endLoop))
      exact ⟨rfl, rfl, rfl, rfl, rfl, rfl⟩
    · refine (frame_rejected client hnew).trans (Same.frame ?_)
      exact ⟨rfl, rfl, rfl, rfl, rfl, rfl⟩
    · split
      · rename_i published hpublish
        exact ((frame_own client hnew).trans (frame_publish hpublish)).trans same_endLoop.frame
      · refine (frame_rejected client hnew).trans (Same.frame ?_)
        exact ⟨rfl, rfl, rfl, rfl, rfl, rfl⟩

/-! ## The clients at the close -/

/-- The tasks are gone and every server is closed. -/
structure Quiet (s : McpIntegration) : Prop where
  closed : s.closed = true
  start : StartPhase.running s.startPhase = false
  loops : ∀ t l, s.loops.get? t = some l → l.phase = .done
  cleanups : s.cleanups = []
  states : ∀ v state, s.states.get? v = some state → state = .closed

def Exited (s : McpIntegration) (id : ℕ) : Prop :=
  ∃ client, s.clients.get? id = some client ∧ client.exited = true

/-- Of the clients still to come, those whose close has begun have exited; of the others, all have,
as far as `close` knows. -/
structure ReapOk (s : McpIntegration) (current : Option ℕ) (rest : List ℕ) (allClosed : Bool) :
    Prop where
  quiet : s.Quiet
  coming : ∀ id ∈ rest, ∃ client, s.clients.get? id = some client ∧
    (client.closed = true → client.exited = true)
  nodup : rest.Nodup
  exited : allClosed = true → ∀ id ∈ s.ownedClients, id ∈ rest ∨ current = some id ∨ s.Exited id

def PhaseOk (s : McpIntegration) : Prop :=
  match s.closePhase with
  | .notClosing => s.closed = false ∧ s.returned = []
  | .gathering => s.closed = true ∧ s.returned = []
  | .reaping current rest allClosed => s.closed = true ∧ s.returned = [] ∧
    s.ReapOk current rest allClosed
  | .ended => s.closed = true ∧ (s.returned = [] ∨ ∃ b, s.returned = [b] ∧ s.Quiet ∧
    (b = true → ∀ id ∈ s.ownedClients, s.Exited id))

structure Shut (s : McpIntegration) : Prop where
  nodup : s.ownedClients.Nodup
  known : ∀ id ∈ s.ownedClients, (s.clients.get? id).isSome = true
  phase : s.PhaseOk

theorem Shut.begun (h : s.Shut) : ClosePhase.begun s.closePhase = s.closed := by
  have hphase := h.phase
  unfold PhaseOk at hphase
  cases hp : s.closePhase <;> rw [hp] at hphase <;> exact hphase.1.symm

/-- Nothing is published between the beginning of `close` and its end. -/
theorem Shut.frame (h : s.Shut) (hf : Frame s s') (hnot : ¬s.Quiet) : s'.Shut := by
  obtain ⟨hnodup, hknown⟩ := hf.owned ⟨h.nodup, h.known⟩
  refine ⟨hnodup, hknown, ?_⟩
  have hphase := h.phase
  unfold PhaseOk at hphase ⊢
  rw [hf.phase, hf.closed, hf.returned]
  cases hp : s.closePhase with
  | notClosing | gathering => rw [hp] at hphase; exact hphase
  | reaping =>
    rw [hp] at hphase
    exact absurd hphase.2.2.quiet hnot
  | ended =>
    rw [hp] at hphase
    refine ⟨hphase.1, .inl (hphase.2.resolve_right ?_)⟩
    rintro ⟨b, _, hquiet, _⟩
    exact hnot hquiet

theorem Quiet.of_same (h : s.Quiet) (hclosed : s'.closed = s.closed)
    (hstart : s'.startPhase = s.startPhase) (hloops : s'.loops = s.loops)
    (hcleanups : s'.cleanups = s.cleanups) (hstates : s'.states = s.states) : s'.Quiet := by
  refine ⟨?_, ?_, ?_, ?_, ?_⟩
  · rw [hclosed]; exact h.closed
  · rw [hstart]; exact h.start
  · rw [hloops]; exact h.loops
  · rw [hcleanups]; exact h.cleanups
  · rw [hstates]; exact h.states

/-- One client is changed after the close. -/
theorem Shut.setClient (h : s.Shut) {old : OwnedClient} (hget : s.clients.get? id = some old)
    (hclosed : client.closed = old.closed) (hexited : old.exited = true → client.exited = true) :
    Shut { s with clients := s.clients.set id client } := by
  obtain ⟨hnodup, hknown⟩ := (frame_setClient (s := s) id client).owned ⟨h.nodup, h.known⟩
  have hkeep (i : ℕ) (he : s.Exited i) :
      Exited { s with clients := s.clients.set id client } i := by
    obtain ⟨c, hc, hce⟩ := he
    unfold Exited
    rw [Dict.get?_set]
    split_ifs with heq
    · subst heq
      cases hget.symm.trans hc
      exact ⟨client, rfl, hexited hce⟩
    · exact ⟨c, hc, hce⟩
  refine ⟨hnodup, hknown, ?_⟩
  have hphase := h.phase
  unfold PhaseOk at hphase ⊢
  cases hp : s.closePhase with
  | notClosing | gathering => rw [hp] at hphase; exact hphase
  | reaping =>
    rw [hp] at hphase
    obtain ⟨hc, hr, hreap⟩ := hphase
    refine ⟨hc, hr, hreap.quiet.of_same rfl rfl rfl rfl rfl, fun i hi => ?_, hreap.nodup,
      fun ha i hi => ?_⟩
    · obtain ⟨c, hci, hce⟩ := hreap.coming i hi
      rw [Dict.get?_set]
      split_ifs with heq
      · subst heq
        cases hget.symm.trans hci
        exact ⟨client, rfl, fun hcl => hexited (hce (hclosed.symm.trans hcl))⟩
      · exact ⟨c, hci, hce⟩
    · exact (hreap.exited ha i hi).imp_right (Or.imp_right (hkeep i))
  | ended =>
    rw [hp] at hphase
    refine ⟨hphase.1, hphase.2.imp_right ?_⟩
    rintro ⟨b, hb, hquiet, hall⟩
    exact ⟨b, hb, hquiet.of_same rfl rfl rfl rfl rfl, fun hbt i hi => hkeep i (hall hbt i hi)⟩

/-- `close` goes from client to client: each has exited when `True` comes back for it. -/
theorem shut_reapNext (ids : List ℕ) : ∀ {s : McpIntegration} {allClosed : Bool},
    s.ownedClients.Nodup → (∀ id ∈ s.ownedClients, (s.clients.get? id).isSome = true) →
    s.returned = [] → s.ReapOk none ids allClosed → (reapNext s allClosed ids).Shut := by
  induction ids with
  | nil =>
    intro s allClosed hnodup hknown hreturned hreap
    refine ⟨hnodup, hknown, hreap.quiet.closed, .inr ⟨allClosed, ?_, ?_, fun hall id hid => ?_⟩⟩
    · change s.returned ++ [allClosed] = [allClosed]
      rw [hreturned]
      rfl
    · exact hreap.quiet.of_same rfl rfl rfl rfl rfl
    · exact ((hreap.exited hall id hid).resolve_left List.not_mem_nil).resolve_left nofun
  | cons id _ ih =>
    intro s _ hnodup hknown hreturned hreap
    obtain ⟨client, hget, hexited⟩ := hreap.coming id List.mem_cons_self
    obtain ⟨hnotin, hrest⟩ := List.nodup_cons.mp hreap.nodup
    unfold reapNext
    rw [hget]
    dsimp only
    split_ifs with hclosed
    · refine ih hnodup hknown hreturned ⟨hreap.quiet, fun i hi => ?_, hrest, fun hall i hi => ?_⟩
      · exact hreap.coming i (List.mem_cons_of_mem _ hi)
      · rcases hreap.exited hall i hi with hin | hcur
        · rcases List.mem_cons.mp hin with rfl | hin
          · exact .inr (.inr ⟨client, hget, hexited hclosed⟩)
          · exact .inl hin
        · exact .inr hcur
    · have hframe := frame_setClient (s := s) id { client with closed := true }
      obtain ⟨hnodup', hknown'⟩ := hframe.owned ⟨hnodup, hknown⟩
      refine ⟨hnodup', hknown', hreap.quiet.closed, hreturned,
        hreap.quiet.of_same rfl rfl rfl rfl rfl, fun i hi => ?_, hrest, fun hall i hi => ?_⟩
      · have hne : i ≠ id := fun heq => hnotin (heq ▸ hi)
        unfold closeClient
        rw [Dict.get?_set, if_neg hne]
        exact hreap.coming i (List.mem_cons_of_mem _ hi)
      · rcases hreap.exited hall i hi with hin | hcur | ⟨c, hc, hce⟩
        · rcases List.mem_cons.mp hin with rfl | hin
          · exact .inr (.inl rfl)
          · exact .inl hin
        · cases hcur
        · unfold Exited closeClient
          rw [Dict.get?_set]
          split_ifs with heq
          · subst heq
            cases hget.symm.trans hc
            exact .inr (.inr ⟨_, rfl, hce⟩)
          · exact .inr (.inr ⟨c, hc, hce⟩)

end Clients

section Closing

variable {s s' : McpIntegration} {server : String} {id task : ℕ} {loop : ReconnectLoop}
  {client : OwnedClient}

theorem fresh_new (h : s.fresh id discovered server = true) : s.clients.get? id = none :=
  Option.isNone_iff_eq_none.mp (Bool.and_eq_true_iff.mp h).1

theorem not_quiet_of_running (h : StartPhase.running s.startPhase = true) : ¬s.Quiet :=
  fun hq => nomatch hq.start.symm.trans h

theorem not_quiet_of_loop (hl : s.loops.get? task = some loop) (hactive : loop.phase ≠ .done) :
    ¬s.Quiet :=
  fun hq => hactive (hq.loops task loop hl)

theorem not_quiet_of_cleanup (hid : id ∈ s.cleanups) : ¬s.Quiet := by
  intro hq
  rw [hq.cleanups] at hid
  cases hid

theorem not_quiet_of_open (h : s.closed = false) : ¬s.Quiet :=
  fun hq => nomatch hq.closed.symm.trans h

theorem same_setState {state : McpSessionLifecycleState} : Same s (s.setState server state) :=
  ⟨rfl, rfl, rfl, rfl, rfl, rfl⟩

theorem same_setLoop {phase : ReconnectPhase} : Same s (s.setLoop task loop phase) :=
  ⟨rfl, rfl, rfl, rfl, rfl, rfl⟩

theorem shut_clientBreaks (h : s.Shut) (hget : s.clients.get? id = some client) :
    Shut (if client.closed then
        { s with clients := s.clients.set id { client with broken := true } }
      else onClientBroken { s with clients := s.clients.set id { client with broken := true } }
        client.discovery.serverId id) := by
  have hset : Shut { s with clients := s.clients.set id { client with broken := true } } :=
    h.setClient hget rfl fun he => he
  split_ifs with hclosed
  · exact hset
  · by_cases hc : s.closed = true
    · unfold onClientBroken
      rwa [if_pos (.inl hc)]
    · have hopen := Bool.eq_false_of_not_eq_true hc
      exact hset.frame same_onClientBroken.frame (not_quiet_of_open hopen)

/-- The cancelled tasks have ended; what is left is to close the clients. -/
theorem shut_gathered {order : List ℕ} (hm : s.Meets (.gathered order) = true) (hi : s.Inv)
    (h : s.Shut) (hphase : s.closePhase = .gathering) (hcleanups : s.cleanups = [])
    (hdone : (s.loops.values.all fun loop => loop.phase = .done) = true)
    (horder : order.Perm s.ownedClients) :
    Shut (reapNext {
      s with
      reconnectTasks := .empty
      pendingReconnects := .empty
      sessions := .empty
      states := s.states.mapWithKey fun _ _ => .closed } true order) := by
  have hphaseOk := h.phase
  unfold PhaseOk at hphaseOk
  rw [hphase] at hphaseOk
  obtain ⟨hclosed, hreturned⟩ := hphaseOk
  refine shut_reapNext _ h.nodup h.known hreturned ⟨⟨hclosed, hi.closing hclosed, fun t l ht => ?_,
    hcleanups, fun v state hv => ?_⟩, fun i hi => ?_, horder.nodup_iff.mpr h.nodup,
    fun _ i hi => .inl (horder.mem_iff.mpr hi)⟩
  · exact of_decide_eq_true (List.all_eq_true.mp hdone l (Dict.mem_values_iff.mpr ⟨t, ht⟩))
  · dsimp only at hv
    rw [Dict.get?_mapWithKey] at hv
    obtain ⟨_, _, rfl⟩ := Option.map_eq_some_iff.mp hv
    rfl
  · obtain ⟨client, hget⟩ := Option.isSome_iff_exists.mp (h.known i (horder.mem_iff.mp hi))
    have hall := List.all_eq_true.mp hm i (horder.mem_iff.mp hi)
    rw [hget] at hall
    refine ⟨client, hget, fun hc => ?_⟩
    simpa [hc] using hall

theorem shut_reaped {exited allClosed : Bool} {rest : List ℕ} (h : s.Shut)
    (hphase : s.closePhase = .reaping (some id) rest allClosed)
    (hget : s.clients.get? id = some client)
    (hexited : ¬(exited = true ∧ client.exited = false)) :
    Shut (reapNext s (allClosed && exited) rest) := by
  have hphaseOk := h.phase
  unfold PhaseOk at hphaseOk
  rw [hphase] at hphaseOk
  obtain ⟨_, hreturned, hreap⟩ := hphaseOk
  refine shut_reapNext rest h.nodup h.known hreturned
    ⟨hreap.quiet, hreap.coming, hreap.nodup, fun hall i hi => ?_⟩
  obtain ⟨hbefore, hnow⟩ := Bool.and_eq_true_iff.mp hall
  rcases hreap.exited hbefore i hi with hin | hcur | he
  · exact .inl hin
  · cases hcur
    refine .inr (.inr ⟨client, hget, ?_⟩)
    by_contra hne
    exact hexited ⟨hnow, Bool.eq_false_of_not_eq_true hne⟩
  · exact .inr (.inr he)

/-- What `close` does, and what a client does by itself. -/
def Action.ofClose : Action → Bool
  | .close | .gathered _ | .reaped _ | .closeCancelled => true
  | _ => false

def Action.ofClient : Action → Bool
  | .clientBreaks _ | .clientExits _ => true
  | _ => false

variable {a : Action}

/-- What a step outside `close` leaves alone. -/
theorem frame_step (hs : s.step a = some s') (hclose : a.ofClose = false) :
    Frame s s' ∧ (a.ofClient = false → ¬s.Quiet) := by
  cases a with
  | start =>
    unfold step at hs
    dsimp only at hs
    split_ifs at hs with hstart
    cases hs
    exact ⟨(same_startNext _ _).frame, fun _ => not_quiet_of_open hstart.2⟩
  | startDiscovered =>
    unfold step at hs
    dsimp only at hs
    split at hs
    · rename_i server rest hphase
      split_ifs at hs with hfresh
      cases hs
      refine ⟨frame_startDiscovered (fresh_new hfresh), fun _ => not_quiet_of_running ?_⟩
      rw [hphase]
      rfl
    · cases hs
  | startClosed =>
    unfold step at hs
    dsimp only at hs
    split at hs
    · rename_i server rest hphase
      cases hs
      refine ⟨(same_setState.trans (same_startNext _ _)).frame, fun _ => not_quiet_of_running ?_⟩
      rw [hphase]
      rfl
    · cases hs
  | startFails =>
    unfold step at hs
    dsimp only at hs
    have hsame : Same s { s with startPhase := .ended } := ⟨rfl, rfl, rfl, rfl, rfl, rfl⟩
    split at hs
    · rename_i hphase
      cases hs
      refine ⟨hsame.frame, fun _ => not_quiet_of_running ?_⟩
      rw [hphase]
      rfl
    · rename_i hphase
      cases hs
      refine ⟨hsame.frame, fun _ => not_quiet_of_running ?_⟩
      rw [hphase]
      rfl
    · cases hs
  | loopBegins =>
    obtain ⟨loop, hl, hactive, hs⟩ := withLoop_eq hs
    have hnot := not_quiet_of_loop hl hactive
    split at hs
    · cases hs
      exact ⟨same_nextAttempt.frame, fun _ => hnot⟩
    · cases hs
      exact ⟨same_setLoop.frame, fun _ => hnot⟩
    · cases hs
  | slept =>
    obtain ⟨loop, hl, hactive, hs⟩ := withLoop_eq hs
    have hnot := not_quiet_of_loop hl hactive
    split at hs
    · cases hs
      split_ifs
      · exact ⟨same_endLoop.frame, fun _ => hnot⟩
      · exact ⟨same_setLoop.frame, fun _ => hnot⟩
    · cases hs
  | loopDiscovered =>
    obtain ⟨loop, hl, hactive, hs⟩ := withLoop_eq hs
    split at hs
    · split_ifs at hs with hfresh
      cases hs
      exact ⟨frame_loopDiscovered (fresh_new hfresh), fun _ => not_quiet_of_loop hl hactive⟩
    · cases hs
  | loopClosed =>
    obtain ⟨loop, hl, hactive, hs⟩ := withLoop_eq hs
    have hnot := not_quiet_of_loop hl hactive
    split at hs
    · cases hs
      exact ⟨(same_setState.trans same_endLoop).frame, fun _ => hnot⟩
    · cases hs
      exact ⟨(same_setState.trans same_nextAttempt).frame, fun _ => hnot⟩
    · cases hs
  | loopRaises =>
    obtain ⟨loop, hl, hactive, hs⟩ := withLoop_eq hs
    cases hs
    exact ⟨(same_setState.trans same_endLoop).frame, fun _ => not_quiet_of_loop hl hactive⟩
  | loopCancelled =>
    obtain ⟨_, hl, hactive, hs⟩ := withLoop_eq hs
    split_ifs at hs
    cases hs
    exact ⟨same_endLoop.frame, fun _ => not_quiet_of_loop hl hactive⟩
  | cleanupBegins id =>
    unfold step at hs
    dsimp only at hs
    split_ifs at hs with hid
    obtain ⟨client, hget, hs⟩ := Option.bind_eq_some_iff.mp hs
    cases hs
    exact ⟨frame_setClient id { client with closed := true }, fun _ => not_quiet_of_cleanup hid⟩
  | cleanupEnds id =>
    unfold step at hs
    dsimp only at hs
    split_ifs at hs with hid
    cases hs
    have hsame : Same s { s with cleanups := s.cleanups.filter (· ≠ id) } :=
      ⟨rfl, rfl, rfl, rfl, rfl, rfl⟩
    exact ⟨hsame.frame, fun _ => not_quiet_of_cleanup hid⟩
  | clientBreaks id =>
    obtain ⟨client, hget, hs⟩ := Option.bind_eq_some_iff.mp hs
    split at hs
    · cases hs
    · cases hs
      have hset := frame_setClient (s := s) id { client with broken := true }
      refine ⟨?_, fun h => by cases h⟩
      split
      · exact hset
      · exact hset.trans same_onClientBroken.frame
  | clientExits id =>
    obtain ⟨client, -, hs⟩ := Option.bind_eq_some_iff.mp hs
    cases hs
    exact ⟨frame_setClient id { client with exited := true }, fun h => by cases h⟩
  | close | gathered | reaped | closeCancelled => cases hclose

/-- Every step that meets the condition keeps the component shut. -/
theorem shut_step (hm : s.Meets a = true) (hs : s.step a = some s') (hi : s.Inv)
    (h : s.Shut) : s'.Shut := by
  by_cases htask : a.ofClose = false ∧ a.ofClient = false
  · obtain ⟨hframe, hnot⟩ := frame_step hs htask.1
    exact h.frame hframe (hnot htask.2)
  cases a with
  | clientBreaks =>
    obtain ⟨client, hget, hs⟩ := Option.bind_eq_some_iff.mp hs
    split at hs
    · cases hs
    · cases hs
      exact shut_clientBreaks h hget
  | clientExits =>
    obtain ⟨client, hget, hs⟩ := Option.bind_eq_some_iff.mp hs
    cases hs
    exact h.setClient hget rfl fun _ => rfl
  | close =>
    cases hs
    obtain ⟨hopen, _⟩ := Bool.and_eq_true_iff.mp hm
    have hclosed : s.closed = false := by simpa using hopen
    rw [if_neg (by simpa using hopen)]
    refine ⟨h.nodup, h.known, rfl, ?_⟩
    have hphase := h.phase
    unfold PhaseOk at hphase
    cases hp : s.closePhase with
    | notClosing | gathering => rw [hp] at hphase; exact hphase.2
    | reaping => rw [hp] at hphase; exact hphase.2.1
    | ended =>
      rw [hp] at hphase
      cases hphase.1.symm.trans hclosed
  | gathered =>
    unfold step at hs
    dsimp only at hs
    split_ifs at hs with hready
    cases hs
    exact shut_gathered hm hi h hready.1 hready.2.1 hready.2.2.1 (List.isPerm_iff.mp hready.2.2.2)
  | reaped =>
    unfold step at hs
    dsimp only at hs
    split at hs
    · rename_i id rest allClosed hphase
      obtain ⟨_, hget, hs⟩ := Option.bind_eq_some_iff.mp hs
      split_ifs at hs with hexited
      cases hs
      exact shut_reaped h hphase hget hexited
    · cases hs
  | closeCancelled =>
    unfold step at hs
    dsimp only at hs
    have hphase := h.phase
    unfold PhaseOk at hphase
    split at hs
    · rename_i hp
      cases hs
      rw [hp] at hphase
      exact ⟨h.nodup, h.known, hphase.1, .inl hphase.2⟩
    · rename_i hp
      cases hs
      rw [hp] at hphase
      exact ⟨h.nodup, h.known, hphase.1, .inl hphase.2.1⟩
    · cases hs
  | _ => exact absurd ⟨rfl, rfl⟩ htask

/-- Closed it stays, nothing is published any more, and what was returned stays returned. -/
structure After (s s' : McpIntegration) : Prop where
  closed : s.closed = true → s'.closed = true ∧ s'.published = s.published
  returned : s.returned ⊆ s'.returned

theorem Frame.after (h : Frame s s') : After s s' :=
  ⟨fun hc => ⟨h.closed.trans hc, h.published hc⟩, h.returned ▸ List.Subset.refl _⟩

theorem After.trans {s'' : McpIntegration} (h : After s s') (h' : After s' s'') : After s s'' :=
  ⟨fun hc => ⟨(h'.closed (h.closed hc).1).1,
    (h'.closed (h.closed hc).1).2.trans (h.closed hc).2⟩, fun _ hx => h'.returned (h.returned hx)⟩

theorem after_reapNext (ids : List ℕ) : ∀ {s : McpIntegration} {allClosed : Bool},
    After s (reapNext s allClosed ids) := by
  induction ids with
  | nil => exact ⟨fun hc => ⟨hc, rfl⟩, List.subset_append_left _ _⟩
  | cons _ _ ih =>
    intro s _
    unfold reapNext
    split
    · split_ifs
      · exact ih
      · exact ⟨fun hc => ⟨hc, rfl⟩, List.Subset.refl _⟩
    · exact ih

/-- What `close` has returned stays returned. -/
theorem after_step (hs : s.step a = some s') : After s s' := by
  by_cases htask : a.ofClose = false
  · exact (frame_step hs htask).1.after
  cases a with
  | close =>
    cases hs
    split_ifs
    · exact ⟨fun hc => ⟨hc, rfl⟩, List.subset_append_left _ _⟩
    · exact ⟨fun _ => ⟨rfl, rfl⟩, List.Subset.refl _⟩
  | gathered =>
    unfold step at hs
    dsimp only at hs
    split_ifs at hs
    cases hs
    refine After.trans ?_ (after_reapNext _)
    exact ⟨fun hc => ⟨hc, rfl⟩, List.Subset.refl _⟩
  | reaped =>
    unfold step at hs
    dsimp only at hs
    split at hs
    · obtain ⟨_, _, hs⟩ := Option.bind_eq_some_iff.mp hs
      split_ifs at hs
      cases hs
      exact after_reapNext _
    · cases hs
  | closeCancelled =>
    unfold step at hs
    dsimp only at hs
    split at hs
    · cases hs
      exact ⟨fun hc => ⟨hc, rfl⟩, List.Subset.refl _⟩
    · cases hs
      exact ⟨fun hc => ⟨hc, rfl⟩, List.Subset.refl _⟩
    · cases hs
  | _ => exact absurd rfl htask

/-! ## Runs -/

/-- What holds of the component wherever a run is. -/
structure Good (s : McpIntegration) : Prop where
  inv : s.Inv
  shut : s.Shut

theorem good_step (hm : s.Meets a = true) (hs : s.step a = some s') (h : s.Good) : s'.Good :=
  ⟨inv_step hm hs h.inv h.shut.begun, shut_step hm hs h.inv h.shut⟩

theorem good_initially {configs : List (String × Bool)} (hdistinct : (configs.map Prod.fst).Nodup)
    (reconnectMaxAttempts : ℕ) : (initially configs reconnectMaxAttempts).Good := by
  refine ⟨⟨List.Pairwise.nil, fun _ _ h => (nomatch h), fun _ _ h => (nomatch h),
    fun _ _ h => (nomatch h), fun _ _ h => (nomatch h), fun _ => rfl, fun h => (nomatch h),
    fun _ _ => ⟨rfl, fun _ => List.not_mem_nil⟩, hdistinct, fun _ h => (nomatch h),
    fun _ h => (nomatch h), fun h => (nomatch h)⟩, List.nodup_nil, fun _ h => (nomatch h),
    rfl, rfl⟩

/-- What the sessions, the loops and the close of a component owe, wherever a run is. -/
structure Safe (s : McpIntegration) : Prop where
  generations : s.published.Pairwise fun a b => a.1 = b.1 → a.2 < b.2
  oneLoop : ∀ task loop other loop', s.loops.get? task = some loop → loop.phase ≠ .done →
    s.loops.get? other = some loop' → loop'.phase ≠ .done → loop.server = loop'.server →
    task = other
  acquired : ∀ server binding, s.acquireSession server = some binding →
    ∃ client, s.clients.get? binding.client = some client ∧ client.broken = false ∧
      client.closed = false ∧ client.discovery.serverId = server ∧
      Agrees s.results server client.discovery
  frozen : s.started = true → s.frozenResults = s.results
  followed : ∀ x ∈ s.lost, x ∈ s.scheduled
  noticed : s.started = true → s.closed = false → ∀ server binding,
    s.sessions.get? server = some binding →
    ∃ client, s.clients.get? binding.client = some client ∧ client.broken = false
  states : s.returned ≠ [] → ∀ server state, s.states.get? server = some state → state = .closed
  exited : true ∈ s.returned → ∀ id ∈ s.ownedClients, s.Exited id

theorem Shut.returned_quiet (h : s.Shut) (hreturned : s.returned ≠ []) :
    s.Quiet ∧ (true ∈ s.returned → ∀ id ∈ s.ownedClients, s.Exited id) := by
  have hphase := h.phase
  unfold PhaseOk at hphase
  cases hp : s.closePhase with
  | notClosing | gathering => rw [hp] at hphase; exact absurd hphase.2 hreturned
  | reaping => rw [hp] at hphase; exact absurd hphase.2.1 hreturned
  | ended =>
    rw [hp] at hphase
    obtain ⟨b, hb, hquiet, hexited⟩ := hphase.2.resolve_left hreturned
    refine ⟨hquiet, fun htrue => ?_⟩
    rw [hb] at htrue
    exact hexited (List.mem_singleton.mp htrue).symm

theorem Good.safe (h : s.Good) : s.Safe := by
  refine ⟨h.inv.generations, ?_, ?_, fun hst => (h.inv.frozen hst).1, h.inv.lost, ?_,
    fun hr => (h.shut.returned_quiet hr).1.states, fun ht =>
      (h.shut.returned_quiet (List.ne_nil_of_mem ht)).2 ht⟩
  · intro task loop other loop' hl hactive hl' hactive' hserver
    have htask := (h.inv.loop task loop hl hactive).1
    have hother := (h.inv.loop other loop' hl' hactive').1
    exact Option.some.inj (htask.symm.trans (hserver ▸ hother))
  · intro server binding hacquire
    obtain ⟨b, hb, hacquire⟩ := Option.bind_eq_some_iff.mp hacquire
    obtain ⟨client, hget, hacquire⟩ := Option.bind_eq_some_iff.mp hacquire
    split_ifs at hacquire with hsound
    obtain rfl := Option.some.inj hacquire
    obtain ⟨_, c, hc, hserver, hagrees, _⟩ := h.inv.session server b hb
    cases hget.symm.trans hc
    exact ⟨client, hget, hsound.2.2, hsound.2.1, hserver, hagrees⟩
  · intro hst hc server binding hb
    obtain ⟨_, client, hget, _, _, _, hsound⟩ := h.inv.session server binding hb
    exact ⟨client, hget, hsound not_false hst hc⟩

theorem after_run : ∀ {acts : List Action} {s s' : McpIntegration},
    Trace.run step s acts = some s' → After s s' := by
  intro acts
  induction acts with
  | nil =>
    intro s s' hrun
    cases hrun
    exact ⟨fun hc => ⟨hc, rfl⟩, List.Subset.refl _⟩
  | cons _ _ ih =>
    intro s _ hrun
    obtain ⟨t, ht, hrun⟩ := Trace.run_cons.mp hrun
    exact (after_step ht).trans (ih hrun)

/-- Wherever a run is, the component is safe; a run that goes on from a component that is closed
publishes nothing, and what `close` has returned stays returned. -/
theorem sessions_owned {configs : List (String × Bool)} {reconnectMaxAttempts : ℕ}
    {acts rest : List Action} (hdistinct : (configs.map Prod.fst).Nodup)
    (hreached : Trace.run step (initially configs reconnectMaxAttempts) acts = some s)
    (hmeets : Trace.Along step (fun s a => s.Meets a = true)
      (initially configs reconnectMaxAttempts) acts)
    (hgoes : Trace.run step s rest = some s') :
    s.Safe ∧ (s.closed = true → s'.closed = true ∧ s'.published = s.published) ∧
      s.returned ⊆ s'.returned := by
  have hgood : s.Good := Trace.run_keeps (fun _ _ _ hm hs h => good_step hm hs h) hmeets hreached
    (good_initially hdistinct reconnectMaxAttempts)
  have hafter := after_run hgoes
  exact ⟨hgood.safe, hafter.closed, hafter.returned⟩

/-- A server, and a run that loses its session, reconnects and closes. -/
def sampleDiscovery : ServerDiscovery where
  serverId := "a"
  serverInfoName := "files"
  tools := [⟨"read", some "1"⟩]

def sampleClient : OwnedClient := ⟨sampleDiscovery, false, false, false⟩

def sampleRun : List Action :=
  [.start, .startDiscovered 0 (some sampleClient), .clientBreaks 0, .loopBegins 0,
    .cleanupBegins 0, .clientExits 0, .cleanupEnds 0, .slept 0,
    .loopDiscovered 0 1 (some sampleClient), .close, .gathered [0, 1], .clientExits 1,
    .reaped true]

theorem sessions_owned_sample : ∃ s, Trace.run step (initially [("a", true)] 2) sampleRun = some s ∧
    s.returned = [true] ∧ s.published = [("a", 1), ("a", 2)] ∧ s.Safe := by
  have hrun : ((Trace.run step (initially [("a", true)] 2) sampleRun).any fun s =>
      s.returned = [true] ∧ s.published = [("a", 1), ("a", 2)]) = true := by decide +kernel
  obtain ⟨s, hs, hreturned, hpublished⟩ := exists_of_any hrun
  have hgoes : Trace.run step s [] = some s := rfl
  have hsafe := sessions_owned (by decide) hs (by decide +kernel) hgoes
  exact ⟨s, hs, hreturned, hpublished, hsafe.1⟩

/-- A second `close` answers `True` while the first waits for a process that is alive. -/
theorem sessions_not_owned : ¬∀ (configs : List (String × Bool)) (reconnectMaxAttempts : ℕ)
    (acts : List Action) (s : McpIntegration), (configs.map Prod.fst).Nodup →
    Trace.run step (initially configs reconnectMaxAttempts) acts = some s → s.Safe := by
  intro h
  have hrun : ((Trace.run step (initially [("a", true)] 2)
      [.start, .startDiscovered 0 (some sampleClient), .close, .gathered [0], .close]).any fun s =>
      true ∈ s.returned ∧ 0 ∈ s.ownedClients ∧
        (s.clients.get? 0).map OwnedClient.exited = some false) = true := by decide +kernel
  obtain ⟨s, hs, hreturned, howned, halive⟩ := exists_of_any hrun
  obtain ⟨_, hget, hexited⟩ := (h _ _ _ s (by decide) hs).exited hreturned 0 howned
  rw [hget] at halive
  cases (Option.some.inj halive).symm.trans hexited

end Closing

end McpIntegration

end LocalAgent.Runtime
