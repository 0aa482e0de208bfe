import LocalAgent.Runtime.McpLifecycle

/-!
# LocalAgent.Runtime.McpLifecycleSteps — what a step keeps of the sessions and loops

* `SessionOk`, `LoopOk`, `InvBut`: what the tables of sessions, loops and clients say.
* `InvBut.publish`, `InvBut.onClientBroken`, `InvBut.endLoop`: the synchronous parts.
* `Meets`: when `close` may begin, and when it may go on to the clients.
* `inv_step`: every such step keeps the invariant.
-/

namespace LocalAgent.Runtime

namespace McpIntegration

section Sessions

/-! ## The invariant of the sessions and loops -/

/-- The servers that `start` has still to come to, its current one first. -/
def StartPhase.coming (configs : List (String × Bool)) : StartPhase → List String
  | .notStarted => configs.map Prod.fst
  | .discovering server rest => server :: rest.map Prod.fst
  | .closingCandidate _ rest => rest.map Prod.fst
  | .ended => []

/-- `start` is at an await. -/
def StartPhase.running : StartPhase → Bool
  | .discovering _ _ => true
  | .closingCandidate _ _ => true
  | _ => false

def Agrees (results : Dict String ServerDiscovery) (server : String)
    (discovery : ServerDiscovery) : Prop :=
  ∃ frozen, results.get? server = some frozen ∧
    (frozen = discovery ∨ isCompatible frozen discovery = some true)

/-- A bound session is the last that was published, of a client that agrees with the frozen
discovery, and that is sound as long as the component runs, the waived servers apart. -/
def SessionOk (waived : String → Prop) (s : McpIntegration) (server : String)
    (binding : SessionBinding) : Prop :=
  (∀ g, (server, g) ∈ s.published → g ≤ binding.generation) ∧
    ∃ client, s.clients.get? binding.client = some client ∧
      client.discovery.serverId = server ∧ Agrees s.results server client.discovery ∧
      (s.closed = false → client.closed = false) ∧
      (¬waived server → s.started = true → s.closed = false → client.broken = false)

/-- A running loop is the one of its server, which has no session. -/
def LoopOk (s : McpIntegration) (task : ℕ) (loop : ReconnectLoop) : Prop :=
  s.reconnectTasks.get? loop.server = some task ∧ s.sessions.get? loop.server = none ∧
    (∀ g, (loop.server, g) ∈ s.published → g ≤ loop.oldGeneration) ∧ s.started = true

structure InvBut (waived : String → Prop) (s : McpIntegration) : Prop where
  generations : s.published.Pairwise fun a b => a.1 = b.1 → a.2 < b.2
  session : ∀ server binding, s.sessions.get? server = some binding →
    SessionOk waived s server binding
  loop : ∀ task loop, s.loops.get? task = some loop → loop.phase ≠ .done → s.LoopOk task loop
  tasks : ∀ task loop, s.loops.get? task = some loop → task < s.nextTask
  owner : ∀ server task, s.reconnectTasks.get? server = some task →
    ∃ loop, s.loops.get? task = some loop ∧ loop.server = server
  pendings : ∀ server, s.pendingReconnects.get? server = none
  frozen : s.started = true → s.frozenResults = s.results ∧ s.startPhase = .ended
  coming : ∀ server ∈ StartPhase.coming s.configs s.startPhase,
    s.sessions.get? server = none ∧ ∀ g, (server, g) ∉ s.published
  distinct : (StartPhase.coming s.configs s.startPhase).Nodup
  lost : ∀ x ∈ s.lost, x ∈ s.scheduled
  cleanup : ∀ id ∈ s.cleanups, (s.clients.get? id).isSome = true ∧
    ∀ server binding, s.sessions.get? server = some binding → binding.client ≠ id
  closing : s.closed = true → StartPhase.running s.startPhase = false

abbrev Inv (s : McpIntegration) : Prop := InvBut (fun _ => False) s

variable {waived : String → Prop} {s : McpIntegration} {server : String} {id task : ℕ}
  {loop : ReconnectLoop} {client : OwnedClient}

theorem InvBut.setState (h : InvBut waived s) (state : McpSessionLifecycleState) :
    InvBut waived (s.setState server state) :=
  ⟨h.generations, h.session, h.loop, h.tasks, h.owner, h.pendings, h.frozen, h.coming,
    h.distinct, h.lost, h.cleanup, h.closing⟩

/-- No session of the table is that of the client. -/
def Unbound (s : McpIntegration) (id : ℕ) : Prop :=
  ∀ server binding, s.sessions.get? server = some binding → binding.client ≠ id

section

variable (h : InvBut waived s)
include h

/-- A client is owned, or changed without its discovery. -/
theorem InvBut.setClient (client : OwnedClient) (owned : List ℕ)
    (hold : ∀ old, s.clients.get? id = some old → client.discovery = old.discovery ∧
      (s.Unbound id ∨ (s.closed = false → client.closed = old.closed) ∧
        (s.started = true → s.closed = false → client.broken = old.broken))) :
    InvBut waived { s with clients := s.clients.set id client, ownedClients := owned } := by
  refine ⟨h.generations, fun server binding hb => ?_, h.loop, h.tasks, h.owner, h.pendings,
    h.frozen, h.coming, h.distinct, h.lost, fun i hi => ⟨?_, (h.cleanup i hi).2⟩, h.closing⟩
  · obtain ⟨hgen, old, hget, hserver, hagrees, hclosed, hsound⟩ := h.session server binding hb
    by_cases hid : binding.client = id
    · rw [hid] at hget
      obtain ⟨hdiscovery, hsame⟩ := hold old hget
      rcases hsame with hunbound | ⟨hcl, hbr⟩
      · exact absurd hid (hunbound server binding hb)
      · refine ⟨hgen, client, ?_, hdiscovery ▸ hserver, hdiscovery ▸ hagrees, ?_, ?_⟩
        · dsimp only
          rw [Dict.get?_set, if_pos hid]
        · exact fun hc => (hcl hc).trans (hclosed hc)
        · exact fun hw hst hc => (hbr hst hc).trans (hsound hw hst hc)
    · refine ⟨hgen, old, ?_, hserver, hagrees, hclosed, hsound⟩
      rwa [Dict.get?_set, if_neg hid]
  · dsimp only
    rw [Dict.get?_set]
    split_ifs
    · rfl
    · exact (h.cleanup i hi).1

theorem InvBut.closeClient (hc : s.clients.get? id = some client)
    (hunbound : s.closed = false → s.Unbound id) : InvBut waived (s.closeClient id client) := by
  refine h.setClient _ s.ownedClients fun old hold => ?_
  cases hc.symm.trans hold
  refine ⟨rfl, ?_⟩
  by_cases hclosed : s.closed = false
  · exact .inl (hunbound hclosed)
  · exact .inr ⟨fun hc => absurd hc hclosed, fun _ _ => rfl⟩

theorem InvBut.own (hnew : s.clients.get? id = none) (client : OwnedClient) :
    InvBut waived (s.own id client) :=
  h.setClient _ _ fun _ hold => nomatch hnew.symm.trans hold

theorem InvBut.unbound_new (hnew : s.clients.get? id = none) : s.Unbound id := by
  intro server binding hb
  obtain ⟨_, _, hget, _⟩ := h.session server binding hb
  rintro rfl
  cases hnew.symm.trans hget

end

/-! ## Loops -/

section

variable (h : InvBut waived s)
include h

/-- A server with a session has no reconnect loop. -/
theorem InvBut.activeLoop_eq_none {binding : SessionBinding}
    (hb : s.sessions.get? server = some binding) : s.activeLoop server = none := by
  unfold activeLoop
  cases htask : s.reconnectTasks.get? server with
  | none => rfl
  | some task =>
    dsimp only
    cases hloop : s.loops.get? task with
    | none => rfl
    | some loop =>
      dsimp only
      split_ifs with hdone
      · rfl
      · obtain ⟨_, hloop', hserver⟩ := h.owner server task htask
        cases hloop.symm.trans hloop'
        have hnone := (h.loop task loop hloop hdone).2.1
        rw [hserver] at hnone
        cases hb.symm.trans hnone

theorem InvBut.setLoop (hl : s.loops.get? task = some loop)
    (hactive : loop.phase ≠ .done) (phase : ReconnectPhase) :
    InvBut waived (s.setLoop task loop phase) := by
  refine ⟨h.generations, h.session, fun t l ht hp => ?_, fun t l ht => ?_, fun v t hv => ?_,
    h.pendings, h.frozen, h.coming, h.distinct, h.lost, h.cleanup, h.closing⟩
  · unfold McpIntegration.setLoop at ht
    rw [Dict.get?_set] at ht
    split_ifs at ht with heq
    · subst heq
      cases ht
      exact h.loop t loop hl hactive
    · exact h.loop t l ht hp
  · unfold McpIntegration.setLoop at ht
    rw [Dict.get?_set] at ht
    split_ifs at ht with heq
    · exact heq ▸ h.tasks task loop hl
    · exact h.tasks t l ht
  · obtain ⟨l, hget, hserver⟩ := h.owner v t hv
    unfold McpIntegration.setLoop
    rw [Dict.get?_set]
    split_ifs with heq
    · subst heq
      cases hl.symm.trans hget
      exact ⟨_, rfl, hserver⟩
    · exact ⟨l, hget, hserver⟩

/-- A loop ends, and the loss it has waited for starts the next one. -/
theorem InvBut.endLoop (hl : s.loops.get? task = some loop)
    (hactive : loop.phase ≠ .done) : InvBut waived (s.endLoop task loop) := by
  have hset := h.setLoop hl hactive .done
  unfold McpIntegration.endLoop
  rw [if_pos (h.loop task loop hl hactive).1, h.pendings]
  refine ⟨hset.generations, hset.session, fun t l ht hp => ?_, hset.tasks, fun v t hv => ?_,
    fun v => ?_, hset.frozen, hset.coming, hset.distinct, hset.lost, hset.cleanup, hset.closing⟩
  · obtain ⟨htask, hrest⟩ := hset.loop t l ht hp
    refine ⟨?_, hrest⟩
    rw [Dict.get?_erase, if_neg]
    · exact htask
    · intro heq
      -- the two loops would be the loop of one server
      have hsame : some t = some task := htask.symm.trans
        (heq ▸ (h.loop task loop hl hactive).1)
      cases hsame
      unfold McpIntegration.setLoop at ht
      rw [Dict.get?_set, if_pos rfl] at ht
      cases ht
      exact hp rfl
  · dsimp only at hv
    rw [Dict.get?_erase] at hv
    split_ifs at hv
    exact hset.owner v t hv
  · dsimp only
    rw [Dict.get?_erase]
    split_ifs
    · rfl
    · exact h.pendings v

/-- A broken client gives way to a reconnect loop of its generation. -/
theorem InvBut.onClientBroken : InvBut waived (s.onClientBroken server id) := by
  unfold McpIntegration.onClientBroken
  split_ifs with hskip
  · exact h
  · push Not at hskip
    obtain ⟨hclosed, hstarted⟩ := hskip
    have hclosed : s.closed = false := Bool.eq_false_iff.mpr hclosed
    have hstarted : s.started = true := Bool.eq_true_of_not_eq_false hstarted
    split
    · rename_i binding hb
      split_ifs with hid
      · obtain ⟨hgen, client, hget, _⟩ := h.session server binding hb
        have hnone : activeLoop {
            s with
            sessions := s.sessions.erase server
            states := s.states.set server .degraded
            cleanups := s.cleanups ++ [id]
            lost := s.lost ++ [(server, binding.generation)] } server = none :=
          h.activeLoop_eq_none hb
        unfold scheduleReconnect
        rw [if_neg (ne_of_eq_of_ne hclosed Bool.false_ne_true), hnone]
        have herase (v : String) (b : SessionBinding)
            (hv : (s.sessions.erase server).get? v = some b) :
            v ≠ server ∧ s.sessions.get? v = some b := by
          rw [Dict.get?_erase] at hv
          split_ifs at hv with heq
          exact ⟨heq, hv⟩
        refine ⟨h.generations, fun v b hv => ?_, fun t l ht hp => ?_, fun t l ht => ?_,
          fun v t hv => ?_, h.pendings, h.frozen, fun v hv => ?_, h.distinct,
          fun x hx => ?_, fun i hi => ?_, h.closing⟩
        · exact h.session v b (herase v b hv).2
        · dsimp only at ht
          rcases Dict.get?_set_cases ht with ⟨heq, rfl⟩ | ⟨-, ht⟩
          · refine ⟨?_, ?_, hgen, hstarted⟩
            · dsimp only
              rw [Dict.get?_set, if_pos rfl, heq]
            · dsimp only
              rw [Dict.get?_erase, if_pos rfl]
          · obtain ⟨htask, hsession, hrest⟩ := h.loop t l ht hp
            have hne : l.server ≠ server := by
              rintro hc
              rw [hc] at hsession
              cases hb.symm.trans hsession
            refine ⟨?_, ?_, hrest⟩
            · dsimp only
              rwa [Dict.get?_set, if_neg hne]
            · dsimp only
              rwa [Dict.get?_erase, if_neg hne]
        · dsimp only at ht ⊢
          rw [Dict.get?_set] at ht
          split_ifs at ht with heq
          · omega
          · have := h.tasks t l ht
            omega
        · dsimp only at hv ⊢
          rcases Dict.get?_set_cases hv with ⟨hvs, rfl⟩ | ⟨-, hv⟩
          · rw [Dict.get?_set, if_pos rfl]
            exact ⟨_, rfl, hvs.symm⟩
          · obtain ⟨l, hget', hserver⟩ := h.owner v t hv
            have hlt := h.tasks t l hget'
            rw [Dict.get?_set, if_neg (by omega)]
            exact ⟨l, hget', hserver⟩
        · obtain ⟨hnosession, hnew⟩ := h.coming v hv
          refine ⟨?_, hnew⟩
          rw [Dict.get?_erase]
          split_ifs
          · rfl
          · exact hnosession
        · rcases List.mem_append.mp hx with hx | hx
          · exact List.mem_append_left _ (h.lost x hx)
          · exact List.mem_append_right _ hx
        · rcases mem_snoc hi with hi | rfl
          · refine ⟨(h.cleanup i hi).1, fun v b hv => ?_⟩
            exact (h.cleanup i hi).2 v b (herase v b hv).2
          · refine ⟨by rw [← hid, hget]; rfl, fun v b hv hc => ?_⟩
            -- two servers with one client would be one
            obtain ⟨hne, hv⟩ := herase v b hv
            obtain ⟨_, _, hget', hserver', _⟩ := h.session v b hv
            obtain ⟨_, _, hget'', hserver'', _⟩ := h.session server binding hb
            rw [hc] at hget'
            rw [hid] at hget''
            cases hget'.symm.trans hget''
            exact hne (hserver'.symm.trans hserver'')
      · exact h
    · exact h

end

end Sessions

section Losses

variable {waived waived' : String → Prop} {s : McpIntegration} {server : String} {id task : ℕ}
  {loop : ReconnectLoop} {client : OwnedClient}

/-! ## Losses -/

theorem InvBut.weaken (h : InvBut waived s)
    (hall : ∀ v b c, s.sessions.get? v = some b → s.clients.get? b.client = some c → waived v →
      ¬waived' v → s.started = true → s.closed = false → c.broken = false) :
    InvBut waived' s := by
  refine ⟨h.generations, fun v b hv => ?_, h.loop, h.tasks, h.owner, h.pendings, h.frozen,
    h.coming, h.distinct, h.lost, h.cleanup, h.closing⟩
  obtain ⟨hgen, c, hget, hserver, hagrees, hclosed, hsound⟩ := h.session v b hv
  refine ⟨hgen, c, hget, hserver, hagrees, hclosed, fun hnot hst hc => ?_⟩
  by_cases hw : waived v
  · exact hall v b c hv hget hw hnot hst hc
  · exact hsound hw hst hc

theorem onClientBroken_same : (s.onClientBroken server id).clients = s.clients ∧
    (s.onClientBroken server id).started = s.started ∧
    (s.onClientBroken server id).closed = s.closed := by
  unfold onClientBroken
  split_ifs
  · exact ⟨rfl, rfl, rfl⟩
  · split
    · split_ifs
      · unfold scheduleReconnect
        split_ifs
        · exact ⟨rfl, rfl, rfl⟩
        · split <;> exact ⟨rfl, rfl, rfl⟩
      · exact ⟨rfl, rfl, rfl⟩
    · exact ⟨rfl, rfl, rfl⟩

theorem sessions_scheduleReconnect {old : ℕ} :
    (s.scheduleReconnect server old).sessions = s.sessions := by
  unfold scheduleReconnect
  split_ifs
  · rfl
  · split <;> rfl

theorem session_onClientBroken {v : String} {b : SessionBinding}
    (hv : (s.onClientBroken server id).sessions.get? v = some b) :
    s.sessions.get? v = some b ∧
      (s.started = true → s.closed = false → v = server → b.client ≠ id) := by
  unfold onClientBroken at hv
  split_ifs at hv with hskip
  · refine ⟨hv, fun hst hc => ?_⟩
    rw [hst, hc] at hskip
    simp at hskip
  · split at hv
    · rename_i binding hb
      split_ifs at hv with hid
      · rw [sessions_scheduleReconnect, Dict.get?_erase] at hv
        split_ifs at hv with heq
        exact ⟨hv, fun _ _ hvs => absurd hvs heq⟩
      · refine ⟨hv, fun _ _ hvs => ?_⟩
        rw [hvs, hb] at hv
        cases hv
        exact hid
    · rename_i hnone
      exact ⟨hv, fun _ _ hvs => by cases (hvs ▸ hv).symm.trans hnone⟩

/-- Every bound client that is broken is reported. -/
theorem reportBroken_inv (entries : List (String × SessionBinding)) : ∀ {s : McpIntegration},
    InvBut (fun v => ∃ b, (v, b) ∈ entries) s →
    (∀ v b b', s.sessions.get? v = some b → (v, b') ∈ entries → b' = b) →
    (reportBroken entries s).Inv := by
  induction entries with
  | nil => exact fun h _ => h.weaken fun _ _ _ _ _ hw => absurd hw.choose_spec List.not_mem_nil
  | cons entry rest ih =>
    obtain ⟨server, binding⟩ := entry
    intro s h hsame
    have hserver (v : String) (hw : ∃ b, (v, b) ∈ (server, binding) :: rest)
        (hnot : ¬∃ b, (v, b) ∈ rest) : v = server := by
      obtain ⟨b, hb⟩ := hw
      rcases List.mem_cons.mp hb with heq | hb
      · exact (Prod.mk.inj heq).1
      · exact absurd ⟨b, hb⟩ hnot
    unfold reportBroken
    split
    · rename_i client hget
      split_ifs with hbroken
      · refine ih (h.onClientBroken.weaken fun v b c hv _ hw hnot hst hc => ?_) ?_
        · obtain rfl := hserver v hw hnot
          obtain ⟨hold, hne⟩ := session_onClientBroken hv
          obtain rfl := hsame v b binding hold List.mem_cons_self
          rw [onClientBroken_same.2.1] at hst
          rw [onClientBroken_same.2.2] at hc
          exact absurd rfl (hne hst hc rfl)
        · intro v b b' hv hb'
          exact hsame v b b' (session_onClientBroken hv).1 (List.mem_cons_of_mem _ hb')
      · refine ih (h.weaken fun v b c hv hc hw hnot _ _ => ?_) ?_
        · obtain rfl := hserver v hw hnot
          obtain rfl := hsame v b binding hv List.mem_cons_self
          cases hget.symm.trans hc
          exact Bool.eq_false_iff.mpr hbroken
        · exact fun v b b' hv hb' => hsame v b b' hv (List.mem_cons_of_mem _ hb')
    · rename_i hget
      refine ih (h.weaken fun v b c hv hc hw hnot _ _ => ?_) ?_
      · obtain rfl := hserver v hw hnot
        obtain rfl := hsame v b binding hv List.mem_cons_self
        cases hget.symm.trans hc
      · exact fun v b b' hv hb' => hsame v b b' hv (List.mem_cons_of_mem _ hb')

/-! ## The start -/

theorem startNext_phase (servers : List (String × Bool)) (phase : StartPhase) :
    ∀ s : McpIntegration,
      startNext { s with startPhase := phase } servers = startNext s servers := by
  induction servers with
  | nil => exact fun s => rfl
  | cons entry _ ih =>
    obtain ⟨server, enabled⟩ := entry
    intro s
    cases enabled with
    | false => exact ih (s.setState server .disabled)
    | true => rfl

theorem startNext_inv (servers : List (String × Bool)) : ∀ {s : McpIntegration}, s.Inv →
    s.started = false → s.closed = false →
    (∀ v ∈ servers.map Prod.fst, s.sessions.get? v = none ∧ ∀ g, (v, g) ∉ s.published) →
    (servers.map Prod.fst).Nodup → (s.startNext servers).Inv := by
  induction servers with
  | nil =>
    intro s h hst _ _ _
    unfold startNext
    refine reportBroken_inv _ ⟨h.generations, fun v b hv => ?_, fun t l ht hp => ?_, h.tasks,
      h.owner, h.pendings, fun _ => ⟨rfl, rfl⟩, fun _ hv => (nomatch hv), List.nodup_nil, h.lost,
      h.cleanup, fun _ => rfl⟩ fun v b b' hv hb' => ?_
    · obtain ⟨hgen, c, hget, hserver, hagrees, hclosed, _⟩ := h.session v b hv
      exact ⟨hgen, c, hget, hserver, hagrees, hclosed,
        fun hnot => absurd ⟨b, Dict.get?_eq_some_iff.mp hv⟩ hnot⟩
    · cases hst.symm.trans (h.loop t l ht hp).2.2.2
    · exact Option.some.inj ((Dict.get?_eq_some_iff.mpr hb').symm.trans hv)
  | cons entry _ ih =>
    obtain ⟨_, enabled⟩ := entry
    intro s h hst hc hnew hnodup
    have hrest := fun v hv => hnew v (List.mem_cons_of_mem _ hv)
    cases enabled with
    | false => exact ih (h.setState .disabled) hst hc hrest (List.nodup_cons.mp hnodup).2
    | true =>
      exact ⟨h.generations, h.session, h.loop, h.tasks, h.owner, h.pendings,
        fun hs => (nomatch hst.symm.trans hs), hnew, hnodup, h.lost, h.cleanup,
        fun hs => nomatch hc.symm.trans hs⟩

/-- A session of a new generation is published. -/
theorem InvBut.publish (h : InvBut waived s) (generation : ℕ)
    (results : Dict String ServerDiscovery)
    (hsession : s.sessions.get? server = none)
    (hloop : ∀ t l, s.loops.get? t = some l → l.phase ≠ .done → l.server ≠ server)
    (hgen : ∀ g, (server, g) ∈ s.published → g < generation)
    (hget : s.clients.get? id = some client) (hserver : client.discovery.serverId = server)
    (hsound : client.closed = false ∧ client.broken = false)
    (hcleanup : id ∉ s.cleanups)
    (hresults : ∀ v, v ≠ server → results.get? v = s.results.get? v)
    (hstarted : s.started = true → results = s.results)
    (hagrees : Agrees results server client.discovery)
    (hcoming : server ∉ StartPhase.coming s.configs s.startPhase) :
    InvBut waived {
      s with
      sessions := s.sessions.set server ⟨id, generation⟩
      states := s.states.set server .available
      published := s.published ++ [(server, generation)]
      results := results } := by
  have hmem (v : String) (g : ℕ) (hv : v ≠ server)
      (hg : (v, g) ∈ s.published ++ [(server, generation)]) : (v, g) ∈ s.published := by
    rcases mem_snoc hg with hg | hg
    · exact hg
    · exact absurd (Prod.mk.inj hg).1 hv
  refine ⟨?_, fun v b hv => ?_, fun t l ht hp => ?_, h.tasks, h.owner, h.pendings, fun hs => ?_,
    fun v hv => ?_, h.distinct, h.lost, fun i hi => ⟨(h.cleanup i hi).1, fun v b hv => ?_⟩,
    h.closing⟩
  · refine List.pairwise_append.mpr ⟨h.generations, List.pairwise_singleton _ _, ?_⟩
    intro a ha x hx heq
    cases List.mem_singleton.mp hx
    obtain ⟨v, g⟩ := a
    obtain rfl : v = server := heq
    exact hgen g ha
  · dsimp only at hv
    rcases Dict.get?_set_cases hv with ⟨heq, rfl⟩ | ⟨heq, hv⟩
    · subst heq
      refine ⟨fun g hg => ?_, client, hget, hserver, hagrees, fun _ => hsound.1,
        fun _ _ _ => hsound.2⟩
      rcases mem_snoc hg with hg | hg
      · exact (hgen g hg).le
      · exact (Prod.mk.inj hg).2.le
    · obtain ⟨hold, c, hc, hserver', ⟨frozen, hfrozen, hagree⟩, hrest⟩ := h.session v b hv
      exact ⟨fun g hg => hold g (hmem v g heq hg), c, hc, hserver',
        ⟨frozen, (hresults v heq).trans hfrozen, hagree⟩, hrest⟩
  · have hne := hloop t l ht hp
    obtain ⟨htask, hnone, hold, hs⟩ := h.loop t l ht hp
    refine ⟨htask, ?_, fun g hg => hold g (hmem _ g hne hg), hs⟩
    rwa [Dict.get?_set, if_neg hne]
  · exact ⟨(h.frozen hs).1.trans (hstarted hs).symm, (h.frozen hs).2⟩
  · have hne : v ≠ server := fun heq => hcoming (heq ▸ hv)
    obtain ⟨hnone, hnew⟩ := h.coming v hv
    refine ⟨?_, fun g hg => hnew g (hmem v g hne hg)⟩
    rwa [Dict.get?_set, if_neg hne]
  · dsimp only at hv
    rcases Dict.get?_set_cases hv with ⟨-, rfl⟩ | ⟨-, hv⟩
    · rintro rfl
      exact hcleanup hi
    · exact (h.cleanup i hi).2 v b hv

theorem InvBut.endStart (h : InvBut waived s) : InvBut waived { s with startPhase := .ended } :=
  ⟨h.generations, h.session, h.loop, h.tasks, h.owner, h.pendings,
    fun hs => ⟨(h.frozen hs).1, rfl⟩, fun _ hv => (nomatch hv), List.nodup_nil, h.lost, h.cleanup,
    fun _ => rfl⟩

variable {discovered : Option OwnedClient}

/-- A discovery of the start publishes its session, or leaves its server without one. -/
theorem startDiscovered_inv {rest : List (String × Bool)}
    (h : s.Inv) (hphase : s.startPhase = .discovering server rest)
    (hfresh : s.fresh id discovered server = true) :
    (s.startDiscovered server rest id discovered).Inv := by
  have hstarted : s.started = false := by
    by_contra hs
    have hended := (h.frozen (Bool.eq_true_of_not_eq_false hs)).2
    cases hphase.symm.trans hended
  have hclosed : s.closed = false := by
    by_contra hc
    have hrunning := h.closing (Bool.eq_true_of_not_eq_false hc)
    rw [hphase] at hrunning
    cases hrunning
  have hcoming := h.coming
  have hdistinct := h.distinct
  rw [hphase] at hcoming hdistinct
  obtain ⟨hnotin, hnodup⟩ := List.nodup_cons.mp hdistinct
  have hrest := fun v hv => hcoming v (List.mem_cons_of_mem _ hv)
  obtain ⟨hnew, hclient⟩ := Bool.and_eq_true_iff.mp hfresh
  have hnew : s.clients.get? id = none := Option.isNone_iff_eq_none.mp hnew
  cases discovered with
  | none => exact startNext_inv rest (h.setState .degraded) hstarted hclosed hrest hnodup
  | some client =>
    obtain ⟨hserver, hcl, hbr⟩ := of_decide_eq_true hclient
    have howned := (h.own hnew client).endStart
    have hself : (s.own id client).clients.get? id = some client := by
      unfold own
      rw [Dict.get?_set, if_pos rfl]
    have hcleanup : id ∉ s.cleanups := by
      intro hi
      have hsome := (h.cleanup id hi).1
      rw [hnew] at hsome
      cases hsome
    obtain ⟨hnone, hunpublished⟩ := hcoming server List.mem_cons_self
    have hpublish : (s.own id client).publishSession server id client 1 = some {
        s.own id client with
        sessions := s.sessions.set server ⟨id, 1⟩
        states := s.states.set server .available
        published := s.published ++ [(server, 1)] } := by
      unfold publishSession
      rw [if_neg]
      · rfl
      · rw [hcl, hbr]
        simpa [own] using hclosed
    unfold startDiscovered
    dsimp only
    rw [hpublish]
    dsimp only
    rw [← startNext_phase rest .ended]
    have hpub := howned.publish 1 (s.results.set server client.discovery) hnone
      (fun t l ht hp => nomatch hstarted.symm.trans (h.loop t l ht hp).2.2.2)
      (fun g hg => absurd hg (hunpublished g)) hself hserver ⟨hcl, hbr⟩ hcleanup
      (fun v hv => by rw [Dict.get?_set, if_neg hv]; rfl)
      (fun hs => nomatch hstarted.symm.trans hs)
      ⟨client.discovery, by rw [Dict.get?_set, if_pos rfl], .inl rfl⟩ List.not_mem_nil
    refine startNext_inv rest hpub hstarted hclosed (fun v hv => ?_) hnodup
    obtain ⟨hnone', hun'⟩ := hrest v hv
    have hne : v ≠ server := fun heq => hnotin (heq ▸ hv)
    refine ⟨?_, fun g hg => ?_⟩
    · dsimp only
      rwa [Dict.get?_set, if_neg hne]
    · rcases mem_snoc hg with hg | hg
      · exact hun' g hg
      · exact hne (Prod.mk.inj hg).1

/-! ## Loops -/

theorem InvBut.nextAttempt (h : InvBut waived s) (hl : s.loops.get? task = some loop)
    (hactive : loop.phase ≠ .done) (attempt : ℕ) :
    InvBut waived (s.nextAttempt task loop attempt) := by
  unfold McpIntegration.nextAttempt
  split_ifs
  · exact InvBut.endLoop (s := s.setState loop.server .degraded) (h.setState .degraded) hl hactive
  · exact h.endLoop hl hactive
  · exact InvBut.setLoop (s := s.setState loop.server .reconnecting) (h.setState .reconnecting) hl
      hactive _

theorem endLoop_eq (htask : s.reconnectTasks.get? loop.server = some task)
    (hpending : s.pendingReconnects.get? loop.server = none) :
    s.endLoop task loop = {
      s with
      loops := s.loops.set task { loop with phase := .done }
      reconnectTasks := s.reconnectTasks.erase loop.server
      pendingReconnects := s.pendingReconnects.erase loop.server } := by
  unfold endLoop
  rw [if_pos htask, hpending]
  rfl

theorem loopDiscovered_inv {attempt : ℕ} {frozen : ServerDiscovery}
(h : s.Inv) (hl : s.loops.get? task = some loop)
    (hactive : loop.phase ≠ .done) (hfrozen : s.frozenResults.get? loop.server = some frozen)
    (hfresh : s.fresh id discovered loop.server = true) :
    (s.loopDiscovered task loop attempt id frozen discovered).Inv := by
  obtain ⟨hnew, hclient⟩ := Bool.and_eq_true_iff.mp hfresh
  have hnew : s.clients.get? id = none := Option.isNone_iff_eq_none.mp hnew
  obtain ⟨htask, hsession, hpast, hstarted⟩ := h.loop task loop hl hactive
  cases discovered with
  | none =>
    exact InvBut.nextAttempt (s := s.setState loop.server .degraded) (h.setState .degraded) hl
      hactive _
  | some client =>
    obtain ⟨hserver, hcl, hbr⟩ := of_decide_eq_true hclient
    have howned := h.own hnew client
    have hself : (s.own id client).clients.get? id = some client := by
      unfold own
      rw [Dict.get?_set, if_pos rfl]
    have hclose : InvBut (fun _ => False) ((s.own id client).closeClient id client) :=
      howned.closeClient hself fun _ => h.unbound_new hnew
    unfold loopDiscovered
    dsimp only
    cases hcompatible : isCompatible frozen client.discovery with
    | none =>
      exact InvBut.endLoop (s := (s.own id client).setState loop.server .degraded)
        (howned.setState .degraded) hl hactive
    | some compatible =>
      cases compatible with
      | false => exact hclose.setLoop hl hactive _
      | true =>
        by_cases hclosed : s.closed = true
        · have hnone : ∀ g, (s.own id client).publishSession loop.server id client g = none :=
            fun g => if_pos (.inl hclosed)
          rw [hnone]
          exact hclose.setLoop hl hactive _
        · have hsome : ∀ g, (s.own id client).publishSession loop.server id client g = some {
              s.own id client with
              sessions := s.sessions.set loop.server ⟨id, g⟩
              states := s.states.set loop.server .available
              published := s.published ++ [(loop.server, g)] } := by
            intro g
            unfold publishSession
            rw [if_neg]
            · rfl
            · rw [hcl, hbr]
              simpa [own] using hclosed
          rw [hsome, hsession]
          -- the loop ends in the step that publishes
          have hend := howned.endLoop hl hactive
          rw [endLoop_eq (s := s.own id client) htask (h.pendings _)] at hend
          refine Eq.mpr (congrArg Inv (endLoop_eq ?_ ?_)) ?_
          · exact htask
          · exact h.pendings _
          have hcleanup : id ∉ s.cleanups := by
            intro hi
            have hsome := (h.cleanup id hi).1
            rw [hnew] at hsome
            cases hsome
          obtain ⟨hresults, hended⟩ := h.frozen hstarted
          refine hend.publish _ s.results hsession (fun t l ht hp heq => ?_)
            (fun g hg => ?_) hself hserver ⟨hcl, hbr⟩ hcleanup (fun _ _ => rfl) (fun _ => rfl)
            ⟨frozen, hresults ▸ hfrozen, .inr hcompatible⟩ ?_
          · dsimp only at ht
            rcases Dict.get?_set_cases ht with ⟨-, rfl⟩ | ⟨htt, ht⟩
            · exact hp rfl
            · have htask' := (h.loop t l ht hp).1
              rw [heq, htask] at htask'
              exact htt (Option.some.inj htask').symm
          · have := hpast g hg
            omega
          · change loop.server ∉ StartPhase.coming s.configs s.startPhase
            rw [hended]
            exact List.not_mem_nil

end Losses

section Steps

variable {s s' : McpIntegration} {server : String} {id task : ℕ} {loop : ReconnectLoop}
  {client : OwnedClient}

theorem withLoop_eq {f : ReconnectLoop → Option McpIntegration} (hs : s.withLoop task f = some s') :
    ∃ loop, s.loops.get? task = some loop ∧ loop.phase ≠ .done ∧ f loop = some s' := by
  obtain ⟨loop, hl, hs⟩ := Option.bind_eq_some_iff.mp hs
  split_ifs at hs with hdone
  exact ⟨loop, hl, hdone, hs⟩

/-- The loss of a bound session is reported in the step that breaks its client. -/
theorem clientBreaks_inv (h : s.Inv) (hget : s.clients.get? id = some client) :
    Inv (if client.closed then
        { s with clients := s.clients.set id { client with broken := true } }
      else onClientBroken { s with clients := s.clients.set id { client with broken := true } }
        client.discovery.serverId id) := by
  split_ifs with hclosed
  · refine h.setClient _ s.ownedClients fun old hold => ?_
    cases hget.symm.trans hold
    refine ⟨rfl, ?_⟩
    by_cases hc : s.closed = false
    · -- a client whose close has begun has no session
      refine .inl fun v b hv hid => ?_
      obtain ⟨_, c, hget', _, _, hsound, _⟩ := h.session v b hv
      rw [hid, hget] at hget'
      cases hget'
      exact Bool.false_ne_true ((hsound hc).symm.trans hclosed)
    · exact .inr ⟨fun hc' => absurd hc' hc, fun _ hc' => absurd hc' hc⟩
  · have hcomm : onClientBroken { s with
        clients := s.clients.set id { client with broken := true } }
          client.discovery.serverId id =
        { s.onClientBroken client.discovery.serverId id with
          clients := s.clients.set id { client with broken := true } } := by
      unfold onClientBroken
      dsimp only
      split_ifs
      · rfl
      · split
        · split_ifs
          · unfold scheduleReconnect activeLoop
            dsimp only
            split_ifs
            · rfl
            · split <;> rfl
          · rfl
        · rfl
    rw [hcomm]
    have hbroken : Inv (s.onClientBroken client.discovery.serverId id) := h.onClientBroken
    obtain ⟨hclients, hstarted, hsame⟩ : (s.onClientBroken client.discovery.serverId id).clients =
        s.clients ∧ (s.onClientBroken client.discovery.serverId id).started = s.started ∧
        (s.onClientBroken client.discovery.serverId id).closed = s.closed := onClientBroken_same
    have hset : Inv { s.onClientBroken client.discovery.serverId id with
        clients := (s.onClientBroken client.discovery.serverId id).clients.set id
          { client with broken := true } } := by
      refine hbroken.setClient _ _ fun old hold => ?_
      rw [hclients, hget] at hold
      cases hold
      refine ⟨rfl, ?_⟩
      by_cases hrun : s.started = true ∧ s.closed = false
      · refine .inl fun v b hv hid => ?_
        obtain ⟨hold, hne⟩ := session_onClientBroken hv
        obtain ⟨_, c, hget', hserver, _⟩ := h.session v b hold
        rw [hid, hget] at hget'
        cases hget'
        exact hne hrun.1 hrun.2 hserver.symm hid
      · refine .inr ⟨fun _ => rfl, fun hst hc => absurd ⟨?_, ?_⟩ hrun⟩
        · exact hstarted.symm.trans hst
        · exact hsame.symm.trans hc
    rwa [hclients] at hset

/-- No start is at an await when `close` begins, and it begins once; when the cancelled tasks have
ended, every client whose close has begun before has exited. -/
def Meets (s : McpIntegration) : Action → Bool
  | .close => !s.closed && !StartPhase.running s.startPhase
  | .gathered _ => s.ownedClients.all fun id =>
    (s.clients.get? id).all fun client => !client.closed || client.exited
  | _ => true

theorem InvBut.gathered (h : s.Inv) (hdone : ∀ t l, s.loops.get? t = some l → l.phase = .done)
    (states : Dict String McpSessionLifecycleState) :
    Inv { s with
      reconnectTasks := .empty
      pendingReconnects := .empty
      sessions := .empty
      states := states } :=
  ⟨h.generations, fun _ _ hv => (nomatch hv), fun t l ht hp => absurd (hdone t l ht) hp, h.tasks,
    fun _ _ hv => (nomatch hv), fun _ => rfl, h.frozen, fun v hv => ⟨rfl, (h.coming v hv).2⟩,
    h.distinct, h.lost, fun i hi => ⟨(h.cleanup i hi).1, fun _ _ hv => nomatch hv⟩, h.closing⟩

theorem reapNext_inv (ids : List ℕ) : ∀ {s : McpIntegration} {allClosed : Bool}, s.Inv →
    s.closed = true → (reapNext s allClosed ids).Inv := by
  induction ids with
  | nil =>
    exact fun h _ => ⟨h.generations, h.session, h.loop, h.tasks, h.owner, h.pendings, h.frozen,
      h.coming, h.distinct, h.lost, h.cleanup, h.closing⟩
  | cons _ _ ih =>
    intro s _ h hc
    unfold reapNext
    split
    · rename_i client hget
      split_ifs
      · exact ih h hc
      · have hclose := h.closeClient hget fun hf => nomatch hc.symm.trans hf
        exact ⟨hclose.generations, hclose.session, hclose.loop, hclose.tasks, hclose.owner,
          hclose.pendings, hclose.frozen, hclose.coming, hclose.distinct, hclose.lost,
          hclose.cleanup, hclose.closing⟩
    · exact ih h hc

/-- `close` is where it is only in a component that is closed. -/
def ClosePhase.begun : ClosePhase → Bool
  | .notClosing => false
  | _ => true

theorem start_inv (h : s.Inv) (hphase : s.startPhase = .notStarted) (hclosed : s.closed = false) :
    (s.startNext s.configs).Inv := by
  have hcoming := h.coming
  have hdistinct := h.distinct
  rw [hphase] at hcoming hdistinct
  refine startNext_inv _ h ?_ hclosed hcoming hdistinct
  by_contra hst
  cases hphase.symm.trans (h.frozen (Bool.eq_true_of_not_eq_false hst)).2

/-- A server whose candidate is closed is degraded, and the start goes on. -/
theorem startClosed_inv {rest : List (String × Bool)} (h : s.Inv)
    (hphase : s.startPhase = .closingCandidate server rest) :
    ((s.setState server .degraded).startNext rest).Inv := by
  have hcoming := h.coming
  have hdistinct := h.distinct
  rw [hphase] at hcoming hdistinct
  refine startNext_inv rest (h.setState .degraded) ?_ ?_ hcoming hdistinct
  · by_contra hst
    have hended : s.startPhase = .ended := (h.frozen (Bool.eq_true_of_not_eq_false hst)).2
    cases hphase.symm.trans hended
  · by_contra hc
    have hrunning := h.closing (Bool.eq_true_of_not_eq_false hc)
    rw [hphase] at hrunning
    cases hrunning

/-- A component that is being closed promises no sessions. -/
theorem close_inv (h : s.Inv) (hidle : StartPhase.running s.startPhase = false) :
    Inv { s with closed := true, closePhase := .gathering } := by
  refine ⟨h.generations, fun v b hv => ?_, h.loop, h.tasks, h.owner, h.pendings, h.frozen,
    h.coming, h.distinct, h.lost, h.cleanup, fun _ => hidle⟩
  obtain ⟨hgen, c, hget, hserver, hagrees, _⟩ := h.session v b hv
  exact ⟨hgen, c, hget, hserver, hagrees, fun hc => (by cases hc), fun _ _ hc => by cases hc⟩

theorem closePhase_inv (h : s.Inv) (phase : ClosePhase) : Inv { s with closePhase := phase } :=
  ⟨h.generations, h.session, h.loop, h.tasks, h.owner, h.pendings, h.frozen, h.coming, h.distinct,
    h.lost, h.cleanup, h.closing⟩

/-- Every step keeps the invariant of the component. -/
theorem inv_step {a : Action} (hm : s.Meets a = true) (hs : s.step a = some s') (h : s.Inv)
    (hbegun : ClosePhase.begun s.closePhase = s.closed) : s'.Inv := by
  cases a with
  | start =>
    unfold step at hs
    dsimp only at hs
    split_ifs at hs with hstart
    cases hs
    exact start_inv h hstart.1 hstart.2
  | startDiscovered =>
    unfold step at hs
    dsimp only at hs
    split at hs
    · rename_i server rest hphase
      split_ifs at hs with hfresh
      cases hs
      exact startDiscovered_inv h hphase hfresh
    · cases hs
  | startClosed =>
    unfold step at hs
    dsimp only at hs
    split at hs
    · rename_i server rest hphase
      cases hs
      exact startClosed_inv h hphase
    · cases hs
  | startFails =>
    unfold step at hs
    dsimp only at hs
    split at hs
    · cases hs
      exact h.endStart
    · cases hs
      exact h.endStart
    · cases hs
  | loopBegins =>
    obtain ⟨loop, hl, hactive, hs⟩ := withLoop_eq hs
    split at hs
    · cases hs
      exact h.nextAttempt hl hactive _
    · cases hs
      exact h.setLoop hl hactive _
    · cases hs
  | slept =>
    obtain ⟨loop, hl, hactive, hs⟩ := withLoop_eq hs
    split at hs
    · cases hs
      split_ifs
      · exact h.endLoop hl hactive
      · exact h.setLoop hl hactive _
    · cases hs
  | loopDiscovered =>
    obtain ⟨loop, hl, hactive, hs⟩ := withLoop_eq hs
    split at hs
    · rename_i attempt frozen _ hfrozen
      split_ifs at hs with hfresh
      cases hs
      exact loopDiscovered_inv h hl hactive hfrozen hfresh
    · cases hs
  | loopClosed =>
    obtain ⟨loop, hl, hactive, hs⟩ := withLoop_eq hs
    split at hs
    · cases hs
      exact InvBut.endLoop (s := s.setState loop.server .degraded) (h.setState .degraded) hl hactive
    · cases hs
      exact InvBut.nextAttempt (s := s.setState loop.server .degraded) (h.setState .degraded) hl
        hactive _
    · cases hs
  | loopRaises =>
    obtain ⟨loop, hl, hactive, hs⟩ := withLoop_eq hs
    cases hs
    exact InvBut.endLoop (s := s.setState loop.server .degraded) (h.setState .degraded) hl hactive
  | loopCancelled =>
    obtain ⟨_, hl, hactive, hs⟩ := withLoop_eq hs
    split_ifs at hs
    cases hs
    exact h.endLoop hl hactive
  | cleanupBegins id =>
    unfold step at hs
    dsimp only at hs
    split_ifs at hs with hid
    obtain ⟨client, hget, hs⟩ := Option.bind_eq_some_iff.mp hs
    cases hs
    exact h.closeClient hget fun _ => (h.cleanup id hid).2
  | cleanupEnds =>
    unfold step at hs
    dsimp only at hs
    split_ifs at hs
    cases hs
    exact ⟨h.generations, h.session, h.loop, h.tasks, h.owner, h.pendings, h.frozen, h.coming,
      h.distinct, h.lost, fun i hi => h.cleanup i (List.mem_filter.mp hi).1, h.closing⟩
  | clientBreaks =>
    obtain ⟨client, hget, hs⟩ := Option.bind_eq_some_iff.mp hs
    split at hs
    · cases hs
    · cases hs
      exact clientBreaks_inv h hget
  | clientExits =>
    obtain ⟨client, hget, hs⟩ := Option.bind_eq_some_iff.mp hs
    cases hs
    refine h.setClient _ s.ownedClients fun old hold => ?_
    cases hget.symm.trans hold
    exact ⟨rfl, .inr ⟨fun _ => rfl, fun _ _ => rfl⟩⟩
  | close =>
    cases hs
    obtain ⟨hopen, hidle⟩ := Bool.and_eq_true_iff.mp hm
    rw [if_neg (by simpa using hopen)]
    exact close_inv h (by simpa using hidle)
  | gathered =>
    unfold step at hs
    dsimp only at hs
    split_ifs at hs with hready
    cases hs
    obtain ⟨hphase, _, hdone, _⟩ := hready
    have hclosed : s.closed = true := by rw [← hbegun, hphase]; rfl
    refine reapNext_inv _ (h.gathered (fun t l ht => ?_) _) hclosed
    exact of_decide_eq_true (List.all_eq_true.mp hdone l (Dict.mem_values_iff.mpr ⟨t, ht⟩))
  | reaped =>
    unfold step at hs
    dsimp only at hs
    split at hs
    · rename_i id rest allClosed hphase
      obtain ⟨_, _, hs⟩ := Option.bind_eq_some_iff.mp hs
      split_ifs at hs
      cases hs
      have hclosed : s.closed = true := by rw [← hbegun, hphase]; rfl
      exact reapNext_inv _ h hclosed
    · cases hs
  | closeCancelled =>
    unfold step at hs
    dsimp only at hs
    split at hs
    · cases hs
      exact closePhase_inv h .ended
    · cases hs
      exact closePhase_inv h .ended
    · cases hs

end Steps

end McpIntegration

end LocalAgent.Runtime
