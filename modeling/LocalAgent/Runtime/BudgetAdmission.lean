import LocalAgent.Runtime.BudgetRuns

/-!
# LocalAgent.Runtime.BudgetAdmission — calls that raise, and the advice of `BudgetPolicy`

* `raising_keeps_ledger`: a call that raises changes nothing, unless it is a `release` that presents
  another reservation than the stored one.
* `settled_once`: a reservation is settled at most once.
* `feasible_iff_reserve`: when `feasible` on a snapshot agrees with `reserve`.
-/

namespace LocalAgent.Runtime

namespace BudgetLedger

section Raising

variable {l l' : BudgetLedger}

/-! ## A call that raises -/

/-- A ledger that has just been built, or restored: nothing is reserved in it. -/
def Opened (l : BudgetLedger) : Prop :=
  l.reservations = Dict.empty ∧ l.delegatedReservations = Dict.empty

structure SameParts (l l' : BudgetLedger) : Prop where
  committed : l'.committed = l.committed
  reservations : ∀ uuid, l'.reservations.get? uuid = l.reservations.get? uuid
  envelopes : l'.envelopes = l.envelopes
  delegated : l'.delegatedReservations = l.delegatedReservations

theorem SameParts.refl (l : BudgetLedger) : SameParts l l := ⟨rfl, fun _ => rfl, rfl, rfl⟩

/-- A release that presents another reservation than the one stored under its id. -/
def ReleasesOther (l : BudgetLedger) : Call → Prop
  | .release r _ => ∃ stored, l.reservations.get? r.reservationId = some stored ∧ stored ≠ r
  | _ => False

theorem Opened.covered (h : l.Opened) : l.Covered := by
  intro _ _ hd
  rw [h.2] at hd
  cases hd

variable {e : BudgetError}

/-- A release that raises has popped what is stored under the id. -/
theorem release_error (hc : l.Covered) {r : BudgetReservation} {reading : BudgetReading}
(h : Op.error? (Call.op (.release r reading)) l = some e) :
    l.reservations.get? r.reservationId ≠ some r ∧
      Op.after (Call.op (.release r reading)) l =
        { l with reservations := l.reservations.erase r.reservationId } := by
  have hrun : Call.op (.release r reading) l = discard (release r reading) l := rfl
  rw [Op.discard_apply] at hrun
  unfold release at hrun
  rw [Op.get_bind_apply, Op.set_bind_apply] at hrun
  by_cases hstored : l.reservations.get? r.reservationId = some r
  · -- a release of what is stored returns
    exfalso
    simp only [raiseIf, hstored, ne_eq, not_true, if_false, Op.lift_ok, Op.pure_bind_apply] at hrun
    cases hd : l.delegatedReservations.get? r.reservationId with
    | none =>
      rw [hd] at hrun
      unfold Op.error? at h
      rw [hrun] at h
      cases h
    | some =>
      obtain ⟨_, he⟩ := Dict.mem_keys_iff.mp (hc _ _ hd)
      rw [hd] at hrun
      simp only [Op.set_bind_apply, he] at hrun
      unfold Op.error? at h
      rw [hrun] at h
      cases h
  · refine ⟨hstored, ?_⟩
    simp only [raiseIf, ne_eq, hstored, not_false_eq_true, if_true, Op.lift_error,
      Op.raise_bind] at hrun
    exact Op.after_error hrun

/-- An exception leaves the ledger as it was, unless a release has popped another reservation. -/
theorem call_error {call : Call} (hc : l.Covered)
    (h : Op.error? call.op l = some e) (hne : e ≠ delegationBudgetExceeded) :
    SameParts l (Op.after call.op l) ↔ ¬l.ReleasesOther call := by
  by_cases hrelease : ∃ r reading, call = .release r reading
  · obtain ⟨r, reading, rfl⟩ := hrelease
    obtain ⟨hother, hafter⟩ := release_error hc h
    rw [hafter]
    constructor
    · rintro hsame ⟨stored, hstored, -⟩
      have hpopped := hsame.reservations r.reservationId
      rw [Dict.get?_erase, if_pos rfl, hstored] at hpopped
      cases hpopped
    · intro hnot
      refine ⟨rfl, fun uuid => ?_, rfl, rfl⟩
      rw [Dict.get?_erase]
      split_ifs with huuid
      · subst huuid
        -- nothing was stored under the id
        cases hstored : l.reservations.get? r.reservationId with
        | none => rfl
        | some stored =>
          refine absurd ⟨stored, hstored, fun heq => hother ?_⟩ hnot
          rw [hstored, heq]
      · rfl
  · have hnot : ¬l.ReleasesOther call := by
      intro hr
      cases call with
      | release r reading => exact hrelease ⟨r, reading, rfl⟩
      | _ => exact hr
    refine iff_of_true ?_ hnot
    have heffect := effect_of_call hc call
    rw [h] at heffect
    generalize hafter : Op.after call.op l = l' at heffect ⊢
    generalize he : some e = e? at heffect
    cases heffect with
    | rejected | commitUnknown => exact SameParts.refl l
    | lost => exact absurd ⟨_, _, rfl⟩ hrelease
    | @commitRestored r _ _ _ _ hstored =>
      refine ⟨rfl, fun uuid => ?_, rfl, rfl⟩
      rw [Dict.get?_set, Dict.get?_erase]
      split_ifs with huuid
      · rw [huuid, hstored]
      · rfl
    | committedDelegated =>
      split_ifs at he
      exact absurd (Option.some.inj he) hne
    | known | allocated | delegationReleased | reserved | reservedDelegated | committed | released
    | releasedDelegated => cases he

/-- **A call that raises leaves the ledger as it was**, in every state reached, exactly when it is
no release of another reservation than the one stored. -/
theorem raising_keeps_ledger {start : BudgetLedger} (hopened : start.Opened) (calls : List Call)
    {call : Call} {e : BudgetError} (h : Op.error? call.op (run start calls) = some e)
    (hne : e ≠ delegationBudgetExceeded) :
    SameParts (run start calls) (Op.after call.op (run start calls)) ↔
      ¬(run start calls).ReleasesOther call :=
  call_error (run_covered calls hopened.covered) h hne

/-- A reservation of two tool calls is committed with six where five are allowed, and stays. -/
theorem raising_keeps_ledger_sample :
    ∃ e, Op.error? (Call.op (.commit ⟨"u1", "tool", none, toolCalls 2, .epochSecond 1⟩
        (some (toolCalls 6)) startReading))
        (run (new fiveToolCalls) [.reserve (toolCalls 2) "tool" none none "u1" (.epochSecond 1)
          startReading]) = some e ∧
      (SameParts (run (new fiveToolCalls) [.reserve (toolCalls 2) "tool" none none "u1"
          (.epochSecond 1) startReading])
        (Op.after (Call.op (.commit ⟨"u1", "tool", none, toolCalls 2, .epochSecond 1⟩
          (some (toolCalls 6)) startReading))
          (run (new fiveToolCalls) [.reserve (toolCalls 2) "tool" none none "u1" (.epochSecond 1)
            startReading])) ↔
        ¬(run (new fiveToolCalls) [.reserve (toolCalls 2) "tool" none none "u1" (.epochSecond 1)
          startReading]).ReleasesOther
            (.commit ⟨"u1", "tool", none, toolCalls 2, .epochSecond 1⟩ (some (toolCalls 6))
              startReading)) := by
  have hraises : (Op.error? (Call.op (.commit ⟨"u1", "tool", none, toolCalls 2, .epochSecond 1⟩
      (some (toolCalls 6)) startReading))
      (run (new fiveToolCalls) [.reserve (toolCalls 2) "tool" none none "u1" (.epochSecond 1)
        startReading])).any (· ≠ delegationBudgetExceeded) = true := by decide +kernel
  obtain ⟨e, he, hne⟩ := (Option.any_eq_true _ _).mp hraises
  exact ⟨e, he, raising_keeps_ledger ⟨rfl, rfl⟩ _ he (of_decide_eq_true hne)⟩

/-- A release of a copy with another amount raises, and the reservation is gone. -/
theorem raising_loses_reservation :
    ¬∀ (start : BudgetLedger) (calls : List Call) (call : Call) (e : BudgetError), start.Opened →
      Op.error? call.op (run start calls) = some e → e ≠ delegationBudgetExceeded →
      SameParts (run start calls) (Op.after call.op (run start calls)) := by
  intro h
  have hraises : Op.error? (Call.op (.release ⟨"u1", "tool", none, toolCalls 1, .epochSecond 1⟩
      startReading)) (run (new fiveToolCalls) [.reserve (toolCalls 2) "tool" none none "u1"
        (.epochSecond 1) startReading]) = some reservationUnknown := by decide +kernel
  have hsame := h (new fiveToolCalls) _ _ _ ⟨rfl, rfl⟩ hraises (by decide)
  have hgone : ((Op.after (Call.op (.release ⟨"u1", "tool", none, toolCalls 1, .epochSecond 1⟩
      startReading)) (run (new fiveToolCalls) [.reserve (toolCalls 2) "tool" none none "u1"
        (.epochSecond 1) startReading])).reservations.get? "u1").isSome =
      ((run (new fiveToolCalls) [.reserve (toolCalls 2) "tool" none none "u1" (.epochSecond 1)
        startReading]).reservations.get? "u1").isSome := by rw [hsame.reservations "u1"]
  exact absurd hgone (by decide +kernel)

end Raising

section Advice

variable {l : BudgetLedger} {usage available : BudgetUsage} {reading : BudgetReading}

/-! ## The advice and the reservation -/

def TimeUp (l : BudgetLedger) (reading : BudgetReading) : Prop :=
  ∃ t ∈ l.remainingTime reading, t ≤ 0

/-- A dimension that is asked for nothing has gone beyond its limit. -/
def Overdrawn (l : BudgetLedger) (usage : BudgetUsage) : Prop :=
  ∃ d limit, l.budget.limit d = some limit ∧ usage.amount d = 0 ∧
    limit < l.committed.amount d + l.reserved.amount d

/-- What the envelope would keep is a usage again, and has enough in the dimensions without a
limit. -/
def Divides (l : BudgetLedger) (available usage : BudgetUsage) : Prop :=
  (∀ d, l.budget.limit d = none → usage.amount d ≤ available.amount d) ∧
    ((available.allowIndependentTotal || usage.allowIndependentTotal) = false →
      (available.amount .inputTokens - usage.amount .inputTokens) +
        (available.amount .outputTokens - usage.amount .outputTokens) ≤
        available.amount .totalTokens - usage.amount .totalTokens)

/-- Where the advice on a usage and its reservation agree. -/
def Agrees (l : BudgetLedger) (usage : BudgetUsage) (reading : BudgetReading) :
    Option String → Prop
  | none => l.TimeUp reading ∨
    (∃ d limit, l.budget.limit d = some limit ∧ 0 < usage.amount d ∧
      limit < l.committed.amount d + l.reserved.amount d + usage.amount d) ∨
    ¬l.Overdrawn usage
  | some id => ∀ available, l.envelopes.get? id = some available → l.TimeUp reading ∨
    (∃ d, l.budget.limit d ≠ none ∧ available.amount d < usage.amount d) ∨
    l.Divides available usage

/-- When a remainder can be taken from what is available. -/
theorem minus_eq_ok : (∃ left, available.minus usage = .ok left) ↔
    (∀ d, usage.amount d ≤ available.amount d) ∧
      ((available.allowIndependentTotal || usage.allowIndependentTotal) = false →
        (available.amount .inputTokens - usage.amount .inputTokens) +
          (available.amount .outputTokens - usage.amount .outputTokens) ≤
          available.amount .totalTokens - usage.amount .totalTokens) := by
  unfold BudgetUsage.minus BudgetUsage.make
  constructor
  · rintro ⟨_, h⟩
    split_ifs at h with hnonneg htotal
    · exact ⟨fun d => sub_nonneg.mp (hnonneg d), htotal⟩
    · split at h <;> cases h
  · rintro ⟨hle, htotal⟩
    rw [dif_pos fun d => sub_nonneg.mpr (hle d), dif_pos htotal]
    exact ⟨_, rfl⟩

variable {snap : BudgetSnapshot} {id : String}

theorem guardEnvelope_eq_ok :
    guardEnvelope available usage snap = .ok () ↔ ∀ d, usage.amount d ≤ available.amount d := by
  simp only [guardEnvelope, except_forM_eq_ok, raiseIf_ok, not_lt]
  exact ⟨fun h d => h d (Dimension.mem_all d), fun h d _ => h d⟩

section Reserve

variable {type uuid : String} {stepId : Option String} {createdAt : DateTime}

/-- When `reserve` accepts a call of the root. -/
theorem reserve_without_delegation :
    Op.error? (reserve usage type stepId none uuid createdAt reading) l = none ↔
    ¬l.TimeUp reading ∧ l.Fits usage := by
  unfold reserve Op.error?
  rw [Op.get_bind_apply]
  by_cases htime : ∃ t ∈ (l.snapshotLocked reading).remainingTimeSeconds, t ≤ 0
  · simp only [guardTime, raiseIf, if_pos htime, Op.lift_error, Op.raise_bind]
    exact iff_of_false (by simp) fun h => h.1 htime
  · simp only [guardTime, raiseIf, if_neg htime, Op.lift_ok, Op.pure_bind_apply]
    cases hg : l.guardLimits usage (l.snapshotLocked reading) with
    | error =>
      refine iff_of_false (by simp) fun h => ?_
      rw [guardLimits_eq_ok.mpr h.2] at hg
      cases hg
    | ok => exact iff_of_true rfl ⟨htime, guardLimits_eq_ok.mp hg⟩

/-- When `reserve` accepts a call of a live delegation. -/
theorem reserve_delegated (hlive : l.envelopes.get? id = some available) :
    Op.error? (reserve usage type stepId (some id) uuid createdAt reading) l = none ↔
      ¬l.TimeUp reading ∧ ∃ left, available.minus usage = .ok left := by
  unfold reserve Op.error?
  rw [Op.get_bind_apply]
  by_cases htime : ∃ t ∈ (l.snapshotLocked reading).remainingTimeSeconds, t ≤ 0
  · simp only [guardTime, raiseIf, if_pos htime, Op.lift_error, Op.raise_bind]
    exact iff_of_false (by simp) fun h => h.1 htime
  · simp only [guardTime, raiseIf, if_neg htime, Op.lift_ok, Op.pure_bind_apply, reserveDelegated,
      Op.get_bind_apply, hlive]
    cases hg : guardEnvelope available usage (l.snapshotLocked reading) with
    | error =>
      refine iff_of_false (by simp) fun h => ?_
      rw [guardEnvelope_eq_ok.mpr (minus_eq_ok.mp h.2).1] at hg
      cases hg
    | ok =>
      cases hm : available.minus usage with
      | error =>
        refine iff_of_false (by simp) ?_
        rintro ⟨_, left, ⟨⟩⟩
      | ok left => exact iff_of_true rfl ⟨htime, left, rfl⟩

end Reserve

/-- What `feasible` compares. -/
theorem feasible_eq_true : BudgetPolicy.feasible snap usage = true ↔
    ¬(∃ t ∈ snap.remainingTimeSeconds, t ≤ 0) ∧
      ∀ d, snap.runBudget.limit d ≠ none → usage.amount d ≤ snap.remaining.amount d := by
  unfold BudgetPolicy.feasible
  split_ifs with htime
  · exact iff_of_false nofun fun h => h.1 htime
  · simp only [List.all_eq_true, Bool.or_eq_true, decide_eq_true_eq]
    constructor
    · exact fun h => ⟨htime, fun d hd => (h d (Dimension.mem_all d)).resolve_left hd⟩
    · exact fun h d _ => or_iff_not_imp_left.mpr (h.2 d)

/-- The root advice differs from the reservation where a dimension has gone beyond its limit. -/
theorem root_agrees : ((¬l.TimeUp reading ∧
      ∀ d, l.budget.limit d ≠ none → usage.amount d ≤ l.remainingAmount d) ↔
      ¬l.TimeUp reading ∧ l.Fits usage) ↔ l.Agrees usage reading none := by
  have hremaining {d : Dimension} {limit : ℤ} (hd : l.budget.limit d = some limit) :
      l.remainingAmount d = max 0 (limit - l.committed.amount d - l.reserved.amount d) := by
    unfold remainingAmount
    rw [hd]
  constructor
  · intro h
    by_contra hnot
    obtain ⟨htime, hnot⟩ := not_or.mp hnot
    obtain ⟨hfits, hover⟩ := not_or.mp hnot
    obtain ⟨d, limit, hd, hzero, hlt⟩ := not_not.mp hover
    have hadvice : ∀ d, l.budget.limit d ≠ none → usage.amount d ≤ l.remainingAmount d := by
      intro d hd
      obtain ⟨limit, hlimit⟩ := Option.ne_none_iff_exists'.mp hd
      rw [hremaining hlimit]
      have hnonneg := usage.nonneg d
      by_cases hpos : 0 < usage.amount d
      · have hle : ¬limit < l.committed.amount d + l.reserved.amount d + usage.amount d :=
          fun hlt => hfits ⟨d, limit, hlimit, hpos, hlt⟩
        omega
      · omega
    have hle := (h.mp ⟨htime, hadvice⟩).2 d limit hd
    omega
  · intro h
    refine and_congr_right fun htime => ⟨fun hadvice d limit hd => ?_, fun hfits d hd => ?_⟩
    · have hle := hadvice d (by rw [hd]; nofun)
      rw [hremaining hd] at hle
      rcases h.resolve_left htime with ⟨d', limit', hd', hpos, hlt⟩ | hover
      · have hle' := hadvice d' (by rw [hd']; nofun)
        rw [hremaining hd'] at hle'
        omega
      · by_contra hlt
        have hnonneg := usage.nonneg d
        exact hover ⟨d, limit, hd, by omega, by omega⟩
    · obtain ⟨limit, hlimit⟩ := Option.ne_none_iff_exists'.mp hd
      rw [hremaining hlimit]
      have hle := hfits d limit hlimit
      omega

/-- The check of the snapshot and the check of the ledger agree for a delegation. -/
theorem delegation_agrees (hlive : l.envelopes.get? id = some available) :
    ((¬l.TimeUp reading ∧ ∀ d, l.budget.limit d ≠ none → usage.amount d ≤ available.amount d) ↔
      ¬l.TimeUp reading ∧ ∃ left, available.minus usage = .ok left) ↔
      l.Agrees usage reading (some id) := by
  rw [minus_eq_ok]
  constructor
  · intro h _ hother
    cases hlive.symm.trans hother
    by_contra hnot
    obtain ⟨htime, hnot⟩ := not_or.mp hnot
    obtain ⟨hfits, hdivides⟩ := not_or.mp hnot
    have hadvice : ∀ d, l.budget.limit d ≠ none → usage.amount d ≤ available.amount d :=
      fun d hd => not_lt.mp fun hlt => hfits ⟨d, hd, hlt⟩
    obtain ⟨_, hle, htotal⟩ := h.mp ⟨htime, hadvice⟩
    exact hdivides ⟨fun d _ => hle d, htotal⟩
  · intro h
    refine and_congr_right fun htime => ⟨fun hadvice => ?_, fun hok d _ => hok.1 d⟩
    rcases (h available hlive).resolve_left htime with ⟨d, hd, hlt⟩ | ⟨hfree, htotal⟩
    · exact absurd (hadvice d hd) (not_le.mpr hlt)
    · refine ⟨fun d => ?_, htotal⟩
      by_cases hd : l.budget.limit d = none
      · exact hfree d hd
      · exact hadvice d hd

/-- **The advice on a snapshot and the reservation agree** exactly where `Agrees` says so: for the
root and for every delegation that has a snapshot. -/
theorem feasible_iff_reserve {start : BudgetLedger} (calls : List Call)
    {delegationId : Option String} {snap : BudgetSnapshot} (usage : BudgetUsage) (type : String)
    (stepId : Option String) (uuid : String) (createdAt : DateTime) (reading : BudgetReading)
    (h : Op.value? (snapshot delegationId reading) (run start calls) = some snap) :
    (BudgetPolicy.feasible snap usage = true ↔
      Op.error? (reserve usage type stepId delegationId uuid createdAt reading) (run start calls) =
        none) ↔ (run start calls).Agrees usage reading delegationId := by
  generalize run start calls = l at h ⊢
  rw [feasible_eq_true]
  cases delegationId with
  | none =>
    cases h
    rw [reserve_without_delegation]
    exact root_agrees
  | some id =>
    cases hlive : l.envelopes.get? id with
    | none =>
      unfold Op.value? snapshot at h
      rw [Op.get_bind_apply] at h
      simp only [hlive] at h
      cases h
    | some available =>
      have hsnap : { l.snapshotLocked reading with remaining := available } = snap := by
        unfold Op.value? snapshot at h
        rw [Op.get_bind_apply] at h
        simp only [hlive] at h
        exact Option.some.inj h
      cases hsnap
      rw [reserve_delegated hlive]
      exact delegation_agrees hlive

theorem feasible_iff_reserve_sample :
    ∃ snap, Op.value? (snapshot none startReading) (run (new fiveToolCalls) []) = some snap ∧
      BudgetPolicy.feasible snap (toolCalls 5) = true ∧
      ((BudgetPolicy.feasible snap (toolCalls 5) = true ↔
        Op.error? (reserve (toolCalls 5) "tool" none none "u1" (.epochSecond 1) startReading)
          (run (new fiveToolCalls) []) = none) ↔
        (run (new fiveToolCalls) []).Agrees (toolCalls 5) startReading none) :=
  ⟨_, rfl, by decide +kernel, feasible_iff_reserve [] (toolCalls 5) "tool" none "u1"
    (.epochSecond 1) startReading rfl⟩

/-- A delegation of three tool calls that has used six of five: the advice admits a usage of
nothing, the reservation does not. -/
def overdrawingCalls : List Call :=
  [.allocateDelegation "d" (toolCalls 3) startReading,
    .reserve (toolCalls 3) "tool" none (some "d") "u1" (.epochSecond 1) startReading,
    .commit ⟨"u1", "tool", none, toolCalls 3, .epochSecond 1⟩ (some (toolCalls 6)) startReading]

/-- One retrieval call is asked of an envelope of tool calls only; retrieval has no limit. -/
def unlimitedUsage : BudgetUsage := BudgetUsage.single .retrievalCalls 1 (by decide)

theorem feasible_not_reserved :
    (∃ snap, Op.value? (snapshot none startReading) (run (new fiveToolCalls) overdrawingCalls) =
        some snap ∧ BudgetPolicy.feasible snap BudgetUsage.zero = true ∧
      Op.error? (reserve BudgetUsage.zero "tool" none none "u2" (.epochSecond 1) startReading)
        (run (new fiveToolCalls) overdrawingCalls) ≠ none) ∧
    ∃ snap, Op.value? (snapshot (some "d") startReading) (run (new fiveToolCalls)
        [.allocateDelegation "d" (toolCalls 3) startReading]) = some snap ∧
      BudgetPolicy.feasible snap unlimitedUsage = true ∧
      Op.error? (reserve unlimitedUsage "tool" none (some "d") "u2" (.epochSecond 1) startReading)
        (run (new fiveToolCalls) [.allocateDelegation "d" (toolCalls 3) startReading]) ≠ none := by
  refine ⟨⟨_, rfl, by decide +kernel, ?_⟩, ?_⟩
  · decide +kernel
  · have hsnap : (Op.value? (snapshot (some "d") startReading) (run (new fiveToolCalls)
        [.allocateDelegation "d" (toolCalls 3) startReading])).any
          (BudgetPolicy.feasible · unlimitedUsage) = true := by decide +kernel
    obtain ⟨snap, hvalue, hfeasible⟩ := (Option.any_eq_true _ _).mp hsnap
    exact ⟨snap, hvalue, hfeasible, by decide +kernel⟩

end Advice

/-! ## A reservation is settled once -/

section Settled

/-- The call asks for a reservation under the id. -/
def Call.reserves (id : String) : Call → Bool
  | .reserve _ _ _ _ uuid _ _ => uuid = id
  | _ => false

/-- The call settles what is reserved under the id. -/
def Call.settles (id : String) : Call → Bool
  | .commit r _ _ | .release r _ => r.reservationId = id
  | _ => false

variable {l l' : BudgetLedger} {call : Call} {e? : Option BudgetError} {id : String}

/-- A reservation that is gone comes back only through a call that reserves it. -/
theorem Effect.gone (h : Effect l call e? l') (hgone : id ∉ l.reservations.keys)
    (hnew : call.reserves id = false) : id ∉ l'.reservations.keys := by
  cases h with
  | reserved | reservedDelegated =>
    rw [Dict.mem_keys_set]
    exact not_or.mpr ⟨fun heq => of_decide_eq_false hnew heq.symm, hgone⟩
  | commitRestored _ stored =>
    rw [Dict.mem_keys_set, Dict.mem_keys_erase]
    rintro (rfl | ⟨-, hmem⟩)
    · exact hgone (Dict.mem_keys_iff.mpr ⟨_, stored⟩)
    · exact hgone hmem
  | committedDelegated | committed | released | releasedDelegated | lost =>
    rw [Dict.mem_keys_erase]
    exact fun hmem => hgone hmem.2
  | _ => exact hgone

/-- A settled reservation is gone. -/
theorem Effect.settled (h : Effect l call e? l') (hcall : call.settles id = true)
    (hok : e? = none) : id ∉ l'.reservations.keys := by
  cases h with
  | committedDelegated | committed | released | releasedDelegated =>
    obtain rfl := of_decide_eq_true hcall
    rw [Dict.mem_keys_erase]
    exact fun hmem => hmem.1 rfl
  | rejected | commitUnknown | commitRestored | lost => cases hok
  | _ => cases hcall

theorem Effect.refused (h : Effect l call e? l') (hcall : call.settles id = true)
    (hgone : id ∉ l.reservations.keys) : e? ≠ none ∧ l'.committed = l.committed := by
  cases h with
  | committedDelegated stored | committed stored | released stored | releasedDelegated stored =>
    obtain rfl := of_decide_eq_true hcall
    exact absurd (Dict.mem_keys_iff.mpr ⟨_, stored⟩) hgone
  | rejected | commitUnknown | commitRestored | lost => exact ⟨Option.some_ne_none _, rfl⟩
  | _ => cases hcall

theorem run_gone (calls : List Call) (hc : l.Covered) (hgone : id ∉ l.reservations.keys)
    (hnew : ∀ call ∈ calls, call.reserves id = false) : id ∉ (run l calls).reservations.keys := by
  induction calls generalizing l with
  | nil => exact hgone
  | cons call calls ih =>
    obtain ⟨hcall, hcalls⟩ := List.forall_mem_cons.mp hnew
    have heffect := effect_of_call hc call
    exact ih (heffect.covered hc) (heffect.gone hgone hcall) hcalls

/-- **Settled once.**  After a `commit` or `release` has returned, whatever happens under other ids,
every further `commit` or `release` of the reservation raises and charges nothing. -/
theorem settled_once (budget : RunBudget) (before later : List Call) {id : String}
    {call again : Call} (hcall : call.settles id = true)
    (hok : Op.error? call.op (run (new budget) before) = none)
    (hlater : ∀ other ∈ later, other.reserves id = false) (hagain : again.settles id = true) :
    Op.error? again.op (run (new budget) (before ++ call :: later)) ≠ none ∧
    (Op.after again.op (run (new budget) (before ++ call :: later))).committed =
      (run (new budget) (before ++ call :: later)).committed := by
  have hbefore := run_covered before (covered_new budget)
  have heffect := effect_of_call hbefore call
  have hgone := run_gone later (heffect.covered hbefore) (heffect.settled hcall hok) hlater
  have hrun : run (new budget) (before ++ call :: later) =
      run (Op.after call.op (run (new budget) before)) later := List.foldl_append
  rw [hrun]
  exact (effect_of_call (run_covered later (heffect.covered hbefore)) again).refused hagain hgone

/-- The settled reservation is committed again after the other one was released. -/
theorem settled_once_sample :
    (run (new fiveToolCalls) sampleCalls).committed.amount .toolCalls = 1 ∧
    Op.error? (commit ⟨"u1", "tool", none, toolCalls 2, .epochSecond 1⟩ none startReading)
      (run (new fiveToolCalls) sampleCalls) ≠ none := by
  have hcall : Call.settles "u1" (.commit ⟨"u1", "tool", none, toolCalls 2, .epochSecond 1⟩
      (some (toolCalls 1)) startReading) = true := rfl
  have hagain : Call.settles "u1" (.commit ⟨"u1", "tool", none, toolCalls 2, .epochSecond 1⟩
      none startReading) = true := rfl
  exact ⟨by decide +kernel, (settled_once fiveToolCalls (sampleCalls.take 3) (sampleCalls.drop 4)
    hcall (by decide +kernel) (by decide) hagain).1⟩

end Settled

end BudgetLedger

end LocalAgent.Runtime
