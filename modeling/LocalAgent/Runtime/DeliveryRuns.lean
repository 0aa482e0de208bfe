import LocalAgent.Runtime.Delivery

/-!
# LocalAgent.Runtime.DeliveryRuns — what the calls for one delivery do together

* `admission_ok`, `fence_eq_ok`, `sinkTransaction_ok`, `receiptTransaction_ok`: everything a
  transaction that commits can do.
* `Sound`: what one step may do to the sink, the receipt and the row.
* `deliver_sound`: every step is sound in a run in which no denial is recorded while the payload is
  in the sink, or its owner can still write it.
-/

namespace LocalAgent.Runtime

namespace DeliveryService

variable {sink : Option ControlledSinkRow} {sr : SinkReceipt} {reconciled : Bool}
  {receipt : DeliveryReceipt}

section Transactions

variable {service : DeliveryService}

/-! ## What a transaction does -/

/-- The row the admission works on: the stored one, or a new one. -/
def Found (stored : Option DeliveryRow) (row : DeliveryRow) : Prop :=
  stored = some row ∨ stored = none ∧ row.receipt = none ∧ row.leaseUntil = none

/-- The five ways through an admission that commits. -/
inductive Admits (call : Verified service) (token : String) (now : ℤ)
    (stored : Option DeliveryRow) : DeliveryRow → Admission → Prop where
  | deniedAgain {row : DeliveryRow} {receipt : DeliveryReceipt} (found : stored = some row)
      (refused : call.verdict.isAuthorized = false) (status : receipt.deliveryStatus = .denied) :
      Admits call token now stored row (.returned receipt)
  | denied {row : DeliveryRow} {receipt : DeliveryReceipt} (found : Found stored row)
      (refused : call.verdict.isAuthorized = false) (empty : row.receipt = none)
      (status : receipt.deliveryStatus = .denied) :
      Admits call token now stored { row with receipt := some receipt, status := .denied }
        (.returned receipt)
  | replayed {row : DeliveryRow} {receipt : DeliveryReceipt} (found : stored = some row)
      (stored_receipt : row.receipt = some receipt) :
      Admits call token now stored row (.returned receipt)
  | active {row : DeliveryRow} {receipt : DeliveryReceipt} (found : stored = some row)
      (status : receipt.deliveryStatus = .outcomeUnknown) :
      Admits call token now stored row (.returned receipt)
  | owner {row : DeliveryRow} (found : Found stored row)
      (authorized : call.verdict.isAuthorized = true) (empty : row.receipt = none) :
      Admits call token now stored
        { row with
          token := some token, epoch := row.epoch + 1, leaseUntil := some (now + 30000000),
          status := .delivering } (.owner (row.epoch + 1))

variable {stored : Option DeliveryRow} {call : Verified service} {token : String} {now : ℤ}
  {row : DeliveryRow}

/-- When the admission transaction answers, by what was stored before. -/
theorem admission_ok {out : Admission} (h : admission call token now stored = .ok (row, out)) :
    Admits call token now stored row out := by
  unfold admission at h
  cases hstatus : DeliveryRowStatus.ofJson call.verdict.status with
  | none =>
    rw [hstatus] at h
    cases h
  | some =>
    rw [hstatus] at h
    obtain ⟨base, hbase, h⟩ := bind_eq_ok.mp h
    have hfound : Found stored base := by
      cases hbase
      cases stored with
      | none => exact .inr ⟨rfl, rfl, rfl⟩
      | some => exact .inl rfl
    have hstored : (base.receipt ≠ none ∨ Leased base now) → stored = some base := by
      intro hold
      rcases hfound with hfound | ⟨-, hempty, hlease⟩
      · exact hfound
      · rcases hold with hreceipt | ⟨t, ht, -⟩
        · exact absurd hempty hreceipt
        · rw [hlease] at ht
          cases ht
    obtain ⟨-, h⟩ := seq_eq_ok.mp h
    cases hauth : call.verdict.isAuthorized with
    | true =>
      simp only [hauth, if_true] at h
      cases hreceipt : base.receipt with
      | some =>
        rw [hreceipt] at h
        cases h
        exact .replayed (hstored (.inl (by rw [hreceipt]; nofun))) hreceipt
      | none =>
        rw [hreceipt] at h
        by_cases hleased : Leased base now
        · simp only [hleased, if_true] at h
          cases h
          exact .active (hstored (.inr hleased)) rfl
        · simp only [hleased, if_false] at h
          cases h
          have howner := @Admits.owner _ call token now stored base hfound hauth hreceipt
          rwa [hreceipt] at howner
    | false =>
      simp only [hauth] at h
      cases hreceipt : base.receipt with
      | some =>
        rw [hreceipt] at h
        cases h
        exact .deniedAgain (hstored (.inl (by rw [hreceipt]; nofun))) hauth rfl
      | none =>
        rw [hreceipt] at h
        cases h
        exact .denied hfound hauth hreceipt rfl

variable {epoch : ℕ}

/-- The fence: the row is leased, under this token and epoch. -/
theorem fence_eq_ok (h : fence stored token epoch now = .ok row) :
    stored = some row ∧ Leased row now ∧ Owns stored token epoch now := by
  cases stored with
  | none => cases h
  | some found =>
    obtain ⟨hheld, h⟩ := seq_eq_ok.mp h
    obtain rfl := Except.ok.inj h
    have hown := raiseIf_ok.mp hheld
    push Not at hown
    exact ⟨rfl, hown.2.2, found, rfl, hown⟩

theorem sinkTransaction_ok {row : ControlledSinkRow}
    (h : sinkTransaction call token epoch now stored sink = .ok (row, sr, reconciled)) :
    Owns stored token epoch now ∧ (sink = some row ∨ sink = none ∧
      row.payload = call.verdict.outcome.getD .null ∧
        row.payloadDigest = deliveryDigest (call.verdict.outcome.getD .null)) := by
  obtain ⟨_, hfence, h⟩ := bind_eq_ok.mp h
  refine ⟨(fence_eq_ok hfence).2.2, ?_⟩
  cases sink with
  | none =>
    cases h
    exact .inr ⟨rfl, rfl, rfl⟩
  | some =>
    obtain ⟨-, h⟩ := seq_eq_ok.mp h
    cases h
    exact .inl rfl

theorem receiptTransaction_ok
    (h : receiptTransaction call token epoch now sr reconciled stored = .ok (row, receipt)) :
    ∃ old, stored = some old ∧ Leased old now ∧ Owns stored token epoch now ∧
      row.leaseUntil = none ∧ row.receipt = some receipt ∧ receipt.deliveryStatus = .delivered := by
  obtain ⟨old, hfence, h⟩ := bind_eq_ok.mp h
  obtain ⟨hstored, hleased, howns⟩ := fence_eq_ok hfence
  cases h
  exact ⟨old, hstored, hleased, howns, rfl, rfl, rfl⟩

theorem unconfirmedTransaction_ok
    (h : unconfirmedTransaction call token epoch now stored = .ok (row, receipt)) :
    ∃ old, stored = some old ∧ Leased old now ∧ Owns stored token epoch now ∧
      row.leaseUntil = none ∧ row.receipt = old.receipt ∧
      receipt.deliveryStatus = .outcomeUnknown := by
  obtain ⟨old, hfence, h⟩ := bind_eq_ok.mp h
  obtain ⟨hstored, hleased, howns⟩ := fence_eq_ok hfence
  cases h
  exact ⟨old, hstored, hleased, howns, rfl, rfl, rfl⟩

theorem outcome_of_authorized (call : Verified service) (h : call.verdict.isAuthorized = true) :
    ∃ outcome, call.verdict.outcome = some outcome := by
  obtain ⟨-, hverify⟩ := seq_eq_ok.mp call.computed
  obtain ⟨_, -, hverify⟩ := bind_eq_ok.mp hverify
  obtain ⟨_, -, hread⟩ := bind_eq_ok.mp hverify
  unfold readOutcome at hread
  split_ifs at hread with hasked
  · cases hcase : call.read with
    | read outcome =>
      rw [hcase] at hread
      rw [← Except.ok.inj hread]
      exact ⟨outcome, rfl⟩
    | refused =>
      rw [hcase] at hread
      rw [← Except.ok.inj hread] at h
      cases h
    | broken =>
      rw [hcase] at hread
      cases hread
  · rw [← Except.ok.inj hread] at h
    exact absurd h hasked

end Transactions

section Steps

variable {service : DeliveryService} {deliveryId : String}

/-! ## What one step may do -/

def World.Stored (w : World service) (receipt : DeliveryReceipt) : Prop :=
  ∃ row ∈ w.row, row.receipt = some receipt

def Phase.fencing : Phase service → Option (String × ℕ)
  | .admitted _ token epoch => some (token, epoch)
  | .sunk _ token epoch _ _ => some (token, epoch)
  | .receipted _ token epoch _ => some (token, epoch)
  | .unconfirmed _ token epoch => some (token, epoch)
  | .verified _ | .ended => none

def Action.caller : Action → Option ℕ
  | .tick _ => none
  | .call id _ _ _ | .enter id _ | .sink id | .settle id | .lose id | .unconfirmed id
  | .finish id | .crash id => some id

/-- What one step may do to the sink, the receipts and the row. -/
structure Sound (w : World service) (action : Action) (w' : World service) : Prop where
  written : w'.sink = w.sink ∨ w.sink = none ∧ ∃ id call token epoch outcome row,
    action = .sink id ∧ w.calls.get? id = some (.admitted call token epoch) ∧
      Owns w.row token epoch w.clock ∧ call.verdict.isAuthorized = true ∧
      call.verdict.outcome = some outcome ∧ w'.sink = some row ∧ row.payload = outcome ∧
      row.payloadDigest = deliveryDigest outcome
  kept : ∀ receipt, w.Stored receipt → w'.Stored receipt
  delivered : ∀ receipt, w'.Stored receipt ∨ receipt ∈ w'.returned →
    receipt.deliveryStatus = .delivered → w'.sink ≠ none
  denied : ∀ receipt, w'.Stored receipt → receipt.deliveryStatus = .denied →
    receipt.sideEffectState = .notStarted → w'.sink = none
  /-- a caller that is not the owner changes nothing -/
  outdated : ∀ id phase token epoch, action.caller = some id → w.calls.get? id = some phase →
    phase.fencing = some (token, epoch) → ¬ Owns w.row token epoch w.clock →
      w'.row = w.row ∧ w'.sink = w.sink

/-- The step records no denial while the payload is in the sink, or its owner can still write it. -/
def Harmless (w : World service) : Action → Prop
  | .enter id _ => ∀ call, w.calls.get? id = some (.verified call) →
      call.verdict.isAuthorized = false →
        ∀ row ∈ w.row, row.receipt = none → w.sink = none ∧ ¬ Leased row w.clock
  | _ => True

/-! ## The invariant -/

def PhaseOk (sink : Option ControlledSinkRow) : Phase service → Prop
  | .admitted call _ _ => call.verdict.isAuthorized = true
  | .sunk _ _ _ _ _ | .receipted _ _ _ _ => sink ≠ none
  | .verified _ | .unconfirmed _ _ _ | .ended => True

structure Inv (w : World service) : Prop where
  rowless : w.row = none → w.sink = none
  settled : ∀ row ∈ w.row, row.receipt ≠ none → ¬ Leased row w.clock
  delivered : ∀ receipt, w.Stored receipt ∨ receipt ∈ w.returned →
    receipt.deliveryStatus = .delivered → w.sink ≠ none
  denied : ∀ receipt, w.Stored receipt → receipt.deliveryStatus = .denied → w.sink = none
  phases : ∀ id phase, w.calls.get? id = some phase → PhaseOk w.sink phase

theorem PhaseOk.mono {sink' : Option ControlledSinkRow} (h : sink ≠ none → sink' ≠ none)
    {phase : Phase service} (hok : PhaseOk sink phase) : PhaseOk sink' phase := by
  cases phase with
  | sunk | receipted => exact h hok
  | admitted => exact hok
  | verified | unconfirmed | ended => trivial

variable {w w' : World service} {id : ℕ} {phase : Phase service}

theorem Inv.phases_set (h : Inv w)
    (hsink : w.sink ≠ none → sink ≠ none) (hnew : PhaseOk sink phase) :
    ∀ id' phase', (w.calls.set id phase).get? id' = some phase' → PhaseOk sink phase' := by
  intro id' phase' hget
  rcases Dict.get?_set_cases hget with ⟨-, rfl⟩ | ⟨-, hget⟩
  · exact hnew
  · exact (h.phases id' phase' hget).mono hsink

theorem Inv.go (h : Inv w) (hnew : PhaseOk w.sink phase) : Inv (w.go id phase) where
  rowless := h.rowless
  settled := h.settled
  delivered := h.delivered
  denied := h.denied
  phases := h.phases_set (fun hs => hs) hnew

variable {action : Action}

theorem Inv.sound_of_same (h : Inv w') (hrow : w'.row = w.row)
    (hsink : w'.sink = w.sink) : Sound w action w' where
  written := .inl hsink
  kept receipt hstored := by
    unfold World.Stored
    rwa [hrow]
  delivered := h.delivered
  denied receipt hstored hstatus _ := h.denied receipt hstored hstatus
  outdated _ _ _ _ _ _ _ _ := ⟨hrow, hsink⟩

theorem no_fencing (hcaller : action.caller = some id)
    (hphase : w.calls.get? id = some phase) (hnone : phase.fencing = none) :
    ∀ id' phase' token epoch, action.caller = some id' → w.calls.get? id' = some phase' →
      phase'.fencing = some (token, epoch) → ¬ Owns w.row token epoch w.clock →
        w'.row = w.row ∧ w'.sink = w.sink := by
  intro _ _ _ _ hid hget hfencing _
  cases hcaller.symm.trans hid
  cases hphase.symm.trans hget
  rw [hnone] at hfencing
  cases hfencing

/-- An owner acts under its own token. -/
theorem owner_fencing {token : String} {epoch : ℕ}
    (hcaller : action.caller = some id) (hphase : w.calls.get? id = some phase)
    (hsome : phase.fencing = some (token, epoch)) (howns : Owns w.row token epoch w.clock) :
    ∀ id' phase' token epoch, action.caller = some id' → w.calls.get? id' = some phase' →
      phase'.fencing = some (token, epoch) → ¬ Owns w.row token epoch w.clock →
        w'.row = w.row ∧ w'.sink = w.sink := by
  intro _ _ _ _ hid hget hfencing hnot
  cases hcaller.symm.trans hid
  cases hphase.symm.trans hget
  cases hsome.symm.trans hfencing
  exact absurd howns hnot

theorem Inv.empty_of_leased (h : Inv w) {row : DeliveryRow} (hrow : w.row = some row)
    (hleased : Leased row w.clock) : row.receipt = none := by
  by_contra hne
  exact h.settled row hrow hne hleased

theorem not_stored {row : DeliveryRow} (hrow : w.row = some row)
    (hempty : row.receipt = none) (receipt : DeliveryReceipt) : ¬ w.Stored receipt := by
  rintro ⟨_, hrow', hreceipt⟩
  cases hrow.symm.trans hrow'
  rw [hempty] at hreceipt
  cases hreceipt

/-! ## The steps -/

theorem step_tick (h : Inv w) (duration : ℕ) : Inv { w with clock := w.clock + duration } where
  rowless := h.rowless
  settled row hrow hne := by
    rintro ⟨t, ht, hlt⟩
    have hlater : w.clock + (duration : ℤ) < t := hlt
    exact h.settled row hrow hne ⟨t, ht, by omega⟩
  delivered := h.delivered
  denied := h.denied
  phases := h.phases

/-- The admission keeps the invariant, and is sound when no denial takes the row of another. -/
theorem step_admit (h : Inv w) {token : String} {call : Verified service}
    (hphase : w.calls.get? id = some (.verified call)) (hharmless : Harmless w (.enter id token))
    {row : DeliveryRow} {out : Admission} (hadmits : Admits call token w.clock w.row row out)
    (hw' : w' = match out with
      | .returned receipt => { w with row := some row }.answer id receipt
      | .owner epoch => { w with row := some row }.go id (.admitted call token epoch)) :
    Inv w' ∧ Sound w (.enter id token) w' := by
  have hfence := @no_fencing _ w w' id _ (.enter id token) rfl hphase rfl
  have hsame : ∀ receipt : DeliveryReceipt, w.row = some row →
      receipt.deliveryStatus ≠ .delivered ∨ w.Stored receipt →
      w' = { w with row := some row }.answer id receipt →
        Inv w' ∧ Sound w (.enter id token) w' := by
    rintro receipt hrow hstatus rfl
    have hinv : Inv (({ w with row := some row } : World service).answer id receipt) := by
      refine ⟨nofun, fun row' hrow' => h.settled row' (hrow.trans hrow'), fun r hr hd => ?_,
        fun r ⟨row', hrow', hr⟩ hd => h.denied r ⟨row', hrow.trans hrow', hr⟩ hd,
        h.phases_set (fun hs => hs) trivial⟩
      rcases hr with ⟨row', hrow', hr⟩ | hr
      · exact h.delivered r (.inl ⟨row', hrow.trans hrow', hr⟩) hd
      · rcases List.mem_cons.mp hr with rfl | hr
        · rcases hstatus with hne | hstored
          · exact absurd hd hne
          · exact h.delivered r (.inl hstored) hd
        · exact h.delivered r (.inr hr) hd
    exact ⟨hinv, hinv.sound_of_same hrow.symm rfl⟩
  cases hadmits with
  | deniedAgain found _ status | active found status =>
    exact hsame _ found (.inl (by rw [status]; nofun)) hw'
  | replayed found hreceipt => exact hsame _ found (.inr ⟨_, found, hreceipt⟩) hw'
  | @denied base receipt found refused empty status =>
    subst hw'
    have hfree : w.sink = none ∧ ¬ Leased base w.clock := by
      rcases found with hrow | ⟨hrow, -, hlease⟩
      · exact hharmless call hphase refused base hrow empty
      · refine ⟨h.rowless hrow, ?_⟩
        rintro ⟨t, ht, -⟩
        rw [hlease] at ht
        cases ht
    have hnone : ∀ r, ¬ w.Stored r := by
      rcases found with hrow | ⟨hrow, -, -⟩
      · exact not_stored hrow empty
      · rintro r ⟨row', hrow', -⟩
        cases hrow.symm.trans hrow'
    have hinv : Inv (({ w with
        row := some { base with receipt := some receipt, status := .denied } } :
          World service).answer id receipt) := by
      refine ⟨nofun, fun row' hrow' _ => ?_, fun r hr hd => ?_, fun _ _ _ => hfree.1,
        h.phases_set (fun hs => hs) trivial⟩
      · cases hrow'
        exact hfree.2
      · have hnew : r ≠ receipt := by
          rintro rfl
          rw [status] at hd
          cases hd
        rcases hr with ⟨row', hrow', hr⟩ | hr
        · cases hrow'
          exact absurd (Option.some.inj hr).symm hnew
        · exact h.delivered r (.inr ((List.mem_cons.mp hr).resolve_left hnew)) hd
    exact ⟨hinv, .inl rfl, fun r hr => absurd hr (hnone r), hinv.delivered,
      fun r hr hd _ => hinv.denied r hr hd, hfence⟩
  | @owner base found authorized empty =>
    subst hw'
    have hnone : ∀ r, ¬ w.Stored r := by
      rcases found with hrow | ⟨hrow, -, -⟩
      · exact not_stored hrow empty
      · rintro r ⟨row', hrow', -⟩
        cases hrow.symm.trans hrow'
    have hstored : ∀ r, ¬ (({ w with row := some { base with
        token := some token, epoch := base.epoch + 1, leaseUntil := some (w.clock + 30000000)
        status := .delivering } } : World service).go id
          (.admitted call token (base.epoch + 1))).Stored r := by
      rintro r ⟨row', hrow', hr⟩
      cases hrow'
      cases empty.symm.trans hr
    have hinv : Inv (({ w with row := some { base with
        token := some token, epoch := base.epoch + 1, leaseUntil := some (w.clock + 30000000)
        status := .delivering } } : World service).go id
          (.admitted call token (base.epoch + 1))) := by
      refine ⟨nofun, fun row' hrow' hne => ?_, fun r hr hd => ?_, fun r hr => absurd hr (hstored r),
        h.phases_set (fun hs => hs) authorized⟩
      · cases hrow'
        exact absurd empty hne
      · exact h.delivered r (.inr (hr.resolve_left (hstored r))) hd
    exact ⟨hinv, .inl rfl, fun r hr => absurd hr (hnone r), hinv.delivered,
      fun r hr hd _ => hinv.denied r hr hd, hfence⟩

theorem step_sink (h : Inv w) {call : Verified service} {token : String} {epoch : ℕ}
    (hphase : w.calls.get? id = some (.admitted call token epoch)) {sink : ControlledSinkRow}
    (hok : sinkTransaction call token epoch w.clock w.row w.sink = .ok (sink, sr, reconciled)) :
    Inv ({ w with sink := some sink }.go id (.sunk call token epoch sr reconciled)) ∧
      Sound w (.sink id)
        ({ w with sink := some sink }.go id (.sunk call token epoch sr reconciled)) := by
  obtain ⟨howns, hsink⟩ := sinkTransaction_ok hok
  have hheld := howns
  obtain ⟨_, hrow, -, -, hleased⟩ := hheld
  have hempty := not_stored hrow (h.empty_of_leased hrow hleased)
  have hinv : Inv (({ w with sink := some sink } : World service).go id
      (.sunk call token epoch sr reconciled)) := by
    refine ⟨fun hnone => ?_, h.settled, fun _ _ _ => nofun, fun r hr => absurd hr (hempty r),
      h.phases_set (fun _ => nofun) nofun⟩
    cases hrow.symm.trans hnone
  have hauth : call.verdict.isAuthorized = true := h.phases id _ hphase
  refine ⟨hinv, ?_, fun r hr => hr, hinv.delivered, fun r hr hd _ => hinv.denied r hr hd,
    owner_fencing rfl hphase rfl howns⟩
  rcases hsink with hsame | ⟨hnone, hpayload, hdigest⟩
  · exact .inl hsame.symm
  · obtain ⟨outcome, houtcome⟩ := outcome_of_authorized call hauth
    rw [houtcome] at hpayload hdigest
    exact .inr ⟨hnone, id, call, token, epoch, outcome, sink, rfl, hphase, howns, hauth, houtcome,
      rfl, hpayload, hdigest⟩

theorem step_settle (h : Inv w) {call : Verified service} {token : String} {epoch : ℕ}
    (hphase : w.calls.get? id = some (.sunk call token epoch sr reconciled)) {row : DeliveryRow}
    (hok : receiptTransaction call token epoch w.clock sr reconciled w.row = .ok (row, receipt)) :
    Inv ({ w with row := some row }.go id (.receipted call token epoch receipt)) ∧
      Sound w (.settle id)
        ({ w with row := some row }.go id (.receipted call token epoch receipt)) := by
  obtain ⟨_, hrow, hleased, howns, hlease, hreceipt, hstatus⟩ := receiptTransaction_ok hok
  have hempty := not_stored hrow (h.empty_of_leased hrow hleased)
  have hsunk : w.sink ≠ none := h.phases id _ hphase
  have hinv : Inv (({ w with row := some row } : World service).go id
      (.receipted call token epoch receipt)) := by
    refine ⟨nofun, fun row' hrow' _ => ?_, fun _ _ _ => hsunk, fun r hr hd => ?_,
      h.phases_set (fun hs => hs) hsunk⟩
    · cases hrow'
      rintro ⟨t, ht, -⟩
      rw [hlease] at ht
      cases ht
    · obtain ⟨_, hrow', hr⟩ := hr
      cases hrow'
      cases hreceipt.symm.trans hr
      rw [hstatus] at hd
      cases hd
  exact ⟨hinv, .inl rfl, fun r hr => absurd hr (hempty r), hinv.delivered,
    fun r hr hd _ => hinv.denied r hr hd, owner_fencing rfl hphase rfl howns⟩

theorem step_unconfirmed (h : Inv w) {call : Verified service} {token : String} {epoch : ℕ}
    (hphase : w.calls.get? id = some (.unconfirmed call token epoch)) {row : DeliveryRow}
    (hok : unconfirmedTransaction call token epoch w.clock w.row = .ok (row, receipt)) :
    Inv ({ w with row := some row }.answer id receipt) ∧
      Sound w (.unconfirmed id) ({ w with row := some row }.answer id receipt) := by
  obtain ⟨old, hrow, hleased, howns, -, hsame, hstatus⟩ := unconfirmedTransaction_ok hok
  have hempty := not_stored hrow (h.empty_of_leased hrow hleased)
  have hstored : ∀ r,
      ¬ (({ w with row := some row } : World service).answer id receipt).Stored r := by
    rintro r ⟨row', hrow', hr⟩
    cases hrow'
    exact hempty r ⟨old, hrow, hsame.symm.trans hr⟩
  have hinv : Inv (({ w with row := some row } : World service).answer id receipt) := by
    refine ⟨nofun, fun row' hrow' hne => ?_, fun r hr hd => ?_,
      fun r hr => absurd hr (hstored r), h.phases_set (fun hs => hs) trivial⟩
    · cases hrow'
      rw [hsame] at hne
      exact absurd (h.empty_of_leased hrow hleased) hne
    · have hnew : r ≠ receipt := by
        rintro rfl
        rw [hstatus] at hd
        cases hd
      have hold := (List.mem_cons.mp (hr.resolve_left (hstored r))).resolve_left hnew
      exact h.delivered r (.inr hold) hd
  exact ⟨hinv, .inl rfl, fun r hr => absurd hr (hempty r), hinv.delivered,
    fun r hr hd _ => hinv.denied r hr hd, owner_fencing rfl hphase rfl howns⟩

/-- Every harmless step keeps the invariant and is sound. -/
theorem step_sound (h : Inv w) (hharmless : Harmless w action)
    (hstep : w.step deliveryId action = some w') : Inv w' ∧ Sound w action w' := by
  have hgo : ∀ {id : ℕ} {phase : Phase service}, w.go id phase = w' →
      PhaseOk w.sink phase → Inv w' ∧ Sound w action w' := by
    rintro id _ rfl hok
    have hinv := @Inv.go _ w id _ h hok
    exact ⟨hinv, hinv.sound_of_same rfl rfl⟩
  cases action with
  | tick duration =>
    cases hstep
    have hinv := step_tick h duration
    exact ⟨hinv, hinv.sound_of_same rfl rfl⟩
  | call =>
    simp only [World.step] at hstep
    split_ifs at hstep
    split at hstep
    all_goals exact hgo (Option.some.inj hstep) trivial
  | enter =>
    simp only [World.step] at hstep
    split at hstep
    · next call hphase =>
      split at hstep
      · exact hgo (Option.some.inj hstep) trivial
      · next row receipt hok =>
        exact step_admit h hphase hharmless (admission_ok hok) (Option.some.inj hstep).symm
      · next row epoch hok =>
        exact step_admit h hphase hharmless (admission_ok hok) (Option.some.inj hstep).symm
    · cases hstep
  | sink =>
    simp only [World.step] at hstep
    split at hstep
    · next call token epoch hphase =>
      split at hstep
      · exact hgo (Option.some.inj hstep) trivial
      · next sink sr reconciled hok =>
        cases hstep
        exact step_sink h hphase hok
    · cases hstep
  | settle =>
    simp only [World.step] at hstep
    split at hstep
    · next call token epoch sr reconciled hphase =>
      split at hstep
      · exact hgo (Option.some.inj hstep) trivial
      · next row receipt hok =>
        cases hstep
        exact step_settle h hphase hok
    · cases hstep
  | lose =>
    simp only [World.step] at hstep
    split at hstep
    · exact hgo (Option.some.inj hstep) trivial
    · exact hgo (Option.some.inj hstep) trivial
    · exact hgo (Option.some.inj hstep) trivial
    · cases hstep
  | unconfirmed =>
    simp only [World.step] at hstep
    split at hstep
    · next call token epoch hphase =>
      split at hstep
      · exact hgo (Option.some.inj hstep) trivial
      · next row receipt hok =>
        cases hstep
        exact step_unconfirmed h hphase hok
    · cases hstep
  | finish id =>
    simp only [World.step] at hstep
    split at hstep
    · next call token epoch receipt hphase =>
      cases hstep
      have hsunk : w.sink ≠ none := h.phases id _ hphase
      have hinv : Inv (w.answer id receipt) :=
        ⟨h.rowless, h.settled, fun _ _ _ => hsunk, h.denied, h.phases_set (fun hs => hs) trivial⟩
      exact ⟨hinv, hinv.sound_of_same rfl rfl⟩
    · cases hstep
  | crash =>
    simp only [World.step] at hstep
    split_ifs at hstep
    exact hgo (Option.some.inj hstep) trivial

theorem inv_start (clock : ℤ) : Inv (World.start service clock) where
  rowless _ := rfl
  settled _ h := nomatch h
  delivered _ h _ := by
    rcases h with ⟨_, h, -⟩ | h
    all_goals cases h
  denied _ h _ := by
    obtain ⟨_, h, -⟩ := h
    cases h
  phases _ _ h := nomatch h

/-- **Deliveries are sound.**  In every run of calls for one delivery in which no denial is recorded
while the payload is in the sink or its owner can still write it, every step is `Sound`. -/
theorem deliver_sound (clock : ℤ) {acts : List Action} {action : Action}
    (hrun : Trace.run (World.step deliveryId) (World.start service clock) acts = some w)
    (hstep : w.step deliveryId action = some w')
    (hharmless : Trace.Along (World.step deliveryId) Harmless (World.start service clock)
      (acts ++ [action])) : Sound w action w' := by
  obtain ⟨hbefore, hlast⟩ := (Trace.along_append hrun).mp hharmless
  have hinv : Inv w := Trace.run_keeps (fun _ _ _ hc ht hi => (step_sound hi hc ht).1) hbefore hrun
    (inv_start clock)
  exact (step_sound hinv hlast.1 hstep).2

end Steps

section Samples

variable {service : DeliveryService} {deliveryId : String} {w : World service} {id : ℕ}

/-! ## Calls that go through -/

theorem equals_self (a : Json) : a.equals a = true := by
  simp [Json.equals]

theorem mismatched_of_items {binding authorization : List (String × Json)} {expected : String}
    {gate outcome destination : Json}
    (hversion : (Json.obj authorization).getOrNull "authorization_version" =
      .str deliveryAuthorizationVersion)
    (hproject : (Json.obj authorization).getOrNull "project_id" = .str service.project)
    (hdigest : authorizationDigest (.obj authorization) = some expected)
    (hexpected : (Json.obj authorization).getOrNull "authorization_digest" = .str expected)
    (hgate : (Json.obj authorization).getOrNull "gate" = gate)
    (houtcome : (Json.obj authorization).getOrNull "outcome" = outcome)
    (hdestination : (Json.obj authorization).getOrNull "destination" = destination)
    (hbinding : binding.lookup "gate" = some gate ∧ binding.lookup "outcome" = some outcome ∧
      binding.lookup "destination" = some destination) :
    service.mismatched binding authorization (.obj authorization) = some false := by
  obtain ⟨hgate', houtcome', hdestination'⟩ := hbinding
  simp [mismatched, hversion, hproject, hdigest, hexpected, hgate, houtcome, hdestination, hgate',
    houtcome', hdestination', equals_self]

section Verifying

variable {request : DeliveryRequest} {authorization : List (String × Json)}
  (hprotocol : request.protocolVersion = deliveryProtocol)
  (hid : request.deliveryId = deliveryIdentity request.binding)
  (hauthorization : request.gateAuthorization = some authorization) (hne : authorization ≠ [])
  (hdestination : request.binding.lookup "destination" = some service.destination)

include hprotocol hid hdestination in
theorem verify_of_asked {answer : AuthorityAnswer} {read : OutcomeRead} {verdict : Verdict}
    (hask : service.askAuthority request answer = .ok verdict) :
    service.verify request answer read = readOutcome verdict read := by
  have hidentity : ¬ (request.protocolVersion ≠ deliveryProtocol ∨
      request.deliveryId ≠ deliveryIdentity request.binding) := by
    rintro (h | h)
    · exact h hprotocol
    · exact h hid
  unfold verify
  rw [raiseIf_ok.mpr hidentity, ok_bind, hask, ok_bind]
  unfold checkDestination
  rw [hdestination]
  simp [equals_self]

include hauthorization hne in
theorem askAuthority_allowed {verified reason : Json}
    (hmatch : service.mismatched request.binding authorization verified = some false)
    (hstatus : verified.get? "authorization_status" = some (.str "AUTHORIZED"))
    (hreason : verified.get? "reason" = some reason) :
    service.askAuthority request (.answered verified) =
      .ok ⟨.str "AUTHORIZED", reason, verified, verified, none⟩ := by
  cases authorization with
  | nil => exact absurd rfl hne
  | cons =>
    unfold askAuthority
    rw [hauthorization]
    simp only [hmatch, hstatus, hreason]

include hauthorization hne in
theorem askAuthority_unavailable : service.askAuthority request .unavailable =
      .ok (.denied "GATE_UNAVAILABLE_OR_MALFORMED" (.obj []) (.obj [])) := by
  cases authorization with
  | nil => exact absurd rfl hne
  | cons =>
    unfold askAuthority
    rw [hauthorization]

end Verifying

theorem step_call (call : Verified service) (hfree : w.calls.get? id = none)
    (hid : call.request.deliveryId = deliveryId) :
    w.step deliveryId (.call id call.request call.answer call.read) =
      some (w.go id (.verified call)) := by
  simp only [World.step, hfree, hid, true_and, if_true]
  split
  · next h => cases h.symm.trans call.computed
  · next verdict h =>
    cases h.symm.trans call.computed
    rfl

def ownedRow (call : Verified service) (token : String) (now : ℤ) : DeliveryRow :=
  ⟨deliveryDigest call.request.toJson, call.verdict.audit, .delivering, some token, 1,
    some (now + 30000000), now, none⟩

theorem admission_first {call : Verified service} {token : String} {now : ℤ}
    (hstatus : call.verdict.status = .str "AUTHORIZED") :
    admission call token now none = .ok (ownedRow call token now, .owner 1) := by
  have hauth : call.verdict.isAuthorized = true := by
    unfold Verdict.isAuthorized
    rw [hstatus]
    rfl
  have hleased : ∀ row : DeliveryRow, row.leaseUntil = none → ¬ Leased row now := by
    rintro _ hlease ⟨t, ht, -⟩
    rw [hlease] at ht
    cases ht
  unfold admission
  rw [hstatus]
  simp only [DeliveryRowStatus.ofJson, Option.getD_none, pure_bind, ne_eq, not_true_eq_false]
  rw [raiseIf_ok.mpr (fun h => h), ok_bind]
  simp only [hauth, if_true]
  rw [if_neg (hleased _ rfl)]
  rfl

theorem admit_owner {call : Verified service} {token : String} {row : DeliveryRow} {epoch : ℕ}
    (hphase : w.calls.get? id = some (.verified call))
    (hok : admission call token w.clock w.row = .ok (row, .owner epoch)) :
    w.step deliveryId (.enter id token) =
      some ({ w with row := some row }.go id (.admitted call token epoch)) := by
  simp only [World.step, hphase, hok]

theorem admit_returned {call : Verified service} {token : String} {row : DeliveryRow}
(hphase : w.calls.get? id = some (.verified call))
    (hok : admission call token w.clock w.row = .ok (row, .returned receipt)) :
    w.step deliveryId (.enter id token) =
      some ({ w with row := some row }.answer id receipt) := by
  simp only [World.step, hphase, hok]

theorem sink_of_ok {call : Verified service} {token : String} {epoch : ℕ} {sink : ControlledSinkRow}
    (hphase : w.calls.get? id = some (.admitted call token epoch))
    (hok : sinkTransaction call token epoch w.clock w.row w.sink = .ok (sink, sr, reconciled)) :
    w.step deliveryId (.sink id) =
      some ({ w with sink := some sink }.go id (.sunk call token epoch sr reconciled)) := by
  simp only [World.step, hphase, hok]

theorem settle_of_ok {call : Verified service} {token : String} {epoch : ℕ} {row : DeliveryRow}
    (hphase : w.calls.get? id = some (.sunk call token epoch sr reconciled))
    (hok : receiptTransaction call token epoch w.clock sr reconciled w.row = .ok (row, receipt)) :
    w.step deliveryId (.settle id) =
      some ({ w with row := some row }.go id (.receipted call token epoch receipt)) := by
  simp only [World.step, hphase, hok]

theorem admission_denied {call : Verified service} {token : String} {now : ℤ} {row : DeliveryRow}
    (hstatus : call.verdict.status = .str "DENIED")
    (hdigest : row.requestDigest = deliveryDigest call.request.toJson)
    (hempty : row.receipt = none) :
    ∃ receipt, receipt.deliveryStatus = .denied ∧ receipt.sideEffectState = .notStarted ∧
      admission call token now (some row) =
        .ok ({ row with receipt := some receipt, status := .denied }, .returned receipt) := by
  have hauth : call.verdict.isAuthorized = false := by
    unfold Verdict.isAuthorized
    rw [hstatus]
    rfl
  refine ⟨service.receipt call.request.deliveryId call.verdict.audit .denied call.verdict.reason
    row.startedAt now none "NOT_REQUIRED", rfl, rfl, ?_⟩
  unfold admission
  rw [hstatus]
  simp only [DeliveryRowStatus.ofJson, Option.getD_some, pure_bind]
  rw [raiseIf_ok.mpr (not_not.mpr hdigest), ok_bind]
  simp only [hauth, hempty]
  rfl

theorem fence_of_owns {row : DeliveryRow} {token : String} {epoch : ℕ} {now : ℤ}
    (htoken : row.token = some token) (hepoch : row.epoch = epoch) (hleased : Leased row now) :
    fence (some row) token epoch now = .ok row := by
  have hheld : ¬ (row.token ≠ some token ∨ row.epoch ≠ epoch ∨ ¬ Leased row now) := by
    rintro (h | h | h)
    · exact h htoken
    · exact h hepoch
    · exact h hleased
  show (raiseIf (row.token ≠ some token ∨ row.epoch ≠ epoch ∨ ¬ Leased row now) _ >>= _) = _
  rw [raiseIf_ok.mpr hheld]
  rfl

/-- A denial after the receipt leaves the row as it is. -/
theorem admission_answered {call : Verified service} {token : String} {now : ℤ} {row : DeliveryRow}
    (hstatus : call.verdict.status = .str "DENIED")
    (hdigest : row.requestDigest = deliveryDigest call.request.toJson)
    (hreceipt : row.receipt = some receipt) :
    ∃ denial, admission call token now (some row) = .ok (row, .returned denial) := by
  have hauth : call.verdict.isAuthorized = false := by
    unfold Verdict.isAuthorized
    rw [hstatus]
    rfl
  refine ⟨service.receipt call.request.deliveryId call.verdict.audit .denied call.verdict.reason
    row.startedAt now none "NOT_REQUIRED", ?_⟩
  unfold admission
  rw [hstatus]
  simp only [DeliveryRowStatus.ofJson, Option.getD_some, pure_bind]
  rw [raiseIf_ok.mpr (not_not.mpr hdigest), ok_bind]
  simp only [hauth, hreceipt]
  rfl

/-- An authorised call reaches the sink. -/
theorem sink_run {call : Verified service} (hstatus : call.verdict.status = .str "AUTHORIZED") :
    ∃ sink sr calls, Trace.run (World.step call.request.deliveryId) (World.start service 0)
        [.call 1 call.request call.answer call.read, .enter 1 "t", .sink 1] =
          some ⟨0, some (ownedRow call "t" 0), some sink, calls, []⟩ ∧
      Trace.Along (World.step call.request.deliveryId) Harmless (World.start service 0)
        [.call 1 call.request call.answer call.read, .enter 1 "t", .sink 1] ∧
      calls.get? 1 = some (.sunk call "t" 1 sr false) ∧ calls.get? 2 = none := by
  have hfence : fence (some (ownedRow call "t" 0)) "t" 1 0 = .ok (ownedRow call "t" 0) :=
    fence_of_owns rfl rfl ⟨30000000, rfl, by decide⟩
  obtain ⟨sink, sr, hsink⟩ : ∃ sink sr, sinkTransaction call "t" 1 0
      (some (ownedRow call "t" 0)) none = .ok (sink, sr, false) := by
    unfold sinkTransaction
    rw [hfence]
    exact ⟨_, _, rfl⟩
  let w₁ : World service := (World.start service 0).go 1 (.verified call)
  let w₂ : World service :=
    { w₁ with row := some (ownedRow call "t" 0) }.go 1 (.admitted call "t" 1)
  let w₃ : World service := { w₂ with sink := some sink }.go 1 (.sunk call "t" 1 sr false)
  have h1 : (World.start service 0).step call.request.deliveryId
      (.call 1 call.request call.answer call.read) = some w₁ := step_call call rfl rfl
  have h2 : w₁.step call.request.deliveryId (.enter 1 "t") = some w₂ :=
    admit_owner (by simp [w₁, World.go]) (admission_first hstatus)
  have h3 : w₂.step call.request.deliveryId (.sink 1) = some w₃ :=
    sink_of_ok (by simp [w₂, World.go]) hsink
  refine ⟨sink, sr, w₃.calls, Trace.run_cons.mpr ⟨_, h1, Trace.run_cons.mpr ⟨_, h2,
    Trace.run_cons.mpr ⟨_, h3, rfl⟩⟩⟩, ?_, by simp [w₃, World.go],
    by simp [w₃, w₂, w₁, World.go, World.start]⟩
  refine (Trace.along_cons h1).mpr ⟨trivial, (Trace.along_cons h2).mpr ⟨?_,
    (Trace.along_cons h3).mpr ⟨trivial, trivial⟩⟩⟩
  -- the call is authorised
  intro other hphase hdenied
  obtain rfl : call = other := by
    have hget : w₁.calls.get? 1 = some (.verified call) := by simp [w₁, World.go]
    exact Phase.verified.inj (Option.mem_unique hget hphase)
  unfold Verdict.isAuthorized at hdenied
  rw [hstatus] at hdenied
  cases hdenied

/-- A denial between the sink and the receipt, whoever the two callers are. -/
theorem denial_between {owner other : Verified service}
    (howner : owner.verdict.status = .str "AUTHORIZED")
    (hother : other.verdict.status = .str "DENIED") (hsame : other.request = owner.request) :
    ∃ acts w receipt, Trace.run (World.step owner.request.deliveryId) (World.start service 0) acts =
        some w ∧ w.Stored receipt ∧ receipt.deliveryStatus = .denied ∧
      receipt.sideEffectState = .notStarted ∧ w.sink ≠ none ∧
      ∃ action w', w.step owner.request.deliveryId action = some w' ∧ ¬ w'.Stored receipt := by
  obtain ⟨sink, sr, calls, hrun, -, hsunk, hfree⟩ := sink_run howner
  have hintent : (ownedRow owner "t" 0).requestDigest = deliveryDigest other.request.toJson := by
    rw [hsame]
    rfl
  obtain ⟨denial, hdenied, hnotStarted, hadmission⟩ :=
    @admission_denied _ other "u" 0 _ hother hintent rfl
  have hfence : fence
      (some { ownedRow owner "t" 0 with receipt := some denial, status := .denied }) "t" 1 0 =
        .ok { ownedRow owner "t" 0 with receipt := some denial, status := .denied } :=
    fence_of_owns rfl rfl ⟨30000000, rfl, by decide⟩
  obtain ⟨row, receipt, hsettle⟩ : ∃ row receipt, receiptTransaction owner "t" 1 0 sr false
      (some { ownedRow owner "t" 0 with receipt := some denial, status := .denied }) =
        .ok (row, receipt) := by
    unfold receiptTransaction
    rw [hfence]
    exact ⟨_, _, rfl⟩
  obtain ⟨-, -, -, -, -, hstored, hdelivered⟩ := receiptTransaction_ok hsettle
  -- the three steps after the sink
  let w₃ : World service := ⟨0, some (ownedRow owner "t" 0), some sink, calls, []⟩
  let w₄ : World service := w₃.go 2 (.verified other)
  let w₅ : World service := { w₄ with
    row := some { ownedRow owner "t" 0 with receipt := some denial, status := .denied } }.answer 2
      denial
  let w₆ : World service := { w₅ with row := some row }.go 1 (.receipted owner "t" 1 receipt)
  have h4 : w₃.step owner.request.deliveryId (.call 2 other.request other.answer other.read) =
      some w₄ := step_call other hfree (by rw [hsame])
  have h5 : w₄.step owner.request.deliveryId (.enter 2 "u") = some w₅ :=
    admit_returned (by simp [w₄, World.go]) hadmission
  have h6 : w₅.step owner.request.deliveryId (.settle 1) = some w₆ :=
    settle_of_ok (by simp [w₅, w₄, w₃, World.go, World.answer, hsunk]) hsettle
  have hrest : Trace.run (World.step owner.request.deliveryId) w₃
      [.call 2 other.request other.answer other.read, .enter 2 "u"] = some w₅ :=
    Trace.run_cons.mpr ⟨_, h4, Trace.run_cons.mpr ⟨_, h5, rfl⟩⟩
  refine ⟨_, w₅, denial, Trace.run_append.trans (Option.bind_eq_some_iff.mpr ⟨_, hrun, hrest⟩),
    ⟨_, rfl, rfl⟩, hdenied, hnotStarted, (by rintro ⟨⟩), .settle 1, w₆, h6, ?_⟩
  rintro ⟨_, hrow', hreceipt⟩
  cases hrow'
  cases hstored.symm.trans hreceipt
  rw [hdenied] at hdelivered
  cases hdelivered

/-- The same denial after the receipt. -/
theorem denial_after {owner other : Verified service}
    (howner : owner.verdict.status = .str "AUTHORIZED")
    (hother : other.verdict.status = .str "DENIED") (hsame : other.request = owner.request) :
    ∃ acts action w w' receipt,
      Trace.run (World.step owner.request.deliveryId) (World.start service 0) acts = some w ∧
      w.step owner.request.deliveryId action = some w' ∧ w'.sink ≠ none ∧ w'.Stored receipt ∧
      receipt.deliveryStatus = .delivered ∧ w'.returned ≠ [] ∧
      Trace.Along (World.step owner.request.deliveryId) Harmless (World.start service 0)
        (acts ++ [action]) := by
  obtain ⟨sink, sr, calls, hrun, hharmless, hsunk, hfree⟩ := sink_run howner
  have hfence : fence (some (ownedRow owner "t" 0)) "t" 1 0 = .ok (ownedRow owner "t" 0) :=
    fence_of_owns rfl rfl ⟨30000000, rfl, by decide⟩
  obtain ⟨row, receipt, hsettle, hintent⟩ : ∃ row receipt, receiptTransaction owner "t" 1 0 sr false
      (some (ownedRow owner "t" 0)) = .ok (row, receipt) ∧
        row.requestDigest = deliveryDigest other.request.toJson := by
    unfold receiptTransaction
    rw [hfence, hsame]
    exact ⟨_, _, rfl, rfl⟩
  obtain ⟨-, -, -, -, -, hstored, hdelivered⟩ := receiptTransaction_ok hsettle
  obtain ⟨denial, hadmission⟩ := @admission_answered _ _ other "u" 0 row hother hintent hstored
  let w₃ : World service := ⟨0, some (ownedRow owner "t" 0), some sink, calls, []⟩
  let w₄ : World service := { w₃ with row := some row }.go 1 (.receipted owner "t" 1 receipt)
  let w₅ : World service := w₄.go 2 (.verified other)
  let w₆ : World service := { w₅ with row := some row }.answer 2 denial
  have h4 : w₃.step owner.request.deliveryId (.settle 1) = some w₄ := settle_of_ok hsunk hsettle
  have h5 : w₄.step owner.request.deliveryId (.call 2 other.request other.answer other.read) =
      some w₅ := step_call other (by simp [w₄, w₃, World.go, hfree]) (by rw [hsame])
  have h6 : w₅.step owner.request.deliveryId (.enter 2 "u") = some w₆ :=
    admit_returned (by simp [w₅, World.go]) hadmission
  have hrest : Trace.run (World.step owner.request.deliveryId) w₃
      [.settle 1, .call 2 other.request other.answer other.read] = some w₅ :=
    Trace.run_cons.mpr ⟨_, h4, Trace.run_cons.mpr ⟨_, h5, rfl⟩⟩
  refine ⟨_, .enter 2 "u", w₅, w₆, receipt, Trace.run_append.trans (Option.bind_eq_some_iff.mpr
    ⟨_, hrun, hrest⟩), h6, (by rintro ⟨⟩), ⟨_, rfl, hstored⟩, hdelivered, List.cons_ne_nil _ _, ?_⟩
  rw [List.append_assoc]
  refine (Trace.along_append hrun).mpr ⟨hharmless, (Trace.along_cons h4).mpr ⟨trivial,
    (Trace.along_cons h5).mpr ⟨trivial, (Trace.along_cons h6).mpr ⟨?_, trivial⟩⟩⟩⟩
  -- the row has its receipt
  rintro - - - _ hrow' hnone
  cases hrow'
  cases hstored.symm.trans hnone

/-! ## Samples -/

def sampleService : DeliveryService := ⟨"p", "s", fun t => toString t⟩

def sampleBinding : List (String × Json) :=
  [("gate", .str "g"), ("outcome", .str "o"), ("destination", sampleService.destination)]

/-- What the authority has to say, without its digest. -/
def sampleFields : List (String × Json) :=
  sampleBinding ++ [("authorization_version", Json.str deliveryAuthorizationVersion),
    ("project_id", Json.str "p"), ("authorization_status", Json.str "AUTHORIZED"), ("reason",
      Json.str "ok")]

def sampleAuthorization : List (String × Json) :=
  sampleFields ++ [("authorization_digest",
    Json.str (deliveryDigest (.obj (sampleFields ++ [("authorization_digest", .str "")]))))]

def sampleRequest : DeliveryRequest :=
  ⟨deliveryProtocol, deliveryIdentity sampleBinding, sampleBinding, some sampleAuthorization⟩

theorem sample_mismatched :
    sampleService.mismatched sampleBinding sampleAuthorization (.obj sampleAuthorization) =
      some false :=
  mismatched_of_items rfl rfl rfl rfl rfl rfl rfl ⟨rfl, rfl, rfl⟩

/-- The verdict of a call the authority allows. -/
def sampleVerdict : Verdict :=
  ⟨.str "AUTHORIZED", .str "ok", .obj sampleAuthorization, .obj sampleAuthorization,
    some (.str "outcome")⟩

theorem sample_verify : sampleService.verify sampleRequest (.answered (.obj sampleAuthorization))
    (.read (.str "outcome")) = .ok sampleVerdict := by
  have hauthorization : sampleRequest.gateAuthorization = some sampleAuthorization := rfl
  have hne : sampleAuthorization ≠ [] := List.cons_ne_nil _ _
  exact verify_of_asked rfl rfl rfl
    (askAuthority_allowed hauthorization hne sample_mismatched rfl rfl)

theorem outage_verify : sampleService.verify sampleRequest .unavailable .refused =
    .ok (.denied "GATE_UNAVAILABLE_OR_MALFORMED" (.obj []) (.obj [])) := by
  have hauthorization : sampleRequest.gateAuthorization = some sampleAuthorization := rfl
  have hne : sampleAuthorization ≠ [] := List.cons_ne_nil _ _
  exact verify_of_asked rfl rfl rfl (askAuthority_unavailable hauthorization hne)

/-- A call the authority allows. -/
def sampleCall : Verified sampleService := ⟨_, _, _, _, sample_verify⟩

/-- A call for which the authority cannot be reached. -/
def outageCall : Verified sampleService := ⟨_, _, _, _, outage_verify⟩

/-- The authority cannot be reached for a second call while the first has written the sink. -/
theorem delivery_denied_in_sink : ∃ acts w receipt, Trace.run (World.step sampleRequest.deliveryId)
        (World.start sampleService 0) acts = some w ∧ w.Stored receipt ∧
      receipt.deliveryStatus = .denied ∧ receipt.sideEffectState = .notStarted ∧ w.sink ≠ none ∧
      ∃ action w', w.step sampleRequest.deliveryId action = some w' ∧ ¬ w'.Stored receipt :=
  @denial_between _ sampleCall outageCall rfl rfl rfl

/-- One call goes through, and a second one is denied when the receipt is there. -/
theorem deliver_sound_sample : ∃ acts action w w' receipt,
    Trace.run (World.step sampleRequest.deliveryId) (World.start sampleService 0) acts = some w ∧
      w.step sampleRequest.deliveryId action = some w' ∧ w'.sink ≠ none ∧ w'.Stored receipt ∧
      receipt.deliveryStatus = .delivered ∧ w'.returned ≠ [] ∧ Sound w action w' := by
  obtain ⟨_, _, w, w', receipt, hrun, hstep, hsink, hstored, hdelivered, hreturned, hharmless⟩ :=
    @denial_after _ sampleCall outageCall rfl rfl rfl
  exact ⟨_, _, w, w', receipt, hrun, hstep, hsink, hstored, hdelivered, hreturned,
    deliver_sound 0 hrun hstep hharmless⟩

end Samples

end DeliveryService

end LocalAgent.Runtime
