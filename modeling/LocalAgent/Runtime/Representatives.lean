import LocalAgent.Lib.FirstOfEach
import Mathlib.Data.Prod.Lex
import Mathlib.Data.String.Basic

/-!
# LocalAgent.Runtime.Representatives — `core/stage13/aggregation.py`, `choose_representatives`

The representatives of an incident, and the query of `_refresh_draft` that offers only the first
eight members of each channel.

* `choose_eq`: the two loops are a `FirstOfEach.pick` of the sorted members.
* `representatives_sound`: the query leaves the choice as it is.
-/

namespace LocalAgent.Runtime

/-- What the choice reads of a row. -/
structure MembershipRow where
  versionId : String
  caseId : String
  environment : String
  channel : String
  ordinal : ℤ
  deriving DecidableEq

namespace MembershipRow

/-- The primary key. -/
def id (m : MembershipRow) : String × String := (m.versionId, m.caseId)

/-- The `order_by` of the window query. -/
abbrev windowKey (m : MembershipRow) : String ×ₗ ℤ ×ₗ String ×ₗ String :=
  toLex (m.environment, toLex (m.ordinal, toLex (m.caseId, m.versionId)))

/-- The key both `sorted` calls use. -/
abbrev sortKey (m : MembershipRow) : String ×ₗ String ×ₗ ℤ ×ₗ String ×ₗ String :=
  toLex (m.channel, m.windowKey)

end MembershipRow

open MembershipRow FirstOfEach

/-- `sorted(members, key=...)`. -/
def sortMembers (members : List MembershipRow) : List MembershipRow :=
  members.insertionSort fun m m' => m.sortKey ≤ m'.sortKey

def firstLoop (limit : ℕ) : List MembershipRow → List MembershipRow → List String → List MembershipRow
  | [], selected, _ => selected
  | item :: rest, selected, channels =>
    let (selected, channels) :=
      if item.channel ∈ channels then (selected, channels)
      else (selected ++ [item], item.channel :: channels)
    if selected.length = limit then selected else firstLoop limit rest selected channels

def secondLoop (limit : ℕ) : List MembershipRow → List MembershipRow → List MembershipRow
  | [], selected => selected
  | item :: rest, selected =>
    if selected.length = limit then selected
    else if item.id ∉ selected.map MembershipRow.id then
      secondLoop limit rest (selected ++ [item])
    else secondLoop limit rest selected

def chooseRepresentatives (members : List MembershipRow) (limit : ℕ) : List MembershipRow :=
  let ordered := sortMembers members
  sortMembers (secondLoop limit ordered (firstLoop limit ordered [] []))

/-- `row_number()` over the members of a channel. -/
def rowNumber (members : List MembershipRow) (m : MembershipRow) : ℕ :=
  (members.countP fun other => other.channel = m.channel ∧ other.windowKey < m.windowKey) + 1

/-- What the query of `_refresh_draft` may answer: its rows, in any order. -/
def Candidates (members candidates : List MembershipRow) : Prop :=
  candidates.Perm (members.filter fun m => rowNumber members m ≤ 8)
  deriving Decidable

def channelsOf (members : List MembershipRow) : List String :=
  (members.map MembershipRow.channel).dedup.insertionSort (· ≤ ·)

/-! ## The order -/

theorem sortKey_injective {m m' : MembershipRow} (h : m.sortKey = m'.sortKey) : m = m' := by
  simp only [sortKey, windowKey, toLex_inj, Prod.mk.injEq] at h
  obtain ⟨hchannel, henvironment, hordinal, hcase, hversion⟩ := h
  cases m
  cases m'
  simp_all

theorem sortMembers_perm (members : List MembershipRow) : (sortMembers members).Perm members :=
  List.perm_insertionSort _ _

variable {members : List MembershipRow} {limit : ℕ}

theorem sortMembers_sorted (h : members.Nodup) : Sorted sortKey (sortMembers members) := by
  have hle := List.pairwise_insertionSort (fun m m' : MembershipRow => m.sortKey ≤ m'.sortKey) members
  have hne := (sortMembers_perm members).nodup_iff.mpr h
  exact (List.Pairwise.and hle hne).imp fun h => lt_of_le_of_ne h.1 fun he => h.2 (sortKey_injective he)

theorem eq_of_sorted {l l' : List MembershipRow} (hl : Sorted sortKey l) (hl' : Sorted sortKey l')
    (h : l.Perm l') : l = l' :=
  h.eq_of_pairwise (fun _ _ _ _ hlt hlt' => absurd hlt hlt'.not_gt) hl hl'

/-- A row's number is one more than the rows of its channel before it. -/
theorem rowNumber_eq {l : List MembershipRow} (h : l.Perm members) (m : MembershipRow) :
    rowNumber members m = before sortKey channel l m + 1 := by
  unfold rowNumber before
  rw [h.countP_eq]
  refine congrArg (· + 1) (List.countP_congr fun other _ => ?_)
  simp only [decide_eq_true_eq, Prod.Lex.toLex_lt_toLex]
  constructor
  · exact fun h => ⟨h.1, .inr h⟩
  · rintro ⟨hchannel, hlt | hlt⟩
    · exact absurd hchannel hlt.ne
    · exact hlt

/-! ## The loops -/

/-- The first loop takes the first member of each channel that is new. -/
theorem firstLoop_eq (l selected : List MembershipRow) (channels : List String)
    (hroom : selected.length < limit) : firstLoop limit l selected channels =
      selected ++ (firsts channel channels l).take (limit - selected.length) := by
  induction l generalizing selected channels with
  | nil => simp [firstLoop, firsts]
  | cons item _ ih =>
    unfold firstLoop firsts
    by_cases hseen : item.channel ∈ channels
    · simp only [if_pos hseen, if_neg hroom.ne]
      exact ih selected channels hroom
    · simp only [if_neg hseen, List.length_append, List.length_singleton]
      obtain ⟨room, hleft⟩ := Nat.exists_eq_add_of_lt hroom
      have htake : limit - selected.length = room + 1 := by omega
      rw [htake, List.take_succ_cons]
      by_cases hfull : selected.length + 1 = limit
      · have : room = 0 := by omega
        simp [if_pos hfull, this]
      · rw [if_neg hfull, ih _ _ (by simp; omega)]
        have : limit - (selected ++ [item]).length = room := by simp; omega
        rw [this, List.append_assoc, List.singleton_append]

/-- The second loop fills up with the members in order. -/
theorem secondLoop_eq (l selected : List MembershipRow)
    (hl : (l.map MembershipRow.id).Nodup) (hroom : selected.length ≤ limit) :
    secondLoop limit l selected = selected ++
      (l.filter fun m => m.id ∉ selected.map MembershipRow.id).take (limit - selected.length) := by
  induction l generalizing selected with
  | nil => simp [secondLoop]
  | cons item rest ih =>
    obtain ⟨hitem, hrest⟩ := List.nodup_cons.mp hl
    unfold secondLoop
    by_cases hfull : selected.length = limit
    · simp [hfull]
    by_cases hin : item.id ∈ selected.map MembershipRow.id
    · rw [if_neg hfull, if_neg (not_not.mpr hin), ih selected hrest hroom,
        List.filter_cons_of_neg (by simpa using hin)]
    · rw [if_neg hfull, if_pos hin, ih _ hrest (by simp; omega),
        List.filter_cons_of_pos (by simpa using hin)]
      have htake : limit - selected.length = limit - (selected ++ [item]).length + 1 := by
        simp
        omega
      rw [htake, List.take_succ_cons, List.append_assoc, List.singleton_append]
      -- the later members are not the one that was just selected
      have hsame : (rest.filter fun m => m.id ∉ (selected ++ [item]).map MembershipRow.id) =
          rest.filter fun m => m.id ∉ selected.map MembershipRow.id := by
        refine List.filter_congr fun m hm => ?_
        have hne : m.id ≠ item.id := fun he => hitem (he ▸ List.mem_map_of_mem hm)
        simp [hne]
      rw [hsame]

/-- The representatives are the picked members, in the order of the list. -/
theorem choose_eq (hids : (members.map MembershipRow.id).Nodup)
    (hlimit : 0 < limit) : chooseRepresentatives members limit =
      sortMembers (pick channel limit (sortMembers members)) := by
  have hperm := sortMembers_perm members
  have hsorted := ((hperm.map MembershipRow.id).nodup_iff).mpr hids
  unfold chooseRepresentatives pick
  simp only
  rw [firstLoop_eq _ _ _ hlimit, List.nil_append, List.length_nil, Nat.sub_zero,
    secondLoop_eq _ _ hsorted (List.length_take_le _ _)]
  have hsub : (firsts channel [] (sortMembers members)).take limit ⊆ sortMembers members := by
    rw [firsts_nil (sortMembers_sorted (hids.of_map))]
    exact fun m hm => List.mem_of_mem_filter (List.mem_of_mem_take hm)
  set picked := (firsts channel [] (sortMembers members)).take limit
  refine congrArg (fun rest => sortMembers (picked ++ List.take (limit - picked.length) rest)) ?_
  refine List.filter_congr fun m hm => ?_
  simp only [decide_eq_decide, not_iff_not]
  refine ⟨fun h => ?_, List.mem_map_of_mem⟩
  obtain ⟨_, hother, he⟩ := List.mem_map.mp h
  rwa [List.inj_on_of_nodup_map hsorted (hsub hother) hm he] at hother

/-- The firsts have each channel once. -/
theorem map_firsts (h : members.Nodup) :
    (firsts channel [] (sortMembers members)).map channel = channelsOf members := by
  have hl := sortMembers_sorted h
  rw [firsts_nil hl]
  have hlt : (((sortMembers members).filter fun m =>
      before sortKey channel (sortMembers members) m = 0).map channel).Pairwise (· < ·) := by
    refine List.pairwise_map.mpr ?_
    refine List.Pairwise.imp_of_mem (fun {m m'} hm hm' hlt => ?_) (hl.filter _)
    rcases Prod.Lex.toLex_lt_toLex.mp hlt with hchannel | ⟨hchannel, -⟩
    · exact hchannel
    · have h0 := of_decide_eq_true (List.mem_filter.mp hm').2
      have := List.countP_eq_zero.mp h0 m (List.mem_of_mem_filter hm)
      simp only [decide_eq_true_eq, not_and] at this
      exact absurd hlt (this hchannel)
  have hsorted : (channelsOf members).Pairwise (· ≤ ·) := List.pairwise_insertionSort _ _
  refine List.Perm.eq_of_pairwise (fun _ _ _ _ => le_antisymm) (hlt.imp le_of_lt) hsorted ?_
  refine (List.perm_ext_iff_of_nodup (hlt.imp ne_of_lt)
    ((List.perm_insertionSort _ _).nodup_iff.mpr (List.nodup_dedup _))).mpr fun c => ?_
  rw [(List.perm_insertionSort _ _).mem_iff, List.mem_dedup]
  constructor
  · intro hc
    obtain ⟨m, hm, rfl⟩ := List.mem_map.mp hc
    exact List.mem_map_of_mem ((sortMembers_perm members).mem_iff.mp (List.mem_of_mem_filter hm))
  · intro hc
    obtain ⟨m, hm, rfl⟩ := List.mem_map.mp hc
    obtain ⟨y, hy, hyc, -, hy0⟩ := exists_first sortKey channel _
      ((sortMembers_perm members).mem_iff.mpr hm)
    exact List.mem_map.mpr ⟨y, List.mem_filter.mpr ⟨hy, by simpa using hy0⟩, hyc⟩

/-- **The pre-selection.**  Eight candidates of each channel are enough: the choice is the same, has
`min 8` distinct members and one of each of the first eight channels. -/
theorem representatives_sound (members candidates : List MembershipRow)
    (hids : (members.map MembershipRow.id).Nodup) (hquery : Candidates members candidates) :
    chooseRepresentatives candidates 8 = chooseRepresentatives members 8 ∧
    (chooseRepresentatives members 8).length = min 8 members.length ∧
    ((chooseRepresentatives members 8).map MembershipRow.id).Nodup ∧
    chooseRepresentatives members 8 ⊆ members ∧
    ∀ c ∈ (channelsOf members).take 8, ∃ m ∈ chooseRepresentatives members 8, m.channel = c := by
  have hnodup : members.Nodup := hids.of_map
  have hl := sortMembers_sorted hnodup
  have hperm := sortMembers_perm members
  have hpick := choose_eq hids (show 0 < 8 by decide)
  obtain ⟨hchosen, hsub⟩ : (pick channel 8 (sortMembers members)).Nodup ∧ _ :=
    pick_sublist_perm hl
  have hback := sortMembers_perm (pick channel 8 (sortMembers members))
  have hmem : chooseRepresentatives members 8 ⊆ members := by
    rw [hpick]
    exact fun m hm => hperm.mem_iff.mp (hsub (hback.mem_iff.mp hm))
  refine ⟨?_, ?_, ?_, hmem, fun c hc => ?_⟩
  · -- the sorted candidates are the sorted members, cut
    have hcids : (candidates.map MembershipRow.id).Nodup :=
      (hquery.map _).nodup_iff.mpr (hids.sublist (List.filter_sublist.map _))
    have hcut : sortMembers candidates =
        (sortMembers members).filter fun m => before sortKey channel (sortMembers members) m < 8 := by
      refine eq_of_sorted (sortMembers_sorted hcids.of_map) (hl.filter _) ?_
      refine (sortMembers_perm candidates).trans (hquery.trans ?_)
      refine (hperm.symm.filter _).trans (List.Perm.of_eq (List.filter_congr fun m _ => ?_))
      simp only [rowNumber_eq hperm, decide_eq_decide]
      omega
    rw [hpick, choose_eq hcids (by decide), hcut, pick_filter hl (by decide)]
  · rw [hpick, hback.length_eq, length_pick hl, hperm.length_eq]
  · have hd : (chooseRepresentatives members 8).Nodup := by
      rw [hpick]
      exact hback.nodup_iff.mpr hchosen
    exact hd.map_on fun m hm m' hm' he => List.inj_on_of_nodup_map hids (hmem hm) (hmem hm') he
  · rw [← map_firsts hnodup] at hc
    obtain ⟨m, hm, hmc⟩ := class_mem_pick hc
    exact ⟨m, by rw [hpick]; exact hback.mem_iff.mpr hm, hmc⟩

/-- Ten members of one channel and one of another. -/
def sampleMembers : List MembershipRow :=
  (List.range 10).map (fun n => ⟨"v", toString n, "e", "w", n⟩) ++ [⟨"v", "b", "e", "x", 1⟩]

/-- The query leaves two of the ten out, and eight of the eleven are chosen. -/
theorem representatives_sound_two :
    chooseRepresentatives ((sampleMembers.eraseIdx 8).eraseIdx 8).reverse 8 =
        chooseRepresentatives sampleMembers 8 ∧
      (chooseRepresentatives sampleMembers 8).length = 8 ∧
      ∃ m ∈ chooseRepresentatives sampleMembers 8, m.channel = "x" := by
  obtain ⟨hsame, hlength, -, -, hchannels⟩ := representatives_sound sampleMembers
    ((sampleMembers.eraseIdx 8).eraseIdx 8).reverse (by decide +kernel) (by decide +kernel)
  exact ⟨hsame, hlength, hchannels "x" (by decide +kernel)⟩

end LocalAgent.Runtime
