import Mathlib.Data.Set.Finite.Lemmas
import Mathlib.Data.Set.Finite.List

/-!
# LocalAgent.Lib.FirstOfEach — one of each class, then the rest in order

`pick n l` takes the first element of each class of a sorted list and fills up in the order of the
list, `n` in all.  `pick_filter`: the first `n` of each class already decide it.
-/

namespace LocalAgent.FirstOfEach

variable {α β κ : Type} [LinearOrder β] [DecidableEq κ] (key : α → β) (cls : α → κ)

/-- How many elements of the list are of the class of `x` and before it. -/
def before (l : List α) (x : α) : ℕ :=
  l.countP fun y => cls y = cls x ∧ key y < key x

/-- The first element of each class that is not in `seen`, in order. -/
def firsts : List κ → List α → List α
  | _, [] => []
  | seen, x :: l => if cls x ∈ seen then firsts seen l else x :: firsts (cls x :: seen) l

/-- The first of each class, then the others, `n` in all. -/
def pick [DecidableEq α] (n : ℕ) (l : List α) : List α :=
  let picked := (firsts cls [] l).take n
  picked ++ (l.filter (· ∉ picked)).take (n - picked.length)

variable {key cls}

def Sorted (key : α → β) (l : List α) : Prop := l.Pairwise fun x y => key x < key y

theorem Sorted.nodup {l : List α} (hl : Sorted key l) : l.Nodup :=
  List.Pairwise.imp (fun h he => (congrArg key he).not_lt h) hl

theorem Sorted.filter {l : List α} (hl : Sorted key l) (p : α → Bool) : Sorted key (l.filter p) :=
  List.Pairwise.filter p hl

variable {x : α}

theorem Sorted.inj {l : List α} (hl : Sorted key l) {y : α} (hx : x ∈ l) (hy : y ∈ l)
    (h : key x = key y) : x = y := by
  induction l with
  | nil => cases hx
  | cons _ _ ih =>
    obtain ⟨hz, hl⟩ := List.pairwise_cons.mp hl
    rcases List.mem_cons.mp hx with rfl | hxl
    · rcases List.mem_cons.mp hy with rfl | hyl
      · rfl
      · exact absurd h (hz y hyl).ne
    · rcases List.mem_cons.mp hy with rfl | hyl
      · exact absurd h.symm (hz x hxl).ne
      · exact ih hl hxl hyl

theorem take_filter_of_all {l : List α} {p : α → Bool} {m : ℕ} (h : ∀ x ∈ l.take m, p x = true) :
    (l.filter p).take m = l.take m := by
  induction l generalizing m with
  | nil => simp
  | cons x _ ih =>
    cases m with
    | zero => simp
    | succ =>
      rw [List.take_succ_cons] at h ⊢
      rw [List.filter_cons_of_pos (h x List.mem_cons_self), List.take_succ_cons,
        ih fun y hy => h y (List.mem_cons_of_mem _ hy)]

/-- The first of each class are those with none of their class before them. -/
theorem firsts_eq_filter {l : List α} (hl : Sorted key l) (seen : List κ) :
    firsts cls seen l = l.filter fun x => cls x ∉ seen ∧ before key cls l x = 0 := by
  induction l generalizing seen with
  | nil => rfl
  | cons x l ih =>
    obtain ⟨hx, hl⟩ := List.pairwise_cons.mp hl
    have hhead : before key cls (x :: l) x = 0 := by
      refine List.countP_eq_zero.mpr fun y hy => ?_
      rcases List.mem_cons.mp hy with rfl | hy
      · simp
      · simp [not_lt.mpr (hx y hy).le]
    have htail : ∀ y ∈ l, before key cls (x :: l) y = 0 ↔
        cls x ≠ cls y ∧ before key cls l y = 0 := by
      intro y hy
      unfold before
      by_cases hc : cls x = cls y
      · simp [hc, hx y hy]
      · simp [hc]
    unfold firsts
    split_ifs with hs
    · rw [ih hl, List.filter_cons_of_neg (by simp [hs])]
      refine List.filter_congr fun y hy => ?_
      have hxy : cls y ∉ seen → cls x ≠ cls y := fun h he => h (he ▸ hs)
      simp only [decide_eq_decide, htail y hy]
      tauto
    · rw [ih hl, List.filter_cons_of_pos (by simp [hs, hhead])]
      refine congrArg (x :: ·) (List.filter_congr fun y hy => ?_)
      simp only [decide_eq_decide, htail y hy, List.mem_cons, not_or, eq_comm, ne_eq]
      tauto

theorem firsts_nil {l : List α} (hl : Sorted key l) :
    firsts cls [] l = l.filter fun x => before key cls l x = 0 := by
  simp [firsts_eq_filter hl]

variable (key cls) in
/-- Every class has an element with nothing of its class before it. -/
theorem exists_first (l : List α) (hx : x ∈ l) :
    ∃ y ∈ l, cls y = cls x ∧ key y ≤ key x ∧ before key cls l y = 0 := by
  obtain ⟨y, ⟨hy, hyx⟩, hmin⟩ := Set.exists_min_image {y | y ∈ l ∧ cls y = cls x} key
    ((List.finite_toSet l).subset fun _ h => h.1) ⟨x, hx, rfl⟩
  refine ⟨y, hy, hyx, hmin x ⟨hx, rfl⟩, List.countP_eq_zero.mpr fun z hz => ?_⟩
  simp only [decide_eq_true_eq, not_and, not_lt]
  exact fun hzy => hmin z ⟨hz, hzy.trans hyx⟩

/-- Cutting the later elements of a class leaves the first ones first. -/
theorem before_filter {l : List α} {n : ℕ} (hn : 0 < n) :
    before key cls (l.filter fun y => before key cls l y < n) x = 0 ↔ before key cls l x = 0 := by
  constructor
  · intro h
    by_contra hne
    obtain ⟨y, hy, hyx⟩ := List.countP_pos_iff.mp (Nat.pos_of_ne_zero hne)
    simp only [decide_eq_true_eq] at hyx
    obtain ⟨z, hz, hzc, hzk, hz0⟩ := exists_first key cls l hy
    refine List.countP_eq_zero.mp h z (List.mem_filter.mpr ⟨hz, by simpa [hz0] using hn⟩) ?_
    simp only [decide_eq_true_eq]
    exact ⟨hzc.trans hyx.1, hzk.trans_lt hyx.2⟩
  · intro h
    refine List.countP_eq_zero.mpr fun y hy => ?_
    exact List.countP_eq_zero.mp h y (List.mem_of_mem_filter hy)

/-- Fewer than `m` elements of a sorted list are before one of its first `m`. -/
theorem countP_lt_of_mem_take {l : List α} (hl : Sorted key l) {m : ℕ}
    (hx : x ∈ l.take m) : (l.countP fun y => key y < key x) < m := by
  have hsplit := List.take_append_drop m l
  have hrest : ((l.drop m).countP fun y => key y < key x) = 0 := by
    refine List.countP_eq_zero.mpr fun y hy => ?_
    rw [← hsplit] at hl
    simp [not_lt.mpr ((List.pairwise_append.mp hl).2.2 x hx y hy).le]
  have hpart : ((l.take m).countP fun y => key y < key x) < (l.take m).length := by
    refine lt_of_le_of_ne List.countP_le_length fun h => ?_
    exact absurd (List.countP_eq_length.mp h x hx) (by simp)
  rw [← hsplit, List.countP_append, hrest]
  have := List.length_take_le m l
  omega

variable [DecidableEq α] {n : ℕ} {l : List α}

/-- What fills up a pick has fewer than `n` of its class before it. -/
theorem before_lt_of_mem_fill (hl : Sorted key l)
    (hx : x ∈ (l.filter (· ∉ (firsts cls [] l).take n)).take
      (n - ((firsts cls [] l).take n).length)) : before key cls l x < n := by
  set firstOnes := firsts cls [] l with hfirst
  have hlong : firstOnes.length < n := by
    by_contra hge
    rw [List.length_take, min_eq_left (not_lt.mp hge), Nat.sub_self] at hx
    cases hx
  rw [List.take_of_length_le hlong.le] at hx
  set rest := l.filter (· ∉ firstOnes)
  have hxl : x ∈ l := List.mem_of_mem_filter (List.mem_of_mem_take hx)
  obtain ⟨y, hy, hyx, -, hy0⟩ := exists_first key cls l hxl
  -- of the elements before `x` in its class only the first one is not in the rest
  have hsub : (l.filter fun z => cls z = cls x ∧ key z < key x) ⊆
      y :: rest.filter fun z => key z < key x := by
    intro z hz
    obtain ⟨hz, hzx⟩ := List.mem_filter.mp hz
    simp only [decide_eq_true_eq] at hzx
    by_cases hzf : z ∈ firstOnes
    · rw [hfirst, firsts_nil hl] at hzf
      have hz0 := of_decide_eq_true (List.mem_filter.mp hzf).2
      have hyz := List.countP_eq_zero.mp hz0 y hy
      have hzy := List.countP_eq_zero.mp hy0 z hz
      simp only [decide_eq_true_eq, not_and, not_lt] at hyz hzy
      have heq := le_antisymm (hyz (hyx.trans hzx.1.symm)) (hzy (hzx.1.trans hyx.symm))
      rw [hl.inj hz hy heq]
      exact List.mem_cons_self
    · exact List.mem_cons_of_mem _
        (List.mem_filter.mpr ⟨List.mem_filter.mpr ⟨hz, by simpa using hzf⟩, by simpa using hzx.2⟩)
  have hcount := (List.Nodup.subperm (hl.nodup.filter _) hsub).length_le
  rw [← List.countP_eq_length_filter, List.length_cons, ← List.countP_eq_length_filter] at hcount
  have hrest : (rest.countP fun z => key z < key x) < n - firstOnes.length :=
    countP_lt_of_mem_take (hl.filter _) hx
  have hpos : 0 < firstOnes.length := by
    refine List.length_pos_of_mem (a := y) ?_
    rw [hfirst, firsts_nil hl]
    exact List.mem_filter.mpr ⟨hy, by simpa using hy0⟩
  show (l.countP fun z => cls z = cls x ∧ key z < key x) < n
  omega

/-- **Cutting each class to `n`.**  The pick of a sorted list only looks at the first `n` elements
of each class. -/
theorem pick_filter (hl : Sorted key l) (hn : 0 < n) :
    pick cls n (l.filter fun x => before key cls l x < n) = pick cls n l := by
  have hfirsts : firsts cls [] (l.filter fun x => before key cls l x < n) = firsts cls [] l := by
    rw [firsts_nil (hl.filter _), firsts_nil hl, List.filter_filter]
    refine List.filter_congr fun x _ => ?_
    simp only [before_filter hn, ← Bool.decide_and, decide_eq_decide]
    omega
  unfold pick
  simp only [hfirsts, List.filter_filter]
  refine congrArg _ ?_
  simp only [Bool.and_comm, ← List.filter_filter]
  exact take_filter_of_all fun x hx => decide_eq_true (before_lt_of_mem_fill hl hx)

/-! ## What a pick is -/

/-- The pick takes elements of the list, each once. -/
theorem pick_sublist_perm (hl : Sorted key l) : (pick cls n l).Nodup ∧ pick cls n l ⊆ l := by
  have hfirst : (firsts cls [] l).Sublist l := by
    rw [firsts_nil hl]
    exact List.filter_sublist
  unfold pick
  refine ⟨List.nodup_append.mpr ⟨hl.nodup.sublist ((List.take_sublist _ _).trans hfirst),
    hl.nodup.sublist ((List.take_sublist _ _).trans List.filter_sublist), ?_⟩, ?_⟩
  · intro x hx y hy heq
    have := (List.mem_filter.mp (List.mem_of_mem_take hy)).2
    simp [← heq, hx] at this
  · intro x hx
    rcases List.mem_append.mp hx with hx | hx
    · exact hfirst.subset (List.mem_of_mem_take hx)
    · exact List.mem_of_mem_filter (List.mem_of_mem_take hx)

/-- The pick is full, or it has the whole list. -/
theorem length_pick (hl : Sorted key l) : (pick cls n l).length = min n l.length := by
  have hsub : ((firsts cls [] l).take n).Sublist l := by
    rw [firsts_nil hl]
    exact (List.take_sublist _ _).trans List.filter_sublist
  have hin : (l.filter (· ∈ (firsts cls [] l).take n)).length = ((firsts cls [] l).take n).length := by
    refine (List.perm_of_nodup_nodup_toFinset_eq (hl.nodup.filter _) (hl.nodup.sublist hsub) ?_).length_eq
    ext x
    simp only [List.mem_toFinset, List.mem_filter, decide_eq_true_eq, and_iff_right_iff_imp]
    exact fun h => hsub.subset h
  have hsplit := List.length_eq_length_filter_add (l := l) (· ∈ (firsts cls [] l).take n)
  have hle : ((firsts cls [] l).take n).length ≤ n := List.length_take_le n _
  unfold pick
  simp only [List.length_append, List.length_take, decide_not] at *
  omega

/-- The first `n` classes, in the order of their first elements, are all picked. -/
theorem class_mem_pick {k : κ} (hk : k ∈ ((firsts cls [] l).map cls).take n) :
    ∃ x ∈ pick cls n l, cls x = k := by
  rw [← List.map_take] at hk
  obtain ⟨x, hx, rfl⟩ := List.mem_map.mp hk
  exact ⟨x, List.mem_append_left _ hx, rfl⟩

end LocalAgent.FirstOfEach
