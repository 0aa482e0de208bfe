import LocalAgent.Lib.Text
import Mathlib.Algebra.Order.Ring.Int
import Mathlib.Data.List.Chain
import Mathlib.Tactic.NormNum.Basic

/-!
# LocalAgent.Runtime.TextWindows — `_split_text_windows` of `core/knowledge_base/document_loader.py`

The windows of one section.  A window ends at the last preferred boundary of its second half, or at
its full size, and the next one starts `chunk_overlap` characters before that end, at least one
character later.  A text is the list of its characters, a position an index.

* `rfind_cases`, `lastBoundary_cases`: the last occurrence of a mark, and of any mark.
* `windowEnd_spec`: where a window ends.
* `windowsFrom_chain`: what holds between consecutive windows.
* `windows_cover`: no text is lost.
* `windows_ends_iff`: when the ends of the windows increase.
-/

namespace LocalAgent.Runtime

namespace DocumentLoader

/-- `sub` stands at position `p` of the text and ends by `stop`. -/
def OccursAt (text sub : List Char) (stop p : ℕ) : Prop :=
  p + sub.length ≤ stop ∧ (text.drop p).take sub.length = sub
  deriving Decidable

/-- `text.rfind(sub, start, stop)`, searched from the right. -/
def rfind (text sub : List Char) (start stop : ℕ) : ℤ :=
  match (List.range stop).reverse.find? fun p => start ≤ p ∧ OccursAt text sub stop p with
  | some p => p
  | none => -1

/-- The preferred boundaries. -/
def marks : List (List Char) := ["\n\n".toList, "\n".toList, "。".toList, ". ".toList]

/-- `max(candidates)`. -/
def lastBoundary (text : List Char) (start stop : ℕ) : ℤ :=
  (marks.map fun mark => rfind text mark start stop).foldl max (-1)

/-- `max(1, chunk_size // 2)`. -/
def half (chunkSize : ℕ) : ℕ := max 1 (chunkSize / 2)

/-- The end of the window that starts at `start`. -/
def windowEnd (text : List Char) (chunkSize start : ℕ) : ℕ :=
  let hardEnd := min text.length (start + chunkSize)
  let stop :=
    if hardEnd < text.length then
      let boundary := lastBoundary text (start + half chunkSize) hardEnd
      if ((start + half chunkSize : ℕ) : ℤ) ≤ boundary then (boundary + 1).toNat else hardEnd
    else hardEnd
  if stop ≤ start then hardEnd else stop

/-- Where the next window starts. -/
def nextStart (chunkOverlap start stop : ℕ) : ℕ := max (start + 1) (stop - chunkOverlap)

/-- The windows `_split_text_windows` considers, from `start` on: every turn moves `start`, so fuel
as long as the text never runs out. -/
def windowsFrom (text : List Char) (chunkSize chunkOverlap : ℕ) : ℕ → ℕ → List (ℕ × ℕ)
  | 0, _ => []
  | fuel + 1, start =>
    if start < text.length then
      let stop := windowEnd text chunkSize start
      (start, stop) ::
        if text.length ≤ stop then []
        else windowsFrom text chunkSize chunkOverlap fuel (nextStart chunkOverlap start stop)
    else []

/-- The windows of a text. -/
def windows (text : List Char) (chunkSize chunkOverlap : ℕ) : List (ℕ × ℕ) :=
  windowsFrom text chunkSize chunkOverlap text.length 0

/-! ## Boundaries -/

section Boundaries

variable {text sub : List Char} {start stop : ℕ}

/-- The search finds the last occurrence that ends within its bounds, if any. -/
theorem rfind_cases (text sub : List Char) (start stop : ℕ) (hsub : sub ≠ []) :
    (rfind text sub start stop = -1 ∧ ∀ p, start ≤ p → ¬ OccursAt text sub stop p) ∨
    ∃ p : ℕ, rfind text sub start stop = p ∧ start ≤ p ∧ OccursAt text sub stop p ∧
      ∀ q, start ≤ q → OccursAt text sub stop q → q ≤ p := by
  have hlt : ∀ q, OccursAt text sub stop q → q < stop := by
    intro q hq
    have hpos := List.length_pos_of_ne_nil hsub
    have hle := hq.1
    omega
  unfold rfind
  cases hfind : (List.range stop).reverse.find? fun p => start ≤ p ∧ OccursAt text sub stop p with
  | none =>
    refine Or.inl ⟨rfl, fun p hstart hocc => ?_⟩
    have hnone := List.find?_eq_none.mp hfind p (by simpa using hlt p hocc)
    exact hnone (decide_eq_true ⟨hstart, hocc⟩)
  | some p =>
    obtain ⟨hp, _, _, hsplit, hbefore⟩ := List.find?_eq_some_iff_append.mp hfind
    obtain ⟨hstart, hocc⟩ := of_decide_eq_true hp
    refine Or.inr ⟨p, rfl, hstart, hocc, fun q hq hoccq => ?_⟩
    have hmem : q ∈ (List.range stop).reverse := by simpa using hlt q hoccq
    have hsorted : (List.range stop).reverse.Pairwise (· > ·) :=
      List.pairwise_reverse.mpr List.pairwise_lt_range
    rw [hsplit] at hmem hsorted
    rcases List.mem_append.mp hmem with hm | hm
    · have hnot := hbefore q hm
      rw [decide_eq_true ⟨hq, hoccq⟩] at hnot
      exact nomatch hnot
    · rcases List.mem_cons.mp hm with rfl | hm
      · exact le_rfl
      · have hgt := (List.pairwise_cons.mp (List.pairwise_append.mp hsorted).2.1).1 q hm
        exact le_of_lt hgt

/-- A preferred boundary stands at `p` and ends by `stop`. -/
def IsBoundary (text : List Char) (stop p : ℕ) : Prop := ∃ mark ∈ marks, OccursAt text mark stop p

theorem IsBoundary.lt {p : ℕ} (h : IsBoundary text stop p) : p < stop := by
  obtain ⟨mark, hmark, hocc⟩ := h
  have hpos : 0 < mark.length := by
    have hall : ∀ m ∈ marks, 0 < m.length := by decide
    exact hall mark hmark
  have hle := hocc.1
  omega

theorem foldl_max_cases (values : List ℤ) (init : ℤ) :
    (values.foldl max init = init ∨ values.foldl max init ∈ values) ∧
      init ≤ values.foldl max init ∧ ∀ v ∈ values, v ≤ values.foldl max init := by
  induction values generalizing init with
  | nil => exact ⟨Or.inl rfl, le_rfl, nofun⟩
  | cons value _ ih =>
    obtain ⟨hcases, hinit, hall⟩ := ih (max init value)
    rw [List.foldl_cons]
    refine ⟨?_, (le_max_left _ _).trans hinit, fun v hv => ?_⟩
    · rcases hcases with heq | hmem
      · rw [heq]
        rcases max_choice init value with h | h
        · exact Or.inl h
        · right
          rw [h]
          exact List.mem_cons_self
      · exact Or.inr (List.mem_cons_of_mem _ hmem)
    · rcases List.mem_cons.mp hv with rfl | hv
      · exact (le_max_right _ _).trans hinit
      · exact hall v hv

/-- The last boundary of a window, if it has one. -/
theorem lastBoundary_cases (text : List Char) (start stop : ℕ) :
    (lastBoundary text start stop = -1 ∧ ∀ p, start ≤ p → ¬ IsBoundary text stop p) ∨
    ∃ p : ℕ, lastBoundary text start stop = p ∧ start ≤ p ∧ IsBoundary text stop p ∧
      ∀ q, start ≤ q → IsBoundary text stop q → q ≤ p := by
  have hne : ∀ mark ∈ marks, mark ≠ [] := by decide
  obtain ⟨hcases, -, hall⟩ := foldl_max_cases
    (marks.map fun mark => rfind text mark start stop) (-1)
  have hle : ∀ q, start ≤ q → IsBoundary text stop q → (q : ℤ) ≤ lastBoundary text start stop := by
    rintro q hq ⟨mark, hmark, hocc⟩
    have hv := hall _ (List.mem_map.mpr ⟨mark, hmark, rfl⟩)
    rcases rfind_cases text mark start stop (hne mark hmark) with ⟨-, hno⟩ | ⟨p, hp, -, -, hmax⟩
    · exact absurd hocc (hno q hq)
    · rw [hp] at hv
      have hqp := hmax q hq hocc
      exact le_trans (by exact_mod_cast hqp) hv
  rcases hcases with heq | hmem
  · refine Or.inl ⟨heq, fun p hp hb => ?_⟩
    have hp' := hle p hp hb
    rw [lastBoundary, heq] at hp'
    omega
  · obtain ⟨mark, hmark, hvalue⟩ := List.mem_map.mp hmem
    have hlast : lastBoundary text start stop = rfind text mark start stop := hvalue.symm
    rcases rfind_cases text mark start stop (hne mark hmark) with ⟨hnone, -⟩ | ⟨p, hp, hsp, hocc, -⟩
    · rw [hnone] at hlast
      refine Or.inl ⟨hlast, fun p hp hb => ?_⟩
      have hp' := hle p hp hb
      rw [hlast] at hp'
      omega
    · rw [hp] at hlast
      refine Or.inr ⟨p, hlast, hsp, ⟨mark, hmark, hocc⟩, fun q hq hb => ?_⟩
      have hq' := hle q hq hb
      rw [hlast] at hq'
      exact_mod_cast hq'

end Boundaries

/-! ## One window -/

section Window

variable {text : List Char} {chunkSize chunkOverlap start : ℕ}

theorem half_pos (chunkSize : ℕ) : 0 < half chunkSize :=
  lt_of_lt_of_le Nat.one_pos (le_max_left _ _)

/-- A window ends with the text, at its size, or after its last boundary past the half. -/
theorem windowEnd_spec (hsize : 0 < chunkSize) (hstart : start < text.length) :
    (text.length ≤ start + chunkSize ∧ windowEnd text chunkSize start = text.length) ∨
    (start + chunkSize < text.length ∧
      (∀ p, start + half chunkSize ≤ p → ¬ IsBoundary text (start + chunkSize) p) ∧
      windowEnd text chunkSize start = start + chunkSize) ∨
    (start + chunkSize < text.length ∧ ∃ p, start + half chunkSize ≤ p ∧
      IsBoundary text (start + chunkSize) p ∧
      (∀ q, start + half chunkSize ≤ q → IsBoundary text (start + chunkSize) q → q ≤ p) ∧
      windowEnd text chunkSize start = p + 1) := by
  have hhalf := half_pos chunkSize
  unfold windowEnd
  by_cases hend : text.length ≤ start + chunkSize
  · left
    rw [min_eq_left hend]
    simp only [lt_irrefl, if_false]
    rw [if_neg (Nat.not_le.mpr hstart)]
    exact ⟨hend, rfl⟩
  · right
    have hlt : start + chunkSize < text.length := not_le.mp hend
    rw [min_eq_right hlt.le]
    simp only [hlt, if_true]
    rcases lastBoundary_cases text (start + half chunkSize) (start + chunkSize) with
      ⟨hnone, hno⟩ | ⟨p, hp, hsp, hb, hmax⟩
    · left
      have hneg : ¬ ((start + half chunkSize : ℕ) : ℤ) ≤ -1 := by omega
      rw [hnone, if_neg hneg, if_neg (by omega)]
      exact ⟨trivial, hno, rfl⟩
    · right
      have hpos : ((start + half chunkSize : ℕ) : ℤ) ≤ (p : ℤ) := by exact_mod_cast hsp
      have hnat : ((p : ℤ) + 1).toNat = p + 1 := by omega
      rw [hp, if_pos hpos, hnat, if_neg (by omega)]
      exact ⟨trivial, p, hsp, hb, hmax, rfl⟩

/-- A window is not empty and within its size. -/
theorem windowEnd_bounds (hsize : 0 < chunkSize) (hstart : start < text.length) :
    start < windowEnd text chunkSize start ∧ windowEnd text chunkSize start ≤ text.length ∧
      windowEnd text chunkSize start ≤ start + chunkSize := by
  rcases windowEnd_spec hsize hstart with ⟨hle, heq⟩ | ⟨hlt, -, heq⟩ | ⟨hlt, p, hsp, hb, -, heq⟩
  · rw [heq]
    exact ⟨hstart, le_rfl, hle⟩
  · rw [heq]
    exact ⟨by omega, hlt.le, le_rfl⟩
  · have hp := hb.lt
    rw [heq]
    exact ⟨by omega, by omega, by omega⟩

/-- The window after `(start, stop)` finds its last preferred boundary before `stop`. -/
def Stalls (text : List Char) (chunkSize chunkOverlap start stop : ℕ) : Prop :=
  nextStart chunkOverlap start stop + chunkSize < text.length ∧
    (∃ p, nextStart chunkOverlap start stop + half chunkSize ≤ p ∧
      IsBoundary text (nextStart chunkOverlap start stop + chunkSize) p) ∧
    ∀ p, nextStart chunkOverlap start stop + half chunkSize ≤ p →
      IsBoundary text (nextStart chunkOverlap start stop + chunkSize) p → p < stop

/-- The end moves on, unless the next window stalls. -/
theorem windowEnd_next_le_iff (hsize : 0 < chunkSize) (hoverlap : chunkOverlap < chunkSize)
    {stop : ℕ} (hstop : start < stop) (hrest : stop < text.length) :
    windowEnd text chunkSize (nextStart chunkOverlap start stop) ≤ stop ↔
      Stalls text chunkSize chunkOverlap start stop := by
  have hnext : nextStart chunkOverlap start stop ≤ stop := by
    unfold nextStart
    omega
  have hfar : stop < nextStart chunkOverlap start stop + chunkSize := by
    unfold nextStart
    omega
  unfold Stalls
  rcases windowEnd_spec hsize (lt_of_le_of_lt hnext hrest) with
    ⟨hle, heq⟩ | ⟨hlt, hno, heq⟩ | ⟨hlt, p, hsp, hb, hmax, heq⟩
  · rw [heq]
    constructor
    · intro h
      omega
    · rintro ⟨h, -⟩
      omega
  · rw [heq]
    constructor
    · intro h
      omega
    · rintro ⟨-, ⟨p, hp, hb⟩, -⟩
      exact absurd hb (hno p hp)
  · rw [heq]
    constructor
    · intro h
      refine ⟨hlt, ⟨p, hsp, hb⟩, fun q hq hbq => ?_⟩
      have hqp := hmax q hq hbq
      omega
    · rintro ⟨-, -, hall⟩
      have hps := hall p hsp hb
      omega

theorem not_stalls_of_le (hhalf : chunkOverlap ≤ half chunkSize) {stop : ℕ} :
    ¬ Stalls text chunkSize chunkOverlap start stop := by
  rintro ⟨-, ⟨p, hp, hb⟩, hall⟩
  have hlt := hall p hp hb
  unfold nextStart at hp
  omega

end Window

/-! ## All windows -/

section Windows

variable {text : List Char} {chunkSize chunkOverlap : ℕ}

/-- What holds between a window and the next one. -/
structure Follows (text : List Char) (chunkSize chunkOverlap : ℕ) (w w' : ℕ × ℕ) : Prop where
  more : w.2 < text.length
  start : w'.1 = nextStart chunkOverlap w.1 w.2
  stop : w'.2 = windowEnd text chunkSize w'.1

/-- A window that was considered. -/
structure IsWindow (text : List Char) (chunkSize : ℕ) (w : ℕ × ℕ) : Prop where
  start : w.1 < text.length
  stop : w.2 = windowEnd text chunkSize w.1

variable {fuel : ℕ}

theorem windowsFrom_succ {start : ℕ} (hstart : start < text.length) :
    windowsFrom text chunkSize chunkOverlap (fuel + 1) start =
      (start, windowEnd text chunkSize start) ::
        if text.length ≤ windowEnd text chunkSize start then []
        else windowsFrom text chunkSize chunkOverlap fuel
          (nextStart chunkOverlap start (windowEnd text chunkSize start)) := by
  rw [windowsFrom, if_pos hstart]

theorem windowsFrom_of_le {start : ℕ} (h : text.length ≤ start) :
    windowsFrom text chunkSize chunkOverlap fuel start = [] := by
  cases fuel with
  | zero => rfl
  | succ => rw [windowsFrom, if_neg (Nat.not_lt.mpr h)]

theorem windowsFrom_head {start : ℕ} {w : ℕ × ℕ}
    (h : (windowsFrom text chunkSize chunkOverlap fuel start).head? = some w) :
    w = (start, windowEnd text chunkSize start) ∧ start < text.length := by
  cases fuel with
  | zero => cases h
  | succ =>
    by_cases hstart : start < text.length
    · rw [windowsFrom_succ hstart] at h
      exact ⟨(Option.some.inj h).symm, hstart⟩
    · rw [windowsFrom_of_le (Nat.not_lt.mp hstart)] at h
      exact nomatch h

theorem nextStart_gt (chunkOverlap start stop : ℕ) : start < nextStart chunkOverlap start stop :=
  lt_of_lt_of_le (Nat.lt_succ_self start) (le_max_left _ _)

theorem nextStart_le {start stop : ℕ} (h : start < stop) :
    nextStart chunkOverlap start stop ≤ stop := by
  unfold nextStart
  omega

/-- Consecutive windows follow each other, and all of them are windows of the text. -/
theorem windowsFrom_chain (fuel start : ℕ) :
    (windowsFrom text chunkSize chunkOverlap fuel start).IsChain
        (Follows text chunkSize chunkOverlap) ∧
      ∀ w ∈ windowsFrom text chunkSize chunkOverlap fuel start,
        IsWindow text chunkSize w ∧ start ≤ w.1 := by
  induction fuel generalizing start with
  | zero => exact ⟨List.isChain_nil, nofun⟩
  | succ _ ih =>
    by_cases hstart : start < text.length
    · rw [windowsFrom_succ hstart]
      split_ifs with hend
      · refine ⟨List.isChain_singleton _, fun w hw => ?_⟩
        rw [List.mem_singleton] at hw
        rw [hw]
        exact ⟨⟨hstart, rfl⟩, le_rfl⟩
      · obtain ⟨hchain, hall⟩ := ih (nextStart chunkOverlap start (windowEnd text chunkSize start))
        refine ⟨List.isChain_cons.mpr ⟨fun w hw => ?_, hchain⟩, fun w hw => ?_⟩
        · obtain ⟨rfl, -⟩ := windowsFrom_head hw
          exact ⟨not_le.mp hend, rfl, rfl⟩
        · rcases List.mem_cons.mp hw with rfl | hw
          · exact ⟨⟨hstart, rfl⟩, le_rfl⟩
          · obtain ⟨hwindow, hle⟩ := hall w hw
            exact ⟨hwindow, (nextStart_gt _ _ _).le.trans hle⟩
    · rw [windowsFrom_of_le (Nat.not_lt.mp hstart)]
      exact ⟨List.isChain_nil, nofun⟩

/-- Every position is in a window. -/
theorem windowsFrom_cover (hsize : 0 < chunkSize) {start : ℕ} (hfuel : text.length ≤ fuel + start)
    {p : ℕ} (hstart : start ≤ p) (hp : p < text.length) :
    ∃ w ∈ windowsFrom text chunkSize chunkOverlap fuel start, w.1 ≤ p ∧ p < w.2 := by
  induction fuel generalizing start with
  | zero => omega
  | succ fuel ih =>
    have hlt : start < text.length := hstart.trans_lt hp
    rw [windowsFrom_succ hlt]
    by_cases hin : p < windowEnd text chunkSize start
    · exact ⟨_, List.mem_cons_self, hstart, hin⟩
    have hgt := nextStart_gt chunkOverlap start (windowEnd text chunkSize start)
    have hle : nextStart chunkOverlap start (windowEnd text chunkSize start) ≤ p :=
      (nextStart_le (windowEnd_bounds hsize hlt).1).trans (not_lt.mp hin)
    obtain ⟨w, hw, hcover⟩ := ih (by omega) hle
    rw [if_neg (by omega)]
    exact ⟨w, List.mem_cons_of_mem _ hw, hcover⟩

/-- **No text is lost.**  Whatever the overlap, every character of a text lies in a window, and a
window has between one and `chunk_size` characters. -/
theorem windows_cover (text : List Char) {chunkSize : ℕ} (hsize : 0 < chunkSize)
    (chunkOverlap : ℕ) :
    (∀ p < text.length, ∃ w ∈ windows text chunkSize chunkOverlap, w.1 ≤ p ∧ p < w.2) ∧
    ∀ w ∈ windows text chunkSize chunkOverlap,
      w.1 < w.2 ∧ w.2 ≤ text.length ∧ w.2 ≤ w.1 + chunkSize := by
  refine ⟨fun p hp => windowsFrom_cover hsize (Nat.le_add_right _ _) (Nat.zero_le p) hp,
    fun w hw => ?_⟩
  obtain ⟨⟨hstart, hstop⟩, -⟩ := (windowsFrom_chain _ _).2 w hw
  have := windowEnd_bounds hsize hstart
  rw [hstop]
  omega

theorem windows_cover_four :
    ∃ w ∈ windows "one. two. three.".toList 4 2, w.1 ≤ 7 ∧ 7 < w.2 :=
  (windows_cover _ (by decide : 0 < 4) 2).1 7 (by decide)
/-- No window ends where, or before, an earlier one ends, and none lies inside an earlier one. -/
def EndsIncrease (ws : List (ℕ × ℕ)) : Prop :=
  ws.Pairwise (fun w w' => w.2 < w'.2) ∧
    ws.Pairwise fun w w' => ¬ (w.1 ≤ w'.1 ∧ w'.2 ≤ w.2)

theorem endsIncrease_iff (ws : List (ℕ × ℕ)) :
    EndsIncrease ws ↔ ws.IsChain fun w w' => w.2 < w'.2 := by
  rw [EndsIncrease, List.isChain_iff_pairwise]
  refine ⟨And.left, fun h => ⟨h, h.imp fun hlt hsub => ?_⟩⟩
  exact absurd hsub.2 (Nat.not_le.mpr hlt)

/-- The ends increase exactly when no window stalls. -/
theorem isChain_lt_iff (hsize : 0 < chunkSize) (hoverlap : chunkOverlap < chunkSize)
    {start : ℕ} (h : text.length ≤ fuel + start) :
    (windowsFrom text chunkSize chunkOverlap fuel start).IsChain (fun w w' => w.2 < w'.2) ↔
      ∀ w ∈ windowsFrom text chunkSize chunkOverlap fuel start, w.2 < text.length →
        ¬ Stalls text chunkSize chunkOverlap w.1 w.2 := by
  induction fuel generalizing start with
  | zero => exact ⟨fun _ => nofun, fun _ => List.isChain_nil⟩
  | succ fuel ih =>
    by_cases hstart : start < text.length
    swap
    · rw [windowsFrom_of_le (Nat.not_lt.mp hstart)]
      exact ⟨fun _ => nofun, fun _ => List.isChain_nil⟩
    rw [windowsFrom_succ hstart]
    obtain ⟨hgt, -, -⟩ := windowEnd_bounds hsize hstart
    split_ifs with hend
    · refine ⟨fun _ w hw hlt => ?_, fun _ => List.isChain_singleton _⟩
      rw [List.mem_singleton] at hw
      rw [hw] at hlt
      exact absurd hend (Nat.not_le.mpr hlt)
    · have hrest : windowEnd text chunkSize start < text.length := not_le.mp hend
      have hnext := nextStart_gt chunkOverlap start (windowEnd text chunkSize start)
      have hle := lt_of_le_of_lt (@nextStart_le chunkOverlap _ _ hgt) hrest
      have hfuel : text.length ≤
          fuel + nextStart chunkOverlap start (windowEnd text chunkSize start) := by omega
      -- the next window is there, and its end is the one that is compared
      obtain ⟨more, hmore⟩ : ∃ more, fuel = more + 1 := ⟨fuel - 1, by omega⟩
      rw [List.forall_mem_cons, ← ih hfuel]
      subst hmore
      rw [windowsFrom_succ hle, List.isChain_cons_cons]
      refine and_congr ?_ Iff.rfl
      rw [← windowEnd_next_le_iff hsize hoverlap hgt hrest, not_le]
      exact ⟨fun hlt _ => hlt, fun hlt => hlt hrest⟩

/-- A preferred boundary and nothing else, where the first window ends. -/
def stallingText (chunkSize : ℕ) : List Char :=
  List.replicate (chunkSize - 1) 'a' ++ '\n' :: List.replicate (chunkSize + 1) 'a'

theorem length_stallingText (hsize : 0 < chunkSize) :
    (stallingText chunkSize).length = 2 * chunkSize + 1 := by
  simp only [stallingText, List.length_append, List.length_cons, List.length_replicate]
  omega

theorem isBoundary_stallingText {stop p : ℕ} (h : IsBoundary (stallingText chunkSize) stop p) :
    p = chunkSize - 1 := by
  obtain ⟨mark, hmark, -, htake⟩ := h
  have hhead : ∀ m ∈ marks, ∃ c cs, m = c :: cs ∧ c ≠ 'a' := by
    intro m hm
    simp only [marks, List.mem_cons, List.not_mem_nil, or_false] at hm
    rcases hm with rfl | rfl | rfl | rfl <;> exact ⟨_, _, rfl, by decide⟩
  obtain ⟨c, _, rfl, hc⟩ := hhead mark hmark
  have hget : (stallingText chunkSize)[p]? = some c := by
    have hfirst := congrArg List.head? htake
    rwa [List.length_cons, List.head?_take, if_neg (Nat.succ_ne_zero _), List.head?_drop] at hfirst
  by_contra hne
  rw [stallingText, List.getElem?_append, List.length_replicate] at hget
  split_ifs at hget with hp
  · rw [List.getElem?_replicate, if_pos hp] at hget
    exact hc (Option.some.inj hget).symm
  · obtain ⟨k, hk⟩ : ∃ k, p - (chunkSize - 1) = k + 1 := ⟨p - (chunkSize - 1) - 1, by omega⟩
    rw [hk, List.getElem?_cons_succ, List.getElem?_replicate] at hget
    split_ifs at hget
    exact hc (Option.some.inj hget).symm

theorem stallingText_boundary (hsize : 0 < chunkSize) {stop : ℕ} (hstop : chunkSize ≤ stop) :
    IsBoundary (stallingText chunkSize) stop (chunkSize - 1) := by
  refine ⟨['\n'], by decide, ?_, ?_⟩
  · show chunkSize - 1 + 1 ≤ stop
    omega
  · rw [stallingText, List.drop_left' (List.length_replicate)]
    rfl

/-- A text whose second window ends where the first does. -/
theorem stallingText_stalls (hsize : 0 < chunkSize) (hoverlap : chunkOverlap < chunkSize)
    (hhalf : half chunkSize < chunkOverlap) :
    windowEnd (stallingText chunkSize) chunkSize 0 = chunkSize ∧
      Stalls (stallingText chunkSize) chunkSize chunkOverlap 0 chunkSize := by
  have hlength := length_stallingText hsize
  have hnext : nextStart chunkOverlap 0 chunkSize = chunkSize - chunkOverlap := by
    unfold nextStart
    omega
  constructor
  · rcases windowEnd_spec hsize (show 0 < (stallingText chunkSize).length by omega) with
      ⟨hle, -⟩ | ⟨-, -, heq⟩ | ⟨-, p, -, hb, -, heq⟩
    · omega
    · rw [heq, Nat.zero_add]
    · rw [heq, isBoundary_stallingText hb]
      omega
  · rw [Stalls, hnext]
    refine ⟨by omega, ⟨chunkSize - 1, by omega, stallingText_boundary hsize (by omega)⟩, ?_⟩
    intro p _ hb
    rw [isBoundary_stallingText hb]
    omega

/-- **Increasing ends.**  The ends of the windows of a text increase exactly when no window is
followed by one whose last preferred boundary lies before its end; they increase for every text
exactly when the overlap is at most half a window. -/
theorem windows_ends_iff {chunkSize chunkOverlap : ℕ} (hsize : 0 < chunkSize)
    (hoverlap : chunkOverlap < chunkSize) :
    (∀ text, EndsIncrease (windows text chunkSize chunkOverlap) ↔
      ∀ w ∈ windows text chunkSize chunkOverlap, w.2 < text.length →
        ¬ Stalls text chunkSize chunkOverlap w.1 w.2) ∧
    ((∀ text, EndsIncrease (windows text chunkSize chunkOverlap)) ↔
      chunkOverlap ≤ half chunkSize) := by
  have hall : ∀ text, EndsIncrease (windows text chunkSize chunkOverlap) ↔
      ∀ w ∈ windows text chunkSize chunkOverlap, w.2 < text.length →
        ¬ Stalls text chunkSize chunkOverlap w.1 w.2 := fun text => by
    rw [endsIncrease_iff, windows, isChain_lt_iff hsize hoverlap (Nat.le_add_right _ _)]
  refine ⟨hall, fun h => ?_, fun hhalf text => (hall text).mpr fun w _ _ => not_stalls_of_le hhalf⟩
  by_contra hlarge
  obtain ⟨hend, hstalls⟩ := stallingText_stalls hsize hoverlap (not_le.mp hlarge)
  have hlength := length_stallingText hsize
  have hmem : (0, chunkSize) ∈ windows (stallingText chunkSize) chunkSize chunkOverlap := by
    rw [windows, hlength, windowsFrom_succ (by omega), hend]
    exact List.mem_cons_self
  exact (hall _).mp (h (stallingText chunkSize)) _ hmem (by rw [hlength]; omega) hstalls

theorem windows_ends_iff_four : EndsIncrease (windows "one. two. three.".toList 4 2) :=
  (windows_ends_iff (by decide : 0 < 4) (by decide)).2.mpr (by decide) _

theorem stallingText_not_increasing : ¬ EndsIncrease (windows (stallingText 4) 4 3) := by
  have hwindows : windows (stallingText 4) 4 3 =
      [(0, 4), (1, 4), (2, 6), (3, 7), (4, 8), (5, 9)] := by
    decide +kernel
  rw [hwindows]
  intro h
  exact absurd h.1 (by decide)

end Windows

end DocumentLoader

end LocalAgent.Runtime
