import Mathlib.Algebra.Order.Field.Power
import Mathlib.Data.Int.Log
import Mathlib.Data.Rat.Floor
import Mathlib.Tactic.Linarith

/-!
# LocalAgent.Lib.Binary64 — the rounding of doubles

The doubles around `x` are the multiples of `2 ^ exponent x`; `round x` is the nearest of them, the
even one at a tie.  There is no upper bound: what overflows lies above every double.

* `round_mono`: rounding keeps the order of numbers that are not negative.
-/

namespace LocalAgent.Binary64

/-- The nearest integer, at a tie the even one. -/
def roundEven (x : ℚ) : ℤ :=
  if Int.fract x < 1 / 2 ∨ Int.fract x = 1 / 2 ∧ Even ⌊x⌋ then ⌊x⌋ else ⌊x⌋ + 1

/-- The last of 53 bits; below the normal numbers it stays where it is. -/
def exponent (x : ℚ) : ℤ := max (Int.log 2 |x| - 52) (-1074)

def round (x : ℚ) : ℚ := roundEven (x / 2 ^ exponent x) * 2 ^ exponent x

variable {x y : ℚ}

theorem roundEven_intCast (n : ℤ) : roundEven n = n := by
  simp [roundEven]

/-- Rounding to an integer keeps the order. -/
theorem roundEven_mono (h : x ≤ y) : roundEven x ≤ roundEven y := by
  unfold roundEven
  rcases (Int.floor_le_floor h).lt_or_eq with hlt | heq
  · split_ifs <;> omega
  -- between the same two integers the fraction of `x` is at most that of `y`
  have hfract : Int.fract x ≤ Int.fract y := by
    rw [Int.fract, Int.fract, heq]
    linarith
  rw [heq]
  by_cases hy : Int.fract y < 1 / 2 ∨ Int.fract y = 1 / 2 ∧ Even ⌊y⌋
  · have hx : Int.fract x < 1 / 2 ∨ Int.fract x = 1 / 2 ∧ Even ⌊y⌋ := by
      rcases hy with hy | ⟨hy, heven⟩
      · exact .inl (hfract.trans_lt hy)
      · exact (hy ▸ hfract).lt_or_eq.imp_right fun he => ⟨he, heven⟩
    rw [if_pos hx, if_pos hy]
  · rw [if_neg hy]
    split_ifs <;> omega

theorem zpow_pos_two (k : ℤ) : (0 : ℚ) < 2 ^ k := zpow_pos two_pos k

/-- A power of two above the last bit is a whole number of them. -/
theorem zpow_div {k : ℤ} (hk : exponent x ≤ k) :
    ∃ n : ℤ, (2 : ℚ) ^ k = n * 2 ^ exponent x := by
  obtain ⟨n, rfl⟩ := Int.le.dest hk
  refine ⟨2 ^ n, ?_⟩
  rw [zpow_add₀ two_ne_zero, zpow_natCast, mul_comm]
  push_cast
  rfl

theorem round_le_zpow {k : ℤ} (hk : exponent x ≤ k) (h : x ≤ 2 ^ k) : round x ≤ 2 ^ k := by
  obtain ⟨n, hn⟩ := zpow_div hk
  have hle : x / 2 ^ exponent x ≤ n := by
    rw [div_le_iff₀ (zpow_pos_two _), ← hn]
    exact h
  have hround := (roundEven_mono hle).trans_eq (roundEven_intCast n)
  rw [hn, round]
  gcongr

theorem zpow_le_round {k : ℤ} (hk : exponent x ≤ k) (h : 2 ^ k ≤ x) : 2 ^ k ≤ round x := by
  obtain ⟨n, hn⟩ := zpow_div hk
  have hle : (n : ℚ) ≤ x / 2 ^ exponent x := by
    rw [le_div_iff₀ (zpow_pos_two _), ← hn]
    exact h
  have hround := (roundEven_intCast n).symm.trans_le (roundEven_mono hle)
  rw [hn, round]
  gcongr

theorem round_zero : round 0 = 0 := by
  simp [round, roundEven]

theorem round_nonneg (hx : 0 ≤ x) : 0 ≤ round x := by
  have hle : (0 : ℤ) ≤ roundEven (x / 2 ^ exponent x) := by
    rw [← roundEven_intCast 0]
    exact roundEven_mono (by simpa using div_nonneg hx (zpow_pos_two _).le)
  exact mul_nonneg (by exact_mod_cast hle) (zpow_pos_two _).le

/-- Rounding keeps the order: in one binade the last bit is the same, and between two binades
stands a power of two. -/
theorem round_mono (hx : 0 ≤ x) (h : x ≤ y) : round x ≤ round y := by
  rcases hx.eq_or_lt with rfl | hpos
  · rw [round_zero]
    exact round_nonneg h
  have hlog : Int.log 2 |x| ≤ Int.log 2 |y| :=
    Int.log_mono_right (abs_pos.mpr hpos.ne') (abs_le_abs_of_nonneg hx h)
  have hexp : exponent x ≤ exponent y := by
    unfold exponent
    omega
  rcases hexp.eq_or_lt with he | hlt
  · have hle : x / 2 ^ exponent x ≤ y / 2 ^ exponent x := by
      have := zpow_pos_two (exponent x)
      gcongr
    rw [round, round, ← he]
    have := roundEven_mono hle
    have := zpow_pos_two (exponent x)
    gcongr
  · have hy : exponent y = Int.log 2 |y| - 52 := by
      unfold exponent at hlt ⊢
      omega
    have habove : (2 : ℚ) ^ (exponent y + 52) ≤ y := by
      have := Int.zpow_log_le_self (b := 2) one_lt_two (abs_pos.mpr (hpos.trans_le h).ne')
      rw [hy, sub_add_cancel]
      rwa [abs_of_pos (hpos.trans_le h)] at this ⊢
    have hbelow : x ≤ 2 ^ (exponent y + 52) := by
      have hlt' : Int.log 2 |x| + 1 ≤ exponent y + 52 := by
        unfold exponent at hlt hy ⊢
        omega
      have hlt := Int.lt_zpow_succ_log_self (b := 2) one_lt_two |x|
      rw [abs_of_pos hpos] at hlt hlt'
      exact hlt.le.trans (by exact_mod_cast zpow_le_zpow_right₀ (one_le_two (α := ℚ)) hlt')
    exact (round_le_zpow (by omega) hbelow).trans (zpow_le_round (by omega) habove)

example : round (2 ^ 53 + 1) = 2 ^ 53 := by decide +kernel

end LocalAgent.Binary64
