import Mathlib.Algebra.Order.Ring.Int

/-!
# LocalAgent.Lib.SlidingWindow — rate limits by a list of recent times

A limiter keeps the times of its last admissions, drops those that are older than the width of its
window whenever it is asked, and admits while fewer than `limit` are left.

* `Covers`: the kept list has, of the last `width`, every admission of the history.
* `Within`: no half-open window of the width has more than `limit` admissions.
* `Within.admit`, `Covers.admit`: both are kept by an admission.
-/

namespace LocalAgent

namespace SlidingWindow

variable {width now : ℤ} {limit : ℕ} {history stored : List ℤ}

/-- The times that are still within the width. -/
def recent (width : ℤ) (stored : List ℤ) (now : ℤ) : List ℤ :=
  stored.filter fun time => now - width < time

/-- No half-open window has more than `limit` of the times. -/
def Within (width : ℤ) (limit : ℕ) (history : List ℤ) : Prop :=
  ∀ t, history.countP (fun time => t ≤ time ∧ time < t + width) ≤ limit

/-- What was admitted within the width is kept, and nothing was admitted later than `now`. -/
structure Covers (width now : ℤ) (history stored : List ℤ) : Prop where
  past : ∀ time ∈ history, time ≤ now
  kept : ∀ c, now - width ≤ c →
    history.countP (fun time => c < time) ≤ stored.countP (fun time => c < time)

theorem within_nil : Within width limit [] := fun _ => Nat.zero_le _

theorem covers_nil : Covers width now [] [] := ⟨nofun, fun _ _ => le_refl 0⟩

theorem Covers.later {now' : ℤ} (h : Covers width now history stored) (hle : now ≤ now') :
    Covers width now' history stored :=
  ⟨fun time ht => (h.past time ht).trans hle, fun c hc => h.kept c (by omega)⟩

/-- Dropping what is older than the width loses nothing that counts. -/
theorem countP_recent {c : ℤ} (hc : now - width ≤ c) :
    (recent width stored now).countP (fun time => c < time) =
      stored.countP fun time => c < time := by
  rw [recent, List.countP_filter]
  refine List.countP_congr fun time _ => ?_
  simp only [Bool.and_eq_true, decide_eq_true_eq]
  omega

/-- The time of an admission is kept. -/
theorem Covers.keep (h : Covers width now history stored) :
    Covers width now history (recent width stored now ++ [now]) := by
  refine ⟨h.past, fun c hc => ?_⟩
  rw [List.countP_append, countP_recent hc]
  exact (h.kept c hc).trans (Nat.le_add_right _ _)

theorem Covers.admit (h : Covers width now history stored) :
    Covers width now (history ++ [now]) (recent width stored now ++ [now]) := by
  refine ⟨fun time ht => ?_, fun c hc => ?_⟩
  · rcases List.mem_append.mp ht with ht | ht
    · exact h.past time ht
    · exact (List.mem_singleton.mp ht).le
  · rw [List.countP_append, List.countP_append, countP_recent hc]
    exact Nat.add_le_add_right (h.kept c hc) _

theorem Within.admit (h : Within width limit history) (hc : Covers width now history stored)
    (hroom : (recent width stored now).length < limit) : Within width limit (history ++ [now]) := by
  intro t
  rw [List.countP_append, List.countP_singleton]
  split_ifs with hin
  · -- the window ends after `now`, so that all of it is recent
    have hin : t ≤ now ∧ now < t + width := of_decide_eq_true hin
    have hrecent : history.countP (fun time => t ≤ time ∧ time < t + width) ≤
        history.countP fun time => now - width < time := by
      refine List.countP_mono_left fun time _ ht => ?_
      have ht : t ≤ time ∧ time < t + width := of_decide_eq_true ht
      exact decide_eq_true (by omega)
    have hkept := hc.kept (now - width) (le_refl _)
    have hlength : (recent width stored now).length =
        stored.countP fun time => now - width < time := by
      rw [recent, List.countP_eq_length_filter]
    omega
  · exact h t

end SlidingWindow

end LocalAgent
