import Mathlib.Data.List.Induction

/-!
# LocalAgent.Lib.Trace — runs of a transition function

`run step s acts` takes the actions one after the other; `none` is an action that is not enabled.
`Along step C s acts` says that every action of a run is taken in a state where `C` allows it.

* `run_keeps`: what every allowed step keeps, every run along such steps keeps.
* `run_invariant`: what every step keeps, every run keeps.
* `EachAfter P xs`: every element of a history is justified by what stands before it.
* `countP_set_add`: a count over processes, after a step of one of them.
-/

namespace LocalAgent

theorem exists_of_any {α : Type*} {o : Option α} {p : α → Prop} [DecidablePred p]
    (h : (o.any fun a => decide (p a)) = true) : ∃ a, o = some a ∧ p a := by
  obtain ⟨a, ha, hp⟩ := (Option.any_eq_true _ _).mp h
  exact ⟨a, ha, of_decide_eq_true hp⟩

theorem mem_snoc {α : Type*} {xs : List α} {a x : α} (h : x ∈ xs ++ [a]) : x ∈ xs ∨ x = a :=
  (List.mem_append.mp h).imp_right List.mem_singleton.mp

namespace Trace

variable {σ α : Type} (step : σ → α → Option σ)

/-- The state after the actions, when each is enabled in its turn. -/
def run : σ → List α → Option σ
  | s, [] => some s
  | s, a :: acts => (step s a).bind fun s' => run s' acts

/-- Every action is taken where `C` allows it. -/
def Along (C : σ → α → Prop) : σ → List α → Prop
  | _, [] => True
  | s, a :: acts => C s a ∧ ∀ s', step s a = some s' → Along C s' acts

variable {step} {a : α} {acts : List α} {C : σ → α → Prop} {P : List α → α → Prop} {s : σ}
  {rest : List α} {D : σ → α → Prop} {p : α → Bool}

variable {s' t : σ}

theorem run_cons :
    run step s (a :: acts) = some s' ↔ ∃ t, step s a = some t ∧ run step t acts = some s' := by
  rw [run, Option.bind_eq_some_iff]

theorem along_cons (h : step s a = some t) :
    Along step C s (a :: acts) ↔ C s a ∧ Along step C t acts := by
  constructor
  · exact fun ⟨ha, hrest⟩ => ⟨ha, hrest t h⟩
  · rintro ⟨ha, hrest⟩
    refine ⟨ha, fun t' ht' => ?_⟩
    cases h.symm.trans ht'
    exact hrest

theorem run_append :
    run step s (acts ++ rest) = (run step s acts).bind fun t => run step t rest := by
  induction acts generalizing s with
  | nil => rfl
  | cons _ _ ih =>
    rw [List.cons_append, run, run, Option.bind_assoc]
    exact congrArg _ (funext fun t => ih)

/-- A run meets a condition when its two halves do. -/
theorem along_append (h : run step s acts = some t) :
    Along step C s (acts ++ rest) ↔ Along step C s acts ∧ Along step C t rest := by
  induction acts generalizing s with
  | nil =>
    cases h
    exact ⟨fun hrest => ⟨trivial, hrest⟩, And.right⟩
  | cons _ _ ih =>
    obtain ⟨u, hu, hrun⟩ := run_cons.mp h
    rw [List.cons_append, along_cons hu, along_cons hu, ih hrun, and_assoc]

theorem along_stuck (h : step s a = none) : Along step C s (a :: acts) ↔ C s a :=
  ⟨And.left, fun ha => ⟨ha, fun _ ht => nomatch h.symm.trans ht⟩⟩

instance decidableAlong {C : σ → α → Prop} [∀ s a, Decidable (C s a)] :
    ∀ s acts, Decidable (Along step C s acts)
  | _, [] => isTrue trivial
  | s, a :: acts =>
    match h : step s a with
    | none => decidable_of_iff' (C s a) (along_stuck h)
    | some t =>
      haveI : Decidable (Along step C t acts) := decidableAlong t acts
      decidable_of_iff' (C s a ∧ Along step C t acts) (along_cons h)

/-- What every step that meets the condition keeps holds at the end of a run that meets it. -/
theorem run_keeps {P : σ → Prop} (hstep : ∀ s a s', C s a → step s a = some s' → P s → P s') :
    ∀ {s s' : σ}, Along step C s acts → run step s acts = some s' → P s → P s' := by
  induction acts with
  | nil =>
    intro s s' _ hrun hs
    cases hrun
    exact hs
  | cons a _ ih =>
    intro s _ halong hrun hs
    obtain ⟨t, ht, hrest⟩ := run_cons.mp hrun
    exact ih (halong.2 t ht) hrest (hstep s a t halong.1 ht hs)

/-- Actions that are allowed everywhere. -/
theorem along_of_forall (h : ∀ a ∈ acts, ∀ s, C s a) : ∀ s, Along step C s acts := by
  induction acts with
  | nil => exact fun _ => trivial
  | cons a _ ih =>
    intro s
    refine ⟨h a List.mem_cons_self s, fun s' _ => ?_⟩
    exact ih (fun b hb => h b (List.mem_cons_of_mem _ hb)) s'

theorem along_mono (h : ∀ s a, C s a → D s a) :
    ∀ {s : σ}, Along step C s acts → Along step D s acts := by
  induction acts with
  | nil => exact fun _ => trivial
  | cons a _ ih =>
    intro s hC
    exact ⟨h s a hC.1, fun s' hs' => ih (hC.2 s' hs')⟩

theorem run_invariant {P : σ → Prop} (hstep : ∀ s a s', step s a = some s' → P s → P s')
(hrun : run step s acts = some s') (hs : P s) : P s' :=
  run_keeps (C := fun _ _ => True) (fun s a s' _ h => hstep s a s' h)
    (along_of_forall (fun _ _ _ => trivial) s) hrun hs

/-! ## Histories -/

/-- Every element is in `P` with those before it. -/
def EachAfter (P : List α → α → Prop) (xs : List α) : Prop :=
  ∀ before a after, xs = before ++ a :: after → P before a

theorem eachAfter_nil : EachAfter P [] := by
  intro _ a _ h
  exact absurd h.symm (List.append_ne_nil_of_right_ne_nil _ (List.cons_ne_nil _ _))

/-- One more element is justified by all before it. -/
theorem EachAfter.snoc {xs : List α} (h : EachAfter P xs)
    (ha : P xs a) : EachAfter P (xs ++ [a]) := by
  intro before b after heq
  rcases List.eq_nil_or_concat after with rfl | ⟨after, c, rfl⟩
  · obtain ⟨rfl, hlast⟩ := List.append_inj' heq rfl
    obtain rfl : a = b := List.singleton_inj.mp hlast
    exact ha
  · have heq : xs ++ [a] = (before ++ b :: after) ++ [c] := by
      rw [heq, List.append_assoc, List.cons_append, List.concat_eq_append]
    exact h before b after (List.append_inj' heq rfl).1

theorem EachAfter.left {xs ys : List α} (h : EachAfter P (xs ++ ys)) : EachAfter P xs := by
  rintro before a after rfl
  exact h before a (after ++ ys) (by rw [List.append_assoc, List.cons_append])

/-- What is never preceded by its like happens once at the most. -/
theorem EachAfter.countP_le_one (hp : ∀ before a, P before a → p a = true → before.countP p = 0) :
    ∀ {xs : List α}, EachAfter P xs → xs.countP p ≤ 1 := by
  intro xs
  induction xs using List.reverseRecOn with
  | nil => exact fun _ => Nat.zero_le 1
  | append_singleton xs a ih =>
    intro h
    rw [List.countP_append, List.countP_singleton]
    split_ifs with ha
    · have hzero := hp xs a (h xs a [] rfl) ha
      omega
    · exact ih h.left

/-! ## Processes -/

/-- The count over a list after one of its elements was replaced. -/
theorem countP_set_add {l : List α} {i : ℕ} {b : α} (h : l[i]? = some a) :
    (l.set i b).countP p + (p a).toNat = l.countP p + (p b).toNat := by
  induction l generalizing i with
  | nil => simp at h
  | cons x _ ih =>
    cases i with
    | zero =>
      obtain rfl := Option.some.inj h
      simp only [List.set_cons_zero, List.countP_cons]
      cases p x <;> cases p b <;> simp
    | succ =>
      have := ih (by simpa using h)
      simp only [List.set_cons_succ, List.countP_cons]
      omega

end Trace

end LocalAgent
