import Mathlib.Logic.Relation
import Mathlib.Tactic.Common

/-!
# LocalAgent.Lib.Op — mutable state and exceptions

`Op ε σ α` is a computation on a mutable state `σ` that returns an `α` or raises an `ε`.  The state
reached before the exception is kept, as in the modelled language: nothing is rolled back.

* `Op.after x s`: the state `x` leaves behind, whether it returned or raised.
* `bind_ok_iff`, `bind_error_iff`: the two ways through a sequence.
* `Op.Follows R x`: from every state, `x` only moves along steps of `R`.  Rules for every way a
  computation is put together (`pure`, `raise`, `bind`, loops).
* `Op.AllOrNothing x`: when `x` raises, it has changed nothing.
-/

namespace LocalAgent

/-- Raise `e` when `c` holds. -/
def raiseIf {ε : Type} (c : Prop) [Decidable c] (e : ε) : Except ε Unit :=
  if c then .error e else .ok ()

/-- The value, or raise `e`. -/
def orRaise {ε α : Type} (o : Option α) (e : ε) : Except ε α :=
  match o with
  | some a => .ok a
  | none => .error e

variable {c : Prop}

section Except

variable {ε ε' α β : Type} {e : ε} {b : β} {a : α}

@[simp] theorem raiseIf_ok [Decidable c] : raiseIf c e = .ok () ↔ ¬ c := by
  unfold raiseIf
  split_ifs with h <;> simp [h]

@[simp] theorem seq_eq_ok {x : Except ε Unit} {f : Unit → Except ε β} :
    (x >>= f) = .ok b ↔ x = .ok () ∧ f () = .ok b := by
  cases x <;> simp [bind, Except.bind]

variable {f : α → Except ε β}

@[simp] theorem ok_bind : (Except.ok a >>= f) = f a := rfl

theorem bind_eq_ok {x : Except ε α} : (x >>= f) = .ok b ↔ ∃ a, x = .ok a ∧ f a = .ok b := by
  cases x <;> simp [bind, Except.bind]

@[simp] theorem orRaise_ok {o : Option α} : orRaise o e = .ok a ↔ o = some a := by
  cases o <;> simp [orRaise]

theorem mapError_ok {x : Except ε α} {f : ε → ε'} : x.mapError f = .ok a ↔ x = .ok a := by
  cases x <;> simp [Except.mapError]

/-- What `mapM` answers, element by element. -/
theorem except_mapM_ok :
    ∀ {xs : List α} {ys : List β}, xs.mapM f = .ok ys → List.Forall₂ (fun x y => f x = .ok y) xs ys
  | [], ys, h => by
    cases h
    exact .nil
  | x :: xs, ys, h => by
    rw [List.mapM_cons] at h
    obtain ⟨y, hy, h⟩ := bind_eq_ok.mp h
    obtain ⟨_, hrest, h⟩ := bind_eq_ok.mp h
    cases h
    exact .cons hy (except_mapM_ok hrest)

theorem except_forM_eq_ok {xs : List α} {f : α → Except ε Unit} :
    xs.forM f = .ok () ↔ ∀ a ∈ xs, f a = .ok () := by
  induction xs with
  | nil => simp [List.forM, pure, Except.pure]
  | cons a xs ih =>
    show (f a >>= fun _ => xs.forM f) = .ok () ↔ _
    rw [bind_eq_ok, List.forall_mem_cons, ← ih]
    exact ⟨fun ⟨_, h1, h2⟩ => ⟨h1, h2⟩, fun ⟨h1, h2⟩ => ⟨(), h1, h2⟩⟩

end Except

/-- A computation on the state `σ` that may raise an `ε`. -/
abbrev Op (ε σ α : Type) := EStateM ε σ α

namespace Op

variable {ε σ α β : Type}

/-- The state that is left after the computation, returned or raised. -/
def after (x : Op ε σ α) (s : σ) : σ :=
  match x s with
  | .ok _ s' => s'
  | .error _ s' => s'

/-- What the computation returned, if it did. -/
def value? (x : Op ε σ α) (s : σ) : Option α :=
  match x s with
  | .ok a _ => some a
  | .error _ _ => none

/-- The exception the computation raised, if any. -/
def error? (x : Op ε σ α) (s : σ) : Option ε :=
  match x s with
  | .ok _ _ => none
  | .error e _ => some e

/-- A pure check or computation that may raise; it does not touch the state. -/
def lift (x : Except ε α) : Op ε σ α := fun s =>
  match x with
  | .ok a => .ok a s
  | .error e => .error e s

/-- `try: ... except`: the outcome as a value, the state as the computation left it. -/
def attempt {ε' : Type} (x : Op ε σ α) : Op ε' σ (Except ε α) := fun s =>
  match x s with
  | .ok a s' => .ok (.ok a) s'
  | .error e s' => .ok (.error e) s'

/-- `raise e`. -/
def raise (e : ε) : Op ε σ α := fun s => .error e s

/-- `try: x finally: cleanup`. -/
def ensure (x : Op ε σ α) (cleanup : Op ε σ Unit) : Op ε σ α := do
  let outcome ← attempt x
  cleanup
  match outcome with
  | .ok a => pure a
  | .error e => raise e

variable {s s' : σ}

theorem after_ok {x : Op ε σ α} {a : α} (h : x s = .ok a s') : after x s = s' := by
  simp [after, h]

theorem after_error {x : Op ε σ α} {e : ε} (h : x s = .error e s') : after x s = s' := by
  simp [after, h]

theorem value?_ok {x : Op ε σ α} {s s' : σ} {a : α} (h : x s = .ok a s') : value? x s = some a := by
  simp [value?, h]

theorem value?_error {x : Op ε σ α} {s s' : σ} {e : ε} (h : x s = .error e s') :
    value? x s = none := by
  simp [value?, h]

theorem value?_some {x : Op ε σ α} {s : σ} {a : α} (h : value? x s = some a) :
    ∃ s', x s = .ok a s' := by
  unfold value? at h
  cases hx : x s with
  | ok _ s' =>
    rw [hx] at h
    cases h
    exact ⟨s', rfl⟩
  | error =>
    rw [hx] at h
    cases h

/-- Computations with the same outcome leave the same state. -/
theorem after_eq {x y : Op ε σ α} {t : σ} (h : x s = y t) : after x s = after y t := by
  unfold after
  rw [h]

theorem bind_ok_iff {x : Op ε σ α} {f : α → Op ε σ β} {b : β} :
    (x >>= f) s = .ok b s' ↔ ∃ a t, x s = .ok a t ∧ f a t = .ok b s' := by
  show EStateM.bind x f s = _ ↔ _
  unfold EStateM.bind
  cases x s with
  | ok => simp [and_assoc]
  | error => simp

theorem bind_error_iff {x : Op ε σ α} {f : α → Op ε σ β} {e : ε} :
    (x >>= f) s = .error e s' ↔
      x s = .error e s' ∨ ∃ a t, x s = .ok a t ∧ f a t = .error e s' := by
  show EStateM.bind x f s = _ ↔ _
  unfold EStateM.bind
  cases x s with
  | ok => simp [and_assoc]
  | error => simp

/-- The two ways through a sequence, with the state at the joint. -/
theorem bind_cases (x : Op ε σ α) (f : α → Op ε σ β) (s : σ) :
    (∃ e t, x s = .error e t ∧ (x >>= f) s = .error e t) ∨
      ∃ a t, x s = .ok a t ∧ (x >>= f) s = f a t := by
  show (∃ e t, _ ∧ EStateM.bind x f s = _) ∨ ∃ a t, _ ∧ EStateM.bind x f s = _
  unfold EStateM.bind
  cases x s with
  | ok a t => exact Or.inr ⟨a, t, rfl, rfl⟩
  | error e t => exact Or.inl ⟨e, t, rfl, rfl⟩

@[simp] theorem lift_ok_iff {x : Except ε α} {a : α} :
    (lift x : Op ε σ α) s = .ok a s' ↔ x = .ok a ∧ s = s' := by
  cases x <;> simp [lift]

@[simp] theorem lift_error_iff {x : Except ε α} {e : ε} :
    (lift x : Op ε σ α) s = .error e s' ↔ x = .error e ∧ s = s' := by
  cases x <;> simp [lift]

theorem lift_bind_ok_iff {x : Except ε α} {f : α → Op ε σ β} {b : β} :
    (lift x >>= f) s = .ok b s' ↔ ∃ a, x = .ok a ∧ f a s = .ok b s' := by
  rw [bind_ok_iff]
  simp [lift_ok_iff]

/-! ## Symbolic execution -/

@[simp] theorem pure_apply (a : α) (s : σ) : (pure a : Op ε σ α) s = .ok a s := rfl

@[simp] theorem raise_apply (e : ε) (s : σ) : (raise e : Op ε σ α) s = .error e s := rfl

@[simp] theorem get_bind_apply (f : σ → Op ε σ β) (s : σ) : (get >>= f) s = f s s := rfl

@[simp] theorem set_apply (t s : σ) : (set t : Op ε σ PUnit) s = .ok () t := rfl

@[simp] theorem set_bind_apply (t : σ) (f : PUnit → Op ε σ β) (s : σ) :
    ((set t : Op ε σ PUnit) >>= f) s = f () t := rfl

@[simp] theorem lift_ok (a : α) : (lift (.ok a) : Op ε σ α) = pure a := rfl

@[simp] theorem lift_error (e : ε) : (lift (.error e) : Op ε σ α) = raise e := rfl

@[simp] theorem pure_bind_apply (a : α) (f : α → Op ε σ β) (s : σ) : (pure a >>= f) s = f a s :=
  rfl

@[simp] theorem raise_bind (e : ε) (f : α → Op ε σ β) : (raise e >>= f) = raise e := rfl

theorem discard_apply (x : Op ε σ α) (s : σ) :
    (Functor.discard x : Op ε σ Unit) s =
      match x s with
      | .ok _ s' => .ok () s'
      | .error e s' => .error e s' := by
  show EStateM.map _ x s = _
  unfold EStateM.map
  cases x s <;> rfl

@[simp] theorem after_pure (a : α) (s : σ) : after (pure a : Op ε σ α) s = s := rfl

@[simp] theorem after_raise (e : ε) (s : σ) : after (raise e : Op ε σ α) s = s := rfl

/-- The cleanup runs from the state the computation left, however it ended. -/
theorem after_ensure (x : Op ε σ α) (cleanup : Op ε σ Unit) (s : σ) :
    after (ensure x cleanup) s = after cleanup (after x s) := by
  have h : ∀ r : Except ε α, ∀ t, after (cleanup >>= fun _ =>
      (match r with | .ok a => pure a | .error e => raise e : Op ε σ α)) t = after cleanup t := by
    intro r t
    rcases bind_cases cleanup
      (fun _ => (match r with | .ok a => pure a | .error e => raise e : Op ε σ α)) t with
      ⟨e, t', hc, hb⟩ | ⟨u, t', hc, hb⟩
    · rw [after_error hb, after_error hc]
    · unfold after
      rw [hb, hc]
      cases r <;> rfl
  have hrun : ∀ {r t}, (attempt x : Op ε σ (Except ε α)) s = .ok r t →
      after (ensure x cleanup) s = after cleanup t := by
    intro r t hr
    rw [← h r t]
    refine after_eq ?_
    show EStateM.bind _ _ s = _
    unfold EStateM.bind
    rw [hr]
  unfold attempt at hrun
  cases hx : x s with
  | ok =>
    rw [after_ok hx]
    exact hrun (by rw [hx])
  | error =>
    rw [after_error hx]
    exact hrun (by rw [hx])

/-- The cleanup of `ensure` runs after the call. -/
theorem ensure_ok {x : Op ε σ α} {cleanup : Op ε σ Unit} {a : α}
    (h : ensure x cleanup s = .ok a s') : ∃ t, x s = .ok a t ∧ s' = after cleanup t := by
  obtain ⟨outcome, t, hx, h⟩ := bind_ok_iff.mp h
  obtain ⟨u, t', hc, h⟩ := bind_ok_iff.mp h
  cases outcome with
  | error => cases h
  | ok =>
    cases h
    refine ⟨t, ?_, (after_ok hc).symm⟩
    unfold attempt at hx
    cases hxs : x s with
    | ok => rw [hxs] at hx; cases hx; rfl
    | error => rw [hxs] at hx; cases hx

/-! ## Computations that follow a step relation -/

section Follows

variable {R : σ → σ → Prop}

/-- Every move of `x` is a finite sequence of `R`-steps. -/
def Follows (R : σ → σ → Prop) (x : Op ε σ α) : Prop :=
  ∀ s, Relation.ReflTransGen R s (after x s)

theorem follows_pure (a : α) : Follows R (pure a : Op ε σ α) := fun _ => .refl

theorem follows_get : Follows R (get : Op ε σ σ) := fun _ => .refl

theorem follows_raise (e : ε) : Follows R (raise e : Op ε σ α) := fun _ => .refl

theorem follows_lift (x : Except ε α) : Follows R (lift x : Op ε σ α) := by
  intro s
  cases x <;> exact .refl

theorem after_attempt {ε' : Type} (x : Op ε σ α) (s : σ) :
    after (attempt x : Op ε' σ (Except ε α)) s = after x s := by
  unfold after attempt
  cases x s <;> rfl

variable {x : Op ε σ α}

theorem Follows.attempt {ε' : Type} (hx : Follows R x) :
    Follows R (attempt x : Op ε' σ (Except ε α)) := by
  intro s
  rw [after_attempt]
  exact hx s

theorem Follows.discard (hx : Follows R x) : Follows R (discard x : Op ε σ Unit) := by
  intro s
  have h : after (Functor.discard x : Op ε σ Unit) s = after x s := by
    unfold after
    rw [discard_apply]
    cases x s <;> rfl
  rw [h]
  exact hx s

/-- A relation that composes is kept by a sequence. -/
theorem Follows.bind {f : α → Op ε σ β} (hx : Follows R x)
    (hf : ∀ a, Follows R (f a)) : Follows R (x >>= f) := by
  intro s
  have h := hx s
  show Relation.ReflTransGen R s (after (EStateM.bind x f) s)
  unfold after EStateM.bind at *
  cases hxs : x s with
  | ok a t =>
    rw [hxs] at h
    exact h.trans (hf a t)
  | error =>
    rwa [hxs] at h

theorem Follows.ite [Decidable c] {y : Op ε σ α} (hx : c → Follows R x)
    (hy : ¬ c → Follows R y) : Follows R (if c then x else y) := by
  split_ifs with h
  · exact hx h
  · exact hy h

theorem follows_forM {xs : List α} {f : α → Op ε σ PUnit} (hf : ∀ a, Follows R (f a)) :
    Follows R (xs.forM f) := by
  induction xs with
  | nil => exact follows_pure _
  | cons a _ ih =>
    exact (hf a).bind fun _ => ih

/-- Along a reflexive and transitive relation a computation makes one step. -/
theorem Follows.rel [Std.Refl R] [IsTrans σ R] {x : Op ε σ α} (hx : Follows R x) (s : σ) :
    R s (after x s) := by
  have h := hx s
  rwa [Relation.reflTransGen_eq_self] at h

end Follows

/-! ## Computations that change nothing when they raise -/

section AllOrNothing

/-- When `x` raises, it leaves the state as it found it. -/
def AllOrNothing (x : Op ε σ α) : Prop := ∀ s e s', x s = .error e s' → s' = s

theorem allOrNothing_set (t : σ) : AllOrNothing (set t : Op ε σ PUnit) := fun _ _ _ h => nomatch h

theorem allOrNothing_lift (x : Except ε α) : AllOrNothing (lift x : Op ε σ α) :=
  fun _ _ _ h => (lift_error_iff.mp h).2.symm

/-- Checks may come before. -/
theorem AllOrNothing.lift_bind {x : Except ε α} {f : α → Op ε σ β} (hf : ∀ a, AllOrNothing (f a)) :
    AllOrNothing (lift x >>= f) := by
  intro s e s' h
  rcases bind_error_iff.mp h with h | ⟨a, t, hx, h⟩
  · exact allOrNothing_lift x s e s' h
  · obtain ⟨-, rfl⟩ := lift_ok_iff.mp hx
    exact hf a s e s' h

theorem AllOrNothing.get_bind {f : σ → Op ε σ β} (hf : ∀ s, AllOrNothing (f s)) :
    AllOrNothing (get >>= f) :=
  fun s e s' h => hf s s e s' h

end AllOrNothing

end Op

end LocalAgent
