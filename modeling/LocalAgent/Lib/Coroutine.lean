import Mathlib.Logic.Relation
import Mathlib.Tactic.Common

/-!
# LocalAgent.Lib.Coroutine — computations that are interleaved

`Coroutine ι σ α` is a computation over a shared state `σ` that gives up control between its steps.
A step sees an input `ι` of the environment and the state of that moment.

* `Contract`: what others may do (`rely`), what the computation promises to do (`guar`), and which
  inputs it is given (`allows`).
* `Holds c x Q s`: from `s`, under any interference, `x` keeps its promises and returns into `Q`.
  `Triple` is `Holds` from every state of a precondition, with one rule for each way a computation
  is put together.
* `zoom`: a computation over a part of the state, as one over the whole.
* `Pool`: coroutines over one state.  `Pool.holds_advance`, `Pool.holds_interfere`: computations
  whose promises are within what the others rely on keep their contracts whatever the schedule.
-/

namespace LocalAgent

/-- A computation over the shared state `σ`: done, or one step and what comes after it. -/
inductive Coroutine (ι σ α : Type) where
  | done (a : α)
  | step (update : ι → σ → σ) (next : ι → σ → Coroutine ι σ α)

namespace Coroutine

variable {ι σ α β : Type}

def bind : Coroutine ι σ α → (α → Coroutine ι σ β) → Coroutine ι σ β
  | done a, f => f a
  | step update next, f => step update fun i s => (next i s).bind f

instance : Monad (Coroutine ι σ) where
  pure := done
  bind := bind

/-- One step that reads the input, changes the state and returns a value. -/
def atomic (act : ι → σ → α × σ) : Coroutine ι σ α :=
  step (fun i s => (act i s).2) fun i s => done (act i s).1

def isDone : Coroutine ι σ α → Bool
  | done _ => true
  | step .. => false

/-! ## Contracts -/

/-- What others do, what the computation does, and the inputs it is given. -/
structure Contract (ι σ : Type) where
  rely : σ → σ → Prop
  guar : σ → σ → Prop
  allows : σ → ι → Prop

variable {c : Contract ι σ}

/-- Under any interference, every step keeps `guar` and the result is in `Q`. -/
def Holds (c : Contract ι σ) : Coroutine ι σ α → (α → σ → Prop) → σ → Prop
  | done a, Q, s => ∀ s', Relation.ReflTransGen c.rely s s' → Q a s'
  | step update next, Q, s => ∀ s', Relation.ReflTransGen c.rely s s' → ∀ i, c.allows s' i →
    c.guar s' (update i s') ∧ Holds c (next i s') Q (update i s')

variable {x : Coroutine ι σ α}

theorem Holds.rely {Q : α → σ → Prop} {s s' : σ} (h : Holds c x Q s)
    (hs : Relation.ReflTransGen c.rely s s') : Holds c x Q s' := by
  cases x with
  | done | step => exact fun t ht => h t (hs.trans ht)

theorem Holds.mono {Q Q' : α → σ → Prop} (hQ : ∀ a s, Q a s → Q' a s) :
    ∀ {s : σ}, Holds c x Q s → Holds c x Q' s := by
  induction x with
  | done a => exact fun h s' hs => hQ a s' (h s' hs)
  | step _ _ ih =>
    intro s h s' hs i hi
    exact ⟨(h s' hs i hi).1, ih i s' (h s' hs i hi).2⟩

variable {f : α → Coroutine ι σ β} {a : α} {act : ι → σ → α × σ}

theorem Holds.bind {Q : β → σ → Prop} :
    ∀ {s : σ}, Holds c x (fun a s' => Holds c (f a) Q s') s → Holds c (x >>= f) Q s := by
  induction x with
  | done => exact fun h => h _ .refl
  | step _ _ ih =>
    intro s h s' hs i hi
    exact ⟨(h s' hs i hi).1, ih i s' (h s' hs i hi).2⟩

/-! ## Triples -/

/-- The assertion survives what the others do. -/
def Stable (c : Contract ι σ) (P : σ → Prop) : Prop := ∀ s s', c.rely s s' → P s → P s'

theorem Stable.star {P : σ → Prop} (hP : Stable c P) {s s' : σ}
    (h : Relation.ReflTransGen c.rely s s') (hs : P s) : P s' := by
  induction h with
  | refl => exact hs
  | tail _ hstep ih => exact hP _ _ hstep ih

theorem Stable.and {P P' : σ → Prop} (hP : Stable c P) (hP' : Stable c P') :
    Stable c fun s => P s ∧ P' s :=
  fun s s' h hs => ⟨hP s s' h hs.1, hP' s s' h hs.2⟩

/-- From every state in `P`, the computation keeps its contract and returns into `Q`. -/
def Triple (c : Contract ι σ) (P : σ → Prop) (x : Coroutine ι σ α) (Q : α → σ → Prop) : Prop :=
  ∀ s, P s → Holds c x Q s

theorem Triple.pure {P : σ → Prop} {Q : α → σ → Prop} (hP : Stable c P)
    (h : ∀ s, P s → Q a s) : Triple c P (pure a : Coroutine ι σ α) Q :=
  fun _ hs s' hs' => h s' (hP.star hs' hs)

theorem Triple.bind {P : σ → Prop} {M : α → σ → Prop} {Q : β → σ → Prop}
(hx : Triple c P x M) (hf : ∀ a, Triple c (M a) (f a) Q) : Triple c P (x >>= f) Q :=
  fun s hs => ((hx s hs).mono fun a s' h => hf a s' h).bind

/-- One step, from an assertion that survives until it is taken to ones that survive after it. -/
theorem Triple.atomic {P : σ → Prop} {Q : α → σ → Prop} (hP : Stable c P) (hQ : ∀ a, Stable c (Q a))
    (h : ∀ s i, P s → c.allows s i → c.guar s (act i s).2 ∧ Q (act i s).1 (act i s).2) :
    Triple c P (atomic act) Q := by
  intro s hs s' hs' i hi
  obtain ⟨hguar, hpost⟩ := h s' i (hP.star hs' hs) hi
  exact ⟨hguar, fun t ht => (hQ _).star ht hpost⟩

theorem Triple.mono {P P' : σ → Prop} {Q Q' : α → σ → Prop}
    (h : Triple c P x Q) (hP : ∀ s, P' s → P s) (hQ : ∀ a s, Q a s → Q' a s) : Triple c P' x Q' :=
  fun s hs => (h s (hP s hs)).mono hQ

/-! ## Part of a state -/

section Zoom

variable {ι' σ' : Type} {get : σ' → σ} {put : σ' → σ → σ'} {read : ι' → ι}

/-- A computation over a part of the state. -/
def zoom (get : σ' → σ) (put : σ' → σ → σ') (read : ι' → ι) :
    Coroutine ι σ α → Coroutine ι' σ' α
  | done a => done a
  | step update next => step (fun i s => put s (update (read i) (get s))) fun i s =>
      (next (read i) (get s)).zoom get put read

/-- A view of one component distributes over the sequence. -/
theorem zoom_bind (x : Coroutine ι σ α) (f : α → Coroutine ι σ β) :
    (x >>= f).zoom get put read = x.zoom get put read >>= fun a => (f a).zoom get put read := by
  induction x with
  | done => rfl
  | step _ _ ih =>
    show step _ _ = step _ _
    congr 1
    funext i s
    exact ih (read i) (get s)

variable {c' : Contract ι' σ'}

theorem rely_star (h : ∀ s s', c'.rely s s' → c.rely (get s) (get s'))
    {s s' : σ'} (hs : Relation.ReflTransGen c'.rely s s') :
    Relation.ReflTransGen c.rely (get s) (get s') := by
  induction hs with
  | refl => exact .refl
  | tail _ hstep ih => exact ih.tail (h _ _ hstep)

variable {R : σ' → Prop}

/-- What holds of a component holds of the whole, when its assumptions are those of the component.
-/
theorem Holds.zoom {Q : α → σ → Prop}
    (hget : ∀ s a, get (put s a) = a) (hrely : ∀ s s', c'.rely s s' → c.rely (get s) (get s'))
    (hallows : ∀ s i, c'.allows s i → c.allows (get s) (read i))
    (hguar : ∀ s a, R s → c.guar (get s) a → c'.guar s (put s a) ∧ R (put s a))
    (hR : Stable c' R) : ∀ {s : σ'}, R s → Holds c x Q (get s) →
      Holds c' (x.zoom get put read) (fun a s => Q a (get s) ∧ R s) s := by
  induction x with
  | done => exact fun hs h s' hs' => ⟨h _ (rely_star hrely hs'), hR.star hs' hs⟩
  | step _ _ ih =>
    intro s hs h s' hs' i hi
    obtain ⟨hstep, hnext⟩ := h _ (rely_star hrely hs') (read i) (hallows s' i hi)
    obtain ⟨hput, hrest⟩ := hguar s' _ (hR.star hs' hs) hstep
    refine ⟨hput, ih (read i) (get s') hrest ?_⟩
    rwa [hget]

theorem Triple.zoom {P : σ → Prop} {Q : α → σ → Prop}
    (hget : ∀ s a, get (put s a) = a) (hrely : ∀ s s', c'.rely s s' → c.rely (get s) (get s'))
    (hallows : ∀ s i, c'.allows s i → c.allows (get s) (read i))
    (hguar : ∀ s a, R s → c.guar (get s) a → c'.guar s (put s a) ∧ R (put s a))
    (hR : Stable c' R) (h : Triple c P x Q) :
    Triple c' (fun s => P (get s) ∧ R s) (x.zoom get put read) fun a s => Q a (get s) ∧ R s :=
  fun s hs => Holds.zoom hget hrely hallows hguar hR hs.2 (h (get s) hs.1)

end Zoom

/-! ## Exceptions -/

section Except

variable {ε : Type}

/-- A coroutine that returns or raises. -/
abbrev Fallible (ι σ ε α : Type) := ExceptT ε (Coroutine ι σ) α

/-- One step that does not raise. -/
def perform (act : ι → σ → α × σ) : Fallible ι σ ε α := ExceptT.lift (atomic act)

/-- One step that may raise. -/
def tryPerform (act : ι → σ → Except ε α × σ) : Fallible ι σ ε α := ExceptT.mk (atomic act)

variable {P : σ → Prop}

theorem Triple.perform {Q : Except ε α → σ → Prop}
    (hP : Stable c P) (hQ : ∀ a, Stable c (Q (.ok a)))
    (h : ∀ s i, P s → c.allows s i → c.guar s (act i s).2 ∧ Q (.ok (act i s).1) (act i s).2) :
    Triple c P (perform act : Fallible ι σ ε α) Q :=
  Triple.bind (Triple.atomic hP hQ h) fun a => Triple.pure (hQ a) fun _ hs => hs

theorem Triple.tryPerform {Q : Except ε α → σ → Prop}
    {act : ι → σ → Except ε α × σ} (hP : Stable c P) (hQ : ∀ r, Stable c (Q r))
    (h : ∀ s i, P s → c.allows s i → c.guar s (act i s).2 ∧ Q (act i s).1 (act i s).2) :
    Triple c P (tryPerform act) Q :=
  Triple.atomic hP hQ h

/-- The outcome as a value: `try: x except e` with the handling left to the caller. -/
def attempt {ε' : Type} (x : Fallible ι σ ε α) : Fallible ι σ ε' (Except ε α) :=
  ExceptT.lift x.run

theorem Triple.except_pure {Q : Except ε α → σ → Prop} (hP : Stable c P)
    (h : ∀ s, P s → Q (.ok a) s) : Triple c P (Pure.pure a : Fallible ι σ ε α) Q :=
  Triple.pure hP h

theorem Triple.except_throw {Q : Except ε α → σ → Prop} {e : ε} (hP : Stable c P)
    (h : ∀ s, P s → Q (.error e) s) : Triple c P (throw e : Fallible ι σ ε α) Q :=
  Triple.pure hP h

variable {M : Except ε α → σ → Prop}

/-- After an exception nothing else runs. -/
theorem Triple.except_bind {Q : Except ε β → σ → Prop}
    {x : Fallible ι σ ε α} {f : α → Fallible ι σ ε β} (hx : Triple c P x M)
    (hf : ∀ a, Triple c (M (.ok a)) (f a) Q) (he : ∀ e, Stable c (M (.error e)))
    (hq : ∀ e s, M (.error e) s → Q (.error e) s) : Triple c P (x >>= f : Fallible ι σ ε β) Q := by
  refine Triple.bind (M := M) hx fun a => ?_
  cases a with
  | ok a => exact hf a
  | error e => exact Triple.pure (he e) (hq e)

/-- The caller goes on from the outcome, whichever it is. -/
theorem Triple.attempt_bind {ε' : Type}
    {Q : Except ε' β → σ → Prop} {x : Fallible ι σ ε α} {f : Except ε α → Fallible ι σ ε' β}
    (hx : Triple c P x M) (hm : ∀ r, Stable c (M r)) (hf : ∀ r, Triple c (M r) (f r) Q) :
    Triple c P (attempt x >>= f : Fallible ι σ ε' β) Q := by
  refine Triple.bind (M := fun r s => ∃ a, r = .ok a ∧ M a s) ?_ fun r => ?_
  · exact Triple.bind hx fun a => Triple.pure (hm a) fun _ hs => ⟨a, rfl, hs⟩
  · cases r with
    | ok a =>
      rintro s ⟨_, h, hs⟩
      cases h
      exact hf a s hs
    | error =>
      rintro s ⟨_, h, _⟩
      cases h

end Except

end Coroutine

/-! ## Pools -/

/-- Coroutines over one state. -/
structure Pool (ι σ α : Type) where
  world : σ
  routines : List (Coroutine ι σ α)

namespace Pool

variable {ι σ α : Type}

/-- One step of the `n`-th coroutine; `none` when there is none to take. -/
def advance (pool : Pool ι σ α) (n : ℕ) (i : ι) : Option (Pool ι σ α) :=
  match pool.routines[n]? with
  | some (.step update next) =>
    some ⟨update i pool.world, pool.routines.set n (next i pool.world)⟩
  | _ => none

def spawn (pool : Pool ι σ α) (x : Coroutine ι σ α) : Pool ι σ α :=
  ⟨pool.world, pool.routines ++ [x]⟩

variable {c : ℕ → Coroutine.Contract ι σ} {Q : ℕ → α → σ → Prop} {pool pool' : Pool ι σ α} {n : ℕ}
  {i : ι}

theorem advance_length (h : pool.advance n i = some pool') :
    pool'.routines.length = pool.routines.length ∧ n < pool.routines.length := by
  unfold advance at h
  split at h
  · rename_i update next hx
    cases h
    exact ⟨List.length_set, (List.getElem?_eq_some_iff.mp hx).1⟩
  · cases h

def Holds (c : ℕ → Coroutine.Contract ι σ) (Q : ℕ → α → σ → Prop) (pool : Pool ι σ α) : Prop :=
  ∀ n x, pool.routines[n]? = some x → Coroutine.Holds (c n) x (Q n) pool.world

theorem holds_interfere (h : Holds c Q pool) {world : σ}
    (hrely : ∀ n, (c n).rely pool.world world) : Holds c Q ⟨world, pool.routines⟩ :=
  fun n x hx => (h n x hx).rely (.single (hrely n))

/-- Coroutines that have returned ask for nothing more. -/
theorem holds_of_isDone (h : ∀ x ∈ pool.routines, x.isDone = true) :
    Holds c (fun _ _ _ => True) pool := by
  intro n x hx
  cases x with
  | done => exact fun _ _ => trivial
  | step => exact nomatch h _ (List.mem_of_getElem? hx)

/-- A routine that holds joins a pool that holds. -/
theorem holds_spawn (h : Holds c Q pool) {x : Coroutine ι σ α}
    (hx : Coroutine.Holds (c pool.routines.length) x (Q pool.routines.length) pool.world) :
    Holds c Q (pool.spawn x) := by
  intro n y hy
  rw [spawn, List.getElem?_append] at hy
  split_ifs at hy with hn
  · exact h n y hy
  · rw [List.getElem?_singleton] at hy
    split_ifs at hy with hzero
    cases hy
    obtain rfl : n = pool.routines.length := by omega
    exact hx

/-- A step is a promise kept, and everybody's contract survives it. -/
theorem holds_advance (h : Holds c Q pool) (hadv : pool.advance n i = some pool')
    (hallows : (c n).allows pool.world i)
    (hcompat : ∀ m, m ≠ n → ∀ s s', (c n).guar s s' → (c m).rely s s') :
    (c n).guar pool.world pool'.world ∧ Holds c Q pool' := by
  unfold advance at hadv
  split at hadv
  · rename_i update next hx
    cases hadv
    obtain ⟨hguar, hnext⟩ := h n _ hx pool.world .refl i hallows
    refine ⟨hguar, fun m x hm => ?_⟩
    rw [List.getElem?_set] at hm
    split_ifs at hm with hmn
    · subst hmn
      cases hm
      exact hnext
    · exact (h m x hm).rely (.single (hcompat m (Ne.symm hmn) _ _ hguar))
  · cases hadv

/-- A single routine: what it may assume is what nobody does. -/
theorem holds_advance_alone {c : Coroutine.Contract ι σ} {Q : α → σ → Prop} {s : σ}
    {x : Coroutine ι σ α} (h : Coroutine.Holds c x Q s)
    (hadv : advance ⟨s, [x]⟩ n i = some pool') (hallows : c.allows s i) :
    ∃ y, pool' = ⟨pool'.world, [y]⟩ ∧ c.guar s pool'.world ∧
      Coroutine.Holds c y Q pool'.world := by
  unfold advance at hadv
  split at hadv
  · rename_i update next hx
    cases hadv
    rw [List.getElem?_singleton] at hx
    split_ifs at hx with hn
    subst hn
    cases hx
    exact ⟨next i s, rfl, h s .refl i hallows⟩
  · cases hadv

end Pool

end LocalAgent
