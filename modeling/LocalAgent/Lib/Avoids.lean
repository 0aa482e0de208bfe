import LocalAgent.Lib.Op

/-!
# LocalAgent.Lib.Avoids — computations that never raise one exception

`Avoids e x P`: the computation `x` does not raise `e`, and what it returns is in `P`.  One rule for
every way a computation is put together; a loop keeps an invariant (`avoids_foldlM`).
-/

namespace LocalAgent

variable {ε α β : Type}

/-- `x` does not raise `e`, and what it returns is in `P`. -/
def Avoids (e : ε) (x : Except ε α) (P : α → Prop) : Prop :=
  x ≠ .error e ∧ ∀ a, x = .ok a → P a

variable {e : ε} {x : Except ε α} {f : α → Except ε β} {P : α → Prop} {Q : β → Prop}

theorem avoids_ok {a : α} (h : P a) : Avoids e (.ok a) P :=
  ⟨nofun, fun _ hb => Except.ok.inj hb ▸ h⟩

variable {e' : ε}

theorem avoids_error (h : e' ≠ e) : Avoids e (.error e' : Except ε α) P :=
  ⟨fun heq => h (Except.error.inj heq), nofun⟩

theorem Avoids.bind (hx : Avoids e x P) (hf : ∀ a, P a → Avoids e (f a) Q) :
    Avoids e (x >>= f) Q := by
  cases hcase : x with
  | error =>
    refine avoids_error ?_
    rintro rfl
    exact hx.1 hcase
  | ok a => exact hf a (hx.2 a hcase)

theorem Avoids.mono {P' : α → Prop} (hx : Avoids e x P) (h : ∀ a, P a → P' a) : Avoids e x P' :=
  ⟨hx.1, fun a ha => h a (hx.2 a ha)⟩

theorem avoids_raiseIf {c : Prop} [Decidable c] (h : e' ≠ e) :
    Avoids e (raiseIf c e') fun _ => ¬ c := by
  unfold raiseIf
  split_ifs with hc
  · exact avoids_error h
  · exact avoids_ok hc

theorem avoids_orRaise {o : Option α} (h : e' ≠ e) :
    Avoids e (orRaise o e') fun a => o = some a := by
  cases o with
  | none => exact avoids_error h
  | some => exact avoids_ok rfl

theorem avoids_foldlM {ι : Type} {g : α → ι → Except ε α} {Inv : α → Prop}
    (hstep : ∀ a i, Inv a → Avoids e (g a i) Inv) :
    ∀ {l : List ι} {a : α}, Inv a → Avoids e (l.foldlM g a) Inv
  | [], _, ha => avoids_ok ha
  | i :: l, a, ha => by
    rw [List.foldlM_cons]
    exact (hstep a i ha).bind fun b hb => avoids_foldlM hstep hb

end LocalAgent
