import Mathlib.Data.List.Nodup
import Mathlib.Logic.Relation

/-!
# LocalAgent.Lib.TopoOrder — lists in dependency order

`ReadyOrder deps done order`: walking `order` from the left, every element has its dependencies in
`done` or earlier in the list.  Such an order gives an induction principle over the elements
(`ReadyOrder.induction`) without any talk of paths or cycles, and excludes cycles
(`ReadyOrder.acyclic`).
-/

namespace LocalAgent

section TopoOrder

variable {α : Type*} (deps : α → List α)

/-- Every element finds its dependencies in `done` or earlier in the list. -/
def ReadyOrder : List α → List α → Prop
  | _, [] => True
  | done, x :: xs => deps x ⊆ done ∧ ReadyOrder (x :: done) xs

variable {deps} {x : α} {order : List α} {P : α → Prop} {done : List α}

theorem readyOrder_concat {xs : List α} :
    ReadyOrder deps done (xs ++ [x]) ↔
      ReadyOrder deps done xs ∧ ∀ y ∈ deps x, y ∈ done ∨ y ∈ xs := by
  induction xs generalizing done with
  | nil =>
    simp only [List.nil_append, ReadyOrder, and_true, true_and, List.not_mem_nil, or_false]
    exact Iff.rfl
  | cons _ _ ih =>
    simp only [List.cons_append, ReadyOrder, ih, List.mem_cons]
    constructor
    · rintro ⟨h1, h2, h3⟩
      exact ⟨⟨h1, h2⟩, fun y hy => by rcases h3 y hy with (h | h) | h <;> simp [h]⟩
    · rintro ⟨⟨h1, h2⟩, h3⟩
      exact ⟨h1, h2, fun y hy => by rcases h3 y hy with h | h | h <;> simp [h]⟩

theorem ReadyOrder.deps_before {before rest : List α}
    (h : ReadyOrder deps done (before ++ x :: rest)) : ∀ y ∈ deps x, y ∈ done ∨ y ∈ before := by
  rw [List.append_cons] at h
  refine (readyOrder_concat.mp ?_).2
  generalize before ++ [x] = front at h ⊢
  induction front generalizing done with
  | nil => trivial
  | cons _ _ ih => exact ⟨h.1, ih h.2⟩

theorem ReadyOrder.deps_mem (h : ReadyOrder deps done order)
    (hx : x ∈ order) : ∀ y ∈ deps x, y ∈ done ∨ y ∈ order := by
  induction order generalizing done with
  | nil => cases hx
  | cons a _ ih =>
    obtain ⟨hdeps, hrest⟩ := h
    intro y hy
    rcases List.mem_cons.mp hx with rfl | hx
    · exact Or.inl (hdeps hy)
    · rcases ih hrest hx y hy with hm | hm
      · rcases List.mem_cons.mp hm with rfl | hm
        · exact Or.inr List.mem_cons_self
        · exact Or.inl hm
      · exact Or.inr (List.mem_cons_of_mem a hm)

theorem ReadyOrder.induction_from (h : ReadyOrder deps done order)
(hdone : ∀ x ∈ done, P x) (hstep : ∀ x ∈ order, (∀ y ∈ deps x, P y) → P x) : ∀ x ∈ order, P x := by
  induction order generalizing done with
  | nil => simp
  | cons a _ ih =>
    obtain ⟨hdeps, hrest⟩ := h
    have ha : P a := hstep a List.mem_cons_self fun y hy => hdone y (hdeps hy)
    have htail := ih hrest (fun x hx => by
      rcases List.mem_cons.mp hx with rfl | hx
      · exact ha
      · exact hdone x hx) fun x hx => hstep x (List.mem_cons_of_mem a hx)
    intro x hx
    rcases List.mem_cons.mp hx with rfl | hx
    · exact ha
    · exact htail x hx

/-- **Induction along an order**: what passes from the dependencies of an element to the element
holds of every element. -/
theorem ReadyOrder.induction (h : ReadyOrder deps [] order)
    (hstep : ∀ x ∈ order, (∀ y ∈ deps x, P y) → P x) : ∀ x ∈ order, P x :=
  h.induction_from (by simp) hstep

/-- No chain of dependencies leads from an element of an order back to it. -/
theorem ReadyOrder.acyclic {R : α → α → Prop} (h : ReadyOrder deps [] order)
    (hdeps : ∀ x y, R x y → y ∈ deps x) : ∀ x ∈ order, ¬ Relation.TransGen R x x := by
  refine h.induction fun x _ ih hx => ?_
  -- a cycle through an element goes through one of its dependencies
  obtain ⟨y, hxy, hyx⟩ := Relation.TransGen.head'_iff.mp hx
  exact ih y (hdeps x y hxy) (Relation.TransGen.tail' hyx hxy)

end TopoOrder

end LocalAgent
