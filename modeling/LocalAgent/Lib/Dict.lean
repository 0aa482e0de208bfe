import Mathlib.Algebra.BigOperators.Group.List.Basic
import Mathlib.Data.List.Sort
import Mathlib.Tactic.Abel

/-!
# LocalAgent.Lib.Dict — insertion-ordered dictionaries

A `Dict κ ν` is a finite map that remembers the order in which its keys were first inserted, as
the dictionaries of the modelled language do: overwriting a key keeps its position, a new key goes
to the end.  The entries carry a proof that no key occurs twice, so `get?` and membership of an
entry say the same thing (`get?_eq_some_iff`).
-/

namespace LocalAgent

/-- A dictionary: entries in insertion order, no key twice. -/
structure Dict (κ ν : Type*) where
  entries : List (κ × ν)
  nodup : (entries.map Prod.fst).Nodup
  deriving DecidableEq

namespace Dict

variable {κ ν : Type*}

/-- The keys, in insertion order. -/
def keys (d : Dict κ ν) : List κ := d.entries.map Prod.fst

/-- The values, in insertion order of their keys. -/
def values (d : Dict κ ν) : List ν := d.entries.map Prod.snd

/-- The dictionary without entries. -/
def empty : Dict κ ν := ⟨[], by simp⟩

instance : Inhabited (Dict κ ν) := ⟨empty⟩

@[simp] theorem keys_empty : (empty : Dict κ ν).keys = [] := rfl

@[simp] theorem values_empty : (empty : Dict κ ν).values = [] := rfl

@[simp] theorem entries_empty : (empty : Dict κ ν).entries = [] := rfl

theorem keys_nodup (d : Dict κ ν) : d.keys.Nodup := d.nodup

variable {k : κ} {v : ν} {l : List (κ × ν)}

theorem mem_keys_of_mem {d : Dict κ ν} (h : (k, v) ∈ d.entries) : k ∈ d.keys :=
  List.mem_map_of_mem (f := Prod.fst) h

theorem mem_values_of_mem {d : Dict κ ν} (h : (k, v) ∈ d.entries) : v ∈ d.values :=
  List.mem_map_of_mem (f := Prod.snd) h

theorem ext_entries {d d' : Dict κ ν} (h : d.entries = d'.entries) : d = d' := by
  cases d
  cases d'
  simpa using h

variable [DecidableEq κ]

/-- `d.get(k)`. -/
def get? (d : Dict κ ν) (k : κ) : Option ν := d.entries.lookup k

/-- Overwrite `k` in place, or append it. -/
def setEntries (k : κ) (v : ν) : List (κ × ν) → List (κ × ν)
  | [] => [(k, v)]
  | e :: l => if e.1 = k then (k, v) :: l else e :: setEntries k v l

theorem map_fst_setEntries (k : κ) (v : ν) (l : List (κ × ν)) :
    (setEntries k v l).map Prod.fst =
      if k ∈ l.map Prod.fst then l.map Prod.fst else l.map Prod.fst ++ [k] := by
  induction l with
  | nil => simp [setEntries]
  | cons e _ ih =>
    by_cases he : e.1 = k
    · simp [setEntries, he]
    · have hk : k ≠ e.1 := fun h => he h.symm
      simp only [setEntries, he, if_false, List.map_cons, ih, List.mem_cons, hk, false_or]
      split_ifs <;> simp

/-- `d[k] = v`. -/
def set (d : Dict κ ν) (k : κ) (v : ν) : Dict κ ν where
  entries := setEntries k v d.entries
  nodup := by
    rw [map_fst_setEntries]
    split_ifs with h
    · exact d.nodup
    · rw [← List.concat_eq_append]
      exact List.Nodup.concat h d.nodup

/-- `d.pop(k, None)`, the dictionary that is left. -/
def erase (d : Dict κ ν) (k : κ) : Dict κ ν where
  entries := d.entries.filter (fun e => e.1 ≠ k)
  nodup := d.nodup.sublist (List.Sublist.map Prod.fst List.filter_sublist)

/-- Apply `f` to every value. -/
def mapValues {ω : Type*} (d : Dict κ ν) (f : ν → ω) : Dict κ ω where
  entries := d.entries.map fun e => (e.1, f e.2)
  nodup := by simpa [List.map_map, Function.comp_def] using d.nodup

/-- Apply `f` to every key and value. -/
def mapWithKey {ω : Type*} (d : Dict κ ν) (f : κ → ν → ω) : Dict κ ω where
  entries := d.entries.map fun e => (e.1, f e.1 e.2)
  nodup := by simpa [List.map_map, Function.comp_def] using d.nodup

/-! ## Lookup -/

theorem lookup_eq_some_iff_of_nodup (hnd : (l.map Prod.fst).Nodup)
: l.lookup k = some v ↔ (k, v) ∈ l := by
  induction l with
  | nil => simp
  | cons e l ih =>
    obtain ⟨a, b⟩ := e
    simp only [List.map_cons, List.nodup_cons] at hnd
    rw [List.lookup_cons]
    by_cases h : k = a
    · subst h
      have hk : (k, v) ∉ l := fun hm => hnd.1 (List.mem_map_of_mem (f := Prod.fst) hm)
      simp [hk, eq_comm]
    · have hb : (k == a) = false := by simpa using h
      simp [hb, ih hnd.2, h]

theorem get?_eq_some_iff {d : Dict κ ν} {k : κ} {v : ν} : d.get? k = some v ↔ (k, v) ∈ d.entries :=
  lookup_eq_some_iff_of_nodup d.nodup

theorem get?_eq_none_iff {d : Dict κ ν} {k : κ} : d.get? k = none ↔ k ∉ d.keys := by
  constructor
  · intro h hk
    obtain ⟨⟨a, v⟩, hm, rfl⟩ := List.mem_map.mp hk
    rw [get?_eq_some_iff.mpr hm] at h
    cases h
  · intro hk
    cases h : d.get? k with
    | none => rfl
    | some => exact absurd (mem_keys_of_mem (get?_eq_some_iff.mp h)) hk

theorem mem_keys_iff {d : Dict κ ν} : k ∈ d.keys ↔ ∃ v, d.get? k = some v := by
  rw [← Option.isSome_iff_exists, ← not_iff_not, ← get?_eq_none_iff]
  simp

theorem mem_values_iff {d : Dict κ ν} : v ∈ d.values ↔ ∃ k, d.get? k = some v := by
  constructor
  · intro h
    obtain ⟨⟨k, w⟩, hm, rfl⟩ := List.mem_map.mp h
    exact ⟨k, get?_eq_some_iff.mpr hm⟩
  · rintro ⟨k, hk⟩
    exact mem_values_of_mem (get?_eq_some_iff.mp hk)

@[simp] theorem get?_empty (k : κ) : (empty : Dict κ ν).get? k = none := rfl

@[simp] theorem get?_set (d : Dict κ ν) (k k' : κ) (v : ν) :
    (d.set k v).get? k' = if k' = k then some v else d.get? k' := by
  obtain ⟨l, hl⟩ := d
  show (setEntries k v l).lookup k' = if k' = k then some v else l.lookup k'
  clear hl
  induction l with
  | nil =>
    by_cases h : k' = k
    · simp [setEntries, h]
    · have hb : (k' == k) = false := by simpa using h
      simp [setEntries, List.lookup_cons, hb, h]
  | cons e _ ih =>
    obtain ⟨a, b⟩ := e
    by_cases ha : a = k
    · subst ha
      by_cases h : k' = a
      · simp [setEntries, h]
      · have hb : (k' == a) = false := by simpa using h
        simp [setEntries, List.lookup_cons, hb, h]
    · simp only [setEntries, ha, if_false, List.lookup_cons, ih]
      by_cases h : k' = k
      · have hb : (k == a) = false := by simpa using fun hh : k = a => ha hh.symm
        simp [hb, h]
      · simp [h]

/-- What is found after an update is the new value or an old one under another key. -/
theorem get?_set_cases {d : Dict κ ν} {k k' : κ} {v w : ν} (h : (d.set k v).get? k' = some w) :
    k' = k ∧ w = v ∨ k' ≠ k ∧ d.get? k' = some w := by
  rw [get?_set] at h
  split_ifs at h with hk
  · exact .inl ⟨hk, (Option.some.inj h).symm⟩
  · exact .inr ⟨hk, h⟩

/-- What is found after an update and is not the new value was there before. -/
theorem get?_of_set {d : Dict κ ν} {k k' : κ} {v w : ν} (h : (d.set k v).get? k' = some w)
    (hne : w ≠ v) : d.get? k' = some w :=
  ((get?_set_cases h).resolve_left fun hcase => hne hcase.2).2

@[simp] theorem get?_erase (d : Dict κ ν) (k k' : κ) :
    (d.erase k).get? k' = if k' = k then none else d.get? k' := by
  have key : ∀ v, (d.erase k).get? k' = some v ↔ k' ≠ k ∧ d.get? k' = some v := by
    intro v
    rw [get?_eq_some_iff, get?_eq_some_iff]
    simp [erase, and_comm]
  split_ifs with h
  · cases hv : (d.erase k).get? k' with
    | none => rfl
    | some v => exact absurd h ((key v).mp hv).1
  · refine Option.ext fun v => ?_
    simpa [h] using key v

@[simp] theorem get?_mapValues {ω : Type*} (d : Dict κ ν) (f : ν → ω) (k : κ) :
    (d.mapValues f).get? k = (d.get? k).map f := by
  obtain ⟨l, hl⟩ := d
  show (l.map fun e => (e.1, f e.2)).lookup k = (l.lookup k).map f
  clear hl
  induction l with
  | nil => rfl
  | cons e _ ih =>
    obtain ⟨a, b⟩ := e
    rw [List.map_cons, List.lookup_cons, List.lookup_cons, ih]
    cases k == a <;> rfl

@[simp] theorem get?_mapWithKey {ω : Type*} (d : Dict κ ν) (f : κ → ν → ω) (k : κ) :
    (d.mapWithKey f).get? k = (d.get? k).map (f k) := by
  obtain ⟨l, hl⟩ := d
  show (l.map fun e => (e.1, f e.1 e.2)).lookup k = (l.lookup k).map (f k)
  clear hl
  induction l with
  | nil => rfl
  | cons e _ ih =>
    obtain ⟨a, b⟩ := e
    rw [List.map_cons, List.lookup_cons, List.lookup_cons, ih]
    by_cases h : k = a
    · subst h
      simp
    · have hb : (k == a) = false := by simpa using h
      simp [hb]

/-! ## Keys and entries after an update -/

theorem keys_set (d : Dict κ ν) (k : κ) (v : ν) :
    (d.set k v).keys = if k ∈ d.keys then d.keys else d.keys ++ [k] :=
  map_fst_setEntries k v d.entries

variable {k' : κ} {ω : Type*} {f : ν → ω} {v' : ν}

@[simp] theorem mem_keys_set {d : Dict κ ν} : k' ∈ (d.set k v).keys ↔ k' = k ∨ k' ∈ d.keys := by
  rw [keys_set]
  split_ifs with h
  · exact ⟨Or.inr, fun h' => h'.elim (fun e => e ▸ h) id⟩
  · simp [or_comm]

@[simp] theorem mem_keys_erase {d : Dict κ ν} : k' ∈ (d.erase k).keys ↔ k' ≠ k ∧ k' ∈ d.keys := by
  simp [keys, erase, and_comm]

theorem setEntries_of_not_mem (h : k ∉ l.map Prod.fst) : setEntries k v l = l ++ [(k, v)] := by
  induction l with
  | nil => rfl
  | cons _ _ ih =>
    simp only [List.map_cons, List.mem_cons, not_or] at h
    simp [setEntries, Ne.symm h.1, ih h.2]

theorem entries_set_of_not_mem {d : Dict κ ν} (h : k ∉ d.keys) :
    (d.set k v).entries = d.entries ++ [(k, v)] :=
  setEntries_of_not_mem h

theorem values_set_of_not_mem {d : Dict κ ν} (h : k ∉ d.keys) :
    (d.set k v).values = d.values ++ [v] := by
  simp [values, entries_set_of_not_mem h]

theorem map_snd_setEntries (hf : f v' = f v) :
    ∀ {l : List (κ × ν)}, l.lookup k = some v →
      (setEntries k v' l).map (fun e => f e.2) = l.map fun e => f e.2
  | [], h => nomatch h
  | e :: l, h => by
    by_cases he : e.1 = k
    · obtain ⟨k', w⟩ := e
      obtain rfl : k' = k := he
      obtain rfl : w = v := by simpa using h
      simp [setEntries, hf]
    · have hne : (k == e.1) = false := by simpa using fun hk : k = e.1 => he hk.symm
      rw [List.lookup_cons, hne] at h
      simp [setEntries, he, map_snd_setEntries hf h]

/-- An update in place that `f` does not see. -/
theorem map_values_set {d : Dict κ ν}
    (h : d.get? k = some v) (hf : f v' = f v) : (d.set k v').values.map f = d.values.map f := by
  rw [values, values, List.map_map, List.map_map]
  exact map_snd_setEntries hf h

/-! ## Dictionaries built in a loop -/

theorem mem_keys_foldl_set {ι : Type*} {f : ι → κ} {g : ι → ν} {l : List ι} {d : Dict κ ν} :
    k ∈ (l.foldl (fun d e => d.set (f e) (g e)) d).keys ↔ k ∈ d.keys ∨ k ∈ l.map f := by
  induction l generalizing d with
  | nil => simp
  | cons _ _ ih =>
    rw [List.foldl_cons, ih, mem_keys_set, List.map_cons, List.mem_cons]
    tauto

theorem get?_foldl_set {g : κ → ν} {l : List κ} {d : Dict κ ν} {k : κ} :
    (l.foldl (fun d k => d.set k (g k)) d).get? k = if k ∈ l then some (g k) else d.get? k := by
  induction l generalizing d with
  | nil => simp
  | cons a _ ih =>
    rw [List.foldl_cons, ih, get?_set]
    by_cases hk : k = a
    all_goals simp [hk]

theorem setEntries_comm (hne : k ≠ k') (v v' : ν) (hk : k ∈ l.map Prod.fst) :
    setEntries k' v' (setEntries k v l) = setEntries k v (setEntries k' v' l) := by
  induction l with
  | nil => cases hk
  | cons e l ih =>
    by_cases h : e.1 = k
    · simp [setEntries, h, hne]
    · have hl : k ∈ l.map Prod.fst := by
        rcases List.mem_cons.mp hk with he | hl
        · exact absurd he.symm h
        · exact hl
      by_cases h' : e.1 = k'
      · have hne' : k' ≠ k := fun he => hne he.symm
        simp [setEntries, h', hne']
      · simp [setEntries, h, h', ih hl]

theorem setEntries_self (hnd : (l.map Prod.fst).Nodup) (h : (k, v) ∈ l) : setEntries k v l = l := by
  induction l with
  | nil => cases h
  | cons e _ ih =>
    simp only [List.map_cons, List.nodup_cons] at hnd
    rcases List.mem_cons.mp h with rfl | hl
    · simp [setEntries]
    · have hne : e.1 ≠ k := fun he => hnd.1 (he ▸ List.mem_map_of_mem (f := Prod.fst) hl)
      simp [setEntries, hne, ih hnd.2 hl]

/-- The last write of a key counts. -/
theorem set_set (d : Dict κ ν) (k : κ) (v v' : ν) : (d.set k v).set k v' = d.set k v' := by
  refine ext_entries ?_
  change setEntries k v' (setEntries k v d.entries) = setEntries k v' d.entries
  induction d.entries with
  | nil => simp [setEntries]
  | cons e _ ih =>
    by_cases he : e.1 = k
    · simp [setEntries, he]
    · simp [setEntries, he, ih]

/-- Writing what is there changes nothing. -/
theorem set_self {d : Dict κ ν} (h : d.get? k = some v) : d.set k v = d :=
  ext_entries (setEntries_self d.nodup (get?_eq_some_iff.mp h))

/-- Writes of different keys, of which the first is there, commute. -/
theorem set_comm {d : Dict κ ν} (hne : k ≠ k') (hk : k ∈ d.keys) (v v' : ν) :
    (d.set k v).set k' v' = (d.set k' v').set k v :=
  ext_entries (setEntries_comm hne v v' hk)

/-! ## Sums over entries -/

section Sum

variable {M : Type*} [AddCommGroup M]

/-- The sum of `f` over the entries. -/
def sumBy (d : Dict κ ν) (f : κ → ν → M) : M := (d.entries.map fun e => f e.1 e.2).sum

omit [DecidableEq κ] in
@[simp] theorem sumBy_empty (f : κ → ν → M) : (empty : Dict κ ν).sumBy f = 0 := rfl

theorem sum_setEntries {f : κ → ν → M} (hnd : (l.map Prod.fst).Nodup) :
    ((setEntries k v l).map fun e => f e.1 e.2).sum =
      (l.map fun e => f e.1 e.2).sum - (l.lookup k).elim 0 (f k) + f k v := by
  induction l with
  | nil => simp [setEntries]
  | cons e _ ih =>
    obtain ⟨a, b⟩ := e
    simp only [List.map_cons, List.nodup_cons] at hnd
    by_cases ha : a = k
    · subst ha
      simp only [setEntries, if_true, List.map_cons, List.sum_cons, List.lookup_cons, beq_self_eq_true,
        Option.elim_some]
      abel
    · have hb : (k == a) = false := by simpa using fun h : k = a => ha h.symm
      simp only [setEntries, ha, if_false, List.map_cons, List.sum_cons, List.lookup_cons, hb,
        ih hnd.2]
      abel

/-- Overwriting a key replaces its summand. -/
theorem sumBy_set (d : Dict κ ν) (k : κ) (v : ν) (f : κ → ν → M) :
    (d.set k v).sumBy f = d.sumBy f - (d.get? k).elim 0 (f k) + f k v :=
  sum_setEntries d.nodup

/-- Removing a key removes its summand. -/
theorem sumBy_erase (d : Dict κ ν) (k : κ) (f : κ → ν → M) :
    (d.erase k).sumBy f = d.sumBy f - (d.get? k).elim 0 (f k) := by
  obtain ⟨l, hl⟩ := d
  show ((l.filter fun e => e.1 ≠ k).map fun e => f e.1 e.2).sum =
    (l.map fun e => f e.1 e.2).sum - (l.lookup k).elim 0 (f k)
  induction l with
  | nil => simp
  | cons e l ih =>
    obtain ⟨a, b⟩ := e
    simp only [List.map_cons, List.nodup_cons] at hl
    by_cases ha : a = k
    · subst ha
      have hfilter : (l.filter fun e => e.1 ≠ a) = l := by
        refine List.filter_eq_self.mpr fun e he => ?_
        simpa using fun h : e.1 = a => hl.1 (h ▸ List.mem_map_of_mem (f := Prod.fst) he)
      simp only [ne_eq, decide_not] at hfilter
      simp [hfilter]
    · have hb : (k == a) = false := by simpa using fun h : k = a => ha h.symm
      rw [List.filter_cons_of_pos (by simpa using ha)]
      simp only [List.map_cons, List.sum_cons, List.lookup_cons, hb, ih hl.2]
      abel

theorem sumBy_congr {d : Dict κ ν} {f g : κ → ν → M}
    (h : ∀ k v, d.get? k = some v → f k v = g k v) : d.sumBy f = d.sumBy g := by
  refine congrArg List.sum (List.map_congr_left fun e he => ?_)
  exact h e.1 e.2 (get?_eq_some_iff.mpr he)

end Sum

/-! ## Counts of entries -/

section Count

/-- The number of entries in `p`. -/
def countBy (p : κ → ν → Bool) (d : Dict κ ν) : ℕ := d.entries.countP fun e => p e.1 e.2

omit [DecidableEq κ] in
theorem countBy_mono {p q : κ → ν → Bool} {d : Dict κ ν}
    (h : ∀ e ∈ d.entries, p e.1 e.2 = true → q e.1 e.2 = true) : d.countBy p ≤ d.countBy q :=
  List.countP_mono_left h

omit [DecidableEq κ] in
theorem countBy_add_le {p q r : κ → ν → Bool} {d : Dict κ ν}
    (h : ∀ e ∈ d.entries, p e.1 e.2 = true → q e.1 e.2 = true ∨ r e.1 e.2 = true) :
    d.countBy p ≤ d.countBy q + d.countBy r := by
  obtain ⟨l, hnd⟩ := d
  simp only [countBy] at h ⊢
  clear hnd
  induction l with
  | nil => exact Nat.le_refl 0
  | cons e _ ih =>
    have hrest := ih fun x hx => h x (List.mem_cons_of_mem _ hx)
    have hfirst := h e List.mem_cons_self
    simp only [List.countP_cons]
    cases hp : p e.1 e.2 with
    | false => simp only [Bool.false_eq_true, if_false]; omega
    | true =>
      rcases hfirst hp with hq | hr
      · simp only [hq, if_true]; omega
      · simp only [hr, if_true]; omega

theorem countP_setEntries {p : κ → ν → Bool} (hnd : (l.map Prod.fst).Nodup) :
    (setEntries k v l).countP (fun e => p e.1 e.2) =
      l.countP (fun e => p e.1 e.2 && e.1 ≠ k) + (p k v).toNat := by
  induction l with
  | nil => cases h : p k v <;> simp [setEntries, h]
  | cons e l ih =>
    simp only [List.map_cons, List.nodup_cons] at hnd
    by_cases he : e.1 = k
    · have hrest : l.countP (fun e => p e.1 e.2 && e.1 ≠ k) = l.countP fun e => p e.1 e.2 := by
        refine List.countP_congr fun x hx => ?_
        have hne : x.1 ≠ k := fun h => hnd.1 (he.trans h.symm ▸ List.mem_map_of_mem hx)
        simp [hne]
      simp only [setEntries, he, if_true, List.countP_cons, hrest]
      cases p k v <;> simp
    · simp only [setEntries, he, if_false, List.countP_cons, ih hnd.2]
      cases p e.1 e.2 <;> simp [he]; omega

/-- The other entries, and the one that is written. -/
theorem countBy_set (d : Dict κ ν) (k : κ) (v : ν) (p : κ → ν → Bool) :
    (d.set k v).countBy p = d.countBy (fun k' v' => p k' v' && k' ≠ k) + (p k v).toNat :=
  countP_setEntries d.nodup

/-- An entry is written that is in `p` only if the former one was. -/
theorem countBy_set_le_of_get? {d : Dict κ ν} {k : κ} {v v' : ν} {p : κ → ν → Bool}
    (h : d.get? k = some v) (hp : p k v' = true → p k v = true) :
    (d.set k v').countBy p ≤ d.countBy p := by
  have hself := countBy_set d k v p
  rw [set_self h] at hself
  rw [countBy_set, hself]
  refine Nat.add_le_add_left ?_ _
  cases hv : p k v' with
  | false => exact Nat.zero_le _
  | true => rw [hp hv]

/-- An entry outside of `p` is written: the count does not grow. -/
theorem countBy_set_le {d : Dict κ ν} {p : κ → ν → Bool} (h : p k v = false) :
    (d.set k v).countBy p ≤ d.countBy p := by
  rw [countBy_set, h, Bool.toNat_false, Nat.add_zero]
  exact countBy_mono fun e _ he => ((Bool.and_eq_true _ _).mp he).1

/-- A new entry is counted for itself. -/
theorem countBy_set_of_none {d : Dict κ ν} {p : κ → ν → Bool}
    (h : d.get? k = none) : (d.set k v).countBy p = d.countBy p + (p k v).toNat := by
  rw [countBy_set, countBy, countBy]
  congr 1
  refine List.countP_congr fun e he => ?_
  have hne : e.1 ≠ k := by
    rintro rfl
    exact get?_eq_none_iff.mp h (List.mem_map_of_mem he)
  simp [hne]

end Count

/-! ## Sorting by key -/

section Sorted

variable [LinearOrder κ]

/-- The same dictionary with its entries in the order of the keys. -/
def sorted (d : Dict κ ν) : Dict κ ν where
  entries := d.entries.insertionSort (fun a b => a.1 ≤ b.1)
  nodup := (((List.perm_insertionSort _ d.entries).map Prod.fst).nodup_iff).mpr d.nodup

@[simp] theorem get?_sorted (d : Dict κ ν) (k : κ) : d.sorted.get? k = d.get? k := by
  refine Option.ext fun v => ?_
  rw [get?_eq_some_iff, get?_eq_some_iff]
  exact (List.perm_insertionSort _ d.entries).mem_iff

theorem mem_values_sorted {d : Dict κ ν} : v ∈ d.sorted.values ↔ v ∈ d.values := by
  simp [mem_values_iff]

omit [DecidableEq κ] in
/-- The keys of a sorted dictionary go up. -/
theorem pairwise_sorted (d : Dict κ ν) : d.sorted.entries.Pairwise fun a b => a.1 < b.1 := by
  have hle : d.sorted.entries.Pairwise fun a b => a.1 ≤ b.1 :=
    List.pairwise_insertionSort (fun a b : κ × ν => a.1 ≤ b.1) d.entries
  have hne : d.sorted.entries.Pairwise fun a b => a.1 ≠ b.1 :=
    List.pairwise_map.mp d.sorted.nodup
  exact (hle.and hne).imp fun h => lt_of_le_of_ne h.1 h.2

@[simp] theorem mem_keys_sorted (d : Dict κ ν) (k : κ) : k ∈ d.sorted.keys ↔ k ∈ d.keys := by
  rw [mem_keys_iff, mem_keys_iff]
  simp

end Sorted

end Dict

end LocalAgent
