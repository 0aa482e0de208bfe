import Mathlib.Data.Nat.Digits.Defs
import Mathlib.Tactic.IntervalCases
import LocalAgent.Lib.Dict
import LocalAgent.Lib.Json
import LocalAgent.Lib.Sha256

/-!
# LocalAgent.Lib.JsonSize — sizes of canonical texts

* `Json.size_obj`: the size of an object is that of its items, in any order.
* `Json.setItem`: an item that is written adds its own bytes at the most.
-/

namespace LocalAgent

namespace Json

/-! ## Items of objects -/

/-- `value[k]`; `none` where the value has no such item. -/
def get? (value : Json) (k : String) : Option Json :=
  match value with
  | .obj fields => fields.lookup k
  | .null | .bool _ | .int _ | .str _ | .arr _ => none

/-- `value[k] = item`. -/
def setItem (value : Json) (k : String) (item : Json) : Option Json :=
  match value with
  | .obj fields => some (.obj (Dict.setEntries k item fields))
  | .null | .bool _ | .int _ | .str _ | .arr _ => none

/-! ## Sizes of canonical texts -/

/-- The bytes of the canonical text. -/
def size (value : Json) : ℕ := (canonical value).utf8ByteSize

/-- The bytes of an item with its key and one separator. -/
def itemSize (k : String) (value : Json) : ℕ := (quote k).utf8ByteSize + 2 + value.size

/-- The bytes of the items with their keys and separators. -/
def itemsSize (fields : List (String × Json)) : ℕ :=
  (fields.map fun f => itemSize f.1 f.2).sum

/-- The bytes of texts that are joined by commas. -/
theorem size_intercalate (texts : List String) :
    (",".intercalate texts).utf8ByteSize =
      (texts.map fun t => t.utf8ByteSize + 1).sum - 1 := by
  have hcomma : (",").utf8ByteSize = 1 := by decide +kernel
  induction texts with
  | nil => rfl
  | cons _ texts ih =>
    cases texts with
    | nil => simp
    | cons =>
      rw [String.intercalate_cons_cons, String.utf8ByteSize_append, String.utf8ByteSize_append, ih,
        hcomma]
      simp only [List.map_cons, List.sum_cons]
      omega

theorem canonicalFields_eq (fields : List (String × Json)) :
    canonicalFields fields = fields.map fun f => (f.1, canonical f.2) := by
  induction fields with
  | nil => rfl
  | cons _ _ ih => rw [canonicalFields, ih, List.map_cons]

/-- The order of the keys does not matter for the size of an object. -/
theorem size_obj (fields : List (String × Json)) :
    (Json.obj fields).size = itemsSize fields - 1 + 2 := by
  have hperm : ((sortFields (canonicalFields fields)).map fun f => quote f.1 ++ ":" ++ f.2).Perm
      (fields.map fun f => quote f.1 ++ ":" ++ canonical f.2) := by
    refine ((List.perm_insertionSort _ (canonicalFields fields)).map _).trans ?_
    rw [canonicalFields_eq, List.map_map]
    exact List.Perm.refl _
  have hsum := ((hperm.map fun t => t.utf8ByteSize + 1)).sum_eq
  have hcolon : (":").utf8ByteSize = 1 := by decide +kernel
  have hbraces : ("\x7b").utf8ByteSize = 1 ∧ ("\x7d").utf8ByteSize = 1 := by decide +kernel
  rw [size, canonical, String.utf8ByteSize_append, String.utf8ByteSize_append, size_intercalate,
    hsum, List.map_map, hbraces.1, hbraces.2]
  have hitems : (fields.map ((fun t => t.utf8ByteSize + 1) ∘ fun f => quote f.1 ++ ":" ++
      canonical f.2)).sum = itemsSize fields := by
    refine congrArg List.sum (List.map_congr_left fun f _ => ?_)
    simp only [Function.comp_apply, String.utf8ByteSize_append, hcolon, itemSize, size]
    omega
  rw [hitems]
  omega

/-- An item that is written adds its own bytes at the most. -/
theorem itemsSize_setEntries_le (k : String) (item : Json) (fields : List (String × Json)) :
    itemsSize (Dict.setEntries k item fields) ≤ itemsSize fields + itemSize k item := by
  induction fields with
  | nil => simp [Dict.setEntries, itemsSize]
  | cons f _ ih =>
    by_cases hk : f.1 = k
    · simp only [Dict.setEntries, hk, if_true, itemsSize, List.map_cons, List.sum_cons]
      omega
    · simp only [Dict.setEntries, hk, if_false, itemsSize, List.map_cons, List.sum_cons] at ih ⊢
      omega

variable {k : String} {fields : List (String × Json)}

/-- An item that is replaced gives its bytes back. -/
theorem itemsSize_setEntries {item old : Json} (h : fields.lookup k = some old) :
    itemsSize (Dict.setEntries k item fields) + old.size = itemsSize fields + item.size := by
  induction fields with
  | nil => cases h
  | cons f _ ih =>
    by_cases hk : f.1 = k
    · rw [List.lookup_cons, beq_iff_eq.mpr hk.symm] at h
      cases h
      simp only [Dict.setEntries, hk, if_true, itemsSize, List.map_cons, List.sum_cons, itemSize]
      omega
    · have hne : (k == f.1) = false := beq_eq_false_iff_ne.mpr fun he => hk he.symm
      rw [List.lookup_cons, hne] at h
      have := ih h
      simp only [Dict.setEntries, hk, if_false, itemsSize, List.map_cons, List.sum_cons] at this ⊢
      omega

/-- An item takes less than all of them. -/
theorem size_lt_itemsSize {value : Json}
    (h : fields.lookup k = some value) : value.size < itemsSize fields := by
  induction fields with
  | nil => cases h
  | cons _ _ ih =>
    simp only [itemsSize, List.map_cons, List.sum_cons, itemSize] at ih ⊢
    rw [List.lookup_cons] at h
    split at h
    · cases h
      omega
    · have := ih h
      omega

theorem size_setItem {item value value' : Json}
    (h : value.setItem k item = some value') : value'.size ≤ value.size + itemSize k item := by
  cases value with
  | obj fields =>
    cases h
    have hle := itemsSize_setEntries_le k item fields
    rw [size_obj, size_obj]
    omega
  | _ => cases h

/-- Writing a key again costs the difference of the two values. -/
theorem size_setItem_of_get? {k : String} {item old value value' : Json}
    (hget : value.get? k = some old) (h : value.setItem k item = some value') :
    value'.size + old.size = value.size + item.size := by
  cases value with
  | obj fields =>
    cases h
    have heq : itemsSize (Dict.setEntries k item fields) + old.size =
        itemsSize fields + item.size := itemsSize_setEntries hget
    have hold := size_lt_itemsSize hget
    rw [size_obj, size_obj]
    omega
  | _ => cases h

/-! ## Sizes of scalars -/

theorem size_escapeChar (c : Char) : String.utf8Len (escapeChar c) ≤ 6 := by
  unfold escapeChar
  have hdigit : ∀ n, (hexChar n).utf8Size = 1 := by
    intro n
    have hlt : n % 16 < 16 := Nat.mod_lt _ (by omega)
    unfold hexChar
    generalize n % 16 = m at hlt
    interval_cases m <;> decide
  have hsize := Char.utf8Size_le_four c
  split_ifs <;> simp [String.utf8Len, hex4, hdigit] <;> first | decide | omega

/-- The bytes of a string literal. -/
theorem size_quote (s : String) : (quote s).utf8ByteSize ≤ 6 * s.length + 2 := by
  have hchars : ∀ cs : List Char, String.utf8Len (cs.flatMap escapeChar) ≤ 6 * cs.length := by
    intro cs
    induction cs with
    | nil => exact Nat.zero_le _
    | cons c =>
      rw [List.flatMap_cons, String.utf8Len_append, List.length_cons]
      have := size_escapeChar c
      omega
  have hquote : ("\"").utf8ByteSize = 1 := by decide +kernel
  have := hchars s.toList
  rw [quote, String.utf8ByteSize_append, String.utf8ByteSize_append, hquote,
    String.utf8ByteSize_ofList]
  simp only [String.length_toList] at this
  omega

end Json

end LocalAgent
