import Mathlib.Tactic.Common
import Mathlib.Data.List.TakeWhile

/-!
# LocalAgent.Lib.Text — the string predicates of the modelled language

`strip`, `isBlank` and the case folding that a containment test for an ASCII word needs, over code
points.  A list of texts joined with a separator is read back by a split exactly when none of them
has the separator or is empty (`forall_mem_split_join_iff`).
-/

namespace LocalAgent

namespace Text

/-- `str.isspace` on one code point. -/
def isSpace (c : Char) : Bool :=
  let n := c.toNat
  (9 ≤ n && n ≤ 13) || (28 ≤ n && n ≤ 32) || n == 0x85 || n == 0xA0 || n == 0x1680 ||
    (0x2000 ≤ n && n ≤ 0x200A) || n == 0x2028 || n == 0x2029 || n == 0x202F || n == 0x205F ||
    n == 0x3000

/-- `str.strip()`. -/
def strip (s : String) : String :=
  String.ofList ((s.toList.dropWhile isSpace).reverse.dropWhile isSpace).reverse

/-- `not s.strip()`: nothing is left after stripping. -/
def isBlank (s : String) : Bool := s.toList.all isSpace

/-- The text has a NUL, which no text of a database has. -/
def hasNul (s : String) : Bool := Char.ofNat 0 ∈ s.toList

/-- The case folding of the code points whose folding holds an ASCII letter; every other code
point folds to code points outside ASCII letters and is kept, which no ASCII word can notice. -/
def casefoldChar (c : Char) : List Char :=
  match c.toNat with
  | 0xDF => ['s', 's'] | 0x1E9E => ['s', 's']
  | 0x130 => ['i', Char.ofNat 0x307]
  | 0x149 => [Char.ofNat 0x2BC, 'n']
  | 0x17F => ['s']
  | 0x1F0 => ['j', Char.ofNat 0x30C]
  | 0x1E96 => ['h', Char.ofNat 0x331] | 0x1E97 => ['t', Char.ofNat 0x308]
  | 0x1E98 => ['w', Char.ofNat 0x30A] | 0x1E99 => ['y', Char.ofNat 0x30A]
  | 0x1E9A => ['a', Char.ofNat 0x2BE]
  | 0x212A => ['k']
  | 0xFB00 => ['f', 'f'] | 0xFB01 => ['f', 'i'] | 0xFB02 => ['f', 'l']
  | 0xFB03 => ['f', 'f', 'i'] | 0xFB04 => ['f', 'f', 'l']
  | 0xFB05 => ['s', 't'] | 0xFB06 => ['s', 't']
  | _ => [c.toLower]

/-- `str.casefold()`, as far as a search for an ASCII word sees it. -/
def casefold (s : String) : List Char := s.toList.flatMap casefoldChar

/-- `word in text`, on code points. -/
def hasInfix (word text : List Char) : Bool :=
  text.tails.any (word.isPrefixOf ·)

abbrev NonBlank := { s : String // isBlank s = false }

/-! ## Texts joined with a separator -/

/-- `sep.join(parts)`. -/
def join (sep : Char) (parts : List String) : String :=
  String.ofList ([sep].intercalate (parts.map String.toList))

/-- `tuple(filter(None, text.split(sep)))`. -/
def splitNonempty (sep : Char) (text : String) : List String :=
  ((text.toList.splitOn sep).map String.ofList).filter (· ≠ "")

theorem not_mem_of_mem_splitOn {α : Type*} [DecidableEq α] {sep : α} : ∀ {l part : List α},
    part ∈ l.splitOn sep → sep ∉ part := by
  intro l
  induction l with
  | nil =>
    intro part h
    rw [List.splitOn_nil, List.mem_singleton] at h
    exact h ▸ List.not_mem_nil
  | cons _ l ih =>
    intro _ h
    rw [List.splitOn, List.splitOnP_cons_eq_if_modifyHead] at h
    split_ifs at h with ha
    · rcases List.mem_cons.mp h with rfl | h
      · exact List.not_mem_nil
      · exact ih h
    · obtain ⟨first, _, hsplit⟩ := List.exists_cons_of_ne_nil (List.splitOnP_ne_nil (· == sep) l)
      rw [hsplit, List.modifyHead_cons] at h
      rcases List.mem_cons.mp h with rfl | h
      · have hfirst : sep ∉ first := ih (by rw [List.splitOn, hsplit]; exact List.mem_cons_self)
        rintro (_ | ⟨_, hmem⟩)
        · exact ha (beq_self_eq_true sep)
        · exact hfirst hmem
      · exact ih (by rw [List.splitOn, hsplit]; exact List.mem_cons_of_mem _ h)

variable {sep : Char}

/-- What a split gives is neither empty nor has the separator. -/
theorem of_mem_splitNonempty {text part : String}
    (h : part ∈ splitNonempty sep text) : part ≠ "" ∧ sep ∉ part.toList := by
  rw [splitNonempty, List.mem_filter, List.mem_map] at h
  obtain ⟨⟨_, hchars, rfl⟩, hne⟩ := h
  refine ⟨of_decide_eq_true hne, ?_⟩
  rw [String.toList_ofList]
  exact not_mem_of_mem_splitOn hchars

variable {parts : List String}

/-- Parts that are not empty and do not have the separator come back. -/
theorem splitNonempty_join (h : ∀ part ∈ parts, part ≠ "" ∧ sep ∉ part.toList) :
    splitNonempty sep (join sep parts) = parts := by
  rw [splitNonempty, join, String.toList_ofList]
  rcases eq_or_ne parts [] with rfl | hne
  · rfl
  have hsplit : ([sep].intercalate (parts.map String.toList)).splitOn sep =
      parts.map String.toList := by
    refine List.splitOn_intercalate sep (fun chars hchars => ?_) (by simpa using hne)
    obtain ⟨part, hpart, rfl⟩ := List.mem_map.mp hchars
    exact (h part hpart).2
  have hback : (parts.map String.toList).map String.ofList = parts := by
    rw [List.map_map]
    exact (List.map_congr_left fun part _ => String.ofList_toList).trans (List.map_id _)
  rw [hsplit, hback, List.filter_eq_self]
  exact fun part hpart => decide_eq_true (h part hpart).1

theorem forall_mem_split_join_iff :
    (∀ part, part ∈ splitNonempty sep (join sep parts) ↔ part ∈ parts) ↔
      ∀ part ∈ parts, part ≠ "" ∧ sep ∉ part.toList := by
  constructor
  · exact fun h part hpart => of_mem_splitNonempty ((h part).mpr hpart)
  · intro h _
    rw [splitNonempty_join h]

end Text

end LocalAgent
