import Mathlib.Data.List.Sort
import Mathlib.Data.String.Basic

/-!
# LocalAgent.Lib.Json — JSON values without floats

The JSON values that records are written to and read from, with the two texts the modelled
programs take of them: `Json.canonical`, the compact text with sorted keys that digests are taken
of, and `Json.str`, what the language's `str` gives for a value.
-/

namespace LocalAgent

/-- A JSON value; an object keeps its fields in order. -/
inductive Json where
  | null
  | bool (b : Bool)
  | int (n : ℤ)
  | str (s : String)
  | arr (items : List Json)
  | obj (fields : List (String × Json))
  deriving Repr

namespace Json

def ofOption : Option String → Json
  | none => .null
  | some s => .str s

/-- A hexadecimal digit. -/
def hexChar (n : ℕ) : Char := Nat.digitChar (n % 16)

/-- Four hexadecimal digits. -/
def hex4 (n : ℕ) : List Char :=
  [hexChar (n / 4096), hexChar (n / 256), hexChar (n / 16), hexChar n]

/-- One code point inside a JSON string, non-ASCII kept. -/
def escapeChar (c : Char) : List Char :=
  if c = '"' then ['\\', '"']
  else if c = '\\' then ['\\', '\\']
  else if c = '\n' then ['\\', 'n']
  else if c = '\r' then ['\\', 'r']
  else if c = '\t' then ['\\', 't']
  else if c.toNat = 8 then ['\\', 'b']
  else if c.toNat = 12 then ['\\', 'f']
  else if c.toNat < 32 then '\\' :: 'u' :: hex4 c.toNat
  else [c]

/-- A JSON string literal. -/
def quote (s : String) : String :=
  "\"" ++ String.ofList (s.toList.flatMap escapeChar) ++ "\""

/-- Fields in the order of their keys. -/
def sortFields (fields : List (String × String)) : List (String × String) :=
  fields.insertionSort (fun a b => a.1 ≤ b.1)

mutual

/-- `json.dumps(value, ensure_ascii=False, sort_keys=True, separators=(",", ":"))`. -/
def canonical : Json → String
  | .null => "null"
  | .bool b => if b then "true" else "false"
  | .int n => toString n
  | .str s => quote s
  | .arr items => "[" ++ ",".intercalate (canonicalItems items) ++ "]"
  | .obj fields =>
    "\x7b" ++ ",".intercalate
      ((sortFields (canonicalFields fields)).map fun f => quote f.1 ++ ":" ++ f.2) ++ "\x7d"

def canonicalItems : List Json → List String
  | [] => []
  | v :: vs => canonical v :: canonicalItems vs

/-- The keys with the texts of their values. -/
def canonicalFields : List (String × Json) → List (String × String)
  | [] => []
  | (k, v) :: fs => (k, canonical v) :: canonicalFields fs

end

/-- A code point as `ensure_ascii` writes it, the higher planes as two surrogates. -/
def asciiChar (c : Char) : List Char :=
  if 32 ≤ c.toNat ∧ c.toNat ≤ 126 then [c]
  else if c.toNat < 65536 then '\\' :: 'u' :: hex4 c.toNat
  else
    let rest := c.toNat - 65536
    '\\' :: 'u' :: hex4 (55296 + rest / 1024) ++ '\\' :: 'u' :: hex4 (56320 + rest % 1024)

/-- The text with `ensure_ascii=True`: outside strings a JSON text is ASCII. -/
def ensureAscii (text : String) : String := String.ofList (text.toList.flatMap asciiChar)

/-- `repr` of a string: single quotes unless only those occur in it. -/
def reprStr (s : String) : String :=
  let cs := s.toList
  let q := if '\'' ∈ cs ∧ '"' ∉ cs then '"' else '\''
  let body := cs.flatMap fun c =>
    if c = q ∨ c = '\\' then ['\\', c]
    else if c = '\n' then ['\\', 'n']
    else if c = '\r' then ['\\', 'r']
    else if c = '\t' then ['\\', 't']
    else if c.toNat < 32 ∨ 127 ≤ c.toNat ∧ c.toNat ≤ 160 then
      ['\\', 'x', hexChar (c.toNat / 16), hexChar c.toNat]
    else [c]
  String.ofList (q :: body ++ [q])

mutual

/-- `repr(value)`. -/
def repr : Json → String
  | .null => "None"
  | .bool b => if b then "True" else "False"
  | .int n => toString n
  | .str s => reprStr s
  | .arr items => "[" ++ ", ".intercalate (reprItems items) ++ "]"
  | .obj fields => "\x7b" ++ ", ".intercalate (reprFields fields) ++ "\x7d"

def reprItems : List Json → List String
  | [] => []
  | v :: vs => repr v :: reprItems vs

def reprFields : List (String × Json) → List String
  | [] => []
  | (k, v) :: fs => (reprStr k ++ ": " ++ repr v) :: reprFields fs

end

/-- `str(value)`: a string is itself, everything else as `repr`. -/
def toStr : Json → String
  | .str s => s
  | v => repr v

@[simp] theorem toStr_str (s : String) : toStr (.str s) = s := rfl

end Json

end LocalAgent
