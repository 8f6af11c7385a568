import Metamodel.Data.Basic

/-!
The two written forms of data as JSON: compact, and indented by two spaces.
-/

namespace Metamodel.Data

namespace Json

/-- A character inside a JSON string: only quotes, backslashes and controls are escaped. -/
def escapeChar (c : Char) : String :=
  if c = '"' then "\\\""
  else if c = '\\' then "\\\\"
  else if c = '\n' then "\\n"
  else if c = '\r' then "\\r"
  else if c = '\t' then "\\t"
  else if c = '\x08' then "\\b"
  else if c = '\x0c' then "\\f"
  else if c.toNat < 0x20 then
    "\\u00" ++ String.ofList [Nat.digitChar (c.toNat / 16), Nat.digitChar (c.toNat % 16)]
  else c.toString

def quote (s : String) : String :=
  "\"" ++ String.join (s.toList.map escapeChar) ++ "\""

/-- A number that is not an integer; what is not finite has no written form. -/
def numberText : Decimal.Number → String
  | .finite negative b => (Decimal.Number.finite negative b).text
  | _ => "null"

end Json

open Json

mutual

/-- JSON without any space. -/
def compact : Data → String
  | .null => "null"
  | .bool b => if b then "true" else "false"
  | .int i => toString i
  | .number x => numberText x
  | .text s => quote s
  | .list items => "[" ++ ",".intercalate (compactItems items) ++ "]"
  | .record fields => "\x7b" ++ ",".intercalate (compactFields fields) ++ "\x7d"

def compactItems : List Data → List String
  | [] => []
  | d :: rest => d.compact :: compactItems rest

def compactFields : List (String × Data) → List String
  | [] => []
  | (name, d) :: rest => (quote name ++ ":" ++ d.compact) :: compactFields rest

end

/-- The entries of a non-empty container, each on a line of its own, one level deeper than
`depth`. -/
def block (opening closing : String) (depth : Nat) (entries : List String) : String :=
  if entries.isEmpty then opening ++ closing
  else
    let inner := "\n" ++ "".pushn ' ' (2 * (depth + 1))
    opening ++ inner ++ ("," ++ inner).intercalate entries ++ "\n" ++ "".pushn ' ' (2 * depth) ++
      closing

mutual

/-- JSON with one entry per line. -/
def pretty (depth : Nat) : Data → String
  | .list items => block "[" "]" depth (prettyItems (depth + 1) items)
  | .record fields => block "\x7b" "\x7d" depth (prettyFields (depth + 1) fields)
  | .null => "null"
  | .bool b => if b then "true" else "false"
  | .int i => toString i
  | .number x => numberText x
  | .text s => quote s

def prettyItems (depth : Nat) : List Data → List String
  | [] => []
  | d :: rest => d.pretty depth :: prettyItems depth rest

def prettyFields (depth : Nat) : List (String × Data) → List String
  | [] => []
  | (name, d) :: rest => (quote name ++ ": " ++ d.pretty depth) :: prettyFields depth rest

end

end Metamodel.Data
