import Metamodel.Data.Basic
import Metamodel.Text.Digit
import Metamodel.Text.Split

/-!
Reading settings files of lines with a key and a value, under sections with a name in brackets.

Every value is text. Of two sections with one name the later stands, and so of two keys in a
section.
-/

namespace Metamodel.Ini

abbrev Chars := List Char

/-- A section begins, or a key has a value. -/
inductive Line
  | heading (name : String)
  | entry (key value : String)

/-- The text for what follows a backslash. A line end is left out. -/
def escape? : Chars → Option (Chars × Chars)
  | [] => none
  | '0' :: rest => some (['\x00'], rest)
  | 'a' :: rest => some (['\x07'], rest)
  | 'b' :: rest => some (['\x08'], rest)
  | 't' :: rest => some (['\t'], rest)
  | 'r' :: rest => some (['\r'], rest)
  | 'n' :: rest => some (['\n'], rest)
  | '\n' :: rest => some ([], rest)
  | 'x' :: rest => do
    let (code, rest) ← Text.hexDigits? 4 rest
    return ([← Text.charOf? code], rest)
  | c :: rest => some ([c], rest)

/-- At most `fuel` characters and escapes before an end, and what follows them. -/
def textWithin? (isEnd : Char → Bool) : Nat → Chars → Option (Chars × Chars)
  | 0, _ => none
  | _ + 1, [] => some ([], [])
  | fuel + 1, c :: rest =>
    if isEnd c then some ([], c :: rest)
    else do
      let (text, rest) ← if c = '\\' then escape? rest else some ([c], rest)
      let (more, rest) ← textWithin? isEnd fuel rest
      return (text ++ more, rest)

/-- The text before an end, and what follows it. -/
def textUntil? (isEnd : Char → Bool) (cs : Chars) : Option (Chars × Chars) :=
  textWithin? isEnd (cs.length + 1) cs

def isLineEnd (c : Char) : Bool := c = '\n' || c = '\r'

/-- A value of at most `fuel` parts, and what follows it: texts in quotes, and then the rest of the
line. Spaces count only between the two. -/
def valueWithin? : Nat → Bool → Chars → Option (Chars × Chars)
  | 0, _, _ => none
  | fuel + 1, isFirst, cs =>
    match cs with
    | '"' :: rest => quoted? fuel '"' rest
    | '\'' :: rest => quoted? fuel '\'' rest
    | cs => do
      let (text, rest) ← textUntil? isLineEnd cs
      return (if isFirst then Text.trimChars text else Text.trimEnd text, rest)
where
  /-- A text in quotes, and the parts that follow it. -/
  quoted? (fuel : Nat) (quote : Char) (cs : Chars) : Option (Chars × Chars) := do
    let (text, rest) ← textUntil? (· = quote) cs
    let (more, rest) ← valueWithin? fuel false (rest.drop 1)
    return (text ++ more, rest)

/-- A value, and what follows it. -/
def value? (cs : Chars) : Option (Chars × Chars) :=
  let cs := cs.dropWhile fun c => Text.isBlank c && !isLineEnd c
  valueWithin? (cs.length + 1) true cs

/-- At most `fuel` lines to the end of a file. -/
def linesWithin? : Nat → Chars → Option (List Line)
  | 0, _ => none
  | fuel + 1, cs =>
    match cs.dropWhile Text.isBlank with
    | [] => some []
    | ';' :: rest | '#' :: rest => linesWithin? fuel (rest.dropWhile (· ≠ '\n'))
    | '[' :: rest => do
      let (name, rest) ← textUntil? (· = ']') rest
      let lines ← linesWithin? fuel (rest.drop 1)
      return .heading (String.ofList (Text.trimChars name)) :: lines
    | cs => do
      let (key, rest) ← textUntil? (fun c => c = '=' || c = ':') cs
      match rest with
      | [] => none
      | _ :: rest =>
        let (value, rest) ← value? rest
        let key := Text.trimChars key
        if key.isEmpty then none
        else do
          let lines ← linesWithin? fuel rest
          return .entry (String.ofList key) (String.ofList value) :: lines

/-- The entries before the first section, and the sections. -/
def divide : List Line → List (String × Data) × List (String × Data)
  | [] => ([], [])
  | .entry key value :: rest =>
    let (entries, sections) := divide rest
    ((key, .text value) :: entries, sections)
  | .heading name :: rest =>
    let (entries, sections) := divide rest
    ([], (name, Data.ofFields entries) :: sections)

/-- The record that a file holds, if it is well formed. -/
def read? (text : String) : Option Data :=
  let cs := text.toList
  (linesWithin? (cs.length + 1) cs).map fun lines =>
    let (entries, sections) := divide lines
    Data.ofFields (entries ++ sections)

end Metamodel.Ini
