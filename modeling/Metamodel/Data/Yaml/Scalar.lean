import Metamodel.Data.Yaml.Cursor
import Metamodel.Text.Digit
import Metamodel.Text.Split

/-!
Texts in YAML, without quotes, in one of two kinds of quotes, or as a block of lines, and what a
text without quotes stands for.

Line ends inside a text are folded: one becomes a space, and of several the first is left out.
-/

namespace Metamodel.Yaml

/-- What so many line ends between two lines of a text become. -/
def folded (lineEnds : Nat) : Chars :=
  if lineEnds = 1 then [' '] else List.replicate (lineEnds - 1) '\n'

def trimBlanks (cs : Chars) : Chars := (cs.reverse.dropWhile isBlank).reverse

/-! ## Texts without quotes -/

/-- Whether a colon before this ends a key. -/
def endsKey (inFlow : Bool) (cs : Chars) : Bool :=
  endsWord cs || (inFlow && cs.head?.any isFlowMark)

/-- The characters of a text without quotes in one line. -/
def plainLine (inFlow : Bool) : Chars → Chars
  | [] => []
  | c :: rest =>
    if c = '\n' || (inFlow && isFlowMark c) || (c = ':' && endsKey inFlow rest) ||
        (isBlank c && rest.head? = some '#') then []
    else c :: plainLine inFlow rest

/-- Further lines of a text, at most `fuel`, that are indented by more than `indent`. -/
def plainLinesWithin (inFlow : Bool) (indent : Int) : Nat → Cursor → Chars × Cursor
  | 0, c => ([], c)
  | fuel + 1, c =>
    let space := c.rest.takeWhile fun d => isBlank d || d = '\n'
    let lineEnds := space.count '\n'
    let next := c.skip space.length
    let line := trimBlanks (plainLine inFlow next.rest)
    let isOutside := !inFlow && (next.column : Int) ≤ indent
    if lineEnds = 0 || isOutside || next.isAtEnd || next.rest.head? = some '#' || line.isEmpty then
      ([], c)
    else
      let (more, c) := plainLinesWithin inFlow indent fuel (next.skip line.length)
      (folded lineEnds ++ line ++ more, c)

/-- A text without quotes, and the place after it. -/
def plain (inFlow : Bool) (indent : Int) (c : Cursor) : Chars × Cursor :=
  let line := trimBlanks (plainLine inFlow c.rest)
  let (more, c) := plainLinesWithin inFlow indent c.rest.length (c.skip line.length)
  (line ++ more, c)

/-! ## Texts in quotes -/

def escapedChar? : Char → Option Char
  | '0' => some '\x00'
  | 'a' => some '\x07'
  | 'b' => some '\x08'
  | 't' | '\t' => some '\t'
  | 'n' => some '\n'
  | 'v' => some '\x0b'
  | 'f' => some '\x0c'
  | 'r' => some '\r'
  | 'e' => some '\x1b'
  | ' ' => some ' '
  | '"' => some '"'
  | '/' => some '/'
  | '\\' => some '\\'
  | 'N' => some '\u0085'
  | '_' => some '\u00a0'
  | 'L' => some '\u2028'
  | 'P' => some '\u2029'
  | _ => none

/-- How many hexadecimal digits follow a letter after a backslash. -/
def codeLength? : Char → Option Nat
  | 'x' => some 2
  | 'u' => some 4
  | 'U' => some 8
  | _ => none

/-- What a backslash begins, without it: the text that it stands for, and how long it is. A line end
is left out with the blanks around it. -/
def escape? : Chars → Option (Chars × Nat)
  | [] => none
  | '\n' :: rest =>
    let space := rest.takeWhile fun c => isBlank c || c = '\n'
    some (List.replicate (space.count '\n') '\n', space.length + 1)
  | c :: rest =>
    match codeLength? c with
    | none => (escapedChar? c).map fun d => ([d], 1)
    | some places => do
      let (code, _) ← Text.hexDigits? places rest
      return ([← Text.charOf? code], places + 1)

/-- Blanks and line ends at the beginning of `cs`, as they count in a text. -/
def space (cs : Chars) : Chars × Nat :=
  let taken := cs.takeWhile fun c => isBlank c || c = '\n'
  let lineEnds := taken.count '\n'
  (if lineEnds = 0 then taken else folded lineEnds, taken.length)

/-- The rest of a text in double quotes, of at most `fuel` parts, and how long it is. -/
def doubleQuotedWithin? : Nat → Chars → Option (Chars × Nat)
  | 0, _ => none
  | _ + 1, [] => none
  | fuel + 1, c :: rest =>
    if c = '"' then some ([], 1)
    else
      let part? :=
        if c = '\\' then (escape? rest).map fun (text, length) => (text, length + 1)
        else if isBlank c || c = '\n' then some (space (c :: rest))
        else some ([c], 1)
      part?.bind fun (text, length) =>
        (doubleQuotedWithin? fuel ((c :: rest).drop length)).map fun (more, further) =>
          (text ++ more, length + further)

/-- The rest of a text in single quotes, of at most `fuel` parts, and how long it is. A quote is
written twice. -/
def singleQuotedWithin? : Nat → Chars → Option (Chars × Nat)
  | 0, _ => none
  | _ + 1, [] => none
  | fuel + 1, c :: rest =>
    if c = '\'' && rest.head? ≠ some '\'' then some ([], 1)
    else
      let (text, length) :=
        if c = '\'' then ([c], 2)
        else if isBlank c || c = '\n' then space (c :: rest)
        else ([c], 1)
      (singleQuotedWithin? fuel ((c :: rest).drop length)).map fun (more, further) =>
        (text ++ more, length + further)

/-- A text in quotes, and the place after it. -/
def quoted? (c : Cursor) : Option (Chars × Cursor) :=
  let text? :=
    match c.rest with
    | '"' :: rest => doubleQuotedWithin? (rest.length + 1) rest
    | '\'' :: rest => singleQuotedWithin? (rest.length + 1) rest
    | _ => none
  text?.map fun (text, length) => (text, c.skip (length + 1))

/-! ## Blocks of lines -/

/-- What becomes of the line ends at the end of a block. -/
inductive Chomping
  | strip
  | clip
  | keep
  deriving DecidableEq

/-- The lines of a block as one text. Folding joins lines that do not begin with a blank. -/
def joinBlock (folds : Bool) : List Chars → Chars
  | [] => []
  | line :: rest =>
    let empty := rest.takeWhile (·.isEmpty)
    match rest.drop empty.length with
    | [] => line
    | next :: _ =>
      let starts (cs : Chars) : Bool := cs.head?.any isBlank
      let lineEnds := empty.length + 1
      let between :=
        if folds && !line.isEmpty && !starts line && !starts next then folded lineEnds
        else List.replicate lineEnds '\n'
      if line.isEmpty then '\n' :: joinBlock folds rest
      else line ++ between ++ joinBlock folds (rest.drop empty.length)
termination_by lines => lines.length
decreasing_by all_goals simp; try omega

/-- The indentation of a block: that of its first line that is not blank. -/
def blockIndent (indent : Nat) (lines : List Chars) : Nat :=
  let first := lines.find? fun line => line.any (· ≠ ' ')
  max indent ((first.map fun line => (line.takeWhile (· = ' ')).length).getD indent)

/-- A block of lines below the indentation of what it stands in, and the place after it. Behind the
mark that begins it are its own indentation and what becomes of its end. -/
def block (folds : Bool) (indent : Int) (c : Cursor) : Chars × Cursor :=
  let header := c.rest.takeWhile fun d => d.isDigit || d = '+' || d = '-'
  let body := (c.rest.dropWhile (· ≠ '\n')).drop 1
  let lines := Text.splitWhere (· = '\n') body
  -- What is behind the last line end is a line only if there is anything.
  let lines := if lines.getLast? = some [] then lines.dropLast else lines
  let written := header.find? Char.isDigit
  let column :=
    match written with
    | some d => indent.toNat + (d.toNat - '0'.toNat)
    | none => blockIndent (indent + 1).toNat lines
  let inside := lines.takeWhile fun line =>
    line.all (· = ' ') || column ≤ (line.takeWhile (· = ' ')).length
  let content := inside.map (·.drop column)
  let ends := (content.reverse.takeWhile (·.isEmpty)).length
  let text := joinBlock folds (content.take (content.length - ends))
  let chomping : Chomping :=
    if header.contains '-' then .strip else if header.contains '+' then .keep else .clip
  let lineEnds :=
    match chomping with
    | .strip => 0
    | .clip => if text.isEmpty then 0 else 1
    | .keep => ends + (if ends = content.length then 0 else 1)
  let length := (c.rest.length - body.length) + inside.flatten.length + inside.length
  (text ++ List.replicate lineEnds '\n', c.skip length)

/-! ## What texts without quotes stand for -/

/-- The kind of value that is asked for in front of it. -/
inductive Tag
  /-- One of the kinds that every document knows. -/
  | core (name : String)
  | other
  deriving DecidableEq

def within64? (i : Option Int) : Option Int := i.filter fun i => -Int.pow 2 63 ≤ i ∧ i < Int.pow 2 63

/-- An integer after at most one sign, in some base. -/
def signed? (base : Nat) : Chars → Option Int
  | '-' :: digits => (Text.natOf? base digits).map fun n => -(n : Int)
  | '+' :: digits => (Text.natOf? base digits).map Int.ofNat
  | digits => (Text.natOf? base digits).map Int.ofNat

/-- An integer of 64 bits in one of three bases, or after one sign more. -/
def int? (cs : Chars) : Option Int :=
  let special :=
    match cs with
    | '0' :: 'x' :: digits => within64? (signed? 16 digits)
    | '0' :: 'o' :: digits => within64? (signed? 8 digits)
    | '+' :: rest => within64? (signed? 10 rest)
    | _ => none
  special <|> within64? (signed? 10 cs)

/-- A number with a fraction or an exponent, or beyond 64 bits. -/
def float? (cs : Chars) : Option Decimal.Number :=
  if cs.any Char.isDigit then (Decimal.Numeral.ofChars? cs).map Decimal.Number.ofNumeral else none

/-- The words for numbers that digits cannot write. They are refused. -/
def isNonFinite (text : String) : Bool :=
  [".inf", ".Inf", ".INF", "+.inf", "+.Inf", "+.INF", "-.inf", "-.Inf", "-.INF", ".nan", ".NaN",
    ".NAN"].contains text

/-- The value of a text without quotes and tag. -/
def plainValue? (text : String) : Option Data :=
  if isNonFinite text then none
  else if ["", "~", "null"].contains text then some .null
  else if text = "true" then some (.bool true)
  else if text = "false" then some (.bool false)
  else
    (int? text.toList).map .int <|> (float? text.toList).map .number <|> some (.text text)

/-- The value of a text without quotes behind a tag. -/
def taggedValue? (tag : Option Tag) (text : String) : Option Data :=
  match tag with
  | none => plainValue? text
  | some (.core "bool") =>
    some (if text = "true" then .bool true else if text = "false" then .bool false else .null)
  | some (.core "int") => some (((within64? (signed? 10 text.toList)).map .int).getD .null)
  | some (.core "float") =>
    if isNonFinite text then none else some (((float? text.toList).map .number).getD .null)
  | some (.core "null") => some .null
  | some _ => some (.text text)

end Metamodel.Yaml
