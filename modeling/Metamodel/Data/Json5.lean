import Metamodel.Data.Basic
import Metamodel.Text.CharClass
import Metamodel.Text.Digit
import Metamodel.Text.Escape

/-!
Reading JSON5: JSON with comments, keys without quotes, strings in single quotes, commas after the
last entry, and more ways to write numbers.
-/

namespace Metamodel.Json5

abbrev Chars := List Char

/-! ## Spaces and comments -/

def isLineEnd (c : Char) : Bool := c = '\n' || c = '\r' || c = '\u2028' || c = '\u2029'

/-- What follows the end of a comment. -/
def afterComment : Chars → Chars
  | [] => []
  | '*' :: '/' :: rest => rest
  | _ :: rest => afterComment rest

/-- Skips at most `fuel` comments, and the spaces before and after them. -/
def skipWithin : Nat → Chars → Chars
  | 0, cs => cs
  | fuel + 1, cs =>
    match cs.dropWhile fun c => Text.isBlank c || c = '\ufeff' with
    | '/' :: '/' :: rest => skipWithin fuel (rest.dropWhile (!isLineEnd ·))
    | '/' :: '*' :: rest => skipWithin fuel (afterComment rest)
    | rest => rest

/-- Skips spaces and comments. -/
def skip (cs : Chars) : Chars := skipWithin (cs.length + 1) cs

/-! ## Strings, keys and numbers -/

/-- The text for what follows a backslash. A line end is left out. -/
def escape? : Chars → Option (Chars × Chars)
  | [] => none
  | '\r' :: '\n' :: rest => some ([], rest)
  | '0' :: rest => some (['\x00'], rest)
  | 'b' :: rest => some (['\x08'], rest)
  | 'f' :: rest => some (['\x0c'], rest)
  | 'n' :: rest => some (['\n'], rest)
  | 'r' :: rest => some (['\r'], rest)
  | 't' :: rest => some (['\t'], rest)
  | 'v' :: rest => some (['\x0b'], rest)
  | 'x' :: rest => do
    let (code, rest) ← Text.hexDigits? 2 rest
    return ([← Text.charOf? code], rest)
  | 'u' :: rest => (Text.unit16Escape? rest).map fun (c, rest) => ([c], rest)
  | c :: rest => if isLineEnd c then some ([], rest) else some ([c], rest)

/-- Strings in one of the two quotes. -/
def quoting (quote : Char) : Text.Quoting := ⟨quote, fun c => c ≠ '\n' && c ≠ '\r', escape?⟩

/-- Whether a character may stand in a key without quotes. -/
def isKeyChar (c : Char) : Bool := Text.isWord c || c = '$'

/-- A key, and what follows it. -/
def key? : Chars → Option (String × Chars)
  | '"' :: rest => (quoting '"').text? rest
  | '\'' :: rest => (quoting '\'').text? rest
  | cs =>
    let name := cs.takeWhile isKeyChar
    if name.isEmpty then none else some (String.ofList name, cs.dropWhile isKeyChar)

/-- An integer of 64 bits in decimal or hexadecimal notation. -/
def int? (negative : Bool) (cs : Chars) : Option Int :=
  let magnitude :=
    match cs with
    | '0' :: 'x' :: digits | '0' :: 'X' :: digits => Text.natOf? 16 digits
    | '0' :: _ :: _ => none
    | digits => Decimal.nat? digits
  let value := magnitude.map fun n => if negative then -(n : Int) else n
  value.filter fun i => -Int.pow 2 63 ≤ i ∧ i < Int.pow 2 63

/-- The number that a word with a sign in front of it writes. -/
def numberOf? (negative : Bool) (word : Chars) : Option Data :=
  if word = "Infinity".toList then some (.number (.infinite negative))
  else if word = "NaN".toList then some (.number .undefined)
  else
    let float := (Decimal.Numeral.unsigned? negative word).map Decimal.Number.ofNumeral
    (int? negative word).map .int <|>
      (float.filter (· ≠ .infinite negative)).map .number

/-- A number, and what follows it. -/
def number? (cs : Chars) : Option (Data × Chars) :=
  let (negative, digits) :=
    match cs with
    | '-' :: rest => (true, rest)
    | '+' :: rest => (false, rest)
    | _ => (false, cs)
  -- A sign belongs to the number only after the letter of an exponent.
  let isDigits (c : Char) : Bool := c.isAlphanum || c = '.'
  let first := digits.takeWhile isDigits
  let rest := digits.dropWhile isDigits
  let isHex := "0x".toList.isPrefixOf first || "0X".toList.isPrefixOf first
  let isOpen := !isHex && first.getLast?.any fun c => c = 'e' || c = 'E'
  match rest with
  | sign :: rest =>
    if isOpen && (sign = '+' || sign = '-') then
      (numberOf? negative (first ++ sign :: rest.takeWhile Char.isDigit)).map fun d =>
        (d, rest.dropWhile Char.isDigit)
    else (numberOf? negative first).map fun d => (d, sign :: rest)
  | [] => (numberOf? negative first).map fun d => (d, [])

/-! ## Values -/

/-- A value of a word, and what follows it. -/
def word? (cs : Chars) : Option (Data × Chars) :=
  let word := String.ofList (cs.takeWhile isKeyChar)
  ([("null", Data.null), ("true", .bool true), ("false", .bool false)].lookup word).map fun d =>
    (d, cs.dropWhile isKeyChar)

mutual

/-- A value of a nesting below `fuel`, and what follows it. -/
def valueWithin? : Nat → Chars → Option (Data × Chars)
  | 0, _ => none
  | fuel + 1, cs =>
    match cs with
    | '"' :: rest => ((quoting '"').text? rest).map fun (text, rest) => (.text text, rest)
    | '\'' :: rest => ((quoting '\'').text? rest).map fun (text, rest) => (.text text, rest)
    | '[' :: rest =>
      (itemsWithin? fuel (skip rest)).map fun (items, rest) => (.list items, rest)
    | '\x7b' :: rest =>
      (fieldsWithin? fuel (skip rest)).map fun (fields, rest) => (Data.ofFields fields, rest)
    | cs => word? cs <|> number? cs

/-- The rest of an array. -/
def itemsWithin? : Nat → Chars → Option (List Data × Chars)
  | 0, _ => none
  | _ + 1, ']' :: rest => some ([], rest)
  | fuel + 1, cs => do
    let (item, rest) ← valueWithin? fuel cs
    match skip rest with
    | ',' :: rest =>
      let (items, rest) ← itemsWithin? fuel (skip rest)
      return (item :: items, rest)
    | ']' :: rest => return ([item], rest)
    | _ => none

/-- The rest of an object. -/
def fieldsWithin? : Nat → Chars → Option (List (String × Data) × Chars)
  | 0, _ => none
  | _ + 1, '\x7d' :: rest => some ([], rest)
  | fuel + 1, cs => do
    let (name, rest) ← key? cs
    match skip rest with
    | ':' :: rest =>
      let (d, rest) ← valueWithin? fuel (skip rest)
      match skip rest with
      | ',' :: rest =>
        let (fields, rest) ← fieldsWithin? fuel (skip rest)
        return ((name, d) :: fields, rest)
      | '\x7d' :: rest => return ([(name, d)], rest)
      | _ => none
    | _ => none

end

/-- The data that a text holds, if it is well formed. -/
def read? (text : String) : Option Data := do
  let cs := skip text.toList
  let (d, rest) ← valueWithin? (cs.length + 1) cs
  if (skip rest).isEmpty then some d else none

end Metamodel.Json5
