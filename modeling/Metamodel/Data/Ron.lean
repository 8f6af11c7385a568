import Metamodel.Data.Basic
import Metamodel.Text.CharClass
import Metamodel.Text.Digit
import Metamodel.Text.Escape

/-!
Reading object notation files, which end in `.ron`: records in round brackets, maps in braces, lists
in square brackets or as tuples.

Names of records do not count, and a present option is its value.
-/

namespace Metamodel.Ron

abbrev Chars := List Char

/-! ## Spaces and comments -/

/-- What follows the end of a comment that may hold others; `depth` of them are open. -/
def afterComment : Nat → Chars → Chars
  | _, [] => []
  | depth, '/' :: '*' :: rest => afterComment (depth + 1) rest
  | depth, '*' :: '/' :: rest => if depth ≤ 1 then rest else afterComment (depth - 1) rest
  | depth, _ :: rest => afterComment depth rest

/-- Skips at most `fuel` comments, and the spaces before and after them. -/
def skipWithin : Nat → Chars → Chars
  | 0, cs => cs
  | fuel + 1, cs =>
    match cs.dropWhile Text.isBlank with
    | '/' :: '/' :: rest => skipWithin fuel (rest.dropWhile (· ≠ '\n'))
    | '/' :: '*' :: rest => skipWithin fuel (afterComment 1 rest)
    | rest => rest

/-- Skips spaces and comments. -/
def skip (cs : Chars) : Chars := skipWithin (cs.length + 1) cs

/-- Skips at most `fuel` attributes of the whole file, and the spaces around them. -/
def skipAttributesWithin : Nat → Chars → Chars
  | 0, cs => cs
  | fuel + 1, cs =>
    match skip cs with
    | '#' :: '!' :: rest => skipAttributesWithin fuel ((rest.dropWhile (· ≠ ']')).drop 1)
    | rest => rest

/-! ## Names, strings and numbers -/

def isNameChar (c : Char) : Bool := Text.isWord c || c = '.' || c = '+' || c = '-'

def isNameStart (c : Char) : Bool := Text.isWord c && !c.isDigit

/-- A name, and what follows it. One with a mark in front may have more characters. -/
def name? : Chars → Option (String × Chars)
  | 'r' :: '#' :: c :: rest =>
    if isNameStart c then
      some (String.ofList (c :: rest.takeWhile isNameChar), rest.dropWhile isNameChar)
    else none
  | c :: rest =>
    if isNameStart c then
      some (String.ofList (c :: rest.takeWhile Text.isWord), rest.dropWhile Text.isWord)
    else none
  | [] => none

/-- The text for what follows a backslash. -/
def escape? : Chars → Option (Chars × Chars)
  | '0' :: rest => some (['\x00'], rest)
  | 'n' :: rest => some (['\n'], rest)
  | 'r' :: rest => some (['\r'], rest)
  | 't' :: rest => some (['\t'], rest)
  | 'x' :: rest => do
    let (code, rest) ← Text.hexDigits? 2 rest
    return ([← Text.charOf? code], rest)
  | 'u' :: '\x7b' :: rest => do
    let c ← Text.codePoint? (rest.takeWhile Text.isHexDigit)
    match rest.dropWhile Text.isHexDigit with
    | '\x7d' :: rest => return ([c], rest)
    | _ => none
  | c :: rest => if c = '"' || c = '\'' || c = '\\' then some ([c], rest) else none
  | [] => none

/-- Strings, or single characters, in one of the two quotes. -/
def quoting (quote : Char) : Text.Quoting := ⟨quote, fun _ => true, escape?⟩

/-- The text before a quote with so many number signs after it, and what follows them. -/
def rawText? (signs : Nat) : Chars → Option (Chars × Chars)
  | [] => none
  | c :: rest =>
    if c = '"' && (rest.take signs) = List.replicate signs '#' then some ([], rest.drop signs)
    else (rawText? signs rest).map fun (text, rest) => (c :: text, rest)

/-- What follows the letter that a string without escapes begins with. -/
def rawStart? : Chars → Option Chars
  | 'r' :: '"' :: rest => some ('"' :: rest)
  | 'r' :: '#' :: '"' :: rest => some ('#' :: '"' :: rest)
  | 'r' :: '#' :: '#' :: rest => some ('#' :: '#' :: rest)
  | _ => none

/-- A string without escapes, after its first letter, and what follows it. -/
def rawString? (cs : Chars) : Option (String × Chars) :=
  let signs := (cs.takeWhile (· = '#')).length
  match cs.drop signs with
  | '"' :: rest => (rawText? signs rest).map fun (text, rest) => (String.ofList text, rest)
  | _ => none

/-- An integer of 64 bits without sign. -/
def magnitude? : Chars → Option Nat
  | '0' :: 'x' :: digits => Text.natOf? 16 digits
  | '0' :: 'o' :: digits => Text.natOf? 8 digits
  | '0' :: 'b' :: digits => Text.natOf? 2 digits
  | digits => Decimal.nat? digits

/-- The number that a word with a sign in front of it writes. Low lines in it do not count. -/
def numberOf? (negative : Bool) (word : Chars) : Option Data :=
  if word = "inf".toList then some (.number (.infinite negative))
  else if word = "NaN".toList then some (.number .undefined)
  else
    let digits := word.filter (· ≠ '_')
    let int := (magnitude? digits).map fun n => if negative then -(n : Int) else n
    int.map .int <|>
      (Decimal.Numeral.unsigned? negative digits).map fun x => .number (.ofNumeral x)

/-- A number, and what follows it. -/
def number? (cs : Chars) : Option (Data × Chars) :=
  let (negative, digits) :=
    match cs with
    | '-' :: rest => (true, rest)
    | '+' :: rest => (false, rest)
    | _ => (false, cs)
  let inside (c : Char) : Bool := c.isAlphanum || c = '_' || c = '.'
  let first := digits.takeWhile inside
  let rest := digits.dropWhile inside
  let isHex := "0x".toList.isPrefixOf first
  let isOpen := !isHex && first.getLast?.any fun c => c = 'e' || c = 'E'
  match rest with
  | sign :: more =>
    if isOpen && (sign = '+' || sign = '-') then
      (numberOf? negative (first ++ sign :: more.takeWhile Char.isDigit)).map fun d =>
        (d, more.dropWhile Char.isDigit)
    else (numberOf? negative first).map fun d => (d, rest)
  | [] => (numberOf? negative first).map fun d => (d, rest)

/-! ## Values -/

/-- Whether round brackets hold named fields: a name and a colon come first. -/
def opensRecord (cs : Chars) : Bool :=
  match name? cs with
  | none => false
  | some (_, rest) => (skip rest).head? = some ':'

mutual

/-- A value of a nesting below `fuel`, and what follows it. -/
def valueWithin? : Nat → Chars → Option (Data × Chars)
  | 0, _ => none
  | fuel + 1, cs =>
    match cs with
    | '"' :: rest => ((quoting '"').text? rest).map fun (text, rest) => (.text text, rest)
    | '\'' :: rest => ((quoting '\'').text? rest).map fun (text, rest) => (.text text, rest)
    | '[' :: rest =>
      (itemsWithin? ']' fuel (skip rest)).map fun (items, rest) => (.list items, rest)
    | '\x7b' :: rest =>
      (entriesWithin? fuel (skip rest)).map fun (fields, rest) => (Data.ofFields fields, rest)
    | '(' :: rest => bracketWithin? fuel (skip rest)
    | cs =>
      match rawStart? cs, name? cs with
      | some rest, _ => (rawString? rest).map fun (text, rest) => (.text text, rest)
      | none, none | none, some ("inf", _) | none, some ("NaN", _) => number? cs
      | none, some ("true", rest) => some (.bool true, rest)
      | none, some ("false", rest) => some (.bool false, rest)
      | none, some (name, rest) =>
        match skip rest with
        | '(' :: rest =>
          if name = "Some" then do
            let (d, rest) ← valueWithin? fuel (skip rest)
            match skip rest with
            | ')' :: rest => return (d, rest)
            | _ => none
          else bracketWithin? fuel (skip rest)
        | _ => some (.null, rest)

/-- The rest of a record or tuple. Without anything in it, it is no value. -/
def bracketWithin? : Nat → Chars → Option (Data × Chars)
  | 0, _ => none
  | fuel + 1, cs =>
    if cs.head? = some ')' then some (.null, cs.drop 1)
    else if opensRecord cs then
      (fieldsWithin? fuel cs).map fun (fields, rest) => (Data.ofFields fields, rest)
    else (itemsWithin? ')' fuel cs).map fun (items, rest) => (.list items, rest)

/-- The rest of a list or tuple. -/
def itemsWithin? (closing : Char) : Nat → Chars → Option (List Data × Chars)
  | 0, _ => none
  | fuel + 1, cs =>
    if cs.head? = some closing then some ([], cs.drop 1)
    else do
      let (item, rest) ← valueWithin? fuel cs
      match skip rest with
      | ',' :: rest =>
        let (items, rest) ← itemsWithin? closing fuel (skip rest)
        return (item :: items, rest)
      | c :: rest => if c = closing then return ([item], rest) else none
      | [] => none

/-- The rest of a record. -/
def fieldsWithin? : Nat → Chars → Option (List (String × Data) × Chars)
  | 0, _ => none
  | _ + 1, ')' :: rest => some ([], rest)
  | fuel + 1, cs => do
    let (name, rest) ← name? cs
    match skip rest with
    | ':' :: rest =>
      let (d, rest) ← valueWithin? fuel (skip rest)
      match skip rest with
      | ',' :: rest =>
        let (fields, rest) ← fieldsWithin? fuel (skip rest)
        return ((name, d) :: fields, rest)
      | ')' :: rest => return ([(name, d)], rest)
      | _ => none
    | _ => none

/-- The rest of a map, whose keys are texts. -/
def entriesWithin? : Nat → Chars → Option (List (String × Data) × Chars)
  | 0, _ => none
  | _ + 1, '\x7d' :: rest => some ([], rest)
  | fuel + 1, cs => do
    let (key, rest) ← valueWithin? fuel cs
    match key, skip rest with
    | .text name, ':' :: rest =>
      let (d, rest) ← valueWithin? fuel (skip rest)
      match skip rest with
      | ',' :: rest =>
        let (fields, rest) ← entriesWithin? fuel (skip rest)
        return ((name, d) :: fields, rest)
      | '\x7d' :: rest => return ([(name, d)], rest)
      | _ => none
    | _, _ => none

end

/-- The data that a text holds, if it is well formed. -/
def read? (text : String) : Option Data := do
  let cs := skipAttributesWithin (text.length + 1) text.toList
  let (d, rest) ← valueWithin? (2 * cs.length + 2) cs
  if (skip rest).isEmpty then some d else none

end Metamodel.Ron
