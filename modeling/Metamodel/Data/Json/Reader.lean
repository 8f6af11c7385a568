import Metamodel.Data.Basic
import Metamodel.Text.Digit
import Metamodel.Text.Escape

/-!
Reading JSON.

Digits of a number are added up as long as the sum stays below `2 ^ 64`, and the sum is then scaled
by powers of ten in double precision. So a number with many digits need not be the one nearest to
what is written.
-/

namespace Metamodel.Data.Json

abbrev Chars := List Char

def skipSpace (cs : Chars) : Chars :=
  cs.dropWhile fun c => c = ' ' || c = '\t' || c = '\n' || c = '\r'

/-! ## Strings -/

def escapedChar? : Char → Option Char
  | '"' => some '"'
  | '\\' => some '\\'
  | '/' => some '/'
  | 'b' => some '\x08'
  | 'f' => some '\x0c'
  | 'n' => some '\n'
  | 'r' => some '\r'
  | 't' => some '\t'
  | _ => none

def quoting : Text.Quoting where
  closing := '"'
  isPlain c := 0x20 ≤ c.toNat
  escape?
    | 'u' :: rest => (Text.unit16Escape? rest).map fun (c, rest) => ([c], rest)
    | c :: rest => (escapedChar? c).map fun c => ([c], rest)
    | [] => none

/-! ## Numbers -/

/-- Adds digits to a number as long as it stays below `2 ^ 64`, and gives back those that are
left. -/
def gather (n : Nat) : Chars → Nat × Chars
  | [] => (n, [])
  | d :: rest =>
    let next := 10 * n + (d.toNat - '0'.toNat)
    if next < Nat.pow 2 64 then gather next rest else (n, d :: rest)

/-- A power of ten in double precision. -/
def tenPower? (n : Nat) : Option Decimal.Binary := Decimal.BinaryFormat.double.round? (Nat.pow 10 n) 1

/-- The greatest power of ten in double precision. -/
def greatestPower : Nat := 308

/-- A number times a power of ten, in at most `fuel` steps of one rounding each. Nothing beyond the
greatest number. -/
def scaleWithin? : Nat → Decimal.Binary → Int → Option Decimal.Binary
  | 0, b, _ => some b
  | fuel + 1, b, exponent =>
    if exponent.natAbs ≤ greatestPower then do
      let power ← tenPower? exponent.natAbs
      if 0 ≤ exponent then Decimal.BinaryFormat.double.multiply? b power
      else Decimal.BinaryFormat.double.divide? b power
    else if b.mantissa = 0 then some b
    else if 0 ≤ exponent then none
    else do
      let power ← tenPower? greatestPower
      let b ← Decimal.BinaryFormat.double.divide? b power
      scaleWithin? fuel b (exponent + greatestPower)

/-- `significand * 10 ^ exponent` for a significand below `2 ^ 64`, which two steps down to the
least powers of ten make zero. -/
def scale? (significand : Nat) (exponent : Int) : Option Decimal.Binary := do
  scaleWithin? 4 (← Decimal.BinaryFormat.double.round? significand 1) exponent

/-- The exponent that a number ends with, if it has one, and what follows it. -/
def exponent? : Chars → Option (Option Int × Chars)
  | [] => some (none, [])
  | c :: cs =>
    if c = 'e' || c = 'E' then do
      let (negative, digits) :=
        match cs with
        | '-' :: rest => (true, rest)
        | '+' :: rest => (false, rest)
        | _ => (false, cs)
      let n ← Decimal.nat? (digits.takeWhile Char.isDigit)
      return (some (if negative then -n else n), digits.dropWhile Char.isDigit)
    else some (none, c :: cs)

/-- The fraction that follows the digits before a point, if there is one, and what follows it. -/
def fraction? : Chars → Option (Option Chars × Chars)
  | '.' :: cs =>
    let digits := cs.takeWhile Char.isDigit
    if digits.isEmpty then none else some (some digits, cs.dropWhile Char.isDigit)
  | cs => some (none, cs)

/-- The value of a number: an integer if it is written as one and has 64 bits. -/
def numberOf? (negative : Bool) (whole : Chars) (fraction? : Option Chars)
    (exponent? : Option Int) : Option Data :=
  let (significand, left) := gather 0 whole
  let isInteger := left.isEmpty && fraction?.isNone && exponent?.isNone
  if isInteger && !negative && significand < Nat.pow 2 63 then some (.int significand)
  else if isInteger && negative && 0 < significand && significand ≤ Nat.pow 2 63 then
    some (.int (-significand))
  else
    let fraction := fraction?.getD []
    let (significand, leftOfFraction) := gather significand fraction
    let exponent : Int :=
      left.length - (fraction.length - leftOfFraction.length : Nat) + exponent?.getD 0
    (scale? significand exponent).map fun b => .number (.finite negative b)

/-- A number, and what follows it. -/
def number? (cs : Chars) : Option (Data × Chars) := do
  let (negative, digits) :=
    match cs with
    | '-' :: rest => (true, rest)
    | _ => (false, cs)
  let whole := digits.takeWhile Char.isDigit
  if whole.isEmpty || (whole.length > 1 && whole.head? = some '0') then none
  else do
    let (fraction, rest) ← fraction? (digits.dropWhile Char.isDigit)
    let (exponent, rest) ← exponent? rest
    return (← numberOf? negative whole fraction exponent, rest)

/-! ## Values -/

/-- A value of a word, if the text begins with it, and what follows it. -/
def word? (cs : Chars) : Option (Data × Chars) :=
  [("null", Data.null), ("true", .bool true), ("false", .bool false)].findSome? fun (word, d) =>
    if word.toList.isPrefixOf cs then some (d, cs.drop word.length) else none

/-- How many arrays and objects may be inside each other. -/
def deepest : Nat := 127

mutual

/-- A value, and what follows it. At most `depth` arrays and objects may be inside each other, and at
most `fuel` steps are made. -/
def valueWithin? : Nat → Nat → Chars → Option (Data × Chars)
  | 0, _, _ => none
  | fuel + 1, depth, cs =>
    match cs, depth with
    | '"' :: rest, _ => (quoting.text? rest).map fun (s, rest) => (.text s, rest)
    | '[' :: _, 0 | '\x7b' :: _, 0 => none
    | '[' :: rest, depth + 1 =>
      match skipSpace rest with
      | ']' :: rest => some (.list [], rest)
      | rest => (itemsWithin? fuel depth rest).map fun (items, rest) => (.list items, rest)
    | '\x7b' :: rest, depth + 1 =>
      match skipSpace rest with
      | '\x7d' :: rest => some (.record [], rest)
      | rest =>
        (fieldsWithin? fuel depth rest).map fun (fields, rest) => (Data.ofFields fields, rest)
    | cs, _ => word? cs <|> number? cs

/-- The rest of an array with at least one more item. -/
def itemsWithin? : Nat → Nat → Chars → Option (List Data × Chars)
  | 0, _, _ => none
  | fuel + 1, depth, cs => do
    let (item, rest) ← valueWithin? fuel depth cs
    match skipSpace rest with
    | ',' :: rest =>
      let (items, rest) ← itemsWithin? fuel depth (skipSpace rest)
      return (item :: items, rest)
    | ']' :: rest => return ([item], rest)
    | _ => none

/-- The rest of an object with at least one more field. -/
def fieldsWithin? : Nat → Nat → Chars → Option (List (String × Data) × Chars)
  | 0, _, _ => none
  | fuel + 1, depth, '"' :: cs => do
    let (name, rest) ← quoting.text? cs
    match skipSpace rest with
    | ':' :: rest =>
      let (d, rest) ← valueWithin? fuel depth (skipSpace rest)
      match skipSpace rest with
      | ',' :: rest =>
        let (fields, rest) ← fieldsWithin? fuel depth (skipSpace rest)
        return ((name, d) :: fields, rest)
      | '\x7d' :: rest => return ([(name, d)], rest)
      | _ => none
    | _ => none
  | _ + 1, _, _ => none

end

/-- The data that a text holds, if it is well formed. -/
def read? (text : String) : Option Data := do
  let cs := skipSpace text.toList
  let (d, rest) ← valueWithin? (cs.length + 1) deepest cs
  if (skipSpace rest).isEmpty then some d else none

end Metamodel.Data.Json
