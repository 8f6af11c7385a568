import Metamodel.Data.Basic
import Metamodel.Data.Moment
import Metamodel.Text.Digit

/-!
Reading settings files.

A file is a sequence of key and value pairs under headers that open tables. Values are strings,
numbers, booleans, dates, times, arrays and inline tables. A key must not be set twice, and a table
not be opened twice; `Toml.Entry` keeps what has to be known for that while a file is read.
-/

namespace Metamodel.Toml

abbrev Chars := List Char

/-! ## Blanks, comments and line ends -/

def skipBlanks (cs : Chars) : Chars := cs.dropWhile fun c => c = ' ' || c = '\t'

/-- Whether a character may stand in a string or a comment. -/
def isText (c : Char) : Bool := c = '\t' || (0x20 ≤ c.toNat && c.toNat ≠ 0x7f)

/-- What follows the end of a line, if at most a comment is left of the line. -/
def endLine? (cs : Chars) : Option Chars :=
  let rest :=
    match skipBlanks cs with
    | '#' :: rest => rest.dropWhile isText
    | rest => rest
  match rest with
  | [] => some []
  | '\n' :: rest => some rest
  | '\r' :: '\n' :: rest => some rest
  | _ => none

/-- Skips at most `fuel` line ends, and the blanks and comments around them. -/
def skipLinesWithin : Nat → Chars → Chars
  | 0, cs => skipBlanks cs
  | fuel + 1, cs =>
    match endLine? cs with
    | none => skipBlanks cs
    | some [] => []
    | some rest => skipLinesWithin fuel rest

/-- Skips line ends, blanks and comments. -/
def skipLines (cs : Chars) : Chars := skipLinesWithin cs.length cs

/-! ## Strings, keys and numbers -/

def escape? : Char → Option Char
  | 'b' => some '\x08'
  | 't' => some '\t'
  | 'n' => some '\n'
  | 'f' => some '\x0c'
  | 'r' => some '\r'
  | '"' => some '"'
  | '\\' => some '\\'
  | _ => none

/-- The rest of a string in double quotes, and what follows it. -/
def basicString? : Chars → Option (Chars × Chars)
  | [] => none
  | '"' :: rest => some ([], rest)
  | '\\' :: 'u' :: a :: b :: c :: d :: rest => do
    let char ← Text.codePoint? [a, b, c, d]
    let (text, rest) ← basicString? rest
    return (char :: text, rest)
  | '\\' :: 'U' :: a :: b :: c :: d :: e :: f :: g :: h :: rest => do
    let char ← Text.codePoint? [a, b, c, d, e, f, g, h]
    let (text, rest) ← basicString? rest
    return (char :: text, rest)
  | '\\' :: c :: rest => do
    let char ← escape? c
    let (text, rest) ← basicString? rest
    return (char :: text, rest)
  | c :: rest =>
    if isText c then do
      let (text, rest) ← basicString? rest
      return (c :: text, rest)
    else none

/-- The rest of a string in single quotes, in which nothing is escaped, and what follows it. -/
def literalString? (cs : Chars) : Option (Chars × Chars) :=
  let inside (c : Char) : Bool := isText c && c ≠ '\''
  match cs.dropWhile inside with
  | '\'' :: rest => some (cs.takeWhile inside, rest)
  | _ => none

/-- The quotes after the closing ones that belong to a string on several lines: at most two. -/
def innerQuotes (quote : Char) (cs : Chars) : Chars := (cs.takeWhile (· = quote)).take 2

/-- The rest of a string in three double quotes, and what follows it. A line end after a backslash
is left out with all blanks and line ends around it; `joining` tells that one has been met. -/
def longBasicString? (joining : Bool) : Chars → Option (Chars × Chars)
  | [] => none
  | '"' :: '"' :: '"' :: rest =>
    let inner := innerQuotes '"' rest
    some (inner, rest.drop inner.length)
  | '\\' :: 'u' :: a :: b :: c :: d :: rest => do
    let char ← Text.codePoint? [a, b, c, d]
    let (text, rest) ← longBasicString? false rest
    return (char :: text, rest)
  | '\\' :: 'U' :: a :: b :: c :: d :: e :: f :: g :: h :: rest => do
    let char ← Text.codePoint? [a, b, c, d, e, f, g, h]
    let (text, rest) ← longBasicString? false rest
    return (char :: text, rest)
  | '\\' :: c :: rest =>
    match escape? c with
    | some char => do
      let (text, rest) ← longBasicString? false rest
      return (char :: text, rest)
    | none =>
      -- Only blanks may stand between the backslash and the end of its line.
      match skipBlanks (c :: rest) with
      | '\n' :: _ | '\r' :: '\n' :: _ => longBasicString? true (c :: rest)
      | _ => none
  | '\r' :: '\n' :: rest =>
    if joining then longBasicString? true rest
    else do
      let (text, rest) ← longBasicString? false rest
      return ('\n' :: text, rest)
  | c :: rest =>
    if joining && (c = ' ' || c = '\t' || c = '\n') then longBasicString? true rest
    else if isText c || c = '\n' then do
      let (text, rest) ← longBasicString? false rest
      return (c :: text, rest)
    else none

/-- The rest of a string in three single quotes, and what follows it. -/
def longLiteralString? : Chars → Option (Chars × Chars)
  | [] => none
  | '\'' :: '\'' :: '\'' :: rest =>
    let inner := innerQuotes '\'' rest
    some (inner, rest.drop inner.length)
  | '\r' :: '\n' :: rest => do
    let (text, rest) ← longLiteralString? rest
    return ('\n' :: text, rest)
  | c :: rest =>
    if isText c || c = '\n' then do
      let (text, rest) ← longLiteralString? rest
      return (c :: text, rest)
    else none

/-- Skips one line end, if the text begins with it. -/
def skipLineEnd : Chars → Chars
  | '\n' :: rest => rest
  | '\r' :: '\n' :: rest => rest
  | cs => cs

/-- A string, and what follows it. A line end at the beginning of a string in three quotes does not
belong to it. -/
def string? : Chars → Option (Chars × Chars)
  | '"' :: '"' :: '"' :: rest => longBasicString? false (skipLineEnd rest)
  | '"' :: rest => basicString? rest
  | '\'' :: '\'' :: '\'' :: rest => longLiteralString? (skipLineEnd rest)
  | '\'' :: rest => literalString? rest
  | _ => none

/-- Whether a character may stand in a key without quotes. -/
def isBare (c : Char) : Bool := c.isAlphanum || c = '_' || c = '-'

/-- One key, and what follows it. -/
def key? : Chars → Option (String × Chars)
  | '"' :: rest => (basicString? rest).map fun (text, rest) => (String.ofList text, rest)
  | '\'' :: rest => (literalString? rest).map fun (text, rest) => (String.ofList text, rest)
  | cs =>
    let bare := cs.takeWhile isBare
    if bare.isEmpty then none else some (String.ofList bare, cs.dropWhile isBare)

/-- At most `fuel` keys with points between them, and what follows them and the blanks after
them. -/
def keysWithin? : Nat → Chars → Option (List String × Chars)
  | 0, _ => none
  | fuel + 1, cs => do
    let (key, rest) ← key? (skipBlanks cs)
    match skipBlanks rest with
    | '.' :: rest =>
      let (keys, rest) ← keysWithin? fuel rest
      return (key :: keys, rest)
    | rest => return ([key], rest)

/-- How deep values, and tables by one key, may lie in each other. -/
def deepest : Nat := 79

/-- Keys with points between them, and what follows them and the blanks after them. -/
def keys? (cs : Chars) : Option (List String × Chars) :=
  (keysWithin? (cs.length + 1) cs).filter fun (keys, _) => keys.length ≤ deepest

/-- Digits, of which any two may have a low line between them. -/
def spacedNat? (base : Nat) (cs : Chars) : Option Nat :=
  let groups := (String.ofList cs).splitOn "_"
  if groups.any (·.isEmpty) then none else Text.natOf? base (groups.flatMap String.toList)

/-- A decimal number without leading zeros. -/
def decimalNat? : Chars → Option Nat
  | '0' :: _ :: _ => none
  | cs => spacedNat? 10 cs

/-- An integer of 64 bits. -/
def int? (cs : Chars) : Option Int :=
  let value : Option Int :=
    match cs with
    | '+' :: rest => (decimalNat? rest).map Int.ofNat
    | '-' :: rest => (decimalNat? rest).map fun n => -(n : Int)
    | '0' :: 'x' :: rest => (spacedNat? 16 rest).map Int.ofNat
    | '0' :: 'o' :: rest => (spacedNat? 8 rest).map Int.ofNat
    | '0' :: 'b' :: rest => (spacedNat? 2 rest).map Int.ofNat
    | _ => (decimalNat? cs).map Int.ofNat
  value.filter fun i => -Int.pow 2 63 ≤ i ∧ i < Int.pow 2 63

/-- Digits after a point, which may begin with zeros. -/
def fraction? (cs : Chars) : Option Chars :=
  (spacedNat? 10 cs).map fun _ => cs.filter (· ≠ '_')

/-- What follows the letter of an exponent. -/
def exponent? : Chars → Option Int
  | '+' :: rest => (spacedNat? 10 rest).map Int.ofNat
  | '-' :: rest => (spacedNat? 10 rest).map fun n => -(n : Int)
  | cs => (spacedNat? 10 cs).map Int.ofNat

/-- A number without sign that has a fraction, an exponent or both. -/
def unsignedFloat? (negative : Bool) (cs : Chars) : Option Decimal.Numeral := do
  let isMark (c : Char) : Bool := c = 'e' || c = 'E'
  let significand := cs.takeWhile (!isMark ·)
  let whole := significand.takeWhile (· ≠ '.')
  let _ ← decimalNat? whole
  let numeral (fraction : Chars) (exponent : Int) : Decimal.Numeral :=
    ⟨negative, Decimal.natOfDigits (whole.filter (· ≠ '_') ++ fraction),
      exponent - fraction.length⟩
  match significand.dropWhile (· ≠ '.'), cs.dropWhile (!isMark ·) with
  | [], [] => none
  | _ :: written, [] => return numeral (← fraction? written) 0
  | [], _ :: written => return numeral [] (← exponent? written)
  | _ :: written, _ :: power => return numeral (← fraction? written) (← exponent? power)

/-- A number that is not written as an integer. Only a negative one may be beyond the range of
double precision. -/
def float? (cs : Chars) : Option Decimal.Number :=
  let numeral :=
    match cs with
    | '+' :: rest => unsignedFloat? false rest
    | '-' :: rest => unsignedFloat? true rest
    | _ => unsignedFloat? false cs
  (numeral.map Decimal.Number.ofNumeral).filter (· ≠ .infinite false)

/-- A number that digits cannot write. -/
def nonFinite? (word : Chars) : Option Decimal.Number :=
  if word = "inf".toList || word = "+inf".toList then some (.infinite false)
  else if word = "-inf".toList then some (.infinite true)
  else if ["nan", "+nan", "-nan"].contains (String.ofList word) then some .undefined
  else none

/-- A boolean, number, date or time without quotes, and what follows it. Dates and times are
text. -/
def plain? (cs : Chars) : Option (Data × Chars) :=
  match Moment.ofChars? cs with
  | some (text, rest) => some (.text (String.ofList text), rest)
  | none =>
    let inside (c : Char) : Bool := isBare c || c = '+' || c = '.'
    let word := cs.takeWhile inside
    let data :=
      if word = "true".toList then some (.bool true)
      else if word = "false".toList then some (.bool false)
      else (int? word).map .int <|> (float? word <|> nonFinite? word).map .number
    data.map fun d => (d, cs.dropWhile inside)

/-! ## Tables -/

/-- How a table came about. -/
inductive Origin
  /-- As a part of a header for a table below it. -/
  | implied
  /-- By a header of its own. -/
  | opened
  /-- As a part of a key with points. -/
  | dotted
  deriving DecidableEq

/-- What a key stands for while a file is read. -/
inductive Entry
  | value (data : Data)
  | table (origin : Origin) (entries : List (String × Entry))
  /-- An array of tables, each opened by a header. -/
  | tables (items : List (List (String × Entry)))

abbrev Table := List (String × Entry)

mutual

def Entry.toData : Entry → Data
  | .value data => data
  | .table _ entries => .record (fieldsOf entries)
  | .tables items => .list (recordsOf items)

def fieldsOf : List (String × Entry) → List (String × Data)
  | [] => []
  | (key, entry) :: rest => (key, entry.toData) :: fieldsOf rest

def recordsOf : List (List (String × Entry)) → List Data
  | [] => []
  | entries :: rest => .record (fieldsOf entries) :: recordsOf rest

end

/-- Sets a key that may be there already. -/
def Table.put (t : Table) (key : String) (entry : Entry) : Table :=
  if (t.lookup key).isSome then t.map fun e => if e.1 = key then (key, entry) else e
  else t ++ [(key, entry)]

/-- Changes the table that keys lead to, and makes those that are missing on the way. Keys go into
the last table of an array. Those of a header go through everything that was opened before; a key
with points goes through tables without a header of their own, and ends in one made by such a
key. -/
def Table.change? (header : Bool) (f : Table → Option Table) : List String → Table → Option Table
  | [], t => f t
  | key :: keys, t =>
    match t.lookup key with
    | none => do
      let inner ← change? header f keys []
      return t.put key (.table (if header then .implied else .dotted) inner)
    | some (.table origin inner) =>
      if !header && (origin = .opened || (keys.isEmpty && origin ≠ .dotted)) then none
      else do
        let inner ← change? header f keys inner
        return t.put key (.table origin inner)
    | some (.tables items) =>
      if !header && keys.isEmpty then none
      else do
        let last ← change? header f keys (items.getLast?.getD [])
        return t.put key (.tables (items.dropLast ++ [last]))
    | some (.value _) => none

/-- Sets a key that must not be there yet. -/
def Table.set? (key : String) (data : Data) (t : Table) : Option Table :=
  if (t.lookup key).isSome then none else some (t.put key (.value data))

/-- Opens a table by its header. -/
def Table.open? (key : String) (t : Table) : Option Table :=
  match t.lookup key with
  | none => some (t.put key (.table .opened []))
  | some (.table .implied inner) => some (t.put key (.table .opened inner))
  | _ => none

/-- Opens one more table of an array. -/
def Table.openNext? (key : String) (t : Table) : Option Table :=
  match t.lookup key with
  | none => some (t.put key (.tables [[]]))
  | some (.tables items) => some (t.put key (.tables (items ++ [[]])))
  | _ => none

/-- Does something to the last of some keys, in the table that the others lead to. -/
def Table.atKeys? (header : Bool) (f : String → Table → Option Table) (keys : List String)
    (t : Table) : Option Table :=
  keys.getLast?.bind fun last => Table.change? header (f last) keys.dropLast t

/-! ## Values and statements -/

mutual

/-- A value, and what follows it. It may have `depth` levels of arrays and inline tables; `fuel` is
more than its length. -/
def valueWithin? : Nat → Nat → Chars → Option (Data × Chars)
  | 0, _, _ => none
  | fuel + 1, depth, cs =>
    match cs, depth with
    | '"' :: _, _ | '\'' :: _, _ =>
      (string? cs).map fun (text, rest) => (.text (String.ofList text), rest)
    | '[' :: rest, depth + 1 =>
      (itemsWithin? fuel depth (skipLines rest)).map fun (items, rest) => (.list items, rest)
    | '\x7b' :: rest, depth + 1 =>
      match skipBlanks rest with
      | '\x7d' :: rest => some (.record [], rest)
      | rest => (fieldsWithin? fuel depth [] rest).map fun (t, rest) => (.record (fieldsOf t), rest)
    | '[' :: _, 0 | '\x7b' :: _, 0 => none
    | cs, _ => plain? cs

/-- The rest of an array. A comma may follow the last item. -/
def itemsWithin? : Nat → Nat → Chars → Option (List Data × Chars)
  | 0, _, _ => none
  | _ + 1, _, ']' :: rest => some ([], rest)
  | fuel + 1, depth, cs => do
    let (item, rest) ← valueWithin? fuel depth cs
    match skipLines rest with
    | ',' :: rest =>
      let (items, rest) ← itemsWithin? fuel depth (skipLines rest)
      return (item :: items, rest)
    | ']' :: rest => return ([item], rest)
    | _ => none

/-- The rest of an inline table after the fields of `t`. -/
def fieldsWithin? : Nat → Nat → Table → Chars → Option (Table × Chars)
  | 0, _, _, _ => none
  | fuel + 1, depth, t, cs => do
    let (keys, rest) ← keys? cs
    match rest with
    | '=' :: rest =>
      let (data, rest) ← valueWithin? fuel depth (skipBlanks rest)
      let t ← Table.atKeys? false (fun key => Table.set? key data) keys t
      match skipBlanks rest with
      | ',' :: rest => fieldsWithin? fuel depth t rest
      | '\x7d' :: rest => return (t, rest)
      | _ => none
    | _ => none

end

/-- A file as far as it has been read. -/
structure Draft where
  table : Table := []
  /-- The keys of the last header. -/
  header : List String := []

/-- A line with a header, after the opening brackets. -/
def header? (d : Draft) (closing : Chars) (enter : String → Table → Option Table) (cs : Chars) :
    Option (Draft × Chars) := do
  let (keys, rest) ← keys? cs
  if closing.isPrefixOf rest then
    let rest ← endLine? (rest.drop closing.length)
    let table ← Table.atKeys? true enter keys d.table
    return (⟨table, keys⟩, rest)
  else none

/-- A line that sets a key in the table of the last header. -/
def assignment? (d : Draft) (cs : Chars) : Option (Draft × Chars) := do
  let (keys, rest) ← keys? cs
  match rest with
  | '=' :: rest =>
    let (data, rest) ← valueWithin? (cs.length + 1) deepest (skipBlanks rest)
    let rest ← endLine? rest
    let set := Table.atKeys? false (fun key => Table.set? key data) keys
    return ({ d with table := ← Table.change? true set d.header d.table }, rest)
  | _ => none

/-- One line or statement, and what follows it. -/
def statement? (d : Draft) (cs : Chars) : Option (Draft × Chars) :=
  match skipBlanks cs with
  | '[' :: '[' :: rest => header? d [']', ']'] Table.openNext? rest
  | '[' :: rest => header? d [']'] Table.open? rest
  | cs =>
    match endLine? cs with
    | some rest => some (d, rest)
    | none => assignment? d cs

/-- At most `fuel` statements to the end of a file. -/
def statementsWithin? : Nat → Draft → Chars → Option Draft
  | _, d, [] => some d
  | 0, _, _ => none
  | fuel + 1, d, cs => do
    let (d, rest) ← statement? d cs
    statementsWithin? fuel d rest

/-- Takes a byte order mark off the front. -/
def withoutMark : Chars → Chars
  | '\ufeff' :: cs => cs
  | cs => cs

/-- The record that a file holds, if it is well formed. -/
def read? (text : String) : Option Data :=
  let cs := withoutMark text.toList
  (statementsWithin? (cs.length + 1) {} cs).map fun d => .record (fieldsOf d.table)

end Metamodel.Toml
