import Metamodel.Data.Basic
import Metamodel.Text.CharClass

/-!
Settings of one file on top of those of another.

A key takes the place of the same key below it; tables are joined key by key. Letter case does not
matter in the keys of tables. A key outside all tables may be a path: names with points between
them, and positions in lists in brackets.
-/

namespace Metamodel

namespace Data

/-- The fields of a record; other data have none. -/
def fields : Data → List (String × Data)
  | .record fields => fields
  | _ => []

/-- The items of a list; other data have none. -/
def items : Data → List Data
  | .list items => items
  | _ => []

/-- A key in lower case. -/
def lowerKey (key : String) : String := String.ofList (key.toList.flatMap Text.toLower)

mutual

/-- Data with other data on top of them, if there are any below. A record without fields only stands
where nothing else does. -/
def overlay (base? : Option Data) : Data → Data
  | .record [] => base?.getD (.record [])
  | .record (field :: rest) => .record (overlayFields ((base?.map fields).getD []) (field :: rest))
  | .null => .null
  | .bool b => .bool b
  | .int i => .int i
  | .number x => .number x
  | .text s => .text s
  | .list items => .list items

def overlayFields (base : List (String × Data)) : List (String × Data) → List (String × Data)
  | [] => base
  | (key, top) :: rest =>
    let key := lowerKey key
    let joined := overlay (base.lookup key) top
    overlayFields (base.filter (·.1 ≠ key) ++ [(key, joined)]) rest

end

end Data

/-! ## Keys that are paths -/

/-- One step on the way to a setting. -/
inductive KeyStep
  /-- Into a field of a record. -/
  | field (name : String)
  /-- To an item of a list, counted from its end if negative. -/
  | item (index : Int)
  deriving DecidableEq

namespace KeyStep

/-- Whether a character may stand in a name of a path. -/
def isNameChar (c : Char) : Bool := c.isAlphanum || c = ' ' || c = '_' || c = '-'

/-- The name at the beginning of a text, and what follows it. -/
def name? (cs : List Char) : Option (String × List Char) :=
  let name := cs.takeWhile isNameChar
  if name.isEmpty then none else some (String.ofList name, cs.dropWhile isNameChar)

/-- The index after an opening bracket, and what follows the closing one. -/
def index? (cs : List Char) : Option (Int × List Char) :=
  let (negative, digits) :=
    match cs with
    | '-' :: rest => (true, rest)
    | _ => (false, cs)
  match Decimal.nat? (digits.takeWhile Char.isDigit), digits.dropWhile Char.isDigit with
  | some n, ']' :: rest => some (if negative then -n else n, rest)
  | _, _ => none

/-- At most `fuel` steps to the end of a text. -/
def stepsWithin? : Nat → List Char → Option (List KeyStep)
  | _, [] => some []
  | 0, _ => none
  | fuel + 1, '.' :: cs => do
    let (name, rest) ← name? cs
    return field name :: (← stepsWithin? fuel rest)
  | fuel + 1, '[' :: cs => do
    let (index, rest) ← index? cs
    return item index :: (← stepsWithin? fuel rest)
  | _ + 1, _ => none

/-- The steps that a key writes. A key that is no path is the name of a field. -/
def ofKey (key : String) : List KeyStep :=
  let steps := do
    let (name, rest) ← name? key.toList
    return field name :: (← stepsWithin? rest.length rest)
  steps.getD [field key]

/-- The place that an index names in a list of this length. -/
def place (index : Int) (length : Nat) : Nat :=
  if 0 ≤ index then index.toNat else length - index.natAbs

end KeyStep

namespace Data

/-- A list with the item at a place changed, after as many empty items as it takes. -/
def changeItem (items : List Data) (place : Nat) (change : Data → Data) : List Data :=
  let long := items ++ List.replicate (place + 1 - items.length) .null
  long.modify place change

/-- Data with a value where steps lead. What is on the way and of another kind makes way. A value in
a field is laid over what is there; as an item it stands alone. -/
def put (value : Data) : List KeyStep → Option Data → Data
  | [], base? => overlay base? value
  | .field name :: steps, base? =>
    let below := (base?.map fields).getD []
    let key := lowerKey name
    .record (below.filter (·.1 ≠ key) ++ [(key, put value steps (below.lookup key))])
  | [.item index], base? =>
    let below := (base?.map items).getD []
    .list (changeItem below (KeyStep.place index below.length) fun _ => value)
  | .item index :: steps, base? =>
    let below := (base?.map items).getD []
    .list (changeItem below (KeyStep.place index below.length) fun d => put value steps (some d))

/-- A record with the content of a file on top of it. -/
def overlayFile (base file : Data) : Data :=
  file.fields.foldl (fun d (key, value) => put value (KeyStep.ofKey key) (some d)) base

end Data

end Metamodel
