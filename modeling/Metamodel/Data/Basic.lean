import Metamodel.Decimal.Number

/-!
Plain data: what documents of the usual data formats hold.

A record is a list of fields. Its order is kept, and a field may be written twice; `Record.ofData?`
is where repetitions of a known field are refused.
-/

namespace Metamodel

inductive Data
  | null
  | bool (value : Bool)
  | int (value : Int)
  /-- A number that is not written as an integer. -/
  | number (value : Decimal.Number)
  | text (value : String)
  | list (items : List Data)
  | record (fields : List (String × Data))
  deriving Inhabited

namespace Data

/-- A field that is left out when there is no value. -/
def field? (name : String) (value : Option Data) : List (String × Data) :=
  (value.map fun v => (name, v)).toList

/-- A field that is left out when the list is empty. -/
def nonEmpty (name : String) (items : List Data) : List (String × Data) :=
  if items.isEmpty then [] else [(name, .list items)]

/-- A record of fields, of which the last with a name stands. -/
def ofFields (fields : List (String × Data)) : Data :=
  .record (fields.foldl (fun known field => known.filter (·.1 ≠ field.1) ++ [field]) [])

end Data

end Metamodel
