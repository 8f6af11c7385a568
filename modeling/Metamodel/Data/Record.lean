import Metamodel.Data.Basic

/-!
Reading records of a fixed shape out of data.

A record of declared fields may be written as a record, in any order and with further fields, or as
a list of the values in the order of declaration. A declared field must not be written twice.
-/

namespace Metamodel

/-- Whether a declared field may be missing. -/
inductive Presence
  | required
  /-- May be missing or `null` where fields are written with their names. -/
  | optional
  /-- May be missing. -/
  | defaulted
  deriving DecidableEq

/-- The declared fields of a record that are present. -/
structure Record where
  fields : List (String × Data)

namespace Record

/-- The fields of a shape that is written with names: none of them twice. -/
def ofFields? (shape : List (String × Presence)) (fields : List (String × Data)) : Option Record :=
  let known := fields.filter fun field => (shape.lookup field.1).isSome
  if (known.map Prod.fst).Nodup then some ⟨known⟩ else none

/-- The fields of a shape that is written as a list of values: not too many, and what is missing at
the end has a default. -/
def ofItems? (shape : List (String × Presence)) (items : List Data) : Option Record :=
  if items.length ≤ shape.length ∧
      (shape.drop items.length).all (fun field => field.2 = .defaulted) then
    some ⟨(shape.map Prod.fst).zip items⟩
  else none

def ofData? (shape : List (String × Presence)) : Data → Option Record
  | .record fields => ofFields? shape fields
  | .list items => ofItems? shape items
  | _ => none

variable {α : Type}

/-- A field that must be present. -/
def required (r : Record) (name : String) (read : Data → Option α) : Option α :=
  (r.fields.lookup name).bind read

/-- A field that may be missing or `null`. -/
def optional (r : Record) (name : String) (read : Data → Option α) : Option (Option α) :=
  match r.fields.lookup name with
  | none | some .null => some none
  | some d => (read d).map some

/-- A field that may be missing. -/
def defaulted (r : Record) (name : String) (default : α) (read : Data → Option α) : Option α :=
  match r.fields.lookup name with
  | none => some default
  | some d => read d

end Record

namespace Data

def bool? : Data → Option Bool
  | .bool b => some b
  | _ => none

def text? : Data → Option String
  | .text s => some s
  | _ => none

/-- A natural number below `limit`. -/
def natBelow? (limit : Nat) : Data → Option Nat
  | .int i => if 0 ≤ i ∧ i < limit then some i.toNat else none
  | _ => none

def int32? : Data → Option Int32
  | .int i => if -Int.pow 2 31 ≤ i ∧ i < Int.pow 2 31 then some (Int32.ofInt i) else none
  | _ => none

def list? {α : Type} (read : Data → Option α) : Data → Option (List α)
  | .list items => items.mapM read
  | _ => none

end Data

end Metamodel
