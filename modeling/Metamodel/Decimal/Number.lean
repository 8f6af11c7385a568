import Metamodel.Decimal.Shortest

/-!
Numbers of double precision with everything that arithmetic may give: a magnitude with a sign, an
infinity, or no number at all.
-/

namespace Metamodel.Decimal

inductive Number
  | finite (negative : Bool) (magnitude : Binary)
  | infinite (negative : Bool)
  /-- The result of an operation that has none. -/
  | undefined
  deriving DecidableEq, Repr

namespace Number

/-- The number nearest to a numeral, which is infinite beyond the greatest. -/
def ofNumeral (x : Numeral) : Number :=
  match x.round? .double with
  | some b => finite x.negative b
  | none => infinite x.negative

def isZero : Number → Bool
  | finite _ b => b.mantissa = 0
  | _ => false

/-- The number in positional form, without a point where nothing follows it. -/
def text : Number → String
  | finite negative b =>
    (if negative then "-" else "") ++ String.ofList (b.positional .double)
  | infinite negative => if negative then "-inf" else "inf"
  | undefined => "NaN"

end Number

end Metamodel.Decimal
