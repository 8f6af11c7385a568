import Metamodel.Decimal.Binary

/-!
The shortest decimal that reads back as a given binary number.

The decimals that round to a number form an interval around it, whose ends belong to it if the
mantissa is even. For one digit, two digits and so on, the two decimals next to the number are
tried; the first count of digits with a hit wins, and of two hits the nearer. A number in the middle
between them is rounded up.
-/

namespace Metamodel.Decimal

/-- `digits * 10 ^ exponent` as it is written: the digits, the first of them before the point, and
the power of ten of that first digit. -/
structure Digits where
  digits : List Char
  power : Int
  deriving DecidableEq, Repr

namespace Digits

/-- The digits before the point of the positional form, of which there is at least one. -/
def whole (d : Digits) : List Char :=
  if d.power < 0 then ['0']
  else
    let places := d.power.toNat + 1
    d.digits.take places ++ List.replicate (places - d.digits.length) '0'

/-- The digits after the point of the positional form. -/
def fraction (d : Digits) : List Char :=
  if d.power < 0 then List.replicate (-d.power - 1).toNat '0' ++ d.digits
  else d.digits.drop (d.power.toNat + 1)

end Digits

/-- How `c * 10 ^ j` compares with `a * 2 ^ e`. -/
def compareScaled (c : Nat) (j : Int) (a : Nat) (e : Int) : Ordering :=
  compare (c * Nat.pow 10 j.toNat * Nat.pow 2 (-e).toNat)
    (a * Nat.pow 2 e.toNat * Nat.pow 10 (-j).toNat)

namespace Binary

/-- The ends of the interval of reals that round to the number, in quarters of its last place. Below
a power of two, except for the least one, the gap is half as wide. -/
def interval (f : BinaryFormat) (b : Binary) : Nat × Nat :=
  let low :=
    if b.mantissa = Nat.pow 2 (f.precision - 1) && f.minExponent < b.exponent then
      4 * b.mantissa - 1
    else 4 * b.mantissa - 2
  (low, 4 * b.mantissa + 2)

/-- Whether `c * 10 ^ j` rounds to the number. -/
def isReadFrom (f : BinaryFormat) (b : Binary) (c : Nat) (j : Int) : Bool :=
  let (low, high) := b.interval f
  let even := b.mantissa % 2 = 0
  (match compareScaled c j low (b.exponent - 2) with
    | .lt => false
    | .eq => even
    | .gt => true) &&
  (match compareScaled c j high (b.exponent - 2) with
    | .lt => true
    | .eq => even
    | .gt => false)

/-- The power of ten just above the number: it is less than `10 ^ n`, and not less than a tenth of
it. -/
def decimalSize (b : Binary) : Int :=
  let s := (-b.exponent).toNat
  (Nat.toDigits 10 (b.mantissa * Nat.pow 2 b.exponent.toNat * Nat.pow 5 s)).length - s

/-- The multiple of `10 ^ j` that is to be written for the number, if one next to it reads back. Of
two the nearer is taken, and the greater from the middle. -/
def candidate? (f : BinaryFormat) (b : Binary) (j : Int) : Option Nat :=
  let down := b.mantissa * Nat.pow 2 b.exponent.toNat * Nat.pow 10 (-j).toNat /
    (Nat.pow 10 j.toNat * Nat.pow 2 (-b.exponent).toNat)
  match b.isReadFrom f down j, b.isReadFrom f (down + 1) j with
  | true, true =>
    match compareScaled (2 * down + 1) j (2 * b.mantissa) b.exponent with
    | .lt | .eq => some (down + 1)
    | .gt => some down
  | true, false => some down
  | false, true => some (down + 1)
  | false, false => none

/-- The shortest digits from `count` of them on; `tries` bounds the search. -/
def shortestFrom (f : BinaryFormat) (b : Binary) : Nat → Int → Nat × Int
  | 0, j => (b.mantissa * Nat.pow 2 b.exponent.toNat, j)
  | tries + 1, j =>
    match b.candidate? f j with
    | some c => (c, j)
    | none => b.shortestFrom f tries (j - 1)

/-- The shortest decimal that reads back as a number other than zero. Seventeen digits always do. -/
def shortest (f : BinaryFormat) (b : Binary) : Digits :=
  let (c, j) := b.shortestFrom f 20 (b.decimalSize - 1)
  let written := Nat.toDigits 10 c
  let digits := (written.reverse.dropWhile (· = '0')).reverse
  ⟨digits, j + written.length - 1⟩

/-- The shortest decimal in positional form, without a point where nothing follows it. -/
def positional (f : BinaryFormat) (b : Binary) : List Char :=
  if b.mantissa = 0 then ['0']
  else
    let d := b.shortest f
    d.whole ++ (if d.fraction.isEmpty then [] else '.' :: d.fraction)

end Binary

end Metamodel.Decimal
