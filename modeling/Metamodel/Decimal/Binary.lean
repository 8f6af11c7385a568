import Metamodel.Decimal.Integer

/-!
Binary floating point numbers and the rounding of decimals to them, in exact arithmetic.

A finite number is `mantissa * 2 ^ exponent`. Rounding goes to the nearest number, and from the
middle between two to the one with the even mantissa.
-/

namespace Metamodel.Decimal

/-- A binary format: the number of bits of a mantissa, and the least and the greatest exponent. -/
structure BinaryFormat where
  precision : Nat
  minExponent : Int
  maxExponent : Int
  deriving DecidableEq, Repr

namespace BinaryFormat

def single : BinaryFormat := ⟨24, -149, 104⟩

def double : BinaryFormat := ⟨53, -1074, 971⟩

end BinaryFormat

/-- The magnitude of a finite number. -/
structure Binary where
  mantissa : Nat
  exponent : Int
  deriving DecidableEq, Repr

/-- `n / d` rounded to the nearest natural number, the even one from the middle. -/
def roundQuotient (n d : Nat) : Nat :=
  let down := n / d
  let twice := 2 * (n % d)
  if twice < d || (twice = d && down % 2 = 0) then down else down + 1

/-- The number of a format that is nearest to `n / d`; nothing beyond the greatest. -/
def BinaryFormat.round? (f : BinaryFormat) (n d : Nat) : Option Binary :=
  if n = 0 then some ⟨0, f.minExponent⟩
  else
    let estimate : Int := (Nat.log2 n : Int) - Nat.log2 d - f.precision
    let quotient (e : Int) : Nat × Nat := (n * Nat.pow 2 (-e).toNat, d * Nat.pow 2 e.toNat)
    let (en, ed) := quotient estimate
    let exponent :=
      max f.minExponent (if en / ed < Nat.pow 2 f.precision then estimate else estimate + 1)
    let (qn, qd) := quotient exponent
    let mantissa := roundQuotient qn qd
    let result : Binary :=
      if mantissa = Nat.pow 2 f.precision then ⟨Nat.pow 2 (f.precision - 1), exponent + 1⟩
      else ⟨mantissa, exponent⟩
    if result.exponent ≤ f.maxExponent then some result else none

/-- A number of one format as a number of another. -/
def BinaryFormat.convert? (f : BinaryFormat) (b : Binary) : Option Binary :=
  f.round? (b.mantissa * Nat.pow 2 b.exponent.toNat) (Nat.pow 2 (-b.exponent).toNat)

/-- The product of two numbers. -/
def BinaryFormat.multiply? (f : BinaryFormat) (a b : Binary) : Option Binary :=
  let exponent := a.exponent + b.exponent
  f.round? (a.mantissa * b.mantissa * Nat.pow 2 exponent.toNat) (Nat.pow 2 (-exponent).toNat)

/-- The quotient of two numbers, of which the second is not zero. -/
def BinaryFormat.divide? (f : BinaryFormat) (a b : Binary) : Option Binary :=
  let exponent := a.exponent - b.exponent
  f.round? (a.mantissa * Nat.pow 2 exponent.toNat) (b.mantissa * Nat.pow 2 (-exponent).toNat)

/-- A number as it is written: `digits * 10 ^ exponent`, with a sign. -/
structure Numeral where
  negative : Bool
  digits : Nat
  exponent : Int
  deriving DecidableEq, Repr

namespace Numeral

/-- The exponent part of a numeral: nothing, or a letter and an integer. -/
def exponentPart? : List Char → Option Int
  | [] => some 0
  | c :: cs => if c = 'e' || c = 'E' then int? cs else none

/-- Digits around a point, one of the sides empty at most, and an exponent. -/
def unsigned? (negative : Bool) (cs : List Char) : Option Numeral := do
  let whole := cs.takeWhile Char.isDigit
  let rest := cs.dropWhile Char.isDigit
  let (fraction, rest) :=
    match rest with
    | '.' :: rest => (rest.takeWhile Char.isDigit, rest.dropWhile Char.isDigit)
    | _ => ([], rest)
  let exponent ← exponentPart? rest
  if whole.isEmpty && fraction.isEmpty then none
  else return ⟨negative, natOfDigits (whole ++ fraction), exponent - fraction.length⟩

/-- A numeral with at most one sign in front. -/
def ofChars? : List Char → Option Numeral
  | '-' :: cs => unsigned? true cs
  | '+' :: cs => unsigned? false cs
  | cs => unsigned? false cs

/-- The magnitude in a binary format. Numerals with an exponent far out of range are decided without
writing them out. -/
def round? (f : BinaryFormat) (x : Numeral) : Option Binary :=
  let size : Int := x.exponent + (Nat.toDigits 10 x.digits).length
  if x.digits = 0 || size < -400 then f.round? 0 1
  else if size > 400 then none
  else f.round? (x.digits * Nat.pow 10 x.exponent.toNat) (Nat.pow 10 (-x.exponent).toNat)

end Numeral

end Metamodel.Decimal
