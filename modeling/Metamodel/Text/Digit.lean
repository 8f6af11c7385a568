/-!
Numbers and characters written by digits of some base.
-/

namespace Metamodel.Text

/-- The value of a digit of a base up to sixteen. -/
def digitValue? (base : Nat) (c : Char) : Option Nat :=
  let value :=
    if c.isDigit then c.toNat - '0'.toNat
    else if 'a' ≤ c ∧ c ≤ 'f' then c.toNat - 'a'.toNat + 10
    else if 'A' ≤ c ∧ c ≤ 'F' then c.toNat - 'A'.toNat + 10
    else base
  if value < base then some value else none

def isHexDigit (c : Char) : Bool := (digitValue? 16 c).isSome

/-- The number that digits write. -/
def natOf? (base : Nat) (digits : List Char) : Option Nat :=
  if digits.isEmpty then none
  else digits.foldlM (fun n c => (digitValue? base c).map fun d => base * n + d) 0

/-- The character with a code point. -/
def charOf? (n : Nat) : Option Char := if n.isValidChar then some (Char.ofNat n) else none

/-- The character with a code point that is given by hexadecimal digits. -/
def codePoint? (digits : List Char) : Option Char := (natOf? 16 digits).bind charOf?

/-- The character that two surrogates stand for together. -/
def ofSurrogates? (high low : Nat) : Option Char :=
  if 0xd800 ≤ high ∧ high < 0xdc00 ∧ 0xdc00 ≤ low ∧ low < 0xe000 then
    charOf? (0x10000 + (high - 0xd800) * 0x400 + (low - 0xdc00))
  else none

/-- The first so many characters as a hexadecimal number, and what follows them. -/
def hexDigits? (places : Nat) (cs : List Char) : Option (Nat × List Char) :=
  if places ≤ cs.length then (natOf? 16 (cs.take places)).map fun n => (n, cs.drop places)
  else none

/-- What follows `\u` in a string whose characters may be written by their UTF-16 units. -/
def unit16Escape? (cs : List Char) : Option (Char × List Char) := do
  let (unit, rest) ← hexDigits? 4 cs
  match charOf? unit, rest with
  | some c, _ => return (c, rest)
  | none, '\\' :: 'u' :: rest =>
    let (low, rest) ← hexDigits? 4 rest
    return (← ofSurrogates? unit low, rest)
  | none, _ => none

end Metamodel.Text
