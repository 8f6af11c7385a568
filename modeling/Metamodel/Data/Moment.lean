import Metamodel.Decimal.Integer

/-!
Dates and times of day: `1979-05-27`, `07:32:00.5` and both together, with a distance from
universal time or without.

A moment is kept as text in one form: `T` stands between date and time, `Z` for universal time, and
a fraction of a second has at most nine digits and no zeros at its end.
-/

namespace Metamodel.Moment

/-- So many digits that write a number within bounds, and what follows them. -/
def digits? (places least greatest : Nat) (cs : List Char) : Option (List Char × List Char) :=
  let digits := cs.take places
  let number := Decimal.natOfDigits digits
  if digits.length = places && digits.all Char.isDigit && least ≤ number && number ≤ greatest then
    some (digits, cs.drop places)
  else none

/-- What follows a character. -/
def after? (mark : Char) : List Char → Option (List Char)
  | [] => none
  | c :: rest => if c = mark then some rest else none

def isLeap (year : Nat) : Bool := year % 4 = 0 && (year % 100 ≠ 0 || year % 400 = 0)

/-- How many days a month has. -/
def daysIn (year month : Nat) : Nat :=
  if month = 2 then (if isLeap year then 29 else 28)
  else if [4, 6, 9, 11].contains month then 30
  else 31

/-- A date, and what follows it. -/
def date? (cs : List Char) : Option (List Char × List Char) := do
  let (year, rest) ← digits? 4 0 9999 cs
  let (month, rest) ← digits? 2 1 12 (← after? '-' rest)
  let last := daysIn (Decimal.natOfDigits year) (Decimal.natOfDigits month)
  let (day, rest) ← digits? 2 1 last (← after? '-' rest)
  return (year ++ '-' :: month ++ '-' :: day, rest)

/-- A fraction of a second, if there is one, and what follows it. -/
def fraction (cs : List Char) : List Char × List Char :=
  match cs with
  | '.' :: rest =>
    let digits := rest.takeWhile Char.isDigit
    let kept := ((digits.take 9).reverse.dropWhile (· = '0')).reverse
    if digits.isEmpty then ([], cs)
    else (if kept.isEmpty then [] else '.' :: kept, rest.drop digits.length)
  | _ => ([], cs)

/-- A time of day, and what follows it. A minute may have one second more than sixty. -/
def time? (cs : List Char) : Option (List Char × List Char) := do
  let (hour, rest) ← digits? 2 0 23 cs
  let (minute, rest) ← digits? 2 0 59 (← after? ':' rest)
  let (second, rest) ← digits? 2 0 60 (← after? ':' rest)
  let (part, rest) := fraction rest
  return (hour ++ ':' :: minute ++ ':' :: second ++ part, rest)

/-- Hours and minutes. -/
def distance? (cs : List Char) : Option (List Char × List Char) := do
  let (hour, rest) ← digits? 2 0 23 cs
  let (minute, rest) ← digits? 2 0 59 (← after? ':' rest)
  return (hour ++ ':' :: minute, rest)

/-- A distance from universal time, if there is one, and what follows it. No distance has the sign
of a positive one. -/
def offset (cs : List Char) : List Char × List Char :=
  match cs with
  | 'Z' :: rest | 'z' :: rest => (['Z'], rest)
  | '+' :: rest => ((distance? rest).map fun (d, rest) => ('+' :: d, rest)).getD ([], cs)
  | '-' :: rest =>
    let signed (d : List Char) : List Char :=
      (if d = "00:00".toList then '+' else '-') :: d
    ((distance? rest).map fun (d, rest) => (signed d, rest)).getD ([], cs)
  | _ => ([], cs)

/-- A time of day after a date, and what follows it. -/
def timeAfterDate? : List Char → Option (List Char × List Char)
  | [] => none
  | c :: rest =>
    if c = 'T' || c = 't' || c = ' ' then
      (time? rest).map fun (time, rest) =>
        let (distance, rest) := offset rest
        ('T' :: time ++ distance, rest)
    else none

/-- A moment in its one form, and what follows it. -/
def ofChars? (cs : List Char) : Option (List Char × List Char) :=
  match date? cs with
  | none => time? cs
  | some (date, rest) =>
    match timeAfterDate? rest with
    | none => some (date, rest)
    | some (time, rest) => some (date ++ time, rest)

end Metamodel.Moment
