/-!
Entities in attribute values: the five predefined names, and code points in decimal or hexadecimal.

Results:
1. `unescape?_eq_self`: a text without an ampersand stands for itself.
-/

namespace Metamodel.Markup

/-- The number that a non-empty run of digits writes in a base. -/
def numberOf? (digitOf : Char → Option Nat) (base : Nat) (digits : List Char) : Option Nat :=
  if digits.isEmpty then none
  else digits.foldlM (fun n c => (digitOf c).map fun d => base * n + d) 0

def decimalDigit? (c : Char) : Option Nat :=
  if c.isDigit then some (c.toNat - '0'.toNat) else none

def hexDigit? (c : Char) : Option Nat :=
  if c.isDigit then some (c.toNat - '0'.toNat)
  else if 'a' ≤ c ∧ c ≤ 'f' then some (c.toNat - 'a'.toNat + 10)
  else if 'A' ≤ c ∧ c ≤ 'F' then some (c.toNat - 'A'.toNat + 10)
  else none

/-- The character with this code point, if there is one; zero is not allowed. -/
def charOfCode? (code : Nat) : Option Char :=
  if code ≠ 0 ∧ code.isValidChar then some (Char.ofNat code) else none

/-- The character that an entity stands for, given what is between `&` and `;`. -/
def entity? : List Char → Option Char
  | '#' :: 'x' :: digits => (numberOf? hexDigit? 16 digits).bind charOfCode?
  | '#' :: digits => (numberOf? decimalDigit? 10 digits).bind charOfCode?
  | ['l', 't'] => some '<'
  | ['g', 't'] => some '>'
  | ['a', 'm', 'p'] => some '&'
  | ['a', 'p', 'o', 's'] => some '\''
  | ['q', 'u', 'o', 't'] => some '"'
  | _ => none

/-- Goes on with the text after an ampersand whose entity reads `name` backwards so far, or outside
any entity. -/
def unescapeFrom? : Option (List Char) → List Char → Option (List Char)
  | none, [] => some []
  | none, c :: rest =>
    if c = '&' then unescapeFrom? (some []) rest else (unescapeFrom? none rest).map (c :: ·)
  | some _, [] => none
  | some name, c :: rest =>
    if c = ';' then do
      let entity ← entity? name.reverse
      let text ← unescapeFrom? none rest
      return entity :: text
    else if c = '&' then none
    else unescapeFrom? (some (c :: name)) rest

/-- The text with every entity replaced; nothing if one is not known or does not end. -/
def unescape? (cs : List Char) : Option (List Char) := unescapeFrom? none cs

theorem unescape?_eq_self {cs : List Char} (h : '&' ∉ cs) : unescape? cs = some cs := by
  unfold unescape?
  induction cs with
  | nil => rfl
  | cons c rest ih =>
    rw [List.mem_cons, not_or] at h
    simp [unescapeFrom?, Ne.symm h.1, ih h.2]

end Metamodel.Markup
