import Metamodel.Text.Table.Case
import Metamodel.Text.Table.Letter
import Metamodel.Text.Table.Mark
import Metamodel.Text.Table.Number
import Metamodel.Text.Table.Printable

/-!
Classes of characters and the full case mappings.

Every class says what it holds below U+0080 in so many words and asks a table above.

Results:
1. `forall_ascii`: what holds of all ASCII characters.
2. `isUpper_ascii`, `toLower_ascii`, …: below U+0080 the classes are the familiar ones.
3. `isBlank_of_isWhitespace`: blanks include everything that core calls white space.
4. `isWord_eq_false_of_isBlank`: white space has no place in words.
-/

namespace Metamodel.Text

def isAscii (c : Char) : Bool := c.toNat < 0x80

/-- White space: tab, line and page ends, spaces. -/
def isBlank (c : Char) : Bool :=
  if isAscii c then c = ' ' || (0x09 ≤ c.toNat && c.toNat ≤ 0x0d)
  else Table.blanks.contains c

/-- Characters of words: letters, marks, decimal digits, connectors such as the low line, and the
two join controls. The newest letters, marks and digits are not counted among them. -/
def isWord (c : Char) : Bool :=
  if isAscii c then c.isAlphanum || c = '_'
  else
    (Table.alphabetic.contains c || Table.marks.contains c || Table.decimalDigits.contains c ||
      Table.connectors.contains c || Table.joinControls.contains c) && !Table.newest.contains c

/-- Letters and numbers. -/
def isAlphanumeric (c : Char) : Bool :=
  if isAscii c then c.isAlphanum else Table.alphabetic.contains c || Table.numbers.contains c

def isUpper (c : Char) : Bool :=
  if isAscii c then c.isUpper else Table.uppercase.any (·.contains c.toNat)

def isLower (c : Char) : Bool :=
  if isAscii c then c.isLower else Table.lowercase.any (·.contains c.toNat)

/-- The lower case form, which may be longer than one character. -/
def toLower (c : Char) : List Char :=
  if isAscii c then [c.toLower] else mapCase Table.lowerShifts Table.lowerExpansions c

/-- The upper case form, which may be longer than one character. -/
def toUpper (c : Char) : List Char :=
  if isAscii c then [c.toUpper] else mapCase Table.upperShifts Table.upperExpansions c

/-- Characters that can be shown as they are. -/
def isPrintable (c : Char) : Bool :=
  if isAscii c then 0x20 ≤ c.toNat && c.toNat < 0x7f else !Table.unprintable.contains c

/-- Characters that attach to the one before them. -/
def extendsGrapheme (c : Char) : Bool := !isAscii c && Table.graphemeExtend.contains c

/-- What holds of the first 128 characters holds of the ASCII ones. -/
theorem forall_ascii {P : Char → Prop} (all : ∀ n < 0x80, P (Char.ofNat n)) {c : Char}
    (ascii : isAscii c) : P c := by
  have low : c.toNat < 0x80 := of_decide_eq_true ascii
  have here := all c.toNat low
  rwa [Char.ofNat_toNat] at here

theorem isAlpha_of_isUpper {c : Char} (upper : c.isUpper) : c.isAlpha := by
  show (c.isUpper || c.isLower) = true
  rw [upper, Bool.true_or]

theorem isAlphanum_of_isAlpha {c : Char} (alpha : c.isAlpha) : c.isAlphanum := by
  show (c.isAlpha || c.isDigit) = true
  rw [alpha, Bool.true_or]

theorem isAlphanum_of_isDigit {c : Char} (digit : c.isDigit) : c.isAlphanum := by
  show (c.isAlpha || c.isDigit) = true
  rw [digit, Bool.or_true]

theorem isAscii_of_isAlphanum {c : Char} (alphanum : c.isAlphanum) : isAscii c := by
  have classes : ((decide ('A'.val ≤ c.val ∧ c.val ≤ 'Z'.val) ||
      (decide ('a'.val ≤ c.val) && decide (c.val ≤ 'z'.val))) ||
      (decide ('0'.val ≤ c.val) && decide (c.val ≤ '9'.val))) = true := alphanum
  simp only [Bool.or_eq_true, Bool.and_eq_true, decide_eq_true_eq,
    UInt32.le_iff_toNat_le] at classes
  have capital : 'Z'.val.toNat = 90 := rfl
  have small : 'z'.val.toNat = 122 := rfl
  have nine : '9'.val.toNat = 57 := rfl
  refine decide_eq_true ?_
  show c.val.toNat < 0x80
  omega

theorem isDigit_eq_false_of_isAlpha {c : Char} (alpha : c.isAlpha) : c.isDigit = false := by
  have ascii := isAscii_of_isAlphanum (isAlphanum_of_isAlpha alpha)
  revert alpha
  refine forall_ascii (P := fun c => c.isAlpha → c.isDigit = false) ?_ ascii
  decide +kernel

theorem isUpper_ascii {c : Char} (h : isAscii c) : isUpper c = c.isUpper := by
  simp [isUpper, h]

theorem isLower_ascii {c : Char} (h : isAscii c) : isLower c = c.isLower := by
  simp [isLower, h]

theorem isAlphanumeric_ascii {c : Char} (h : isAscii c) : isAlphanumeric c = c.isAlphanum := by
  simp [isAlphanumeric, h]

theorem toLower_ascii {c : Char} (h : isAscii c) : toLower c = [c.toLower] := by
  simp [toLower, h]

theorem toUpper_ascii {c : Char} (h : isAscii c) : toUpper c = [c.toUpper] := by
  simp [toUpper, h]

theorem isBlank_of_isWhitespace {c : Char} (h : c.isWhitespace) : isBlank c := by
  have key : ∀ x : Char, x = ' ' ∨ x = '\t' ∨ x = '\r' ∨ x = '\n' → isBlank x := by
    rintro x (rfl | rfl | rfl | rfl) <;> decide
  apply key
  simpa [Char.isWhitespace, or_assoc] using h

/-- Where white space lies above U+007F. -/
def blankRanges : List (Nat × Nat) :=
  [(0x85, 0x86), (0xa0, 0xa1), (0x1680, 0x1681), (0x2000, 0x200b), (0x2028, 0x202a),
    (0x202f, 0x2030), (0x205f, 0x2060), (0x3000, 0x3001)]

/-- None of the sets that words are made of has a point in these ranges. -/
theorem not_contains_blankRanges : ∀ set ∈ [Table.alphabetic, Table.marks, Table.decimalDigits,
    Table.connectors, Table.joinControls], ∀ range ∈ blankRanges, ∀ n < range.2 - range.1,
      set.boundaries.toList.countP (· ≤ range.1 + n) % 2 = 0 := by
  decide +kernel

theorem isWord_eq_false_of_isBlank {c : Char} (blank : isBlank c) : isWord c = false := by
  by_cases ascii : isAscii c
  · revert blank
    refine forall_ascii (P := fun c => isBlank c → isWord c = false) ?_ ascii
    decide +kernel
  · have listed : Table.blanks = .ofRanges blankRanges := rfl
    rw [isBlank, if_neg ascii, listed] at blank
    obtain ⟨range, member, above, below⟩ := CharSet.exists_range_of_contains (by decide) blank
    have absent : ∀ set ∈ [Table.alphabetic, Table.marks, Table.decimalDigits, Table.connectors,
        Table.joinControls], set.contains c = false := by
      intro set known
      have even := not_contains_blankRanges set known range member (c.toNat - range.1) (by omega)
      rw [Nat.add_sub_cancel' above, Array.countP_toList] at even
      simp [CharSet.contains, even]
    simp only [List.forall_mem_cons] at absent
    simp [isWord, ascii, absent]

end Metamodel.Text
