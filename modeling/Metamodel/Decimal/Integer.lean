/-!
Integers in decimal notation: digits after at most one sign.

Results:
1. `int?_eq_some_iff`: which characters write which integer.
-/

namespace Metamodel.Decimal

/-- The number that digits write, the most significant first. -/
def natOfDigits (digits : List Char) : Nat :=
  digits.foldl (fun n d => 10 * n + (d.toNat - '0'.toNat)) 0

/-- A non-empty run of digits. -/
def nat? (cs : List Char) : Option Nat :=
  if !cs.isEmpty && cs.all Char.isDigit then some (natOfDigits cs) else none

/-- A non-empty run of digits after at most one sign. -/
def int? : List Char → Option Int
  | '-' :: digits => (nat? digits).map fun n => -(n : Int)
  | '+' :: digits => (nat? digits).map Int.ofNat
  | digits => (nat? digits).map Int.ofNat

/-- One digit or more. -/
structure IsRun (cs : List Char) : Prop where
  nonempty : cs ≠ []
  digits : ∀ c ∈ cs, c.isDigit

/-- The characters write the integer. -/
inductive Writes : List Char → Int → Prop
  | unsigned {digits : List Char} : IsRun digits → Writes digits (natOfDigits digits)
  | positive {digits : List Char} : IsRun digits → Writes ('+' :: digits) (natOfDigits digits)
  | negative {digits : List Char} : IsRun digits → Writes ('-' :: digits) (-natOfDigits digits)

theorem nat?_eq_some_iff {cs : List Char} {n : Nat} :
    nat? cs = some n ↔ IsRun cs ∧ natOfDigits cs = n := by
  have run : (!cs.isEmpty && cs.all Char.isDigit) = true ↔ IsRun cs := by
    simp only [Bool.and_eq_true, Bool.not_eq_true', List.isEmpty_eq_false_iff, List.all_eq_true]
    exact ⟨fun both => ⟨both.1, both.2⟩, fun run => ⟨run.nonempty, run.digits⟩⟩
  unfold nat?
  split
  · next isRun => simp [run.mp isRun]
  · next noRun => simp [mt run.mpr noRun]

theorem int?_minus (digits : List Char) :
    int? ('-' :: digits) = (nat? digits).map fun n => -(Int.ofNat n) := by
  cases read : nat? digits <;> simp [int?, read]

theorem int?_plus (digits : List Char) :
    int? ('+' :: digits) = (nat? digits).map Int.ofNat := rfl

/-- Digits come after at most one sign. -/
theorem int?_of_no_sign {cs : List Char} (noSign : ∀ c ∈ cs.head?, c ≠ '-' ∧ c ≠ '+') :
    int? cs = (nat? cs).map Int.ofNat := by
  unfold int?
  split
  · exact absurd rfl (noSign '-' rfl).1
  · exact absurd rfl (noSign '+' rfl).2
  · rfl

theorem IsRun.no_sign {cs : List Char} (run : IsRun cs) : ∀ c ∈ cs.head?, c ≠ '-' ∧ c ≠ '+' := by
  intro c first
  have digit := run.digits c (List.mem_of_head? first)
  constructor <;> rintro rfl <;> exact absurd digit (by decide)

/-- What a text is read as is what it writes. -/
theorem int?_eq_some_iff {cs : List Char} {i : Int} : int? cs = some i ↔ Writes cs i := by
  have number {digits : List Char} {f : Nat → Int} :
      (nat? digits).map f = some i ↔ IsRun digits ∧ f (natOfDigits digits) = i := by
    simp only [Option.map_eq_some_iff, nat?_eq_some_iff]
    constructor
    · rintro ⟨n, ⟨run, rfl⟩, same⟩
      exact ⟨run, same⟩
    · rintro ⟨run, same⟩
      exact ⟨_, ⟨run, rfl⟩, same⟩
  constructor
  · intro read
    rcases cs with _ | ⟨c, digits⟩
    · cases read
    · by_cases minus : c = '-'
      · subst minus
        rw [int?_minus, number] at read
        exact read.2 ▸ .negative read.1
      · by_cases plus : c = '+'
        · subst plus
          rw [int?_plus, number] at read
          exact read.2 ▸ .positive read.1
        · rw [int?_of_no_sign (by simp [minus, plus]), number] at read
          exact read.2 ▸ .unsigned read.1
  · intro writes
    cases writes with
    | unsigned run => exact (int?_of_no_sign run.no_sign).trans (number.mpr ⟨run, rfl⟩)
    | positive run => exact (int?_plus _).trans (number.mpr ⟨run, rfl⟩)
    | negative run => exact (int?_minus _).trans (number.mpr ⟨run, rfl⟩)

end Metamodel.Decimal
