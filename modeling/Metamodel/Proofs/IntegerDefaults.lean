import Mathlib.Algebra.Group.Int.Defs
import Metamodel.Generation.Literal

/-!
The integers that fields begin with.

A field of an integer type should begin with the integer that its literal writes, if the type has
that integer, and with zero otherwise. Literals are checked against the bounds of their type, but
there are none for `u128`: its literals are checked as if they were of `i64`.

Results:
1. `integer?_eq_some_iff`: which literals are read as which integer.
2. `bounds_iff`: the bounds that a type is checked against.
3. `integer_begins`: what fields begin with, and when it is what they should.
4. `u128_begins_below`: a field of an unsigned type begins with a negative number.
-/

namespace Metamodel

open Text (isBlank)

/-- The integer types of generated code. Sizes of addresses have 64 bits. -/
inductive IntegerType
  | i8 | i16 | i32 | i64 | i128 | isize | u8 | u16 | u32 | u64 | u128 | usize
  deriving DecidableEq

namespace IntegerType

def written : IntegerType → String
  | i8 => "i8"
  | i16 => "i16"
  | i32 => "i32"
  | i64 => "i64"
  | i128 => "i128"
  | isize => "isize"
  | u8 => "u8"
  | u16 => "u16"
  | u32 => "u32"
  | u64 => "u64"
  | u128 => "u128"
  | usize => "usize"

def isSigned : IntegerType → Bool
  | i8 | i16 | i32 | i64 | i128 | isize => true
  | u8 | u16 | u32 | u64 | u128 | usize => false

def bits : IntegerType → Nat
  | i8 | u8 => 8
  | i16 | u16 => 16
  | i32 | u32 => 32
  | i64 | u64 | isize | usize => 64
  | i128 | u128 => 128

def least (type : IntegerType) : Int :=
  if type.isSigned then -2 ^ (type.bits - 1) else 0

def greatest (type : IntegerType) : Int :=
  if type.isSigned then 2 ^ (type.bits - 1) - 1 else 2 ^ type.bits - 1

/-- The integers of a type. -/
def Has (type : IntegerType) (i : Int) : Prop :=
  type.least ≤ i ∧ i ≤ type.greatest

instance (type : IntegerType) (i : Int) : Decidable (type.Has i) := by
  unfold Has
  infer_instance

end IntegerType

namespace Literal

/-- Apart from white space at its ends, the literal is an integer in decimal notation. -/
def Writes (literal : Option String) (i : Int) : Prop :=
  ∃ before digits behind : List Char,
    literal.map String.toList = some (before ++ (digits ++ behind)) ∧
      (∀ c ∈ before, isBlank c) ∧ (∀ c ∈ behind, isBlank c) ∧ Decimal.Writes digits i

end Literal

namespace IntegerType

/-- What a field of the type should begin with: the integer that its literal writes, if the type has
it, else zero. -/
inductive Begins (type : IntegerType) (literal : Option String) : Int → Prop
  | written {i : Int} : Literal.Writes literal i → type.Has i → Begins type literal i
  | zero : (∀ i, Literal.Writes literal i → ¬ type.Has i) → Begins type literal 0

theorem has_zero (type : IntegerType) : type.Has 0 := by
  cases type <;> decide

theorem Begins.has {type : IntegerType} {literal : Option String} {i : Int}
    (begins : type.Begins literal i) : type.Has i := by
  cases begins with
  | written _ has => exact has
  | zero => exact type.has_zero

end IntegerType

namespace Literal

/-! ## Reading -/

theorem isBlank_eq_false_of_isDigit {c : Char} (digit : c.isDigit) : isBlank c = false := by
  have ascii := Text.isAscii_of_isAlphanum (Text.isAlphanum_of_isDigit digit)
  revert digit
  refine Text.forall_ascii (P := fun c => c.isDigit → isBlank c = false) ?_ ascii
  decide +kernel

/-- There is no white space in a number. -/
theorem trimmed_of_writes {cs : List Char} {i : Int} (writes : Decimal.Writes cs i) :
    Text.Trimmed cs := by
  have digits {run : List Char} (isRun : Decimal.IsRun run) : ∀ c ∈ run, isBlank c = false :=
    fun c member => isBlank_eq_false_of_isDigit (isRun.digits c member)
  have visible : ∀ c ∈ cs, isBlank c = false := by
    cases writes with
    | unsigned run => exact digits run
    | positive run => exact List.forall_mem_cons.mpr ⟨by decide, digits run⟩
    | negative run => exact List.forall_mem_cons.mpr ⟨by decide, digits run⟩
  exact ⟨fun c first => visible c (List.mem_of_mem_head? first),
    fun c last => visible c (List.mem_of_mem_getLast? last)⟩

/-- A literal writes what is read from it between the white space. -/
theorem writes_some_iff {text : String} {i : Int} :
    Writes (some text) i ↔ Decimal.int? (Text.trimChars text.toList) = some i := by
  rw [Decimal.int?_eq_some_iff]
  constructor
  · rintro ⟨before, digits, behind, whole, blank, blank', writes⟩
    rw [Option.map_some, Option.some.injEq] at whole
    rw [whole, Text.trimChars_append blank (trimmed_of_writes writes) blank']
    exact writes
  · intro writes
    obtain ⟨before, behind, blank, blank', -, whole⟩ := Text.exists_trim text.toList
    exact ⟨before, _, behind, congrArg some whole, blank, blank', writes⟩

theorem writes_unique {literal : Option String} {i j : Int} (first : Writes literal i)
    (second : Writes literal j) : i = j := by
  cases literal with
  | none =>
    obtain ⟨_, _, _, absent, -⟩ := first
    cases absent
  | some text =>
    rw [writes_some_iff] at first second
    exact Option.some.inj (first.symm.trans second)

theorem integer?_eq_some_iff {type text : String} {i : Int} :
    integer? type text = some i ↔
      Writes (some text) i ∧ (integerRange type).1 ≤ i ∧ i ≤ (integerRange type).2 := by
  rw [writes_some_iff, integer?, Option.filter_eq_some_iff, decide_eq_true_eq]

end Literal

/-! ## Bounds -/

namespace IntegerType

/-- The type whose bounds the literals of a type are checked against. -/
def checkedAs : IntegerType → IntegerType
  | u128 => i64
  | type => type

theorem integerRange_written (type : IntegerType) :
    Literal.integerRange type.written = (type.checkedAs.least, type.checkedAs.greatest) := by
  cases type <;> rfl

theorem i64_has_iff {i : Int} : i64.Has i ↔ -2 ^ 63 ≤ i ∧ i < 2 ^ 63 := by
  have bounds : i64.least = -2 ^ 63 ∧ i64.greatest = 2 ^ 63 - 1 := ⟨rfl, rfl⟩
  rw [Has, bounds.1, bounds.2]
  omega

theorem u128_has_iff {i : Int} : u128.Has i ↔ 0 ≤ i ∧ i < 2 ^ 128 := by
  have bounds : u128.least = 0 ∧ u128.greatest = 2 ^ 128 - 1 := ⟨rfl, rfl⟩
  rw [Has, bounds.1, bounds.2]
  omega

/-! ## Defaults -/

theorem Begins.unique {type : IntegerType} {literal : Option String} {i j : Int}
    (first : type.Begins literal i) (second : type.Begins literal j) : i = j := by
  cases first with
  | written writes has =>
    cases second with
    | written writes' => exact Literal.writes_unique writes writes'
    | zero none => exact absurd has (none _ writes)
  | zero none =>
    cases second with
    | written writes' has' => exact absurd has' (none _ writes')
    | zero => rfl

/-- Only the integer that is written decides what fields of two types begin with. -/
theorem Begins.congr {type type' : IntegerType} {literal : Option String} {i : Int}
    (begins : type.Begins literal i)
    (agree : ∀ j, Literal.Writes literal j → (type.Has j ↔ type'.Has j)) :
    type'.Begins literal i := by
  cases begins with
  | written writes has => exact .written writes ((agree _ writes).mp has)
  | zero none => exact .zero fun j writes has => none j writes ((agree j writes).mpr has)

theorem checkedAs_begins (type : IntegerType) (literal : Option String) :
    type.checkedAs.Begins literal ((literal.bind (Literal.integer? type.written)).getD 0) := by
  have bounds (i : Int) :
      (Literal.integerRange type.written).1 ≤ i ∧ i ≤ (Literal.integerRange type.written).2 ↔
        type.checkedAs.Has i := by
    rw [integerRange_written, Has]
  cases literal with
  | none => exact .zero fun i ⟨_, _, _, absent, _⟩ => nomatch absent
  | some text =>
    rw [Option.bind_some]
    cases read : Literal.integer? type.written text with
    | some i =>
      obtain ⟨writes, has⟩ := Literal.integer?_eq_some_iff.mp read
      exact .written writes ((bounds i).mp has)
    | none =>
      refine .zero fun i writes has => ?_
      rw [Literal.integer?_eq_some_iff.mpr ⟨writes, (bounds i).mpr has⟩] at read
      cases read

/-- A field begins with what a field of the type that its literal is checked for should begin with.
This is what it should begin with itself, unless its type is `u128` and the literal writes a
negative integer from `-2 ^ 63` on, which the field begins with, or an integer from `2 ^ 63` on,
which is lost. -/
theorem integer_begins (m : Model) (t : TypeSettings) (type : IntegerType)
    (literal : Option String) :
    ∃ i : Int, m.defaultValue? t (.scalar type.written .integer) literal = some (toString i) ∧
      type.checkedAs.Begins literal i ∧
        (type.Has i ∧ type.Begins literal i ↔
          ¬ (type = .u128 ∧ ∃ j, Literal.Writes literal j ∧
            (-2 ^ 63 ≤ j ∧ j < 0 ∨ 2 ^ 63 ≤ j ∧ j < 2 ^ 128))) := by
  have begins := type.checkedAs_begins literal
  refine ⟨_, rfl, begins, ?_⟩
  generalize (literal.bind (Literal.integer? type.written)).getD 0 = i at begins
  by_cases unchecked : type = .u128
  · subst unchecked
    constructor
    · rintro ⟨has, begins'⟩ ⟨-, j, writes, low | high⟩
      · have same : i = j := begins.unique (.written writes (i64_has_iff.mpr (by omega)))
        rw [u128_has_iff] at has
        omega
      · have same : i = j := begins'.unique (.written writes (u128_has_iff.mpr (by omega)))
        have has' := i64_has_iff.mp begins.has
        omega
    · intro sound
      have begins' : u128.Begins literal i := by
        refine begins.congr fun j writes => ?_
        have apart : ¬ (-2 ^ 63 ≤ j ∧ j < 0 ∨ 2 ^ 63 ≤ j ∧ j < 2 ^ 128) :=
          fun misread => sound ⟨rfl, j, writes, misread⟩
        rw [checkedAs, i64_has_iff, u128_has_iff]
        omega
      exact ⟨begins'.has, begins'⟩
  · have same : type.checkedAs = type := by
      cases type <;> first | rfl | exact absurd rfl unchecked
    rw [same] at begins
    exact iff_of_true ⟨begins.has, begins⟩ fun ⟨isU128, _⟩ => unchecked isU128

/-- `-1` is no integer of an unsigned type, but a field begins with it. -/
theorem u128_begins_below :
    ({} : Model).defaultValue? {} (.scalar u128.written .integer) (some "-1") = some "-1" ∧
      ∀ i, u128.Has i → toString i ≠ "-1" := by
  refine ⟨by decide +kernel, fun i has text => ?_⟩
  obtain ⟨n, rfl⟩ := Int.eq_ofNat_of_zero_le (u128_has_iff.mp has).1
  have digits : toString (n : Int) = toString n := rfl
  have minus : '-' ∈ (toString n).toList := by
    rw [← digits, text]
    decide
  rw [Nat.toString_eq_repr, Nat.toList_repr] at minus
  exact absurd (Nat.isDigit_of_mem_toDigits (by decide) (by decide) minus) (by decide)

end IntegerType

end Metamodel
