import Metamodel.Decimal.Shortest
import Metamodel.Generation.Designation
import Metamodel.Model.Basic
import Metamodel.Text.Quoted
import Metamodel.Text.Split

/-!
Values that fields begin with, written as expressions of the generated code.

A literal that is no value of its type counts for nothing: numbers and booleans then begin with zero
and false, and everything else has no value to begin with.

Results:
1. `freshName_not_mem`, `nodup_freshNames`: variants of one enum have different names.
-/

namespace Metamodel

namespace Literal

/-- The least and the greatest value of an integer type. Types with other names have those of 64
bits. -/
def integerRange : String → Int × Int
  | "i8" => (-Int.pow 2 7, Int.pow 2 7 - 1)
  | "i16" => (-Int.pow 2 15, Int.pow 2 15 - 1)
  | "i32" => (-Int.pow 2 31, Int.pow 2 31 - 1)
  | "i128" => (-Int.pow 2 127, Int.pow 2 127 - 1)
  | "u8" => (0, Int.pow 2 8 - 1)
  | "u16" => (0, Int.pow 2 16 - 1)
  | "u32" => (0, Int.pow 2 32 - 1)
  | "u64" | "usize" => (0, Int.pow 2 64 - 1)
  | _ => (-Int.pow 2 63, Int.pow 2 63 - 1)

/-- The integer that a literal writes, if the type has it. -/
def integer? (type literal : String) : Option Int :=
  let (least, greatest) := integerRange type
  (Decimal.int? (Text.trimChars literal.toList)).filter fun i => least ≤ i ∧ i ≤ greatest

/-- Digits in positional form with at least one of them after the point, or with an exponent from
`10 ^ 16` on and below `10 ^ -4`. -/
def floatText (d : Decimal.Digits) : String :=
  let text : List Char :=
    if 16 ≤ d.power || d.power < -4 then
      d.digits.take 1 ++ (if d.digits.length ≤ 1 then [] else '.' :: d.digits.drop 1) ++
        'e' :: (toString d.power).toList
    else d.whole ++ '.' :: (if d.fraction.isEmpty then ['0'] else d.fraction)
  String.ofList text

/-- A finite number, by the fewest digits that read back. -/
def binaryText (f : Decimal.BinaryFormat) (negative : Bool) (b : Decimal.Binary) : String :=
  (if negative then "-" else "") ++
    (if b.mantissa = 0 then "0.0" else floatText (b.shortest f))

/-- The number that a literal writes, if it is finite. A literal is read in double precision, and
rounded once more for a type of single precision. -/
def float? (type literal : String) : Option String := do
  let numeral ← Decimal.Numeral.ofChars? (Text.trimChars literal.toList)
  let value ← numeral.round? .double
  if type = "f32" then
    return binaryText .single numeral.negative (← Decimal.BinaryFormat.single.convert? value)
  else return binaryText .double numeral.negative value

/-- The value of a scalar type. -/
def scalar? (type : String) (kind : ScalarKind) (literal : Option String) : Option String :=
  match kind with
  | .boolean => some (if literal.map Text.trim = some "true" then "true" else "false")
  | .integer => some (toString ((literal.bind (integer? type)).getD 0))
  | .float => some ((literal.bind (float? type)).getD "0.0")
  | .string => literal.map fun l => s!"String::from({Text.literal l})"
  | .other => none

end Literal

namespace Identifier

/-- `base`, `base2`, `base3` and so on: one more than there are names in `taken`. -/
def nameCandidates (taken : List String) (base : String) : List String :=
  base :: (List.range taken.length).map fun i => base ++ toString (i + 2)

/-- `base`, or else the first of `base2`, `base3` and so on that is not taken. -/
def freshName (taken : List String) (base : String) : String :=
  ((nameCandidates taken base).find? fun name => !taken.contains name).getD base

/-- Names for the items of a list, each different from `taken` and from those before it. -/
def freshNames (taken : List String) : List String → List String
  | [] => []
  | base :: rest =>
    let name := freshName taken base
    name :: freshNames (name :: taken) rest

theorem toString_nat_injective {a b : Nat} (h : toString a = toString b) : a = b := by
  have digits (n : Nat) : (toString n).toList = Nat.toDigits 10 n := by simp
  rw [← Nat.ofDigitChars_toDigits (n := a) (b := 10) (by decide) (by decide), ← digits, h, digits,
    Nat.ofDigitChars_toDigits (by decide) (by decide)]

theorem nodup_nameCandidates (taken : List String) (base : String) :
    (nameCandidates taken base).Nodup := by
  unfold nameCandidates
  refine List.nodup_cons.2 ⟨?_, ?_⟩
  · intro h
    obtain ⟨i, -, hi⟩ := List.mem_map.1 h
    rw [String.append_eq_left_iff] at hi
    simpa using congrArg String.toList hi
  · refine List.pairwise_map.2 (List.nodup_range.imp ?_)
    intro i j hij h
    have := toString_nat_injective ((String.append_right_inj base).1 h)
    omega

/-- More candidates than taken names: one of them is free. -/
theorem freshName_not_mem (taken : List String) (base : String) : freshName taken base ∉ taken := by
  unfold freshName
  cases h : (nameCandidates taken base).find? fun name => !taken.contains name with
  | some name => simpa using List.find?_some h
  | none =>
    have all : nameCandidates taken base ⊆ taken := by
      intro name hn
      simpa using List.find?_eq_none.1 h name hn
    have := (nodup_nameCandidates taken base).length_le_of_subset all
    simp only [nameCandidates, List.length_cons, List.length_map, List.length_range] at this
    omega

theorem length_freshNames (taken bases : List String) :
    (freshNames taken bases).length = bases.length := by
  induction bases generalizing taken with
  | nil => rfl
  | cons base rest ih => simp [freshNames, ih]

theorem not_mem_freshNames {taken bases : List String} {name : String} (h : name ∈ taken) :
    name ∉ freshNames taken bases := by
  induction bases generalizing taken with
  | nil => simp [freshNames]
  | cons base rest ih =>
    intro hm
    rcases List.mem_cons.1 hm with rfl | hm
    · exact freshName_not_mem taken base h
    · exact ih (List.mem_cons_of_mem _ h) hm

theorem nodup_freshNames (taken bases : List String) : (freshNames taken bases).Nodup := by
  induction bases generalizing taken with
  | nil => exact List.nodup_nil
  | cons base rest ih =>
    exact List.nodup_cons.2 ⟨not_mem_freshNames List.mem_cons_self, ih _⟩

end Identifier

namespace Model

/-- The literals of an enum with the names of their variants, which are all different. -/
def enumVariants (m : Model) (id : ElementId) : List (ElementId × String) :=
  let literals := (m.enum? id).elim [] (·.literals)
  literals.zip (Identifier.freshNames [] (literals.map fun l => Identifier.pascalCase (m.label l)))

/-- The variant of the first literal that has the text as its name or as its literal text. -/
def variantOf? (m : Model) (enum : ElementId) (text : String) : Option String :=
  ((m.enumVariants enum).find? fun (literal, _) =>
    m.label literal = text || m.literalText literal = text).map Prod.snd

/-- The expression for the value that a field of this type begins with. -/
def defaultValue? (m : Model) (t : TypeSettings) (d : Designation) (literal : Option String) :
    Option String :=
  match d with
  | .scalar written kind => Literal.scalar? written kind literal
  | .enum path id => (literal.bind (m.variantOf? id)).map fun variant => path ++ "::" ++ variant
  | .many _ => some (if t.manyIsVector then "Vec::new()" else "Default::default()")
  | .stringMap =>
    some (if t.stringMapIsHashMap then "HashMap::new()" else "Default::default()")
  | .trait _ | .object | .unit => none

end Model

end Metamodel
