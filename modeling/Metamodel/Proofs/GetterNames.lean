import Mathlib.Data.List.Nodup
import Metamodel.Generation.Naming

/-!
When two features are read by methods of one name.

The name of a feature is brought into snake case. A boolean asks a question: its name gets `is_` in
front unless it begins with that already. The result is escaped if it is a keyword. None of these
steps is injective, so two features may be read by one name although their own names are different:
`maxSize` and `max_size`, the booleans `open` and `isOpen`, or `type` and `r#type`.

Results:
1. `escapeKeyword_eq_iff`: which identifiers are one after escaping.
2. `reading_eq_iff`: which names are one before it.
3. `NamingSettings.getter_eq_iff`: which features are read by one name.
-/

namespace Metamodel

namespace Identifier

/-! ## Questions and keywords -/

theorem after?_eq_some_iff {start s rest : String} : after? start s = some rest ↔ s = start ++ rest := by
  unfold after?
  constructor
  · intro found
    split at found
    · next front =>
      obtain ⟨tail, whole⟩ := List.isPrefixOf_iff_prefix.mp front
      cases found
      refine String.toList_injective ?_
      rw [String.toList_append, String.toList_ofList, ← whole, ← String.length_toList,
        List.drop_left]
    · cases found
  · rintro rfl
    have front : start.toList.isPrefixOf (start ++ rest).toList := by
      rw [List.isPrefixOf_iff_prefix, String.toList_append]
      exact List.prefix_append _ _
    rw [if_pos front, String.toList_append, ← String.length_toList, List.drop_left,
      String.ofList_toList]

theorem isQuestion_iff {name : String} : isQuestion name ↔ ∃ rest, name = "is_" ++ rest := by
  rw [isQuestion, Option.isSome_iff_exists]
  exact exists_congr fun rest => after?_eq_some_iff

theorem isQuestion_asked (name : String) : isQuestion ("is_" ++ name) :=
  isQuestion_iff.mpr ⟨name, rfl⟩

theorem isKeyword_iff {ident : String} : isKeyword ident ↔ ident ∈ keywords := by
  rw [isKeyword, List.contains_iff_mem]

theorem isKeyword_of_isQuestion {name : String} (question : isQuestion name) :
    isKeyword name = false := by
  have none : ∀ word ∈ keywords, isQuestion word = false := by decide +kernel
  refine Bool.eq_false_iff.mpr fun keyword => ?_
  exact Bool.false_ne_true ((none name (isKeyword_iff.mp keyword)).symm.trans question)

theorem escapeKeyword_of_not {ident : String} (free : isKeyword ident = false) (escape : String) :
    escapeKeyword ident escape = ident := by
  rw [escapeKeyword, free]
  rfl

theorem escapeKeyword_of_ne {ident escape : String} (keyword : isKeyword ident)
    (other : escape ≠ rawMark) : escapeKeyword ident escape = escape ++ ident := by
  simp [escapeKeyword, keyword, other]

theorem eq_of_escapeKeyword_eq {a b escape : String} (keywordA : isKeyword a)
    (keywordB : isKeyword b) (same : escapeKeyword a escape = escapeKeyword b escape) : a = b := by
  by_cases raw : escape = rawMark
  · subst raw
    have distinct : (keywords.map fun word => escapeKeyword word rawMark).Nodup := by
      decide +kernel
    exact List.inj_on_of_nodup_map distinct (isKeyword_iff.mp keywordA) (isKeyword_iff.mp keywordB)
      same
  · rw [escapeKeyword_of_ne keywordA raw, escapeKeyword_of_ne keywordB raw] at same
    exact String.append_right_inj _ |>.mp same


/-- An identifier becomes a name that another identifier is: it is a keyword and escaped to it. -/
def EscapesTo (escape ident other : String) : Prop :=
  isKeyword ident ∧ isKeyword other = false ∧ other = escapeKeyword ident escape

/-- Two identifiers are written alike if they are equal, or if one of them is escaped to the other. -/
theorem escapeKeyword_eq_iff {a b escape : String} :
    escapeKeyword a escape = escapeKeyword b escape ↔
      a = b ∨ EscapesTo escape a b ∨ EscapesTo escape b a := by
  constructor
  · intro same
    cases keywordA : isKeyword a <;> cases keywordB : isKeyword b
    · rw [escapeKeyword_of_not keywordA, escapeKeyword_of_not keywordB] at same
      exact .inl same
    · rw [escapeKeyword_of_not keywordA] at same
      exact .inr (.inr ⟨keywordB, keywordA, same⟩)
    · rw [escapeKeyword_of_not keywordB] at same
      exact .inr (.inl ⟨keywordA, keywordB, same.symm⟩)
    · exact .inl (eq_of_escapeKeyword_eq keywordA keywordB same)
  · rintro (rfl | ⟨-, free, same⟩ | ⟨-, free, same⟩)
    · rfl
    · rw [escapeKeyword_of_not free, same]
    · rw [escapeKeyword_of_not free, same]

/-- The name that a feature is read by, before keywords are escaped: a boolean asks a question. -/
def reading (name : String) (boolean : Bool) : String :=
  if boolean && !isQuestion (snakeCase name) then "is_" ++ snakeCase name else snakeCase name

/-- The first name is that of a boolean, and the second one is the question that it asks. -/
def AsksFor (name : String) (boolean : Bool) (other : String) : Prop :=
  boolean ∧ isQuestion (snakeCase name) = false ∧ snakeCase other = "is_" ++ snakeCase name

/-- A feature is read by a question that its name is turned into, or by its name as it is. -/
theorem reading_cases (name : String) (boolean : Bool) :
    (boolean = true ∧ isQuestion (snakeCase name) = false ∧
      reading name boolean = "is_" ++ snakeCase name) ∨
    ((boolean = false ∨ isQuestion (snakeCase name)) ∧ reading name boolean = snakeCase name) := by
  cases boolean <;> cases question : isQuestion (snakeCase name) <;> simp [reading, question]

theorem reading_of_isQuestion {name : String} (question : isQuestion (snakeCase name))
    (boolean : Bool) : reading name boolean = snakeCase name := by
  simp [reading, question]

theorem AsksFor.reading_eq {a b : String} {p : Bool} (asks : AsksFor a p b) (q : Bool) :
    reading a p = reading b q := by
  obtain ⟨rfl, statement, same⟩ := asks
  have question : isQuestion (snakeCase b) := same ▸ isQuestion_asked _
  rw [reading_of_isQuestion question, same]
  simp [reading, statement]

/-- Two features are read by one name if their names are one in snake case and both or none of them
get `is_` in front, or if one of them is the question that the other asks. -/
theorem reading_eq_iff {a b : String} {p q : Bool} :
    reading a p = reading b q ↔
      snakeCase a = snakeCase b ∧ (p = q ∨ isQuestion (snakeCase a)) ∨
        AsksFor a p b ∨ AsksFor b q a := by
  constructor
  · intro same
    rcases reading_cases a p with ⟨rfl, statementA, readA⟩ | ⟨plainA, readA⟩ <;>
      rcases reading_cases b q with ⟨rfl, statementB, readB⟩ | ⟨plainB, readB⟩ <;>
      rw [readA, readB] at same
    · exact .inl ⟨String.append_right_inj _ |>.mp same, .inl rfl⟩
    · exact .inr (.inl ⟨rfl, statementA, same.symm⟩)
    · exact .inr (.inr ⟨rfl, statementB, same⟩)
    · refine .inl ⟨same, ?_⟩
      rcases plainA with rfl | questionA
      · rcases plainB with rfl | questionB
        · exact .inl rfl
        · exact .inr (same ▸ questionB)
      · exact .inr questionA
  · rintro (⟨same, rfl | question⟩ | asks | asks)
    · rw [reading, same, reading]
    · rw [reading_of_isQuestion question, reading_of_isQuestion (same ▸ question), same]
    · exact asks.reading_eq q
    · exact (asks.reading_eq p).symm

end Identifier

namespace NamingSettings

open Identifier

/-- The getter of a feature is the name that it is read by, escaped. -/
theorem getter_eq (n : NamingSettings) (name : String) (boolean : Bool) :
    n.getter name boolean = escapeKeyword (reading name boolean) n.keywordEscape := by
  unfold getter reading
  split
  · exact (escapeKeyword_of_not (isKeyword_of_isQuestion (isQuestion_asked _)) _).symm
  · rfl

/-- Two features, each given by its name and by whether it is a boolean, are read by one name. -/
inductive ReadAlike (n : NamingSettings) (a : String) (p : Bool) (b : String) (q : Bool) : Prop
  | same : snakeCase a = snakeCase b → p = q ∨ isQuestion (snakeCase a) → ReadAlike n a p b q
  | asks : AsksFor a p b → ReadAlike n a p b q
  | asked : AsksFor b q a → ReadAlike n a p b q
  | escapes : EscapesTo n.keywordEscape (reading a p) (reading b q) → ReadAlike n a p b q
  | escaped : EscapesTo n.keywordEscape (reading b q) (reading a p) → ReadAlike n a p b q

theorem getter_eq_iff {n : NamingSettings} {a b : String} {p q : Bool} :
    n.getter a p = n.getter b q ↔ n.ReadAlike a p b q := by
  rw [getter_eq, getter_eq, escapeKeyword_eq_iff, reading_eq_iff]
  constructor
  · rintro ((⟨same, alike⟩ | asks | asked) | escapes | escaped)
    · exact .same same alike
    · exact .asks asks
    · exact .asked asked
    · exact .escapes escapes
    · exact .escaped escaped
  · intro alike
    cases alike with
    | same same alike => exact .inl (.inl ⟨same, alike⟩)
    | asks asks => exact .inl (.inr (.inl asks))
    | asked asked => exact .inl (.inr (.inr asked))
    | escapes escapes => exact .inr (.inl escapes)
    | escaped escaped => exact .inr (.inr escaped)

end NamingSettings

end Metamodel
