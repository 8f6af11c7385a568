import Metamodel.Generation.Summary
import Metamodel.Proofs.JsonText
import Metamodel.Proofs.Supertypes

/-!
What ends a line in a summary.

A summary puts names, the texts of symbolic links, namespace URIs, instance class names, literals
and default values between texts of its own. None of these is altered, so a line feed or a carriage
return in any of them is in the summary as well. What the summary adds, numbers included, is on one
line.

Results:
1. `mem_intercalate`: what is shown of texts with separators between them.
2. `mem_summary`: a summary has what ends a line exactly if one of the texts that it shows has it.
3. `unbroken_iff`: whether all summaries of a model are on one line can be decided.
-/

namespace Metamodel

/-- What ends a line of a text. -/
def lineEnds : List Char := ['\n', '\r']

theorem mem_lineEnds_iff {c : Char} : c ∈ lineEnds ↔ c = '\n' ∨ c = '\r' := by simp [lineEnds]

@[elab_as_elim]
theorem of_mem_lineEnds {motive : Char → Prop} {c : Char} (ends : c ∈ lineEnds)
    (each : motive '\n' ∧ motive '\r') : motive c := by
  rcases mem_lineEnds_iff.mp ends with rfl | rfl
  · exact each.1
  · exact each.2

/-- No character of a text ends a line. -/
def OneLine (text : String) : Prop := ∀ c ∈ lineEnds, c ∉ text.toList

/-- One of the texts has a character. -/
def Shows (c : Char) (texts : List String) : Prop := ∃ text ∈ texts, c ∈ text.toList

namespace Model

variable {m : Model} {c : Char}

/-- The text that is shown for a link: the name of what it points to, or the text of a symbolic
link. -/
def linkText (m : Model) : Link → String
  | .resolved id => m.label id
  | .symbolic uri => uri

/-- The texts that are shown for an opposite: its name and its type. -/
def oppositeTexts (m : Model) : Link → List String
  | .resolved id => m.label id :: ((m.typed? id).bind (·.eType)).toList.map m.linkText
  | .symbolic uri => [uri]

/-- The texts of a model that are shown in the summary of an element. -/
def shownTexts (m : Model) (id : ElementId) : List String :=
  match m.body? id with
  | some (.ePackage p) => m.label id :: p.nsUri.toList ++ p.nsPrefix.toList
  | some (.eClass c) => m.label id :: c.superTypes.map m.linkText
  | some (.eDataType d) => m.label id :: d.instanceClassName.toList
  | some (.eEnum _) => [m.label id]
  | some (.eEnumLiteral l) => m.label id :: l.literal.toList
  | some (.eAttribute a) =>
    m.label id :: a.eType.toList.map m.linkText ++ a.defaultValueLiteral.toList
  | some (.eReference r) =>
    m.label id :: r.eType.toList.map m.linkText ++ r.opposite.toList.flatMap m.oppositeTexts ++
      r.defaultValueLiteral.toList
  | some (.eOperation o) => m.label id :: o.eType.toList.map m.linkText
  | some (.eParameter p) => m.label id :: p.eType.toList.map m.linkText
  | _ => []

end Model

section Shows

variable {c : Char} {text : String} {texts more : List String}

@[simp]
theorem shows_nil : ¬ Shows c [] := by simp [Shows]

@[simp]
theorem shows_cons : Shows c (text :: texts) ↔ c ∈ text.toList ∨ Shows c texts := by simp [Shows]

@[simp]
theorem shows_append : Shows c (texts ++ more) ↔ Shows c texts ∨ Shows c more := by
  simp [Shows, or_and_right, exists_or]

@[simp]
theorem shows_toList {o : Option String} : Shows c o.toList ↔ ∃ text ∈ o, c ∈ text.toList := by
  simp [Shows]

@[simp]
theorem shows_map {α : Type} {f : α → String} {l : List α} :
    Shows c (l.map f) ↔ ∃ a ∈ l, c ∈ (f a).toList := by
  simp [Shows]

@[simp]
theorem shows_flatMap {α : Type} {f : α → List String} {l : List α} :
    Shows c (l.flatMap f) ↔ ∃ a ∈ l, Shows c (f a) := by
  simp only [Shows, List.mem_flatMap]
  grind

theorem shows_shownIf (plain : c ∉ text.toList) {holds : Bool} :
    ¬ Shows c (Model.shownIf holds text) := by
  unfold Model.shownIf
  split <;> simp [plain]

/-- What is put between texts is shown where it is not one of the separators. -/
theorem mem_intercalate {separator : String} (plain : c ∉ separator.toList)
    (texts : List String) :
    c ∈ (separator.intercalate texts).toList ↔ Shows c texts := by
  rw [String.toList_intercalate]
  induction texts with
  | nil => simp
  | cons text rest ih =>
    cases rest with
    | nil => simp
    | cons next rest =>
      rw [List.map_cons, List.map_cons, List.intercalate_cons_cons, ← List.map_cons, shows_cons,
        ← ih]
      simp [plain]

end Shows

namespace Model

variable {m : Model} {c : Char} (ends : c ∈ lineEnds)

@[simp]
theorem toString_string (s : String) : toString s = s := rfl

include ends

theorem not_mem_repr_int (i : Int) : c ∉ i.repr.toList := by
  have digits (n : Nat) : c ∉ Nat.toDigits 10 n := by
    intro member
    have digit := Nat.isDigit_of_mem_toDigits (by decide) (by decide) member
    have noDigit : ¬ c.isDigit := of_mem_lineEnds ends (by decide)
    exact noDigit digit
  have minus : c ≠ '-' := of_mem_lineEnds ends (by decide)
  cases i <;> simp [Int.repr, digits, minus]

theorem mem_withOptions (text : String) (options : List String) :
    c ∈ (withOptions text options).toList ↔ c ∈ text.toList ∨ Shows c options := by
  have plain : ∀ s ∈ [", ", " (", ")"], c ∉ s.toList :=
    of_mem_lineEnds ends (by decide)
  unfold withOptions
  split
  · next none => simp [List.isEmpty_iff.mp none]
  · rw [String.toList_append, String.toList_append, String.toList_append]
    simp only [List.mem_append, mem_intercalate (plain ", " (by simp)), plain " (" (by simp),
      plain ")" (by simp), or_false]

theorem mem_linkLabel (link : Option Link) :
    c ∈ (m.linkLabel link).toList ↔ Shows c (link.toList.map m.linkText) := by
  rcases link with _ | link
  · have plain : c ∉ "?".toList := of_mem_lineEnds ends (by decide)
    simpa [linkLabel] using plain
  · cases link <;> simp [linkLabel, linkText]

theorem not_shows_boundOptions (t : TypedElement) : ¬ Shows c (boundOptions t) := by
  refine shows_shownIf ?_
  have plain := not_mem_repr_int ends
  rcases mem_lineEnds_iff.mp ends with rfl | rfl <;> simp [plain]

theorem shows_featureOptions (f : StructuralFeature) :
    Shows c (featureOptions f) ↔ Shows c f.defaultValueLiteral.toList := by
  unfold featureOptions
  rcases mem_lineEnds_iff.mp ends with rfl | rfl <;> simp [shows_shownIf]

theorem mem_oppositeLabel (link : Link) :
    c ∈ (m.oppositeLabel link).toList ↔ Shows c (m.oppositeTexts link) := by
  cases link with
  | symbolic uri => simp [oppositeLabel, oppositeTexts]
  | resolved id =>
    have label := mem_linkLabel (m := m) ends ((m.typed? id).bind (·.eType))
    have slash : c ≠ '/' := of_mem_lineEnds ends (by decide)
    simp only [oppositeLabel, oppositeTexts, String.toList_append, List.mem_append, label,
      shows_cons]
    simp [slash, or_comm]

theorem shows_referenceOptions (r : EReference) :
    Shows c (m.referenceOptions r) ↔ Shows c (r.opposite.toList.flatMap m.oppositeTexts) := by
  have opposite := mem_oppositeLabel (m := m) ends
  unfold referenceOptions
  rcases mem_lineEnds_iff.mp ends with rfl | rfl <;> simp [shows_shownIf, opposite]

theorem mem_superTypeList (links : List Link) :
    c ∈ (m.superTypeList links).toList ↔ Shows c (links.map m.linkText) := by
  have label (link : Link) := mem_linkLabel (m := m) ends (some link)
  have plain : c ∉ ",".toList := of_mem_lineEnds ends (by decide)
  unfold superTypeList
  split
  · next none => simp [List.isEmpty_iff.mp none]
  · have comma := mem_intercalate plain (links.map fun l => m.linkLabel (some l))
    simp only [String.toList_append, List.mem_append, comma]
    rcases mem_lineEnds_iff.mp ends with rfl | rfl <;> simp [label]

theorem mem_returns (link : Option Link) :
    c ∈ (link.elim "void" fun link => m.linkLabel (some link)).toList ↔
      Shows c (link.toList.map m.linkText) := by
  cases link with
  | none =>
    have plain : c ∉ "void".toList := of_mem_lineEnds ends (by decide)
    simpa using plain
  | some link => exact mem_linkLabel ends (some link)

/-- A summary has a character that ends a line exactly if one of the texts that it shows has it. -/
theorem mem_summary {id : ElementId} :
    c ∈ (m.summary id).toList ↔ Shows c (m.shownTexts id) := by
  have link := mem_linkLabel (m := m) ends
  have returns := mem_returns (m := m) ends
  have supers := mem_superTypeList (m := m) ends
  have noBounds := not_shows_boundOptions ends
  have feature := shows_featureOptions ends
  have reference := shows_referenceOptions (m := m) ends
  have value := not_mem_repr_int ends
  have options := mem_withOptions ends
  unfold summary shownTexts
  cases m.body? id with
  | none => simp
  | some body =>
    -- What each kind adds around its texts is fixed, and none of it ends a line.
    rcases mem_lineEnds_iff.mp ends with rfl | rfl <;> cases body <;>
      simp [options, link, returns, supers, noBounds, feature, reference, value, shows_shownIf,
        or_comm, or_left_comm, or_assoc]

omit ends

/-- No text that is shown in a summary has a character that ends a line. -/
def Unbroken (m : Model) : Prop := ∀ id, ∀ c ∈ lineEnds, ¬ Shows c (m.shownTexts id)

/-- Only the texts of elements of the model matter. -/
theorem unbroken_iff :
    m.Unbroken ↔ ∀ id ∈ m.ids, ∀ text ∈ m.shownTexts id,
      '\n' ∉ text.toList ∧ '\r' ∉ text.toList := by
  constructor
  · intro unbroken id _ text shown
    exact ⟨fun has => unbroken id '\n' (by simp [lineEnds]) ⟨text, shown, has⟩,
      fun has => unbroken id '\r' (by simp [lineEnds]) ⟨text, shown, has⟩⟩
  · rintro each id c ends ⟨text, shown, has⟩
    cases found : m.get? id with
    | none => simp [shownTexts, body?, found] at shown
    | some e =>
      have plain := each id (mem_ids.mpr ⟨e, found⟩) text shown
      exact of_mem_lineEnds ends plain has

instance : Decidable m.Unbroken := decidable_of_iff _ unbroken_iff.symm

theorem Unbroken.oneLine (unbroken : m.Unbroken) (id : ElementId) : OneLine (m.summary id) :=
  fun c ends => (mem_summary ends).not.mpr (unbroken id c ends)

end Model

end Metamodel
