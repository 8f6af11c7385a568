import Metamodel.Identifier

/-!
Names in snake case.

The words of a name are put in lower case, and neighbouring words of one letter are joined. None of
them is empty, and together they have every character of the name but the separators. So a name in
snake case has the letters of the name, and begins with the first of them.

Results:
1. `flatten_snakeWords`: what the words have of a name.
2. `mem_snakeCase`, `head?_snakeCase`: the characters of a name in snake case, and the first one.
-/

namespace Metamodel

namespace Identifier

open Text

/-! ## Words -/

/-- The words of a name in snake case. -/
def snakeWords (name : String) : List (List Char) := mergeSingles [] (lowerWords name.toList)

theorem snakeCase_eq (name : String) :
    snakeCase name = String.ofList (['_'].intercalate (snakeWords name)) := rfl

/-- A character as it stands in a word. -/
def lowered (c : Char) : List Char := if isUpper c then toLower c else [c]

theorem lowered_ascii {c : Char} (ascii : isAscii c) : lowered c = [c.toLower] := by
  refine forall_ascii (P := fun c => lowered c = [c.toLower]) ?_ ascii
  decide +kernel

theorem flatten_consWord (word : List Char) (words : List (List Char)) :
    (consWord word words).flatten = word ++ words.flatten := by
  unfold consWord
  split
  · next empty => rw [List.isEmpty_iff.mp empty, List.nil_append]
  · exact List.flatten_cons

theorem flatten_lowerWordsFrom (current cs : List Char) :
    (lowerWordsFrom current cs).flatten =
      current ++ (cs.filter (!isSeparator ·)).flatMap lowered := by
  induction cs generalizing current with
  | nil => rw [lowerWordsFrom, flatten_consWord]; rfl
  | cons c cs ih =>
    rw [lowerWordsFrom]
    split
    · next separates =>
      rw [flatten_consWord, ih, List.nil_append, List.filter_cons_of_neg (by simp [separates])]
    · next inside =>
      rw [List.filter_cons_of_pos (by simp [inside]), List.flatMap_cons]
      split
      · next upper => rw [flatten_consWord, ih, lowered, if_pos upper]
      · next other => rw [ih, lowered, if_neg other, List.append_assoc]

/-- The words have the characters of the name, in lower case and without separators. -/
theorem flatten_snakeWords (name : String) :
    (snakeWords name).flatten = (name.toList.filter (!isSeparator ·)).flatMap lowered := by
  rw [snakeWords, flatten_mergeSingles, lowerWords, flatten_lowerWordsFrom]
  rfl

/-- A character of a word stands for one of the name. -/
theorem exists_of_mem_snakeWords {name : String} {c : Char}
    (member : c ∈ (snakeWords name).flatten) :
    ∃ d ∈ name.toList, isSeparator d = false ∧ c ∈ lowered d := by
  rw [flatten_snakeWords, List.mem_flatMap] at member
  obtain ⟨d, kept, here⟩ := member
  rw [List.mem_filter, Bool.not_eq_true'] at kept
  exact ⟨d, kept.1, kept.2, here⟩

theorem nil_notMem_consWord {word : List Char} {words : List (List Char)} (rest : [] ∉ words) :
    [] ∉ consWord word words := by
  unfold consWord
  split
  · exact rest
  · next some =>
    rw [List.mem_cons, not_or]
    exact ⟨fun same => some (List.isEmpty_iff.mpr same.symm), rest⟩

theorem nil_notMem_lowerWordsFrom (current cs : List Char) : [] ∉ lowerWordsFrom current cs := by
  induction cs generalizing current with
  | nil => exact nil_notMem_consWord List.not_mem_nil
  | cons c cs ih =>
    rw [lowerWordsFrom]
    split
    · exact nil_notMem_consWord (ih _)
    · split
      · exact nil_notMem_consWord (ih _)
      · exact ih _

theorem nil_notMem_mergeSingles (run : List Char) {words : List (List Char)} (some : [] ∉ words) :
    [] ∉ mergeSingles run words := by
  induction words generalizing run with
  | nil => exact nil_notMem_consWord List.not_mem_nil
  | cons word words ih =>
    rw [List.mem_cons, not_or] at some
    rw [mergeSingles]
    split
    · exact ih _ some.2
    · refine nil_notMem_consWord ?_
      rw [List.mem_cons, not_or]
      exact ⟨some.1, ih _ some.2⟩

theorem nil_notMem_snakeWords (name : String) : [] ∉ snakeWords name :=
  nil_notMem_mergeSingles [] (nil_notMem_lowerWordsFrom [] name.toList)

/-! ## Characters -/

theorem mem_intercalate {sep c : Char} {parts : List (List Char)}
    (member : c ∈ [sep].intercalate parts) : c = sep ∨ c ∈ parts.flatten := by
  induction parts with
  | nil => cases member
  | cons part rest ih =>
    cases rest with
    | nil =>
      rw [List.intercalate_singleton] at member
      exact .inr (by simpa using member)
    | cons next rest =>
      rw [List.intercalate_cons_cons, List.append_assoc] at member
      rcases List.mem_append.mp member with here | later
      · exact .inr (List.mem_flatten_of_mem List.mem_cons_self here)
      · rcases List.mem_cons.mp later with isSep | later
        · exact .inl isSep
        · refine (ih later).imp_right fun inside => ?_
          rw [List.flatten_cons]
          exact List.mem_append_right _ inside

theorem head?_intercalate {sep : Char} {parts : List (List Char)} (some : [] ∉ parts) :
    ([sep].intercalate parts).head? = parts.flatten.head? := by
  cases parts with
  | nil => rfl
  | cons part rest =>
    obtain ⟨c, cs, rfl⟩ := List.exists_cons_of_ne_nil fun empty : part = [] =>
      some (empty ▸ List.mem_cons_self)
    cases rest with
    | nil => rfl
    | cons next rest => rfl

/-- Apart from low lines, a name in snake case has the characters of the name. -/
theorem mem_snakeCase {name : String} {c : Char} (member : c ∈ (snakeCase name).toList) :
    c = '_' ∨ ∃ d ∈ name.toList, isSeparator d = false ∧ c ∈ lowered d := by
  rw [snakeCase_eq, String.toList_ofList] at member
  exact (mem_intercalate member).imp_right exists_of_mem_snakeWords

theorem head?_snakeCase (name : String) :
    (snakeCase name).toList.head? =
      ((name.toList.filter (!isSeparator ·)).flatMap lowered).head? := by
  rw [snakeCase_eq, String.toList_ofList, head?_intercalate (nil_notMem_snakeWords name),
    flatten_snakeWords]

end Identifier

end Metamodel
