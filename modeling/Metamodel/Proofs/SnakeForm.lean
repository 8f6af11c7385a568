import Mathlib.Data.List.Chain
import Metamodel.Proofs.SnakeCase

/-!
Which texts are in snake case.

A text in snake case has no capitals, no separators but single low lines between words, and no two
neighbouring words of one letter. Such texts are the words of a name joined by low lines: a join is
cut again where it was joined, and one-letter words that are joined already stay as they are. So the
form is a normal form: the texts that have it are those that the conversion leaves as they are.

Results:
1. `lowerWords_intercalate`: words are found again where they were joined.
2. `isChain_mergeSingles`, `mergeSingles_eq_self`: what joining one-letter words leaves, and that
   another time changes nothing.
3. `SnakeWords.snakeForm`, `SnakeForm.exists_words`: the texts of the form are joined words.
4. `SnakeForm.snakeCase_eq_self`: the conversion leaves them as they are.
5. `snakeCase_normal`: what the conversion makes of an ASCII name.
-/

namespace Metamodel

namespace Identifier

open Text

/-! ## The form -/

/-- What separates the words of a name: low lines, hyphens, spaces and full stops. -/
def separators : List Char := ['_', '-', ' ', '.']

/-- At most one of two words has a single letter. -/
def Apart (word next : List Char) : Prop := ¬(word.length = 1 ∧ next.length = 1)

instance (word next : List Char) : Decidable (Apart word next) :=
  inferInstanceAs (Decidable ¬(word.length = 1 ∧ next.length = 1))

/-- A text in snake case. -/
structure SnakeForm (text : String) : Prop where
  small : ∀ c ∈ text.toList, isUpper c = false
  lines : ∀ c ∈ text.toList, c ∈ separators → c = '_'
  first : text.toList.head? ≠ some '_'
  last : text.toList.getLast? ≠ some '_'
  single : ¬['_', '_'] <:+: text.toList
  apart : (splitWhere (· = '_') text.toList).IsChain Apart

/-- A character of a word in lower case. -/
structure WordChar (c : Char) : Prop where
  inside : isSeparator c = false
  small : isUpper c = false

/-- The words of a text in snake case. -/
structure SnakeWords (words : List (List Char)) : Prop where
  some : [] ∉ words
  letters : ∀ word ∈ words, ∀ c ∈ word, WordChar c
  apart : words.IsChain Apart

theorem isSeparator_eq_false_iff {c : Char} : isSeparator c = false ↔ c ∉ separators := by
  simp [isSeparator, separators, and_assoc]

theorem WordChar.ne_line {c : Char} (letter : WordChar c) : c ≠ '_' := by
  rintro rfl
  exact absurd letter.inside (by decide)

/-! ## Words of joined words -/

theorem consWord_of_ne_nil {word : List Char} (some : word ≠ []) (words : List (List Char)) :
    consWord word words = word :: words :=
  if_neg (by simpa using some)

theorem lowerWordsFrom_append {word : List Char} (letters : ∀ c ∈ word, WordChar c)
    (current rest : List Char) :
    lowerWordsFrom current (word ++ rest) = lowerWordsFrom (current ++ word) rest := by
  induction word generalizing current with
  | nil => rw [List.nil_append, List.append_nil]
  | cons c cs ih =>
    have letter := letters c List.mem_cons_self
    rw [List.cons_append, lowerWordsFrom, letter.inside, letter.small]
    simp only [Bool.false_eq_true, if_false]
    rw [ih fun d member => letters d (List.mem_cons_of_mem c member), List.append_assoc,
      List.singleton_append]

/-- Words that have been joined are found again. -/
theorem lowerWords_intercalate {words : List (List Char)} (some : [] ∉ words)
    (letters : ∀ word ∈ words, ∀ c ∈ word, WordChar c) :
    lowerWords (['_'].intercalate words) = words := by
  induction words with
  | nil => rfl
  | cons word rest ih =>
    rw [List.mem_cons, not_or] at some
    have notNil : word ≠ [] := Ne.symm some.1
    have read (behind : List Char) :
        lowerWords (word ++ behind) = lowerWordsFrom word behind :=
      lowerWordsFrom_append (letters word List.mem_cons_self) [] behind
    cases rest with
    | nil =>
      rw [List.intercalate_singleton, ← List.append_nil word, read, List.append_nil,
        lowerWordsFrom, consWord_of_ne_nil notNil]
    | cons next rest =>
      have later : lowerWords (['_'].intercalate (next :: rest)) = next :: rest :=
        ih some.2 fun other member => letters other (List.mem_cons_of_mem word member)
      -- The low line ends the word, and reading begins anew behind it.
      rw [List.intercalate_cons_cons, List.append_assoc, read, List.singleton_append,
        lowerWordsFrom, if_pos (by decide), consWord_of_ne_nil notNil, ← lowerWords, later]

/-! ## One-letter words -/

theorem isChain_consWord {R : List Char → List Char → Prop} {word : List Char}
    {words : List (List Char)} (chain : words.IsChain R)
    (next : ∀ other ∈ words.head?, R word other) : (consWord word words).IsChain R := by
  unfold consWord
  split
  · exact chain
  · exact chain.cons next

/-- After joining, no two neighbours have one letter each. -/
theorem isChain_mergeSingles (run : List Char) (words : List (List Char)) :
    (mergeSingles run words).IsChain Apart := by
  induction words generalizing run with
  | nil => exact isChain_consWord .nil fun other none => by cases none
  | cons word words ih =>
    rw [mergeSingles]
    split
    · exact ih (run ++ word)
    · next long =>
      -- A longer word is apart from the run in front of it and from whatever follows.
      refine isChain_consWord ((ih []).cons fun _ _ both => long both.1) fun other first both => ?_
      cases first
      exact long both.2

/-- A run ends where a longer word begins. -/
theorem mergeSingles_of_head (run : List Char) {words : List (List Char)}
    (long : ∀ word ∈ words.head?, word.length ≠ 1) :
    mergeSingles run words = consWord run (mergeSingles [] words) := by
  cases words with
  | nil => rfl
  | cons word words =>
    have notOne : word.length ≠ 1 := long word rfl
    rw [mergeSingles, mergeSingles, if_neg notOne, if_neg notOne]
    rfl

theorem mergeSingles_eq_self {words : List (List Char)} (some : [] ∉ words)
    (apart : words.IsChain Apart) : mergeSingles [] words = words := by
  induction words with
  | nil => rfl
  | cons word rest ih =>
    rw [List.mem_cons, not_or] at some
    obtain ⟨next, apart⟩ := List.isChain_cons.mp apart
    have later : mergeSingles [] rest = rest := ih some.2 apart
    rw [mergeSingles]
    split
    · next one =>
      have long : ∀ other ∈ rest.head?, other.length ≠ 1 :=
        fun other first same => next other first ⟨one, same⟩
      rw [List.nil_append, mergeSingles_of_head word long, later,
        consWord_of_ne_nil (Ne.symm some.1)]
    · rw [later]
      rfl

/-! ## Texts of the form -/

namespace SnakeWords

variable {words : List (List Char)}

theorem line_notMem (snake : SnakeWords words) : ∀ word ∈ words, '_' ∉ word :=
  fun word member line => (snake.letters word member '_' line).ne_line rfl

/-- Joined words are a text in snake case. -/
theorem snakeForm (snake : SnakeWords words) :
    SnakeForm (String.ofList (['_'].intercalate words)) := by
  by_cases none : words = []
  · subst none
    exact ⟨by simp, by simp, by simp, by simp, by simp, .singleton []⟩
  · have cut := splitWhere_intercalate none snake.line_notMem
    have chars : ∀ c ∈ ['_'].intercalate words, c = '_' ∨ WordChar c := by
      refine fun c member => (mem_intercalate member).imp_right fun inside => ?_
      obtain ⟨word, known, here⟩ := List.mem_flatten.mp inside
      exact snake.letters word known c here
    -- No word is empty, so no low line stands at an end or beside another one.
    have whole := snake.some
    rw [← cut, nil_mem_splitWhere_iff, not_or, not_or, not_or] at whole
    obtain ⟨-, first, last, single⟩ := whole
    constructor <;> rw [String.toList_ofList]
    case small =>
      intro c member
      rcases chars c member with rfl | letter
      · decide
      · exact letter.small
    case lines =>
      intro c member separates
      exact (chars c member).resolve_right fun letter =>
        isSeparator_eq_false_iff.mp letter.inside separates
    case first => exact first
    case last => exact last
    case single => exact single
    case apart =>
      rw [cut]
      exact snake.apart

theorem snakeCase_join (snake : SnakeWords words) :
    snakeCase (String.ofList (['_'].intercalate words)) =
      String.ofList (['_'].intercalate words) := by
  rw [snakeCase_eq, snakeWords, String.toList_ofList,
    lowerWords_intercalate snake.some snake.letters,
    mergeSingles_eq_self snake.some snake.apart]

end SnakeWords

namespace SnakeForm

variable {text : String}

theorem exists_words (form : SnakeForm text) :
    ∃ words, SnakeWords words ∧ text = String.ofList (['_'].intercalate words) := by
  by_cases none : text.toList = []
  · refine ⟨[], ⟨List.not_mem_nil, by simp, .nil⟩, ?_⟩
    rw [← String.ofList_toList (s := text), none]
    rfl
  · have whole : [] ∉ splitWhere (· = '_') text.toList := by
      rw [nil_mem_splitWhere_iff, not_or, not_or, not_or]
      exact ⟨none, form.first, form.last, form.single⟩
    have letters : ∀ word ∈ splitWhere (· = '_') text.toList, ∀ c ∈ word, WordChar c := by
      intro word member c here
      have known := List.mem_flatten_of_mem member here
      rw [flatten_splitWhere, List.mem_filter, Bool.not_eq_true', decide_eq_false_iff_not] at known
      exact ⟨isSeparator_eq_false_iff.mpr fun separates => known.2 (form.lines c known.1 separates),
        form.small c known.1⟩
    refine ⟨splitWhere (· = '_') text.toList, ⟨whole, letters, form.apart⟩, ?_⟩
    rw [intercalate_splitWhere, String.ofList_toList]

/-- A text in snake case is its own name in snake case. -/
theorem snakeCase_eq_self (form : SnakeForm text) : snakeCase text = text := by
  obtain ⟨words, snake, rfl⟩ := form.exists_words
  exact snake.snakeCase_join

end SnakeForm

/-! ## ASCII names -/

variable {name : String}

theorem wordChar_lowered {c d : Char} (ascii : isAscii d) (inside : isSeparator d = false)
    (member : c ∈ lowered d) : WordChar c := by
  rw [lowered_ascii ascii, List.mem_singleton] at member
  subst member
  have both : isSeparator d.toLower = false ∧ isUpper d.toLower = false := by
    revert inside
    refine forall_ascii (P := fun d => isSeparator d = false →
      isSeparator d.toLower = false ∧ isUpper d.toLower = false) ?_ ascii
    decide +kernel
  exact ⟨both.1, both.2⟩

theorem snakeWords_ascii (ascii : ∀ c ∈ name.toList, isAscii c) : SnakeWords (snakeWords name) where
  some := nil_notMem_snakeWords name
  letters := by
    intro word member c here
    obtain ⟨d, known, inside, lower⟩ :=
      exists_of_mem_snakeWords (List.mem_flatten_of_mem member here)
    exact wordChar_lowered (ascii d known) inside lower
  apart := isChain_mergeSingles [] (lowerWords name.toList)

theorem flatten_snakeWords_ascii (ascii : ∀ c ∈ name.toList, isAscii c) :
    (snakeWords name).flatten = (name.toList.filter (· ∉ separators)).map Char.toLower := by
  have outside : (fun c => !isSeparator c) = fun c => decide (c ∉ separators) := by
    funext c
    rw [Bool.eq_iff_iff, Bool.not_eq_true', isSeparator_eq_false_iff, decide_eq_true_eq]
  rw [flatten_snakeWords, outside, List.map_eq_flatMap]
  exact List.flatMap_congr fun c kept => lowered_ascii (ascii c (List.mem_filter.mp kept).1)

/-- An ASCII name in snake case is of the form, has the letters of the name in lower case, and is
its own name in snake case; only names of the form are left as they are. -/
theorem snakeCase_normal (ascii : ∀ c ∈ name.toList, isAscii c) :
    SnakeForm (snakeCase name) ∧
    (snakeCase name).toList.filter (· ≠ '_') =
      (name.toList.filter (· ∉ separators)).map Char.toLower ∧
    snakeCase (snakeCase name) = snakeCase name ∧
    (snakeCase name = name ↔ SnakeForm name) := by
  have snake := snakeWords_ascii ascii
  have form : SnakeForm (snakeCase name) := snake.snakeForm
  refine ⟨form, ?_, form.snakeCase_eq_self, fun same => same ▸ form, SnakeForm.snakeCase_eq_self⟩
  calc (snakeCase name).toList.filter (· ≠ '_')
    _ = (['_'].intercalate (snakeWords name)).filter (· ≠ '_') := by
      rw [snakeCase_eq, String.toList_ofList]
    _ = (snakeWords name).flatten := filter_intercalate snake.line_notMem
    _ = (name.toList.filter (· ∉ separators)).map Char.toLower := flatten_snakeWords_ascii ascii

/-- A name with separators at both ends and doubled ones, and with runs of one-letter words at its
front, in its middle and across a separator. -/
def crowded : String := "--eIDAttribute.x Y__nsURI2-"

theorem snakeCase_normal_crowded :
    (∀ c ∈ crowded.toList, isAscii c) ∧
    snakeCase crowded = "eid_attribute_xy_ns_ur_i2" ∧
    SnakeForm "eid_attribute_xy_ns_ur_i2" ∧
    "eid_attribute_xy_ns_ur_i2".toList.filter (· ≠ '_') = "eidattributexynsuri2".toList ∧
    snakeCase "eid_attribute_xy_ns_ur_i2" = "eid_attribute_xy_ns_ur_i2" ∧
    ¬SnakeForm crowded := by
  have ascii : ∀ c ∈ crowded.toList, isAscii c := List.all_eq_true.mp (by decide)
  have snake : snakeCase crowded = "eid_attribute_xy_ns_ur_i2" := by decide +kernel
  obtain ⟨form, letters, again, fixed⟩ := snakeCase_normal ascii
  rw [snake] at form letters again fixed
  exact ⟨ascii, snake, form, letters.trans (by decide +kernel), again,
    fun crowdedForm => absurd (fixed.mpr crowdedForm) (by decide)⟩

end Identifier

end Metamodel
