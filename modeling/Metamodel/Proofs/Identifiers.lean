import Metamodel.Proofs.GetterNames
import Metamodel.Proofs.SnakeCase

/-!
Which generated names are identifiers.

Names in snake case are identifiers once keywords are escaped, with or without a question in front.
Two forms of names are not always: an operation loses the accessor word at its front, and what is
left may begin with a digit; and a variant is not escaped, although its name may be the one keyword
that begins with a capital.

Results:
1. `validIdentifier_escapeKeyword_iff`: what escaping makes identifiers of.
2. `Plain.spelled_snakeCase`, `Plain.spelled_pascalCase`: names in snake case and of variants.
3. `Plain.spelled_methodName_iff`: names of operations.
4. `Plain.isKeyword_pascalCase_iff`: which variants are keywords.
5. `names_valid`: all names that are generated for a plain name.
6. `names_invalid`: an operation and a variant whose names are no identifiers.
-/

namespace Metamodel

namespace Identifier

open Text

/-! ## Identifiers -/

/-- The keywords of the generated language: those of its first edition, those of later ones, and
the words that are reserved. -/
def reservedWords : List String :=
  ["as", "break", "const", "continue", "crate", "else", "enum", "extern", "false", "fn", "for",
    "if", "impl", "in", "let", "loop", "match", "mod", "move", "mut", "pub", "ref", "return",
    "self", "Self", "static", "struct", "super", "trait", "true", "type", "unsafe", "use", "where",
    "while"] ++
  ["async", "await", "dyn"] ++
  ["abstract", "become", "box", "do", "final", "gen", "macro", "override", "priv", "try", "typeof",
    "unsized", "virtual", "yield"]

/-- A letter or a low line, and then letters, digits and low lines. -/
structure Spelled (text : String) : Prop where
  first : ∃ c, text.toList.head? = some c ∧ (c.isAlpha ∨ c = '_')
  all : ∀ c ∈ text.toList, c.isAlphanum ∨ c = '_'

/-- A letter, and then letters, digits and low lines. -/
structure Plain (name : String) : Prop where
  first : ∃ c, name.toList.head? = some c ∧ c.isAlpha
  all : ∀ c ∈ name.toList, c.isAlphanum ∨ c = '_'

/-- The identifiers of the generated language. A keyword is one only in its raw form, and those that
paths are made of have none. -/
inductive ValidIdentifier : String → Prop
  | plain {text : String} : Spelled text → text ∉ reservedWords → ValidIdentifier text
  | raw {word : String} : word ∈ reservedWords → word ∉ ["crate", "self", "Self", "super"] →
      ValidIdentifier ("r#" ++ word)

instance (text : String) : Decidable (Spelled text) :=
  decidable_of_iff
    ((text.toList.head?.any fun c => c.isAlpha || c = '_') ∧
      text.toList.all fun c => c.isAlphanum || c = '_')
    ⟨fun ⟨first, all⟩ => ⟨by simpa [Option.any_eq_true] using first, by simpa using all⟩,
      fun ⟨first, all⟩ => ⟨by simpa [Option.any_eq_true] using first, by simpa using all⟩⟩

instance (name : String) : Decidable (Plain name) :=
  decidable_of_iff
    (name.toList.head?.any Char.isAlpha ∧ name.toList.all fun c => c.isAlphanum || c = '_')
    ⟨fun ⟨first, all⟩ => ⟨by simpa [Option.any_eq_true] using first, by simpa using all⟩,
      fun ⟨first, all⟩ => ⟨by simpa [Option.any_eq_true] using first, by simpa using all⟩⟩

theorem isKeyword_iff_mem_reservedWords {word : String} :
    isKeyword word ↔ word ∈ reservedWords := by
  have same : keywords.Perm reservedWords := by decide +kernel
  rw [isKeyword_iff, same.mem_iff]

theorem spelled_of_isKeyword {word : String} (keyword : isKeyword word) : Spelled word := by
  have all : ∀ word ∈ keywords, Spelled word := by decide +kernel
  exact all word (isKeyword_iff.mp keyword)

/-- What is spelled like an identifier is one unless it is a keyword. -/
theorem validIdentifier_iff {text : String} (all : ∀ c ∈ text.toList, c.isAlphanum ∨ c = '_') :
    ValidIdentifier text ↔ Spelled text ∧ isKeyword text = false := by
  constructor
  · intro valid
    cases valid with
    | plain spelled free =>
      exact ⟨spelled, Bool.eq_false_iff.mpr fun keyword =>
        free (isKeyword_iff_mem_reservedWords.mp keyword)⟩
    | @raw word =>
      have mark : '#' ∈ ("r#" ++ word).toList := by
        rw [String.toList_append]
        exact List.mem_append_left _ (by decide)
      exact absurd (all '#' mark) (by decide)
  · rintro ⟨spelled, free⟩
    refine .plain spelled fun keyword => ?_
    rw [isKeyword_iff_mem_reservedWords.mpr keyword] at free
    cases free

theorem validIdentifier_escapeKeyword {text : String} (spelled : Spelled text) :
    ValidIdentifier (escapeKeyword text rawMark) := by
  cases keyword : isKeyword text with
  | false =>
    rw [escapeKeyword_of_not keyword]
    exact (validIdentifier_iff spelled.all).mpr ⟨spelled, keyword⟩
  | true =>
    rw [escapeKeyword, keyword]
    by_cases never : text ∈ neverRaw
    · have ended : ∀ word ∈ neverRaw, Spelled (word ++ "_") ∧ isKeyword (word ++ "_") = false := by
        decide +kernel
      have known := ended text never
      have marked : neverRaw.contains text = true := by simpa using never
      simp only [Bool.not_true, Bool.false_eq_true, if_false, decide_true, marked, Bool.and_self,
        if_true]
      exact (validIdentifier_iff known.1.all).mpr known
    · have unmarked : neverRaw.contains text = false := by simpa using never
      simp only [Bool.not_true, Bool.false_eq_true, if_false, unmarked, Bool.and_false]
      exact .raw (isKeyword_iff_mem_reservedWords.mp keyword) never

/-- Escaping makes identifiers only of what is spelled like one. -/
theorem validIdentifier_escapeKeyword_iff {text : String}
    (all : ∀ c ∈ text.toList, c.isAlphanum ∨ c = '_') :
    ValidIdentifier (escapeKeyword text rawMark) ↔ Spelled text := by
  refine ⟨fun valid => ?_, validIdentifier_escapeKeyword⟩
  cases keyword : isKeyword text with
  | true => exact spelled_of_isKeyword keyword
  | false =>
    rw [escapeKeyword_of_not keyword] at valid
    exact ((validIdentifier_iff all).mp valid).1

/-! ## Names in snake case -/

theorem lowered_of_isAlphanum {c : Char} (alphanum : c.isAlphanum) :
    lowered c = [c.toLower] ∧ c.toLower.isAlphanum ∧ (c.isAlpha → c.toLower.isAlpha) := by
  have ascii := isAscii_of_isAlphanum alphanum
  refine ⟨lowered_ascii ascii, ?_⟩
  revert alphanum
  refine forall_ascii (P := fun c => c.isAlphanum →
    c.toLower.isAlphanum ∧ (c.isAlpha → c.toLower.isAlpha)) ?_ ascii
  decide +kernel

variable {name : String}

namespace Plain

theorem all_snakeCase (plain : Plain name) :
    ∀ c ∈ (snakeCase name).toList, c.isAlphanum ∨ c = '_' := by
  intro c member
  rcases mem_snakeCase member with line | ⟨d, there, inside, here⟩
  · exact .inr line
  · rcases plain.all d there with alphanum | rfl
    · obtain ⟨lower, alphanum', -⟩ := lowered_of_isAlphanum alphanum
      rw [lower, List.mem_singleton] at here
      exact .inl (here ▸ alphanum')
    · exact absurd inside (by decide)

theorem spelled_snakeCase (plain : Plain name) : Spelled (snakeCase name) := by
  obtain ⟨c, first, alpha⟩ := plain.first
  obtain ⟨cs, letters⟩ := List.head?_eq_some_iff.mp first
  have alphanum := isAlphanum_of_isAlpha alpha
  have inside : isSeparator c = false := by
    have apart : ∀ d, isSeparator d → d.isAlpha = false := by
      intro d separates
      simp only [isSeparator, Bool.or_eq_true, decide_eq_true_eq] at separates
      rcases separates with ((rfl | rfl) | rfl) | rfl <;> decide
    refine Bool.eq_false_iff.mpr fun separates => ?_
    rw [apart c separates] at alpha
    cases alpha
  obtain ⟨lower, -, alpha'⟩ := lowered_of_isAlphanum alphanum
  refine ⟨⟨c.toLower, ?_, .inl (alpha' alpha)⟩, plain.all_snakeCase⟩
  rw [head?_snakeCase, letters, List.filter_cons_of_pos (by simp [inside]), List.flatMap_cons,
    lower]
  rfl

theorem spelled_reading (plain : Plain name) (boolean : Bool) : Spelled (reading name boolean) := by
  rcases reading_cases name boolean with ⟨-, -, asked⟩ | ⟨-, same⟩
  · rw [asked]
    refine ⟨⟨'i', ?_, .inl (by decide)⟩, ?_⟩
    · rw [String.toList_append]
      rfl
    · intro c member
      rw [String.toList_append] at member
      rcases List.mem_append.mp member with front | rest
      · have question : Spelled "is_" := by decide
        exact question.all c front
      · exact plain.all_snakeCase c rest
  · rw [same]
    exact plain.spelled_snakeCase

end Plain

/-! ## Operations -/

/-- The words that an operation loses at its front. -/
def accessorWords : List String := ["get_", "set_", "is_"]

/-- An accessor word of the name is followed by a digit. -/
def AccessesNumber (name : String) : Prop :=
  ∃ word ∈ accessorWords, ∃ rest c,
    snakeCase name = word ++ rest ∧ rest.toList.head? = some c ∧ c.isDigit

/-- A name in snake case loses an accessor word if there is anything behind it. -/
theorem methodName_cases (name : String) :
    (∃ word ∈ accessorWords, snakeCase name = word ++ methodName name ∧ methodName name ≠ "") ∨
      (methodName name = snakeCase name ∧
        ∀ word ∈ accessorWords, ∀ rest, snakeCase name = word ++ rest → rest = "") := by
  have whole : methodName name =
      ((accessorWords.filterMap fun word => after? word (snakeCase name)).find?
        (!·.isEmpty)).getD (snakeCase name) := rfl
  cases found : (accessorWords.filterMap fun word => after? word (snakeCase name)).find?
    (!·.isEmpty) with
  | some rest =>
    rw [found, Option.getD_some] at whole
    obtain ⟨word, member, split⟩ := List.mem_filterMap.mp (List.mem_of_find?_eq_some found)
    rw [whole]
    refine .inl ⟨word, member, after?_eq_some_iff.mp split, ?_⟩
    simpa using List.find?_some found
  | none =>
    rw [found, Option.getD_none] at whole
    have empty := List.find?_eq_none.mp found
    refine .inr ⟨whole, fun word member rest split => ?_⟩
    simpa using empty rest (List.mem_filterMap.mpr ⟨word, member, after?_eq_some_iff.mpr split⟩)

/-- No accessor word is the beginning of a name with another one. -/
theorem accessorWords_unique {word word' rest rest' : String} (member : word ∈ accessorWords)
    (member' : word' ∈ accessorWords) (same : word ++ rest = word' ++ rest') : word = word' := by
  have firsts : ∀ w ∈ accessorWords, ∀ w' ∈ accessorWords,
      w.toList.head? = w'.toList.head? → w = w' := by
    decide +kernel
  have some : ∀ w ∈ accessorWords, ∀ text, (w ++ text).toList.head? = w.toList.head? := by
    intro w there text
    have ne : ∀ w ∈ accessorWords, w.toList ≠ [] := by decide +kernel
    rw [String.toList_append, List.head?_append_of_ne_nil _ (ne w there)]
  refine firsts word member word' member' ?_
  rw [← some word member rest, same, some word' member' rest']

theorem Plain.all_methodName (plain : Plain name) :
    ∀ c ∈ (methodName name).toList, c.isAlphanum ∨ c = '_' := by
  intro c there
  refine plain.all_snakeCase c ?_
  rcases methodName_cases name with ⟨word, -, split, -⟩ | ⟨same, -⟩
  · rw [split, String.toList_append]
    exact List.mem_append_right _ there
  · exact same ▸ there

theorem Plain.spelled_methodName_iff (plain : Plain name) :
    Spelled (methodName name) ↔ ¬ AccessesNumber name := by
  have all := plain.all_methodName
  rcases methodName_cases name with ⟨word, member, split, ne⟩ | ⟨same, empty⟩
  · obtain ⟨c, cs, letters⟩ := List.exists_cons_of_ne_nil (mt String.toList_eq_nil_iff.mp ne)
    have first : (methodName name).toList.head? = some c := by rw [letters]; rfl
    constructor
    · rintro ⟨⟨c', first', start⟩, -⟩ ⟨word', member', rest, d, split', first'', digit⟩
      obtain rfl := accessorWords_unique member member' (split.symm.trans split')
      obtain rfl := (String.append_right_inj _).mp (split.symm.trans split')
      obtain rfl := Option.some.inj (first'.symm.trans first'')
      rcases start with alpha | rfl
      · rw [isDigit_eq_false_of_isAlpha alpha] at digit
        cases digit
      · exact absurd digit (by decide)
    · intro noNumber
      refine ⟨⟨c, first, ?_⟩, all⟩
      refine (all c (letters ▸ List.mem_cons_self)).imp_left fun alphanum => ?_
      rw [Char.isAlphanum, Bool.or_eq_true] at alphanum
      exact alphanum.resolve_right fun digit =>
        noNumber ⟨word, member, _, c, split, first, digit⟩
  · rw [same]
    refine iff_of_true plain.spelled_snakeCase ?_
    rintro ⟨word, member, rest, c, split, first, -⟩
    rw [empty word member rest split] at first
    cases first

/-! ## Variants -/

/-- A run of letters and numbers as it stands in the name of a variant. -/
def capitalized (chunk : List Char) : List Char := capitalize (!chunk.any isLower) chunk

theorem capitalized_cons {c : Char} {cs : List Char} (all : ∀ d ∈ c :: cs, d.isAlphanum) :
    capitalized (c :: cs) =
      c.toUpper :: if (c :: cs).any isLower then cs else cs.map Char.toLower := by
  have ascii : ∀ d ∈ c :: cs, isAscii d := fun d member => isAscii_of_isAlphanum (all d member)
  have lower : cs.flatMap toLower = cs.map Char.toLower := by
    rw [List.map_eq_flatMap]
    exact List.flatMap_congr fun d member => toLower_ascii (ascii d (List.mem_cons_of_mem c member))
  show (toUpper c ++ if !(c :: cs).any isLower then cs.flatMap toLower else cs) = _
  rw [toUpper_ascii (ascii c List.mem_cons_self), lower]
  cases (c :: cs).any isLower <;> rfl

/-- The capital of a letter or digit. -/
theorem toUpper_of_isAlphanum {c : Char} (alphanum : c.isAlphanum) :
    c.toUpper.isAlphanum ∧ c.toUpper.isLower = false ∧ (c.isAlpha → c.toUpper.isUpper) := by
  have ascii := isAscii_of_isAlphanum alphanum
  revert alphanum
  refine forall_ascii (P := fun c => c.isAlphanum →
    c.toUpper.isAlphanum ∧ c.toUpper.isLower = false ∧ (c.isAlpha → c.toUpper.isUpper)) ?_ ascii
  decide +kernel

theorem isAlphanum_of_mem_capitalized {chunk : List Char} (all : ∀ c ∈ chunk, c.isAlphanum) :
    ∀ c ∈ capitalized chunk, c.isAlphanum := by
  cases chunk with
  | nil => exact fun c member => nomatch member
  | cons c cs =>
    intro d member
    rw [capitalized_cons all] at member
    rcases List.mem_cons.mp member with rfl | later
    · exact (toUpper_of_isAlphanum (all c List.mem_cons_self)).1
    · split at later
      · exact all d (List.mem_cons_of_mem c later)
      · obtain ⟨e, there, rfl⟩ := List.mem_map.mp later
        exact (lowered_of_isAlphanum (all e (List.mem_cons_of_mem c there))).2.1

/-- The runs of letters and numbers of a name. -/
def chunks (name : String) : List (List Char) := pieces (!isAlphanumeric ·) name.toList

/-- Nothing is put in front of what the runs are capitalized to, unless it begins with a digit. -/
theorem toList_pascalCase_of_cons {c : Char} {more : List Char}
    (joined : (chunks name).flatMap capitalized = c :: more) (noDigit : c.isDigit = false) :
    (pascalCase name).toList = c :: more := by
  have whole : ((pieces (!isAlphanumeric ·) name.toList).flatMap fun chunk =>
      capitalize (!chunk.any isLower) chunk) = c :: more := joined
  simp only [pascalCase, whole, noDigit, Bool.false_eq_true, if_false, String.toList_ofList]

namespace Plain

theorem isAlphanum_of_isAlphanumeric (plain : Plain name) {c : Char} (member : c ∈ name.toList)
    (alphanumeric : isAlphanumeric c) : c.isAlphanum := by
  rcases plain.all c member with alphanum | rfl
  · exact alphanum
  · exact absurd alphanumeric (by decide)

theorem isAlphanum_of_mem_pieces (plain : Plain name) {part chunk : List Char}
    (inName : ∀ c ∈ part, c ∈ name.toList) (member : chunk ∈ pieces (!isAlphanumeric ·) part) :
    ∀ c ∈ chunk, c.isAlphanum := by
  intro c here
  obtain ⟨inside, kept⟩ := mem_of_mem_pieces member c here
  exact plain.isAlphanum_of_isAlphanumeric (inName c inside) (by simpa using kept)

/-- A plain name begins with a run of letters and digits. -/
theorem exists_chunks (plain : Plain name) :
    ∃ c word rest, name.toList = c :: word ++ rest ∧ c.isAlpha ∧ (∀ d ∈ c :: word, d.isAlphanum) ∧
      chunks name = (c :: word) :: pieces (!isAlphanumeric ·) rest := by
  obtain ⟨c, first, alpha⟩ := plain.first
  obtain ⟨cs, letters⟩ := List.head?_eq_some_iff.mp first
  have alphanum := isAlphanum_of_isAlpha alpha
  have whole : name.toList = c :: cs.takeWhile isAlphanumeric ++ cs.dropWhile isAlphanumeric := by
    rw [letters, List.cons_append, List.takeWhile_append_dropWhile]
  have numeric : ∀ d ∈ c :: cs.takeWhile isAlphanumeric, isAlphanumeric d := by
    rintro d (_ | ⟨_, later⟩)
    · rw [isAlphanumeric_ascii (isAscii_of_isAlphanum alphanum), alphanum]
    · exact List.all_eq_true.mp (List.all_takeWhile ..) d later
  refine ⟨c, _, _, whole, alpha, fun d member => ?_, ?_⟩
  · refine plain.isAlphanum_of_isAlphanumeric ?_ (numeric d member)
    rw [whole]
    exact List.mem_append_left _ member
  · rw [chunks, whole]
    refine pieces_append (List.cons_ne_nil _ _) (fun d member => ?_) fun d stops => ?_
    · rw [numeric d member]
      rfl
    · have stop := List.head?_dropWhile_not isAlphanumeric cs
      rw [Option.mem_def.mp stops] at stop
      simpa using stop

/-- What the runs of a plain name are capitalized to begins with a capital. -/
theorem exists_joined (plain : Plain name) :
    ∃ c more, (chunks name).flatMap capitalized = c :: more ∧ c.isUpper := by
  obtain ⟨c, word, rest, -, alpha, alphanum, split⟩ := plain.exists_chunks
  have capital := (toUpper_of_isAlphanum (alphanum c List.mem_cons_self)).2.2 alpha
  rw [split, List.flatMap_cons, capitalized_cons alphanum]
  exact ⟨c.toUpper, _, rfl, capital⟩

theorem toList_pascalCase (plain : Plain name) :
    (pascalCase name).toList = (chunks name).flatMap capitalized := by
  obtain ⟨c, more, joined, capital⟩ := plain.exists_joined
  rw [joined]
  exact toList_pascalCase_of_cons joined (isDigit_eq_false_of_isAlpha (isAlpha_of_isUpper capital))

theorem exists_first_pascalCase (plain : Plain name) :
    ∃ c, (pascalCase name).toList.head? = some c ∧ c.isUpper := by
  obtain ⟨c, more, joined, capital⟩ := plain.exists_joined
  refine ⟨c, ?_, capital⟩
  rw [plain.toList_pascalCase, joined]
  rfl

theorem spelled_pascalCase (plain : Plain name) : Spelled (pascalCase name) := by
  have all : ∀ c ∈ (chunks name).flatMap capitalized, c.isAlphanum := by
    intro c member
    obtain ⟨chunk, there, here⟩ := List.mem_flatMap.mp member
    exact isAlphanum_of_mem_capitalized (plain.isAlphanum_of_mem_pieces (fun _ => id) there) c here
  obtain ⟨c, first, capital⟩ := plain.exists_first_pascalCase
  exact ⟨⟨c, first, .inl (isAlpha_of_isUpper capital)⟩,
    fun c member => .inl (all c (plain.toList_pascalCase ▸ member))⟩

end Plain

/-- A name is the keyword `Self` but for the case of its letters and low lines behind it. -/
def NamesSelf (name : String) : Prop :=
  ∃ word ∈ ["self", "Self", "SELF"], ∃ lines,
    name = word ++ String.ofList lines ∧ ∀ c ∈ lines, c = '_'

theorem NamesSelf.pascalCase_eq (names : NamesSelf name) : pascalCase name = "Self" := by
  obtain ⟨word, member, lines, rfl, all⟩ := names
  have none : pieces (!isAlphanumeric ·) lines = [] :=
    pieces_eq_nil fun c there => all c there ▸ (by decide)
  have stop : ∀ c ∈ lines.head?, !isAlphanumeric c :=
    fun c first => all c (List.mem_of_mem_head? first) ▸ (by decide)
  have known : ∀ word ∈ ["self", "Self", "SELF"], word.toList ≠ [] ∧
      word.toList.all isAlphanumeric ∧ capitalized word.toList = "Self".toList := by
    decide +kernel
  obtain ⟨some, alphanumeric, capital⟩ := known word member
  have inside : ∀ c ∈ word.toList, (!isAlphanumeric c) = false := by
    simpa using List.all_eq_true.mp alphanumeric
  have joined : (chunks (word ++ String.ofList lines)).flatMap capitalized = "Self".toList := by
    rw [chunks, String.toList_append, String.toList_ofList, pieces_append some inside stop, none,
      List.flatMap_singleton, capital]
  exact String.toList_injective (toList_pascalCase_of_cons joined (by decide))

/-- The words that are capitalized to `Self`. -/
theorem mem_of_capitalized_eq {word : List Char} (all : ∀ c ∈ word, c.isAlphanum)
    (capital : capitalized word = "Self".toList) :
    String.ofList word ∈ ["self", "Self", "SELF"] := by
  cases word with
  | nil => cases capital
  | cons c cs =>
    have ascii : ∀ d ∈ c :: cs, isAscii d := fun d member => isAscii_of_isAlphanum (all d member)
    have letters : "Self".toList = ['S', 'e', 'l', 'f'] := rfl
    rw [capitalized_cons all, letters] at capital
    obtain ⟨begins, rest⟩ := List.cons.inj capital
    have cases : c = 's' ∨ c = 'S' := by
      revert begins
      refine forall_ascii (P := fun c => c.toUpper = 'S' → c = 's' ∨ c = 'S') ?_
        (ascii c List.mem_cons_self)
      decide +kernel
    cases lower : (c :: cs).any isLower with
    | true =>
      -- A word with a small letter keeps what follows the first letter.
      rw [if_pos lower] at rest
      rcases cases with rfl | rfl <;> rw [rest] <;> decide
    | false =>
      -- The others are made small, so they were the capitals of these letters.
      rw [List.any_eq_false] at lower
      have capitals : (cs.map Char.toLower).map Char.toUpper = cs := by
        rw [List.map_map]
        refine (List.map_congr_left fun d member => ?_).trans (List.map_id cs)
        have there := List.mem_cons_of_mem c member
        have small : isLower d = false := by simpa using lower d there
        revert small
        refine forall_ascii (P := fun d => isLower d = false → d.toLower.toUpper = d) ?_
          (ascii d there)
        decide +kernel
      rw [if_neg (by simpa using lower)] at rest
      rw [rest] at capitals
      rcases cases with rfl | rfl
      · exact absurd (by decide) (lower 's' List.mem_cons_self)
      · rw [← capitals]
        decide

/-- A run has a capital or a digit at its front. -/
theorem exists_capitalized {chunk : List Char} (some : chunk ≠ [])
    (all : ∀ c ∈ chunk, c.isAlphanum) :
    ∃ c more, capitalized chunk = c :: more ∧ c.isLower = false := by
  obtain ⟨c, cs, rfl⟩ := List.exists_cons_of_ne_nil some
  rw [capitalized_cons all]
  exact ⟨_, _, rfl, (toUpper_of_isAlphanum (all c List.mem_cons_self)).2.1⟩

/-- A second run would bring a second capital, or a digit. -/
theorem capitalized_append_ne {chunk chunk' more : List Char} (some : chunk ≠ [])
    (all : ∀ c ∈ chunk, c.isAlphanum) (some' : chunk' ≠ []) (all' : ∀ c ∈ chunk', c.isAlphanum) :
    capitalized chunk ++ (capitalized chunk' ++ more) ≠ "Self".toList := by
  intro same
  obtain ⟨first, begun, front, -⟩ := exists_capitalized some all
  obtain ⟨second, begun', front', capital⟩ := exists_capitalized some' all'
  have letters : "Self".toList = ['S', 'e', 'l', 'f'] := rfl
  rw [front, front', List.cons_append, letters] at same
  obtain ⟨-, tail⟩ := List.cons.inj same
  have there : second ∈ ['e', 'l', 'f'] := by
    rw [← tail]
    exact List.mem_append_right _ List.mem_cons_self
  have small : ['e', 'l', 'f'].all Char.isLower := by decide
  rw [List.all_eq_true.mp small second there] at capital
  cases capital

theorem Plain.pascalCase_eq_self_iff (plain : Plain name) :
    pascalCase name = "Self" ↔ NamesSelf name := by
  refine ⟨fun same => ?_, NamesSelf.pascalCase_eq⟩
  obtain ⟨c, word, rest, whole, -, alphanum, split⟩ := plain.exists_chunks
  have inName : ∀ d ∈ rest, d ∈ name.toList := fun d member =>
    whole ▸ List.mem_append_right _ member
  have joined := plain.toList_pascalCase
  rw [same, split, List.flatMap_cons] at joined
  have single : pieces (!isAlphanumeric ·) rest = [] := by
    cases others : pieces (!isAlphanumeric ·) rest with
    | nil => rfl
    | cons chunk more =>
      have member : chunk ∈ pieces (!isAlphanumeric ·) rest := others ▸ List.mem_cons_self
      rw [others, List.flatMap_cons] at joined
      exact absurd joined.symm (capitalized_append_ne (List.cons_ne_nil c word) alphanum
        (ne_nil_of_mem_pieces member) (plain.isAlphanum_of_mem_pieces inName member))
  rw [single, List.flatMap_nil, List.append_nil] at joined
  refine ⟨_, mem_of_capitalized_eq alphanum joined.symm, rest, ?_, fun d member => ?_⟩
  · refine String.toList_injective ?_
    rw [whole, String.toList_append, String.toList_ofList, String.toList_ofList]
  · have none := flatten_pieces (!isAlphanumeric ·) rest
    rw [single, List.flatten_nil, eq_comm, List.filter_eq_nil_iff] at none
    rcases plain.all d (inName d member) with alphanum' | line
    · refine absurd ?_ (none d member)
      rw [isAlphanumeric_ascii (isAscii_of_isAlphanum alphanum'), alphanum']
      rfl
    · exact line

theorem Plain.isKeyword_pascalCase_iff (plain : Plain name) :
    isKeyword (pascalCase name) ↔ NamesSelf name := by
  rw [← plain.pascalCase_eq_self_iff]
  constructor
  · intro keyword
    have only : ∀ word ∈ keywords, word.toList.head?.any Char.isUpper → word = "Self" := by
      decide +kernel
    obtain ⟨c, first, capital⟩ := plain.exists_first_pascalCase
    refine only _ (isKeyword_iff.mp keyword) ?_
    rw [first]
    exact capital
  · intro same
    rw [same]
    decide

end Identifier

namespace NamingSettings

open Identifier

variable {name : String}

/-- The names of fields, getters and modules that are generated for a plain name are identifiers. An
operation has one exactly if no accessor word of its name is followed by a digit, and a variant
exactly if its name is not the keyword that begins with a capital. -/
theorem names_valid (plain : Plain name) :
    ValidIdentifier (({} : NamingSettings).identifier name) ∧
      (∀ boolean, ValidIdentifier (({} : NamingSettings).getter name boolean)) ∧
      (ValidIdentifier (({} : NamingSettings).method name) ↔ ¬ AccessesNumber name) ∧
      (ValidIdentifier (pascalCase name) ↔ ¬ NamesSelf name) := by
  refine ⟨validIdentifier_escapeKeyword plain.spelled_snakeCase, fun boolean => ?getter, ?method,
    ?variant⟩
  case getter =>
    rw [getter_eq]
    exact validIdentifier_escapeKeyword (plain.spelled_reading boolean)
  case method =>
    rw [← plain.spelled_methodName_iff]
    exact validIdentifier_escapeKeyword_iff plain.all_methodName
  case variant =>
    have spelled := plain.spelled_pascalCase
    rw [validIdentifier_iff spelled.all, and_iff_right spelled, ← Bool.not_eq_true,
      plain.isKeyword_pascalCase_iff]

/-- An operation keeps its name where a letter is behind the accessor word, and a keyword is put
into its raw form. -/
theorem names_valid_getType :
    Plain "getType" ∧ ValidIdentifier (({} : NamingSettings).method "getType") ∧
      ({} : NamingSettings).method "getType" = "r#type" := by
  have plain : Plain "getType" := by decide
  refine ⟨plain, (names_valid plain).2.2.1.mpr ?_, by decide⟩
  rintro ⟨word, member, rest, c, split, first, digit⟩
  have snake : snakeCase "getType" = "get_" ++ "type" := by decide
  rw [snake] at split
  obtain rfl := accessorWords_unique List.mem_cons_self member split
  obtain rfl := (String.append_right_inj _).mp split
  cases first
  exact absurd digit (by decide)

/-- The rest of `get_2x` begins with a digit, and the variant for `self` is a keyword. -/
theorem names_invalid :
    Plain "get_2x" ∧ ({} : NamingSettings).method "get_2x" = "2x" ∧ ¬ ValidIdentifier "2x" ∧
      Plain "self" ∧ pascalCase "self" = "Self" ∧ ¬ ValidIdentifier "Self" := by
  have operation : Plain "get_2x" := by decide
  have variant : Plain "self" := by decide
  have rest : methodName "get_2x" = "2x" := by decide
  have capital : pascalCase "self" = "Self" := by decide
  refine ⟨operation, by decide, fun valid => ?_, variant, capital, fun valid => ?_⟩
  · have digit : ¬ Spelled "2x" := by decide
    exact digit ((validIdentifier_iff (rest ▸ operation.all_methodName)).mp valid).1
  · have keyword : isKeyword "Self" := by decide
    rw [((validIdentifier_iff (capital ▸ variant.spelled_pascalCase.all)).mp valid).2] at keyword
    cases keyword

end NamingSettings

end Metamodel
