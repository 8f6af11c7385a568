import Metamodel.Text.CharClass

/-!
Cutting texts into pieces.

Results:
1. `span_append`: where a scan for the end of a run stops.
2. `intercalate_splitWhere`, `not_mem_splitWhere`: nothing is lost, and no piece holds a separator.
3. `splitWhere_append_cons`, `splitWhere_intercalate`: where texts are cut, and what is joined is
   cut again where it was joined; `nil_mem_splitWhere_iff`: where this leaves empty pieces.
4. `flatten_pieces`, `pieces_append`: what the pieces have of a text, and the first of them.
5. `exists_trim`, `trimChars_append`: trimming takes away the white space at both ends and no more.
6. `lines_append`, `lines_line`: the lines of a text are those up to a line feed and those after it.
-/

namespace Metamodel.Text

/-- The characters without white space at their end. -/
def trimEnd (cs : List Char) : List Char := (cs.reverse.dropWhile isBlank).reverse

/-- The characters without white space at either end. -/
def trimChars (cs : List Char) : List Char := trimEnd (cs.dropWhile isBlank)

/-- The text without white space at either end. -/
def trim (s : String) : String := String.ofList (trimChars s.toList)

/-- The pieces between the characters that satisfy `p`; there is always one more piece than
separators. -/
def splitWhere (p : Char → Bool) (cs : List Char) : List (List Char) :=
  cs.foldr
    (fun c parts => if p c then [] :: parts else (c :: parts.headD []) :: parts.tail) [[]]

/-- The pieces that are not empty. -/
def pieces (p : Char → Bool) (cs : List Char) : List (List Char) :=
  (splitWhere p cs).filter (!·.isEmpty)

/-- The words of a text between white space. -/
def words (s : String) : List String := (pieces isBlank s.toList).map String.ofList

/-- The lines of a text. A line feed ends a line and takes a carriage return before it along; after
the last one there is a further line only if any text is left. -/
def lines (s : String) : List String :=
  let parts := splitWhere (· = '\n') s.toList
  let ended := parts.dropLast.map fun line =>
    if line.getLast? = some '\r' then line.dropLast else line
  let rest := (parts.getLast?).getD []
  (ended ++ (if rest.isEmpty then [] else [rest])).map String.ofList

/-- Splitting a list where a property ends. -/
theorem span_append {α : Type} {p : α → Bool} {l r : List α} (inside : ∀ a ∈ l, p a)
    (stop : ∀ a ∈ r.head?, p a = false) :
    (l ++ r).takeWhile p = l ∧ (l ++ r).dropWhile p = r := by
  have ends : r.takeWhile p = [] ∧ r.dropWhile p = r := by
    cases r with
    | nil => exact ⟨rfl, rfl⟩
    | cons a r => simp [stop a rfl]
  rw [List.takeWhile_append_of_pos inside, List.dropWhile_append_of_pos inside, ends.1, ends.2,
    List.append_nil]
  exact ⟨rfl, rfl⟩

theorem splitWhere_cons (p : Char → Bool) (c : Char) (cs : List Char) :
    splitWhere p (c :: cs) =
      if p c then [] :: splitWhere p cs
      else (c :: (splitWhere p cs).headD []) :: (splitWhere p cs).tail := rfl

theorem splitWhere_ne_nil (p : Char → Bool) (cs : List Char) : splitWhere p cs ≠ [] := by
  cases cs with
  | nil => simp [splitWhere]
  | cons c cs => rw [splitWhere_cons]; split <;> simp

theorem not_mem_splitWhere (p : Char → Bool) (cs : List Char) :
    ∀ piece ∈ splitWhere p cs, ∀ c ∈ piece, p c = false := by
  induction cs with
  | nil => simp [splitWhere]
  | cons c cs ih =>
    rw [splitWhere_cons]
    obtain ⟨first, rest, h⟩ := List.exists_cons_of_ne_nil (splitWhere_ne_nil p cs)
    rw [h] at ih ⊢
    split <;> grind

theorem intercalate_splitWhere (sep : Char) (cs : List Char) :
    [sep].intercalate (splitWhere (· = sep) cs) = cs := by
  induction cs with
  | nil => rfl
  | cons c cs ih =>
    rw [splitWhere_cons]
    obtain ⟨first, rest, h⟩ := List.exists_cons_of_ne_nil (splitWhere_ne_nil (· = sep) cs)
    rw [h] at ih ⊢
    by_cases hc : c = sep
    · simp [hc, ← ih, List.intercalate]
    · cases rest <;> simp_all [List.intercalate]

/-- A text is cut at each separator. -/
theorem splitWhere_append_cons {p : Char → Bool} (cs : List Char) {sep : Char} (isSep : p sep)
    (rest : List Char) :
    splitWhere p (cs ++ sep :: rest) = splitWhere p cs ++ splitWhere p rest := by
  induction cs with
  | nil => simp [isSep, splitWhere]
  | cons c cs ih =>
    obtain ⟨first, more, h⟩ := List.exists_cons_of_ne_nil (splitWhere_ne_nil p cs)
    rw [List.cons_append, splitWhere_cons, splitWhere_cons, ih, h]
    split <;> rfl

theorem splitWhere_eq_singleton {p : Char → Bool} {cs : List Char} (none : ∀ c ∈ cs, p c = false) :
    splitWhere p cs = [cs] := by
  induction cs with
  | nil => rfl
  | cons c cs ih =>
    rw [splitWhere_cons, none c List.mem_cons_self, ih fun d member =>
      none d (List.mem_cons_of_mem c member)]
    rfl

theorem splitWhere_intercalate {sep : Char} {parts : List (List Char)} (some : parts ≠ [])
    (none : ∀ part ∈ parts, sep ∉ part) :
    splitWhere (· = sep) ([sep].intercalate parts) = parts := by
  induction parts with
  | nil => exact absurd rfl some
  | cons part rest ih =>
    have whole : splitWhere (· = sep) part = [part] :=
      splitWhere_eq_singleton fun c member => decide_eq_false fun same =>
        none part List.mem_cons_self (same ▸ member)
    cases rest with
    | nil => rw [List.intercalate_singleton, whole]
    | cons next rest =>
      have later := ih (List.cons_ne_nil next rest) fun other member =>
        none other (List.mem_cons_of_mem part member)
      rw [List.intercalate_cons_cons, List.append_assoc, List.singleton_append,
        splitWhere_append_cons part (decide_eq_true rfl), whole, later, List.singleton_append]

theorem intercalate_append {sep : Char} {before behind : List (List Char)}
    (someBefore : before ≠ []) (someBehind : behind ≠ []) :
    [sep].intercalate (before ++ behind) =
      [sep].intercalate before ++ sep :: [sep].intercalate behind := by
  induction before with
  | nil => exact absurd rfl someBefore
  | cons part before ih =>
    cases before with
    | nil =>
      rw [List.singleton_append, List.intercalate_cons_of_ne_nil someBehind,
        List.intercalate_singleton, List.append_assoc, List.singleton_append]
    | cons next before =>
      rw [List.cons_append, List.cons_append, List.intercalate_cons_cons, ← List.cons_append,
        ih (List.cons_ne_nil next before), List.intercalate_cons_cons]
      simp only [List.append_assoc]

/-- A piece is empty where a separator stands at an end or beside another one. -/
theorem nil_mem_splitWhere_iff {sep : Char} {cs : List Char} :
    [] ∈ splitWhere (· = sep) cs ↔
      cs = [] ∨ cs.head? = some sep ∨ cs.getLast? = some sep ∨ [sep, sep] <:+: cs := by
  have isSep : decide (sep = sep) = true := decide_eq_true rfl
  constructor
  · intro member
    -- The text is joined from its pieces, so the neighbours of the empty piece tell where it is.
    obtain ⟨before, behind, pieces⟩ := List.append_of_mem member
    have whole := intercalate_splitWhere sep cs
    rw [pieces] at whole
    by_cases first : before = []
    · subst first
      cases behind with
      | nil => exact .inl whole.symm
      | cons next behind =>
        refine .inr (.inl ?_)
        rw [← whole, List.nil_append, List.intercalate_cons_cons]
        rfl
    · rw [intercalate_append first (List.cons_ne_nil _ _)] at whole
      cases behind with
      | nil =>
        refine .inr (.inr (.inl ?_))
        rw [← whole, List.intercalate_singleton, List.getLast?_concat]
      | cons next behind =>
        refine .inr (.inr (.inr ⟨[sep].intercalate before, [sep].intercalate (next :: behind), ?_⟩))
        rw [← whole, List.intercalate_cons_cons, List.append_assoc]
        rfl
  · rintro (rfl | first | last | ⟨before, behind, rfl⟩)
    · exact List.mem_singleton_self []
    · obtain ⟨rest, rfl⟩ := List.head?_eq_some_iff.mp first
      rw [splitWhere_cons, if_pos isSep]
      exact List.mem_cons_self
    · obtain ⟨rest, rfl⟩ := List.getLast?_eq_some_iff.mp last
      rw [splitWhere_append_cons rest isSep]
      exact List.mem_append_right _ (List.mem_singleton_self [])
    · rw [List.append_assoc, List.cons_append, splitWhere_append_cons before isSep,
        List.cons_append, splitWhere_cons, if_pos isSep]
      exact List.mem_append_right _ List.mem_cons_self

/-! ## Pieces -/

variable {p : Char → Bool}

/-- Cutting a text into pieces takes the separators out. -/
theorem flatten_splitWhere (p : Char → Bool) (cs : List Char) :
    (splitWhere p cs).flatten = cs.filter (!p ·) := by
  induction cs with
  | nil => rfl
  | cons c cs ih =>
    rw [splitWhere_cons]
    split
    · next isSep =>
      rw [List.flatten_cons, ih, List.nil_append, List.filter_cons_of_neg (by simp [isSep])]
    · next inside =>
      obtain ⟨first, more, h⟩ := List.exists_cons_of_ne_nil (splitWhere_ne_nil p cs)
      rw [h, List.flatten_cons] at ih
      rw [h, List.headD_cons, List.tail_cons, List.flatten_cons, List.cons_append, ih,
        List.filter_cons_of_pos (by simp [inside])]

/-- Removing the separators takes back the joining. -/
theorem filter_intercalate {sep : Char} {parts : List (List Char)}
    (none : ∀ part ∈ parts, sep ∉ part) :
    ([sep].intercalate parts).filter (· ≠ sep) = parts.flatten := by
  by_cases some : parts = []
  · rw [some]
    rfl
  · have cut := flatten_splitWhere (· = sep) ([sep].intercalate parts)
    rw [splitWhere_intercalate some none] at cut
    rw [cut]
    simp

theorem flatten_pieces (p : Char → Bool) (cs : List Char) :
    (pieces p cs).flatten = cs.filter (!p ·) := by
  rw [pieces, List.flatten_filter_not_isEmpty, flatten_splitWhere]

theorem ne_nil_of_mem_pieces {cs piece : List Char} (member : piece ∈ pieces p cs) :
    piece ≠ [] := by
  rw [pieces, List.mem_filter] at member
  rintro rfl
  exact absurd member.2 (by decide)

theorem mem_of_mem_pieces {cs piece : List Char} (member : piece ∈ pieces p cs) :
    ∀ c ∈ piece, c ∈ cs ∧ p c = false := by
  intro c here
  have inside : c ∈ (pieces p cs).flatten := List.mem_flatten_of_mem member here
  rw [flatten_pieces, List.mem_filter, Bool.not_eq_true'] at inside
  exact inside

theorem pieces_eq_nil {cs : List Char} (all : ∀ c ∈ cs, p c) : pieces p cs = [] := by
  have empty : (pieces p cs).flatten = [] := by
    rw [flatten_pieces, List.filter_eq_nil_iff]
    intro c member
    simp [all c member]
  refine List.eq_nil_iff_forall_not_mem.mpr fun piece member => ?_
  exact ne_nil_of_mem_pieces member (List.flatten_eq_nil_iff.mp empty piece member)

theorem pieces_append {word rest : List Char} (some : word ≠ [])
    (inside : ∀ c ∈ word, p c = false) (stop : ∀ c ∈ rest.head?, p c) :
    pieces p (word ++ rest) = word :: pieces p rest := by
  have kept (words : List (List Char)) :
      (word :: words).filter (!·.isEmpty) = word :: words.filter (!·.isEmpty) :=
    List.filter_cons_of_pos (by simp [some])
  cases rest with
  | nil =>
    rw [List.append_nil, pieces, splitWhere_eq_singleton inside, kept]
    rfl
  | cons sep rest =>
    have isSep : p sep := stop sep rfl
    rw [pieces, splitWhere_append_cons word isSep, splitWhere_eq_singleton inside,
      List.singleton_append, kept, pieces, splitWhere_cons, if_pos isSep]
    rfl

/-! ## Trimming -/

/-- No white space at either end. -/
structure Trimmed (cs : List Char) : Prop where
  head : ∀ c ∈ cs.head?, isBlank c = false
  last : ∀ c ∈ cs.getLast?, isBlank c = false

theorem trimEnd_append {cs behind : List Char} (last : ∀ c ∈ cs.getLast?, isBlank c = false)
    (blank : ∀ c ∈ behind, isBlank c) : trimEnd (cs ++ behind) = cs := by
  have span := span_append (l := behind.reverse) (r := cs.reverse)
    (fun c member => blank c (List.mem_reverse.mp member)) (by rwa [List.head?_reverse])
  rw [trimEnd, List.reverse_append, span.2, List.reverse_reverse]

theorem trimChars_append {before cs behind : List Char} (blank : ∀ c ∈ before, isBlank c)
    (trimmed : Trimmed cs) (blank' : ∀ c ∈ behind, isBlank c) :
    trimChars (before ++ (cs ++ behind)) = cs := by
  rw [trimChars, List.dropWhile_append_of_pos blank]
  cases cs with
  | nil =>
    have none : behind.dropWhile isBlank = [] := by
      rw [← List.append_nil behind, List.dropWhile_append_of_pos blank', List.dropWhile_nil]
    rw [List.nil_append, none]
    rfl
  | cons c cs =>
    have visible : isBlank c = false := trimmed.head c rfl
    rw [List.cons_append, List.dropWhile_cons_of_neg (by simp [visible]), ← List.cons_append,
      trimEnd_append trimmed.last blank']

theorem exists_trim (cs : List Char) :
    ∃ before behind : List Char, (∀ c ∈ before, isBlank c) ∧ (∀ c ∈ behind, isBlank c) ∧
      Trimmed (trimChars cs) ∧ cs = before ++ (trimChars cs ++ behind) := by
  have all {l : List Char} : ∀ c ∈ l.takeWhile isBlank, isBlank c :=
    List.all_eq_true.mp (List.all_takeWhile ..)
  have start {l : List Char} : ∀ c ∈ (l.dropWhile isBlank).head?, isBlank c = false := by
    intro c first
    have stop := List.head?_dropWhile_not isBlank l
    rwa [Option.mem_def.mp first] at stop
  have rest : cs.dropWhile isBlank = trimChars cs ++
      ((cs.dropWhile isBlank).reverse.takeWhile isBlank).reverse := by
    rw [trimChars, trimEnd, ← List.reverse_append, List.takeWhile_append_dropWhile,
      List.reverse_reverse]
  have whole : cs = cs.takeWhile isBlank ++ (trimChars cs ++
      ((cs.dropWhile isBlank).reverse.takeWhile isBlank).reverse) := by
    rw [← rest, List.takeWhile_append_dropWhile]
  refine ⟨_, _, all, fun c member => all c (List.mem_reverse.mp member), ⟨fun c first => ?_, ?_⟩,
    whole⟩
  · refine start (l := cs) c ?_
    rw [rest, List.head?_append, Option.mem_def.mp first]
    rfl
  · rw [trimChars, trimEnd, List.getLast?_reverse]
    exact start

/-! ## Lines -/

theorem splitWhere_line {cs : List Char} :
    splitWhere (· = '\n') (cs ++ ['\n']) = splitWhere (· = '\n') cs ++ [[]] :=
  splitWhere_append_cons cs (decide_eq_true rfl) []

/-- A line feed ends a line, whatever follows. -/
theorem lines_append (first rest : String) :
    lines (first ++ "\n" ++ rest) = lines (first ++ "\n") ++ lines rest := by
  have cut : splitWhere (· = '\n') (first ++ "\n" ++ rest).toList =
      splitWhere (· = '\n') first.toList ++ splitWhere (· = '\n') rest.toList := by
    rw [String.toList_append, String.toList_append, List.append_assoc]
    exact splitWhere_append_cons first.toList (decide_eq_true rfl) rest.toList
  have cutFirst : splitWhere (· = '\n') (first ++ "\n").toList =
      splitWhere (· = '\n') first.toList ++ [[]] := by
    rw [String.toList_append]
    exact splitWhere_line
  have some := splitWhere_ne_nil (· = '\n') rest.toList
  have last : (splitWhere (· = '\n') first.toList ++ splitWhere (· = '\n') rest.toList).getLast? =
      (splitWhere (· = '\n') rest.toList).getLast? := by
    rw [List.getLast?_append, List.getLast?_eq_some_getLast some, Option.some_or]
  simp only [lines, cut, cutFirst, last, List.dropLast_concat, List.getLast?_concat,
    List.dropLast_append_of_ne_nil some]
  simp

/-- A text that has no line feed and does not end with a carriage return is one line. -/
theorem lines_line {text : String} (whole : '\n' ∉ text.toList)
    (last : text.toList.getLast? ≠ some '\r') : lines (text ++ "\n") = [text] := by
  have cut : splitWhere (· = '\n') (text ++ "\n").toList = [text.toList, []] := by
    have one : splitWhere (· = '\n') text.toList = [text.toList] :=
      splitWhere_eq_singleton fun c member => decide_eq_false fun same => whole (same ▸ member)
    rw [String.toList_append]
    exact splitWhere_line.trans (by rw [one]; rfl)
  simp only [lines, cut]
  simp [last]

end Metamodel.Text
