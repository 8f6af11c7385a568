import Mathlib.Data.String.Basic
import Metamodel.File.Tree

/-!
Paths as they are written.

A written path is split at its slashes, and a file name at its points. What is read from a tree of
files is a file at the path that results, however the steps to it go.

Results:
1. `splitOn_ofList`: the parts of a text.
2. `FileTree.get?_of_read`: the file that is read.
-/

namespace Metamodel

open String (utf8Len ofList)

/-! ## Steps of a split

The part that begins behind `l` has come as far as `m`; `r` is still to be read. -/

theorem splitOnAux_nil (separator : Char) (l m : List Char) (acc : List String) :
    String.splitOnAux (ofList (l ++ m)) (ofList [separator]) ⟨utf8Len l⟩ ⟨utf8Len l + utf8Len m⟩ 0
        acc =
      (ofList m :: acc).reverse := by
  have ended : String.Pos.Raw.atEnd (ofList (l ++ m)) ⟨utf8Len l + utf8Len m⟩ = true := by
    rw [← String.utf8Len_append]
    simpa using (String.atEnd_of_valid (l ++ m) []).mpr rfl
  have part : String.Pos.Raw.extract (ofList (l ++ m)) ⟨utf8Len l⟩ ⟨utf8Len l + utf8Len m⟩ =
      ofList m := by
    simpa using String.extract_of_valid l m []
  unfold String.splitOnAux
  rw [if_pos ended, part]

/-- What one step looks at: there is a character, it is `c`, and the text goes on behind it. -/
theorem splitOn_position (l m : List Char) (c : Char) (r : List Char) :
    ¬ String.Pos.Raw.atEnd (ofList (l ++ m ++ c :: r)) ⟨utf8Len l + utf8Len m⟩ = true ∧
      String.Pos.Raw.get (ofList (l ++ m ++ c :: r)) ⟨utf8Len l + utf8Len m⟩ = c ∧
      String.Pos.Raw.next (ofList (l ++ m ++ c :: r)) ⟨utf8Len l + utf8Len m⟩ =
        ⟨utf8Len l + utf8Len m + c.utf8Size⟩ := by
  rw [← String.utf8Len_append]
  refine ⟨?_, String.get_of_valid (l ++ m) (c :: r), String.next_of_valid (l ++ m) c r⟩
  rw [String.atEnd_of_valid (l ++ m) (c :: r)]
  exact List.cons_ne_nil c r

theorem splitOnAux_separator (separator : Char) (l m r : List Char) (acc : List String) :
    String.splitOnAux (ofList (l ++ m ++ separator :: r)) (ofList [separator]) ⟨utf8Len l⟩
        ⟨utf8Len l + utf8Len m⟩ 0 acc =
      String.splitOnAux (ofList (l ++ m ++ separator :: r)) (ofList [separator])
        ⟨utf8Len l + utf8Len m + separator.utf8Size⟩ ⟨utf8Len l + utf8Len m + separator.utf8Size⟩ 0
        (ofList m :: acc) := by
  obtain ⟨goesOn, get, next⟩ := splitOn_position l m separator r
  have first : String.Pos.Raw.get (ofList [separator]) 0 = separator :=
    String.get_of_valid [] [separator]
  have nextSeparator : String.Pos.Raw.next (ofList [separator]) 0 = ⟨separator.utf8Size⟩ := by
    simpa using String.next_of_valid [] separator []
  have ended : String.Pos.Raw.atEnd (ofList [separator]) ⟨separator.utf8Size⟩ = true := by
    simpa using (String.atEnd_of_valid [separator] []).mpr rfl
  have back : String.Pos.Raw.unoffsetBy ⟨utf8Len l + utf8Len m + separator.utf8Size⟩
      ⟨separator.utf8Size⟩ = ⟨utf8Len l + utf8Len m⟩ := by
    simp [String.Pos.Raw.unoffsetBy]
  have part := String.extract_of_valid l m (separator :: r)
  rw [String.splitOnAux, if_neg goesOn, get, first]
  simp only [next, nextSeparator, ended, beq_self_eq_true, if_true, back, part]

theorem splitOnAux_other {separator c : Char} (ne : c ≠ separator) (l m r : List Char)
    (acc : List String) :
    String.splitOnAux (ofList (l ++ m ++ c :: r)) (ofList [separator]) ⟨utf8Len l⟩
        ⟨utf8Len l + utf8Len m⟩ 0 acc =
      String.splitOnAux (ofList (l ++ m ++ c :: r)) (ofList [separator]) ⟨utf8Len l⟩
        ⟨utf8Len l + utf8Len m + c.utf8Size⟩ 0 acc := by
  obtain ⟨goesOn, get, next⟩ := splitOn_position l m c r
  have first : String.Pos.Raw.get (ofList [separator]) 0 = separator :=
    String.get_of_valid [] [separator]
  have differ : (c == separator) = false := beq_false_of_ne ne
  have stay : String.Pos.Raw.unoffsetBy ⟨utf8Len l + utf8Len m⟩ 0 = ⟨utf8Len l + utf8Len m⟩ := by
    simp [String.Pos.Raw.unoffsetBy]
  rw [String.splitOnAux, if_neg goesOn, get, first]
  simp only [differ, Bool.false_eq_true, if_false, stay, next]

/-! ## Whole texts -/

theorem splitOnAux_ofList (separator : Char) (l m r : List Char) (acc : List String) :
    String.splitOnAux (ofList (l ++ m ++ r)) (ofList [separator]) ⟨utf8Len l⟩
        ⟨utf8Len l + utf8Len m⟩ 0 acc =
      acc.reverse ++ (List.splitOnPPrepend (· == separator) r m.reverse).map ofList := by
  induction r generalizing l m acc with
  | nil => simpa using splitOnAux_nil separator l m acc
  | cons c r ih =>
    by_cases same : c = separator
    · -- The part is done, and the next one begins behind the separator.
      subst same
      have others := ih (l ++ m ++ [c]) [] (ofList m :: acc)
      rw [splitOnAux_separator]
      simpa [Nat.add_assoc, List.splitOnPPrepend_cons_eq_if] using others
    · have others := ih l (m ++ [c]) acc
      rw [splitOnAux_other same]
      simpa [Nat.add_assoc, List.splitOnPPrepend_cons_eq_if, beq_false_of_ne same] using others

/-- A text in parts, split at each separator. -/
theorem splitOn_ofList (s : String) (separator : Char) :
    s.splitOn (ofList [separator]) = (s.toList.splitOnP (· == separator)).map ofList := by
  have split := splitOnAux_ofList separator [] [] s.toList []
  have some : (ofList [separator] == "") = false := by simp
  rw [String.splitOn, some]
  simpa using split

namespace Path

theorem parts_eq (text : String) :
    parts text = (text.toList.splitOnP (· == '/')).map ofList :=
  splitOn_ofList text '/'

theorem extension?_eq (name : String) : extension? name =
    match ((name.toList.splitOnP (· == '.')).map ofList).reverse with
    | last :: before => if before.isEmpty || before = [""] then none else some last
    | [] => none := by
  have cut : name.splitOn "." = _ := splitOn_ofList name '.'
  unfold extension?
  generalize name.splitOn "." = parts at cut ⊢
  subst cut
  rfl

end Path

namespace FileTree

variable {t : FileTree}

/-- Steps are refused where there is no directory, and are those of the path otherwise. -/
theorem foldl_step_of_follow {start path : Path} {parts : List String}
    (followed : t.follow start parts = .ok path) : parts.foldl Path.step start = path := by
  unfold FileTree.follow at followed
  induction parts generalizing start with
  | nil =>
    cases followed
    rfl
  | cons part parts ih =>
    rw [List.foldlM_cons] at followed
    unfold FileTree.step at followed
    split at followed
    · exact ih followed
    · cases followed

/-- What is read from a tree is a file at the path that the text writes. -/
theorem get?_of_read {text : String} {content : List UInt8} (read : t.read text = .ok content) :
    t.get? (Path.ofString text) = some content := by
  unfold FileTree.read at read
  cases located : t.locate text with
  | error fault =>
    rw [located] at read
    cases read
  | ok path =>
    rw [located] at read
    have isPath : Path.ofString text = path := foldl_step_of_follow located
    rw [isPath]
    dsimp only [bind, Except.bind] at read
    split at read
    · cases read
    · split at read
      · cases read
      · next found =>
        cases read
        exact found

end FileTree

end Metamodel
