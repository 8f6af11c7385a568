import Metamodel.Proofs.LocalFlaws

/-!
Which pairs of opposite containments lint reports.

A reference and its opposite are compared when the reference is visited, and they are reported only
from the end that was created first. So two containments that name each other are reported once. If
only one names the other, they are reported if it was created first, and not at all otherwise.

Results:
1. `lint_doubleContainment`: the pairs that are reported for a package tree.
2. `lint_doubleContainment_order`: the same two references in both orders, reported in one of them.
-/

namespace Metamodel.Model

variable {m : Model} {a b : ElementId}

/-- The resolved opposite of a reference. -/
def opposite? (m : Model) (x : ElementId) : Option ElementId :=
  ((m.reference? x).bind (·.opposite)).bind Link.target?

theorem opposite?_eq_some_iff : m.opposite? a = some b ↔ .resolved b ∈ m.links .opposite a := by
  rw [links_opposite]
  exact bind_target?_eq_some_iff

/-- These are the pairs of containments in a tree of which the first names the other as its opposite
and was created before it, each once. -/
structure Doubled (m : Model) (root : ElementId) (pairs : List (ElementId × ElementId)) : Prop where
  once : pairs.Nodup
  listed : ∀ a b, (a, b) ∈ pairs ↔ m.Within root a ∧ m.Contains a ∧ m.Contains b ∧
    .resolved b ∈ m.links .opposite a ∧ a.index < b.index

/-- A flaw of this code is about the opposite of the reference. -/
theorem Flawed.doubled {flaw : Flaw} (flawed : m.Flawed a flaw)
    (same : flaw.code = "containment-both-ends") :
    flaw = .containmentBothEnds (m.label a) ∧ ∃ b, m.opposite? a = some b ∧ m.Contains a ∧
      m.Contains b ∧ a.index < b.index := by
  cases flawed with
  | containmentBothEnds opposite here there first =>
    exact ⟨rfl, _, opposite?_eq_some_iff.mpr opposite, here, there, first⟩
  | _ => simp [Flaw.code] at same

/-- The references that are reported for this code, each with its opposite. -/
theorem Enumerates.doubled {root : ElementId} {reported : List (ElementId × Flaw)}
    (are : m.Enumerates root "containment-both-ends" reported) :
    ∃ pairs, m.Doubled root pairs ∧ reported.map m.shown = pairs.map fun pair =>
      m.shown (pair.1, .containmentBothEnds (m.label pair.1)) := by
  refine ⟨reported.map fun entry => (entry.1, (m.opposite? entry.1).getD entry.1),
    ⟨?once, fun a b => ⟨fun listed => ?reported, fun flawed => ?complete⟩⟩, ?shown⟩
  case once =>
    refine List.Nodup.of_map Prod.fst ?_
    rw [List.map_map]
    exact are.once
  case reported =>
    obtain ⟨⟨x, flaw⟩, entry, here⟩ := List.mem_map.mp listed
    cases here
    obtain ⟨inside, flawed, code⟩ := are.sound x flaw entry
    obtain ⟨-, y, opposite, here, there, first⟩ := flawed.doubled code
    simp only [opposite, Option.getD_some]
    exact ⟨inside, here, there, opposite?_eq_some_iff.mp opposite, first⟩
  case complete =>
    -- A reference has one opposite, so the pair that is listed for it is this one.
    obtain ⟨inside, here, there, opposite, first⟩ := flawed
    obtain ⟨⟨x, flaw⟩, listed, same⟩ := List.mem_map.mp
      (are.complete a _ inside (.containmentBothEnds opposite here there first) rfl)
    cases same
    refine List.mem_map.mpr ⟨(x, flaw), listed, ?_⟩
    simp only [opposite?_eq_some_iff.mpr opposite, Option.getD_some]
  case shown =>
    rw [List.map_map]
    refine List.map_congr_left fun entry listed => ?_
    obtain ⟨-, flawed, code⟩ := are.sound entry.1 entry.2 listed
    exact congrArg (fun flaw => m.shown (entry.1, flaw)) (flawed.doubled code).1

/-- A pair of two different containments is among the pairs as often as the one that was created first
names the other. -/
theorem Doubled.count_add_count {root : ElementId} {pairs : List (ElementId × ElementId)}
    (are : m.Doubled root pairs) (insideA : m.Within root a) (containsA : m.Contains a)
    (containsB : m.Contains b) (first : a.index < b.index) :
    pairs.count (a, b) + pairs.count (b, a) =
      if .resolved b ∈ m.links .opposite a then 1 else 0 := by
  have back : pairs.count (b, a) = 0 := by
    refine List.count_eq_zero.mpr fun listed => ?_
    obtain ⟨-, -, -, -, after⟩ := (are.listed b a).mp listed
    exact Nat.lt_asymm first after
  rw [back, Nat.add_zero]
  split
  · next names =>
    exact List.count_eq_one_of_mem are.once
      ((are.listed a b).mpr ⟨insideA, containsA, containsB, names, first⟩)
  · next unnamed =>
    refine List.count_eq_zero.mpr fun listed => ?_
    obtain ⟨-, -, -, names, -⟩ := (are.listed a b).mp listed
    exact unnamed names

/-- Lint reports the pairs of containments in a package tree of which the first names the other as
its opposite and was created before it, each once. So two references of the tree that are both
containments and name each other are reported once, in whichever order they were created. Where only
one of them names the other, they are reported once if it was created first, and not otherwise. -/
theorem lint_doubleContainment (edited : m.Edited) {root : ElementId} (isRoot : m.isPackage root) :
    ∃ pairs, m.Doubled root pairs ∧
      (m.lint root).errors.filter (·.flaw.code = "containment-both-ends") =
        (pairs.map fun pair => m.shown (pair.1, .containmentBothEnds (m.label pair.1))) ∧
      ∀ a b, a ≠ b → m.Within root a → m.Within root b → m.Contains a → m.Contains b →
        .resolved b ∈ m.links .opposite a →
          (.resolved a ∈ m.links .opposite b →
            pairs.count (a, b) + pairs.count (b, a) = 1) ∧
          (.resolved a ∉ m.links .opposite b →
            pairs.count (a, b) + pairs.count (b, a) = if a.index < b.index then 1 else 0) := by
  obtain ⟨e, found⟩ := get?_of_isPackage isRoot
  have notOther : "containment-both-ends" ∉ Flaw.otherCodes := by decide
  obtain ⟨reported, areReported, shown⟩ := edited.wellFormed.enumerates_local found notOther
  obtain ⟨pairs, are, same⟩ := areReported.doubled
  refine ⟨pairs, are, ?_, fun a b ne insideA insideB containsA containsB names => ?_⟩
  · rw [LintReport.filter_errors, if_pos (by decide), shown, same]
  · rcases Nat.lt_trichotomy a.index b.index with first | level | after
    · have counted := are.count_add_count insideA containsA containsB first
      rw [if_pos names] at counted
      exact ⟨fun _ => counted, fun _ => by rw [counted, if_pos first]⟩
    · exact absurd (congrArg ElementId.mk level) ne
    · have counted := are.count_add_count insideB containsB containsA after
      rw [Nat.add_comm] at counted
      refine ⟨fun back => ?_, fun apart => ?_⟩
      · rw [counted, if_pos back]
      · rw [counted, if_neg apart, if_neg (Nat.lt_asymm after)]

/-- A document with two containments of a class, the first of which is the opposite of the second. -/
def namedFirstDocument : List Event :=
  [.opening "EPackage" (.ofList [("name", "p")]),
    .opening "eClasses" (.ofList [("name", "A")]),
    .opening "eReferences" (.ofList [("name", "first"), ("eType", "#//A"), ("containment", "true")]),
    .closing,
    .opening "eReferences" (.ofList [("name", "second"), ("eType", "#//A"), ("containment", "true"),
      ("eOpposite", "#//A/first")]),
    .closing,
    .closing,
    .closing]

/-- The same document with the two containments in the other order. -/
def namedLastDocument : List Event :=
  [.opening "EPackage" (.ofList [("name", "p")]),
    .opening "eClasses" (.ofList [("name", "A")]),
    .opening "eReferences" (.ofList [("name", "second"), ("eType", "#//A"), ("containment", "true"),
      ("eOpposite", "#//A/first")]),
    .closing,
    .opening "eReferences" (.ofList [("name", "first"), ("eType", "#//A"), ("containment", "true")]),
    .closing,
    .closing,
    .closing]

/-- The model with the elements of `namedFirstDocument`. -/
def namedFirst : Model :=
  (({} : Model).build "xsi:type" namedFirstDocument none).toOption.elim {} Prod.fst

/-- The model with the elements of `namedLastDocument`. -/
def namedLast : Model :=
  (({} : Model).build "xsi:type" namedLastDocument none).toOption.elim {} Prod.fst

/-- Two containments in a tree, of which the first names the other as its opposite and is not named
by it. -/
structure NamesAlone (m : Model) (root a b : ElementId) : Prop where
  edited : m.Edited
  isRoot : m.isPackage root
  insideFirst : m.Within root a
  insideSecond : m.Within root b
  containsFirst : m.Contains a
  containsSecond : m.Contains b
  names : .resolved b ∈ m.links .opposite a
  unnamed : .resolved a ∉ m.links .opposite b

/-- What resolution makes of a package with one class and two containments in it. -/
theorem namesAlone_of_resolve (reported : List (ElementId × Flaw)) (edited : m.Edited)
    (reads : ((m.resolve ⟨0⟩ []).toOption.map fun result =>
      decide ((result.1.isPackage ⟨0⟩ ∧ (⟨1⟩ : ElementId) ∈ result.1.members .classes ⟨0⟩) ∧
        (a ∈ result.1.members .references ⟨1⟩ ∧ b ∈ result.1.members .references ⟨1⟩) ∧
        ((result.1.reference? a).any (·.containment) ∧
          (result.1.reference? b).any (·.containment)) ∧
        (.resolved b ∈ result.1.links .opposite a ∧ .resolved a ∉ result.1.links .opposite b) ∧
        ((result.1.preorder ⟨0⟩).flatMap fun x => ((result.1.flawsOf x).filter
          (·.code = "containment-both-ends")).map (x, ·)) = reported)) = some true) :
    ∃ m' count, m.resolve ⟨0⟩ [] = .ok (m', count) ∧ m'.NamesAlone ⟨0⟩ a b ∧
      (m'.lint ⟨0⟩).errors.filter (·.flaw.code = "containment-both-ends") =
        reported.map m'.shown := by
  obtain ⟨⟨m', count⟩, done, shown⟩ := Option.map_eq_some_iff.mp reads
  obtain ⟨⟨isRoot, cls⟩, ⟨heldA, heldB⟩, ⟨containsA, containsB⟩, ⟨names, unnamed⟩, listed⟩ :=
    of_decide_eq_true shown
  have contains {x : ElementId} (held : (m'.reference? x).any (·.containment)) : m'.Contains x :=
    Option.any_eq_true _ _ |>.mp held
  have resolved := toOption_eq_some_iff.mp done
  have edited' : m'.Edited := .resolved edited resolved
  obtain ⟨e, found⟩ := get?_of_isPackage isRoot
  refine ⟨m', count, resolved, ⟨edited', isRoot, .member (.member .self cls) heldA,
    .member (.member .self cls) heldB, contains containsA, contains containsB, names, unnamed⟩, ?_⟩
  rw [LintReport.filter_errors, if_pos (by decide), ← listed]
  exact edited'.wellFormed.filter_findings_local found (by decide)

theorem edited_namedFirst : namedFirst.Edited := by
  have built : ({} : Model).build "xsi:type" namedFirstDocument none = .ok (namedFirst, ⟨0⟩) := rfl
  exact .document .empty built

theorem edited_namedLast : namedLast.Edited := by
  have built : ({} : Model).build "xsi:type" namedLastDocument none = .ok (namedLast, ⟨0⟩) := rfl
  exact .document .empty built

/-- The pair of which the first names the other is reported. -/
theorem lint_doubleContainment_namedLast :
    ∃ m' count pairs, namedLast.resolve ⟨0⟩ [] = .ok (m', count) ∧ m'.NamesAlone ⟨0⟩ ⟨2⟩ ⟨3⟩ ∧
      m'.Doubled ⟨0⟩ pairs ∧ pairs.count (⟨2⟩, ⟨3⟩) + pairs.count (⟨3⟩, ⟨2⟩) = 1 := by
  obtain ⟨m', count, resolved, alone, -⟩ := namesAlone_of_resolve (a := ⟨2⟩) (b := ⟨3⟩)
    [(⟨2⟩, .containmentBothEnds "second")] edited_namedLast (by decide +kernel)
  obtain ⟨pairs, are, -, counted⟩ := lint_doubleContainment alone.edited alone.isRoot
  obtain ⟨-, oneWay⟩ := counted ⟨2⟩ ⟨3⟩ (by decide) alone.insideFirst alone.insideSecond
    alone.containsFirst alone.containsSecond alone.names
  exact ⟨m', count, pairs, resolved, alone, are, oneWay alone.unnamed⟩

/-- Of two containments, one names the other. They are reported if it comes first in the document,
and not if it comes last. -/
theorem lint_doubleContainment_order :
    (∃ m' count, namedFirst.resolve ⟨0⟩ [] = .ok (m', count) ∧ m'.NamesAlone ⟨0⟩ ⟨3⟩ ⟨2⟩ ∧
      (m'.lint ⟨0⟩).errors.filter (·.flaw.code = "containment-both-ends") = []) ∧
    ∃ m' count, namedLast.resolve ⟨0⟩ [] = .ok (m', count) ∧ m'.NamesAlone ⟨0⟩ ⟨2⟩ ⟨3⟩ ∧
      (m'.lint ⟨0⟩).errors.filter (·.flaw.code = "containment-both-ends") =
        [m'.shown (⟨2⟩, .containmentBothEnds "second")] := by
  constructor
  · exact namesAlone_of_resolve [] edited_namedFirst (by decide +kernel)
  · exact namesAlone_of_resolve [(⟨2⟩, .containmentBothEnds "second")]
      edited_namedLast (by decide +kernel)

end Metamodel.Model
