/-!
Sets of characters and case mappings as compact tables.

Results:
1. `CharSet.exists_range_of_contains`: what is in a set that is made of ranges is in one of them.
-/

namespace Metamodel.Text

/-- A set of code points as the increasing list of the points at which membership changes. -/
structure CharSet where
  boundaries : Array Nat

namespace CharSet

/-- A code point belongs to the set when an odd number of changes lie at or below it. -/
def contains (s : CharSet) (c : Char) : Bool := s.boundaries.countP (· ≤ c.toNat) % 2 = 1

/-- The set of the code points in ranges, each given by its first point and the one after its
last. -/
def ofRanges (ranges : List (Nat × Nat)) : CharSet :=
  ⟨(ranges.flatMap fun range => [range.1, range.2]).toArray⟩

theorem exists_range_of_contains {ranges : List (Nat × Nat)}
    (proper : ∀ range ∈ ranges, range.1 ≤ range.2) {c : Char}
    (inside : (ofRanges ranges).contains c) :
    ∃ range ∈ ranges, range.1 ≤ c.toNat ∧ c.toNat < range.2 := by
  induction ranges with
  | nil => cases inside
  | cons range rest ih =>
    by_cases here : range.1 ≤ c.toNat ∧ c.toNat < range.2
    · exact ⟨range, List.mem_cons_self, here⟩
    · have ordered := proper range List.mem_cons_self
      -- Both ends of the range lie on one side of the point, so it counts as with the rest alone.
      have later : (ofRanges rest).contains c := by
        simp only [contains, ofRanges, List.flatMap_cons, List.countP_toArray, List.countP_append,
          List.countP_cons, List.countP_nil, decide_eq_true_eq] at inside ⊢
        by_cases behind : range.2 ≤ c.toNat
        · have above : range.1 ≤ c.toNat := by omega
          simp only [behind, above, if_true] at inside
          omega
        · have below : ¬ range.1 ≤ c.toNat := by omega
          simp only [behind, below, if_false] at inside
          omega
      obtain ⟨range', member, found⟩ := ih (fun r m => proper r (List.mem_cons_of_mem range m)) later
      exact ⟨range', List.mem_cons_of_mem range member, found⟩

end CharSet

/-- Every `step`-th code point from `first` to `last`. -/
structure Stride where
  first : Nat
  last : Nat
  step : Nat

namespace Stride

def contains (s : Stride) (code : Nat) : Bool :=
  s.first ≤ code && code ≤ s.last && (code - s.first) % s.step = 0

end Stride

/-- Every `step`-th code point from `first` to `last` maps to the one that lies `distance`
further. -/
structure Shift where
  first : Nat
  last : Nat
  step : Nat
  distance : Int

namespace Shift

def contains (s : Shift) (code : Nat) : Bool :=
  Stride.contains ⟨s.first, s.last, s.step⟩ code

end Shift

/-- The image of a character under a case mapping given by shifts and expansions. -/
def mapCase (shifts : List Shift) (expansions : List (Nat × List Nat)) (c : Char) : List Char :=
  match shifts.find? (·.contains c.toNat) with
  | some shift => [Char.ofNat (c.toNat + shift.distance).toNat]
  | none =>
    match expansions.lookup c.toNat with
    | some codes => codes.map Char.ofNat
    | none => [c]

end Metamodel.Text
