import Mathlib.Logic.Basic
import Metamodel.Identifier

/-!
Singulars and plurals of names.

A name that ends in `ies` has a singular in `y`, and most others that end in `s` have one without
it. So a singular belongs to up to three names: itself, and a plural of either form.

Results:
1. `isPlural_or_singular_eq`: a name is the plural of its singular, or has none but itself.
2. `singular_eq_iff`: which names have one singular.
-/

namespace Metamodel

namespace Identifier

/-! ## Endings -/

theorem before?_eq_some_iff {ending s stem : String} :
    before? ending s = some stem ↔ s = stem ++ ending := by
  unfold before?
  constructor
  · intro found
    split at found
    · next back =>
      obtain ⟨front, whole⟩ := List.isSuffixOf_iff_suffix.mp back
      have isFront : s.toList.take (s.length - ending.length) = front := by
        have length := congrArg List.length whole
        rw [List.length_append, String.length_toList, String.length_toList] at length
        rw [← whole, ← length, Nat.add_sub_cancel, List.take_left]
      cases found
      refine String.toList_injective ?_
      rw [String.toList_append, String.toList_ofList, isFront, whole]
    · cases found
  · rintro rfl
    have back : ending.toList.isSuffixOf (stem ++ ending).toList := by
      rw [List.isSuffixOf_iff_suffix, String.toList_append]
      exact List.suffix_append _ _
    rw [if_pos back, String.length_append, Nat.add_sub_cancel, String.toList_append,
      ← String.length_toList, List.take_left, String.ofList_toList]

theorem before?_eq_none_iff {ending s : String} :
    before? ending s = none ↔ ∀ stem, s ≠ stem ++ ending := by
  rw [Option.eq_none_iff_forall_ne_some]
  exact forall_congr' fun stem => not_congr before?_eq_some_iff

/-! ## Plurals -/

/-- The first name is the plural of the second one. -/
inductive IsPlural : String → String → Prop
  | ies {stem : String} : stem ≠ "" → IsPlural (stem ++ "ies") (stem ++ "y")
  /-- A name that ends in a low line or in `s` gets no `s`, and one that ends in `ie` after something
  else is taken for a part of `ies`. -/
  | s {one : String} : one ≠ "" → (∀ stem, one ≠ stem ++ "_") → (∀ stem, one ≠ stem ++ "s") →
      (∀ stem, stem ≠ "" → one ≠ stem ++ "ie") → IsPlural (one ++ "s") one

theorem singular_ies {stem : String} (some : stem ≠ "") : singular (stem ++ "ies") = stem ++ "y" := by
  unfold singular
  rw [before?_eq_some_iff.mpr rfl]
  simp [Option.filter, some]

theorem not_ies {name : String} (other : ∀ stem, stem ≠ "" → name ≠ stem ++ "ies") :
    (before? "ies" name).filter (!·.isEmpty) = none := by
  cases found : before? "ies" name with
  | none => rfl
  | some stem =>
    have same := before?_eq_some_iff.mp found
    have empty : stem = "" := by_contra fun ne => other stem ne same
    simp [Option.filter, empty]

theorem IsPlural.singular_eq {many one : String} (plural : IsPlural many one) :
    singular many = one := by
  cases plural with
  | ies some => exact singular_ies some
  | s some noLine noS noIe =>
    have other : ∀ stem, stem ≠ "" → one ++ "s" ≠ stem ++ "ies" := by
      intro stem ne same
      have same' : one ++ "s" = (stem ++ "ie") ++ "s" := by
        rw [same, String.append_assoc]
        rfl
      exact noIe stem ne (String.append_left_inj _ |>.mp same')
    have noSs : before? "ss" (one ++ "s") = none := by
      rw [before?_eq_none_iff]
      intro stem same
      have same' : one ++ "s" = (stem ++ "s") ++ "s" := by
        rw [same, String.append_assoc]
        rfl
      exact noS stem (String.append_left_inj _ |>.mp same')
    unfold singular
    rw [not_ies other, noSs, before?_eq_some_iff.mpr (rfl : one ++ "s" = one ++ "s")]
    simp [Option.filter, some, before?_eq_none_iff.mpr noLine]

/-- A name is the plural of its singular, or has no other singular than itself. -/
theorem isPlural_or_singular_eq (name : String) :
    IsPlural name (singular name) ∨ singular name = name := by
  by_cases ies : ∃ stem, stem ≠ "" ∧ name = stem ++ "ies"
  · obtain ⟨stem, ne, rfl⟩ := ies
    rw [singular_ies ne]
    exact .inl (.ies ne)
  · have other : ∀ stem, stem ≠ "" → name ≠ stem ++ "ies" :=
      fun stem ne same => ies ⟨stem, ne, same⟩
    unfold singular
    rw [not_ies other]
    dsimp only
    split
    · exact .inr rfl
    · next noSs =>
      split
      · next one found =>
        obtain ⟨found, kept⟩ := Option.filter_eq_some_iff.mp found
        obtain rfl := before?_eq_some_iff.mp found
        rw [Option.not_isSome_iff_eq_none, before?_eq_none_iff] at noSs
        simp only [Bool.and_eq_true, Bool.not_eq_true', Option.isNone_iff_eq_none,
          before?_eq_none_iff, String.isEmpty_eq_false_iff] at kept
        refine .inl (.s kept.1 kept.2 (fun stem same => ?_) fun stem ne same => ?_)
        · refine noSs stem ?_
          rw [same, String.append_assoc]
          rfl
        · refine other stem ne ?_
          rw [same, String.append_assoc]
          rfl
      · exact .inr rfl

/-- Singulars do not end in `s`. -/
theorem IsPlural.one_ne {many one : String} (plural : IsPlural many one) (stem : String) :
    one ≠ stem ++ "s" := by
  cases plural with
  | ies some =>
    intro same
    have last := congrArg (fun name => name.toList.getLast?) same
    simp at last
  | s some noLine noS noIe => exact noS stem

theorem IsPlural.singular_one {many one : String} (plural : IsPlural many one) :
    singular one = one := by
  rcases isPlural_or_singular_eq one with again | same
  · generalize singular one = other at again
    cases again with
    | @ies stem some =>
      refine absurd ?_ (plural.one_ne (stem ++ "ie"))
      rw [String.append_assoc]
      rfl
    | s => exact absurd rfl (plural.one_ne other)
  · exact same

/-- One of the names is the plural of the other, or both are plurals of a third one. -/
inductive SharesSingular (a b : String) : Prop
  | plural : IsPlural a b → SharesSingular a b
  | singular : IsPlural b a → SharesSingular a b
  | plurals {one : String} : IsPlural a one → IsPlural b one → SharesSingular a b

/-- Different names have one singular exactly if they share it as plurals. -/
theorem singular_eq_iff {a b : String} : singular a = singular b ↔ a = b ∨ SharesSingular a b := by
  constructor
  · intro same
    rcases isPlural_or_singular_eq a with pluralA | selfA <;>
      rcases isPlural_or_singular_eq b with pluralB | selfB
    · exact .inr (.plurals pluralA (same ▸ pluralB))
    · exact .inr (.plural (same.trans selfB ▸ pluralA))
    · exact .inr (.singular (same.symm.trans selfA ▸ pluralB))
    · exact .inl (selfA.symm.trans (same.trans selfB))
  · rintro (rfl | shared)
    · rfl
    · cases shared with
      | plural plural => rw [plural.singular_eq, plural.singular_one]
      | singular plural => rw [plural.singular_eq, plural.singular_one]
      | plurals pluralA pluralB => rw [pluralA.singular_eq, pluralB.singular_eq]

end Identifier

end Metamodel
