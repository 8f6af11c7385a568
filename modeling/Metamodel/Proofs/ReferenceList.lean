import Metamodel.Proofs.ReferenceReading

/-!
Lists of references.

A list is cut into words at its white space, and then two words are put together again where the
first begins a qualified reference. A reference without white space of its own is one word or two,
and no word is taken from the reference after it.

Results:
1. `words_eq_iff`: the words of a text are those that it has with white space between them.
2. `joinHeads_flatMap_tokens`: the words of references are put together to the references.
3. `splitList_references`: what is read from a list of references, and what is left of any list.
-/

namespace Metamodel.Text

/-! ## Words -/

/-- No white space. -/
def Visible (s : String) : Prop := ∀ c ∈ s.toList, isBlank c = false

instance (s : String) : Decidable (Visible s) :=
  decidable_of_iff (s.toList.all (!isBlank ·)) (by simp [Visible])

/-- The words with some white space between them, and any around them. -/
inductive Spaced : List String → List Char → Prop
  | nil {blanks : List Char} : (∀ c ∈ blanks, isBlank c) → Spaced [] blanks
  | cons (before after : List Char) {word : String} {rest : List String} :
      (∀ c ∈ before, isBlank c) → word ≠ "" → Visible word → (∀ c ∈ after.head?, isBlank c) →
      Spaced rest after → Spaced (word :: rest) (before ++ (word.toList ++ after))

variable {p : Char → Bool}

theorem pieces_append_of_pos (before : List Char) (separators : ∀ c ∈ before, p c)
    (cs : List Char) : pieces p (before ++ cs) = pieces p cs := by
  induction before with
  | nil => rfl
  | cons c before ih =>
    have isSep := separators c List.mem_cons_self
    rw [List.cons_append, ← ih fun d member => separators d (List.mem_cons_of_mem c member), pieces,
      splitWhere_cons, if_pos isSep]
    rfl

theorem pieces_append_of_neg {part after : List Char} (some : part ≠ [])
    (none : ∀ c ∈ part, p c = false) (stop : ∀ c ∈ after.head?, p c) :
    pieces p (part ++ after) = part :: pieces p after := by
  have whole := splitWhere_eq_singleton none
  have kept : [part].filter (!·.isEmpty) = [part] := by simpa using some
  cases after with
  | nil => rw [List.append_nil, pieces, whole, kept]; rfl
  | cons sep after =>
    have isSep : p sep := stop sep rfl
    have later : pieces p (sep :: after) = pieces p after :=
      pieces_append_of_pos [sep] (by simpa using isSep) after
    rw [later, pieces, splitWhere_append_cons part isSep, whole, List.filter_append, kept]
    rfl

theorem words_eq_of_spaced {ws : List String} {s : String} (spaced : Spaced ws s.toList) :
    words s = ws := by
  suffices cut : pieces isBlank s.toList = ws.map String.toList by
    simp [words, cut, Function.comp_def]
  generalize s.toList = cs at spaced
  induction spaced with
  | @nil blanks blank =>
    rw [← List.append_nil blanks, pieces_append_of_pos _ blank]
    rfl
  | cons before after blank some visible stop _ ih =>
    rw [pieces_append_of_pos _ blank, pieces_append_of_neg (by simpa using some) visible stop, ih,
      List.map_cons]

theorem Spaced.cons_blank {ws : List String} {cs : List Char} {b : Char} (spaced : Spaced ws cs)
    (blank : isBlank b) : Spaced ws (b :: cs) := by
  cases spaced with
  | nil blanks => exact .nil (by simpa [blank] using blanks)
  | cons before after blanks some visible stop rest =>
    exact .cons (b :: before) after (by simpa [blank] using blanks) some visible stop rest

theorem exists_spaced (cs : List Char) : ∃ ws, Spaced ws cs := by
  induction cs with
  | nil => exact ⟨[], .nil (by simp)⟩
  | cons c cs ih =>
    obtain ⟨ws, spaced⟩ := ih
    cases blank : isBlank c with
    | true => exact ⟨ws, spaced.cons_blank blank⟩
    | false =>
      have single : String.ofList [c] ≠ "" ∧ Visible (String.ofList [c]) := by
        simp [Visible, blank]
      cases spaced with
      | nil blanks =>
        have stop : ∀ b ∈ cs.head?, isBlank b := fun b first =>
          blanks b (List.mem_of_mem_head? first)
        have added := Spaced.cons [] cs (by simp) single.1 single.2 stop (.nil blanks)
        exact ⟨_, by simpa using added⟩
      | @cons before after word rest blanks some visible stop later =>
        cases before with
        | nil =>
          -- The character belongs to the first word.
          have longer : String.ofList (c :: word.toList) ≠ "" ∧
              Visible (String.ofList (c :: word.toList)) := by
            simpa [Visible, blank] using visible
          have added := Spaced.cons [] after (by simp) longer.1 longer.2 stop later
          exact ⟨_, by simpa using added⟩
        | cons b before =>
          have stop' : isBlank b := blanks b List.mem_cons_self
          have added := Spaced.cons [] _ (by simp) single.1 single.2 (by simpa using stop')
            (.cons (b :: before) after blanks some visible stop later)
          exact ⟨_, by simpa using added⟩

/-- The words of a text are those that it has with white space between them. -/
theorem words_eq_iff {ws : List String} {s : String} : words s = ws ↔ Spaced ws s.toList := by
  refine ⟨?_, words_eq_of_spaced⟩
  rintro rfl
  obtain ⟨ws, spaced⟩ := exists_spaced s.toList
  rwa [words_eq_of_spaced spaced]

theorem spaced_intercalate {ws : List String} (proper : ∀ w ∈ ws, w ≠ "" ∧ Visible w) :
    Spaced ws (" ".intercalate ws).toList := by
  induction ws with
  | nil => exact .nil (by simp)
  | cons w rest ih =>
    obtain ⟨some, visible⟩ := proper w List.mem_cons_self
    have later := ih fun other member => proper other (List.mem_cons_of_mem w member)
    cases rest with
    | nil => simpa using Spaced.cons [] _ (by simp) some visible (by simp) later
    | cons next rest =>
      have blank : isBlank ' ' := by decide
      simpa using Spaced.cons [] _ (by simp) some visible (by simpa using blank)
        (later.cons_blank blank)

theorem words_proper (s : String) : ∀ w ∈ words s, w ≠ "" ∧ Visible w := by
  intro w member
  obtain ⟨part, listed, rfl⟩ := List.mem_map.mp member
  obtain ⟨cut, some⟩ := List.mem_filter.mp listed
  exact ⟨by simpa using some, by simpa [Visible] using not_mem_splitWhere _ _ part cut⟩

theorem words_intercalate_words (s : String) : words (" ".intercalate (words s)) = words s :=
  words_eq_of_spaced (spaced_intercalate (words_proper s))

end Metamodel.Text

namespace Metamodel.Reference

open Text

/-! ## Putting words together -/

/-- References without white space but for the one space after the kind. -/
inductive Compact : Reference → Prop
  | fragment {path : List String} :
      Segments path → (∀ segment ∈ path, Visible segment) → Compact (.fragment path)
  | qualified {nsPrefix kind nsUri : String} {path : List String} :
      IsWord nsPrefix → IsWord kind → nsUri ≠ "" → Visible nsUri → '#' ∉ nsUri.toList →
      Segments path → (∀ segment ∈ path, Visible segment) →
      Compact (.qualified nsPrefix kind nsUri path)

/-- The words of a reference as it is rendered. -/
def tokens : Reference → List String
  | .fragment path => ["#//" ++ "/".intercalate path]
  | .qualified nsPrefix kind nsUri path =>
    [nsPrefix ++ ":" ++ kind, nsUri ++ "#//" ++ "/".intercalate path]

theorem isHead_of_isWord {nsPrefix kind : String} (isPrefix : IsWord nsPrefix)
    (isKind : IsWord kind) : isHead (nsPrefix ++ ":" ++ kind) := by
  have colon : isWord ':' = false := by decide
  have span := span_append (r := ':' :: kind.toList) isPrefix.2 (by simp [colon])
  have listed : (nsPrefix ++ ":" ++ kind).toList = nsPrefix.toList ++ ':' :: kind.toList := by
    simp
  simp only [isHead, listed, span]
  simpa [isPrefix.1, isKind.1] using isKind.2

theorem isHead_fragment (path : List String) : isHead ("#//" ++ "/".intercalate path) = false := by
  have hash : isWord '#' = false := by decide
  simp [isHead, hash]

/-- No word of the references that follow is taken for a part of the first one. -/
theorem joinHeads_tokens_append {r : Reference} (compact : r.Compact) (later : List String) :
    joinHeads (r.tokens ++ later) = r.render :: joinHeads later := by
  cases compact with
  | fragment =>
    cases later with
    | nil => rfl
    | cons next later => simp [tokens, joinHeads, render, isHead_fragment]
  | qualified isPrefix isKind =>
    rw [tokens, List.cons_append, List.singleton_append, joinHeads,
      if_pos (isHead_of_isWord isPrefix isKind)]
    simp [render, String.append_assoc]

theorem joinHeads_flatMap_tokens {refs : List Reference} (compact : ∀ r ∈ refs, r.Compact) :
    joinHeads (refs.flatMap tokens) = refs.map render := by
  induction refs with
  | nil => rfl
  | cons r refs ih =>
    rw [List.flatMap_cons, joinHeads_tokens_append (compact r List.mem_cons_self),
      ih fun other member => compact other (List.mem_cons_of_mem r member), List.map_cons]

theorem joinHeads_ne_nil {ws : List String} (some : ws ≠ []) : joinHeads ws ≠ [] := by
  fun_cases joinHeads ws <;> simp_all

/-- Words are put together with the space that joins them anyway. -/
theorem intercalate_joinHeads (ws : List String) :
    " ".intercalate (joinHeads ws) = " ".intercalate ws := by
  induction ws using joinHeads.induct with
  | case1 => rfl
  | case2 word => rfl
  | case3 word next rest head ih =>
    rw [joinHeads, if_pos head]
    cases rest with
    | nil => simp [joinHeads, String.intercalate_cons_cons]
    | cons third rest =>
      rw [String.intercalate_cons_of_ne_nil (joinHeads_ne_nil (List.cons_ne_nil third rest)), ih,
        String.intercalate_cons_cons, String.intercalate_cons_cons]
      simp only [String.append_assoc]
  | case4 word next rest plain ih =>
    rw [joinHeads, if_neg plain, String.intercalate_cons_of_ne_nil
      (joinHeads_ne_nil (List.cons_ne_nil next rest)), ih, String.intercalate_cons_cons]

/-! ## Compact references -/

theorem visible_written {path : List String} (visible : ∀ segment ∈ path, Visible segment) :
    ∀ c ∈ written path, isBlank c = false := by
  have slash : isBlank '/' = false := by decide
  rw [written_eq]
  induction path with
  | nil => simp
  | cons segment rest ih =>
    have first := visible segment List.mem_cons_self
    have later := ih fun other member => visible other (List.mem_cons_of_mem segment member)
    cases rest with
    | nil => rwa [List.map_singleton, List.intercalate_singleton]
    | cons next rest =>
      rw [List.map_cons, List.map_cons, List.intercalate_cons_cons, ← List.map_cons]
      simp only [List.forall_mem_append]
      exact ⟨⟨first, by simpa using slash⟩, later⟩

theorem Compact.canonical {r : Reference} (compact : r.Compact) : r.Canonical := by
  cases compact with
  | fragment segments => exact .fragment segments
  | qualified isPrefix isKind present visible plain segments visible' =>
    have none := visible_written visible'
    refine .qualified ⟨isPrefix, isKind, segments, fun line => ?_, fun c last => ?_⟩ present
      ⟨fun c first => ?_, fun c last => ?_⟩ plain
    · exact absurd (none _ line) (by decide)
    · exact none c (List.mem_of_getLast? last)
    · exact visible c (List.mem_of_mem_head? first)
    · exact visible c (List.mem_of_getLast? last)

/-- A list of compact references is read as these references, whatever white space stands between
their words. Of any list the words stay as they are, and the entries with a space between them are
read as the same entries. -/
theorem splitList_references (refs : List Reference) (value : String) :
    ((∀ r ∈ refs, r.Compact) → Spaced (refs.flatMap tokens) value.toList →
      splitList value = refs.map render ∧ (splitList value).map ofString? = refs.map some) ∧
    " ".intercalate (splitList value) = " ".intercalate (words value) ∧
    words (" ".intercalate (splitList value)) = words value ∧
    splitList (" ".intercalate (splitList value)) = splitList value := by
  refine ⟨fun compact spaced => ?_, ?_⟩
  · have split : splitList value = refs.map render := by
      rw [splitList, words_eq_of_spaced spaced, joinHeads_flatMap_tokens compact]
    refine ⟨split, ?_⟩
    rw [split, List.map_map]
    exact List.map_congr_left fun r member =>
      ofString?_render_iff.mpr (compact r member).canonical
  · have joined : " ".intercalate (splitList value) = " ".intercalate (words value) :=
      intercalate_joinHeads (words value)
    have again : words (" ".intercalate (splitList value)) = words value := by
      rw [joined, words_intercalate_words]
    exact ⟨joined, again, by rw [splitList, again, splitList]⟩

/-- A list on two lines. -/
theorem splitList_references_wrapped :
    splitList "e:EClass\n  urn:e#//A/b\t#//C" = ["e:EClass urn:e#//A/b", "#//C"] ∧
      ["e:EClass urn:e#//A/b", "#//C"].map ofString? =
        [some (.qualified "e" "EClass" "urn:e" ["A", "b"]), some (.fragment ["C"])] := by
  have compact : ∀ r ∈ [qualified "e" "EClass" "urn:e" ["A", "b"], fragment ["C"]],
      r.Compact := by
    intro r member
    simp only [List.mem_cons, List.not_mem_nil, or_false] at member
    rcases member with rfl | rfl
    · exact .qualified (by decide) (by decide) (by decide) (by decide) (by decide)
        ⟨by decide, by decide⟩ (by decide)
    · exact .fragment ⟨by decide, by decide⟩ (by decide)
  have spaced : Spaced ["e:EClass", "urn:e#//A/b", "#//C"]
      "e:EClass\n  urn:e#//A/b\t#//C".toList := words_eq_iff.mp (by decide +kernel)
  obtain ⟨split, read⟩ := (splitList_references _ _).1 compact spaced
  rw [split] at read
  exact ⟨split, read⟩

end Metamodel.Reference
