import Mathlib.Data.List.Basic
import Metamodel.Reference

/-!
Which texts are read as references, and which references their own rendering is read as.

A fragment is read as it stands. A qualified reference may have white space around it. Between its
kind and its path there is white space and then some text, which is the namespace when the white
space around it is taken away. But the text may be white space itself, and then the namespace is
empty. A rendering has one space there and no more, so a reference without a namespace is read from
some texts, and its own rendering is none of them.

Results:
1. `ofString?_eq_some_iff`: the texts of each reference.
2. `ofString?_render_iff`: the references that are read from their rendering.
3. `reading_and_rendering`: the two together; `read_without_namespace` is a text that is read as a
   reference without a namespace.
-/

namespace Metamodel.Reference

open Text

/-! ## How references are written -/

/-- The segments of a path: there are some, and none of them is empty or has a slash. -/
structure Segments (path : List String) : Prop where
  some : path ≠ []
  proper : ∀ segment ∈ path, segment ≠ "" ∧ '/' ∉ segment.toList

/-- The characters of a path as it is written. -/
def written (path : List String) : List Char := ("/".intercalate path).toList

/-- A run of word characters. -/
def IsWord (s : String) : Prop := s ≠ "" ∧ ∀ c ∈ s.toList, isWord c

instance (s : String) : Decidable (IsWord s) :=
  decidable_of_iff (s ≠ "" ∧ s.toList.all isWord) (by simp [IsWord])

/-- What a qualified reference has beside its namespace: a prefix and a kind that are words, and a
path on one line that does not end with white space. -/
structure Framed (nsPrefix kind : String) (path : List String) : Prop where
  nsPrefix : IsWord nsPrefix
  kind : IsWord kind
  segments : Segments path
  oneLine : '\n' ∉ written path
  last : ∀ c ∈ (written path).getLast?, isBlank c = false

/-- A qualified reference with its namespace and the white space around that in place of `gap`. -/
def frame (nsPrefix kind : String) (gap : List Char) (path : List String) : List Char :=
  nsPrefix.toList ++ ':' :: (kind.toList ++ (gap ++ '#' :: '/' :: '/' :: written path))

/-- References that say all that a reference is to say. -/
inductive Canonical : Reference → Prop
  | fragment {path : List String} : Segments path → Canonical (.fragment path)
  | qualified {nsPrefix kind nsUri : String} {path : List String} :
      Framed nsPrefix kind path → nsUri ≠ "" → Trimmed nsUri.toList → '#' ∉ nsUri.toList →
      Canonical (.qualified nsPrefix kind nsUri path)

/-- The texts of a reference. The white space around a qualified one does not matter, nor does that
around the text which its namespace is taken from. -/
inductive Means : List Char → Reference → Prop
  | fragment {path : List String} :
      Segments path → Means ('#' :: '/' :: '/' :: written path) (.fragment path)
  | qualified {nsPrefix kind : String} {path : List String}
      {before blanks text after : List Char} :
      (∀ c ∈ before, isBlank c) → (∀ c ∈ after, isBlank c) → (∀ c ∈ blanks, isBlank c) →
      blanks ≠ [] → text ≠ [] → '#' ∉ text → Framed nsPrefix kind path →
      Means (before ++ (frame nsPrefix kind (blanks ++ text) path ++ after))
        (.qualified nsPrefix kind (String.ofList (trimChars text)) path)

/-! ## Paths -/

theorem written_eq (path : List String) : written path = ['/'].intercalate (path.map String.toList) :=
  String.toList_intercalate

theorem path?_eq_some_iff {cs : List Char} {path : List String} :
    path? cs = some path ↔ Segments path ∧ cs = written path := by
  have texts (parts : List (List Char)) : (parts.map String.ofList).map String.toList = parts := by
    simp [Function.comp_def]
  simp only [path?]
  constructor
  · intro read
    split at read
    · next full =>
      obtain rfl := Option.some.inj read
      refine ⟨⟨by simpa using splitWhere_ne_nil _ cs, fun segment listed => ?_⟩, ?_⟩
      · obtain ⟨part, cut, rfl⟩ := List.mem_map.mp listed
        have visible := List.all_eq_true.mp full part cut
        refine ⟨fun empty => ?_, fun slash => ?_⟩
        · rw [String.ofList_eq_empty_iff] at empty
          simp [empty] at visible
        · rw [String.toList_ofList] at slash
          exact absurd (not_mem_splitWhere _ cs part cut '/' slash) (by simp)
      · rw [written_eq, texts, intercalate_splitWhere]
    · cases read
  · rintro ⟨segments, rfl⟩
    have cut : splitWhere (· = '/') (written path) = path.map String.toList := by
      rw [written_eq]
      refine splitWhere_intercalate (by simpa using segments.some) fun part listed => ?_
      obtain ⟨segment, member, rfl⟩ := List.mem_map.mp listed
      exact (segments.proper segment member).2
    have full : (path.map String.toList).all (!·.isEmpty) := by
      rw [List.all_map, List.all_eq_true]
      intro segment member
      simpa using (segments.proper segment member).1
    simp [cut, full, Function.comp_def]

theorem written_ne_nil {path : List String} (segments : Segments path) : written path ≠ [] := by
  obtain ⟨segment, rest, rfl⟩ := List.exists_cons_of_ne_nil segments.some
  have first := (segments.proper segment List.mem_cons_self).1
  rw [written_eq, List.map_cons]
  cases rest with
  | nil => simpa using first
  | cons next rest => simp [List.intercalate_cons_cons]

/-! ## Qualified references -/

theorem isBlank_eq_false_of_isWord {c : Char} (word : isWord c) : isBlank c = false := by
  cases blank : isBlank c with
  | false => rfl
  | true => exact absurd word (by simp [isWord_eq_false_of_isBlank blank])

/-- How a text is cut into the parts of a qualified reference. What is taken for the namespace is all
that does not belong to the white space after the kind, and both together are two characters at
least. -/
structure Cut (cs : List Char) (nsPrefix kind : String) (blanks nsRaw : List Char)
    (path : List String) : Prop where
  isPrefix : IsWord nsPrefix
  isKind : IsWord kind
  blank : ∀ c ∈ blanks, isBlank c
  some : blanks ≠ []
  visible : ∀ c ∈ nsRaw.head?, isBlank c = false
  two : 2 ≤ (blanks ++ nsRaw).length
  plain : '#' ∉ nsRaw
  segments : Segments path
  oneLine : '\n' ∉ written path
  whole : cs = frame nsPrefix kind (blanks ++ nsRaw) path

theorem exists_cut {cs : List Char} {r : Reference} (read : ofQualified? cs = some r) :
    ∃ nsPrefix kind blanks nsRaw path, Cut cs nsPrefix kind blanks nsRaw path ∧
      r = .qualified nsPrefix kind (String.ofList (trimChars nsRaw)) path := by
  have run {p : Char → Bool} {l : List Char} : ∀ c ∈ l.takeWhile p, p c :=
    List.all_eq_true.mp (List.all_takeWhile ..)
  simp only [ofQualified?] at read
  split at read
  case h_2 => cases read
  case h_1 afterPrefix prefixed =>
  split at read
  case h_2 => cases read
  case h_1 rest hashed =>
  split at read
  case isTrue => cases read
  case isFalse full =>
  split at read
  case isTrue => cases read
  case isFalse room =>
  obtain ⟨path, segmented, found⟩ := Option.bind_eq_some_iff.mp read
  obtain ⟨segments, rfl⟩ := path?_eq_some_iff.mp segmented
  simp only [Bool.or_eq_true, List.isEmpty_iff, not_or, List.contains_iff_mem] at full
  simp only [Bool.or_eq_true, decide_eq_true_eq, List.isEmpty_iff, not_or, Nat.not_lt] at room
  refine ⟨_, _, _, _, path,
    { isPrefix := ⟨by simpa using full.1.1, by simpa using run⟩
      isKind := ⟨by simpa using full.1.2, by simpa using run⟩
      blank := run, some := room.2, visible := ?visible, two := room.1, plain := ?plain
      segments := segments, oneLine := full.2, whole := ?whole }, (Option.some.inj found).symm⟩
  case visible =>
    intro c first
    rw [List.head?_takeWhile, Option.mem_def, Option.filter_eq_some_iff] at first
    have stop := List.head?_dropWhile_not isBlank ((cs.dropWhile isWord).tail.dropWhile isWord)
    rw [prefixed, List.tail_cons, first.1] at stop
    exact stop
  case plain =>
    intro hash
    simpa using run _ hash
  case whole =>
    simp only [frame, String.toList_ofList, List.append_assoc]
    rw [← hashed, List.takeWhile_append_dropWhile, List.takeWhile_append_dropWhile,
      List.takeWhile_append_dropWhile, ← prefixed, List.takeWhile_append_dropWhile]

theorem Cut.ofQualified?_eq {cs : List Char} {nsPrefix kind : String} {blanks nsRaw : List Char}
    {path : List String} (cut : Cut cs nsPrefix kind blanks nsRaw path) :
    ofQualified? cs =
      .some (.qualified nsPrefix kind (String.ofList (trimChars nsRaw)) path) := by
  obtain ⟨isPrefix, isKind, blank, some, visible, two, plain, segments, oneLine, rfl⟩ := cut
  have colon : isWord ':' = false := by decide
  obtain ⟨b, more, rfl⟩ := List.exists_cons_of_ne_nil some
  -- Each part of the text ends where the characters of the next one begin.
  have afterPrefix := span_append (r := ':' :: (kind.toList ++ ((b :: more) ++
    (nsRaw ++ '#' :: '/' :: '/' :: written path)))) isPrefix.2 (by simp [colon])
  have afterKind := span_append (r := (b :: more) ++ (nsRaw ++ '#' :: '/' :: '/' :: written path))
    isKind.2 (by simpa using isWord_eq_false_of_isBlank (blank b List.mem_cons_self))
  have afterBlanks := span_append (r := nsRaw ++ '#' :: '/' :: '/' :: written path) blank (by
    cases nsRaw with
    | nil => simpa using show isBlank '#' = false by decide
    | cons c nsRaw => exact visible)
  have afterNamespace := span_append (p := (· ≠ '#')) (l := nsRaw)
    (r := '#' :: '/' :: '/' :: written path)
    (fun c member => decide_eq_true fun same => plain (same ▸ member)) (by simp)
  have full : (nsPrefix.toList.isEmpty || kind.toList.isEmpty ||
      (written path).contains '\n') = false := by
    simp [isPrefix.1, isKind.1, oneLine]
  have room : (decide (((b :: more) ++ nsRaw).length < 2) || (b :: more).isEmpty) = false := by
    rw [decide_eq_false (Nat.not_lt.mpr two)]
    rfl
  have read : path? (written path) = .some path := path?_eq_some_iff.mpr ⟨segments, rfl⟩
  rw [ofQualified?, frame, List.append_assoc (b :: more)]
  simp only [afterPrefix, afterKind, afterBlanks, afterNamespace, full, room, read,
    Bool.false_eq_true, if_false, String.ofList_toList]
  rfl

/-! ## All texts -/

theorem head_frame {nsPrefix : String} (isPrefix : IsWord nsPrefix) (kind : String)
    (gap : List Char) (path : List String) (behind : List Char) :
    ∃ c, isWord c ∧ (frame nsPrefix kind gap path ++ behind).head? = some c := by
  obtain ⟨c, rest, listed⟩ := List.exists_cons_of_ne_nil
    (mt String.toList_eq_nil_iff.mp isPrefix.1)
  exact ⟨c, isPrefix.2 c (listed ▸ List.mem_cons_self), by simp [frame, listed]⟩

theorem getLast?_frame {nsPrefix kind : String} {path : List String} (segments : Segments path)
    (gap : List Char) : (frame nsPrefix kind gap path).getLast? = (written path).getLast? := by
  have ends : frame nsPrefix kind gap path =
      (nsPrefix.toList ++ ':' :: (kind.toList ++ (gap ++ ['#', '/', '/']))) ++ written path := by
    simp [frame]
  rw [ends, List.getLast?_append_of_ne_nil _ (written_ne_nil segments)]

/-- There is no white space around a qualified reference but what is put there. -/
theorem trimmed_frame {nsPrefix kind : String} {path : List String}
    (framed : Framed nsPrefix kind path) (gap : List Char) :
    Trimmed (frame nsPrefix kind gap path) where
  head := by
    obtain ⟨c, word, first⟩ := head_frame framed.nsPrefix kind gap path []
    rw [List.append_nil] at first
    simpa [first] using isBlank_eq_false_of_isWord word
  last := by
    rw [getLast?_frame framed.segments]
    exact framed.last

theorem ofQualified?_frame {nsPrefix kind : String} {path : List String}
    {blanks text : List Char} (blank : ∀ c ∈ blanks, isBlank c) (some : blanks ≠ [])
    (some' : text ≠ []) (plain : '#' ∉ text) (framed : Framed nsPrefix kind path) :
    ofQualified? (frame nsPrefix kind (blanks ++ text) path) =
      .some (.qualified nsPrefix kind (String.ofList (trimChars text)) path) := by
  obtain ⟨isPrefix, isKind, segments, oneLine, -⟩ := framed
  -- What white space the text begins with belongs to the blanks before it.
  have gap : blanks ++ text =
      (blanks ++ text.takeWhile isBlank) ++ text.dropWhile isBlank := by
    rw [List.append_assoc, List.takeWhile_append_dropWhile]
  have two : 2 ≤ (blanks ++ text).length := by
    have := List.length_pos_iff.mpr some
    have := List.length_pos_iff.mpr some'
    rw [List.length_append]
    omega
  have visible : ∀ c ∈ (text.dropWhile isBlank).head?, isBlank c = false := by
    intro c first
    have stop := List.head?_dropWhile_not isBlank text
    rwa [Option.mem_def.mp first] at stop
  have same := (span_append (l := []) (by simp) visible).2
  rw [List.nil_append] at same
  have trimmed : trimChars (text.dropWhile isBlank) = trimChars text := by
    rw [trimChars, trimChars, same]
  rw [gap] at two ⊢
  rw [← trimmed]
  exact Cut.ofQualified?_eq
    { isPrefix, isKind
      blank := List.forall_mem_append.mpr ⟨blank, List.all_eq_true.mp (List.all_takeWhile ..)⟩
      some := by simp [some]
      visible, two, segments, oneLine
      plain := fun hash => plain ((List.dropWhile_suffix isBlank).mem hash)
      whole := rfl }

/-- The text around a qualified reference that has been read is one of the texts that mean it. -/
theorem Cut.means {nsPrefix kind : String} {blanks nsRaw before after core : List Char}
    {path : List String} (cut : Cut core nsPrefix kind blanks nsRaw path) (trimmed : Trimmed core)
    (blankBefore : ∀ c ∈ before, isBlank c) (blankAfter : ∀ c ∈ after, isBlank c) :
    Means (before ++ (core ++ after))
      (.qualified nsPrefix kind (String.ofList (trimChars nsRaw)) path) := by
  obtain ⟨isPrefix, isKind, blank, some, -, two, plain, segments, oneLine, rfl⟩ := cut
  have last := trimmed.last
  rw [getLast?_frame segments] at last
  have framed : Framed nsPrefix kind path := ⟨isPrefix, isKind, segments, oneLine, last⟩
  cases nsRaw with
  | cons c rest =>
    exact .qualified blankBefore blankAfter blank some (List.cons_ne_nil c rest) plain framed
  | nil =>
    -- The last of the blanks is the text.
    obtain ⟨first, b, rfl⟩ := (List.eq_nil_or_concat' blanks).resolve_left some
    obtain ⟨blankFirst, blankLast⟩ := List.forall_mem_append.mp blank
    have some' : first ≠ [] := by
      rintro rfl
      simp at two
    have nothing : trimChars ([b] ++ ([] ++ [])) = trimChars [] :=
      trimChars_append blankLast ⟨by simp, by simp⟩ (by simp)
    have plain' : '#' ∉ [b] := fun hash => absurd (blankLast '#' hash) (by decide)
    rw [List.append_nil, ← nothing]
    exact .qualified blankBefore blankAfter blankFirst some' (List.cons_ne_nil b []) plain' framed

/-- A qualified reference is not taken for a fragment. -/
theorem head?_qualified_ne {nsPrefix : String} (isPrefix : IsWord nsPrefix) (kind : String)
    (gap : List Char) (path : List String) {before : List Char}
    (blankBefore : ∀ c ∈ before, isBlank c) (after : List Char) :
    (before ++ (frame nsPrefix kind gap path ++ after)).head? ≠ some '#' := by
  intro first
  cases before with
  | nil =>
    obtain ⟨c, word, starts⟩ := head_frame isPrefix kind gap path after
    rw [List.nil_append, starts] at first
    obtain rfl := Option.some.inj first
    exact absurd word (by decide)
  | cons b before =>
    obtain rfl := Option.some.inj first
    exact absurd (blankBefore '#' List.mem_cons_self) (by decide)

theorem ofString?_eq_some_iff {uri : String} {r : Reference} :
    ofString? uri = some r ↔ Means uri.toList r := by
  rw [ofString?]
  constructor
  · intro read
    split at read
    · next rest listed =>
      obtain ⟨path, segmented, rfl⟩ := Option.map_eq_some_iff.mp read
      obtain ⟨segments, rfl⟩ := path?_eq_some_iff.mp segmented
      exact listed ▸ .fragment segments
    · obtain ⟨nsPrefix, kind, blanks, nsRaw, path, cut, rfl⟩ := exists_cut read
      obtain ⟨before, after, blankBefore, blankAfter, trimmed, whole⟩ := exists_trim uri.toList
      rw [whole]
      exact cut.means trimmed blankBefore blankAfter
  · intro means
    generalize uri.toList = cs at means
    cases means with
    | fragment segments => simp [path?_eq_some_iff.mpr ⟨segments, rfl⟩]
    | @qualified nsPrefix kind path before blanks text after blankBefore blankAfter blank some some'
        plain framed =>
      split
      · next rest listed =>
        have first := congrArg List.head? listed
        exact absurd first (head?_qualified_ne framed.nsPrefix kind _ path blankBefore after)
      · rw [trimChars_append blankBefore (trimmed_frame framed _) blankAfter]
        exact ofQualified?_frame blank some some' plain framed

/-! ## Renderings -/

theorem toList_render_fragment (path : List String) :
    (fragment path).render.toList = '#' :: '/' :: '/' :: written path := by
  simp [render, written]

theorem toList_render_qualified (nsPrefix kind nsUri : String) (path : List String) :
    (qualified nsPrefix kind nsUri path).render.toList =
      frame nsPrefix kind (' ' :: nsUri.toList) path := by
  simp [render, frame, written]

theorem Canonical.means_render {r : Reference} (canonical : r.Canonical) :
    Means r.render.toList r := by
  cases canonical with
  | fragment segments => exact toList_render_fragment _ ▸ .fragment segments
  | @qualified nsPrefix kind nsUri path framed present trimmed plain =>
    have whole : String.ofList (trimChars nsUri.toList) = nsUri := by
      have same : trimChars ([] ++ (nsUri.toList ++ [])) = nsUri.toList :=
        trimChars_append (by simp) trimmed (by simp)
      rw [List.nil_append, List.append_nil] at same
      rw [same, String.ofList_toList]
    have space : isBlank ' ' := by decide
    have means : Means ([] ++ (frame nsPrefix kind ([' '] ++ nsUri.toList) path ++ []))
        (.qualified nsPrefix kind (String.ofList (trimChars nsUri.toList)) path) :=
      .qualified (by simp) (by simp) (by simpa using space) (by simp) (by simpa using present) plain
        framed
    rw [toList_render_qualified]
    simpa [whole] using means

theorem length_frame (nsPrefix kind : String) (gap : List Char) (path : List String) :
    (frame nsPrefix kind gap path).length =
      nsPrefix.length + kind.length + gap.length + (written path).length + 4 := by
  simp only [frame, List.length_append, List.length_cons, String.length_toList]
  omega

theorem Framed.canonical {nsPrefix kind : String} {path : List String} {text : List Char}
    (framed : Framed nsPrefix kind path) (plain : '#' ∉ text)
    (present : String.ofList (trimChars text) ≠ "") :
    Canonical (.qualified nsPrefix kind (String.ofList (trimChars text)) path) := by
  obtain ⟨around, behind, -, -, trimmed, whole⟩ := exists_trim text
  refine .qualified framed present (by rwa [String.toList_ofList]) fun hash => plain ?_
  rw [String.toList_ofList] at hash
  rw [whole]
  simp [hash]

theorem ofString?_render_iff {r : Reference} : ofString? r.render = some r ↔ r.Canonical := by
  refine ⟨fun read => ?_, fun canonical => ofString?_eq_some_iff.mpr canonical.means_render⟩
  have means := ofString?_eq_some_iff.mp read
  generalize shape : r.render.toList = cs at means
  cases means with
  | fragment segments => exact .fragment segments
  | @qualified nsPrefix kind path before blanks text after _ _ _ some some' plain framed =>
    refine framed.canonical plain fun empty => ?_
    -- The rendering has one character where a text without a namespace has at least two.
    have length := congrArg List.length shape
    have blanksLength := List.length_pos_iff.mpr some
    have textLength := List.length_pos_iff.mpr some'
    simp only [toList_render_qualified, length_frame, empty, List.length_append,
      List.length_cons, String.toList_empty, List.length_nil] at length
    omega

/-- The namespace of a qualified reference. -/
def nsUri? : Reference → Option String
  | .fragment _ => none
  | .qualified _ _ nsUri _ => some nsUri

/-- A text is read as what it means. What is read has a path with proper segments, and it is read
from its rendering unless it is without a namespace. -/
theorem reading_and_rendering (uri : String) (r : Reference) :
    (ofString? uri = some r ↔ Means uri.toList r) ∧
    (ofString? uri = some r →
      Segments r.path ∧ (ofString? r.render = some r ↔ r.nsUri? ≠ some "")) ∧
    (ofString? r.render = some r ↔ r.Canonical) := by
  refine ⟨ofString?_eq_some_iff, fun read => ?_, ofString?_render_iff⟩
  rw [ofString?_render_iff]
  have means := ofString?_eq_some_iff.mp read
  generalize uri.toList = cs at means
  cases means with
  | fragment segments => exact ⟨segments, by simp [nsUri?], fun _ => .fragment segments⟩
  | @qualified nsPrefix kind path before blanks text after _ _ _ _ _ plain framed =>
    refine ⟨framed.segments, fun canonical => ?_, fun present => ?_⟩
    · cases canonical with
      | qualified _ present => simpa [nsUri?] using present
    · exact framed.canonical plain (by simpa [nsUri?] using present)

/-- Two blanks are enough for a qualified reference without a namespace; its rendering has one. -/
theorem read_without_namespace :
    ofString? "p:K  #//A" = some (.qualified "p" "K" "" ["A"]) ∧
      ofString? (qualified "p" "K" "" ["A"]).render = none := by
  decide +kernel

theorem reading_and_rendering_spaced :
    ofString? " e:EClass  urn:e #//A/b " = some (.qualified "e" "EClass" "urn:e" ["A", "b"]) ∧
      Segments ["A", "b"] ∧
      ofString? "e:EClass urn:e#//A/b" = some (.qualified "e" "EClass" "urn:e" ["A", "b"]) := by
  have read : ofString? " e:EClass  urn:e #//A/b " =
      some (.qualified "e" "EClass" "urn:e" ["A", "b"]) := by decide +kernel
  obtain ⟨segments, again⟩ := (reading_and_rendering _ _).2.1 read
  exact ⟨read, segments, again.mpr (by decide)⟩

end Metamodel.Reference
