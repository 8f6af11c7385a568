import Metamodel.Proofs.AttributeReading

/-!
Documents are read as they are spelled.

What stands between tags is passed over, a start tag is cut at the bracket that no quotes hide, and
an end tag has the name of the start that it belongs to. So each part of a document hands on the
events that it spells, in front of those of what follows it, whatever the open elements are.

Results:
1. `cutAt?_append`: a mark is found where a text without it ends.
2. `reads_filler`: what stands between tags has no events.
3. `Spells.reads`: a part of a document has the events that it spells.
4. `events_of_spells`: so does a whole document, and it builds the model that they build.
-/

namespace Metamodel.Markup

open Octet
open Text (span_append)

/-! ## Marks -/

/-- No end of the mark, except for the whole of it, is a beginning of it. -/
def Unbordered (mark : Octets) : Prop :=
  mark ≠ [] ∧ ∀ k < mark.length, 0 < k → ¬ mark.drop k <+: mark

instance (mark : Octets) : Decidable (Unbordered mark) :=
  inferInstanceAs (Decidable (_ ∧ _))

/-- A mark that begins in a text in front of it stands in the text. -/
theorem Unbordered.prefix_of_append {mark s rest : Octets} (unbordered : Unbordered mark)
    (some : s ≠ []) (found : mark <+: s ++ (mark ++ rest)) : mark <+: s := by
  by_cases long : mark.length ≤ s.length
  · exact List.prefix_of_prefix_length_le found (List.prefix_append s _) long
  · have short : s <+: mark :=
      List.prefix_of_prefix_length_le (List.prefix_append s _) found (by omega)
    obtain ⟨u, rfl⟩ := short
    have overlap : u <+: s ++ u ++ rest := (List.prefix_append_right_inj s).mp found
    have border : u <+: s ++ u :=
      List.prefix_of_prefix_length_le overlap (List.prefix_append (s ++ u) rest) (by simp)
    refine absurd ?_ (unbordered.2 s.length (by omega) (List.length_pos_iff.mpr some))
    rw [List.drop_left]
    exact border

/-- A mark is found where a text without it ends. -/
theorem cutAt?_append {mark s : Octets} (unbordered : Unbordered mark) (absent : ¬ mark <:+: s)
    (rest : Octets) : cutAt? mark (s ++ (mark ++ rest)) = some (s, rest) := by
  induction s with
  | nil =>
    obtain ⟨b, tail, rfl⟩ := List.exists_cons_of_ne_nil unbordered.1
    have here : (b :: tail).isPrefixOf (b :: (tail ++ rest)) :=
      List.isPrefixOf_iff_prefix.mpr ⟨rest, rfl⟩
    rw [List.nil_append, List.cons_append, cutAt?, if_pos here]
    simp
  | cons b s ih =>
    have notHere : ¬ mark.isPrefixOf (b :: (s ++ (mark ++ rest))) := by
      rw [List.isPrefixOf_iff_prefix]
      exact fun found => absent
        (unbordered.prefix_of_append (s := b :: s) (List.cons_ne_nil b s) found).isInfix
    have later : ¬ mark <:+: s := fun found => absent (found.trans (List.suffix_cons b s).isInfix)
    rw [List.cons_append, cutAt?, if_neg notHere, ih later]
    rfl

/-- A mark that is in none of two texts is not in both together, if it cannot begin in the first. -/
theorem not_infix_append {mark front s : Octets} (unbordered : Unbordered mark)
    (apart : ∀ b ∈ front, mark.head? ≠ some b) (absent : ¬ mark <:+: s) :
    ¬ mark <:+: front ++ s := by
  induction front with
  | nil => exact absent
  | cons b front ih =>
    obtain ⟨here, later⟩ := List.forall_mem_cons.mp apart
    rw [List.cons_append, List.infix_cons_iff, not_or]
    refine ⟨fun found => ?_, ih later⟩
    obtain ⟨first, tail, rfl⟩ := List.exists_cons_of_ne_nil unbordered.1
    exact here (congrArg some (List.cons_prefix_cons.mp found).1)

/-! ## Tags -/

/-- The octets contain quotes in pairs and no bracket outside them: a tag does not end in them. -/
def Closed (s : Octets) : Prop :=
  ∀ rest, cutTag? none (s ++ rest) =
    (cutTag? none rest).map fun (content, after) => (s ++ content, after)

theorem closed_nil : Closed [] := fun rest => by simp

theorem Closed.append {s t : Octets} (closed : Closed s) (closed' : Closed t) : Closed (s ++ t) := by
  intro rest
  rw [List.append_assoc, closed, closed', Option.map_map]
  simp [Function.comp_def]

theorem closed_of_plain {s : Octets}
    (plain : ∀ b ∈ s, b ≠ greaterThan ∧ b ≠ singleQuote ∧ b ≠ doubleQuote) : Closed s := by
  induction s with
  | nil => exact closed_nil
  | cons b s ih =>
    obtain ⟨⟨bracket, single, double⟩, others⟩ := List.forall_mem_cons.mp plain
    intro rest
    rw [List.cons_append, cutTag?, if_neg bracket]
    simp only [single, double, decide_false, Bool.or_self, Bool.false_eq_true, if_false]
    rw [ih others, Option.map_map]
    rfl

/-- Within quotes everything up to the second one is passed over. -/
theorem cutTag?_quoted {quote : UInt8} {s : Octets} (absent : quote ∉ s) (rest : Octets) :
    cutTag? (some quote) (s ++ quote :: rest) =
      (cutTag? none rest).map fun (content, after) => (s ++ quote :: content, after) := by
  induction s with
  | nil => rw [List.nil_append, cutTag?, if_pos rfl]; rfl
  | cons b s ih =>
    rw [List.mem_cons, not_or] at absent
    rw [List.cons_append, cutTag?, if_neg (Ne.symm absent.1), ih absent.2, Option.map_map]
    rfl

theorem closed_quoted {quote : Quote} {s : Octets} (absent : quote.octet ∉ s) :
    Closed (quote.octet :: (s ++ [quote.octet])) := by
  intro rest
  have notBracket : quote.octet ≠ greaterThan := by cases quote <;> decide
  rw [List.cons_append, List.append_assoc, List.singleton_append, cutTag?, if_neg notBracket,
    quote.octet_isQuote, if_pos rfl, cutTag?_quoted absent, Option.map_map]
  simp [Function.comp_def]

/-- A tag ends at the first bracket after what is closed. -/
theorem Closed.cutTag?_eq {s : Octets} (closed : Closed s) (rest : Octets) :
    cutTag? none (s ++ greaterThan :: rest) = some (s, rest) := by
  rw [closed, cutTag?, if_pos rfl]
  simp

theorem closed_of_blank {s : Octets} (blank : s.all isBlank) : Closed s := by
  refine closed_of_plain fun b member => ?_
  have isBlank := blank_of_all blank b member
  refine ⟨?_, ?_, ?_⟩ <;>
    · rintro rfl
      exact absurd isBlank (by decide)

theorem closed_of_isName {name : List Char}
    (proper : ∀ b ∈ encode name, isMarkup b = false) : Closed (encode name) :=
  closed_of_plain fun b member =>
    ⟨ne_of_isMarkup (proper b member) (by decide), ne_of_isMarkup (proper b member) (by decide),
      ne_of_isMarkup (proper b member) (by decide)⟩

theorem Written.Sound.closed_octets {w : Written} (sound : w.Sound) : Closed w.octets := by
  have equal : Closed [equalSign] := closed_of_plain (by decide +kernel)
  have value := closed_quoted (Quote.octet_not_mem sound.closed)
  have key : Closed (encode w.key.toList) :=
    closed_of_isName fun b member => isMarkup_of_isName sound.name member
  have parts := (closed_of_blank sound.gap).append <| key.append <|
    (closed_of_blank sound.before).append <| equal.append <|
    (closed_of_blank sound.after).append value
  simpa [Written.octets] using parts

theorem closed_flatMap_octets {ws : List Written} (sound : ∀ w ∈ ws, w.Sound) :
    Closed (ws.flatMap Written.octets) := by
  induction ws with
  | nil => exact closed_nil
  | cons w ws ih =>
    obtain ⟨here, others⟩ := List.forall_mem_cons.mp sound
    exact here.closed_octets.append (ih others)

theorem SpellsAttributes.closed {discriminator : String} {attributes : OrderedMap String}
    {rest : Octets} (spells : SpellsAttributes discriminator attributes rest) : Closed rest := by
  obtain @⟨ws, blanks, holds, -, blank⟩ := spells
  exact (closed_flatMap_octets holds.sound).append (closed_of_blank blank)

/-- A start tag ends with something other than a slash. -/
theorem getLast?_ne_slash {discriminator tag : String} {attributes : OrderedMap String}
    {name : List Char} {rest : Octets} (qualifies : Qualifies tag name)
    (spells : SpellsAttributes discriminator attributes rest) :
    (encode name ++ rest).getLast? ≠ some slash := by
  obtain @⟨ws, blanks, holds, -, blank⟩ := spells
  rcases List.eq_nil_or_concat blanks with rfl | ⟨front, last, rfl⟩
  · rcases List.eq_nil_or_concat ws with rfl | ⟨ws, w, rfl⟩
    · intro isSlash
      rw [List.flatMap_nil, List.append_nil, List.append_nil] at isSlash
      have plain := qualifies.isMarkup_eq_false (List.mem_of_getLast? isSlash)
      exact absurd plain (by decide)
    · obtain ⟨front, ends⟩ : ∃ front, w.octets = front ++ [w.quote.octet] := ⟨_, rfl⟩
      rw [List.concat_eq_append, List.flatMap_append, List.flatMap_singleton, ends, List.append_nil,
        ← List.append_assoc, ← List.append_assoc, List.getLast?_concat]
      cases w.quote <;> decide
  · have isBlank : isBlank last := blank_of_all blank last (by simp)
    intro isSlash
    rw [List.concat_eq_append, ← List.append_assoc, ← List.append_assoc, List.getLast?_concat] at isSlash
    cases isSlash
    exact absurd isBlank (by decide)

/-! ## Documents -/

/-- The events of a document that stands within open elements of these names. -/
def readWithin (discriminator : String) (names : List Octets) (document : Octets) :
    List Event × Option MarkupFault :=
  eventsOfTokens discriminator (Token.scan document).2 names (Token.scan document).1

theorem events_eq (discriminator : String) (document : Octets) :
    events discriminator document = readWithin discriminator [] document := rfl

section Scan

variable {s rest after : Octets}

theorem scan_eq (document : Octets) :
    Token.scan document =
      match document.dropWhile (· ≠ lessThan) with
      | [] => ([], true)
      | _ :: rest =>
        match Token.afterLessThan? rest with
        | none => ([], false)
        | some (token, after) =>
          (token.toList ++ (Token.scan after).1, (Token.scan after).2) := by
  rw [Token.scan]
  split
  · next none => rw [none]
  · next found =>
    rw [found]
    dsimp only
    split
    · next none => rw [none]
    · next read => rw [read]

theorem scan_of_text (text : lessThan ∉ s) : Token.scan (s ++ rest) = Token.scan rest := by
  have skipped : (s ++ rest).dropWhile (· ≠ lessThan) = rest.dropWhile (· ≠ lessThan) :=
    List.dropWhile_append_of_pos fun b member => decide_eq_true fun same => text (same ▸ member)
  rw [scan_eq, skipped, ← scan_eq]

theorem scan_of_lessThan {token : Option Token}
    (read : Token.afterLessThan? rest = some (token, after)) :
    Token.scan (lessThan :: rest) =
      (token.toList ++ (Token.scan after).1, (Token.scan after).2) := by
  have here : (lessThan :: rest).dropWhile (· ≠ lessThan) = lessThan :: rest := by simp
  rw [scan_eq, here]
  simp only [read]

end Scan

/-- The part of a document has these events, whatever follows it and whatever elements are open. -/
def Reads (discriminator : String) (part : Octets) (es : List Event) : Prop :=
  ∀ names rest, readWithin discriminator names (part ++ rest) =
    (es ++ (readWithin discriminator names rest).1, (readWithin discriminator names rest).2)

theorem Reads.append {discriminator : String} {s t : Octets} {es es' : List Event}
    (reads : Reads discriminator s es) (reads' : Reads discriminator t es') :
    Reads discriminator (s ++ t) (es ++ es') := by
  intro names rest
  rw [List.append_assoc, reads, reads', List.append_assoc]

/-- A construct that is no tag has no events. -/
theorem reads_of_construct {discriminator : String} {o s mark : Octets}
    (read : ∀ rest, Token.afterLessThan? (o ++ (s ++ (mark ++ rest))) = some (none, rest)) :
    Reads discriminator (lessThan :: o ++ s ++ mark) [] := by
  intro names rest
  have scanned := scan_of_lessThan (read rest)
  rw [readWithin, List.append_assoc, List.append_assoc, List.cons_append, scanned]
  rfl

theorem reads_characterData {discriminator : String} {s : Octets}
    (absent : ¬ ofAscii "]]>" <:+: s) :
    Reads discriminator (ofAscii "<![CDATA[" ++ s ++ ofAscii "]]>") [] := by
  refine reads_of_construct (o := exclamation :: openBracket :: ofAscii "CDATA[") fun rest => ?_
  have none : ¬ ofAscii "]]>" <:+: ofAscii "CDATA[" ++ s :=
    not_infix_append (by decide +kernel) (by decide +kernel) absent
  have cut := cutAt?_append (by decide) none rest
  have opened : (ofAscii "CDATA[").isPrefixOf
      (ofAscii "CDATA[" ++ s ++ (ofAscii "]]>" ++ rest)) = true := by
    rw [List.isPrefixOf_iff_prefix, List.append_assoc]
    exact List.prefix_append _ _
  have unfolded : ∀ t, Token.afterLessThan? (exclamation :: openBracket :: t) =
      if (ofAscii "CDATA[").isPrefixOf t then
        (cutAt? (ofAscii "]]>") t).map fun (_, after) => (Option.none, after)
      else Option.none := fun _ => rfl
  rw [List.cons_append, List.cons_append, ← List.append_assoc, unfolded, if_pos opened, cut]
  rfl

theorem reads_comment {discriminator : String} {s : Octets} (absent : ¬ ofAscii "--" <:+: s) :
    Reads discriminator (ofAscii "<!--" ++ s ++ ofAscii "-->") [] := by
  refine reads_of_construct (o := [exclamation, hyphen, hyphen]) fun rest => ?_
  have none : ¬ ofAscii "-->" <:+: s := fun found =>
    absent ((List.prefix_append (ofAscii "--") (ofAscii ">")).isInfix.trans found)
  have cut := cutAt?_append (by decide) none rest
  exact congrArg (Option.map fun (_, after) => (Option.none, after)) cut

theorem reads_instruction {discriminator : String} {s : Octets}
    (notEmpty : s.head? ≠ some greaterThan) (absent : ¬ ofAscii "?>" <:+: s) :
    Reads discriminator (ofAscii "<?" ++ s ++ ofAscii "?>") [] := by
  refine reads_of_construct (o := [questionMark]) fun rest => ?_
  have cut := cutAt?_append (by decide) absent rest
  have head : (s ++ (ofAscii "?>" ++ rest)).head? ≠ some greaterThan := by
    cases s with
    | nil => exact fun same => absurd (Option.some.inj (same : some questionMark = _)) (by decide)
    | cons b s => exact notEmpty
  have unfolded : ∀ t, Token.afterLessThan? (questionMark :: t) =
      if t.head? = some greaterThan then Option.none
      else (cutAt? (ofAscii "?>") t).map fun (_, after) => (Option.none, after) := fun _ => rfl
  rw [List.singleton_append, unfolded, if_neg head, cut]
  rfl

/-- What stands between tags has no events. -/
theorem reads_filler {discriminator : String} {s : Octets} (filler : Filler s) :
    Reads discriminator s [] := by
  cases filler with
  | text text =>
    intro names rest
    rw [readWithin, scan_of_text text]
    rfl
  | characterData absent => exact reads_characterData absent
  | comment absent => exact reads_comment absent
  | instruction notEmpty absent => exact reads_instruction notEmpty absent

theorem afterLessThan?_start {b : UInt8} {content rest : Octets} (plain : isMarkup b = false)
    (closed : Closed (b :: content)) :
    Token.afterLessThan? (b :: content ++ greaterThan :: rest) =
      some (some (Token.ofStartTag (b :: content)), rest) := by
  have notSlash : b ≠ slash := ne_of_isMarkup plain (by decide)
  have notExclamation : b ≠ exclamation := ne_of_isMarkup plain (by decide)
  have notQuestion : b ≠ questionMark := ne_of_isMarkup plain (by decide)
  have cut := closed.cutTag?_eq rest
  rw [List.cons_append] at cut ⊢
  unfold Token.afterLessThan?
  split
  all_goals first
    | next same => exact absurd (List.cons.inj same).1 notExclamation
    | next same => exact absurd (List.cons.inj same).1 notQuestion
    | next same => exact absurd (List.cons.inj same).1 notSlash
    | rw [cut]; rfl

variable {discriminator tag : String} {attributes : OrderedMap String} {name : List Char}
  {rest : Octets}

/-- A start tag is cut out with what is in front of its bracket. -/
theorem scan_startTag (qualifies : Qualifies tag name)
    (spells : SpellsAttributes discriminator attributes rest) {ending : Octets}
    (closed : Closed ending) (more : Octets) :
    Token.scan (lessThan :: (encode name ++ rest ++ ending ++ greaterThan :: more)) =
      (Token.ofStartTag (encode name ++ rest ++ ending) :: (Token.scan more).1,
        (Token.scan more).2) := by
  obtain ⟨b, front, named⟩ := List.exists_cons_of_ne_nil qualifies.encode_ne_nil
  have plain : isMarkup b = false := qualifies.isMarkup_eq_false (named ▸ List.mem_cons_self)
  have closed : Closed (encode name ++ rest ++ ending) :=
    ((closed_of_isName fun _ => qualifies.isMarkup_eq_false).append spells.closed).append closed
  have read : Token.afterLessThan? (encode name ++ rest ++ ending ++ greaterThan :: more) =
      some (some (Token.ofStartTag (encode name ++ rest ++ ending)), more) := by
    rw [named, List.cons_append, List.cons_append] at closed ⊢
    exact afterLessThan?_start plain closed
  exact scan_of_lessThan read

/-- A start tag opens an element of its name. -/
theorem readWithin_opening (qualifies : Qualifies tag name)
    (spells : SpellsAttributes discriminator attributes rest) (names : List Octets)
    (more : Octets) :
    readWithin discriminator names (lessThan :: (encode name ++ rest ++ greaterThan :: more)) =
      (.opening tag attributes :: (readWithin discriminator (encode name :: names) more).1,
        (readWithin discriminator (encode name :: names) more).2) := by
  obtain ⟨isTag, event⟩ := startEvent_of_spells qualifies spells
  have token : Token.ofStartTag (encode name ++ rest) = .opening (encode name ++ rest) :=
    if_neg (getLast?_ne_slash qualifies spells)
  have scanned := scan_startTag qualifies spells closed_nil more
  rw [List.append_nil, token] at scanned
  rw [readWithin, scanned]
  simp only [eventsOfTokens, event, isTag]
  rfl

/-- A tag that closes itself has a start and an end. -/
theorem reads_empty (qualifies : Qualifies tag name)
    (spells : SpellsAttributes discriminator attributes rest) :
    Reads discriminator (lessThan :: (encode name ++ rest ++ [slash, greaterThan]))
      [.opening tag attributes, .closing] := by
  intro names more
  obtain ⟨-, event⟩ := startEvent_of_spells qualifies spells
  have token : Token.ofStartTag (encode name ++ rest ++ [slash]) =
      .selfClosing (encode name ++ rest) := by
    rw [Token.ofStartTag, if_pos (List.getLast?_concat ..), List.dropLast_concat]
  have closed : Closed [slash] := closed_of_plain (by decide +kernel)
  have scanned := scan_startTag qualifies spells closed more
  rw [token, List.append_assoc, List.singleton_append] at scanned
  rw [List.cons_append, List.append_assoc, List.cons_append, List.singleton_append, readWithin,
    scanned]
  simp only [eventsOfTokens, event]
  rfl

theorem endTagName_append {blanks : Octets} (some : encode name ≠ [])
    (plain : ∀ b ∈ encode name, isMarkup b = false) (blank : blanks.all isBlank) :
    endTagName (encode name ++ blanks) = encode name := by
  have notBlank : ∀ b ∈ encode name, isBlank b = false :=
    fun b member => isBlank_eq_false (plain b member)
  obtain ⟨b, front, named⟩ := List.exists_cons_of_ne_nil some
  have notAll : (encode name ++ blanks).all isBlank = false := by
    rw [named, List.cons_append, List.all_cons, notBlank b (named ▸ List.mem_cons_self),
      Bool.false_and]
  have trimmed := (span_append (l := blanks.reverse) (r := (encode name).reverse)
    (fun b member => blank_of_all blank b (List.mem_reverse.mp member))
    (fun b isHead => notBlank b (List.mem_reverse.mp (List.mem_of_head? isHead)))).2
  rw [endTagName, notAll, if_neg Bool.false_ne_true, List.reverse_append, trimmed,
    List.reverse_reverse]

/-- An end tag closes the innermost element if it has its name. -/
theorem readWithin_closing (qualifies : Qualifies tag name) {blanks : Octets}
    (blank : blanks.all isBlank) (names : List Octets) (more : Octets) :
    readWithin discriminator (encode name :: names)
        (lessThan :: slash :: (encode name ++ blanks ++ greaterThan :: more)) =
      (.closing :: (readWithin discriminator names more).1,
        (readWithin discriminator names more).2) := by
  have closed : Closed (encode name ++ blanks) :=
    (closed_of_isName fun _ => qualifies.isMarkup_eq_false).append (closed_of_blank blank)
  have read : Token.afterLessThan? (slash :: (encode name ++ blanks ++ greaterThan :: more)) =
      some (some (.closing (encode name ++ blanks)), more) := by
    have unfolded : ∀ t, Token.afterLessThan? (slash :: t) =
        (cutTag? none t).map fun (content, after) => (some (.closing content), after) := fun _ => rfl
    rw [unfolded, closed.cutTag?_eq]
    rfl
  have sameName := endTagName_append qualifies.encode_ne_nil
    (fun _ => qualifies.isMarkup_eq_false) blank
  rw [readWithin, scan_of_lessThan read]
  simp only [Option.toList_some, List.singleton_append, eventsOfTokens, sameName, if_true]
  rfl

/-- A part of a document has the events that it spells. -/
theorem Spells.reads {es : List Event} {document : Octets}
    (spells : Spells discriminator es document) : Reads discriminator document es := by
  induction spells with
  | filler filler => exact reads_filler filler
  | append _ _ ih ih' => exact ih.append ih'
  | empty qualifies spells => exact reads_empty qualifies spells
  | @element tag attributes name rest content blanks inner qualifies spells _ blank ih =>
    intro names more
    have shape : lessThan :: (encode name ++ rest ++ [greaterThan]) ++ content ++
          lessThan :: slash :: (encode name ++ blanks ++ [greaterThan]) ++ more =
        lessThan :: (encode name ++ rest ++ greaterThan :: (content ++
          lessThan :: slash :: (encode name ++ blanks ++ greaterThan :: more))) := by
      simp
    rw [shape, readWithin_opening qualifies spells, ih, readWithin_closing qualifies blank]
    simp

/-- Every document that spells events has exactly these, and no fault. So it builds what they
build, in whatever model. And every well-nested sequence of events is spelled by a document, if its
tags are names without a colon and its keys are names that are kept. -/
theorem events_of_spells (discriminator : String) :
    (∀ es document, Spells discriminator es document →
      events discriminator document = (es, none) ∧
        ∀ m : Model, m.readDocument discriminator document = m.build discriminator es none) ∧
      ∀ es, Balanced es → (∀ event ∈ es, Named discriminator event) →
        ∃ document, Spells discriminator es document := by
  refine ⟨fun es document spells => ?_, fun es balanced named => exists_spells balanced named⟩
  have read : events discriminator document = (es, none) := by
    have whole := spells.reads [] []
    have ended : readWithin discriminator [] [] = ([], none) := by
      rw [readWithin, scan_eq]
      rfl
    rw [List.append_nil, ended, List.append_nil] at whole
    exact (events_eq discriminator document).trans whole
  exact ⟨read, fun m => by rw [Model.readDocument, read]; rfl⟩

/-- A document with a declaration, and a tag with a prefix, an attribute that keeps books and an
entity in another one. -/
def shortDocument : Octets :=
  ofAscii "<?xml version='1.0'?><e:EPackage xmlns:e='u' name=\"a&#x3c;b\" />"

/-- The events of `shortDocument`. -/
def shortEvents : List Event := [.opening "EPackage" (.ofList [("name", "a<b")]), .closing]

/-- The attributes of `shortDocument`, as they are written. -/
def shortDeclaration : Written := ⟨[0x20], "xmlns:e", [], [], .single, ['u']⟩

def shortName : Written := ⟨[0x20], "name", [], [], .double, ['a', '&', '#', 'x', '3', 'c', ';', 'b']⟩

theorem holds_short : Holds "xsi:type" [shortDeclaration, shortName] [("name", "a<b")] := by
  have code : List.Forall₂ IsHexDigit [3, 12] ['3', 'c'] :=
    .cons ⟨by decide, .inl rfl⟩ (.cons ⟨by decide, .inl rfl⟩ .nil)
  have entity : Entity '<' ['#', 'x', '3', 'c'] :=
    .hexadecimal (by decide) (by decide) code (by decide)
  have value : Writes .double ['a', '<', 'b'] shortName.value :=
    .plain (by decide) (by decide) (by decide) <|
      .entity entity <| .plain (by decide) (by decide) (by decide) .nil
  have left : ¬ IsKept "xsi:type" "xmlns:e" := by unfold IsKept IsBookkeeping; decide +kernel
  have kept : IsKept "xsi:type" "name" := by unfold IsKept IsBookkeeping; decide +kernel
  exact .dropped ⟨List.cons_ne_nil _ _, rfl, rfl, rfl, by decide +kernel, by decide +kernel⟩ left <|
      .kept ⟨List.cons_ne_nil _ _, rfl, rfl, rfl, by decide +kernel, by decide +kernel⟩ kept value .nil

theorem spells_short : Spells "xsi:type" shortEvents shortDocument := by
  have blank : [(0x20 : UInt8)].all isBlank := rfl
  have attributes : SpellsAttributes "xsi:type" (.ofList [("name", "a<b")])
      ([shortDeclaration, shortName].flatMap Written.octets ++ [0x20]) :=
    .mk holds_short (by decide) blank
  have tag : Qualifies "EPackage" ("e".toList ++ ':' :: "EPackage".toList) :=
    .prefixed (by decide +kernel) (by decide +kernel)
  have declaration : Filler (ofAscii "<?" ++ ofAscii "xml version='1.0'" ++ ofAscii "?>") :=
    .instruction (by decide +kernel) (by decide +kernel)
  have spells := (Spells.filler declaration).append (.empty tag attributes)
  have same : shortDocument = ofAscii "<?" ++ ofAscii "xml version='1.0'" ++ ofAscii "?>" ++
      lessThan :: (encode ("e".toList ++ ':' :: "EPackage".toList) ++
        ([shortDeclaration, shortName].flatMap Written.octets ++ [0x20]) ++ [slash, greaterThan]) := by
    decide +kernel
  rw [same]
  exact spells

/-- The document is read as the events that it spells. -/
theorem events_of_spells_short :
    Spells "xsi:type" shortEvents shortDocument ∧
      events "xsi:type" shortDocument = (shortEvents, none) :=
  ⟨spells_short, ((events_of_spells "xsi:type").1 _ _ spells_short).1⟩

end Metamodel.Markup
