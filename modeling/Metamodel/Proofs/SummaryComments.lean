import Mathlib.Data.List.Forall2
import Metamodel.Proofs.Coverage
import Metamodel.Proofs.DeclarationText
import Metamodel.Proofs.Summaries

/-!
Summaries in generated code.

The summary of a declaration is written in front of it, behind the marks of a comment. A comment
ends where its line ends, so the summary is in the comment only as far as it is on one line. A name,
a namespace URI or a default value may have line feeds; what is behind the first of them is code.

Generation with and without summaries is compared step by step: both do the same computations, so
that they fail alike, and where they write a declaration the texts are the same but for comments. In
a module everything is indented line by line, and the comments come out as comments again because
each of them is one line.

Results:
1. `Commented.indent`: comments that are on one line are comments in a module.
2. `alike_moduleWithin`, `alike_generate`: with summaries, generation does what it does without
   them, and adds comments.
3. `summaries_in_comments`: which texts break a summary, and what generation adds if none does.
4. `summary_splits`: a namespace URI with a line feed.
-/

namespace Metamodel

/-! ## Computations that go alike -/

/-- Two computations give the same error, or results that are related. -/
inductive Alike {ε α β : Type} (R : α → β → Prop) : Except ε α → Except ε β → Prop
  | error (e : ε) : Alike R (.error e) (.error e)
  | ok {a : α} {b : β} : R a b → Alike R (.ok a) (.ok b)

namespace Alike

variable {ε α β γ δ : Type} {R : α → β → Prop} {S : γ → δ → Prop}

theorem refl (x : Except ε α) : Alike (· = ·) x x := by
  cases x with
  | error e => exact .error e
  | ok a => exact .ok rfl

theorem bind {x : Except ε α} {y : Except ε β} {f : α → Except ε γ} {g : β → Except ε δ}
    (first : Alike R x y) (second : ∀ a b, R a b → Alike S (f a) (g b)) :
    Alike S (x >>= f) (y >>= g) := by
  cases first with
  | error e => exact .error e
  | ok related => exact second _ _ related

theorem map {x : Except ε α} {y : Except ε β} {f : α → γ} {g : β → δ} (first : Alike R x y)
    (related : ∀ a b, R a b → S (f a) (g b)) : Alike S (f <$> x) (g <$> y) := by
  cases first with
  | error e => exact .error e
  | ok both => exact .ok (related _ _ both)

theorem of_ok {x : Except ε α} {b : β} (alike : Alike R x (.ok b)) : ∃ a, x = .ok a ∧ R a b := by
  cases alike with
  | ok related => exact ⟨_, rfl, related⟩

theorem mapM {ι : Type} {f : ι → Except ε α} {g : ι → Except ε β} {l : List ι}
    (each : ∀ i ∈ l, Alike R (f i) (g i)) : Alike (List.Forall₂ R) (l.mapM f) (l.mapM g) := by
  induction l with
  | nil => exact .ok .nil
  | cons i l ih =>
    rw [List.mapM_cons, List.mapM_cons]
    refine (each i List.mem_cons_self).bind fun a b first => ?_
    refine (ih fun j member => each j (List.mem_cons_of_mem i member)).bind fun as bs rest => ?_
    exact .ok (.cons first rest)

end Alike

namespace Generated

/-! ## Texts with comments in them -/

/-- A text of whole lines, and the same text with comments in it, each on a line of its own, that
show summaries of elements. -/
inductive Commented (m : Model) : String → String → Prop
  | empty : Commented m "" ""
  | code (text : String) {bare full : String} : Commented m bare full →
      Commented m (text ++ "\n" ++ bare) (text ++ "\n" ++ full)
  | comment (level : Nat) (id : ElementId) {bare full : String} : OneLine (m.summary id) →
      Commented m bare full → Commented m bare (line level ("// @model " ++ m.summary id) ++ full)

/-- No summary is shown, or that of an element, and it is on one line. -/
def ShowsSummary (m : Model) (summary : Option String) : Prop :=
  ∀ text ∈ summary, OneLine text ∧ ∃ id, text = m.summary id

namespace Commented

variable {m : Model} {bare bare' full full' : String} {bares fulls : List String}

protected theorem append (first : Commented m bare full) (second : Commented m bare' full') :
    Commented m (bare ++ bare') (full ++ full') := by
  induction first with
  | empty => simpa using second
  | code text _ ih =>
    have apart (rest rest' : String) : text ++ "\n" ++ rest ++ rest' =
        text ++ "\n" ++ (rest ++ rest') := String.append_assoc
    rw [apart, apart]
    exact .code text ih
  | comment level id whole _ ih =>
    rw [String.append_assoc]
    exact .comment level id whole ih

/-- A text that ends with a line, without comments in it. -/
theorem ended (text : String) : Commented m (text ++ "\n") (text ++ "\n") := by
  simpa using code text empty

theorem newline : Commented m "\n" "\n" := ended ""

protected theorem line (level : Nat) (text : String) :
    Commented m (line level text) (line level text) := ended _

theorem block_self (level : Nat) (opening : String) (content : List String) :
    Commented m (block level opening content) (block level opening content) := by
  have apart : block level opening content =
      line level (opening ++ " \x7b") ++ String.join content ++ (margin level ++ "\x7d") ++ "\n" :=
    String.append_assoc.symm
  rw [apart]
  exact ended _

theorem blockOrBraces_self (level : Nat) (opening : String) (content : List String) :
    Commented m (blockOrBraces level opening content) (blockOrBraces level opening content) := by
  unfold blockOrBraces
  split
  · exact .line level _
  · exact block_self level opening content

protected theorem join (each : List.Forall₂ (Commented m) bares fulls) :
    Commented m (String.join bares) (String.join fulls) := by
  induction each with
  | nil => exact empty
  | cons first _ ih =>
    rw [String.join_cons, String.join_cons]
    exact first.append ih

protected theorem block (level : Nat) (opening : String)
    (each : List.Forall₂ (Commented m) bares fulls) :
    Commented m (block level opening bares) (block level opening fulls) :=
  ((Commented.line level _).append (.join each)).append (.line level _)

protected theorem spaced (each : List.Forall₂ (Commented m) bares fulls) :
    List.Forall₂ (Commented m) (spaced bares) (spaced fulls) := by
  cases each with
  | nil => exact .nil
  | cons first rest =>
    rw [spaced_cons, spaced_cons]
    refine .cons first ?_
    rw [List.forall₂_map_left_iff, List.forall₂_map_right_iff]
    exact rest.imp fun _ _ part => newline.append part

/-- A declaration follows the comment with its summary. -/
theorem summaryLine {summary : Option String} (shows : ShowsSummary m summary) (level : Nat)
    (rest : Commented m bare full) :
    Commented m (summaryLine level none ++ bare) (summaryLine level summary ++ full) := by
  cases summary with
  | none => simpa [Generated.summaryLine] using rest
  | some text =>
    obtain ⟨whole, id, rfl⟩ := shows text rfl
    simpa [Generated.summaryLine] using Commented.comment level id whole rest

/-! ### One level deeper -/

theorem indent_self (text : String) : Commented m (indent text) (indent text) := by
  refine .join (List.forall₂_same.mpr fun part member => ?_)
  obtain ⟨l, -, rfl⟩ := List.mem_map.mp member
  split
  · exact newline
  · exact .line 1 l

theorem indent_append (first rest : String) :
    indent (first ++ "\n" ++ rest) = indent (first ++ "\n") ++ indent rest := by
  simp [indent, Text.lines_append]

theorem toList_margin (level : Nat) : (margin level).toList = List.replicate (4 * level) ' ' := by
  rw [margin, Data.Json.Layout.toList_pushn]
  rfl

theorem margin_append (level : Nat) : margin 1 ++ margin level = margin (level + 1) := by
  rw [← String.toList_inj, String.toList_append, toList_margin, toList_margin, toList_margin,
    List.replicate_append_replicate]
  congr 1
  omega

/-- A line one level deeper. -/
theorem indent_line {text : String} (some : text ≠ "") (whole : OneLine text) (level : Nat) :
    indent (line level text) = line (level + 1) text := by
  have wide : margin level ++ text ≠ "" := fun none => some (String.append_eq_empty_iff.mp none).2
  have noEnd : OneLine (margin level ++ text) := by
    intro c ends
    have notBlank : c ≠ ' ' := of_mem_lineEnds ends (by decide)
    rw [String.toList_append, toList_margin]
    simp [notBlank, whole c ends]
  have one : Text.lines (line level text) = [margin level ++ text] :=
    Text.lines_line (noEnd '\n' (by decide))
      fun last => noEnd '\r' (by decide) (List.mem_of_getLast? last)
  have deeper : line 1 (margin level ++ text) = line (level + 1) text := by
    simp only [line, ← margin_append level, String.append_assoc]
  simp [indent, one, wide, deeper]

/-- Comments are comments one level deeper. -/
protected theorem indent (commented : Commented m bare full) :
    Commented m (indent bare) (indent full) := by
  induction commented with
  | empty => exact indent_self ""
  | code text _ ih =>
    rw [indent_append, indent_append]
    exact (indent_self _).append ih
  | @comment level id bare full whole _ ih =>
    have single : OneLine ("// @model " ++ m.summary id) := by
      intro c ends
      rw [String.toList_append, List.mem_append]
      have mark : c ∉ "// @model ".toList := of_mem_lineEnds ends (by decide)
      exact not_or_intro mark (whole c ends)
    have some : "// @model " ++ m.summary id ≠ "" := by simp
    have apart : indent (line level ("// @model " ++ m.summary id) ++ full) =
        indent (line level ("// @model " ++ m.summary id)) ++ indent full := indent_append _ _
    rw [apart, indent_line some single]
    exact .comment (level + 1) id whole ih

end Commented

/-! ## Declarations -/

section Declarations

variable {m : Model} {summary : Option String}

theorem commented_enum (shows : ShowsSummary m summary) (name : String) (variants : List Variant) :
    Commented m (Enum.text ⟨name, none, variants⟩) (Enum.text ⟨name, summary, variants⟩) :=
  (((Commented.summaryLine shows 0 (.line 0 _)).append (.block_self 0 _ _)).append .newline).append
    (.block_self 0 _ _)

theorem commented_getter (shows : ShowsSummary m summary) (name returns : String) :
    Commented m (Trait.getterText ⟨none, name, returns⟩)
      (Trait.getterText ⟨summary, name, returns⟩) :=
  .summaryLine shows 1 (.line 1 _)

theorem commented_method (shows : ShowsSummary m summary) (name : String) (mutates : Bool)
    (parameters : List Typed) (returns : Option String) (origin : String) :
    Commented m (Trait.methodText ⟨none, name, mutates, parameters, returns, origin⟩)
      (Trait.methodText ⟨summary, name, mutates, parameters, returns, origin⟩) :=
  .summaryLine shows 1 (.block_self 1 _ _)

/-- Two getters of one name that are the same but for the summary. -/
structure SameGetter (m : Model) (bare full : Getter) : Prop where
  name : bare.name = full.name
  text : Commented m (Trait.getterText bare) (Trait.getterText full)

/-- Two methods that are the same but for the summary. -/
def SameMethod (m : Model) (bare full : Method) : Prop :=
  Commented m (Trait.methodText bare) (Trait.methodText full)

/-- Two items that are the same but for summaries. -/
def SameItem (m : Model) (bare full : Item) : Prop := Commented m bare.text full.text

theorem commented_trait (shows : ShowsSummary m summary) (name : String)
    (supertraits : List String) {getters getters' : List Getter} {methods methods' : List Method}
    (sameGetters : List.Forall₂ (SameGetter m) getters getters')
    (sameMethods : List.Forall₂ (SameMethod m) methods methods') :
    Commented m (Trait.text ⟨name, none, supertraits, getters, methods⟩)
      (Trait.text ⟨name, summary, supertraits, getters', methods'⟩) := by
  refine .summaryLine shows 0 (.block 0 _ (Commented.spaced (List.rel_append ?_ ?_)))
  · rw [List.forall₂_map_left_iff, List.forall₂_map_right_iff]
    exact sameGetters.imp fun _ _ => SameGetter.text
  · rwa [List.forall₂_map_left_iff, List.forall₂_map_right_iff]

theorem commented_struct (s : Struct) : Commented m s.text s.text := by
  refine .join (Commented.spaced (List.forall₂_same.mpr fun part member => ?_))
  rcases List.mem_append.mp member with own | ofTrait
  · simp only [List.mem_cons, List.not_mem_nil, or_false] at own
    rcases own with rfl | rfl | rfl
    · exact .blockOrBraces_self 0 _ _
    · exact .block_self 0 _ _
    · exact .block_self 0 _ _
  · obtain ⟨t, -, rfl⟩ := List.mem_map.mp ofTrait
    exact .blockOrBraces_self 0 _ _

/-- Two modules that are the same but for summaries. -/
structure SameModule (m : Model) (bare full : Module) : Prop where
  text : Commented m bare.text full.text
  typeCount : bare.typeCount = full.typeCount

theorem commented_preamble : Commented m preamble preamble :=
  ((((Commented.line 0 _).append .newline).append (.line 0 _)).append (.line 0 _)).append
    (.line 0 _)

/-- The members of a package that are modules, on both sides. -/
theorem commented_nested {bares fulls : List (Option Module)}
    (each : List.Forall₂ (Option.Rel (SameModule m)) bares fulls) :
    Commented m (nestedText bares) (nestedText fulls) ∧ typeCounts bares = typeCounts fulls := by
  induction each with
  | nil => exact ⟨.empty, rfl⟩
  | cons first _ ih =>
    cases first with
    | none => exact ⟨.append .newline ih.1, ih.2⟩
    | some same =>
      exact ⟨.append (.append .newline same.text) ih.1, by
        rw [typeCounts, typeCounts, same.typeCount, ih.2]⟩

theorem SameModule.of_nested {name : String} {items items' : List Item}
    {nested nested' : List (Option Module)}
    (shows : ShowsSummary m summary)
    (sameItems : List.Forall₂ (SameItem m) items items')
    (sameNested : List.Forall₂ (Option.Rel (SameModule m)) nested nested') :
    SameModule m ⟨name, none, items, nested⟩ ⟨name, summary, items', nested'⟩ := by
  obtain ⟨inner, counts⟩ := commented_nested sameNested
  have texts : List.Forall₂ (Commented m) (items.map fun item => "\n" ++ item.text)
      (items'.map fun item => "\n" ++ item.text) := by
    rw [List.forall₂_map_left_iff, List.forall₂_map_right_iff]
    exact sameItems.imp fun _ _ => .append .newline
  have body := (commented_preamble.append (.join texts)).append inner
  constructor
  · rw [Module.text, Module.text]
    exact .summaryLine shows 0 (.block 0 _ (.cons (body.indent) .nil))
  · rw [Module.typeCount, Module.typeCount, sameItems.length_eq, counts]

/-- Two modules that are the same but for summaries, whatever is nested in them. -/
def SameAround (m : Model) (bare full : Module) : Prop :=
  ∀ {nested nested' : List (Option Module)},
    List.Forall₂ (Option.Rel (SameModule m)) nested nested' →
      SameModule m { bare with nested := nested } { full with nested := nested' }

end Declarations

end Generated

open Generated

/-! ## Generation -/

/-- The settings without summaries. -/
def GenerationSettings.silent (settings : GenerationSettings) : GenerationSettings :=
  { settings with emit := { settings.emit with summaries := false } }

namespace Scope

/-- The scope without summaries. -/
def silent (s : Scope) : Scope := { s with settings := s.settings.silent }

variable {s : Scope}

theorem silent_summary? (id : ElementId) : s.silent.summary? id = none := rfl

theorem silent_fieldType (feature : ElementId) : s.silent.fieldType feature = s.fieldType feature :=
  rfl

theorem silent_designation (id : ElementId) : s.silent.designation id = s.designation id := rfl

theorem silent_model : s.silent.model = s.model := rfl

theorem silent_methodName (operation : ElementId) (returns : Designation) :
    s.silent.methodName operation returns = s.methodName operation returns := rfl

theorem silent_parameter : s.silent.parameter = s.parameter := rfl

theorem silent_structItem (id : ElementId) : s.silent.structItem id = s.structItem id := rfl

theorem alike_structItemsWithin (depth : Nat) (id : ElementId) :
    Alike (List.Forall₂ (SameItem s.model)) (s.silent.structItemsWithin depth id)
      (s.structItemsWithin depth id) := by
  induction depth generalizing id with
  | zero => exact .ok .nil
  | succ depth ih =>
    unfold structItemsWithin
    rw [silent_model]
    split
    · rw [silent_structItem]
      split
      · refine (Alike.refl _).bind fun struct struct' same => ?_
        subst same
        exact .ok (.cons (commented_struct struct) .nil)
      · exact .ok .nil
    · exact (Alike.mapM fun cls _ => ih cls).bind fun items items' same =>
        .ok (List.rel_flatten same)
    · exact .ok .nil

variable (unbroken : s.model.Unbroken)

include unbroken

theorem showsSummary (id : ElementId) : ShowsSummary s.model (s.summary? id) := by
  unfold summary?
  split
  · rintro _ ⟨⟩
    exact ⟨unbroken.oneLine id, id, rfl⟩
  · rintro _ ⟨⟩

theorem alike_getter (feature : ElementId) :
    Alike (SameGetter s.model) (s.silent.getter feature) (s.getter feature) := by
  unfold getter
  rw [silent_fieldType, silent_summary?]
  refine (Alike.refl _).bind fun type type' same => ?_
  subst same
  exact .ok ⟨rfl, commented_getter (showsSummary unbroken feature) _ _⟩

theorem alike_method (cls operation : ElementId) (returns : Designation) :
    Alike (SameMethod s.model)
      (s.silent.method cls operation returns) (s.method cls operation returns) := by
  unfold method
  rw [silent_parameter, silent_summary?]
  refine (Alike.refl _).bind fun parameters parameters' same => ?_
  subst same
  exact .ok (commented_method (showsSummary unbroken operation) _ _ _ _ _)

theorem alike_methods (cls : ElementId) (taken : List String) (operations : List ElementId) :
    Alike (List.Forall₂ (SameMethod s.model))
      (s.silent.methods cls taken operations) (s.methods cls taken operations) := by
  induction operations generalizing taken with
  | nil => exact .ok .nil
  | cons operation rest ih =>
    unfold methods
    rw [silent_designation]
    refine (Alike.refl _).bind fun returns returns' same => ?_
    subst same
    rw [silent_methodName]
    dsimp only
    split
    · exact ih taken
    · refine (alike_method unbroken cls operation returns).bind fun method method' first => ?_
      refine (ih _).bind fun methods methods' others => ?_
      exact .ok (.cons first others)

theorem alike_traitItem (cls : ElementId) :
    Alike (fun t t' => SameItem s.model (.trait t) (.trait t')) (s.silent.traitItem cls)
      (s.traitItem cls) := by
  unfold traitItem
  refine (Alike.mapM fun feature _ => alike_getter unbroken feature).bind
    fun getters getters' sameGetters => ?_
  have names : getters.map (·.name) = getters'.map (·.name) := by
    induction sameGetters with
    | nil => rfl
    | cons first _ ih => rw [List.map_cons, List.map_cons, first.name, ih]
  rw [names]
  refine (alike_methods unbroken cls _ _).bind fun methods methods' sameMethods => ?_
  exact .ok (commented_trait (showsSummary unbroken cls) _ _ sameGetters sameMethods)

theorem alike_interfaceItemsWithin (depth : Nat) (id : ElementId) :
    Alike (List.Forall₂ (SameItem s.model)) (s.silent.interfaceItemsWithin depth id)
      (s.interfaceItemsWithin depth id) := by
  induction depth generalizing id with
  | zero => exact .ok .nil
  | succ depth ih =>
    unfold interfaceItemsWithin
    rw [silent_model]
    split
    · exact .ok (.cons (commented_enum (showsSummary unbroken id) _ _) .nil)
    · exact (alike_traitItem unbroken id).bind fun t t' same => .ok (.cons same .nil)
    · exact (Alike.mapM fun member _ => ih member).bind fun items items' same =>
        .ok (List.rel_flatten same)
    · exact .ok .nil

theorem alike_items (package : ElementId) :
    Alike (List.Forall₂ (SameItem s.model)) (s.silent.items package) (s.items package) := by
  have interfaces : Alike (List.Forall₂ (SameItem s.model)) (s.silent.interfaceItems package)
      (s.interfaceItems package) := alike_interfaceItemsWithin unbroken s.model.size package
  have structs : Alike (List.Forall₂ (SameItem s.model)) (s.silent.structItems package)
      (s.structItems package) := alike_structItemsWithin s.model.size package
  have emit : s.silent.settings.emit.interfaces = s.settings.emit.interfaces ∧
      s.silent.settings.emit.implementations = s.settings.emit.implementations := ⟨rfl, rfl⟩
  unfold items
  rw [emit.1, emit.2]
  dsimp only
  split <;> split
  · exact interfaces.bind fun _ _ first => structs.bind fun _ _ second =>
      .ok (List.rel_append first second)
  · exact interfaces.bind fun _ _ first => .ok (List.rel_append first .nil)
  · exact structs.bind fun _ _ second => .ok second
  · exact .ok .nil

theorem alike_ownModule (package : ElementId) :
    Alike (SameAround s.model) (s.silent.ownModule package) (s.ownModule package) :=
  (alike_items unbroken package).bind fun _ _ same =>
    .ok fun inner => .of_nested (showsSummary unbroken package) same inner

end Scope

namespace Model

variable {m : Model} {settings : GenerationSettings}

theorem alike_moduleWithin (unbroken : m.Unbroken) (depth : Nat) (package : ElementId) :
    Alike (SameModule m) (m.moduleWithin settings.silent depth package)
      (m.moduleWithin settings depth package) := by
  induction depth generalizing package with
  | zero =>
    have items := Scope.alike_items (s := ⟨m, settings, some package⟩) unbroken package
    have shows := Scope.showsSummary (s := ⟨m, settings, some package⟩) unbroken package
    exact items.bind fun _ _ same => .ok (.of_nested shows same .nil)
  | succ depth ih =>
    have own := Scope.alike_ownModule (s := ⟨m, settings, some package⟩) unbroken package
    refine own.bind fun bare full same => ?_
    refine Alike.bind (.mapM fun member _ => ?_) fun _ _ inner => .ok (same inner)
    split
    · exact (ih member).map fun _ _ => .some
    · exact .ok .none

/-- Code that is generated with summaries is that without them, with comments in it. -/
theorem alike_generate (unbroken : m.Unbroken) (settings : GenerationSettings) (root : ElementId) :
    Alike (fun bare full => Commented m bare.code full.code ∧ bare.typeCount = full.typeCount)
      (m.generate settings.silent root) (m.generate settings root) := by
  refine (Alike.refl (m.require root)).bind fun e e' same => ?_
  subst same
  refine (Alike.refl _).bind fun _ _ _ => ?_
  refine (Alike.refl _).bind fun _ _ _ => ?_
  refine (alike_moduleWithin unbroken m.size root).bind fun bare full same => ?_
  exact .ok ⟨((Commented.line 0 _).append .newline).append same.text, same.typeCount⟩

/-- A summary has a line feed or a carriage return exactly if one of the texts that it shows has it.
If none of the texts has one, generation with summaries fails as it does without them, or it gives
the same code with comments in it, each of which is one line. -/
theorem summaries_in_comments (m : Model) :
    (∀ id, ∀ c ∈ lineEnds, c ∈ (m.summary id).toList ↔ Shows c (m.shownTexts id)) ∧
      (m.Unbroken → ∀ settings root,
        Alike
          (fun bare full => Commented m bare.code full.code ∧ bare.typeCount = full.typeCount)
          (m.generate settings.silent root) (m.generate settings root)) :=
  ⟨fun _ _ ends => mem_summary ends, alike_generate⟩

/-- A document with a package that has a namespace URI. -/
def signDocument (uri : String) : List Event :=
  [.opening "EPackage" (.ofList [("name", "signs"), ("nsURI", uri)]),
    .opening "eEnums" (.ofList [("name", "Sign")]),
    .opening "eLiterals" (.ofList [("name", "plus")]), .closing,
    .closing, .closing]

/-- The model of the document. -/
def signs (uri : String) : Model :=
  (({} : Model).build "xsi:type" (signDocument uri) none).toOption.elim {} Prod.fst

/-- The model of the document after a round over its root. -/
def settledSigns (uri : String) : Model :=
  ((signs uri).resolveAll [⟨0⟩]).toOption.elim {} Prod.fst

/-- The code for a package whose namespace URI is on one line. -/
theorem summaries_in_comments_signs :
    let m := settledSigns "urn:signs"
    m.Unbroken ∧ m.summary ⟨0⟩ = "EPackage[signs] (ns_uri='urn:signs')" ∧
      ∃ bare full, m.generate (GenerationSettings.silent {}) ⟨0⟩ = .ok bare ∧
        m.generate {} ⟨0⟩ = .ok full ∧ Commented m bare.code full.code := by
  intro m
  obtain ⟨unbroken, summary, succeeds⟩ : m.Unbroken ∧
      m.summary ⟨0⟩ = "EPackage[signs] (ns_uri='urn:signs')" ∧
      (m.generate {} ⟨0⟩).toOption.isSome := by decide +kernel
  obtain ⟨full, found⟩ := Option.isSome_iff_exists.mp succeeds
  have done := toOption_eq_some_iff.mp found
  have alike := (summaries_in_comments m).2 unbroken {} ⟨0⟩
  rw [done] at alike
  obtain ⟨bare, doneBare, commented, -⟩ := alike.of_ok
  exact ⟨unbroken, summary, bare, full, doneBare, done, commented⟩

/-- A namespace URI with a line feed. -/
def splitUri : String := "urn:signs\nuse extra::*; //"

/-- A file begins with the summary of its package. -/
theorem fileText_eq (name text : String) (items : List Item) (nested : List (Option Module)) :
    ∃ rest, fileText ⟨name, some text, items, nested⟩ =
      "//! Generated from Ecore models - DO NOT EDIT\n\n// @model " ++ text ++ "\n" ++ rest := by
  have outer (text : String) : line 0 text = text ++ "\n" := by
    rw [← String.toList_inj, line, String.toList_append, String.toList_append,
      Commented.toList_margin, String.toList_append]
    rfl
  obtain ⟨rest, written⟩ : ∃ rest,
      Module.text ⟨name, some text, items, nested⟩ = line 0 ("// @model " ++ text) ++ rest :=
    ⟨_, by rw [Module.text]; rfl⟩
  have head : "//! Generated from Ecore models - DO NOT EDIT\n\n// @model " =
      "//! Generated from Ecore models - DO NOT EDIT" ++ "\n" ++ "\n" ++ "// @model " := by decide
  exact ⟨rest, by simp only [fileText, written, outer, head, String.append_assoc]⟩

/-- What is behind the line feed in a namespace URI stands on a line of its own in the code. -/
theorem summary_splits :
    ∃ built m total code rest,
      ({} : Model).build "xsi:type" (signDocument splitUri) none = .ok (built, ⟨0⟩) ∧
      built.resolveAll [⟨0⟩] = .ok (m, total) ∧ '\n' ∈ (m.summary ⟨0⟩).toList ∧
      m.generate {} ⟨0⟩ = .ok code ∧
      code.code = "//! Generated from Ecore models - DO NOT EDIT\n\n// @model " ++
        "EPackage[signs] (ns_uri='urn:signs\nuse extra::*; //')" ++ "\n" ++ rest := by
  have built : ({} : Model).build "xsi:type" (signDocument splitUri) none =
      .ok (signs splitUri, ⟨0⟩) := rfl
  obtain ⟨settles, resolved, breaks, declares⟩ :
      ((signs splitUri).resolveAll [⟨0⟩]).toOption.isSome ∧
      (settledSigns splitUri).isResolved ⟨0⟩ ∧
      '\n' ∈ ((settledSigns splitUri).summary ⟨0⟩).toList ∧
      ((settledSigns splitUri).module {} ⟨0⟩).toOption.map (·.summary) =
        some (some "EPackage[signs] (ns_uri='urn:signs\nuse extra::*; //')") := by
    decide +kernel
  obtain ⟨⟨m, total⟩, found⟩ := Option.isSome_iff_exists.mp settles
  have same : settledSigns splitUri = m := by rw [settledSigns, found]; rfl
  rw [same] at resolved breaks declares
  obtain ⟨⟨name, summary, items, nested⟩, made, shown⟩ := Option.map_eq_some_iff.mp declares
  obtain rfl : summary = _ := shown
  have done := (generate_ok_iff resolved).mpr ⟨_, toOption_eq_some_iff.mp made, rfl⟩
  obtain ⟨rest, shape⟩ := fileText_eq name _ items nested
  exact ⟨_, m, total, _, rest, built, toOption_eq_some_iff.mp found, breaks, done, shape⟩

end Model

end Metamodel
