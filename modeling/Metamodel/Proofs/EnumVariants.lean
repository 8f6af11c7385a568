import Metamodel.Generation.Trait
import Metamodel.Proofs.DeclarationText
import Metamodel.Proofs.DeclaredNames
import Metamodel.Proofs.Ownership

/-!
The variants of an enum.

Each literal of an enum gets a variant. It is named after the literal, with a number behind it if an
earlier variant has that name. A later literal may well be named like an earlier one with a number;
then it is the later one that gives way. So names depend only on what stands before them, and the
value that a field begins with can be read off the declaration of its enum.

Results:
1. `searches_freshName`: looking for a free name comes to an end.
2. `searches_of_split`: how the name of a variant is found.
3. `exists_enumVariants_add`: a literal that is added at the end leaves the variants before it.
4. `variantOf?_eq_none_iff`, `exists_variantOf?`: the variant that a text stands for.
5. `text_enumItem`: the lines in which an enum declares its variants.
6. `variants_and_defaults`: the variants of an enum, as they are written, and what the fields of its
   type begin with.
-/

namespace Metamodel

namespace Identifier

/-! ## Free names -/

/-- The search for a name that is not taken, begun with `name`: as long as the name at hand is
taken, the next one is `base` with the number `n` behind it, and `n` goes up. Every search of this
kind is finite. -/
inductive Searches (taken : List String) (base : String) : Nat → String → String → Prop
  | free {n : Nat} {name : String} : name ∉ taken → Searches taken base n name name
  | next {n : Nat} {name found : String} : name ∈ taken →
      Searches taken base (n + 1) (base ++ toString n) found → Searches taken base n name found

theorem Searches.eq_of_free {taken : List String} {base name found : String} {n : Nat}
    (searches : Searches taken base n name found) (free : name ∉ taken) : found = name := by
  cases searches with
  | free => rfl
  | next used => exact absurd used free

/-- A search only asks which names are taken, not in which order. -/
theorem Searches.congr {taken taken' : List String} {base name found : String} {n : Nat}
    (same : ∀ other, other ∈ taken ↔ other ∈ taken')
    (searches : Searches taken base n name found) : Searches taken' base n name found := by
  induction searches with
  | free isFree => exact .free fun used => isFree ((same _).mpr used)
  | next used _ ih => exact .next ((same _).mp used) ih

/-- The first free name among `name` and some numbered ones is found by a search. -/
theorem searches_of_find? {taken : List String} {base found : String} (count n : Nat)
    (name : String)
    (first : (name :: (List.range' n count).map fun k => base ++ toString k).find?
      (fun other => !taken.contains other) = some found) :
    Searches taken base n name found := by
  induction count generalizing n name with
  | zero =>
    rw [List.range'_zero, List.map_nil, List.find?_singleton] at first
    split at first
    · next isFree =>
      cases first
      exact .free (by simpa using isFree)
    · cases first
  | succ count ih =>
    rw [List.find?_cons] at first
    split at first
    · next isFree =>
      cases first
      exact .free (by simpa using isFree)
    · next used =>
      rw [List.range'_succ, List.map_cons] at first
      exact .next (by simpa using used) (ih (n + 1) _ first)

theorem searches_freshName (taken : List String) (base : String) :
    Searches taken base 2 base (freshName taken base) := by
  have numbered : (List.range taken.length).map (fun i => base ++ toString (i + 2)) =
      (List.range' 2 taken.length).map fun k => base ++ toString k := by
    rw [List.range'_eq_map_range, List.map_map]
    exact List.map_congr_left fun i _ => by rw [Function.comp_apply, Nat.add_comm]
  have free := freshName_not_mem taken base
  unfold freshName nameCandidates at free ⊢
  rw [numbered] at free ⊢
  cases found : (base :: (List.range' 2 taken.length).map fun k => base ++ toString k).find?
    fun name => !taken.contains name with
  | some name => exact searches_of_find? _ _ _ found
  | none =>
    rw [found] at free
    exact .free free

theorem freshNames_append (taken first second : List String) :
    freshNames taken (first ++ second) =
      freshNames taken first ++ freshNames ((freshNames taken first).reverse ++ taken) second := by
  induction first generalizing taken with
  | nil => rfl
  | cons base rest ih =>
    simp only [List.cons_append, freshNames, ih, List.reverse_cons, List.append_assoc,
      List.nil_append]

end Identifier

namespace Model

open Identifier

variable {m m' : Model} {enum literal : ElementId} {text : String}

/-! ## Variants -/

theorem literals_eq_members (m : Model) (enum : ElementId) :
    (m.enum? enum).elim [] (·.literals) = m.members .literals enum := by
  unfold enum? body? members
  cases m.get? enum with
  | none => rfl
  | some e =>
    obtain ⟨_, _, _, _, body⟩ := e
    cases body <;> rfl

/-- The names of the variants for a list of literals. -/
def variantNames (m : Model) (literals : List ElementId) : List String :=
  freshNames [] (literals.map fun l => pascalCase (m.label l))

theorem length_variantNames (m : Model) (literals : List ElementId) :
    (m.variantNames literals).length = literals.length := by
  rw [variantNames, length_freshNames, List.length_map]

theorem variantNames_append (m : Model) (first second : List ElementId) :
    m.variantNames (first ++ second) = m.variantNames first ++
      freshNames (m.variantNames first).reverse (second.map fun l => pascalCase (m.label l)) := by
  unfold variantNames
  rw [List.map_append, freshNames_append, List.append_nil]

theorem enumVariants_eq (m : Model) (enum : ElementId) :
    m.enumVariants enum =
      (m.members .literals enum).zip (m.variantNames (m.members .literals enum)) := by
  unfold enumVariants variantNames
  rw [literals_eq_members]

theorem map_fst_enumVariants (m : Model) (enum : ElementId) :
    (m.enumVariants enum).map Prod.fst = m.members .literals enum := by
  rw [enumVariants_eq, List.map_fst_zip (Nat.le_of_eq (length_variantNames m _).symm)]

theorem map_snd_enumVariants (m : Model) (enum : ElementId) :
    (m.enumVariants enum).map Prod.snd = m.variantNames (m.members .literals enum) := by
  rw [enumVariants_eq, List.map_snd_zip (Nat.le_of_eq (length_variantNames m _))]

theorem nodup_map_snd_enumVariants (m : Model) (enum : ElementId) :
    ((m.enumVariants enum).map Prod.snd).Nodup := by
  rw [map_snd_enumVariants]
  exact nodup_freshNames _ _

/-- The name of a variant is found by a search that begins with the name of the literal, and the
names of the variants before it are what is taken. -/
theorem searches_of_split {before after : List (ElementId × String)} {name : String}
    (split : m.enumVariants enum = before ++ (literal, name) :: after) :
    Searches (before.map Prod.snd) (pascalCase (m.label literal)) 2 (pascalCase (m.label literal))
      name := by
  have literals : m.members .literals enum =
      before.map Prod.fst ++ literal :: after.map Prod.fst := by
    rw [← map_fst_enumVariants, split, List.map_append, List.map_cons]
  have names := map_snd_enumVariants m enum
  rw [split, literals, variantNames_append, List.map_append, List.map_cons] at names
  have aligned : (before.map Prod.snd).length =
      (m.variantNames (before.map Prod.fst)).length := by
    rw [length_variantNames, List.length_map, List.length_map]
  obtain ⟨earlier, later⟩ := List.append_inj names aligned
  rw [← earlier, List.map_cons, freshNames] at later
  obtain ⟨here, -⟩ := List.cons.inj later
  have searches := searches_freshName (before.map Prod.snd).reverse (pascalCase (m.label literal))
  rw [← here] at searches
  exact searches.congr fun other => List.mem_reverse

/-! ## Additions -/

theorem variantNames_attach {slot : Slot} {owner member : ElementId} {container content : Element}
    (held : m.get? owner = some container) (free : m.get? member = some content)
    (ne : owner ≠ member) (literals : List ElementId) :
    (m.attach slot owner member).variantNames literals = m.variantNames literals := by
  unfold variantNames
  simp only [label_attach held free ne]

theorem exists_enumVariants_add (added : m.add .literals enum literal = .ok m') :
    ∃ name, m'.enumVariants enum = m.enumVariants enum ++ [(literal, name)] := by
  obtain ⟨container, content, held, free, on, -, ne, -, newName, rfl⟩ := add_ok_iff.mp added
  have members : (m.attach .literals enum literal).members .literals enum =
      m.members .literals enum ++ [literal] := by
    rw [members_attach held free ne on newName, if_pos ⟨rfl, rfl⟩]
    rfl
  refine ⟨freshName (m.variantNames (m.members .literals enum)).reverse
    (pascalCase (m.label literal)), ?_⟩
  rw [enumVariants_eq, members, variantNames_attach held free ne, variantNames_append,
    List.zip_append (length_variantNames m _).symm, enumVariants_eq]
  rfl

/-! ## Default values -/

/-- The text is the name of the literal or stands for it. -/
def Calls (m : Model) (text : String) (literal : ElementId) : Prop :=
  m.label literal = text ∨ m.literalText literal = text

instance (m : Model) (text : String) (literal : ElementId) : Decidable (m.Calls text literal) := by
  unfold Calls
  infer_instance

theorem variantOf?_eq_none_iff :
    m.variantOf? enum text = none ↔ ∀ l ∈ m.members .literals enum, ¬ m.Calls text l := by
  unfold variantOf?
  rw [Option.map_eq_none_iff, List.find?_eq_none, ← map_fst_enumVariants, List.forall_mem_map]
  simp only [Bool.or_eq_true, decide_eq_true_eq, Calls]

/-- The text stands for the variant of the first literal that it calls, which the enum declares in
the place of the literal. -/
theorem exists_variantOf? {before after : List ElementId}
    (split : m.members .literals enum = before ++ literal :: after)
    (calls : m.Calls text literal) (first : ∀ l ∈ before, ¬ m.Calls text l) :
    ∃ name, (m.enumVariants enum)[before.length]? = some (literal, name) ∧
      m.variantOf? enum text = some name := by
  rw [← map_fst_enumVariants, List.map_eq_append_iff] at split
  obtain ⟨earlier, later, split, rfl, here⟩ := split
  obtain ⟨⟨_, name⟩, rest, rfl, rfl, -⟩ := List.map_eq_cons_iff.mp here
  refine ⟨name, by simp [split], ?_⟩
  unfold variantOf?
  rw [split, Option.map_eq_some_iff]
  refine ⟨(_, name), List.find?_eq_some_iff_append.mpr ⟨?_, earlier, rest, rfl, ?_⟩, rfl⟩
  · simpa [Calls] using calls
  · intro v member
    simpa [Calls] using first v.1 (List.mem_map_of_mem member)

/-! ## Numbers -/

/-- The number that stands for a literal. -/
def literalValue (m : Model) (literal : ElementId) : Int32 :=
  ((m.body? literal).bind Body.enumLiteral?).elim 0 (·.value)

end Model

namespace Scope

open Model Identifier Generated

theorem ofClassifier_enum {s : Scope} {classifier enum : ElementId} {path : String}
    (known : s.ofClassifier classifier = .enum path enum) : path = s.path enum := by
  unfold ofClassifier at known
  split at known
  · cases known
    rfl
  · split at known <;> cases known
  · split at known <;> cases known
  · cases known

theorem designationOf_enum {s : Scope} {kind : Kind} {many : Bool} {target : Option ElementId}
    {enum : ElementId} {path : String}
    (known : s.designationOf kind many target = .enum path enum) : path = s.path enum := by
  unfold designationOf at known
  split at known
  · split at known
    · cases known
    · split at known <;> cases known
  · split at known
    · cases known
    · split at known
      · cases known
      · exact ofClassifier_enum known

/-- What is typed by an enum shows its path. -/
theorem path_of_designation {s : Scope} {id enum : ElementId} {path : String}
    (typed : s.designation id = .ok (.enum path enum)) : path = s.path enum := by
  unfold designation at typed
  split at typed
  · cases typed
  · split at typed
    · cases typed
    · obtain ⟨target, -, known⟩ := map_ok_iff.mp typed
      exact designationOf_enum known

/-! ## The text of an enum -/

/-- A method of an enum with an expression for each variant, which depends on the literal that the
variant is for. -/
def tableText (s : Scope) (enum : ElementId) (head : String) (expression : ElementId → String) :
    String :=
  block 1 head
    [if s.model.enumVariants enum = [] then line 2 "match *self \x7b\x7d"
      else block 2 "match self" ((s.model.enumVariants enum).map fun v =>
        line 3 ("Self::" ++ v.2 ++ " => " ++ expression v.1 ++ ","))]

/-- The text of an enum by its literals and their variants. -/
theorem text_enumItem (s : Scope) (enum : ElementId) :
    (s.enumItem enum).text = (s.enumItem enum).headText ++
      block 0 ("pub enum " ++ s.model.label enum)
        ((if s.model.enumVariants enum = [] then [] else [line 1 "#[default]"]) ++
          (s.model.enumVariants enum).map fun v => line 1 (v.2 ++ ",")) ++
      "\n" ++
      block 0 ("impl " ++ s.model.label enum)
        [s.tableText enum "pub fn literal(&self) -> &'static str" fun literal =>
            Text.literal (s.model.literalText literal),
          "\n",
          s.tableText enum "pub fn value(&self) -> i32" fun literal =>
            toString (s.model.literalValue literal).toInt] := by
  rw [Enum.text_eq]
  simp only [enumItem, Enum.tableMethod, tableText, List.isEmpty_iff, List.map_eq_nil_iff,
    List.map_map]
  rfl

theorem enumItem_variant {s : Scope} {enum literal : ElementId} {name : String} {i : Nat}
    (there : (s.model.enumVariants enum)[i]? = some (literal, name)) :
    ∃ variant, (s.enumItem enum).variants[i]? = some variant ∧ variant.name = name ∧
      variant.literal = s.model.literalText literal := by
  unfold enumItem
  rw [List.getElem?_map, there]
  exact ⟨_, rfl, rfl, rfl⟩

/-- An enum has a variant for each of its literals, in order and with names of their own. A variant
has the name of its literal unless an earlier one took it, and then the first free one with a
number; it keeps it when literals are added. The text of the enum declares the variants line by
line, in order, and its methods have a line for each of them again. A field of the type of the enum
begins with the variant that is declared for the first literal that the default value calls, and
with none exactly if there is no such literal. -/
theorem variants_and_defaults (s : Scope) (enum : ElementId) :
    (s.model.enumVariants enum).map Prod.fst = s.model.members .literals enum ∧
      (s.model.SlotsSound → ((s.model.enumVariants enum).map Prod.fst).Nodup) ∧
      ((s.model.enumVariants enum).map Prod.snd).Nodup ∧
      (∀ before literal name after,
        s.model.enumVariants enum = before ++ (literal, name) :: after →
          Searches (before.map Prod.snd) (pascalCase (s.model.label literal)) 2
              (pascalCase (s.model.label literal)) name ∧
            (pascalCase (s.model.label literal) ∉ before.map Prod.snd →
              name = pascalCase (s.model.label literal))) ∧
      (∀ literal m', s.model.add .literals enum literal = .ok m' →
        ∃ name, m'.enumVariants enum = s.model.enumVariants enum ++ [(literal, name)]) ∧
      (s.enumItem enum).text = (s.enumItem enum).headText ++
        block 0 ("pub enum " ++ s.model.label enum)
          ((if s.model.enumVariants enum = [] then [] else [line 1 "#[default]"]) ++
            (s.model.enumVariants enum).map fun v => line 1 (v.2 ++ ",")) ++
        "\n" ++
        block 0 ("impl " ++ s.model.label enum)
          [s.tableText enum "pub fn literal(&self) -> &'static str" fun literal =>
              Text.literal (s.model.literalText literal),
            "\n",
            s.tableText enum "pub fn value(&self) -> i32" fun literal =>
              toString (s.model.literalValue literal).toInt] ∧
      ∀ feature path text, s.designation feature = .ok (.enum path enum) →
        (s.model.feature? feature).bind (·.defaultValueLiteral) = some text →
          ∃ default, s.fieldType feature = .ok ⟨.enum path enum, default⟩ ∧ path = s.path enum ∧
            (default = none ↔
              ∀ l ∈ s.model.members .literals enum, ¬ s.model.Calls text l) ∧
            ∀ before literal after,
              s.model.members .literals enum = before ++ literal :: after →
              s.model.Calls text literal → (∀ l ∈ before, ¬ s.model.Calls text l) →
                ∃ variant, (s.enumItem enum).variants[before.length]? = some variant ∧
                  (s.model.enumVariants enum)[before.length]? = some (literal, variant.name) ∧
                  variant.literal = s.model.literalText literal ∧
                  default = some (path ++ "::" ++ variant.name) := by
  refine ⟨map_fst_enumVariants _ _, fun sound => ?once, nodup_map_snd_enumVariants _ _, ?named,
    fun literal m' => exists_enumVariants_add, text_enumItem s enum, ?begins⟩
  case once =>
    rw [map_fst_enumVariants]
    exact sound.nodup _ _
  case named =>
    intro before literal name after split
    have searches := searches_of_split split
    exact ⟨searches, searches.eq_of_free⟩
  case begins =>
    intro feature path text typed written
    have begun : s.model.defaultValue? s.settings.types (.enum path enum) (some text) =
        (s.model.variantOf? enum text).map fun variant => path ++ "::" ++ variant := rfl
    refine ⟨s.model.defaultValue? s.settings.types (.enum path enum) (some text), ?_,
      path_of_designation typed, ?_, fun before literal after split calls first => ?_⟩
    · rw [fieldType, typed, written]
      rfl
    · rw [begun, Option.map_eq_none_iff, variantOf?_eq_none_iff]
    · obtain ⟨name, there, stands⟩ := exists_variantOf? split calls first
      obtain ⟨variant, declared, rfl, literal'⟩ := enumItem_variant (s := s) there
      refine ⟨variant, declared, there, literal', ?_⟩
      rw [begun, stands, Option.map_some]

/-- A document with an enum of three literals, of which two are named alike but for the case and one
like the other with a number. -/
def paletteDocument : List Event :=
  [.opening "EPackage" (.ofList [("name", "palette")]),
    .opening "eEnums" (.ofList [("name", "Color")]),
    .opening "eLiterals" (.ofList [("name", "Red")]), .closing,
    .opening "eLiterals" (.ofList [("name", "RED")]), .closing,
    .opening "eLiterals" (.ofList [("name", "Red2")]), .closing,
    .closing,
    .opening "eClasses" (.ofList [("name", "Paint")]),
    .opening "eAttributes" (.ofList [("name", "color"), ("eType", "#//Color"),
      ("defaultValueLiteral", "Red2")]), .closing,
    .closing, .closing]

/-- The model with the elements of `paletteDocument`, after a round over its root. -/
def palette : Model :=
  let built := (({} : Model).build "xsi:type" paletteDocument none).toOption.elim {} Prod.fst
  (built.resolveAll [⟨0⟩]).toOption.elim {} Prod.fst

/-- The last literal gives way to the one before it, and the default value goes with it. -/
theorem variants_and_defaults_palette :
    (palette.enumVariants ⟨1⟩).map Prod.snd = ["Red", "Red2", "Red22"] ∧
      (∃ head methods, (Scope.enumItem ⟨palette, {}, some ⟨0⟩⟩ ⟨1⟩).text = head ++
        block 0 "pub enum Color"
          [line 1 "#[default]", line 1 "Red,", line 1 "Red2,", line 1 "Red22,"] ++ methods) ∧
      Scope.fieldType ⟨palette, {}, some ⟨0⟩⟩ ⟨6⟩ =
        .ok ⟨.enum "Color" ⟨1⟩, some "Color::Red22"⟩ := by
  obtain ⟨variants, label, literals, typed, written, called, others⟩ :
      palette.enumVariants ⟨1⟩ = [(⟨2⟩, "Red"), (⟨3⟩, "Red2"), (⟨4⟩, "Red22")] ∧
      palette.label ⟨1⟩ = "Color" ∧
      palette.members .literals ⟨1⟩ = [⟨2⟩, ⟨3⟩] ++ ⟨4⟩ :: [] ∧
      Scope.designation ⟨palette, {}, some ⟨0⟩⟩ ⟨6⟩ = .ok (.enum "Color" ⟨1⟩) ∧
      (palette.feature? ⟨6⟩).bind (·.defaultValueLiteral) = some "Red2" ∧
      palette.Calls "Red2" ⟨4⟩ ∧ ∀ l ∈ [⟨2⟩, ⟨3⟩], ¬ palette.Calls "Red2" l := by
    decide +kernel
  obtain ⟨-, -, -, -, -, text, fields⟩ := variants_and_defaults ⟨palette, {}, some ⟨0⟩⟩ ⟨1⟩
  dsimp only at text fields
  simp only [label, variants, reduceCtorEq, if_false, List.map_cons, List.map_nil,
    List.cons_append, List.nil_append] at text
  rw [String.append_assoc] at text
  obtain ⟨default, made, -, -, begins⟩ := fields ⟨6⟩ "Color" "Red2" typed written
  obtain ⟨variant, -, here, -, begun⟩ := begins _ _ _ literals called others
  rw [variants] at here
  have name : "Red22" = variant.name := congrArg Prod.snd (Option.some.inj here)
  refine ⟨congrArg (List.map Prod.snd) variants, ⟨_, _, text⟩, made.trans ?_⟩
  rw [begun, ← name]
  rfl

end Scope

end Metamodel
