import Metamodel.Generation.Printer

/-!
The texts of generated declarations, part by part.

A struct is written as its declaration, the values that its fields begin with, its own functions and
then one block for each trait that it implements, with an empty line before each part but the first.
A trait has its supertraits in its first line, and in its block the getters and then the methods. An
enum is written as its declaration, with a line for each variant, and two methods that have a line
for each variant again.

Results:
1. `Struct.text_eq`: the parts of a struct and the blocks of its traits.
2. `Trait.text_eq`: the first line of a trait, its getters and its methods.
3. `Enum.text_eq`: the lines of an enum.
-/

namespace Metamodel.Generated

theorem spaced_cons (part : String) (rest : List String) :
    spaced (part :: rest) = part :: rest.map ("\n" ++ ·) := by
  have tail : (rest.mapIdx fun _ part => "\n" ++ part) = rest.map ("\n" ++ ·) :=
    List.ext_getElem (by simp) (by simp)
  simp [spaced, List.mapIdx_cons, tail]

theorem join_spaced (part : String) (rest : List String) :
    String.join (spaced (part :: rest)) = part ++ String.join (rest.map ("\n" ++ ·)) := by
  rw [spaced_cons, String.join_cons]

/-- The first line of a method without parameters that reads an object. -/
theorem signature_getter (name returns : String) :
    "fn " ++ signature name "&self" [] ++ returning (some returns) =
      "fn " ++ name ++ "(&self) -> " ++ returns := by
  have receiver : ("(" : String) ++ ("&self" ++ (")" ++ " -> ")) = "(&self) -> " := rfl
  simp only [signature, returning, List.map_nil, String.intercalate_singleton, Option.elim_some]
  rw [← receiver]
  simp only [String.append_assoc]

namespace Struct

/-- The declaration of a struct, with a line for each field. -/
def declarationText (struct : Struct) : String :=
  blockOrBraces 0 ("pub struct " ++ struct.name)
    (struct.fields.map fun f => line 1 (f.name ++ ": " ++ f.type ++ ","))

/-- The block with the functions of a struct itself: the one that makes an object, and those that
change its fields. -/
def functionsText (struct : Struct) : String :=
  block 0 ("impl " ++ struct.name)
    (spaced (block 1 "pub fn new() -> Self" [line 2 "Self::default()"] ::
      struct.mutators.map mutatorText))

/-- All that is written for a struct in front of the traits that it implements. -/
def ownText (struct : Struct) : String :=
  struct.declarationText ++ "\n" ++ struct.defaultText ++ "\n" ++ struct.functionsText

/-- A getter of a struct: its name and type, and the expression that it returns. -/
theorem getterText_eq (g : GetterBody) :
    getterText g = block 1 ("fn " ++ g.name ++ "(&self) -> " ++ g.returns) [line 2 g.expression] := by
  rw [getterText, signature_getter]

/-- The implementation of a trait: one block, with a getter for each of the fields that it reads. -/
theorem traitText_eq (struct : Struct) (t : TraitBody) :
    struct.traitText t = blockOrBraces 0 ("impl " ++ t.trait ++ " for " ++ struct.name)
      (spaced (t.getters.map fun g =>
        block 1 ("fn " ++ g.name ++ "(&self) -> " ++ g.returns) [line 2 g.expression])) := by
  rw [traitText, funext getterText_eq]

/-- Behind its own parts a struct has one block for each trait that it implements, in order. -/
theorem text_eq (struct : Struct) :
    struct.text = struct.ownText ++
      String.join (struct.traits.map fun t => "\n" ++ struct.traitText t) := by
  have parts : struct.text = String.join (spaced (struct.declarationText :: struct.defaultText ::
      struct.functionsText :: struct.traits.map struct.traitText)) := rfl
  rw [parts, join_spaced, ownText]
  simp only [List.map_cons, List.map_map, String.join_cons, String.append_assoc]
  rfl

end Struct

namespace Trait

/-- A getter that a trait requires: its name and type. -/
theorem getterText_eq (g : Getter) :
    getterText g = summaryLine 1 g.summary ++
      line 1 ("fn " ++ g.name ++ "(&self) -> " ++ g.returns ++ ";") := by
  rw [getterText, signature_getter]

/-- The first line of a trait names the traits that it builds on. In its block are the getters that
it requires and then its methods. -/
theorem text_eq (t : Trait) :
    t.text = summaryLine 0 t.summary ++
      block 0 ("pub trait " ++ t.name ++
          if t.supertraits = [] then "" else ": " ++ " + ".intercalate t.supertraits)
        (spaced (t.getters.map getterText ++ t.methods.map methodText)) := by
  simp only [text, List.isEmpty_iff]

end Trait

namespace Enum

/-- What is written in front of the declaration of an enum. -/
def headText (e : Enum) : String :=
  let traits := "Debug, Clone, Copy, PartialEq, Eq, Hash"
  summaryLine 0 e.summary ++
    line 0 ("#[derive(" ++ (if e.variants = [] then traits else traits ++ ", Default") ++ ")]")

/-- The declaration of an enum has a line for each variant; the first one is the default. Behind it
are two methods, which have a line for each variant too. -/
theorem text_eq (e : Enum) :
    e.text = e.headText ++
      block 0 ("pub enum " ++ e.name)
        ((if e.variants = [] then [] else [line 1 "#[default]"]) ++
          e.variants.map fun v => line 1 (v.name ++ ",")) ++
      "\n" ++
      block 0 ("impl " ++ e.name)
        [e.tableMethod "pub fn literal(&self) -> &'static str" fun v => Text.literal v.literal,
          "\n",
          e.tableMethod "pub fn value(&self) -> i32" fun v => toString v.value.toInt] := by
  simp only [text, headText, List.isEmpty_iff]

end Enum

end Metamodel.Generated
