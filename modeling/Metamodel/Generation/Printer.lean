import Metamodel.Generation.Item
import Metamodel.Text.Quoted
import Metamodel.Text.Split

/-!
The text of generated declarations.

Every declaration follows an empty line. The content of a module is indented by four spaces, except
for lines that are empty.
-/

namespace Metamodel.Generated

/-- Four spaces for each level. -/
def margin (level : Nat) : String := "".pushn ' ' (4 * level)

/-- A line at a level. -/
def line (level : Nat) (text : String) : String := margin level ++ text ++ "\n"

/-- A block: an opening line, what is in it, and a closing brace. -/
def block (level : Nat) (opening : String) (content : List String) : String :=
  line level (opening ++ " \x7b") ++ String.join content ++ line level "\x7d"

/-- A block on one line if there is nothing in it. -/
def blockOrBraces (level : Nat) (opening : String) (content : List String) : String :=
  if content.isEmpty then line level (opening ++ " \x7b\x7d") else block level opening content

/-- The comment that shows the summary of a declaration. -/
def summaryLine (level : Nat) (summary : Option String) : String :=
  summary.elim "" fun text => line level ("// @model " ++ text)

/-- Parts with an empty line between them. -/
def spaced (parts : List String) : List String :=
  parts.mapIdx fun i part => if i = 0 then part else "\n" ++ part

namespace Enum

/-- A method that maps each variant to an expression. -/
def tableMethod (e : Enum) (signature : String) (expression : Variant → String) : String :=
  block 1 signature
    [if e.variants.isEmpty then line 2 "match *self \x7b\x7d"
      else block 2 "match self"
        (e.variants.map fun v => line 3 ("Self::" ++ v.name ++ " => " ++ expression v ++ ","))]

def text (e : Enum) : String :=
  let traits := "Debug, Clone, Copy, PartialEq, Eq, Hash"
  let derived := if e.variants.isEmpty then traits else traits ++ ", Default"
  let first := if e.variants.isEmpty then [] else [line 1 "#[default]"]
  summaryLine 0 e.summary ++ line 0 ("#[derive(" ++ derived ++ ")]") ++
    block 0 ("pub enum " ++ e.name) (first ++ e.variants.map fun v => line 1 (v.name ++ ",")) ++
    "\n" ++
    block 0 ("impl " ++ e.name)
      [e.tableMethod "pub fn literal(&self) -> &'static str" fun v => Text.literal v.literal,
        "\n",
        e.tableMethod "pub fn value(&self) -> i32" fun v => toString v.value.toInt]

end Enum

/-- Parameters after the receiver. -/
def signature (name receiver : String) (parameters : List Typed) : String :=
  let shown := parameters.map fun p => p.name ++ ": " ++ p.type
  name ++ "(" ++ ", ".intercalate (receiver :: shown) ++ ")"

/-- The result type after a signature, if there is one. -/
def returning (returns : Option String) : String := returns.elim "" (" -> " ++ ·)

namespace Trait

def getterText (g : Getter) : String :=
  summaryLine 1 g.summary ++
    line 1 ("fn " ++ signature g.name "&self" [] ++ returning (some g.returns) ++ ";")

def methodText (m : Method) : String :=
  let receiver := if m.mutates then "&mut self" else "&self"
  summaryLine 1 m.summary ++
    block 1 ("fn " ++ signature m.name receiver m.parameters ++ returning m.returns)
      [line 2 ("unimplemented!(\"" ++ m.origin ++ "\")")]

def text (t : Trait) : String :=
  let bounds := if t.supertraits.isEmpty then "" else ": " ++ " + ".intercalate t.supertraits
  summaryLine 0 t.summary ++
    block 0 ("pub trait " ++ t.name ++ bounds)
      (spaced (t.getters.map getterText ++ t.methods.map methodText))

end Trait

namespace Struct

def mutatorText (m : Mutator) : String :=
  block 1 ("pub fn " ++ signature m.name "&mut self" m.parameters) [line 2 m.statement]

def getterText (g : GetterBody) : String :=
  block 1 ("fn " ++ signature g.name "&self" [] ++ returning (some g.returns))
    [line 2 g.expression]

def traitText (s : Struct) (t : TraitBody) : String :=
  blockOrBraces 0 ("impl " ++ t.trait ++ " for " ++ s.name) (spaced (t.getters.map getterText))

/-- The function that makes an object with the values that the fields begin with. -/
def defaultText (s : Struct) : String :=
  block 0 ("impl Default for " ++ s.name)
    [block 1 "fn default() -> Self"
      [blockOrBraces 2 "Self" (s.fields.map fun f => line 3 (f.name ++ ": " ++ f.initial ++ ","))]]

def text (s : Struct) : String :=
  let declaration :=
    blockOrBraces 0 ("pub struct " ++ s.name)
      (s.fields.map fun f => line 1 (f.name ++ ": " ++ f.type ++ ","))
  let constructor := block 1 "pub fn new() -> Self" [line 2 "Self::default()"]
  let inherent :=
    block 0 ("impl " ++ s.name) (spaced (constructor :: s.mutators.map mutatorText))
  String.join (spaced ([declaration, s.defaultText, inherent] ++ s.traits.map s.traitText))

end Struct

namespace Item

def text : Item → String
  | .enum e => e.text
  | .trait t => t.text
  | .struct s => s.text

end Item

/-- A text one level deeper. -/
def indent (text : String) : String :=
  String.join ((Text.lines text).map fun l => if l.isEmpty then "\n" else line 1 l)

/-- What every module begins with. -/
def preamble : String :=
  line 0 "#![allow(dead_code, unused_imports, unused_variables)]" ++ "\n" ++
    line 0 "use std::any::Any;" ++ line 0 "use std::collections::HashMap;" ++
    line 0 "use std::rc::Rc;"

mutual

def Module.text : Module → String
  | ⟨name, summary, items, nested⟩ =>
    let body :=
      preamble ++ String.join (items.map fun item => "\n" ++ item.text) ++ nestedText nested
    summaryLine 0 summary ++ block 0 ("pub mod " ++ name) [indent body]

def nestedText : List (Option Module) → String
  | [] => ""
  | none :: rest => "\n" ++ nestedText rest
  | some m :: rest => "\n" ++ m.text ++ nestedText rest

end

/-- The text of a generated file. -/
def fileText (m : Module) : String :=
  line 0 "//! Generated from Ecore models - DO NOT EDIT" ++ "\n" ++ m.text

end Metamodel.Generated
