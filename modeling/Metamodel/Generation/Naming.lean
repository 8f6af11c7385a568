import Metamodel.Identifier

/-!
The names of generated declarations.

Fields, parameters and modules are written in snake case, with keywords escaped. A boolean is read
by a method that asks a question.
-/

namespace Metamodel

structure NamingSettings where
  /-- What follows the name of a class in the name of its struct. -/
  structSuffix : String := "Impl"
  /-- What is put in front of a name that is a keyword. -/
  keywordEscape : String := Identifier.rawMark
  deriving DecidableEq, Repr

namespace Identifier

/-- Whether a name in snake case reads as a question. -/
def isQuestion (name : String) : Bool := (after? "is_" name).isSome

/-- Takes every raw mark off the front. -/
def dropRawMarks : List Char → List Char
  | 'r' :: '#' :: rest => dropRawMarks rest
  | cs => cs

/-- A name without raw marks in front. -/
def unmarked (name : String) : String := String.ofList (dropRawMarks name.toList)

end Identifier

namespace NamingSettings

open Identifier

/-- The name of a field, a parameter or a module. -/
def identifier (n : NamingSettings) (name : String) : String :=
  escapeKeyword (snakeCase name) n.keywordEscape

/-- The name of a method, without accessor words in front. -/
def method (n : NamingSettings) (name : String) : String :=
  escapeKeyword (methodName name) n.keywordEscape

/-- The name of the method that reads a feature. -/
def getter (n : NamingSettings) (name : String) (boolean : Bool) : String :=
  if boolean && !isQuestion (snakeCase name) then "is_" ++ snakeCase name else n.identifier name

/-- The name of the method for an operation, which may be a setter or return a boolean. -/
def operation (n : NamingSettings) (name : String) (setter boolean : Bool) : String :=
  let base := n.method name
  if setter then "set_" ++ unmarked base
  else if boolean && !isQuestion base then "is_" ++ unmarked base
  else base

/-- The name of the struct of a class. -/
def struct (n : NamingSettings) (cls : String) : String := cls ++ n.structSuffix

end NamingSettings

end Metamodel
