import Metamodel.Generation.Printer
import Metamodel.Generation.Struct

/-!
Generation: the modules for a package and the packages nested in it.
-/

namespace Metamodel

namespace Scope

open Generated

/-- The items of a package: enums, traits and structs, as far as they are to be written. -/
def items (s : Scope) (package : ElementId) : Except Error (List Item) := do
  let interfaces ← if s.settings.emit.interfaces then s.interfaceItems package else pure []
  let structs ← if s.settings.emit.implementations then s.structItems package else pure []
  return interfaces ++ structs

/-- The module of a package without nested ones. -/
def ownModule (s : Scope) (package : ElementId) : Except Error Module := do
  let items ← s.items package
  return {
    name := s.settings.naming.identifier (s.model.label package)
    summary := s.summary? package
    items := items
    nested := [] }

end Scope

/-- What generation gives. -/
structure GeneratedCode where
  code : String
  /-- The number of enums, traits and structs in the code. -/
  typeCount : Nat
  deriving DecidableEq, Repr

namespace Model

open Generated

/-- The module of a package with nested ones, at most `depth` levels down. -/
def moduleWithin (m : Model) (settings : GenerationSettings) :
    Nat → ElementId → Except Error Module
  | 0, package => Scope.ownModule ⟨m, settings, some package⟩ package
  | depth + 1, package => do
    let own ← Scope.ownModule ⟨m, settings, some package⟩ package
    let nested ← (m.members .subpackages package).mapM fun member =>
      if m.isPackage member then some <$> m.moduleWithin settings depth member else pure none
    return { own with nested := nested }

/-- The module of a package with all nested ones. -/
def module (m : Model) (settings : GenerationSettings) (package : ElementId) :
    Except Error Module :=
  m.moduleWithin settings m.size package

/-- Generates the code for a package tree, which must have been resolved. -/
def generate (m : Model) (settings : GenerationSettings) (root : ElementId) :
    Except Error GeneratedCode := do
  let e ← m.require root
  demand (e.kind = .ePackage) (.kindMismatch "EPackage" e.kind.name)
  demand (m.isResolved root) (.packageNotResolved (m.qualifiedName root))
  let generated ← m.module settings root
  return ⟨fileText generated, generated.typeCount⟩

end Model

end Metamodel
