import Metamodel.Model.Lookup
import Metamodel.Model.Standard
import Metamodel.Reference
import Metamodel.Traversal

/-!
Resolution: every symbolic link below a package becomes a link to the element that it names.

A pass goes through the package tree and plans what each link becomes. Only when every link has a
target is the plan carried out, so a pass that fails changes nothing. A fragment is followed from
the innermost open package. A qualified reference starts at the package with its namespace prefix:
the innermost open one, else the first among the peers and the packages below them; and its target
must have the kind that it says.
-/

namespace Metamodel

/-- The decision that one link becomes a link to `target`. -/
structure Patch where
  element : ElementId
  field : LinkField
  index : Nat
  target : ElementId
  deriving DecidableEq, Repr

/-- How many links a pass has changed, and how many it found resolved. -/
structure ResolutionCount where
  resolved : Nat := 0
  alreadyResolved : Nat := 0
  deriving DecidableEq, Repr

instance : Add ResolutionCount :=
  ⟨fun a b => ⟨a.resolved + b.resolved, a.alreadyResolved + b.alreadyResolved⟩⟩

/-- The state of a pass: the packages that are open, innermost first, and what has been planned. -/
structure ResolutionPass where
  opened : List ElementId := []
  patches : List Patch := []
  alreadyResolved : Nat := 0

namespace Model

/-- The package that a qualified reference starts from. -/
def packageWithPrefix? (m : Model) (opened peers : List ElementId) (nsPrefix : String) :
    Option ElementId :=
  opened.find? (m.hasNsPrefix nsPrefix) <|>
    (peers.flatMap m.packageTree).find? (m.hasNsPrefix nsPrefix)

/-- The element that a link text of `element` names. -/
def target (m : Model) (opened peers : List ElementId) (element : ElementId) (uri : String) :
    Except Error ElementId :=
  let unresolvable : Except Error ElementId :=
    .error (.unresolvableReference uri (some (m.qualifiedName element)))
  match Reference.ofString? uri with
  | none => unresolvable
  | some (.fragment path) =>
    match opened.head?.bind fun package => m.follow? package path with
    | none => unresolvable
    | some id => .ok id
  | some (.qualified nsPrefix kind _ path) =>
    match m.packageWithPrefix? opened peers nsPrefix with
    | none => .error (.missingPackage nsPrefix uri)
    | some package =>
      match m.follow? package path with
      | none => unresolvable
      | some id => if (m.kind? id).any (·.conformsTo kind) then .ok id else unresolvable

/-- Plans one link. -/
def planLink (m : Model) (peers : List ElementId) (element : ElementId) (field : LinkField)
    (pass : ResolutionPass) (link : Link × Nat) : Except Error ResolutionPass :=
  match link with
  | (.resolved _, _) => .ok { pass with alreadyResolved := pass.alreadyResolved + 1 }
  | (.symbolic uri, index) => do
    let target ← m.target pass.opened peers element uri
    return { pass with patches := pass.patches ++ [⟨element, field, index, target⟩] }

/-- Plans the links of one field. The targets of supertype links must be classes; this is looked at
when all of them are known. -/
def planField (m : Model) (peers : List ElementId) (element : ElementId) (pass : ResolutionPass)
    (field : LinkField) : Except Error ResolutionPass := do
  let links := m.links field element
  let planned ← links.zipIdx.foldlM (m.planLink peers element field) pass
  if field = .superTypes then
    -- Links that were resolved before are not looked at again.
    match (planned.patches.drop pass.patches.length).find? fun p => !m.isClass p.target with
    | some patch =>
      let uri := (links[patch.index]?.bind Link.uri?).getD ""
      .error (.unresolvableReference uri (some (m.qualifiedName element)))
    | none => return planned
  else return planned

/-- The visitor that plans a pass: packages are open between entering and leaving, and each
metaclass plans its links when its members have been visited. -/
def resolutionVisitor (m : Model) (peers : List ElementId) : Visitor Error ResolutionPass where
  enter c id pass :=
    .ok (if c = .ePackage then { pass with opened := id :: pass.opened } else pass, true)
  leave c id pass :=
    match (LinkField.ofMetaclass c).foldlM (m.planField peers id) pass with
    | .error error => .error (error, pass)
    | .ok pass =>
      .ok (if c = .ePackage then { pass with opened := pass.opened.tail } else pass)

/-- Plans a pass over the package tree of `root`. -/
def planResolution (m : Model) (root : ElementId) (peers : List ElementId) :
    Except Error ResolutionPass :=
  match m.walk (m.resolutionVisitor peers) root {} with
  | .error (error, _) => .error error
  | .ok pass => .ok pass

def applyPatch (m : Model) (p : Patch) : Model :=
  m.modifyBody p.element (Body.setTarget p.field p.index p.target)

def markResolved (m : Model) (package : ElementId) : Model :=
  m.modifyBody package (Body.mapPackage fun p => { p with resolved := true })

/-- Resolves every symbolic link in the package tree of `root` and marks its packages. -/
def resolve (m : Model) (root : ElementId) (peers : List ElementId) :
    Except Error (Model × ResolutionCount) := do
  let e ← m.require root
  demand (e.kind = .ePackage) (.kindMismatch "EPackage" e.kind.name)
  let pass ← m.planResolution root peers
  let patched := pass.patches.foldl applyPatch m
  let resolved := (m.packageTree root).foldl markResolved patched
  return (resolved, ⟨pass.patches.length, pass.alreadyResolved⟩)

/-- Resolves roots one after the other, with `all` the others as peers. A failure comes with the
model as the roots before the failing one have left it. -/
def resolveEach (all : List ElementId) :
    List ElementId → Model × ResolutionCount → Except (Error × Model) (Model × ResolutionCount)
  | [], done => .ok done
  | root :: rest, (m, total) =>
    match m.resolve root (all.filter (· ≠ root)) with
    | .error error => .error (error, m)
    | .ok (m, count) => resolveEach all rest (m, total + count)

/-- Resolves each of `roots` with the other root packages of the model as its peers. The standard
package is added first if the model has no package with its namespace URI. -/
def resolveAll (m : Model) (roots : List ElementId) :
    Except (Error × Model) (Model × ResolutionCount) :=
  let m := if (m.packageByUri? Standard.nsUri).isNone then m.addStandardPackage else m
  -- The roots are counted after the addition, so the standard package is a peer too.
  resolveEach m.roots roots (m, {})

end Model

end Metamodel
