import Metamodel.Graph.Components
import Metamodel.Traversal

/-!
Lint: flaws of a package tree that construction does not prevent.

Each metaclass has its own checks, run on every element of the tree in the order of traversal
(`Model.flawsAt`). Inheritance cycles are looked for afterwards, among all classes of the tree.
A `Linter` does both in one traversal, and may be used for several trees.

Results:
1. `Flaw.severity_eq`: the code of a flaw decides whether it is an error.
2. `LintReport.filter_severity`: so a report has the findings of a code all in one of its halves.
-/

namespace Metamodel

inductive Severity
  | error
  | warning
  deriving DecidableEq, Repr

/-- The part of the model that a symbolic link is found in. -/
inductive LinkRole
  | type
  | opposite
  | superType
  deriving DecidableEq, Repr

namespace LinkRole

def name : LinkRole → String
  | .type => "Type"
  | .opposite => "Opposite"
  | .superType => "Supertype"

end LinkRole

/-- What is wrong with an element. -/
inductive Flaw
  | missingName (kind : Kind)
  | negativeLowerBound (lower : Int32)
  | upperBelowLower (upper lower : Int32)
  | attributeTypedByClass (cls : String)
  | referenceTypedByNonClass (kind : Kind) (name : String)
  | superTypeNotClass (kind : Kind) (name : String)
  | oppositeNotReference (kind : Kind) (name : String)
  | containmentBothEnds (name : String)
  | inheritanceCycle (paths : List String)
  | oppositeMismatch (opposite : String)
  | unresolvedLink (role : LinkRole) (uri : String)
  | redeclaredFeature (inherited : String)
  deriving DecidableEq, Repr

namespace Flaw

def code : Flaw → String
  | .missingName _ => "missing-name"
  | .negativeLowerBound _ => "negative-lower-bound"
  | .upperBelowLower _ _ => "upper-below-lower"
  | .attributeTypedByClass _ => "attribute-typed-by-class"
  | .referenceTypedByNonClass _ _ => "reference-typed-by-non-class"
  | .superTypeNotClass _ _ => "supertype-not-class"
  | .oppositeNotReference _ _ => "opposite-not-reference"
  | .containmentBothEnds _ => "containment-both-ends"
  | .inheritanceCycle _ => "inheritance-cycle"
  | .oppositeMismatch _ => "opposite-mismatch"
  | .unresolvedLink _ _ => "unresolved-link"
  | .redeclaredFeature _ => "redeclared-feature"

def severity : Flaw → Severity
  | .oppositeMismatch _ | .unresolvedLink _ _ | .redeclaredFeature _ => .warning
  | _ => .error

def message : Flaw → String
  | .missingName kind => s!"{kind.name} has no name"
  | .negativeLowerBound lower => s!"Lower bound {lower.toInt} is negative"
  | .upperBelowLower upper lower =>
    s!"Upper bound {upper.toInt} is below lower bound {lower.toInt}"
  | .attributeTypedByClass cls => s!"Attribute is typed by class '{cls}'"
  | .referenceTypedByNonClass kind name => s!"Reference is typed by {kind.name} '{name}'"
  | .superTypeNotClass kind name => s!"Supertype is {kind.name} '{name}'"
  | .oppositeNotReference kind name => s!"Opposite is {kind.name} '{name}'"
  | .containmentBothEnds name => s!"Both '{name}' and its opposite are containments"
  | .inheritanceCycle paths => "Inheritance cycle through " ++ ", ".intercalate paths
  | .oppositeMismatch opposite => s!"Opposite '{opposite}' does not point back"
  | .unresolvedLink role uri => s!"{role.name} still refers to '{uri}'"
  | .redeclaredFeature inherited => s!"Redeclares inherited feature {inherited}"

/-- The severity of the flaws of a code. -/
def severityOf (code : String) : Severity :=
  if code ∈ ["opposite-mismatch", "unresolved-link", "redeclared-feature"] then .warning else .error

theorem severity_eq (flaw : Flaw) : flaw.severity = severityOf flaw.code := by
  cases flaw <;> simp [severity, code, severityOf]

end Flaw

/-- A flaw and the path of the element that has it. -/
structure Finding where
  path : String
  flaw : Flaw
  deriving DecidableEq, Repr

structure LintReport where
  /-- The path of the package. -/
  package : String
  findings : List Finding
  deriving DecidableEq, Repr

namespace LintReport

def errors (r : LintReport) : List Finding := r.findings.filter (·.flaw.severity = .error)

def warnings (r : LintReport) : List Finding := r.findings.filter (·.flaw.severity = .warning)

def isClean (r : LintReport) : Bool := r.errors.isEmpty

def hasWarnings (r : LintReport) : Bool := !r.warnings.isEmpty

theorem filter_severity (r : LintReport) (severity : Severity) (code : String) :
    (r.findings.filter (·.flaw.severity = severity)).filter (·.flaw.code = code) =
      if Flaw.severityOf code = severity then r.findings.filter (·.flaw.code = code) else [] := by
  rw [List.filter_filter]
  split
  · next same =>
    refine List.filter_congr fun finding _ => ?_
    by_cases here : finding.flaw.code = code <;> simp [here, Flaw.severity_eq, same]
  · next other =>
    refine List.filter_eq_nil_iff.mpr fun finding _ => ?_
    by_cases here : finding.flaw.code = code <;> simp [here, Flaw.severity_eq, other]

theorem filter_errors (r : LintReport) (code : String) :
    r.errors.filter (·.flaw.code = code) =
      if Flaw.severityOf code = .error then r.findings.filter (·.flaw.code = code) else [] :=
  r.filter_severity .error code

theorem filter_warnings (r : LintReport) (code : String) :
    r.warnings.filter (·.flaw.code = code) =
      if Flaw.severityOf code = .warning then r.findings.filter (·.flaw.code = code) else [] :=
  r.filter_severity .warning code

end LintReport

namespace Model

/-- The kind of an element; absent elements count as generic types, which fit nowhere. -/
def kindOf (m : Model) (id : ElementId) : Kind := (m.kind? id).getD .eGenericType

def nameFlaws (m : Model) (id : ElementId) : List Flaw :=
  if m.label id = "" then [.missingName (m.kindOf id)] else []

/-- A link that is still symbolic. -/
def linkFlaws (role : LinkRole) : Link → List Flaw
  | .symbolic uri => [.unresolvedLink role uri]
  | .resolved _ => []

def boundFlaws (t : TypedElement) : List Flaw :=
  (if t.lowerBound < 0 then [.negativeLowerBound t.lowerBound] else []) ++
  (if 0 ≤ t.upperBound ∧ t.upperBound < t.lowerBound then
    [.upperBelowLower t.upperBound t.lowerBound] else [])

def typedFlaws (m : Model) (id : ElementId) : List Flaw :=
  match m.typed? id with
  | none => []
  | some t => boundFlaws t ++ t.eType.toList.flatMap (linkFlaws .type)

/-- The resolved type of a typed element. -/
def typeTarget? (m : Model) (id : ElementId) : Option ElementId :=
  ((m.typed? id).bind (·.eType)).bind Link.target?

def attributeFlaws (m : Model) (id : ElementId) : List Flaw :=
  match m.typeTarget? id with
  | some target => if m.isClass target then [.attributeTypedByClass (m.label target)] else []
  | none => []

def reference? (m : Model) (id : ElementId) : Option EReference := (m.body? id).bind Body.reference?

/-- What is wrong between a reference and its opposite. A pair that contains both ways is reported
at the end that was created first. -/
def oppositeFlaws (m : Model) (id : ElementId) (r : EReference) (opposite : ElementId) :
    List Flaw :=
  match m.reference? opposite with
  | none => [.oppositeNotReference (m.kindOf opposite) (m.label opposite)]
  | some other =>
    (if other.opposite.bind Link.target? = some id then []
      else [.oppositeMismatch (m.qualifiedName opposite)]) ++
    (if r.containment && other.containment && id.index < opposite.index then
      [.containmentBothEnds (m.label id)] else [])

def referenceFlaws (m : Model) (id : ElementId) : List Flaw :=
  match m.reference? id with
  | none => []
  | some r =>
    (match m.typeTarget? id with
      | some target =>
        if m.isClass target then []
        else [.referenceTypedByNonClass (m.kindOf target) (m.label target)]
      | none => []) ++
    (match r.opposite with
      | some (.resolved opposite) => m.oppositeFlaws id r opposite
      | some (.symbolic uri) => [.unresolvedLink .opposite uri]
      | none => [])

def superTypeFlaws (m : Model) : Link → List Flaw
  | .symbolic uri => [.unresolvedLink .superType uri]
  | .resolved target =>
    if m.isClass target then [] else [.superTypeNotClass (m.kindOf target) (m.label target)]

/-- The features that a class inherits, in class order. -/
def inheritedFeatures (m : Model) (cls : ElementId) : List ElementId :=
  (m.ancestors cls).flatMap m.ownFeatures

/-- The last feature with this name. -/
def lastNamed? (m : Model) (features : List ElementId) (name : String) : Option ElementId :=
  features.reverse.find? fun f => m.label f = name

/-- The flaws that an element has for being an instance of one metaclass. -/
def flawsAt (m : Model) (c : Metaclass) (id : ElementId) : List Flaw :=
  match c with
  | .eNamedElement => m.nameFlaws id
  | .eTypedElement => m.typedFlaws id
  | .eAttribute => m.attributeFlaws id
  | .eReference => m.referenceFlaws id
  | .eClass => (m.links .superTypes id).flatMap m.superTypeFlaws
  | _ => []

/-- The findings about features that redeclare inherited ones. -/
def redeclarations (m : Model) (cls : ElementId) : List Finding :=
  let inherited := m.inheritedFeatures cls
  (m.ownFeatures cls).filterMap fun f =>
    (m.lastNamed? inherited (m.label f)).map fun other =>
      ⟨m.qualifiedName f, .redeclaredFeature (m.qualifiedName other)⟩

/-- The findings of one step of the traversal. -/
def findingsAt (m : Model) (step : Metaclass × ElementId) : List Finding :=
  (m.flawsAt step.1 step.2).map (Finding.mk (m.qualifiedName step.2)) ++
    (if step.1 = .eClass then m.redeclarations step.2 else [])

/-- The supertype links between classes, from these classes. -/
def superEdges (m : Model) (classes : List ElementId) : List (ElementId × ElementId) :=
  classes.flatMap fun cls => ((m.superTypes cls).filter m.isClass).map fun sup => (cls, sup)

/-- The classes and their direct supertypes, in the order in which they are met. -/
def superNodes (m : Model) (classes : List ElementId) : List ElementId :=
  (classes.flatMap fun cls => cls :: (m.superTypes cls).filter m.isClass).eraseDups

/-- The inheritance cycles that these classes are in: components with an edge inside. -/
def inheritanceCycles (m : Model) (classes : List ElementId) : List (List ElementId) :=
  let edges := m.superEdges classes
  -- A class alone is a component too, but it is in a cycle only if it is its own supertype.
  ((Graph.components (m.superNodes classes) edges).filter fun component =>
    edges.any fun e => component.contains e.1 && component.contains e.2).map fun component =>
    component.mergeSort fun a b => a.index ≤ b.index

/-- The finding about a cycle; it is shown at the member that was created first. -/
def cycleFinding (m : Model) (members : List ElementId) : Finding :=
  let paths := members.map m.qualifiedName
  ⟨paths.headD "", .inheritanceCycle paths⟩

/-- Everything that is wrong with an element and what it contains. -/
def lint (m : Model) (id : ElementId) : LintReport :=
  let steps := m.steps id
  let classes := (steps.filter fun step => step.1 = .eClass).map Prod.snd
  { package := m.qualifiedName id
    findings := steps.flatMap m.findingsAt ++ (m.inheritanceCycles classes).map m.cycleFinding }

end Model

/-- A linter, which keeps the classes that it meets until it looks for cycles among them. -/
structure Linter where
  classes : List ElementId := []
  deriving DecidableEq, Repr

namespace Linter

/-- What a linter makes of one step of the traversal. -/
def meet (m : Model) (s : Linter × List Finding) (step : Metaclass × ElementId) :
    Linter × List Finding :=
  (⟨s.1.classes ++ if step.1 = .eClass then [step.2] else []⟩, s.2 ++ m.findingsAt step)

def visitor (m : Model) : Visitor Empty (Linter × List Finding) where
  enter c id s := .ok (meet m s (c, id), true)

/-- Lints a tree in one traversal. The classes of an earlier use are forgotten first. -/
def lint (l : Linter) (m : Model) (id : ElementId) : Linter × LintReport :=
  match m.walk (visitor m) id ({ l with classes := [] }, []) with
  | .ok (l, findings) =>
    let cycles := m.inheritanceCycles l.classes
    (l, ⟨m.qualifiedName id, findings ++ cycles.map m.cycleFinding⟩)
  | .error (error, _) => nomatch error

/-- Lints one tree after the other. -/
def lintAll (l : Linter) (m : Model) : List ElementId → List LintReport
  | [] => []
  | id :: rest =>
    let (next, report) := l.lint m id
    report :: next.lintAll m rest

end Linter

end Metamodel
