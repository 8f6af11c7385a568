import Metamodel.Model.Basic

/-!
One-line summaries of elements: the kind, the name or type, and in parentheses what differs from the
defaults.
-/

namespace Metamodel

namespace Model

/-- The name of what a link points to, or the text of a symbolic link. -/
def linkLabel (m : Model) : Option Link → String
  | some (.resolved id) => m.label id
  | some (.symbolic uri) => uri
  | none => "?"

/-- An option that is shown only if it holds. -/
def shownIf (holds : Bool) (text : String) : List String := if holds then [text] else []

/-- The bounds, unless they are those of an optional single value. -/
def boundOptions (t : TypedElement) : List String :=
  shownIf (t.lowerBound ≠ 0 || t.upperBound ≠ 1)
    s!"bounds=[{t.lowerBound.toInt},{t.upperBound.toInt}]"

def featureOptions (f : StructuralFeature) : List String :=
  shownIf (!f.changeable) "unchangeable" ++ shownIf f.derived "derived" ++
    shownIf f.transient "transient" ++ shownIf f.unsettable "unsettable" ++
    shownIf f.volatile "volatile" ++
    f.defaultValueLiteral.toList.map fun l => s!"default_value_literal='{l}'"

/-- The opposite of a reference, with the type that it has. -/
def oppositeLabel (m : Model) : Link → String
  | .resolved id => m.linkLabel ((m.typed? id).bind (·.eType)) ++ "/" ++ m.label id
  | .symbolic uri => uri

def referenceOptions (m : Model) (r : EReference) : List String :=
  r.opposite.toList.map (fun link => "opposite=" ++ m.oppositeLabel link) ++
    shownIf r.containment "containment" ++ shownIf (!r.resolveProxies) "lazy_proxies"

/-- The supertypes of a class, if it has any. -/
def superTypeList (m : Model) (links : List Link) : String :=
  if links.isEmpty then ""
  else "<[" ++ ",".intercalate (links.map fun l => m.linkLabel (some l)) ++ "]>"

/-- A text and, in parentheses, the options that there are. -/
def withOptions (text : String) (options : List String) : String :=
  if options.isEmpty then text else text ++ " (" ++ ", ".intercalate options ++ ")"

/-- The summary of an element; empty for the kinds that have no declaration of their own. -/
def summary (m : Model) (id : ElementId) : String :=
  let name := m.label id
  match m.body? id with
  | some (.ePackage p) =>
    withOptions s!"EPackage[{name}]"
      (p.nsUri.toList.map (fun uri => s!"ns_uri='{uri}'") ++
        p.nsPrefix.toList.map fun label => s!"ns_prefix={label}")
  | some (.eClass c) =>
    withOptions (s!"EClass[{name}]" ++ m.superTypeList c.superTypes)
      (shownIf c.isAbstract "abstract" ++ shownIf c.isInterface "interface")
  | some (.eDataType d) =>
    withOptions s!"EDataType[{name}]"
      (d.instanceClassName.toList.map fun cls => s!"instance_class='{cls}'")
  | some (.eEnum _) => s!"EEnum[{name}]"
  | some (.eEnumLiteral l) =>
    withOptions s!"EEnumLiteral[{name}]"
      (s!"value={l.value.toInt}" :: l.literal.toList.map fun text => s!"literal='{text}'")
  | some (.eAttribute a) =>
    withOptions s!"EAttribute[{m.linkLabel a.eType}] {name}"
      (boundOptions a.toTypedElement ++ shownIf a.isId "id" ++ featureOptions a.toStructuralFeature)
  | some (.eReference r) =>
    withOptions s!"EReference[{m.linkLabel r.eType}] {name}"
      (boundOptions r.toTypedElement ++ m.referenceOptions r ++
        featureOptions r.toStructuralFeature)
  | some (.eOperation o) =>
    let returns := o.eType.elim "void" fun link => m.linkLabel (some link)
    withOptions s!"EOperation[{returns}] {name}" (boundOptions o.toTypedElement)
  | some (.eParameter p) =>
    withOptions s!"EParameter[{m.linkLabel p.eType}] {name}" (boundOptions p.toTypedElement)
  | _ => ""

end Model

end Metamodel
