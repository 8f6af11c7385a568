import Mathlib.Logic.Function.Basic
import Metamodel.Proofs.Loaded

/-!
What the attributes of a document set.

An element has a value for each property of its kind, in the part of it that the property belongs
to. An attribute is read as a value of the property with its name, and this value is all that it
changes. So attributes do not get in each other's way, whatever their order, and one that is refused
leaves what those before it have set.

Results:
1. `PropertyFormat.parse?_eq_some_iff`: which texts are values, and which values they are.
2. `Element.set?_eq`: what an attribute changes.
3. `Element.isSome_value?`: an element has every property of its kind.
4. `Element.applyAttributes_outcome`: when attributes are accepted, and what they leave.
-/

namespace Metamodel

namespace PropertyFormat

/-! ## Values -/

/-- The values of a format. -/
def Value : PropertyFormat → Type
  | .text => Option String
  | .flag => Bool
  | .integer => Int32
  | .link => Option Link
  | .links => List Link

/-- The texts that are valid for a format. -/
def Valid : PropertyFormat → String → Prop
  | .flag, s => s = "true" ∨ s = "false"
  | .integer, s =>
    ∃ i : Int, Decimal.Writes (Text.trimChars s.toList) i ∧ -2147483648 ≤ i ∧ i < 2147483648
  | .text, _ | .link, _ | .links, _ => True

/-- The value that a valid text stands for. -/
def Means : (f : PropertyFormat) → String → f.Value → Prop
  | .text, s, value => value = some s
  | .flag, s, value => s = bif value then "true" else "false"
  | .integer, s, value => Decimal.Writes (Text.trimChars s.toList) (Int32.toInt value)
  | .link, s, value => value = some (.symbolic s)
  | .links, s, value => value = (Reference.splitList s).map .symbolic

/-- The value that a text is read as. -/
def parse? : (f : PropertyFormat) → String → Option f.Value
  | .text, s => some (some s)
  | .flag, s => flag? s
  | .integer, s => int32? s
  | .link, s => some (some (.symbolic s))
  | .links, s => some (linkList s)

/-- The value that no attribute has set. -/
def unset : (f : PropertyFormat) → f.Value
  | .text => (none : Option String)
  | .flag => false
  | .integer => (0 : Int32)
  | .link => (none : Option Link)
  | .links => ([] : List Link)

theorem flag?_eq_some_iff {s : String} {b : Bool} :
    flag? s = some b ↔ s = bif b then "true" else "false" := by
  constructor
  · intro read
    unfold flag? at read
    split at read <;> cases read <;> rfl
  · rintro rfl
    cases b <;> rfl

theorem int32?_eq_some_iff {s : String} {i : Int32} :
    int32? s = some i ↔ Decimal.Writes (Text.trimChars s.toList) i.toInt := by
  have greatest : Int.pow 2 31 = 2 ^ 31 := rfl
  simp only [int32?, Option.bind_eq_some_iff, Decimal.int?_eq_some_iff, greatest]
  constructor
  · rintro ⟨n, writes, inRange⟩
    split at inRange
    · next bounds =>
      obtain rfl := Option.some.inj inRange
      rwa [Int32.toInt_ofInt_of_le bounds.1 bounds.2]
    · cases inRange
  · intro writes
    refine ⟨i.toInt, writes, ?_⟩
    rw [if_pos ⟨i.le_toInt, i.toInt_lt⟩, Int32.ofInt_toInt]

/-- A text is read as what it stands for. -/
theorem parse?_eq_some_iff {f : PropertyFormat} {s : String} {value : f.Value} :
    f.parse? s = some value ↔ f.Means s value := by
  cases f with
  | flag => exact flag?_eq_some_iff
  | integer => exact int32?_eq_some_iff
  | text | link | links => exact Option.some_inj.trans eq_comm

/-- The valid texts are those that stand for a value. -/
theorem valid_iff {f : PropertyFormat} {s : String} : f.Valid s ↔ ∃ value, f.Means s value := by
  cases f with
  | flag =>
    constructor
    · rintro (rfl | rfl)
      · exact ⟨true, rfl⟩
      · exact ⟨false, rfl⟩
    · rintro ⟨_ | _, rfl⟩
      · exact .inr rfl
      · exact .inl rfl
  | integer =>
    constructor
    · rintro ⟨i, writes, low, high⟩
      have kept : (Int32.ofInt i).toInt = i := Int32.toInt_ofInt_of_le low high
      exact ⟨Int32.ofInt i, show Decimal.Writes _ (Int32.ofInt i).toInt by rwa [kept]⟩
    · rintro ⟨value, writes⟩
      exact ⟨_, writes, Int32.le_toInt value, Int32.toInt_lt value⟩
  | text | link | links => exact ⟨fun _ => ⟨_, rfl⟩, fun _ => trivial⟩

theorem Means.unique {f : PropertyFormat} {s : String} {value value' : f.Value}
    (first : f.Means s value) (second : f.Means s value') : value = value' :=
  Option.some.inj ((parse?_eq_some_iff.mpr first).symm.trans (parse?_eq_some_iff.mpr second))

end PropertyFormat

/-- A value for every property. -/
abbrev Settings := (p : Property) → p.format.Value

def Classifier.withValues (f : Settings) (c : Classifier) : Classifier :=
  { c with instanceClassName := f .instanceClassName, instanceTypeName := f .instanceTypeName }

def TypedElement.withValues (f : Settings) (t : TypedElement) : TypedElement :=
  { t with
    eType := f .eType, lowerBound := f .lowerBound, upperBound := f .upperBound,
    ordered := f .ordered, unique := f .unique }

def StructuralFeature.withValues (f : Settings) (s : StructuralFeature) : StructuralFeature :=
  { s with
    toTypedElement := s.toTypedElement.withValues f
    changeable := f .changeable, defaultValueLiteral := f .defaultValueLiteral,
    derived := f .derived, transient := f .transient, unsettable := f .unsettable,
    volatile := f .volatile }

def EDataType.withValues (f : Settings) (d : EDataType) : EDataType :=
  { d with toClassifier := d.toClassifier.withValues f, serializable := f .serializable }

namespace Body

/-- The part that data types and enums share. -/
def dataType? : Body → Option EDataType
  | .eDataType d => some d
  | .eEnum e => some e.toEDataType
  | _ => none

def withValues (f : Settings) : Body → Body
  | .ePackage p =>
    .ePackage { p with
      nsUri := f .nsUri, nsPrefix := f .nsPrefix, factoryInstance := f .factoryInstance }
  | .eClass c =>
    .eClass { c with
      toClassifier := c.toClassifier.withValues f
      isAbstract := f .isAbstract, isInterface := f .isInterface, superTypes := f .superTypes }
  | .eDataType d => .eDataType (d.withValues f)
  | .eEnum e => .eEnum { e with toEDataType := e.toEDataType.withValues f }
  | .eEnumLiteral l => .eEnumLiteral { l with value := f .value, literal := f .literal }
  | .eAttribute a =>
    .eAttribute { a with
      toStructuralFeature := a.toStructuralFeature.withValues f, isId := f .isId }
  | .eReference r =>
    .eReference { r with
      toStructuralFeature := r.toStructuralFeature.withValues f
      containment := f .containment, opposite := f .opposite,
      resolveProxies := f .resolveProxies, keys := f .keys }
  | .eOperation o =>
    .eOperation { o with
      toTypedElement := o.toTypedElement.withValues f, exceptions := f .exceptions }
  | .eParameter p => .eParameter { p with toTypedElement := p.toTypedElement.withValues f }
  | .eTypeParameter t => .eTypeParameter t
  | .eNote a => .eNote { a with source := f .source, references := f .references }
  | .eGenericType g =>
    .eGenericType { g with classifier := f .classifier, typeParameter := f .typeParameter }

end Body

namespace Element

open PropertyFormat

/-- The value of a property in an element with the part that the property belongs to. -/
def value? (e : Element) : (p : Property) → Option p.format.Value
  | .name => some e.name
  | .nsUri => e.body.package?.map (·.nsUri)
  | .nsPrefix => e.body.package?.map (·.nsPrefix)
  | .factoryInstance => e.body.package?.map (·.factoryInstance)
  | .instanceClassName => e.body.classifier?.map (·.instanceClassName)
  | .instanceTypeName => e.body.classifier?.map (·.instanceTypeName)
  | .isAbstract => e.body.class?.map (·.isAbstract)
  | .isInterface => e.body.class?.map (·.isInterface)
  | .superTypes => e.body.class?.map (·.superTypes)
  | .serializable => e.body.dataType?.map (·.serializable)
  | .value => e.body.enumLiteral?.map (·.value)
  | .literal => e.body.enumLiteral?.map (·.literal)
  | .eType => e.body.typed?.map (·.eType)
  | .lowerBound => e.body.typed?.map (·.lowerBound)
  | .upperBound => e.body.typed?.map (·.upperBound)
  | .ordered => e.body.typed?.map (·.ordered)
  | .unique => e.body.typed?.map (·.unique)
  | .changeable => e.body.feature?.map (·.changeable)
  | .defaultValueLiteral => e.body.feature?.map (·.defaultValueLiteral)
  | .derived => e.body.feature?.map (·.derived)
  | .transient => e.body.feature?.map (·.transient)
  | .unsettable => e.body.feature?.map (·.unsettable)
  | .volatile => e.body.feature?.map (·.volatile)
  | .isId => e.body.attribute?.map (·.isId)
  | .containment => e.body.reference?.map (·.containment)
  | .opposite => e.body.reference?.map (·.opposite)
  | .resolveProxies => e.body.reference?.map (·.resolveProxies)
  | .keys => e.body.reference?.map (·.keys)
  | .exceptions => e.body.operation?.map (·.exceptions)
  | .source => e.body.note?.map (·.source)
  | .references => e.body.note?.map (·.references)
  | .classifier => e.body.genericType?.map (·.classifier)
  | .typeParameter => e.body.genericType?.map (·.typeParameter)

def values (e : Element) : Settings := fun p => (e.value? p).getD p.format.unset

def withValues (f : Settings) (e : Element) : Element :=
  { e with name := f .name, body := e.body.withValues f }

theorem withValues_withValues (f g : Settings) (e : Element) :
    (e.withValues f).withValues g = e.withValues g := by
  obtain ⟨id, name, parent, annotations, body⟩ := e
  cases body <;> rfl

theorem withValues_values (e : Element) : e.withValues e.values = e := by
  obtain ⟨id, name, parent, annotations, body⟩ := e
  cases body <;> rfl

theorem value?_withValues (f : Settings) (e : Element) (p : Property) :
    (e.withValues f).value? p = (e.value? p).map fun _ => f p := by
  obtain ⟨id, name, parent, annotations, body⟩ := e
  cases body <;> cases p <;> rfl

@[simp]
theorem kind_withValues (f : Settings) (e : Element) : (e.withValues f).kind = e.kind := by
  obtain ⟨id, name, parent, annotations, body⟩ := e
  cases body <;> rfl

/-- An element has every property of its kind. -/
theorem isSome_value? {e : Element} {p : Property} (on : e.kind.isA p.declaredBy) :
    (e.value? p).isSome := by
  obtain ⟨id, name, parent, annotations, body⟩ := e
  cases body <;> cases p <;> first | rfl | exact Bool.noConfusion on

/-- The element without the values of its properties: what no attribute can set. -/
def plain (e : Element) : Element := e.withValues fun p => p.format.unset

theorem plain_withValues (f : Settings) (e : Element) : (e.withValues f).plain = e.plain :=
  withValues_withValues f _ e

/-- Elements with the same values are the same if they differ in nothing else. -/
theorem eq_of_values {e e' : Element} (others : e'.plain = e.plain)
    (same : ∀ p, e'.value? p = e.value? p) : e' = e := by
  have values : e'.values = e.values := funext fun p => by rw [Element.values, same p]; rfl
  have whole (e : Element) : e.plain.withValues e.values = e :=
    (withValues_withValues _ _ e).trans e.withValues_values
  rw [← whole e', others, values, whole e]

theorem members_plain (slot : Slot) (e : Element) : e.plain.members slot = e.members slot := by
  obtain ⟨id, name, parent, annotations, body⟩ := e
  cases body <;> cases slot <;> rfl

theorem noted?_plain (e : Element) : e.plain.body.noted? = e.body.noted? := by
  obtain ⟨id, name, parent, annotations, body⟩ := e
  cases body <;> rfl

/-! ## One attribute -/

/-- An attribute changes the value of one property. -/
theorem set?_eq (e : Element) (p : Property) (value : String) :
    e.set? p value =
      (p.format.parse? value).map fun v => e.withValues (Function.update e.values p v) := by
  obtain ⟨id, name, parent, annotations, body⟩ := e
  cases body <;> cases p <;> rfl

end Element

theorem Property.mem_ofKind {k : Kind} {p : Property} :
    p ∈ Property.ofKind k ↔ k.isA p.declaredBy := by
  have listed : p ∈ Property.all := by cases p <;> decide
  simp [Property.ofKind, listed]

namespace Element

/-- The kind has a property of this name, and the text is valid for it. -/
def Accepts (k : Kind) (key value : String) : Prop :=
  ∃ p ∈ Property.ofKind k, p.key = key ∧ p.format.Valid value

/-- Why an attribute is refused. -/
inductive Rejects (k : Kind) (key value : String) : Error → Prop
  | unknown : (∀ p ∈ Property.ofKind k, p.key ≠ key) →
      Rejects k key value (.unexpectedAttribute key k.name)
  | invalid {p : Property} : p ∈ Property.ofKind k → p.key = key → ¬ p.format.Valid value →
      Rejects k key value (.invalidAttributeValue key value p.format.expected)

theorem applyAttribute_ok {e e' : Element} {key value : String}
    (accepted : e.applyAttribute key value = .ok e') :
    ∃ p ∈ Property.ofKind e.kind, p.key = key ∧ ∃ v, p.format.Means value v ∧
      e.withValues (Function.update e.values p v) = e' := by
  unfold applyAttribute at accepted
  split at accepted
  · cases accepted
  · next p known =>
    obtain ⟨isKey, on⟩ := Property.find?_eq_some_iff.mp known
    split at accepted
    · cases accepted
    · next set =>
      cases accepted
      rw [set?_eq, Option.map_eq_some_iff] at set
      obtain ⟨v, read, changed⟩ := set
      exact ⟨p, Property.mem_ofKind.mpr on, isKey, v, PropertyFormat.parse?_eq_some_iff.mp read,
        changed⟩

theorem applyAttribute_error {e : Element} {key value : String} {error : Error}
    (refused : e.applyAttribute key value = .error error) : Rejects e.kind key value error := by
  unfold applyAttribute at refused
  split at refused
  · next missing =>
    cases refused
    refine .unknown fun p known isKey => ?_
    have found := Property.find?_eq_some_iff.mpr ⟨isKey, Property.mem_ofKind.mp known⟩
    rw [missing] at found
    cases found
  · next p known =>
    obtain ⟨isKey, on⟩ := Property.find?_eq_some_iff.mp known
    split at refused
    · next unread =>
      cases refused
      refine .invalid (Property.mem_ofKind.mpr on) isKey fun valid => ?_
      obtain ⟨v, means⟩ := PropertyFormat.valid_iff.mp valid
      rw [set?_eq, PropertyFormat.parse?_eq_some_iff.mpr means] at unread
      cases unread
    · cases refused

/-- What is refused is not accepted. -/
theorem Rejects.not_accepts {k : Kind} {key value : String} {error : Error}
    (rejects : Rejects k key value error) : ¬ Accepts k key value := by
  rintro ⟨p, known, rfl, valid⟩
  cases rejects with
  | unknown missing => exact missing p known rfl
  | invalid _ isKey invalid => exact invalid (Property.key_injective isKey ▸ valid)

theorem applyAttribute_ok_accepts {e e' : Element} {key value : String}
    (accepted : e.applyAttribute key value = .ok e') : Accepts e.kind key value := by
  obtain ⟨p, known, isKey, v, means, -⟩ := applyAttribute_ok accepted
  exact ⟨p, known, isKey, PropertyFormat.valid_iff.mpr ⟨v, means⟩⟩

/-! ## All attributes -/

variable {skip : String} {attributes : List (String × String)} {e e' : Element}

/-- The second element is the first with the values of attributes, and with nothing else changed. -/
structure Applied (skip : String) (attributes : List (String × String)) (e e' : Element) :
    Prop where
  named : ∀ p value, (p.key, value) ∈ attributes → p.key ≠ skip →
    ∃ v, p.format.Means value v ∧ e'.value? p = some v
  unnamed : ∀ p, (∀ value, (p.key, value) ∈ attributes → p.key = skip) →
    e'.value? p = e.value? p
  others : e'.plain = e.plain

/-- The parts of an element that no attribute reaches. -/
structure Unreached (e e' : Element) : Prop where
  id : e'.id = e.id
  kind : e'.kind = e.kind
  parent : e'.parent = e.parent
  annotations : e'.annotations = e.annotations
  members : ∀ slot, e'.members slot = e.members slot
  /-- The note of the owner. -/
  noted : e'.body.noted? = e.body.noted?

theorem Applied.unreached (applied : Applied skip attributes e e') : Unreached e e' := by
  have same {β : Type} {f : Element → β} (plain : ∀ e : Element, f e.plain = f e) : f e' = f e :=
    (plain e').symm.trans ((congrArg f applied.others).trans (plain e))
  exact ⟨same fun _ => rfl, same fun e => kind_withValues _ e, same fun _ => rfl, same fun _ => rfl,
    fun slot => same (members_plain slot), same (f := fun e => e.body.noted?) noted?_plain⟩

/-- Attributes leave one element only, in whatever order they are listed. -/
theorem Applied.unique {attributes' : List (String × String)} {e'' : Element}
    (perm : attributes'.Perm attributes) (first : Applied skip attributes e e')
    (second : Applied skip attributes' e e'') : e'' = e' := by
  refine eq_of_values (second.others.trans first.others.symm) fun p => ?_
  by_cases isNamed : ∃ value, (p.key, value) ∈ attributes ∧ p.key ≠ skip
  · obtain ⟨value, member, other⟩ := isNamed
    obtain ⟨v, means, held⟩ := first.named p value member other
    obtain ⟨v', means', held'⟩ := second.named p value (perm.mem_iff.mpr member) other
    rw [held, held', means.unique means']
  · have silent : ∀ value, (p.key, value) ∈ attributes → p.key = skip := fun value member =>
      not_not.mp fun other => isNamed ⟨value, member, other⟩
    rw [first.unnamed p silent,
      second.unnamed p fun value member => silent value (perm.mem_iff.mp member)]

/-- One attribute in front of others that do not name its property. -/
theorem Applied.cons {key value : String} {next : Element} (other : key ≠ skip)
    (new : key ∉ attributes.map Prod.fst)
    (accepted : e.applyAttribute key value = .ok next) (rest : Applied skip attributes next e') :
    Applied skip ((key, value) :: attributes) e e' := by
  obtain ⟨p, known, rfl, v, means, rfl⟩ := applyAttribute_ok accepted
  have absent {q : Property} {text : String} (member : (q.key, text) ∈ attributes) : q ≠ p := by
    rintro rfl
    exact new (List.mem_map_of_mem member)
  -- The property itself has the value that was read; later attributes are about others.
  have held : e'.value? p = some v := by
    rw [rest.unnamed p fun text member => absurd rfl (absent member), value?_withValues]
    obtain ⟨old, there⟩ := Option.isSome_iff_exists.mp
      (isSome_value? (Property.mem_ofKind.mp known))
    rw [there, Option.map_some, Function.update_self]
  have kept {q : Property} (ne : q ≠ p) :
      (e.withValues (Function.update e.values p v)).value? q = e.value? q := by
    rw [value?_withValues, Function.update_of_ne ne, Element.values]
    cases e.value? q <;> rfl
  refine ⟨fun q text member other => ?named, fun q silent => ?unnamed,
    rest.others.trans (plain_withValues _ e)⟩
  case named =>
    rcases List.mem_cons.mp member with first | later
    · obtain ⟨isKey, rfl⟩ := Prod.mk.inj first
      obtain rfl := Property.key_injective isKey
      exact ⟨v, means, held⟩
    · exact rest.named q text later other
  case unnamed =>
    have silentLater : ∀ text, (q.key, text) ∈ attributes → q.key = skip := fun text member =>
      silent text (List.mem_cons_of_mem _ member)
    have ne : q ≠ p := by
      rintro rfl
      exact other (silent value List.mem_cons_self)
    exact (rest.unnamed q silentLater).trans (kept ne)

/-- Attributes that are accepted have been written, and nothing else has. -/
theorem applied_applyAttributes (nodup : (attributes.map Prod.fst).Nodup)
    (accepted : applyAttributes skip attributes e = .ok e') : Applied skip attributes e e' := by
  induction attributes generalizing e with
  | nil =>
    cases accepted
    exact ⟨fun _ _ member => absurd member List.not_mem_nil, fun _ _ => rfl, rfl⟩
  | cons entry rest ih =>
    obtain ⟨key, value⟩ := entry
    obtain ⟨new, nodup⟩ := List.nodup_cons.mp nodup
    unfold applyAttributes at accepted
    split at accepted
    · next skipped =>
      obtain ⟨named, unnamed, others⟩ := ih nodup accepted
      refine ⟨fun p text member other => ?_, fun p silent => ?_, others⟩
      · rcases List.mem_cons.mp member with first | later
        · exact absurd ((congrArg Prod.fst first).trans skipped) other
        · exact named p text later other
      · exact unnamed p fun text member => silent text (List.mem_cons_of_mem _ member)
    · next other =>
      split at accepted
      · next next set => exact .cons other new set (ih nodup accepted)
      · cases accepted

theorem kind_of_applyAttribute {key value : String}
    (accepted : e.applyAttribute key value = .ok e') : e'.kind = e.kind := by
  obtain ⟨p, -, -, v, -, rfl⟩ := applyAttribute_ok accepted
  exact kind_withValues _ e

/-- Attributes are accepted exactly if each of them is. -/
theorem applyAttributes_ok_iff :
    (∃ e', applyAttributes skip attributes e = .ok e') ↔
      ∀ key value, (key, value) ∈ attributes → key ≠ skip → Accepts e.kind key value := by
  induction attributes generalizing e with
  | nil => exact ⟨fun _ _ _ member => absurd member List.not_mem_nil, fun _ => ⟨e, rfl⟩⟩
  | cons entry rest ih =>
    obtain ⟨key, value⟩ := entry
    have split : (∀ key' value', (key', value') ∈ (key, value) :: rest → key' ≠ skip →
          Accepts e.kind key' value') ↔
        (key ≠ skip → Accepts e.kind key value) ∧
          ∀ key' value', (key', value') ∈ rest → key' ≠ skip → Accepts e.kind key' value' := by
      simp only [List.mem_cons, Prod.mk.injEq]
      grind
    rw [split]
    by_cases skipped : key = skip
    · simp only [applyAttributes, if_pos skipped, ih]
      exact (and_iff_right fun other => absurd skipped other).symm
    · simp only [applyAttributes, if_neg skipped]
      cases set : e.applyAttribute key value with
      | ok next =>
        simp only [ih, kind_of_applyAttribute set]
        exact (and_iff_right fun _ => applyAttribute_ok_accepts set).symm
      | error error =>
        have rejects := applyAttribute_error set
        constructor
        · rintro ⟨e', accepted⟩
          cases accepted
        · exact fun accepts => absurd (accepts.1 skipped) rejects.not_accepts

/-- The first attribute that is refused ends the run. -/
theorem applyAttributes_error {error : Error}
    (refused : applyAttributes skip attributes e = .error (error, e')) :
    ∃ before key value after, attributes = before ++ (key, value) :: after ∧ key ≠ skip ∧
      Rejects e.kind key value error ∧ applyAttributes skip before e = .ok e' := by
  induction attributes generalizing e with
  | nil => cases refused
  | cons entry rest ih =>
    obtain ⟨key, value⟩ := entry
    unfold applyAttributes at refused
    split at refused
    · next skipped =>
      obtain ⟨before, key', value', after, rfl, other, rejects, accepted⟩ := ih refused
      refine ⟨(key, value) :: before, key', value', after, rfl, other, rejects, ?_⟩
      rwa [applyAttributes, if_pos skipped]
    · next other =>
      split at refused
      · next next set =>
        obtain ⟨before, key', value', after, rfl, other', rejects, accepted⟩ := ih refused
        rw [kind_of_applyAttribute set] at rejects
        refine ⟨(key, value) :: before, key', value', after, rfl, other', rejects, ?_⟩
        rwa [applyAttributes, if_neg other, set]
      · next failure set =>
        cases refused
        exact ⟨[], key, value, rest, rfl, other, applyAttribute_error set, rfl⟩

/-! ## Setters that look for the part that they write to -/

/-- Sets a property of an element with the part that the property belongs to. -/
def assign (e : Element) (p : Property) (value : String) : Except Error Element :=
  match e.value? p with
  | none => .error (.kindMismatch p.declaredBy.name e.kind.name)
  | some _ =>
    match e.set? p value with
    | none => .error (.invalidAttributeValue p.key value p.format.expected)
    | some e' => .ok e'

/-- Gives an element attributes by the setters that a table lists. -/
def applyByTable (table : List Property) (skip : String) :
    List (String × String) → Element → Except (Error × Element) Element
  | [], e => .ok e
  | (key, value) :: rest, e =>
    if key = skip then applyByTable table skip rest e
    else
      match table.find? (·.key = key) with
      | none => .error (.unexpectedAttribute key e.kind.name, e)
      | some p =>
        match e.assign p value with
        | .ok e' => applyByTable table skip rest e'
        | .error error => .error (error, e)

theorem find?_ofKind (k : Kind) (key : String) :
    (Property.ofKind k).find? (·.key = key) = Property.find? k key := by
  refine Option.ext fun p => ?_
  rw [Property.find?_eq_some_iff, ← Property.mem_ofKind]
  constructor
  · intro found
    exact ⟨by simpa using List.find?_some found, List.mem_of_find?_eq_some found⟩
  · rintro ⟨rfl, known⟩
    cases found : (Property.ofKind k).find? (·.key = p.key) with
    | none => simpa using List.find?_eq_none.mp found p known
    | some q =>
      have isKey : q.key = p.key := by simpa using List.find?_some found
      rw [Property.key_injective isKey]

/-- The setters in the table of a kind always find the part that they write to. -/
theorem assign_of_mem {p : Property} (known : p ∈ Property.ofKind e.kind) (value : String) :
    e.assign p value = e.applyAttribute p.key value := by
  have on := Property.mem_ofKind.mp known
  obtain ⟨old, there⟩ := Option.isSome_iff_exists.mp (isSome_value? on)
  have found : Property.find? e.kind p.key = some p := Property.find?_eq_some_iff.mpr ⟨rfl, on⟩
  cases set : e.set? p value <;> simp only [assign, applyAttribute, found, there, set]

theorem applyByTable_eq (skip : String) (attributes : List (String × String)) (e : Element) :
    applyByTable (Property.ofKind e.kind) skip attributes e = applyAttributes skip attributes e := by
  induction attributes generalizing e with
  | nil => rfl
  | cons entry rest ih =>
    obtain ⟨key, value⟩ := entry
    rw [applyByTable, applyAttributes, find?_ofKind, ih]
    split
    · rfl
    · cases known : Property.find? e.kind key with
      | none => simp [applyAttribute, known]
      | some p =>
        obtain ⟨rfl, on⟩ := Property.find?_eq_some_iff.mp known
        simp only [assign_of_mem (Property.mem_ofKind.mpr on)]
        cases set : e.applyAttribute p.key value with
        | error error => rfl
        | ok next =>
          have later := ih next
          rw [kind_of_applyAttribute set] at later
          exact later

/-- Attributes are accepted exactly if each of them names a property of the kind and is valid for it.
They set the properties that they name and change nothing else, in whatever order they come. One that
is refused is unknown or invalid and leaves what those before it have set. No setter in the table of
a kind looks in vain for the part that it writes to. -/
theorem applyAttributes_outcome (skip : String) (attributes : OrderedMap String) (e : Element) :
    ((∃ e', applyAttributes skip attributes.entries e = .ok e') ↔
      ∀ key value, (key, value) ∈ attributes.entries → key ≠ skip → Accepts e.kind key value) ∧
    (∀ e', applyAttributes skip attributes.entries e = .ok e' →
      Applied skip attributes.entries e e' ∧ Unreached e e' ∧
      ∀ attributes' : OrderedMap String, attributes'.entries.Perm attributes.entries →
        applyAttributes skip attributes'.entries e = .ok e') ∧
    (∀ error e', applyAttributes skip attributes.entries e = .error (error, e') →
      ∃ before key value after, attributes.entries = before ++ (key, value) :: after ∧
        key ≠ skip ∧ Rejects e.kind key value error ∧
        applyAttributes skip before e = .ok e' ∧ Applied skip before e e') ∧
    applyByTable (Property.ofKind e.kind) skip attributes.entries e =
      applyAttributes skip attributes.entries e := by
  refine ⟨applyAttributes_ok_iff, fun e' accepted => ?accepted, fun error e' refused => ?refused,
    applyByTable_eq skip attributes.entries e⟩
  case accepted =>
    have applied := applied_applyAttributes attributes.nodup_keys accepted
    refine ⟨applied, applied.unreached, fun attributes' perm => ?_⟩
    have each := applyAttributes_ok_iff.mp ⟨e', accepted⟩
    obtain ⟨e'', accepted'⟩ := applyAttributes_ok_iff.mpr fun key value member =>
      each key value (perm.mem_iff.mp member)
    have applied' := applied_applyAttributes attributes'.nodup_keys accepted'
    rw [accepted', applied.unique perm applied']
  case refused =>
    obtain ⟨before, key, value, after, whole, other, rejects, accepted⟩ :=
      applyAttributes_error refused
    have nodup := attributes.nodup_keys
    rw [whole, List.map_append] at nodup
    exact ⟨before, key, value, after, whole, other, rejects, accepted,
      applied_applyAttributes nodup.of_append_left accepted⟩

end Element

end Metamodel
