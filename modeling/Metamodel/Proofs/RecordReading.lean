import Mathlib.Algebra.Group.Nat.Defs
import Metamodel.Configuration.Overlay
import Metamodel.Model.Data
import Metamodel.Proofs.HeldIds

/-!
Reading elements back from data.

Elements are written as records with the names of their fields, and fields without a value are left
out. The names that a record is written with are some of the names that it is read from, in the same
order, and each field that was left out is read as what it stands for. An element shares one record
with what it carries. Their names are apart for all kinds but attributes: an attribute has an
identifier flag by the name of the id, so its record has that name twice and is refused.

Results:
1. `Record.ofFields?_infix`: the fields of a shape among others.
2. `Body.ofRecord?_toFields`: what an element carries is read back.
3. `Element.ofData?_toData`, `Element.ofData?_attribute`, `Element.ofData?_wide`: elements.
4. `Model.ofData?_toData`: models.
-/

namespace Metamodel

variable {α : Type}

/-! ## Fields by name -/

namespace Data

variable {names : List String} {fields : List (String × Data)} {name : String}

/-- The value of a field that is left out when the list is empty. -/
def present? (items : List Data) : Option Data := if items.isEmpty then none else some (.list items)

@[simp]
theorem lookup_cons (key name : String) (d : Data) (fields : List (String × Data)) :
    ((name, d) :: fields).lookup key = if key = name then some d else fields.lookup key := by
  rw [List.lookup_cons, beq_eq_decide]
  split <;> simp_all

@[simp]
theorem lookup_field? (key name : String) (value : Option Data) :
    (field? name value).lookup key = if key = name then value else none := by
  cases value with
  | none => simp [field?]
  | some d => exact lookup_cons key name d []

@[simp]
theorem lookup_nonEmpty (key name : String) (items : List Data) :
    (nonEmpty name items).lookup key = if key = name then present? items else none := by
  cases items with
  | nil => simp [nonEmpty, present?]
  | cons d items => exact lookup_cons key name _ []

theorem keys_field? (name : String) (value : Option Data) :
    ((field? name value).map Prod.fst).Sublist [name] := by
  cases value with
  | none => exact List.nil_sublist _
  | some d => exact List.Sublist.refl _

theorem keys_nonEmpty (name : String) (items : List Data) :
    ((nonEmpty name items).map Prod.fst).Sublist [name] := by
  cases items with
  | nil => exact List.nil_sublist _
  | cons d items => exact List.Sublist.refl _

theorem keys_cons {d : Data} (rest : (fields.map Prod.fst).Sublist names) :
    (((name, d) :: fields).map Prod.fst).Sublist (name :: names) :=
  .cons_cons name rest

theorem keys_field?_append {value : Option Data} (rest : (fields.map Prod.fst).Sublist names) :
    ((field? name value ++ fields).map Prod.fst).Sublist (name :: names) := by
  rw [List.map_append]
  exact (keys_field? name value).append rest

theorem keys_nonEmpty_append {items : List Data} (rest : (fields.map Prod.fst).Sublist names) :
    ((nonEmpty name items ++ fields).map Prod.fst).Sublist (name :: names) := by
  rw [List.map_append]
  exact (keys_nonEmpty name items).append rest

/-! ## Values that may be missing -/

/-- What is read from a field that may be missing or `null`. -/
def optional? (read : Data → Option α) : Option Data → Option (Option α)
  | none | some .null => some none
  | some d => (read d).map some

/-- What is read from a field that may be missing. -/
def defaulted? (default : α) (read : Data → Option α) : Option Data → Option α
  | none => some default
  | some d => read d

theorem optional?_map {read : Data → Option α} {write : α → Data} {o : Option α}
    (strict : read .null = none) (back : ∀ a ∈ o, read (write a) = some a) :
    optional? read (o.map write) = some o := by
  cases o with
  | none => rfl
  | some a =>
    have same := back a rfl
    rw [Option.map_some]
    cases written : write a with
    | null =>
      rw [written, strict] at same
      cases same
    | _ =>
      rw [written] at same
      exact congrArg (Option.map some) same

theorem defaulted?_present? {read : Data → Option (List α)} {write : α → Data} {l : List α}
    (back : read (.list (l.map write)) = some l) :
    defaulted? [] read (present? (l.map write)) = some l := by
  cases l with
  | nil => rfl
  | cons a l => exact back

end Data

namespace Record

@[simp]
theorem optional_eq (r : Record) (name : String) (read : Data → Option α) :
    r.optional name read = Data.optional? read (r.fields.lookup name) := by
  unfold optional
  rfl

@[simp]
theorem defaulted_eq (r : Record) (name : String) (default : α) (read : Data → Option α) :
    r.defaulted name default read = Data.defaulted? default read (r.fields.lookup name) := by
  unfold defaulted
  rfl

variable {shape : List (String × Presence)}

/-- The fields of a shape are found among other fields. -/
theorem ofFields?_infix (before fields after : List (String × Data))
    (declared : (shape.map Prod.fst).Nodup)
    (keys : (fields.map Prod.fst).Sublist (shape.map Prod.fst))
    (unknownBefore : ∀ name ∈ before.map Prod.fst, name ∉ shape.map Prod.fst)
    (unknownAfter : ∀ name ∈ after.map Prod.fst, name ∉ shape.map Prod.fst) :
    ofFields? shape (before ++ fields ++ after) = some ⟨fields⟩ := by
  have none {others : List (String × Data)}
      (unknown : ∀ name ∈ others.map Prod.fst, name ∉ shape.map Prod.fst) :
      others.filter (fun field => (shape.lookup field.1).isSome) = [] := by
    refine List.filter_eq_nil_iff.mpr fun field member known => ?_
    exact unknown field.1 (List.mem_map_of_mem member)
      ((OrderedMap.lookup_isSome_iff shape field.1).mp known)
  have all : fields.filter (fun field => (shape.lookup field.1).isSome) = fields := by
    refine List.filter_eq_self.mpr fun field member => ?_
    exact (OrderedMap.lookup_isSome_iff shape field.1).mpr
      (keys.subset (List.mem_map_of_mem member))
  unfold ofFields?
  rw [List.filter_append, List.filter_append, none unknownBefore, none unknownAfter, all,
    List.nil_append, List.append_nil]
  exact if_pos (keys.nodup declared)

theorem ofData?_record {fields : List (String × Data)} (declared : (shape.map Prod.fst).Nodup)
    (keys : (fields.map Prod.fst).Sublist (shape.map Prod.fst)) :
    ofData? shape (.record fields) = some ⟨fields⟩ := by
  have found := ofFields?_infix [] fields [] declared keys (by simp) (by simp)
  rwa [List.nil_append, List.append_nil] at found

end Record

/-! ## Single values -/

theorem Data.natBelow?_natCast (limit n : Nat) :
    Data.natBelow? limit (.int n) = if n < limit then some n else none := by
  simp [natBelow?]

@[simp]
theorem Data.defaulted?_bool (default value : Bool) :
    Data.defaulted? default Data.bool? (some (.bool value)) = some value := rfl

@[simp]
theorem Data.int32?_toInt (i : Int32) : Data.int32? (.int i.toInt) = some i := by
  have bounds : -Int.pow 2 31 ≤ i.toInt ∧ i.toInt < Int.pow 2 31 := ⟨i.le_toInt, i.toInt_lt⟩
  exact (if_pos bounds).trans (congrArg some i.ofInt_toInt)

theorem mapM_map_eq_some {β : Type} {read : β → Option α} {write : α → β} {l : List α}
    (back : ∀ a ∈ l, read (write a) = some a) : (l.map write).mapM read = some l := by
  induction l with
  | nil => rfl
  | cons a l ih =>
    obtain ⟨first, rest⟩ := List.forall_mem_cons.mp back
    rw [List.map_cons, List.mapM_cons, first, ih rest]
    rfl

theorem Data.list?_map {read : Data → Option α} {write : α → Data} {l : List α}
    (back : ∀ a ∈ l, read (write a) = some a) : Data.list? read (.list (l.map write)) = some l :=
  mapM_map_eq_some back

/-- A table of values that are read back is read back. -/
theorem tableOfData?_map {read : Data → Option α} {write : α → Data} {table : OrderedMap α}
    (back : ∀ a ∈ table.values, read (write a) = some a) :
    tableOfData? read (.record (table.entries.map fun entry => (entry.1, write entry.2))) =
      some table := by
  have entries : (table.entries.map fun entry => (entry.1, write entry.2)).mapM
      (fun field => (read field.2).map fun v => (field.1, v)) = some table.entries := by
    refine mapM_map_eq_some fun entry member => ?_
    rw [back entry.2 (List.mem_map_of_mem member), Option.map_some]
  calc tableOfData? read (.record (table.entries.map fun entry => (entry.1, write entry.2)))
    _ = some (OrderedMap.ofList table.entries) := by
      unfold tableOfData?
      simp only [entries]
      rfl
    _ = some table := by rw [OrderedMap.ofList_entries]

@[simp]
theorem optional_text (o : Option String) : Data.optional? Data.text? (o.map .text) = some o :=
  Data.optional?_map rfl fun _ _ => rfl

/-! ## Ids of 32 bits -/

namespace ElementId

/-- Moves the ids that have more than 32 bits. -/
def narrow : ElementId → ElementId := Element.clip (Nat.pow 2 32)

theorem narrow_eq_self_iff {id : ElementId} : id.narrow = id ↔ id.index < Nat.pow 2 32 :=
  Element.clip_eq_self_iff

theorem ofData?_toData {id : ElementId} (inside : id.narrow = id) :
    ofData? id.toData = some id := by
  rw [toData, ofData?, Data.natBelow?_natCast, if_pos (narrow_eq_self_iff.mp inside)]
  rfl

theorem ofData?_toData_eq_none {id : ElementId} (wide : id.narrow ≠ id) :
    ofData? id.toData = none := by
  rw [toData, ofData?, Data.natBelow?_natCast,
    if_neg fun below => wide (narrow_eq_self_iff.mpr below)]
  rfl

end ElementId

open ElementId (narrow)

theorem Link.ofData?_toData {link : Link} (inside : link.rename narrow = link) :
    ofData? link.toData = some link := by
  cases link with
  | symbolic uri => rfl
  | resolved id =>
    have same : id.narrow = id := by simpa [rename] using inside
    simp [toData, ofData?, ElementId.ofData?_toData same]

section Lists

variable {ids : List ElementId} {links : List Link}

theorem idsOfData?_toData (inside : ids.map narrow = ids) : idsOfData? (idsToData ids) = some ids :=
  Data.list?_map fun id held => ElementId.ofData?_toData (map_eq_self_iff.mp inside id held)

theorem linksOfData?_toData (inside : links.map (Link.rename narrow) = links) :
    linksOfData? (linksToData links) = some links :=
  Data.list?_map fun link held => Link.ofData?_toData (map_eq_self_iff.mp inside link held)

theorem defaulted_ids (inside : ids.map narrow = ids) :
    Data.defaulted? [] idsOfData? (Data.present? (ids.map ElementId.toData)) = some ids :=
  Data.defaulted?_present? (idsOfData?_toData inside)

theorem defaulted_links (inside : links.map (Link.rename narrow) = links) :
    Data.defaulted? [] linksOfData? (Data.present? (links.map Link.toData)) = some links :=
  Data.defaulted?_present? (linksOfData?_toData inside)

theorem optional_id {o : Option ElementId} (inside : o.map narrow = o) :
    Data.optional? ElementId.ofData? (o.map ElementId.toData) = some o :=
  Data.optional?_map rfl fun id held =>
    ElementId.ofData?_toData (Option.map_eq_self_iff.mp inside id held)

theorem optional_link {o : Option Link} (inside : o.map (Link.rename narrow) = o) :
    Data.optional? Link.ofData? (o.map Link.toData) = some o :=
  Data.optional?_map rfl fun link held =>
    Link.ofData?_toData (Option.map_eq_self_iff.mp inside link held)

theorem tableOfData?_toData {table : OrderedMap ElementId} (inside : table.map narrow = table) :
    tableOfData? ElementId.ofData? (tableToData table) = some table :=
  tableOfData?_map fun id held =>
    ElementId.ofData?_toData (OrderedMap.map_eq_self_iff.mp inside id held)

end Lists

/-! ## What elements carry -/

namespace Classifier

theorem keys_toData (c : Classifier) :
    (c.toData.fields.map Prod.fst).Sublist (shape.map Prod.fst) := by
  simp only [toData, Data.fields, List.append_assoc]
  exact Data.keys_field?_append (Data.keys_field?_append
    (Data.keys_nonEmpty_append (Data.keys_field? _ _)))

theorem ofData?_toData {c : Classifier} (inside : Body.renameClassifier narrow c = c) :
    ofData? c.toData = some c := by
  obtain ⟨parameters, package⟩ := Body.renameClassifier_eq_self_iff.mp inside
  have fields : Record.ofData? shape c.toData = some ⟨c.toData.fields⟩ :=
    Record.ofData?_record (by decide) c.keys_toData
  rw [ofData?, fields]
  simp [toData, Data.fields, List.lookup_append, defaulted_ids parameters,
    optional_id package]

end Classifier

namespace TypedElement

theorem keys_toData (t : TypedElement) :
    (t.toData.fields.map Prod.fst).Sublist (shape.map Prod.fst) := by
  simp only [toData, Data.fields, List.append_assoc]
  exact Data.keys_field?_append (Data.keys_field?_append (.refl _))

theorem ofData?_toData {t : TypedElement} (inside : Body.renameTyped narrow t = t) :
    ofData? t.toData = some t := by
  obtain ⟨type, generic⟩ := Body.renameTyped_eq_self_iff.mp inside
  have fields : Record.ofData? shape t.toData = some ⟨t.toData.fields⟩ :=
    Record.ofData?_record (by decide) t.keys_toData
  rw [ofData?, fields]
  simp [toData, Data.fields, Record.required, List.lookup_append, Data.bool?,
    optional_link type, optional_id generic]

end TypedElement

namespace StructuralFeature

theorem keys_toData (s : StructuralFeature) :
    (s.toData.fields.map Prod.fst).Sublist (shape.map Prod.fst) := by
  simp only [toData, Data.fields, List.append_assoc]
  exact Data.keys_cons (Data.keys_cons (Data.keys_field?_append (Data.keys_cons (Data.keys_cons
    (Data.keys_cons (Data.keys_cons (Data.keys_field? _ _)))))))

theorem ofData?_toData {s : StructuralFeature} (inside : Body.renameFeature narrow s = s) :
    ofData? s.toData = some s := by
  obtain ⟨typed, containing⟩ := Body.renameFeature_eq_self_iff.mp inside
  have fields : Record.ofData? shape s.toData = some ⟨s.toData.fields⟩ :=
    Record.ofData?_record (by decide) s.keys_toData
  rw [ofData?, fields]
  simp [toData, Data.fields, Record.required, List.lookup_append, Data.bool?,
    TypedElement.ofData?_toData typed, optional_id containing]

end StructuralFeature

namespace EDataType

theorem ofRecord?_toFields {t : EDataType} (inside : Body.renameDataType narrow t = t) :
    ofRecord? ⟨t.toFields⟩ = some t := by
  have classifier := Body.renameDataType_eq_self_iff.mp inside
  simp [ofRecord?, toFields, Record.required, Classifier.ofData?_toData classifier, Data.bool?]

theorem ofData?_toFields {t : EDataType} (inside : Body.renameDataType narrow t = t) :
    (Record.ofData? shape (.record t.toFields)).bind ofRecord? = some t := by
  rw [Record.ofData?_record (by decide) (.refl _)]
  exact ofRecord?_toFields inside

end EDataType

namespace Body

theorem keys_toFields (b : Body) :
    (b.toFields.map Prod.fst).Sublist ((shape b.kind).map Prod.fst) := by
  cases b <;> simp only [toFields, List.append_assoc, List.cons_append, List.nil_append] <;>
    repeat' first
      | exact .refl _
      | exact Data.keys_field? _ _
      | exact Data.keys_nonEmpty _ _
      | apply Data.keys_cons
      | apply Data.keys_field?_append
      | apply Data.keys_nonEmpty_append

theorem nodup_shape (k : Kind) : ((shape k).map Prod.fst).Nodup := by
  cases k <;> decide

theorem ofData?_details (details : OrderedMap String) :
    tableOfData? Data.text? (.record (details.entries.map fun entry => (entry.1, .text entry.2))) =
      some details :=
  tableOfData?_map fun _ _ => rfl

theorem ofRecord?_toFields {b : Body} (inside : b.rename narrow = b) :
    ofRecord? ⟨b.toFields⟩ b.kind = some b := by
  cases b with
  | _ content =>
    cases content
    simp [rename] at inside
    simp [kind, ofRecord?, toFields, Record.required, List.lookup_append, Data.bool?,
      defaulted_ids, defaulted_links, optional_id, optional_link, idsOfData?_toData,
      linksOfData?_toData, tableOfData?_toData, Classifier.ofData?_toData,
      TypedElement.ofData?_toData, StructuralFeature.ofData?_toData, EDataType.ofRecord?_toFields,
      EDataType.ofData?_toFields, ofData?_details, inside]

end Body

/-! ## Elements -/

theorem Kind.ofData?_tag (k : Kind) : ofData? (.text k.tag) = some k := by
  cases k <;> decide

namespace Element

/-- The fields of an element before its kind. -/
def ownFields (e : Element) : List (String × Data) :=
  ("id", e.id.toData) ::
    (Data.field? "name" (e.name.map .text) ++
      (Data.field? "parent" (e.parent.map ElementId.toData) ++
        Data.nonEmpty "annotations" (e.annotations.map ElementId.toData)))

/-- The fields of an element after those that every element has. -/
def kindFields (e : Element) : List (String × Data) := ("kind", .text e.kind.tag) :: e.body.toFields

theorem toData_eq (e : Element) : e.toData = .record (e.ownFields ++ e.kindFields) := by
  simp only [toData, ownFields, kindFields, List.append_assoc, List.cons_append, List.nil_append]

theorem keys_ownFields (e : Element) :
    (e.ownFields.map Prod.fst).Sublist (shape.map Prod.fst) :=
  Data.keys_cons (Data.keys_field?_append (Data.keys_field?_append (Data.keys_nonEmpty _ _)))

/-- No body has a field by the name of the kind. -/
theorem kind_not_mem_shape (k : Kind) : "kind" ∉ (Body.shape k).map Prod.fst := by
  cases k <;> decide

/-- Only attributes carry a field by the name of a field that every element has. -/
theorem not_mem_shape {k : Kind} (other : k ≠ .eAttribute) :
    ∀ name ∈ "kind" :: (Body.shape k).map Prod.fst, name ∉ shape.map Prod.fst := by
  cases k
  case eAttribute => exact absurd rfl other
  all_goals decide

variable {e : Element}

theorem keys_kindFields (other : e.kind ≠ .eAttribute) :
    ∀ name ∈ e.kindFields.map Prod.fst, name ∉ shape.map Prod.fst :=
  fun name carried =>
    not_mem_shape other name ((e.body.keys_toFields.cons_cons "kind").subset carried)

theorem ofFields?_shape (other : e.kind ≠ .eAttribute) :
    Record.ofFields? shape (e.ownFields ++ e.kindFields) = some ⟨e.ownFields⟩ :=
  Record.ofFields?_infix [] e.ownFields e.kindFields (by decide) e.keys_ownFields (by simp)
    (keys_kindFields other)

theorem filter_isNone (other : e.kind ≠ .eAttribute) :
    (e.ownFields ++ e.kindFields).filter (fun field => (shape.lookup field.1).isNone) =
      e.kindFields := by
  have known : ∀ field ∈ e.ownFields, (shape.lookup field.1).isSome := fun field member =>
    (OrderedMap.lookup_isSome_iff shape field.1).mpr
      (e.keys_ownFields.subset (List.mem_map_of_mem member))
  have unknown : ∀ field ∈ e.kindFields, shape.lookup field.1 = none := fun field member =>
    Option.not_isSome_iff_eq_none.mp fun some => keys_kindFields other field.1
      (List.mem_map_of_mem member) ((OrderedMap.lookup_isSome_iff shape field.1).mp some)
  rw [List.filter_append, List.filter_eq_nil_iff.mpr, List.filter_eq_self.mpr, List.nil_append]
  · simpa using unknown
  · simpa [Option.isSome_iff_ne_none] using known

theorem ofFields?_kind (e : Element) :
    Record.ofFields? [("kind", .required)] e.kindFields = some ⟨[("kind", .text e.kind.tag)]⟩ := by
  refine Record.ofFields?_infix [] [("kind", .text e.kind.tag)] e.body.toFields (by decide)
    (.refl _) (by simp) ?_
  intro name carried isKind
  rw [List.mem_singleton.mp isKind] at carried
  exact kind_not_mem_shape e.kind (e.body.keys_toFields.subset carried)

theorem ofFields?_body (e : Element) :
    Record.ofFields? (Body.shape e.kind) e.kindFields = some ⟨e.body.toFields⟩ := by
  have found := Record.ofFields?_infix [("kind", .text e.kind.tag)] e.body.toFields []
    (Body.nodup_shape e.kind) e.body.keys_toFields (by simpa using kind_not_mem_shape e.kind)
    (by simp)
  rwa [List.append_nil] at found

/-- A record whose parts have been found is read field by field. -/
theorem ofData?_of_parts {fields rest : List (String × Data)} {common tag carried : Record}
    {k : Kind} (own : Record.ofFields? shape fields = some common)
    (others : fields.filter (fun field => (shape.lookup field.1).isNone) = rest)
    (tagged : Record.ofFields? [("kind", .required)] rest = some tag)
    (isKind : tag.required "kind" Kind.ofData? = some k)
    (body : Record.ofFields? (Body.shape k) rest = some carried) :
    ofData? (.record fields) =
      (common.required "id" ElementId.ofData?).bind fun id =>
        (common.optional "name" Data.text?).bind fun name =>
          (common.optional "parent" ElementId.ofData?).bind fun parent =>
            (common.defaulted "annotations" [] idsOfData?).bind fun annotations =>
              (Body.ofRecord? carried k).bind fun body =>
                some { id, name, parent, annotations, body } := by
  subst others
  simp only [ofData?, own, tagged, isKind, body, Option.bind_eq_bind, Option.bind_some,
    Option.pure_def]

theorem ofData?_toData_eq (other : e.kind ≠ .eAttribute) :
    ofData? e.toData =
      (Record.required ⟨e.ownFields⟩ "id" ElementId.ofData?).bind fun id =>
        (Record.optional ⟨e.ownFields⟩ "name" Data.text?).bind fun name =>
          (Record.optional ⟨e.ownFields⟩ "parent" ElementId.ofData?).bind fun parent =>
            (Record.defaulted ⟨e.ownFields⟩ "annotations" [] idsOfData?).bind fun annotations =>
              (Body.ofRecord? ⟨e.body.toFields⟩ e.kind).bind fun body =>
                some { id, name, parent, annotations, body } := by
  rw [toData_eq]
  exact ofData?_of_parts (ofFields?_shape other) (filter_isNone other) (ofFields?_kind e)
    (by simp [Record.required, Kind.ofData?_tag]) (ofFields?_body e)

theorem required_id (e : Element) (read : Data → Option α) :
    Record.required ⟨e.ownFields⟩ "id" read = read e.id.toData := by
  simp [Record.required, ownFields]

theorem ofData?_toData (other : e.kind ≠ .eAttribute) (inside : e.rename narrow = e) :
    ofData? e.toData = some e := by
  have sameParent : e.parent.map narrow = e.parent := congrArg Element.parent inside
  have sameAnnotations : e.annotations.map narrow = e.annotations :=
    congrArg Element.annotations inside
  have id : Record.required ⟨e.ownFields⟩ "id" ElementId.ofData? = some e.id := by
    rw [required_id, ElementId.ofData?_toData (congrArg Element.id inside)]
  have name : Record.optional ⟨e.ownFields⟩ "name" Data.text? = some e.name := by
    simp [ownFields, List.lookup_append]
  have parent : Record.optional ⟨e.ownFields⟩ "parent" ElementId.ofData? = some e.parent := by
    simp [ownFields, List.lookup_append, optional_id sameParent]
  have annotations : Record.defaulted ⟨e.ownFields⟩ "annotations" [] idsOfData? =
      some e.annotations := by
    simp [ownFields, List.lookup_append, defaulted_ids sameAnnotations]
  have body : Body.ofRecord? ⟨e.body.toFields⟩ e.kind = some e.body :=
    Body.ofRecord?_toFields (congrArg Element.body inside)
  rw [ofData?_toData_eq other, id, name, parent, annotations, body]
  rfl

/-- Ids have 32 bits. -/
theorem ofData?_wide (other : e.kind ≠ .eAttribute) (wide : e.id.narrow ≠ e.id) :
    ofData? e.toData = none := by
  rw [ofData?_toData_eq other, required_id, ElementId.ofData?_toData_eq_none wide]
  rfl

/-- The record of an attribute has the name of the id twice. -/
theorem id_mem_keys_attribute (isAttribute : e.kind = .eAttribute) :
    ∃ more, e.ownFields ++ e.kindFields = ("id", e.id.toData) :: more ∧
      "id" ∈ more.map Prod.fst := by
  refine ⟨_, rfl, ?_⟩
  obtain ⟨a, body⟩ : ∃ a, e.body = .eAttribute a := by
    cases h : e.body <;> simp_all [kind, Body.kind]
  simp [kindFields, body, Body.toFields]

theorem ofData?_attribute (isAttribute : e.kind = .eAttribute) : ofData? e.toData = none := by
  obtain ⟨more, fields, again⟩ := id_mem_keys_attribute isAttribute
  have refused : Record.ofFields? shape (("id", e.id.toData) :: more) = none := by
    obtain ⟨field, member, isId⟩ := List.mem_map.mp again
    have known : (shape.lookup "id").isSome := by decide
    refine if_neg fun nodup => ?_
    rw [List.filter_cons, if_pos known, List.map_cons] at nodup
    refine (List.nodup_cons.mp nodup).1 (List.mem_map.mpr ⟨field, ?_, isId⟩)
    exact List.mem_filter.mpr ⟨member, by rwa [isId]⟩
  rw [toData_eq, fields, ofData?, refused]
  rfl

end Element

/-! ## Models -/

namespace Model

variable {m : Model}

theorem mapM_eq_none {β : Type} {f : α → Option β} {l : List α} {a : α} (member : a ∈ l)
    (fails : f a = none) : l.mapM f = none := by
  induction l with
  | nil => cases member
  | cons b l ih =>
    rw [List.mapM_cons]
    rcases List.mem_cons.mp member with rfl | later
    · rw [fails]
      rfl
    · rw [ih later]
      cases f b <;> rfl

theorem ofData?_toData_eq (m : Model) :
    ofData? m.toData = ((m.elements.toList.map Element.toData).mapM Element.ofData?).bind
      fun elements => some ⟨elements.toArray⟩ := by
  have fields : Record.ofData? [("elements", .required)] m.toData = some ⟨m.toData.fields⟩ :=
    Record.ofData?_record (by decide) (.refl _)
  rw [ofData?, fields]
  simp [toData, Data.fields, Record.required, Data.list?]

theorem Confined.inside_of_mem (confined : m.Confined) {e : Element} (member : e ∈ m.elements) :
    e.id.index < m.size ∧ e.Inside m.size := by
  obtain ⟨i, below, rfl⟩ := Array.mem_iff_getElem.mp member
  obtain ⟨isId, inside⟩ := confined ⟨i⟩ _ (Array.getElem?_eq_getElem below)
  exact ⟨by rw [isId]; exact below, inside⟩

/-- A model is read back exactly if it has no attribute and ids of 32 bits suffice for it. -/
theorem Confined.ofData?_toData (confined : m.Confined) :
    ofData? m.toData =
      if (∀ e ∈ m.elements, e.kind ≠ .eAttribute) ∧ m.size ≤ 2 ^ 32 then some m else none := by
  rw [ofData?_toData_eq]
  split
  · next fits =>
    obtain ⟨others, small⟩ := fits
    have back : (m.elements.toList.map Element.toData).mapM Element.ofData? =
        some m.elements.toList := by
      refine Data.list?_map fun e member => ?_
      have member := Array.mem_toList_iff.mp member
      exact Element.ofData?_toData (others e member)
        (Element.inside_iff.mp (confined.inside_of_mem member).2 _ fun id below =>
          ElementId.narrow_eq_self_iff.mpr (Nat.lt_of_lt_of_le below small))
    rw [back]
    rfl
  · next fails =>
    obtain ⟨e, member, unread⟩ : ∃ e ∈ m.elements, Element.ofData? e.toData = none := by
      by_cases others : ∀ e ∈ m.elements, e.kind ≠ .eAttribute
      · have large : Nat.pow 2 32 < m.size := Nat.not_le.mp fun small => fails ⟨others, small⟩
        have member := Array.getElem_mem large
        refine ⟨_, member, Element.ofData?_wide (others _ member) ?_⟩
        obtain ⟨isId, -⟩ := confined ⟨Nat.pow 2 32⟩ _ (Array.getElem?_eq_getElem large)
        rw [isId, Ne, ElementId.narrow_eq_self_iff]
        exact Nat.lt_irrefl _
      · obtain ⟨e, member, isAttribute⟩ : ∃ e ∈ m.elements, e.kind = .eAttribute := by
          simpa using others
        exact ⟨e, member, Element.ofData?_attribute isAttribute⟩
    have inList : e.toData ∈ m.elements.toList.map Element.toData :=
      List.mem_map_of_mem (Array.mem_toList_iff.mpr member)
    rw [mapM_eq_none inList unread]
    rfl

end Model

end Metamodel
