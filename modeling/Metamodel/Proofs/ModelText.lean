import Metamodel.Proofs.JsonReading
import Metamodel.Proofs.RecordReading

/-!
Models as JSON texts.

The records of a model are nested a few deep and hold texts, flags, numbers of 32 bits and ids, so
all that a text could lose is a name that a record has twice. Every part of an element has distinct
names. The record that an element shares with what it carries has them too, for all kinds but one:
the identifier flag of an attribute has the name of the id. So the JSON of a model is read back
exactly if the model has no attribute.

Results:
1. `Element.plain_toData`, `Model.plain_toData`: the data that a text can say.
2. `Made.json_readBack`: models and their elements are read back.
-/

namespace Metamodel

open Data.Json (Plain EachPlain plain_record_iff)

variable {fits : Int → Prop} {nesting : Nat}

namespace ElementId

@[simp]
theorem plain_toData {id : ElementId} : Plain fits nesting id.toData ↔ fits id.index :=
  Data.Json.plain_int_iff

end ElementId

@[simp]
theorem plain_idsToData {ids : List ElementId} :
    Plain fits (nesting + 1) (idsToData ids) ↔ ∀ id ∈ ids, fits id.index := by
  simp [idsToData]

@[simp]
theorem Link.plain_toData {link : Link} :
    Plain fits (nesting + 1) link.toData ↔ ∀ id ∈ link.target?, fits id.index := by
  cases link <;> simp [Link.toData, plain_record_iff, Link.target?]

@[simp]
theorem plain_linksToData {links : List Link} :
    Plain fits (nesting + 2) (linksToData links) ↔
      ∀ link ∈ links, ∀ id ∈ link.target?, fits id.index := by
  simp [linksToData]

theorem plain_table_iff {α : Type} {write : α → Data} {table : OrderedMap α} :
    Plain fits (nesting + 1)
        (.record (table.entries.map fun entry => (entry.1, write entry.2))) ↔
      ∀ a ∈ table.values, Plain fits nesting (write a) := by
  have keys : ((table.entries.map fun entry => (entry.1, write entry.2)).map Prod.fst).Nodup := by
    rw [List.map_map]
    exact table.nodup_keys
  rw [plain_record_iff, and_iff_right keys, EachPlain, OrderedMap.values, List.forall_mem_map,
    List.forall_mem_map]

@[simp]
theorem plain_tableToData {table : OrderedMap ElementId} :
    Plain fits (nesting + 1) (tableToData table) ↔ ∀ id ∈ table.values, fits id.index := by
  simp [tableToData, plain_table_iff]

@[simp]
theorem Classifier.plain_toData {c : Classifier} :
    Plain fits (nesting + 2) c.toData ↔
      (∀ id ∈ c.typeParameters, fits id.index) ∧ ∀ id ∈ c.package, fits id.index := by
  have keys := c.keys_toData.nodup (by decide)
  simp only [toData, Data.fields] at keys ⊢
  rw [plain_record_iff, and_iff_right keys]
  simp

theorem TypedElement.plain_toData (fits32 : ∀ i : Int32, fits i.toInt) {t : TypedElement} :
    Plain fits (nesting + 2) t.toData ↔
      (∀ link ∈ t.eType, ∀ id ∈ link.target?, fits id.index) ∧
        ∀ id ∈ t.genericType, fits id.index := by
  have keys := t.keys_toData.nodup (by decide)
  simp only [toData, Data.fields] at keys ⊢
  rw [plain_record_iff, and_iff_right keys]
  simp [fits32]

theorem StructuralFeature.plain_toData (fits32 : ∀ i : Int32, fits i.toInt)
    {s : StructuralFeature} :
    Plain fits (nesting + 3) s.toData ↔
      ((∀ link ∈ s.eType, ∀ id ∈ link.target?, fits id.index) ∧
        ∀ id ∈ s.genericType, fits id.index) ∧ ∀ id ∈ s.containingClass, fits id.index := by
  have keys := s.keys_toData.nodup (by decide)
  simp only [toData, Data.fields] at keys ⊢
  rw [plain_record_iff, and_iff_right keys]
  simp [TypedElement.plain_toData fits32]

namespace EDataType

@[simp]
theorem eachPlain_toFields {t : EDataType} :
    EachPlain fits (nesting + 2) t.toFields ↔
      (∀ id ∈ t.typeParameters, fits id.index) ∧ ∀ id ∈ t.package, fits id.index := by
  simp [toFields]

@[simp]
theorem plain_toFields {t : EDataType} :
    Plain fits (nesting + 3) (.record t.toFields) ↔
      (∀ id ∈ t.typeParameters, fits id.index) ∧ ∀ id ∈ t.package, fits id.index := by
  have keys : (t.toFields.map Prod.fst).Nodup := (by decide : ["classifier", "serializable"].Nodup)
  rw [plain_record_iff, and_iff_right keys, eachPlain_toFields]

end EDataType

theorem Body.eachPlain_toFields (fits32 : ∀ i : Int32, fits i.toInt) {b : Body} :
    EachPlain fits (nesting + 3) b.toFields ↔ ∀ id ∈ b.ids, fits id.index := by
  cases b <;>
    simp [toFields, ids, Slot.all, LinkField.all, members, links, noted?, noteContents, typed?,
      note?, TypedElement.plain_toData fits32, StructuralFeature.plain_toData fits32, fits32,
      plain_table_iff] <;>
    grind

namespace Element

variable {e : Element}

/-- The record of an element has no name twice, unless the element is an attribute. -/
theorem nodup_keys_iff :
    ((e.ownFields ++ e.kindFields).map Prod.fst).Nodup ↔ e.kind ≠ .eAttribute := by
  constructor
  · intro nodup isAttribute
    obtain ⟨more, fields, again⟩ := id_mem_keys_attribute isAttribute
    rw [fields, List.map_cons] at nodup
    exact (List.nodup_cons.mp nodup).1 again
  · intro other
    rw [List.map_append, List.nodup_append']
    refine ⟨e.keys_ownFields.nodup (by decide), List.nodup_cons.mpr ⟨fun again => ?_, ?_⟩, ?_⟩
    · exact kind_not_mem_shape e.kind (e.body.keys_toFields.subset again)
    · exact e.body.keys_toFields.nodup (Body.nodup_shape e.kind)
    · intro name own carried
      exact keys_kindFields other name carried (e.keys_ownFields.subset own)

theorem plain_toData (fits32 : ∀ i : Int32, fits i.toInt) :
    Plain fits (nesting + 4) e.toData ↔
      e.kind ≠ .eAttribute ∧ ∀ id ∈ e.ids, fits id.index := by
  rw [toData_eq, plain_record_iff, nodup_keys_iff]
  refine and_congr_right fun _ => ?_
  simp [ownFields, kindFields, ids, Body.eachPlain_toFields fits32]
  grind

/-- An attribute has two fields of one name. -/
theorem distinct_toData : e.toData.Distinct ↔ e.kind ≠ .eAttribute := by
  constructor
  · intro distinct
    rw [toData_eq] at distinct
    cases distinct with
    | record nodup _ => exact nodup_keys_iff.mp nodup
  · intro other
    have plain : Plain (fun _ => True) 4 e.toData :=
      (plain_toData fun _ => trivial).mpr ⟨other, fun _ _ => trivial⟩
    exact plain.distinct

end Element

namespace Model

variable {m : Model}

theorem plain_toData (fits32 : ∀ i : Int32, fits i.toInt) :
    Plain fits (nesting + 6) m.toData ↔
      ∀ e ∈ m.elements, e.kind ≠ .eAttribute ∧ ∀ id ∈ e.ids, fits id.index := by
  simp [toData, plain_record_iff, Element.plain_toData fits32]

theorem distinct_toData :
    m.toData.Distinct ↔ ∀ e ∈ m.elements, e.kind ≠ .eAttribute := by
  constructor
  · intro distinct e member
    cases distinct with
    | record _ each =>
      cases each _ List.mem_cons_self with
      | list each =>
        exact Element.distinct_toData.mp
          (each _ (List.mem_map_of_mem (Array.mem_toList_iff.mpr member)))
  · intro others
    have plain : Plain (fun _ => True) 6 m.toData :=
      (plain_toData fun _ => trivial).mpr fun e member => ⟨others e member, fun _ _ => trivial⟩
    exact plain.distinct

theorem fits_int32 (i : Int32) : Data.Json.Fits i.toInt := by
  have least : -Int.pow 2 63 ≤ -2 ^ 31 := by decide
  have greatest : (2 : Int) ^ 31 ≤ Int.pow 2 63 := by decide
  exact ⟨least.trans i.le_toInt, i.toInt_lt.trans_le greatest⟩

theorem fits_natCast {n : Nat} (small : n < 2 ^ 32) : Data.Json.Fits n := by
  have greatest : 2 ^ 32 ≤ Nat.pow 2 63 := by decide
  have least : -Int.pow 2 63 ≤ 0 := by decide
  exact ⟨least.trans (Int.natCast_nonneg n), Int.ofNat_lt.mpr (Nat.lt_of_lt_of_le small greatest)⟩

theorem Confined.ids_fit (confined : m.Confined) (small : m.size ≤ 2 ^ 32) {e : Element}
    (member : e ∈ m.elements) : ∀ id ∈ e.ids, Data.Json.Fits id.index := fun id held =>
  fits_natCast (Nat.lt_of_lt_of_le ((confined.inside_of_mem member).2 id held) small)

/-- The JSON of a model has no object with a name twice, and the model is read back from it, exactly
if no element is an attribute. -/
theorem Made.json_readBack (made : m.Made) :
    (∀ e ∈ m.elements, (e.toData.Distinct ↔ e.kind ≠ .eAttribute) ∧
      (e.kind = .eAttribute → Element.ofData? e.toData = none) ∧
      (e.kind ≠ .eAttribute → m.size ≤ 2 ^ 32 →
        (Data.Json.read? e.toData.compact).bind Element.ofData? = some e)) ∧
    (m.toData.Distinct ↔ ∀ e ∈ m.elements, e.kind ≠ .eAttribute) ∧
    ofData? m.toData =
      (if (∀ e ∈ m.elements, e.kind ≠ .eAttribute) ∧ m.size ≤ 2 ^ 32 then some m else none) ∧
    ((∀ e ∈ m.elements, e.kind ≠ .eAttribute) → m.size ≤ 2 ^ 32 →
      (Data.Json.read? (m.toData.pretty 0)).bind ofData? = some m) := by
  have confined := made.confined
  refine ⟨fun e member => ⟨Element.distinct_toData, Element.ofData?_attribute, ?_⟩, distinct_toData,
    confined.ofData?_toData, ?_⟩
  · intro other small
    have plain : Plain Data.Json.Fits Data.Json.deepest e.toData :=
      (Element.plain_toData fits_int32).mpr ⟨other, confined.ids_fit small member⟩
    rw [Data.Json.read?_compact plain, Option.bind_some]
    exact Element.ofData?_toData other
      (Element.inside_iff.mp (confined.inside_of_mem member).2 _ fun id below =>
        ElementId.narrow_eq_self_iff.mpr (Nat.lt_of_lt_of_le below small))
  · intro others small
    have plain : Plain Data.Json.Fits Data.Json.deepest m.toData :=
      (plain_toData fits_int32).mpr fun e member => ⟨others e member, confined.ids_fit small member⟩
    rw [Data.Json.read?_pretty plain, Option.bind_some, confined.ofData?_toData,
      if_pos ⟨others, small⟩]

/-- A package with a class whose items have parts. -/
def shop : Model :=
  leftBy (build {} "type"
    [.opening "EPackage" (.ofList [("name", "shop")]),
      .opening "eClasses" (.ofList [("name", "Item")]),
      .opening "eReferences" (.ofList [("name", "parts"), ("eType", "#//Item")]), .closing,
      .closing, .closing] none)

theorem json_readBack_shop :
    shop.size = 3 ∧ (∀ e ∈ shop.elements, e.toData.Distinct) ∧
      (Data.Json.read? (shop.toData.pretty 0)).bind ofData? = some shop := by
  have noAttribute : ∀ e ∈ shop.elements, e.kind ≠ .eAttribute := by decide +kernel
  have size : shop.size = 3 := by decide +kernel
  have small : shop.size ≤ 2 ^ 32 := by
    rw [size]
    decide
  have made : shop.Made := .built .empty
  obtain ⟨each, -, -, whole⟩ := made.json_readBack
  exact ⟨size, fun e member => (each e member).1.mpr (noAttribute e member),
    whole noAttribute small⟩

/-- A single attribute. -/
def lone : Model := create {} .eAttribute (some "size")

/-- The record of a single attribute has the name of the id twice, and the model is not read
back. -/
theorem json_not_readBack : lone.Made ∧ ¬ lone.toData.Distinct ∧ ofData? lone.toData = none := by
  have made : lone.Made := .created .empty
  have isAttribute : ¬ ∀ e ∈ lone.elements, e.kind ≠ .eAttribute := by decide
  refine ⟨made, fun all => isAttribute (distinct_toData.mp all), ?_⟩
  rw [made.confined.ofData?_toData, if_neg fun both => isAttribute both.1]

end Model

end Metamodel
