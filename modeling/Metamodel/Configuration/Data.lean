import Metamodel.Configuration.Basic
import Metamodel.Data.Record

/-!
Settings as data, written in full and read with defaults for everything that is left out.

The mappings of data types that are read are registered over the built-in ones, so what is written
and read again stays the same.
-/

namespace Metamodel

/-- How the plain values of settings are read. -/
structure ValueReader where
  bool? : Data → Option Bool
  text? : Data → Option String
  /-- The name of one of several cases, given as text or as a record with one field. -/
  case? : Data → Option String
  /-- Whether a list of the values of fields may go on after the last of them. -/
  ignoresSurplus : Bool

namespace ValueReader

/-- Takes only values of the right type. -/
def exact : ValueReader where
  bool? := Data.bool?
  text? := Data.text?
  case?
    | .text name => some name
    | .record [(name, .null)] => some name
    | _ => none
  ignoresSurplus := false

def lenientBool? : Data → Option Bool
  | .bool b => some b
  | .int i => some (i ≠ 0)
  | .number x => some !x.isZero
  | .text s =>
    let lower := s.map Char.toLower
    if ["1", "true", "on", "yes"].contains lower then some true
    else if ["0", "false", "off", "no"].contains lower then some false
    else none
  | _ => none

def lenientText? : Data → Option String
  | .text s => some s
  | .bool b => some (if b then "true" else "false")
  | .int i => some (toString i)
  | .number x => some x.text
  | _ => none

def lenientCase? : Data → Option String
  | .text name => some (name.map Char.toLower)
  | .record [(name, _)] => some (name.map Char.toLower)
  | _ => none

/-- Takes booleans and numbers as text, numbers and the usual words as booleans, and the names of
cases in any letter case. -/
def lenient : ValueReader where
  bool? := lenientBool?
  text? := lenientText?
  case? := lenientCase?
  ignoresSurplus := true

/-- The declared fields of a record. -/
def record? (v : ValueReader) (shape : List (String × Presence)) : Data → Option Record
  | .list items =>
    Record.ofItems? shape (if v.ignoresSurplus then items.take shape.length else items)
  | d => Record.ofData? shape d

end ValueReader

namespace ScalarKind

def named? (name : String) : Option ScalarKind := all.find? fun kind => kind.name = name

theorem named?_name (kind : ScalarKind) : named? kind.name = some kind := by
  cases kind <;> decide

end ScalarKind

variable (v : ValueReader)

namespace DataTypeMapping

def toData (m : DataTypeMapping) : Data :=
  .record [("ecore", .text m.dataType), ("rust", .text m.written), ("scalar", .text m.kind.name)]

def ofData? (d : Data) : Option DataTypeMapping := do
  let r ← v.record? [("ecore", .required), ("rust", .required), ("scalar", .required)] d
  return {
    dataType := ← r.required "ecore" v.text?
    written := ← r.required "rust" v.text?
    kind := ← r.required "scalar" fun d => (v.case? d).bind ScalarKind.named? }

end DataTypeMapping

namespace NamingSettings

def toData (s : NamingSettings) : Data :=
  .record [("impl_suffix", .text s.structSuffix), ("keyword_escape", .text s.keywordEscape)]

def ofData? (d : Data) : Option NamingSettings := do
  let r ← v.record? [("impl_suffix", .defaulted), ("keyword_escape", .defaulted)] d
  let default : NamingSettings := {}
  return {
    structSuffix := ← r.defaulted "impl_suffix" default.structSuffix v.text?
    keywordEscape := ← r.defaulted "keyword_escape" default.keywordEscape v.text? }

end NamingSettings

namespace TypeSettings

def toData (s : TypeSettings) : Data :=
  .record [("many", .text s.many), ("string_map", .text s.stringMap),
    ("class_ref", .text s.classRef), ("fallback", .text s.fallback),
    ("data_types", .list (s.dataTypes.map DataTypeMapping.toData))]

def ofData? (d : Data) : Option TypeSettings := do
  let r ← v.record? [("many", .defaulted), ("string_map", .defaulted),
    ("class_ref", .defaulted), ("fallback", .defaulted), ("data_types", .defaulted)] d
  let default : TypeSettings := {}
  return {
    many := ← r.defaulted "many" default.many v.text?
    stringMap := ← r.defaulted "string_map" default.stringMap v.text?
    classRef := ← r.defaulted "class_ref" default.classRef v.text?
    fallback := ← r.defaulted "fallback" default.fallback v.text?
    dataTypes := ← r.defaulted "data_types" default.dataTypes fun d =>
      (d.list? (DataTypeMapping.ofData? v)).map DataTypeTable.configured }

end TypeSettings

namespace EmitSettings

def toData (s : EmitSettings) : Data :=
  .record [("interfaces", .bool s.interfaces), ("implementations", .bool s.implementations),
    ("model_comments", .bool s.summaries)]

def ofData? (d : Data) : Option EmitSettings := do
  let r ← v.record? [("interfaces", .defaulted), ("implementations", .defaulted),
    ("model_comments", .defaulted)] d
  return {
    interfaces := ← r.defaulted "interfaces" true v.bool?
    implementations := ← r.defaulted "implementations" true v.bool?
    summaries := ← r.defaulted "model_comments" true v.bool? }

end EmitSettings

namespace GenerationSettings

def toData (s : GenerationSettings) : Data :=
  .record [("naming", s.naming.toData), ("types", s.types.toData), ("emit", s.emit.toData)]

def ofData? (d : Data) : Option GenerationSettings := do
  let r ← v.record? [("naming", .defaulted), ("types", .defaulted), ("emit", .defaulted)] d
  return {
    naming := ← r.defaulted "naming" {} (NamingSettings.ofData? v)
    types := ← r.defaulted "types" {} (TypeSettings.ofData? v)
    emit := ← r.defaulted "emit" {} (EmitSettings.ofData? v) }

end GenerationSettings

namespace LoadSettings

def toData (s : LoadSettings) : Data :=
  .record [("extensions", .list (s.extensions.map .text)),
    ("skip_prefixes", .list (s.skipped.map .text))]

def ofData? (d : Data) : Option LoadSettings := do
  let r ← v.record? [("extensions", .defaulted), ("skip_prefixes", .defaulted)] d
  let default : LoadSettings := {}
  return {
    extensions := ← r.defaulted "extensions" default.extensions (Data.list? v.text?)
    skipped := ← r.defaulted "skip_prefixes" default.skipped (Data.list? v.text?) }

end LoadSettings

namespace ReadingSettings

def toData (s : ReadingSettings) : Data :=
  .record [("type_discriminator", .text s.discriminator)]

def ofData? (d : Data) : Option ReadingSettings := do
  let r ← v.record? [("type_discriminator", .defaulted)] d
  let default : ReadingSettings := {}
  return {
    discriminator := ← r.defaulted "type_discriminator" default.discriminator v.text? }

end ReadingSettings

namespace Configuration

def toData (c : Configuration) : Data :=
  .record [("parser", c.reading.toData), ("loader", c.loading.toData),
    ("codegen", c.generation.toData)]

def ofData? (d : Data) : Option Configuration := do
  let r ← v.record? [("parser", .defaulted), ("loader", .defaulted), ("codegen", .defaulted)] d
  return {
    reading := ← r.defaulted "parser" {} (ReadingSettings.ofData? v)
    loading := ← r.defaulted "loader" {} (LoadSettings.ofData? v)
    generation := ← r.defaulted "codegen" {} (GenerationSettings.ofData? v) }

end Configuration

end Metamodel
