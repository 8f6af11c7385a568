import Metamodel.Configuration.Source
import Metamodel.Proofs.DataTypeTable
import Metamodel.Proofs.JsonReading
import Metamodel.Proofs.RecordReading
import Metamodel.Proofs.WrittenPaths

/-!
Settings that are saved and loaded again.

Settings are saved in full. Loaded again, they stand on top of whatever other files say: each value
takes the place of the one below, and fields below that no setting has the name of do not matter. So
they are read as they were, if the table of data types is one that stays the same where it is
registered again; and every table that was read is.

Results:
1. `Data.overlayFields_eq`, `Data.overlayFile_eq`: data on top of other data.
2. `Configuration.Settled.ofData?_overlay`: settings on top of others are read as they are.
3. `Configuration.load_saved`: settings are loaded again from a file.
4. `Configuration.mappings_merged`: what the mappings of data types make of a table, with this.
-/

namespace Metamodel

/-! ## Data on top of other data -/

namespace Data

variable {base : List (String × Data)} {base? : Option Data} {top : List (String × Data)}

theorem lookup_filter_ne {key other : String} (differs : other ≠ key)
    (fields : List (String × Data)) :
    (fields.filter (·.1 ≠ key)).lookup other = fields.lookup other := by
  induction fields with
  | nil => rfl
  | cons field fields ih =>
    obtain ⟨name, d⟩ := field
    by_cases same : name = key
    · subst same
      rw [List.filter_cons_of_neg (by simp), ih, lookup_cons, if_neg differs]
    · rw [List.filter_cons_of_pos (by simpa using same), lookup_cons, ih, lookup_cons]

/-- What is on top stands behind the other fields, each value over the one that was below. -/
theorem overlayFields_eq (lower : ∀ field ∈ top, lowerKey field.1 = field.1)
    (nodup : (top.map Prod.fst).Nodup) (base : List (String × Data)) :
    overlayFields base top =
      base.filter (fun field => field.1 ∉ top.map Prod.fst) ++
        top.map fun field => (field.1, overlay (base.lookup field.1) field.2) := by
  induction top generalizing base with
  | nil => simp [overlayFields]
  | cons field top ih =>
    obtain ⟨key, d⟩ := field
    obtain ⟨isLower, lower⟩ := List.forall_mem_cons.mp lower
    obtain ⟨new, nodup⟩ := List.nodup_cons.mp nodup
    have kept : (base.filter (·.1 ≠ key)).filter (fun field => field.1 ∉ top.map Prod.fst) =
        base.filter fun field => field.1 ∉ ((key, d) :: top).map Prod.fst := by
      rw [List.filter_filter]
      refine List.filter_congr fun field _ => ?_
      by_cases same : field.1 = key <;> simp [same]
    -- The values of the other keys are looked up past the one that is written first.
    have values : (top.map fun field => (field.1, overlay
        ((base.filter (·.1 ≠ key) ++ [(key, overlay (base.lookup key) d)]).lookup field.1)
          field.2)) = top.map fun field => (field.1, overlay (base.lookup field.1) field.2) := by
      refine List.map_congr_left fun field member => ?_
      have differs : field.1 ≠ key := fun same => new (List.mem_map.mpr ⟨field, member, same⟩)
      rw [List.lookup_append, lookup_filter_ne differs, lookup_cons, if_neg differs,
        List.lookup_nil, Option.or_none]
    rw [overlayFields]
    simp only [isLower]
    rw [ih lower nodup, List.filter_append, kept, values,
      List.filter_cons_of_pos (by simpa using new), List.filter_nil, List.append_assoc,
      List.singleton_append]
    rfl

theorem overlay_record (nonempty : top ≠ []) :
    overlay base? (.record top) = .record (overlayFields ((base?.map fields).getD []) top) := by
  cases top with
  | nil => exact absurd rfl nonempty
  | cons field top => rw [overlay]

theorem put_field {field : String × Data} (plain : KeyStep.ofKey field.1 = [.field field.1])
    (base : Data) :
    put field.2 (KeyStep.ofKey field.1) (some base) =
      .record (overlayFields base.fields [field]) := by
  rw [plain]
  rfl

theorem foldl_put (plain : ∀ field ∈ top, KeyStep.ofKey field.1 = [.field field.1])
    (base : List (String × Data)) :
    top.foldl (fun d field => put field.2 (KeyStep.ofKey field.1) (some d)) (.record base) =
      .record (overlayFields base top) := by
  induction top generalizing base with
  | nil => rfl
  | cons field top ih =>
    obtain ⟨first, plain⟩ := List.forall_mem_cons.mp plain
    rw [List.foldl_cons, put_field first, ih plain]
    rfl

/-- A file whose keys are plain names stands on top of a record like another record. -/
theorem overlayFile_eq (plain : ∀ field ∈ top, KeyStep.ofKey field.1 = [.field field.1])
    (nonempty : top ≠ []) (base : Data) :
    overlayFile base (.record top) = overlay (some base) (.record top) := by
  rw [overlay_record nonempty]
  cases top with
  | nil => exact absurd rfl nonempty
  | cons field top =>
    obtain ⟨first, plain⟩ := List.forall_mem_cons.mp plain
    calc (field :: top).foldl (fun d field => put field.2 (KeyStep.ofKey field.1) (some d)) base
      _ = top.foldl (fun d field => put field.2 (KeyStep.ofKey field.1) (some d))
          (.record (overlayFields base.fields [field])) := by rw [List.foldl_cons, put_field first]
      _ = .record (overlayFields (overlayFields base.fields [field]) top) := foldl_put plain _

end Data

/-! ## Settings on top of others -/

variable {v : ValueReader} {shape : List (String × Presence)}

/-- A record on top of another one is read like itself, with each value on top of the other one's,
if it has all fields of the shape. -/
theorem ValueReader.record?_overlay {top : List (String × Data)} (base? : Option Data)
    (names : top.map Prod.fst = shape.map Prod.fst) (declared : (shape.map Prod.fst).Nodup)
    (lower : ∀ name ∈ shape.map Prod.fst, Data.lowerKey name = name) (nonempty : top ≠ []) :
    v.record? shape (Data.overlay base? (.record top)) =
      some ⟨top.map fun field =>
        (field.1, Data.overlay (((base?.map Data.fields).getD []).lookup field.1) field.2)⟩ := by
  have lowerKeys : ∀ field ∈ top, Data.lowerKey field.1 = field.1 := fun field member =>
    lower field.1 (names ▸ List.mem_map_of_mem member)
  rw [Data.overlay_record nonempty, Data.overlayFields_eq lowerKeys (names ▸ declared)]
  refine (congrArg (Record.ofFields? shape) (List.append_nil _).symm).trans
    (Record.ofFields?_infix _ _ [] declared ?_ ?_ (by simp))
  · rw [List.map_map, ← names]
    exact List.Sublist.refl _
  · intro name below known
    obtain ⟨field, member, rfl⟩ := List.mem_map.mp below
    rw [← names] at known
    exact absurd known (by simpa using (List.mem_filter.mp member).2)

/-- Reads flags, texts and kinds of scalars as they are written. -/
structure ValueReader.Faithful (v : ValueReader) : Prop where
  bool : ∀ b, v.bool? (.bool b) = some b
  text : ∀ s, v.text? (.text s) = some s
  kind : ∀ k : ScalarKind, (v.case? (.text k.name)).bind ScalarKind.named? = some k

theorem ValueReader.faithful_exact : exact.Faithful :=
  ⟨fun _ => rfl, fun _ => rfl, ScalarKind.named?_name⟩

theorem ValueReader.faithful_lenient : lenient.Faithful :=
  ⟨fun _ => rfl, fun _ => rfl, fun k => by cases k <;> decide +kernel⟩

@[simp]
theorem Data.overlay_text (base? : Option Data) (s : String) :
    overlay base? (.text s) = .text s := by rw [overlay]

@[simp]
theorem Data.overlay_bool (base? : Option Data) (b : Bool) :
    overlay base? (.bool b) = .bool b := by rw [overlay]

@[simp]
theorem Data.overlay_list (base? : Option Data) (items : List Data) :
    overlay base? (.list items) = .list items := by rw [overlay]

/-- The names of all settings. -/
def settingNames : List String :=
  ["parser", "loader", "codegen", "type_discriminator", "extensions", "skip_prefixes", "naming",
    "types", "emit", "impl_suffix", "keyword_escape", "many", "string_map", "class_ref", "fallback",
    "data_types", "interfaces", "implementations", "model_comments"]

theorem lowerKey_settingNames : ∀ name ∈ settingNames, Data.lowerKey name = name := by
  decide +kernel

theorem ofKey_sections : ∀ name ∈ ["parser", "loader", "codegen"],
    KeyStep.ofKey name = [.field name] := by
  decide +kernel

theorem lower_of_subset {names : List String} (known : names ⊆ settingNames) :
    ∀ name ∈ names, Data.lowerKey name = name :=
  fun name member => lowerKey_settingNames name (known member)

section Reading

variable (faithful : v.Faithful) (base? : Option Data)

include faithful

theorem NamingSettings.ofData?_overlay (s : NamingSettings) :
    ofData? v (Data.overlay base? s.toData) = some s := by
  rw [ofData?, toData, ValueReader.record?_overlay base? rfl (by decide)
    (lower_of_subset (by decide)) (by simp)]
  simp [Data.defaulted?, faithful.text]

theorem DataTypeMapping.ofData?_toData (m : DataTypeMapping) : ofData? v m.toData = some m := by
  have fields : Record.ofData? [("ecore", .required), ("rust", .required), ("scalar", .required)]
      m.toData = some ⟨m.toData.fields⟩ := Record.ofData?_record (by decide) (.refl _)
  have same : v.record? [("ecore", .required), ("rust", .required), ("scalar", .required)]
      m.toData = some ⟨m.toData.fields⟩ := fields
  rw [ofData?, same]
  simp [toData, Data.fields, Record.required, faithful.text, faithful.kind]

theorem TypeSettings.ofData?_overlay (s : TypeSettings)
    (settled : DataTypeTable.configured s.dataTypes = s.dataTypes) :
    ofData? v (Data.overlay base? s.toData) = some s := by
  have table : Data.list? (DataTypeMapping.ofData? v)
      (.list (s.dataTypes.map DataTypeMapping.toData)) = some s.dataTypes :=
    Data.list?_map fun m _ => m.ofData?_toData faithful
  rw [ofData?, toData, ValueReader.record?_overlay base? rfl (by decide)
    (lower_of_subset (by decide)) (by simp)]
  simp [Data.defaulted?, faithful.text, table, settled]

theorem EmitSettings.ofData?_overlay (s : EmitSettings) :
    ofData? v (Data.overlay base? s.toData) = some s := by
  rw [ofData?, toData, ValueReader.record?_overlay base? rfl (by decide)
    (lower_of_subset (by decide)) (by simp)]
  simp [Data.defaulted?, faithful.bool]

theorem GenerationSettings.ofData?_overlay (s : GenerationSettings)
    (settled : DataTypeTable.configured s.types.dataTypes = s.types.dataTypes) :
    ofData? v (Data.overlay base? s.toData) = some s := by
  rw [ofData?, toData, ValueReader.record?_overlay base? rfl (by decide)
    (lower_of_subset (by decide)) (by simp)]
  simp [Data.defaulted?, NamingSettings.ofData?_overlay faithful,
    TypeSettings.ofData?_overlay faithful _ _ settled, EmitSettings.ofData?_overlay faithful]

theorem texts_toData (texts : List String) :
    Data.list? v.text? (.list (texts.map .text)) = some texts :=
  Data.list?_map fun s _ => faithful.text s

theorem LoadSettings.ofData?_overlay (s : LoadSettings) :
    ofData? v (Data.overlay base? s.toData) = some s := by
  rw [ofData?, toData, ValueReader.record?_overlay base? rfl (by decide)
    (lower_of_subset (by decide)) (by simp)]
  simp [Data.defaulted?, texts_toData faithful]

theorem ReadingSettings.ofData?_overlay (s : ReadingSettings) :
    ofData? v (Data.overlay base? s.toData) = some s := by
  rw [ofData?, toData, ValueReader.record?_overlay base? rfl (by decide)
    (lower_of_subset (by decide)) (by simp)]
  simp [Data.defaulted?, faithful.text]

end Reading

namespace Configuration

/-- Registering the mappings of data types again changes nothing. -/
def Settled (c : Configuration) : Prop :=
  DataTypeTable.configured c.generation.types.dataTypes = c.generation.types.dataTypes

open Data.Json (Plain Fits deepest plain_record_iff)

variable {c : Configuration} {d : Data}

theorem defaulted_cases {α : Type} {r : Record} {name : String} {default a : α}
    {read : Data → Option α} (found : r.defaulted name default read = some a) :
    a = default ∨ ∃ d, read d = some a := by
  unfold Record.defaulted at found
  split at found
  · exact .inl (Option.some.inj found).symm
  · next d _ => exact .inr ⟨d, found⟩

theorem configured_of_typeSettings {s : TypeSettings} (read : TypeSettings.ofData? v d = some s) :
    DataTypeTable.configured s.dataTypes = s.dataTypes := by
  unfold TypeSettings.ofData? at read
  simp only [Option.bind_eq_bind, Option.bind_eq_some_iff, Option.pure_def, Option.some.injEq]
    at read
  obtain ⟨r, -, -, -, -, -, -, -, -, -, table, found, rfl⟩ := read
  rcases defaulted_cases found with rfl | ⟨d, listed⟩
  · exact DataTypeTable.configured_configured []
  · obtain ⟨mappings, -, rfl⟩ := Option.map_eq_some_iff.mp listed
    exact DataTypeTable.configured_configured mappings

/-- What is read registers its mappings over the built-in table. -/
theorem settled_of_ofData? (read : ofData? v d = some c) : c.Settled := by
  have builtIn : DataTypeTable.configured DataTypeTable.builtIn = DataTypeTable.builtIn :=
    DataTypeTable.configured_configured []
  unfold ofData? at read
  simp only [Option.bind_eq_bind, Option.bind_eq_some_iff, Option.pure_def, Option.some.injEq]
    at read
  obtain ⟨r, -, -, -, -, -, generation, found, rfl⟩ := read
  rcases defaulted_cases found with rfl | ⟨d, read⟩
  · exact builtIn
  unfold GenerationSettings.ofData? at read
  simp only [Option.bind_eq_bind, Option.bind_eq_some_iff, Option.pure_def, Option.some.injEq]
    at read
  obtain ⟨r, -, -, -, types, found, -, -, rfl⟩ := read
  rcases defaulted_cases found with rfl | ⟨d, read⟩
  · exact builtIn
  · exact configured_of_typeSettings read

/-- Settings on top of any others are read as they are. -/
theorem Settled.ofData?_overlay (settled : c.Settled) (faithful : v.Faithful)
    (base? : Option Data) : ofData? v (Data.overlay base? c.toData) = some c := by
  rw [ofData?, toData, ValueReader.record?_overlay base? rfl (by decide)
    (lower_of_subset (by decide)) (by simp)]
  simp [Data.defaulted?, ReadingSettings.ofData?_overlay faithful,
    LoadSettings.ofData?_overlay faithful,
    GenerationSettings.ofData?_overlay faithful _ _ settled]

theorem load_ok_iff {tree : FileTree} {name? : Option String} :
    load tree name? = .ok c ↔ ∃ files, sources tree name? = .ok files ∧
      ofData? .lenient (files.foldl Data.overlayFile (.record [])) = some c := by
  unfold load
  cases sources tree name? with
  | error error => simp [bind, Except.bind]
  | ok files =>
    cases read : ofData? .lenient (files.foldl Data.overlayFile (.record [])) <;>
      simp [bind, Except.bind, read, pure, Except.pure]

theorem sources_some {tree : FileTree} {name : String} {file : Format × String} {usual : List Data}
    (others : sources tree none = .ok usual) (found : find? tree name = some file)
    (parsed : parse name file = .ok d) : sources tree (some name) = .ok (usual ++ [d]) := by
  unfold sources at others ⊢
  cases read : locations.filterMapM fun name => (find? tree name).mapM (parse name) with
  | error error =>
    rw [read] at others
    cases others
  | ok files =>
    rw [read] at others
    cases others
    simp only [found, parsed, bind, Except.bind, pure, Except.pure]

/-- Settings that were loaded and are found again in a file that is asked for are loaded again,
whatever the other files say. -/
theorem load_saved {tree tree' : FileTree} {name? : Option String} {name : String}
    {file : Format × String} {usual : List Data} (loaded : load tree name? = .ok c)
    (others : sources tree' none = .ok usual) (found : find? tree' name = some file)
    (faithful : parse name file = .ok c.toData) : load tree' (some name) = .ok c := by
  obtain ⟨files, -, read⟩ := load_ok_iff.mp loaded
  refine load_ok_iff.mpr ⟨_, sources_some others found faithful, ?_⟩
  have settled : c.Settled := settled_of_ofData? read
  rw [List.foldl_append, List.foldl_cons, List.foldl_nil, toData, Data.overlayFile_eq ?_ (by simp)]
  · exact settled.ofData?_overlay ValueReader.faithful_lenient _
  · simpa using ofKey_sections

/-- No settings file is found by a name if no file of the tree has the name or an alternative. -/
theorem find?_eq_none {tree : FileTree} {name : String}
    (absent : ∀ other ∈ name :: alternatives name, tree.get? (Path.ofString other) = none) :
    find? tree name = none := by
  obtain ⟨own, others⟩ := List.forall_mem_cons.mp absent
  unfold find?
  cases read : tree.read name with
  | ok content =>
    rw [FileTree.get?_of_read read] at own
    cases own
  | error fault =>
    refine List.findSome?_eq_none_iff.mpr fun other member => ?_
    unfold fileAt?
    cases readOther : tree.read other with
    | ok content =>
      have none := others other member
      rw [FileTree.get?_of_read readOther] at none
      cases none
    | error fault => rfl

/-! ## A file that is saved -/

/-- A single settings file that holds a record as JSON. -/
def saved (fields : List (String × Data)) : FileTree :=
  { files := [(["settings.json"], (Data.record fields).compact.toUTF8.data.toList)] }

theorem withExtension?_eq (name extension : String) : withExtension? name extension =
    match ((name.toList.splitOnP (· == '/')).map String.ofList).reverse.dropWhile Path.stays with
    | [] | ".." :: _ => none
    | parts => some ("/".intercalate parts.reverse ++ "." ++ extension) := by
  have cut := Path.parts_eq name
  unfold withExtension?
  generalize Path.parts name = parts at cut ⊢
  subst cut
  rfl

theorem ofString_ne_settings : ∀ name ∈ locations, ∀ other ∈ name :: alternatives name,
    Path.ofString other ≠ ["settings.json"] := by
  have eta (name : String) : alternatives name =
      (Format.all.flatMap Format.extensions).filterMap fun e => withExtension? name e := rfl
  simp only [eta, withExtension?_eq, Path.ofString, Path.parts_eq]
  decide +kernel

variable (fields : List (String × Data))

theorem sources_saved_none : sources (saved fields) none = .ok [] := by
  have none : ∀ name ∈ locations, find? (saved fields) name = none := by
    intro name usual
    refine find?_eq_none fun other member => ?_
    have differs := ofString_ne_settings name usual other member
    unfold FileTree.get? saved
    rw [List.lookup_cons, beq_false_of_ne differs]
    rfl
  have empty : locations.filterMapM (fun name => (find? (saved fields) name).mapM (parse name)) =
      (.ok [] : Except Error (List Data)) := by
    simp only [locations, List.forall_mem_cons] at none ⊢
    obtain ⟨first, second, third, -⟩ := none
    simp [List.filterMapM_cons, first, second, third]
    rfl
  unfold sources
  rw [empty]
  rfl

theorem read_saved : (saved fields).read "settings.json" =
    .ok (Data.record fields).compact.toUTF8.data.toList := by
  have start : Path.start "settings.json" = [] := by decide +kernel
  have parts : Path.parts "settings.json" = ["settings.json"] := by
    rw [Path.parts_eq]
    decide +kernel
  simp [FileTree.read, FileTree.locate, FileTree.follow, start, parts, FileTree.step,
    FileTree.isDirectory, Path.step, Path.stays, FileTree.get?, saved, bind, Except.bind, pure,
    Except.pure]

/-- The text of a record begins with a brace and not with a byte order mark. -/
theorem withoutMark_compact :
    withoutMark (Data.record fields).compact = (Data.record fields).compact := by
  have first : (Data.record fields).compact.toList.head? = some '\x7b' := by
    rw [Data.Json.Layout.toList_compact 0, Data.Json.Layout.write]
    cases Data.Json.Layout.writeFields .compact (0 + 1) fields <;> rfl
  unfold withoutMark
  split
  · next marked =>
    rw [marked] at first
    exact absurd (Option.some.inj first) (by decide)
  · rfl

theorem formatOf?_saved : formatOf? "settings.json" = some .json := by
  have path : Path.ofString "settings.json" = ["settings.json"] := by
    rw [Path.ofString, Path.parts_eq]
    decide +kernel
  have extension : Path.extension? "settings.json" = some "json" := by
    rw [Path.extension?_eq]
    decide +kernel
  rw [formatOf?, path]
  simp only [List.getLast?_singleton, Option.bind_some, extension]
  decide

theorem find?_saved :
    find? (saved fields) "settings.json" = some (.json, (Data.record fields).compact) := by
  have text : String.fromUTF8? ⟨(Data.record fields).compact.toUTF8.data.toList.toArray⟩ =
      some (Data.record fields).compact := by
    rw [Array.toArray_toList, String.fromUTF8?]
    exact dif_pos (Data.record fields).compact.isValidUTF8
  rw [find?, read_saved]
  dsimp only
  rw [fileAt?, read_saved]
  simp only [Except.toOption, text, formatOf?_saved, withoutMark_compact, Option.bind_eq_bind,
    Option.bind_some, Option.pure_def]

variable {fields}

theorem parse_saved (plain : Plain Fits deepest (.record fields)) :
    parse "settings.json" (.json, (Data.record fields).compact) = .ok (.record fields) := by
  have read : Format.read? .json (Data.record fields).compact = some (.record fields) :=
    Data.Json.read?_compact plain
  unfold parse
  rw [read]

theorem plain_mapping {nesting : Nat} (m : DataTypeMapping) :
    Plain Fits (nesting + 1) m.toData := by
  simp [DataTypeMapping.toData, plain_record_iff]

/-- Settings hold texts and flags only, and each record of them its own names. -/
theorem plain_toData (c : Configuration) {nesting : Nat} : Plain Fits (nesting + 5) c.toData := by
  simp [toData, plain_record_iff, ReadingSettings.toData, LoadSettings.toData,
    GenerationSettings.toData, NamingSettings.toData, TypeSettings.toData, EmitSettings.toData,
    plain_mapping]

/-! ## Loading, saving and loading again -/

/-- The table of data types for a list of mappings has each name once. A name has the last mapping
of the list for it, or else the built-in one, or else none. The built-in names stand in their
places, and the new ones behind them in the order in which they come first. What results stays the
same where it is registered again, so settings that are loaded, saved in a file and loaded again
from it are the same, whatever other files there are. Variables of the environment, which would be
put on top of the files both times, are no part of loading here. -/
theorem mappings_merged (mappings : List DataTypeMapping) :
    (DataTypeTable.configured mappings).names.Nodup ∧
    (∀ name, (DataTypeTable.configured mappings).find? name =
      (mappings.reverse.find? fun mapping => mapping.dataType = name).or
        (DataTypeTable.builtIn.find? name)) ∧
    (DataTypeTable.configured mappings).names = DataTypeTable.builtIn.names ++
      ((DataTypeTable.names mappings).filter (· ∉ DataTypeTable.builtIn.names)).eraseDups ∧
    DataTypeTable.configured (DataTypeTable.configured mappings) =
      DataTypeTable.configured mappings ∧
    ∀ (c : Configuration) (tree tree' : FileTree) (name? : Option String) (name : String)
      (file : Format × String) (usual : List Data), load tree name? = .ok c →
      sources tree' none = .ok usual → find? tree' name = some file →
      parse name file = .ok c.toData → load tree' (some name) = .ok c :=
  ⟨DataTypeTable.nodup_names_configured mappings,
    DataTypeTable.find?_foldl_register mappings DataTypeTable.builtIn,
    DataTypeTable.names_foldl_register mappings DataTypeTable.builtIn,
    DataTypeTable.configured_configured mappings,
    fun _ _ _ _ _ _ _ loaded others found faithful => load_saved loaded others found faithful⟩

/-- Mappings of two data types, one of them built in and the other one given twice. -/
def dated : List DataTypeMapping :=
  [⟨"EDate", "SystemTime", .other⟩, ⟨"ELong", "i128", .integer⟩, ⟨"EDate", "u64", .integer⟩]

/-- A file that has these mappings and nothing else. -/
def ownFields : List (String × Data) :=
  [("codegen", .record [("types", .record [("data_types",
    .list (dated.map DataTypeMapping.toData))])])]

def datedConfiguration : Configuration :=
  { generation := { types := { dataTypes := DataTypeTable.configured dated } } }

theorem read_ownFields : ofData? .lenient (Data.overlayFile (.record []) (.record ownFields)) =
    some datedConfiguration := by
  decide +kernel

theorem load_ownFields :
    load (saved ownFields) (some "settings.json") = .ok datedConfiguration := by
  have plain : Plain Fits deepest (.record ownFields) := by
    simp [ownFields, deepest, plain_record_iff, plain_mapping]
  exact load_ok_iff.mpr ⟨_, sources_some (sources_saved_none _) (find?_saved _) (parse_saved plain),
    read_ownFields⟩

theorem mappings_merged_dated :
    (DataTypeTable.configured dated).find? "EDate" = some ⟨"EDate", "u64", .integer⟩ ∧
      (DataTypeTable.configured dated).names = DataTypeTable.builtIn.names ++ ["EDate"] ∧
      ∃ fields, datedConfiguration.toData = .record fields ∧
        load (saved fields) (some "settings.json") = .ok datedConfiguration := by
  obtain ⟨-, found, names, -, reload⟩ := mappings_merged dated
  refine ⟨(found "EDate").trans (by decide), names.trans (by decide), _, rfl, ?_⟩
  exact reload _ _ _ _ _ _ _ load_ownFields (sources_saved_none _) (find?_saved _)
    (parse_saved datedConfiguration.plain_toData)

end Configuration

end Metamodel
