import Mathlib.Data.List.Infix
import Mathlib.Data.List.Nodup
import Metamodel.Generation.TypeTable

/-!
Tables of data types.

A mapping that is registered takes the place of the one for the same data type, or comes last. So a
table keeps its names in their places and gets the new ones in the order in which they come first.
To register a table over one that it begins like puts each of its mappings in the place that it has
already: the table is what results.

Results:
1. `find?_foldl_register`, `names_foldl_register`: what is found, and the names with their places.
2. `foldl_register_of_prefix`: a table that is registered again.
-/

namespace Metamodel.DataTypeTable

variable {t u : DataTypeTable} {entry mapping : DataTypeMapping}

/-- The data types of a table. -/
def names (t : DataTypeTable) : List String := t.map DataTypeMapping.dataType

@[simp]
theorem names_nil : names [] = [] := rfl

@[simp]
theorem names_cons : names (entry :: t) = entry.dataType :: t.names := rfl

@[simp]
theorem names_append : names (t ++ u) = t.names ++ u.names := List.map_append

theorem register_append_of_not_mem (new : mapping.dataType ∉ t.names) :
    register (t ++ u) mapping = t ++ register u mapping := by
  induction t with
  | nil => rfl
  | cons entry t ih =>
    rw [names_cons, List.mem_cons, not_or] at new
    rw [List.cons_append, register, if_neg fun same => new.1 same.symm, ih new.2, List.cons_append]

theorem names_register (t : DataTypeTable) (mapping : DataTypeMapping) :
    (t.register mapping).names =
      if mapping.dataType ∈ t.names then t.names else t.names ++ [mapping.dataType] := by
  induction t with
  | nil => rfl
  | cons entry t ih =>
    unfold register
    by_cases same : entry.dataType = mapping.dataType
    · simp [same]
    · rw [if_neg same, names_cons, ih, names_cons]
      simp only [List.mem_cons, Ne.symm same, false_or]
      split <;> rfl

/-- What is registered comes behind the names of the table, the first of each name in its place. -/
theorem names_foldl_register (mappings : List DataTypeMapping) (t : DataTypeTable) :
    (mappings.foldl register t).names =
      t.names ++ ((names mappings).filter (· ∉ t.names)).eraseDups := by
  induction mappings generalizing t with
  | nil => simp
  | cons mapping mappings ih =>
    rw [List.foldl_cons, ih, names_register, names_cons]
    by_cases known : mapping.dataType ∈ t.names
    · simp [known]
    · have others : (names mappings).filter (· ∉ t.names ++ [mapping.dataType]) =
          ((names mappings).filter (· ∉ t.names)).filter
            fun name => !(name == mapping.dataType) := by
        rw [List.filter_filter]
        refine List.filter_congr fun name _ => ?_
        by_cases same : name = mapping.dataType <;> simp [same]
      rw [if_neg known, List.filter_cons_of_pos (by simpa using known), List.eraseDups_cons, others,
        List.append_assoc, List.singleton_append]

theorem nodup_names_foldl_register (mappings : List DataTypeMapping) (nodup : t.names.Nodup) :
    (mappings.foldl register t).names.Nodup := by
  induction mappings generalizing t with
  | nil => exact nodup
  | cons mapping mappings ih =>
    refine ih ?_
    rw [names_register]
    split
    · exact nodup
    · next new => exact List.nodup_append_comm.mp (List.nodup_cons.mpr ⟨new, nodup⟩)

/-- The last mapping that is registered for a data type is found, or else that of the table. -/
theorem find?_foldl_register (mappings : List DataTypeMapping) (t : DataTypeTable) (name : String) :
    (mappings.foldl register t).find? name =
      (mappings.reverse.find? fun mapping => mapping.dataType = name).or (t.find? name) := by
  induction mappings generalizing t with
  | nil => rfl
  | cons mapping mappings ih =>
    rw [List.foldl_cons, ih, find?_register, List.reverse_cons, List.find?_append, Option.or_assoc]
    congr 1
    by_cases same : mapping.dataType = name
    · simp [same]
    · simp [same, Ne.symm same]

/-- Entries are settled from the front: those in `before` have been written, and they stay. -/
theorem foldl_register_append (before rest t : DataTypeTable)
    (nodup : (before ++ rest).names.Nodup) (isPrefix : t.names <+: rest.names) :
    rest.foldl register (before ++ t) = before ++ rest := by
  induction rest generalizing before t with
  | nil =>
    have none : t = [] := by simpa [names] using isPrefix
    rw [none, List.foldl_nil]
  | cons entry rest ih =>
    have new : entry.dataType ∉ before.names := by
      rw [names_append, List.nodup_append'] at nodup
      exact fun known => nodup.2.2 known List.mem_cons_self
    rw [List.append_cons] at nodup
    have placed (t' : DataTypeTable) (isPrefix : t'.names <+: names rest) :
        rest.foldl register (before ++ entry :: t') = before ++ entry :: rest := by
      rw [List.append_cons, ih _ _ nodup isPrefix, List.append_cons before entry rest]
    rw [List.foldl_cons, register_append_of_not_mem new]
    cases t with
    | nil => exact placed [] List.nil_prefix
    | cons first t =>
      obtain ⟨same, others⟩ := List.cons_prefix_cons.mp isPrefix
      rw [register, if_pos same]
      exact placed t others

/-- Each mapping takes the place that it has already. -/
theorem foldl_register_of_prefix (nodup : u.names.Nodup) (isPrefix : t.names <+: u.names) :
    u.foldl register t = u :=
  foldl_register_append [] u t nodup isPrefix

theorem nodup_names_configured (mappings : List DataTypeMapping) :
    (configured mappings).names.Nodup :=
  nodup_names_foldl_register mappings (by decide)

theorem configured_configured (mappings : List DataTypeMapping) :
    configured (configured mappings) = configured mappings := by
  refine foldl_register_of_prefix (nodup_names_configured mappings) ?_
  rw [configured, names_foldl_register]
  exact List.prefix_append _ _

end Metamodel.DataTypeTable
