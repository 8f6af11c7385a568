/-!
Finite maps from names to values that remember the order in which the names were first inserted.

Results:
1. `get?_insert`: looking up after an insertion.
2. `keys_insert`: a new key goes to the end, a known one keeps its place.
-/

namespace Metamodel

/-- A list of named values in which no name occurs twice. -/
structure OrderedMap (α : Type) where
  entries : List (String × α)
  nodup_keys : (entries.map Prod.fst).Nodup
  deriving DecidableEq

namespace OrderedMap

variable {α : Type}

def empty : OrderedMap α := ⟨[], List.nodup_nil⟩

instance : EmptyCollection (OrderedMap α) := ⟨empty⟩

instance : Inhabited (OrderedMap α) := ⟨∅⟩

def keys (m : OrderedMap α) : List String := m.entries.map Prod.fst

def values (m : OrderedMap α) : List α := m.entries.map Prod.snd

def get? (m : OrderedMap α) (key : String) : Option α := m.entries.lookup key

def contains (m : OrderedMap α) (key : String) : Bool := (m.get? key).isSome

/-- Gives the entry of `key`, wherever it stands, the value `value`. -/
def replaceValue (key : String) (value : α) (entry : String × α) : String × α :=
  if entry.1 = key then (key, value) else entry

theorem replaceValue_fst (key : String) (value : α) (entry : String × α) :
    (replaceValue key value entry).1 = entry.1 := by
  unfold replaceValue
  split
  · next h => exact h.symm
  · rfl

theorem map_replaceValue_fst (key : String) (value : α) (entries : List (String × α)) :
    (entries.map (replaceValue key value)).map Prod.fst = entries.map Prod.fst := by
  simp [Function.comp_def, replaceValue_fst]

/-- A known key keeps its place and gets the new value; a new key goes to the end. -/
def insert (m : OrderedMap α) (key : String) (value : α) : OrderedMap α :=
  if h : key ∈ m.entries.map Prod.fst then
    ⟨m.entries.map (replaceValue key value), by rw [map_replaceValue_fst]; exact m.nodup_keys⟩
  else
    ⟨m.entries ++ [(key, value)], by
      rw [List.map_append, List.nodup_append]
      refine ⟨m.nodup_keys, by simp, ?_⟩
      intro a ha b hb
      simp only [List.map_cons, List.map_nil, List.mem_singleton] at hb
      rintro rfl
      exact h (hb ▸ ha)⟩

def ofList (entries : List (String × α)) : OrderedMap α :=
  entries.foldl (fun m entry => m.insert entry.1 entry.2) ∅

theorem keys_insert (m : OrderedMap α) (key : String) (value : α) :
    (m.insert key value).keys = if key ∈ m.keys then m.keys else m.keys ++ [key] := by
  unfold insert keys
  split
  · exact map_replaceValue_fst key value m.entries
  · simp

theorem lookup_map_replaceValue (entries : List (String × α)) (key other : String) (value : α) :
    (entries.map (replaceValue key value)).lookup other =
      if other = key then (entries.lookup key).map fun _ => value else entries.lookup other := by
  induction entries with
  | nil => simp
  | cons entry rest ih =>
    rw [List.map_cons, List.lookup_cons, List.lookup_cons, List.lookup_cons, ih,
      replaceValue_fst]
    unfold replaceValue
    by_cases ho : other = key <;> by_cases he : entry.1 = key <;> grind

theorem lookup_isSome_iff (entries : List (String × α)) (key : String) :
    (entries.lookup key).isSome ↔ key ∈ entries.map Prod.fst := by
  induction entries with
  | nil => simp
  | cons entry rest ih =>
    rw [List.lookup_cons]
    by_cases h : key = entry.1 <;> grind

theorem lookup_append_singleton (entries : List (String × α)) (key other : String) (value : α)
    (h : key ∉ entries.map Prod.fst) :
    (entries ++ [(key, value)]).lookup other =
      if other = key then some value else entries.lookup other := by
  induction entries with
  | nil => grind
  | cons entry rest ih =>
    rw [List.cons_append, List.lookup_cons, List.lookup_cons, ih (by grind)]
    grind

theorem get?_insert (m : OrderedMap α) (key other : String) (value : α) :
    (m.insert key value).get? other = if other = key then some value else m.get? other := by
  unfold insert get?
  split
  · next h =>
    rw [← lookup_isSome_iff] at h
    rw [lookup_map_replaceValue]
    split
    · obtain ⟨v, hv⟩ := Option.isSome_iff_exists.1 h
      simp [hv]
    · rfl
  · next h => exact lookup_append_singleton _ _ _ _ h

theorem contains_iff_mem_keys (m : OrderedMap α) (key : String) :
    m.contains key ↔ key ∈ m.keys := lookup_isSome_iff m.entries key

end OrderedMap

end Metamodel
