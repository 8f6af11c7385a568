import Metamodel.Proofs.JsonText

/-!
Reading back the text of data.

The reader of a value stops where the value ends, whatever comes next, as long as that does not go
on with a number. So the parts of a container are read one after the other, and the data that a text
is written for is found again. The data has to be such that a text can say it: integers of 64 bits
and no other numbers, no name twice in a record, and not too many containers inside each other.

Results:
1. `itemsWithin?_write`, `fieldsWithin?_write`: the parts of containers.
2. `readBack_of_plain`: values.
3. `read?_compact`, `read?_pretty`: whole texts.
-/

namespace Metamodel.Data

/-! ## Data that a text can say -/

/-- Data with no name twice in any of its records. -/
inductive Distinct : Data → Prop
  | null : Distinct .null
  | bool {b : Bool} : Distinct (.bool b)
  | int {i : Int} : Distinct (.int i)
  | number {x : Decimal.Number} : Distinct (.number x)
  | text {s : String} : Distinct (.text s)
  | list {items : List Data} : (∀ d ∈ items, Distinct d) → Distinct (.list items)
  | record {fields : List (String × Data)} :
      (fields.map Prod.fst).Nodup → (∀ field ∈ fields, Distinct field.2) → Distinct (.record fields)

namespace Json

/-- Data whose text is read back: integers that fit and no other numbers, no name twice in a record,
and no more than so many containers inside each other. -/
inductive Plain (fits : Int → Prop) : Nat → Data → Prop
  | null {depth : Nat} : Plain fits depth .null
  | bool {depth : Nat} {b : Bool} : Plain fits depth (.bool b)
  | int {depth : Nat} {i : Int} : fits i → Plain fits depth (.int i)
  | text {depth : Nat} {s : String} : Plain fits depth (.text s)
  | list {depth : Nat} {items : List Data} :
      (∀ d ∈ items, Plain fits depth d) → Plain fits (depth + 1) (.list items)
  | record {depth : Nat} {fields : List (String × Data)} :
      (fields.map Prod.fst).Nodup → (∀ field ∈ fields, Plain fits depth field.2) →
      Plain fits (depth + 1) (.record fields)

section Plain

variable {fits : Int → Prop} {nesting : Nat}

theorem Plain.distinct {d : Data} (plain : Plain fits nesting d) : d.Distinct := by
  induction plain with
  | null => exact .null
  | bool => exact .bool
  | int => exact .int
  | text => exact .text
  | list _ each => exact .list each
  | record nodup _ each => exact .record nodup each

@[simp]
theorem plain_bool {b : Bool} : Plain fits nesting (.bool b) := .bool

@[simp]
theorem plain_text {s : String} : Plain fits nesting (.text s) := .text

@[simp]
theorem plain_int_iff {i : Int} : Plain fits nesting (.int i) ↔ fits i :=
  ⟨fun | .int ok => ok, .int⟩

@[simp]
theorem plain_list_iff {items : List Data} :
    Plain fits (nesting + 1) (.list items) ↔ ∀ d ∈ items, Plain fits nesting d :=
  ⟨fun | .list each => each, .list⟩

/-- The values of fields can all be read back from their texts. -/
def EachPlain (fits : Int → Prop) (nesting : Nat) (fields : List (String × Data)) : Prop :=
  ∀ field ∈ fields, Plain fits nesting field.2

theorem plain_record_iff {fields : List (String × Data)} :
    Plain fits (nesting + 1) (.record fields) ↔
      (fields.map Prod.fst).Nodup ∧ EachPlain fits nesting fields :=
  ⟨fun | .record nodup each => ⟨nodup, each⟩, fun ⟨nodup, each⟩ => .record nodup each⟩

@[simp]
theorem eachPlain_nil : EachPlain fits nesting [] := by simp [EachPlain]

@[simp]
theorem eachPlain_cons {name : String} {d : Data} {fields : List (String × Data)} :
    EachPlain fits nesting ((name, d) :: fields) ↔
      Plain fits nesting d ∧ EachPlain fits nesting fields :=
  List.forall_mem_cons

@[simp]
theorem eachPlain_append {fields more : List (String × Data)} :
    EachPlain fits nesting (fields ++ more) ↔
      EachPlain fits nesting fields ∧ EachPlain fits nesting more :=
  List.forall_mem_append

@[simp]
theorem eachPlain_field? {name : String} {value : Option Data} :
    EachPlain fits nesting (field? name value) ↔ ∀ d ∈ value, Plain fits nesting d := by
  cases value <;> simp [field?]

@[simp]
theorem eachPlain_nonEmpty {name : String} {items : List Data} :
    EachPlain fits (nesting + 1) (nonEmpty name items) ↔ ∀ d ∈ items, Plain fits nesting d := by
  cases items <;> simp [nonEmpty]

end Plain

/-! ## Spaces and entries -/

theorem skipSpace_append {gap : Chars} (blank : ∀ c ∈ gap, isSpace c) (rest : Chars) :
    skipSpace (gap ++ rest) = skipSpace rest :=
  List.dropWhile_append_of_pos blank

theorem skipSpace_cons {c : Char} (visible : isSpace c = false) (rest : Chars) :
    skipSpace (c :: rest) = c :: rest := by
  rw [skipSpace, List.dropWhile_cons]
  exact if_neg (by simpa [isSpace] using visible)

theorem ends_append {gap : Chars} (blank : ∀ c ∈ gap, isSpace c) {rest : Chars} (ends : Ends rest) :
    Ends (gap ++ rest) := by
  cases gap with
  | nil => exact ends
  | cons c gap =>
    rintro _ ⟨⟩
    have space := blank c List.mem_cons_self
    simp only [isSpace, Bool.or_eq_true, decide_eq_true_eq] at space
    rcases space with ((rfl | rfl) | rfl) | rfl <;> decide

/-- Fields with other names stay where they are. -/
theorem foldl_field_append (before after : List (String × Data))
    (nodup : ((before ++ after).map Prod.fst).Nodup) :
    after.foldl (fun known field => known.filter (·.1 ≠ field.1) ++ [field]) before =
      before ++ after := by
  induction after generalizing before with
  | nil => exact (List.append_nil before).symm
  | cons field after ih =>
    have others : ∀ other ∈ before, decide (other.1 ≠ field.1) = true := by
      intro other member
      rw [List.map_append, List.nodup_append] at nodup
      exact decide_eq_true
        (nodup.2.2 _ (List.mem_map_of_mem member) _ (List.mem_map_of_mem List.mem_cons_self))
    rw [List.append_cons] at nodup
    rw [List.foldl_cons, List.filter_eq_self.mpr others, ih _ nodup, List.append_assoc,
      List.singleton_append]

theorem ofFields_of_nodup {fields : List (String × Data)} (nodup : (fields.map Prod.fst).Nodup) :
    Data.ofFields fields = .record fields :=
  congrArg Data.record (foldl_field_append [] fields nodup)

/-! ## Values -/

variable {l : Layout}

/-- The text of a value begins like one, and the reader finds the value in it wherever what follows
the text does not go on with it. -/
structure ReadBack (l : Layout) (nesting : Nat) (d : Data) : Prop where
  starts : ∀ depth, ∃ c cs, l.write depth d = c :: cs ∧ isSpace c = false ∧ c ≠ ']'
  reads : ∀ depth fuel rest, (l.write depth d).length ≤ fuel → Ends rest →
    valueWithin? fuel nesting (l.write depth d ++ rest) = some (d, rest)

/-- No value has an empty text, so a reader makes at least one step. -/
theorem ReadBack.of_succ {nesting : Nat} {d : Data}
    (starts : ∀ depth, ∃ c cs, l.write depth d = c :: cs ∧ isSpace c = false ∧ c ≠ ']')
    (reads : ∀ depth fuel rest, (l.write depth d).length ≤ fuel + 1 → Ends rest →
      valueWithin? (fuel + 1) nesting (l.write depth d ++ rest) = some (d, rest)) :
    ReadBack l nesting d := by
  refine ⟨starts, fun depth fuel rest enough ends => ?_⟩
  obtain ⟨c, cs, text, -⟩ := starts depth
  have some : 0 < fuel := by
    rw [text, List.length_cons] at enough
    omega
  obtain ⟨fuel, rfl⟩ := Nat.exists_eq_add_one.mpr some
  exact reads depth fuel rest enough ends

theorem skipSpace_gap_cons (blank : l.Blank) (depth : Nat) {c : Char} (visible : isSpace c = false)
    (rest : Chars) : skipSpace (l.gap depth ++ c :: rest) = c :: rest := by
  rw [skipSpace_append (blank.gap depth), skipSpace_cons visible]

theorem ends_cons {c : Char} (mark : c ∈ [',', ']', '\x7d']) (rest : Chars) : Ends (c :: rest) := by
  have all : ∀ c ∈ [',', ']', '\x7d'], c.isDigit = false ∧ c ≠ '.' ∧ c ≠ 'e' ∧ c ≠ 'E' := by simp
  rintro _ ⟨⟩
  exact all c mark

theorem toString_int_head (i : Int) :
    ∃ c cs, (toString i).toList = c :: cs ∧ (c = '-' ∨ c.isDigit) := by
  cases i with
  | ofNat n =>
    have text : (toString (Int.ofNat n)).toList = Nat.toDigits 10 n := Nat.toList_repr
    cases digits : Nat.toDigits 10 n with
    | nil => exact absurd digits Nat.toDigits_ne_nil
    | cons d ds =>
      refine ⟨d, ds, text.trans digits, .inr ?_⟩
      exact Nat.isDigit_of_mem_toDigits (b := 10) (n := n) (by decide) (by decide)
        (by rw [digits]; exact List.mem_cons_self)
  | negSucc n => exact ⟨'-', (n + 1).repr.toList, by simp [toString, Int.repr], .inl rfl⟩

theorem exists_intercalate_eq_append {α : Type} (sep first : List α) (rest : List (List α)) :
    ∃ more, sep.intercalate (first :: rest) = first ++ more := by
  cases rest with
  | nil => exact ⟨[], by simp⟩
  | cons next rest =>
    exact ⟨sep ++ sep.intercalate (next :: rest), by
      rw [List.intercalate_cons_cons, List.append_assoc]⟩

/-- Entries with commas between them are read one after the other, if each of them is. -/
theorem read_entries {α : Type} (read : Nat → Chars → Option (List α × Chars)) {write : α → Chars}
    {gap ending : Chars} (blank : ∀ c ∈ gap, isSpace c) {a : α} {entries : List α}
    (starts : ∀ b ∈ a :: entries, ∃ c cs, write b = c :: cs ∧ isSpace c = false)
    (last : ∀ b ∈ a :: entries, ∀ fuel rest, (write b).length ≤ fuel →
      read (fuel + 1) (write b ++ (ending ++ rest)) = some ([b], rest))
    (next : ∀ b ∈ a :: entries, ∀ fuel rest, (write b).length ≤ fuel →
      read (fuel + 1) (write b ++ ',' :: rest) =
        (read fuel (skipSpace rest)).map fun (bs, rest) => (b :: bs, rest))
    {fuel : Nat} (enough : ((',' :: gap).intercalate ((a :: entries).map write)).length < fuel)
    (rest : Chars) :
    read fuel ((',' :: gap).intercalate ((a :: entries).map write) ++ (ending ++ rest)) =
      some (a :: entries, rest) := by
  obtain ⟨fuel, rfl⟩ := Nat.exists_eq_add_one.mpr (Nat.zero_lt_of_lt enough)
  induction entries generalizing a fuel with
  | nil =>
    rw [List.map_singleton, List.intercalate_singleton] at enough ⊢
    exact last a List.mem_cons_self fuel rest (by omega)
  | cons b entries ih =>
    obtain ⟨c, cs, text, visible⟩ := starts b (List.mem_cons_of_mem a List.mem_cons_self)
    have others := ih (fun b' member => starts b' (List.mem_cons_of_mem a member))
      (fun b' member => last b' (List.mem_cons_of_mem a member))
      (fun b' member => next b' (List.mem_cons_of_mem a member))
    obtain ⟨cs', whole⟩ :=
      exists_intercalate_eq_append (',' :: gap) (write b) (entries.map write)
    rw [← List.map_cons, text, List.cons_append] at whole
    rw [List.map_cons, List.map_cons, List.intercalate_cons_cons, ← List.map_cons] at enough ⊢
    generalize (',' :: gap).intercalate ((b :: entries).map write) = texts at *
    simp only [List.length_append, List.length_cons] at enough
    have behind : skipSpace (gap ++ (texts ++ (ending ++ rest))) = texts ++ (ending ++ rest) := by
      rw [skipSpace_append blank, whole, List.cons_append, skipSpace_cons visible]
    obtain ⟨fuel, rfl⟩ := Nat.exists_eq_add_one.mpr (by omega : 0 < fuel)
    rw [List.append_assoc, List.append_assoc, List.cons_append,
      next a List.mem_cons_self _ _ (by omega), behind, others fuel (by omega)]
    rfl

section Containers

variable (blank : l.Blank) {nesting : Nat} (depth before : Nat) {fuel : Nat}

include blank

theorem skipSpace_ending (before : Nat) {c : Char} (visible : isSpace c = false) (rest : Chars) :
    skipSpace ((l.gap before ++ [c]) ++ rest) = c :: rest := by
  rw [List.append_assoc, List.singleton_append, skipSpace_append (blank.gap before),
    skipSpace_cons visible]

theorem ends_ending (before : Nat) {c : Char} (mark : c ∈ [',', ']', '\x7d']) (rest : Chars) :
    Ends ((l.gap before ++ [c]) ++ rest) := by
  rw [List.append_assoc, List.singleton_append]
  exact ends_append (blank.gap before) (ends_cons mark rest)

theorem itemsWithin?_write {d : Data} {items : List Data}
    (each : ∀ d' ∈ d :: items, ReadBack l nesting d')
    (enough : ((',' :: l.gap depth).intercalate ((d :: items).map (l.write depth))).length < fuel)
    (rest : Chars) :
    itemsWithin? fuel nesting
        ((',' :: l.gap depth).intercalate ((d :: items).map (l.write depth)) ++
          ((l.gap before ++ [']']) ++ rest)) =
      some (d :: items, rest) := by
  refine read_entries (fun fuel => itemsWithin? fuel nesting) (blank.gap depth) ?_ ?_ ?_ enough rest
  · intro d' member
    obtain ⟨c, cs, text, visible, -⟩ := (each d' member).starts depth
    exact ⟨c, cs, text, visible⟩
  · intro d' member fuel rest enough
    have read := (each d' member).reads depth fuel _ enough
      (ends_ending blank before (c := ']') (by decide) rest)
    have closing := skipSpace_ending blank before (c := ']') (by decide) rest
    simp only [itemsWithin?, read, Option.bind_eq_bind, Option.bind_some, closing]
    rfl
  · intro d' member fuel rest enough
    have read := (each d' member).reads depth fuel (',' :: rest) enough (ends_cons (by decide) rest)
    have comma : skipSpace (',' :: rest) = ',' :: rest := skipSpace_cons (by decide) rest
    simp only [itemsWithin?, read, Option.bind_eq_bind, Option.bind_some, comma]
    cases itemsWithin? fuel nesting (skipSpace rest) <;> rfl

omit blank in
theorem writeField_append (field : String × Data) (rest : Chars) :
    l.writeField depth field ++ rest =
      '"' :: ((field.1.toList.flatMap fun c => (escapeChar c).toList) ++
        '"' :: ':' :: (l.afterColon ++ (l.write depth field.2 ++ rest))) := by
  simp [Layout.writeField, toList_quote]

omit blank in
theorem writeField_eq_cons (field : String × Data) :
    ∃ cs, l.writeField depth field = '"' :: cs := by
  rw [← List.append_nil (l.writeField depth field), writeField_append]
  exact ⟨_, rfl⟩

/-- A field is read up to the comma or the end that comes behind it. -/
theorem fieldsWithin?_succ {field : String × Data} (readBack : ReadBack l nesting field.2)
    (enough : (l.writeField depth field).length ≤ fuel) {rest : Chars} (ends : Ends rest) :
    fieldsWithin? (fuel + 1) nesting (l.writeField depth field ++ rest) =
      match skipSpace rest with
      | ',' :: rest =>
        (fieldsWithin? fuel nesting (skipSpace rest)).map fun (fields, rest) =>
          (field :: fields, rest)
      | '\x7d' :: rest => some ([field], rest)
      | _ => none := by
  obtain ⟨c, cs, text, visible, -⟩ := readBack.starts depth
  have shorter : (l.write depth field.2).length ≤ fuel := by
    simp only [Layout.writeField, List.length_append, List.length_cons] at enough
    omega
  have read := readBack.reads depth fuel rest shorter ends
  have colon (cs : Chars) : skipSpace (':' :: cs) = ':' :: cs := skipSpace_cons (by decide) cs
  have value : skipSpace (l.afterColon ++ (l.write depth field.2 ++ rest)) =
      l.write depth field.2 ++ rest := by
    rw [skipSpace_append blank.afterColon, text, List.cons_append, skipSpace_cons visible]
  rw [writeField_append]
  simp only [fieldsWithin?, text?_quote, Option.bind_eq_bind, Option.bind_some, colon, value, read]
  generalize skipSpace rest = behind
  split
  · next rest =>
    change _ = (fieldsWithin? fuel nesting (skipSpace rest)).map fun (fields, rest) =>
      (field :: fields, rest)
    cases fieldsWithin? fuel nesting (skipSpace rest) <;> rfl
  · rfl
  · simp

theorem fieldsWithin?_write {field : String × Data} {fields : List (String × Data)}
    (each : ∀ field' ∈ field :: fields, ReadBack l nesting field'.2)
    (enough :
      ((',' :: l.gap depth).intercalate ((field :: fields).map (l.writeField depth))).length < fuel)
    (rest : Chars) :
    fieldsWithin? fuel nesting
        ((',' :: l.gap depth).intercalate ((field :: fields).map (l.writeField depth)) ++
          ((l.gap before ++ ['\x7d']) ++ rest)) =
      some (field :: fields, rest) := by
  refine read_entries (fun fuel => fieldsWithin? fuel nesting) (blank.gap depth) ?_ ?_ ?_ enough
    rest
  · intro field' _
    obtain ⟨cs, text⟩ := writeField_eq_cons (l := l) depth field'
    exact ⟨'"', cs, text, by decide⟩
  · intro field' member fuel rest enough
    have closing := skipSpace_ending blank before (c := '\x7d') (by decide) rest
    simp only [fieldsWithin?_succ blank depth (each field' member) enough
      (ends_ending blank before (c := '\x7d') (by decide) rest), closing]
  · intro field' member fuel rest enough
    have comma : skipSpace (',' :: rest) = ',' :: rest := skipSpace_cons (by decide) rest
    simp only [fieldsWithin?_succ blank depth (each field' member) enough
      (ends_cons (c := ',') (by decide) rest), comma]

end Containers

/-! ## Single values -/

theorem ReadBack.of_word {nesting : Nat} {d : Data} {word : String}
    (known : (word, d) ∈ [("null", Data.null), ("true", .bool true), ("false", .bool false)])
    (text : ∀ depth, l.write depth d = word.toList) : ReadBack l nesting d := by
  have starts (word d) (known : (word, d) ∈
      [("null", Data.null), ("true", .bool true), ("false", .bool false)]) :
      ∃ c cs, word.toList = c :: cs ∧ isSpace c = false ∧ c ≠ ']' ∧
        ∀ fuel rest, valueWithin? (fuel + 1) nesting (word.toList ++ rest) = some (d, rest) := by
    simp only [List.mem_cons, Prod.mk.injEq, List.not_mem_nil, or_false] at known
    rcases known with ⟨rfl, rfl⟩ | ⟨rfl, rfl⟩ | ⟨rfl, rfl⟩ <;>
      exact ⟨_, _, rfl, by decide, by decide, fun fuel rest => rfl⟩
  obtain ⟨c, cs, head, visible, isItem, reads⟩ := starts word d known
  refine .of_succ (fun depth => ⟨c, cs, (text depth).trans head, visible, isItem⟩) ?_
  intro depth fuel rest _ _
  rw [text depth]
  exact reads fuel rest

theorem readBack_text (nesting : Nat) (s : String) : ReadBack l nesting (.text s) := by
  have text (depth : Nat) : l.write depth (.text s) =
      '"' :: (s.toList.flatMap fun c => (escapeChar c).toList) ++ ['"'] := toList_quote s
  refine .of_succ (fun depth => ⟨'"', _, text depth, by decide, by decide⟩) ?_
  intro depth fuel rest _ _
  rw [text, List.append_assoc, List.cons_append, List.singleton_append, valueWithin?, text?_quote]
  rfl

/-- What begins like a number is read as one. -/
theorem valueWithin?_of_first {c : Char} (isFirst : c = '-' ∨ c.isDigit) (fuel nesting : Nat)
    (cs : Chars) : valueWithin? (fuel + 1) nesting (c :: cs) = number? (c :: cs) := by
  have other : ∀ mark ∈ ['"', '[', '\x7b', 'n', 't', 'f'], mark ≠ c := by
    have all : ∀ mark ∈ ['"', '[', '\x7b', 'n', 't', 'f'], ¬(mark = '-' ∨ mark.isDigit) := by simp
    rintro mark member rfl
    exact all mark member isFirst
  simp only [List.forall_mem_cons] at other
  obtain ⟨quote, bracket, brace, n, t, f, -⟩ := other
  have noWord : word? (c :: cs) = none := by simp [word?, n, t, f]
  unfold valueWithin?
  split
  · next same => exact absurd (List.cons.inj same).1.symm quote
  · next same => exact absurd (List.cons.inj same).1.symm bracket
  · next same => exact absurd (List.cons.inj same).1.symm brace
  · next same => exact absurd (List.cons.inj same).1.symm bracket
  · next same => exact absurd (List.cons.inj same).1.symm brace
  · rw [noWord]
    rfl

theorem readBack_int (nesting : Nat) {i : Int} (fits : Fits i) : ReadBack l nesting (.int i) := by
  have text (depth : Nat) : l.write depth (.int i) = (toString i).toList := rfl
  obtain ⟨c, cs, head, isFirst⟩ := toString_int_head i
  refine .of_succ (fun depth => ⟨c, cs, head, ?_, ?_⟩) ?_
  · cases visible : isSpace c with
    | false => rfl
    | true =>
      simp only [isSpace, Bool.or_eq_true, decide_eq_true_eq] at visible
      rcases visible with ((rfl | rfl) | rfl) | rfl <;> exact absurd isFirst (by decide)
  · rintro rfl
    exact absurd isFirst (by decide)
  intro depth fuel rest _ ends
  have read := number?_toString fits ends
  rw [text]
  rw [head, List.cons_append] at read ⊢
  rw [valueWithin?_of_first isFirst, read]

/-! ## Containers -/

theorem readBack_list (blank : l.Blank) {nesting : Nat} {items : List Data}
    (each : ∀ d ∈ items, ReadBack l nesting d) : ReadBack l (nesting + 1) (.list items) := by
  have starts (depth : Nat) : ∃ cs, l.write depth (.list items) = '[' :: cs := by
    rw [Layout.write]
    cases l.writeItems (depth + 1) items <;> exact ⟨_, rfl⟩
  refine .of_succ (fun depth => ?_) ?_
  · obtain ⟨cs, text⟩ := starts depth
    exact ⟨'[', cs, text, by decide, by decide⟩
  intro depth fuel rest enough _
  cases items with
  | nil => rfl
  | cons d items =>
    rw [Layout.write, l.writeItems_eq, List.map_cons, Layout.block, ← List.map_cons] at enough ⊢
    obtain ⟨c, cs, text, visible, isItem⟩ := (each d List.mem_cons_self).starts (depth + 1)
    obtain ⟨more, whole⟩ := exists_intercalate_eq_append (',' :: l.gap (depth + 1))
      (l.write (depth + 1) d) (items.map (l.write (depth + 1)))
    rw [← List.map_cons, text, List.cons_append] at whole
    have shorter : ((',' :: l.gap (depth + 1)).intercalate
        ((d :: items).map (l.write (depth + 1)))).length < fuel := by
      simp only [List.length_append, List.length_cons] at enough
      omega
    have read := itemsWithin?_write blank (depth + 1) depth each shorter rest
    simp only [List.append_assoc, List.cons_append, whole] at read ⊢
    simp only [valueWithin?, skipSpace_gap_cons blank _ visible]
    split
    · next same => exact absurd (List.cons.inj same).1 isItem
    · rw [read]
      rfl

theorem readBack_record (blank : l.Blank) {nesting : Nat} {fields : List (String × Data)}
    (nodup : (fields.map Prod.fst).Nodup) (each : ∀ field ∈ fields, ReadBack l nesting field.2) :
    ReadBack l (nesting + 1) (.record fields) := by
  have starts (depth : Nat) : ∃ cs, l.write depth (.record fields) = '\x7b' :: cs := by
    rw [Layout.write]
    cases l.writeFields (depth + 1) fields <;> exact ⟨_, rfl⟩
  refine .of_succ (fun depth => ?_) ?_
  · obtain ⟨cs, text⟩ := starts depth
    exact ⟨'\x7b', cs, text, by decide, by decide⟩
  intro depth fuel rest enough _
  cases fields with
  | nil => rfl
  | cons field fields =>
    rw [Layout.write, l.writeFields_eq, List.map_cons, Layout.block, ← List.map_cons] at enough ⊢
    obtain ⟨more, whole⟩ := exists_intercalate_eq_append (',' :: l.gap (depth + 1))
      (l.writeField (depth + 1) field) (fields.map (l.writeField (depth + 1)))
    obtain ⟨cs, text⟩ := writeField_eq_cons (l := l) (depth + 1) field
    rw [← List.map_cons, text, List.cons_append] at whole
    have shorter : ((',' :: l.gap (depth + 1)).intercalate
        ((field :: fields).map (l.writeField (depth + 1)))).length < fuel := by
      simp only [List.length_append, List.length_cons] at enough
      omega
    have read := fieldsWithin?_write blank (depth + 1) depth each shorter rest
    simp only [List.append_assoc, List.cons_append, whole] at read ⊢
    simp only [valueWithin?, skipSpace_gap_cons blank _ (by decide : isSpace '"' = false)]
    split
    · next same => exact absurd (List.cons.inj same).1 (by decide)
    · rw [read, Option.map_some, ofFields_of_nodup nodup]

theorem readBack_of_plain (blank : l.Blank) {nesting : Nat} {d : Data}
    (plain : Plain Fits nesting d) : ReadBack l nesting d := by
  induction plain with
  | null => exact .of_word (by simp) fun _ => rfl
  | @bool _ b => cases b <;> exact .of_word (by simp) fun _ => rfl
  | int fits => exact readBack_int _ fits
  | text => exact readBack_text _ _
  | list _ each => exact readBack_list blank each
  | record nodup _ each => exact readBack_record blank nodup each

theorem read?_write (blank : l.Blank) {d : Data} (plain : Plain Fits deepest d) {text : String}
    (written : text.toList = l.write 0 d) : read? text = some d := by
  have readBack := readBack_of_plain blank plain
  obtain ⟨c, cs, whole, visible, -⟩ := readBack.starts 0
  have shown : skipSpace text.toList = l.write 0 d := by
    rw [written, whole, skipSpace_cons visible]
  have read := readBack.reads 0 ((l.write 0 d).length + 1) [] (Nat.le_succ _) (by simp [Ends])
  rw [List.append_nil] at read
  unfold read?
  simp only [shown, read, Option.bind_eq_bind, Option.bind_some]
  rfl

theorem read?_compact {d : Data} (plain : Plain Fits deepest d) : read? d.compact = some d :=
  read?_write Layout.blank_compact plain (Layout.toList_compact 0 d)

theorem read?_pretty {d : Data} (plain : Plain Fits deepest d) : read? (d.pretty 0) = some d :=
  read?_write Layout.blank_pretty plain (Layout.toList_pretty 0 d)

end Json

end Metamodel.Data
