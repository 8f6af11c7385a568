import Mathlib.Data.Nat.Digits.Defs
import Metamodel.Data.Json
import Metamodel.Data.Json.Reader

/-!
The characters of JSON texts.

Both written forms of data are one form that differs in the spaces between its parts only. In a
string some characters are escaped, and the reader undoes each escape. An integer is its digits; the
reader finds it if it has 64 bits and the text behind it does not go on with it.

Results:
1. `toList_compact`, `toList_pretty`: both forms as one.
2. `text?_quote`: strings are read back.
3. `number?_toString`: integers are read back.
-/

namespace Metamodel.Data.Json

/-! ## Layouts -/

/-- Spaces between the parts of a text: before an entry of a container at some depth and before its
end, and behind a colon. -/
structure Layout where
  gap : Nat → Chars
  afterColon : Chars

def isSpace (c : Char) : Bool := c = ' ' || c = '\t' || c = '\n' || c = '\r'

namespace Layout

structure Blank (l : Layout) : Prop where
  gap : ∀ depth, ∀ c ∈ l.gap depth, isSpace c
  afterColon : ∀ c ∈ l.afterColon, isSpace c

/-- No spaces. -/
def compact : Layout := ⟨fun _ => [], []⟩

/-- A line for each entry. -/
def pretty : Layout := ⟨fun depth => '\n' :: List.replicate (2 * depth) ' ', [' ']⟩

theorem blank_compact : compact.Blank := ⟨by simp [compact], by simp [compact]⟩

theorem blank_pretty : pretty.Blank := by
  constructor
  · intro depth c member
    rcases List.mem_cons.mp member with rfl | space
    · rfl
    · rw [List.eq_of_mem_replicate space]
      rfl
  · simp [pretty, isSpace]

/-- The entries of a container with what is around them. -/
def block (l : Layout) (opening closing : Char) (depth : Nat) : List Chars → Chars
  | [] => [opening, closing]
  | first :: rest =>
    opening :: l.gap (depth + 1) ++ (',' :: l.gap (depth + 1)).intercalate (first :: rest) ++
      l.gap depth ++ [closing]

mutual

def write (l : Layout) (depth : Nat) : Data → Chars
  | .null => "null".toList
  | .bool b => if b then "true".toList else "false".toList
  | .int i => (toString i).toList
  | .number x => (numberText x).toList
  | .text s => (quote s).toList
  | .list items => l.block '[' ']' depth (l.writeItems (depth + 1) items)
  | .record fields => l.block '\x7b' '\x7d' depth (l.writeFields (depth + 1) fields)

def writeItems (l : Layout) (depth : Nat) : List Data → List Chars
  | [] => []
  | d :: rest => l.write depth d :: l.writeItems depth rest

def writeFields (l : Layout) (depth : Nat) : List (String × Data) → List Chars
  | [] => []
  | (name, d) :: rest =>
    ((quote name).toList ++ ':' :: l.afterColon ++ l.write depth d) :: l.writeFields depth rest

end

theorem writeItems_eq (l : Layout) (depth : Nat) (items : List Data) :
    l.writeItems depth items = items.map (l.write depth) := by
  induction items with
  | nil => rfl
  | cons d rest ih => rw [writeItems, ih, List.map_cons]

/-- The text of a field. -/
def writeField (l : Layout) (depth : Nat) (field : String × Data) : Chars :=
  (quote field.1).toList ++ ':' :: l.afterColon ++ l.write depth field.2

theorem writeFields_eq (l : Layout) (depth : Nat) (fields : List (String × Data)) :
    l.writeFields depth fields = fields.map (l.writeField depth) := by
  induction fields with
  | nil => rfl
  | cons field rest ih => rw [writeFields, ih, List.map_cons, writeField]

theorem intercalate_eq_block (o c : Char) (entries : List String) (depth : Nat)
    {opening closing : String} (isOpening : opening.toList = [o])
    (isClosing : closing.toList = [c]) :
    (opening ++ ",".intercalate entries ++ closing).toList =
      compact.block o c depth (entries.map String.toList) := by
  cases entries with
  | nil => simp [block, isOpening, isClosing]
  | cons first rest => simp [block, compact, isOpening, isClosing, String.toList_intercalate]

mutual

theorem toList_compact (depth : Nat) : ∀ d : Data, d.compact.toList = compact.write depth d
  | .null => rfl
  | .bool b => by cases b <;> rfl
  | .int _ => rfl
  | .number _ => rfl
  | .text _ => rfl
  | .list items => by
    rw [Data.compact, write, intercalate_eq_block '[' ']' _ depth rfl rfl,
      toList_compactItems (depth + 1) items]
  | .record fields => by
    rw [Data.compact, write, intercalate_eq_block '\x7b' '\x7d' _ depth rfl rfl,
      toList_compactFields (depth + 1) fields]

theorem toList_compactItems (depth : Nat) : ∀ items : List Data,
    (compactItems items).map String.toList = compact.writeItems depth items
  | [] => rfl
  | d :: rest => by
    rw [compactItems, writeItems, List.map_cons, toList_compact depth d,
      toList_compactItems depth rest]

theorem toList_compactFields (depth : Nat) : ∀ fields : List (String × Data),
    (compactFields fields).map String.toList = compact.writeFields depth fields
  | [] => rfl
  | (name, d) :: rest => by
    rw [compactFields, writeFields, List.map_cons, toList_compactFields depth rest,
      ← toList_compact depth d]
    simp [compact]

end

theorem toList_pushn (s : String) (c : Char) (n : Nat) :
    (s.pushn c n).toList = s.toList ++ List.replicate n c := by
  unfold String.pushn
  induction n with
  | zero => simp [Nat.repeat]
  | succ n ih => rw [Nat.repeat, String.toList_push, ih, List.replicate_succ', List.append_assoc]

theorem block_eq_block (o c : Char) (entries : List String) (depth : Nat)
    {opening closing : String} (isOpening : opening.toList = [o])
    (isClosing : closing.toList = [c]) :
    (Data.block opening closing depth entries).toList =
      pretty.block o c depth (entries.map String.toList) := by
  cases entries with
  | nil => simp [Data.block, block, isOpening, isClosing]
  | cons first rest =>
    simp [Data.block, block, pretty, isOpening, isClosing, toList_pushn, String.toList_intercalate]

mutual

theorem toList_pretty (depth : Nat) : ∀ d : Data, (d.pretty depth).toList = pretty.write depth d
  | .null => rfl
  | .bool b => by cases b <;> rfl
  | .int _ => rfl
  | .number _ => rfl
  | .text _ => rfl
  | .list items => by
    rw [Data.pretty, write, block_eq_block '[' ']' _ depth rfl rfl,
      toList_prettyItems (depth + 1) items]
  | .record fields => by
    rw [Data.pretty, write, block_eq_block '\x7b' '\x7d' _ depth rfl rfl,
      toList_prettyFields (depth + 1) fields]

theorem toList_prettyItems (depth : Nat) : ∀ items : List Data,
    (prettyItems depth items).map String.toList = pretty.writeItems depth items
  | [] => rfl
  | d :: rest => by
    rw [prettyItems, writeItems, List.map_cons, toList_pretty depth d,
      toList_prettyItems depth rest]

theorem toList_prettyFields (depth : Nat) : ∀ fields : List (String × Data),
    (prettyFields depth fields).map String.toList = pretty.writeFields depth fields
  | [] => rfl
  | (name, d) :: rest => by
    rw [prettyFields, writeFields, List.map_cons, toList_prettyFields depth rest,
      ← toList_pretty depth d]
    simp [pretty]

end

end Layout

/-! ## Strings -/

theorem charOf?_toNat (c : Char) : Text.charOf? c.toNat = some c := by
  have valid : c.toNat.isValidChar := c.valid
  rw [Text.charOf?, if_pos valid, Char.ofNat_toNat]

theorem natOf?_control : ∀ n < 0x20,
    Text.natOf? 16 ['0', '0', Nat.digitChar (n / 16), Nat.digitChar (n % 16)] = some n := by
  decide

/-- What an escape stands for. -/
theorem textWithin?_escape {fuel : Nat} {c : Char} {escape rest : Chars}
    (read : quoting.escape? (escape ++ rest) = some ([c], rest)) :
    quoting.textWithin? (fuel + 1) ('\\' :: escape ++ rest) =
      (quoting.textWithin? fuel rest).map fun (more, rest) => (c :: more, rest) := by
  have isEscape : ('\\' = quoting.closing) = False := by simp [quoting]
  simp only [Text.Quoting.textWithin?, List.cons_append, isEscape, if_false, if_true, read,
    Option.bind_eq_bind, Option.bind_some]
  cases quoting.textWithin? fuel rest <;> rfl

theorem escape?_control {c : Char} (control : c.toNat < 0x20) (rest : Chars) :
    quoting.escape? (['u', '0', '0', Nat.digitChar (c.toNat / 16), Nat.digitChar (c.toNat % 16)] ++
      rest) = some ([c], rest) := by
  have read := natOf?_control c.toNat control
  simp [quoting, Text.unit16Escape?, Text.hexDigits?, read, charOf?_toNat]

/-- What an escaped character is read as. -/
theorem textWithin?_escapeChar (fuel : Nat) (c : Char) (rest : Chars) :
    quoting.textWithin? (fuel + 1) ((escapeChar c).toList ++ rest) =
      (quoting.textWithin? fuel rest).map fun (more, rest) => (c :: more, rest) := by
  have short {c d : Char} (known : escapedChar? d = some c) (isChar : d ≠ 'u') :
      quoting.textWithin? (fuel + 1) (['\\', d] ++ rest) =
        (quoting.textWithin? fuel rest).map fun (more, rest) => (c :: more, rest) := by
    have escape : quoting.escape? ([d] ++ rest) = some ([c], rest) := by simp [quoting, known]
    exact textWithin?_escape escape
  unfold escapeChar
  split
  · next isChar => subst isChar; exact short (d := '"') rfl (by decide)
  split
  · next isChar => subst isChar; exact short (d := '\\') rfl (by decide)
  split
  · next isChar => subst isChar; exact short (d := 'n') rfl (by decide)
  split
  · next isChar => subst isChar; exact short (d := 'r') rfl (by decide)
  split
  · next isChar => subst isChar; exact short (d := 't') rfl (by decide)
  split
  · next isChar => subst isChar; exact short (d := 'b') rfl (by decide)
  split
  · next isChar => subst isChar; exact short (d := 'f') rfl (by decide)
  split
  · next control =>
    have text : ("\\u00" ++ String.ofList
        [Nat.digitChar (c.toNat / 16), Nat.digitChar (c.toNat % 16)]).toList =
        '\\' :: ['u', '0', '0', Nat.digitChar (c.toNat / 16), Nat.digitChar (c.toNat % 16)] := by
      simp
    rw [text]
    exact textWithin?_escape (escape?_control control rest)
  · next notQuote notBackslash _ _ _ _ _ isPlain =>
    have plain : quoting.isPlain c = true := by simpa [quoting] using isPlain
    have text : c.toString.toList = [c] := by simp
    rw [text]
    have isEnd : (c = quoting.closing) = False := by simpa [quoting] using notQuote
    simp only [Text.Quoting.textWithin?, List.cons_append, List.nil_append, isEnd, notBackslash,
      plain, if_false, if_true]
    cases quoting.textWithin? fuel rest <;> rfl

theorem length_escapeChar_pos (c : Char) : 0 < (escapeChar c).toList.length := by
  unfold escapeChar
  repeat' split
  all_goals simp

theorem textWithin?_quote (cs rest : Chars) {fuel : Nat}
    (enough : (cs.flatMap fun c => (escapeChar c).toList).length < fuel) :
    quoting.textWithin? fuel ((cs.flatMap fun c => (escapeChar c).toList) ++ '"' :: rest) =
      some (cs, rest) := by
  induction cs generalizing fuel with
  | nil =>
    obtain ⟨fuel, rfl⟩ := Nat.exists_eq_add_one.mpr (Nat.zero_lt_of_lt enough)
    rfl
  | cons c cs ih =>
    -- The fuel falls by one for each character, and each is written with one at least.
    rw [List.flatMap_cons, List.length_append] at enough
    have pos := length_escapeChar_pos c
    obtain ⟨fuel, rfl⟩ := Nat.exists_eq_add_one.mpr (Nat.zero_lt_of_lt enough)
    rw [List.flatMap_cons, List.append_assoc, textWithin?_escapeChar, ih (by omega)]
    rfl

/-- A text in quotes is read back. -/
theorem text?_quote (s : String) (rest : Chars) :
    quoting.text? ((s.toList.flatMap fun c => (escapeChar c).toList) ++ '"' :: rest) =
      some (s, rest) := by
  unfold Text.Quoting.text?
  rw [textWithin?_quote s.toList rest (by rw [List.length_append, List.length_cons]; omega)]
  simp

theorem toList_quote (s : String) :
    (quote s).toList = '"' :: (s.toList.flatMap fun c => (escapeChar c).toList) ++ ['"'] := by
  simp [quote, List.flatMap_map]

/-! ## Integers -/

/-- What cannot go on with a number that ends before it. -/
def Ends (rest : Chars) : Prop :=
  ∀ c ∈ rest.head?, c.isDigit = false ∧ c ≠ '.' ∧ c ≠ 'e' ∧ c ≠ 'E'

theorem le_natOfDigits (digits : Chars) (n : Nat) :
    n ≤ digits.foldl (fun n d => 10 * n + (d.toNat - '0'.toNat)) n := by
  induction digits generalizing n with
  | nil => exact Nat.le_refl n
  | cons d digits ih =>
    have step : n ≤ 10 * n + (d.toNat - '0'.toNat) := by omega
    exact Nat.le_trans step (ih _)

theorem gather_eq (digits : Chars) (n : Nat)
    (small : digits.foldl (fun n d => 10 * n + (d.toNat - '0'.toNat)) n < Nat.pow 2 64) :
    gather n digits = (digits.foldl (fun n d => 10 * n + (d.toNat - '0'.toNat)) n, []) := by
  induction digits generalizing n with
  | nil => rfl
  | cons d digits ih =>
    have next : 10 * n + (d.toNat - '0'.toNat) < Nat.pow 2 64 :=
      Nat.lt_of_le_of_lt (le_natOfDigits digits _) small
    rw [gather]
    simp only [if_pos next]
    exact ih _ small

theorem head?_toDigits {n : Nat} (pos : 0 < n) : (Nat.toDigits 10 n).head? ≠ some '0' := by
  induction n using Nat.strongRecOn with
  | ind n ih =>
    rw [Nat.toDigits_eq_if (by decide)]
    split
    · next small =>
      have all : ∀ n < 10, 0 < n → [n.digitChar].head? ≠ some '0' := by decide
      exact all n small pos
    · next large =>
      have first := ih (n / 10) (by omega) (by omega)
      cases digits : Nat.toDigits 10 (n / 10) with
      | nil => exact absurd digits Nat.toDigits_ne_nil
      | cons d ds => rwa [digits] at first

theorem fraction?_of_ends {rest : Chars} (ends : Ends rest) :
    fraction? rest = some (none, rest) := by
  unfold fraction?
  split
  · exact absurd rfl (ends '.' rfl).2.1
  · rfl

theorem exponent?_of_ends {rest : Chars} (ends : Ends rest) :
    exponent? rest = some (none, rest) := by
  cases rest with
  | nil => rfl
  | cons c rest =>
    obtain ⟨-, -, small, capital⟩ := ends c rfl
    simp [exponent?, small, capital]

theorem takeWhile_toDigits {rest : Chars} (ends : Ends rest) (n : Nat) :
    (Nat.toDigits 10 n ++ rest).takeWhile Char.isDigit = Nat.toDigits 10 n ∧
      (Nat.toDigits 10 n ++ rest).dropWhile Char.isDigit = rest := by
  have digits : ∀ c ∈ Nat.toDigits 10 n, c.isDigit = true := fun c member =>
    Nat.isDigit_of_mem_toDigits (by decide) (by decide) member
  rw [List.takeWhile_append_of_pos digits, List.dropWhile_append_of_pos digits]
  cases rest with
  | nil => exact ⟨List.append_nil _, rfl⟩
  | cons c rest =>
    have stops := (ends c rfl).1
    simp [stops]

/-- The digits of a number are no run with a zero in front. -/
theorem isRun_toDigits (n : Nat) : ((Nat.toDigits 10 n).isEmpty ||
    ((Nat.toDigits 10 n).length > 1 && (Nat.toDigits 10 n).head? = some '0')) = false := by
  have some : (Nat.toDigits 10 n).isEmpty = false := by simp [Nat.toDigits_ne_nil]
  rcases Nat.eq_zero_or_pos n with rfl | pos
  · decide
  · simp [some, head?_toDigits pos]

theorem gather_toDigits {n : Nat} (small : n < Nat.pow 2 64) :
    gather 0 (Nat.toDigits 10 n) = (n, []) := by
  have value : (Nat.toDigits 10 n).foldl (fun n d => 10 * n + (d.toNat - '0'.toNat)) 0 = n :=
    Nat.ofDigitChars_toDigits (by decide) (by decide)
  rw [gather_eq _ 0 (by rwa [value]), value]

/-- Integers of 64 bits. -/
def Fits (i : Int) : Prop := -Int.pow 2 63 ≤ i ∧ i < Int.pow 2 63

theorem head?_toDigits_ne_minus (n : Nat) (rest : Chars) :
    (Nat.toDigits 10 n ++ rest).head? ≠ some '-' := by
  cases digits : Nat.toDigits 10 n with
  | nil => exact absurd digits Nat.toDigits_ne_nil
  | cons d ds =>
    have digit : d.isDigit := Nat.isDigit_of_mem_toDigits (b := 10) (n := n) (by decide) (by decide)
      (by rw [digits]; exact List.mem_cons_self)
    rintro ⟨⟩
    exact absurd digit (by decide)

theorem number?_toDigits (n : Nat) {rest : Chars} (ends : Ends rest) :
    number? (Nat.toDigits 10 n ++ rest) =
      (numberOf? false (Nat.toDigits 10 n) none none).map fun d => (d, rest) := by
  obtain ⟨whole, left⟩ := takeWhile_toDigits ends n
  have first := head?_toDigits_ne_minus n rest
  unfold number?
  split
  next negative digits sign =>
    split at sign
    · next cs same =>
      rw [same] at first
      exact absurd rfl first
    · cases sign
      simp only [whole, left, isRun_toDigits, Bool.false_eq_true, if_false, fraction?_of_ends ends,
        exponent?_of_ends ends, Option.bind_eq_bind, Option.bind_some]
      cases numberOf? false (Nat.toDigits 10 n) none none <;> rfl

theorem number?_minus (n : Nat) {rest : Chars} (ends : Ends rest) :
    number? ('-' :: Nat.toDigits 10 n ++ rest) =
      (numberOf? true (Nat.toDigits 10 n) none none).map fun d => (d, rest) := by
  obtain ⟨whole, left⟩ := takeWhile_toDigits ends n
  unfold number?
  simp only [List.cons_append, whole, left, isRun_toDigits, Bool.false_eq_true, if_false,
    fraction?_of_ends ends, exponent?_of_ends ends, Option.bind_eq_bind, Option.bind_some]
  cases numberOf? true (Nat.toDigits 10 n) none none <;> rfl

/-- An integer is read back where the text does not go on with it. -/
theorem number?_toString {i : Int} (fits : Fits i) {rest : Chars} (ends : Ends rest) :
    number? ((toString i).toList ++ rest) = some (.int i, rest) := by
  obtain ⟨least, greatest⟩ := fits
  cases i with
  | ofNat n =>
    have small : n < Nat.pow 2 63 := Int.ofNat_lt.mp greatest
    have text : (toString (Int.ofNat n)).toList = Nat.toDigits 10 n := Nat.toList_repr
    have larger : n < Nat.pow 2 64 := Nat.lt_trans small (by decide)
    rw [text, number?_toDigits n ends, numberOf?, gather_toDigits larger]
    simp [small]
  | negSucc n =>
    have small : n + 1 ≤ Nat.pow 2 63 := by
      rw [Int.negSucc_eq, Int.neg_le_neg_iff] at least
      exact Int.ofNat_le.mp least
    have larger : n + 1 < Nat.pow 2 64 := Nat.lt_of_le_of_lt small (by decide)
    have text : (toString (Int.negSucc n)).toList = '-' :: Nat.toDigits 10 (n + 1) := by
      have minus : toString (Int.negSucc n) = "-" ++ (n + 1).repr := rfl
      rw [minus, String.toList_append, Nat.toList_repr]
      rfl
    rw [text, number?_minus (n + 1) ends, numberOf?, gather_toDigits larger]
    simp [small, Int.negSucc_eq]

end Metamodel.Data.Json
