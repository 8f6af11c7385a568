import Mathlib.Data.List.Forall2
import Metamodel.Proofs.Outline
import Metamodel.Proofs.Spelling

/-!
Start tags are read as they are spelled.

Results:
1. `isMarkup_of_isName`: the octets of a name are none of those that structure a tag.
2. `unescape?_of_writes`: a value is unescaped to the text that it was written for.
3. `startEvent_of_spells`: the event of a start tag.
-/

namespace Metamodel.Markup

open Octet
open Text (span_append)

/-! ## Octets of texts -/

theorem encode_cons (c : Char) (cs : List Char) :
    encode (c :: cs) = String.utf8EncodeChar c ++ encode cs := List.flatMap_cons

/-- An ASCII character is one octet, and the octets of the others are not those of any. -/
theorem encodeChar_cases (c : Char) :
    (c.toNat < 128 ∧ String.utf8EncodeChar c = [c.toNat.toUInt8]) ∨
      (128 ≤ c.toNat ∧ ∀ b ∈ String.utf8EncodeChar c, 128 ≤ b) := by
  unfold String.utf8EncodeChar
  by_cases ascii : c.val.toNat ≤ 127
  · exact .inl ⟨Nat.lt_succ_of_le ascii, by simp only [ascii, if_true]; rfl⟩
  · refine .inr ⟨Nat.lt_of_not_le ascii, ?_⟩
    have high (n : Nat) (low : 128 ≤ n % 256) : (128 : UInt8) ≤ UInt8.ofNat n := by
      rw [UInt8.le_iff_toNat_le]
      simpa using low
    simp only [ascii, if_false]
    intro b member
    split at member
    · simp only [List.mem_cons, List.not_mem_nil, or_false] at member
      rcases member with rfl | rfl <;> exact high _ (by omega)
    · split at member
      · simp only [List.mem_cons, List.not_mem_nil, or_false] at member
        rcases member with rfl | rfl | rfl <;> exact high _ (by omega)
      · simp only [List.mem_cons, List.not_mem_nil, or_false] at member
        rcases member with rfl | rfl | rfl | rfl <;> exact high _ (by omega)

/-- The octet of an ASCII character only stands for that character. -/
theorem mem_of_mem_encode {cs : List Char} {b : UInt8} (low : b < 128) (there : b ∈ encode cs) :
    ∃ c ∈ cs, c.toNat < 128 ∧ b = c.toNat.toUInt8 := by
  obtain ⟨c, member, there⟩ := List.mem_flatMap.mp there
  rcases encodeChar_cases c with ⟨ascii, only⟩ | ⟨-, high⟩
  · rw [only] at there
    exact ⟨c, member, ascii, List.mem_singleton.mp there⟩
  · exact absurd (high b there) (UInt8.not_le.mpr low)

theorem not_mem_encode {cs : List Char} {c : Char} {b : UInt8} (low : b < 128)
    (same : b = c.toNat.toUInt8) (ascii : c.toNat < 128) (absent : c ∉ cs) : b ∉ encode cs := by
  intro there
  obtain ⟨c', member, ascii', same'⟩ := mem_of_mem_encode low there
  have codes : c.toNat = c'.toNat := by
    have octets := congrArg UInt8.toNat (same.symm.trans same')
    simp only [Nat.toUInt8_eq, UInt8.toNat_ofNat'] at octets
    omega
  rw [Char.toNat_inj] at codes
  exact absent (codes ▸ member)

theorem encode_injective {cs cs' : List Char} (same : encode cs = encode cs') : cs = cs' := by
  have texts := congrArg text? same
  rw [text?_encode, text?_encode, Option.some.injEq] at texts
  exact String.ofList_injective texts

/-! ## Names -/

/-- The octets that structure tags. -/
def isMarkup (b : UInt8) : Bool :=
  isBlank b || [lessThan, greaterThan, slash, equalSign, singleQuote, doubleQuote, exclamation,
    questionMark].contains b

theorem lt_of_isMarkup {b : UInt8} (markup : isMarkup b) : b < 128 := by
  simp only [isMarkup, isBlank, List.contains_cons, List.contains_nil, Bool.or_eq_true,
    decide_eq_true_eq, beq_iff_eq, Bool.false_eq_true, or_false] at markup
  rcases markup with (((rfl | rfl) | rfl) | rfl) | rfl | rfl | rfl | rfl | rfl | rfl | rfl | rfl <;>
    decide

theorem isBlank_eq_false {b : UInt8} (plain : isMarkup b = false) : isBlank b = false := by
  simp only [isMarkup, Bool.or_eq_false_iff] at plain
  exact plain.1

theorem ne_of_isMarkup {b c : UInt8} (plain : isMarkup b = false) (markup : isMarkup c) : b ≠ c := by
  rintro rfl
  rw [plain] at markup
  cases markup

/-- The octets of a name are none of those that structure a tag. -/
theorem isMarkup_of_isName {name : String} (proper : isName name) {b : UInt8}
    (there : b ∈ encode name.toList) : isMarkup b = false := by
  by_contra markup
  rw [Bool.not_eq_false] at markup
  obtain ⟨c, member, ascii, rfl⟩ := mem_of_mem_encode (lt_of_isMarkup markup) there
  rw [isName, Bool.and_eq_true, List.all_eq_true] at proper
  have apart : ∀ n < 128, isNameChar (Char.ofNat n) → isMarkup n.toUInt8 = false := by
    decide +kernel
  have none := apart c.toNat ascii (by rw [Char.ofNat_toNat]; exact proper.2 c member)
  rw [none] at markup
  cases markup

theorem encode_ne_nil {name : String} (proper : isName name) : encode name.toList ≠ [] := by
  rw [isName, Bool.and_eq_true] at proper
  cases chars : name.toList with
  | nil => simp [chars] at proper
  | cons c cs =>
    rw [encode_cons]
    exact List.append_ne_nil_of_left_ne_nil (List.ne_nil_of_length_pos
      (by simp [String.length_utf8EncodeChar, Char.utf8Size_pos])) _

theorem colon_not_mem {name : String} (plain : isPlainName name) :
    colon ∉ encode name.toList := by
  rw [isPlainName, Bool.and_eq_true, Bool.not_eq_true', List.contains_eq_mem,
    decide_eq_false_iff_not] at plain
  exact not_mem_encode (by decide) (c := ':') (by decide) (by decide) plain.2

theorem isName_of_isPlainName {name : String} (plain : isPlainName name) : isName name := by
  rw [isPlainName, Bool.and_eq_true] at plain
  exact plain.1

namespace Qualifies

variable {tag : String} {name : List Char}

theorem isMarkup_eq_false (qualifies : Qualifies tag name) {b : UInt8} (there : b ∈ encode name) :
    isMarkup b = false := by
  cases qualifies with
  | plain proper => exact isMarkup_of_isName (isName_of_isPlainName proper) there
  | @prefixed mark proper proper' =>
    rw [encode_append, encode_cons] at there
    rcases List.mem_append.mp there with front | there
    · exact isMarkup_of_isName (isName_of_isPlainName proper) front
    · rcases List.mem_append.mp there with isColon | back
      · rw [List.mem_singleton.mp isColon]
        decide
      · exact isMarkup_of_isName (isName_of_isPlainName proper') back

theorem encode_ne_nil (qualifies : Qualifies tag name) : encode name ≠ [] := by
  cases qualifies with
  | plain proper => exact Markup.encode_ne_nil (isName_of_isPlainName proper)
  | prefixed proper _ =>
    rw [encode_append]
    exact List.append_ne_nil_of_left_ne_nil
      (Markup.encode_ne_nil (isName_of_isPlainName proper)) _

end Qualifies

/-- The local part of a tag is the tag. -/
theorem localPart_of_qualifies {tag : String} {name : List Char} (qualifies : Qualifies tag name) :
    localPart (encode name) = encode tag.toList := by
  have skip {s : String} (plain : isPlainName s) :
      ∀ b ∈ encode s.toList, decide (b ≠ colon) := by
    intro b member
    refine decide_eq_true fun same => colon_not_mem plain (same ▸ member)
  cases qualifies with
  | plain proper =>
    have whole := (span_append (r := []) (skip proper) nofun).2
    rw [List.append_nil] at whole
    rw [localPart, whole]
  | prefixed proper _ =>
    have rest := (span_append (r := colon :: encode tag.toList) (skip proper) (by simp)).2
    have mark : String.utf8EncodeChar ':' = [colon] := rfl
    rw [localPart, encode_append, encode_cons, mark, List.singleton_append, rest]

/-! ## Values -/

theorem foldlM_digit {digitOf : Char → Option Nat} {base : Nat} {digits : List Nat}
    {shown : List Char} (each : List.Forall₂ (fun d c => digitOf c = some d) digits shown) (n : Nat) :
    shown.foldlM (fun n c => (digitOf c).map fun d => base * n + d) n =
      some (digits.foldl (fun n d => base * n + d) n) := by
  induction each generalizing n with
  | nil => rfl
  | cons digit _ ih =>
    rw [List.foldlM_cons, digit, Option.map_some, Option.bind_eq_bind, Option.bind_some, ih,
      List.foldl_cons]

theorem numberOf?_eq {digitOf : Char → Option Nat} {base : Nat} {digits : List Nat}
    {shown : List Char} (some : digits ≠ [])
    (each : List.Forall₂ (fun d c => digitOf c = .some d) digits shown) :
    numberOf? digitOf base shown = .some (Nat.ofDigits base digits.reverse) := by
  have notEmpty : shown.isEmpty = false := by
    cases each with
    | nil => exact absurd rfl some
    | cons _ _ => rfl
  rw [numberOf?, notEmpty, if_neg Bool.false_ne_true, foldlM_digit each, Nat.ofDigits_eq_foldr,
    List.foldr_reverse]
  simp [add_comm]

theorem charOfCode?_toNat {c : Char} (ne : c.toNat ≠ 0) : charOfCode? c.toNat = some c := by
  rw [charOfCode?, if_pos ⟨ne, c.valid⟩, Char.ofNat_toNat]

theorem entity?_of_entity {c : Char} {name : List Char} (entity : Entity c name) :
    entity? name = some c := by
  cases entity with
  | lt | gt | amp | apos | quot => rfl
  | @decimal _ digits ne some low value =>
    have all : ∀ d < 10, decimalDigit? (Nat.digitChar d) = .some d ∧ Nat.digitChar d ≠ 'x' := by
      decide
    have each : List.Forall₂ (fun d c => decimalDigit? c = .some d) digits
        (digits.map Nat.digitChar) :=
      List.forall₂_map_right_iff.mpr (List.forall₂_same.mpr fun d member => (all d (low d member)).1)
    rw [entity?, numberOf?_eq some each, value, Option.bind_some, charOfCode?_toNat ne]
    intro shown isHex
    obtain ⟨d, rest, rfl⟩ := List.exists_cons_of_ne_nil some
    simp only [List.map_cons, List.cons.injEq] at isHex
    exact (all d (low d List.mem_cons_self)).2 isHex.1
  | @hexadecimal _ digits shown ne some isHex value =>
    have each : List.Forall₂ (fun d c => hexDigit? c = .some d) digits shown := by
      have all : ∀ d < 16, hexDigit? (Nat.digitChar d) = .some d ∧
          hexDigit? (Nat.digitChar d).toUpper = .some d := by decide
      refine List.Forall₂.imp (fun d c shows => ?_) isHex
      obtain ⟨low, rfl | rfl⟩ := shows
      · exact (all d low).1
      · exact (all d low).2
    rw [entity?, numberOf?_eq some each, value, Option.bind_some, charOfCode?_toNat ne]

/-- An entity has neither an ampersand nor a semicolon in it. -/
theorem plain_of_entity {c : Char} {name : List Char} (entity : Entity c name) :
    ∀ d ∈ name, d ≠ '&' ∧ d ≠ ';' := by
  have digit : ∀ n < 16, (Nat.digitChar n ≠ '&' ∧ Nat.digitChar n ≠ ';') ∧
      (Nat.digitChar n).toUpper ≠ '&' ∧ (Nat.digitChar n).toUpper ≠ ';' := by decide
  cases entity with
  | lt | gt | amp | apos | quot => simp
  | decimal _ _ low _ =>
    intro d member
    rcases List.mem_cons.mp member with rfl | member
    · decide
    · obtain ⟨n, shown, rfl⟩ := List.mem_map.mp member
      exact (digit n (Nat.lt_trans (low n shown) (by decide))).1
  | @hexadecimal _ digits shown _ _ isHex _ =>
    have each : ∀ d ∈ shown, d ≠ '&' ∧ d ≠ ';' := by
      clear * - isHex digit
      induction isHex with
      | nil => nofun
      | cons shows _ ih =>
        refine List.forall_mem_cons.mpr ⟨?_, ih⟩
        obtain ⟨low, rfl | rfl⟩ := shows
        · exact (digit _ low).1
        · exact (digit _ low).2
    exact List.forall_mem_cons.mpr ⟨by decide, List.forall_mem_cons.mpr ⟨by decide, each⟩⟩

/-- Reading an entity to its end. -/
theorem unescapeFrom?_entity {name : List Char} (plain : ∀ d ∈ name, d ≠ '&' ∧ d ≠ ';')
    (before written : List Char) :
    unescapeFrom? (some before) (name ++ ';' :: written) = do
      let entity ← entity? (before.reverse ++ name)
      let text ← unescapeFrom? none written
      return entity :: text := by
  induction name generalizing before with
  | nil => rw [List.nil_append, unescapeFrom?, if_pos rfl, List.append_nil]
  | cons d name ih =>
    obtain ⟨notAmp, notEnd⟩ := plain d List.mem_cons_self
    rw [List.cons_append, unescapeFrom?, if_neg notEnd, if_neg notAmp,
      ih fun x member => plain x (List.mem_cons_of_mem d member), List.reverse_cons,
      List.append_assoc, List.singleton_append]

/-- A value is unescaped to the text that it was written for. -/
theorem unescape?_of_writes {quote : Quote} {text written : List Char}
    (writes : Writes quote text written) : unescape? written = some text := by
  unfold unescape?
  induction writes with
  | nil => rfl
  | plain _ notAmp _ _ ih => rw [unescapeFrom?, if_neg notAmp, ih, Option.map_some]
  | entity entity _ ih =>
    rw [unescapeFrom?, if_pos rfl, unescapeFrom?_entity (plain_of_entity entity), List.reverse_nil,
      List.nil_append, entity?_of_entity entity, ih]
    rfl

/-! ## Attributes -/

namespace Quote

theorem octet_not_mem {quote : Quote} {cs : List Char} (closed : quote.char ∉ cs) :
    quote.octet ∉ encode cs := by
  cases quote <;> exact not_mem_encode (by decide) rfl (by decide) closed

theorem octet_isQuote (quote : Quote) :
    (quote.octet = singleQuote || quote.octet = doubleQuote) = true := by
  cases quote <;> rfl

end Quote

/-- An attribute as it is cut out of a tag. -/
def Written.cut (w : Written) : Octets × Octets := (encode w.key.toList, encode w.value)

/-- The octets from the key on, with what follows them. -/
def Written.bodyThen (w : Written) (more : Octets) : Octets :=
  encode w.key.toList ++ (w.before ++ equalSign :: (w.after ++
    w.quote.octet :: (encode w.value ++ w.quote.octet :: more)))

theorem Written.octets_append (w : Written) (more : Octets) :
    w.octets ++ more = w.gap ++ w.bodyThen more := by
  simp [octets, bodyThen]

theorem blank_of_all {blanks : Octets} (all : blanks.all isBlank) : ∀ b ∈ blanks, isBlank b :=
  List.all_eq_true.mp all

/-- An attribute is cut off at the quote that ends its value. -/
theorem Written.Sound.cutAttribute?_eq {w : Written} (sound : w.Sound) {first : UInt8} {rest more : Octets}
    (starts : w.bodyThen more = first :: rest) :
    cutAttribute? first rest = some (w.cut, more) := by
  obtain ⟨first', key, named⟩ := List.exists_cons_of_ne_nil (encode_ne_nil sound.name)
  rw [Written.bodyThen, named, List.cons_append] at starts
  obtain ⟨rfl, rfl⟩ := List.cons.inj starts
  have inKey : ∀ b ∈ key, (!(decide (b = equalSign) || isBlank b)) = true := by
    intro b member
    have plain := isMarkup_of_isName sound.name (named ▸ List.mem_cons_of_mem first' member)
    simp [isBlank_eq_false plain, ne_of_isMarkup plain (c := equalSign) (by decide)]
  have endOfKey (value : Octets) : ∀ b ∈ (w.before ++ equalSign :: value).head?,
      (!(decide (b = equalSign) || isBlank b)) = false := by
    intro b isHead
    cases blanks : w.before with
    | nil =>
      rw [blanks] at isHead
      cases isHead
      rfl
    | cons blank before =>
      rw [blanks] at isHead
      cases isHead
      have isBlank := blank_of_all sound.before b (blanks ▸ List.mem_cons_self)
      simp [isBlank]
  have inValue : ∀ b ∈ encode w.value, decide (b ≠ w.quote.octet) = true := fun b member =>
    decide_eq_true fun same => Quote.octet_not_mem sound.closed (same ▸ member)
  -- Key, blanks and value each end where a character of another kind comes.
  have keySpan := span_append inKey
    (endOfKey (w.after ++ w.quote.octet :: (encode w.value ++ w.quote.octet :: more)))
  have beforeSpan := (span_append (r := equalSign :: (w.after ++
    w.quote.octet :: (encode w.value ++ w.quote.octet :: more))) (blank_of_all sound.before)
    (by simp; decide)).2
  have afterSpan := (span_append (r := w.quote.octet :: (encode w.value ++ w.quote.octet :: more))
    (blank_of_all sound.after) (by cases w.quote <;> simp [Quote.octet] <;> decide)).2
  have valueSpan := span_append (r := w.quote.octet :: more) inValue (by simp)
  unfold cutAttribute?
  simp only [keySpan.1, keySpan.2, beforeSpan]
  split
  · next value same =>
    cases same
    simp only [afterSpan, Quote.octet_isQuote, if_true, valueSpan.1, valueSpan.2, Written.cut, named]
  · next other => exact absurd rfl (other _)

/-- All attributes of a start tag are cut out, with blanks behind them. -/
theorem cutAttributes_eq {ws : List Written} (sound : ∀ w ∈ ws, w.Sound) {blanks : Octets}
    (blank : blanks.all isBlank) :
    cutAttributes (ws.flatMap Written.octets ++ blanks) = (ws.map Written.cut, true) := by
  induction ws with
  | nil =>
    have none := (span_append (r := []) (blank_of_all blank) nofun).2
    rw [List.append_nil] at none
    rw [List.flatMap_nil, List.nil_append, cutAttributes]
    split
    · rfl
    · next first rest found => rw [none] at found; cases found
  | cons w ws ih =>
    obtain ⟨here, others⟩ := List.forall_mem_cons.mp sound
    obtain ⟨first, key, named⟩ := List.exists_cons_of_ne_nil (encode_ne_nil here.name)
    have notBlank (more : Octets) : ∀ b ∈ (w.bodyThen more).head?, isBlank b = false := by
      intro b isHead
      rw [Written.bodyThen, named] at isHead
      cases isHead
      exact isBlank_eq_false (isMarkup_of_isName here.name (named ▸ List.mem_cons_self))
    rw [List.flatMap_cons, List.append_assoc, Written.octets_append, cutAttributes]
    have skipped := (span_append (blank_of_all here.gap)
      (notBlank (ws.flatMap Written.octets ++ blanks))).2
    split
    · next found =>
      rw [skipped, Written.bodyThen, named] at found
      cases found
    · next first rest found =>
      have cut := here.cutAttribute?_eq (skipped.symm.trans found)
      split
      · next none => rw [cut] at none; cases none
      · next a after found =>
        rw [cut] at found
        cases found
        rw [ih others, List.map_cons]

theorem isKept_iff {discriminator key : String} :
    isKept discriminator key ↔ IsKept discriminator key := by
  simp only [isKept, IsKept, IsBookkeeping, Bool.or_eq_true, decide_eq_true_eq, Bool.not_eq_true',
    Bool.or_eq_false_iff, decide_eq_false_iff_not, String.startsWith_string_eq_false_iff, not_or,
    and_assoc]

/-- The attributes that are kept, decoded in their order. -/
theorem decodeAttributes_eq {discriminator : String} {ws : List Written}
    {entries : List (String × String)} (holds : Holds discriminator ws entries)
    (distinct : (ws.map Written.key).Nodup) (seen : List Octets)
    (new : ∀ w ∈ ws, encode w.key.toList ∉ seen) :
    decodeAttributes discriminator true seen (ws.map Written.cut) = .ok entries := by
  -- A key that has been seen is none of those that follow.
  have later {w : Written} {ws : List Written} {seen : List Octets}
      (distinct : ((w :: ws).map Written.key).Nodup)
      (new : ∀ w' ∈ w :: ws, encode w'.key.toList ∉ seen) :
      ∀ w' ∈ ws, encode w'.key.toList ∉ encode w.key.toList :: seen := by
    intro w' member there
    rcases List.mem_cons.mp there with same | before
    · rw [List.map_cons, List.nodup_cons] at distinct
      have keys := String.toList_injective (encode_injective same)
      exact distinct.1 (keys ▸ List.mem_map_of_mem member)
    · exact new w' (List.mem_cons_of_mem w member) before
  induction holds generalizing seen with
  | nil => rfl
  | @kept w value rest entries sound kept writes _ ih =>
    have others := ih (List.nodup_cons.mp distinct).2 _ (later distinct new)
    rw [List.map_cons, Written.cut, decodeAttributes, if_neg (new w List.mem_cons_self)]
    simp only [text?_encode, String.ofList_toList, isKept_iff.mpr kept, Option.bind_some,
      String.toList_ofList, unescape?_of_writes writes, others]
    rfl
  | @dropped w rest entries sound dropped _ ih =>
    have others := ih (List.nodup_cons.mp distinct).2 _ (later distinct new)
    have leftOut : isKept discriminator w.key = false := by
      rw [← Bool.not_eq_true, isKept_iff]
      exact dropped
    rw [List.map_cons, Written.cut, decodeAttributes, if_neg (new w List.mem_cons_self)]
    simp only [text?_encode, String.ofList_toList, leftOut, others]
    rfl

theorem Holds.sound {discriminator : String} {ws : List Written} {entries : List (String × String)}
    (holds : Holds discriminator ws entries) : ∀ w ∈ ws, w.Sound := by
  induction holds with
  | nil => nofun
  | kept sound _ _ _ ih | dropped sound _ _ ih => exact List.forall_mem_cons.mpr ⟨sound, ih⟩

/-! ## Start tags -/

/-- What follows the name of a tag begins with a blank, if there is anything. -/
theorem SpellsAttributes.head_isBlank {discriminator : String} {attributes : OrderedMap String}
    {rest : Octets} (spells : SpellsAttributes discriminator attributes rest) :
    ∀ b ∈ rest.head?, isBlank b := by
  obtain @⟨ws, blanks, holds, -, blank⟩ := spells
  intro b isHead
  cases ws with
  | nil => exact blank_of_all blank b (List.mem_of_head? isHead)
  | cons w ws =>
    have sound := holds.sound w List.mem_cons_self
    obtain ⟨first, gap, split⟩ := List.exists_cons_of_ne_nil sound.apart
    rw [List.flatMap_cons, List.append_assoc, Written.octets_append, split] at isHead
    cases isHead
    exact blank_of_all sound.gap _ (split ▸ List.mem_cons_self)

/-- The event of a start tag, and the name in it. -/
theorem startEvent_of_spells {discriminator tag : String} {attributes : OrderedMap String}
    {name : List Char} {rest : Octets} (qualifies : Qualifies tag name)
    (spells : SpellsAttributes discriminator attributes rest) :
    tagName (encode name ++ rest) = encode name ∧
      startEvent discriminator (encode name ++ rest) = .ok (.opening tag attributes) := by
  have inName : ∀ b ∈ encode name, (!isBlank b) = true := fun b member => by
    rw [isBlank_eq_false (qualifies.isMarkup_eq_false member), Bool.not_false]
  have endOfName : ∀ b ∈ rest.head?, (!isBlank b) = false := fun b isHead => by
    rw [spells.head_isBlank b isHead, Bool.not_true]
  obtain ⟨isTag, isRest⟩ := span_append inName endOfName
  refine ⟨isTag, ?_⟩
  obtain ⟨holds, distinct, blank⟩ := spells
  rw [startEvent, tagName, isTag, isRest, localPart_of_qualifies qualifies, text?_encode,
    String.ofList_toList, cutAttributes_eq holds.sound blank]
  simp only [decodeAttributes_eq holds distinct [] fun _ _ => List.not_mem_nil]
  exact congrArg (fun a => Except.ok (Event.opening tag a)) (OrderedMap.ofList_entries attributes)

end Metamodel.Markup
