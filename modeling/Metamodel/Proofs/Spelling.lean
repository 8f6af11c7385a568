import Mathlib.Data.Nat.Digits.Defs
import Metamodel.Markup.Reader
import Metamodel.Proofs.Nesting

/-!
How events are spelled in a document.

Events leave much open: the prefix of a tag, blanks within tags, the quotes and the entities of a
value, attributes that only keep books, whether an element without content closes itself, and
whatever may stand between tags. `Spells` relates events to every document that has them, and does
not mention how documents are read.

Results:
1. `text?_encode`: what is encoded as octets is decoded as the same text.
2. `Spells.balanced`: only well-nested events are spelled.
3. `exists_spells`: well-nested events with proper names are.
-/

namespace Metamodel.Markup

namespace Octet

/-- The octets of a text in UTF-8. -/
def encode (cs : List Char) : Octets := cs.flatMap String.utf8EncodeChar

theorem encode_append (cs cs' : List Char) : encode (cs ++ cs') = encode cs ++ encode cs' :=
  List.flatMap_append

theorem text?_encode (cs : List Char) : text? (encode cs) = some (String.ofList cs) := by
  have same : (⟨(encode cs).toArray⟩ : ByteArray) = cs.utf8Encode := by
    apply ByteArray.ext
    rw [List.utf8Encode, List.data_toByteArray, encode]
  rw [text?, same, String.fromUTF8?, dif_pos ⟨cs, rfl⟩]
  rfl

end Octet

open Octet

/-! ## Names -/

/-- The code points of the characters that a name may begin with. -/
def nameStarts : List (Nat × Nat) :=
  [(0x3a, 0x3a), (0x41, 0x5a), (0x5f, 0x5f), (0x61, 0x7a), (0xc0, 0xd6), (0xd8, 0xf6),
    (0xf8, 0x2ff), (0x370, 0x37d), (0x37f, 0x1fff), (0x200c, 0x200d), (0x2070, 0x218f),
    (0x2c00, 0x2fef), (0x3001, 0xd7ff), (0xf900, 0xfdcf), (0xfdf0, 0xfffd), (0x10000, 0xeffff)]

/-- The code points of the other characters that may stand in a name. -/
def nameRests : List (Nat × Nat) :=
  [(0x2d, 0x2e), (0x30, 0x39), (0xb7, 0xb7), (0x300, 0x36f), (0x203f, 0x2040)]

/-- Whether a character is in one of the ranges. -/
def inRanges (ranges : List (Nat × Nat)) (c : Char) : Bool :=
  ranges.any fun (low, high) => low ≤ c.toNat && c.toNat ≤ high

def isNameChar (c : Char) : Bool := inRanges (nameStarts ++ nameRests) c

/-- Whether a text is a name of a tag or an attribute. -/
def isName (s : String) : Bool :=
  s.toList.head?.any (inRanges nameStarts) && s.toList.all isNameChar

/-- Whether a text is a name without a colon. -/
def isPlainName (s : String) : Bool := isName s && !s.toList.contains ':'

/-- A tag as it is written: with a prefix or without. -/
inductive Qualifies (tag : String) : List Char → Prop
  | plain : isPlainName tag → Qualifies tag tag.toList
  | prefixed {mark : String} :
      isPlainName mark → isPlainName tag → Qualifies tag (mark.toList ++ ':' :: tag.toList)

/-! ## Values -/

/-- A digit of a number in hexadecimal, with letters in lower or in upper case. -/
def IsHexDigit (d : Nat) (c : Char) : Prop :=
  d < 16 ∧ (c = Nat.digitChar d ∨ c = (Nat.digitChar d).toUpper)

/-- What stands between `&` and `;` for a character: one of the five predefined names, or the code
point with its most significant digit first. -/
inductive Entity : Char → List Char → Prop
  | lt : Entity '<' "lt".toList
  | gt : Entity '>' "gt".toList
  | amp : Entity '&' "amp".toList
  | apos : Entity '\'' "apos".toList
  | quot : Entity '"' "quot".toList
  | decimal {c : Char} {digits : List Nat} :
      c.toNat ≠ 0 → digits ≠ [] → (∀ d ∈ digits, d < 10) → Nat.ofDigits 10 digits.reverse = c.toNat →
      Entity c ('#' :: digits.map Nat.digitChar)
  | hexadecimal {c : Char} {digits : List Nat} {shown : List Char} :
      c.toNat ≠ 0 → digits ≠ [] → List.Forall₂ IsHexDigit digits shown →
      Nat.ofDigits 16 digits.reverse = c.toNat → Entity c ('#' :: 'x' :: shown)

/-- The quotes around a value. -/
inductive Quote
  | single
  | double
  deriving DecidableEq

def Quote.char : Quote → Char
  | .single => '\''
  | .double => '"'

def Quote.octet : Quote → UInt8
  | .single => singleQuote
  | .double => doubleQuote

/-- What may be written for a text in quotes: each character as it is or as an entity. -/
inductive Writes (quote : Quote) : List Char → List Char → Prop
  | nil : Writes quote [] []
  | plain {c : Char} {text written : List Char} :
      c ≠ '<' → c ≠ '&' → c ≠ quote.char → Writes quote text written →
      Writes quote (c :: text) (c :: written)
  | entity {c : Char} {name text written : List Char} :
      Entity c name → Writes quote text written →
      Writes quote (c :: text) ('&' :: (name ++ ';' :: written))

/-! ## Attributes -/

/-- An attribute as it is written. -/
structure Written where
  /-- The blanks in front of the key. -/
  gap : Octets
  key : String
  /-- The blanks in front of the equals sign. -/
  before : Octets
  /-- The blanks behind the equals sign. -/
  after : Octets
  quote : Quote
  value : List Char

namespace Written

def octets (w : Written) : Octets :=
  w.gap ++ encode w.key.toList ++ w.before ++ equalSign :: w.after ++
    w.quote.octet :: encode w.value ++ [w.quote.octet]

/-- The parts are what they should be. -/
structure Sound (w : Written) : Prop where
  apart : w.gap ≠ []
  gap : w.gap.all isBlank
  before : w.before.all isBlank
  after : w.after.all isBlank
  name : isName w.key
  closed : w.quote.char ∉ w.value

end Written

/-- The attributes that say nothing about a model: namespace declarations and those of the two
exchange namespaces. -/
def IsBookkeeping (key : String) : Prop :=
  key = "xmlns" ∨ "xmlns:".toList <+: key.toList ∨ "xmi:".toList <+: key.toList ∨
    "xsi:".toList <+: key.toList

/-- The keys of events: the discriminator, and whatever keeps no books. -/
def IsKept (discriminator key : String) : Prop := key = discriminator ∨ ¬ IsBookkeeping key

/-- The attributes as they are written hold these entries; those that are not kept may have any
value. -/
inductive Holds (discriminator : String) : List Written → List (String × String) → Prop
  | nil : Holds discriminator [] []
  | kept {w : Written} {value : String} {rest : List Written} {entries : List (String × String)} :
      w.Sound → IsKept discriminator w.key → Writes w.quote value.toList w.value →
      Holds discriminator rest entries →
      Holds discriminator (w :: rest) ((w.key, value) :: entries)
  | dropped {w : Written} {rest : List Written} {entries : List (String × String)} :
      w.Sound → ¬ IsKept discriminator w.key → Holds discriminator rest entries →
      Holds discriminator (w :: rest) entries

/-- What follows the name in a start tag: attributes with different keys, and blanks. -/
inductive SpellsAttributes (discriminator : String) (attributes : OrderedMap String) :
    Octets → Prop
  | mk {ws : List Written} {blanks : Octets} :
      Holds discriminator ws attributes.entries → (ws.map Written.key).Nodup → blanks.all isBlank →
      SpellsAttributes discriminator attributes (ws.flatMap Written.octets ++ blanks)

/-! ## Documents -/

/-- What may stand between tags: text, character data, comments and processing instructions. -/
inductive Filler : Octets → Prop
  | text {s : Octets} : lessThan ∉ s → Filler s
  | characterData {s : Octets} :
      ¬ ofAscii "]]>" <:+: s → Filler (ofAscii "<![CDATA[" ++ s ++ ofAscii "]]>")
  | comment {s : Octets} :
      ¬ ofAscii "--" <:+: s → Filler (ofAscii "<!--" ++ s ++ ofAscii "-->")
  | instruction {s : Octets} :
      s.head? ≠ some greaterThan → ¬ ofAscii "?>" <:+: s → Filler (ofAscii "<?" ++ s ++ ofAscii "?>")

/-- The events are those of the document, or of a part of it. -/
inductive Spells (discriminator : String) : List Event → Octets → Prop
  | filler {s : Octets} : Filler s → Spells discriminator [] s
  | append {first second : List Event} {s t : Octets} :
      Spells discriminator first s → Spells discriminator second t →
      Spells discriminator (first ++ second) (s ++ t)
  | element {tag : String} {attributes : OrderedMap String} {name : List Char}
      {rest content blanks : Octets} {inner : List Event} :
      Qualifies tag name → SpellsAttributes discriminator attributes rest →
      Spells discriminator inner content → blanks.all isBlank →
      Spells discriminator (.opening tag attributes :: (inner ++ [.closing]))
        (lessThan :: (encode name ++ rest ++ [greaterThan]) ++ content ++
          lessThan :: slash :: (encode name ++ blanks ++ [greaterThan]))
  | empty {tag : String} {attributes : OrderedMap String} {name : List Char} {rest : Octets} :
      Qualifies tag name → SpellsAttributes discriminator attributes rest →
      Spells discriminator [.opening tag attributes, .closing]
        (lessThan :: (encode name ++ rest ++ [slash, greaterThan]))

/-- Only well-nested events are spelled. -/
theorem Spells.balanced {discriminator : String} {events : List Event} {document : Octets}
    (spells : Spells discriminator events document) : Balanced events := by
  induction spells with
  | filler _ => exact .nil
  | append _ _ ih ih' => exact ih.append ih'
  | element _ _ _ _ ih => exact .element ih .nil
  | empty _ _ => exact .element .nil .nil

/-! ## Existence -/

/-- The tag and the keys of an event can be written. -/
def Named (discriminator : String) : Event → Prop
  | .opening tag attributes =>
    isPlainName tag ∧ ∀ key ∈ attributes.keys, isName key ∧ IsKept discriminator key
  | .closing => True

theorem exists_writes (text : List Char) :
    ∃ written, Writes .double text written ∧ '"' ∉ written := by
  induction text with
  | nil => exact ⟨[], .nil, List.not_mem_nil⟩
  | cons c text ih =>
    obtain ⟨written, writes, closed⟩ := ih
    have entity (name : List Char) (entity : Entity c name) (free : '"' ∉ name) :
        ∃ written, Writes .double (c :: text) written ∧ '"' ∉ written :=
      ⟨_, .entity entity writes, by simp [free, closed]⟩
    by_cases lt : c = '<'
    · exact entity "lt".toList (lt ▸ .lt) (by decide)
    by_cases amp : c = '&'
    · exact entity "amp".toList (amp ▸ .amp) (by decide)
    by_cases quot : c = '"'
    · exact entity "quot".toList (quot ▸ .quot) (by decide)
    · exact ⟨_, .plain lt amp quot writes, by simp [closed, Ne.symm quot]⟩

theorem exists_holds_written {discriminator : String} (entries : List (String × String))
    (named : ∀ entry ∈ entries, isName entry.1 ∧ IsKept discriminator entry.1) :
    ∃ ws, Holds discriminator ws entries ∧ ws.map Written.key = entries.map Prod.fst := by
  induction entries with
  | nil => exact ⟨[], .nil, rfl⟩
  | cons entry entries ih =>
    obtain ⟨key, value⟩ := entry
    obtain ⟨ws, holds, keys⟩ := ih fun e member => named e (List.mem_cons_of_mem _ member)
    obtain ⟨written, writes, closed⟩ := exists_writes value.toList
    obtain ⟨name, kept⟩ := named (key, value) List.mem_cons_self
    let w : Written := ⟨[0x20], key, [], [], .double, written⟩
    have sound : w.Sound := ⟨List.cons_ne_nil _ _, rfl, rfl, rfl, name, closed⟩
    exact ⟨w :: ws, .kept sound kept writes holds, by rw [List.map_cons, keys]; rfl⟩

/-- Every well-nested sequence of events has a document, if its tags are names without a colon and
its keys are names that are kept. -/
theorem exists_spells {discriminator : String} {events : List Event} (balanced : Balanced events)
    (named : ∀ event ∈ events, Named discriminator event) :
    ∃ document, Spells discriminator events document := by
  induction balanced with
  | nil => exact ⟨[], .filler (.text List.not_mem_nil)⟩
  | @element tag attributes inner rest _ _ ihInner ihRest =>
    obtain ⟨isTag, keys⟩ := named _ List.mem_cons_self
    obtain ⟨content, spellsInner⟩ := ihInner fun event member => named event (by simp [member])
    obtain ⟨after, spellsRest⟩ := ihRest fun event member => named event (by simp [member])
    obtain ⟨ws, holds, sameKeys⟩ := exists_holds_written attributes.entries fun entry member =>
      keys entry.1 (List.mem_map_of_mem member)
    have distinct : (ws.map Written.key).Nodup := sameKeys ▸ attributes.nodup_keys
    have noBlanks : ([] : Octets).all isBlank := rfl
    have element := Spells.element (.plain isTag) (.mk holds distinct noBlanks) spellsInner noBlanks
    have both := element.append spellsRest
    rw [List.cons_append, List.append_assoc] at both
    exact ⟨_, both⟩

end Metamodel.Markup
