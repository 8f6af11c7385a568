/-!
The octets that structure a document, and cutting octet sequences at marks.

Results:
1. `eq_of_cutAt?`, `length_of_cutTag?`: what a cut leaves is a part of what it was given.
-/

namespace Metamodel.Markup

abbrev Octets := List UInt8

namespace Octet

@[match_pattern]
abbrev exclamation : UInt8 := 0x21

@[match_pattern]
abbrev doubleQuote : UInt8 := 0x22

@[match_pattern]
abbrev singleQuote : UInt8 := 0x27

@[match_pattern]
abbrev hyphen : UInt8 := 0x2d

@[match_pattern]
abbrev slash : UInt8 := 0x2f

@[match_pattern]
abbrev colon : UInt8 := 0x3a

@[match_pattern]
abbrev lessThan : UInt8 := 0x3c

@[match_pattern]
abbrev equalSign : UInt8 := 0x3d

@[match_pattern]
abbrev greaterThan : UInt8 := 0x3e

@[match_pattern]
abbrev questionMark : UInt8 := 0x3f

@[match_pattern]
abbrev openBracket : UInt8 := 0x5b

/-- Space, tab, carriage return and line feed. -/
def isBlank (b : UInt8) : Bool := b = 0x20 || b = 0x09 || b = 0x0d || b = 0x0a

/-- The octets of an ASCII text. -/
def ofAscii (s : String) : Octets := s.toList.map fun c => c.toNat.toUInt8

/-- The same letter in upper case; other octets as they are. -/
def upper (b : UInt8) : UInt8 := if 0x61 ≤ b ∧ b ≤ 0x7a then b - 0x20 else b

/-- The text that the octets encode, if they are well-formed UTF-8. -/
def text? (bytes : Octets) : Option String := String.fromUTF8? ⟨bytes.toArray⟩

end Octet

/-- What comes before the first occurrence of `mark`, and what comes after it. -/
def cutAt? (mark : Octets) : Octets → Option (Octets × Octets)
  | [] => if mark.isEmpty then some ([], []) else none
  | b :: rest =>
    if mark.isPrefixOf (b :: rest) then some ([], (b :: rest).drop mark.length)
    else (cutAt? mark rest).map fun (before, after) => (b :: before, after)

/-- What comes before the `>` that ends a tag, and what comes after it. `quote` is the quote that is
open: a `>` inside quotes ends nothing. -/
def cutTag? : Option UInt8 → Octets → Option (Octets × Octets)
  | _, [] => none
  | none, b :: rest =>
    if b = Octet.greaterThan then some ([], rest)
    else
      (cutTag? (if b = Octet.singleQuote || b = Octet.doubleQuote then some b else none) rest).map
        fun (content, after) => (b :: content, after)
  | some quote, b :: rest =>
    (cutTag? (if b = quote then none else some quote) rest).map
      fun (content, after) => (b :: content, after)

/-- What comes before the `>` that closes `depth` pairs of nested angle brackets, and what comes
after it. -/
def cutNested? : Nat → Octets → Option (Octets × Octets)
  | _, [] => none
  | depth, b :: rest =>
    if b = Octet.greaterThan then
      match depth with
      | 0 => some ([], rest)
      | outer + 1 => (cutNested? outer rest).map fun (content, after) => (b :: content, after)
    else
      (cutNested? (if b = Octet.lessThan then depth + 1 else depth) rest).map
        fun (content, after) => (b :: content, after)

theorem eq_of_cutAt? {mark s before after : Octets} (h : cutAt? mark s = some (before, after)) :
    s = before ++ mark ++ after := by
  induction s generalizing before with
  | nil =>
    unfold cutAt? at h
    split at h <;> simp_all
  | cons b rest ih =>
    unfold cutAt? at h
    split at h
    · next hp =>
      obtain ⟨t, ht⟩ := List.isPrefixOf_iff_prefix.1 hp
      simp only [Option.some.injEq, Prod.mk.injEq] at h
      obtain ⟨rfl, rfl⟩ := h
      rw [← ht]
      simp
    · obtain ⟨⟨before', after'⟩, hc, heq⟩ := Option.map_eq_some_iff.1 h
      simp only [Prod.mk.injEq] at heq
      obtain ⟨rfl, rfl⟩ := heq
      simp [ih hc]

theorem length_of_cutAt? {mark s before after : Octets} (h : cutAt? mark s = some (before, after)) :
    after.length ≤ s.length := by
  rw [eq_of_cutAt? h]
  simp only [List.length_append]
  omega

theorem length_of_cutTag? {quote : Option UInt8} {s content after : Octets}
    (h : cutTag? quote s = some (content, after)) : after.length < s.length := by
  induction s generalizing quote content with
  | nil => cases quote <;> simp [cutTag?] at h
  | cons b rest ih =>
    cases quote with
    | none =>
      unfold cutTag? at h
      split at h
      · simp_all
      · obtain ⟨⟨content', after'⟩, hc, heq⟩ := Option.map_eq_some_iff.1 h
        obtain ⟨-, rfl⟩ := Prod.mk.inj heq
        exact Nat.lt_succ_of_lt (ih hc)
    | some quote =>
      unfold cutTag? at h
      obtain ⟨⟨content', after'⟩, hc, heq⟩ := Option.map_eq_some_iff.1 h
      obtain ⟨-, rfl⟩ := Prod.mk.inj heq
      exact Nat.lt_succ_of_lt (ih hc)

theorem length_of_cutNested? {depth : Nat} {s content after : Octets}
    (h : cutNested? depth s = some (content, after)) : after.length < s.length := by
  induction s generalizing depth content with
  | nil => simp [cutNested?] at h
  | cons b rest ih =>
    unfold cutNested? at h
    split at h
    · split at h
      · simp_all
      · obtain ⟨⟨content', after'⟩, hc, heq⟩ := Option.map_eq_some_iff.1 h
        obtain ⟨-, rfl⟩ := Prod.mk.inj heq
        exact Nat.lt_succ_of_lt (ih hc)
    · obtain ⟨⟨content', after'⟩, hc, heq⟩ := Option.map_eq_some_iff.1 h
      obtain ⟨-, rfl⟩ := Prod.mk.inj heq
      exact Nat.lt_succ_of_lt (ih hc)

end Metamodel.Markup
