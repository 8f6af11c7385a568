import Metamodel.Markup.Octet

/-!
The tags of a document.

Text, comments, character data sections, processing instructions and the document type are passed
over; they only have to end.

Results:
1. `length_of_afterLessThan?`: each construct takes something away from the document.
-/

namespace Metamodel.Markup

/-- A tag, without its brackets. -/
inductive Token
  | opening (content : Octets)
  /-- A tag for an element without content, which the slash in front of the last bracket marks. -/
  | selfClosing (content : Octets)
  | closing (content : Octets)
  deriving DecidableEq

namespace Token

/-- A start tag. A slash in front of its last bracket is not part of the content. -/
def ofStartTag (content : Octets) : Token :=
  if content.getLast? = some Octet.slash then .selfClosing content.dropLast else .opening content

/-- The end of a document type: something other than blanks must follow the keyword. -/
def afterDoctype? (s : Octets) : Option Octets := do
  let (content, after) ← cutNested? 0 s
  if (content.take 7).map Octet.upper = Octet.ofAscii "DOCTYPE" &&
      (content.drop 7).any (!Octet.isBlank ·) then
    some after
  else none

/-- The construct that `<` begins, and what follows it; nothing when the construct does not end or
is none of those known. -/
def afterLessThan? : Octets → Option (Option Token × Octets)
  | Octet.exclamation :: Octet.hyphen :: rest =>
    match rest with
    | Octet.hyphen :: comment =>
      (cutAt? (Octet.ofAscii "-->") comment).map fun (_, after) => (none, after)
    | _ => none
  | Octet.exclamation :: Octet.openBracket :: rest =>
    if (Octet.ofAscii "CDATA[").isPrefixOf rest then
      (cutAt? (Octet.ofAscii "]]>") rest).map fun (_, after) => (none, after)
    else none
  | Octet.exclamation :: rest => (afterDoctype? rest).map fun after => (none, after)
  | Octet.questionMark :: rest =>
    if rest.head? = some Octet.greaterThan then none
    else (cutAt? (Octet.ofAscii "?>") rest).map fun (_, after) => (none, after)
  | Octet.slash :: rest =>
    (cutTag? none rest).map fun (content, after) => (some (.closing content), after)
  | rest => (cutTag? none rest).map fun (content, after) => (some (ofStartTag content), after)

theorem length_of_afterLessThan? {s after : Octets} {t : Option Token}
    (h : afterLessThan? s = some (t, after)) : after.length ≤ s.length := by
  unfold afterLessThan? at h
  split at h
  · split at h
    · obtain ⟨⟨_, a⟩, hc, heq⟩ := Option.map_eq_some_iff.1 h
      have := length_of_cutAt? hc
      simp_all
      omega
    · contradiction
  · split at h
    · obtain ⟨⟨_, a⟩, hc, heq⟩ := Option.map_eq_some_iff.1 h
      have := length_of_cutAt? hc
      simp_all
      omega
    · contradiction
  · obtain ⟨a, hc, heq⟩ := Option.map_eq_some_iff.1 h
    unfold afterDoctype? at hc
    obtain ⟨⟨content, b⟩, hn, hif⟩ := Option.bind_eq_some_iff.1 hc
    have := length_of_cutNested? hn
    split at hif
    simp_all
    omega
  · split at h
    · contradiction
    · obtain ⟨⟨_, a⟩, hc, heq⟩ := Option.map_eq_some_iff.1 h
      have := length_of_cutAt? hc
      simp_all
      omega
  · obtain ⟨⟨_, a⟩, hc, heq⟩ := Option.map_eq_some_iff.1 h
    have := length_of_cutTag? hc
    simp_all
    omega
  · obtain ⟨⟨_, a⟩, hc, heq⟩ := Option.map_eq_some_iff.1 h
    have := length_of_cutTag? hc
    simp_all
    omega

/-- The tags of a document in order, and whether the document could be read to its end. -/
def scan (document : Octets) : List Token × Bool :=
  match _hd : document.dropWhile (· ≠ Octet.lessThan) with
  | [] => ([], true)
  | _ :: rest =>
    match _h : afterLessThan? rest with
    | none => ([], false)
    | some (t, after) =>
      let (tokens, complete) := scan after
      (t.toList ++ tokens, complete)
termination_by document.length
decreasing_by
  have h1 := length_of_afterLessThan? _h
  have h2 := (List.dropWhile_suffix (fun b => decide (b ≠ Octet.lessThan))
    (l := document)).length_le
  rw [_hd] at h2
  simp only [List.length_cons] at h2
  omega

end Token

end Metamodel.Markup
