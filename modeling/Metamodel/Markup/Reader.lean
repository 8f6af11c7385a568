import Metamodel.Document.Construction
import Metamodel.Markup.Entity
import Metamodel.Markup.Token

/-!
The events of a marked-up document.

Tags are reduced to their local names. Namespace declarations and the attributes of the two exchange
namespaces are left out, except for the one that discriminates kinds. A document is read as far as
it is well formed: the events before a fault are given together with it.
-/

namespace Metamodel.Markup

/-- One attribute as it is written, and what follows it: a key, an equals sign, and a value in
quotes, with blanks between them where one likes. -/
def cutAttribute? (first : UInt8) (rest : Octets) : Option ((Octets × Octets) × Octets) :=
  let ends (b : UInt8) : Bool := b = Octet.equalSign || Octet.isBlank b
  let key := first :: rest.takeWhile (!ends ·)
  match (rest.dropWhile (!ends ·)).dropWhile Octet.isBlank with
  | Octet.equalSign :: value =>
    match value.dropWhile Octet.isBlank with
    | quote :: text =>
      if quote = Octet.singleQuote || quote = Octet.doubleQuote then
        match text.dropWhile (· ≠ quote) with
        | _ :: after => some ((key, text.takeWhile (· ≠ quote)), after)
        | [] => none
      else none
    | [] => none
  | _ => none

theorem length_of_cutAttribute? {first : UInt8} {rest after : Octets} {a : Octets × Octets}
    (h : cutAttribute? first rest = some (a, after)) : after.length ≤ rest.length := by
  unfold cutAttribute? at h
  simp only at h
  split at h
  · next value hv =>
    split at h
    · next quote text ht =>
      split at h
      · split at h
        · next x after' ha =>
          simp only [Option.some.injEq, Prod.mk.injEq] at h
          obtain ⟨-, rfl⟩ := h
          have h1 := (List.dropWhile_suffix (fun b => decide (b ≠ quote)) (l := text)).length_le
          have h2 := (List.dropWhile_suffix Octet.isBlank (l := value)).length_le
          have h3 := (List.dropWhile_suffix Octet.isBlank
            (l := rest.dropWhile fun b => !(b = Octet.equalSign || Octet.isBlank b))).length_le
          have h4 := (List.dropWhile_suffix
            (fun b => !(decide (b = Octet.equalSign) || Octet.isBlank b)) (l := rest)).length_le
          rw [ha] at h1
          rw [ht] at h2
          rw [hv] at h3
          simp only [List.length_cons] at h1 h2 h3
          omega
        · contradiction
      · contradiction
    · contradiction
  · contradiction

/-- The attributes in what follows the name of a start tag, as they are written, and whether all of
it could be read. -/
def cutAttributes (s : Octets) : List (Octets × Octets) × Bool :=
  match _hs : s.dropWhile Octet.isBlank with
  | [] => ([], true)
  | first :: rest =>
    match _h : cutAttribute? first rest with
    | none => ([], false)
    | some (a, after) =>
      let (others, complete) := cutAttributes after
      (a :: others, complete)
termination_by s.length
decreasing_by
  have h1 := length_of_cutAttribute? _h
  have h2 := (List.dropWhile_suffix Octet.isBlank (l := s)).length_le
  rw [_hs] at h2
  simp only [List.length_cons] at h2
  omega

/-- Whether an attribute says something about the model. -/
def isKept (discriminator key : String) : Bool :=
  key = discriminator ||
    !(key = "xmlns" || key.startsWith "xmlns:" || key.startsWith "xmi:" || key.startsWith "xsi:")

/-- The attributes that are kept, decoded. `seen` are the keys before; none may come again. -/
def decodeAttributes (discriminator : String) (complete : Bool) :
    List Octets → List (Octets × Octets) → Except MarkupFault (List (String × String))
  | _, [] => if complete then .ok [] else .error .attributes
  | seen, (key, value) :: rest => do
    -- Attributes that are left out count as well.
    if key ∈ seen then .error .attributes
    let some name := Octet.text? key | .error .attributeKey
    if isKept discriminator name then
      let some text := (Octet.text? value).bind fun s => unescape? s.toList | .error .attributeValue
      let others ← decodeAttributes discriminator complete (key :: seen) rest
      return (name, String.ofList text) :: others
    else decodeAttributes discriminator complete (key :: seen) rest

/-- The name in a start tag: everything before the first blank. -/
def tagName (content : Octets) : Octets := content.takeWhile (!Octet.isBlank ·)

/-- The part of a name after its first colon, or all of it. -/
def localPart (name : Octets) : Octets :=
  match name.dropWhile (· ≠ Octet.colon) with
  | _ :: part => part
  | [] => name

/-- The event of a start tag. -/
def startEvent (discriminator : String) (content : Octets) : Except MarkupFault Event := do
  let some tag := Octet.text? (localPart (tagName content)) | .error .tagName
  let (written, complete) := cutAttributes (content.dropWhile (!Octet.isBlank ·))
  let attributes ← decodeAttributes discriminator complete [] written
  return .opening tag (OrderedMap.ofList attributes)

/-- The name in an end tag. Blanks may follow it, but blanks alone are not left out. -/
def endTagName (content : Octets) : Octets :=
  if content.all Octet.isBlank then content
  else (content.reverse.dropWhile Octet.isBlank).reverse

/-- The events of tags. `names` are those of the open elements, innermost first: an end tag must
have the name of the innermost. -/
def eventsOfTokens (discriminator : String) (complete : Bool) :
    List Octets → List Token → List Event × Option MarkupFault
  | _, [] => ([], if complete then none else some .malformed)
  | names, .opening content :: rest =>
    match startEvent discriminator content with
    | .error fault => ([], some fault)
    | .ok event =>
      let (events, fault) := eventsOfTokens discriminator complete (tagName content :: names) rest
      (event :: events, fault)
  | names, .selfClosing content :: rest =>
    match startEvent discriminator content with
    | .error fault => ([], some fault)
    | .ok event =>
      let (events, fault) := eventsOfTokens discriminator complete names rest
      (event :: .closing :: events, fault)
  | names, .closing content :: rest =>
    match names with
    | name :: outer =>
      if endTagName content = name then
        let (events, fault) := eventsOfTokens discriminator complete outer rest
        (.closing :: events, fault)
      else ([], some .malformed)
    | [] => ([], some .malformed)

/-- The events of a document, and the fault that ends it if it is not well formed. -/
def events (discriminator : String) (document : Octets) : List Event × Option MarkupFault :=
  let (tokens, complete) := Token.scan document
  eventsOfTokens discriminator complete [] tokens

end Metamodel.Markup

namespace Metamodel

/-- Adds the package that a document holds. The model is given back with an error too: it keeps what
was created before the error. -/
def Model.readDocument (m : Model) (discriminator : String) (document : Markup.Octets) :
    Except (Error × Model) (Model × ElementId) :=
  let (events, fault) := Markup.events discriminator document
  m.build discriminator events (fault.map .markup)

end Metamodel
