/-!
Everything that can go wrong, by cause, and the text that reports each cause.

Paths and descriptions of elements are kept as text, since the model that they speak of may have
been dropped when the error is shown.
-/

namespace Metamodel

/-- The part of a document at which reading its markup fails. -/
inductive MarkupFault
  | malformed
  | tagName
  | attributes
  | attributeKey
  | attributeValue
  deriving DecidableEq, Repr

namespace MarkupFault

def message : MarkupFault → String
  | .malformed => "XML parse error"
  | .tagName => "Invalid tag name"
  | .attributes => "Attribute error"
  | .attributeKey => "Attribute key error"
  | .attributeValue => "Attribute value error"

end MarkupFault

/-- How a sequence of events can fail to be one well-nested tree. -/
inductive Imbalance
  | startAfterRoot (tag : String)
  | endWithoutStart
  | leftOpen (count : Nat)
  | noRoot
  deriving DecidableEq, Repr

namespace Imbalance

def message : Imbalance → String
  | .startAfterRoot tag => s!"<{tag}> after the root element was closed"
  | .endWithoutStart => "end event without a matching start"
  | .leftOpen count => s!"{count} element(s) left open"
  | .noRoot => "no root element"

end Imbalance

/-- Why a file cannot be read or written. -/
inductive FileFault
  | notFound
  | isDirectory
  | notDirectory
  deriving DecidableEq, Repr

namespace FileFault

def message : FileFault → String
  | .notFound => "No such file or directory (os error 2)"
  | .isDirectory => "Is a directory (os error 21)"
  | .notDirectory => "Not a directory (os error 20)"

end FileFault

inductive Error
  /-- The model has no element with this index. -/
  | unknownElement (index : Nat)
  | unexpectedAttribute (key element : String)
  | invalidAttributeValue (key value expected : String)
  | missingDiscriminator (tag : String)
  | unrecognizedDiscriminator (tag value : String)
  | unexpectedElement (tag : String) (parent : Option String)
  | unbalancedEvents (cause : Imbalance)
  | kindMismatch (expected found : String)
  | duplicateName (container name : String)
  | alreadyContained (element : String)
  | unresolvableReference (uri : String) (element : Option String)
  | missingPackage (nsPrefix uri : String)
  | markup (fault : MarkupFault)
  | file (fault : FileFault)
  | json
  | configuration (detail : String)
  /-- Generation met a link that no resolution pass has covered. -/
  | linkNotResolved (uri : String)
  /-- Generation was asked for a package that no resolution pass has covered. -/
  | packageNotResolved (path : String)
  deriving DecidableEq, Repr

namespace Error

/-- `before`, the text and `after`; nothing when there is no text. -/
def aside (before : String) (text : Option String) (after : String) : String :=
  text.elim "" fun t => before ++ t ++ after

def message : Error → String
  | .unknownElement index => s!"No element #{index}"
  | .unexpectedAttribute key element => s!"Unexpected attribute '{key}' on {element}"
  | .invalidAttributeValue key value expected =>
    s!"Invalid value '{value}' for attribute '{key}': expected {expected}"
  | .missingDiscriminator tag => s!"Missing type discriminator on <{tag}>"
  | .unrecognizedDiscriminator tag value => s!"Unrecognized {tag} type '{value}'"
  | .unexpectedElement tag parent => s!"Unexpected element <{tag}>" ++ aside " inside " parent ""
  | .unbalancedEvents cause => "Unbalanced element events: " ++ cause.message
  | .kindMismatch expected found => s!"Expected {expected}, found {found}"
  | .duplicateName container name => s!"Duplicate name '{name}' in {container}"
  | .alreadyContained element => s!"Element {element} is already contained by another element"
  | .unresolvableReference uri element =>
    s!"Unable to resolve uri {uri}" ++ aside " (referenced from " element ")"
  | .missingPackage nsPrefix uri => s!"No EPackage for namespace prefix {nsPrefix} (uri {uri})"
  | .markup fault => "XML error: " ++ fault.message
  | .file fault => "IO error: " ++ fault.message
  | .json => "JSON error: the value does not have the expected shape"
  | .configuration detail => "Configuration error: " ++ detail
  | .linkNotResolved uri => s!"unresolved reference \x60{uri}\x60 reached code generation"
  | .packageNotResolved path => s!"package '{path}' must be resolved before code generation"

/-- The message with that of its cause, where the cause is a file. -/
def chain (e : Error) : String :=
  match e with
  | .file fault => e.message ++ ": " ++ fault.message
  | _ => e.message

end Error

end Metamodel
