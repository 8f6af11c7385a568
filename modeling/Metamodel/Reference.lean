import Metamodel.Text.Split

/-!
References as documents write them.

A fragment `#//a/b` names a path from the enclosing package. A qualified reference `prefix:Kind
namespace#//a/b` names a path from the package with that namespace prefix and the kind that it must
lead to. No segment of a path is empty.
-/

namespace Metamodel

inductive Reference
  | fragment (path : List String)
  | qualified (nsPrefix kind nsUri : String) (path : List String)
  deriving DecidableEq, Repr

namespace Reference

open Text

/-- The segments between slashes, none of them empty. -/
def path? (cs : List Char) : Option (List String) :=
  let segments := splitWhere (· = '/') cs
  if segments.all (!·.isEmpty) then some (segments.map String.ofList) else none

/-- A qualified reference. The namespace reaches to the first `#`. At least one blank must be left
before it; when nothing but blanks is there, the last of them is taken for the namespace. The path
is on one line. -/
def ofQualified? (cs : List Char) : Option Reference := do
  let nsPrefix := cs.takeWhile isWord
  let .cons ':' afterPrefix := cs.dropWhile isWord | none
  let kind := afterPrefix.takeWhile isWord
  let afterKind := afterPrefix.dropWhile isWord
  let blanks := afterKind.takeWhile isBlank
  let afterBlanks := afterKind.dropWhile isBlank
  let nsUri := afterBlanks.takeWhile (· ≠ '#')
  let '#' :: '/' :: '/' :: written := afterBlanks.dropWhile (· ≠ '#') | none
  if nsPrefix.isEmpty || kind.isEmpty || written.contains '\n' then none
  if (blanks ++ nsUri).length < 2 || blanks.isEmpty then none
  let path ← path? written
  return .qualified (String.ofList nsPrefix) (String.ofList kind)
    (String.ofList (trimChars nsUri)) path

/-- A fragment is taken as it stands; blanks around a qualified reference do not matter. -/
def ofString? (uri : String) : Option Reference :=
  match uri.toList with
  | '#' :: '/' :: '/' :: written => (path? written).map .fragment
  | cs => ofQualified? (trimChars cs)

def path : Reference → List String
  | .fragment path => path
  | .qualified _ _ _ path => path

/-- The usual way to write a reference. -/
def render : Reference → String
  | .fragment path => "#//" ++ "/".intercalate path
  | .qualified nsPrefix kind nsUri path =>
    nsPrefix ++ ":" ++ kind ++ " " ++ nsUri ++ "#//" ++ "/".intercalate path

/-- Whether a word is the beginning of a qualified reference: two runs of word characters around a
colon. -/
def isHead (word : String) : Bool :=
  let cs := word.toList
  match cs.dropWhile isWord with
  | ':' :: kind => !(cs.takeWhile isWord).isEmpty && !kind.isEmpty && kind.all isWord
  | _ => false

/-- Joins the head of a qualified reference to the word after it. -/
def joinHeads : List String → List String
  | [] => []
  | [word] => [word]
  | word :: next :: rest =>
    if isHead word then (word ++ " " ++ next) :: joinHeads rest
    else word :: joinHeads (next :: rest)

/-- The references in a list that is separated by white space. -/
def splitList (value : String) : List String := joinHeads (words value)

end Reference

end Metamodel
