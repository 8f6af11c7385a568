import Metamodel.Text.Split

/-!
Identifiers of generated code, made from the names of a model.

Model names are written in camel case, in capitals or as free text. `snakeCase` and `pascalCase`
bring them into the two forms that generated code uses, and `escapeKeyword` keeps them apart from
keywords.

Results:
1. `flatten_mergeSingles`: merging one-letter words keeps every letter.
-/

namespace Metamodel.Identifier

open Text

/-- The keywords of the generated language. -/
def keywords : List String :=
  ["abstract", "as", "async", "await", "become", "box", "break", "const", "continue", "crate", "do",
    "dyn", "else", "enum", "extern", "false", "final", "fn", "for", "gen", "if", "impl", "in",
    "let", "loop", "macro", "match", "mod", "move", "mut", "override", "priv", "pub", "ref",
    "return", "self", "Self", "static", "struct", "super", "trait", "true", "try", "type", "typeof",
    "unsafe", "unsized", "use", "virtual", "where", "while", "yield"]

/-- The keywords that cannot be written as raw identifiers. -/
def neverRaw : List String := ["crate", "self", "Self", "super"]

/-- The mark of raw identifiers. -/
def rawMark : String := "r#"

def isKeyword (ident : String) : Bool := keywords.contains ident

/-- Puts `escape` in front of a keyword. A keyword that cannot be raw gets a low line at its end
instead of the raw mark. -/
def escapeKeyword (ident escape : String) : String :=
  if !isKeyword ident then ident
  else if escape = rawMark && neverRaw.contains ident then ident ++ "_"
  else escape ++ ident

/-- What separates the words of a name. -/
def isSeparator (c : Char) : Bool := c = '_' || c = '-' || c = ' ' || c = '.'

/-- A word, unless it is empty, in front of others. -/
def consWord (word : List Char) (words : List (List Char)) : List (List Char) :=
  if word.isEmpty then words else word :: words

/-- The words of a name in lower case, given the part of the current word that has been read. A
separator ends a word, and a capital begins one. -/
def lowerWordsFrom (current : List Char) : List Char → List (List Char)
  | [] => consWord current []
  | c :: cs =>
    if isSeparator c then consWord current (lowerWordsFrom [] cs)
    else if isUpper c then consWord current (lowerWordsFrom (toLower c) cs)
    else lowerWordsFrom (current ++ [c]) cs

/-- The words of a name in lower case. -/
def lowerWords (name : List Char) : List (List Char) := lowerWordsFrom [] name

/-- Joins neighbouring one-letter words, so that acronyms stay whole; `run` holds those read. -/
def mergeSingles (run : List Char) : List (List Char) → List (List Char)
  | [] => consWord run []
  | word :: words =>
    if word.length = 1 then mergeSingles (run ++ word) words
    else consWord run (word :: mergeSingles [] words)

theorem flatten_mergeSingles (run : List Char) (words : List (List Char)) :
    (mergeSingles run words).flatten = run ++ words.flatten := by
  induction words generalizing run with
  | nil =>
    unfold mergeSingles consWord
    split <;> simp_all
  | cons word words ih =>
    unfold mergeSingles consWord
    split
    · simp [ih]
    · split <;> simp_all

/-- The words of a name in lower case, joined by low lines. -/
def snakeCase (name : String) : String :=
  String.ofList (['_'].intercalate (mergeSingles [] (lowerWords name.toList)))

/-- The text after `start`, if it begins with it. -/
def after? (start s : String) : Option String :=
  if start.toList.isPrefixOf s.toList then some (String.ofList (s.toList.drop start.length))
  else none

/-- The text before `ending`, if it ends with it. -/
def before? (ending s : String) : Option String :=
  if ending.toList.isSuffixOf s.toList then
    some (String.ofList (s.toList.take (s.length - ending.length)))
  else none

/-- The name of an operation in snake case without an accessor word in front, if anything is
left. -/
def methodName (name : String) : String :=
  let snake := snakeCase name
  let rests := ["get_", "set_", "is_"].filterMap fun word => after? word snake
  (rests.find? (!·.isEmpty)).getD snake

/-- The singular of a plural name. -/
def singular (name : String) : String :=
  match (before? "ies" name).filter (!·.isEmpty) with
  | some stem => stem ++ "y"
  | none =>
    if (before? "ss" name).isSome then name
    else
      match (before? "s" name).filter fun stem => !stem.isEmpty && (before? "_" stem).isNone with
      | some stem => stem
      | none => name

/-- A word with its first letter in upper case; the others in lower case if `shout` is set. -/
def capitalize (shout : Bool) : List Char → List Char
  | [] => []
  | c :: cs => toUpper c ++ (if shout then cs.flatMap toLower else cs)

/-- The runs of letters and numbers of a name, capitalized and joined. A run without lower case
letters is taken to be shouted. The result is never empty and begins with no digit. -/
def pascalCase (name : String) : String :=
  let chunks := pieces (!isAlphanumeric ·) name.toList
  let joined := chunks.flatMap fun chunk => capitalize (!chunk.any isLower) chunk
  match joined with
  | [] => "Value"
  | c :: _ => String.ofList (if c.isDigit then 'V' :: joined else joined)

end Metamodel.Identifier
