import Metamodel.Data.Basic

/-!
Places in a YAML text.

Indentation carries meaning, so a place knows its column. It also knows what has been named so far,
for the references that may follow.
-/

namespace Metamodel.Yaml

abbrev Chars := List Char

def isBlank (c : Char) : Bool := c = ' ' || c = '\t'

/-- The marks of lists and maps in brackets. -/
def isFlowMark (c : Char) : Bool := [',', '[', ']', '\x7b', '\x7d'].contains c

/-- Whether a word ends here: at a blank, a line end or the end of the text. -/
def endsWord : Chars → Bool
  | [] => true
  | c :: _ => isBlank c || c = '\n'

structure Cursor where
  rest : Chars
  column : Nat := 0
  line : Nat := 0
  /-- The named values, the last first. -/
  anchors : List (String × Data) := []

namespace Cursor

/-- Goes so many characters on. -/
def skip (c : Cursor) (n : Nat) : Cursor :=
  let taken := c.rest.take n
  let sinceLineEnd := (taken.reverse.takeWhile (· ≠ '\n')).length
  let lineEnds := taken.count '\n'
  { c with
    rest := c.rest.drop n
    column := if lineEnds = 0 then c.column + taken.length else sinceLineEnd
    line := c.line + lineEnds }

/-- Goes over blanks. -/
def skipBlanks (c : Cursor) : Cursor := c.skip (c.rest.takeWhile isBlank).length

/-- How many characters stand before the next content: blanks, line ends and comments. -/
def gap (inComment : Bool) : Chars → Nat
  | [] => 0
  | '\n' :: rest => gap false rest + 1
  | c :: rest =>
    if inComment || isBlank c then gap inComment rest + 1
    else if c = '#' then gap true rest + 1
    else 0

/-- Goes to the next content. -/
def content (c : Cursor) : Cursor := c.skip (gap false c.rest)

/-- Whether nothing is left of the line but blanks and a comment. -/
def isAtLineEnd (c : Cursor) : Bool :=
  match c.rest.dropWhile isBlank with
  | [] => true
  | d :: _ => d = '\n' || d = '#'

/-- Whether a mark stands here as a word of its own. -/
def isAt (c : Cursor) (mark : String) : Bool :=
  mark.toList.isPrefixOf c.rest && endsWord (c.rest.drop mark.length)

/-- Whether a document ends here: at the end of the text, or before the line that ends it or begins
the next one. -/
def isAtEnd (c : Cursor) : Bool :=
  c.rest.isEmpty || (c.column = 0 && (c.isAt "---" || c.isAt "..."))

/-- Gives a value a name, if there is one to give. -/
def named (c : Cursor) (name? : Option String) (d : Data) : Cursor :=
  { c with anchors := (name?.map fun name => (name, d)).toList ++ c.anchors }

end Cursor

end Metamodel.Yaml
