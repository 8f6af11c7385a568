import Metamodel.Data.Yaml.Scalar

/-!
Reading YAML.

A value stands in lines of its own, below the indentation of what holds it, or in brackets. Only a
text with one document is read, and its keys have to be texts or integers.
-/

namespace Metamodel.Yaml

/-- What may stand in front of a value: a name for it, and what kind of value it is. -/
structure Properties where
  anchor? : Option String := none
  tag? : Option Tag := none

namespace Properties

/-- The properties inside, and those outside where there are none. -/
def or (inner outer : Properties) : Properties :=
  ⟨inner.anchor? <|> outer.anchor?, inner.tag? <|> outer.tag?⟩

end Properties

/-- Whether a character may stand in a name or a tag. -/
def isNameChar (c : Char) : Bool := !isBlank c && c ≠ '\n' && !isFlowMark c

/-- The tag that is written behind its first mark. -/
def tagOf : Chars → Tag
  | '!' :: name => .core (String.ofList name)
  | _ => .other

/-- At most `fuel` properties, and the place after them and the blanks behind them. -/
def propertiesWithin : Nat → Cursor → Properties × Cursor
  | 0, c => ({}, c)
  | fuel + 1, c =>
    match c.rest with
    | '&' :: rest =>
      let name := rest.takeWhile isNameChar
      let (more, after) := propertiesWithin fuel (c.skip (name.length + 1)).skipBlanks
      (more.or { anchor? := some (String.ofList name) }, after)
    | '!' :: '<' :: rest =>
      let length := (rest.takeWhile (· ≠ '>')).length + 3
      let (more, after) := propertiesWithin fuel (c.skip length).skipBlanks
      (more.or { tag? := some .other }, after)
    | '!' :: rest =>
      let name := rest.takeWhile isNameChar
      let (more, after) := propertiesWithin fuel (c.skip (name.length + 1)).skipBlanks
      (more.or { tag? := some (tagOf name) }, after)
    | _ => ({}, c)

/-- A name and a tag, in any order and if there are any, and the place after them. -/
def properties (c : Cursor) : Properties × Cursor := propertiesWithin 2 c

/-- A text without quotes as a value, and the place after it. -/
def scalar? (p : Properties) (text : Chars) (after : Cursor) : Option (Data × Cursor) :=
  (taggedValue? p.tag? (String.ofList text)).map fun d => (d, after.named p.anchor? d)

/-- A value that is not written. -/
def missing? (p : Properties) (c : Cursor) : Option (Data × Cursor) := scalar? p [] c

/-- A value with its name, and the place after it. -/
def value (p : Properties) (d : Data) (after : Cursor) : Data × Cursor :=
  (d, after.named p.anchor? d)

/-- A key as the name of a field. -/
def keyText? : Data → Option String
  | .text s => some s
  | .int i => some (toString i)
  | _ => none

/-- The value of a reference to a named value, and the place after it. -/
def reference? (c : Cursor) : Option (Data × Cursor) :=
  let name := (c.rest.drop 1).takeWhile isNameChar
  (c.anchors.lookup (String.ofList name)).map fun d => (d, c.skip (name.length + 1))

/-! ## Values in brackets -/

/-- Whether a colon here ends a key. Behind a quote or a bracket it does so in any case. -/
def isAtColon (closed : Bool) (c : Cursor) : Bool :=
  match c.rest with
  | ':' :: rest => closed || endsKey true rest
  | _ => false

/-- Whether a value has a closing mark, a quote or a bracket. -/
def isClosed (c : Cursor) : Bool :=
  c.rest.head?.any fun d => d = '"' || d = '\'' || d = '[' || d = '\x7b'

mutual

/-- A value inside brackets, and the place after it. -/
def flowValue? : Nat → Cursor → Option (Data × Cursor)
  | 0, _ => none
  | fuel + 1, c =>
    let (p, c) := properties c.content
    let c := c.content
    match c.rest with
    | '[' :: _ => (flowItems? fuel (c.skip 1)).map fun (items, c) => value p (.list items) c
    | '\x7b' :: _ =>
      (flowFields? fuel (c.skip 1)).map fun (fields, c) => value p (Data.ofFields fields) c
    | '"' :: _ | '\'' :: _ =>
      (quoted? c).map fun (text, c) => value p (.text (String.ofList text)) c
    | '*' :: _ => reference? c
    | _ =>
      let (text, after) := plain true 0 c
      if text.isEmpty then missing? p c else scalar? p text after

/-- The value behind the colon after a key, or none if there is no colon. -/
def flowBehindKey? : Nat → Bool → Cursor → Option (Data × Cursor)
  | 0, _, _ => none
  | fuel + 1, closed, c =>
    if isAtColon closed c.content then flowValue? fuel (c.content.skip 1) else missing? {} c

/-- The rest of a list in brackets. An item may be a key and its value. -/
def flowItems? : Nat → Cursor → Option (List Data × Cursor)
  | 0, _ => none
  | fuel + 1, c => do
    let c := c.content
    if c.rest.head? = some ']' then some ([], c.skip 1)
    else do
      let isPair := c.isAt "?"
      let c := if isPair then (c.skip 1).content else c
      let (item, after) ← flowValue? fuel c
      let (item, after) ←
        if isPair || isAtColon (isClosed c) after.content then do
          let (d, after) ← flowBehindKey? fuel (isClosed c) after
          some (.record [(← keyText? item, d)], after)
        else some (item, after)
      let after := after.content
      match after.rest with
      | ',' :: _ =>
        let (items, c) ← flowItems? fuel (after.skip 1)
        return (item :: items, c)
      | ']' :: _ => return ([item], after.skip 1)
      | _ => none

/-- The rest of a map in brackets. -/
def flowFields? : Nat → Cursor → Option (List (String × Data) × Cursor)
  | 0, _ => none
  | fuel + 1, c => do
    let c := c.content
    if c.rest.head? = some '\x7d' then some ([], c.skip 1)
    else do
      let c := if c.isAt "?" then (c.skip 1).content else c
      let (key, after) ← flowValue? fuel c
      let (d, after) ← flowBehindKey? fuel (isClosed c) after
      let after := after.content
      match after.rest with
      | ',' :: _ =>
        let (fields, last) ← flowFields? fuel (after.skip 1)
        return ((← keyText? key, d) :: fields, last)
      | '\x7d' :: _ => return ([(← keyText? key, d)], after.skip 1)
      | _ => none

end

/-! ## Values in lines -/

/-- A key in one line with its colon, and the place after them. -/
def implicitKey? (fuel : Nat) (start : Cursor) : Option (Data × Cursor) := do
  let (p, c) := properties start
  let (key, after) ←
    match c.rest with
    | '[' :: _ | '\x7b' :: _ | '"' :: _ | '\'' :: _ | '*' :: _ =>
      (flowValue? fuel c).map fun (d, after) => (d, after.named p.anchor? d)
    | rest =>
      let text := trimBlanks (plainLine false rest)
      scalar? p text (c.skip text.length)
  let colon := after.skipBlanks
  if colon.line = start.line && colon.isAt ":" then some (key, colon.skip 1) else none

mutual

/-- A value in lines, and the place after it: behind a mark, or at the beginning. It is indented by
more than `indent`, the indentation of what holds it; only the marks of a list may stand beside a
key. The properties in front of it are given. -/
def blockValue? : Nat → Int → Bool → Properties → Cursor → Option (Data × Cursor)
  | 0, _, _, _, _ => none
  | fuel + 1, indent, listBeside, outer, start =>
    let c := start.content
    let isInside :=
      c.line = start.line || indent < c.column ||
        (listBeside && indent = (c.column : Int) && c.isAt "-")
    if c.isAtEnd || !isInside then missing? outer start
    else if c.isAt "-" then
      (blockItems? fuel c.column c).map fun (items, c) => value outer (.list items) c
    else if c.isAt "?" || c.isAt ":" || (implicitKey? fuel c).isSome then
      (blockFields? fuel c.column c).map fun (fields, c) => value outer (Data.ofFields fields) c
    else
      let (inner, c) := properties c
      let p := inner.or outer
      let hasProperties := inner.anchor?.isSome || inner.tag?.isSome
      if hasProperties && c.isAtLineEnd then blockValue? fuel indent listBeside p c
      else
        match c.rest with
        | '|' :: _ | '>' :: _ =>
          let (text, after) := block (c.rest.head? = some '>') indent (c.skip 1)
          some (value p (.text (String.ofList text)) after)
        | '"' :: _ | '\'' :: _ | '[' :: _ | '\x7b' :: _ | '*' :: _ =>
          (flowValue? fuel c).map fun (d, after) => value p d after
        | _ =>
          let (text, after) := plain false indent c
          scalar? p text after

/-- The items of a list whose marks stand in a column, from the first mark on. -/
def blockItems? : Nat → Nat → Cursor → Option (List Data × Cursor)
  | 0, _, _ => none
  | fuel + 1, column, c => do
    let (item, after) ← blockValue? fuel column false {} (c.skip 1)
    let next := after.content
    if !next.isAtEnd && next.column = column && next.isAt "-" then do
      let (items, after) ← blockItems? fuel column next
      return (item :: items, after)
    else return ([item], after)

/-- The fields of a map whose keys stand in a column, from the first key on. -/
def blockFields? : Nat → Nat → Cursor → Option (List (String × Data) × Cursor)
  | 0, _, _ => none
  | fuel + 1, column, c => do
    let (key, after) ←
      if c.isAt "?" then do
        let (key, after) ← blockValue? fuel column false {} (c.skip 1)
        let colon := after.content
        let hasValue := colon.column = column && colon.isAt ":"
        some (key, if hasValue then colon.skip 1 else after)
      else implicitKey? fuel c
    let (d, after) ← blockValue? fuel column true {} after
    let next := after.content
    if !next.isAtEnd && next.column = column then do
      let (fields, after) ← blockFields? fuel column next
      return ((← keyText? key, d) :: fields, after)
    else return ([(← keyText? key, d)], after)

end

/-! ## Documents -/

/-- Line ends in one form. -/
def withLineFeeds : Chars → Chars
  | [] => []
  | '\r' :: '\n' :: rest => '\n' :: withLineFeeds rest
  | '\r' :: rest => '\n' :: withLineFeeds rest
  | c :: rest => c :: withLineFeeds rest

/-- Goes over at most `fuel` lines with directives. -/
def skipDirectives : Nat → Cursor → Cursor
  | 0, c => c
  | fuel + 1, c =>
    let c := c.content
    if c.column = 0 && c.rest.head? = some '%' then
      skipDirectives fuel (c.skip (c.rest.takeWhile (· ≠ '\n')).length)
    else c

/-- The data that a text holds, if it is well formed and has one document at most. -/
def read? (text : String) : Option Data := do
  let cs := withLineFeeds text.toList
  let c := skipDirectives (cs.length + 1) { rest := cs }
  if c.rest.isEmpty then some (.record [])
  else do
    let start := if c.column = 0 && c.isAt "---" then c.skip 3 else c
    let (d, after) ← blockValue? (3 * cs.length + 3) (-1) false {} start
    let last := after.content
    let last := if last.isAt "..." then (last.skip 3).content else last
    if last.rest.isEmpty then some d else none

end Metamodel.Yaml
