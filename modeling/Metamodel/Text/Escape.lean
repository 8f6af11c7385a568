/-!
Texts in quotes, in which a backslash begins an escape.
-/

namespace Metamodel.Text

/-- How texts are quoted: the quote that ends one, the characters that stand for themselves, and
what an escape stands for. -/
structure Quoting where
  closing : Char
  isPlain : Char → Bool
  /-- The text for what follows a backslash, and what comes after that. -/
  escape? : List Char → Option (List Char × List Char)

namespace Quoting

/-- The rest of a text of at most `fuel` characters and escapes, and what follows it. -/
def textWithin? (q : Quoting) : Nat → List Char → Option (List Char × List Char)
  | 0, _ => none
  | _ + 1, [] => none
  | fuel + 1, c :: rest =>
    if c = q.closing then some ([], rest)
    else if c = '\\' then do
      let (text, rest) ← q.escape? rest
      let (more, rest) ← q.textWithin? fuel rest
      return (text ++ more, rest)
    else if q.isPlain c then do
      let (more, rest) ← q.textWithin? fuel rest
      return (c :: more, rest)
    else none

/-- The rest of a text after its opening quote, and what follows it. -/
def text? (q : Quoting) (cs : List Char) : Option (String × List Char) :=
  (q.textWithin? (cs.length + 1) cs).map fun (text, rest) => (String.ofList text, rest)

end Quoting

end Metamodel.Text
