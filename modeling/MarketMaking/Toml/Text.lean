import MarketMaking.Text.Hexadecimal

/-!
# TOML text

Blanks, comments, line ends, quoted strings and keys. Each reader takes the rest of the document
and returns what it read with what is left, or nothing when the document is malformed there.
-/

namespace MarketMaking.Toml

/-- A blank inside a line. -/
def isBlank (c : Char) : Bool := c = ' ' || c = '\t'

/-- A character that may stand in a comment or, quotes apart, in a string: no control character but
the tab. -/
def isPrintable (c : Char) : Bool := c = '\t' || (' ' ≤ c && c ≠ '\x7f')

/-- Skip blanks. -/
def skipBlanks (cs : List Char) : List Char := cs.dropWhile isBlank

/-- Skip the given character. -/
def skipChar? (c : Char) : List Char → Option (List Char)
  | d :: cs => if c = d then some cs else none
  | [] => none

/-- Skip a line end: a line feed, with or without a carriage return. -/
def lineEnd? : List Char → Option (List Char)
  | '\n' :: cs => some cs
  | '\r' :: '\n' :: cs => some cs
  | _ => none

/-- Skip a comment up to the end of its line. -/
def skipComment : List Char → List Char
  | '#' :: cs => cs.dropWhile isPrintable
  | cs => cs

/-- Skip what may follow a key with its value or a header on the same line, and the line end. -/
def endOfLine? (cs : List Char) : Option (List Char) :=
  match skipComment (skipBlanks cs) with
  | [] => some []
  | rest => lineEnd? rest

/-- Skip blanks, line ends and comments inside an array. A character that may not stand in a
comment stays in front. -/
def skipLines (inComment : Bool) : List Char → List Char
  | '\n' :: cs => skipLines false cs
  | '\r' :: '\n' :: cs => skipLines false cs
  | c :: cs =>
      if inComment then
        if isPrintable c then skipLines true cs else c :: cs
      else if isBlank c then skipLines false cs
      else if c = '#' then skipLines true cs
      else c :: cs
  | [] => []

/-- The character that a backslash and a letter stand for. -/
def escaped? : Char → Option Char
  | 'b' => some '\x08'
  | 't' => some '\t'
  | 'n' => some '\n'
  | 'f' => some '\x0c'
  | 'r' => some '\r'
  | '"' => some '"'
  | '\\' => some '\\'
  | _ => none

/-- Put a character in front of what was read. -/
def prepend (c : Char) (r : Option (List Char × List Char)) : Option (List Char × List Char) :=
  r.map fun (cs, rest) => (c :: cs, rest)

/-- The rest of a string in double quotes. -/
def basicString : List Char → Option (List Char × List Char)
  | '"' :: cs => some ([], cs)
  | '\\' :: 'u' :: a :: b :: c :: d :: cs => do
      prepend (← Text.numbered? [a, b, c, d]) (basicString cs)
  | '\\' :: 'U' :: a :: b :: c :: d :: e :: f :: g :: h :: cs => do
      prepend (← Text.numbered? [a, b, c, d, e, f, g, h]) (basicString cs)
  | '\\' :: c :: cs => do prepend (← escaped? c) (basicString cs)
  | c :: cs => if isPrintable c && c ≠ '\\' then prepend c (basicString cs) else none
  | [] => none

/-- The rest of a string in single quotes. -/
def literalString : List Char → Option (List Char × List Char)
  | '\'' :: cs => some ([], cs)
  | c :: cs => if isPrintable c then prepend c (literalString cs) else none
  | [] => none

/-- What three quotes at the end of a string of several lines stand for: up to two more quotes
before them belong to the string. -/
def closing (quote : Char) : List Char → List Char × List Char
  | c :: d :: cs =>
      if c = quote then if d = quote then ([quote, quote], cs) else ([quote], d :: cs)
      else ([], c :: d :: cs)
  | [c] => if c = quote then ([quote], []) else ([], [c])
  | [] => ([], [])

/-- Does the line end after blanks? -/
def endsAfterBlanks (cs : List Char) : Bool := (lineEnd? (skipBlanks cs)).isSome

/-- The rest of a string of several lines in double quotes. A backslash at the end of a line removes
all blanks and line ends up to the next other character: `trimming` is on while they are removed. -/
def basicLines (trimming : Bool) : List Char → Option (List Char × List Char)
  | '"' :: '"' :: '"' :: cs => some (closing '"' cs)
  | '\n' :: cs => if trimming then basicLines true cs else prepend '\n' (basicLines false cs)
  | '\r' :: '\n' :: cs =>
      if trimming then basicLines true cs else prepend '\n' (basicLines false cs)
  | '\\' :: 'u' :: a :: b :: c :: d :: cs => do
      prepend (← Text.numbered? [a, b, c, d]) (basicLines false cs)
  | '\\' :: 'U' :: a :: b :: c :: d :: e :: f :: g :: h :: cs => do
      prepend (← Text.numbered? [a, b, c, d, e, f, g, h]) (basicLines false cs)
  | '\\' :: c :: cs =>
      if endsAfterBlanks (c :: cs) then basicLines true (c :: cs)
      else do prepend (← escaped? c) (basicLines false cs)
  | c :: cs =>
      if trimming && isBlank c then basicLines true cs
      else if isPrintable c && c ≠ '\\' then prepend c (basicLines false cs)
      else none
  | [] => none

/-- The rest of a string of several lines in single quotes. -/
def literalLines : List Char → Option (List Char × List Char)
  | '\'' :: '\'' :: '\'' :: cs => some (closing '\'' cs)
  | '\n' :: cs => prepend '\n' (literalLines cs)
  | '\r' :: '\n' :: cs => prepend '\n' (literalLines cs)
  | c :: cs => if isPrintable c then prepend c (literalLines cs) else none
  | [] => none

/-- A line end right after the opening quotes is no part of the string. -/
def skipFirstLineEnd (cs : List Char) : List Char := (lineEnd? cs).getD cs

/-- A string in any of the four forms. -/
def string? (cs : List Char) : Option (String × List Char) :=
  let chars := match cs with
    | '"' :: '"' :: '"' :: cs => basicLines false (skipFirstLineEnd cs)
    | '"' :: cs => basicString cs
    | '\'' :: '\'' :: '\'' :: cs => literalLines (skipFirstLineEnd cs)
    | '\'' :: cs => literalString cs
    | _ => none
  chars.map fun (text, rest) => (String.ofList text, rest)

/-- A character of a key without quotes: an ASCII letter or digit, or one of two signs. -/
def isBareKey (c : Char) : Bool :=
  c.isAlphanum || c = '_' || c = '-'

/-- One part of a key, with the blanks around it. -/
def keyPart? (cs : List Char) : Option (String × List Char) := do
  let cs := skipBlanks cs
  let (part, rest) ← match cs with
    | '"' :: cs => (basicString cs).map fun (text, rest) => (String.ofList text, rest)
    | '\'' :: cs => (literalString cs).map fun (text, rest) => (String.ofList text, rest)
    | cs =>
        let bare := cs.takeWhile isBareKey
        if bare.isEmpty then none else some (String.ofList bare, cs.dropWhile isBareKey)
  return (part, skipBlanks rest)

/-- The parts of a key may not be as many as this. -/
def depthLimit : Nat := 80

/-- The parts of a dotted key, at most as many as `limit`. -/
def keyParts? : (limit : Nat) → List Char → Option (List String × List Char)
  | 0, _ => none
  | limit + 1, cs => do
      let (part, rest) ← keyPart? cs
      match rest with
      | '.' :: rest => do
          let (parts, rest) ← keyParts? limit rest
          return (part :: parts, rest)
      | rest => return ([part], rest)

/-- A key: the parts before the last one, and the last one. -/
def key? (cs : List Char) : Option ((List String × String) × List Char) := do
  let (parts, rest) ← keyParts? (depthLimit - 1) cs
  let last ← parts.getLast?
  return ((parts.dropLast, last), rest)

end MarketMaking.Toml
