import MarketMaking.Pattern
import MarketMaking.Text.Alphanumeric
import MarketMaking.Text.Hexadecimal
import MarketMaking.Text.Space

/-!
# Reading patterns

The grammar of regular expressions that stand between braces. As a brace would end them, they have
no counted repetition and no other form in braces: an opening brace stands for itself in a class,
behind a backslash and in a comment, and is malformed elsewhere. Also malformed are references to
groups, assertions that look around, and properties of characters.
-/

namespace MarketMaking.Pattern

open Text (isSpace)

/-! ## White space and comments -/

/-- Skip white space and comments, inside of a comment or outside. A comment ends with its line. -/
def skipBlanks : (inComment : Bool) → List Char → List Char
  | _, [] => []
  | true, c :: cs => skipBlanks (c ≠ '\n') cs
  | false, c :: cs =>
      if isSpace c then skipBlanks false cs
      else if c = '#' then skipBlanks true cs
      else c :: cs

/-- Skip what says nothing: where patterns are spaced, white space and comments. -/
def skip (spaced : Bool) (cs : List Char) : List Char := if spaced then skipBlanks false cs else cs

/-- The character behind what says nothing, as a look ahead finds it that passes white space but
stops behind the sign of a comment. -/
def lookAhead? (spaced : Bool) (cs : List Char) : Option Char :=
  if spaced then
    match cs.dropWhile isSpace with
    | '#' :: rest => (rest.dropWhile isSpace).head?
    | rest => rest.head?
  else cs.head?

/-! ## Escapes -/

/-- What a backslash introduces. -/
inductive Escape where
  | symbol (s : Symbol)
  | assertion (a : Assertion)
  | shorthand (negated : Bool)
  deriving Repr

/-- The given number of hexadecimal digits. -/
def hexDigits? (spaced : Bool) : Nat → List Char → Option (List Char × List Char)
  | 0, cs => some ([], cs)
  | n + 1, cs =>
      match skip spaced cs with
      | [] => none
      | c :: cs => (hexDigits? spaced n cs).map fun (digits, rest) => (c :: digits, rest)

/-- A character by its number in the given number of hexadecimal digits. -/
def numbered? (spaced asByte : Bool) (n : Nat) (cs : List Char) : Option (Escape × List Char) := do
  let (digits, rest) ← hexDigits? spaced n cs
  return (.symbol ⟨← Text.numbered? digits, asByte⟩, rest)

/-- The control character that a letter stands for. -/
def control? : Char → Option Char
  | 'a' => some '\x07'
  | 'f' => some '\x0c'
  | 't' => some '\t'
  | 'n' => some '\n'
  | 'r' => some '\r'
  | 'v' => some '\x0b'
  | _ => none

/-- What a character behind a backslash stands for, if it is not the start of a number. A character
of ASCII that is neither a letter nor a digit stands for itself. -/
def escaped? (c : Char) : Option Escape :=
  if c = 'd' ∨ c = 's' ∨ c = 'w' then some (.shorthand false)
  else if c = 'D' ∨ c = 'S' ∨ c = 'W' then some (.shorthand true)
  else if c = 'b' ∨ c = 'B' ∨ c = '<' ∨ c = '>' then some (.assertion .word)
  else if c = 'A' then some (.assertion .textStart)
  else if c = 'z' then some (.assertion .textEnd)
  else if c.toNat < 0x80 && !c.isAlphanum then some (.symbol ⟨c, false⟩)
  else (control? c).map fun c => .symbol ⟨c, false⟩

/-- Read what stands behind a backslash. -/
def escape? (spaced : Bool) : List Char → Option (Escape × List Char)
  | [] => none
  | 'x' :: cs => numbered? spaced true 2 cs
  | 'u' :: cs => numbered? spaced false 4 cs
  | 'U' :: cs => numbered? spaced false 8 cs
  | c :: cs => (escaped? c).map (·, cs)

/-! ## Classes -/

/-- A character of a class, or what a backslash introduces in it. -/
def classPart? (spaced : Bool) : List Char → Option (Escape × List Char)
  | [] => none
  | '\\' :: cs => escape? spaced cs
  | c :: cs => some (.symbol ⟨c, false⟩, cs)

/-- What a part of a class stands for when it is not the end of a range. Nothing can be asserted in
a class. -/
def Escape.charClass? : Escape → Option CharClass
  | symbol s => some (.symbol s)
  | shorthand negated => some (.shorthand negated)
  | assertion _ => none

/-- A range of characters, the smaller one first. -/
def range? : Escape → Escape → Option CharClass
  | .symbol first, .symbol last =>
      if first.char ≤ last.char then some (.range first last) else none
  | _, _ => none

/-- A character of a class, or two with a dash between them. A dash in front of a closing bracket or
another dash is no part of a range. -/
def classItem? (spaced : Bool) (cs : List Char) : Option (CharClass × List Char) := do
  let (part, rest) ← classPart? spaced cs
  match skip spaced rest with
  | '-' :: behind =>
      let next := lookAhead? spaced behind
      if next = some ']' ∨ next = some '-' then return (← part.charClass?, '-' :: behind)
      else
        let (last, rest) ← classPart? spaced (skip spaced behind)
        return (← range? part last, rest)
  | rest => return (← part.charClass?, rest)

/-- The names of the classes of ASCII. -/
def classNames : List String :=
  ["alnum", "alpha", "ascii", "blank", "cntrl", "digit", "graph", "lower", "print", "punct",
    "space", "upper", "word", "xdigit"]

/-- A named class behind its opening bracket. -/
def namedClass? : List Char → Option (CharClass × List Char)
  | ':' :: cs =>
      let (negated, cs) := match cs with
        | '^' :: cs => (true, cs)
        | cs => (false, cs)
      let name := cs.takeWhile (· ≠ ':')
      match cs.drop name.length with
      | ':' :: ']' :: rest =>
          if classNames.contains (String.ofList name) then some (.named negated, rest) else none
      | _ => none
  | _ => none

/-- Is a class negated whose opening bracket stands in front of `cs`? -/
def negation (spaced : Bool) (cs : List Char) : Bool × List Char :=
  match skip spaced cs with
  | '^' :: cs => (true, cs)
  | cs => (false, cs)

/-- Put the characters that were read behind the left side of an operation, if there is one. -/
def joined (left : Option CharClass) (parts : List CharClass) : CharClass :=
  match left with
  | some left => .combined left (.union parts.reverse)
  | none => .union parts.reverse

/-- Read a class behind its opening bracket up to the closing one. `left` is the left side of an
operation, `parts` holds what was read behind it in reverse, and `atStart` says that these are only
dashes at the start of the class: there dashes stand for themselves, and so does a closing bracket
that comes first. -/
def classContent? (spaced : Bool) : (fuel : Nat) → (left : Option CharClass) →
    (parts : List CharClass) → (atStart : Bool) → List Char → Option (CharClass × List Char)
  | 0, _, _, _, _ => none
  | fuel + 1, left, parts, atStart, cs =>
      let itself (c : Char) : List CharClass := .symbol ⟨c, false⟩ :: parts
      let operation (rest : List Char) :=
        classContent? spaced fuel (some (joined left parts)) [] false rest
      match skip spaced cs with
      | [] => none
      | '[' :: rest =>
          match namedClass? rest with
          | some (named, rest) => classContent? spaced fuel left (named :: parts) false rest
          | none => do
              let (negated, rest) := negation spaced rest
              let (content, rest) ← classContent? spaced fuel none [] true rest
              classContent? spaced fuel left (.bracketed negated content :: parts) false rest
      | ']' :: rest =>
          if atStart && parts.isEmpty then classContent? spaced fuel left (itself ']') false rest
          else some (joined left parts, rest)
      | '&' :: '&' :: rest => operation rest
      | '~' :: '~' :: rest => operation rest
      | '-' :: rest =>
          if atStart then classContent? spaced fuel left (itself '-') true rest
          else
            match rest with
            | '-' :: rest => operation rest
            | rest => do
                let (item, rest) ← classItem? spaced ('-' :: rest)
                classContent? spaced fuel left (item :: parts) false rest
      | cs => do
          let (item, rest) ← classItem? spaced cs
          classContent? spaced fuel left (item :: parts) false rest

/-! ## Groups -/

/-- What follows an opening parenthesis. -/
inductive Opening where
  /-- Flags for the rest of the surrounding group. -/
  | flags (flags : Flags)
  /-- A group of its own with a name or without. -/
  | group (name : Option String) (flags : Flags)
  deriving Repr

/-- Flags up to the colon or parenthesis that ends them. Those behind a dash are switched off; no
flag and no dash comes twice, and a dash is followed by a flag. -/
def readFlags? (off : Bool) (flags : Flags) : List Char → Option (Opening × List Char)
  | [] => none
  | ':' :: cs => some (.group none flags, cs)
  | ')' :: cs => if flags.isEmpty then none else some (.flags flags, cs)
  | '-' :: cs =>
      if off || cs.head? = some ':' || cs.head? = some ')' then none else readFlags? true flags cs
  | c :: cs => do
      let flag ← Flag.ofLetter? c
      if (flags.lookup flag).isSome then none else readFlags? off (flags ++ [(flag, !off)]) cs

/-- May the name of a group start with this character? -/
def isNameStart (c : Char) : Bool := c = '_' || Text.isAlphabetic c

/-- May the name of a group go on with this character? -/
def isNamePart (c : Char) : Bool :=
  c = '_' || c = '.' || c = '[' || c = ']' || Text.isAlphanumeric c

/-- The name of a group up to the angle bracket behind it. -/
def name? (cs : List Char) : Option (Opening × List Char) :=
  let name := cs.takeWhile (· ≠ '>')
  match name, cs.drop name.length with
  | c :: rest, '>' :: behind =>
      if isNameStart c && rest.all isNamePart then
        some (.group (some (String.ofList name)) [], behind)
      else none
  | _, _ => none

/-- Read what follows an opening parenthesis. -/
def opening? : List Char → Option (Opening × List Char)
  | '?' :: 'P' :: '<' :: cs => name? cs
  | '?' :: '<' :: cs => name? cs
  | '?' :: cs => readFlags? false [] cs
  | cs => some (.group none [], cs)

/-! ## Patterns -/

/-- Can this be repeated? Flags cannot. -/
def isRepeatable : Pattern → Bool
  | setFlags _ => false
  | _ => true

/-- A pattern of one character or one escape. -/
def single? (spaced : Bool) : List Char → Option (Pattern × List Char)
  | '\\' :: cs =>
      (escape? spaced cs).map fun (escape, rest) =>
        (match escape with
          | .symbol s => .symbol s
          | .assertion a => .assertion a
          | .shorthand negated => .charClass (.shorthand negated), rest)
  | '.' :: cs => some (.anyChar, cs)
  | '^' :: cs => some (.assertion .lineStart, cs)
  | '$' :: cs => some (.assertion .lineEnd, cs)
  | c :: cs => if c = '\x7b' then none else some (.symbol ⟨c, false⟩, cs)
  | [] => none

/-- The pattern of a group from its branches and the parts of its last branch, both in reverse. -/
def ofBranches (branches : List Pattern) (parts : List Pattern) : Pattern :=
  match branches with
  | [] => .sequence parts.reverse
  | branches => .choice (.sequence parts.reverse :: branches).reverse

/-- Read the inside of a group up to the parenthesis that closes it or the end of the text. `names`
holds the names of the groups in front, `branches` and `parts` what was read of this group, in
reverse. -/
def content? : (fuel : Nat) → (spaced : Bool) → (names : List String) →
    (branches parts : List Pattern) → List Char → Option (Pattern × List String × List Char)
  | 0, _, _, _, _, _ => none
  | fuel + 1, spaced, names, branches, parts, cs =>
      match skip spaced cs with
      | [] => some (ofBranches branches parts, names, [])
      | ')' :: rest => some (ofBranches branches parts, names, ')' :: rest)
      | '|' :: rest => content? fuel spaced names (.sequence parts.reverse :: branches) [] rest
      | '(' :: rest => do
          match ← opening? (skip spaced rest) with
          | (.flags flags, rest) =>
              let spaced := (flags.lookup .spaced).getD spaced
              content? fuel spaced names branches (.setFlags flags :: parts) rest
          | (.group name flags, rest) =>
              if name.any names.contains then none
              let inside := (flags.lookup .spaced).getD spaced
              match ← content? fuel inside (name.toList ++ names) [] [] rest with
              | (content, names, ')' :: rest) =>
                  content? fuel spaced names branches (.group flags content :: parts) rest
              | _ => none
      | '[' :: rest => do
          let (negated, rest) := negation spaced rest
          let (content, rest) ← classContent? spaced fuel none [] true rest
          let charClass := .charClass (.bracketed negated content)
          content? fuel spaced names branches (charClass :: parts) rest
      | c :: rest =>
          if c = '*' ∨ c = '+' ∨ c = '?' then
            match parts with
            | part :: parts =>
                let rest := if rest.head? = some '?' then rest.drop 1 else rest
                if isRepeatable part then
                  content? fuel spaced names branches (.repetition part :: parts) rest
                else none
            | [] => none
          else do
            let (part, rest) ← single? spaced (c :: rest)
            content? fuel spaced names branches (part :: parts) rest

/-- Read a pattern. Each step of the reader uses up at least one character. -/
def ofText? (text : String) : Option Pattern :=
  match content? (text.length + 1) false [] [] [] text.toList with
  | some (pattern, _, []) => some pattern
  | _ => none

end MarketMaking.Pattern
