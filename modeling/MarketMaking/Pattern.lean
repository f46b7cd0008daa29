/-!
# Patterns

Regular expressions as trees: characters, classes of characters, assertions about a place, groups,
repetition, sequence and choice. Flags may be set inside a pattern, for a group or for what follows.
-/

namespace MarketMaking

namespace Pattern

/-- What can be switched on and off inside a pattern. -/
inductive Flag where
  /-- Upper and lower case are the same. -/
  | anyCase
  /-- Lines have a start and an end of their own. -/
  | lines
  /-- A dot also stands for the end of a line. -/
  | dotAll
  /-- Repetition is short unless it is marked. -/
  | short
  /-- Characters are those of all scripts, and not bytes. -/
  | unicode
  /-- A carriage return belongs to the end of a line. -/
  | returns
  /-- White space and comments say nothing. -/
  | spaced
  deriving DecidableEq, Repr

/-- The letter of a flag. -/
def Flag.letter : Flag → Char
  | anyCase => 'i'
  | lines => 'm'
  | dotAll => 's'
  | short => 'U'
  | unicode => 'u'
  | returns => 'R'
  | spaced => 'x'

/-- The flag with a letter. -/
def Flag.ofLetter? (c : Char) : Option Flag :=
  [anyCase, lines, dotAll, short, unicode, returns, spaced].find? (·.letter = c)

/-- A flag is found by its letter. -/
theorem Flag.ofLetter?_letter (f : Flag) : ofLetter? f.letter = some f := by cases f <;> rfl

/-- Flags with what they are switched to. -/
abbrev Flags := List (Flag × Bool)

/-- A character of a pattern. -/
structure Symbol where
  char : Char
  /-- Is it written as the number of a byte? -/
  asByte : Bool
  deriving DecidableEq, Repr

/-- What holds at a place of a text. -/
inductive Assertion where
  | lineStart
  | lineEnd
  | textStart
  | textEnd
  /-- Something about the words in front of the place and behind it. -/
  | word
  deriving DecidableEq, Repr

/-- A class of characters. -/
inductive CharClass where
  | symbol (s : Symbol)
  | range (first last : Symbol)
  /-- Digits, spaces, or characters of words, by a letter. -/
  | shorthand (negated : Bool)
  /-- A class of ASCII with a name between colons. -/
  | named (negated : Bool)
  | bracketed (negated : Bool) (content : CharClass)
  | union (parts : List CharClass)
  /-- What two classes have in common, or in which they differ. -/
  | combined (left right : CharClass)
  deriving Repr

end Pattern

open Pattern in
/-- A regular expression. -/
inductive Pattern where
  | symbol (s : Symbol)
  | anyChar
  | assertion (a : Assertion)
  | charClass (c : CharClass)
  /-- Flags for what follows in the same group. -/
  | setFlags (flags : Flags)
  | group (flags : Flags) (content : Pattern)
  | repetition (content : Pattern)
  | sequence (parts : List Pattern)
  | choice (branches : List Pattern)
  deriving Repr

namespace Pattern

/-! ## Depth -/

/-- The levels that are added by putting so many parts together: none for a single one. -/
def joining (parts : Nat) : Nat := if parts < 2 then 0 else 1

mutual

/-- The number of levels of a class. -/
def CharClass.depth : CharClass → Nat
  | symbol _ | range .. | shorthand _ | named _ => 0
  | bracketed _ content => content.depth + 1
  | union parts => depths parts + joining parts.length
  | combined left right => max left.depth right.depth + 1

/-- The number of levels of the deepest of several classes. -/
def CharClass.depths : List CharClass → Nat
  | [] => 0
  | c :: cs => max c.depth (depths cs)

end

mutual

/-- The number of levels of a pattern. -/
def depth : Pattern → Nat
  | symbol _ | anyChar | assertion _ | setFlags _ => 0
  | charClass c => c.depth
  | group _ content | repetition content => content.depth + 1
  | sequence parts => depths parts + joining parts.length
  | choice branches => depths branches + joining branches.length

/-- The number of levels of the deepest of several patterns. -/
def depths : List Pattern → Nat
  | [] => 0
  | p :: ps => max p.depth (depths ps)

end

end Pattern

end MarketMaking
