import MarketMaking.Pattern.Reading

/-!
# Patterns that can be matched

Patterns are matched without tables of the scripts. So digits, spaces, words and upper and lower
case are known for ASCII only, where characters are bytes; and as texts are no bytes, nothing may
match a part of a character. Patterns with too many levels are not matched either.
-/

namespace MarketMaking.Pattern

/-- How the characters at a place of a pattern are taken. -/
structure Mode where
  unicode : Bool
  anyCase : Bool
  deriving DecidableEq, Repr

namespace Mode

/-- The mode at the start of a pattern. -/
def initial : Mode := ⟨true, false⟩

/-- The mode behind flags. -/
def set (m : Mode) (flags : Flags) : Mode where
  unicode := (flags.lookup .unicode).getD m.unicode
  anyCase := (flags.lookup .anyCase).getD m.anyCase

/-- Can a character be matched? In any case only one whose cases are known, and as a byte only one
that is a character. -/
def allows (m : Mode) (s : Symbol) : Bool :=
  if m.unicode then !m.anyCase else !s.asByte || decide (s.char.toNat < 0x80)

/-- Can a character be matched as one of a class? A class of bytes has characters of ASCII only. -/
def allowsInClass (m : Mode) (s : Symbol) : Bool :=
  if m.unicode then !m.anyCase else decide (s.char.toNat < 0x80)

end Mode

mutual

/-- Can a class of characters be matched? The rest of a class of bytes has bytes that are no
characters. -/
def CharClass.isSupported (m : Mode) : CharClass → Bool
  | symbol s => m.allowsInClass s
  | range first last => m.allowsInClass first && m.allowsInClass last
  | shorthand negated => !m.unicode && !negated
  | named negated => if m.unicode then !m.anyCase else !negated
  | bracketed negated content => content.isSupported m && (m.unicode || !negated)
  | union parts => areSupported m parts
  | combined left right => left.isSupported m && right.isSupported m

/-- Can all of several classes of characters be matched? -/
def CharClass.areSupported (m : Mode) : List CharClass → Bool
  | [] => true
  | c :: cs => c.isSupported m && areSupported m cs

end

mutual

/-- The mode behind a pattern in the same group, if the pattern can be matched. -/
def modeBehind? (m : Mode) : Pattern → Option Mode
  | symbol s => if m.allows s then some m else none
  | anyChar => if m.unicode then some m else none
  | assertion a => if a = .word ∧ m.unicode then none else some m
  | charClass c => if c.isSupported m then some m else none
  | setFlags flags => some (m.set flags)
  | group flags content => (modeBehind? (m.set flags) content).map fun _ => m
  | repetition content => modeBehind? m content
  | sequence parts => modeBehindAll? m parts
  | choice branches => modeBehindAll? m branches

/-- The mode behind patterns that follow each other, if all of them can be matched. -/
def modeBehindAll? (m : Mode) : List Pattern → Option Mode
  | [] => some m
  | p :: ps => (modeBehind? m p).bind fun m => modeBehindAll? m ps

end

/-- The largest number of levels of a pattern. -/
def deepest : Nat := 250

/-- Can a pattern be matched? -/
def isSupported (p : Pattern) : Bool :=
  decide (p.depth ≤ deepest) && (modeBehind? .initial p).isSome

end MarketMaking.Pattern
