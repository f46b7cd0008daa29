/-!
# Paths

A path is a text of parts between slashes. Repeated slashes and parts that are a single dot say
nothing. Paths are limited: in the size of their text, in the size of each part, and by one
character that they may not hold.
-/

namespace MarketMaking

/-- A path by its text. The empty text stands for the working directory. -/
structure Path where
  text : String
  deriving DecidableEq, Repr

namespace Path

/-- Read a path that names something; the empty text names nothing. -/
def ofString? (text : String) : Option Path := if text = "" then none else some ⟨text⟩

/-- What stands between the slashes. -/
def pieces (p : Path) : List String := (p.text.toList.splitOn '/').map String.ofList

/-- Is this piece no part of the path? -/
def isSilent (piece : String) : Bool := piece = "" || piece = "."

/-- Does the path start at the root? -/
def isAbsolute (p : Path) : Bool := p.text.startsWith "/"

/-- The names on the way from the working directory; an absolute path starts with a slash. -/
def parts (p : Path) : List String :=
  (if p.isAbsolute then ["/"] else []) ++ p.pieces.filter fun piece => !isSilent piece

/-- Can the path only name a directory? One that ends in a slash, or in a single dot behind a slash,
can. -/
def namesDirectory (p : Path) : Bool := p.text.endsWith "/" || p.text.endsWith "/."

/-- The path to the directory that holds the last part: the text in front of that part, without what
says nothing at its end. -/
def parent (p : Path) : Path :=
  let upToLast := p.pieces.reverse.dropWhile isSilent
  match (upToLast.drop 1).dropWhile isSilent with
  | [] => ⟨if p.isAbsolute then "/" else ""⟩
  | pieces => ⟨"/".intercalate pieces.reverse⟩

/-- Does the path hold the character that no path may hold? -/
def holdsNul (p : Path) : Bool := p.text.toList.contains '\x00'

/-- The largest number of bytes of a path. -/
def longestPath : Nat := 4095

/-- Is the path longer than any path may be? What it leads to does not matter. -/
def isTooLong (p : Path) : Bool := decide (longestPath < p.text.utf8ByteSize)

/-- The largest number of bytes of a name. -/
def longestName : Nat := 255

/-- Is a part longer than the name of any file or directory? -/
def isLongName (part : String) : Bool := decide (longestName < part.utf8ByteSize)

end Path

end MarketMaking
