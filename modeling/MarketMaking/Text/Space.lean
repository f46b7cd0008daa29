/-!
# White space

The characters that count as white space, and texts without the white space around them.
-/

namespace MarketMaking.Text

/-- A white space character. -/
def isSpace (c : Char) : Bool :=
  let n := c.toNat
  (9 ≤ n && n ≤ 13) || n = 0x20 || n = 0x85 || n = 0xA0 || n = 0x1680 ||
    (0x2000 ≤ n && n ≤ 0x200A) || n = 0x2028 || n = 0x2029 || n = 0x202F || n = 0x205F ||
    n = 0x3000

/-- A text without the white space in front of it and behind it. -/
def trim (cs : List Char) : List Char :=
  ((cs.reverse.dropWhile isSpace).reverse).dropWhile isSpace

end MarketMaking.Text
