import MarketMaking.Decimal.Shortest

/-!
# Written forms of doubles

Three ways to write a double: its shortest decimal in a chosen layout, a fixed number of
significant digits in scientific form, and a fixed number of places after the point.
-/

namespace MarketMaking.Decimal

/-- How shortest decimals are laid out. Numbers whose leading digit has an exponent between
`lowest` and `highest` are written around a point, all others with an exponent. -/
structure Layout where
  /-- The least exponent written around a point. -/
  lowest : Int
  /-- The greatest exponent written around a point. -/
  highest : Int
  /-- Which of two equally near shortest decimals is taken. -/
  tie : Tie
  /-- Do whole numbers end in `.0`? -/
  keepPoint : Bool
  /-- Do positive exponents have a sign? -/
  signedExponent : Bool
  deriving Repr

/-- The text of infinity after its sign. -/
def infinityChars : List Char := ['i', 'n', 'f']

/-- The text of the unknown number. -/
def nanChars : List Char := ['N', 'a', 'N']

/-- A minus sign in front of the text of a negative number. -/
def signed (negative : Bool) (chars : List Char) : List Char :=
  if negative then '-' :: chars else chars

/-- Lay out a decimal. -/
def Layout.chars (style : Layout) (d : Decimal) : List Char :=
  let leading := d.leading
  if style.lowest ≤ leading ∧ leading ≤ style.highest then d.positional style.keepPoint
  else
    let sign := if style.signedExponent ∧ 0 ≤ leading then ['+'] else []
    d.mantissaChars ++ 'e' :: sign ++ intChars leading

/-- The shortest text of a double in the given layout. -/
def Layout.write (style : Layout) (x : Float) : String :=
  String.ofList <| match Binary64.ofFloat x with
    | .nan => nanChars
    | .infinite negative => signed negative infinityChars
    | .finite negative 0 _ => signed negative (style.chars ⟨0, 0⟩)
    | .finite negative mantissa exponent =>
        signed negative (style.chars (shortest style.tie mantissa exponent))

/-- All doubles around a point, whole numbers without it: the layout of messages. -/
def plain : Layout := ⟨-400, 400, .up, false, false⟩

/-- A point in every number, exponents for very large and very small ones: the layout of log
fields. -/
def pointed : Layout := ⟨-4, 15, .up, true, false⟩

/-- A double in scientific form with the given number of significant digits, at least two. -/
def scientific (count : Nat) (x : Float) : String :=
  String.ofList <| match Binary64.ofFloat x with
    | .nan => nanChars
    | .infinite negative => signed negative infinityChars
    | .finite negative 0 _ =>
        signed negative ('0' :: '.' :: List.replicate (count - 1) '0' ++ ['e', '0'])
    | .finite negative mantissa exponent =>
        let (num, den) := Binary64.ratio mantissa exponent
        let d := significant count num den
        signed negative (d.mantissaChars ++ 'e' :: intChars d.leading)

/-- The digits of a finite double with exactly `places` digits after the point, without its sign. -/
def fixedChars (places mantissa : Nat) (exponent : Int) : List Char :=
  let (num, den) := Binary64.ratio mantissa exponent
  let scaled := fixed places num den
  let fraction := digitChars (scaled % pow10 places)
  digitChars (scaled / pow10 places) ++
    '.' :: (List.replicate (places - fraction.length) '0' ++ fraction)

/-- A finite double with exactly `places` digits after the point; nothing for other doubles. The
sign of a negative number is kept when all its digits are zero. -/
def fixedPoint? (places : Nat) (x : Float) : Option (List Char) :=
  match Binary64.ofFloat x with
  | .finite negative mantissa exponent =>
      some (signed negative (fixedChars places mantissa exponent))
  | _ => none

end MarketMaking.Decimal
