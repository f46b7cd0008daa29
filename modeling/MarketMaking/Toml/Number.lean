import MarketMaking.Decimal.Reading
import MarketMaking.Toml.Value

/-!
# TOML numbers

Integers in four bases, decimals with a fraction or an exponent, and the special numbers. Dates and
times look like them, so they are told apart here.
-/

namespace MarketMaking.Toml

/-- Digits behind a digit, with single underscores between digits; the underscores are dropped. -/
def moreDigits (isDigit : Char → Bool) : List Char → List Char × List Char
  | '_' :: c :: cs =>
      if isDigit c then
        let (digits, rest) := moreDigits isDigit cs
        (c :: digits, rest)
      else ([], '_' :: c :: cs)
  | c :: cs =>
      if isDigit c then
        let (digits, rest) := moreDigits isDigit cs
        (c :: digits, rest)
      else ([], c :: cs)
  | [] => ([], [])

/-- At least one digit. -/
def digits? (isDigit : Char → Bool) : List Char → Option (List Char × List Char)
  | c :: cs =>
      if isDigit c then
        let (digits, rest) := moreDigits isDigit cs
        some (c :: digits, rest)
      else none
  | [] => none

/-- The digits of a decimal integer: zero stands alone. -/
def wholeDigits? : List Char → Option (List Char × List Char)
  | '0' :: cs => some (['0'], cs)
  | cs => digits? Char.isDigit cs

/-- An integer that fits 64 bits with sign. -/
def inRange? (n : Int) : Option Int :=
  if Binary64.minInt64 ≤ n ∧ n ≤ Binary64.maxInt64 then some n else none

/-- A natural number in a base that is a power of two, behind its two-letter mark. -/
def based? (base : Nat) (cs : List Char) : Option (Value × List Char) := do
  let isDigit (c : Char) : Bool := (Text.hexDigit? c).any (· < base)
  let (digits, rest) ← digits? isDigit cs
  let n := digits.foldl (fun n c => base * n + (Text.hexDigit? c).getD 0) 0
  return (.integer (← inRange? (Int.ofNat n)), rest)

/-- A decimal integer. -/
def decimalInteger? (cs : List Char) : Option (Value × List Char) := do
  let (negative, unsigned) := Decimal.splitSign cs
  let (digits, rest) ← wholeDigits? unsigned
  let n : Int := Int.ofNat (Decimal.ofDigitChars digits)
  return (.integer (← inRange? (if negative then -n else n)), rest)

/-- An integer. -/
def integer? : List Char → Option (Value × List Char)
  | '0' :: 'x' :: cs => based? 16 cs
  | '0' :: 'o' :: cs => based? 8 cs
  | '0' :: 'b' :: cs => based? 2 cs
  | cs => decimalInteger? cs

/-- An exponent with its letter and its sign; nothing when there is no such letter. -/
def exponent? (cs : List Char) : Option (List Char × List Char) :=
  match cs with
  | c :: cs =>
      if c = 'e' ∨ c = 'E' then do
        let (negative, unsigned) := Decimal.splitSign cs
        let (digits, rest) ← digits? Char.isDigit unsigned
        return ('e' :: (if negative then '-' :: digits else digits), rest)
      else none
  | [] => none

/-- A fraction with its point. -/
def fraction? : List Char → Option (List Char × List Char)
  | '.' :: cs => do
      let (digits, rest) ← digits? Char.isDigit cs
      return ('.' :: digits, rest)
  | _ => none

/-- What makes a decimal: a fraction, an exponent, or both. -/
def decimalTail? (cs : List Char) : Option (List Char × List Char) :=
  match fraction? cs with
  | none => exponent? cs
  | some (fraction, rest) =>
      match exponent? rest with
      | some (exponent, rest) => some (fraction ++ exponent, rest)
      | none => some (fraction, rest)

/-- A decimal. One that overflows to positive infinity is refused. -/
def decimal? (cs : List Char) : Option (Value × List Char) := do
  let (negative, unsigned) := Decimal.splitSign cs
  let (whole, rest) ← wholeDigits? unsigned
  let (tail, rest) ← decimalTail? rest
  let d ← Decimal.unsigned? (whole ++ tail)
  let x := Decimal.toFloat negative d
  if !negative && !x.isFinite then none else return (.float x, rest)

/-- A special number, with or without a sign. -/
def special? (cs : List Char) : Option (Value × List Char) :=
  let (negative, unsigned) := Decimal.splitSign cs
  match unsigned with
  | 'i' :: 'n' :: 'f' :: rest =>
      some (.float (if negative then -Binary64.infinity else Binary64.infinity), rest)
  | 'n' :: 'a' :: 'n' :: rest => some (.float Binary64.unknown, rest)
  | _ => none

/-- A date or a time as a value. -/
def dateOrTime? (cs : List Char) : Option (Value × List Char) :=
  (datetime? cs).map fun (d, rest) => (.datetime d, rest)

/-- A number or a date: whichever form fits, the longer forms first. -/
def number? (cs : List Char) : Option (Value × List Char) :=
  dateOrTime? cs <|> decimal? cs <|> special? cs <|> integer? cs

end MarketMaking.Toml
