import MarketMaking.Decimal
import MarketMaking.Toml.Text

/-!
# TOML dates and times

A day of the calendar, a time of day, or both with an optional offset from universal time. They are
read in several spellings and written in one: a capital `T` between day and time, a capital `Z` for
universal time, and no zeros at the end of a fraction of a second.
-/

namespace MarketMaking.Toml

/-- A day of the calendar. -/
structure Date where
  year : Nat
  month : Nat
  day : Nat
  deriving DecidableEq, Repr

/-- A time of day. -/
structure TimeOfDay where
  hour : Nat
  minute : Nat
  second : Nat
  nanosecond : Nat
  deriving DecidableEq, Repr

/-- The clock that a time of day is read from. -/
inductive Offset where
  /-- Universal time. -/
  | universal
  /-- A clock that is so many minutes ahead of universal time. -/
  | ahead (minutes : Int)
  deriving DecidableEq, Repr

/-- A day, a time of day, or both. -/
inductive Datetime where
  | day (day : Date)
  | time (time : TimeOfDay)
  | moment (day : Date) (time : TimeOfDay) (offset : Option Offset)
  deriving DecidableEq, Repr

/-! ## Writing -/

/-- The digits of a number, with zeros in front up to the given width. -/
def padded (width n : Nat) : List Char :=
  List.replicate (width - Decimal.digitCount n) '0' ++ Decimal.digitChars n

private theorem ofDigitChars_replicate_append (k : Nat) (cs : List Char) :
    Decimal.ofDigitChars (List.replicate k '0' ++ cs) = Decimal.ofDigitChars cs := by
  induction k with
  | zero => rfl
  | succ k ih => exact ih

/-- A padded number reads back as that number. -/
theorem ofDigitChars_padded (width n : Nat) : Decimal.ofDigitChars (padded width n) = n := by
  rw [padded, ofDigitChars_replicate_append, Decimal.ofDigitChars_digitChars]

/-- A day as year, month and day. -/
def Date.chars (d : Date) : List Char :=
  padded 4 d.year ++ '-' :: padded 2 d.month ++ '-' :: padded 2 d.day

/-- A fraction of a second without zeros at its end; nothing when there is none. -/
def fractionChars (nanosecond : Nat) : List Char :=
  if nanosecond = 0 then []
  else '.' :: ((padded 9 nanosecond).reverse.dropWhile (· = '0')).reverse

/-- A time of day with its seconds. -/
def TimeOfDay.chars (t : TimeOfDay) : List Char :=
  padded 2 t.hour ++ ':' :: padded 2 t.minute ++ ':' :: padded 2 t.second ++
    fractionChars t.nanosecond

/-- An offset: a letter, or hours and minutes behind a sign. -/
def Offset.chars : Offset → List Char
  | universal => ['Z']
  | ahead minutes =>
      (if minutes < 0 then '-' else '+') ::
        padded 2 (minutes.natAbs / 60) ++ ':' :: padded 2 (minutes.natAbs % 60)

/-- A date or time as text. -/
def Datetime.toText : Datetime → String
  | day d => String.ofList d.chars
  | time t => String.ofList t.chars
  | moment d t offset =>
      String.ofList (d.chars ++ 'T' :: t.chars ++ (offset.map Offset.chars).getD [])

/-! ## Reading -/

/-- Two digits of a date or time, as a number from `low` to `high`. -/
def twoDigits? (low high : Nat) : List Char → Option (Nat × List Char)
  | a :: b :: cs =>
      if Char.isDigit a && Char.isDigit b then
        let n := Decimal.ofDigitChars [a, b]
        if low ≤ n ∧ n ≤ high then some (n, cs) else none
      else none
  | _ => none

/-- The number of days of a month. -/
def daysIn (year month : Nat) : Nat :=
  if month = 2 then
    if year % 4 = 0 ∧ (year % 100 ≠ 0 ∨ year % 400 = 0) then 29 else 28
  else if month = 4 ∨ month = 6 ∨ month = 9 ∨ month = 11 then 30
  else 31

/-- A day that the calendar has. -/
def date? (cs : List Char) : Option (Date × List Char) := do
  let digits := cs.take 4
  if digits.length ≠ 4 ∨ !digits.all Char.isDigit then none
  let year := Decimal.ofDigitChars digits
  let (month, cs) ← twoDigits? 1 12 (← skipChar? '-' (cs.drop 4))
  let (day, cs) ← twoDigits? 1 31 (← skipChar? '-' cs)
  if day ≤ daysIn year month then some (⟨year, month, day⟩, cs) else none

/-- The nanoseconds that the digits of a fraction of a second stand for. Digits behind the ninth are
dropped. -/
def nanoseconds (digits : List Char) : Nat :=
  Decimal.ofDigitChars ((digits ++ List.replicate 9 '0').take 9)

/-- A fraction of a second in nanoseconds; zero when there is none. -/
def fractionOfSecond (cs : List Char) : Nat × List Char :=
  match cs with
  | '.' :: c :: rest =>
      if Char.isDigit c then
        (nanoseconds (c :: rest.takeWhile Char.isDigit), rest.dropWhile Char.isDigit)
      else (0, cs)
  | _ => (0, cs)

/-- A time of day with seconds, with or without a fraction of a second. -/
def time? (cs : List Char) : Option (TimeOfDay × List Char) := do
  let (hour, cs) ← twoDigits? 0 23 cs
  let (minute, cs) ← twoDigits? 0 59 (← skipChar? ':' cs)
  let (second, cs) ← twoDigits? 0 60 (← skipChar? ':' cs)
  let (nanosecond, cs) := fractionOfSecond cs
  return (⟨hour, minute, second, nanosecond⟩, cs)

/-- The offset behind a time, if there is one. -/
def offset? (cs : List Char) : Option (Option Offset × List Char) :=
  match cs with
  | c :: rest =>
      if c = 'Z' ∨ c = 'z' then some (some .universal, rest)
      else if c = '+' ∨ c = '-' then do
        let (hour, rest) ← twoDigits? 0 23 rest
        let (minute, rest) ← twoDigits? 0 59 (← skipChar? ':' rest)
        let minutes := Int.ofNat (60 * hour + minute)
        return (some (.ahead (if c = '-' then -minutes else minutes)), rest)
      else some (none, cs)
  | [] => some (none, [])

/-- What follows a day: a time with an optional offset, if there is one. -/
def moment? (day : Date) (cs : List Char) : Option (Datetime × List Char) :=
  match cs with
  | c :: rest =>
      if c = 'T' ∨ c = 't' ∨ c = ' ' then
        match time? rest with
        | some (time, rest) =>
            (offset? rest).map fun (offset, rest) => (.moment day time offset, rest)
        | none => some (.day day, cs)
      else some (.day day, cs)
  | [] => some (.day day, [])

/-- A day with or without a time, or a time. -/
def datetime? (cs : List Char) : Option (Datetime × List Char) :=
  match date? cs with
  | some (day, rest) => moment? day rest
  | none => (time? cs).map fun (time, rest) => (.time time, rest)

/-- Read a text that is nothing but a date or time. -/
def Datetime.ofText? (text : String) : Option Datetime :=
  match datetime? text.toList with
  | some (d, []) => some d
  | _ => none

end MarketMaking.Toml
