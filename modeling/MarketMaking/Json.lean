import MarketMaking.Decimal.Layout

/-!
# JSON text

Values with named fields, written compactly or with one field a line.
-/

namespace MarketMaking

/-- The values that are written as JSON. -/
inductive Json where
  | null
  | bool (value : Bool)
  | int (value : Int)
  | float (value : Float)
  | string (text : String)
  | object (fields : List (String × Json))

namespace Json

/-- Numbers have a point or an exponent with its sign; whole numbers end in `.0`; of two equally
short forms the one with the even last digit is written. -/
def numbers : Decimal.Layout := ⟨-5, 15, .toEven, true, true⟩

/-- A double; JSON has no numbers that are not finite. -/
def floatText (x : Float) : String := if x.isFinite then numbers.write x else "null"

/-- A character inside a quoted text. -/
def escapeChar (c : Char) : String :=
  if c = '"' then "\\\"" else if c = '\\' then "\\\\"
  else if c = '\n' then "\\n" else if c = '\r' then "\\r" else if c = '\t' then "\\t"
  else if c = '\x08' then "\\b" else if c = '\x0c' then "\\f"
  else if c.toNat < 32 then
    let digits := Nat.toDigits 16 c.toNat
    "\\u" ++ String.ofList (List.replicate (4 - digits.length) '0' ++ digits)
  else c.toString

/-- A quoted text. -/
def quoted (text : String) : String :=
  "\"" ++ String.join (text.toList.map escapeChar) ++ "\""

/-- The text of a value that has no fields. -/
def leafText : Json → String
  | null => "null"
  | bool value => if value then "true" else "false"
  | int value => String.ofList (Decimal.intChars value)
  | float value => floatText value
  | string text => quoted text
  | object _ => "\x7b\x7d"

mutual

/-- A value without any white space. -/
def compact : Json → String
  | object fields => "\x7b" ++ ",".intercalate (compactFields fields) ++ "\x7d"
  | leaf => leafText leaf

/-- The fields of an object without white space. -/
def compactFields : List (String × Json) → List String
  | [] => []
  | (name, value) :: fields => (quoted name ++ ":" ++ compact value) :: compactFields fields

end

mutual

/-- A value with one field a line, indented by two blanks a level. -/
def pretty (indent : String) : Json → String
  | object [] => "\x7b\x7d"
  | object fields =>
      let inner := indent ++ "  "
      "\x7b\n" ++ ",\n".intercalate (prettyFields inner fields) ++ "\n" ++ indent ++ "\x7d"
  | leaf => leafText leaf

/-- The fields of an object, one a line. -/
def prettyFields (indent : String) : List (String × Json) → List String
  | [] => []
  | (name, value) :: fields =>
      (indent ++ quoted name ++ ": " ++ pretty indent value) :: prettyFields indent fields

end

end Json

end MarketMaking
