import MarketMaking.Toml.DateTable
import MarketMaking.Toml.Number

/-!
# TOML documents

Values with their arrays and tables, and documents as a sequence of keys with values and table
headers.
-/

namespace MarketMaking.Toml

/-- The items of an array up to its closing bracket. They are separated by commas, with an optional
one at the end. -/
def arrayItems (value : List Char → Option (Value × List Char)) :
    (fuel : Nat) → List Char → Option (List Value × List Char)
  | 0, _ => none
  | fuel + 1, cs =>
      match skipLines false cs with
      | ']' :: rest => some ([], rest)
      | cs => do
          let (item, rest) ← value cs
          match skipLines false rest with
          | ',' :: rest => do
              let (items, rest) ← arrayItems value fuel rest
              return (item :: items, rest)
          | ']' :: rest => return ([item], rest)
          | _ => none

/-- The entries of a table in braces up to the closing one. They stand on one line, separated by
commas. -/
def inlineEntries (value : List Char → Option (Value × List Char)) :
    (fuel : Nat) → Table → List Char → Option (Table × List Char)
  | 0, _, _ => none
  | fuel + 1, t, cs => do
      let ((path, key), rest) ← key? cs
      let (v, rest) ← value (skipBlanks (← skipChar? '=' rest))
      let t ← t.write path key v
      match skipBlanks rest with
      | ',' :: rest => inlineEntries value fuel t rest
      | '}' :: rest => return (t, rest)
      | _ => none

/-- A value. Arrays and tables may be nested `depth` levels deep. -/
def value? : (depth : Nat) → List Char → Option (Value × List Char)
  | depth, '[' :: cs =>
      match depth with
      | 0 => none
      | depth + 1 =>
          (arrayItems (value? depth) (cs.length + 1) cs).map fun (items, rest) =>
            (.array items, rest)
  | depth, '{' :: cs =>
      match depth with
      | 0 => none
      | depth + 1 =>
          match skipBlanks cs with
          | '}' :: rest => some ((Table.empty .inline).toValue, rest)
          | _ =>
              (inlineEntries (value? depth) (cs.length + 1) (Table.empty .inline) cs).map
                fun (t, rest) => (t.toValue, rest)
  | _, 't' :: 'r' :: 'u' :: 'e' :: cs => some (.boolean true, cs)
  | _, 'f' :: 'a' :: 'l' :: 's' :: 'e' :: cs => some (.boolean false, cs)
  | _, cs =>
      match cs with
      | '"' :: _ | '\'' :: _ => (string? cs).map fun (text, rest) => (.string text, rest)
      | _ => number? cs

/-- A header behind its opening brackets: its key up to the closing ones, and the end of the
line. -/
def header? (brackets cs : List Char) : Option ((List String × String) × List Char) := do
  let (key, rest) ← key? cs
  if brackets.isPrefixOf rest then
    return (key, ← endOfLine? (rest.drop brackets.length))
  else none

/-- The rest of a document, line by line, under the header whose path is `heading`. -/
def lines : (fuel : Nat) → (heading : List String) → Table → List Char → Option Table
  | 0, _, _, _ => none
  | fuel + 1, heading, t, cs =>
      match skipBlanks cs with
      | [] => some t
      | '#' :: cs => do lines fuel heading t (← endOfLine? ('#' :: cs))
      | '\n' :: cs => lines fuel heading t cs
      | '\r' :: '\n' :: cs => lines fuel heading t cs
      | '[' :: '[' :: cs => do
          let ((path, key), rest) ← header? [']', ']'] cs
          lines fuel (path ++ [key]) (← t.openElement path key) rest
      | '[' :: cs => do
          let ((path, key), rest) ← header? [']'] cs
          lines fuel (path ++ [key]) (← t.openTable path key) rest
      | cs => do
          let ((path, key), rest) ← key? cs
          let (v, rest) ← value? (depthLimit - 1) (skipBlanks (← skipChar? '=' rest))
          lines fuel heading (← t.writeUnder heading path key v) (← endOfLine? rest)

/-- Read a document: a table, or what the table stands for. A byte order mark in front is
skipped. -/
def parse? (text : String) : Option Value := do
  let cs := match text.toList with
    | '\uFEFF' :: cs => cs
    | cs => cs
  (← lines (cs.length + 1) [] (Table.empty .header) cs).toValue.readDates?

end MarketMaking.Toml
