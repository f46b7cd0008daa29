import MarketMaking.Environment
import MarketMaking.Text.Alphanumeric
import MarketMaking.Text.Space

/-!
# Environment files

A file of lines `NAME=value` that sets variables which are not set yet. A value may be plain or
quoted, hold other variables under a dollar sign, and go on over several lines inside quotes.
Reading stops at the first malformed line; what was set before it stays.
-/

namespace MarketMaking.DotEnv

open Text (isSpace isAlphanumeric)

/-! ## Logical lines -/

/-- What is open at the end of a piece of a line. -/
inductive Scan where
  | complete
  | escape
  | strong
  | strongEscape
  | weak
  | weakEscape
  | blank
  deriving DecidableEq, Repr

/-- The scan after one more character. -/
def Scan.step (s : Scan) (c : Char) : Scan :=
  let opened : Scan :=
    if c = '\\' then .escape else if c = '"' then .weak else if c = '\'' then .strong
    else .complete
  match s with
  | complete => if isSpace c && c ≠ '\n' && c ≠ '\r' then .blank else opened
  | blank => opened
  | escape => .complete
  | weak => if c = '\\' then .weakEscape else if c = '"' then .complete else .weak
  | weakEscape => .weak
  | strong => if c = '\\' then .strongEscape else if c = '\'' then .complete else .strong
  | strongEscape => .strong

/-- Scan a line up to a comment behind a blank. Returns the text before the comment if there is one,
and otherwise what is open at the end. -/
def scanLine : Scan → List Char → Except (List Char) Scan
  | s, [] => .ok s
  | s, c :: cs =>
      if s = .blank ∧ c = '#' then .error []
      else (scanLine (s.step c) cs).mapError (c :: ·)

/-- A line without its line end. -/
def chomp (cs : List Char) : List Char :=
  match cs.reverse with
  | '\n' :: '\r' :: rest => rest.reverse
  | '\n' :: rest => rest.reverse
  | _ => cs

/-- The next logical line and the lines behind it. Lines are joined while something is open; a line
that stays open is malformed. A line that starts with a comment sign is empty. -/
def nextLine? (before : List Char) (s : Scan) :
    List (List Char) → Option (List Char × List (List Char))
  | [] => none
  | line :: lines =>
      let text := before ++ line
      if (text.dropWhile isSpace).head? = some '#' then some ([], lines)
      else
        match scanLine s line with
        | .error shown => some (before ++ shown, lines)
        | .ok .complete => some (chomp text, lines)
        | .ok s => nextLine? text s lines

/-! ## Values -/

/-- Where the name of a variable inside a value is being read. -/
inductive Substitution where
  | none
  /-- Behind a dollar sign. -/
  | plain
  /-- Between braces behind a dollar sign. -/
  | braced
  deriving DecidableEq, Repr

/-- What has been read of a value. -/
structure ValueState where
  strong : Bool
  weak : Bool
  escaped : Bool
  /-- May only a comment follow? -/
  ended : Bool
  substitution : Substitution
  /-- The name read so far, in reverse. -/
  name : List Char
  /-- The value read so far, in reverse. -/
  output : List Char

/-- Put a character behind the value. -/
def ValueState.emit (v : ValueState) (c : Char) : ValueState := { v with output := c :: v.output }

/-- Put the variable that has been named behind the value. -/
def ValueState.substitute (v : ValueState) (lookup : String → String) : ValueState :=
  let text := lookup (String.ofList v.name.reverse)
  { v with name := [], output := text.toList.reverse ++ v.output }

/-- Read one more character inside the name of a variable. Without braces a name is made of letters
and digits of any script. -/
def ValueState.inName (lookup : String → String) (v : ValueState) (c : Char) : ValueState :=
  if isAlphanumeric c then { v with name := c :: v.name }
  else if v.substitution = .braced then
    if c = '\x7d' then { v with substitution := .none }.substitute lookup
    else { v with name := c :: v.name }
  else if c = '\x7b' ∧ v.name.isEmpty then { v with substitution := .braced }
  else
    let v := v.substitute lookup
    if c = '$' then { v with substitution := .plain }
    else { v with substitution := .none }.emit c

/-- Read one more character outside of all names. -/
def ValueState.outside (v : ValueState) (c : Char) : ValueState :=
  if c = '$' then { v with substitution := .plain }
  else if v.weak then
    if c = '"' then { v with weak := false }
    else if c = '\\' then { v with escaped := true }
    else v.emit c
  else if c = '\'' then { v with strong := true }
  else if c = '"' then { v with weak := true }
  else if c = '\\' then { v with escaped := true }
  else if c = ' ' ∨ c = '\t' then { v with ended := true }
  else v.emit c

/-- The end of a value, unless a quote or a brace is still open. -/
def ValueState.finish? (v : ValueState) (lookup : String → String) : Option String :=
  if v.substitution = .braced ∨ v.strong ∨ v.weak then Option.none
  else some (String.ofList (v.substitute lookup).output.reverse)

/-- Read a value to the end of its line. -/
def readValue? (lookup : String → String) (v : ValueState) : List Char → Option String
  | [] => v.finish? lookup
  | c :: cs =>
      if v.ended then
        if c = ' ' ∨ c = '\t' then readValue? lookup v cs
        else if c = '#' then v.finish? lookup
        else Option.none
      else if v.escaped then
        let v := { v with escaped := false }
        if c = '\\' ∨ c = '\'' ∨ c = '"' ∨ c = '$' ∨ c = ' ' then readValue? lookup (v.emit c) cs
        else if c = 'n' then readValue? lookup (v.emit '\n') cs
        else Option.none
      else if v.strong then
        readValue? lookup (if c = '\'' then { v with strong := false } else v.emit c) cs
      else if v.substitution ≠ .none then readValue? lookup (v.inName lookup c) cs
      else readValue? lookup (v.outside c) cs

/-! ## Assignments -/

/-- The name of a variable and what follows it. -/
def name? (cs : List Char) : Option (String × List Char) :=
  match cs with
  | c :: _ =>
      if c.isAlpha || c = '_' then
        let isPart (c : Char) : Bool := c.isAlphanum || c = '_' || c = '.'
        some (String.ofList (cs.takeWhile isPart), cs.dropWhile isPart)
      else none
  | [] => none

/-- Skip white space and an equals sign. -/
def skipEquals? (cs : List Char) : Option (List Char) :=
  match cs.dropWhile isSpace with
  | '=' :: rest => some rest
  | _ => none

/-- The name of an assignment and its value as written. The word `export` in front of the name is
skipped, unless it is the name. -/
def split? (cs : List Char) : Option (String × List Char) := do
  let (name, rest) ← name? cs
  match skipEquals? rest with
  | some value => return (name, value)
  | none =>
      if name = "export" then do
        let (name, rest) ← name? (rest.dropWhile isSpace)
        return (name, ← skipEquals? rest)
      else none

/-- What a logical line says. -/
inductive Line where
  | nothing
  | assignment (name value : String)
  deriving Repr

/-- Read a logical line. Names inside a value stand for variables that are set, or for those that
the file itself assigned before. -/
def readLine? (env assigned : Environment) (line : List Char) : Option Line :=
  let cs := Text.trim line
  if cs.isEmpty || cs.head? = some '#' then some .nothing
  else do
    let (name, rest) ← split? cs
    let written := rest.dropWhile isSpace
    if written.isEmpty || written.head? = some '#' then return .assignment name ""
    let lookup (name : String) : String :=
      ((env.behind? name).or (assigned.get? name)).getD ""
    return .assignment name
      (← readValue? lookup ⟨false, false, false, false, .none, [], []⟩ written)

/-- Set the variables of the given lines that are not set yet, up to the first malformed line. Each
logical line uses up at least one of the given ones. -/
def loadLines : (fuel : Nat) → (env assigned : Environment) → List (List Char) → Environment
  | 0, env, _, _ => env
  | fuel + 1, env, assigned, lines =>
      match nextLine? [] .complete lines with
      | none => env
      | some (line, lines) =>
          match readLine? env assigned line with
          | none => env
          | some .nothing => loadLines fuel env assigned lines
          | some (.assignment name value) =>
              let env := if (env.get? name).isSome then env else env ++ [(name, value)]
              loadLines fuel env ((name, value) :: assigned) lines

/-- The lines of a file with their line ends. -/
def splitLines (bytes : List UInt8) : List (List UInt8) :=
  bytes.foldr (fun b lines =>
    if b = 10 then [b] :: lines
    else match lines with
      | [] => [[b]]
      | line :: rest => (b :: line) :: rest) []

/-- The lines of a file as text, up to the first one that is not text. -/
def textLines (lines : List (List UInt8)) : List (List Char) :=
  match lines with
  | [] => []
  | line :: lines =>
      match String.fromUTF8? ⟨line.toArray⟩ with
      | some text => text.toList :: textLines lines
      | none => []

/-- Set the variables of a file that are not set yet. A byte order mark in front is skipped. -/
def load (content : ByteArray) (env : Environment) : Environment :=
  let bytes := match content.toList with
    | 0xEF :: 0xBB :: 0xBF :: bytes => bytes
    | bytes => bytes
  let lines := textLines (splitLines bytes)
  loadLines (lines.length + 1) env [] lines

end MarketMaking.DotEnv
