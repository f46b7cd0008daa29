import MarketMaking.Decimal.Reading
import MarketMaking.LogLevel
import MarketMaking.Pattern.Support

/-!
# Log filters

Which events are logged. A filter is a list of rules; each is meant for a part of the program or for
all of it, and says up to which level it logs. The most specific rule that covers an event decides,
and of equally specific ones the last.
-/

namespace MarketMaking

/-- Read a threshold: its rank, or its name in any case. -/
def LogThreshold.ofText? (text : String) : Option LogThreshold :=
  match Decimal.readNat? text with
  | some n => all[n]?
  | none => all.find? (·.name = text.toLower)

/-- What may be logged: the part of the program that it comes from, its level, and the names of its
fields. -/
structure LogEvent where
  target : String
  level : LogLevel
  fields : List String
  deriving DecidableEq, Repr

/-- A field that a rule asks for, with a pattern for its value if the value matters. -/
structure LogField where
  name : String
  value : Option String
  deriving DecidableEq, Repr

/-- A rule of a filter. -/
structure LogRule where
  /-- How the names of the parts of the program start that it is meant for. -/
  target : String
  /-- The name of an activity that it is meant for. -/
  span : Option String
  field : Option LogField
  threshold : LogThreshold
  deriving DecidableEq, Repr

namespace LogRule

/-- Does a rule cover an event that is not part of any activity? Values of fields are looked at in
activities only. -/
def covers (r : LogRule) (e : LogEvent) : Bool :=
  r.target.toList.isPrefixOf e.target.toList && r.span.isNone &&
    r.field.all fun f => f.value.isNone && e.fields.contains f.name

/-- The names of the fields that a rule asks for. -/
def fieldNames (r : LogRule) : List String := r.field.toList.map (·.name)

/-- Is the first rule less specific? A longer target makes a rule more specific, then a field, and
of two fields the one later in the alphabet. -/
def isLessSpecific (r s : LogRule) : Bool :=
  decide (r.target.length < s.target.length) ||
    (decide (r.target.length = s.target.length) && decide (r.fieldNames < s.fieldNames))

/-! ## Reading -/

/-- May a rule start with this character? -/
def isStart (c : Char) : Bool :=
  Text.isAlphanumeric c || c = '-' || c = ':' || c = '_' || c = '['

/-- The threshold behind an equals sign; the highest one when none is named. -/
def threshold? (text : String) : Option LogThreshold :=
  if text = "" then some (.upTo .trace) else LogThreshold.ofText? text

/-- May a value be asked for in this way: by a truth value, a number or a pattern that can be
matched? -/
def isValue (text : String) : Bool :=
  text = "true" || text = "false" || (Decimal.readFloat? text).isSome ||
    (Pattern.ofText? text).any Pattern.isSupported

/-- The field between braces: a name, and a value behind an equals sign. -/
def field? (text : String) : Option LogField :=
  match text.splitOn "=" with
  | [] => none
  | name :: values =>
      if text = "" || !values.head?.all isValue then none else some ⟨name, values.head?⟩

/-- The bytes of a rule without the white space around it, each with the byte at the same place of
the whole text. The former are looked at and the latter are taken, so that white space in front of a
rule shifts all its parts. -/
def places (text : String) : List (UInt8 × UInt8) :=
  (String.ofList (Text.trim text.toList)).toUTF8.toList.zip text.toUTF8.toList

/-- The text that is taken at places. -/
def taken? (ps : List (UInt8 × UInt8)) : Option String :=
  String.fromUTF8? ⟨(ps.map Prod.snd).toArray⟩

/-- Is this character looked at? -/
def shows (p : UInt8 × UInt8) (c : Char) : Bool := p.1 = c.toUInt8

/-- What stands between brackets up to the closing one: the name of an activity, and a field in
braces. A name may be missing in front of a field. -/
def brackets? (ps : List (UInt8 × UInt8)) :
    Option ((Option String × Option LogField) × List (UInt8 × UInt8)) := do
  let named := ps.takeWhile fun p => !shows p ']' && !shows p '\x7b'
  let name ← taken? named
  match ps.drop named.length with
  | [] => none
  | p :: rest =>
      if shows p ']' then return ((some name, none), rest)
      else
        let inside := rest.takeWhile fun p => !shows p '\x7d'
        match rest.drop (inside.length + 1) with
        | [] => none
        | p :: rest =>
            let field ← field? (← taken? inside)
            let span := if named.isEmpty then none else some name
            if shows p ']' then return ((span, some field), rest) else none

/-- Read a rule: a threshold alone, or a target, brackets, and a threshold behind an equals sign, of
which the threshold and one of the others may be missing. -/
def ofText? (text : String) : Option LogRule :=
  let ps := places text
  let upTo (rest : List (UInt8 × UInt8)) : Option LogThreshold := do
    threshold? (← String.fromUTF8? ⟨(text.toUTF8.toList.drop (ps.length - rest.length)).toArray⟩)
  if !(Text.trim text.toList).head?.any isStart then none
  else do
    let aimed := ps.takeWhile fun p => !shows p '=' && !shows p '['
    match ps.drop aimed.length with
    | [] =>
        match LogThreshold.ofText? text with
        | some threshold => return ⟨"", none, none, threshold⟩
        | none => return ⟨text, none, none, .upTo .trace⟩
    | p :: rest =>
        let target ← taken? aimed
        if shows p '=' then return ⟨target, none, none, ← upTo rest⟩
        else
          let ((span, field), rest) ← brackets? rest
          match rest with
          | [] => return ⟨target, span, field, .upTo .trace⟩
          | p :: rest =>
              if shows p '=' then return ⟨target, span, field, ← upTo rest⟩ else none

end LogRule

/-- The rules of a filter in the order in which they are given. -/
abbrev LogFilter := List LogRule

namespace LogFilter

/-- One threshold for all events. -/
def ofThreshold (threshold : LogThreshold) : LogFilter := [⟨"", none, none, threshold⟩]

/-- Read a filter: rules between commas. Nothing between two commas is no rule; one malformed rule
makes the filter malformed. -/
def ofText? (text : String) : Option LogFilter :=
  ((text.splitOn ",").filter (· ≠ "")).mapM LogRule.ofText?

/-- The rule that decides over an event, if one covers it. -/
def deciding? (f : LogFilter) (e : LogEvent) : Option LogRule :=
  (f.filter (·.covers e)).foldl (fun best rule =>
    match best with
    | some b => if rule.isLessSpecific b then some b else some rule
    | none => some rule) none

/-- Is an event logged? -/
def allows (f : LogFilter) (e : LogEvent) : Bool :=
  (f.deciding? e).any (·.threshold.admits e.level)

/-- One threshold for all events lets through what it admits. -/
theorem allows_ofThreshold (threshold : LogThreshold) (e : LogEvent) :
    (ofThreshold threshold).allows e = threshold.admits e.level := by
  simp [allows, deciding?, ofThreshold, LogRule.covers]

end LogFilter

end MarketMaking
