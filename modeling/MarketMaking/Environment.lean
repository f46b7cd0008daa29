import MarketMaking.Decimal.Reading

/-!
# Environment variables

Named texts, and the numbers that they may hold. A text that does not hold what is asked for counts
as not set.
-/

namespace MarketMaking

/-- The variables that are set. -/
abbrev Environment := List (String × String)

namespace Environment

/-- The text of a variable. -/
def get? (env : Environment) (name : String) : Option String := env.lookup name

/-- The text behind `name` and an equals sign in a line `NAME=value` of the environment. A name
without an equals sign finds the variable of that name; one with an equals sign goes on into the
value. -/
def behind? (env : Environment) (name : String) : Option String :=
  env.findSome? fun (key, value) =>
    let line := (key ++ "=" ++ value).toList
    let start := (name ++ "=").toList
    if start.isPrefixOf line then some (String.ofList (line.drop start.length)) else none

/-- The number that a variable holds, or `fallback`. -/
def float (env : Environment) (name : String) (fallback : Float) : Float :=
  ((env.get? name).bind Decimal.readFloat?).getD fallback

/-- The natural number that a variable holds, or `fallback`. -/
def nat (env : Environment) (name : String) (fallback : Nat) : Nat :=
  ((env.get? name).bind Decimal.readNat?).getD fallback

end Environment

end MarketMaking
