/-!
# Log levels

How important what is logged is, and how much is logged: everything up to a level, or nothing.
-/

namespace MarketMaking

/-- How important a log line is, the most important first. -/
inductive LogLevel where
  | error
  | warn
  | info
  | debug
  | trace
  deriving DecidableEq, Repr

/-- The name of a level. -/
def LogLevel.name : LogLevel → String
  | error => "error"
  | warn => "warn"
  | info => "info"
  | debug => "debug"
  | trace => "trace"

/-- How much is logged. -/
inductive LogThreshold where
  /-- Nothing. -/
  | off
  /-- The given level and all that are more important. -/
  | upTo (level : LogLevel)
  deriving DecidableEq, Repr

namespace LogThreshold

/-- All thresholds, each one letting through more than those before it. -/
def all : List LogThreshold :=
  [off, upTo .error, upTo .warn, upTo .info, upTo .debug, upTo .trace]

/-- The number of levels that a threshold lets through. -/
def rank : LogThreshold → Nat
  | off => 0
  | upTo .error => 1
  | upTo .warn => 2
  | upTo .info => 3
  | upTo .debug => 4
  | upTo .trace => 5

/-- The name of a threshold. -/
def name : LogThreshold → String
  | off => "off"
  | upTo level => level.name

/-- Does a threshold let a level through? -/
def admits (t : LogThreshold) (level : LogLevel) : Bool := decide ((upTo level).rank ≤ t.rank)

end LogThreshold

end MarketMaking
