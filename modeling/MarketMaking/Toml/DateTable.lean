import MarketMaking.Toml.Value

/-!
# TOML tables that stand for dates

A table whose first key is `dateKey` stands for the date or time that its text under that key
spells; its other entries say nothing. A table that spells none is malformed.
-/

namespace MarketMaking.Toml

/-- The key that makes a table stand for a date or time. -/
def dateKey : String := "$__toml_private_datetime"

/-- The date or time that is spelled by the value of `dateKey`. -/
def spelledDate? : Value → Option Value
  | .string text => (Datetime.ofText? text).map .datetime
  | _ => none

mutual

/-- A value with dates and times in place of the tables that stand for them. -/
def Value.readDates? : Value → Option Value
  | .array items => (readItemDates? items).map .array
  | .tables items => (readItemDates? items).map .tables
  | .table origin entries =>
      match entries with
      | [] => some (.table origin [])
      | (key, value) :: rest =>
          if key = dateKey then spelledDate? value
          else (readEntryDates? ((key, value) :: rest)).map (.table origin)
  | value => some value

/-- Values with dates and times in place of the tables that stand for them. -/
def readItemDates? : List Value → Option (List Value)
  | [] => some []
  | item :: items => do return (← item.readDates?) :: (← readItemDates? items)

/-- Entries with dates and times in place of the tables that stand for them. -/
def readEntryDates? : List (String × Value) → Option (List (String × Value))
  | [] => some []
  | (key, value) :: entries => do
      return (key, ← value.readDates?) :: (← readEntryDates? entries)

end

end MarketMaking.Toml
