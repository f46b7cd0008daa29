import MarketMaking.Text.Alphabetic
import MarketMaking.Text.Numeric

/-!
# Letters and digits

The characters of all scripts that are alphabetic or numeric.
-/

namespace MarketMaking.Text

/-- A letter or a digit of any script. -/
def isAlphanumeric (c : Char) : Bool := isAlphabetic c || isNumeric c

/-- The letters and digits of ASCII are letters and digits. -/
theorem isAlphanumeric_of_isAlphanum {c : Char} (h : c.isAlphanum = true) :
    isAlphanumeric c = true := by
  rcases Bool.or_eq_true _ _ |>.mp h with h | h
  · simp [isAlphanumeric, isAlphabetic_of_isAlpha h]
  · simp [isAlphanumeric, isNumeric_of_isDigit h]

end MarketMaking.Text
