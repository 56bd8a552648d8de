import Mathlib.Algebra.Order.Field.Rat
import Mathlib.Data.Int.Log
import Mathlib.Data.Rat.Floor
import Mathlib.Tactic.Positivity

/-!
# Doubles

The numbers of the format binary64, and the one that is nearest to a rational number: a tie
goes to the even significand, and what is too large becomes an infinity.
-/

namespace EmbeddedBase.Data

/-- A double; a finite one has a sign and an exact magnitude. -/
inductive Double
  | finite (negative : Bool) (magnitude : ℚ)
  | infinity (negative : Bool)
  | nan
  deriving DecidableEq

/-- The nearest integer, and the even one of two. -/
def roundEven (x : ℚ) : ℤ :=
  let below := ⌊x⌋
  if x - below < 1 / 2 ∨ x - below = 1 / 2 ∧ below % 2 = 0 then below else below + 1

/-- The exponent of the unit in the last place. -/
def unitExponent (x : ℚ) : ℤ :=
  max (Int.log 2 x - 52) (-1074)

/-- The double nearest to a number with the magnitude `x`. -/
def toDouble (negative : Bool) (x : ℚ) : Double :=
  let unit : ℚ := 2 ^ unitExponent x
  let rounded := roundEven (x / unit) * unit
  if rounded < 2 ^ 1024 then .finite negative rounded else .infinity negative

end EmbeddedBase.Data
