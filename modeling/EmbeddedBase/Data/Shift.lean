import Mathlib.Data.List.Basic

/-!
# Shifts with a defined result

A shift in C is defined for amounts below the width of the shifted operand.  Here the other
amounts have no result, so a computation that has one performed only defined shifts.
-/

namespace EmbeddedBase.Data

variable {w : Nat}

/-- `operand << amount`. -/
def checkedShiftLeft (operand : BitVec w) (amount : Nat) : Option (BitVec w) :=
  if amount < w then some (operand <<< amount) else none

/-- `operand >> amount` of an unsigned operand. -/
def checkedShiftRight (operand : BitVec w) (amount : Nat) : Option (BitVec w) :=
  if amount < w then some (operand >>> amount) else none

theorem checkedShiftLeft_of_lt (operand : BitVec w) {amount : Nat} (below : amount < w) :
    checkedShiftLeft operand amount = some (operand <<< amount) :=
  if_pos below

theorem checkedShiftLeft_of_ge (operand : BitVec w) {amount : Nat} (above : w ≤ amount) :
    checkedShiftLeft operand amount = none :=
  if_neg (Nat.not_lt.mpr above)

theorem checkedShiftLeft_eq_some_iff {operand result : BitVec w} {amount : Nat} :
    checkedShiftLeft operand amount = some result ↔ amount < w ∧ operand <<< amount = result := by
  rw [checkedShiftLeft]
  by_cases below : amount < w
  · simp [below]
  · simp [below]

theorem checkedShiftRight_of_lt (operand : BitVec w) {amount : Nat} (below : amount < w) :
    checkedShiftRight operand amount = some (operand >>> amount) :=
  if_pos below

end EmbeddedBase.Data
