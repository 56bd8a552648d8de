import Mathlib.Init

/-!
# The status of the HAL

What the functions of the STM32 hardware abstraction layer return, on every platform and in
every driver.
-/

namespace EmbeddedBase.Platforms

/-- `HAL_StatusTypeDef`. -/
inductive HalStatus where
  | ok
  | error
  | busy
  | timeout
  deriving DecidableEq, Repr

end EmbeddedBase.Platforms
