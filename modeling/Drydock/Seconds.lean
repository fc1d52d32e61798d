/-
  Seconds as floats, which is how deadlines are given.
-/
import Drydock.Engine
import Drydock.Number.Format

namespace Drydock

instance : Duration Float where
  zero := 0
  between started now := now - started
  le a b := a ≤ b
  text := Number.floatText

end Drydock
