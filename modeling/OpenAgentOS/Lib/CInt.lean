import Mathlib.Algebra.Ring.Int.Defs
import Mathlib.Algebra.Ring.Nat
import Mathlib.Tactic.Common

/-!
# C integers of 32 bits

C values of type `int` are modelled by `Int`. Where an operation may leave the
range, the model wraps the result explicitly, as the two's complement targets
do.
-/

namespace CInt

/-- The C conversion `(int)x`: the representative modulo `2 ^ 32` nearest to zero. -/
@[irreducible] def toInt32 (x : Int) : Int := Int.bmod x (2 ^ 32)

/-- A value in range is kept. -/
theorem toInt32_eq_self {x : Int} (hlo : -2 ^ 31 ≤ x) (hhi : x < 2 ^ 31) : toInt32 x = x := by
  rw [toInt32, Int.bmod_eq_of_le (by omega) (by omega)]

/-- The C conversion `(unsigned int)x`. -/
@[irreducible] def toUint32 (x : Int) : Nat := (x % 2 ^ 32).toNat

end CInt
