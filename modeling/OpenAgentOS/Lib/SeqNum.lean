import Mathlib.Algebra.Ring.Int.Defs
import Mathlib.Algebra.Ring.Nat
import Mathlib.Data.List.Chain
import Mathlib.Tactic.Common

/-!
# Sequence numbers

Numbers modulo 2^32 that count the bytes of a stream.

- `SeqNum.le`: not behind, in the sense of serial number arithmetic.
- `SeqNum.span`: how far a list of numbers has advanced in total. It is not reduced,
  so a stream may be longer than 2^32 bytes. The lists have the latest number first.
-/

namespace SeqNum

/-- `b` is less than half the circle ahead of `a`. -/
def le (a b : UInt32) : Prop := (b - a).toNat < 2 ^ 31

instance (a b : UInt32) : Decidable (le a b) := inferInstanceAs (Decidable (_ < _))

/-- The distances between neighbours, added up. -/
def span : List UInt32 → Nat
  | [] => 0
  | [_] => 0
  | b :: a :: rest => (b - a).toNat + span (a :: rest)

/-- No number is behind the one before it. -/
def Advancing (ns : List UInt32) : Prop := ns.IsChain fun b a => le a b

theorem toNat_add_sub (a : UInt32) {n : Nat} (h : n < 2 ^ 32) :
    (a + UInt32.ofNat n - a).toNat = n := by
  rw [UInt32.add_comm, UInt32.add_sub_cancel]
  exact UInt32.toNat_ofNat_of_lt h

theorem le_add (a : UInt32) {n : Nat} (h : n < 2 ^ 31) : le a (a + UInt32.ofNat n) := by
  rw [le, toNat_add_sub a (by omega)]
  exact h

/-- An advance by `n` adds `n` to the span. -/
theorem span_add {a : UInt32} {ns : List UInt32} (hhead : ns.head? = some a) {n : Nat}
    (h : n < 2 ^ 32) : span ((a + UInt32.ofNat n) :: ns) = span ns + n := by
  cases ns with
  | nil => cases hhead
  | cons b rest =>
    obtain rfl := Option.some.inj hhead
    rw [span, toNat_add_sub b h, Nat.add_comm]

theorem advancing_add {a : UInt32} {ns : List UInt32} (hhead : ns.head? = some a)
    (hns : Advancing ns) {n : Nat} (h : n < 2 ^ 31) : Advancing ((a + UInt32.ofNat n) :: ns) := by
  cases ns with
  | nil => cases hhead
  | cons b rest =>
    obtain rfl := Option.some.inj hhead
    exact List.isChain_cons_cons.mpr ⟨le_add b h, hns⟩

end SeqNum
