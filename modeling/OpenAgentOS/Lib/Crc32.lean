import Mathlib.Logic.Function.Iterate
import Mathlib.Tactic.Common

/-!
# CRC-32

The reflected CRC-32 with polynomial `0xedb88320`, computed bit by bit from the
all-ones state and complemented at the end.

`crc32_set_ne`: two byte strings that differ in one byte have different checksums. Each
step of the register can be undone, so what the one byte has changed is never lost again.
-/

open Function

namespace Crc32

/-- One bit: shift right, and fold the polynomial in when a one falls out. -/
def stepBit (crc : UInt32) : UInt32 :=
  if crc &&& 1 ≠ 0 then (crc >>> 1) ^^^ 0xedb88320 else crc >>> 1

/-- One byte: eight bits. -/
def stepByte (crc : UInt32) (b : UInt8) : UInt32 :=
  Nat.iterate stepBit 8 (crc ^^^ b.toUInt32)

/-- The checksum of a byte string. -/
def crc32 (data : List UInt8) : UInt32 := ~~~ data.foldl stepByte 0xffffffff

/-- The standard check value. -/
example : crc32 ("123456789".toList.map Char.toUInt8) = 0xcbf43926 := by decide +kernel

/-! ## Errors in one byte -/

/-- The bit that falls out. -/
theorem and_one_ne_zero_iff (x : UInt32) : x &&& 1 ≠ 0 ↔ x.toBitVec.getLsbD 0 = true := by
  have hlow : (x &&& 1).toBitVec = BitVec.setWidth 32 (BitVec.ofBool (x.toBitVec.getLsbD 0)) := by
    rw [UInt32.toBitVec_and]
    exact BitVec.and_one_eq_setWidth_ofBool_getLsbD
  rw [ne_eq, ← UInt32.toBitVec_inj, hlow]
  cases x.toBitVec.getLsbD 0
  · decide
  · decide

/-- The bits after a step: each is the next higher one, with the polynomial folded in. -/
theorem getLsbD_stepBit (x : UInt32) (i : Nat) :
    (stepBit x).toBitVec.getLsbD i =
      (x.toBitVec.getLsbD (i + 1) ^^ (x.toBitVec.getLsbD 0 && (0xedb88320#32).getLsbD i)) := by
  have hshift : (x >>> 1).toBitVec.getLsbD i = x.toBitVec.getLsbD (i + 1) := by
    rw [UInt32.toBitVec_shiftRight]
    show (x.toBitVec >>> (1 : Nat)).getLsbD i = _
    rw [BitVec.getLsbD_ushiftRight, Nat.add_comm]
  rw [stepBit]
  split
  · rename_i hlow
    rw [UInt32.toBitVec_xor, BitVec.getLsbD_xor, hshift, (and_one_ne_zero_iff x).mp hlow,
      Bool.true_and]
    rfl
  · rename_i hlow
    rw [(and_one_ne_zero_iff x).not, Bool.not_eq_true] at hlow
    rw [hshift, hlow, Bool.false_and, Bool.xor_false]

/-- **A step loses nothing**: the highest bit of the result is the one that fell out. -/
theorem stepBit_injective : Injective stepBit := by
  intro x y h
  have hbit : ∀ i, (x.toBitVec.getLsbD (i + 1) ^^
      (x.toBitVec.getLsbD 0 && (0xedb88320#32).getLsbD i)) =
      (y.toBitVec.getLsbD (i + 1) ^^ (y.toBitVec.getLsbD 0 && (0xedb88320#32).getLsbD i)) := by
    intro i
    rw [← getLsbD_stepBit, ← getLsbD_stepBit, h]
  have hzero : x.toBitVec.getLsbD 0 = y.toBitVec.getLsbD 0 := by
    have htop := hbit 31
    rw [BitVec.getLsbD_of_ge _ 32 (Nat.le_refl 32), BitVec.getLsbD_of_ge _ 32 (Nat.le_refl 32)] at htop
    simpa using htop
  rw [← UInt32.toBitVec_inj]
  refine BitVec.eq_of_getLsbD_eq fun i _ => ?_
  cases i with
  | zero => exact hzero
  | succ i =>
    have hi := hbit i
    rw [hzero] at hi
    exact Bool.xor_left_inj.mp hi

theorem stepByte_left_injective (b : UInt8) : Injective fun crc => stepByte crc b := by
  intro x y h
  exact UInt32.xor_left_inj _ |>.mp (stepBit_injective.iterate 8 h)

theorem stepByte_right_injective (crc : UInt32) : Injective (stepByte crc) := by
  intro a b h
  have hword : a.toUInt32 = b.toUInt32 := UInt32.xor_right_inj _ |>.mp (stepBit_injective.iterate 8 h)
  exact UInt8.toUInt32_inj.mp hword

theorem foldl_stepByte_injective (data : List UInt8) :
    Injective fun crc => data.foldl stepByte crc := by
  induction data with
  | nil => exact fun _ _ h => h
  | cons b data ih => exact ih.comp (stepByte_left_injective b)

/-- **A single byte that is changed changes the checksum.** -/
theorem crc32_set_ne {data : List UInt8} {i : Nat} (hi : i < data.length) {b : UInt8}
    (hb : b ≠ data[i]) : crc32 (data.set i b) ≠ crc32 data := by
  intro h
  have hold : data = data.take i ++ data[i] :: data.drop (i + 1) := by
    rw [List.getElem_cons_drop, List.take_append_drop]
  have hnew : data.set i b = data.take i ++ b :: data.drop (i + 1) := by
    rw [List.set_eq_take_append_cons_drop, if_pos hi]
  have hfold : (data.take i ++ b :: data.drop (i + 1)).foldl stepByte 0xffffffff
      = (data.take i ++ data[i] :: data.drop (i + 1)).foldl stepByte 0xffffffff := by
    rw [← hnew, ← hold]
    exact UInt32.not_inj.mp h
  rw [List.foldl_append, List.foldl_append, List.foldl_cons, List.foldl_cons] at hfold
  exact hb (stepByte_right_injective _ (foldl_stepByte_injective _ hfold))

end Crc32
