import Mathlib.Algebra.Ring.Int.Defs
import Mathlib.Algebra.Ring.Nat
import Mathlib.Data.List.GetD
import Mathlib.Tactic.Common

/-!
# Byte buffers

A C array of bytes is modelled by the function from an index to the byte there,
so that code which leaves part of an array untouched keeps whatever was in it.
The bound of the array is a matter of the code that indexes it.

- `Buf.slice`, `Buf.write`: read and overwrite a range.
- `Buf.le`: a little-endian number of any width.
- `Buf.u32`: the little-endian word at an offset, as a `memcpy` into a
  `uint32_t` field reads it; `u32Byte` are the bytes a `memcpy` out of one
  stores.
- `setByte`: a word with one of its bytes replaced.
-/

/-- A byte array, by index. -/
abbrev Buf := Nat → UInt8

open Function

namespace Buf

/-- The `len` bytes from `off` on. -/
def slice (b : Buf) (off len : Nat) : List UInt8 :=
  (List.range len).map fun i => b (off + i)

/-- Overwrite the bytes from `off` on by `xs`. -/
def write (b : Buf) (off : Nat) (xs : List UInt8) : Buf := fun i =>
  if off ≤ i ∧ i < off + xs.length then xs.getD (i - off) 0 else b i

/-- The little-endian 32-bit word at `off`. -/
@[irreducible] def u32 (b : Buf) (off : Nat) : UInt32 :=
  UInt32.ofNat ((b off).toNat + (b (off + 1)).toNat * 2 ^ 8 + (b (off + 2)).toNat * 2 ^ 16 +
    (b (off + 3)).toNat * 2 ^ 24)

/-- The little-endian number in the `n` bytes from `off` on. -/
def le (b : Buf) (off : Nat) : Nat → Nat
  | 0 => 0
  | n + 1 => (b off).toNat + 2 ^ 8 * b.le (off + 1) n

@[simp] theorem length_slice (b : Buf) (off len : Nat) : (b.slice off len).length = len := by
  simp [slice]

theorem getElem_slice (b : Buf) (off len i : Nat) (h : i < (b.slice off len).length) :
    (b.slice off len)[i] = b (off + i) := by
  simp [slice]

theorem le_lt (b : Buf) (off n : Nat) : b.le off n < 2 ^ (8 * n) := by
  induction n generalizing off with
  | zero => exact Nat.one_pos
  | succ n ih =>
    have hbyte := (b off).toNat_lt
    have hrest := ih (off + 1)
    rw [le, Nat.mul_succ, Nat.pow_add]
    omega

/-- Two buffers that agree on a range have the same number there. -/
theorem le_congr {b b' : Buf} {off n : Nat} (h : ∀ i, i < n → b (off + i) = b' (off + i)) :
    b.le off n = b'.le off n := by
  induction n generalizing off with
  | zero => rfl
  | succ n ih =>
    have hrest : b.le (off + 1) n = b'.le (off + 1) n := by
      refine ih fun i hi => ?_
      rw [Nat.add_assoc, Nat.add_comm 1]
      exact h (i + 1) (Nat.succ_lt_succ hi)
    rw [le, le, hrest, show b off = b' off from h 0 (Nat.succ_pos n)]

/-- Two buffers that agree on a range have the same slice there. -/
theorem slice_congr {b b' : Buf} {off len : Nat}
    (h : ∀ i, i < len → b (off + i) = b' (off + i)) : b.slice off len = b'.slice off len :=
  List.map_congr_left fun i hi => h i (List.mem_range.mp hi)

/-- A buffer that agrees with a list has it as a slice. -/
theorem slice_eq_of_getD {b : Buf} {off : Nat} {xs : List UInt8}
    (h : ∀ i, i < xs.length → b (off + i) = xs.getD i 0) : b.slice off xs.length = xs := by
  refine List.ext_getElem (by simp) fun i h₁ h₂ => ?_
  rw [getElem_slice, h i h₂, List.getD_eq_getElem _ _ h₂]

/-- What was written is read back. -/
theorem slice_write_self (b : Buf) (off : Nat) (xs : List UInt8) :
    (b.write off xs).slice off xs.length = xs := by
  refine slice_eq_of_getD fun i hi => ?_
  rw [write, if_pos ⟨Nat.le_add_right _ _, Nat.add_lt_add_left hi _⟩, Nat.add_sub_cancel_left]

end Buf

/-- Byte `i` of the little-endian form of a 32-bit word. -/
def u32Byte (x : UInt32) (i : Nat) : UInt8 := UInt8.ofNat (x.toNat / 2 ^ (8 * i))

/-- A word stored at `off` is read back. -/
theorem Buf.u32_eq {b : Buf} {off : Nat} {x : UInt32}
    (h : ∀ i, i < 4 → b (off + i) = u32Byte x i) : b.u32 off = x := by
  have hx : x.toNat < 2 ^ 32 := x.toNat_lt
  have h0 : (b off).toNat = x.toNat % 2 ^ 8 := by
    rw [show b off = u32Byte x 0 from h 0 (by decide), u32Byte]
    simp
  have h1 : (b (off + 1)).toNat = x.toNat / 2 ^ 8 % 2 ^ 8 := by
    rw [h 1 (by decide), u32Byte]
    simp
  have h2 : (b (off + 2)).toNat = x.toNat / 2 ^ 16 % 2 ^ 8 := by
    rw [h 2 (by decide), u32Byte]
    simp
  have h3 : (b (off + 3)).toNat = x.toNat / 2 ^ 24 % 2 ^ 8 := by
    rw [h 3 (by decide), u32Byte]
    simp
  have hsum : (b off).toNat + (b (off + 1)).toNat * 2 ^ 8 + (b (off + 2)).toNat * 2 ^ 16 +
      (b (off + 3)).toNat * 2 ^ 24 = x.toNat := by
    rw [h0, h1, h2, h3]
    omega
  rw [Buf.u32, hsum, UInt32.ofNat_toNat]

/-! ## Overwriting one byte of a word -/

/-- The word with byte `j` of its little-endian form replaced. -/
def setByte (x : UInt32) (j : Nat) (v : UInt8) : UInt32 := Buf.u32 (update (u32Byte x) j v) 0

/-- The word depends on its four bytes only. -/
theorem Buf.u32_congr {b b' : Buf} {off off' : Nat} (h : ∀ i, i < 4 → b (off + i) = b' (off' + i)) :
    b.u32 off = b'.u32 off' := by
  rw [Buf.u32, Buf.u32, h 1 (by decide), h 2 (by decide), h 3 (by decide)]
  rw [show b off = b' off' from h 0 (by decide)]

/-- The bytes of a word are those it was read from. -/
theorem u32Byte_u32 (b : Buf) (off : Nat) {i : Nat} (hi : i < 4) :
    u32Byte (b.u32 off) i = b (off + i) := by
  have h0 := (b off).toNat_lt
  have h1 := (b (off + 1)).toNat_lt
  have h2 := (b (off + 2)).toNat_lt
  have h3 := (b (off + 3)).toNat_lt
  have hword : (b.u32 off).toNat = (b off).toNat + (b (off + 1)).toNat * 2 ^ 8 +
      (b (off + 2)).toNat * 2 ^ 16 + (b (off + 3)).toNat * 2 ^ 24 := by
    rw [Buf.u32]
    exact UInt32.toNat_ofNat_of_lt' (show _ < 2 ^ 32 by omega)
  rw [u32Byte, ← UInt8.toNat_inj, UInt8.toNat_ofNat', hword]
  obtain rfl | rfl | rfl | rfl : i = 0 ∨ i = 1 ∨ i = 2 ∨ i = 3 := by omega
  · simp only [Nat.mul_zero, Nat.pow_zero, Nat.div_one, Nat.add_zero]
    omega
  · omega
  · omega
  · omega

theorem setByte_ne {x : UInt32} {j : Nat} {v : UInt8} (hj : j < 4) (hv : v ≠ u32Byte x j) :
    setByte x j v ≠ x := by
  intro h
  have hbyte := u32Byte_u32 (update (u32Byte x) j v) 0 hj
  rw [Nat.zero_add, update_self] at hbyte
  exact hv (hbyte.symm.trans (congrArg (fun x => u32Byte x j) h))

/-- A word of which one byte was overwritten. -/
theorem Buf.u32_update (b : Buf) (off j : Nat) (v : UInt8) :
    Buf.u32 (update b (off + j) v) off = setByte (b.u32 off) j v := by
  refine Buf.u32_congr fun i hi => ?_
  rw [Nat.zero_add]
  by_cases hij : i = j
  · rw [hij, update_self, update_self]
  · rw [update_of_ne (by omega), update_of_ne hij, u32Byte_u32 b off hi]

/-- A byte elsewhere does not matter. -/
theorem Buf.u32_update_of_ne (b : Buf) {off k : Nat} (hk : k < off ∨ off + 4 ≤ k) (v : UInt8) :
    Buf.u32 (update b k v) off = b.u32 off :=
  Buf.u32_congr fun i hi => update_of_ne (by omega) _ _
