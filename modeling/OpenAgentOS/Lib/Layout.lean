import OpenAgentOS.Lib.Bytes

/-!
# Records in byte buffers

A packed record is written field by field at fixed offsets, and read back field by field.

- `u32Bytes`: a word as it is packed.
- `Buf.write_inside`, `Buf.write_outside`, `Buf.write_congr`: one byte after a write. A field is
  followed through the writes of the other fields with them. `Buf.write_write`: two writes of one
  range.
- `Buf.u32_write`, `Buf.slice_write_outside`, `Buf.slice_write_start`: a field after a write.
- `Buf.slice_append`: two ranges side by side.
-/

/-- The four bytes of a word, the lowest first. -/
def u32Bytes (x : UInt32) : List UInt8 := (List.range 4).map (u32Byte x)

@[simp] theorem length_u32Bytes (x : UInt32) : (u32Bytes x).length = 4 := by simp [u32Bytes]

theorem getD_u32Bytes (x : UInt32) {i : Nat} (hi : i < 4) : (u32Bytes x).getD i 0 = u32Byte x i := by
  rw [u32Bytes, List.getD_eq_getElem _ _ (by simpa using hi), List.getElem_map, List.getElem_range]

namespace Buf

variable {b b' : Buf} {off i n : Nat} {xs : List UInt8}

theorem write_inside (b : Buf) (off : Nat) (h : i < xs.length) :
    b.write off xs (off + i) = xs.getD i 0 := by
  rw [write, if_pos ⟨Nat.le_add_right _ _, Nat.add_lt_add_left h _⟩, Nat.add_sub_cancel_left]

theorem write_outside (b : Buf) (h : i < off ∨ off + xs.length ≤ i) : b.write off xs i = b i :=
  if_neg (by omega)

/-- A write keeps what two buffers agree on. -/
theorem write_congr (h : b i = b' i) : b.write off xs i = b'.write off xs i := by
  rw [write, write, h]

theorem write_nil (b : Buf) (off : Nat) : b.write off [] = b :=
  funext fun _ => write_outside b (by rw [List.length_nil]; omega)

/-- Of two writes of one range, the second one counts. -/
theorem write_write (b : Buf) (off : Nat) {ys : List UInt8} (h : xs.length = ys.length) :
    (b.write off xs).write off ys = b.write off ys := by
  funext i
  by_cases hi : off ≤ i ∧ i < off + ys.length
  · rw [write, if_pos hi, write, if_pos hi]
  · rw [write_outside _ (by omega), write_outside _ (by omega), write_outside _ (by omega)]

/-- The word that was written. -/
theorem u32_write (b : Buf) (off : Nat) (x : UInt32) : (b.write off (u32Bytes x)).u32 off = x :=
  u32_eq fun _ hi => (write_inside b off (by simpa using hi)).trans (getD_u32Bytes x hi)

/-- A word beside the range that was written. -/
theorem u32_write_outside (b : Buf) {k : Nat} (h : k + 4 ≤ off ∨ off + xs.length ≤ k) :
    (b.write off xs).u32 k = b.u32 k :=
  u32_congr fun _ hi => write_outside b (by omega)

/-- A range beside the one that was written. -/
theorem slice_write_outside (b : Buf) {k : Nat} (h : k + n ≤ off ∨ off + xs.length ≤ k) :
    (b.write off xs).slice k n = b.slice k n :=
  slice_congr fun _ hi => write_outside b (by omega)

/-- A range of a buffer that starts with a list. -/
theorem slice_write_start (b : Buf) (h : off + n ≤ xs.length) :
    (b.write 0 xs).slice off n = (xs.drop off).take n := by
  have hlen : ((xs.drop off).take n).length = n := by
    rw [List.length_take, List.length_drop]
    omega
  conv_lhs => rw [← hlen]
  refine slice_eq_of_getD fun i hi => ?_
  rw [hlen] at hi
  have hinside : b.write 0 xs (0 + (off + i)) = xs.getD (off + i) 0 := write_inside b 0 (by omega)
  rw [Nat.zero_add] at hinside
  rw [hinside, List.getD_eq_getElem _ _ (by omega), List.getD_eq_getElem _ _ (by omega),
    List.getElem_take, List.getElem_drop]

/-- Two ranges side by side. -/
theorem slice_append (b : Buf) (off m n : Nat) :
    b.slice off m ++ b.slice (off + m) n = b.slice off (m + n) := by
  rw [slice, slice, slice, List.range_add, List.map_append, List.map_map]
  congr 2
  funext i
  exact congrArg b (Nat.add_assoc off m i)

end Buf
