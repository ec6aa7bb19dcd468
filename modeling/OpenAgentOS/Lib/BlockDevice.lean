import OpenAgentOS.Lib.Bytes
import Mathlib.Logic.Function.Basic

/-!
# A block device

The device returns for each sector the last block written to it. Software that
writes a disk is modelled by the sequence of its sector writes, so that a power
cut after any number of them is a prefix of that sequence.

- `Disk.writeAll`: the disk after a sequence of writes.
- `seqWrites`: consecutive blocks from a sector on, and what each sector holds
  after them.
- `blocks`: a byte string cut into zero-padded blocks; `HoldsBytes.read_eq` reads it
  back.
- `Disk.corrupt`: a single byte of the disk is changed.
-/

/-- `VIRTIO_SECTOR_SIZE` and most other devices: 512 bytes per sector. -/
abbrev sectorSize : Nat := 512

/-- One sector; only the bytes below `sectorSize` are on the device. -/
abbrev Sector := Buf

/-- The content of every sector. -/
abbrev Disk := Nat → Sector

/-- One sector write. -/
abbrev SectorWrite := Nat × Sector

open Function

namespace Disk

/-- The disk after a sequence of writes. -/
def writeAll (d : Disk) (ws : List SectorWrite) : Disk :=
  ws.foldl (fun d w => update d w.1 w.2) d

theorem writeAll_append (d : Disk) (ws vs : List SectorWrite) :
    d.writeAll (ws ++ vs) = (d.writeAll ws).writeAll vs :=
  List.foldl_append

theorem writeAll_singleton_self (d : Disk) (s : Nat) (b : Sector) : d.writeAll [(s, b)] s = b := by
  simp [writeAll]

/-- A sector no write goes to keeps its content. -/
theorem writeAll_of_ne {ws : List SectorWrite} {t : Nat} (h : ∀ w ∈ ws, w.1 ≠ t) (d : Disk) :
    d.writeAll ws t = d t := by
  induction ws generalizing d with
  | nil => rfl
  | cons w ws ih =>
    obtain ⟨hw, hws⟩ := List.forall_mem_cons.mp h
    show Disk.writeAll (update d w.1 w.2) ws t = d t
    rw [ih hws, update_of_ne hw.symm]

end Disk

/-- Writes of consecutive blocks from sector `s` on. -/
def seqWrites (s : Nat) : List Sector → List SectorWrite
  | [] => []
  | b :: bs => (s, b) :: seqWrites (s + 1) bs

theorem seqWrites_append (s : Nat) (bs cs : List Sector) :
    seqWrites s (bs ++ cs) = seqWrites s bs ++ seqWrites (s + bs.length) cs := by
  induction bs generalizing s with
  | nil => rfl
  | cons b bs ih =>
    rw [List.cons_append, seqWrites, ih, seqWrites, List.cons_append, List.length_cons,
      Nat.add_right_comm, Nat.add_assoc]

@[simp] theorem length_seqWrites (s : Nat) (bs : List Sector) :
    (seqWrites s bs).length = bs.length := by
  induction bs generalizing s with
  | nil => rfl
  | cons b bs ih => rw [seqWrites, List.length_cons, ih, List.length_cons]

theorem seqWrites_take (s k : Nat) (bs : List Sector) :
    (seqWrites s bs).take k = seqWrites s (bs.take k) := by
  induction bs generalizing s k with
  | nil => simp [seqWrites]
  | cons b bs ih =>
    cases k with
    | zero => rfl
    | succ k => rw [seqWrites, List.take_succ_cons, ih, List.take_succ_cons, seqWrites]

/-- The writes of a block list go to the sectors from `s` on, in this order. -/
theorem seqWrites_fst_mem {s : Nat} {bs : List Sector} {w : SectorWrite}
    (h : w ∈ seqWrites s bs) : s ≤ w.1 := by
  induction bs generalizing s with
  | nil => exact absurd h List.not_mem_nil
  | cons b bs ih =>
    cases h with
    | head => exact Nat.le_refl s
    | tail _ h => exact Nat.le_trans (Nat.le_succ s) (ih h)

/-- After consecutive writes, a sector in the range holds its block. -/
theorem writeAll_seqWrites_getElem (d : Disk) (s : Nat) (bs : List Sector) {i : Nat}
    (hi : i < bs.length) : d.writeAll (seqWrites s bs) (s + i) = bs[i] := by
  induction bs generalizing s d i with
  | nil => exact absurd hi (Nat.not_lt_zero i)
  | cons b bs ih =>
    show Disk.writeAll (update d s b) (seqWrites (s + 1) bs) (s + i) = _
    cases i with
    | zero =>
      rw [Disk.writeAll_of_ne (fun w hw => ?_)]
      · exact update_self s b d
      · have := seqWrites_fst_mem hw
        omega
    | succ i =>
      rw [show s + (i + 1) = s + 1 + i by omega]
      exact ih _ _ (Nat.lt_of_succ_lt_succ hi)

/-- After consecutive writes, a sector below the range keeps its content. -/
theorem writeAll_seqWrites_of_lt (d : Disk) {s t : Nat} (bs : List Sector) (ht : t < s) :
    d.writeAll (seqWrites s bs) t = d t :=
  Disk.writeAll_of_ne (fun w hw => by have := seqWrites_fst_mem hw; omega) d

/-- After consecutive writes, a sector above the range keeps its content. -/
theorem writeAll_seqWrites_of_ge (d : Disk) {s t : Nat} (bs : List Sector)
    (ht : s + bs.length ≤ t) : d.writeAll (seqWrites s bs) t = d t := by
  induction bs generalizing s d with
  | nil => rfl
  | cons b bs ih =>
    rw [List.length_cons] at ht
    show Disk.writeAll (update d s b) (seqWrites (s + 1) bs) t = d t
    rw [ih _ (by omega), update_of_ne (by omega)]

/-! ## Byte strings on consecutive sectors -/

/-- Sectors that `size` bytes take up. -/
def sectorsFor (size : Nat) : Nat := (size + sectorSize - 1) / sectorSize

/-- A byte string cut into blocks, the last one padded with zeroes. -/
def blocks (xs : List UInt8) : List Sector :=
  (List.range (sectorsFor xs.length)).map fun k j => xs.getD (sectorSize * k + j) 0

/-- The first `size` bytes of the sectors from `s` on, sector by sector. -/
def Disk.read (d : Disk) (s size : Nat) : List UInt8 :=
  (List.range (sectorsFor size)).flatMap fun k =>
    (d (s + k)).slice 0 (min (size - sectorSize * k) sectorSize)

@[simp] theorem length_blocks (xs : List UInt8) :
    (blocks xs).length = sectorsFor xs.length := by
  simp [blocks]

theorem getElem_blocks (xs : List UInt8) (k : Nat) (h : k < (blocks xs).length) :
    (blocks xs)[k] = fun j => xs.getD (sectorSize * k + j) 0 := by
  simp [blocks]

theorem sectorsFor_lt_iff {k size : Nat} : k < sectorsFor size ↔ sectorSize * k < size := by
  unfold sectorsFor sectorSize
  omega

/-- The sectors hold `xs`: each occupied byte is the one of `xs`. -/
def HoldsBytes (d : Disk) (s : Nat) (xs : List UInt8) : Prop :=
  ∀ k, k < sectorsFor xs.length → ∀ j, j < sectorSize → sectorSize * k + j < xs.length →
    d (s + k) j = xs.getD (sectorSize * k + j) 0

/-- Concatenating the pieces of `xs` of one sector each gives `xs` back. -/
theorem flatMap_pieces (xs : List UInt8) (n : Nat) :
    ((List.range n).flatMap fun k =>
      (xs.drop (sectorSize * k)).take sectorSize) = xs.take (sectorSize * n) := by
  induction n with
  | zero => simp
  | succ n ih =>
    rw [List.range_succ, List.flatMap_append, ih, List.flatMap_singleton, Nat.mul_succ,
      List.take_add]

/-- Sectors that hold `xs` are read as `xs`. -/
theorem HoldsBytes.read_eq {d : Disk} {s : Nat} {xs : List UInt8} (h : HoldsBytes d s xs) :
    d.read s xs.length = xs := by
  have hpiece : ∀ k ∈ List.range (sectorsFor xs.length),
      (d (s + k)).slice 0 (min (xs.length - sectorSize * k) sectorSize)
        = (xs.drop (sectorSize * k)).take sectorSize := by
    intro k hk
    have hk' := List.mem_range.mp hk
    refine List.ext_getElem (by simp [Nat.min_comm]) fun j h₁ h₂ => ?_
    simp only [Buf.length_slice] at h₁
    rw [Buf.getElem_slice, List.getElem_take, List.getElem_drop, Nat.zero_add,
      h k hk' j (by omega) (by omega), List.getD_eq_getElem]
  rw [Disk.read, List.flatMap_def, List.map_congr_left hpiece, ← List.flatMap_def,
    flatMap_pieces]
  refine List.take_of_length_le ?_
  exact Nat.not_lt.mp (sectorsFor_lt_iff.not.mp (Nat.lt_irrefl (sectorsFor xs.length)))

/-- Byte `i` of what the sectors hold lies in sector `i / 512`. -/
theorem holdsBytes_of_getD {d : Disk} {s : Nat} {xs : List UInt8}
    (h : ∀ i, i < xs.length → xs.getD i 0 = d (s + i / sectorSize) (i % sectorSize)) :
    HoldsBytes d s xs := by
  intro k _ j hj hlt
  rw [h _ hlt, Nat.mul_add_div (by decide), Nat.div_eq_of_lt hj, Nat.add_zero, Nat.mul_add_mod,
    Nat.mod_eq_of_lt hj]

/-- Reading is byte by byte. -/
theorem Disk.read_eq_map (d : Disk) (s size : Nat) :
    d.read s size = (List.range size).map fun i => d (s + i / sectorSize) (i % sectorSize) := by
  have hholds : HoldsBytes d s
      ((List.range size).map fun i => d (s + i / sectorSize) (i % sectorSize)) :=
    holdsBytes_of_getD fun i hi => by
      rw [List.getD_eq_getElem _ _ hi, List.getElem_map, List.getElem_range]
  have hread := hholds.read_eq
  rwa [List.length_map, List.length_range] at hread

/-- Reading looks at the sectors from `s` on only. -/
theorem Disk.read_congr {d d' : Disk} {s : Nat} (h : ∀ k, d (s + k) = d' (s + k)) (size : Nat) :
    d.read s size = d'.read s size := by
  rw [Disk.read_eq_map, Disk.read_eq_map]
  exact List.map_congr_left fun i _ => by rw [h]

@[simp] theorem Disk.length_read (d : Disk) (s size : Nat) : (d.read s size).length = size := by
  simp [Disk.read_eq_map]

/-- Sectors hold what is read from them. -/
theorem holdsBytes_read (d : Disk) (s size : Nat) : HoldsBytes d s (d.read s size) :=
  holdsBytes_of_getD fun i hi => by
    rw [List.getD_eq_getElem _ _ hi]
    simp only [Disk.read_eq_map, List.getElem_map, List.getElem_range]

/-! ## A byte that is changed -/

namespace Disk

/-- The disk with the byte at `place`, a sector and an offset, replaced. -/
def corrupt (d : Disk) (place : Nat × Nat) (v : UInt8) : Disk :=
  update d place.1 (update (d place.1) place.2 v)

theorem corrupt_self (d : Disk) (s off : Nat) (v : UInt8) :
    d.corrupt (s, off) v s = update (d s) off v := update_self _ _ _

theorem corrupt_of_ne (d : Disk) {place : Nat × Nat} {t : Nat} (h : t ≠ place.1) (v : UInt8) :
    d.corrupt place v t = d t := update_of_ne h _ _

/-- A byte that is changed in what is read. -/
theorem read_corrupt (d : Disk) (s size j : Nat) (v : UInt8) :
    (d.corrupt (s + j / sectorSize, j % sectorSize) v).read s size = (d.read s size).set j v := by
  rw [Disk.read_eq_map, Disk.read_eq_map]
  refine List.ext_getElem (by simp) fun i h₁ h₂ => ?_
  rw [List.getElem_map, List.getElem_range, List.getElem_set, List.getElem_map, List.getElem_range]
  by_cases hij : j = i
  · rw [if_pos hij, ← hij, corrupt_self, update_self]
  · rw [if_neg hij]
    by_cases hdiv : i / sectorSize = j / sectorSize
    · have hmod : i % sectorSize ≠ j % sectorSize := by
        intro hmod
        have := Nat.div_add_mod i sectorSize
        have := Nat.div_add_mod j sectorSize
        rw [hdiv, hmod] at *
        omega
      rw [hdiv, corrupt_self, update_of_ne hmod]
    · rw [corrupt_of_ne d (show s + i / sectorSize ≠ s + j / sectorSize by omega)]
end Disk
