import Mathlib.Data.Int.ModEq
import Mathlib.Data.List.GetD
import Mathlib.Logic.Function.Basic
import Mathlib.Tactic.Common

/-!
# Ring buffers with an explicit head, tail and count

A ring buffer of capacity `n` keeps three indices next to its slots, as the
usual C implementation does. Only `head` and `count` determine what is stored;
`tail` is redundant and has to stay equal to `head + count` modulo `n`.

- `RingBuffer.contents`: the stored elements, oldest first. This is the FIFO
  list the buffer stands for.
- `RingBuffer.Valid`: the index discipline. All operations keep it.
- `clear`, `pushBack`, `popFront`, `rebuild`: the four ways to change a ring,
  each with one lemma saying what it does to `contents`.

Unoccupied slots may hold anything: no lemma below mentions them.
-/

universe u

/-- A ring buffer of capacity `n` over `α`, with the redundant `tail` index. -/
structure RingBuffer (α : Type u) (n : Nat) where
  slots : Fin n → α
  head : Nat
  tail : Nat
  count : Nat

open Function

namespace RingBuffer

variable {α : Type u} {n : Nat} [NeZero n]

/-- The element `i` places behind the oldest one. -/
def nth (r : RingBuffer α n) (i : Nat) : α :=
  r.slots (Fin.ofNat n (r.head + i))

/-- The stored elements in FIFO order, oldest first. -/
def contents (r : RingBuffer α n) : List α :=
  (List.range r.count).map r.nth

/-- The index discipline: the head is a slot, the ring is not overfull, and the
tail is where `head` and `count` say it is. -/
structure Valid (r : RingBuffer α n) : Prop where
  head_lt : r.head < n
  count_le : r.count ≤ n
  tail_eq : r.tail = (r.head + r.count) % n

/-- Forget everything; the slots keep their old values. -/
def clear (r : RingBuffer α n) : RingBuffer α n :=
  { r with head := 0, tail := 0, count := 0 }

/-- Store `x` at the tail and advance it. -/
def pushBack (r : RingBuffer α n) (x : α) : RingBuffer α n :=
  { r with
    slots := update r.slots (Fin.ofNat n r.tail) x
    tail := (r.tail + 1) % n
    count := r.count + 1 }

/-- The element at the head (meaningful when the ring is not empty). -/
def front (r : RingBuffer α n) : α :=
  r.slots (Fin.ofNat n r.head)

/-- Advance the head past the oldest element. -/
def popFront (r : RingBuffer α n) : RingBuffer α n :=
  { r with head := (r.head + 1) % n, count := r.count - 1 }

/-- Lay `xs` out from slot `0` and make it the whole contents. -/
def rebuild (r : RingBuffer α n) (xs : List α) : RingBuffer α n where
  slots := fun i => xs.getD i (r.slots i)
  head := 0
  tail := xs.length % n
  count := xs.length

/-! ## Index arithmetic -/

/-- Two offsets from one head meet in the same slot only when they agree. -/
theorem ofNat_add_inj {h i j : Nat} (hi : i < n) (hj : j < n)
    (heq : Fin.ofNat n (h + i) = Fin.ofNat n (h + j)) : i = j := by
  have hmod : (h + i) % n = (h + j) % n := congrArg Fin.val heq
  have hcancel : i % n = j % n := Nat.ModEq.add_left_cancel' h hmod
  rwa [Nat.mod_eq_of_lt hi, Nat.mod_eq_of_lt hj] at hcancel

/-- Reducing an index modulo the capacity does not change its slot. -/
theorem ofNat_mod_add (k i : Nat) :
    Fin.ofNat n (k % n + i) = Fin.ofNat n (k + i) := by
  apply Fin.ext
  show (k % n + i) % n = (k + i) % n
  rw [Nat.mod_add_mod]

/-! ## What the operations do to the contents -/

@[simp] theorem length_contents (r : RingBuffer α n) :
    r.contents.length = r.count := by
  simp [contents]

/-- A ring without elements stands for the empty list. -/
theorem contents_eq_nil {r : RingBuffer α n} (h : r.count = 0) : r.contents = [] := by
  rw [contents, h]
  rfl

@[simp] theorem contents_clear (r : RingBuffer α n) : r.clear.contents = [] := rfl

theorem valid_clear (r : RingBuffer α n) : r.clear.Valid where
  head_lt := Nat.pos_of_neZero n
  count_le := Nat.zero_le n
  tail_eq := (Nat.zero_mod n).symm

/-- Writing at the tail leaves the occupied slots alone. -/
theorem nth_pushBack_of_lt {r : RingBuffer α n} (hv : r.Valid) (x : α)
    (hroom : r.count < n) {i : Nat} (hi : i < r.count) :
    (r.pushBack x).nth i = r.nth i := by
  show update r.slots (Fin.ofNat n r.tail) x (Fin.ofNat n (r.head + i)) = _
  refine update_of_ne (fun heq => ?_) _ _
  have htail : Fin.ofNat n (r.head + i) = Fin.ofNat n (r.head + r.count) := by
    rw [heq, hv.tail_eq]
    exact ofNat_mod_add (r.head + r.count) 0
  have : i = r.count := ofNat_add_inj (hi.trans hroom) hroom htail
  omega

/-- The freshly pushed element is the last one. -/
theorem nth_pushBack_count {r : RingBuffer α n} (hv : r.Valid) (x : α) :
    (r.pushBack x).nth r.count = x := by
  show update r.slots (Fin.ofNat n r.tail) x
    (Fin.ofNat n (r.head + r.count)) = x
  have htail : Fin.ofNat n r.tail = Fin.ofNat n (r.head + r.count) := by
    rw [hv.tail_eq]
    exact ofNat_mod_add (r.head + r.count) 0
  rw [htail, update_self]

/-- **Push appends**: a ring with room takes `x` at its end. -/
theorem contents_pushBack {r : RingBuffer α n} (hv : r.Valid) (x : α)
    (hroom : r.count < n) :
    (r.pushBack x).contents = r.contents ++ [x] := by
  show (List.range (r.count + 1)).map (r.pushBack x).nth = _
  rw [List.range_succ, List.map_append, List.map_singleton, nth_pushBack_count hv]
  refine congrArg (· ++ [x]) (List.map_congr_left fun i hi => ?_)
  exact nth_pushBack_of_lt hv x hroom (List.mem_range.mp hi)

theorem valid_pushBack {r : RingBuffer α n} (hv : r.Valid) (x : α)
    (hroom : r.count < n) : (r.pushBack x).Valid where
  head_lt := hv.head_lt
  count_le := hroom
  tail_eq := by
    show (r.tail + 1) % n = (r.head + (r.count + 1)) % n
    rw [hv.tail_eq, Nat.mod_add_mod, Nat.add_assoc]

/-- **Pop removes the oldest**: the contents are the front followed by what the
popped ring stands for. -/
theorem contents_popFront {r : RingBuffer α n} (hne : 0 < r.count) :
    r.contents = r.front :: r.popFront.contents := by
  obtain ⟨c, hc⟩ : ∃ c, r.count = c + 1 := ⟨r.count - 1, by omega⟩
  have hpop : r.popFront.count = c := by
    show r.count - 1 = c
    omega
  rw [contents, contents, hc, hpop, List.range_succ_eq_map, List.map_cons, List.map_map]
  refine congrArg₂ List.cons rfl (List.map_congr_left fun i _ => ?_)
  show r.slots (Fin.ofNat n (r.head + (i + 1))) =
    r.slots (Fin.ofNat n ((r.head + 1) % n + i))
  rw [ofNat_mod_add]
  congr 2
  omega

theorem valid_popFront {r : RingBuffer α n} (hv : r.Valid) (hne : 0 < r.count) :
    r.popFront.Valid where
  head_lt := Nat.mod_lt _ (Nat.pos_of_neZero n)
  count_le := (Nat.sub_le _ _).trans hv.count_le
  tail_eq := by
    show r.tail = ((r.head + 1) % n + (r.count - 1)) % n
    rw [hv.tail_eq, Nat.mod_add_mod]
    congr 1
    omega

/-- **Rebuilding** makes the given list the contents, if it fits. -/
theorem contents_rebuild (r : RingBuffer α n) {xs : List α} (hfit : xs.length ≤ n) :
    (r.rebuild xs).contents = xs := by
  refine List.ext_getElem (by simp [rebuild]) fun i h₁ h₂ => ?_
  have hi : i < n := h₂.trans_le hfit
  simp only [contents, List.getElem_map, List.getElem_range]
  show xs.getD (Fin.ofNat n (0 + i)) _ = xs[i]
  have hidx : (Fin.ofNat n (0 + i) : Nat) = i := by
    show (0 + i) % n = i
    rw [Nat.zero_add, Nat.mod_eq_of_lt hi]
  rw [hidx, List.getD_eq_getElem _ _ h₂]

theorem valid_rebuild (r : RingBuffer α n) {xs : List α} (hfit : xs.length ≤ n) :
    (r.rebuild xs).Valid where
  head_lt := Nat.pos_of_neZero n
  count_le := hfit
  tail_eq := by
    show xs.length % n = (0 + xs.length) % n
    rw [Nat.zero_add]

end RingBuffer
