import Mathlib.Data.Fintype.Card
import Mathlib.Data.List.FinRange

/-!
# Tables of slots

A table of `n` slots is a function on `Fin n`. C code searches such a table with
a loop that returns the first slot with some property.

- `firstSlot`: that search.
- `slotCount`: how many slots have a property, with the two facts that bound
  a table's population: a table with fewer than `n` occupied slots has a free
  one, and changing one slot adds at most one.
-/

variable {n : Nat}

/-- The first slot with property `p`. -/
def firstSlot (p : Fin n → Bool) : Option (Fin n) := (List.finRange n).find? p

theorem firstSlot_some {p : Fin n → Bool} {i : Fin n} (h : firstSlot p = some i) :
    p i = true := List.find?_some h

theorem firstSlot_eq_none {p : Fin n → Bool} : firstSlot p = none ↔ ∀ i, p i = false := by
  simp [firstSlot]

/-- If only one slot has the property, the search finds it. -/
theorem firstSlot_eq_some_of_unique {p : Fin n → Bool} {i : Fin n} (hi : p i = true)
    (huniq : ∀ j, p j = true → j = i) : firstSlot p = some i := by
  cases h : firstSlot p with
  | none => exact absurd hi (by simp [firstSlot_eq_none.mp h i])
  | some j => rw [huniq j (firstSlot_some h)]

/-- How many slots have property `p`. -/
def slotCount (p : Fin n → Bool) : Nat := (Finset.univ.filter fun i => p i = true).card

theorem slotCount_mono {p q : Fin n → Bool} (h : ∀ i, p i = true → q i = true) :
    slotCount p ≤ slotCount q :=
  Finset.card_le_card (Finset.monotone_filter_right _ fun i _ => h i)

/-- A table that is not full has a free slot. -/
theorem exists_free_of_slotCount_lt {p : Fin n → Bool} (h : slotCount p < n) :
    ∃ i, p i = false := by
  by_contra hfull
  push Not at hfull
  have hall : (Finset.univ.filter fun i => p i = true) = Finset.univ :=
    Finset.filter_true_of_mem fun i _ => by simpa using hfull i
  rw [slotCount, hall, Finset.card_univ, Fintype.card_fin] at h
  exact Nat.lt_irrefl n h

/-- Two properties that differ in one slot only have counts one apart. -/
theorem slotCount_le_succ {p q : Fin n → Bool} {i : Fin n}
    (h : ∀ j, j ≠ i → q j = true → p j = true) : slotCount q ≤ slotCount p + 1 := by
  have hsub : (Finset.univ.filter fun j => q j = true)
      ⊆ insert i (Finset.univ.filter fun j => p j = true) := by
    intro j hj
    rw [Finset.mem_insert, Finset.mem_filter]
    by_cases hji : j = i
    · exact .inl hji
    · exact .inr ⟨Finset.mem_univ j, h j hji (Finset.mem_filter.mp hj).2⟩
  exact (Finset.card_le_card hsub).trans (Finset.card_insert_le _ _)

/-- One more slot has the property. -/
theorem slotCount_succ {p q : Fin n → Bool} {i : Fin n} (hp : p i = false) (hq : q i = true)
    (h : ∀ j, j ≠ i → q j = p j) : slotCount q = slotCount p + 1 := by
  have hset : (Finset.univ.filter fun j => q j = true)
      = insert i (Finset.univ.filter fun j => p j = true) := by
    ext j
    rw [Finset.mem_insert, Finset.mem_filter, Finset.mem_filter]
    by_cases hj : j = i
    · simp [hj, hq]
    · simp [hj, h j hj]
  rw [slotCount, slotCount, hset, Finset.card_insert_of_notMem]
  simp [hp]

/-- Slots without the property are not counted. -/
theorem slotCount_add_le {p : Fin n → Bool} {s : Finset (Fin n)} (h : ∀ i ∈ s, p i = false) :
    slotCount p + s.card ≤ n := by
  have hdisj : Disjoint (Finset.univ.filter fun i => p i = true) s := by
    rw [Finset.disjoint_left]
    intro i hi his
    rw [Finset.mem_filter, h i his] at hi
    exact Bool.false_ne_true hi.2
  rw [slotCount, ← Finset.card_union_of_disjoint hdisj]
  exact (Finset.card_le_univ _).trans_eq (Fintype.card_fin n)

/-- The slots with property `p`, in table order. -/
def slotsWith (p : Fin n → Bool) : List (Fin n) := (List.finRange n).filter p

theorem mem_slotsWith {p : Fin n → Bool} {i : Fin n} : i ∈ slotsWith p ↔ p i = true := by
  simp [slotsWith]

theorem length_slotsWith (p : Fin n → Bool) : (slotsWith p).length = slotCount p := by
  have hnodup : (slotsWith p).Nodup := (List.nodup_finRange n).filter _
  rw [slotCount, ← List.toFinset_card_of_nodup hnodup]
  congr 1
  ext i
  simp [slotsWith]
