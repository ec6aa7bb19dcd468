import Mathlib.Data.Finset.Card
import Mathlib.Data.List.Dedup

/-!
# Tables without duplicates and with bounded room

A table with room for `cap` entries takes an element if it is new and there is room, and drops it
silently otherwise.

- `insertNew`, `fill`: one element, and a list of them.
- `news l xs`: the elements of `xs` that are not in `l`, each where it comes first.
- `fill_eq`: what a table holds afterwards: what it held, and as many of the new elements as fit.
  `subset_fill_nil_iff`: an empty table takes all exactly if there are not too many different ones.
-/

universe u

namespace BoundedSet

variable {α : Type u} [DecidableEq α] (cap : Nat)

/-- An element is added, if it is new and there is room. -/
def insertNew (l : List α) (x : α) : List α := if x ∈ l ∨ cap ≤ l.length then l else l ++ [x]

/-- Elements are added one after the other. -/
def fill (l xs : List α) : List α := xs.foldl (insertNew cap) l

/-- The elements that are new, in the order in which they come first. -/
def news (l : List α) : List α → List α
  | [] => []
  | x :: xs => if x ∈ l then news l xs else x :: news (l ++ [x]) xs

theorem mem_news {l xs : List α} {y : α} : y ∈ news l xs ↔ y ∈ xs ∧ y ∉ l := by
  induction xs generalizing l with
  | nil => simp [news]
  | cons x xs ih =>
    rw [news]
    by_cases hx : x ∈ l
    · rw [if_pos hx, ih, List.mem_cons]
      constructor
      · rintro ⟨hy, hnew⟩
        exact ⟨.inr hy, hnew⟩
      · rintro ⟨rfl | hy, hnew⟩
        · exact absurd hx hnew
        · exact ⟨hy, hnew⟩
    · rw [if_neg hx, List.mem_cons, ih, List.mem_cons, List.mem_append, List.mem_singleton]
      constructor
      · rintro (rfl | ⟨hy, hnew⟩)
        · exact ⟨.inl rfl, hx⟩
        · exact ⟨.inr hy, fun hl => hnew (.inl hl)⟩
      · rintro ⟨hy, hnew⟩
        by_cases heq : y = x
        · exact .inl heq
        · exact .inr ⟨hy.resolve_left heq, not_or.mpr ⟨hnew, heq⟩⟩

theorem nodup_news (l xs : List α) : (news l xs).Nodup := by
  induction xs generalizing l with
  | nil => exact .nil
  | cons x xs ih =>
    rw [news]
    by_cases hx : x ∈ l
    · rw [if_pos hx]
      exact ih l
    · rw [if_neg hx, List.nodup_cons]
      refine ⟨fun hmem => ?_, ih _⟩
      exact (mem_news.mp hmem).2 (List.mem_append_right _ (List.mem_singleton_self x))

/-- **What a table holds** after a list of elements. -/
theorem fill_eq (l xs : List α) : fill cap l xs = l ++ (news l xs).take (cap - l.length) := by
  induction xs generalizing l with
  | nil => simp [fill, news]
  | cons x xs ih =>
    have hstep : fill cap l (x :: xs) = fill cap (insertNew cap l x) xs := rfl
    rw [hstep, insertNew, news]
    by_cases hx : x ∈ l
    · rw [if_pos (.inl hx), if_pos hx, ih]
    · rw [if_neg hx]
      by_cases hfull : cap ≤ l.length
      · rw [if_pos (.inr hfull), ih, Nat.sub_eq_zero_of_le hfull, List.take_zero, List.take_zero]
      · have hroom : cap - l.length = (cap - (l ++ [x]).length) + 1 := by
          rw [List.length_append, List.length_singleton]
          omega
        rw [if_neg (not_or.mpr ⟨hx, hfull⟩), ih, hroom, List.take_succ_cons, List.append_assoc]
        rfl

theorem mem_fill {l xs : List α} {y : α} :
    y ∈ fill cap l xs ↔ y ∈ l ∨ y ∈ (news l xs).take (cap - l.length) := by
  rw [fill_eq, List.mem_append]

/-- **An empty table takes all** exactly if there are at most `cap` different ones. -/
theorem subset_fill_nil_iff {xs : List α} :
    (∀ x ∈ xs, x ∈ fill cap [] xs) ↔ xs.toFinset.card ≤ cap := by
  have hcard : xs.toFinset.card = (news [] xs).length := by
    rw [← List.toFinset_card_of_nodup (nodup_news [] xs)]
    congr 1
    ext y
    rw [List.mem_toFinset, List.mem_toFinset, mem_news]
    exact (and_iff_left List.not_mem_nil).symm
  rw [hcard, fill_eq, List.nil_append, List.length_nil, Nat.sub_zero]
  constructor
  · intro hall
    -- the entries of the table are as many as all new elements
    have hsub : (news [] xs) ⊆ (news [] xs).take cap := fun y hy => hall y (mem_news.mp hy).1
    have hle := (List.subperm_of_subset (nodup_news [] xs) hsub).length_le
    rw [List.length_take] at hle
    exact Nat.le_trans hle (Nat.min_le_left _ _)
  · intro hle x hx
    rw [List.take_of_length_le hle]
    exact mem_news.mpr ⟨hx, List.not_mem_nil⟩

end BoundedSet
