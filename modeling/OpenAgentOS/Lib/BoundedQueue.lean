import Mathlib.Data.List.Basic

/-!
# Queues with bounded room

A queue with room for `cap` elements takes an element at its end, and drops it silently if it is full.

- `offer`, `offerAll`: one element, and a list of them. `offerAll_eq`: as many as fit.
- `offer_offerAll_iff`: an element that was taken from the front, and is offered again after others
  were, leaves the queue as if it had not been taken exactly if all elements are equal to it.
  `offerAll_iff` is the same for an element that is not offered again.
- `serve`: what the front of the queue gives, one time after the other (`serve_inj`).
-/

universe u

namespace BoundedQueue

variable {α : Type u} (cap : Nat)

/-- An element is added at the end, if there is room. -/
def offer (q : List α) (x : α) : List α := if q.length < cap then q ++ [x] else q

/-- Elements are added one after the other. -/
def offerAll (q xs : List α) : List α := xs.foldl (offer cap) q

/-- What is taken from the front, `n` times. -/
def serve (q : List α) : Nat → List (Option α)
  | 0 => []
  | n + 1 => q.head? :: serve q.tail n

variable {cap} {q xs : List α} {x : α}

theorem offer_of_full (h : cap ≤ q.length) : offer cap q x = q := if_neg (Nat.not_lt.mpr h)

theorem offerAll_eq (h : q.length ≤ cap) : offerAll cap q xs = (q ++ xs).take cap := by
  induction xs generalizing q with
  | nil => rw [List.append_nil, List.take_of_length_le h]; rfl
  | cons x xs ih =>
    rw [offerAll, List.foldl_cons]
    by_cases hroom : q.length < cap
    · have hlen : (q ++ [x]).length ≤ cap := by rw [List.length_append]; exact hroom
      rw [offer, if_pos hroom]
      exact (ih hlen).trans (by rw [List.append_assoc, List.singleton_append])
    · rw [offer_of_full (Nat.not_lt.mp hroom)]
      have hfull : q.length = cap := Nat.le_antisymm h (Nat.not_lt.mp hroom)
      refine (ih h).trans ?_
      rw [List.take_append_of_le_length (Nat.le_of_eq hfull.symm),
        List.take_append_of_le_length (Nat.le_of_eq hfull.symm)]

/-- A list that is shifted by one and stays the same is constant. -/
theorem concat_eq_cons_iff {y : α} {l : List α} : l ++ [y] = x :: l ↔ y = x ∧ ∀ z ∈ l, z = x := by
  induction l generalizing x with
  | nil => simp
  | cons a l ih =>
    rw [List.cons_append, List.cons.injEq, List.forall_mem_cons]
    constructor
    · rintro ⟨rfl, h⟩
      obtain ⟨hy, hl⟩ := ih.mp h
      exact ⟨hy, rfl, hl⟩
    · rintro ⟨rfl, rfl, hl⟩
      exact ⟨rfl, ih.mpr ⟨rfl, hl⟩⟩

/-- The front is missing, and others have filled the queue. -/
theorem take_eq_cons_take_iff (hcap : 0 < cap) (hfull : cap ≤ q.length) :
    q.take cap = x :: q.take (cap - 1) ↔ ∀ z ∈ q.take cap, z = x := by
  obtain ⟨n, rfl⟩ := Nat.exists_eq_succ_of_ne_zero (Nat.ne_of_gt hcap)
  rw [Nat.succ_sub_one, List.take_succ_eq_append_getElem hfull, concat_eq_cons_iff]
  simp only [List.mem_append, List.mem_singleton, or_imp, forall_and, forall_eq]
  exact and_comm

/-- The front is missing. -/
theorem offerAll_iff (hq : q.length < cap) :
    offerAll cap q xs = offerAll cap (x :: q) xs ↔
      cap ≤ (q ++ xs).length ∧ ∀ z ∈ (q ++ xs).take cap, z = x := by
  have hcap : 0 < cap := Nat.zero_lt_of_lt hq
  rw [offerAll_eq (Nat.le_of_lt hq), offerAll_eq (show (x :: q).length ≤ cap from hq), List.cons_append]
  generalize q ++ xs = l
  rw [List.take_cons hcap]
  constructor
  · intro heq
    have hlen := congrArg List.length heq
    rw [List.length_take, List.length_cons, List.length_take] at hlen
    have hfull : cap ≤ l.length := by omega
    exact ⟨hfull, (take_eq_cons_take_iff hcap hfull).mp heq⟩
  · rintro ⟨hfull, hall⟩
    exact (take_eq_cons_take_iff hcap hfull).mpr hall

/-- **The front is offered again**, at the end. -/
theorem offer_offerAll_iff (hq : q.length < cap) :
    offer cap (offerAll cap q xs) x = offerAll cap (x :: q) xs ↔
      ∀ z ∈ (q ++ xs).take cap, z = x := by
  by_cases hfull : cap ≤ (q ++ xs).length
  · have hlen : cap ≤ (offerAll cap q xs).length := by
      rw [offerAll_eq (Nat.le_of_lt hq), List.length_take]
      exact Nat.le_of_eq (Nat.min_eq_left hfull).symm
    rw [offer_of_full hlen, offerAll_iff hq, and_iff_right hfull]
  · rw [Nat.not_le] at hfull
    rw [offerAll_eq (Nat.le_of_lt hq), offerAll_eq (show (x :: q).length ≤ cap from hq), List.cons_append]
    generalize q ++ xs = l at hfull
    rw [List.take_of_length_le (Nat.le_of_lt hfull), List.take_of_length_le (show (x :: l).length ≤ cap from hfull),
      offer, if_pos hfull, concat_eq_cons_iff, and_iff_right rfl]

/-- Queues that give the same give the same for ever only if they are equal. -/
theorem serve_inj {q' : List α} (h : ∀ n, serve q n = serve q' n) : q = q' := by
  induction q generalizing q' with
  | nil =>
    cases q' with
    | nil => rfl
    | cons y q' => exact absurd (h 1) (by simp [serve])
  | cons x q ih =>
    cases q' with
    | nil => exact absurd (h 1) (by simp [serve])
    | cons y q' =>
      have hhead : x = y := by simpa [serve] using h 1
      have htail : ∀ n, serve q n = serve q' n := fun n => (List.cons.inj (h (n + 1))).2
      rw [hhead, ih htail]

end BoundedQueue
