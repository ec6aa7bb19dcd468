import Mathlib.Data.Finset.Card

/-!
# Maps with a bounded number of keys

A partial map with at most `n` keys whose values all satisfy `ok`. Both facts are
part of the map, so an operation that might break one has to ask for what it needs:
`set` for a value that is fine and for room for its key.
-/

universe u v

/-- A map from `κ` to values of `ν` that satisfy `ok`, with at most `n` keys. -/
structure BoundedMap (κ : Type u) (ν : Type v) (n : Nat) (ok : ν → Prop) where
  get : κ → Option ν
  keys : Finset κ
  mem_keys : ∀ k, k ∈ keys ↔ (get k).isSome
  card_le : keys.card ≤ n
  ok_get : ∀ k v, get k = some v → ok v

open Function

namespace BoundedMap

variable {κ : Type u} {ν : Type v} {n : Nat} {ok : ν → Prop} (m : BoundedMap κ ν n ok)

/-- No keys. -/
def empty : BoundedMap κ ν n ok where
  get _ := none
  keys := ∅
  mem_keys _ := iff_of_false (Finset.notMem_empty _) Bool.false_ne_true
  card_le := Nat.zero_le n
  ok_get _ _ h := absurd h nofun

/-- There is the key, or room for it. -/
def Room (k : κ) : Prop := k ∈ m.keys ∨ m.keys.card < n

instance [DecidableEq κ] (k : κ) : Decidable (m.Room k) :=
  inferInstanceAs (Decidable (_ ∨ _))

theorem room_of_lt {k : κ} (h : m.keys.card < n) : m.Room k := .inr h

theorem not_mem_keys_iff {k : κ} : k ∉ m.keys ↔ m.get k = none := by
  rw [m.mem_keys, Option.not_isSome_iff_eq_none]

section Set

variable [DecidableEq κ]

/-- The value of one key is replaced, or the key is added. -/
def set (k : κ) (v : ν) (hv : ok v) (hroom : m.Room k) : BoundedMap κ ν n ok where
  get := update m.get k (some v)
  keys := insert k m.keys
  mem_keys k' := by
    rw [Finset.mem_insert]
    by_cases hk : k' = k
    · rw [hk, update_self]
      exact iff_of_true (.inl rfl) rfl
    · rw [update_of_ne hk, ← m.mem_keys]
      exact or_iff_right hk
  card_le := by
    rcases hroom with hk | hlt
    · rw [Finset.insert_eq_of_mem hk]
      exact m.card_le
    · exact (Finset.card_insert_le k m.keys).trans hlt
  ok_get k' v' h := by
    by_cases hk : k' = k
    · rw [hk, update_self] at h
      exact Option.some.inj h ▸ hv
    · rw [update_of_ne hk] at h
      exact m.ok_get k' v' h

theorem get_set {k : κ} {v : ν} {hv : ok v} {hroom : m.Room k} (k' : κ) :
    (m.set k v hv hroom).get k' = if k = k' then some v else m.get k' := by
  show update m.get k (some v) k' = _
  by_cases hk : k' = k
  · rw [hk, update_self, if_pos rfl]
  · rw [update_of_ne hk, if_neg (Ne.symm hk)]

end Set

/-- Only the keys with property `p` stay. -/
def restrict (p : κ → Bool) : BoundedMap κ ν n ok where
  get k := if p k then m.get k else none
  keys := m.keys.filter fun k => p k
  mem_keys k := by
    rw [Finset.mem_filter, m.mem_keys]
    cases p k with
    | false => exact iff_of_false (fun h => absurd h.2 (by decide)) Bool.false_ne_true
    | true => exact and_iff_left rfl
  card_le := (Finset.card_filter_le _ _).trans m.card_le
  ok_get k v h := by
    split at h
    · exact m.ok_get k v h
    · exact absurd h nofun

end BoundedMap
