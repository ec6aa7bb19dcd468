import Mathlib.Data.List.GetD
import Mathlib.Tactic.Common

/-!
# Computations that read an array

A parser in C is handed a pointer and a length, and nothing keeps it from looking behind
the length. A computation of type `Reads β α` can see the array only through its
constructor `read`, so the places it looks at are part of what it is.

- `Reads.run`, `Reads.trace`: the result over an array, and the places that were read.
- `Reads.Within`: every read is in front of a bound. There is one rule for each
  constructor, and one for `bind`.
- `Reads.run_congr`: what lies behind the bound makes no difference then.
- `Reads.arrayOf`: a list with other data behind it.
-/

namespace OpenAgentOS

/-- A computation that ends in an `α` and reads a `β` at a place in between. -/
inductive Reads (β α : Type) where
  | done (a : α)
  | read (i : Nat) (next : β → Reads β α)

namespace Reads

variable {β α γ : Type}

/-- First one computation, then another that may depend on its result. -/
def bind : Reads β α → (α → Reads β γ) → Reads β γ
  | .done a, f => f a
  | .read i next, f => .read i fun b => bind (next b) f

/-- The result over an array. -/
def run (mem : Nat → β) : Reads β α → α
  | .done a => a
  | .read i next => run mem (next (mem i))

/-- The places that are read, in their order. -/
def trace (mem : Nat → β) : Reads β α → List Nat
  | .done _ => []
  | .read i next => i :: trace mem (next (mem i))

@[simp] theorem run_done (mem : Nat → β) (a : α) : (done a).run mem = a := rfl

@[simp] theorem run_read (mem : Nat → β) (i : Nat) (next : β → Reads β α) :
    (read i next).run mem = (next (mem i)).run mem := rfl

@[simp] theorem run_bind (mem : Nat → β) (f : α → Reads β γ) :
    ∀ r : Reads β α, (r.bind f).run mem = (f (r.run mem)).run mem
  | .done _ => rfl
  | .read i next => run_bind mem f (next (mem i))

@[simp] theorem trace_bind (mem : Nat → β) (f : α → Reads β γ) :
    ∀ r : Reads β α, (r.bind f).trace mem = r.trace mem ++ (f (r.run mem)).trace mem
  | .done _ => rfl
  | .read i next => congrArg (i :: ·) (trace_bind mem f (next (mem i)))

/-! ## Reads in front of a bound -/

/-- Nothing is read at `n` or behind it. -/
def Within (n : Nat) (mem : Nat → β) (r : Reads β α) : Prop := ∀ i ∈ r.trace mem, i < n

variable {n : Nat} {mem : Nat → β}

theorem within_done (a : α) : (done a : Reads β α).Within n mem := fun _ h => absurd h (by simp [trace])

theorem within_read_iff {i : Nat} {next : β → Reads β α} :
    (read i next).Within n mem ↔ i < n ∧ (next (mem i)).Within n mem := by
  simp only [Within, trace, List.mem_cons, forall_eq_or_imp]

theorem within_bind_iff {r : Reads β α} {f : α → Reads β γ} :
    (r.bind f).Within n mem ↔ r.Within n mem ∧ (f (r.run mem)).Within n mem := by
  simp only [Within, trace_bind, List.mem_append, or_imp, forall_and]

/-- Arrays that agree in front of the bound give the same result and the same reads. -/
theorem run_congr {mem' : Nat → β} (hmem : ∀ i < n, mem' i = mem i) :
    ∀ r : Reads β α, r.Within n mem → r.run mem' = r.run mem ∧ r.trace mem' = r.trace mem
  | .done _, _ => ⟨rfl, rfl⟩
  | .read i next, h => by
    obtain ⟨hi, hnext⟩ := within_read_iff.mp h
    obtain ⟨hrun, htrace⟩ := run_congr hmem (next (mem i)) hnext
    rw [run_read, run_read, trace, trace, hmem i hi]
    exact ⟨hrun, congrArg (i :: ·) htrace⟩

/-! ## A list in front of other data -/

/-- The array that starts with `p` and goes on with `behind`. -/
def arrayOf (p : List β) (behind : Nat → β) : Nat → β := fun i => p.getD i (behind i)

theorem arrayOf_of_lt {p : List β} {i : Nat} (h : i < p.length) (behind : Nat → β) :
    arrayOf p behind i = p[i] := List.getD_eq_getElem _ _ h

/-- Reads inside of the list do not depend on the data behind it. -/
theorem run_arrayOf {p : List β} {behind : Nat → β} {r : Reads β α}
    (h : r.Within p.length (arrayOf p behind)) (behind' : Nat → β) :
    r.run (arrayOf p behind') = r.run (arrayOf p behind) := by
  refine (run_congr (fun i hi => ?_) r h).1
  rw [arrayOf_of_lt hi, arrayOf_of_lt hi]

end Reads

end OpenAgentOS
