import Mathlib.Logic.Function.Basic
import OpenAgentOS.Lib.Runs

/-!
# Cells whose first contents are not known

A store hands out cells with whatever they held before, so a model of it as an array of
cells starts with contents that only show later. A cell of the store that has not been
handed out has no contents yet.

- `Agrees`: the array has the contents that the store shows.
- `Pulls`: an array that agrees with the store after a step comes from one that agreed
  before it. This is the form in which a step is compared with its effect on the array.
- `exists_cells`: then there is a first array such that array and store agree
  all along the run.
-/

namespace OpenAgentOS

open Function

variable {P C : Type*}

/-- The array has the contents that are known. -/
def Agrees (v : P → Option C) (a : P → C) : Prop := ∀ p c, v p = some c → a p = c

/-- Arrays that agree with `v'` are results of `f` on arrays that agree with `v`. -/
def Pulls (v v' : P → Option C) (f : (P → C) → P → C) : Prop :=
  ∀ a', Agrees v' a' → ∃ a, Agrees v a ∧ f a = a'

/-- More contents have become known, and none have changed. -/
theorem pulls_id {v v' : P → Option C} (h : ∀ p c, v p = some c → v' p = some c) :
    Pulls v v' fun a => a :=
  fun a' ha' => ⟨a', fun p c hp => ha' p c (h p c hp), rfl⟩

variable [DecidableEq P]

/-- One cell has been changed, after its contents became known. -/
theorem pulls_modify {v v₁ v' : P → Option C} {p : P} {c : C} {g : C → C}
    (h : ∀ q d, v q = some d → v₁ q = some d) (hp : v₁ p = some c)
    (hv' : v' = update v₁ p (some (g c))) :
    Pulls v v' fun a => update a p (g (a p)) := by
  subst hv'
  intro a' ha'
  refine ⟨update a' p c, fun q d hq => ?_, ?_⟩
  · by_cases hqp : q = p
    · subst hqp
      rw [update_self]
      exact Option.some.inj (hp.symm.trans (h q d hq))
    · rw [update_of_ne hqp]
      refine ha' q d ?_
      rw [update_of_ne hqp]
      exact h q d hq
  · have hnew : a' p = g c := ha' p (g c) (update_self ..)
    dsimp only
    rw [update_self, update_idem, ← hnew, update_eq_self]

/-- A cell has been copied to another. -/
theorem pulls_copy {v v' : P → Option C} {dst src : P} {c : C} (hne : dst ≠ src)
    (hsrc : v src = some c) (hv' : v' = update v dst (v src)) :
    Pulls v v' fun a => update a dst (a src) := by
  subst hv'
  intro a' ha'
  have hsrc' : a' src = c := by
    refine ha' src c ?_
    rw [update_of_ne hne.symm]
    exact hsrc
  have hdst' : a' dst = c := by
    refine ha' dst c ?_
    rw [update_self]
    exact hsrc
  refine ⟨update a' dst ((v dst).getD c), fun q d hq => ?_, ?_⟩
  · by_cases hqd : q = dst
    · subst hqd
      rw [update_self, hq]
      rfl
    · rw [update_of_ne hqd]
      refine ha' q d ?_
      rw [update_of_ne hqd]
      exact hq
  · dsimp only
    rw [update_of_ne hne.symm, update_idem, hsrc', ← hdst',
      update_eq_self]

omit [DecidableEq P] in
/-- **There are first contents for which array and store agree all along.** -/
theorem exists_cells [Inhabited C] {σ ε : Type*} {step : σ → ε → σ}
    {ok : σ → ε → Prop} {inv : σ → Prop} {view : σ → P → Option C}
    {effect : σ → ε → (P → C) → P → C}
    (hstep : ∀ s e, inv s → ok s e →
      inv (step s e) ∧ Pulls (view s) (view (step s e)) (effect s e))
    {s : σ} {es : List ε} (hs : inv s) (h : Runs.Along step ok s es) :
    ∃ a, Agrees (view s) a ∧
      Runs.Along (fun (x : σ × (P → C)) e => (step x.1 e, effect x.1 e x.2))
        (fun x e => (inv x.1 ∧ ok x.1 e) ∧ Agrees (view (step x.1 e)) (effect x.1 e x.2))
        (s, a) es := by
  induction es generalizing s with
  | nil =>
    refine ⟨fun p => (view s p).getD default, fun p c hp => ?_, trivial⟩
    exact congrArg (Option.getD · default) hp
  | cons e es ih =>
    obtain ⟨hinv, hpulls⟩ := hstep s e hs h.1
    obtain ⟨a', ha', hrest⟩ := ih hinv h.2
    obtain ⟨a, ha, rfl⟩ := hpulls a' ha'
    exact ⟨a, ha, ⟨⟨hs, h.1⟩, ha'⟩, hrest⟩

end OpenAgentOS
