import Mathlib.Tactic.Common

/-!
# Runs of a machine under a list of events

A machine is a function `step` from a state and an event to the next state.

- `Runs.run`: the state after a list of events.
- `Runs.Along ok s es`: every event of the run `es` from `s` satisfies `ok` in the
  state in which it happens. This is how a condition on the steps of a run is
  stated.
- `Along.invariant`: what holds at the start and is kept by every step that
  satisfies the condition, holds at the end. `Along.between` is the same between
  two events of a run.
- `Runs.Sometime`: some event of the run satisfies `ok` where it happens.
- `Runs.lastSet`: what the events set last. `observe_run`: that is what is observed
  at the end.
-/

universe u v

namespace Runs

variable {σ : Type u} {ε : Type v} (step : σ → ε → σ)

/-- The state after the events. -/
def run (s : σ) (es : List ε) : σ := es.foldl step s

@[simp] theorem run_nil (s : σ) : run step s [] = s := rfl

@[simp] theorem run_cons (s : σ) (e : ε) (es : List ε) :
    run step s (e :: es) = run step (step s e) es := rfl

theorem run_append (s : σ) (es fs : List ε) :
    run step s (es ++ fs) = run step (run step s es) fs :=
  List.foldl_append

/-- Every event satisfies `ok` where it happens. -/
def Along (ok : σ → ε → Prop) : σ → List ε → Prop
  | _, [] => True
  | s, e :: es => ok s e ∧ Along ok (step s e) es

instance Along.decidable (ok : σ → ε → Prop) [∀ s e, Decidable (ok s e)] :
    ∀ (s : σ) (es : List ε), Decidable (Along step ok s es)
  | _, [] => .isTrue trivial
  | s, e :: es =>
    have := Along.decidable ok (step s e) es
    inferInstanceAs (Decidable (ok s e ∧ Along step ok (step s e) es))

variable {step} {ok : σ → ε → Prop}

theorem along_append {s : σ} {es fs : List ε} :
    Along step ok s (es ++ fs) ↔ Along step ok s es ∧ Along step ok (run step s es) fs := by
  induction es generalizing s with
  | nil => simp [Along]
  | cons e es ih => simp [Along, ih, and_assoc]

/-- **Invariants.** -/
theorem Along.invariant {P : σ → Prop} (hstep : ∀ s e, ok s e → P s → P (step s e)) {s : σ}
    (hs : P s) {es : List ε} (h : Along step ok s es) : P (run step s es) := by
  induction es generalizing s with
  | nil => exact hs
  | cons e es ih => exact ih (hstep s e h.1 hs) h.2

/-- Invariants of every step. -/
theorem run_invariant {P : σ → Prop} (hstep : ∀ s e, P s → P (step s e)) {s : σ} (hs : P s)
    (es : List ε) : P (run step s es) := by
  induction es generalizing s with
  | nil => exact hs
  | cons e es ih => exact ih (hstep s e hs)

/-- What the condition implies step by step holds all along the run. -/
theorem Along.imp {ok' : σ → ε → Prop} (himp : ∀ s e, ok s e → ok' s e) {s : σ} {es : List ε}
    (h : Along step ok s es) : Along step ok' s es := by
  induction es generalizing s with
  | nil => trivial
  | cons e es ih => exact ⟨himp s e h.1, ih h.2⟩

/-- What the condition implies where an invariant holds. -/
theorem Along.imp_invariant {ok' : σ → ε → Prop} {P : σ → Prop}
    (himp : ∀ s e, P s → ok s e → ok' s e) (hstep : ∀ s e, P s → ok s e → P (step s e)) {s : σ}
    (hs : P s) {es : List ε} (h : Along step ok s es) : Along step ok' s es := by
  induction es generalizing s with
  | nil => trivial
  | cons e es ih => exact ⟨himp s e hs h.1, ih (hstep s e hs h.1) h.2⟩

/-- Conditions that agree where an invariant holds. -/
theorem along_congr {ok' : σ → ε → Prop} {P : σ → Prop}
    (hiff : ∀ s e, P s → (ok s e ↔ ok' s e)) (hstep : ∀ s e, P s → ok s e → P (step s e))
    {s : σ} (hs : P s) (es : List ε) : Along step ok s es ↔ Along step ok' s es := by
  induction es generalizing s with
  | nil => exact Iff.rfl
  | cons e es ih =>
    constructor
    · rintro ⟨he, hes⟩
      exact ⟨(hiff s e hs).mp he, (ih (hstep s e hs he)).mp hes⟩
    · rintro ⟨he', hes⟩
      have he := (hiff s e hs).mpr he'
      exact ⟨he, (ih (hstep s e hs he)).mpr hes⟩

/-- Two conditions at once. -/
theorem Along.and {ok' : σ → ε → Prop} {s : σ} {es : List ε} (h : Along step ok s es)
    (h' : Along step ok' s es) : Along step (fun s e => ok s e ∧ ok' s e) s es := by
  induction es generalizing s with
  | nil => trivial
  | cons e es ih => exact ⟨⟨h.1, h'.1⟩, ih h.2 h'.2⟩

/-- **From one event to a later one**: what event `e` establishes, and the steps in
between keep, still holds when event `e'` happens. -/
theorem Along.between {ok' : σ → ε → Prop} {P : σ → Prop} {s : σ} {pre mid post : List ε}
    {e e' : ε} (h : Along step ok s (pre ++ e :: (mid ++ e' :: post)))
    (hmid : Along step ok' (step (run step s pre) e) mid)
    (hstart : ok (run step s pre) e → P (step (run step s pre) e))
    (hstep : ∀ s e, ok s e ∧ ok' s e → P s → P (step s e)) :
    P (run step s (pre ++ e :: mid)) ∧ ok (run step s (pre ++ e :: mid)) e' := by
  obtain ⟨-, he, hrest⟩ := along_append.mp h
  obtain ⟨hokmid, he', -⟩ := along_append.mp hrest
  rw [run_append, run_cons]
  exact ⟨(hokmid.and hmid).invariant hstep (hstart he), he'⟩

/-! ## What happened in a run -/

/-- Some event satisfies `ok` where it happens. -/
def Sometime (step : σ → ε → σ) (ok : σ → ε → Prop) : σ → List ε → Prop
  | _, [] => False
  | s, e :: es => ok s e ∨ Sometime step ok (step s e) es

theorem sometime_iff {s : σ} {es : List ε} :
    Sometime step ok s es ↔ ∃ pre e post, es = pre ++ e :: post ∧ ok (run step s pre) e := by
  induction es generalizing s with
  | nil => simp [Sometime]
  | cons e es ih =>
    rw [Sometime, ih]
    constructor
    · rintro (he | ⟨pre, e', post, rfl, he'⟩)
      · exact ⟨[], e, es, rfl, he⟩
      · exact ⟨e :: pre, e', post, rfl, he'⟩
    · rintro ⟨_ | ⟨e', pre⟩, e'', post, heq, hok⟩
      · obtain ⟨rfl, rfl⟩ := List.cons.inj heq
        exact .inl hok
      · obtain ⟨rfl, rfl⟩ := List.cons.inj heq
        exact .inr ⟨pre, e'', post, rfl, hok⟩

theorem along_not_iff {s : σ} {es : List ε} :
    Along step (fun s e => ¬ ok s e) s es ↔ ¬ Sometime step ok s es := by
  induction es generalizing s with
  | nil => exact iff_of_true trivial not_false
  | cons e es ih => rw [Along, Sometime, ih, not_or]

/-- What the events set last, where `sets s e` is what event `e` sets in state `s`. -/
def lastSet {β : Type*} (step : σ → ε → σ) (sets : σ → ε → Option β) : σ → List ε → Option β
  | _, [] => none
  | s, e :: es => (lastSet step sets (step s e) es).or (sets s e)

/-- **What is observed at the end** is what was set last, or what was there before. -/
theorem observe_run {β : Type*} {sets : σ → ε → Option β} {observe : σ → β}
    (hstep : ∀ s e, observe (step s e) = (sets s e).getD (observe s)) (s : σ) (es : List ε) :
    observe (run step s es) = (lastSet step sets s es).getD (observe s) := by
  induction es generalizing s with
  | nil => rfl
  | cons e es ih =>
    rw [run_cons, ih, hstep, lastSet]
    cases lastSet step sets (step s e) es with
    | none => rfl
    | some b => rfl

/-! ## Machines that answer -/

/-- The answers to a list of events. -/
def replies {ρ : Type*} (call : σ → ε → ρ × σ) : σ → List ε → List ρ
  | _, [] => []
  | s, e :: es => (call s e).1 :: replies call (call s e).2 es

/-- **Simulation.** If each event that satisfies the condition is answered alike in
related states and leads to related states, then so is each run. -/
theorem Along.simulation {τ ρ : Type*} {call : σ → ε → ρ × σ} {call' : τ → ε → ρ × τ}
    {R : σ → τ → Prop}
    (hstep : ∀ s t e, ok s e → R s t →
      (call s e).1 = (call' t e).1 ∧ R (call s e).2 (call' t e).2)
    {s : σ} {t : τ} (hs : R s t) {es : List ε}
    (h : Along (fun s e => (call s e).2) ok s es) :
    replies call s es = replies call' t es ∧
      R (run (fun s e => (call s e).2) s es) (run (fun t e => (call' t e).2) t es) := by
  induction es generalizing s t with
  | nil => exact ⟨rfl, hs⟩
  | cons e es ih =>
    obtain ⟨hreply, hnext⟩ := hstep s t e h.1 hs
    obtain ⟨hreplies, hend⟩ := ih hnext h.2
    exact ⟨congrArg₂ List.cons hreply hreplies, hend⟩

end Runs
