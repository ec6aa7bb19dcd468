import Mathlib.Logic.Function.Basic
import Mathlib.Tactic.Common

/-!
# Copy-on-write

Pages `P` are mapped to frames `F`, and frames have contents `C`. Several pages may
share a frame as long as none of them may be written.

- `Cow`: the frame of each page, whether the page may be written, and the contents.
- `Cow.view`: what a reader of a page sees. For a store in which nothing writable is
  shared (`Cow.Exclusive`) the view behaves like independent cells: `mapNew`, `share`,
  `split` and `write` each change the view of one page at most.
-/

namespace OpenAgentOS

open Function

/-- Pages, frames and contents. -/
structure Cow (P F C : Type*) where
  entry : P → Option (F × Bool)
  data : F → C

namespace Cow

variable {P F C : Type*} {s : Cow P F C} {p q dst src : P} {f g : F} {w : Bool}

/-- What is read at a page. -/
def view (s : Cow P F C) (p : P) : Option C := (s.entry p).map fun e => s.data e.1

/-- A page that may be written has its frame for itself. -/
def Exclusive (s : Cow P F C) : Prop :=
  ∀ p q f w, s.entry p = some (f, true) → s.entry q = some (f, w) → q = p

/-- No page is mapped to the frame. -/
def Unused (s : Cow P F C) (f : F) : Prop := ∀ p w, s.entry p ≠ some (f, w)

theorem view_of_entry (h : s.entry p = some (f, w)) : s.view p = some (s.data f) := by
  rw [view, h]
  rfl

theorem view_eq_none_iff : s.view p = none ↔ s.entry p = none := Option.map_eq_none_iff

variable [DecidableEq P]

/-- Map a page to a frame of its own. -/
def mapNew (s : Cow P F C) (p : P) (f : F) : Cow P F C :=
  { s with entry := update s.entry p (some (f, true)) }

/-- Let `dst` share the frame `f` of `src`. -/
def share (s : Cow P F C) (dst src : P) (f : F) : Cow P F C :=
  { s with
    entry := update (update s.entry src (some (f, false))) dst
      (some (f, false)) }

/-- Move a page to a frame of its own, with a copy of what it had. -/
def split [DecidableEq F] (s : Cow P F C) (p : P) (f g : F) : Cow P F C where
  entry := update s.entry p (some (g, true))
  data := update s.data g (s.data f)

omit [DecidableEq P] in
/-- Store into a frame. -/
def write [DecidableEq F] (s : Cow P F C) (f : F) (c : C) : Cow P F C :=
  { s with data := update s.data f c }

/-! ## New frames -/

/-- A page with a new frame for itself. -/
theorem Exclusive.update (h : s.Exclusive) (hf : s.Unused f) (p : P) (w : Bool) (data : F → C) :
    Exclusive ⟨update s.entry p (some (f, w)), data⟩ := by
  intro a b g w ha hb
  dsimp only at ha hb
  by_cases hap : a = p
  · subst hap
    by_cases hbp : b = a
    · exact hbp
    · rw [update_self] at ha
      rw [update_of_ne hbp] at hb
      obtain ⟨rfl, -⟩ := Prod.mk.inj (Option.some.inj ha)
      exact absurd hb (hf b w)
  · rw [update_of_ne hap] at ha
    by_cases hbp : b = p
    · subst hbp
      rw [update_self] at hb
      obtain ⟨rfl, -⟩ := Prod.mk.inj (Option.some.inj hb)
      exact absurd ha (hf a true)
    · rw [update_of_ne hbp] at hb
      exact h a b g w ha hb

theorem view_mapNew (s : Cow P F C) (p : P) (f : F) :
    (s.mapNew p f).view = update s.view p (some (s.data f)) := by
  funext q
  by_cases hq : q = p
  · subst hq
    have hentry : (s.mapNew q f).entry q = some (f, true) := update_self ..
    rw [view_of_entry hentry, update_self]
    rfl
  · have hentry : (s.mapNew p f).entry q = s.entry q := update_of_ne hq ..
    rw [view, hentry, update_of_ne hq]
    rfl

/-- **A page that is moved looks as before**, and so do all others. -/
theorem view_split [DecidableEq F] (hp : s.entry p = some (f, w)) (hg : s.Unused g) :
    (s.split p f g).view = s.view := by
  funext q
  by_cases hq : q = p
  · subst hq
    have hentry : (s.split q f g).entry q = some (g, true) := update_self ..
    have hdata : (s.split q f g).data g = s.data f := update_self ..
    rw [view_of_entry hp, view_of_entry hentry, hdata]
  · have hentry : (s.split p f g).entry q = s.entry q := update_of_ne hq ..
    rw [view, view, hentry]
    refine Option.map_congr fun e he => ?_
    have hne : e.1 ≠ g := by
      rintro rfl
      exact hg q e.2 he
    exact update_of_ne hne ..

/-! ## Shared frames -/

theorem share_entry (s : Cow P F C) (dst src : P) (f : F) (p : P) :
    (s.share dst src f).entry p =
      if p = dst ∨ p = src then some (f, false) else s.entry p := by
  rw [share]
  dsimp only
  by_cases hdst : p = dst
  · rw [hdst, update_self, if_pos (.inl rfl)]
  rw [update_of_ne hdst]
  by_cases hsrc : p = src
  · rw [hsrc, update_self, if_pos (.inr rfl)]
  · rw [update_of_ne hsrc, if_neg (not_or.mpr ⟨hdst, hsrc⟩)]

theorem Exclusive.share (h : s.Exclusive) (hsrc : s.entry src = some (f, w)) (dst : P) :
    (s.share dst src f).Exclusive := by
  intro a b g w' ha hb
  rw [share_entry] at ha hb
  by_cases hashared : a = dst ∨ a = src
  · rw [if_pos hashared] at ha
    exact absurd (Prod.mk.inj (Option.some.inj ha)).2 (by decide)
  rw [if_neg hashared] at ha
  by_cases hbshared : b = dst ∨ b = src
  · -- then `a` would have shared the frame of `src` before
    rw [if_pos hbshared] at hb
    obtain ⟨rfl, -⟩ := Prod.mk.inj (Option.some.inj hb)
    exact absurd (.inr (h a src f w ha hsrc).symm) hashared
  · rw [if_neg hbshared] at hb
    exact h a b g w' ha hb

/-- **The view of `dst` becomes that of `src`.** -/
theorem view_share (hsrc : s.entry src = some (f, w)) (dst : P) :
    (s.share dst src f).view = update s.view dst (s.view src) := by
  funext p
  have hdata : (s.share dst src f).data = s.data := rfl
  by_cases hdst : p = dst
  · have hentry : (s.share dst src f).entry p = some (f, false) := by
      rw [share_entry, if_pos (.inl hdst)]
    rw [view_of_entry hentry, hdst, update_self, view_of_entry hsrc, hdata]
  rw [update_of_ne hdst]
  by_cases hp : p = src
  · have hentry : (s.share dst src f).entry p = some (f, false) := by
      rw [share_entry, if_pos (.inr hp)]
    rw [view_of_entry hentry, hp, view_of_entry hsrc, hdata]
  · have hentry : (s.share dst src f).entry p = s.entry p := by
      rw [share_entry, if_neg (not_or.mpr ⟨hdst, hp⟩)]
    rw [view, view, hentry, hdata]

/-- **A store is seen by one page only**, if that page may be written. -/
theorem view_write [DecidableEq F] (h : s.Exclusive) (hp : s.entry p = some (f, true)) (c : C) :
    (s.write f c).view = update s.view p (some c) := by
  funext q
  by_cases hq : q = p
  · subst hq
    have hdata : (s.write f c).data f = c := update_self ..
    rw [view_of_entry (s := s.write f c) hp, update_self, hdata]
  · rw [update_of_ne hq]
    refine Option.map_congr fun e he => ?_
    have hne : e.1 ≠ f := by
      rintro rfl
      exact hq (h p q e.1 e.2 hp he)
    exact update_of_ne hne ..

end Cow

end OpenAgentOS
