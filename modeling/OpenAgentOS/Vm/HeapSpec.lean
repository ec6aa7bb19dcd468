import OpenAgentOS.Lib.CopyOnWrite
import OpenAgentOS.Lib.Slots

/-!
# What the heap functions do

The heap functions of vm.c without page tables: sixteen pages, each of which has no frame
or a frame and a permission, and the count `heap_mapped`. Both ports of vm.c are compared
with this machine.

- `AgentHeap`, over any type of frames.
- `AgentHeap.mapPage`, `AgentHeap.cowAlias`, `AgentHeap.fault`, `AgentHeap.userCheck`: the
  operations, given what `kalloc_page` would return.
- `SameShape`: two heaps map the same pages with the same permissions, and share frames
  between the same pages. With frames that are new on both sides, every operation answers
  alike and keeps this (`SameShape.call`).
-/

namespace OpenAgentOS

open Function

/-- A page of a heap. -/
abbrev HeapPage := Fin 16

/-- The heap of an agent. -/
structure AgentHeap (F : Type*) where
  entry : HeapPage → Option (F × Bool)
  mapped : Nat

/-- A call of the heap functions, with addresses relative to `heap_base`: pages of the heap,
or nothing for what lies outside. -/
inductive HeapCall where
  /-- `vm_heap_map_page`. -/
  | map (page : Option HeapPage)
  /-- `vm_heap_cow_alias`. -/
  | cow (dst src : Option HeapPage)
  /-- `vm_heap_fault`. -/
  | fault (page : Option HeapPage) (write : Bool)
  /-- `vm_user_check` on the pages from the first to the last. -/
  | check (first last : HeapPage) (write : Bool)

namespace AgentHeap

variable {F G : Type*}

/-- The frame of a page. -/
def frame (h : AgentHeap F) (p : HeapPage) : Option F := (h.entry p).map Prod.fst

/-- The permission of a page, if it is mapped. -/
def perm (h : AgentHeap F) (p : HeapPage) : Option Bool := (h.entry p).map Prod.snd

/-- No page has the frame. -/
def Unused (h : AgentHeap F) (f : F) : Prop := ∀ p, h.frame p ≠ some f

/-- `vm_heap_map_page` on a page of the heap. -/
def mapPage (h : AgentHeap F) (p : HeapPage) (new : Option F) : Bool × AgentHeap F :=
  if (h.entry p).isSome then (true, h)
  else if 16 ≤ h.mapped then (false, h)
  else
    match new with
    | none => (false, h)
    | some f => (true, ⟨update h.entry p (some (f, true)), h.mapped + 1⟩)

theorem mapPage_mapped (h : AgentHeap F) {p : HeapPage} {e : F × Bool} (hp : h.entry p = some e)
    (new : Option F) : h.mapPage p new = (true, h) := by
  unfold mapPage
  rw [hp, if_pos Option.isSome_some]

theorem mapPage_new (h : AgentHeap F) {p : HeapPage} (hp : h.entry p = none) (hfull : h.mapped < 16)
    (f : F) :
    h.mapPage p (some f) =
      (true, ⟨update h.entry p (some (f, true)), h.mapped + 1⟩) := by
  unfold mapPage
  rw [hp, if_neg nofun, if_neg (Nat.not_le.mpr hfull)]

/-- Let two pages share a frame that neither may write. -/
def share (h : AgentHeap F) (dst src : HeapPage) (f : F) : HeapPage → Option (F × Bool) :=
  update (update h.entry src (some (f, false))) dst (some (f, false))

/-- `vm_heap_cow_alias` on two pages of the heap. -/
def cowAlias [DecidableEq F] (h : AgentHeap F) (dst src : HeapPage) : Bool × AgentHeap F :=
  if dst = src then (false, h)
  else
    match h.entry src, h.entry dst with
    | none, _ => (false, h)
    | some (f, _), some (g, _) =>
      if g = f then (true, { h with entry := h.share dst src f }) else (false, h)
    | some (f, _), none =>
      if 16 ≤ h.mapped then (false, h) else (true, ⟨h.share dst src f, h.mapped + 1⟩)

section CowAlias

variable [DecidableEq F] (h : AgentHeap F) {dst src : HeapPage} (hne : dst ≠ src)

include hne

theorem cowAlias_unmapped (hsrc : h.entry src = none) : h.cowAlias dst src = (false, h) := by
  rw [cowAlias, if_neg hne, hsrc]

theorem cowAlias_mapped {f g : F} {w v : Bool} (hsrc : h.entry src = some (f, w))
    (hdst : h.entry dst = some (g, v)) :
    h.cowAlias dst src =
      if g = f then (true, { h with entry := h.share dst src f }) else (false, h) := by
  rw [cowAlias, if_neg hne, hsrc, hdst]

theorem cowAlias_new {f : F} {w : Bool} (hsrc : h.entry src = some (f, w))
    (hdst : h.entry dst = none) :
    h.cowAlias dst src =
      if 16 ≤ h.mapped then (false, h) else (true, ⟨h.share dst src f, h.mapped + 1⟩) := by
  rw [cowAlias, if_neg hne, hsrc, hdst]

end CowAlias

/-- `vm_heap_fault` on a page of the heap. -/
def fault (h : AgentHeap F) (p : HeapPage) (write : Bool) (new : Option F) :
    Bool × AgentHeap F :=
  match h.entry p with
  | none => h.mapPage p new
  | some (_, w) =>
    if write && !w then
      match new with
      | none => (false, h)
      | some g => (true, { h with entry := update h.entry p (some (g, true)) })
    else (false, h)

theorem fault_none (h : AgentHeap F) {p : HeapPage} {write : Bool} {new : Option F}
    (hp : h.entry p = none) : h.fault p write new = h.mapPage p new := by
  unfold fault
  rw [hp]

theorem fault_copy (h : AgentHeap F) {p : HeapPage} {f : F} (hp : h.entry p = some (f, false))
    (g : F) :
    h.fault p true (some g) =
      (true, { h with entry := update h.entry p (some (g, true)) }) := by
  unfold fault
  rw [hp]
  rfl

theorem fault_some (h : AgentHeap F) {p : HeapPage} {write w : Bool} {new : Option F} {f : F}
    (hp : h.entry p = some (f, w)) (hcow : ¬ (write && !w) = true) :
    h.fault p write new = (false, h) := by
  unfold fault
  rw [hp]
  exact if_neg hcow

/-- `vm_user_check` on one page. -/
def pageOk (h : AgentHeap F) (write : Bool) (p : HeapPage) : Bool :=
  match h.perm p with
  | none => false
  | some w => !write || w

/-- `vm_user_check` on a range of pages. -/
def userCheck (h : AgentHeap F) (first last : HeapPage) (write : Bool) : Bool :=
  (List.finRange 16).all fun p => !(decide (first ≤ p ∧ p ≤ last)) || h.pageOk write p

/-- A call, given what `kalloc_page` would return. -/
def call [DecidableEq F] (h : AgentHeap F) (new : Option F) : HeapCall → Bool × AgentHeap F
  | .map none | .fault none _ | .cow none _ | .cow _ none => (false, h)
  | .map (some p) => h.mapPage p new
  | .cow (some dst) (some src) => h.cowAlias dst src
  | .fault (some p) write => h.fault p write new
  | .check first last write => (h.userCheck first last write, h)

/-- What a call of `vm_heap_cow_alias` comes to. -/
theorem call_cow_cases [DecidableEq F] (h : AgentHeap F) (new : Option F)
    (dst src : Option HeapPage) :
    h.call new (.cow dst src) = (false, h) ∨
      ∃ d s f w n, dst = some d ∧ src = some s ∧ d ≠ s ∧ h.entry s = some (f, w) ∧
        h.call new (.cow dst src) = (true, ⟨h.share d s f, n⟩) := by
  cases dst with
  | none => exact .inl rfl
  | some d =>
    cases src with
    | none => exact .inl rfl
    | some s =>
      show h.cowAlias d s = _ ∨ _
      by_cases hne : d = s
      · rw [cowAlias, if_pos hne]
        exact .inl rfl
      cases hsrc : h.entry s with
      | none => exact .inl (h.cowAlias_unmapped hne hsrc)
      | some e =>
        obtain ⟨f, w⟩ := e
        cases hdst : h.entry d with
        | none =>
          by_cases hfull : 16 ≤ h.mapped
          · exact .inl (by rw [h.cowAlias_new hne hsrc hdst, if_pos hfull])
          · refine .inr ⟨d, s, f, w, h.mapped + 1, rfl, rfl, hne, hsrc, ?_⟩
            show h.cowAlias d s = _
            rw [h.cowAlias_new hne hsrc hdst, if_neg hfull]
        | some e' =>
          obtain ⟨g, v⟩ := e'
          by_cases hgf : g = f
          · refine .inr ⟨d, s, f, w, h.mapped, rfl, rfl, hne, hsrc, ?_⟩
            show h.cowAlias d s = _
            rw [h.cowAlias_mapped hne hsrc hdst, if_pos hgf]
          · exact .inl (by rw [h.cowAlias_mapped hne hsrc hdst, if_neg hgf])

theorem call_cow_none [DecidableEq F] (h : AgentHeap F) (new : Option F) (dst : Option HeapPage) :
    h.call new (.cow dst none) = (false, h) := by
  cases dst with
  | none => rfl
  | some _ => rfl

theorem call_cow_same [DecidableEq F] (h : AgentHeap F) (new : Option F)
    {dst src : Option HeapPage} (hsame : dst = src) : h.call new (.cow dst src) = (false, h) := by
  subst hsame
  cases dst with
  | none => rfl
  | some p => exact if_pos rfl

/-- A heap without pages. -/
def empty : AgentHeap F := ⟨fun _ => none, 0⟩

end AgentHeap

/-! ## Counting pages -/

namespace AgentHeap

variable {F : Type*} {h : AgentHeap F} {p dst src : HeapPage} {e : F × Bool}

/-- How many pages are mapped. -/
def count (h : AgentHeap F) : Nat := slotCount fun p => (h.entry p).isSome

/-- `heap_mapped` counts the mapped pages, but for `extra` of them. -/
def Counted (h : AgentHeap F) (extra : Nat) : Prop := h.mapped + extra = h.count

theorem count_update_new (hp : h.entry p = none) (e : F × Bool) (n : Nat) :
    count ⟨update h.entry p (some e), n⟩ = h.count + 1 := by
  refine slotCount_succ (i := p) ?_ ?_ fun q hq => ?_
  · rw [hp]
    rfl
  · dsimp only
    rw [update_self]
    rfl
  · dsimp only
    rw [update_of_ne hq]

theorem count_update_old (hp : h.entry p = some e) (e' : F × Bool) (n : Nat) :
    count ⟨update h.entry p (some e'), n⟩ = h.count := by
  refine congrArg slotCount (funext fun q => ?_)
  dsimp only
  by_cases hq : q = p
  · rw [hq, update_self, hp]
    rfl
  · rw [update_of_ne hq]

/-- A heap with a free page is not full. -/
theorem Counted.lt {extra : Nat} (hc : h.Counted extra) (hp : h.entry p = none) : h.mapped < 16 := by
  have hle : h.count + ({p} : Finset HeapPage).card ≤ 16 := by
    refine slotCount_add_le fun q hq => ?_
    rw [Finset.mem_singleton.mp hq, hp]
    rfl
  rw [Finset.card_singleton] at hle
  rw [Counted] at hc
  omega

theorem Counted.mapPage {extra : Nat} (hc : h.Counted extra) (p : HeapPage) (new : Option F) :
    (h.mapPage p new).2.Counted extra := by
  unfold AgentHeap.mapPage
  by_cases hp : (h.entry p).isSome = true
  · rw [if_pos hp]
    exact hc
  rw [if_neg hp]
  split_ifs
  · exact hc
  · cases new with
    | none => exact hc
    | some f =>
      have hnone := Option.not_isSome_iff_eq_none.mp hp
      show h.mapped + 1 + extra = _
      rw [count_update_new hnone, ← hc]
      omega

theorem Counted.share {extra : Nat} (hc : h.Counted extra) {f : F} (hsrc : h.entry src = some e) :
    (∀ e', h.entry dst = some e' →
        Counted { h with entry := h.share dst src f } extra) ∧
      (h.entry dst = none → Counted ⟨h.share dst src f, h.mapped + 1⟩ extra) := by
  have hcount := count_update_old hsrc (f, false) h.mapped
  constructor
  · intro e' hdst
    obtain ⟨e'', he''⟩ : ∃ e'', update h.entry src (some (f, false)) dst = some e'' := by
      by_cases hds : dst = src
      · exact ⟨_, by rw [hds, update_self]⟩
      · exact ⟨e', by rw [update_of_ne hds, hdst]⟩
    show h.mapped + extra = _
    rw [AgentHeap.share, count_update_old (h := ⟨_, h.mapped⟩) he'', hcount, ← hc]
  · intro hdst
    have hds : dst ≠ src := by
      rintro rfl
      exact absurd (hdst.symm.trans hsrc) nofun
    have hnone : update h.entry src (some (f, false)) dst = none := by
      rw [update_of_ne hds, hdst]
    show h.mapped + 1 + extra = _
    rw [AgentHeap.share, count_update_new (h := ⟨_, h.mapped⟩) hnone, hcount, ← hc]
    omega

/-- **Every call keeps the count.** -/
theorem Counted.call [DecidableEq F] {extra : Nat} (hc : h.Counted extra) (new : Option F)
    (c : HeapCall) : (h.call new c).2.Counted extra := by
  cases c with
  | map page =>
    cases page with
    | none => exact hc
    | some p => exact hc.mapPage p new
  | check first last write => exact hc
  | fault page write =>
    cases page with
    | none => exact hc
    | some p =>
      show (h.fault p write new).2.Counted extra
      unfold AgentHeap.fault
      cases hp : h.entry p with
      | none => exact hc.mapPage p new
      | some e =>
        dsimp only
        split_ifs
        · cases new with
          | none => exact hc
          | some g =>
            show h.mapped + extra = _
            rw [count_update_old hp, ← hc]
        · exact hc
  | cow dst src =>
    cases dst with
    | none => exact hc
    | some dst =>
      cases src with
      | none => exact hc
      | some src =>
        show (h.cowAlias dst src).2.Counted extra
        by_cases hne : dst = src
        · rw [AgentHeap.cowAlias, if_pos hne]
          exact hc
        cases hsrc : h.entry src with
        | none =>
          rw [h.cowAlias_unmapped hne hsrc]
          exact hc
        | some e =>
          cases hdst : h.entry dst with
          | none =>
            rw [h.cowAlias_new hne hsrc hdst]
            split_ifs
            · exact hc
            · exact (hc.share hsrc).2 hdst
          | some e' =>
            rw [h.cowAlias_mapped hne hsrc hdst]
            split_ifs
            · exact (hc.share hsrc).1 e' hdst
            · exact hc

end AgentHeap

/-! ## Heaps of the same shape -/

/-- The heaps differ in the names of frames only. -/
structure SameShape {F G : Type*} (h : AgentHeap F) (g : AgentHeap G) : Prop where
  mapped : h.mapped = g.mapped
  perm : ∀ p, h.perm p = g.perm p
  frames : ∀ p q, h.frame p = h.frame q ↔ g.frame p = g.frame q

namespace SameShape

variable {F G : Type*} {h : AgentHeap F} {g : AgentHeap G} {f : F} {f' : G} {p dst src : HeapPage}

theorem empty : SameShape (AgentHeap.empty : AgentHeap F) (AgentHeap.empty : AgentHeap G) :=
  ⟨rfl, fun _ => rfl, fun _ _ => ⟨fun _ => rfl, fun _ => rfl⟩⟩

theorem frame_update (entry : HeapPage → Option (F × Bool)) (n : Nat) (p : HeapPage) (f : F)
    (w : Bool) :
    (⟨update entry p (some (f, w)), n⟩ : AgentHeap F).frame =
      update (AgentHeap.frame ⟨entry, n⟩) p (some f) :=
  comp_update (Option.map Prod.fst) entry p (some (f, w))

theorem perm_update (entry : HeapPage → Option (F × Bool)) (n : Nat) (p : HeapPage) (f : F)
    (w : Bool) :
    (⟨update entry p (some (f, w)), n⟩ : AgentHeap F).perm =
      update (AgentHeap.perm ⟨entry, n⟩) p (some w) :=
  comp_update (Option.map Prod.snd) entry p (some (f, w))

theorem isSome_entry (hs : SameShape h g) (p : HeapPage) :
    (h.entry p).isSome = (g.entry p).isSome := by
  have hperm := congrArg Option.isSome (hs.perm p)
  simpa only [AgentHeap.perm, Option.isSome_map] using hperm

/-- The other heap has an entry with the same permission. -/
theorem entry_some (hs : SameShape h g) {w : Bool} (hp : h.entry p = some (f, w)) :
    ∃ f', g.entry p = some (f', w) := by
  have hperm := hs.perm p
  rw [AgentHeap.perm, hp] at hperm
  obtain ⟨⟨f', w'⟩, hg, rfl⟩ := Option.map_eq_some_iff.mp hperm.symm
  exact ⟨f', hg⟩

theorem entry_none (hs : SameShape h g) (hp : h.entry p = none) : g.entry p = none := by
  have hsome := hs.isSome_entry p
  rw [hp] at hsome
  exact Option.isSome_eq_false_iff.mp hsome.symm |> Option.isNone_iff_eq_none.mp

/-- Equality patterns with a new value in one place. -/
theorem frames_update_new {X Y : Type*} {a : HeapPage → Option X} {b : HeapPage → Option Y}
    {x : X} {y : Y} (hab : ∀ p q, a p = a q ↔ b p = b q) (hx : ∀ p, a p ≠ some x)
    (hy : ∀ p, b p ≠ some y) (p : HeapPage) :
    ∀ q r, update a p (some x) q = update a p (some x) r ↔
      update b p (some y) q = update b p (some y) r := by
  intro q r
  by_cases hq : q = p
  · subst hq
    by_cases hr : r = q
    · rw [hr]
      exact ⟨fun _ => rfl, fun _ => rfl⟩
    · rw [update_self, update_self, update_of_ne hr,
        update_of_ne hr]
      exact ⟨fun h => absurd h.symm (hx r), fun h => absurd h.symm (hy r)⟩
  · by_cases hr : r = p
    · subst hr
      rw [update_self, update_self, update_of_ne hq,
        update_of_ne hq]
      exact ⟨fun h => absurd h (hx q), fun h => absurd h (hy q)⟩
    · rw [update_of_ne hq, update_of_ne hq, update_of_ne hr,
        update_of_ne hr]
      exact hab q r

/-- A value of one place copied to another. -/
theorem update_copy {X : Type*} (a : HeapPage → X) (dst src q : HeapPage) :
    update a dst (a src) q = a (if q = dst then src else q) := by
  by_cases hq : q = dst
  · rw [hq, update_self, if_pos rfl]
  · rw [update_of_ne hq, if_neg hq]

/-- Equality patterns with the value of one place copied to another. -/
theorem frames_update_copy {X Y : Type*} {a : HeapPage → X} {b : HeapPage → Y}
    (hab : ∀ p q, a p = a q ↔ b p = b q) (dst src : HeapPage) :
    ∀ q r, update a dst (a src) q = update a dst (a src) r ↔
      update b dst (b src) q = update b dst (b src) r := by
  intro q r
  rw [update_copy a, update_copy a, update_copy b, update_copy b]
  exact hab _ _

/-- **A page gets a new frame in both heaps.** -/
theorem put (hs : SameShape h g) (hf : h.Unused f) (hf' : g.Unused f') (p : HeapPage) (w : Bool)
    {n m : Nat} (hnm : n = m) :
    SameShape ⟨update h.entry p (some (f, w)), n⟩
      (⟨update g.entry p (some (f', w)), m⟩ : AgentHeap G) where
  mapped := hnm
  perm q := by
    rw [perm_update, perm_update, show AgentHeap.perm ⟨h.entry, n⟩ = g.perm from funext hs.perm]
    rfl
  frames := by
    rw [frame_update, frame_update]
    exact frames_update_new hs.frames hf hf' p

/-- **Two pages share a frame in both heaps.** -/
theorem share (hs : SameShape h g) {w : Bool} (hsrc : h.entry src = some (f, w))
    (hsrc' : g.entry src = some (f', w)) (dst : HeapPage) {n m : Nat} (hnm : n = m) :
    SameShape ⟨h.share dst src f, n⟩ (⟨g.share dst src f', m⟩ : AgentHeap G) := by
  have hframe : h.frame src = some f := by rw [AgentHeap.frame, hsrc]; rfl
  have hframe' : g.frame src = some f' := by rw [AgentHeap.frame, hsrc']; rfl
  -- the frame of `src` stays, and `dst` gets it
  have hself : update h.frame src (some f) = h.frame := by
    rw [← hframe, update_eq_self]
  have hself' : update g.frame src (some f') = g.frame := by
    rw [← hframe', update_eq_self]
  refine ⟨hnm, fun q => ?_, ?_⟩
  · rw [AgentHeap.share, AgentHeap.share, perm_update, perm_update, perm_update, perm_update,
      show AgentHeap.perm ⟨h.entry, n⟩ = g.perm from funext hs.perm]
    rfl
  · have hshare : (⟨h.share dst src f, n⟩ : AgentHeap F).frame =
        update h.frame dst (h.frame src) := by
      rw [AgentHeap.share, frame_update, frame_update, hframe]
      exact congrArg (update · dst (some f)) hself
    have hshare' : (⟨g.share dst src f', m⟩ : AgentHeap G).frame =
        update g.frame dst (g.frame src) := by
      rw [AgentHeap.share, frame_update, frame_update, hframe']
      exact congrArg (update · dst (some f')) hself'
    rw [hshare, hshare']
    exact frames_update_copy hs.frames dst src

/-- What `kalloc_page` returns on both sides: both fail, or both hand out a new frame. -/
structure NewFrames (h : AgentHeap F) (g : AgentHeap G) (new : Option F) (new' : Option G) :
    Prop where
  isSome : new.isSome = new'.isSome
  left : ∀ f, new = some f → h.Unused f
  right : ∀ f, new' = some f → g.Unused f

theorem NewFrames.cases {new : Option F} {new' : Option G} (hnew : NewFrames h g new new') :
    (new = none ∧ new' = none) ∨
      ∃ f f', new = some f ∧ new' = some f' ∧ h.Unused f ∧ g.Unused f' := by
  have hsome := hnew.isSome
  cases hleft : new with
  | none =>
    cases hright : new' with
    | none => exact .inl ⟨rfl, rfl⟩
    | some f' =>
      rw [hleft, hright] at hsome
      exact absurd hsome nofun
  | some f =>
    cases hright : new' with
    | none =>
      rw [hleft, hright] at hsome
      exact absurd hsome nofun
    | some f' => exact .inr ⟨f, f', rfl, rfl, hnew.left f hleft, hnew.right f' hright⟩

/-- Both calls answer alike and leave heaps of one shape. -/
def Alike (out : Bool × AgentHeap F) (out' : Bool × AgentHeap G) : Prop :=
  out.1 = out'.1 ∧ SameShape out.2 out'.2

section Calls

variable {new : Option F} {new' : Option G} (hs : SameShape h g) (hnew : NewFrames h g new new')

include hs

theorem refused : Alike (false, h) (false, g) := ⟨rfl, hs⟩

include hnew

theorem mapPage (p : HeapPage) : Alike (h.mapPage p new) (g.mapPage p new') := by
  unfold AgentHeap.mapPage
  rw [hs.isSome_entry p, hs.mapped]
  split_ifs
  · exact ⟨rfl, hs⟩
  · exact hs.refused
  · rcases hnew.cases with ⟨rfl, rfl⟩ | ⟨f, f', rfl, rfl, hf, hf'⟩
    · exact hs.refused
    · exact ⟨rfl, hs.put hf hf' p true rfl⟩

theorem fault (p : HeapPage) (write : Bool) :
    Alike (h.fault p write new) (g.fault p write new') := by
  unfold AgentHeap.fault
  cases hp : h.entry p with
  | none =>
    rw [hs.entry_none hp]
    exact hs.mapPage hnew p
  | some e =>
    obtain ⟨i, w⟩ := e
    obtain ⟨i', hp'⟩ := hs.entry_some hp
    rw [hp']
    dsimp only
    split_ifs
    · rcases hnew.cases with ⟨rfl, rfl⟩ | ⟨f, f', rfl, rfl, hf, hf'⟩
      · exact hs.refused
      · exact ⟨rfl, hs.put hf hf' p true hs.mapped⟩
    · exact hs.refused

omit hnew in
theorem cowAlias [DecidableEq F] [DecidableEq G] (dst src : HeapPage) :
    Alike (h.cowAlias dst src) (g.cowAlias dst src) := by
  rw [AgentHeap.cowAlias, AgentHeap.cowAlias]
  by_cases hds : dst = src
  · rw [if_pos hds, if_pos hds]
    exact hs.refused
  rw [if_neg hds, if_neg hds]
  cases hsrc : h.entry src with
  | none =>
    rw [hs.entry_none hsrc]
    exact hs.refused
  | some e =>
    obtain ⟨f, w⟩ := e
    obtain ⟨f', hsrc'⟩ := hs.entry_some hsrc
    rw [hsrc']
    cases hdst : h.entry dst with
    | none =>
      rw [hs.entry_none hdst]
      dsimp only
      rw [hs.mapped]
      split_ifs
      · exact hs.refused
      · exact ⟨rfl, hs.share hsrc hsrc' dst rfl⟩
    | some e =>
      obtain ⟨i, v⟩ := e
      obtain ⟨i', hdst'⟩ := hs.entry_some hdst
      rw [hdst']
      -- the frames are equal in one heap iff they are in the other
      have hequal : i = f ↔ i' = f' := by
        have := hs.frames dst src
        simpa only [AgentHeap.frame, hsrc, hsrc', hdst, hdst', Option.map_some,
          Option.some_inj] using this
      dsimp only
      by_cases hif : i = f
      · rw [if_pos hif, if_pos (hequal.mp hif)]
        exact ⟨rfl, hs.share hsrc hsrc' dst hs.mapped⟩
      · rw [if_neg hif, if_neg fun h => hif (hequal.mpr h)]
        exact hs.refused

/-- **Every call answers alike** in heaps of one shape, and keeps the shape. -/
theorem call [DecidableEq F] [DecidableEq G] (c : HeapCall) :
    Alike (h.call new c) (g.call new' c) := by
  cases c with
  | map page =>
    cases page with
    | none => exact hs.refused
    | some p => exact hs.mapPage hnew p
  | cow dst src =>
    cases dst with
    | none => exact hs.refused
    | some dst =>
      cases src with
      | none => exact hs.refused
      | some src => exact hs.cowAlias dst src
  | fault page write =>
    cases page with
    | none => exact hs.refused
    | some p => exact hs.fault hnew p write
  | check first last write =>
    refine ⟨?_, hs⟩
    show h.userCheck first last write = g.userCheck first last write
    simp only [AgentHeap.userCheck, AgentHeap.pageOk, hs.perm]

end Calls

end SameShape

end OpenAgentOS
