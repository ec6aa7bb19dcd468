import OpenAgentOS.Fs.RamfsRuns

/-!
# What an operation on one path leaves alone

- `Ramfs.SameUnder q`: between two tables, the files under path `q` are the same
  slots with the same content. It composes along runs, and a reader of `q` sees
  no difference (`SameUnder.visible`, `SameUnder.read`).
- `sameUnder_write`, `sameUnder_put`: `ramfs_write` and `ramfs_put` change files
  under one path only. That is the path as it is stored, which for an overlong
  path is its first 63 bytes.
- `Ramfs.ReachesOn paths`: one table comes from another by calls that store under
  the given paths. Kernel code that works on files is described by this relation
  once; what it leaves alone follows (`ReachesOn.sameUnder`).
-/

namespace OpenAgentOS

open Function

variable {fs fs' : Ramfs} {path q : CStr} {i : Fin ramfsMaxFiles}

/-- The slot is a file with path `q`. -/
def RamfsFile.Holds (f : RamfsFile) (q : CStr) : Prop := f.used = true ∧ f.path = q

/-- The files under `q` are the same in both tables. -/
def Ramfs.SameUnder (q : CStr) (fs fs' : Ramfs) : Prop :=
  ∀ i, (fs i).Holds q ∨ (fs' i).Holds q → fs' i = fs i

namespace Ramfs.SameUnder

theorem refl (q : CStr) (fs : Ramfs) : SameUnder q fs fs := fun _ _ => rfl

theorem trans {fs₁ fs₂ fs₃ : Ramfs} (h₁ : SameUnder q fs₁ fs₂) (h₂ : SameUnder q fs₂ fs₃) :
    SameUnder q fs₁ fs₃ := by
  intro i hi
  rcases hi with h | h
  · have heq := h₁ i (.inl h)
    rw [h₂ i (.inl (heq ▸ h)), heq]
  · have heq := h₂ i (.inr h)
    rw [heq, h₁ i (.inr (heq ▸ h))]

/-- A search for `q` ends in the same slot. -/
theorem find (h : SameUnder q fs fs') : fs'.find q = fs.find q := by
  refine congrArg firstSlot (funext fun i => ?_)
  by_cases hi : (fs i).Holds q ∨ (fs' i).Holds q
  · rw [h i hi]
  · rw [not_or] at hi
    have hfalse : ∀ f : RamfsFile, ¬ f.Holds q → (f.used && f.path == q) = false := by
      intro f hf
      simpa [RamfsFile.Holds] using hf
    rw [hfalse _ hi.1, hfalse _ hi.2]

/-- The slot the search ends in is untouched. -/
theorem slot (h : SameUnder q fs fs') (hfind : fs.find q = some i) : fs' i = fs i :=
  h i (.inl (find_some hfind))

/-- A reader finds the same content. -/
theorem visible (h : SameUnder q fs fs') : fs'.visible q = fs.visible q := by
  rw [Ramfs.visible, Ramfs.visible, h.find]
  cases hfind : fs.find q with
  | none => rfl
  | some i => rw [Option.map_some, Option.map_some, h.slot hfind]

end Ramfs.SameUnder

/-! ## The operations -/

/-- A change of one slot that is not under `q` before or after. -/
theorem sameUnder_of_slot (hother : ∀ j, j ≠ i → fs' j = fs j) (hold : ¬ (fs i).Holds q)
    (hnew : ¬ (fs' i).Holds q) : fs.SameUnder q fs' := by
  intro j hj
  by_cases hji : j = i
  · subst hji
    rcases hj with h | h
    · exact absurd h hold
    · exact absurd h hnew
  · exact hother j hji

/-- After a creating lookup, the slot holds the path as stored, and nothing under
another path has changed. -/
theorem sameUnder_lookup (h : lookup fs path true = some (i, fs'))
    (hq : path.copy ramfsPathMax ≠ q) : fs.SameUnder q fs' ∧ (fs' i).path ≠ q := by
  obtain ⟨hfind, rfl⟩ | ⟨-, hfree, rfl⟩ := lookup_create h
  · obtain ⟨-, hpath⟩ := find_some hfind
    -- a path that is found is short enough to be stored as it is
    have hshort : path.copy ramfsPathMax = path :=
      CStr.copy_eq_self (hpath ▸ (fs' i).path_lt)
    exact ⟨.refl q fs', by rwa [hpath, ← hshort]⟩
  · have hpath : ((fs.create i path) i).path = path.copy ramfsPathMax := by
      rw [Ramfs.create, update_self]
    refine ⟨sameUnder_of_slot (fun j hj => update_of_ne hj _ _) ?_ ?_, ?_⟩
    · rintro ⟨hused, -⟩
      rw [hfree] at hused
      exact absurd hused (by decide)
    · exact fun hholds => hq (hpath ▸ hholds.2)
    · rwa [hpath]

theorem sameUnder_store (hpath : (fs i).path ≠ q) (data : Buf) (size : Nat)
    (hsize : size < ramfsFileSize) : fs.SameUnder q (fs.store i data size hsize) := by
  refine sameUnder_of_slot (fun j hj => update_of_ne hj _ _) (fun h => hpath h.2) ?_
  rintro ⟨-, h⟩
  rw [Ramfs.store, update_self] at h
  exact hpath h

/-- **`ramfs_write` touches only the path it is given**, whether it succeeds or
not. -/
theorem sameUnder_write (fs : Ramfs) (offset : Nat) (data : List UInt8)
    (hq : path.copy ramfsPathMax ≠ q) :
    fs.SameUnder q (ramfsWrite fs path offset data).2 := by
  rw [ramfsWrite]
  split
  · exact .refl q fs
  · split
    · exact .refl q fs
    · rename_i hlookup
      obtain ⟨hsame, hpath⟩ := sameUnder_lookup hlookup hq
      split
      · exact hsame
      · exact hsame.trans (sameUnder_store hpath _ _ _)

/-- **`ramfs_put` touches only the path it is given.** -/
theorem sameUnder_put (fs : Ramfs) (data : List UInt8) (hq : path.copy ramfsPathMax ≠ q) :
    fs.SameUnder q (ramfsPut fs path data).2 := by
  rw [ramfsPut]
  split
  · exact .refl q fs
  · split
    · exact .refl q fs
    · rename_i hlookup
      obtain ⟨hsame, hpath⟩ := sameUnder_lookup hlookup hq
      exact hsame.trans (sameUnder_store hpath _ _ _)

/-! ## Calls under given paths -/

/-- The path under which a call stores, if it is not the one that clears all. -/
def RamfsCall.storesUnder : RamfsCall → Option CStr
  | .write path _ _ => some (path.copy ramfsPathMax)
  | .put path _ => some (path.copy ramfsPathMax)
  | .clearUser => none

/-- `fs'` comes from `fs` by writes and puts under `paths`. -/
def Ramfs.ReachesOn (paths : CStr → Prop) (fs fs' : Ramfs) : Prop :=
  ∃ calls : List RamfsCall,
    (∀ c ∈ calls, ∃ p, c.storesUnder = some p ∧ paths p) ∧ fs' = fs.run calls

namespace Ramfs.ReachesOn

variable {paths paths' : CStr → Prop}

theorem refl (paths : CStr → Prop) (fs : Ramfs) : ReachesOn paths fs fs :=
  ⟨[], List.forall_mem_nil _, rfl⟩

theorem trans {fs₁ fs₂ fs₃ : Ramfs} (h₁ : ReachesOn paths fs₁ fs₂)
    (h₂ : ReachesOn paths fs₂ fs₃) : ReachesOn paths fs₁ fs₃ := by
  obtain ⟨calls₁, hpaths₁, rfl⟩ := h₁
  obtain ⟨calls₂, hpaths₂, rfl⟩ := h₂
  refine ⟨calls₁ ++ calls₂, fun c hc => ?_, List.foldl_append.symm⟩
  rcases List.mem_append.mp hc with hc | hc
  · exact hpaths₁ c hc
  · exact hpaths₂ c hc

theorem mono (h : ReachesOn paths fs fs') (hle : ∀ p, paths p → paths' p) :
    ReachesOn paths' fs fs' := by
  obtain ⟨calls, hpaths, rfl⟩ := h
  refine ⟨calls, fun c hc => ?_, rfl⟩
  obtain ⟨p, hp, hpath⟩ := hpaths c hc
  exact ⟨p, hp, hle p hpath⟩

theorem write (fs : Ramfs) (offset : Nat) (data : List UInt8)
    (h : paths (path.copy ramfsPathMax)) :
    ReachesOn paths fs (ramfsWrite fs path offset data).2 :=
  ⟨[.write path offset data], List.forall_mem_singleton.mpr ⟨_, rfl, h⟩, rfl⟩

theorem put (fs : Ramfs) (data : List UInt8) (h : paths (path.copy ramfsPathMax)) :
    ReachesOn paths fs (ramfsPut fs path data).2 :=
  ⟨[.put path data], List.forall_mem_singleton.mpr ⟨_, rfl, h⟩, rfl⟩

/-- **Files under other paths stay as they are.** -/
theorem sameUnder (h : ReachesOn paths fs fs') (hq : ¬ paths q) : fs.SameUnder q fs' := by
  obtain ⟨calls, hpaths, rfl⟩ := h
  induction calls generalizing fs with
  | nil => exact .refl q fs
  | cons c calls ih =>
    obtain ⟨⟨p, hp, hpath⟩, hpaths⟩ := List.forall_mem_cons.mp hpaths
    have hpq : p ≠ q := fun h => hq (h ▸ hpath)
    refine SameUnder.trans ?_ (ih hpaths)
    cases c with
    | write path offset data =>
      exact sameUnder_write fs offset data fun h => hpq (Option.some.inj hp ▸ h)
    | put path data => exact sameUnder_put fs data fun h => hpq (Option.some.inj hp ▸ h)
    | clearUser => cases hp

end Ramfs.ReachesOn

end OpenAgentOS
