import OpenAgentOS.Fs.Ramfs

/-!
# What operations on the RAM file system can do

- `lookup_create`: the only two ways a creating lookup ends.
- `RamfsCall`: the calls through which the kernel changes files. Every tool
  changes files by `ramfs_write` and `ramfs_put` alone, so a run of tool calls
  is a run of these. The two seeded `/sys` files survive every run
  (`run_sysKept`), which leaves 62 slots for user files (`userCount_run_le`).
- `Ramfs.visible`: the content a reader finds under a path, and what
  `ramfs_put` does to it (`visible_put`).
- `Ramfs.restore`: puts one after the other, as a load from disk does;
  `exists_restore` says when it succeeds and `restore_ok` what is visible afterwards.
-/

namespace OpenAgentOS

open CString Function

variable {fs fs' : Ramfs} {path : CStr} {i : Fin ramfsMaxFiles}

/-- A creating lookup finds the path, or takes a free slot for it. -/
theorem lookup_create (h : lookup fs path true = some (i, fs')) :
    (fs.find path = some i ∧ fs' = fs) ∨
      (fs.find path = none ∧ (fs i).used = false ∧ fs' = fs.create i path) := by
  rw [lookup] at h
  cases hfind : fs.find path with
  | some j =>
    rw [hfind] at h
    obtain ⟨rfl, rfl⟩ := Prod.mk.inj (Option.some.inj h)
    exact .inl ⟨rfl, rfl⟩
  | none =>
    rw [hfind] at h
    dsimp only at h
    rw [if_pos rfl] at h
    obtain ⟨j, hfree, hj⟩ := Option.map_eq_some_iff.mp h
    obtain ⟨rfl, rfl⟩ := Prod.mk.inj hj
    exact .inr ⟨rfl, by simpa using firstSlot_some hfree, rfl⟩

/-- What a search by path finds is in use under that path. -/
theorem find_some (h : fs.find path = some i) : (fs i).used = true ∧ (fs i).path = path := by
  simpa using firstSlot_some h

/-! ## Runs -/

/-- Calls that change files. -/
inductive RamfsCall where
  | write (path : CStr) (offset : Nat) (data : List UInt8)
  | put (path : CStr) (data : List UInt8)
  | clearUser

/-- The table after a call, whether it succeeds or not. -/
def Ramfs.step (fs : Ramfs) : RamfsCall → Ramfs
  | .write path offset data => (ramfsWrite fs path offset data).2
  | .put path data => (ramfsPut fs path data).2
  | .clearUser => ramfsClearUser fs

/-- The table after a sequence of calls. -/
def Ramfs.run (fs : Ramfs) (calls : List RamfsCall) : Ramfs := calls.foldl Ramfs.step fs

/-- Slots in use under a `/sys` path stay in use under it. -/
def SysKept (fs fs' : Ramfs) : Prop :=
  ∀ i, (fs i).used = true → isSysPath (fs i).path = true →
    (fs' i).used = true ∧ (fs' i).path = (fs i).path

theorem SysKept.refl (fs : Ramfs) : SysKept fs fs := fun _ hused _ => ⟨hused, rfl⟩

theorem SysKept.trans {fs₁ fs₂ fs₃ : Ramfs} (h₁ : SysKept fs₁ fs₂) (h₂ : SysKept fs₂ fs₃) :
    SysKept fs₁ fs₃ := by
  intro i hused hsys
  obtain ⟨hused₂, hpath₂⟩ := h₁ i hused hsys
  obtain ⟨hused₃, hpath₃⟩ := h₂ i hused₂ (by rwa [hpath₂])
  exact ⟨hused₃, hpath₃.trans hpath₂⟩

/-- Creating a file in a free slot keeps all others. -/
theorem sysKept_create (hfree : (fs i).used = false) : SysKept fs (fs.create i path) := by
  intro j hused _
  have hj : j ≠ i := fun hji => by rw [hji, hfree] at hused; exact absurd hused (by decide)
  rw [Ramfs.create, update_of_ne hj]
  exact ⟨hused, rfl⟩

/-- Changing the data of a file keeps its name. -/
theorem sysKept_store (data : Buf) (size : Nat) (hsize : size < ramfsFileSize) :
    SysKept fs (fs.store i data size hsize) := by
  intro j hused _
  by_cases hj : j = i
  · subst hj
    rw [Ramfs.store, update_self]
    exact ⟨hused, rfl⟩
  · rw [Ramfs.store, update_of_ne hj]
    exact ⟨hused, rfl⟩

theorem sysKept_lookup (h : lookup fs path true = some (i, fs')) : SysKept fs fs' := by
  obtain ⟨-, rfl⟩ | ⟨-, hfree, rfl⟩ := lookup_create h
  · exact .refl fs'
  · exact sysKept_create hfree

theorem sysKept_write (fs : Ramfs) (path : CStr) (offset : Nat) (data : List UInt8) :
    SysKept fs (ramfsWrite fs path offset data).2 := by
  rw [ramfsWrite]
  split
  · exact .refl fs
  · split
    · exact .refl fs
    · rename_i hlookup
      split
      · exact sysKept_lookup hlookup
      · exact (sysKept_lookup hlookup).trans (sysKept_store _ _ _)

theorem sysKept_put (fs : Ramfs) (path : CStr) (data : List UInt8) :
    SysKept fs (ramfsPut fs path data).2 := by
  rw [ramfsPut]
  split
  · exact .refl fs
  · split
    · exact .refl fs
    · rename_i hlookup
      exact (sysKept_lookup hlookup).trans (sysKept_store _ _ _)

theorem sysKept_clearUser (fs : Ramfs) : SysKept fs (ramfsClearUser fs) := by
  intro i hused hsys
  have huser : (fs i).isUser = false := by rw [RamfsFile.isUser, hused, hsys]; rfl
  rw [ramfsClearUser, huser]
  exact ⟨hused, rfl⟩

/-- **Runs keep the `/sys` files in use**, whatever the calls. -/
theorem run_sysKept (fs : Ramfs) (calls : List RamfsCall) : SysKept fs (fs.run calls) := by
  induction calls generalizing fs with
  | nil => exact .refl fs
  | cons c calls ih =>
    refine SysKept.trans ?_ (ih (fs.step c))
    cases c with
    | write path offset data => exact sysKept_write fs path offset data
    | put path data => exact sysKept_put fs path data
    | clearUser => exact sysKept_clearUser fs

/-- Initialisation puts the two seeded files into slots 0 and 1 and frees the
others. -/
theorem ramfsInit_seeds (mem : Ramfs) :
    ((ramfsInit mem 0).used = true ∧ (ramfsInit mem 0).path = .lit "/sys/version") ∧
      ((ramfsInit mem 1).used = true ∧ (ramfsInit mem 1).path = .lit "/sys/tick_hz") :=
  ⟨⟨rfl, rfl⟩, rfl, rfl⟩

theorem ramfsInit_used_of_ne (mem : Ramfs) (h0 : i ≠ 0) (h1 : i ≠ 1) :
    (ramfsInit mem i).used = false := by
  -- four updates: each seed creates its slot and then stores into it
  have hinit : ∃ f g h k, ramfsInit mem = update (update
      (update (update (fun i => { mem i with used := false }) 0 f) 0 g) 1 h) 1 k :=
    ⟨_, _, _, _, rfl⟩
  obtain ⟨f, g, h, k, hinit⟩ := hinit
  rw [hinit]
  simp [h0, h1]

/-- The seeded slots hold no user file, after any run. -/
theorem run_seed_not_user (mem : Ramfs) (calls : List RamfsCall) :
    ∀ i ∈ ({0, 1} : Finset (Fin ramfsMaxFiles)),
      (((ramfsInit mem).run calls) i).isUser = false := by
  have hkept := run_sysKept (ramfsInit mem) calls
  obtain ⟨⟨hused₀, hpath₀⟩, hused₁, hpath₁⟩ := ramfsInit_seeds mem
  intro i hi
  rw [Finset.mem_insert, Finset.mem_singleton] at hi
  obtain rfl | rfl := hi
  · obtain ⟨-, hpath⟩ := hkept 0 hused₀ (by rw [hpath₀]; decide)
    rw [RamfsFile.isUser, hpath, hpath₀, show isSysPath (.lit "/sys/version") = true by decide,
      Bool.not_true, Bool.and_false]
  · obtain ⟨-, hpath⟩ := hkept 1 hused₁ (by rw [hpath₁]; decide)
    rw [RamfsFile.isUser, hpath, hpath₁, show isSysPath (.lit "/sys/tick_hz") = true by decide,
      Bool.not_true, Bool.and_false]

/-- **At most 62 user files** exist after any run. -/
theorem userCount_run_le (mem : Ramfs) (calls : List RamfsCall) :
    ramfsUserCount ((ramfsInit mem).run calls) ≤ 62 := by
  rw [ramfsUserCount, Ramfs.userSlots, length_slotsWith]
  exact Nat.le_of_add_le_add_right (slotCount_add_le (run_seed_not_user mem calls))

/-! ## What is visible under a path -/

/-- The content a reader finds under `path`. -/
def Ramfs.visible (fs : Ramfs) (path : CStr) : Option (List UInt8) :=
  (fs.find path).map fun i => (fs i).content

/-- No two files in use share a path. -/
def Ramfs.PathsUnique (fs : Ramfs) : Prop :=
  ∀ i j, (fs i).used = true → (fs j).used = true → (fs i).path = (fs j).path → i = j

/-- With unique paths, the files in use are exactly what is visible. -/
theorem visible_eq_some_iff (huniq : fs.PathsUnique) {content : List UInt8} :
    fs.visible path = some content ↔
      ∃ i, (fs i).used = true ∧ (fs i).path = path ∧ (fs i).content = content := by
  constructor
  · intro h
    obtain ⟨i, hfind, hcontent⟩ := Option.map_eq_some_iff.mp h
    exact ⟨i, (find_some hfind).1, (find_some hfind).2, hcontent⟩
  · rintro ⟨i, hused, hpath, hcontent⟩
    have hfind : fs.find path = some i := by
      refine firstSlot_eq_some_of_unique (by simp [hused, hpath]) fun j hj => ?_
      obtain ⟨hj₁, hj₂⟩ : (fs j).used = true ∧ (fs j).path = path := by simpa using hj
      exact huniq j i hj₁ hused (hj₂.trans hpath.symm)
    rw [Ramfs.visible, hfind, Option.map_some, hcontent]

/-- Storing `data` and a terminator makes `data` the content. -/
theorem slice_terminated (b : Buf) (data : List UInt8) :
    (b.write 0 (data ++ [0])).slice 0 data.length = data := by
  refine Buf.slice_eq_of_getD fun k hk => ?_
  rw [Buf.write, if_pos ⟨Nat.zero_le _, by rw [List.length_append]; omega⟩]
  simp [List.getD_eq_getElem?_getD, List.getElem?_append_left hk]

/-- Storing `data` at the beginning keeps what follows. -/
theorem slice_overwritten (b : Buf) (data : List UInt8) (size : Nat) :
    (b.write 0 data).slice 0 (max data.length size)
      = data ++ (b.slice 0 size).drop data.length := by
  have hlen : (data ++ (b.slice 0 size).drop data.length).length = max data.length size := by
    rw [List.length_append, List.length_drop, Buf.length_slice]
    omega
  rw [← hlen]
  refine Buf.slice_eq_of_getD fun k hk => ?_
  rw [Nat.zero_add, Buf.write]
  by_cases hkd : k < data.length
  · rw [if_pos ⟨Nat.zero_le _, by omega⟩, List.getD_append _ _ _ _ hkd, Nat.sub_zero]
  · rw [if_neg (by omega), List.getD_append_right _ _ _ _ (by omega),
      List.getD_eq_getElem _ _ (by rw [List.length_append] at hk; omega), List.getElem_drop,
      Buf.getElem_slice]
    congr 1
    omega

/-- One file has changed: it is in use under the path as it is stored and has the given
content, in a slot that had that path before or was free. -/
def Ramfs.Stored (fs : Ramfs) (path : CStr) (content : List UInt8) (fs' : Ramfs) : Prop :=
  ∃ i, (fs' i).used = true ∧ (fs' i).path = path.copy ramfsPathMax ∧
    (fs' i).content = content ∧ (∀ j, j ≠ i → fs' j = fs j) ∧
    (fs.find path = some i ∨ (fs.find path = none ∧ (fs i).used = false))

/-- What is stored in the slot of a creating lookup. -/
theorem stored_of_lookup {fs₁ : Ramfs} (hlookup : lookup fs path true = some (i, fs₁))
    (data : Buf) (size : Nat) (hsize : size < ramfsFileSize) :
    fs.Stored path (data.slice 0 size) (fs₁.store i data size hsize) := by
  have hnow : (fs₁ i).used = true ∧ (fs₁ i).path = path.copy ramfsPathMax ∧
      (∀ j, j ≠ i → fs₁ j = fs j) ∧
      (fs.find path = some i ∨ (fs.find path = none ∧ (fs i).used = false)) := by
    obtain ⟨hfind, rfl⟩ | ⟨hfind, hfree, rfl⟩ := lookup_create hlookup
    · obtain ⟨hused, hpath⟩ := find_some hfind
      refine ⟨hused, ?_, fun _ _ => rfl, .inl hfind⟩
      rw [← hpath, CStr.copy_eq_self (fs₁ i).path_lt]
    · rw [Ramfs.create, update_self]
      exact ⟨rfl, rfl, fun j hj => update_of_ne hj _ _, .inr ⟨hfind, hfree⟩⟩
  obtain ⟨hused, hpath, hother, hslot⟩ := hnow
  refine ⟨i, ?_, ?_, ?_, fun j hj => ?_, hslot⟩
  · rw [Ramfs.store, update_self]
    exact hused
  · rw [Ramfs.store, update_self]
    exact hpath
  · rw [Ramfs.store, update_self]
    rfl
  · rw [Ramfs.store, update_of_ne hj, hother j hj]

/-- A successful put leaves exactly the data. -/
theorem ramfsPut_ok {data : List UInt8} (h : ramfsPut fs path data = (0, fs')) :
    fs.Stored path data fs' := by
  rw [ramfsPut] at h
  split at h
  · exact absurd (Prod.mk.inj h).1 (by decide)
  · split at h
    · exact absurd (Prod.mk.inj h).1 (by decide)
    · rename_i hsize i fs₁ hlookup
      obtain ⟨-, rfl⟩ := Prod.mk.inj h
      have hstored := stored_of_lookup hlookup ((fs₁ i).data.write 0 (data ++ [0])) data.length
        (by omega)
      rwa [slice_terminated] at hstored

/-- A creating lookup fails only for a new path in a full table. -/
theorem exists_lookup
    (hroom : fs.visible path = none → slotCount (fun i => (fs i).used) < ramfsMaxFiles) :
    ∃ i fs₁, lookup fs path true = some (i, fs₁) := by
  cases hlookup : lookup fs path true with
  | some found => exact ⟨found.1, found.2, rfl⟩
  | none =>
    rw [lookup] at hlookup
    split at hlookup
    · exact absurd hlookup (by simp)
    · rename_i hfind
      obtain ⟨i, hi⟩ := exists_free_of_slotCount_lt (hroom (by rw [Ramfs.visible, hfind]; rfl))
      rw [if_pos rfl, Option.map_eq_none_iff, firstSlot_eq_none] at hlookup
      exact absurd (hlookup i) (by simp [hi])

theorem lookup_of_full (hnone : fs.visible path = none)
    (hfull : ¬ slotCount (fun i => (fs i).used) < ramfsMaxFiles) :
    lookup fs path true = none := by
  have hfind : fs.find path = none := Option.map_eq_none_iff.mp hnone
  have hfree : (firstSlot fun i => !(fs i).used) = none := by
    refine firstSlot_eq_none.mpr fun i => ?_
    rw [Bool.not_eq_false']
    by_contra hi
    -- a free slot is not counted
    have hcount : slotCount (fun i => (fs i).used) + ({i} : Finset _).card ≤ ramfsMaxFiles := by
      refine slotCount_add_le fun j hj => ?_
      rw [Finset.mem_singleton.mp hj, Bool.not_eq_true _ |>.mp hi]
    rw [Finset.card_singleton] at hcount
    exact hfull hcount
  rw [lookup, hfind]
  dsimp only
  rw [if_pos rfl, hfree]
  rfl

/-- The slot of a creating lookup holds what was visible before. -/
theorem content_lookup {fs₁ : Ramfs} (hlookup : lookup fs path true = some (i, fs₁)) :
    (fs₁ i).content = (fs.visible path).getD [] := by
  obtain ⟨hfind, rfl⟩ | ⟨hfind, -, rfl⟩ := lookup_create hlookup
  · rw [Ramfs.visible, hfind]
    rfl
  · rw [Ramfs.visible, hfind, Ramfs.create, update_self]
    rfl

/-- A put fails only for a size out of range, or for a new file in a full table. -/
theorem ramfsPut_of_found_or_room {data : List UInt8} (hpos : 0 < data.length)
    (hsize : data.length < ramfsFileSize)
    (hroom : fs.visible path = none → slotCount (fun i => (fs i).used) < ramfsMaxFiles) :
    ∃ fs', ramfsPut fs path data = (0, fs') := by
  obtain ⟨i, fs₁, hlookup⟩ := exists_lookup hroom
  rw [ramfsPut, dif_neg (by omega), hlookup]
  exact ⟨_, rfl⟩

/-- A new file finds no place in a full table. -/
theorem ramfsPut_of_full {data : List UInt8} (hpos : 0 < data.length)
    (hsize : data.length < ramfsFileSize) (hnone : fs.visible path = none)
    (hfull : ¬ slotCount (fun i => (fs i).used) < ramfsMaxFiles) :
    ramfsPut fs path data = (enospc, fs) := by
  rw [ramfsPut, dif_neg (by omega), lookup_of_full hnone hfull]

/-- **A write at the beginning** replaces as many bytes as it has and keeps the rest. -/
theorem ramfsWrite_of_found_or_room {data : List UInt8} (hpos : 0 < data.length)
    (hsize : data.length < ramfsFileSize)
    (hroom : fs.visible path = none → slotCount (fun i => (fs i).used) < ramfsMaxFiles) :
    ∃ fs', ramfsWrite fs path 0 data = ((data.length : Int), fs') ∧
      fs.Stored path (data ++ ((fs.visible path).getD []).drop data.length) fs' := by
  obtain ⟨i, fs₁, hlookup⟩ := exists_lookup hroom
  have hmax : (if (fs₁ i).size < 0 + data.length then 0 + data.length else (fs₁ i).size)
      = max data.length (fs₁ i).size := by
    split <;> omega
  have hlt : max data.length (fs₁ i).size < ramfsFileSize := max_lt hsize (fs₁ i).size_lt
  have hstored := stored_of_lookup hlookup ((fs₁ i).data.write 0 data) _ hlt
  rw [slice_overwritten, show (fs₁ i).data.slice 0 (fs₁ i).size = (fs₁ i).content from rfl,
    content_lookup hlookup] at hstored
  refine ⟨_, ?_, hstored⟩
  rw [ramfsWrite, if_neg (by omega), hlookup]
  dsimp only
  rw [dif_neg (by omega)]
  congr 2

theorem ramfsWrite_of_full {data : List UInt8} (hpos : 0 < data.length) (offset : Nat)
    (hnone : fs.visible path = none)
    (hfull : ¬ slotCount (fun i => (fs i).used) < ramfsMaxFiles) :
    ramfsWrite fs path offset data = (enospc, fs) := by
  rw [ramfsWrite, if_neg (by omega), lookup_of_full hnone hfull]

theorem ramfsPut_of_room {data : List UInt8} (hpos : 0 < data.length)
    (hsize : data.length < ramfsFileSize)
    (hroom : slotCount (fun i => (fs i).used) < ramfsMaxFiles) :
    ∃ fs', ramfsPut fs path data = (0, fs') :=
  ramfsPut_of_found_or_room hpos hsize fun _ => hroom

/-- A put takes at most one more slot. -/
theorem slotCount_put_le {data : List UInt8} (h : ramfsPut fs path data = (0, fs')) :
    slotCount (fun i => (fs' i).used) ≤ slotCount (fun i => (fs i).used) + 1 := by
  obtain ⟨i, -, -, -, hother, -⟩ := ramfsPut_ok h
  exact slotCount_le_succ (i := i) fun j hj hused => by rwa [← hother j hj]

/-- So does a write. -/
theorem slotCount_write_le (fs : Ramfs) (path : CStr) (offset : Nat) (data : List UInt8) :
    slotCount (fun i => (ramfsWrite fs path offset data).2 i |>.used)
      ≤ slotCount (fun i => (fs i).used) + 1 := by
  rw [ramfsWrite]
  by_cases hempty : data.length = 0
  · rw [if_pos hempty]
    exact Nat.le_succ _
  · rw [if_neg hempty]
    cases hlookup : lookup fs path true with
    | none => exact Nat.le_succ _
    | some found =>
      obtain ⟨i, fs₁⟩ := found
      -- the only slot in use now that was not before is the one the lookup took
      have hother : ∀ j, j ≠ i → fs₁ j = fs j := by
        intro j hj
        obtain ⟨-, rfl⟩ | ⟨-, -, rfl⟩ := lookup_create hlookup
        · rfl
        · rw [Ramfs.create, update_of_ne hj]
      dsimp only
      by_cases hsize : ramfsFileSize ≤ offset + data.length
      · rw [dif_pos hsize]
        exact slotCount_le_succ (i := i) fun j hj hused => by rwa [← hother j hj]
      · rw [dif_neg hsize]
        refine slotCount_le_succ (i := i) fun j hj hused => ?_
        dsimp only [Ramfs.store] at hused
        rw [update_of_ne hj, hother j hj] at hused
        exact hused

/-- A read returns a slice of what is visible. -/
theorem ramfsRead_eq (fs : Ramfs) (path : CStr) (offset : Nat) (len : Int) :
    ramfsRead fs path offset len =
      if len ≤ 0 then .error einval
      else match fs.visible path with
        | none => .error enoent
        | some content => .ok ((content.drop offset).take len.toNat) := by
  rw [ramfsRead]
  by_cases hlen : len ≤ 0
  · rw [if_pos hlen, if_pos hlen]
  rw [if_neg hlen, if_neg hlen, lookup, Ramfs.visible]
  cases hfind : fs.find path with
  | none => rfl
  | some i =>
    dsimp only [Option.map_some]
    have hcontent : (fs i).content.length = (fs i).size := Buf.length_slice _ _ _
    by_cases hend : (fs i).size ≤ offset
    · rw [if_pos hend, List.drop_eq_nil_of_le (by omega), List.take_nil]
    · rw [if_neg hend]
      refine congrArg Except.ok (List.ext_getElem ?_ fun k h₁ h₂ => ?_)
      · rw [Buf.length_slice, List.length_take, List.length_drop, hcontent]
      · rw [Buf.getElem_slice, List.getElem_take, List.getElem_drop]
        exact ((Buf.getElem_slice _ _ _ _ _).trans (by rw [Nat.zero_add])).symm

/-- A read from the start returns the beginning of what is visible. -/
theorem ramfsRead_start (fs : Ramfs) (path : CStr) {len : Nat} (hlen : 0 < len) :
    ramfsRead fs path 0 len = match fs.visible path with
      | none => .error enoent
      | some content => .ok (content.take len) := by
  rw [ramfsRead_eq, if_neg (by omega)]
  rfl

/-- Every content is shorter than a data array. -/
theorem length_lt_of_visible {content : List UInt8} (h : fs.visible path = some content) :
    content.length < ramfsFileSize := by
  obtain ⟨i, -, rfl⟩ := Option.map_eq_some_iff.mp h
  rw [RamfsFile.content, Buf.length_slice]
  exact (fs i).size_lt

/-- A whole file is read. -/
theorem ramfsRead_all {content : List UInt8} (h : fs.visible path = some content) (hpos : 0 < content.length) :
    ramfsRead fs path 0 content.length = .ok content := by
  rw [ramfsRead_start fs path hpos, h]
  exact congrArg Except.ok List.take_length

/-- A put that fails changes nothing. -/
theorem ramfsPut_failed {data : List UInt8}
    (h : (ramfsPut fs path data).1 ≠ 0) : (ramfsPut fs path data).2 = fs := by
  rw [ramfsPut] at h ⊢
  split_ifs with hsize
  · rfl
  · rw [dif_neg hsize] at h
    split
    · rfl
    · rename_i hlookup
      rw [hlookup] at h
      exact absurd rfl h

/-- A put succeeds exactly if the size is in range and there is a place for the file. -/
theorem ramfsPut_fst_eq_zero_iff {data : List UInt8} : (ramfsPut fs path data).1 = 0 ↔ 0 < data.length ∧
    data.length < ramfsFileSize ∧
    (fs.visible path = none → slotCount (fun i => (fs i).used) < ramfsMaxFiles) := by
  constructor
  · intro h
    have hsize : 0 < data.length ∧ data.length < ramfsFileSize := by
      rw [ramfsPut] at h
      split_ifs at h with hsize
      · exact absurd h (show einval ≠ 0 by decide)
      · omega
    refine ⟨hsize.1, hsize.2, fun hnone => ?_⟩
    by_contra hfull
    rw [ramfsPut_of_full hsize.1 hsize.2 hnone hfull] at h
    exact absurd h (show enospc ≠ 0 by decide)
  · rintro ⟨hpos, hlt, hroom⟩
    obtain ⟨fs', hput⟩ := ramfsPut_of_found_or_room hpos hlt hroom
    rw [hput]

section ShortPath

variable {data : List UInt8} (hshort : path.length < ramfsPathMax)

namespace Ramfs.Stored

variable (h : fs.Stored path data fs')

include hshort h

/-- What is stored is visible under its path. -/
theorem visible_self : fs'.visible path = some data := by
  obtain ⟨i, hused, hpath, hcontent, hother, hslot⟩ := h
  rw [CStr.copy_eq_self hshort] at hpath
  have hnow : ((fs' i).used && (fs' i).path == path) = true := by simp [hused, hpath]
  have hfind : fs'.find path = some i := by
    obtain hfind | ⟨hfind, -⟩ := hslot
    · -- the same slots answer to the path as before
      have hsame : (fun j => (fs' j).used && (fs' j).path == path)
          = fun j => (fs j).used && (fs j).path == path := by
        funext j
        by_cases hj : j = i
        · rw [hj, hnow, firstSlot_some hfind]
        · rw [hother j hj]
      rw [Ramfs.find, hsame]
      exact hfind
    · refine firstSlot_eq_some_of_unique hnow fun j hj => ?_
      by_contra hji
      rw [hother j hji] at hj
      rw [firstSlot_eq_none.mp hfind j] at hj
      cases hj
  rw [Ramfs.visible, hfind, Option.map_some, hcontent]

/-- Paths stay unique if the path fits. -/
theorem pathsUnique (huniq : fs.PathsUnique) : fs'.PathsUnique := by
  obtain ⟨i, -, hpath, -, hother, hslot⟩ := h
  rw [CStr.copy_eq_self hshort] at hpath
  -- no slot other than `i` had the path before
  have honly : ∀ j, j ≠ i → (fs j).used = true → (fs j).path ≠ path := by
    intro j hj hused hjp
    obtain hfind | ⟨hfind, -⟩ := hslot
    · exact hj (huniq j i hused (find_some hfind).1 (hjp.trans (find_some hfind).2.symm))
    · have := firstSlot_eq_none.mp hfind j
      simp [hused, hjp] at this
  intro j k hj hk hjk
  by_cases hji : j = i <;> by_cases hki : k = i
  · rw [hji, hki]
  · rw [hother k hki] at hk hjk
    rw [hji, hpath] at hjk
    exact absurd hjk.symm (honly k hki hk)
  · rw [hother j hji] at hj hjk
    rw [hki, hpath] at hjk
    exact absurd hjk (honly j hji hj)
  · rw [hother j hji] at hj hjk
    rw [hother k hki] at hk hjk
    exact huniq j k hj hk hjk

/-- **Only what is visible under the path changes.** -/
theorem visible (huniq : fs.PathsUnique) (q : CStr) :
    fs'.visible q = if path = q then some data else fs.visible q := by
  have huniq' := h.pathsUnique hshort huniq
  obtain ⟨i, hused, hpath, hcontent, hother, hslot⟩ := h
  rw [CStr.copy_eq_self hshort] at hpath
  by_cases hq : path = q
  · rw [if_pos hq]
    exact (visible_eq_some_iff huniq').mpr ⟨i, hused, hpath.trans hq, hcontent⟩
  · rw [if_neg hq]
    -- slot `i` holds `path` now, and held it or nothing before
    have hold : ¬ ((fs i).used = true ∧ (fs i).path = q) := by
      rintro ⟨hu, hp⟩
      obtain hfind | ⟨-, hfree⟩ := hslot
      · exact hq ((find_some hfind).2.symm.trans hp)
      · rw [hfree] at hu
        exact absurd hu (by decide)
    refine Option.ext fun content => ?_
    rw [visible_eq_some_iff huniq', visible_eq_some_iff huniq]
    constructor
    · rintro ⟨j, hj⟩
      have hji : j ≠ i := fun hji => hq (by rw [← hj.2.1, hji, hpath])
      exact ⟨j, by rwa [← hother j hji]⟩
    · rintro ⟨j, hj⟩
      have hji : j ≠ i := fun hji => hold (by rw [← hji]; exact ⟨hj.1, hj.2.1⟩)
      exact ⟨j, by rwa [hother j hji]⟩

end Ramfs.Stored

section Attempts

variable (fs) (hpos : 0 < data.length) (hlt : data.length < ramfsFileSize)

include hshort hpos hlt

/-- After a write at the beginning the file is what was written and what was there behind
that, or it is still missing because there is no slot. -/
theorem visible_write_self :
    (ramfsWrite fs path 0 data).2.visible path
        = some (data ++ ((fs.visible path).getD []).drop data.length) ∨
      (ramfsWrite fs path 0 data).2.visible path = none := by
  by_cases hroom : fs.visible path = none → slotCount (fun i => (fs i).used) < ramfsMaxFiles
  · obtain ⟨fs', hwrite, hstored⟩ := ramfsWrite_of_found_or_room hpos hlt hroom
    rw [hwrite]
    exact .inl (hstored.visible_self hshort)
  · obtain ⟨hnone, hfull⟩ := Classical.not_imp.mp hroom
    rw [ramfsWrite_of_full hpos 0 hnone hfull]
    exact .inr hnone

/-- After a put the file is what was put, or still missing. -/
theorem visible_put_or_none :
    (ramfsPut fs path data).2.visible path = some data ∨
      (ramfsPut fs path data).2.visible path = none := by
  by_cases hroom : fs.visible path = none → slotCount (fun i => (fs i).used) < ramfsMaxFiles
  · obtain ⟨fs', hput⟩ := ramfsPut_of_found_or_room hpos hlt hroom
    rw [hput]
    exact .inl ((ramfsPut_ok hput).visible_self hshort)
  · obtain ⟨hnone, hfull⟩ := Classical.not_imp.mp hroom
    rw [ramfsPut_of_full hpos hlt hnone hfull]
    exact .inr hnone

end Attempts

variable (h : ramfsPut fs path data = (0, fs'))

include hshort h

/-- A put is visible under its path. -/
theorem visible_put_self : fs'.visible path = some data := (ramfsPut_ok h).visible_self hshort

/-- A put under a path that fits keeps paths unique. -/
theorem pathsUnique_put (huniq : fs.PathsUnique) : fs'.PathsUnique :=
  (ramfsPut_ok h).pathsUnique hshort huniq

/-- **A put changes what is visible under its own path only.** -/
theorem visible_put (huniq : fs.PathsUnique) (q : CStr) :
    fs'.visible q = if path = q then some data else fs.visible q :=
  (ramfsPut_ok h).visible hshort huniq q

end ShortPath

/-! ## Restoring a list of files -/

/-- A file as a load sees it: path and content. -/
abbrev FileRec := CStr × List UInt8

/-- Puts one after the other, until one fails. -/
def Ramfs.restore (fs : Ramfs) : List FileRec → Int × Ramfs
  | [] => (0, fs)
  | r :: rs =>
    if (ramfsPut fs r.1 r.2).1 = 0 then (ramfsPut fs r.1 r.2).2.restore rs
    else (ramfsPut fs r.1 r.2)

/-- The content a list of puts leaves under a path: the last one wins. -/
def lastUnder (q : CStr) (init : Option (List UInt8)) (rs : List FileRec) :
    Option (List UInt8) :=
  rs.foldl (fun content r => if r.1 = q then some r.2 else content) init

/-- What is under a path after the puts was there before, untouched, or is one of
the records. -/
theorem lastUnder_cases (q : CStr) (init : Option (List UInt8)) (rs : List FileRec) :
    (lastUnder q init rs = init ∧ ∀ r ∈ rs, r.1 ≠ q) ∨
      ∃ content, lastUnder q init rs = some content ∧ (q, content) ∈ rs := by
  induction rs generalizing init with
  | nil => exact .inl ⟨rfl, by simp⟩
  | cons r rs ih =>
    rw [lastUnder, List.foldl_cons, ← lastUnder]
    by_cases hr : r.1 = q
    · rw [if_pos hr]
      obtain ⟨hlast, -⟩ | ⟨content, hlast, hmem⟩ := ih (some r.2)
      · exact .inr ⟨r.2, hlast, by rw [← hr]; exact List.mem_cons_self⟩
      · exact .inr ⟨content, hlast, List.mem_cons_of_mem _ hmem⟩
    · rw [if_neg hr]
      obtain ⟨hlast, hnone⟩ | ⟨content, hlast, hmem⟩ := ih init
      · exact .inl ⟨hlast, List.forall_mem_cons.mpr ⟨hr, hnone⟩⟩
      · exact .inr ⟨content, hlast, List.mem_cons_of_mem _ hmem⟩

/-- A record that a load accepts. -/
structure FileRec.Loadable (r : FileRec) : Prop where
  short : r.1.length < ramfsPathMax
  nonempty : 0 < r.2.length
  size_lt : r.2.length < ramfsFileSize

/-- **What a successful restore leaves**: the last record of each path is visible, and the
table is that after the puts. -/
theorem restore_ok {rs : List FileRec} (hshort : ∀ r ∈ rs, r.1.length < ramfsPathMax)
    (huniq : fs.PathsUnique) (h : fs.restore rs = (0, fs')) :
    fs'.PathsUnique ∧ (∀ q, fs'.visible q = lastUnder q (fs.visible q) rs) ∧
      fs' = fs.run (rs.map fun r => .put r.1 r.2) := by
  induction rs generalizing fs with
  | nil =>
    obtain rfl := (Prod.mk.inj h).2
    exact ⟨huniq, fun _ => rfl, rfl⟩
  | cons r rs ih =>
    obtain ⟨hr, hrs⟩ := List.forall_mem_cons.mp hshort
    rw [Ramfs.restore] at h
    rcases hput : ramfsPut fs r.1 r.2 with ⟨rc, fs₁⟩
    rw [hput] at h
    by_cases hrc : rc = 0
    · rw [if_pos hrc] at h
      rw [hrc] at hput
      obtain ⟨huniq', hvis, hrun⟩ := ih hrs (pathsUnique_put hr hput huniq) h
      refine ⟨huniq', fun q => ?_, ?_⟩
      · rw [hvis, visible_put hr hput huniq, lastUnder, lastUnder, List.foldl_cons]
      · rw [hrun, List.map_cons, Ramfs.run, Ramfs.run, List.foldl_cons, Ramfs.step, hput]
    · rw [if_neg hrc] at h
      exact absurd (Prod.mk.inj h).1 hrc

/-- **Restoring** loadable records into a table with room for them succeeds. -/
theorem exists_restore {rs : List FileRec} (hrs : ∀ r ∈ rs, r.Loadable)
    (hroom : slotCount (fun i => (fs i).used) + rs.length ≤ ramfsMaxFiles) :
    ∃ fs', fs.restore rs = (0, fs') := by
  induction rs generalizing fs with
  | nil => exact ⟨fs, rfl⟩
  | cons r rs ih =>
    obtain ⟨hr, hrs⟩ := List.forall_mem_cons.mp hrs
    rw [List.length_cons] at hroom
    obtain ⟨fs₁, hput⟩ : ∃ fs₁, ramfsPut fs r.1 r.2 = (0, fs₁) :=
      ramfsPut_of_room hr.nonempty hr.size_lt (by omega)
    have hcount := slotCount_put_le hput
    rw [Ramfs.restore, hput, if_pos rfl]
    exact ih hrs (show slotCount (fun i => (fs₁ i).used) + rs.length ≤ ramfsMaxFiles by omega)

end OpenAgentOS
