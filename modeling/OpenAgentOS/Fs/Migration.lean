import OpenAgentOS.Fs.RoundTrip

/-!
# From AOS1 to AOS2 (kernel/persist.c, scripts/seed-aos1-disk.py)

An AOS1 image has neither CRCs nor a checksum. The first boot from it restores the files
and saves them again, to the same disk, as an AOS2 image; the next boot reads that.

- `IsAos1Image`: the layout that the AOS1 writer leaves, with different paths outside
  `/sys`.
- `Migrates`: after the first boot the user files are those of the image, and a second
  boot finds an AOS2 image and the same files.
- `migrates_iff`: if the first boot succeeds, this is so exactly if `is_sys_path` takes no
  path for one in `/sys`, and the number of files is positive as an `int`. A file such as
  `/sysx` is restored, but not saved again.
-/

namespace OpenAgentOS

open CInt

/-- An AOS1 image of the files: the superblock, and for each file a metadata sector and the
sectors of its data. -/
structure IsAos1Image (d : Disk) (rs : List FileRec) : Prop where
  magic : (persistReadSuper d).magic = persistMagic
  version : (persistReadSuper d).version = persistVersionAos1
  count : (persistReadSuper d).fileCount.toNat = rs.length
  holds : HoldsRecs false d 1 rs
  short : ∀ r ∈ rs, r.1.length < ramfsPathMax
  outside : ∀ r ∈ rs, underSys r.1 = false
  distinct : (rs.map Prod.fst).Nodup

/-- The files are there after a boot from the disk `d`, and again after a second boot from
what the first one has left, which is an AOS2 image. -/
def Migrates (junk junk' : Nat → Buf) (mem mem' : Ramfs) (d : Disk) (rs : List FileRec) : Prop :=
  let out := reboot true junk mem d
  let d' := d.writeAll out.writes
  let out' := reboot true junk' mem' d'
  out.fs.userFiles = { r | r ∈ rs } ∧
    (persistReadSuper d').magic = persistMagic ∧
    (persistReadSuper d').version = persistVersionAos2 ∧
    out'.rc = 0 ∧ out'.fs.userFiles = out.fs.userFiles

/-! ## The first boot -/

section First

variable {d : Disk} {rs : List FileRec} (h : IsAos1Image d rs) {junk : Nat → Buf} {mem : Ramfs}

/-- Different paths have no chance to disagree. -/
theorem consistent_of_nodup (hdistinct : (rs.map Prod.fst).Nodup) : Consistent rs := by
  intro r hr r' hr' hpath
  exact congrArg Prod.snd (List.inj_on_of_nodup_map hdistinct hr hr' hpath)

include h

/-- A boot from an AOS1 image: the loader, and on success a sync. -/
theorem IsAos1Image.reboot_eq (junk : Nat → Buf) (mem : Ramfs) {n : Nat}
    (hn : loopCount (persistReadSuper d).fileCount = n) :
    let load := persistLoadV1 d n 1 (ramfsInit mem)
    reboot true junk mem d =
      if load.1 ≠ 0 then ⟨load.1, load.2, []⟩
      else ⟨(persistSync true junk load.2).1, load.2, (persistSync true junk load.2).2⟩ := by
  rw [reboot, persistLoad_aos1 h.magic h.version hn, ramfsClearUser_init]

/-- **A first boot that succeeds** has restored all files and written the image of what it
has in its table, if the loop runs for as many as there are. -/
theorem IsAos1Image.first_boot (hcount : rs.length < 2 ^ 31)
    (hrc : (reboot true junk mem d).rc = 0) :
    ∃ fs, (ramfsInit mem).restore rs = (0, fs) ∧ (∀ r ∈ rs, r.SizeOk) ∧
      (reboot true junk mem d).fs = fs ∧
      (reboot true junk mem d).writes = (persistSync true junk fs).2 := by
  have hn : loopCount (persistReadSuper d).fileCount = rs.length := by
    rw [← UInt32.ofNat_toNat (x := (persistReadSuper d).fileCount), h.count, loopCount_ofNat hcount]
  have hboot := h.reboot_eq junk mem hn
  dsimp only at hboot
  by_cases hload : (persistLoadV1 d rs.length 1 (ramfsInit mem)).1 = 0
  · rw [if_neg (not_not.mpr hload)] at hboot
    have hsize : ∀ r ∈ rs, r.SizeOk := by
      have hall := (loadV1_holds hload).2
      have hread := diskRecs_of_holds h.holds 0
      rw [Nat.add_zero, diskRecs, List.append_nil] at hread
      rwa [hread] at hall
    rw [loadV1_of_holds hsize h.holds] at hload hboot
    rcases hrest : (ramfsInit mem).restore rs with ⟨rc, fs⟩
    rw [hrest, restoreOutcome] at hload hboot
    by_cases hzero : rc = 0
    · rw [if_neg (not_not.mpr hzero)] at hboot
      exact ⟨fs, by rw [hzero], hsize, by rw [hboot], by rw [hboot]⟩
    · rw [if_pos hzero] at hload
      cases hload
  · rw [if_pos hload] at hboot
    rw [hboot] at hrc
    exact absurd hrc hload

/-- With a negative count the loop does not run: there are no files, and none are saved. -/
theorem IsAos1Image.first_boot_negative (hcount : 2 ^ 31 ≤ rs.length) :
    (reboot true junk mem d).fs = ramfsInit mem := by
  have hlt : rs.length < 2 ^ 32 := h.count ▸ (persistReadSuper d).fileCount.toNat_lt
  have hn : loopCount (persistReadSuper d).fileCount = 0 := by
    rw [loopCount, h.count, toInt32]
    have hneg : Int.bmod (rs.length : Int) (2 ^ 32) ≤ 0 := by
      rw [Int.bmod_def]
      split <;> omega
    exact Int.toNat_of_nonpos hneg
  have hboot := h.reboot_eq junk mem hn
  rw [hboot]
  rfl

end First

/-! ## Both boots -/

/-- The files that a first boot leaves can be saved exactly if none is taken for a `/sys`
file. -/
theorem persistable_iff_of_userFiles {fs : Ramfs} {rs : List FileRec}
    (hfiles : fs.userFiles = { r | r ∈ rs }) (hsize : ∀ r ∈ rs, r.SizeOk)
    (hcons : Consistent rs) : Persistable fs ↔ ∀ r ∈ rs, isSysPath r.1 = false := by
  have hmem : ∀ r, r ∈ fs.userFiles ↔ r ∈ rs := fun r => by rw [hfiles]; rfl
  constructor
  · intro hp r hr
    exact hp.not_sys r ((hmem r).mpr hr)
  · intro hsys
    constructor
    · intro r hr
      exact List.ne_nil_of_length_pos (hsize r ((hmem r).mp hr)).1
    · intro r hr
      exact hsys r ((hmem r).mp hr)
    · intro r hr r' hr' hpath
      exact hcons r ((hmem r).mp hr) r' ((hmem r').mp hr') hpath

/-- **Migration.** If the first boot from an AOS1 image succeeds, it and a second boot
bring all files exactly if none is taken for a `/sys` file and their number is not negative
as an `int`. -/
theorem migrates_iff (junk junk' : Nat → Buf) (mem mem' : Ramfs) (d : Disk) (rs : List FileRec)
    (h : IsAos1Image d rs) (hrc : (reboot true junk mem d).rc = 0) :
    Migrates junk junk' mem mem' d rs ↔
      rs.length < 2 ^ 31 ∧ ∀ r ∈ rs, isSysPath r.1 = false := by
  by_cases hcount : rs.length < 2 ^ 31
  · obtain ⟨fs, hrest, hsize, hfs, hwrites⟩ := h.first_boot hcount hrc
    have hcons := consistent_of_nodup h.distinct
    have hfiles := userFiles_of_consistent h.short hcons h.outside hrest
    have hsaved : fs.userRecs.length ≤ 62 := by
      rw [(restore_ok h.short (ramfsInit_pathsUnique mem) hrest).2.2, length_userRecs]
      exact userCount_run_le mem _
    have hsuper := super_after_sync junk d fs
    rw [and_iff_right hcount, ← persistable_iff_of_userFiles hfiles hsize hcons, Migrates, hfs,
      hwrites, hsuper]
    constructor
    · rintro ⟨-, -, -, hsecond⟩
      exact persistable_of_reboot junk junk' mem' d hsaved hsecond
    · intro hp
      exact ⟨hfiles, rfl, rfl, reboot_of_persistable junk junk' mem' d hsaved hp⟩
  · refine iff_of_false ?_ fun hall => hcount hall.1
    rintro ⟨hfiles, -⟩
    rw [h.first_boot_negative (Nat.not_lt.mp hcount)] at hfiles
    obtain ⟨r, hr⟩ := List.exists_mem_of_length_pos (show 0 < rs.length by omega)
    have hmem : r ∈ (ramfsInit mem).userFiles := by
      rw [hfiles]
      exact hr
    exact not_mem_userFiles (visible_ramfsInit (h.outside r hr)) r.2 hmem

/-! ### One file -/

/-- What the AOS1 writer leaves for a file of one byte. -/
def aos1Disk (path : CStr) : Disk :=
  zeroDisk.writeAll ((0, superSector ⟨persistMagic, persistVersionAos1, 1, 0⟩) ::
    (1, metaSector (zeroJunk 0) ⟨path, 1, 0⟩) :: persistWriteFileData 2 [1])

theorem isAos1Image_aos1Disk {path : CStr} (hshort : path.length < ramfsPathMax)
    (hsys : underSys path = false) : IsAos1Image (aos1Disk path) [(path, [1])] := by
  have hsuper : persistReadSuper (aos1Disk path) = ⟨persistMagic, persistVersionAos1, 1, 0⟩ :=
    persistReadSuper_eq rfl
  constructor
  · rw [hsuper]
  · rw [hsuper]
  · rw [hsuper]
    rfl
  · rw [holdsRecs_cons]
    refine ⟨fun k hk => ?_, fun t ht => absurd ht (Nat.not_lt_zero t)⟩
    have hk : k = 0 ∨ k = 1 := by
      have hlen : recLen (path, [1]) = 2 := show sectorsFor 1 + 1 = 2 by decide
      omega
    obtain rfl | rfl := hk
    · have hmeta : sectorMeta (aos1Disk path (1 + 0)) = ⟨path, 1, 0⟩ :=
        sectorMeta_metaSector (zeroJunk 0) hshort
      rw [RecFits, hmeta]
      exact ⟨rfl, rfl, fun h => absurd h Bool.false_ne_true⟩
    · intro j _ _
      rfl
  · simpa using hshort
  · simpa using hsys
  · simp

theorem migrates_iff_a :
    (reboot true zeroJunk zeroMem (aos1Disk (.lit "/a"))).rc = 0 ∧
      Migrates zeroJunk zeroJunk zeroMem zeroMem (aos1Disk (.lit "/a")) [(.lit "/a", [1])] :=
  ⟨by decide +kernel, (migrates_iff zeroJunk zeroJunk zeroMem zeroMem _ _
    (isAos1Image_aos1Disk (by decide) (by decide)) (by decide +kernel)).mpr
      ⟨by decide, by simp only [List.forall_mem_singleton]; decide⟩⟩

/-- **`/sysx` is lost.** The first boot has it and reports success; the second has not. -/
theorem not_migrates :
    IsAos1Image (aos1Disk (.lit "/sysx")) [(.lit "/sysx", [1])] ∧
      (reboot true zeroJunk zeroMem (aos1Disk (.lit "/sysx"))).rc = 0 ∧
      ¬ Migrates zeroJunk zeroJunk zeroMem zeroMem (aos1Disk (.lit "/sysx")) [(.lit "/sysx", [1])] := by
  refine ⟨isAos1Image_aos1Disk (by decide) (by decide), by decide +kernel, ?_⟩
  rintro ⟨hfirst, -, -, -, hsecond⟩
  rw [hfirst] at hsecond
  have hnone : (reboot true zeroJunk zeroMem ((aos1Disk (.lit "/sysx")).writeAll
      (reboot true zeroJunk zeroMem (aos1Disk (.lit "/sysx"))).writes)).fs.visible (.lit "/sysx")
        = none := by decide +kernel
  refine not_mem_userFiles hnone [1] ?_
  rw [hsecond]
  exact List.mem_singleton_self _

end OpenAgentOS
