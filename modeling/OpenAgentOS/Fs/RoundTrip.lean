import OpenAgentOS.Fs.DiskImage

/-!
# Saving and rebooting

A reboot is `ramfs_init` followed by `persist_load` on the same disk. The user
files are those outside `/sys/`; what the code takes for one is decided by
`is_sys_path`, which looks at three bytes only.

`roundTrips_iff`: after any run of the kernel, saving and rebooting brings all
user files back exactly when every one of them has at least one byte, is not
taken for a `/sys` file, and no two of them have the same path and different
contents. The first condition is violated by a `ramfs_write` that is refused for
its length: it has already created its file, and the loader turns an empty file
down together with the whole disk.
-/

namespace OpenAgentOS

open CInt CString

/-- The path lies in the directory `/sys`. -/
def underSys (path : CStr) : Bool := hasAt path.bytes 0 (bytes "/sys/")

/-- The files outside `/sys`, as a set of paths with contents. -/
def Ramfs.userFiles (fs : Ramfs) : Set FileRec :=
  { r | ∃ i, (fs i).used = true ∧ underSys (fs i).path = false ∧
    r = ((fs i).path, (fs i).content) }

/-- `ramfs_init` over the memory `mem`, then `persist_load`. -/
def reboot (blkOk : Bool) (junk : Nat → Buf) (mem : Ramfs) (d : Disk) : LoadOutcome :=
  persistLoad blkOk junk d (ramfsInit mem)

/-- If a sync succeeds, a reboot succeeds and brings back the same user files. -/
def RoundTrips (blkOk : Bool) (junk junk' : Nat → Buf) (mem : Ramfs) (d : Disk) (fs : Ramfs) :
    Prop :=
  (persistSync blkOk junk fs).1 = 0 →
    let out := reboot blkOk junk' mem (d.writeAll (persistSync blkOk junk fs).2)
    out.rc = 0 ∧ out.fs.userFiles = fs.userFiles

/-- All user files can be saved and loaded. -/
structure Persistable (fs : Ramfs) : Prop where
  nonempty : ∀ r ∈ fs.userFiles, r.2 ≠ []
  not_sys : ∀ r ∈ fs.userFiles, isSysPath r.1 = false
  consistent : ∀ r ∈ fs.userFiles, ∀ r' ∈ fs.userFiles, r.1 = r'.1 → r.2 = r'.2

/-- What is visible outside `/sys` is a user file. -/
theorem mem_userFiles_of_visible {fs : Ramfs} {path : CStr} {content : List UInt8}
    (hsys : underSys path = false) (hvis : fs.visible path = some content) :
    (path, content) ∈ fs.userFiles := by
  obtain ⟨i, hfind, rfl⟩ := Option.map_eq_some_iff.mp hvis
  obtain ⟨hused, rfl⟩ := find_some hfind
  exact ⟨i, hused, hsys, rfl⟩

/-- Under a path where nothing is visible there is no user file. -/
theorem not_mem_userFiles {fs : Ramfs} {path : CStr} (hvis : fs.visible path = none)
    (content : List UInt8) : (path, content) ∉ fs.userFiles := by
  rintro ⟨i, hused, -, hrec⟩
  have hnone := firstSlot_eq_none.mp (Option.map_eq_none_iff.mp hvis) i
  rw [(Prod.mk.inj hrec).1, hused] at hnone
  simp at hnone

/-! ## The freshly initialised file system -/

/-- What lies in `/sys` is taken for a `/sys` file. -/
theorem isSysPath_of_underSys {path : CStr} (h : underSys path = true) :
    isSysPath path = true := by
  have hbytes : bytes "/sys/" = ['/'.toUInt8, 's'.toUInt8, 'y'.toUInt8, 's'.toUInt8,
    '/'.toUInt8] := rfl
  rw [underSys, hbytes] at h
  simp only [hasAt, Bool.and_eq_true] at h
  obtain ⟨-, h1, h2, h3, -⟩ := h
  have hsys : bytes "sys" = ['s'.toUInt8, 'y'.toUInt8, 's'.toUInt8] := rfl
  rw [isSysPath, hsys]
  simp only [hasAt, Bool.and_eq_true]
  exact ⟨h1, h2, h3, trivial⟩

/-- Only the seeded files are in use, and they lie in `/sys`. -/
theorem ramfsInit_used {mem : Ramfs} {i : Fin ramfsMaxFiles}
    (h : (ramfsInit mem i).used = true) :
    (i = 0 ∧ (ramfsInit mem i).path = .lit "/sys/version") ∨
      (i = 1 ∧ (ramfsInit mem i).path = .lit "/sys/tick_hz") := by
  by_cases h0 : i = 0
  · exact .inl ⟨h0, by rw [h0]; rfl⟩
  · by_cases h1 : i = 1
    · exact .inr ⟨h1, by rw [h1]; rfl⟩
    · rw [ramfsInit_used_of_ne mem h0 h1] at h
      exact absurd h (by decide)

theorem ramfsInit_underSys {mem : Ramfs} {i : Fin ramfsMaxFiles}
    (h : (ramfsInit mem i).used = true) : underSys (ramfsInit mem i).path = true := by
  obtain ⟨-, hpath⟩ | ⟨-, hpath⟩ := ramfsInit_used h
  · rw [hpath]
    decide
  · rw [hpath]
    decide

theorem ramfsInit_pathsUnique (mem : Ramfs) : (ramfsInit mem).PathsUnique := by
  intro i j hi hj hij
  obtain ⟨rfl, hpi⟩ | ⟨rfl, hpi⟩ := ramfsInit_used hi
  all_goals obtain ⟨rfl, hpj⟩ | ⟨rfl, hpj⟩ := ramfsInit_used hj
  · rfl
  · exact absurd (hpi.symm.trans (hij.trans hpj)) (by decide)
  · exact absurd (hpi.symm.trans (hij.trans hpj)) (by decide)
  · rfl

theorem slotCount_ramfsInit_le (mem : Ramfs) :
    slotCount (fun i => (ramfsInit mem i).used) ≤ 2 := by
  have hsub : (Finset.univ.filter fun i => (ramfsInit mem i).used = true)
      ⊆ ({0, 1} : Finset (Fin ramfsMaxFiles)) := by
    intro i hi
    obtain ⟨rfl, -⟩ | ⟨rfl, -⟩ := ramfsInit_used (Finset.mem_filter.mp hi).2
    · decide
    · decide
  exact Finset.card_le_card hsub

/-- There is nothing to clear right after initialisation. -/
theorem ramfsClearUser_init (mem : Ramfs) : ramfsClearUser (ramfsInit mem) = ramfsInit mem := by
  funext i
  have huser : (ramfsInit mem i).isUser = false := by
    by_cases hused : (ramfsInit mem i).used = true
    · rw [RamfsFile.isUser, isSysPath_of_underSys (ramfsInit_underSys hused), Bool.not_true,
        Bool.and_false]
    · rw [RamfsFile.isUser, Bool.not_eq_true _ |>.mp hused, Bool.false_and]
  rw [ramfsClearUser, huser]
  rfl

/-- Outside `/sys` nothing is visible right after initialisation. -/
theorem visible_ramfsInit {mem : Ramfs} {q : CStr} (hq : underSys q = false) :
    (ramfsInit mem).visible q = none := by
  cases hvis : (ramfsInit mem).visible q with
  | none => rfl
  | some content =>
    obtain ⟨i, hused, rfl, -⟩ := (visible_eq_some_iff (ramfsInit_pathsUnique mem)).mp hvis
    rw [ramfsInit_underSys hused] at hq
    exact absurd hq (by decide)

/-- With unique paths, the user files are what is visible outside `/sys`. -/
theorem mem_userFiles_iff {fs : Ramfs} (huniq : fs.PathsUnique) {r : FileRec} :
    r ∈ fs.userFiles ↔ underSys r.1 = false ∧ fs.visible r.1 = some r.2 := by
  constructor
  · rintro ⟨i, hused, hsys, rfl⟩
    exact ⟨hsys, (visible_eq_some_iff huniq).mpr ⟨i, hused, rfl, rfl⟩⟩
  · rintro ⟨hsys, hvis⟩
    obtain ⟨i, hused, hpath, hcontent⟩ := (visible_eq_some_iff huniq).mp hvis
    exact ⟨i, hused, by rwa [hpath], by rw [hpath, hcontent]⟩

/-! ## Restoring after a reboot -/

/-- Records restored into the fresh file system: outside `/sys` the user files are the last
record of each path. -/
theorem userFiles_restore {mem fs' : Ramfs} {rs : List FileRec}
    (hshort : ∀ r ∈ rs, r.1.length < ramfsPathMax)
    (hrest : (ramfsInit mem).restore rs = (0, fs')) (r : FileRec) :
    r ∈ fs'.userFiles ↔ underSys r.1 = false ∧ lastUnder r.1 none rs = some r.2 := by
  obtain ⟨huniq, hvis, -⟩ := restore_ok hshort (ramfsInit_pathsUnique mem) hrest
  rw [mem_userFiles_iff huniq, hvis]
  constructor
  · rintro ⟨hsys, hlast⟩
    exact ⟨hsys, by rwa [visible_ramfsInit hsys] at hlast⟩
  · rintro ⟨hsys, hlast⟩
    exact ⟨hsys, by rwa [visible_ramfsInit hsys]⟩

/-- Records a load accepts are restored, if there is room for them. -/
theorem restore_ramfsInit (mem : Ramfs) {rs : List FileRec} (hrs : ∀ r ∈ rs, r.Loadable)
    (hcount : rs.length ≤ 62) : ∃ fs', (ramfsInit mem).restore rs = (0, fs') :=
  exists_restore hrs (Nat.add_le_add (slotCount_ramfsInit_le mem) hcount)

/-- Records of one path have one content. -/
def Consistent (rs : List FileRec) : Prop := ∀ r ∈ rs, ∀ r' ∈ rs, r.1 = r'.1 → r.2 = r'.2

theorem lastUnder_eq_some_iff {rs : List FileRec} (hrs : Consistent rs) {q : CStr}
    {content : List UInt8} : lastUnder q none rs = some content ↔ (q, content) ∈ rs := by
  obtain ⟨hlast, hnone⟩ | ⟨last, hlast, hmem⟩ := lastUnder_cases q none rs
  · rw [hlast]
    exact iff_of_false nofun fun hmem => hnone _ hmem rfl
  · rw [hlast, Option.some_inj]
    constructor
    · rintro rfl
      exact hmem
    · intro hmem'
      exact hrs _ hmem _ hmem' rfl

/-- Consistent records outside `/sys` are afterwards the user files. -/
theorem userFiles_of_consistent {mem fs' : Ramfs} {rs : List FileRec}
    (hshort : ∀ r ∈ rs, r.1.length < ramfsPathMax) (hcons : Consistent rs)
    (hsys : ∀ r ∈ rs, underSys r.1 = false)
    (hrest : (ramfsInit mem).restore rs = (0, fs')) : fs'.userFiles = { r | r ∈ rs } := by
  refine Set.ext fun r => ?_
  rw [userFiles_restore hshort hrest, lastUnder_eq_some_iff hcons]
  exact ⟨fun h => h.2, fun h => ⟨hsys r h, h⟩⟩

/-- The files the code saves are the user files it does not take for `/sys`
files. -/
theorem mem_userRecs_iff {fs : Ramfs} {r : FileRec} :
    r ∈ fs.userRecs ↔ r ∈ fs.userFiles ∧ isSysPath r.1 = false := by
  constructor
  · intro hr
    obtain ⟨i, hi, rfl⟩ := List.mem_map.mp hr
    obtain ⟨hused, hsys⟩ : (fs i).used = true ∧ isSysPath (fs i).path = false := by
      simpa [RamfsFile.isUser] using mem_slotsWith.mp hi
    have hunder : underSys (fs i).path = false := by
      rw [Bool.eq_false_iff]
      intro hu
      rw [isSysPath_of_underSys hu] at hsys
      exact absurd hsys (by decide)
    exact ⟨⟨i, hused, hunder, rfl⟩, hsys⟩
  · rintro ⟨⟨i, hused, -, rfl⟩, hsys⟩
    exact List.mem_map.mpr ⟨i, mem_slotsWith.mpr (by simp [RamfsFile.isUser, hused, hsys]), rfl⟩

/-! ## The disk after a sync -/

/-- Sector `1 + t` of a completely written image. -/
theorem sector_after_sync (junk : Nat → Buf) (d : Disk) (fs : Ramfs) {t : Nat}
    (ht : t < (imageSectors junk 0 fs.userRecs).length) :
    d.writeAll (persistSync true junk fs).2 (1 + t) = (imageSectors junk 0 fs.userRecs)[t] := by
  rw [persistSync_eq, Disk.writeAll_append, Disk.writeAll_of_ne (fun w hw => ?_),
    writeAll_seqWrites_getElem d 1 _ ht]
  rw [List.mem_singleton.mp hw]
  show 0 ≠ 1 + t
  omega

theorem holdsRecs_after_sync (junk : Nat → Buf) (d : Disk) (fs : Ramfs) :
    HoldsRecs true (d.writeAll (persistSync true junk fs).2) 1 fs.userRecs := by
  intro t ht
  have ht' : t < (imageSectors junk 0 fs.userRecs).length := by rwa [length_imageSectors]
  rw [sector_after_sync junk d fs ht']
  exact imageSectors_fits junk 0 (storable_userRecs fs) ht'

theorem super_after_sync (junk : Nat → Buf) (d : Disk) (fs : Ramfs) :
    persistReadSuper (d.writeAll (persistSync true junk fs).2) = syncSuper fs := by
  refine persistReadSuper_eq ?_
  rw [persistSync_eq, Disk.writeAll_append, Disk.writeAll_singleton_self]

theorem length_userRecs (fs : Ramfs) : fs.userRecs.length = ramfsUserCount fs := by
  simp [Ramfs.userRecs, ramfsUserCount]

/-- What a loader reads as an AOS2 image of the records. -/
structure IsImage (d : Disk) (rs : List FileRec) : Prop where
  super : persistReadSuper d =
    ⟨persistMagic, persistVersionAos2, UInt32.ofNat rs.length, checksum 0 rs⟩
  holds : HoldsRecs true d 1 rs

theorem isImage_after_sync (junk : Nat → Buf) (d : Disk) (fs : Ramfs) :
    IsImage (d.writeAll (persistSync true junk fs).2) fs.userRecs where
  super := by
    rw [super_after_sync, syncSuper, length_userRecs]
  holds := holdsRecs_after_sync junk d fs

/-- How often the loop `i < (int)file_count` runs. -/
def loopCount (fileCount : UInt32) : Nat := (toInt32 fileCount.toNat).toNat

/-- A small file count survives its trip through the superblock. -/
theorem loopCount_ofNat {n : Nat} (h : n < 2 ^ 31) : loopCount (UInt32.ofNat n) = n := by
  have hnat : (UInt32.ofNat n).toNat = n := UInt32.toNat_ofNat_of_lt' (h.trans (by decide))
  rw [loopCount, hnat, toInt32_eq_self (by omega) (by omega), Int.toNat_natCast]

/-- A reboot on an AOS2 disk runs the AOS2 loader. The file count is a variable, as in
`persistLoad_aos2`. -/
theorem reboot_aos2 (junk : Nat → Buf) (mem : Ramfs) {d : Disk} {fileCount superCrc : UInt32}
    (hsuper : persistReadSuper d = ⟨persistMagic, persistVersionAos2, fileCount, superCrc⟩)
    {n : Nat} (hn : loopCount fileCount = n) :
    let load := persistLoadV2 d superCrc n 1 0 (ramfsInit mem)
    reboot true junk mem d = ⟨load.1, load.2, []⟩ := by
  have hcount : (persistReadSuper d).count = n := by
    rw [hsuper]
    exact hn
  dsimp only
  rw [reboot, persistLoad_aos2 (by rw [hsuper]) (by rw [hsuper]) hcount, hsuper,
    ramfsClearUser_init]

/-- A reboot on an image runs it on the records of the image. -/
theorem IsImage.reboot {d : Disk} {rs : List FileRec} (h : IsImage d rs)
    (hcount : rs.length < 2 ^ 31) (junk : Nat → Buf) (mem : Ramfs) :
    let load := persistLoadV2 d (checksum 0 rs) rs.length 1 0 (ramfsInit mem)
    OpenAgentOS.reboot true junk mem d = ⟨load.1, load.2, []⟩ :=
  reboot_aos2 junk mem h.super (loopCount_ofNat hcount)

section Loadable

variable {d : Disk} {rs : List FileRec} (hload : ∀ r ∈ rs, r.Loadable) (hcount : rs.length ≤ 62)
  (hcons : Consistent rs) (hsys : ∀ r ∈ rs, underSys r.1 = false)

include hload hcount hcons hsys

/-- The AOS2 loader, on a disk that holds loadable records. -/
theorem loadV2_ramfsInit (hholds : HoldsRecs true d 1 rs) (mem : Ramfs) :
    ∃ fs, persistLoadV2 d (checksum 0 rs) rs.length 1 0 (ramfsInit mem) = (0, fs) ∧
      fs.userFiles = { r | r ∈ rs } := by
  have hsize : ∀ r ∈ rs, r.SizeOk := fun r hr =>
    ⟨(hload r hr).nonempty, (hload r hr).size_lt.le⟩
  obtain ⟨fs, hrest⟩ := restore_ramfsInit mem hload hcount
  refine ⟨fs, ?_, userFiles_of_consistent (fun r hr => (hload r hr).short) hcons hsys hrest⟩
  rw [loadV2_of_holds hsize hholds, hrest]
  simp [restoreOutcome]

/-- **An image of loadable records** brings them back. -/
theorem IsImage.reboot_of_loadable (h : IsImage d rs) (junk : Nat → Buf) (mem : Ramfs) :
    let out := OpenAgentOS.reboot true junk mem d
    out.rc = 0 ∧ out.fs.userFiles = { r | r ∈ rs } := by
  obtain ⟨fs, hrun, hfiles⟩ := loadV2_ramfsInit hload hcount hcons hsys h.holds mem
  have hboot := h.reboot (hcount.trans_lt (by decide)) junk mem
  dsimp only at hboot ⊢
  rw [hrun] at hboot
  rw [hboot]
  exact ⟨rfl, hfiles⟩

end Loadable

/-- A file's size is always below the limit of a data array. -/
theorem size_userRecs {fs : Ramfs} {r : FileRec} (hr : r ∈ fs.userRecs) :
    r.1.length < ramfsPathMax ∧ r.2.length < ramfsFileSize := by
  obtain ⟨i, -, rfl⟩ := List.mem_map.mp hr
  exact ⟨(fs i).path_lt, by rw [length_content]; exact (fs i).size_lt⟩

/-- Files that are not empty can be loaded again. -/
theorem loadable_userRecs {fs : Ramfs} (hne : ∀ r ∈ fs.userRecs, r.2 ≠ []) :
    ∀ r ∈ fs.userRecs, r.Loadable := by
  intro r hr
  obtain ⟨hshort, hlt⟩ := size_userRecs hr
  exact ⟨hshort, List.length_pos_of_ne_nil (hne r hr), hlt⟩

/-- What is saved does not lie in `/sys`. -/
theorem underSys_userRecs {fs : Ramfs} {r : FileRec} (hr : r ∈ fs.userRecs) :
    underSys r.1 = false := by
  obtain ⟨i, -, hunder, rfl⟩ := (mem_userRecs_iff.mp hr).1
  exact hunder

section RoundTrip

variable (junk junk' : Nat → Buf) (mem : Ramfs) (d : Disk) {fs : Ramfs}
  (hcount : fs.userRecs.length ≤ 62)

include hcount

/-- Persistable files come back. -/
theorem reboot_of_persistable (hp : Persistable fs) :
    let out := reboot true junk' mem (d.writeAll (persistSync true junk fs).2)
    out.rc = 0 ∧ out.fs.userFiles = fs.userFiles := by
  have hmem : ∀ r, r ∈ fs.userRecs ↔ r ∈ fs.userFiles := fun r =>
    mem_userRecs_iff.trans (and_iff_left_of_imp (hp.not_sys r))
  have hload := loadable_userRecs fun r hr => hp.nonempty r ((hmem r).mp hr)
  have hcons : Consistent fs.userRecs := fun r hr r' hr' =>
    hp.consistent r ((hmem r).mp hr) r' ((hmem r').mp hr')
  obtain ⟨hrc, hfiles⟩ := IsImage.reboot_of_loadable hload hcount hcons
    (fun r hr => underSys_userRecs hr) (isImage_after_sync junk d fs) junk' mem
  exact ⟨hrc, hfiles.trans (Set.ext hmem)⟩

/-- Files that come back were persistable. -/
theorem persistable_of_reboot
    (h : let out := reboot true junk' mem (d.writeAll (persistSync true junk fs).2)
      out.rc = 0 ∧ out.fs.userFiles = fs.userFiles) : Persistable fs := by
  have himage := isImage_after_sync junk d fs
  have hboot := himage.reboot (hcount.trans_lt (by decide)) junk' mem
  dsimp only at hboot h
  rw [hboot] at h
  obtain ⟨hrc, hfiles⟩ := h
  have hsize : ∀ r ∈ fs.userRecs, r.SizeOk := by
    have hall := (loadV2_holds hrc).2
    have hread := diskRecs_of_holds himage.holds 0
    rw [Nat.add_zero, diskRecs, List.append_nil] at hread
    rwa [hread] at hall
  have hload : ∀ r ∈ fs.userRecs, r.Loadable := fun r hr =>
    ⟨(size_userRecs hr).1, (hsize r hr).1, (size_userRecs hr).2⟩
  obtain ⟨fs', hrest⟩ := restore_ramfsInit mem hload hcount
  have hmem := userFiles_restore (fun r hr => (hload r hr).short) hrest
  rw [loadV2_of_holds hsize himage.holds, hrest] at hfiles
  have hfiles' : fs'.userFiles = fs.userFiles := hfiles
  -- every user file is the last saved record of its path
  have hlast : ∀ r ∈ fs.userFiles, lastUnder r.1 none fs.userRecs = some r.2 := by
    intro r hr
    rw [← hfiles', hmem] at hr
    exact hr.2
  have hrec : ∀ r ∈ fs.userFiles, r ∈ fs.userRecs := by
    intro r hr
    obtain ⟨hnone, -⟩ | ⟨content, hcontent, hin⟩ := lastUnder_cases r.1 none fs.userRecs
    · rw [hlast r hr] at hnone
      exact absurd hnone (by simp)
    · obtain rfl := Option.some.inj (hcontent.symm.trans (hlast r hr))
      exact hin
  refine ⟨fun r hr => ?_, fun r hr => ?_, fun r hr r' hr' hpath => ?_⟩
  · exact List.ne_nil_of_length_pos (hsize r (hrec r hr)).1
  · exact (mem_userRecs_iff.mp (hrec r hr)).2
  · have hsame := hlast r hr
    rw [hpath, hlast r' hr'] at hsame
    exact (Option.some.inj hsame).symm

end RoundTrip

/-- **Round trip**: after any run of the kernel on any earlier memory, saving to
any disk and rebooting brings the user files back exactly when they are
persistable. Without a block device a sync does not succeed. -/
theorem roundTrips_iff (blkOk : Bool) (junk junk' : Nat → Buf) (mem mem' : Ramfs) (d : Disk)
    (calls : List RamfsCall) :
    RoundTrips blkOk junk junk' mem' d ((ramfsInit mem).run calls) ↔
      (blkOk = true → Persistable ((ramfsInit mem).run calls)) := by
  have hcount : ((ramfsInit mem).run calls).userRecs.length ≤ 62 := by
    rw [length_userRecs]
    exact userCount_run_le mem calls
  cases blkOk with
  | false =>
    refine ⟨fun _ h => absurd h (by decide), fun _ hrc => ?_⟩
    exact absurd hrc (by simp [persistSync])
  | true =>
    constructor
    · intro h _
      exact persistable_of_reboot junk junk' mem' d hcount (h (by rw [persistSync_eq]))
    · intro h _
      exact reboot_of_persistable junk junk' mem' d hcount (h rfl)

/-! ## A machine that was just switched on -/

theorem ramfsFileSize_pos : 0 < ramfsFileSize := by decide

/-- Cleared memory. -/
def zeroMem : Ramfs := fun _ => ⟨.lit "", fun _ => 0, 0, false, by decide, ramfsFileSize_pos⟩

/-- An empty disk. -/
def zeroDisk : Disk := fun _ _ => 0

/-- A cleared stack. -/
def zeroJunk : Nat → Buf := fun _ _ => 0

end OpenAgentOS
