import OpenAgentOS.Fs.CrashAtomicity
import OpenAgentOS.Fs.Frame

/-!
# Loading from an arbitrary disk (kernel/persist.c)

Nothing on the disk is checked before the loaders act on it: a record is put into the file system as
soon as it was read, and the checksum over all records is compared last.

- `loadedFiles`: the files that a load leaves, for both layouts (`persistLoadV1_files`,
  `persistLoadV2_files`).
- `Taken`: the loader goes on behind a record. Whether there is room for one more file depends on the
  names in use only (`Ramfs.Named`).
- `failedLoad_iff`: a boot whose load fails has a fresh file system exactly if no user file stands on
  the disk in front of the first record that is not taken.
- `loadTrace`: the stores of the loaders to `persist_io_buf`, and the paths that they hand on.
  `persistLoadTrace_safe_iff`: they are in bounds and terminated exactly if every record that is read
  has less than 8192 bytes and a terminated path.
-/

namespace OpenAgentOS

open CString Crc32

/-! ## Names in use -/

/-- The names are those of the files in use, each as often as there are files with it. -/
structure Ramfs.Named (fs : Ramfs) (names : List CStr) : Prop where
  holds : ∀ q, (∃ i, (fs i).Holds q) ↔ q ∈ names
  count : slotCount (fun i => (fs i).used) = names.length

/-- The names after a file was put under `path`. -/
def addName (names : List CStr) (path : CStr) : List CStr :=
  if path ∈ names then names else path.copy ramfsPathMax :: names

section

variable {fs fs' : Ramfs} {names : List CStr} {path : CStr} {data : List UInt8}

theorem find_eq_none_iff : fs.find path = none ↔ ¬ ∃ i, (fs i).Holds path := by
  rw [Ramfs.find, firstSlot_eq_none, not_exists]
  refine forall_congr' fun i => ?_
  rw [RamfsFile.Holds, Bool.and_eq_false_imp, not_and]
  simp

theorem Ramfs.Named.visible_eq_none_iff (h : fs.Named names) : fs.visible path = none ↔ path ∉ names := by
  rw [← h.holds, ← find_eq_none_iff]
  exact Option.map_eq_none_iff

/-- Names for any table. -/
theorem Ramfs.named (fs : Ramfs) : fs.Named ((slotsWith fun i => (fs i).used).map fun i => (fs i).path) where
  holds := by
    intro q
    simp only [List.mem_map, mem_slotsWith]
    exact Iff.rfl
  count := by rw [List.length_map, length_slotsWith]

theorem Ramfs.Named.put_ok_iff (h : fs.Named names) : (ramfsPut fs path data).1 = 0 ↔
    0 < data.length ∧ data.length < ramfsFileSize ∧ (path ∈ names ∨ names.length < ramfsMaxFiles) := by
  rw [ramfsPut_fst_eq_zero_iff, h.visible_eq_none_iff, h.count, Decidable.or_iff_not_imp_left]

theorem Ramfs.Named.put (h : fs.Named names) (hput : ramfsPut fs path data = (0, fs')) :
    fs'.Named (addName names path) := by
  obtain ⟨i, hused, hpath, -, hother, hslot⟩ := ramfsPut_ok hput
  have hholds : ∀ q, (∃ j, (fs' j).Holds q) ↔ q = path.copy ramfsPathMax ∨ ∃ j, j ≠ i ∧ (fs j).Holds q := by
    intro q
    constructor
    · rintro ⟨j, hj⟩
      by_cases hji : j = i
      · exact .inl (by rw [← hj.2, hji, hpath])
      · exact .inr ⟨j, hji, hother j hji ▸ hj⟩
    · rintro (rfl | ⟨j, hji, hj⟩)
      · exact ⟨i, hused, hpath⟩
      · exact ⟨j, (hother j hji).symm ▸ hj⟩
  obtain hfound | ⟨hnew, hfree⟩ := hslot
  · -- the file was there: the same slots are in use under the same names
    obtain ⟨hwas, rfl⟩ := find_some hfound
    have hmem : (fs i).path ∈ names := (h.holds _).mp ⟨i, hwas, rfl⟩
    have hcopy : (fs i).path.copy ramfsPathMax = (fs i).path := CStr.copy_eq_self (fs i).path_lt
    rw [addName, if_pos hmem]
    refine ⟨fun q => ?_, ?_⟩
    · rw [hholds, ← h.holds, hcopy]
      constructor
      · rintro (rfl | ⟨j, -, hj⟩)
        · exact ⟨i, hwas, rfl⟩
        · exact ⟨j, hj⟩
      · rintro ⟨j, hj⟩
        by_cases hji : j = i
        · exact .inl (by rw [← hj.2, hji])
        · exact .inr ⟨j, hji, hj⟩
    · rw [← h.count]
      refine congrArg slotCount (funext fun j => ?_)
      by_cases hji : j = i
      · rw [hji, hused, hwas]
      · rw [hother j hji]
  · have hmem : path ∉ names := fun hmem => find_eq_none_iff.mp hnew ((h.holds _).mpr hmem)
    rw [addName, if_neg hmem]
    refine ⟨fun q => ?_, ?_⟩
    · rw [hholds, List.mem_cons, ← h.holds]
      refine or_congr_right ⟨fun ⟨j, _, hj⟩ => ⟨j, hj⟩, fun ⟨j, hj⟩ => ⟨j, ?_, hj⟩⟩
      rintro rfl
      exact absurd hj.1 (by rw [hfree]; decide)
    · rw [List.length_cons, ← h.count]
      exact slotCount_succ hfree hused fun j hji => by rw [hother j hji]

end

/-! ## The files a load leaves -/

/-- The files after a load that finds `n` more records from sector `s` on. With `checked`, records whose
checksum is wrong are rejected. -/
def loadedFiles (checked : Bool) (d : Disk) : (n s : Nat) → Ramfs → Ramfs
  | 0, _, fs => fs
  | n + 1, s, fs =>
    let r := diskRec d s
    if (checked = true → crc32 r.2 = (persistReadMeta d s).crc32) ∧ (ramfsPut fs r.1 r.2).1 = 0 then
      loadedFiles checked d n (s + recLen r) (ramfsPut fs r.1 r.2).2
    else fs

/-- A record that is rejected for its size is none that a put would take. -/
theorem put_of_not_sizeOk {d : Disk} {s : Nat} (h : ¬ (diskRec d s).SizeOk) (fs : Ramfs) :
    (ramfsPut fs (diskRec d s).1 (diskRec d s).2).1 ≠ 0 := by
  intro hput
  obtain ⟨hpos, hlt, -⟩ := ramfsPut_fst_eq_zero_iff.mp hput
  exact h ⟨hpos, hlt.le⟩

instance (r : FileRec) : Decidable r.SizeOk :=
  inferInstanceAs (Decidable (0 < r.2.length ∧ r.2.length ≤ ramfsFileSize))

/-- One record, read by the AOS1 loader. -/
theorem persistLoadV1_succ (d : Disk) (n s : Nat) (fs : Ramfs) {put : Int × Ramfs}
    (hput : ramfsPut fs (diskRec d s).1 (diskRec d s).2 = put) :
    persistLoadV1 d (n + 1) s fs =
      if ¬ (diskRec d s).SizeOk then (eio, fs)
      else if put.1 ≠ 0 then (eio, put.2)
      else persistLoadV1 d n (s + recLen (diskRec d s)) put.2 := by
  rw [persistLoadV1, next_sector, ← hput]
  exact if_congr (diskRec_rejected_iff d s) rfl rfl

/-- One record, read by the AOS2 loader. -/
theorem persistLoadV2_succ (d : Disk) (superCrc : UInt32) (n s : Nat) (rolling : UInt32) (fs : Ramfs)
    {put : Int × Ramfs} (hput : ramfsPut fs (diskRec d s).1 (diskRec d s).2 = put) {m : PersistMeta}
    (hmeta : persistReadMeta d s = m) :
    persistLoadV2 d superCrc (n + 1) s rolling fs =
      if ¬ (diskRec d s).SizeOk then (eio, fs)
      else if crc32 (diskRec d s).2 ≠ m.crc32 then (eio, fs)
      else if put.1 ≠ 0 then (eio, put.2)
      else
        persistLoadV2 d superCrc n (s + recLen (diskRec d s)) (rolling ^^^ m.crc32 ^^^ m.size) put.2 := by
  rw [persistLoadV2, next_sector, ← hput, ← hmeta]
  exact if_congr (diskRec_rejected_iff d s) rfl rfl

theorem persistLoadV1_files (d : Disk) (n s : Nat) (fs : Ramfs) :
    (persistLoadV1 d n s fs).2 = loadedFiles false d n s fs := by
  induction n generalizing s fs with
  | zero => rfl
  | succ n ih =>
    obtain ⟨put, hput⟩ : ∃ put, ramfsPut fs (diskRec d s).1 (diskRec d s).2 = put := ⟨_, rfl⟩
    have hreject := @put_of_not_sizeOk d s
    have hfailed := @ramfsPut_failed fs (diskRec d s).1 (diskRec d s).2
    rw [hput] at hfailed
    rw [persistLoadV1_succ d n s fs hput, loadedFiles, hput]
    by_cases hsize : (diskRec d s).SizeOk
    swap
    · rw [if_pos hsize, if_neg fun h => hreject hsize fs (hput ▸ h.2)]
    rw [if_neg (not_not_intro hsize)]
    by_cases hrc : put.1 = 0
    · rw [if_neg (not_not_intro hrc), if_pos ⟨nofun, hrc⟩, ih]
    · rw [if_pos hrc, if_neg fun h => hrc h.2]
      exact hfailed hrc

theorem persistLoadV2_files (d : Disk) (superCrc : UInt32) (n s : Nat) (rolling : UInt32) (fs : Ramfs) :
    (persistLoadV2 d superCrc n s rolling fs).2 = loadedFiles true d n s fs := by
  induction n generalizing s rolling fs with
  | zero => rfl
  | succ n ih =>
    obtain ⟨put, hput⟩ : ∃ put, ramfsPut fs (diskRec d s).1 (diskRec d s).2 = put := ⟨_, rfl⟩
    obtain ⟨m, hmeta⟩ : ∃ m, persistReadMeta d s = m := ⟨_, rfl⟩
    have hreject := @put_of_not_sizeOk d s
    have hfailed := @ramfsPut_failed fs (diskRec d s).1 (diskRec d s).2
    rw [hput] at hfailed
    rw [persistLoadV2_succ d superCrc n s rolling fs hput hmeta, loadedFiles, hput, hmeta]
    by_cases hsize : (diskRec d s).SizeOk
    swap
    · rw [if_pos hsize, if_neg fun h => hreject hsize fs (hput ▸ h.2)]
    rw [if_neg (not_not_intro hsize)]
    by_cases hcrc : crc32 (diskRec d s).2 = m.crc32
    swap
    · rw [if_pos hcrc, if_neg fun h => hcrc (h.1 rfl)]
    rw [if_neg (not_not_intro hcrc)]
    by_cases hrc : put.1 = 0
    · rw [if_neg (not_not_intro hrc), if_pos ⟨fun _ => hcrc, hrc⟩, ih]
    · rw [if_pos hrc, if_neg fun h => hrc h.2]
      exact hfailed hrc

/-! ## Records that are taken -/

/-- **The loader goes on** behind the record at sector `s`, if these names are in use. -/
structure Taken (checked : Bool) (d : Disk) (s : Nat) (names : List CStr) : Prop where
  nonempty : 0 < (diskRec d s).2.length
  size_lt : (diskRec d s).2.length < ramfsFileSize
  crc : checked = true → crc32 (diskRec d s).2 = (persistReadMeta d s).crc32
  room : (diskRec d s).1 ∈ names ∨ names.length < ramfsMaxFiles

/-- No user file stands in front of the first of the `n` records from sector `s` on that is not taken. -/
def NoUserTaken (checked : Bool) (d : Disk) : (n s : Nat) → List CStr → Prop
  | 0, _, _ => True
  | n + 1, s, names =>
    Taken checked d s names → underSys (diskRec d s).1 = true ∧
      NoUserTaken checked d n (s + recLen (diskRec d s)) (addName names (diskRec d s).1)

section

variable {checked : Bool} {d : Disk} {n s : Nat} {fs fs' : Ramfs} {names : List CStr} {path : CStr}
  {data : List UInt8}

theorem Ramfs.Named.taken_iff (h : fs.Named names) :
    ((checked = true → crc32 (diskRec d s).2 = (persistReadMeta d s).crc32) ∧
      (ramfsPut fs (diskRec d s).1 (diskRec d s).2).1 = 0) ↔ Taken checked d s names := by
  rw [h.put_ok_iff]
  constructor
  · rintro ⟨hcrc, hpos, hlt, hroom⟩
    exact ⟨hpos, hlt, hcrc, hroom⟩
  · rintro ⟨hpos, hlt, hcrc, hroom⟩
    exact ⟨hcrc, hpos, hlt, hroom⟩

/-- No file outside `/sys` is in use. -/
def Ramfs.Fresh (fs : Ramfs) : Prop := ∀ i, (fs i).used = true → underSys (fs i).path = true

theorem userFiles_eq_empty_iff : fs.userFiles = ∅ ↔ fs.Fresh := by
  rw [Set.eq_empty_iff_forall_notMem]
  constructor
  · intro h i hused
    by_contra hsys
    exact h _ ⟨i, hused, Bool.not_eq_true _ ▸ hsys, rfl⟩
  · rintro h r ⟨i, hused, hsys, -⟩
    rw [h i hused] at hsys
    cases hsys

theorem hasAt_take {s pat : List UInt8} {i k : Nat} (h : i + pat.length ≤ k) :
    hasAt (s.take k) i pat = hasAt s i pat := by
  induction pat generalizing i with
  | nil => rfl
  | cons c cs ih =>
    rw [List.length_cons] at h
    rw [hasAt, hasAt, charAt_take (by omega), ih (by omega)]

theorem underSys_copy (path : CStr) : underSys (path.copy ramfsPathMax) = underSys path :=
  hasAt_take (by decide)

/-- A put keeps a table fresh exactly if it is one under `/sys`. -/
theorem fresh_put_iff (hput : ramfsPut fs path data = (0, fs')) :
    fs'.Fresh ↔ fs.Fresh ∧ underSys path = true := by
  obtain ⟨i, hused, hpath, -, hother, hslot⟩ := ramfsPut_ok hput
  constructor
  · intro hfresh
    have hsys : underSys path = true := by
      rw [← underSys_copy, ← hpath]
      exact hfresh i hused
    refine ⟨fun j hj => ?_, hsys⟩
    by_cases hji : j = i
    · obtain hfound | ⟨-, hfree⟩ := hslot
      · rw [hji, (find_some hfound).2, hsys]
      · rw [hji, hfree] at hj
        cases hj
    · rw [← hother j hji] at hj ⊢
      exact hfresh j hj
  · rintro ⟨hfresh, hsys⟩ j hj
    by_cases hji : j = i
    · rw [hji, hpath, underSys_copy, hsys]
    · rw [hother j hji] at hj ⊢
      exact hfresh j hj

/-- A put that succeeds. -/
theorem put_eq_of_fst {put : Int × Ramfs} (hput : ramfsPut fs path data = put) (hrc : put.1 = 0) :
    ramfsPut fs path data = (0, put.2) := by
  rw [hput, ← hrc]

/-- A table that is not fresh does not become so by loading. -/
theorem fresh_of_loadedFiles (h : (loadedFiles checked d n s fs).Fresh) : fs.Fresh := by
  induction n generalizing s fs with
  | zero => exact h
  | succ n ih =>
    obtain ⟨put, hput⟩ : ∃ put, ramfsPut fs (diskRec d s).1 (diskRec d s).2 = put := ⟨_, rfl⟩
    rw [loadedFiles, hput] at h
    split_ifs at h with htaken
    · exact ((fresh_put_iff (put_eq_of_fst hput htaken.2)).mp (ih h)).1
    · exact h

/-- **A fresh table stays fresh** exactly if the load puts no user file into it. -/
theorem fresh_loadedFiles_iff (hfresh : fs.Fresh) (hnamed : fs.Named names) :
    (loadedFiles checked d n s fs).Fresh ↔ NoUserTaken checked d n s names := by
  induction n generalizing s fs names with
  | zero => exact iff_of_true hfresh trivial
  | succ n ih =>
    have htaken_iff := @Ramfs.Named.taken_iff checked d s fs names hnamed
    obtain ⟨put, hput⟩ : ∃ put, ramfsPut fs (diskRec d s).1 (diskRec d s).2 = put := ⟨_, rfl⟩
    rw [hput] at htaken_iff
    rw [loadedFiles, NoUserTaken, hput]
    by_cases htaken : Taken checked d s names
    · have hgood := htaken_iff.mpr htaken
      have hok := put_eq_of_fst hput hgood.2
      rw [if_pos hgood]
      constructor
      · intro h _
        have hsys := ((fresh_put_iff hok).mp (fresh_of_loadedFiles h)).2
        exact ⟨hsys, (ih ((fresh_put_iff hok).mpr ⟨hfresh, hsys⟩) (hnamed.put hok)).mp h⟩
      · intro h
        obtain ⟨hsys, hrest⟩ := h htaken
        exact (ih ((fresh_put_iff hok).mpr ⟨hfresh, hsys⟩) (hnamed.put hok)).mpr hrest
    · rw [if_neg fun h => htaken (htaken_iff.mp h)]
      exact iff_of_true hfresh fun h => absurd h htaken

end

/-! ## A load that fails -/

/-- The names after `ramfs_init`. -/
def seedNames : List CStr := [.lit "/sys/version", .lit "/sys/tick_hz"]

theorem named_ramfsInit (mem : Ramfs) : (ramfsInit mem).Named seedNames where
  holds := by
    intro q
    obtain ⟨hversion, htick⟩ := ramfsInit_seeds mem
    rw [seedNames, List.mem_pair]
    constructor
    · rintro ⟨i, hused, rfl⟩
      exact (ramfsInit_used hused).imp And.right And.right
    · rintro (rfl | rfl)
      · exact ⟨0, hversion⟩
      · exact ⟨1, htick⟩
  count := by
    obtain ⟨hversion, htick⟩ := ramfsInit_seeds mem
    refine Nat.le_antisymm (slotCount_ramfsInit_le mem) ?_
    have hsub : ({0, 1} : Finset (Fin ramfsMaxFiles)) ⊆
        Finset.univ.filter fun i => (ramfsInit mem i).used = true := by
      intro i hi
      rw [Finset.mem_insert, Finset.mem_singleton] at hi
      rw [Finset.mem_filter]
      obtain rfl | rfl := hi
      · exact ⟨Finset.mem_univ _, hversion.1⟩
      · exact ⟨Finset.mem_univ _, htick.1⟩
    exact Finset.card_le_card hsub

/-- What a failed boot needs to find on the disk to leave no user file: a superblock of another version,
or no user file in front of the first record that is not taken. -/
def KeepsFresh (d : Disk) : Prop :=
  let sup := persistReadSuper d
  (sup.version = persistVersionAos1 → NoUserTaken false d sup.count 1 seedNames) ∧
    (sup.version = persistVersionAos2 → NoUserTaken true d sup.count 1 seedNames)

theorem fresh_ramfsInit (mem : Ramfs) : (ramfsInit mem).Fresh := fun _ => ramfsInit_underSys

/-- The files after a boot, by what the superblock says. -/
theorem reboot_files {d : Disk} (junk : Nat → Buf) (mem : Ramfs)
    (hmagic : (persistReadSuper d).magic = persistMagic) {n : Nat} (hn : (persistReadSuper d).count = n) :
    ((persistReadSuper d).version = persistVersionAos1 →
        (reboot true junk mem d).fs = loadedFiles false d n 1 (ramfsInit mem)) ∧
      ((persistReadSuper d).version = persistVersionAos2 →
        (reboot true junk mem d).fs = loadedFiles true d n 1 (ramfsInit mem)) := by
  constructor
  · intro hver
    rw [reboot, persistLoad_aos1 hmagic hver hn, ramfsClearUser_init, ← persistLoadV1_files]
    dsimp only
    split_ifs <;> rfl
  · intro hver
    rw [reboot, persistLoad_aos2 hmagic hver hn, ramfsClearUser_init, ← persistLoadV2_files]

/-- **A boot whose load fails** has no more user files than before the load exactly if no user file
stands on the disk in front of the first record that is not taken. -/
theorem failedLoad_iff (blkOk : Bool) (junk : Nat → Buf) (mem : Ramfs) (d : Disk)
    (hfail : (reboot blkOk junk mem d).rc ≠ 0) :
    (reboot blkOk junk mem d).fs.userFiles = (ramfsInit mem).userFiles ↔ KeepsFresh d := by
  have hinit : (ramfsInit mem).userFiles = ∅ := userFiles_eq_empty_iff.mpr (fresh_ramfsInit mem)
  rw [hinit, userFiles_eq_empty_iff]
  cases blkOk with
  | false => exact absurd rfl hfail
  | true =>
    by_cases hmagic : (persistReadSuper d).magic = persistMagic
    swap
    · rw [reboot, persistLoad_blank hmagic] at hfail
      exact absurd rfl hfail
    obtain ⟨n, hn⟩ : ∃ n, (persistReadSuper d).count = n := ⟨_, rfl⟩
    have hload : ∀ checked, (loadedFiles checked d n 1 (ramfsInit mem)).Fresh ↔
        NoUserTaken checked d n 1 seedNames := fun checked =>
      fresh_loadedFiles_iff (fresh_ramfsInit mem) (named_ramfsInit mem)
    obtain ⟨haos1, haos2⟩ := reboot_files junk mem hmagic hn
    rw [KeepsFresh, hn]
    by_cases hver1 : (persistReadSuper d).version = persistVersionAos1
    · have hver2 : (persistReadSuper d).version ≠ persistVersionAos2 := by rw [hver1]; decide
      rw [haos1 hver1, hload]
      exact ⟨fun h => ⟨fun _ => h, fun h => absurd h hver2⟩, fun h => h.1 hver1⟩
    · by_cases hver2 : (persistReadSuper d).version = persistVersionAos2
      · rw [haos2 hver2, hload]
        exact ⟨fun h => ⟨fun h => absurd h hver1, fun _ => h⟩, fun h => h.2 hver2⟩
      · have hsame : (reboot true junk mem d).fs = ramfsInit mem := by
          rw [reboot, persistLoad]
          dsimp only
          rw [if_neg (by decide), if_neg (not_not_intro hmagic), if_neg hver1, if_neg hver2]
        rw [hsame]
        exact iff_of_true (fresh_ramfsInit mem) ⟨fun h => absurd h hver1, fun h => absurd h hver2⟩

/-- A disk that is rejected at its first record. -/
theorem failedLoad_iff_torn : (reboot true zeroJunk zeroMem tornDisk).rc ≠ 0 ∧
    ((reboot true zeroJunk zeroMem tornDisk).fs.userFiles = (ramfsInit zeroMem).userFiles ↔
      KeepsFresh tornDisk) := by
  have hfail : (reboot true zeroJunk zeroMem tornDisk).rc ≠ 0 := by
    rw [tornDisk_rejected]
    decide
  exact ⟨hfail, failedLoad_iff true zeroJunk zeroMem tornDisk hfail⟩

/-- The disk with one good record, and a wrong checksum in the superblock. -/
def wrongSum : Disk := (noteDisk [1]).corrupt (0, 12) 0

/-- **A wrong checksum** is reported after the note was put: the boot goes on with it. -/
theorem not_failedLoad_fresh : (reboot true zeroJunk zeroMem wrongSum).rc = eio ∧
    (ramfsInit zeroMem).userFiles = ∅ ∧
    (notePath, [1]) ∈ (reboot true zeroJunk zeroMem wrongSum).fs.userFiles :=
  ⟨by decide +kernel, userFiles_eq_empty_iff.mpr (fresh_ramfsInit zeroMem),
    mem_userFiles_of_visible (by decide) (by decide +kernel)⟩

/-! ## What a load stores, and the paths that it hands on -/

/-- A byte of `persist_io_buf` that is stored, or a `meta.path` that `ramfs_put` or the log gets; the
field is the first 64 bytes of the sector. -/
inductive LoadAccess where
  | store (index : Nat)
  | path (sector : Sector)

/-- The access is to `persist_io_buf`, or the path ends inside its field. -/
def LoadAccess.Safe : LoadAccess → Prop
  | .store index => index < ramfsFileSize
  | .path sector => ∃ j, j < ramfsPathMax ∧ sector j = 0

/-- The stores of `persist_read_file_data` (persist.c:54) from `copied` on, for `n` more sectors. -/
def fileDataStores (size : Nat) : (n copied : Nat) → List LoadAccess
  | 0, _ => []
  | n + 1, copied =>
    let chunk := min (size - copied) sectorSize
    (List.range' copied chunk).map .store ++ fileDataStores size n (copied + chunk)

/-- The accesses of `persist_load_v1` (persist.c:126), and with `checked` those of `persist_load_v2`
(persist.c:153), which logs the path of a record whose checksum is wrong. -/
def loadTrace (checked : Bool) (d : Disk) : (n s : Nat) → Ramfs → List LoadAccess
  | 0, _, _ => []
  | n + 1, s, fs =>
    let m := persistReadMeta d s
    if m.size = 0 ∨ ramfsFileSize < m.size.toNat then []
    else
      let data := persistReadFileData d (s + 1) m.size.toNat
      fileDataStores m.size.toNat (persistFileSectors m.size.toNat) 0 ++
        .store m.size.toNat :: .path (d s) ::
          (if checked = true ∧ crc32 data ≠ m.crc32 then []
          else
            let put := ramfsPut fs m.path data
            if put.1 ≠ 0 then []
            else
              .path (d s) ::
                loadTrace checked d n (s + 1 + persistFileSectors m.size.toNat) put.2)

/-- The accesses of `persist_load` (persist.c:216). -/
def persistLoadTrace (blkOk : Bool) (d : Disk) (fs : Ramfs) : List LoadAccess :=
  let sup := persistReadSuper d
  if blkOk = false then []
  else if sup.magic ≠ persistMagic then []
  else if sup.version = persistVersionAos1 then loadTrace false d sup.count 1 (ramfsClearUser fs)
  else if sup.version = persistVersionAos2 then loadTrace true d sup.count 1 (ramfsClearUser fs)
  else []

theorem fileDataStores_eq (size n copied : Nat) (hcopied : copied ≤ size)
    (hn : size ≤ copied + sectorSize * n) :
    fileDataStores size n copied = (List.range' copied (size - copied)).map .store := by
  induction n generalizing copied with
  | zero =>
    have hdone : size - copied = 0 := by omega
    rw [hdone]
    rfl
  | succ n ih =>
    rw [Nat.mul_succ] at hn
    have hsplit : size - copied =
        min (size - copied) sectorSize + (size - (copied + min (size - copied) sectorSize)) := by omega
    rw [fileDataStores, ih _ (by omega) (by omega), ← List.map_append]
    conv => rhs; rw [hsplit, ← List.range'_append_1]

/-- **The stores of `persist_read_file_data`**: one for each byte of the file. -/
theorem fileDataStores_file (size : Nat) :
    fileDataStores size (persistFileSectors size) 0 = (List.range' 0 size).map .store := by
  refine fileDataStores_eq size _ 0 (Nat.zero_le _) ?_
  rw [persistFileSectors, sectorsFor]
  simp only [sectorSize]
  omega

/-- The record at sector `s` leaves room for the terminator behind its data, and its path ends inside
its field. -/
structure SafeRec (d : Disk) (s : Nat) : Prop where
  size_lt : (diskRec d s).2.length < ramfsFileSize
  terminated : ∃ j, j < ramfsPathMax ∧ d s j = 0

/-- Every one of the `n` records from sector `s` on is safe, as far as they are read. -/
def RecsSafe (checked : Bool) (d : Disk) : (n s : Nat) → List CStr → Prop
  | 0, _, _ => True
  | n + 1, s, names =>
    (diskRec d s).SizeOk → SafeRec d s ∧
      (Taken checked d s names →
        RecsSafe checked d n (s + recLen (diskRec d s)) (addName names (diskRec d s).1))

section

variable {checked : Bool} {d : Disk} {n s : Nat} {fs : Ramfs} {names : List CStr}

theorem loadTrace_succ {put : Int × Ramfs} (hput : ramfsPut fs (diskRec d s).1 (diskRec d s).2 = put)
    {m : PersistMeta} (hmeta : persistReadMeta d s = m) :
    loadTrace checked d (n + 1) s fs =
      if ¬ (diskRec d s).SizeOk then []
      else
        (List.range' 0 (diskRec d s).2.length).map .store ++ .store (diskRec d s).2.length ::
          .path (d s) ::
            (if checked = true ∧ crc32 (diskRec d s).2 ≠ m.crc32 then []
            else if put.1 ≠ 0 then []
            else .path (d s) :: loadTrace checked d n (s + recLen (diskRec d s)) put.2) := by
  rw [loadTrace, next_sector, ← hput, ← hmeta, length_diskRec, ← fileDataStores_file]
  exact if_congr (diskRec_rejected_iff d s) rfl rfl

/-- The accesses for one record. -/
theorem forall_safe_cons_iff {size : Nat} {sector : Sector} {rest : List LoadAccess} :
    (∀ a ∈ (List.range' 0 size).map .store ++ .store size :: .path sector :: rest, LoadAccess.Safe a) ↔
      (size < ramfsFileSize ∧ ∃ j, j < ramfsPathMax ∧ sector j = 0) ∧ ∀ a ∈ rest, a.Safe := by
  constructor
  · intro h
    refine ⟨⟨h (.store size) (by simp), h (.path sector) (by simp)⟩, fun a ha => h a ?_⟩
    simp [ha]
  · rintro ⟨⟨hsize, hpath⟩, hrest⟩ a ha
    rw [List.mem_append, List.mem_cons, List.mem_cons] at ha
    obtain hdata | rfl | rfl | hmem := ha
    · obtain ⟨i, hi, rfl⟩ := List.mem_map.mp hdata
      have hlt : i < 0 + size := (List.mem_range'_1.mp hi).2
      exact show i < ramfsFileSize by omega
    · exact hsize
    · exact hpath
    · exact hrest a hmem

/-- **The accesses of a loader.** -/
theorem loadTrace_safe_iff (hnamed : fs.Named names) :
    (∀ a ∈ loadTrace checked d n s fs, a.Safe) ↔ RecsSafe checked d n s names := by
  induction n generalizing s fs names with
  | zero => exact iff_of_true nofun trivial
  | succ n ih =>
    have htaken_iff := @Ramfs.Named.taken_iff checked d s fs names hnamed
    obtain ⟨put, hput⟩ : ∃ put, ramfsPut fs (diskRec d s).1 (diskRec d s).2 = put := ⟨_, rfl⟩
    obtain ⟨m, hmeta⟩ : ∃ m, persistReadMeta d s = m := ⟨_, rfl⟩
    rw [hput, hmeta] at htaken_iff
    rw [loadTrace_succ hput hmeta, RecsSafe]
    by_cases hsize : (diskRec d s).SizeOk
    swap
    · rw [if_pos hsize]
      exact iff_of_true nofun fun h => absurd h hsize
    rw [if_neg (not_not_intro hsize), forall_safe_cons_iff]
    -- what is behind the record is read if the record is taken
    have hrest : SafeRec d s → ((∀ a ∈ (if checked = true ∧ crc32 (diskRec d s).2 ≠ m.crc32 then []
          else if put.1 ≠ 0 then []
          else .path (d s) :: loadTrace checked d n (s + recLen (diskRec d s)) put.2),
            LoadAccess.Safe a) ↔
        (Taken checked d s names →
          RecsSafe checked d n (s + recLen (diskRec d s)) (addName names (diskRec d s).1))) := by
      intro hsafe
      by_cases htaken : Taken checked d s names
      · obtain ⟨hcrc, hrc⟩ := htaken_iff.mpr htaken
        rw [if_neg fun h => h.2 (hcrc h.1), if_neg (not_not_intro hrc), List.forall_mem_cons,
          ih (hnamed.put (put_eq_of_fst hput hrc))]
        exact ⟨fun h _ => h.2, fun h => ⟨hsafe.terminated, h htaken⟩⟩
      · refine iff_of_true ?_ fun h => absurd h htaken
        split_ifs with hcrc hrc
        · exact nofun
        · exact nofun
        · refine absurd (htaken_iff.mp ⟨fun hchecked => ?_, not_not.mp hrc⟩) htaken
          by_contra hne
          exact hcrc ⟨hchecked, hne⟩
    constructor
    · rintro ⟨⟨hlt, hpath⟩, h⟩ _
      exact ⟨⟨hlt, hpath⟩, (hrest ⟨hlt, hpath⟩).mp h⟩
    · intro h
      obtain ⟨hsafe, htail⟩ := h hsize
      exact ⟨⟨hsafe.size_lt, hsafe.terminated⟩, (hrest hsafe).mpr htail⟩

end

/-- The names that `ramfs_clear_user` leaves. -/
def keptNames (fs : Ramfs) : List CStr :=
  (slotsWith fun i => (ramfsClearUser fs i).used).map fun i => (ramfsClearUser fs i).path

/-- What the disk has to hold for `persist_load` to be safe. -/
def DiskSafe (d : Disk) (fs : Ramfs) : Prop :=
  let sup := persistReadSuper d
  sup.magic = persistMagic →
    (sup.version = persistVersionAos1 → RecsSafe false d sup.count 1 (keptNames fs)) ∧
      (sup.version = persistVersionAos2 → RecsSafe true d sup.count 1 (keptNames fs))

/-- **`persist_load` on an arbitrary disk** stays inside `persist_io_buf` and hands on terminated paths
exactly if every record that it reads has less than `RAMFS_FILE_SIZE` bytes and a terminated path. -/
theorem persistLoadTrace_safe_iff (blkOk : Bool) (d : Disk) (fs : Ramfs) :
    (∀ a ∈ persistLoadTrace blkOk d fs, a.Safe) ↔ (blkOk = true → DiskSafe d fs) := by
  have hload : ∀ checked n, (∀ a ∈ loadTrace checked d n 1 (ramfsClearUser fs), a.Safe) ↔
      RecsSafe checked d n 1 (keptNames fs) := fun checked n =>
    loadTrace_safe_iff (Ramfs.named (ramfsClearUser fs))
  obtain ⟨n, hn⟩ : ∃ n, (persistReadSuper d).count = n := ⟨_, rfl⟩
  rw [persistLoadTrace, DiskSafe, hn]
  cases blkOk with
  | false => exact iff_of_true nofun nofun
  | true =>
    rw [if_neg (by decide)]
    by_cases hmagic : (persistReadSuper d).magic = persistMagic
    swap
    · rw [if_pos hmagic]
      exact iff_of_true nofun fun _ h => absurd h hmagic
    rw [if_neg (not_not_intro hmagic)]
    by_cases hver1 : (persistReadSuper d).version = persistVersionAos1
    · have hver2 : (persistReadSuper d).version ≠ persistVersionAos2 := by rw [hver1]; decide
      rw [if_pos hver1, hload]
      exact ⟨fun h _ _ => ⟨fun _ => h, fun h => absurd h hver2⟩, fun h => (h rfl hmagic).1 hver1⟩
    · rw [if_neg hver1]
      by_cases hver2 : (persistReadSuper d).version = persistVersionAos2
      · rw [if_pos hver2, hload]
        exact ⟨fun h _ _ => ⟨fun h => absurd h hver1, fun _ => h⟩, fun h => (h rfl hmagic).2 hver2⟩
      · rw [if_neg hver2]
        exact iff_of_true nofun fun _ _ => ⟨fun h => absurd h hver1, fun h => absurd h hver2⟩

/-- An AOS1 disk with one record of 8192 bytes, whose path fills its field. -/
def hostileDisk : Disk :=
  zeroDisk.writeAll [(0, superSector ⟨persistMagic, persistVersionAos1, 1, 0⟩),
    (1, fun i => if i < 64 then 97 else if i = 65 then 32 else 0)]

/-- **The terminator behind a record of 8192 bytes** is stored outside the buffer, and a path that fills
its field is handed on. -/
theorem not_persistLoadTrace_safe : .store ramfsFileSize ∈ persistLoadTrace true hostileDisk
      (ramfsInit zeroMem) ∧ .path (hostileDisk 1) ∈ persistLoadTrace true hostileDisk (ramfsInit zeroMem) ∧
    ¬ LoadAccess.Safe (.store ramfsFileSize) ∧ ¬ LoadAccess.Safe (.path (hostileDisk 1)) := by
  have hlen : (diskRec hostileDisk 1).2.length = ramfsFileSize := by
    rw [length_diskRec]
    decide +kernel
  have hsize : (diskRec hostileDisk 1).SizeOk := ⟨by rw [hlen]; decide, hlen.le⟩
  have htrace : persistLoadTrace true hostileDisk (ramfsInit zeroMem) =
      loadTrace false hostileDisk 1 1 (ramfsInit zeroMem) := by
    have hcount : (persistReadSuper hostileDisk).count = 1 := by decide +kernel
    rw [persistLoadTrace, if_neg (by decide), if_neg (not_not_intro (by decide +kernel)),
      if_pos (by decide +kernel), hcount, ramfsClearUser_init]
  rw [htrace, loadTrace_succ rfl rfl, if_neg (not_not_intro hsize), hlen]
  refine ⟨by simp, by simp, Nat.lt_irrefl _, ?_⟩
  rintro ⟨j, hj, hzero⟩
  have hbyte : hostileDisk 1 j = 97 := by
    show (if j < 64 then (97 : UInt8) else if j = 65 then 32 else 0) = 97
    exact if_pos hj
  rw [hbyte] at hzero
  cases hzero

end OpenAgentOS
