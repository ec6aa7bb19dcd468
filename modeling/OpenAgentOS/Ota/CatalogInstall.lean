import OpenAgentOS.Ota.Catalog
import OpenAgentOS.Ota.Confinement

/-!
# Installs that fail (kernel/catalog.c)

`catalog_install` writes in four places, one after the other: the rollback record, the copy of the
old file, the new file, and the active record. If one of the later ones is refused, the earlier ones
stay.

- `Prepared`: the files when the package is applied. `Applied`: what applying it stores.
- `LateStop`: the files that a call leaves that stops after it has written something.
- `catalogInstall_cases`: an install succeeds, or stops without having written, or stops late.
- `catalogInstall_kept_iff`: a failed install keeps installed files and records exactly if no late
  stop is one that shows. `not_catalogInstall_kept`: a package at a path that may be verified but
  not applied leaves a rollback point.
-/

namespace OpenAgentOS

open CString

section Stages

variable (sha256 : Sha256) (c : CatalogCall) (mem : InstallMem) (fs : Ramfs) (kname : CStr)
  (entry : CatalogEntry)

/-- The files when the package is applied: nothing has been saved, or the old file, or the old file
and a rollback point. -/
inductive Prepared : Files → Prop
  | fresh (hnone : fs.visible entry.installPath.1 = none) : Prepared fs.files
  | unrecorded {old : List UInt8} {e : Int} (hold : fs.visible entry.installPath.1 = some old)
      (hactive : catalogActiveVersion fs kname = .error e)
      (hfits : fs.files.Fits (backupPath entry) old) :
      Prepared (fs.files.put (backupPath entry) old)
  | recorded {v : CharArray 16} {old : List UInt8} {f : Files}
      (hthere : fs.visible entry.installPath.1 ≠ none)
      (hactive : catalogActiveVersion fs kname = .ok v)
      (hrecord : fs.files.Fits catalogPathRollback (recordLine kname v.1 (backupPath entry)))
      (hf : f = fs.files.put catalogPathRollback (recordLine kname v.1 (backupPath entry)))
      (hold : f.content entry.installPath.1 = some old) (hfits : f.Fits (backupPath entry) old) :
      Prepared (f.put (backupPath entry) old)

/-- The package can be applied to the files, and stores `elf` under `target`. -/
structure Applied (f : Files) (target : CStr) (elf : List UInt8) : Prop where
  pkgPath : otaPkgPathOk c.a entry.pkgPath.1.bytes = true
  package : ∃ heap pkg, mem.applyHeap = some heap ∧ f.content entry.pkgPath.1 = some pkg ∧
    otaManifestSize + 64 ≤ pkg.length ∧ OtaSound sha256 fs (heap.write 0 pkg) pkg.length ∧
    target = (otaManifestAt (heap.write 0 pkg)).installPathText mem.manifest ∧
    elf = otaImage (heap.write 0 pkg)
  fits : f.Fits target elf

/-- The record of the new version. -/
def activeRecord : List UInt8 := recordLine kname entry.version.1 entry.installPath.1

/-- The files that are left by a call that stops after it has written something. -/
inductive LateStop : Files → Prop
  /-- There is a rollback point now, but the old file cannot be copied. -/
  | backup {v : CharArray 16} {old : List UInt8} {f : Files}
      (hthere : fs.visible entry.installPath.1 ≠ none)
      (hactive : catalogActiveVersion fs kname = .ok v)
      (hrecord : fs.files.Fits catalogPathRollback (recordLine kname v.1 (backupPath entry)))
      (hf : f = fs.files.put catalogPathRollback (recordLine kname v.1 (backupPath entry)))
      (hold : f.content entry.installPath.1 = some old) (hfull : ¬ f.Fits (backupPath entry) old) :
      LateStop f
  /-- The package cannot be applied. -/
  | apply {f : Files} (hf : Prepared fs kname entry f)
      (hrefused : ∀ target elf, ¬ Applied sha256 c mem fs entry f target elf) : LateStop f
  /-- The new version cannot be recorded. -/
  | active {f : Files} {target : CStr} {elf : List UInt8} (hf : Prepared fs kname entry f)
      (happlied : Applied sha256 c mem fs entry f target elf)
      (hfull : ¬ (f.put target elf).Fits catalogPathActive (activeRecord kname entry)) :
      LateStop (f.put target elf)

end Stages

/-- Both have the same contents under paths of a length that is never the result of a cut. -/
def Files.Agrees (f : Files) (fs : Ramfs) : Prop := ∀ q : CStr, q.length < 63 → fs.visible q = f.content q

variable {sha256 : Sha256} {c : CatalogCall} {mem : InstallMem} {fs fs' : Ramfs} {kname : CStr}
  {entry : CatalogEntry} {f : Files} {target : CStr} {elf : List UInt8}

/-! ## Paths -/

theorem length_backupPath (entry : CatalogEntry) : (backupPath entry).length < 63 := by
  have hinstall : entry.installPath.1.bytes.length < 48 := entry.installPath.2
  have hprev : (bytes ".prev").length = 5 := by decide
  show (entry.installPath.1.bytes.take 59 ++ bytes ".prev").length < 63
  rw [List.length_append, List.length_take, hprev]
  omega

/-- A copy has a path with its own ending. -/
theorem backupPath_ne (entry : CatalogEntry) {p : CStr} (hp : p.bytes.getLast? ≠ some 'v'.toUInt8) :
    p ≠ backupPath entry := by
  rintro rfl
  refine hp ?_
  show (entry.installPath.1.bytes.take 59 ++ bytes ".prev").getLast? = _
  rw [List.getLast?_append]
  rfl

/-! ## Saving the old file -/

theorem catalogBackUp_fresh (hnone : fs.visible entry.installPath.1 = none) :
    catalogBackUp fs kname entry = (0, fs) := by
  rw [catalogBackUp, catalogFileSize_eq, hnone]

theorem catalogBackUp_there {old : List UInt8} (hold : fs.visible entry.installPath.1 = some old) :
    catalogBackUp fs kname entry =
      match catalogActiveVersion fs kname with
      | .error _ => catalogCopyFile fs entry.installPath.1 (backupPath entry)
      | .ok curVer =>
        let set := catalogSetRollback fs kname curVer.1 (backupPath entry)
        if set.1 ≠ 0 then set
        else catalogCopyFile set.2 entry.installPath.1 (backupPath entry) := by
  rw [catalogBackUp, catalogFileSize_eq, hold]
  exact if_pos (by omega)

section Recorded

variable {v : CharArray 16} (hthere : fs.visible entry.installPath.1 ≠ none)
  (hactive : catalogActiveVersion fs kname = .ok v)

include hthere hactive

/-- The rollback point can be recorded. -/
theorem catalogBackUp_recorded
    (hrecord : fs.files.Fits catalogPathRollback (recordLine kname v.1 (backupPath entry))) :
    ∃ fs₁, catalogBackUp fs kname entry = catalogCopyFile fs₁ entry.installPath.1 (backupPath entry) ∧
      fs₁.files = fs.files.put catalogPathRollback (recordLine kname v.1 (backupPath entry)) := by
  obtain ⟨old, hold⟩ := Option.ne_none_iff_exists'.mp hthere
  obtain ⟨fs₁, hset, hfiles⟩ := catalogSetRecord_fits hrecord (by decide)
  refine ⟨fs₁, ?_, hfiles⟩
  rw [catalogBackUp_there hold, hactive]
  dsimp only
  rw [catalogSetRollback, hset, if_neg (not_not.mpr rfl)]

/-- The rollback point cannot be recorded. -/
theorem catalogBackUp_unrecordable
    (hfull : ¬ fs.files.Fits catalogPathRollback (recordLine kname v.1 (backupPath entry))) :
    (catalogBackUp fs kname entry).1 ≠ 0 ∧ (catalogBackUp fs kname entry).2 = fs := by
  obtain ⟨old, hold⟩ := Option.ne_none_iff_exists'.mp hthere
  have hset := catalogSetRecord_not_fits hfull
  rw [catalogBackUp_there hold, hactive]
  dsimp only
  rw [catalogSetRollback, if_pos hset.1]
  exact hset

end Recorded

/-- **What is saved.** -/
theorem Prepared.backUp (h : Prepared fs kname entry f) :
    ∃ fs₂, catalogBackUp fs kname entry = (0, fs₂) ∧ fs₂.files = f := by
  have hshort : (backupPath entry).length < ramfsPathMax :=
    Nat.lt_trans (length_backupPath entry) (by decide)
  cases h with
  | fresh hnone => exact ⟨fs, catalogBackUp_fresh hnone, rfl⟩
  | unrecorded hold hactive hfits =>
    rw [catalogBackUp_there hold, hactive]
    exact catalogCopyFile_fits hold hfits hshort
  | recorded hthere hactive hrecord hf hold hfits =>
    obtain ⟨fs₁, hcopy, hfiles⟩ := catalogBackUp_recorded hthere hactive hrecord
    rw [hf, ← hfiles] at hold hfits
    rw [hcopy, hf, ← hfiles]
    exact catalogCopyFile_fits hold hfits hshort

/-- The old file cannot be copied, and there is a rollback point. -/
theorem catalogBackUp_stops {v : CharArray 16} {old : List UInt8}
    (hthere : fs.visible entry.installPath.1 ≠ none) (hactive : catalogActiveVersion fs kname = .ok v)
    (hrecord : fs.files.Fits catalogPathRollback (recordLine kname v.1 (backupPath entry)))
    (hf : f = fs.files.put catalogPathRollback (recordLine kname v.1 (backupPath entry)))
    (hold : f.content entry.installPath.1 = some old) (hfull : ¬ f.Fits (backupPath entry) old) :
    (catalogBackUp fs kname entry).1 ≠ 0 ∧ (catalogBackUp fs kname entry).2.files = f := by
  obtain ⟨fs₁, hcopy, hfiles⟩ := catalogBackUp_recorded hthere hactive hrecord
  rw [hf, ← hfiles] at hold hfull
  obtain ⟨hcode, hsame⟩ := catalogCopyFile_not_fits hold hfull
  rw [hcopy, hsame, hf, hfiles]
  exact ⟨hcode, rfl⟩

/-- The old file is saved, or nothing has been written, or only the rollback point. -/
theorem catalogBackUp_cases (sha256 : Sha256) (c : CatalogCall) (mem : InstallMem) :
    (∃ f, Prepared fs kname entry f) ∨
      ((catalogBackUp fs kname entry).1 ≠ 0 ∧ (catalogBackUp fs kname entry).2 = fs) ∨
      ∃ f, LateStop sha256 c mem fs kname entry f ∧ (catalogBackUp fs kname entry).1 ≠ 0 ∧
        (catalogBackUp fs kname entry).2.files = f := by
  cases hinstall : fs.visible entry.installPath.1 with
  | none => exact .inl ⟨_, .fresh hinstall⟩
  | some old =>
    have hthere : fs.visible entry.installPath.1 ≠ none := by
      rw [hinstall]
      nofun
    cases hactive : catalogActiveVersion fs kname with
    | error e =>
      by_cases hfits : fs.files.Fits (backupPath entry) old
      · exact .inl ⟨_, .unrecorded hinstall hactive hfits⟩
      · refine .inr (.inl ?_)
        rw [catalogBackUp_there hinstall, hactive]
        exact catalogCopyFile_not_fits hinstall hfits
    | ok v =>
      by_cases hrecord : fs.files.Fits catalogPathRollback (recordLine kname v.1 (backupPath entry))
      · obtain ⟨f, hf⟩ : ∃ f, f = fs.files.put catalogPathRollback
            (recordLine kname v.1 (backupPath entry)) := ⟨_, rfl⟩
        obtain ⟨old', hold⟩ : ∃ old', f.content entry.installPath.1 = some old' :=
          Option.ne_none_iff_exists'.mp (hf ▸ fs.files.put_ne_none hthere _ _)
        by_cases hfits : f.Fits (backupPath entry) old'
        · exact .inl ⟨_, .recorded hthere hactive hrecord hf hold hfits⟩
        · exact .inr (.inr ⟨f, .backup hthere hactive hrecord hf hold hfits,
            catalogBackUp_stops hthere hactive hrecord hf hold hfits⟩)
      · exact .inr (.inl (catalogBackUp_unrecordable hthere hactive hrecord))

/-! ## Applying the package -/

/-- A file that is neither the rollback record nor the copy is as before. -/
theorem Prepared.content (h : Prepared fs kname entry f) {q : CStr} (hrollback : q ≠ catalogPathRollback)
    (hbackup : q ≠ backupPath entry) : f.content q = fs.visible q := by
  cases h with
  | fresh => rfl
  | unrecorded => exact Files.put_of_ne _ hbackup _
  | recorded _ _ _ hf =>
    rw [Files.put_of_ne _ hbackup, hf, Files.put_of_ne _ hrollback]
    rfl

theorem otaSound_congr (h : fs'.visible otaPathChannel = fs.visible otaPathChannel) {buf : Buf}
    {len : Nat} : OtaSound sha256 fs' buf len ↔ OtaSound sha256 fs buf len := by
  have hchannel : ∀ text, otaChannelMatches fs' text = otaChannelMatches fs text := by
    intro text
    simp only [otaChannelMatches, ramfsRead_eq, h]
  constructor
  · rintro ⟨hmagic, hoffset, hfits, hpath, hsigned, hmatch⟩
    exact ⟨hmagic, hoffset, hfits, hpath, hsigned, hchannel _ ▸ hmatch⟩
  · rintro ⟨hmagic, hoffset, hfits, hpath, hsigned, hmatch⟩
    exact ⟨hmagic, hoffset, hfits, hpath, hsigned, (hchannel _).symm ▸ hmatch⟩

/-- **What applying the package stores**, after the old file has been saved. -/
theorem otaApply_eq_ok_iff (hcap : c.a.hasCap capFs = true) {fs₂ fs₃ : Ramfs}
    (hf : Prepared fs kname entry fs₂.files) :
    otaApplyPackageKpath sha256 c.a fs₂ mem.applyHeap mem.manifest entry.pkgPath.1 = (0, fs₃) ↔
      ∃ target elf, Applied sha256 c mem fs entry fs₂.files target elf ∧
        ramfsPut fs₂ target elf = (0, fs₃) := by
  have hchannel : fs₂.visible otaPathChannel = fs.visible otaPathChannel :=
    hf.content (by decide) (backupPath_ne entry (by decide))
  rw [otaApplyPackageKpath_eq_ok_iff_stores]
  refine exists_congr fun target => exists_congr fun elf => and_congr_left fun _ => ?_
  constructor
  · rintro ⟨-, hpath, ⟨heap, pkg, hheap, hpkg, hsize, hsound, htarget, helf⟩, hpos, hlt, hroom⟩
    exact ⟨hpath, ⟨heap, pkg, hheap, hpkg, hsize, (otaSound_congr hchannel).mp hsound, htarget, helf⟩,
      hpos, hlt, hroom⟩
  · rintro ⟨hpath, ⟨heap, pkg, hheap, hpkg, hsize, hsound, htarget, helf⟩, hpos, hlt, hroom⟩
    exact ⟨hcap, hpath, ⟨heap, pkg, hheap, hpkg, hsize, (otaSound_congr hchannel).mpr hsound, htarget,
      helf⟩, hpos, hlt, hroom⟩

/-- A package that cannot be applied changes nothing. -/
theorem otaApply_refused (hcap : c.a.hasCap capFs = true) {fs₂ : Ramfs}
    (hf : Prepared fs kname entry fs₂.files)
    (hrefused : ∀ target elf, ¬ Applied sha256 c mem fs entry fs₂.files target elf) {applied : Int × Ramfs}
    (happly : otaApplyPackageKpath sha256 c.a fs₂ mem.applyHeap mem.manifest entry.pkgPath.1 = applied) :
    applied.1 ≠ 0 ∧ applied.2 = fs₂ := by
  have hcode : applied.1 ≠ 0 := by
    intro hzero
    obtain ⟨target, elf, hstored, -⟩ := (otaApply_eq_ok_iff hcap hf).mp (happly.trans (Prod.ext hzero rfl))
    exact hrefused target elf hstored
  rw [← happly] at hcode ⊢
  exact ⟨hcode, otaApplyPackageKpath_failed hcode⟩

/-- What is stored for a package, and what is next to it. -/
theorem agrees_put {fs₂ fs₃ : Ramfs} (hput : ramfsPut fs₂ target elf = (0, fs₃)) :
    (fs₂.files.put target elf).Agrees fs₃ := fun _ hq => visible_put_short hput hq

/-! ## Installing -/

/-- The checks have passed. -/
theorem catalogInstall_checked (hcheck : catalogCheck sha256 c mem fs = .ok (kname, entry)) :
    catalogInstall sha256 c mem fs =
      (let saved := catalogBackUp fs kname entry
      if saved.1 ≠ 0 then saved
      else
        let applied := otaApplyPackageKpath sha256 c.a saved.2 mem.applyHeap mem.manifest
          entry.pkgPath.1
        if applied.1 ≠ 0 then applied
        else catalogSetActive applied.2 kname entry.version.1 entry.installPath.1) := by
  rw [catalogInstall, hcheck]

theorem hasCap_of_catalogCheck (hcheck : catalogCheck sha256 c mem fs = .ok (kname, entry)) :
    c.a.hasCap capFs = true := by
  by_contra hcap
  rw [catalogCheck, if_pos (by simpa using hcap)] at hcheck
  cases hcheck

section Checked

variable (hcheck : catalogCheck sha256 c mem fs = .ok (kname, entry))

include hcheck

/-- The file cannot be saved. -/
theorem catalogInstall_unsaved (hcode : (catalogBackUp fs kname entry).1 ≠ 0) :
    catalogInstall sha256 c mem fs = catalogBackUp fs kname entry := by
  rw [catalogInstall_checked hcheck]
  exact if_pos hcode

/-- The package cannot be applied. -/
theorem catalogInstall_refused (hf : Prepared fs kname entry f)
    (hrefused : ∀ target elf, ¬ Applied sha256 c mem fs entry f target elf) :
    (catalogInstall sha256 c mem fs).1 ≠ 0 ∧ (catalogInstall sha256 c mem fs).2.files = f := by
  obtain ⟨fs₂, hsaved, rfl⟩ := hf.backUp
  obtain ⟨applied, happly⟩ : ∃ applied, otaApplyPackageKpath sha256 c.a fs₂ mem.applyHeap mem.manifest
      entry.pkgPath.1 = applied := ⟨_, rfl⟩
  obtain ⟨hcode, hsame⟩ := otaApply_refused (hasCap_of_catalogCheck hcheck) hf hrefused happly
  rw [catalogInstall_checked hcheck, hsaved]
  dsimp only
  rw [if_neg (not_not.mpr rfl), happly, if_pos hcode, hsame]
  exact ⟨hcode, rfl⟩

/-- The package is applied, and the version has to be recorded. -/
theorem catalogInstall_applied (hf : Prepared fs kname entry f)
    (happlied : Applied sha256 c mem fs entry f target elf) :
    ∃ fs₂ fs₃, fs₂.files = f ∧ ramfsPut fs₂ target elf = (0, fs₃) ∧
      catalogInstall sha256 c mem fs =
        catalogSetActive fs₃ kname entry.version.1 entry.installPath.1 := by
  obtain ⟨fs₂, hsaved, rfl⟩ := hf.backUp
  obtain ⟨fs₃, hput⟩ := exists_put happlied.fits
  have happly := (otaApply_eq_ok_iff (hasCap_of_catalogCheck hcheck) hf).mpr
    ⟨target, elf, happlied, hput⟩
  refine ⟨fs₂, fs₃, rfl, hput, ?_⟩
  rw [catalogInstall_checked hcheck, hsaved]
  dsimp only
  rw [if_neg (not_not.mpr rfl), happly, if_neg (not_not.mpr rfl)]

omit hcheck in
/-- Whether the active record fits does not depend on how long the path of the image is. -/
theorem fits_active_iff {fs₂ fs₃ : Ramfs} (hput : ramfsPut fs₂ target elf = (0, fs₃)) {data : List UInt8} :
    fs₃.files.Fits catalogPathActive data ↔
      (fs₂.files.put target elf).Fits catalogPathActive data := by
  have hcontent : fs₃.files.content catalogPathActive =
      (fs₂.files.put target elf).content catalogPathActive := agrees_put hput _ (by decide)
  have hused : fs₃.files.used = (fs₂.files.put target elf).used := used_put hput
  rw [Files.Fits, Files.Fits, hcontent, hused]

/-- **A call that stops late** fails and leaves these files. -/
theorem LateStop.install (h : LateStop sha256 c mem fs kname entry f) :
    (catalogInstall sha256 c mem fs).1 ≠ 0 ∧ f.Agrees (catalogInstall sha256 c mem fs).2 := by
  cases h with
  | backup hthere hactive hrecord hf hold hfull =>
    obtain ⟨hcode, hfiles⟩ := catalogBackUp_stops hthere hactive hrecord hf hold hfull
    rw [catalogInstall_unsaved hcheck hcode]
    exact ⟨hcode, fun q _ => by rw [← hfiles]; rfl⟩
  | apply hf hrefused =>
    obtain ⟨hcode, hfiles⟩ := catalogInstall_refused hcheck hf hrefused
    exact ⟨hcode, fun q _ => by rw [← hfiles]; rfl⟩
  | active hf happlied hfull =>
    obtain ⟨fs₂, fs₃, rfl, hput, hinstall⟩ := catalogInstall_applied hcheck hf happlied
    obtain ⟨hcode, hsame⟩ := catalogSetRecord_not_fits (mt (fits_active_iff hput).mp hfull)
    rw [hinstall, catalogSetActive, hsame]
    exact ⟨hcode, agrees_put hput⟩

/-- **Every install** succeeds, or stops without having written, or stops late. -/
theorem catalogInstall_cases :
    (∃ f target elf, (catalogInstall sha256 c mem fs).1 = 0 ∧ Prepared fs kname entry f ∧
      Applied sha256 c mem fs entry f target elf ∧
      ((f.put target elf).put catalogPathActive (activeRecord kname entry)).Agrees
        (catalogInstall sha256 c mem fs).2) ∨
    ((catalogInstall sha256 c mem fs).1 ≠ 0 ∧ (catalogInstall sha256 c mem fs).2 = fs) ∨
    ∃ f, LateStop sha256 c mem fs kname entry f := by
  rcases @catalogBackUp_cases fs kname entry sha256 c mem with
    ⟨f, hf⟩ | ⟨hcode, hsame⟩ | ⟨f, hstop, -⟩
  · by_cases hrefused : ∀ target elf, ¬ Applied sha256 c mem fs entry f target elf
    · exact .inr (.inr ⟨f, .apply hf hrefused⟩)
    · push Not at hrefused
      obtain ⟨target, elf, happlied⟩ := hrefused
      by_cases hfits : (f.put target elf).Fits catalogPathActive (activeRecord kname entry)
      · obtain ⟨fs₂, fs₃, rfl, hput, hinstall⟩ := catalogInstall_applied hcheck hf happlied
        obtain ⟨fs₄, hset, hfiles⟩ := catalogSetRecord_fits ((fits_active_iff hput).mpr hfits)
          (by decide)
        refine .inl ⟨_, target, elf, ?_, hf, happlied, fun q hq => ?_⟩
        · rw [hinstall, catalogSetActive, hset]
        · rw [hinstall, catalogSetActive, hset]
          show fs₄.files.content q = _
          rw [hfiles]
          by_cases hactive : q = catalogPathActive
          · rw [hactive, Files.put_self, Files.put_self]
            rfl
          · rw [Files.put_of_ne _ hactive, Files.put_of_ne _ hactive]
            exact agrees_put hput q hq
      · exact .inr (.inr ⟨_, .active hf happlied hfits⟩)
  · refine .inr (.inl ?_)
    rw [catalogInstall_unsaved hcheck hcode]
    exact ⟨hcode, hsame⟩
  · exact .inr (.inr ⟨f, hstop⟩)

end Checked

/-! ## What a failed install changes -/

/-- The installed files, the active versions and the rollback points are as before. Paths of
installed files have less than 48 bytes, as in the index. -/
structure CatalogKept (installed : CharArray 48 → Prop) (fs fs' : Ramfs) : Prop where
  files : ∀ p, installed p → fs'.visible p.1 = fs.visible p.1
  active : ∀ name, catalogActiveVersion fs' name = catalogActiveVersion fs name ∧
    catalogActiveInstall fs' name = catalogActiveInstall fs name
  rollback : ∀ name, rollbackPoint fs' name = rollbackPoint fs name

/-- The rollback point of a package in a text. -/
def pointIn (text : Option (List UInt8)) (name : CStr) :
    Except Int (Option (CharArray 16) × Option (CharArray 64)) :=
  match textOf text with
  | .error e => .error e
  | .ok rb =>
    match findLine rb name with
    | none => .error enoent
    | some line => .ok (splitField line 1 16, splitField line 2 64)

theorem rollbackPoint_eq (fs : Ramfs) (name : CStr) :
    rollbackPoint fs name = pointIn (fs.visible catalogPathRollback) name := by
  rw [rollbackPoint, catalogReadFile_eq]
  rfl

/-- The files show the same installed files and rollback points as the table. -/
structure Files.Unchanged (installed : CharArray 48 → Prop) (fs : Ramfs) (f : Files) : Prop where
  files : ∀ p, installed p → f.content p.1 = fs.visible p.1
  rollback : ∀ name, pointIn (f.content catalogPathRollback) name = rollbackPoint fs name

theorem fits_active_of_there (h : f.content catalogPathActive ≠ none) :
    f.Fits catalogPathActive (activeRecord kname entry) :=
  Files.fits_of_ne_none (length_recordLine_pos _ _ _)
    (Nat.lt_trans (length_recordLine_lt _ _ _) (by decide)) h

/-- A late stop leaves the active versions. -/
theorem LateStop.active_content (h : LateStop sha256 c mem fs kname entry f) :
    f.content catalogPathActive = fs.visible catalogPathActive := by
  have hne : catalogPathActive ≠ catalogPathRollback := by decide
  have hbackup : catalogPathActive ≠ backupPath entry := backupPath_ne entry (by decide)
  cases h with
  | backup _ _ _ hf =>
    rw [hf, Files.put_of_ne _ hne]
    rfl
  | apply hf => exact hf.content hne hbackup
  | @active f target elf hf _ hfull =>
    have htarget : catalogPathActive ≠ target := by
      rintro rfl
      exact hfull (fits_active_of_there (by rw [Files.put_self]; nofun))
    rw [Files.put_of_ne _ htarget]
    exact hf.content hne hbackup

theorem catalogKept_refl (installed : CharArray 48 → Prop) (fs : Ramfs) :
    CatalogKept installed fs fs := ⟨fun _ _ => rfl, fun _ => ⟨rfl, rfl⟩, fun _ => rfl⟩

/-- **A failed install keeps installed files and records** exactly if it does not stop late, or what
it has written by then was there before. -/
theorem catalogInstall_kept_iff (sha256 : Sha256) (c : CatalogCall) (mem : InstallMem) (fs : Ramfs)
    (installed : CharArray 48 → Prop) :
    ((catalogInstall sha256 c mem fs).1 ≠ 0 →
        CatalogKept installed fs (catalogInstall sha256 c mem fs).2) ↔
      ∀ kname entry f, catalogCheck sha256 c mem fs = .ok (kname, entry) →
        LateStop sha256 c mem fs kname entry f → f.Unchanged installed fs := by
  have hinstalled : ∀ p : CharArray 48, p.1.length < 63 := fun p => Nat.lt_trans p.2 (by decide)
  constructor
  · intro hkept kname entry f hcheck hstop
    obtain ⟨hcode, hagrees⟩ := hstop.install hcheck
    have h := hkept hcode
    refine ⟨fun p hp => ?_, fun name => ?_⟩
    · rw [← hagrees _ (hinstalled p)]
      exact h.files p hp
    · rw [← hagrees _ (by decide), ← rollbackPoint_eq]
      exact h.rollback name
  · intro hsafe hcode
    cases hcheck : catalogCheck sha256 c mem fs with
    | error e =>
      rw [catalogInstall, hcheck]
      exact catalogKept_refl installed fs
    | ok checked =>
      obtain ⟨kname, entry⟩ := checked
      rcases catalogInstall_cases hcheck with ⟨_, _, _, hzero, -⟩ | ⟨-, hsame⟩ | ⟨f, hstop⟩
      · exact absurd hzero hcode
      · rw [hsame]
        exact catalogKept_refl installed fs
      · obtain ⟨-, hagrees⟩ := hstop.install hcheck
        obtain ⟨hfiles, hrollback⟩ := hsafe kname entry f hcheck hstop
        have hactive : (catalogInstall sha256 c mem fs).2.visible catalogPathActive =
            fs.visible catalogPathActive := (hagrees _ (by decide)).trans hstop.active_content
        refine ⟨fun p hp => (hagrees _ (hinstalled p)).trans (hfiles p hp), fun name => ?_,
          fun name => ?_⟩
        · exact ⟨activeField_congr hactive name 1 16, activeField_congr hactive name 2 64⟩
        · rw [rollbackPoint_eq, hagrees _ (by decide)]
          exact hrollback name

/-! ## A package that may be verified but not applied -/

/-- A catalog with package `w`, whose version 1.0 is installed, and a package file for version 2.0
under the path. -/
def demoRecs (path : CStr) (pkg : List UInt8) : List FileRec :=
  [(otaPathChannel, otaChannelStable),
    (catalogPathIndex, bytes "w|2.0|" ++ path.bytes ++ bytes "|/agent/1/w|stable|0"),
    (catalogPathActive, bytes "w|1.0|/agent/1/w"),
    (.lit "/agent/1/w", bytes "old"),
    (path, pkg)]

/-- The files of the catalog in a new file system. -/
def demoFs (path : CStr) (pkg : List UInt8) : Ramfs := ((ramfsInit zeroMem).restore (demoRecs path pkg)).2

/-- An agent with the letter `w` in front of a zero byte. -/
def demoCall : CatalogCall where
  a := workerAgent
  u := { check := fun _ _ _ => true, byte := fun va => if va = 0x1000 then 'w'.toUInt8 else 0 }
  name := 0x1000

/-- Cleared memory. -/
def demoMem : InstallMem where
  name := fun _ => 0
  entry := ⟨⟨.lit "", by decide⟩, ⟨.lit "", by decide⟩, ⟨.lit "", by decide⟩, ⟨.lit "", by decide⟩,
    ⟨.lit "", by decide⟩⟩
  verifyHeap := some fun _ => 0
  applyHeap := some fun _ => 0
  manifest := .lit ""

/-- The package: an image of 64 bytes for `/agent/1/w`. -/
def demoPkg : List UInt8 :=
  mkAgentpkg (bytes "w") (bytes "2.0") otaChannelStable 9 (bytes "/agent/1/w") (List.replicate 64 0x7f)

theorem length_demoPkg : demoPkg.length = 192 := by
  rw [demoPkg, mkAgentpkg, List.length_append, Buf.length_slice]
  rfl

/-- `w`. -/
def demoName : CStr := .lit "w"

/-- The entry of `w` in the index. -/
def demoEntry (path : CharArray 48) : CatalogEntry where
  version := ⟨.lit "2.0", by decide⟩
  pkgPath := path
  installPath := ⟨.lit "/agent/1/w", by decide⟩
  channel := ⟨.lit "stable", by decide⟩
  minVersion := ⟨.lit "0", by decide⟩

/-- A path of another agent. -/
def foreignPath : CharArray 48 := ⟨.lit "/agent/2/p", by decide +kernel⟩

/-- The catalog with the package in another agent's directory. -/
abbrev foreignFs : Ramfs := demoFs foreignPath.1 demoPkg

theorem foreignFs_visible : foreignFs.visible foreignPath.1 = some demoPkg := by
  have hload : ∀ r ∈ demoRecs foreignPath.1 demoPkg, r.Loadable := by
    simp only [demoRecs, List.forall_mem_cons]
    refine ⟨⟨by decide, by decide, by decide⟩, ⟨by decide, by decide, by decide⟩,
      ⟨by decide, by decide, by decide⟩, ⟨by decide, by decide, by decide⟩,
      ⟨by decide, ?_, ?_⟩, nofun⟩
    · show 0 < demoPkg.length
      rw [length_demoPkg]
      decide
    · show demoPkg.length < ramfsFileSize
      rw [length_demoPkg]
      decide
  obtain ⟨fs', hrestore⟩ := restore_ramfsInit zeroMem hload (show 5 ≤ 62 by decide)
  obtain ⟨-, hvisible, -⟩ := restore_ok (fun r hr => (hload r hr).short) (ramfsInit_pathsUnique zeroMem)
    hrestore
  rw [foreignFs, demoFs, hrestore, hvisible, lastUnder, demoRecs]
  simp only [List.foldl_cons, List.foldl_nil, if_pos]

/-- The package passes every check. -/
theorem catalogCheck_foreign (sha256 : Sha256) :
    catalogCheck sha256 demoCall demoMem foreignFs = .ok (demoName, demoEntry foreignPath) := by
  have hchannel : foreignFs.visible otaPathChannel = some otaChannelStable := by decide +kernel
  have hindex : foreignFs.visible catalogPathIndex =
      some (bytes "w|2.0|/agent/2/p|/agent/1/w|stable|0") := by decide +kernel
  have hactive : foreignFs.visible catalogPathActive = some (bytes "w|1.0|/agent/1/w") := by
    decide +kernel
  have hcall : catalogName .catalogInstall demoCall demoMem.name = .ok demoName := by decide +kernel
  have hentry : catalogFindEntry foreignFs demoName demoMem.entry = .ok (demoEntry foreignPath) := by
    rw [catalogFindEntry, catalogReadFile_eq, hindex]
    rfl
  have hversion : catalogActiveVersion foreignFs demoName = .ok ⟨.lit "1.0", by decide⟩ := by
    rw [catalogActiveVersion, activeField, catalogActiveLine, catalogReadFile_eq, hactive]
    rfl
  have hverify : otaVerifyPackageKpath sha256 foreignFs demoMem.verifyHeap foreignPath.1 = 0 := by
    rw [otaVerifyPackageKpath, show demoMem.verifyHeap = some fun _ => 0 from rfl,
      otaParsePackage_mkAgentpkg sha256 _ (by decide) (by decide) foreignFs_visible
        (by rw [otaChannelMatches_stable hchannel]; decide)]
  have hgate : versionGate (some (bytes "1.0")) (bytes "0") = true := by decide +kernel
  rw [catalogCheck, if_neg (by decide), hcall]
  dsimp only
  rw [hentry]
  dsimp only
  rw [hversion, if_neg (by rw [Bool.not_eq_true', Bool.not_eq_false]; exact hgate),
    show (demoEntry foreignPath).pkgPath.1 = foreignPath.1 from rfl, hverify,
    if_neg (not_not.mpr rfl)]

/-- The package is refused once the old version is saved. -/
theorem catalogInstall_foreign (sha256 : Sha256) :
    catalogInstall sha256 demoCall demoMem foreignFs =
      (eperm, (catalogBackUp foreignFs demoName (demoEntry foreignPath)).2) := by
  have hsaved : (catalogBackUp foreignFs demoName (demoEntry foreignPath)).1 = 0 := by decide +kernel
  have hpath : (!otaPkgPathOk demoCall.a (demoEntry foreignPath).pkgPath.1.bytes) = true := by
    decide +kernel
  have hrefused : ∀ fs heap behind, otaApplyPackageKpath sha256 demoCall.a fs heap behind
      (demoEntry foreignPath).pkgPath.1 = (eperm, fs) := by
    intro fs heap behind
    rw [otaApplyPackageKpath, if_neg (by decide), if_pos hpath]
  rw [catalogInstall_checked (catalogCheck_foreign sha256)]
  dsimp only
  rw [if_neg (not_not.mpr hsaved), hrefused, if_pos (by decide)]

theorem not_catalogInstall_kept :
    ¬ ∀ (sha256 : Sha256) (c : CatalogCall) (mem : InstallMem) (fs : Ramfs)
        (installed : CharArray 48 → Prop), (catalogInstall sha256 c mem fs).1 ≠ 0 →
          CatalogKept installed fs (catalogInstall sha256 c mem fs).2 := by
  intro h
  have hkept := h (fun _ => .replicate 32 0) demoCall demoMem foreignFs fun _ => True
  rw [catalogInstall_foreign] at hkept
  -- There was no rollback point, and now there is one.
  exact absurd ((hkept (by decide)).rollback demoName) (by decide +kernel)

end OpenAgentOS
