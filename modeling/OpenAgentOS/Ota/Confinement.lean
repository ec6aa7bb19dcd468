import OpenAgentOS.Ota.Signing

/-!
# Where an agent can install packages (kernel/ota.c, tool.c)

`ota_apply_package` asks whether the caller may use the package file. Where the image goes is
written in the package, and there the only rule is that the path starts with a slash: the rules for
writing files (`policyFsWrite`) are not consulted.

- `OtaStores`: what a package does that is applied.
- `WritesConfined`: all files that have changed are files the caller may write.
- `otaApply_confined_iff`: so an agent is confined exactly if its package names a path that it may
  write. `not_otaApply_confined`: agent 1 replaces `/sys/version`.
-/

namespace OpenAgentOS

open CString

/-- One file before and after. -/
def SameFile (f g : RamfsFile) : Prop :=
  f.used = g.used ∧ (f.used = true → f.path = g.path ∧ f.content = g.content)

/-- The files that `a` may not write are as they were, and it has created none of them. -/
def WritesConfined (a : Caller) (fs fs' : Ramfs) : Prop :=
  ∀ i, policyFsWrite a (fs' i).path.bytes ≠ 0 → SameFile (fs i) (fs' i)

/-- The package at `kpath` is sound, and its image can be stored under its path. -/
structure OtaStores (sha256 : Sha256) (a : Caller) (fs : Ramfs) (heap : Option Buf)
    (behind kpath path : CStr) (elf : List UInt8) : Prop where
  cap : a.hasCap capFs = true
  pkgPath : otaPkgPathOk a kpath.bytes = true
  package : ∃ mem pkg, heap = some mem ∧ fs.visible kpath = some pkg ∧
    otaManifestSize + 64 ≤ pkg.length ∧ OtaSound sha256 fs (mem.write 0 pkg) pkg.length ∧
    path = (otaManifestAt (mem.write 0 pkg)).installPathText behind ∧
    elf = otaImage (mem.write 0 pkg)
  pos : 0 < elf.length
  lt : elf.length < ramfsFileSize
  room : fs.visible path = none → slotCount (fun i => (fs i).used) < ramfsMaxFiles

section

variable {sha256 : Sha256} {a : Caller} {fs fs' : Ramfs} {heap : Option Buf}
  {behind kpath path : CStr} {elf : List UInt8}

/-- **A package is applied exactly if it stores something.** -/
theorem otaApplyPackageKpath_eq_ok_iff_stores :
    otaApplyPackageKpath sha256 a fs heap behind kpath = (0, fs') ↔
      ∃ path elf, OtaStores sha256 a fs heap behind kpath path elf ∧
        ramfsPut fs path elf = (0, fs') := by
  rw [otaApplyPackageKpath_eq_ok_iff]
  constructor
  · rintro ⟨hcap, hpkg, m, elf, hparse, hput⟩
    obtain ⟨mem, pkg, hmem, hfile, hsize, hsound, rfl, rfl⟩ := otaParsePackage_eq_ok_iff.mp hparse
    obtain ⟨hpos, hlt, hroom⟩ := ramfsPut_fst_eq_zero_iff.mp (congrArg Prod.fst hput)
    exact ⟨_, _, ⟨hcap, hpkg, ⟨mem, pkg, hmem, hfile, hsize, hsound, rfl, rfl⟩, hpos, hlt, hroom⟩,
      hput⟩
  · rintro ⟨path, elf, ⟨hcap, hpkg, ⟨mem, pkg, hmem, hfile, hsize, hsound, rfl, rfl⟩, -, -, -⟩, hput⟩
    exact ⟨hcap, hpkg, _, _,
      otaParsePackage_eq_ok_iff.mpr ⟨mem, pkg, hmem, hfile, hsize, hsound, rfl, rfl⟩, hput⟩

/-- A package stores one image under one path. -/
theorem OtaStores.unique {path' : CStr} {elf' : List UInt8}
    (h : OtaStores sha256 a fs heap behind kpath path elf)
    (h' : OtaStores sha256 a fs heap behind kpath path' elf') : path = path' ∧ elf = elf' := by
  obtain ⟨mem, pkg, hmem, hfile, -, -, rfl, rfl⟩ := h.package
  obtain ⟨mem', pkg', hmem', hfile', -, -, rfl, rfl⟩ := h'.package
  obtain rfl := Option.some.inj (hmem.symm.trans hmem')
  obtain rfl := Option.some.inj (hfile.symm.trans hfile')
  exact ⟨rfl, rfl⟩

theorem writesConfined_refl (a : Caller) (fs : Ramfs) : WritesConfined a fs fs :=
  fun _ _ => ⟨rfl, fun _ => ⟨rfl, rfl⟩⟩

/-- A file that was stored is new, or replaces the one under its path. -/
theorem writesConfined_put_iff (hput : ramfsPut fs path elf = (0, fs')) :
    WritesConfined a fs fs' ↔
      policyFsWrite a (path.copy ramfsPathMax).bytes = 0 ∨ fs.visible path = some elf := by
  obtain ⟨i, hused, hpath, hcontent, hother, hslot⟩ := ramfsPut_ok hput
  constructor
  · intro h
    refine or_iff_not_imp_left.mpr fun hdenied => ?_
    obtain ⟨hsame, hfile⟩ := h i (by rwa [hpath])
    rw [hused] at hsame
    rcases hslot with hfind | ⟨-, hfree⟩
    · rw [Ramfs.visible, hfind, Option.map_some, (hfile hsame).2, hcontent]
    · rw [hfree] at hsame
      exact absurd hsame Bool.false_ne_true
  · intro h j hdenied
    by_cases hj : j = i
    · subst hj
      rcases h with hgranted | hvisible
      · exact absurd (by rw [hpath]; exact hgranted) hdenied
      · rcases hslot with hfind | ⟨hnone, -⟩
        · rw [Ramfs.visible, hfind] at hvisible
          obtain ⟨hold, hname⟩ := find_some hfind
          refine ⟨by rw [hold, hused], fun _ => ⟨?_, ?_⟩⟩
          · rw [hpath, ← hname, CStr.copy_eq_self (fs j).path_lt]
          · rw [hcontent]
            exact Option.some.inj hvisible
        · rw [Ramfs.visible, hnone] at hvisible
          cases hvisible
    · rw [hother j hj]
      exact ⟨rfl, fun _ => ⟨rfl, rfl⟩⟩

/-- What applying the package at `kpath` changes. -/
theorem writesConfined_apply_iff :
    WritesConfined a fs (otaApplyPackageKpath sha256 a fs heap behind kpath).2 ↔
      ∀ path elf, OtaStores sha256 a fs heap behind kpath path elf →
        policyFsWrite a (path.copy ramfsPathMax).bytes = 0 ∨ fs.visible path = some elf := by
  by_cases hcode : (otaApplyPackageKpath sha256 a fs heap behind kpath).1 = 0
  · obtain ⟨path, elf, hstores, hput⟩ :=
      otaApplyPackageKpath_eq_ok_iff_stores.mp (Prod.ext hcode rfl)
    rw [writesConfined_put_iff hput]
    constructor
    · rintro h path' elf' hstores'
      obtain ⟨rfl, rfl⟩ := hstores.unique hstores'
      exact h
    · exact fun h => h path elf hstores
  · rw [otaApplyPackageKpath_failed hcode]
    refine iff_of_true (writesConfined_refl a fs) fun path elf hstores => ?_
    obtain ⟨fs', hput⟩ := ramfsPut_of_found_or_room hstores.pos hstores.lt hstores.room
    have happly := otaApplyPackageKpath_eq_ok_iff_stores.mpr ⟨path, elf, hstores, hput⟩
    exact absurd (congrArg Prod.fst happly) hcode

end

/-- **Confinement of `TOOL_OTA`.** Applying a package changes only files that the caller may write,
exactly if the path in the package is such a file or the image is there already. -/
theorem otaApply_confined_iff (sha256 : Sha256) (a : Caller) (fs : Ramfs) (heap : Option Buf)
    (path : TextArg) (behindPath behind : CStr) :
    WritesConfined a fs (runOta sha256 a fs (.apply path behindPath behind heap)).2 ↔
      ∀ kpath, otaUserPath path behindPath = .ok kpath → ∀ target elf,
        OtaStores sha256 a fs heap behind kpath target elf →
          policyFsWrite a (target.copy ramfsPathMax).bytes = 0 ∨ fs.visible target = some elf := by
  rw [runOta]
  by_cases hcap : a.hasCap capFs = true
  · rw [if_neg (by rw [hcap]; decide)]
    cases hpath : otaUserPath path behindPath with
    | error e => exact iff_of_true (writesConfined_refl a fs) nofun
    | ok kpath =>
      dsimp only
      rw [writesConfined_apply_iff]
      constructor
      · rintro h kpath' hkpath
        obtain rfl := Except.ok.inj hkpath
        exact h
      · exact fun h => h kpath rfl
  · rw [if_pos (by simpa using hcap)]
    exact iff_of_true (writesConfined_refl a fs) fun kpath _ target elf hstores =>
      absurd hstores.cap hcap

/-- A package of format 1 is installed wherever it says. -/
theorem runOta_mkAgentpkg (sha256 : Sha256) {a : Caller} {fs fs' : Ramfs} (mem : Buf)
    (behindPath behind : CStr) {kpath target : CStr} {name version elf : List UInt8} {caps : UInt32}
    (hcap : a.hasCap capFs = true) (hpkg : otaPkgPathOk a kpath.bytes = true)
    (hlen : 0 < kpath.length ∧ kpath.length < 64) (helf : 64 ≤ elf.length)
    (htarget : target.length ≤ 47) (hslash : charAt target.bytes 0 = '/'.toUInt8)
    (hfile : fs.visible kpath =
      some (mkAgentpkg name version otaChannelStable caps target.bytes elf))
    (hdevice : fs.visible otaPathChannel = some otaChannelStable)
    (hput : ramfsPut fs target elf = (0, fs')) :
    runOta sha256 a fs (.apply (.text kpath) behindPath behind (some mem)) = (0, fs') := by
  have hparse := otaParsePackage_mkAgentpkg sha256 mem helf hslash hfile
    (by rw [otaChannelMatches_stable hdevice]; decide)
  have hpath : (otaManifestAt (mkManifest name version otaChannelStable caps target.bytes
      elf)).installPathText behind = target := by
    apply CStr.ext_bytes
    rw [installPathText_mkManifest htarget, takeWhile_eq_self_iff]
    exact target.nul_free
  have hkpath : otaUserPath (.text kpath) behindPath = .ok kpath := by
    rw [otaUserPath, if_neg (by omega), if_pos hlen.2]
  rw [runOta, hcap, hkpath]
  exact otaApplyPackageKpath_eq_ok_iff.mpr ⟨hcap, hpkg, _, _, hparse, by rw [hpath, hput]⟩

/-- Agent 1 may use files, but it is not the storage service. It installs a package from its own
area over `/sys/version`. -/
theorem not_otaApply_confined :
    let target : CStr := .lit "/sys/version"
    let elf := List.replicate 64 0x7f
    let pkg := mkAgentpkg (bytes "worker") (bytes "2.0.0") otaChannelStable 9 target.bytes elf
    let sha256 : Sha256 := fun _ => .replicate 32 0
    let applied := runOta sha256 workerAgent (stagedFs pkg)
      (.apply (.text otaPathStaged) (.lit "") (.lit "") (some fun _ => 0))
    workerAgent.hasCap capSvcStorage = false ∧ policyFsWrite workerAgent otaPathStaged.bytes = 0 ∧
      policyFsWrite workerAgent target.bytes = eperm ∧ applied.1 = 0 ∧
      applied.2.visible target = some elf ∧ (stagedFs pkg).visible target ≠ some elf ∧
      ¬ WritesConfined workerAgent (stagedFs pkg) applied.2 := by
  intro target elf pkg sha256 applied
  have hlen : pkg.length = 192 := by
    rw [show pkg = _ ++ elf from rfl, List.length_append, Buf.length_slice]
    rfl
  have hpos : 0 < pkg.length := by omega
  have hlt : pkg.length < ramfsFileSize := by rw [hlen]; decide
  obtain ⟨-, -, -, hroom⟩ := stagedFs_puts hpos hlt
  obtain ⟨hfile, hdevice⟩ := visible_stagedFs pkg hpos hlt
  have hold : (stagedFs pkg).visible target ≠ some elf := by
    rw [visible_stagedFs_of_ne hpos hlt (by decide) (by decide)]
    decide +kernel
  obtain ⟨fs', hput⟩ : ∃ fs', ramfsPut (stagedFs pkg) target elf = (0, fs') :=
    ramfsPut_of_found_or_room (by decide) (by decide) fun _ => hroom
  have happly : applied = (0, fs') :=
    runOta_mkAgentpkg sha256 (fun _ => 0) (.lit "") (.lit "") (by decide) (by decide +kernel)
      (by decide) (by decide) (by decide) (by decide) hfile hdevice hput
  rw [happly]
  refine ⟨by decide, by decide +kernel, by decide, rfl, visible_put_self (by decide) hput, hold, ?_⟩
  rw [writesConfined_put_iff hput, not_or]
  exact ⟨by decide, hold⟩

end OpenAgentOS
