import OpenAgentOS.Lib.Lines
import OpenAgentOS.Ota.Package
import OpenAgentOS.Ota.Version
import OpenAgentOS.Tool.UserStrings

/-!
# The package catalog (kernel/catalog.c)

The catalog is three text files with one record a line and bars between the fields: the index of
packages, the versions that are active, and the points to roll back to.

- `splitField`, `findLine`: fields and records.
- `catalogInstall`, `catalogRollback`: the two operations. An install checks the package, records a
  rollback point, copies the file that it replaces, applies the package and records the new version.
- `Files`: what the operations see of the file table: contents and the number of files.
  `files_put` and `ramfsPut_fst_eq_zero_iff_fits` are how `ramfs_put` acts on it.

Character arrays that the code leaves uninitialised are modelled as arrays with some string in
them. The name of a package is looked at up to 32 bytes: a longer one differs from every name in
the index.
-/

namespace OpenAgentOS

open CString Function

/-- `CATALOG_PATH_INDEX`. -/
def catalogPathIndex : CStr := .lit "/agent/1/catalog/index"

/-- `CATALOG_PATH_ACTIVE`. -/
def catalogPathActive : CStr := .lit "/agent/1/catalog/active"

/-- `CATALOG_PATH_ROLLBACK`. -/
def catalogPathRollback : CStr := .lit "/agent/1/catalog/rollback"

/-- `char x[cap]` with a string in it. -/
abbrev CharArray (cap : Nat) := { s : CStr // s.length < cap }

/-- `struct catalog_entry`. Its name is not used. -/
structure CatalogEntry where
  version : CharArray 16
  pkgPath : CharArray 48
  installPath : CharArray 48
  channel : CharArray 8
  minVersion : CharArray 16

/-! ## Lines and fields -/

/-- The characters between fields. -/
abbrev fieldBar : UInt8 := '|'.toUInt8

/-- The string up to a character. -/
def cutAt (stop : UInt8) (text : List UInt8) : CStr where
  bytes := text.takeWhile fun c => c != 0 && c != stop
  nul_free h := by simpa using List.mem_takeWhile_imp h

/-- Where a field starts: behind so many bars, of which `idx` have been passed. -/
def fieldStart (field : Nat) : List UInt8 → Nat → Option (List UInt8)
  | [], idx => if idx = field then some [] else none
  | c :: walk, idx =>
    if idx = field then some (c :: walk)
    else if c = fieldBar then fieldStart field walk (idx + 1)
    else fieldStart field walk idx

/-- `split_field` (catalog.c:138): what it stores, or nothing if the line has no such field. It
returns whether the field is not empty. -/
def splitField (line : CStr) (field cap : Nat) [hcap : NeZero cap] : Option (CharArray cap) :=
  (fieldStart field line.bytes 0).map fun walk =>
    ⟨(cutAt fieldBar walk).copy cap, CStr.length_copy_lt _ (Nat.pos_of_neZero cap)⟩

/-- The test of a line: its first field is the name and is not empty. -/
def lineNamed (name line : CStr) : Bool :=
  match splitField line 0 32 with
  | none => false
  | some entryName => entryName.1.length != 0 && entryName.1 == name

/-- The loop over the lines of a file: the first one with the name. -/
def findLine (text : List UInt8) (name : CStr) : Option CStr :=
  ((Lines.split '\n'.toUInt8 text).map (cutAt '\n'.toUInt8)).find? (lineNamed name)

/-! ## Files of the catalog -/

/-- `catalog_file_size` (catalog.c:43). -/
def catalogFileSize : Ramfs → CStr → Except Int Nat := fileSizeByByte

/-- `catalog_read_file` (catalog.c:58), with a buffer of `RAMFS_FILE_SIZE` bytes. -/
def catalogReadFile (fs : Ramfs) (path : CStr) : Except Int (List UInt8) :=
  match catalogFileSize fs path with
  | .error e => .error e
  | .ok len =>
    if ramfsFileSize ≤ len then .error enospc
    else
      match ramfsRead fs path 0 len with
      | .error _ => .error eio
      | .ok buf => if buf.length ≠ len then .error eio else .ok buf

/-- `catalog_copy_file` (catalog.c:72). -/
def catalogCopyFile (fs : Ramfs) (src dst : CStr) : Int × Ramfs :=
  match catalogFileSize fs src with
  | .error e => (e, fs)
  | .ok len =>
    if len = 0 then (enoent, fs)
    else if ramfsFileSize < len then (enospc, fs)
    else
      match ramfsRead fs src 0 len with
      | .error _ => (eio, fs)
      | .ok buf =>
        if buf.length ≠ len then (eio, fs)
        else
          let put := ramfsPut fs dst buf
          (if put.1 ≠ 0 then enospc else 0, put.2)

/-- `catalog_find_entry` (catalog.c:160). Fields that the line lacks keep what `out` held. -/
def catalogFindEntry (fs : Ramfs) (name : CStr) (out : CatalogEntry) : Except Int CatalogEntry :=
  match catalogReadFile fs catalogPathIndex with
  | .error e => .error e
  | .ok index =>
    match findLine index name with
    | none => .error enoent
    | some line => .ok
      { version := (splitField line 1 16).getD out.version
        pkgPath := (splitField line 2 48).getD out.pkgPath
        installPath := (splitField line 3 48).getD out.installPath
        channel := (splitField line 4 8).getD out.channel
        minVersion := (splitField line 5 16).getD out.minVersion }

/-- `catalog_active_line` (catalog.c:191), with a buffer of 128 bytes. -/
def catalogActiveLine (fs : Ramfs) (name : CStr) : Except Int CStr :=
  match catalogReadFile fs catalogPathActive with
  | .error e => .error e
  | .ok active =>
    match findLine active name with
    | none => .error enoent
    | some line => .ok (line.copy 128)

/-- A field of the active record of a package. -/
def activeField (fs : Ramfs) (name : CStr) (field cap : Nat) [NeZero cap] :
    Except Int (CharArray cap) :=
  match catalogActiveLine fs name with
  | .error _ => .error enoent
  | .ok line =>
    match splitField line field cap with
    | none => .error enoent
    | some text => if text.1.length = 0 then .error enoent else .ok text

/-- `catalog_active_version` (catalog.c:222). -/
def catalogActiveVersion (fs : Ramfs) (name : CStr) : Except Int (CharArray 16) :=
  activeField fs name 1 16

/-- `catalog_active_install` (catalog.c:232). -/
def catalogActiveInstall (fs : Ramfs) (name : CStr) : Except Int (CharArray 64) :=
  activeField fs name 2 64

/-- The line that is written for a package. -/
def recordLine (name version path : CStr) : List UInt8 :=
  let line := name.bytes.take 127 ++ [fieldBar]
  let line := line ++ version.bytes.take (127 - line.length) ++ [fieldBar]
  line ++ path.bytes.take (127 - line.length)

/-- The line becomes the whole file. -/
def catalogSetRecord (file : CStr) (fs : Ramfs) (name version path : CStr) : Int × Ramfs :=
  let put := ramfsPut fs file (recordLine name version path)
  (if put.1 ≠ 0 then enospc else 0, put.2)

/-- `catalog_set_active` (catalog.c:242). -/
def catalogSetActive : Ramfs → CStr → CStr → CStr → Int × Ramfs := catalogSetRecord catalogPathActive

/-- `catalog_set_rollback` (catalog.c:260). -/
def catalogSetRollback : Ramfs → CStr → CStr → CStr → Int × Ramfs :=
  catalogSetRecord catalogPathRollback

/-- The rollback point of a package, with the fields that its line has. -/
def rollbackPoint (fs : Ramfs) (name : CStr) :
    Except Int (Option (CharArray 16) × Option (CharArray 64)) :=
  match catalogReadFile fs catalogPathRollback with
  | .error e => .error e
  | .ok rb =>
    match findLine rb name with
    | none => .error enoent
    | some line => .ok (splitField line 1 16, splitField line 2 64)

/-- `catalog_read_rollback` (catalog.c:278). -/
def catalogReadRollback (fs : Ramfs) (name : CStr) (version : CharArray 16) (backup : CharArray 64) :
    Except Int (CharArray 16 × CharArray 64) :=
  match rollbackPoint fs name with
  | .error e => .error e
  | .ok (version', backup') => .ok (version'.getD version, backup'.getD backup)

/-! ## The operations -/

/-- Who calls, and where the name of the package is. -/
structure CatalogCall where
  a : Caller
  u : UserSpace
  name : Nat

/-- What is in the memory that `catalog_install` does not initialise: its stack, and what `kalloc`
returns while the package is verified and while it is applied. -/
structure InstallMem where
  name : Buf
  entry : CatalogEntry
  verifyHeap : Option Buf
  applyHeap : Option Buf
  manifest : CStr

/-- The name that the caller has given. -/
def catalogName (site : StringSite) (c : CatalogCall) (stack : Buf) : Except Int CStr :=
  match site.fetch c.u c.name stack with
  | .error e => .error e
  | .ok buf => .ok (.ofBuf buf 32)

/-- The part of `catalog_install` that only looks (catalog.c:359): the name and the entry of the
package that is going to be installed. -/
def catalogCheck (sha256 : Sha256) (c : CatalogCall) (mem : InstallMem) (fs : Ramfs) :
    Except Int (CStr × CatalogEntry) :=
  if !c.a.hasCap capFs then .error eperm
  else
    match catalogName .catalogInstall c mem.name with
    | .error e => .error e
    | .ok kname =>
      match catalogFindEntry fs kname mem.entry with
      | .error e => .error e
      | .ok entry =>
        let cur := (catalogActiveVersion fs kname).toOption.map fun v => v.1.bytes
        if !versionGate cur entry.minVersion.1.bytes then .error eperm
        else
          let rc := otaVerifyPackageKpath sha256 fs mem.verifyHeap entry.pkgPath.1
          if rc ≠ 0 then .error rc else .ok (kname, entry)

/-- Where the file that is replaced is copied to (catalog.c:395). -/
def backupPath (entry : CatalogEntry) : CStr where
  bytes := entry.installPath.1.bytes.take 59 ++ bytes ".prev"
  nul_free := by
    rw [List.mem_append, not_or]
    exact ⟨fun h => entry.installPath.1.nul_free (List.mem_of_mem_take h), by decide +kernel⟩

/-- The part of `catalog_install` that saves the file (catalog.c:405). -/
def catalogBackUp (fs : Ramfs) (kname : CStr) (entry : CatalogEntry) : Int × Ramfs :=
  match catalogFileSize fs entry.installPath.1 with
  | .error _ => (0, fs)
  | .ok size =>
    if 0 < size then
      match catalogActiveVersion fs kname with
      | .error _ => catalogCopyFile fs entry.installPath.1 (backupPath entry)
      | .ok curVer =>
        let set := catalogSetRollback fs kname curVer.1 (backupPath entry)
        if set.1 ≠ 0 then set
        else catalogCopyFile set.2 entry.installPath.1 (backupPath entry)
    else (0, fs)

/-- `catalog_install` (catalog.c:351). -/
def catalogInstall (sha256 : Sha256) (c : CatalogCall) (mem : InstallMem) (fs : Ramfs) :
    Int × Ramfs :=
  match catalogCheck sha256 c mem fs with
  | .error e => (e, fs)
  | .ok (kname, entry) =>
    let saved := catalogBackUp fs kname entry
    if saved.1 ≠ 0 then saved
    else
      let applied := otaApplyPackageKpath sha256 c.a saved.2 mem.applyHeap mem.manifest
        entry.pkgPath.1
      if applied.1 ≠ 0 then applied
      else catalogSetActive applied.2 kname entry.version.1 entry.installPath.1

/-- What is on the stack of `catalog_rollback`. -/
structure RollbackMem where
  name : Buf
  version : CharArray 16
  backup : CharArray 64

/-- `catalog_rollback` (catalog.c:433). The last `ramfs_put`, which was to clear the record, has no
data. -/
def catalogRollback (c : CatalogCall) (mem : RollbackMem) (fs : Ramfs) : Int × Ramfs :=
  if !c.a.hasCap capFs then (eperm, fs)
  else
    match catalogName .catalogRollback c mem.name with
    | .error e => (e, fs)
    | .ok kname =>
      match catalogReadRollback fs kname mem.version mem.backup with
      | .error e => (e, fs)
      | .ok (prevVer, backup) =>
        match catalogFileSize fs backup.1 with
        | .error _ => (enoent, fs)
        | .ok size =>
          if size = 0 then (enoent, fs)
          else
            let install := match catalogActiveInstall fs kname with
              | .error _ => backup
              | .ok path => path
            let copied := catalogCopyFile fs backup.1 install.1
            if copied.1 ≠ 0 then copied
            else
              let set := catalogSetActive copied.2 kname prevVer.1 install.1
              if set.1 ≠ 0 then set
              else (0, (ramfsPut set.2 catalogPathRollback []).2)

/-! ## Contents and the number of files -/

/-- What the catalog sees of the file table. -/
structure Files where
  content : CStr → Option (List UInt8)
  used : Nat

/-- The files in a table. -/
def Ramfs.files (fs : Ramfs) : Files := ⟨fs.visible, slotCount fun i => (fs i).used⟩

namespace Files

/-- The file can be stored. -/
def Fits (f : Files) (path : CStr) (data : List UInt8) : Prop :=
  0 < data.length ∧ data.length < ramfsFileSize ∧ (f.content path = none → f.used < ramfsMaxFiles)

/-- The file is stored. -/
def put (f : Files) (path : CStr) (data : List UInt8) : Files where
  content := update f.content path (some data)
  used := f.used + if f.content path = none then 1 else 0

@[simp] theorem put_self (f : Files) (path : CStr) (data : List UInt8) :
    (f.put path data).content path = some data := update_self ..

theorem put_of_ne (f : Files) {path q : CStr} (h : q ≠ path) (data : List UInt8) :
    (f.put path data).content q = f.content q := update_of_ne h ..

/-- A file that is there stays. -/
theorem put_ne_none (f : Files) {q : CStr} (h : f.content q ≠ none) (path : CStr)
    (data : List UInt8) : (f.put path data).content q ≠ none := by
  by_cases hq : q = path
  · rw [hq, put_self]
    nofun
  · rwa [f.put_of_ne hq]

/-- Files that are there can be replaced. -/
theorem fits_of_ne_none {f : Files} {path : CStr} {data : List UInt8} (hpos : 0 < data.length)
    (hlt : data.length < ramfsFileSize) (h : f.content path ≠ none) : f.Fits path data :=
  ⟨hpos, hlt, fun hnone => absurd hnone h⟩

end Files

section Files

variable {fs fs' : Ramfs} {path : CStr} {data : List UInt8}

theorem ramfsPut_fst_eq_zero_iff_fits :
    (ramfsPut fs path data).1 = 0 ↔ fs.files.Fits path data := ramfsPut_fst_eq_zero_iff

theorem used_put (h : ramfsPut fs path data = (0, fs')) :
    fs'.files.used = fs.files.used + if fs.visible path = none then 1 else 0 := by
  obtain ⟨i, hused, -, -, hother, hslot⟩ := ramfsPut_ok h
  show slotCount _ = slotCount _ + _
  rcases hslot with hfind | ⟨hnone, hfree⟩
  · obtain ⟨hold, -⟩ := find_some hfind
    rw [if_neg (by rw [Ramfs.visible, hfind]; exact Option.some_ne_none _)]
    refine congrArg slotCount (funext fun j => ?_)
    by_cases hj : j = i
    · rw [hj, hused, hold]
    · rw [hother j hj]
  · rw [if_pos (by rw [Ramfs.visible, hnone]; rfl)]
    exact slotCount_succ hfree hused fun j hj => by rw [hother j hj]

/-- What is visible after a put, for paths that no longer path is cut to. -/
theorem visible_put_short (h : ramfsPut fs path data = (0, fs')) {q : CStr} (hq : q.length < 63) :
    fs'.visible q = (fs.files.put path data).content q := by
  by_cases hpath : q = path
  · subst hpath
    rw [Files.put_self]
    exact visible_put_self (Nat.lt_trans hq (by decide)) h
  · rw [Files.put_of_ne _ hpath]
    have hcopy : path.copy ramfsPathMax ≠ q := by
      rintro rfl
      -- a path that was cut has 63 bytes
      have hlen : (path.copy ramfsPathMax).length = min 63 path.length := List.length_take
      rw [hlen] at hq
      exact hpath (CStr.copy_eq_self (by simp only [ramfsPathMax]; omega))
    have hsame := sameUnder_put fs data hcopy
    rw [h] at hsame
    exact hsame.visible

/-- **A put under a path that is not cut.** -/
theorem files_put (h : ramfsPut fs path data = (0, fs')) (hshort : path.length < ramfsPathMax) :
    fs'.files = fs.files.put path data := by
  have hcontent : fs'.visible = update fs.visible path (some data) := by
    funext q
    by_cases hq : q = path
    · rw [hq, update_self]
      exact visible_put_self hshort h
    · rw [update_of_ne hq]
      have hsame := sameUnder_put fs data (by rw [CStr.copy_eq_self hshort]; exact Ne.symm hq)
      rw [h] at hsame
      exact hsame.visible
  exact congrArg₂ Files.mk hcontent (used_put h)

/-- A put that can be made. -/
theorem exists_put (h : fs.files.Fits path data) : ∃ fs', ramfsPut fs path data = (0, fs') :=
  ⟨_, Prod.ext (ramfsPut_fst_eq_zero_iff_fits.mpr h) rfl⟩

/-- A put that cannot be made. -/
theorem ramfsPut_not_fits (h : ¬ fs.files.Fits path data) :
    (ramfsPut fs path data).1 ≠ 0 ∧ (ramfsPut fs path data).2 = fs := by
  have hcode : (ramfsPut fs path data).1 ≠ 0 := fun hzero => h (ramfsPut_fst_eq_zero_iff_fits.mp hzero)
  exact ⟨hcode, ramfsPut_failed hcode⟩

end Files

/-! ## What the functions depend on -/

section Reads

variable {fs : Ramfs} {path src dst : CStr}

/-- A file as the catalog reads it. An empty one cannot be read. -/
def textOf : Option (List UInt8) → Except Int (List UInt8)
  | none => .error enoent
  | some [] => .error eio
  | some (c :: text) => .ok (c :: text)

theorem catalogReadFile_eq (fs : Ramfs) (path : CStr) :
    catalogReadFile fs path = textOf (fs.visible path) := by
  rw [catalogReadFile, catalogFileSize]
  cases hfile : fs.visible path with
  | none =>
    rw [fileSizeByByte_none hfile]
    rfl
  | some content =>
    have hlt := length_lt_of_visible hfile
    rw [fileSizeByByte_eq hfile]
    dsimp only
    cases content with
    | nil =>
      have hread : ramfsRead fs path 0 (max 1 0 : Nat) = .ok [] := by
        rw [ramfsRead_start fs path (by decide), hfile]
        rfl
      rw [List.length_nil, if_neg (by decide), hread]
      rfl
    | cons c text =>
      have hmax : max 1 (c :: text).length = (c :: text).length := by
        rw [List.length_cons]
        omega
      rw [hmax, if_neg (by omega), ramfsRead_all hfile (by rw [List.length_cons]; omega)]
      exact if_neg (not_not.mpr rfl)

/-- Files that are there have a size. -/
theorem catalogFileSize_eq (fs : Ramfs) (path : CStr) :
    catalogFileSize fs path =
      match fs.visible path with
      | none => .error enoent
      | some content => .ok (max 1 content.length) := by
  rw [catalogFileSize]
  cases hfile : fs.visible path with
  | none => exact fileSizeByByte_none hfile
  | some content => exact fileSizeByByte_eq hfile

/-- **`catalog_copy_file`**, for a file with something in it. -/
theorem catalogCopyFile_eq {data : List UInt8} (h : fs.visible src = some data)
    (hpos : 0 < data.length) :
    catalogCopyFile fs src dst =
      (if (ramfsPut fs dst data).1 ≠ 0 then enospc else 0, (ramfsPut fs dst data).2) := by
  have hlt := length_lt_of_visible h
  have hmax : max 1 data.length = data.length := by omega
  rw [catalogCopyFile, catalogFileSize_eq, h]
  dsimp only
  rw [hmax, if_neg (by omega), if_neg (by omega), ramfsRead_all h hpos]
  exact if_neg (not_not.mpr rfl)

theorem catalogCopyFile_empty (h : fs.visible src = some []) :
    catalogCopyFile fs src dst = (eio, fs) := by
  have hread : ramfsRead fs src 0 (max 1 0 : Nat) = .ok [] := by
    rw [ramfsRead_start fs src (by decide), h]
    rfl
  rw [catalogCopyFile, catalogFileSize_eq, h]
  dsimp only
  rw [List.length_nil, if_neg (by decide), if_neg (by decide), hread]
  rfl

/-- **A copy** can be made iff the data fit, and then the target has them. -/
theorem catalogCopyFile_fits {data : List UInt8} (h : fs.visible src = some data)
    (hfits : fs.files.Fits dst data) (hshort : dst.length < ramfsPathMax) :
    ∃ fs', catalogCopyFile fs src dst = (0, fs') ∧ fs'.files = fs.files.put dst data := by
  obtain ⟨fs', hput⟩ := exists_put hfits
  refine ⟨fs', ?_, files_put hput hshort⟩
  rw [catalogCopyFile_eq h hfits.1, hput]
  rfl

theorem catalogCopyFile_not_fits {data : List UInt8} (h : fs.visible src = some data)
    (hfits : ¬ fs.files.Fits dst data) :
    (catalogCopyFile fs src dst).1 ≠ 0 ∧ (catalogCopyFile fs src dst).2 = fs := by
  rcases Nat.eq_zero_or_pos data.length with hempty | hpos
  · obtain rfl := List.length_eq_zero_iff.mp hempty
    rw [catalogCopyFile_empty h]
    exact ⟨(by decide : eio ≠ 0), rfl⟩
  · obtain ⟨hcode, hsame⟩ := ramfsPut_not_fits hfits
    rw [catalogCopyFile_eq h hpos, if_pos hcode]
    exact ⟨(by decide : enospc ≠ 0), hsame⟩

end Reads

section Records

variable {fs fs' : Ramfs} {file name version path : CStr}

theorem length_recordLine_pos (name version path : CStr) :
    0 < (recordLine name version path).length := by
  simp only [recordLine, List.length_append, List.length_singleton]
  omega

theorem length_recordLine_lt (name version path : CStr) :
    (recordLine name version path).length < 192 := by
  simp only [recordLine, List.length_append, List.length_singleton, List.length_take]
  omega

theorem catalogSetRecord_fits (hfits : fs.files.Fits file (recordLine name version path))
    (hshort : file.length < ramfsPathMax) :
    ∃ fs', catalogSetRecord file fs name version path = (0, fs') ∧
      fs'.files = fs.files.put file (recordLine name version path) := by
  obtain ⟨fs', hput⟩ := exists_put hfits
  refine ⟨fs', ?_, files_put hput hshort⟩
  rw [catalogSetRecord, hput]
  rfl

theorem catalogSetRecord_not_fits (hfits : ¬ fs.files.Fits file (recordLine name version path)) :
    (catalogSetRecord file fs name version path).1 ≠ 0 ∧
      (catalogSetRecord file fs name version path).2 = fs := by
  obtain ⟨hcode, hsame⟩ := ramfsPut_not_fits hfits
  rw [catalogSetRecord]
  dsimp only
  rw [if_pos hcode]
  exact ⟨(by decide : enospc ≠ 0), hsame⟩

/-- Records of active versions are what the file says. -/
theorem activeField_congr (h : fs'.visible catalogPathActive = fs.visible catalogPathActive)
    (name : CStr) (field cap : Nat) [NeZero cap] :
    activeField fs' name field cap = activeField fs name field cap := by
  rw [activeField, activeField, catalogActiveLine, catalogActiveLine, catalogReadFile_eq,
    catalogReadFile_eq, h]

end Records

end OpenAgentOS
