import OpenAgentOS.Fs.Ramfs
import OpenAgentOS.Lib.BlockDevice
import OpenAgentOS.Lib.Crc32

/-!
# Files on the block device (kernel/persist.c)

`persist_sync` writes all user files to consecutive sectors from sector 1 on,
each as one metadata sector and the sectors of its data, and last the superblock
to sector 0. `persist_load` reads them back into a RAM file system. An older
layout without checksums (AOS1) is still read, and rewritten in the new layout
(AOS2) at once.

`persist_sync` is modelled by its return code and the sequence of its sector
writes. The metadata record is an uninitialised local variable: the bytes behind
the terminator of its path are arbitrary, and are a parameter `junk` here.
-/

namespace OpenAgentOS

open CInt Crc32

/-- `PERSIST_MAGIC`. -/
abbrev persistMagic : UInt32 := 0x31495641

/-- `PERSIST_VERSION_AOS1`. -/
abbrev persistVersionAos1 : UInt32 := 1

/-- `PERSIST_VERSION_AOS2`. -/
abbrev persistVersionAos2 : UInt32 := 2

/-- `struct persist_super`, at the start of sector 0. -/
structure PersistSuper where
  magic : UInt32
  version : UInt32
  fileCount : UInt32
  checksum : UInt32

/-- `struct persist_meta`. The path is what a C function sees that is handed
`meta.path`: the struct has 72 bytes, and a path that fills its 64 bytes runs on
into the other fields. -/
structure PersistMeta where
  path : CStr
  size : UInt32
  crc32 : UInt32

/-! ## Sectors -/

/-- `persist_read_super` (persist.c:94). -/
def persistReadSuper (d : Disk) : PersistSuper :=
  ⟨(d 0).u32 0, (d 0).u32 4, (d 0).u32 8, (d 0).u32 12⟩

/-- The sector `persist_write_super` (persist.c:101) writes. -/
def superSector (sup : PersistSuper) : Sector := fun i =>
  if i < 4 then u32Byte sup.magic i
  else if i < 8 then u32Byte sup.version (i - 4)
  else if i < 12 then u32Byte sup.fileCount (i - 8)
  else if i < 16 then u32Byte sup.checksum (i - 12)
  else 0

/-- The record at the start of a metadata sector. -/
def sectorMeta (b : Sector) : PersistMeta := ⟨.ofBuf b 72, b.u32 64, b.u32 68⟩

/-- `persist_read_meta` (persist.c:110). -/
def persistReadMeta (d : Disk) (sector : Nat) : PersistMeta := sectorMeta (d sector)

/-- The sector `persist_write_meta` (persist.c:117) writes. -/
def metaSector (junk : Buf) (m : PersistMeta) : Sector := fun i =>
  if i < 64 then
    if i < m.path.length then m.path.bytes.getD i 0
    else if i = m.path.length then 0
    else junk i
  else if i < 68 then u32Byte m.size (i - 64)
  else if i < 72 then u32Byte m.crc32 (i - 68)
  else 0

/-- `persist_file_sectors` (persist.c:90). -/
def persistFileSectors (size : Nat) : Nat := sectorsFor size

/-- `persist_read_file_data` (persist.c:54). -/
def persistReadFileData (d : Disk) (dataSector size : Nat) : List UInt8 := d.read dataSector size

/-- The writes of `persist_write_file_data` (persist.c:71). -/
def persistWriteFileData (dataSector : Nat) (data : List UInt8) : List SectorWrite :=
  seqWrites dataSector (blocks data)

/-! ## Saving -/

/-- The loop of `persist_sync` (persist.c:266) from file `idx` on, for `n` more
files, and the superblock behind it. -/
def persistSyncLoop (junk : Nat → Buf) (fs : Ramfs) :
    (n idx sector : Nat) → (rolling : UInt32) → Int × List SectorWrite
  | 0, _, _, rolling =>
    (0, [(0, superSector
      ⟨persistMagic, persistVersionAos2, UInt32.ofNat (ramfsUserCount fs), rolling⟩)])
  | n + 1, idx, sector, rolling =>
    match ramfsUserGet fs idx ramfsFileSize with
    | .error _ => (eio, [])
    | .ok (path, data) =>
      let m : PersistMeta := ⟨path, UInt32.ofNat data.length, crc32 data⟩
      let rest := persistSyncLoop junk fs n (idx + 1)
        (sector + 1 + persistFileSectors data.length) (rolling ^^^ m.crc32 ^^^ m.size)
      (rest.1, (sector, metaSector (junk idx) m) ::
        (persistWriteFileData (sector + 1) data ++ rest.2))

/-- `persist_sync` (persist.c:251) on a device that does every write. -/
def persistSync (blkOk : Bool) (junk : Nat → Buf) (fs : Ramfs) : Int × List SectorWrite :=
  if blkOk then persistSyncLoop junk fs (ramfsUserCount fs) 0 1 0 else (enodev, [])

/-! ## Loading -/

/-- `persist_load_v1` (persist.c:126) from some file on, for `n` more files. -/
def persistLoadV1 (d : Disk) : (n sector : Nat) → Ramfs → Int × Ramfs
  | 0, _, fs => (0, fs)
  | n + 1, sector, fs =>
    let m := persistReadMeta d sector
    if m.size = 0 ∨ ramfsFileSize < m.size.toNat then (eio, fs)
    else
      let data := persistReadFileData d (sector + 1) m.size.toNat
      let put := ramfsPut fs m.path data
      if put.1 ≠ 0 then (eio, put.2)
      else persistLoadV1 d n (sector + 1 + persistFileSectors m.size.toNat) put.2

/-- `persist_load_v2` (persist.c:153) from some file on, for `n` more files. -/
def persistLoadV2 (d : Disk) (superCrc : UInt32) :
    (n sector : Nat) → (rolling : UInt32) → Ramfs → Int × Ramfs
  | 0, _, rolling, fs => (if rolling ≠ superCrc then eio else 0, fs)
  | n + 1, sector, rolling, fs =>
    let m := persistReadMeta d sector
    if m.size = 0 ∨ ramfsFileSize < m.size.toNat then (eio, fs)
    else
      let data := persistReadFileData d (sector + 1) m.size.toNat
      if crc32 data ≠ m.crc32 then (eio, fs)
      else
        let put := ramfsPut fs m.path data
        if put.1 ≠ 0 then (eio, put.2)
        else
          persistLoadV2 d superCrc n (sector + 1 + persistFileSectors m.size.toNat)
            (rolling ^^^ m.crc32 ^^^ m.size) put.2

/-- What `persist_load` does: return code, file system, and the sector writes of
a migration. -/
structure LoadOutcome where
  rc : Int
  fs : Ramfs
  writes : List SectorWrite

/-- The bound of the loading loops, `i < (int)file_count`. -/
def PersistSuper.count (sup : PersistSuper) : Nat := (toInt32 sup.fileCount.toNat).toNat

/-- `persist_migrate` (persist.c:209). -/
def persistMigrate (blkOk : Bool) (junk : Nat → Buf) (fs : Ramfs) : Int × List SectorWrite :=
  if blkOk then persistSync blkOk junk fs else (enodev, [])

/-- `persist_load` (persist.c:216). -/
def persistLoad (blkOk : Bool) (junk : Nat → Buf) (d : Disk) (fs : Ramfs) : LoadOutcome :=
  let sup := persistReadSuper d
  if blkOk = false then ⟨0, fs, []⟩
  else if sup.magic ≠ persistMagic then ⟨0, fs, []⟩
  else if sup.version = persistVersionAos1 then
    let load := persistLoadV1 d sup.count 1 (ramfsClearUser fs)
    if load.1 ≠ 0 then ⟨load.1, load.2, []⟩
    else
      let sync := persistMigrate blkOk junk load.2
      ⟨sync.1, load.2, sync.2⟩
  else if sup.version = persistVersionAos2 then
    let load := persistLoadV2 d sup.checksum sup.count 1 0 (ramfsClearUser fs)
    ⟨load.1, load.2, []⟩
  else ⟨eio, fs, []⟩

end OpenAgentOS
