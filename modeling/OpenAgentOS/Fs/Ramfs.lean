import OpenAgentOS.Abi
import OpenAgentOS.Lib.CString
import OpenAgentOS.Lib.Slots

/-!
# The RAM file system (kernel/ramfs.c)

A table of 64 files, each with a path of at most 63 bytes and a data array of
8192 bytes. A file is found by a linear search for its path; a new one takes the
first free slot. Nothing ever removes a single file: `ramfs_clear_user` drops
all files at once that do not look like `/sys` files.

A slot that is not in use, and the data behind the end of a file, keep whatever
was there before. A size below 8192 and a terminated path are part of what a
file is (`RamfsFile.size_lt`, `RamfsFile.path_lt`): every operation that changes
a file proves them.
-/

namespace OpenAgentOS

open CString

/-- `RAMFS_PATH_MAX`: bytes of a path, terminator included. -/
abbrev ramfsPathMax : Nat := 64

/-- `RAMFS_FILE_SIZE`: bytes of a data array. -/
abbrev ramfsFileSize : Nat := 8192

/-- `RAMFS_MAX_FILES`: slots of the file table. -/
abbrev ramfsMaxFiles : Nat := 64

/-- `struct ramfs_file`. -/
structure RamfsFile where
  path : CStr
  data : Buf
  size : Nat
  used : Bool
  path_lt : path.length < ramfsPathMax
  size_lt : size < ramfsFileSize

/-- What the file holds. -/
def RamfsFile.content (f : RamfsFile) : List UInt8 := f.data.slice 0 f.size

/-- `files[]`. -/
abbrev Ramfs := Fin ramfsMaxFiles → RamfsFile

/-- `is_sys_path` (ramfs.c:105): the first byte is not looked at. -/
def isSysPath (path : CStr) : Bool := hasAt path.bytes 1 (bytes "sys")

/-- The test in front of every loop over user files. -/
def RamfsFile.isUser (f : RamfsFile) : Bool := f.used && !isSysPath f.path

/-! ## Looking up a path -/

/-- The file in use under `path`. -/
def Ramfs.find (fs : Ramfs) (path : CStr) : Option (Fin ramfsMaxFiles) :=
  firstSlot fun i => (fs i).used && (fs i).path == path

/-- Slot `i` becomes an empty file named `path`, cut to what fits. -/
def Ramfs.create (fs : Ramfs) (i : Fin ramfsMaxFiles) (path : CStr) : Ramfs :=
  Function.update fs i
    { path := path.copy ramfsPathMax
      data := (fs i).data
      size := 0
      used := true
      path_lt := path.length_copy_lt (by decide)
      size_lt := by decide }

/-- `lookup` (ramfs.c:32): the slot, and the table after a possible creation. -/
def lookup (fs : Ramfs) (path : CStr) (create : Bool) : Option (Fin ramfsMaxFiles × Ramfs) :=
  match fs.find path with
  | some i => some (i, fs)
  | none =>
    if create then (firstSlot fun i => !(fs i).used).map fun i => (i, fs.create i path)
    else none

/-- Replace the data and the size of slot `i`. -/
def Ramfs.store (fs : Ramfs) (i : Fin ramfsMaxFiles) (data : Buf) (size : Nat)
    (h : size < ramfsFileSize) : Ramfs :=
  Function.update fs i { fs i with data := data, size := size, size_lt := h }

/-! ## The operations -/

/-- `ramfs_seed` (ramfs.c:51). -/
def ramfsSeed (fs : Ramfs) (path content : CStr) : Ramfs :=
  match lookup fs path true with
  | none => fs
  | some (i, fs) =>
    let text := (content.copy ramfsFileSize).bytes
    fs.store i ((fs i).data.write 0 (text ++ [0])) text.length
      (content.length_copy_lt (by decide))

/-- `ramfs_init` (ramfs.c:62), over whatever the table held before. -/
def ramfsInit (mem : Ramfs) : Ramfs :=
  let fs : Ramfs := fun i => { mem i with used := false }
  let fs := ramfsSeed fs (.lit "/sys/version") (.lit "OpenAgentOS v1.0")
  ramfsSeed fs (.lit "/sys/tick_hz") (.lit "10000000")

/-- `ramfs_read` (ramfs.c:71): the bytes copied out, or the error code. -/
def ramfsRead (fs : Ramfs) (path : CStr) (offset : Nat) (len : Int) :
    Except Int (List UInt8) :=
  if len ≤ 0 then .error einval
  else
    match lookup fs path false with
    | none => .error enoent
    | some (i, _) =>
      if (fs i).size ≤ offset then .ok []
      else .ok ((fs i).data.slice offset (min len.toNat ((fs i).size - offset)))

/-- `ramfs_write` (ramfs.c:88); `data` are the `len` bytes at the pointer, and a
`len` that is not positive is the empty list. A file is created before the
length is checked, and is never cut short. -/
def ramfsWrite (fs : Ramfs) (path : CStr) (offset : Nat) (data : List UInt8) : Int × Ramfs :=
  if data.length = 0 then (einval, fs)
  else
    match lookup fs path true with
    | none => (enospc, fs)
    | some (i, fs) =>
      if h : ramfsFileSize ≤ offset + data.length then (einval, fs)
      else
        let size := if (fs i).size < offset + data.length then offset + data.length
          else (fs i).size
        (data.length, fs.store i ((fs i).data.write offset data) size (by
          have := (fs i).size_lt
          dsimp only [size]
          split <;> omega))

/-- `ramfs_put` (ramfs.c:109): the file becomes exactly `data`. -/
def ramfsPut (fs : Ramfs) (path : CStr) (data : List UInt8) : Int × Ramfs :=
  if h : data.length = 0 ∨ ramfsFileSize ≤ data.length then (einval, fs)
  else
    match lookup fs path true with
    | none => (enospc, fs)
    | some (i, fs) =>
      (0, fs.store i ((fs i).data.write 0 (data ++ [0])) data.length (by omega))

/-- `ramfs_path_exists` (ramfs.c:124). -/
def ramfsPathExists (fs : Ramfs) (path : CStr) : Bool := (lookup fs path false).isSome

/-- `ramfs_count_agent_files` (ramfs.c:128): user files below `/agent/<id>/`. -/
def ramfsCountAgentFiles (fs : Ramfs) (agentId : Nat) : Nat :=
  slotCount fun i => (fs i).isUser &&
    hasAt (fs i).path.bytes 0 (bytes "/agent/" ++ decimal agentId ++ bytes "/")

/-- `ramfs_clear_user` (ramfs.c:174). -/
def ramfsClearUser (fs : Ramfs) : Ramfs := fun i =>
  if (fs i).isUser then { fs i with used := false } else fs i

/-- The slots of the user files, in table order. -/
def Ramfs.userSlots (fs : Ramfs) : List (Fin ramfsMaxFiles) := slotsWith fun i => (fs i).isUser

/-- `ramfs_user_count` (ramfs.c:182). -/
def ramfsUserCount (fs : Ramfs) : Nat := fs.userSlots.length

/-- `ramfs_user_get` (ramfs.c:192): path and content of the user file number
`idx`, or the error code. -/
def ramfsUserGet (fs : Ramfs) (idx cap : Nat) : Except Int (CStr × List UInt8) :=
  if cap = 0 then .error einval
  else
    match fs.userSlots[idx]? with
    | none => .error enoent
    | some i =>
      if cap ≤ (fs i).size then .error einval
      else .ok ((fs i).path.copy ramfsPathMax, (fs i).content)

end OpenAgentOS
