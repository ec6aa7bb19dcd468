import OpenAgentOS.Fs.RoundTrip
import OpenAgentOS.Lib.BoundedMap
import OpenAgentOS.Lib.Runs

/-!
# The RAM file system is a finite map

`FileMap` is what `ramfs.c` is for: a map from paths to contents of fewer than 8192
bytes, with at most 64 keys. The table of slots, the linear searches, the data a
slot keeps from an earlier file and the bytes behind the end of a file do not show.

- `Represents`: paths are unique, and under each path the table shows what the map
  has.
- `represents_call`: one call answers alike and keeps the relation, except for a
  write that is refused for its length (it leaves an empty file behind).
- `ramfs_refines_map`: the same for runs from a fresh table, with what
  `ramfs_user_get` enumerates in the table reached.

`ramfs.c` looks at characters 1 to 3 of a stored path even if the path is shorter. A
path of one to three characters stops the comparison at its terminator. Behind an empty
path stand the characters of the files that had the slot before; they are not "sys",
since a slot with such a path is never given up. So the model, where there is nothing
behind the end of a path, takes the same decisions.
-/

namespace OpenAgentOS

open CString

/-- Paths and contents. -/
abbrev FileMap := BoundedMap CStr (List UInt8) ramfsMaxFiles fun v => v.length < ramfsFileSize

/-- A path that the kernel stores in full. -/
abbrev ShortPath := { p : CStr // p.length < ramfsPathMax }

theorem length_lt_of_accepted {data : List UInt8}
    (h : ¬ (data.length = 0 ∨ ramfsFileSize ≤ data.length)) : data.length < ramfsFileSize :=
  Nat.not_le.mp fun hle => h (.inr hle)

namespace FileMap

/-- The value becomes `data`. -/
def put (m : FileMap) (path : CStr) (data : List UInt8) : Int × FileMap :=
  if h : data.length = 0 ∨ ramfsFileSize ≤ data.length then (einval, m)
  else if hroom : m.Room path then (0, m.set path data (length_lt_of_accepted h) hroom)
  else (enospc, m)

theorem overwritten_lt (m : FileMap) (path : CStr) {data : List UInt8}
    (h : data.length < ramfsFileSize) :
    (data ++ ((m.get path).getD []).drop data.length).length < ramfsFileSize := by
  have hold : ((m.get path).getD []).length < ramfsFileSize := by
    cases hget : m.get path with
    | none => exact (by decide : 0 < ramfsFileSize)
    | some v => exact m.ok_get path v hget
  rw [List.length_append, List.length_drop]
  omega

/-- The first bytes of the value are replaced. -/
def write (m : FileMap) (path : CStr) (data : List UInt8) : Int × FileMap :=
  if data.length = 0 then (einval, m)
  else if hroom : m.Room path then
    if h : data.length < ramfsFileSize then
      (data.length, m.set path (data ++ ((m.get path).getD []).drop data.length)
        (m.overwritten_lt path h) hroom)
    else (einval, m)
  else (enospc, m)

/-- A slice of the value. -/
def read (m : FileMap) (path : CStr) (offset : Nat) (len : Int) : Except Int (List UInt8) :=
  if len ≤ 0 then .error einval
  else
    match m.get path with
    | none => .error enoent
    | some v => .ok ((v.drop offset).take len.toNat)

/-- The keys that do not look like `/sys` files are removed. -/
def clearUser (m : FileMap) : FileMap := m.restrict isSysPath

end FileMap

/-! ## Calls -/

/-- A call of the interface that changes the files or looks up a path. -/
inductive FsCall where
  | put (path : ShortPath) (data : List UInt8)
  | write (path : ShortPath) (data : List UInt8)
  | read (path : ShortPath) (offset : Nat) (len : Int)
  | pathExists (path : ShortPath)
  | userCount
  | clearUser

/-- What a call returns. -/
inductive FsReply where
  | code (rc : Int)
  | bytes (out : Except Int (List UInt8))
  | flag (b : Bool)
  | done

def Ramfs.call (fs : Ramfs) : FsCall → FsReply × Ramfs
  | .put path data => (ramfsPut fs path.1 data).map .code id
  | .write path data => (ramfsWrite fs path.1 0 data).map .code id
  | .read path offset len => (.bytes (ramfsRead fs path.1 offset len), fs)
  | .pathExists path => (.flag (ramfsPathExists fs path.1), fs)
  | .userCount => (.code (ramfsUserCount fs), fs)
  | .clearUser => (.done, ramfsClearUser fs)

def FileMap.call (m : FileMap) : FsCall → FsReply × FileMap
  | .put path data => (m.put path.1 data).map .code id
  | .write path data => (m.write path.1 data).map .code id
  | .read path offset len => (.bytes (m.read path.1 offset len), m)
  | .pathExists path => (.flag (m.get path.1).isSome, m)
  | .userCount => (.code (m.keys.filter fun p => isSysPath p = false).card, m)
  | .clearUser => (.done, m.clearUser)

/-- A write returns the number of bytes or `ENOSPC`. -/
def FsCall.WriteOk (fs : Ramfs) : FsCall → Prop
  | .write path data =>
    0 ≤ (ramfsWrite fs path.1 0 data).1 ∨ (ramfsWrite fs path.1 0 data).1 = enospc
  | _ => True

/-- The table and the map it stands for. -/
structure Represents (fs : Ramfs) (m : FileMap) : Prop where
  unique : fs.PathsUnique
  visible : ∀ p, fs.visible p = m.get p

/-! ## The keys -/

section Keys

variable {fs fs' : Ramfs} {m : FileMap} (h : Represents fs m)

include h

/-- The keys are the paths of the slots in use. -/
theorem Represents.keys_eq :
    m.keys = (Finset.univ.filter fun i => (fs i).used = true).image fun i => (fs i).path := by
  ext p
  rw [m.mem_keys, ← h.visible, Option.isSome_iff_exists, Finset.mem_image]
  constructor
  · rintro ⟨v, hv⟩
    obtain ⟨i, hused, hpath, -⟩ := (visible_eq_some_iff h.unique).mp hv
    exact ⟨i, Finset.mem_filter.mpr ⟨Finset.mem_univ i, hused⟩, hpath⟩
  · rintro ⟨i, hi, rfl⟩
    exact ⟨_, (visible_eq_some_iff h.unique).mpr ⟨i, (Finset.mem_filter.mp hi).2, rfl, rfl⟩⟩

theorem Represents.card_keys : m.keys.card = slotCount fun i => (fs i).used := by
  rw [h.keys_eq, slotCount]
  refine Finset.card_image_of_injOn fun i hi j hj hij => ?_
  exact h.unique i j (Finset.mem_filter.mp hi).2 (Finset.mem_filter.mp hj).2 hij

/-- There is room in the map iff there is in the table. -/
theorem Represents.room_iff (p : CStr) :
    m.Room p ↔ (fs.visible p = none → slotCount (fun i => (fs i).used) < ramfsMaxFiles) := by
  rw [BoundedMap.Room, ← h.card_keys, h.visible, ← m.not_mem_keys_iff]
  exact or_iff_not_imp_left

/-- A file that is stored is a key that is set. -/
theorem Represents.stored {path : CStr} {v : List UInt8} (hshort : path.length < ramfsPathMax)
    (hstored : fs.Stored path v fs') (hv : v.length < ramfsFileSize) (hroom : m.Room path) :
    Represents fs' (m.set path v hv hroom) := by
  refine ⟨hstored.pathsUnique hshort h.unique, fun p => ?_⟩
  rw [hstored.visible hshort h.unique, m.get_set, h.visible]

end Keys

/-! ## One call -/

section Calls

variable {fs : Ramfs} {m : FileMap} (h : Represents fs m)

include h

theorem represents_put {path : CStr} (hshort : path.length < ramfsPathMax) (data : List UInt8) :
    (ramfsPut fs path data).1 = (m.put path data).1 ∧
      Represents (ramfsPut fs path data).2 (m.put path data).2 := by
  by_cases hlen : data.length = 0 ∨ ramfsFileSize ≤ data.length
  · rw [ramfsPut, dif_pos hlen, FileMap.put, dif_pos hlen]
    exact ⟨rfl, h⟩
  have hpos : 0 < data.length := by omega
  have hlt : data.length < ramfsFileSize := by omega
  rw [FileMap.put, dif_neg hlen]
  by_cases hroom : m.Room path
  · obtain ⟨fs', hput⟩ := ramfsPut_of_found_or_room hpos hlt ((h.room_iff path).mp hroom)
    rw [dif_pos hroom, hput]
    exact ⟨rfl, h.stored hshort (ramfsPut_ok hput) hlt hroom⟩
  · obtain ⟨hnone, hfull⟩ := Classical.not_imp.mp (mt (h.room_iff path).mpr hroom)
    rw [dif_neg hroom, ramfsPut_of_full hpos hlt hnone hfull]
    exact ⟨rfl, h⟩

theorem represents_write {path : CStr} (hshort : path.length < ramfsPathMax) {data : List UInt8}
    (hok : 0 ≤ (ramfsWrite fs path 0 data).1 ∨ (ramfsWrite fs path 0 data).1 = enospc) :
    (ramfsWrite fs path 0 data).1 = (m.write path data).1 ∧
      Represents (ramfsWrite fs path 0 data).2 (m.write path data).2 := by
  rw [FileMap.write]
  by_cases hzero : data.length = 0
  · rw [ramfsWrite, if_pos hzero, if_pos hzero]
    exact ⟨rfl, h⟩
  have hpos : 0 < data.length := by omega
  rw [if_neg hzero]
  by_cases hroom : m.Room path
  · by_cases hlt : data.length < ramfsFileSize
    · obtain ⟨fs', hwrite, hstored⟩ := ramfsWrite_of_found_or_room hpos hlt
        ((h.room_iff path).mp hroom)
      rw [h.visible] at hstored
      rw [hwrite, dif_pos hroom, dif_pos hlt]
      exact ⟨rfl, h.stored hshort hstored (m.overwritten_lt path hlt) hroom⟩
    · -- a write that long is refused, which is excluded
      obtain ⟨i, fs₁, hlookup⟩ := exists_lookup ((h.room_iff path).mp hroom)
      have hrefused : ramfsWrite fs path 0 data = (einval, fs₁) := by
        rw [ramfsWrite, if_neg hzero, hlookup]
        dsimp only
        rw [dif_pos (by omega)]
      rw [hrefused] at hok
      exact absurd hok (show ¬ (0 ≤ einval ∨ einval = enospc) by decide)
  · obtain ⟨hnone, hfull⟩ := Classical.not_imp.mp (mt (h.room_iff path).mpr hroom)
    rw [ramfsWrite_of_full hpos 0 hnone hfull, dif_neg hroom]
    exact ⟨rfl, h⟩

theorem represents_read (path : CStr) (offset : Nat) (len : Int) :
    ramfsRead fs path offset len = m.read path offset len := by
  rw [FileMap.read, ← h.visible]
  exact ramfsRead_eq ..

theorem represents_pathExists (path : CStr) :
    ramfsPathExists fs path = (m.get path).isSome := by
  rw [← h.visible, ramfsPathExists, lookup, Ramfs.visible]
  cases fs.find path with
  | none => rfl
  | some i => rfl

theorem represents_clearUser : Represents (ramfsClearUser fs) m.clearUser := by
  have hslot : ∀ i, (ramfsClearUser fs i).used = ((fs i).used && isSysPath (fs i).path) ∧
      (ramfsClearUser fs i).path = (fs i).path ∧
      (ramfsClearUser fs i).content = (fs i).content := by
    intro i
    rw [ramfsClearUser, RamfsFile.isUser]
    cases hused : (fs i).used with
    | false => exact ⟨hused, rfl, rfl⟩
    | true =>
      cases hsys : isSysPath (fs i).path with
      | false => exact ⟨rfl, rfl, rfl⟩
      | true => exact ⟨hused, rfl, rfl⟩
  have hunique : (ramfsClearUser fs).PathsUnique := by
    intro i j hi hj hij
    rw [(hslot i).1, Bool.and_eq_true] at hi
    rw [(hslot j).1, Bool.and_eq_true] at hj
    rw [(hslot i).2.1, (hslot j).2.1] at hij
    exact h.unique i j hi.1 hj.1 hij
  refine ⟨hunique, fun p => Option.ext fun v => ?_⟩
  show _ ↔ (if isSysPath p then m.get p else none) = some v
  rw [visible_eq_some_iff hunique]
  constructor
  · rintro ⟨i, hused, rfl, rfl⟩
    rw [(hslot i).1, Bool.and_eq_true] at hused
    rw [(hslot i).2.1, (hslot i).2.2, if_pos hused.2, ← h.visible]
    exact (visible_eq_some_iff h.unique).mpr ⟨i, hused.1, rfl, rfl⟩
  · intro hv
    split at hv
    · rename_i hsys
      rw [← h.visible] at hv
      obtain ⟨i, hused, hpath, hcontent⟩ := (visible_eq_some_iff h.unique).mp hv
      refine ⟨i, ?_, (hslot i).2.1.trans hpath, (hslot i).2.2.trans hcontent⟩
      rw [(hslot i).1, hused, hpath, hsys]
      rfl
    · cases hv

theorem represents_userCount :
    ramfsUserCount fs = (m.keys.filter fun p => isSysPath p = false).card := by
  have hkeys : (m.keys.filter fun p => isSysPath p = false)
      = (Finset.univ.filter fun i => (fs i).isUser = true).image fun i => (fs i).path := by
    ext p
    rw [Finset.mem_filter, h.keys_eq, Finset.mem_image, Finset.mem_image]
    constructor
    · rintro ⟨⟨i, hi, rfl⟩, hsys⟩
      refine ⟨i, Finset.mem_filter.mpr ⟨Finset.mem_univ i, ?_⟩, rfl⟩
      rw [RamfsFile.isUser, (Finset.mem_filter.mp hi).2, hsys]
      rfl
    · rintro ⟨i, hi, rfl⟩
      obtain ⟨hused, hsys⟩ := Bool.and_eq_true_iff.mp (Finset.mem_filter.mp hi).2
      exact ⟨⟨i, Finset.mem_filter.mpr ⟨Finset.mem_univ i, hused⟩, rfl⟩, by simpa using hsys⟩
  rw [hkeys, Finset.card_image_of_injOn, ramfsUserCount, Ramfs.userSlots, length_slotsWith]
  · rfl
  · intro i hi j hj hij
    exact h.unique i j (Bool.and_eq_true_iff.mp (Finset.mem_filter.mp hi).2).1
      (Bool.and_eq_true_iff.mp (Finset.mem_filter.mp hj).2).1 hij

/-- The user files of the table are the user entries of the map. -/
theorem mem_userRecs_iff_get {p : CStr} {v : List UInt8} :
    (p, v) ∈ fs.userRecs ↔ m.get p = some v ∧ isSysPath p = false := by
  rw [← h.visible, visible_eq_some_iff h.unique]
  constructor
  · intro hmem
    obtain ⟨i, hi, hrec⟩ := List.mem_map.mp hmem
    obtain ⟨rfl, rfl⟩ := Prod.mk.inj hrec
    obtain ⟨hused, hsys⟩ := Bool.and_eq_true_iff.mp (mem_slotsWith.mp hi)
    exact ⟨⟨i, hused, rfl, rfl⟩, by simpa using hsys⟩
  · rintro ⟨⟨i, hused, rfl, rfl⟩, hsys⟩
    refine List.mem_map.mpr ⟨i, mem_slotsWith.mpr ?_, rfl⟩
    rw [RamfsFile.isUser, hused, hsys]
    rfl

/-- No path comes twice. -/
theorem nodup_userRecs : (fs.userRecs.map Prod.fst).Nodup := by
  rw [Ramfs.userRecs, List.map_map]
  refine List.Nodup.map_on (fun i hi j hj hij => ?_) ((List.nodup_finRange _).filter _)
  exact h.unique i j (Bool.and_eq_true_iff.mp (mem_slotsWith.mp hi)).1
    (Bool.and_eq_true_iff.mp (mem_slotsWith.mp hj)).1 hij

/-- **One call.** -/
theorem represents_call {c : FsCall} (hok : c.WriteOk fs) :
    (fs.call c).1 = (m.call c).1 ∧ Represents (fs.call c).2 (m.call c).2 := by
  cases c with
  | put path data =>
    obtain ⟨hrc, hnext⟩ := represents_put h path.2 data
    exact ⟨congrArg FsReply.code hrc, hnext⟩
  | write path data =>
    obtain ⟨hrc, hnext⟩ := represents_write h path.2 hok
    exact ⟨congrArg FsReply.code hrc, hnext⟩
  | read path offset len => exact ⟨congrArg FsReply.bytes (represents_read h _ _ _), h⟩
  | pathExists path => exact ⟨congrArg FsReply.flag (represents_pathExists h _), h⟩
  | userCount =>
    refine ⟨?_, h⟩
    show FsReply.code (ramfsUserCount fs) = FsReply.code _
    rw [represents_userCount h]
  | clearUser => exact ⟨rfl, represents_clearUser h⟩

end Calls

/-! ## Runs -/

/-- The map after `ramfs_init`. -/
def FileMap.init : FileMap :=
  (BoundedMap.empty.set (.lit "/sys/version") (bytes "OpenAgentOS v1.0") (by decide)
    (BoundedMap.room_of_lt _ (by decide))).set (.lit "/sys/tick_hz") (bytes "10000000") (by decide)
    (BoundedMap.room_of_lt _ (by decide))

/-- A seeded file holds its text. -/
theorem stored_ramfsSeed {fs : Ramfs} {path : CStr} (content : CStr)
    (hroom : fs.visible path = none → slotCount (fun i => (fs i).used) < ramfsMaxFiles) :
    fs.Stored path (content.copy ramfsFileSize).bytes (ramfsSeed fs path content) := by
  obtain ⟨i, fs₁, hlookup⟩ := exists_lookup hroom
  have hstored := stored_of_lookup hlookup
    ((fs₁ i).data.write 0 ((content.copy ramfsFileSize).bytes ++ [0]))
    (content.copy ramfsFileSize).bytes.length (content.length_copy_lt (by decide))
  rw [slice_terminated] at hstored
  rw [ramfsSeed, hlookup]
  exact hstored

theorem represents_init (mem : Ramfs) : Represents (ramfsInit mem) .init := by
  have hempty : Represents (fun i => { mem i with used := false }) .empty := by
    refine ⟨fun i j hi => absurd hi Bool.false_ne_true, fun p => ?_⟩
    exact Option.map_eq_none_iff.mpr (firstSlot_eq_none.mpr fun _ => rfl)
  have hversion := hempty.stored (by decide)
    (stored_ramfsSeed (.lit "OpenAgentOS v1.0")
      ((hempty.room_iff (.lit "/sys/version")).mp (BoundedMap.room_of_lt _ (by decide))))
    (show (bytes "OpenAgentOS v1.0").length < ramfsFileSize by decide)
    (BoundedMap.room_of_lt _ (by decide))
  exact hversion.stored (by decide)
    (stored_ramfsSeed (.lit "10000000")
      ((hversion.room_iff (.lit "/sys/tick_hz")).mp (BoundedMap.room_of_lt _ (by decide))))
    (show (bytes "10000000").length < ramfsFileSize by decide)
    (BoundedMap.room_of_lt _ (by decide))

/-- A step of the table. -/
def Ramfs.callStep (fs : Ramfs) (c : FsCall) : Ramfs := (fs.call c).2

/-- A step of the map. -/
def FileMap.callStep (m : FileMap) (c : FsCall) : FileMap := (m.call c).2

/-- **`ramfs.c` implements a finite map.** From a fresh table, over whatever memory,
every sequence of calls in which no write is refused for its length is answered as the
map answers it. In the table reached, what is visible under a path is what the map has,
and the entries that `ramfs_user_get` enumerates are the user entries of the map, each of
them once. -/
theorem ramfs_refines_map (mem : Ramfs) (cs : List FsCall)
    (hok : Runs.Along Ramfs.callStep (fun fs c => c.WriteOk fs) (ramfsInit mem) cs) :
    let fs := Runs.run Ramfs.callStep (ramfsInit mem) cs
    let m := Runs.run FileMap.callStep .init cs
    Runs.replies Ramfs.call (ramfsInit mem) cs = Runs.replies FileMap.call .init cs ∧
      (∀ p, fs.visible p = m.get p) ∧
      ∃ entries : List (CStr × List UInt8),
        ((List.range (ramfsUserCount fs)).map fun idx => ramfsUserGet fs idx ramfsFileSize)
          = entries.map .ok ∧
        (entries.map Prod.fst).Nodup ∧
        ∀ p v, (p, v) ∈ entries ↔ m.get p = some v ∧ isSysPath p = false := by
  intro fs m
  have hstep : ∀ (fs : Ramfs) (m : FileMap) (c : FsCall), c.WriteOk fs → Represents fs m →
      (fs.call c).1 = (m.call c).1 ∧ Represents (fs.call c).2 (m.call c).2 :=
    fun _ _ _ hok h => represents_call h hok
  obtain ⟨hreplies, hend⟩ := Runs.Along.simulation hstep (represents_init mem) hok
  refine ⟨hreplies, hend.visible, fs.userRecs, ?_, nodup_userRecs hend,
    fun p v => mem_userRecs_iff_get hend⟩
  refine List.ext_getElem ?_ fun idx h₁ h₂ => ?_
  · rw [List.length_map, List.length_range, List.length_map, length_userRecs]
  · rw [List.getElem_map, List.getElem_range, List.getElem_map]
    exact ramfsUserGet_eq fs _

/-- A file is put, cleared, and its slot used for a shorter one. -/
def reuseCalls : List FsCall :=
  [.put ⟨.lit "/a", by decide +kernel⟩ [1, 2, 3], .clearUser, .write ⟨.lit "/b", by decide⟩ [4],
    .read ⟨.lit "/b", by decide⟩ 0 8]

theorem ramfs_refines_map_reuse :
    Runs.replies Ramfs.call (ramfsInit zeroMem) reuseCalls
      = Runs.replies FileMap.call .init reuseCalls :=
  (ramfs_refines_map zeroMem reuseCalls
    ⟨trivial, trivial, .inl (by decide +kernel), trivial, trivial⟩).1

end OpenAgentOS
