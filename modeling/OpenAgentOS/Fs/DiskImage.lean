import OpenAgentOS.Fs.Persist
import OpenAgentOS.Fs.RamfsRuns

/-!
# The disk image of a list of files

Both directions of `persist.c` are described by one abstract object, the list of
file records in the order in which they lie on the disk.

- `imageSectors`: the sectors of a list of records. `persistSync_eq`: a sync
  writes exactly these, in order, and then the superblock.
- `HoldsRecs`: the sectors hold the records as a loader reads them. It is a
  condition on each sector alone (`Fits`), which is what makes a disk that is
  partly old and partly new tractable.
- `loadV2_of_holds`, `loadV1_of_holds`: a loader that meets records restores
  them in order.
- `diskRecs`: the records a disk holds; `loadV2_holds`, `loadV1_holds`: a disk
  that is accepted holds them.
-/

namespace OpenAgentOS

open Crc32

/-! ## The image and the sync -/

/-- The record of a file's metadata sector. -/
def FileRec.meta (r : FileRec) : PersistMeta := ⟨r.1, UInt32.ofNat r.2.length, crc32 r.2⟩

/-- The sectors of one file. -/
def recSectors (junk : Buf) (r : FileRec) : List Sector := metaSector junk r.meta :: blocks r.2

/-- The sectors of a list of files, the first of which has number `idx`. -/
def imageSectors (junk : Nat → Buf) : Nat → List FileRec → List Sector
  | _, [] => []
  | idx, r :: rs => recSectors (junk idx) r ++ imageSectors junk (idx + 1) rs

/-- The rolling checksum over the records. -/
def checksum (rolling : UInt32) (rs : List FileRec) : UInt32 :=
  rs.foldl (fun rolling r => rolling ^^^ crc32 r.2 ^^^ UInt32.ofNat r.2.length) rolling

/-- The user files of a table, in table order. -/
def Ramfs.userRecs (fs : Ramfs) : List FileRec :=
  fs.userSlots.map fun i => ((fs i).path, (fs i).content)

/-- The superblock of a sync. -/
def syncSuper (fs : Ramfs) : PersistSuper :=
  ⟨persistMagic, persistVersionAos2, UInt32.ofNat (ramfsUserCount fs), checksum 0 fs.userRecs⟩

theorem length_content (f : RamfsFile) : f.content.length = f.size := Buf.length_slice _ _ _

/-- User file number `idx` is record number `idx`. -/
theorem ramfsUserGet_eq (fs : Ramfs) {idx : Nat} (h : idx < fs.userRecs.length) :
    ramfsUserGet fs idx ramfsFileSize = .ok fs.userRecs[idx] := by
  have hslot : idx < fs.userSlots.length := by simpa [Ramfs.userRecs] using h
  have hrec : fs.userRecs[idx] = ((fs fs.userSlots[idx]).path, (fs fs.userSlots[idx]).content) := by
    simp [Ramfs.userRecs]
  rw [ramfsUserGet, if_neg (by decide), List.getElem?_eq_getElem hslot, hrec]
  dsimp only
  rw [if_neg (Nat.not_le.mpr (fs fs.userSlots[idx]).size_lt), CStr.copy_eq_self (RamfsFile.path_lt _)]

/-- The loop writes the sectors of the records that are left, then the
superblock. -/
theorem persistSyncLoop_eq (junk : Nat → Buf) (fs : Ramfs) {n idx : Nat}
    (hn : idx + n = fs.userRecs.length) (sector : Nat) (rolling : UInt32) :
    persistSyncLoop junk fs n idx sector rolling =
      (0, seqWrites sector (imageSectors junk idx (fs.userRecs.drop idx)) ++
        [(0, superSector ⟨persistMagic, persistVersionAos2, UInt32.ofNat (ramfsUserCount fs),
          checksum rolling (fs.userRecs.drop idx)⟩)]) := by
  induction n generalizing idx sector rolling with
  | zero =>
    rw [List.drop_of_length_le (by omega)]
    rfl
  | succ n ih =>
    have hidx : idx < fs.userRecs.length := by omega
    rw [persistSyncLoop, ramfsUserGet_eq fs hidx, List.drop_eq_getElem_cons hidx]
    dsimp only
    rw [ih (by omega), imageSectors, recSectors, seqWrites_append, seqWrites,
      List.length_cons, length_blocks]
    simp only [persistWriteFileData, persistFileSectors, checksum, List.foldl_cons,
      List.cons_append, List.append_assoc]
    rw [show sector + 1 + sectorsFor fs.userRecs[idx].2.length
      = sector + (sectorsFor fs.userRecs[idx].2.length + 1) by omega]
    rfl

/-- **A sync writes the image of the user files from sector 1 on, then the
superblock.** It never fails on a working device. -/
theorem persistSync_eq (junk : Nat → Buf) (fs : Ramfs) :
    persistSync true junk fs =
      (0, seqWrites 1 (imageSectors junk 0 fs.userRecs) ++ [(0, superSector (syncSuper fs))]) := by
  have hcount : 0 + ramfsUserCount fs = fs.userRecs.length := by
    simp [ramfsUserCount, Ramfs.userRecs]
  rw [persistSync, if_pos rfl, persistSyncLoop_eq junk fs hcount, List.drop_zero]
  rfl

/-! ## Reading sectors back -/

theorem persistReadSuper_eq {d : Disk} {sup : PersistSuper} (h : d 0 = superSector sup) :
    persistReadSuper d = sup := by
  have hword : ∀ (off : Nat) (x : UInt32),
      (∀ i, i < 4 → superSector sup (off + i) = u32Byte x i) → (d 0).u32 off = x := by
    intro off x hx
    exact Buf.u32_eq fun i hi => by rw [h, hx i hi]
  rw [persistReadSuper, hword 0 sup.magic, hword 4 sup.version, hword 8 sup.fileCount,
    hword 12 sup.checksum]
  all_goals
    intro i hi
    simp only [superSector]
    first
      | rw [if_neg (by omega), if_neg (by omega), if_neg (by omega), if_pos (by omega)]
      | rw [if_neg (by omega), if_neg (by omega), if_pos (by omega)]
      | rw [if_neg (by omega), if_pos (by omega)]
      | rw [if_pos (by omega)]
    congr 1
    omega

/-- A metadata sector is read back, whatever stands behind the path. -/
theorem sectorMeta_metaSector (junk : Buf) {m : PersistMeta} (hpath : m.path.length < 64) :
    sectorMeta (metaSector junk m) = m := by
  have hp : CStr.ofBuf (metaSector junk m) 72 = m.path := by
    refine CStr.ofBuf_eq (by omega) (fun i hi => ?_) ?_
    · rw [metaSector, if_pos (by omega), if_pos hi]
    · rw [metaSector, if_pos hpath, if_neg (Nat.lt_irrefl _), if_pos rfl]
  have hs : (metaSector junk m).u32 64 = m.size := Buf.u32_eq fun i hi => by
    rw [metaSector, if_neg (by omega), if_pos (by omega), Nat.add_sub_cancel_left]
  have hc : (metaSector junk m).u32 68 = m.crc32 := Buf.u32_eq fun i hi => by
    rw [metaSector, if_neg (by omega), if_neg (by omega), if_pos (by omega),
      Nat.add_sub_cancel_left]
  rw [sectorMeta, hp, hs, hc]

/-! ## Disks that hold records -/

/-- Number of sectors of a file. -/
def recLen (r : FileRec) : Nat := sectorsFor r.2.length + 1

/-- Number of sectors of a list of files. -/
def imageLen (rs : List FileRec) : Nat := (rs.map recLen).sum

/-- `b` serves a loader as sector `k` of the file `r`: the metadata first, then
the pieces of the data. Loaders that check checksums need that one, too. -/
def RecFits (checked : Bool) (r : FileRec) : Nat → Sector → Prop
  | 0, b => (sectorMeta b).path = r.1 ∧ (sectorMeta b).size.toNat = r.2.length ∧
      (checked = true → (sectorMeta b).crc32 = crc32 r.2)
  | k + 1, b => ∀ j, j < sectorSize → sectorSize * k + j < r.2.length →
      b j = r.2.getD (sectorSize * k + j) 0

/-- `b` serves a loader as sector `t` of the image of the files. -/
def Fits (checked : Bool) : List FileRec → Nat → Sector → Prop
  | [], _, _ => True
  | r :: rs, t, b =>
    if t < recLen r then RecFits checked r t b else Fits checked rs (t - recLen r) b

/-- The sectors from `s` on serve a loader as the image of the files. -/
def HoldsRecs (checked : Bool) (d : Disk) (s : Nat) (rs : List FileRec) : Prop :=
  ∀ t, t < imageLen rs → Fits checked rs t (d (s + t))

/-- A record the writer can represent: the path is terminated inside its field,
and the size fits in 32 bits. -/
def FileRec.Storable (r : FileRec) : Prop := r.1.length < 64 ∧ r.2.length < 2 ^ 32

theorem storable_userRecs (fs : Ramfs) : ∀ r ∈ fs.userRecs, r.Storable := by
  intro r hr
  obtain ⟨i, -, rfl⟩ := List.mem_map.mp hr
  have hsize := (fs i).size_lt
  refine ⟨(fs i).path_lt, ?_⟩
  rw [length_content]
  exact hsize.trans (by decide)

theorem holdsRecs_cons {checked : Bool} {d : Disk} {s : Nat} {r : FileRec} {rs : List FileRec} :
    HoldsRecs checked d s (r :: rs) ↔
      (∀ k, k < recLen r → RecFits checked r k (d (s + k))) ∧
        HoldsRecs checked d (s + recLen r) rs := by
  have hlen : imageLen (r :: rs) = recLen r + imageLen rs := by simp [imageLen]
  constructor
  · intro h
    refine ⟨fun k hk => ?_, fun t ht => ?_⟩
    · have := h k (by omega)
      rwa [Fits, if_pos hk] at this
    · have := h (recLen r + t) (by omega)
      rwa [Fits, if_neg (by omega), Nat.add_sub_cancel_left, ← Nat.add_assoc] at this
  · rintro ⟨hrec, hrest⟩ t ht
    rw [Fits]
    by_cases hlt : t < recLen r
    · rw [if_pos hlt]
      exact hrec t hlt
    · rw [if_neg hlt]
      have := hrest (t - recLen r) (by omega)
      rwa [show s + recLen r + (t - recLen r) = s + t by omega] at this

/-- Only the sectors of the image matter. -/
theorem HoldsRecs.congr {checked : Bool} {d d' : Disk} {s : Nat} {rs : List FileRec}
    (h : HoldsRecs checked d s rs) (hsame : ∀ t, t < imageLen rs → d' (s + t) = d (s + t)) :
    HoldsRecs checked d' s rs := by
  intro t ht
  rw [hsame t ht]
  exact h t ht

theorem imageLen_append (rs ws : List FileRec) :
    imageLen (rs ++ ws) = imageLen rs + imageLen ws := by
  simp [imageLen]

theorem holdsRecs_append {checked : Bool} {d : Disk} {s : Nat} {rs ws : List FileRec} :
    HoldsRecs checked d s (rs ++ ws) ↔
      HoldsRecs checked d s rs ∧ HoldsRecs checked d (s + imageLen rs) ws := by
  induction rs generalizing s with
  | nil =>
    refine ⟨fun h => ⟨fun t ht => absurd ht (Nat.not_lt_zero t), h⟩, fun h => h.2⟩
  | cons r rs ih =>
    rw [List.cons_append, holdsRecs_cons, holdsRecs_cons, ih, and_assoc,
      show imageLen (r :: rs) = recLen r + imageLen rs by simp [imageLen], Nat.add_assoc]

/-- What serves a checking loader serves every loader. -/
theorem RecFits.weaken {checked : Bool} {r : FileRec} {k : Nat} {b : Sector}
    (h : RecFits true r k b) : RecFits checked r k b := by
  cases k with
  | zero => exact ⟨h.1, h.2.1, fun _ => h.2.2 rfl⟩
  | succ k => exact h

theorem Fits.weaken {checked : Bool} {rs : List FileRec} {t : Nat} {b : Sector}
    (h : Fits true rs t b) : Fits checked rs t b := by
  induction rs generalizing t with
  | nil => exact trivial
  | cons r rs ih =>
    rw [Fits] at h ⊢
    split at h
    · rename_i hlt
      rw [if_pos hlt]
      exact h.weaken
    · rename_i hlt
      rw [if_neg hlt]
      exact ih h

/-- More files behind do not change what is expected of a sector. -/
theorem fits_append {checked : Bool} {rs ws : List FileRec} {t : Nat} {b : Sector}
    (ht : t < imageLen rs) : Fits checked (rs ++ ws) t b ↔ Fits checked rs t b := by
  induction rs generalizing t with
  | nil => exact absurd ht (Nat.not_lt_zero t)
  | cons r rs ih =>
    rw [List.cons_append, Fits, Fits]
    by_cases hlt : t < recLen r
    · rw [if_pos hlt, if_pos hlt]
    · have hlen : imageLen (r :: rs) = recLen r + imageLen rs := by simp [imageLen]
      rw [if_neg hlt, if_neg hlt]
      exact ih (by omega)

/-- Right behind the first files comes the metadata of the next one. -/
theorem fits_next {checked : Bool} (rs : List FileRec) {r : FileRec} {ws : List FileRec}
    {b : Sector} : Fits checked (rs ++ r :: ws) (imageLen rs) b ↔ RecFits checked r 0 b := by
  induction rs with
  | nil =>
    rw [List.nil_append, Fits, if_pos (show imageLen [] < recLen r from Nat.succ_pos _)]
    rfl
  | cons x rs ih =>
    have hlen : imageLen (x :: rs) = recLen x + imageLen rs := by simp [imageLen]
    rw [List.cons_append, Fits, hlen, if_neg (by omega), Nat.add_sub_cancel_left, ih]

theorem recSectors_fits (junk : Buf) {r : FileRec} (hr : r.Storable) {k : Nat}
    (hk : k < (recSectors junk r).length) : RecFits true r k (recSectors junk r)[k] := by
  cases k with
  | zero =>
    show RecFits true r 0 (metaSector junk r.meta)
    rw [RecFits, sectorMeta_metaSector junk (m := r.meta) hr.1]
    exact ⟨rfl, UInt32.toNat_ofNat_of_lt' hr.2, fun _ => rfl⟩
  | succ k =>
    simp only [recSectors, List.getElem_cons_succ, getElem_blocks]
    intro j _ _
    rfl

@[simp] theorem length_imageSectors (junk : Nat → Buf) (idx : Nat) (rs : List FileRec) :
    (imageSectors junk idx rs).length = imageLen rs := by
  induction rs generalizing idx with
  | nil => rfl
  | cons r rs ih =>
    rw [imageSectors, List.length_append, ih, recSectors, List.length_cons, length_blocks]
    simp [imageLen, recLen]

/-- Every sector of an image serves a checking loader. -/
theorem imageSectors_fits (junk : Nat → Buf) (idx : Nat) {rs : List FileRec}
    (hrs : ∀ r ∈ rs, r.Storable) {t : Nat} (ht : t < (imageSectors junk idx rs).length) :
    Fits true rs t (imageSectors junk idx rs)[t] := by
  induction rs generalizing idx t with
  | nil => exact trivial
  | cons r rs ih =>
    obtain ⟨hr, hrs⟩ := List.forall_mem_cons.mp hrs
    have hlen : (recSectors (junk idx) r).length = recLen r := by simp [recSectors, recLen]
    rw [Fits]
    by_cases hlt : t < recLen r
    · rw [if_pos hlt]
      simp only [imageSectors, List.getElem_append_left (hlen ▸ hlt)]
      exact recSectors_fits (junk idx) hr _
    · rw [if_neg hlt]
      simp only [imageSectors]
      rw [List.getElem_append_right (by omega)]
      simp only [hlen]
      exact ih (idx + 1) hrs _

/-! ## Loading records -/

/-- The first file of a disk that holds records, as the loaders read it. -/
theorem read_of_holds {checked : Bool} {d : Disk} {s : Nat} {r : FileRec}
    (h : ∀ k, k < recLen r → RecFits checked r k (d (s + k))) :
    (persistReadMeta d s).path = r.1 ∧ (persistReadMeta d s).size.toNat = r.2.length ∧
      (checked = true → (persistReadMeta d s).crc32 = crc32 r.2) ∧
      persistReadFileData d (s + 1) r.2.length = r.2 := by
  obtain ⟨hpath, hsize, hcrc⟩ := h 0 (Nat.succ_pos _)
  refine ⟨hpath, hsize, hcrc, ?_⟩
  have hholds : HoldsBytes d (s + 1) r.2 := by
    intro k hk
    have := h (k + 1) (Nat.succ_lt_succ hk)
    rwa [show s + (k + 1) = s + 1 + k by omega] at this
  exact hholds.read_eq

/-- A size the loaders let pass. -/
def FileRec.SizeOk (r : FileRec) : Prop := 0 < r.2.length ∧ r.2.length ≤ ramfsFileSize

theorem size_rejected_iff {x : UInt32} {r : FileRec} (h : x.toNat = r.2.length) :
    (x = 0 ∨ ramfsFileSize < x.toNat) ↔ ¬ r.SizeOk := by
  have hzero : x = 0 ↔ x.toNat = 0 := by
    rw [← UInt32.toNat_inj]
    rfl
  rw [hzero, h, FileRec.SizeOk]
  omega

/-- The outcome of restoring records, in a loader's error codes. -/
def restoreOutcome (rc : Int) (out : Int × Ramfs) : Int × Ramfs :=
  if out.1 ≠ 0 then (eio, out.2) else (rc, out.2)

/-- The AOS2 loader on a disk that holds records restores them in order and then
compares the checksum. -/
theorem loadV2_of_holds {d : Disk} {superCrc : UInt32} {rs : List FileRec}
    (hsize : ∀ r ∈ rs, r.SizeOk) {s : Nat} (h : HoldsRecs true d s rs) (rolling : UInt32)
    (fs : Ramfs) :
    persistLoadV2 d superCrc rs.length s rolling fs =
      restoreOutcome (if checksum rolling rs ≠ superCrc then eio else 0) (fs.restore rs) := by
  induction rs generalizing s rolling fs with
  | nil => rfl
  | cons r rs ih =>
    obtain ⟨hr, hrs⟩ := List.forall_mem_cons.mp hsize
    obtain ⟨hrec, hrest⟩ := holdsRecs_cons.mp h
    obtain ⟨hpath, hsz, hcrc, hdata⟩ := read_of_holds hrec
    have hsz' : (persistReadMeta d s).size = UInt32.ofNat r.2.length := by
      rw [← hsz, UInt32.ofNat_toNat]
    rw [List.length_cons, persistLoadV2, Ramfs.restore]
    simp only [hpath, hcrc, hdata, hsz]
    rw [if_neg (by rw [← hsz, size_rejected_iff hsz]; exact not_not.mpr hr),
      if_neg (not_not.mpr rfl)]
    by_cases hput : (ramfsPut fs r.1 r.2).1 = 0
    · rw [if_neg (not_not.mpr hput), if_pos hput, show s + 1 + persistFileSectors r.2.length
        = s + recLen r by rw [recLen, persistFileSectors]; omega, ih hrs hrest, hsz']
      rfl
    · rw [if_pos hput, if_neg hput, restoreOutcome, if_pos hput]

/-- The AOS1 loader does the same without checksums. -/
theorem loadV1_of_holds {d : Disk} {rs : List FileRec} (hsize : ∀ r ∈ rs, r.SizeOk) {s : Nat}
    (h : HoldsRecs false d s rs) (fs : Ramfs) :
    persistLoadV1 d rs.length s fs = restoreOutcome 0 (fs.restore rs) := by
  induction rs generalizing s fs with
  | nil => rfl
  | cons r rs ih =>
    obtain ⟨hr, hrs⟩ := List.forall_mem_cons.mp hsize
    obtain ⟨hrec, hrest⟩ := holdsRecs_cons.mp h
    obtain ⟨hpath, hsz, -, hdata⟩ := read_of_holds hrec
    rw [List.length_cons, persistLoadV1, Ramfs.restore]
    simp only [hpath, hdata, hsz]
    rw [if_neg (by rw [← hsz, size_rejected_iff hsz]; exact not_not.mpr hr)]
    by_cases hput : (ramfsPut fs r.1 r.2).1 = 0
    · rw [if_neg (not_not.mpr hput), if_pos hput, show s + 1 + persistFileSectors r.2.length
        = s + recLen r by rw [recLen, persistFileSectors]; omega, ih hrs hrest]
    · rw [if_pos hput, if_neg hput, restoreOutcome, if_pos hput]

/-! ## The kinds of disk -/

/-- A disk without the magic number is left alone. -/
theorem persistLoad_blank {d : Disk} (hmagic : (persistReadSuper d).magic ≠ persistMagic)
    (junk : Nat → Buf) (fs : Ramfs) : persistLoad true junk d fs = ⟨0, fs, []⟩ := by
  rw [persistLoad]
  dsimp only
  rw [if_neg (by decide), if_pos hmagic]

/-- An AOS1 disk is loaded and rewritten. The file count is a variable here: the
kernel would otherwise unfold its decoding whenever it compares two loads. -/
theorem persistLoad_aos1 {d : Disk} (hmagic : (persistReadSuper d).magic = persistMagic)
    (hver : (persistReadSuper d).version = persistVersionAos1) {n : Nat}
    (hn : (persistReadSuper d).count = n) (junk : Nat → Buf) (fs : Ramfs) :
    persistLoad true junk d fs =
      let load := persistLoadV1 d n 1 (ramfsClearUser fs)
      if load.1 ≠ 0 then ⟨load.1, load.2, []⟩
      else ⟨(persistSync true junk load.2).1, load.2, (persistSync true junk load.2).2⟩ := by
  rw [persistLoad]
  dsimp only
  rw [if_neg (by decide), if_neg (not_not.mpr hmagic), if_pos hver, persistMigrate, if_pos rfl,
    hn]

/-- An AOS2 disk is loaded. -/
theorem persistLoad_aos2 {d : Disk} (hmagic : (persistReadSuper d).magic = persistMagic)
    (hver : (persistReadSuper d).version = persistVersionAos2) {n : Nat}
    (hn : (persistReadSuper d).count = n) (junk : Nat → Buf) (fs : Ramfs) :
    persistLoad true junk d fs =
      let load := persistLoadV2 d (persistReadSuper d).checksum n 1 0 (ramfsClearUser fs)
      ⟨load.1, load.2, []⟩ := by
  rw [persistLoad]
  dsimp only
  rw [if_neg (by decide), if_neg (not_not.mpr hmagic), if_neg (by rw [hver]; decide), if_pos hver,
    hn]

/-! ## The records of a disk -/

/-- The file a loader reads at sector `s`. -/
def diskRec (d : Disk) (s : Nat) : FileRec :=
  ((persistReadMeta d s).path, persistReadFileData d (s + 1) (persistReadMeta d s).size.toNat)

/-- The `n` files a loader reads from sector `s` on. -/
def diskRecs (d : Disk) : (n s : Nat) → List FileRec
  | 0, _ => []
  | n + 1, s => diskRec d s :: diskRecs d n (s + recLen (diskRec d s))

theorem length_diskRec (d : Disk) (s : Nat) :
    (diskRec d s).2.length = (persistReadMeta d s).size.toNat := Disk.length_read _ _ _

/-- The loaders go on at the sector behind the file they have read. -/
theorem next_sector (d : Disk) (s : Nat) :
    s + 1 + persistFileSectors (persistReadMeta d s).size.toNat = s + recLen (diskRec d s) := by
  rw [recLen, length_diskRec, persistFileSectors]
  omega

theorem diskRec_rejected_iff (d : Disk) (s : Nat) :
    ((persistReadMeta d s).size = 0 ∨ ramfsFileSize < (persistReadMeta d s).size.toNat) ↔
      ¬ (diskRec d s).SizeOk :=
  size_rejected_iff (length_diskRec d s).symm

/-- The file a loader reads is held by its sectors. -/
theorem recFits_diskRec {checked : Bool} {d : Disk} {s : Nat}
    (hcrc : checked = true → crc32 (diskRec d s).2 = (persistReadMeta d s).crc32) :
    ∀ k, k < recLen (diskRec d s) → RecFits checked (diskRec d s) k (d (s + k)) := by
  intro k hk
  cases k with
  | zero => exact ⟨rfl, (length_diskRec d s).symm, fun hc => (hcrc hc).symm⟩
  | succ k =>
    have := holdsBytes_read d (s + 1) (persistReadMeta d s).size.toNat k
      (Nat.lt_of_succ_lt_succ hk)
    rwa [show s + 1 + k = s + (k + 1) by omega] at this

/-- A disk the AOS2 loader accepts holds the files it reads, with sizes in
range. -/
theorem loadV2_holds {d : Disk} {superCrc : UInt32} {n s : Nat} {rolling : UInt32} {fs : Ramfs}
    (h : (persistLoadV2 d superCrc n s rolling fs).1 = 0) :
    HoldsRecs true d s (diskRecs d n s) ∧ ∀ r ∈ diskRecs d n s, r.SizeOk := by
  induction n generalizing s rolling fs with
  | zero => exact ⟨fun t ht => absurd ht (Nat.not_lt_zero t), by simp [diskRecs]⟩
  | succ n ih =>
    rw [persistLoadV2, next_sector] at h
    dsimp only at h
    -- all early exits return `EIO`
    split_ifs at h with hsize hcrc hput
    · cases h
    · cases h
    · cases h
    · obtain ⟨hholds, hall⟩ := ih h
      rw [diskRec_rejected_iff, not_not] at hsize
      rw [diskRecs, holdsRecs_cons, List.forall_mem_cons]
      exact ⟨⟨recFits_diskRec fun _ => not_not.mp hcrc, hholds⟩, hsize, hall⟩

/-- The rolling checksum of what it reads is that of the superblock. -/
theorem loadV2_checksum {d : Disk} {superCrc : UInt32} {n s : Nat} {rolling : UInt32} {fs : Ramfs}
    (h : (persistLoadV2 d superCrc n s rolling fs).1 = 0) :
    checksum rolling (diskRecs d n s) = superCrc := by
  induction n generalizing s rolling fs with
  | zero =>
    rw [persistLoadV2] at h
    by_contra hne
    rw [if_pos (show rolling ≠ superCrc from hne)] at h
    cases h
  | succ n ih =>
    rw [persistLoadV2, next_sector] at h
    dsimp only at h
    split_ifs at h with hsize hcrc hput
    · cases h
    · cases h
    · cases h
    · have hword : UInt32.ofNat (diskRec d s).2.length = (persistReadMeta d s).size := by
        rw [length_diskRec, UInt32.ofNat_toNat]
      have hsum : crc32 (diskRec d s).2 = (persistReadMeta d s).crc32 := not_not.mp hcrc
      rw [diskRecs, checksum, List.foldl_cons, hword, hsum]
      exact ih h

/-- A disk the AOS1 loader accepts holds the files it reads, with sizes in
range. -/
theorem loadV1_holds {d : Disk} {n s : Nat} {fs : Ramfs}
    (h : (persistLoadV1 d n s fs).1 = 0) :
    HoldsRecs false d s (diskRecs d n s) ∧ ∀ r ∈ diskRecs d n s, r.SizeOk := by
  induction n generalizing s fs with
  | zero => exact ⟨fun t ht => absurd ht (Nat.not_lt_zero t), by simp [diskRecs]⟩
  | succ n ih =>
    rw [persistLoadV1, next_sector] at h
    dsimp only at h
    split_ifs at h with hsize hput
    · cases h
    · cases h
    · obtain ⟨hholds, hall⟩ := ih h
      rw [diskRec_rejected_iff, not_not] at hsize
      rw [diskRecs, holdsRecs_cons, List.forall_mem_cons]
      exact ⟨⟨recFits_diskRec fun hc => absurd hc (by decide), hholds⟩, hsize, hall⟩

theorem length_diskRecs (d : Disk) (n s : Nat) : (diskRecs d n s).length = n := by
  induction n generalizing s with
  | zero => rfl
  | succ n ih => rw [diskRecs, List.length_cons, ih]

/-- The AOS2 loader treats a disk that holds the records of an accepted one like
that one. -/
theorem loadV2_congr {d d' : Disk} {superCrc : UInt32} {n s : Nat} {rolling : UInt32}
    {fs : Ramfs} (hrc : (persistLoadV2 d superCrc n s rolling fs).1 = 0)
    (hholds : HoldsRecs true d s (diskRecs d n s) → HoldsRecs true d' s (diskRecs d n s)) :
    persistLoadV2 d' superCrc n s rolling fs = persistLoadV2 d superCrc n s rolling fs := by
  obtain ⟨hheld, hsize⟩ := loadV2_holds hrc
  have hnew := @loadV2_of_holds d' superCrc _ hsize s (hholds hheld) rolling fs
  have hold := @loadV2_of_holds d superCrc _ hsize s hheld rolling fs
  rw [length_diskRecs] at hnew hold
  rw [hnew, hold]

/-- So does the AOS1 loader. -/
theorem loadV1_congr {d d' : Disk} {n s : Nat} {fs : Ramfs}
    (hrc : (persistLoadV1 d n s fs).1 = 0)
    (hholds : HoldsRecs false d s (diskRecs d n s) → HoldsRecs false d' s (diskRecs d n s)) :
    persistLoadV1 d' n s fs = persistLoadV1 d n s fs := by
  obtain ⟨hheld, hsize⟩ := loadV1_holds hrc
  have hnew := loadV1_of_holds hsize (hholds hheld) fs
  have hold := loadV1_of_holds hsize hheld fs
  rw [length_diskRecs] at hnew hold
  rw [hnew, hold]

/-- Where a disk holds records, they are what is read from it. -/
theorem diskRecs_of_holds {checked : Bool} {d : Disk} {s : Nat} {rs : List FileRec}
    (h : HoldsRecs checked d s rs) (n : Nat) :
    diskRecs d (rs.length + n) s = rs ++ diskRecs d n (s + imageLen rs) := by
  induction rs generalizing s with
  | nil => rw [List.length_nil, Nat.zero_add]; rfl
  | cons r rs ih =>
    obtain ⟨hrec, hrest⟩ := holdsRecs_cons.mp h
    obtain ⟨hpath, hsz, -, hdata⟩ := read_of_holds hrec
    have hr : diskRec d s = r := by rw [diskRec, hpath, hsz, hdata]
    rw [List.length_cons, Nat.add_right_comm, diskRecs, hr, ih hrest, Nat.add_assoc,
      show recLen r + imageLen rs = imageLen (r :: rs) by simp [imageLen], List.cons_append]

end OpenAgentOS
