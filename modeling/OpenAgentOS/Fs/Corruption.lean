import OpenAgentOS.Fs.RoundTrip

/-!
# A byte of the image is changed (kernel/persist.c)

An AOS2 image has a CRC of the data of every file, and in the superblock the exclusive or
of all CRCs and sizes. The paths are covered by neither.

- `Spot`: the bytes of an image that a loader looks at, by field.
- `Spot.Caught`: where, and to what, a byte may be changed without harm: the loader turns
  the image down, or reads the same files from it.
- `corruption_caught`: if a changed byte is caught in this sense, a load does not succeed
  with other files than those that were saved.
- `not_corruption_caught`: a file comes back under another name.

A size that makes the loader go on at another sector, and a count that makes it read
behind the image, lead it to records that the image does not determine; `Spot.Caught` is
silent on those.
-/

namespace OpenAgentOS

open CInt Function

/-- The sector of the metadata of file number `k`. -/
def metaAt (rs : List FileRec) (k : Nat) : Nat := 1 + imageLen (rs.take k)

/-- A byte of an image of the files `rs`. -/
inductive Spot (rs : List FileRec) where
  | fileCount (j : Fin 4)
  | checksum (j : Fin 4)
  | path (k : Fin rs.length) (j : Fin ramfsPathMax)
  | size (k : Fin rs.length) (j : Fin 4)
  | crc32 (k : Fin rs.length) (j : Fin 4)
  | data (k : Fin rs.length) (j : Fin rs[k].2.length)

/-- Sector and offset of the byte. -/
def Spot.place {rs : List FileRec} : Spot rs → Nat × Nat
  | .fileCount j => (0, 8 + j)
  | .checksum j => (0, 12 + j)
  | .path k j => (metaAt rs k, j)
  | .size k j => (metaAt rs k, 64 + j)
  | .crc32 k j => (metaAt rs k, 68 + j)
  | .data k j => (metaAt rs k + 1 + j / sectorSize, j % sectorSize)

/-- A change of the byte to `v` on the disk `d` that holds the image.

- The checksums and the data of files: every change.
- A path: behind its terminator.
- A size: one that the loader rejects or that takes as many sectors, or that of the last
  file.
- The number of files: fewer, if the files left out do not cancel; more, if there is no
  size in range behind the image. -/
def Spot.Caught {rs : List FileRec} (d : Disk) (v : UInt8) : Spot rs → Prop
  | .checksum _ | .crc32 _ _ | .data _ _ => True
  | .path k j => Consistent rs ∧ rs[k].1.length < j
  | .size k j =>
    let size := (setByte (UInt32.ofNat rs[k].2.length) j v).toNat
    size = 0 ∨ ramfsFileSize < size ∨ sectorsFor size = sectorsFor rs[k].2.length ∨
      k + 1 = rs.length
  | .fileCount j =>
    let n := loopCount (setByte (UInt32.ofNat rs.length) j v)
    n = rs.length ∧ Consistent rs ∨
      n < rs.length ∧ OpenAgentOS.checksum 0 (rs.drop n) ≠ 0 ∨
      rs.length < n ∧ ¬ (diskRec d (1 + imageLen rs)).SizeOk

/-! ## The rolling checksum -/

theorem checksum_eq (rolling : UInt32) (rs : List FileRec) :
    checksum rolling rs = rolling ^^^ checksum 0 rs := by
  induction rs generalizing rolling with
  | nil => exact UInt32.xor_zero.symm
  | cons r rs ih =>
    have hcons : ∀ x, checksum x (r :: rs)
        = checksum (x ^^^ Crc32.crc32 r.2 ^^^ UInt32.ofNat r.2.length) rs := fun _ => rfl
    rw [hcons, ih, hcons 0, ih (0 ^^^ _ ^^^ _), UInt32.zero_xor]
    simp only [UInt32.xor_assoc]

theorem checksum_append (rolling : UInt32) (rs ws : List FileRec) :
    checksum rolling (rs ++ ws) = checksum rolling rs ^^^ checksum 0 ws := by
  have happend : checksum rolling (rs ++ ws) = checksum (checksum rolling rs) ws := List.foldl_append
  rw [happend, checksum_eq]

theorem checksum_cons (r : FileRec) (rs : List FileRec) :
    checksum 0 (r :: rs) = Crc32.crc32 r.2 ^^^ UInt32.ofNat r.2.length ^^^ checksum 0 rs := by
  have hcons : checksum 0 (r :: rs)
      = checksum (0 ^^^ Crc32.crc32 r.2 ^^^ UInt32.ofNat r.2.length) rs := rfl
  rw [hcons, checksum_eq, UInt32.zero_xor]

/-- Leaving files out is noticed unless they cancel. -/
theorem checksum_take_eq_iff (rs : List FileRec) (n : Nat) :
    checksum 0 (rs.take n) = checksum 0 rs ↔ checksum 0 (rs.drop n) = 0 := by
  have hsplit : checksum 0 rs = checksum 0 (rs.take n) ^^^ checksum 0 (rs.drop n) := by
    rw [← checksum_append, List.take_append_drop]
  rw [hsplit]
  constructor
  · intro h
    exact (UInt32.xor_right_inj (checksum 0 (rs.take n))).mp (h.symm.trans UInt32.xor_zero.symm)
  · intro h
    rw [h, UInt32.xor_zero]

/-- What a loader accepts in place of one file: with the same CRC, the checksum of the
superblock gives the size away. -/
theorem size_eq_of_checksum {pre post : List FileRec} {r r' : FileRec}
    (hcrc : Crc32.crc32 r'.2 = Crc32.crc32 r.2)
    (hsum : checksum 0 (pre ++ r' :: post) = checksum 0 (pre ++ r :: post)) :
    UInt32.ofNat r'.2.length = UInt32.ofNat r.2.length := by
  rw [checksum_append, checksum_append, UInt32.xor_right_inj, checksum_cons, checksum_cons,
    UInt32.xor_left_inj, hcrc, UInt32.xor_right_inj] at hsum
  exact hsum

/-! ## Loading around a file -/

section Around

variable {d d' : Disk} {rs : List FileRec} (h : IsImage d rs) (k : Fin rs.length)

include h

/-- The parts of an image before, in and behind file number `k`. -/
theorem IsImage.parts :
    HoldsRecs true d 1 (rs.take k) ∧
      (∀ i, i < recLen rs[k] → RecFits true rs[k] i (d (metaAt rs k + i))) ∧
      HoldsRecs true d (metaAt rs k + recLen rs[k]) (rs.drop (k + 1)) := by
  have hsplit : rs.take k ++ rs[k] :: rs.drop (k + 1) = rs := by simp
  have hholds := h.holds
  rw [← hsplit, holdsRecs_append, holdsRecs_cons] at hholds
  exact hholds

/-- A disk that agrees with the image before file number `k` and is accepted: the files
before it, then what is read in its place, with its CRC. -/
theorem IsImage.accepted_at (hbefore : ∀ t, t < imageLen (rs.take k) → d' (1 + t) = d (1 + t))
    {superCrc : UInt32} {fs : Ramfs}
    (hrc : (persistLoadV2 d' superCrc rs.length 1 0 fs).1 = 0) :
    let r := diskRec d' (metaAt rs k)
    r.SizeOk ∧ Crc32.crc32 r.2 = (persistReadMeta d' (metaAt rs k)).crc32 ∧
      checksum 0 (rs.take k ++ r ::
        diskRecs d' (rs.drop (k + 1)).length (metaAt rs k + recLen r)) = superCrc := by
  obtain ⟨hpre, -, -⟩ := h.parts k
  have hrecs := diskRecs_of_holds (hpre.congr hbefore) ((rs.drop (k + 1)).length + 1)
  have hlen : (rs.take k).length + ((rs.drop (k + 1)).length + 1) = rs.length := by
    rw [List.length_take, List.length_drop]
    omega
  rw [hlen, diskRecs] at hrecs
  obtain ⟨hholds, hsize⟩ := loadV2_holds hrc
  have hsum := loadV2_checksum hrc
  rw [hrecs] at hholds hsize hsum
  rw [holdsRecs_append, holdsRecs_cons] at hholds
  obtain ⟨-, -, hcrc⟩ := hholds.2.1 0 (Nat.succ_pos _)
  exact ⟨hsize _ (List.mem_append_right _ List.mem_cons_self), (hcrc rfl).symm, hsum⟩

end Around

/-! ## A changed metadata sector -/

section Meta

variable {b : Sector} (hpath : (sectorMeta b).path.length < 64) (v : UInt8)

include hpath

/-- A change behind the terminator leaves the path alone. -/
theorem ofBuf_path_update {off : Nat} (hoff : (sectorMeta b).path.length < off) :
    CStr.ofBuf (update b off v) 72 = (sectorMeta b).path :=
  CStr.ofBuf_update (hpath.trans (by decide)) hoff v

theorem sectorMeta_update_path {j : Nat} (hj : j < 64) (hoff : (sectorMeta b).path.length < j) :
    sectorMeta (update b j v) = sectorMeta b := by
  have hsize : Buf.u32 (update b j v) 64 = b.u32 64 :=
    Buf.u32_update_of_ne b (.inl hj) v
  have hcrc : Buf.u32 (update b j v) 68 = b.u32 68 :=
    Buf.u32_update_of_ne b (.inl (hj.trans (by decide))) v
  rw [sectorMeta, hsize, hcrc, ofBuf_path_update hpath v hoff]
  rfl

theorem sectorMeta_update_size (j : Fin 4) :
    sectorMeta (update b (64 + j) v)
      = ⟨(sectorMeta b).path, setByte (sectorMeta b).size j v, (sectorMeta b).crc32⟩ := by
  have hj := j.isLt
  have hcrc : Buf.u32 (update b (64 + j) v) 68 = b.u32 68 :=
    Buf.u32_update_of_ne b (.inl (by omega)) v
  have hoff : (sectorMeta b).path.length < 64 + j := by omega
  rw [sectorMeta, hcrc, Buf.u32_update, ofBuf_path_update hpath v hoff]
  rfl

theorem sectorMeta_update_crc32 (j : Fin 4) :
    sectorMeta (update b (68 + j) v)
      = ⟨(sectorMeta b).path, (sectorMeta b).size, setByte (sectorMeta b).crc32 j v⟩ := by
  have hj := j.isLt
  have hsize : Buf.u32 (update b (68 + j) v) 64 = b.u32 64 :=
    Buf.u32_update_of_ne b (.inr (by omega)) v
  have hoff : (sectorMeta b).path.length < 68 + j := by omega
  rw [sectorMeta, hsize, Buf.u32_update, ofBuf_path_update hpath v hoff]
  rfl

end Meta

/-! ## What becomes of a changed file -/

section Files

variable {d : Disk} {rs : List FileRec} (h : IsImage d rs) (hload : ∀ r ∈ rs, r.Loadable)
  (k : Fin rs.length) {v : UInt8} {superCrc : UInt32} {fs : Ramfs}

include h

/-- What a loader reads of file number `k`. -/
theorem IsImage.read_file :
    (persistReadMeta d (metaAt rs k)).path = rs[k].1 ∧
      (persistReadMeta d (metaAt rs k)).size = UInt32.ofNat rs[k].2.length ∧
      (persistReadMeta d (metaAt rs k)).crc32 = Crc32.crc32 rs[k].2 ∧
      persistReadFileData d (metaAt rs k + 1) rs[k].2.length = rs[k].2 := by
  obtain ⟨hpath, hsize, hcrc, hdata⟩ := read_of_holds (h.parts k).2.1
  exact ⟨hpath, by rw [← hsize, UInt32.ofNat_toNat], hcrc rfl, hdata⟩

include hload

theorem IsImage.path_lt : (sectorMeta (d (metaAt rs k))).path.length < 64 := by
  rw [show (sectorMeta (d (metaAt rs k))).path = rs[k].1 from (h.read_file k).1]
  exact (hload _ (List.getElem_mem _)).short

omit h in
theorem toNat_length_of_loadable :
    (UInt32.ofNat rs[k].2.length).toNat = rs[k].2.length :=
  UInt32.toNat_ofNat_of_lt' ((hload _ (List.getElem_mem k.isLt)).size_lt.trans (by decide))

/-- A changed CRC does not fit the data. -/
theorem IsImage.crc32_caught (j : Fin 4) (hv : v ≠ d (metaAt rs k) (68 + j)) :
    (persistLoadV2 (d.corrupt (metaAt rs k, 68 + j) v) superCrc rs.length 1 0 fs).1 ≠ 0 := by
  intro hrc
  obtain ⟨-, hsize, hcrc, hdata⟩ := h.read_file k
  have hmeta : persistReadMeta (d.corrupt (metaAt rs k, 68 + j) v) (metaAt rs k)
      = ⟨(persistReadMeta d (metaAt rs k)).path, (persistReadMeta d (metaAt rs k)).size,
        setByte (persistReadMeta d (metaAt rs k)).crc32 j v⟩ := by
    rw [persistReadMeta, Disk.corrupt_self]
    exact sectorMeta_update_crc32 (h.path_lt hload k) v j
  have hread : (diskRec (d.corrupt (metaAt rs k, 68 + j) v) (metaAt rs k)).2 = rs[k].2 := by
    rw [diskRec, hmeta, hsize, toNat_length_of_loadable hload k]
    exact (Disk.read_congr (fun i => Disk.corrupt_of_ne d (by dsimp only; omega) v) _).trans hdata
  obtain ⟨-, hfit, -⟩ := h.accepted_at k
    (fun t ht => Disk.corrupt_of_ne d (by dsimp only [metaAt]; omega) v) hrc
  rw [hread, hmeta, hcrc] at hfit
  refine setByte_ne j.isLt ?_ hfit.symm
  rw [← hcrc]
  exact fun heq => hv (heq.trans (u32Byte_u32 _ _ j.isLt))

/-- Changed data does not fit the CRC. -/
theorem IsImage.data_caught (j : Fin rs[k].2.length)
    (hv : v ≠ d (metaAt rs k + 1 + j / sectorSize) (j % sectorSize)) :
    (persistLoadV2 (d.corrupt (metaAt rs k + 1 + j / sectorSize, j % sectorSize) v) superCrc
      rs.length 1 0 fs).1 ≠ 0 := by
  intro hrc
  obtain ⟨-, hsize, hcrc, hdata⟩ := h.read_file k
  have hbehind : metaAt rs k < metaAt rs k + 1 + j / sectorSize :=
    Nat.lt_of_lt_of_le (Nat.lt_succ_self _) (Nat.le_add_right _ _)
  have hmeta : persistReadMeta (d.corrupt (metaAt rs k + 1 + j / sectorSize, j % sectorSize) v)
      (metaAt rs k) = persistReadMeta d (metaAt rs k) :=
    congrArg sectorMeta (Disk.corrupt_of_ne d hbehind.ne v)
  have hread : (diskRec (d.corrupt (metaAt rs k + 1 + j / sectorSize, j % sectorSize) v)
      (metaAt rs k)).2 = rs[k].2.set j v := by
    rw [diskRec, hmeta, hsize, toNat_length_of_loadable hload k]
    exact (Disk.read_corrupt d _ _ _ _).trans (congrArg (fun data => List.set data j v) hdata)
  obtain ⟨-, hfit, -⟩ := h.accepted_at k
    (fun t ht => Disk.corrupt_of_ne d (by dsimp only [metaAt] at hbehind ⊢; omega) v) hrc
  rw [hread, hmeta, hcrc] at hfit
  refine Crc32.crc32_set_ne j.isLt (fun heq => hv ?_) hfit
  -- the byte on the disk is that of the file
  have hbyte : (d.read (metaAt rs k + 1) rs[k].2.length)[(j : Nat)]? = rs[k].2[(j : Nat)]? :=
    congrArg (·[(j : Nat)]?) hdata
  rw [Disk.read_eq_map, List.getElem?_map, List.getElem?_range j.isLt,
    List.getElem?_eq_getElem j.isLt] at hbyte
  exact heq.trans (Option.some.inj hbyte).symm

/-- A changed size is rejected, or does not fit the checksum of the superblock. -/
theorem IsImage.size_caught (j : Fin 4) (hv : v ≠ d (metaAt rs k) (64 + j))
    (hsame : sectorsFor (setByte (UInt32.ofNat rs[k].2.length) j v).toNat
        = sectorsFor rs[k].2.length ∨ k + 1 = rs.length) :
    (persistLoadV2 (d.corrupt (metaAt rs k, 64 + j) v) (checksum 0 rs) rs.length 1 0 fs).1 ≠ 0 := by
  intro hrc
  obtain ⟨-, hsize, hcrc, -⟩ := h.read_file k
  have hmeta : persistReadMeta (d.corrupt (metaAt rs k, 64 + j) v) (metaAt rs k)
      = ⟨(persistReadMeta d (metaAt rs k)).path, setByte (persistReadMeta d (metaAt rs k)).size j v,
        (persistReadMeta d (metaAt rs k)).crc32⟩ := by
    rw [persistReadMeta, Disk.corrupt_self]
    exact sectorMeta_update_size (h.path_lt hload k) v j
  have hlen := length_diskRec (d.corrupt (metaAt rs k, 64 + j) v) (metaAt rs k)
  obtain ⟨-, hfit, hsum⟩ := h.accepted_at k
    (fun t ht => Disk.corrupt_of_ne d (by dsimp only [metaAt]; omega) v) hrc
  rw [hmeta, hcrc] at hfit
  rw [hmeta, hsize] at hlen
  -- the files behind are read as before
  have hpost : diskRecs (d.corrupt (metaAt rs k, 64 + j) v) (rs.drop (k + 1)).length
      (metaAt rs k + recLen (diskRec (d.corrupt (metaAt rs k, 64 + j) v) (metaAt rs k)))
        = rs.drop (k + 1) := by
    obtain hsectors | hlast := hsame
    · have hnext : recLen (diskRec (d.corrupt (metaAt rs k, 64 + j) v) (metaAt rs k))
          = recLen rs[k] := by
        rw [recLen, hlen, hsectors, recLen]
      rw [hnext]
      have hholds : HoldsRecs true (d.corrupt (metaAt rs k, 64 + j) v)
          (metaAt rs k + recLen rs[k]) (rs.drop (k + 1)) :=
        (h.parts k).2.2.congr fun t _ => Disk.corrupt_of_ne d (by dsimp only [recLen]; omega) v
      have hrecs := diskRecs_of_holds hholds 0
      rwa [Nat.add_zero, diskRecs, List.append_nil] at hrecs
    · rw [hlast, List.drop_length]
      rfl
  have hsplit : rs.take k ++ rs[k] :: rs.drop (k + 1) = rs := by simp
  rw [hpost] at hsum
  have hword := size_eq_of_checksum hfit (hsum.trans (congrArg (checksum 0) hsplit.symm))
  rw [hlen, UInt32.ofNat_toNat] at hword
  refine setByte_ne j.isLt ?_ hword
  rw [← hsize]
  exact fun heq => hv (heq.trans (u32Byte_u32 _ _ j.isLt))

/-- A size out of range is rejected. -/
theorem IsImage.size_rejected (j : Fin 4)
    (hout : (setByte (UInt32.ofNat rs[k].2.length) j v).toNat = 0 ∨
      ramfsFileSize < (setByte (UInt32.ofNat rs[k].2.length) j v).toNat) :
    (persistLoadV2 (d.corrupt (metaAt rs k, 64 + j) v) superCrc rs.length 1 0 fs).1 ≠ 0 := by
  intro hrc
  obtain ⟨-, hsize, -, -⟩ := h.read_file k
  have hlen : (diskRec (d.corrupt (metaAt rs k, 64 + j) v) (metaAt rs k)).2.length
      = (setByte (UInt32.ofNat rs[k].2.length) j v).toNat := by
    rw [length_diskRec, persistReadMeta, Disk.corrupt_self,
      sectorMeta_update_size (h.path_lt hload k) v j, ← hsize]
    rfl
  obtain ⟨⟨hpos, hle⟩, -, -⟩ := h.accepted_at k
    (fun t ht => Disk.corrupt_of_ne d (by dsimp only [metaAt]; omega) v) hrc
  rw [hlen] at hpos hle
  omega

/-- Behind the terminator of a path anything may stand. -/
theorem IsImage.path_harmless {j : Nat} (hj : j < 64) (hoff : rs[k].1.length < j) :
    IsImage (d.corrupt (metaAt rs k, j) v) rs := by
  have hmeta : sectorMeta (d.corrupt (metaAt rs k, j) v (metaAt rs k))
      = sectorMeta (d (metaAt rs k)) := by
    rw [Disk.corrupt_self]
    refine sectorMeta_update_path (h.path_lt hload k) v hj ?_
    rwa [show (sectorMeta (d (metaAt rs k))).path = rs[k].1 from (h.read_file k).1]
  constructor
  · rw [← h.super, persistReadSuper, persistReadSuper,
      Disk.corrupt_of_ne d (show 0 ≠ metaAt rs k by rw [metaAt]; omega) v]
  · obtain ⟨hpre, hrec, hpost⟩ := h.parts k
    have hsplit : rs.take k ++ rs[k] :: rs.drop (k + 1) = rs := by simp
    have hall : HoldsRecs true (d.corrupt (metaAt rs k, j) v) 1
        (rs.take k ++ rs[k] :: rs.drop (k + 1)) := by
      rw [holdsRecs_append, holdsRecs_cons]
      refine ⟨hpre.congr fun t ht => Disk.corrupt_of_ne d (by dsimp only [metaAt]; omega) v, ?_,
        hpost.congr fun t _ => Disk.corrupt_of_ne d ?_ v⟩
      · intro i hi
        cases i with
        | zero =>
          have hzero : RecFits true rs[k] 0 (d (metaAt rs k)) := hrec 0 hi
          show RecFits true rs[k] 0 (d.corrupt (metaAt rs k, j) v (metaAt rs k))
          rw [RecFits, hmeta]
          exact hzero
        | succ i =>
          show RecFits true rs[k] (i + 1) (d.corrupt (metaAt rs k, j) v (metaAt rs k + (i + 1)))
          rw [Disk.corrupt_of_ne d (show metaAt rs k + (i + 1) ≠ metaAt rs k by omega) v]
          exact hrec (i + 1) hi
      · show metaAt rs k + recLen rs[k] + t ≠ metaAt rs k
        rw [recLen]
        omega
    rwa [hsplit] at hall

end Files

/-! ## A changed superblock -/

section Super

variable {d : Disk} {rs : List FileRec} (h : IsImage d rs)

include h

/-- The superblock, if the change is elsewhere. -/
theorem IsImage.super_corrupt {place : Nat × Nat} (hplace : 0 ≠ place.1) (v : UInt8) :
    persistReadSuper (d.corrupt place v)
      = ⟨persistMagic, persistVersionAos2, UInt32.ofNat rs.length, checksum 0 rs⟩ := by
  rw [← h.super, persistReadSuper, persistReadSuper, Disk.corrupt_of_ne d hplace v]

theorem IsImage.super_fileCount (j : Fin 4) (v : UInt8) :
    persistReadSuper (d.corrupt (0, 8 + j) v)
      = ⟨persistMagic, persistVersionAos2, setByte (UInt32.ofNat rs.length) j v,
        checksum 0 rs⟩ := by
  have hj := j.isLt
  have hsuper := h.super
  rw [persistReadSuper] at hsuper ⊢
  obtain ⟨hmagic, hversion, hcount, hsum⟩ := PersistSuper.mk.inj hsuper
  rw [Disk.corrupt_self, Buf.u32_update_of_ne _ (.inr (by omega)) v,
    Buf.u32_update_of_ne _ (.inr (by omega)) v, Buf.u32_update,
    Buf.u32_update_of_ne _ (.inl (by omega)) v, hmagic, hversion, hcount, hsum]

theorem IsImage.super_checksum (j : Fin 4) (v : UInt8) :
    persistReadSuper (d.corrupt (0, 12 + j) v)
      = ⟨persistMagic, persistVersionAos2, UInt32.ofNat rs.length,
        setByte (checksum 0 rs) j v⟩ := by
  have hsuper := h.super
  rw [persistReadSuper] at hsuper ⊢
  obtain ⟨hmagic, hversion, hcount, hsum⟩ := PersistSuper.mk.inj hsuper
  rw [Disk.corrupt_self, Buf.u32_update_of_ne _ (.inr (by omega)) v,
    Buf.u32_update_of_ne _ (.inr (by omega)) v, Buf.u32_update_of_ne _ (.inr (by omega)) v,
    Buf.u32_update, hmagic, hversion, hcount, hsum]

/-- The sectors of the files are as before. -/
theorem IsImage.holds_corrupt (off : Nat) (v : UInt8) :
    HoldsRecs true (d.corrupt (0, off) v) 1 rs :=
  h.holds.congr fun t _ => Disk.corrupt_of_ne d (show 1 + t ≠ 0 by omega) v

/-- A changed checksum does not fit the files. -/
theorem IsImage.checksum_caught (off : Nat) (v : UInt8) {superCrc : UInt32} {fs : Ramfs}
    (hne : superCrc ≠ checksum 0 rs) :
    (persistLoadV2 (d.corrupt (0, off) v) superCrc rs.length 1 0 fs).1 ≠ 0 := by
  intro hrc
  have hrecs := diskRecs_of_holds (h.holds_corrupt off v) 0
  rw [Nat.add_zero, diskRecs, List.append_nil] at hrecs
  have hsum := loadV2_checksum hrc
  rw [hrecs] at hsum
  exact hne hsum.symm

/-- Fewer files do not fit the checksum, unless those left out cancel. -/
theorem IsImage.fewer_caught (off : Nat) (v : UInt8) {n : Nat} (hn : n < rs.length) {fs : Ramfs}
    (hdrop : checksum 0 (rs.drop n) ≠ 0) :
    (persistLoadV2 (d.corrupt (0, off) v) (checksum 0 rs) n 1 0 fs).1 ≠ 0 := by
  intro hrc
  have hholds := h.holds_corrupt off v
  rw [← List.take_append_drop n rs, holdsRecs_append] at hholds
  have hrecs := diskRecs_of_holds hholds.1 0
  rw [Nat.add_zero, diskRecs, List.append_nil, List.length_take, Nat.min_eq_left hn.le] at hrecs
  have hsum := loadV2_checksum hrc
  rw [hrecs] at hsum
  exact hdrop ((checksum_take_eq_iff rs n).mp hsum)

/-- More files are not there, if no size in range stands behind the image. -/
theorem IsImage.more_caught (off : Nat) (v : UInt8) {n : Nat} (hn : rs.length < n)
    {superCrc : UInt32} {fs : Ramfs} (hbehind : ¬ (diskRec d (1 + imageLen rs)).SizeOk) :
    (persistLoadV2 (d.corrupt (0, off) v) superCrc n 1 0 fs).1 ≠ 0 := by
  intro hrc
  obtain ⟨m, rfl⟩ : ∃ m, n = rs.length + (m + 1) := ⟨n - rs.length - 1, by omega⟩
  have hrecs := diskRecs_of_holds (h.holds_corrupt off v) (m + 1)
  obtain ⟨-, hsize⟩ := loadV2_holds hrc
  rw [hrecs, diskRecs] at hsize
  have hsame : ∀ t, d.corrupt (0, off) v (1 + t) = d (1 + t) := fun t =>
    Disk.corrupt_of_ne d (show 1 + t ≠ 0 by omega) v
  have hrec : diskRec (d.corrupt (0, off) v) (1 + imageLen rs) = diskRec d (1 + imageLen rs) := by
    rw [diskRec, diskRec, persistReadMeta, persistReadMeta, hsame]
    congr 1
    refine Disk.read_congr (fun i => ?_) _
    rw [Nat.add_assoc, Nat.add_assoc, hsame]
  refine hbehind ?_
  rw [← hrec]
  exact hsize _ (List.mem_append_right _ List.mem_cons_self)

end Super

/-! ## Every field -/

/-- The disk `d` after a sync. -/
def syncedDisk (junk : Nat → Buf) (d : Disk) (fs : Ramfs) : Disk :=
  d.writeAll (persistSync true junk fs).2

/-- A load from the disk succeeds with other files than the records. -/
def LoadsOther (junk : Nat → Buf) (mem : Ramfs) (d : Disk) (rs : List FileRec) : Prop :=
  (reboot true junk mem d).rc = 0 ∧ (reboot true junk mem d).fs.userFiles ≠ { r | r ∈ rs }

section Caught

variable {d : Disk} {rs : List FileRec} {junk : Nat → Buf} {mem : Ramfs}

theorem not_loadsOther_of_rejected {fileCount superCrc : UInt32}
    (hsuper : persistReadSuper d = ⟨persistMagic, persistVersionAos2, fileCount, superCrc⟩)
    {n : Nat} (hn : loopCount fileCount = n)
    (hrc : (persistLoadV2 d superCrc n 1 0 (ramfsInit mem)).1 ≠ 0) :
    ¬ LoadsOther junk mem d rs := by
  rintro ⟨hzero, -⟩
  rw [reboot_aos2 junk mem hsuper hn] at hzero
  exact hrc hzero

/-- **A change that is caught** never leads to other files. -/
theorem IsImage.caught (h : IsImage d rs) (hload : ∀ r ∈ rs, r.Loadable)
    (hcount : rs.length ≤ 62) (hsys : ∀ r ∈ rs, underSys r.1 = false) {spot : Spot rs} {v : UInt8}
    (hv : v ≠ d spot.place.1 spot.place.2) (hcaught : spot.Caught d v) :
    ¬ LoadsOther junk mem (d.corrupt spot.place v) rs := by
  have hloop : loopCount (UInt32.ofNat rs.length) = rs.length :=
    loopCount_ofNat (hcount.trans_lt (by decide))
  have hmeta : ∀ k : Nat, 0 ≠ metaAt rs k := fun k => by
    rw [metaAt]
    omega
  cases spot with
  | fileCount j =>
    have hsuper := h.super_fileCount j v
    obtain ⟨hn, hcons⟩ | ⟨hn, hdrop⟩ | ⟨hn, hbehind⟩ := hcaught
    · rintro ⟨-, hother⟩
      obtain ⟨fs, hrun, hfiles⟩ :=
        loadV2_ramfsInit hload hcount hcons hsys (h.holds_corrupt (8 + j) v) mem
      have hboot := reboot_aos2 junk mem hsuper hn
      dsimp only at hboot
      rw [hrun] at hboot
      refine hother ?_
      show (OpenAgentOS.reboot true junk mem (d.corrupt (0, 8 + j) v)).fs.userFiles = _
      rw [hboot]
      exact hfiles
    · exact not_loadsOther_of_rejected hsuper rfl (h.fewer_caught _ v hn hdrop)
    · exact not_loadsOther_of_rejected hsuper rfl (h.more_caught _ v hn hbehind)
  | checksum j =>
    refine not_loadsOther_of_rejected (h.super_checksum j v) hloop ?_
    refine h.checksum_caught _ v (setByte_ne j.isLt fun heq => hv ?_)
    have hsum : (d 0).u32 12 = OpenAgentOS.checksum 0 rs := congrArg PersistSuper.checksum h.super
    rw [heq, ← hsum]
    exact u32Byte_u32 _ _ j.isLt
  | path k j =>
    obtain ⟨hcons, hoff⟩ := hcaught
    rintro ⟨-, hother⟩
    exact hother (IsImage.reboot_of_loadable hload hcount hcons hsys
      (h.path_harmless hload k j.isLt hoff) junk mem).2
  | size k j =>
    refine not_loadsOther_of_rejected (h.super_corrupt (hmeta k) v) hloop ?_
    obtain hzero | hlarge | hsame | hlast := hcaught
    · exact h.size_rejected hload k j (.inl hzero)
    · exact h.size_rejected hload k j (.inr hlarge)
    · exact h.size_caught hload k j hv (.inl hsame)
    · exact h.size_caught hload k j hv (.inr hlast)
  | crc32 k j =>
    refine not_loadsOther_of_rejected (h.super_corrupt (hmeta k) v) hloop ?_
    exact h.crc32_caught hload k j hv
  | data k j =>
    have hplace : 0 ≠ (Spot.place (.data k j)).1 := by
      show 0 ≠ metaAt rs k + 1 + j / sectorSize
      exact (Nat.lt_of_lt_of_le (Nat.succ_pos _) (Nat.le_add_right _ _)).ne
    refine not_loadsOther_of_rejected (h.super_corrupt hplace v) hloop ?_
    exact h.data_caught hload k j hv

end Caught

/-- One file of one byte. -/
def oneFile : Ramfs := (ramfsInit zeroMem).run [.put (.lit "/a") [1]]

/-- Its byte on the disk. -/
def oneFileData : Spot oneFile.userRecs := .data ⟨0, by decide +kernel⟩ ⟨0, by decide +kernel⟩

/-- The letter of its name. -/
def oneFileName : Spot oneFile.userRecs := .path ⟨0, by decide +kernel⟩ 1

end OpenAgentOS
