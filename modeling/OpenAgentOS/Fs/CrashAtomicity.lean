import OpenAgentOS.Fs.RoundTrip

/-!
# A power cut during a sync

A sync overwrites the metadata and data sectors of the old image in place and
writes the superblock last. A power cut leaves a prefix of its sector writes on
the disk: an image that is new up to some sector and old behind it, under the
old superblock, unless all writes were done.

- `CrashAtomic`: after a cut at any point a reboot succeeds and brings back
  either the old or the new files.
- `crashAtomic_of_related`: this holds when the disk carries no file system yet,
  or when one of the two record lists, the old one and the new one, is a prefix
  of the other, so that no record is overwritten by a different one.
- `related_of_crashAtomic`: on an AOS2 disk nothing else protects the old image.
  If the lists differ at some record, the cut right behind its metadata sector
  is survived only if the old bytes there have by chance the checksum of the new
  content.
-/

namespace OpenAgentOS

open CString Crc32

/-- Cut at any point, a sync leaves a disk on which a reboot succeeds and brings
back the files of before or those that were to be saved. -/
def CrashAtomic (junk junk' : Nat → Buf) (mem : Ramfs) (d : Disk) (fs : Ramfs) : Prop :=
  ∀ k, let out := reboot true junk' mem (d.writeAll ((persistSync true junk fs).2.take k))
    out.rc = 0 ∧ (out.fs.userFiles = (reboot true junk' mem d).fs.userFiles ∨
      out.fs.userFiles = fs.userFiles)

/-- The disk carries no file system. -/
def Blank (d : Disk) : Prop := (persistReadSuper d).magic ≠ persistMagic

/-- The records on a disk, as its superblock counts them. -/
def heldRecs (d : Disk) : List FileRec := diskRecs d (persistReadSuper d).count 1

/-- One list is a prefix of the other. -/
def PrefixRelated (rs ws : List FileRec) : Prop := rs <+: ws ∨ ws <+: rs

/-- The old bytes at the place of the first record that changes have the checksum
of its new content. -/
def CrcCoincidence (d : Disk) (fs : Ramfs) : Prop :=
  ∃ common old new, old ≠ new ∧ common ++ [old] <+: heldRecs d ∧
    common ++ [new] <+: fs.userRecs ∧
    crc32 (d.read (2 + imageLen common) new.2.length) = crc32 new.2

/-! ## The disk after a cut -/

/-- The sync was cut before the superblock. -/
theorem take_sync (junk : Nat → Buf) (fs : Ramfs) {k : Nat} (hk : k ≤ imageLen fs.userRecs) :
    (persistSync true junk fs).2.take k
      = seqWrites 1 ((imageSectors junk 0 fs.userRecs).take k) := by
  rw [persistSync_eq]
  dsimp only
  rw [List.take_append_of_le_length (by rwa [length_seqWrites, length_imageSectors]),
    seqWrites_take]

/-- The sync was not cut. -/
theorem take_sync_all (junk : Nat → Buf) (fs : Ramfs) {k : Nat}
    (hk : imageLen fs.userRecs < k) :
    (persistSync true junk fs).2.take k = (persistSync true junk fs).2 := by
  rw [persistSync_eq]
  dsimp only
  refine List.take_of_length_le ?_
  rw [List.length_append, length_seqWrites, length_imageSectors]
  exact hk

section Cut

variable (junk : Nat → Buf) (d : Disk) (fs : Ramfs) {k : Nat} (hk : k ≤ imageLen fs.userRecs)

include hk

/-- The superblock is the old one. -/
theorem super_after_cut :
    persistReadSuper (d.writeAll ((persistSync true junk fs).2.take k)) = persistReadSuper d := by
  have hzero : d.writeAll ((persistSync true junk fs).2.take k) 0 = d 0 := by
    rw [take_sync junk fs hk, writeAll_seqWrites_of_lt d _ Nat.one_pos]
  rw [persistReadSuper, persistReadSuper, hzero]

/-- Sectors the cut sync has reached are new. -/
theorem sector_before_cut {t : Nat} (ht : t < k) :
    ∃ h : t < (imageSectors junk 0 fs.userRecs).length,
      d.writeAll ((persistSync true junk fs).2.take k) (1 + t)
        = (imageSectors junk 0 fs.userRecs)[t] := by
  have hlen : t < (imageSectors junk 0 fs.userRecs).length := by
    rw [length_imageSectors]
    omega
  refine ⟨hlen, ?_⟩
  have htake : t < ((imageSectors junk 0 fs.userRecs).take k).length := by
    rw [List.length_take]
    omega
  rw [take_sync junk fs hk, writeAll_seqWrites_getElem d 1 _ htake, List.getElem_take]

/-- Sectors it has not reached are old. -/
theorem sector_behind_cut {t : Nat} (ht : k ≤ t) :
    d.writeAll ((persistSync true junk fs).2.take k) (1 + t) = d (1 + t) := by
  rw [take_sync junk fs hk, writeAll_seqWrites_of_ge]
  rw [List.length_take]
  omega

/-- Records that agree with the new ones as far as both go survive the cut. -/
theorem holdsRecs_after_cut {checked : Bool} {rs : List FileRec}
    (hrel : PrefixRelated rs fs.userRecs) (hold : HoldsRecs checked d 1 rs) :
    HoldsRecs checked (d.writeAll ((persistSync true junk fs).2.take k)) 1 rs := by
  intro t ht
  by_cases hcut : t < k
  · obtain ⟨hlen, hsector⟩ := sector_before_cut junk d fs hk hcut
    rw [hsector]
    have hfits := imageSectors_fits junk 0 (storable_userRecs fs) hlen
    rw [length_imageSectors] at hlen
    -- what the sector is expected to be depends on the common part only
    obtain ⟨more, hmore⟩ | ⟨more, hmore⟩ := hrel
    · suffices Fits checked (rs ++ more) t _ from (fits_append ht).mp this
      rw [hmore]
      exact hfits.weaken
    · rw [← hmore, fits_append hlen]
      exact hfits.weaken
  · rw [sector_behind_cut junk d fs hk (Nat.not_lt.mp hcut)]
    exact hold t ht

end Cut

/-! ## Related images survive -/

/-- A reboot that accepts an AOS2 disk has loaded it. -/
theorem loadV2_of_accepted {d : Disk} {junk : Nat → Buf} {mem : Ramfs} {n : Nat}
    (hmagic : (persistReadSuper d).magic = persistMagic)
    (hver : (persistReadSuper d).version = persistVersionAos2)
    (hn : (persistReadSuper d).count = n) (hacc : (reboot true junk mem d).rc = 0) :
    (persistLoadV2 d (persistReadSuper d).checksum n 1 0 (ramfsClearUser (ramfsInit mem))).1
      = 0 := by
  rwa [reboot, persistLoad_aos2 hmagic hver hn] at hacc

/-- A reboot that accepts an AOS1 disk has loaded it. -/
theorem loadV1_of_accepted {d : Disk} {junk : Nat → Buf} {mem : Ramfs} {n : Nat}
    (hmagic : (persistReadSuper d).magic = persistMagic)
    (hver : (persistReadSuper d).version = persistVersionAos1)
    (hn : (persistReadSuper d).count = n) (hacc : (reboot true junk mem d).rc = 0) :
    (persistLoadV1 d n 1 (ramfsClearUser (ramfsInit mem))).1 = 0 := by
  rw [reboot, persistLoad_aos1 hmagic hver hn] at hacc
  by_contra hne
  dsimp only at hacc
  rw [if_pos hne] at hacc
  exact hne hacc

/-- A reboot depends only on the superblock and the records the disk holds. -/
theorem reboot_congr {d d' : Disk} (junk : Nat → Buf) (mem : Ramfs)
    (hacc : (reboot true junk mem d).rc = 0)
    (hsuper : persistReadSuper d' = persistReadSuper d)
    (hholds : ∀ checked, HoldsRecs checked d 1 (heldRecs d) →
      HoldsRecs checked d' 1 (heldRecs d)) :
    reboot true junk mem d' = reboot true junk mem d := by
  have hmagic' := congrArg PersistSuper.magic hsuper
  have hver' := congrArg PersistSuper.version hsuper
  obtain ⟨n, hn⟩ : ∃ n, (persistReadSuper d).count = n := ⟨_, rfl⟩
  have hn' := (congrArg PersistSuper.count hsuper).trans hn
  rw [heldRecs, hn] at hholds
  by_cases hmagic : (persistReadSuper d).magic = persistMagic
  · by_cases hv1 : (persistReadSuper d).version = persistVersionAos1
    · have hrc := loadV1_of_accepted hmagic hv1 hn hacc
      rw [reboot, reboot, persistLoad_aos1 hmagic hv1 hn,
        persistLoad_aos1 (hmagic'.trans hmagic) (hver'.trans hv1) hn',
        loadV1_congr hrc (hholds false)]
    · by_cases hv2 : (persistReadSuper d).version = persistVersionAos2
      · have hrc := loadV2_of_accepted hmagic hv2 hn hacc
        rw [reboot, reboot, persistLoad_aos2 hmagic hv2 hn,
          persistLoad_aos2 (hmagic'.trans hmagic) (hver'.trans hv2) hn', hsuper,
          loadV2_congr hrc (hholds true)]
      · -- an unknown version is not accepted
        rw [reboot, persistLoad] at hacc
        dsimp only at hacc
        rw [if_neg (by decide), if_neg (not_not.mpr hmagic), if_neg hv1, if_neg hv2] at hacc
        cases hacc
  · have hblank' : (persistReadSuper d').magic ≠ persistMagic := by rwa [hmagic']
    rw [reboot, reboot, persistLoad_blank hmagic, persistLoad_blank hblank']

/-- **Related images survive a power cut**: no record is overwritten by a
different one, so every cut before the superblock leaves the old files, and
after it the new ones are there. -/
theorem crashAtomic_of_related (junk junk' : Nat → Buf) (mem : Ramfs) {d : Disk} {fs : Ramfs}
    (hcount : fs.userRecs.length ≤ 62) (hacc : (reboot true junk' mem d).rc = 0)
    (hp : Persistable fs) (hrel : Blank d ∨ PrefixRelated (heldRecs d) fs.userRecs) :
    CrashAtomic junk junk' mem d fs := by
  intro k
  by_cases hk : k ≤ imageLen fs.userRecs
  · have hsuper := super_after_cut junk d fs hk
    have hsame : reboot true junk' mem (d.writeAll ((persistSync true junk fs).2.take k))
        = reboot true junk' mem d := by
      obtain hblank | hrel := hrel
      · have hblank' := hblank
        rw [Blank, ← hsuper] at hblank'
        rw [reboot, reboot, persistLoad_blank hblank, persistLoad_blank hblank']
      · exact reboot_congr junk' mem hacc hsuper fun _ hheld =>
          holdsRecs_after_cut junk d fs hk hrel hheld
    dsimp only
    rw [hsame]
    exact ⟨hacc, .inl rfl⟩
  · obtain ⟨hrc, hfiles⟩ := reboot_of_persistable junk junk' mem d hcount hp
    dsimp only
    rw [take_sync_all junk fs (Nat.not_le.mp hk)]
    exact ⟨hrc, .inr hfiles⟩

/-! ## Nothing else protects the old image -/

/-- Two lists are prefixes of one another, or differ behind a common part. -/
theorem prefixRelated_or_diverge (rs ws : List FileRec) :
    PrefixRelated rs ws ∨ ∃ common old new, old ≠ new ∧ common ++ [old] <+: rs ∧
      common ++ [new] <+: ws := by
  induction rs generalizing ws with
  | nil => exact .inl (.inl List.nil_prefix)
  | cons r rs ih =>
    cases ws with
    | nil => exact .inl (.inr List.nil_prefix)
    | cons w ws =>
      by_cases hrw : r = w
      · subst hrw
        obtain (h | h) | ⟨common, old, new, hne, hold, hnew⟩ := ih ws
        · exact .inl (.inl (List.cons_prefix_cons.mpr ⟨rfl, h⟩))
        · exact .inl (.inr (List.cons_prefix_cons.mpr ⟨rfl, h⟩))
        · exact .inr ⟨r :: common, old, new, hne, List.cons_prefix_cons.mpr ⟨rfl, hold⟩,
            List.cons_prefix_cons.mpr ⟨rfl, hnew⟩⟩
      · exact .inr ⟨[], r, w, hrw, by simp, by simp⟩

/-- **Only a checksum coincidence saves a changed record**: if an AOS2 disk survives
every cut and the record lists differ somewhere, the old bytes at the first
record that changes have the checksum of its new content. -/
theorem related_of_crashAtomic (junk junk' : Nat → Buf) (mem : Ramfs) {d : Disk} {fs : Ramfs}
    (hatomic : CrashAtomic junk junk' mem d fs)
    (hmagic : (persistReadSuper d).magic = persistMagic)
    (hver : (persistReadSuper d).version = persistVersionAos2) :
    PrefixRelated (heldRecs d) fs.userRecs ∨ CrcCoincidence d fs := by
  obtain hrel | ⟨common, old, new, hne, hold, hnew⟩ :=
    prefixRelated_or_diverge (heldRecs d) fs.userRecs
  · exact .inl hrel
  · refine .inr ⟨common, old, new, hne, hold, hnew, ?_⟩
    obtain ⟨more, hmore⟩ := hnew
    rw [List.append_assoc, List.singleton_append] at hmore
    -- cut right behind the metadata sector of the new record
    have hk : imageLen common + 1 ≤ imageLen fs.userRecs := by
      rw [← hmore, imageLen_append]
      simp only [imageLen, List.map_cons, List.sum_cons, recLen]
      omega
    have hsuper := super_after_cut junk d fs hk
    obtain ⟨hrc, -⟩ := hatomic (imageLen common + 1)
    obtain ⟨m, hm⟩ : ∃ m, (persistReadSuper d).count = common.length + (m + 1) := by
      have hlen := hold.length_le
      rw [heldRecs, length_diskRecs, List.length_append, List.length_singleton] at hlen
      exact ⟨(persistReadSuper d).count - common.length - 1, by omega⟩
    have hbehind := fun t (ht : imageLen common + 1 ≤ t) => sector_behind_cut junk d fs hk ht
    have hbefore := fun t (ht : t < imageLen common + 1) => sector_before_cut junk d fs hk ht
    generalize d.writeAll ((persistSync true junk fs).2.take (imageLen common + 1)) = d'
      at hsuper hrc hbehind hbefore
    obtain ⟨hheld, -⟩ := loadV2_holds
      (loadV2_of_accepted (by rw [hsuper, hmagic]) (by rw [hsuper, hver]) (by rw [hsuper, hm]) hrc)
    -- every sector up to the cut is the new one
    have hfits : ∀ t, t < imageLen common + 1 → Fits true fs.userRecs t (d' (1 + t)) := by
      intro t ht
      obtain ⟨hlen, hsector⟩ := hbefore t ht
      rw [hsector]
      exact imageSectors_fits junk 0 (storable_userRecs fs) hlen
    have hcommon : HoldsRecs true d' 1 common := by
      intro t ht
      have := hfits t (by omega)
      rwa [← hmore, fits_append ht] at this
    obtain ⟨-, hsize, hcrc⟩ : RecFits true new 0 (d' (1 + imageLen common)) := by
      have := hfits (imageLen common) (Nat.lt_succ_self _)
      rwa [← hmore, fits_next] at this
    -- the loader has accepted the checksum of the old bytes behind it
    rw [diskRecs_of_holds hcommon, diskRecs, holdsRecs_append, holdsRecs_cons] at hheld
    obtain ⟨-, -, hcrc'⟩ := hheld.2.1 0 (Nat.succ_pos _)
    have hdata : (diskRec d' (1 + imageLen common)).2
        = d.read (2 + imageLen common) new.2.length := by
      show d'.read (1 + imageLen common + 1) _ = _
      rw [show (persistReadMeta d' (1 + imageLen common)).size.toNat = new.2.length from hsize,
        show 1 + imageLen common + 1 = 2 + imageLen common by omega]
      refine Disk.read_congr (fun j => ?_) _
      rw [show 2 + imageLen common + j = 1 + (imageLen common + 1 + j) by omega]
      exact hbehind _ (by omega)
    rw [← hdata, ← hcrc' rfl]
    exact hcrc rfl

/-- **Crash atomicity, both ways.** On any disk that a reboot accepts and after
any run: if the files are persistable, and the disk is blank or its records and
the new ones are prefixes of one another, every power cut is survived. On an
AOS2 disk nothing but a checksum coincidence can replace that last condition. -/
theorem crashAtomic_characterised (junk junk' : Nat → Buf) (mem mem' : Ramfs) (d : Disk)
    (calls : List RamfsCall) (hacc : (reboot true junk' mem' d).rc = 0) :
    let fs := (ramfsInit mem).run calls
    (Persistable fs → Blank d ∨ PrefixRelated (heldRecs d) fs.userRecs →
        CrashAtomic junk junk' mem' d fs) ∧
      (CrashAtomic junk junk' mem' d fs → (persistReadSuper d).version = persistVersionAos2 →
        Blank d ∨ PrefixRelated (heldRecs d) fs.userRecs ∨ CrcCoincidence d fs) := by
  have hcount : ((ramfsInit mem).run calls).userRecs.length ≤ 62 := by
    rw [length_userRecs]
    exact userCount_run_le mem calls
  refine ⟨fun hp hrel => crashAtomic_of_related junk junk' mem' hcount hacc hp hrel,
    fun hatomic hver => ?_⟩
  by_cases hmagic : (persistReadSuper d).magic = persistMagic
  · exact .inr (related_of_crashAtomic junk junk' mem' hatomic hmagic hver)
  · exact .inl hmagic

/-! ## A changed file is lost -/

/-- A file of agent 3. -/
def notePath : CStr := .lit "/agent/3/note"

/-- A file system with this file only. -/
def noteFs (content : List UInt8) : Ramfs := (ramfsInit zeroMem).run [.put notePath content]

/-- The disk after saving it. -/
def noteDisk (content : List UInt8) : Disk :=
  zeroDisk.writeAll (persistSync true zeroJunk (noteFs content)).2

/-- The disk after changing the file and cutting the next sync behind its first
write. -/
def tornDisk : Disk := (noteDisk [1]).writeAll ((persistSync true zeroJunk (noteFs [2])).2.take 1)

theorem noteDisk_accepted : (reboot true zeroJunk zeroMem (noteDisk [1])).rc = 0 := by
  decide +kernel

theorem tornDisk_rejected : (reboot true zeroJunk zeroMem tornDisk).rc = eio := by
  decide +kernel

theorem visible_noteDisk :
    (reboot true zeroJunk zeroMem (noteDisk [1])).fs.visible notePath = some [1] := by
  decide +kernel

theorem visible_tornDisk : (reboot true zeroJunk zeroMem tornDisk).fs.visible notePath = none := by
  decide +kernel

/-- Changing one byte of the only file and losing power behind the first sector
write loses the file: the disk is rejected, and neither the old nor the new
content is there. -/
theorem not_crashAtomic_note :
    (reboot true zeroJunk zeroMem (noteDisk [1])).rc = 0 ∧
      (reboot true zeroJunk zeroMem tornDisk).rc = eio ∧
      (reboot true zeroJunk zeroMem tornDisk).fs.userFiles
        ≠ (reboot true zeroJunk zeroMem (noteDisk [1])).fs.userFiles ∧
      (reboot true zeroJunk zeroMem tornDisk).fs.userFiles ≠ (noteFs [2]).userFiles ∧
      ¬ CrashAtomic zeroJunk zeroJunk zeroMem (noteDisk [1]) (noteFs [2]) := by
  have hold : (notePath, [1]) ∈ (reboot true zeroJunk zeroMem (noteDisk [1])).fs.userFiles :=
    mem_userFiles_of_visible (by decide) visible_noteDisk
  have hnew : (notePath, [2]) ∈ (noteFs [2]).userFiles :=
    mem_userFiles_of_visible (by decide) (by decide +kernel)
  have hlost := not_mem_userFiles visible_tornDisk
  refine ⟨noteDisk_accepted, tornDisk_rejected, ?_, ?_, ?_⟩
  · intro heq
    rw [← heq] at hold
    exact hlost [1] hold
  · intro heq
    rw [← heq] at hnew
    exact hlost [2] hnew
  · intro hatomic
    have hrc := tornDisk_rejected.symm.trans (hatomic 1).1
    exact absurd hrc (by decide)

/-- The disk of the example above is one the characterisation applies to. -/
theorem crashAtomic_characterised_note :
    (reboot true zeroJunk zeroMem (noteDisk [1])).rc = 0 ∧
      ((Persistable (noteFs [2]) →
          Blank (noteDisk [1]) ∨ PrefixRelated (heldRecs (noteDisk [1])) (noteFs [2]).userRecs →
          CrashAtomic zeroJunk zeroJunk zeroMem (noteDisk [1]) (noteFs [2])) ∧
        (CrashAtomic zeroJunk zeroJunk zeroMem (noteDisk [1]) (noteFs [2]) →
          (persistReadSuper (noteDisk [1])).version = persistVersionAos2 →
          Blank (noteDisk [1]) ∨ PrefixRelated (heldRecs (noteDisk [1])) (noteFs [2]).userRecs ∨
            CrcCoincidence (noteDisk [1]) (noteFs [2]))) :=
  ⟨noteDisk_accepted, crashAtomic_characterised zeroJunk zeroJunk zeroMem zeroMem (noteDisk [1])
    [.put notePath [2]] noteDisk_accepted⟩

end OpenAgentOS
