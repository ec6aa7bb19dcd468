import OpenAgentOS.Lib.Span
import OpenAgentOS.Ota.Signing

/-!
# Offsets and sizes in OTA packages (kernel/ota.c)

The manifest says where the image starts and how long it is. `ota_parse_package` compares the sum of
the two words with the length of the file, and the sum wraps.

- `otaPackageSigReads`, `otaComputeHmacReads`: the ranges of the package that the two signatures go
  over (`otaPackageSig_congr`, `otaComputeHmac_congr`).
- `otaSignatureReads_within`: without a wrap, the signature that is computed stays inside the package,
  whether it turns out right or not.
- `otaParsePackage_bounds_iff`: for a package that is accepted, offset and size are in bounds exactly
  if their sum does not wrap. `not_otaParsePackage_bounds`: an accepted package whose image is at the
  end of the address range.
-/

namespace OpenAgentOS

open CInt CString

/-! ## What the signatures read -/

/-- The bytes of the package that `ota_package_sig` (ota.c:98) reads. -/
def otaPackageSigReads (elfOffset total : UInt32) : List Span :=
  [⟨0, otaManifestSize⟩]
    ++ (if 128 < elfOffset then [⟨otaManifestSize, elfOffset.toNat - otaManifestSize⟩] else [])
    ++ if elfOffset < total then [⟨elfOffset.toNat, total.toNat - elfOffset.toNat⟩] else []

/-- The bytes of the package that `ota_compute_hmac` (ota.c:116) reads. -/
def otaComputeHmacReads (len : Nat) : List Span :=
  if len < otaManifestSize then [⟨0, len⟩]
  else [⟨0, otaManifestSize⟩, ⟨otaManifestSize, len - otaManifestSize⟩]

/-- The bytes that `ota_parse_package` lets one of the two read: the checks in front of the signature
have to pass, and the format says which one it is. -/
def otaSignatureReads (m : OtaManifest) (len : Nat) : List Span :=
  if m.magic ≠ otaPkgMagic then []
  else if m.format ≠ otaFmtVersion ∧ m.format ≠ otaFmtSigned then []
  else if m.elfOffset < 128 then []
  else if UInt32.ofNat len < m.elfOffset + m.elfSize then []
  else if charAt m.installPath 0 ≠ '/'.toUInt8 then []
  else if m.format = otaFmtSigned then otaComputeHmacReads len
  else otaPackageSigReads m.elfOffset (UInt32.ofNat len)

theorem otaPackageSig_congr {b b' : Buf} {elfOffset total : UInt32}
    (h : b.AgreeOn b' (otaPackageSigReads elfOffset total)) :
    otaPackageSig b elfOffset total = otaPackageSig b' elfOffset total := by
  have hheader : (b.write 8 (u32Bytes 0)).slice 0 otaManifestSize =
      (b'.write 8 (u32Bytes 0)).slice 0 otaManifestSize :=
    Buf.slice_congr fun i hi => Buf.write_congr
      (h.left.left ⟨0, otaManifestSize⟩ List.mem_cons_self _
        ⟨Nat.zero_le _, Nat.add_lt_add_left hi 0⟩)
  rw [otaPackageSig, otaPackageSig, hheader]
  have hgap : ∀ crc, (if 128 < elfOffset then otaCrc32Update crc
        (b.slice otaManifestSize (elfOffset.toNat - otaManifestSize)) else crc) =
      if 128 < elfOffset then otaCrc32Update crc
        (b'.slice otaManifestSize (elfOffset.toNat - otaManifestSize)) else crc := by
    intro crc
    split_ifs with hgap
    · rw [h.left.right.slice_eq (by rw [if_pos hgap]; exact List.mem_cons_self)]
    · rfl
  have himage : ∀ crc, (if elfOffset < total then otaCrc32Update crc
        (b.slice elfOffset.toNat (total.toNat - elfOffset.toNat)) else crc) =
      if elfOffset < total then otaCrc32Update crc
        (b'.slice elfOffset.toNat (total.toNat - elfOffset.toNat)) else crc := by
    intro crc
    split_ifs with himage
    · rw [h.right.slice_eq (by rw [if_pos himage]; exact List.mem_cons_self)]
    · rfl
  rw [hgap, himage]

theorem otaComputeHmac_congr {sha256 : Sha256} {b b' : Buf} {len : Nat}
    (h : b.AgreeOn b' (otaComputeHmacReads len)) :
    otaComputeHmac sha256 b len = otaComputeHmac sha256 b' len := by
  rw [otaComputeHmacReads] at h
  rw [otaComputeHmac, otaComputeHmac]
  split_ifs at h ⊢ with hshort
  · rw [h.slice_eq List.mem_cons_self]
  · have hheader : (b.write 96 (List.replicate 32 0)).slice 0 otaManifestSize =
        (b'.write 96 (List.replicate 32 0)).slice 0 otaManifestSize :=
      Buf.slice_congr fun i hi => Buf.write_congr
        (h ⟨0, otaManifestSize⟩ List.mem_cons_self _ ⟨Nat.zero_le _, Nat.add_lt_add_left hi 0⟩)
    rw [hheader, h.slice_eq (List.mem_cons_of_mem _ List.mem_cons_self)]

/-! ## Bounds -/

/-- The end of the image, as a number that does not wrap. -/
def OtaManifest.imageEnd (m : OtaManifest) : Nat := m.elfOffset.toNat + m.elfSize.toNat

/-- The check of `ota_parse_package`, for a sum that does not wrap. -/
theorem imageEnd_le {m : OtaManifest} {len : Nat} (hlen : len < 2 ^ 32)
    (hfits : m.elfOffset + m.elfSize ≤ UInt32.ofNat len) (hwrap : m.imageEnd < 2 ^ 32) :
    m.imageEnd ≤ len := by
  rw [UInt32.le_iff_toNat_le, UInt32.toNat_add, UInt32.toNat_ofNat_of_lt' hlen] at hfits
  rw [OtaManifest.imageEnd] at hwrap ⊢
  rwa [Nat.mod_eq_of_lt hwrap] at hfits

theorem otaComputeHmacReads_within (len : Nat) : ∀ r ∈ otaComputeHmacReads len, r.Within len := by
  intro r hr
  rw [otaComputeHmacReads] at hr
  rw [Span.within_iff]
  split_ifs at hr with hshort
  · rw [List.mem_singleton.mp hr]
    exact .inr (Nat.zero_add len).le
  · rcases List.mem_cons.mp hr with rfl | hr
    · exact .inr (by simp only [otaManifestSize] at hshort ⊢; omega)
    · rw [List.mem_singleton.mp hr]
      exact .inr (by simp only [otaManifestSize] at hshort ⊢; omega)

theorem otaPackageSigReads_within {elfOffset : UInt32} {len : Nat} (hlen : len < 2 ^ 32)
    (hmanifest : otaManifestSize ≤ len) (hoffset : elfOffset.toNat ≤ len) :
    ∀ r ∈ otaPackageSigReads elfOffset (UInt32.ofNat len), r.Within len := by
  intro r hr
  rw [Span.within_iff]
  rw [otaPackageSigReads, List.mem_append, List.mem_append] at hr
  rcases hr with (hr | hr) | hr
  · rw [List.mem_singleton.mp hr]
    exact .inr (by simpa using hmanifest)
  · split_ifs at hr with hgap
    · rw [List.mem_singleton.mp hr]
      exact .inr (by simp only [otaManifestSize] at hmanifest ⊢; omega)
    · exact absurd hr List.not_mem_nil
  · split_ifs at hr with himage
    · rw [List.mem_singleton.mp hr, UInt32.toNat_ofNat_of_lt' hlen]
      exact .inr (by dsimp only; omega)
    · exact absurd hr List.not_mem_nil

/-- **Without a wrap the signature stays inside the package.** -/
theorem otaSignatureReads_within {m : OtaManifest} {len : Nat} (hlen : len < 2 ^ 32)
    (hmanifest : otaManifestSize ≤ len) (hwrap : m.imageEnd < 2 ^ 32) :
    ∀ r ∈ otaSignatureReads m len, r.Within len := by
  intro r hr
  rw [otaSignatureReads] at hr
  split_ifs at hr with hmagic hformat hoffset hfits hpath hsigned
  · exact absurd hr List.not_mem_nil
  · exact absurd hr List.not_mem_nil
  · exact absurd hr List.not_mem_nil
  · exact absurd hr List.not_mem_nil
  · exact absurd hr List.not_mem_nil
  · exact otaComputeHmacReads_within len r hr
  · have hend := imageEnd_le hlen (UInt32.not_lt.mp hfits) hwrap
    exact otaPackageSigReads_within hlen hmanifest (Nat.le_trans (Nat.le_add_right _ _) hend) r hr

/-- **The bounds of an accepted package.** Image and signature lie inside the file, and the size of
the image is an `int`, exactly if the sum of offset and size does not wrap. -/
theorem otaParsePackage_bounds_iff {sha256 : Sha256} {fs : Ramfs} {heap : Option Buf} {path : CStr}
    {pkg : List UInt8} {m : OtaManifest} {elf : List UInt8} (hfile : fs.visible path = some pkg)
    (hok : otaParsePackage sha256 fs heap path = .ok (m, elf)) :
    (m.elfOffset.toNat + m.elfSize.toNat ≤ pkg.length ∧ m.elfSize.toNat < 2 ^ 31 ∧
        ∀ r ∈ otaSignatureReads m pkg.length, r.Within pkg.length) ↔
      m.elfOffset.toNat + m.elfSize.toNat < 2 ^ 32 := by
  obtain ⟨mem, pkg', -, hfile', hsize, hsound, rfl, -⟩ := otaParsePackage_eq_ok_iff.mp hok
  obtain rfl := Option.some.inj (hfile.symm.trans hfile')
  have hlen := length_lt_of_visible hfile
  simp only [ramfsFileSize, otaManifestSize] at hlen hsize
  constructor
  · rintro ⟨hend, -, -⟩
    omega
  · intro hwrap
    have hend := imageEnd_le (by omega) hsound.fits hwrap
    rw [OtaManifest.imageEnd] at hend
    refine ⟨hend, by omega, ?_⟩
    exact otaSignatureReads_within (by omega) (by simp only [otaManifestSize]; omega) hwrap

theorem otaParsePackage_bounds_worker :
    let pkg := mkAgentpkg (bytes "worker") (bytes "2.0.0") otaChannelStable 9
      (bytes "/agent/1/worker.agent") (List.replicate 100 0x7f)
    ∃ m elf, (stagedFs pkg).visible otaPathStaged = some pkg ∧
      otaParsePackage (fun _ => .replicate 32 0) (stagedFs pkg) (some fun _ => 0) otaPathStaged =
        .ok (m, elf) ∧
      m.elfOffset.toNat + m.elfSize.toNat ≤ pkg.length ∧ m.elfSize.toNat < 2 ^ 31 ∧
        ∀ r ∈ otaSignatureReads m pkg.length, r.Within pkg.length := by
  intro pkg
  have hlen : pkg.length = 228 := by
    rw [show pkg = _ ++ List.replicate 100 0x7f from rfl, List.length_append, Buf.length_slice]
    rfl
  obtain ⟨hfile, hdevice⟩ := visible_stagedFs pkg (by omega) (by rw [hlen]; decide)
  have hok := otaParsePackage_mkAgentpkg (fun _ => .replicate 32 0) (fun _ => 0) (by decide)
    (by decide) hfile (by rw [otaChannelMatches_stable hdevice]; decide)
  exact ⟨_, _, hfile, hok, (otaParsePackage_bounds_iff hfile hok).mpr (by decide +kernel)⟩

/-! ## A package that wraps -/

/-- A package of format 2 whose image is one byte at the end of the address range. -/
def wrappingPackage : List UInt8 :=
  u32Bytes otaPkgMagic ++ u32Bytes otaFmtSigned ++ u32Bytes 0 ++ List.replicate 48 0
    ++ otaChannelStable ++ [0, 0] ++ u32Bytes 0 ++ u32Bytes 0xffffffff ++ u32Bytes 1
    ++ bytes "/" ++ List.replicate 15 0 ++ List.replicate 32 0 ++ List.replicate 64 0

/-- **An accepted package whose image lies outside the file**, if its hash has the value that the
manifest names. -/
theorem not_otaParsePackage_bounds :
    let sha256 : Sha256 := fun _ => .replicate 32 0
    ∃ m elf, (stagedFs wrappingPackage).visible otaPathStaged = some wrappingPackage ∧
      otaParsePackage sha256 (stagedFs wrappingPackage) (some fun _ => 0) otaPathStaged =
        .ok (m, elf) ∧
      ¬ m.elfOffset.toNat + m.elfSize.toNat ≤ wrappingPackage.length := by
  intro sha256
  have hlen : wrappingPackage.length = 192 := by decide +kernel
  obtain ⟨hfile, hdevice⟩ := visible_stagedFs wrappingPackage (by omega) (by rw [hlen]; decide)
  have hsound : OtaSound sha256 (stagedFs wrappingPackage)
      (Buf.write (fun _ => 0) 0 wrappingPackage) wrappingPackage.length := by
    refine ⟨by decide +kernel, by decide +kernel, by decide +kernel, by decide +kernel,
      .inl ⟨by decide +kernel, by decide +kernel⟩, ?_⟩
    rw [otaChannelMatches_stable hdevice]
    decide +kernel
  refine ⟨_, _, hfile, otaParsePackage_eq_ok_iff.mpr
    ⟨_, _, rfl, hfile, by rw [hlen], hsound, rfl, rfl⟩, by decide +kernel⟩

end OpenAgentOS
