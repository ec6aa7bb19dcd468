import OpenAgentOS.Fs.RoundTrip
import OpenAgentOS.Ota.Package

/-!
# The scripts that build packages (scripts/mk-agentpkg.py, tools/ota-sign.py)

Both scripts fill a manifest of 128 zeroes field by field, sign it while the signature is still
zero, and put the signature in.

- `manifestBuf`: the manifest. The two `build_manifest` differ in the format and in how much of the
  path they keep: 47 bytes, which run over the field of the HMAC, or 15.
- `otaManifestAt_manifestBuf`, `otaManifestAt_package`: the kernel reads the fields that the
  scripts have written.
- `mkAgentpkg_roundtrip`: packages of format 1 give back the image and, if it has no NUL, the path.
- `otaSign_roundtrip_iff`: packages of format 2 do so if the image is a multiple of 128 bytes long,
  because the padding is written in front of it, and if path and channel fit into their fields.
-/

namespace OpenAgentOS

open CInt CString

/-! ## The scripts -/

/-- The manifest that both scripts build, with fields that are cut already. -/
def manifestBuf (format sig : UInt32) (name version channel : List UInt8)
    (caps elfOffset elfSize : UInt32) (path hmac : List UInt8) : Buf :=
  let raw : Buf := fun _ => 0
  let raw := ((raw.write 0 (u32Bytes otaPkgMagic)).write 4 (u32Bytes format)).write 8 (u32Bytes sig)
  let raw := ((raw.write 12 name).write 44 version).write 60 channel
  let raw := ((raw.write 68 (u32Bytes caps)).write 72 (u32Bytes elfOffset)).write 76
    (u32Bytes elfSize)
  (raw.write 80 path).write 96 hmac

/-- `build_manifest` (mk-agentpkg.py:24). -/
def mkBuildManifest (name version channel : List UInt8) (caps : UInt32) (installPath : List UInt8)
    (elfSize : Nat) (sig : UInt32) : Buf :=
  manifestBuf otaFmtVersion sig (name.take 31) (version.take 15) (channel.take 7) caps 128
    (UInt32.ofNat elfSize) (installPath.take 47) []

/-- `package_sig` (mk-agentpkg.py:18), with the CRC-32 of zlib. -/
def packageSig (manifestZero elf : List UInt8) : UInt32 := Crc32.crc32 (manifestZero ++ elf)

/-- The manifest that `main` signs and builds again (mk-agentpkg.py:55). -/
def mkManifest (name version channel : List UInt8) (caps : UInt32) (installPath elf : List UInt8) :
    Buf :=
  let build := mkBuildManifest name version channel caps installPath elf.length
  build (packageSig ((build 0).slice 0 otaManifestSize) elf)

/-- The package that `main` writes (mk-agentpkg.py:74). -/
def mkAgentpkg (name version channel : List UInt8) (caps : UInt32) (installPath elf : List UInt8) :
    List UInt8 :=
  (mkManifest name version channel caps installPath elf).slice 0 otaManifestSize ++ elf

/-- `build_manifest` (ota-sign.py:22). -/
def signBuildManifest (name version channel : List UInt8) (elfOffset elfSize : Nat)
    (installPath hmac : List UInt8) : Buf :=
  manifestBuf otaFmtSigned 0 (name.take 31) (version.take 15) (channel.take 7) 0
    (UInt32.ofNat elfOffset) (UInt32.ofNat elfSize) (installPath.take 15) hmac

/-- `sign_payload` (ota-sign.py:17). -/
def signPayload (sha256 : Sha256) (payload : List UInt8) : Vector UInt8 32 :=
  sha256 (otaHmacKey ++ payload)

/-- The padding (ota-sign.py:50). It goes between the manifest and the image. -/
def signPad (elfSize : Nat) : List UInt8 :=
  let pad := List.replicate (otaManifestSize - elfSize % otaManifestSize) 0
  if pad.length = otaManifestSize then [] else pad

/-- The manifest that `main` signs and builds again (ota-sign.py:53). -/
def signManifest (sha256 : Sha256) (name version channel installPath elf : List UInt8) : Buf :=
  let build := signBuildManifest name version channel otaManifestSize elf.length installPath
  let body := (build (List.replicate 32 0)).slice 0 otaManifestSize ++ (signPad elf.length ++ elf)
  build (signPayload sha256 body).toList

/-- The package that `main` writes (ota-sign.py:60). -/
def otaSign (sha256 : Sha256) (name version channel installPath elf : List UInt8) : List UInt8 :=
  (signManifest sha256 name version channel installPath elf).slice 0 otaManifestSize ++
    (signPad elf.length ++ elf)

/-! ## The fields of a manifest -/

/-- A text in a field of `n` bytes. -/
def padTo (n : Nat) (xs : List UInt8) : List UInt8 := xs ++ List.replicate (n - xs.length) 0

/-- A missing byte is read as a zero in any case. -/
theorem charAt_padTo (n : Nat) (xs : List UInt8) (i : Nat) : charAt (padTo n xs) i = charAt xs i := by
  rw [charAt, charAt, padTo]
  by_cases hi : i < xs.length
  · exact List.getD_append _ _ _ _ hi
  · rw [List.getD_append_right _ _ _ _ (by omega), List.getD_eq_default xs _ (by omega),
      List.getD_eq_getElem?_getD, List.getElem?_replicate]
    split_ifs
    · rfl
    · rfl

/-- A text that was written into a field of zeroes. -/
theorem slice_write_padded {b : Buf} {off n : Nat} {xs : List UInt8} (hlen : xs.length ≤ n)
    (hzero : ∀ i, off ≤ i → i < off + n → b i = 0) : (b.write off xs).slice off n = padTo n xs := by
  obtain ⟨k, rfl⟩ := Nat.exists_eq_add_of_le hlen
  have hrest : (b.write off xs).slice (off + xs.length) k = List.replicate k 0 := by
    refine List.eq_replicate_iff.mpr ⟨Buf.length_slice _ _ _, fun x hx => ?_⟩
    obtain ⟨i, hi, rfl⟩ := List.mem_map.mp hx
    rw [List.mem_range] at hi
    rw [Buf.write_outside b (by omega)]
    exact hzero _ (by omega) (by omega)
  rw [← Buf.slice_append, Buf.slice_write_self, hrest, padTo, Nat.add_sub_cancel_left]

/-- The manifest is a matter of the first 128 bytes. -/
theorem otaManifestAt_congr {b b' : Buf} (h : ∀ i, i < otaManifestSize → b i = b' i) :
    otaManifestAt b = otaManifestAt b' := by
  have hword : ∀ off, off + 4 ≤ otaManifestSize → b.u32 off = b'.u32 off := fun off hoff =>
    Buf.u32_congr fun i hi => h _ (by omega)
  have hfield : ∀ off n, off + n ≤ otaManifestSize → b.slice off n = b'.slice off n :=
    fun off n hoff => Buf.slice_congr fun i hi => h _ (by omega)
  rw [otaManifestAt, otaManifestAt, hword 0 (by decide), hword 4 (by decide), hword 8 (by decide),
    hfield 12 32 (by decide), hfield 44 16 (by decide), hfield 60 8 (by decide),
    hword 68 (by decide), hword 72 (by decide), hword 76 (by decide), hfield 80 16 (by decide),
    hfield 96 32 (by decide)]

/-- Texts that leave room for a terminator. -/
structure FieldsFit (name version channel : List UInt8) : Prop where
  name : name.length < 32
  version : version.length < 16
  channel : channel.length < 8

theorem fieldsFit_take (name version channel : List UInt8) :
    FieldsFit (name.take 31) (version.take 15) (channel.take 7) := by
  constructor
  · exact Nat.lt_succ_of_le (List.length_take_le 31 name)
  · exact Nat.lt_succ_of_le (List.length_take_le 15 version)
  · exact Nat.lt_succ_of_le (List.length_take_le 7 channel)

section

variable {format sig : UInt32} {name version channel : List UInt8} {caps elfOffset elfSize : UInt32}
  {path hmac : List UInt8}

/-- The words of a manifest. -/
theorem manifestBuf_words (hfit : FieldsFit name version channel) :
    let b := manifestBuf format sig name version channel caps elfOffset elfSize path hmac
    b.u32 0 = otaPkgMagic ∧ b.u32 4 = format ∧ b.u32 8 = sig ∧ b.u32 68 = caps ∧
      b.u32 72 = elfOffset ∧ b.u32 76 = elfSize := by
  intro b
  obtain ⟨hname, hversion, hchannel⟩ := hfit
  refine ⟨?_, ?_, ?_, ?_, ?_, ?_⟩
  all_goals
    simp (disch := first | omega | (rw [length_u32Bytes]; omega)) only
      [b, manifestBuf, Buf.u32_write_outside, Buf.u32_write]

/-- Behind the words, up to the path, a manifest is zero where nothing is written. -/
theorem manifestBuf_channel (hfit : FieldsFit name version channel) :
    (manifestBuf format sig name version channel caps elfOffset elfSize path hmac).slice 60 8 =
      padTo 8 channel := by
  obtain ⟨hname, hversion, hchannel⟩ := hfit
  simp (disch := first | omega | (rw [length_u32Bytes]; omega)) only
    [manifestBuf, Buf.slice_write_outside]
  refine slice_write_padded (by omega) fun i hlo hhi => ?_
  simp (disch := first | omega | (rw [length_u32Bytes]; omega)) only [Buf.write_outside]

/-- The path, which may go on in the field behind it if that is not written. -/
theorem manifestBuf_path (hfit : FieldsFit name version channel) {n : Nat} (hpath : path.length ≤ n)
    (hn : 80 + n ≤ 96 ∨ hmac = []) :
    (manifestBuf format sig name version channel caps elfOffset elfSize path hmac).slice 80 n =
      padTo n path := by
  obtain ⟨hname, hversion, hchannel⟩ := hfit
  have hlast : ∀ b : Buf, (b.write 96 hmac).slice 80 n = b.slice 80 n := by
    intro b
    rcases hn with hn | rfl
    · exact Buf.slice_write_outside b (.inl hn)
    · rw [Buf.write_nil]
  rw [manifestBuf, hlast]
  refine slice_write_padded hpath fun i hlo _ => ?_
  simp (disch := first | omega | (rw [length_u32Bytes]; omega)) only [Buf.write_outside]

/-- The first byte of the path. -/
theorem manifestBuf_slash (hpath : charAt path 0 = '/'.toUInt8) :
    charAt ((manifestBuf format sig name version channel caps elfOffset elfSize path hmac).slice 80
      16) 0 = '/'.toUInt8 := by
  have hpos : 0 < path.length := lt_length_of_charAt_ne_zero (by rw [hpath]; decide)
  show manifestBuf format sig name version channel caps elfOffset elfSize path hmac (80 + 0) = _
  rw [manifestBuf, Buf.write_outside _ (by omega), Buf.write_inside _ 80 hpos]
  exact hpath

/-- The HMAC. -/
theorem manifestBuf_hmac (hhmac : hmac.length = 32) :
    (manifestBuf format sig name version channel caps elfOffset elfSize path hmac).slice 96 32 =
      hmac := by
  rw [manifestBuf, ← hhmac]
  exact Buf.slice_write_self _ 96 hmac

/-- Clearing the signature gives the manifest that was signed. -/
theorem manifestBuf_clear_sig :
    (manifestBuf format sig name version channel caps elfOffset elfSize path hmac).write 8
        (u32Bytes 0) =
      manifestBuf format 0 name version channel caps elfOffset elfSize path hmac := by
  funext i
  by_cases hi : 8 ≤ i ∧ i < 12
  · obtain ⟨j, rfl⟩ := Nat.exists_eq_add_of_le hi.1
    rw [Buf.write_inside _ 8 (by rw [length_u32Bytes]; omega)]
    simp (disch := first | omega | (rw [length_u32Bytes]; omega)) only
      [manifestBuf, Buf.write_outside]
    exact (Buf.write_inside _ 8 (by rw [length_u32Bytes]; omega)).symm
  · have hout : i < 8 ∨ 8 + (u32Bytes 0).length ≤ i := by rw [length_u32Bytes]; omega
    have hout' : i < 8 ∨ 8 + (u32Bytes sig).length ≤ i := by rw [length_u32Bytes]; omega
    rw [Buf.write_outside _ hout, manifestBuf, manifestBuf]
    iterate 8 apply Buf.write_congr
    rw [Buf.write_outside _ hout, Buf.write_outside _ hout']

/-- Clearing the HMAC gives the manifest that was signed. -/
theorem manifestBuf_clear_hmac (hhmac : hmac.length = 32) :
    (manifestBuf format sig name version channel caps elfOffset elfSize path hmac).write 96
        (List.replicate 32 0) =
      manifestBuf format sig name version channel caps elfOffset elfSize path
        (List.replicate 32 0) := by
  rw [manifestBuf, manifestBuf, Buf.write_write _ 96 (by rw [hhmac, List.length_replicate])]

end

/-! ## A manifest in front of a package -/

section

variable {M mem : Buf} {rest : List UInt8}

/-- The bytes that the kernel has read. -/
theorem package_apply {i : Nat} (hi : i < otaManifestSize) :
    mem.write 0 (M.slice 0 otaManifestSize ++ rest) i = M i := by
  have hlen : i < (M.slice 0 otaManifestSize).length := by rwa [Buf.length_slice]
  have hinside : mem.write 0 (M.slice 0 otaManifestSize ++ rest) (0 + i) = _ :=
    Buf.write_inside mem 0 (by rw [List.length_append]; omega)
  rw [Nat.zero_add] at hinside
  rw [hinside, List.getD_append _ _ _ _ hlen, List.getD_eq_getElem _ _ hlen, Buf.getElem_slice,
    Nat.zero_add]

/-- The kernel finds the manifest. -/
theorem otaManifestAt_package :
    otaManifestAt (mem.write 0 (M.slice 0 otaManifestSize ++ rest)) = otaManifestAt M :=
  otaManifestAt_congr fun _ hi => package_apply hi

/-- It finds what follows the manifest. -/
theorem slice_package {k n : Nat} (h : k + n ≤ rest.length) :
    (mem.write 0 (M.slice 0 otaManifestSize ++ rest)).slice (otaManifestSize + k) n =
      (rest.drop k).take n := by
  have hlen : (M.slice 0 otaManifestSize).length = otaManifestSize := Buf.length_slice _ _ _
  rw [Buf.slice_write_start mem (by rw [List.length_append, hlen]; omega)]
  rw [List.drop_append, hlen, List.drop_eq_nil_of_le (by omega), List.nil_append,
    Nat.add_sub_cancel_left]

/-- It finds the manifest without its signature. -/
theorem slice_package_clear {off : Nat} {xs : List UInt8} :
    ((mem.write 0 (M.slice 0 otaManifestSize ++ rest)).write off xs).slice 0 otaManifestSize =
      (M.write off xs).slice 0 otaManifestSize := by
  refine Buf.slice_congr fun i hi => Buf.write_congr ?_
  rw [Nat.zero_add]
  exact package_apply hi

/-- The kernel computes the checksum of the script. -/
theorem otaPackageSig_package (hpos : 0 < rest.length)
    (hlen : otaManifestSize + rest.length < 2 ^ 32) :
    otaPackageSig (mem.write 0 (M.slice 0 otaManifestSize ++ rest)) 128
        (UInt32.ofNat (otaManifestSize + rest.length)) =
      packageSig ((M.write 8 (u32Bytes 0)).slice 0 otaManifestSize) rest := by
  have htotal : (UInt32.ofNat (otaManifestSize + rest.length)).toNat = otaManifestSize + rest.length :=
    UInt32.toNat_ofNat_of_lt' hlen
  have hlt : (128 : UInt32) < UInt32.ofNat (otaManifestSize + rest.length) := by
    rw [UInt32.lt_iff_toNat_lt, htotal]
    exact Nat.lt_add_of_pos_right hpos
  have hirrefl : ¬ (128 : UInt32) < 128 := by decide
  have hrest : (mem.write 0 (M.slice 0 otaManifestSize ++ rest)).slice (otaManifestSize + 0)
      rest.length = rest := by
    rw [slice_package (by omega), List.drop_zero, List.take_length]
  rw [otaPackageSig, if_neg hirrefl, if_pos hlt, htotal, slice_package_clear]
  show otaCrc32Update _ (Buf.slice _ (otaManifestSize + 0)
    (otaManifestSize + rest.length - otaManifestSize)) ^^^ _ = _
  rw [Nat.add_sub_cancel_left, hrest, packageSig, Crc32.crc32, List.foldl_append]
  exact UInt32.xor_neg_one

/-- The kernel computes the HMAC of the script. -/
theorem otaComputeHmac_package (sha256 : Sha256) :
    otaComputeHmac sha256 (mem.write 0 (M.slice 0 otaManifestSize ++ rest))
        (otaManifestSize + rest.length) =
      signPayload sha256 ((M.write 96 (List.replicate 32 0)).slice 0 otaManifestSize ++ rest) := by
  have hrest : (mem.write 0 (M.slice 0 otaManifestSize ++ rest)).slice (otaManifestSize + 0)
      rest.length = rest := by
    rw [slice_package (by omega), List.drop_zero, List.take_length]
  rw [otaComputeHmac, if_neg (by omega), slice_package_clear, Nat.add_sub_cancel_left,
    signPayload, List.append_assoc]
  exact congrArg (fun rest' => sha256 (otaHmacKey ++ (_ ++ rest'))) hrest

/-- The image starts behind the manifest. -/
theorem otaImage_package {n : Nat} (hoffset : (otaManifestAt M).elfOffset = 128)
    (hsize : (otaManifestAt M).elfSize = UInt32.ofNat n) (hn : n ≤ rest.length) (hlt : n < 2 ^ 31) :
    otaImage (mem.write 0 (M.slice 0 otaManifestSize ++ rest)) = rest.take n := by
  have hnat : (UInt32.ofNat n).toNat = n := UInt32.toNat_ofNat_of_lt' (show n < 2 ^ 32 by omega)
  have hint : (toInt32 n).toNat = n := by
    rw [toInt32_eq_self (by omega) (by omega), Int.toNat_natCast]
  rw [otaImage, otaManifestAt_package, hoffset, hsize, hnat, hint]
  have hslice : (mem.write 0 (M.slice 0 otaManifestSize ++ rest)).slice (otaManifestSize + 0) n =
      (rest.drop 0).take n := slice_package (by omega)
  rwa [List.drop_zero] at hslice

end

/-- A text in a field with room for a terminator is read up to its first NUL. -/
theorem takeWhile_padTo {n : Nat} {xs : List UInt8} (h : xs.length < n) (ys : List UInt8) :
    (padTo n xs ++ ys).takeWhile (· != 0) = xs.takeWhile (· != 0) := by
  obtain ⟨k, hk⟩ : ∃ k, n - xs.length = k + 1 := ⟨n - xs.length - 1, by omega⟩
  rw [padTo, hk, List.replicate_succ, List.append_assoc, List.cons_append]
  generalize List.replicate k 0 ++ ys = rest
  clear h hk
  induction xs with
  | nil => rfl
  | cons c xs ih => rw [List.cons_append, List.takeWhile_cons, List.takeWhile_cons, ih]

theorem takeWhile_eq_self_iff {xs : List UInt8} :
    xs.takeWhile (· != 0) = xs ↔ (0 : UInt8) ∉ xs := by
  rw [List.takeWhile_eq_self_iff]
  constructor
  · intro h h0
    exact absurd (h 0 h0) (by decide)
  · exact fun h x hx => bne_iff_ne.mpr fun h0 => h (h0 ▸ hx)

/-! ## Format 1 -/

/-- The words that the kernel reads from a manifest of format 1. -/
theorem mkManifest_words (name version channel : List UInt8) (caps : UInt32)
    (path elf : List UInt8) :
    let M := mkManifest name version channel caps path elf
    (otaManifestAt M).magic = otaPkgMagic ∧ (otaManifestAt M).format = otaFmtVersion ∧
      (otaManifestAt M).sig = packageSig ((M.write 8 (u32Bytes 0)).slice 0 otaManifestSize) elf ∧
      (otaManifestAt M).elfOffset = 128 ∧
      (otaManifestAt M).elfSize = UInt32.ofNat elf.length := by
  intro M
  obtain ⟨hmagic, hformat, hsig, -, hoffset, hsize⟩ :
      M.u32 0 = otaPkgMagic ∧ M.u32 4 = otaFmtVersion ∧
      M.u32 8 = packageSig ((mkBuildManifest name version channel caps path elf.length 0).slice 0
        otaManifestSize) elf ∧
      M.u32 68 = caps ∧ M.u32 72 = 128 ∧ M.u32 76 = UInt32.ofNat elf.length :=
    manifestBuf_words (fieldsFit_take name version channel)
  refine ⟨hmagic, hformat, ?_, hoffset, hsize⟩
  exact hsig.trans (congrArg (fun b : Buf => packageSig (b.slice 0 otaManifestSize) elf)
    manifestBuf_clear_sig.symm)

section

variable {name version channel path elf : List UInt8} {caps : UInt32}

/-- The path is read up to its first NUL. -/
theorem installPathText_mkManifest (hpath : path.length ≤ 47) (behind : CStr) :
    ((otaManifestAt (mkManifest name version channel caps path elf)).installPathText behind).bytes =
      path.takeWhile (· != 0) := by
  obtain ⟨M, hM⟩ : ∃ M, mkManifest name version channel caps path elf = M := ⟨_, rfl⟩
  have hfield : M.slice 80 48 = padTo 48 (path.take 47) := by
    rw [← hM]
    exact manifestBuf_path (fieldsFit_take name version channel)
      (Nat.le_trans (List.length_take_le 47 path) (by decide)) (.inr rfl)
  rw [hM]
  show (M.slice 80 16 ++ M.slice (80 + 16) 32 ++ behind.bytes).takeWhile (· != 0) = _
  rw [Buf.slice_append, hfield, List.take_of_length_le hpath, takeWhile_padTo (by omega)]

/-- **The kernel accepts the package** and finds the image in it. -/
theorem otaParsePackage_mkAgentpkg (sha256 : Sha256) {fs : Ramfs} {kpath : CStr} (mem : Buf)
    (helf : 64 ≤ elf.length) (hslash : charAt path 0 = '/'.toUInt8)
    (hfile : fs.visible kpath = some (mkAgentpkg name version channel caps path elf))
    (hchannel : otaChannelMatches fs (padTo 8 (channel.take 7)) = true) :
    otaParsePackage sha256 fs (some mem) kpath =
      .ok (otaManifestAt (mkManifest name version channel caps path elf), elf) := by
  have hlen : (mkAgentpkg name version channel caps path elf).length =
      otaManifestSize + elf.length := by
    rw [mkAgentpkg, List.length_append, Buf.length_slice]
  have hlt := length_lt_of_visible hfile
  rw [hlen] at hlt
  have hbound : otaManifestSize + elf.length < 2 ^ 32 := Nat.lt_trans hlt (by decide)
  simp only [ramfsFileSize, otaManifestSize] at hlt
  obtain ⟨hmagic, hformat, hsig, hoffset, hsize⟩ :=
    mkManifest_words name version channel caps path elf
  refine otaParsePackage_eq_ok_iff.mpr ⟨mem, _, rfl, hfile, ?_, ⟨?_, ?_, ?_, ?_, ?_, ?_⟩, ?_, ?_⟩
  · rw [hlen]
    exact Nat.add_le_add_left helf _
  · rw [mkAgentpkg, otaManifestAt_package, hmagic]
  · rw [mkAgentpkg, otaManifestAt_package, hoffset]
    exact UInt32.le_refl _
  · rw [hlen, mkAgentpkg, otaManifestAt_package, hoffset, hsize, UInt32.ofNat_add]
    exact UInt32.le_refl _
  · rw [mkAgentpkg, otaManifestAt_package]
    exact manifestBuf_slash (by rw [charAt_take (by decide)]; exact hslash)
  · rw [hlen, mkAgentpkg, otaManifestAt_package, hoffset, hsig]
    exact .inr ⟨hformat, otaPackageSig_package (by omega) hbound⟩
  · rw [mkAgentpkg, otaManifestAt_package]
    exact (congrArg _ (manifestBuf_channel (fieldsFit_take name version channel))).trans hchannel
  · rw [mkAgentpkg, otaManifestAt_package]
  · rw [mkAgentpkg, otaImage_package hoffset hsize (Nat.le_refl _) (by omega), List.take_length]

/-- What a device on channel `stable` compares with. -/
theorem otaChannelMatches_stable {fs : Ramfs} (h : fs.visible otaPathChannel = some otaChannelStable)
    (pkgChannel : List UInt8) :
    otaChannelMatches fs pkgChannel = sameChannel otaChannelStable pkgChannel 8 := by
  have hread : ramfsRead fs otaPathChannel 0 15 = .ok otaChannelStable := by
    rw [ramfsRead_eq, h]
    rfl
  rw [otaChannelMatches, hread]
  rfl

/-- **Round trip of packages of format 1.** The kernel accepts them and finds the image. It finds
the path as well, unless there is a NUL in it. -/
theorem mkAgentpkg_roundtrip (sha256 : Sha256) (mem : Buf) (behind : CStr) {fs : Ramfs} {kpath : CStr}
    (helf : 64 ≤ elf.length) (hpath : path.length ≤ 47) (hslash : charAt path 0 = '/'.toUInt8)
    (hfile : fs.visible kpath = some (mkAgentpkg name version otaChannelStable caps path elf))
    (hdevice : fs.visible otaPathChannel = some otaChannelStable) :
    ∃ m, otaParsePackage sha256 fs (some mem) kpath = .ok (m, elf) ∧
      ((m.installPathText behind).bytes = path ↔ (0 : UInt8) ∉ path) := by
  have hmatch : otaChannelMatches fs (padTo 8 (otaChannelStable.take 7)) = true := by
    rw [otaChannelMatches_stable hdevice]
    decide
  refine ⟨_, otaParsePackage_mkAgentpkg sha256 mem helf hslash hfile hmatch, ?_⟩
  rw [installPathText_mkManifest hpath, takeWhile_eq_self_iff]

end

/-- `OTA_PATH_STAGED`. -/
def otaPathStaged : CStr := .lit "/agent/1/worker-v2.agentpkg"

/-- A file system with a package in it, on a device with channel `stable`. -/
def stagedFs (pkg : List UInt8) : Ramfs :=
  (ramfsPut (ramfsPut (ramfsInit zeroMem) otaPathChannel otaChannelStable).2 otaPathStaged pkg).2

/-- Both files could be stored, and there is room for more. -/
theorem stagedFs_puts {pkg : List UInt8} (hpos : 0 < pkg.length) (hlt : pkg.length < ramfsFileSize) :
    ∃ fs, ramfsPut (ramfsInit zeroMem) otaPathChannel otaChannelStable = (0, fs) ∧
      ramfsPut fs otaPathStaged pkg = (0, stagedFs pkg) ∧
      slotCount (fun i => (stagedFs pkg i).used) < ramfsMaxFiles := by
  obtain ⟨fs, hfs⟩ : ∃ fs, ramfsPut (ramfsInit zeroMem) otaPathChannel otaChannelStable = (0, fs) :=
    ramfsPut_of_found_or_room (by decide) (by decide) fun _ => by decide +kernel
  have hcount : slotCount (fun i => (fs i).used) ≤ 3 := by
    have hinit : slotCount (fun i => (ramfsInit zeroMem i).used) = 2 := by decide +kernel
    have hle := slotCount_put_le hfs
    omega
  obtain ⟨fs', hfs'⟩ : ∃ fs', ramfsPut fs otaPathStaged pkg = (0, fs') :=
    ramfsPut_of_found_or_room hpos hlt fun _ => Nat.lt_of_le_of_lt hcount (by decide)
  have hstaged : stagedFs pkg = fs' := by rw [stagedFs, hfs, hfs']
  refine ⟨fs, hfs, by rw [hstaged, hfs'], ?_⟩
  rw [hstaged]
  exact Nat.lt_of_le_of_lt (Nat.le_trans (slotCount_put_le hfs') (Nat.succ_le_succ hcount))
    (by decide)

theorem visible_stagedFs (pkg : List UInt8) (hpos : 0 < pkg.length)
    (hlt : pkg.length < ramfsFileSize) :
    (stagedFs pkg).visible otaPathStaged = some pkg ∧
      (stagedFs pkg).visible otaPathChannel = some otaChannelStable := by
  obtain ⟨fs, hfs, hfs', -⟩ := stagedFs_puts hpos hlt
  have hsame : fs.SameUnder otaPathChannel (ramfsPut fs otaPathStaged pkg).2 :=
    sameUnder_put fs pkg (by decide)
  constructor
  · exact visible_put_self (by decide) hfs'
  · rw [hfs'] at hsame
    rw [hsame.visible, visible_put_self (by decide) hfs]

theorem visible_stagedFs_of_ne {pkg : List UInt8} (hpos : 0 < pkg.length)
    (hlt : pkg.length < ramfsFileSize) {q : CStr} (hstaged : otaPathStaged ≠ q)
    (hchannel : otaPathChannel ≠ q) : (stagedFs pkg).visible q = (ramfsInit zeroMem).visible q := by
  obtain ⟨fs, hfs, hfs', -⟩ := stagedFs_puts hpos hlt
  have hsecond : fs.SameUnder q (ramfsPut fs otaPathStaged pkg).2 := sameUnder_put fs pkg (by
    rwa [CStr.copy_eq_self (by decide)])
  have hfirst : (ramfsInit zeroMem).SameUnder q
      (ramfsPut (ramfsInit zeroMem) otaPathChannel otaChannelStable).2 :=
    sameUnder_put _ _ (by rwa [CStr.copy_eq_self (by decide)])
  rw [hfs'] at hsecond
  rw [hfs] at hfirst
  rw [hsecond.visible, hfirst.visible]

theorem mkAgentpkg_roundtrip_worker :
    let path := bytes "/agent/1/worker.agent"
    let elf := List.replicate 100 0x7f
    let pkg := mkAgentpkg (bytes "worker") (bytes "2.0.0") otaChannelStable 9 path elf
    ∃ m, otaParsePackage (fun _ => .replicate 32 0) (stagedFs pkg) (some fun _ => 0) otaPathStaged =
        .ok (m, elf) ∧ (m.installPathText (.lit "")).bytes = path := by
  intro path elf pkg
  have hlen : pkg.length = 228 := by
    rw [show pkg = _ ++ elf from rfl, List.length_append, Buf.length_slice]
    rfl
  obtain ⟨hfile, hdevice⟩ := visible_stagedFs pkg (by omega) (by rw [hlen]; decide)
  obtain ⟨m, hparse, hpath⟩ := mkAgentpkg_roundtrip (fun _ => .replicate 32 0) (fun _ => 0) (.lit "")
    (by decide) (by decide) (by decide) hfile hdevice
  exact ⟨m, hparse, hpath.mpr (by decide)⟩

/-- A path with a NUL in it is cut there. -/
theorem not_mkAgentpkg_roundtrip_nul :
    let path := ['/'.toUInt8, 0]
    let elf := List.replicate 64 0x7f
    let pkg := mkAgentpkg (bytes "worker") (bytes "2.0.0") otaChannelStable 9 path elf
    (stagedFs pkg).visible otaPathStaged = some pkg ∧
      (stagedFs pkg).visible otaPathChannel = some otaChannelStable ∧
      ∃ m, otaParsePackage (fun _ => .replicate 32 0) (stagedFs pkg) (some fun _ => 0)
          otaPathStaged = .ok (m, elf) ∧
        (m.installPathText (.lit "")).bytes = bytes "/" ∧
        (m.installPathText (.lit "")).bytes ≠ path := by
  intro path elf pkg
  have hlen : pkg.length = 192 := by
    rw [show pkg = _ ++ elf from rfl, List.length_append, Buf.length_slice]
    rfl
  obtain ⟨hfile, hdevice⟩ := visible_stagedFs pkg (by omega) (by rw [hlen]; decide)
  have htext : ((otaManifestAt (mkManifest (bytes "worker") (bytes "2.0.0") otaChannelStable 9 path
      elf)).installPathText (.lit "")).bytes = path.takeWhile (· != 0) :=
    installPathText_mkManifest (by decide) (.lit "")
  refine ⟨hfile, hdevice, _, otaParsePackage_mkAgentpkg _ _ (by decide) (by decide) hfile
    (by rw [otaChannelMatches_stable hdevice]; decide), ?_, ?_⟩
  · rw [htext]
    decide
  · rw [htext]
    decide

/-! ## Format 2 -/

/-- The padding fills up the image to a multiple of 128 bytes. -/
theorem signPad_eq (n : Nat) : signPad n = List.replicate ((128 - n % 128) % 128) 0 := by
  rw [signPad]
  simp only [List.length_replicate, otaManifestSize]
  split_ifs with h
  · rw [h]
    rfl
  · rw [Nat.mod_eq_of_lt (a := 128 - n % 128) (by omega)]

/-- Zeroes in front of a text shift it, unless there are none or it is all zeroes. -/
theorem take_zeros_append_iff {k : Nat} {xs : List UInt8} :
    (List.replicate k 0 ++ xs).take xs.length = xs ↔ k = 0 ∨ ∀ b ∈ xs, b = 0 := by
  constructor
  · intro h
    refine or_iff_not_imp_left.mpr fun hk => ?_
    -- byte `i` is a zero of the padding or the byte `k` places before it
    have hbyte : ∀ i, ∀ hi : i < xs.length, xs.get ⟨i, hi⟩ = 0 := by
      intro i
      induction i using Nat.strong_induction_on with
      | _ i ih =>
        intro hi
        have hget : xs.get ⟨i, hi⟩ = (List.replicate k 0 ++ xs).getD i 0 := by
          have hcongr := congrArg (fun l => l.getD i 0) h
          rw [List.get_eq_getElem, ← List.getD_eq_getElem xs 0 hi, ← hcongr,
            List.getD_eq_getElem?_getD, List.getD_eq_getElem?_getD, List.getElem?_take_of_lt hi]
        rw [hget]
        by_cases hik : i < k
        · rw [List.getD_append _ _ _ _ (by rwa [List.length_replicate]), List.getD_replicate _ hik]
        · rw [List.getD_append_right _ _ _ _ (by rw [List.length_replicate]; omega),
            List.length_replicate, List.getD_eq_getElem _ _ (by omega)]
          exact ih (i - k) (by omega) (by omega)
    intro b hb
    obtain ⟨i, hi, rfl⟩ := List.mem_iff_getElem.mp hb
    exact hbyte i hi
  · rintro (rfl | hzero)
    · exact List.take_length
    · have hxs : xs = List.replicate xs.length 0 := List.eq_replicate_iff.mpr ⟨rfl, hzero⟩
      rw [hxs, List.length_replicate, ← List.replicate_add, List.take_replicate]
      congr 1
      omega

section

variable {sha256 : Sha256} {name version channel elf : List UInt8} {path : CStr}

/-- What the kernel reads from a manifest of format 2. -/
theorem signManifest_fields (sha256 : Sha256) (name version channel path elf : List UInt8) :
    let M := signManifest sha256 name version channel path elf
    (otaManifestAt M).magic = otaPkgMagic ∧ (otaManifestAt M).format = otaFmtSigned ∧
      (otaManifestAt M).elfOffset = 128 ∧
      (otaManifestAt M).elfSize = UInt32.ofNat elf.length ∧
      (otaManifestAt M).hmac = (signPayload sha256
        ((M.write 96 (List.replicate 32 0)).slice 0 otaManifestSize ++
          (signPad elf.length ++ elf))).toList ∧
      (otaManifestAt M).channel = padTo 8 (channel.take 7) := by
  intro M
  obtain ⟨hmagic, hformat, -, -, hoffset, hsize⟩ :
      M.u32 0 = otaPkgMagic ∧ M.u32 4 = otaFmtSigned ∧ M.u32 8 = 0 ∧ M.u32 68 = 0 ∧
      M.u32 72 = UInt32.ofNat otaManifestSize ∧ M.u32 76 = UInt32.ofNat elf.length :=
    manifestBuf_words (fieldsFit_take name version channel)
  have hclear : M.write 96 (List.replicate 32 0) =
      signBuildManifest name version channel otaManifestSize elf.length path (List.replicate 32 0) :=
    manifestBuf_clear_hmac (Vector.length_toList ..)
  refine ⟨hmagic, hformat, hoffset, hsize, ?_,
    manifestBuf_channel (fieldsFit_take name version channel)⟩
  rw [hclear]
  exact manifestBuf_hmac (Vector.length_toList ..)

/-- The path is cut to 15 bytes. -/
theorem installPathText_signManifest (behind : CStr) :
    (otaManifestAt (signManifest sha256 name version channel path.bytes elf)).installPathText behind =
      path.copy 16 := by
  obtain ⟨M, hM⟩ : ∃ M, signManifest sha256 name version channel path.bytes elf = M := ⟨_, rfl⟩
  have hfield : M.slice 80 16 = padTo 16 (path.copy 16).bytes := by
    rw [← hM]
    exact manifestBuf_path (fieldsFit_take name version channel)
      (Nat.le_trans (List.length_take_le 15 path.bytes) (by decide)) (.inl (by decide))
  apply CStr.ext_bytes
  rw [hM]
  show (M.slice 80 16 ++ M.slice 96 32 ++ behind.bytes).takeWhile (· != 0) = _
  rw [hfield, List.append_assoc, takeWhile_padTo (path.length_copy_lt (by decide))]
  exact takeWhile_eq_self_iff.mpr (path.copy 16).nul_free

/-- **What the kernel makes of a package of format 2.** It is accepted for its path and its channel,
and what is taken from it is as long as the image but starts with the padding. -/
theorem otaParsePackage_otaSign_iff {fs : Ramfs} {heap : Option Buf} {kpath : CStr}
    (helf : 64 ≤ elf.length)
    (hfile : fs.visible kpath = some (otaSign sha256 name version channel path.bytes elf))
    {m : OtaManifest} {image : List UInt8} :
    otaParsePackage sha256 fs heap kpath = .ok (m, image) ↔
      (∃ mem, heap = some mem) ∧ charAt path.bytes 0 = '/'.toUInt8 ∧
        otaChannelMatches fs (padTo 8 (channel.take 7)) = true ∧
        m = otaManifestAt (signManifest sha256 name version channel path.bytes elf) ∧
        image = (signPad elf.length ++ elf).take elf.length := by
  have hlen : (otaSign sha256 name version channel path.bytes elf).length =
      otaManifestSize + (signPad elf.length ++ elf).length := by
    rw [otaSign, List.length_append, Buf.length_slice]
  have hrest : elf.length ≤ (signPad elf.length ++ elf).length := by
    rw [List.length_append]
    omega
  have hlt := length_lt_of_visible hfile
  rw [hlen] at hlt
  simp only [ramfsFileSize, otaManifestSize] at hlt
  obtain ⟨hmagic, hformat, hoffset, hsize, hhmac, hchannel⟩ :=
    signManifest_fields sha256 name version channel path.bytes elf
  have hslash : charAt (otaManifestAt (signManifest sha256 name version channel path.bytes
      elf)).installPath 0 = charAt path.bytes 0 := by
    have hfield : (otaManifestAt (signManifest sha256 name version channel path.bytes
        elf)).installPath = padTo 16 (path.bytes.take 15) :=
      manifestBuf_path (fieldsFit_take name version channel)
        (Nat.le_trans (List.length_take_le 15 path.bytes) (by decide)) (.inl (by decide))
    rw [hfield, charAt_padTo, charAt_take (by decide)]
  have himage : ∀ mem : Buf, otaImage (mem.write 0
      (otaSign sha256 name version channel path.bytes elf)) =
      (signPad elf.length ++ elf).take elf.length := fun mem =>
    otaImage_package hoffset hsize hrest (by omega)
  rw [otaParsePackage_eq_ok_iff]
  constructor
  · rintro ⟨mem, pkg, rfl, hpkg, -, hsound, rfl, rfl⟩
    obtain rfl := Option.some.inj (hfile.symm.trans hpkg)
    have hpath := hsound.path
    have hmatches := hsound.channel
    rw [otaSign, otaManifestAt_package] at hpath hmatches
    rw [hchannel] at hmatches
    exact ⟨⟨mem, rfl⟩, hslash.symm.trans hpath, hmatches, otaManifestAt_package, himage mem⟩
  · rintro ⟨⟨mem, rfl⟩, hpath, hmatches, rfl, rfl⟩
    refine ⟨mem, _, rfl, hfile, ?_, ⟨?_, ?_, ?_, ?_, ?_, ?_⟩, ?_, (himage mem).symm⟩
    · rw [hlen]
      exact Nat.add_le_add_left (Nat.le_trans helf hrest) _
    · rw [otaSign, otaManifestAt_package, hmagic]
    · rw [otaSign, otaManifestAt_package, hoffset]
      exact UInt32.le_refl _
    · rw [hlen, otaSign, otaManifestAt_package, hoffset, hsize, UInt32.le_iff_toNat_le]
      show (UInt32.ofNat 128 + UInt32.ofNat elf.length).toNat ≤ _
      rw [← UInt32.ofNat_add, UInt32.toNat_ofNat_of_lt' (show _ < 2 ^ 32 by omega),
        UInt32.toNat_ofNat_of_lt' (show _ < 2 ^ 32 by simp only [otaManifestSize]; omega)]
      exact Nat.add_le_add_left hrest _
    · rw [otaSign, otaManifestAt_package]
      exact hslash.trans hpath
    · rw [hlen, otaSign, otaManifestAt_package, hhmac]
      exact .inl ⟨hformat, congrArg Vector.toList (otaComputeHmac_package sha256)⟩
    · rw [otaSign, otaManifestAt_package, hchannel]
      exact hmatches
    · rw [otaSign, otaManifestAt_package]

end

/-! ### Channels -/

theorem toLower_eq_zero_iff {c : UInt8} : toLower c = 0 ↔ c = 0 := by
  rw [toLower]
  split_ifs with h
  · have hrange : 65 ≤ c.toNat ∧ c.toNat ≤ 90 := h
    refine iff_of_false (fun h0 => ?_) fun h0 => ?_
    · have hsum : (c.toNat + 32) % 256 = 0 := congrArg UInt8.toNat h0
      omega
    · rw [h0] at hrange
      exact absurd hrange.1 (by decide)
  · rfl

/-- Channels are compared up to the end of the device's. -/
theorem sameChannel_iff {cur pkg : List UInt8} {n : Nat} :
    sameChannel cur pkg n = true ↔
      ∀ i, i < n → (∀ j, j < i → charAt cur j ≠ 0) →
        toLower (charAt cur i) = toLower (charAt pkg i) := by
  induction n generalizing cur pkg with
  | zero => exact iff_of_true rfl fun i hi => absurd hi (Nat.not_lt_zero i)
  | succ n ih =>
    rw [sameChannel]
    by_cases hhead : toLower (charAt cur 0) = toLower (charAt pkg 0)
    · rw [if_neg (not_not.mpr hhead)]
      by_cases hend : charAt cur 0 = 0
      · rw [if_pos (toLower_eq_zero_iff.mpr hend)]
        refine iff_of_true rfl fun i _ hbefore => ?_
        cases i with
        | zero => exact hhead
        | succ i => exact absurd hend (hbefore 0 (Nat.succ_pos i))
      · rw [if_neg (mt toLower_eq_zero_iff.mp hend), ih]
        constructor
        · intro h i hi hbefore
          cases i with
          | zero => exact hhead
          | succ i =>
            have hnext := h i (by omega) fun j hj => by
              rw [charAt_drop, Nat.add_comm]
              exact hbefore (j + 1) (by omega)
            rwa [charAt_drop, charAt_drop, Nat.add_comm] at hnext
        · intro h i hi hbefore
          rw [charAt_drop, charAt_drop, Nat.add_comm]
          refine h (i + 1) (by omega) fun j hj => ?_
          cases j with
          | zero => exact hend
          | succ j =>
            have hprev := hbefore j (by omega)
            rwa [charAt_drop, Nat.add_comm] at hprev
    · rw [if_pos hhead]
      exact iff_of_false Bool.false_ne_true fun h => hhead (h 0 (Nat.succ_pos n) nofun)

/-- The device has no channel: packages for any channel that starts with `s` are taken. -/
def NoChannel (fs : Ramfs) : Prop := ∀ cur, fs.visible otaPathChannel = some cur → cur = []

/-- What `ota_channel_matches` compares with. -/
theorem otaChannelMatches_eq (fs : Ramfs) :
    (NoChannel fs ∧ ∀ pkg, otaChannelMatches fs pkg = (charAt pkg 0 == 's'.toUInt8)) ∨
      (¬ NoChannel fs ∧ ∃ cur, ∀ pkg, otaChannelMatches fs pkg = sameChannel cur pkg 8) := by
  simp only [otaChannelMatches, ramfsRead_eq]
  cases hfile : fs.visible otaPathChannel with
  | none => exact .inl ⟨fun cur h => (Option.some_ne_none cur (h.symm.trans hfile)).elim, fun _ => rfl⟩
  | some cur =>
    cases cur with
    | nil => exact .inl ⟨fun cur h => (Option.some.inj (hfile.symm.trans h)).symm, fun _ => rfl⟩
    | cons c cur => exact .inr ⟨fun h => absurd (h _ hfile) nofun, _, fun _ => rfl⟩

theorem charAt_ne_zero {s : CStr} {i : Nat} (h : i < s.length) : charAt s.bytes i ≠ 0 := by
  rw [charAt, List.getD_eq_getElem _ _ h]
  exact fun h0 => s.nul_free (h0 ▸ List.getElem_mem h)

/-- **A channel that matches also does so in its field of the manifest** if it fits there. -/
theorem otaChannelMatches_field_iff {fs : Ramfs} {channel : CStr}
    (h : otaChannelMatches fs channel.bytes = true) :
    otaChannelMatches fs (padTo 8 (channel.bytes.take 7)) = true ↔
      channel.length ≤ 7 ∨ NoChannel fs := by
  rcases otaChannelMatches_eq fs with ⟨hno, heq⟩ | ⟨hsome, cur, heq⟩
  · rw [heq] at h
    rw [heq, charAt_padTo, charAt_take (by decide)]
    exact iff_of_true h (.inr hno)
  · rw [heq, sameChannel_iff] at h
    rw [heq, sameChannel_iff, or_iff_left hsome]
    constructor
    · intro hfield
      by_contra hlong
      -- all eight bytes are there and match, but the field has only seven of them
      have hcur : ∀ i, i < 8 → charAt cur i ≠ 0 := by
        intro i
        induction i using Nat.strong_induction_on with
        | _ i ih =>
          intro hi hzero
          have hsame := h i hi fun j hj => ih j hj (by omega)
          rw [hzero] at hsame
          have hchannel : charAt channel.bytes i ≠ 0 := charAt_ne_zero (by omega)
          exact hchannel (toLower_eq_zero_iff.mp (hsame.symm.trans (by decide)))
      have hlast := hfield 7 (by decide) fun j hj => hcur j (by omega)
      have hcut : charAt (channel.bytes.take 7) 7 = 0 :=
        List.getD_eq_default _ _ (List.length_take_le 7 channel.bytes)
      rw [charAt_padTo, hcut] at hlast
      exact hcur 7 (by decide) (toLower_eq_zero_iff.mp (hlast.trans (by decide)))
    · intro hshort i hi hbefore
      rw [charAt_padTo, List.take_of_length_le hshort]
      exact h i hi hbefore

/-! ### The round trip -/

/-- A package of format 2 that a caller can install. -/
structure SignInstallable (a : Caller) (fs : Ramfs) (heap : Option Buf) (kpath channel path : CStr)
    (elf : List UInt8) : Prop where
  cap : a.hasCap capFs = true
  pkgPath : otaPkgPathOk a kpath.bytes = true
  memory : ∃ mem, heap = some mem
  aligned : 128 ∣ elf.length ∨ ∀ b ∈ elf, b = 0
  short : path.length ≤ 15
  slash : charAt path.bytes 0 = '/'.toUInt8
  channel : channel.length ≤ 7 ∨ NoChannel fs
  room : fs.visible path = none → slotCount (fun i => (fs i).used) < ramfsMaxFiles

/-- What is taken from the package is the image. -/
theorem take_signPad_iff {elf : List UInt8} :
    (signPad elf.length ++ elf).take elf.length = elf ↔ 128 ∣ elf.length ∨ ∀ b ∈ elf, b = 0 := by
  rw [signPad_eq, take_zeros_append_iff]
  have hpad : (128 - elf.length % 128) % 128 = 0 ↔ 128 ∣ elf.length := by omega
  rw [hpad]

/-- A path that is cut to 15 bytes is the same path if it is no longer than that. -/
theorem copy_eq_self_iff {path : CStr} : path.copy 16 = path ↔ path.length ≤ 15 := by
  constructor
  · intro h
    have hlt : (path.copy 16).length < 16 := path.length_copy_lt (by decide)
    rw [h] at hlt
    omega
  · exact fun h => CStr.copy_eq_self (by omega)

/-- **Round trip of packages of format 2.** They are accepted, give back the image and store it
under the path they were built for, exactly if they are installable. -/
theorem otaSign_roundtrip_iff (sha256 : Sha256) (a : Caller) (heap : Option Buf) (behind : CStr)
    {fs : Ramfs} {kpath channel path : CStr} {name version elf : List UInt8}
    (helf : 64 ≤ elf.length)
    (hfile : fs.visible kpath = some (otaSign sha256 name version channel.bytes path.bytes elf))
    (hmatch : otaChannelMatches fs channel.bytes = true) :
    (∃ m, otaParsePackage sha256 fs heap kpath = .ok (m, elf) ∧ m.installPathText behind = path ∧
      (otaApplyPackageKpath sha256 a fs heap behind kpath).1 = 0 ∧
      fs.Stored path elf (otaApplyPackageKpath sha256 a fs heap behind kpath).2) ↔
    SignInstallable a fs heap kpath channel path elf := by
  have hlt : elf.length < ramfsFileSize := by
    have hall := length_lt_of_visible hfile
    rw [otaSign, List.length_append, List.length_append] at hall
    omega
  constructor
  · rintro ⟨m, hparse, hpath, happly, -⟩
    obtain ⟨hmem, hslash, hchannel, rfl, himage⟩ :=
      (otaParsePackage_otaSign_iff helf hfile).mp hparse
    rw [installPathText_signManifest] at hpath
    obtain ⟨hcap, hpkg, m, elf', hparse', hput⟩ :=
      otaApplyPackageKpath_eq_ok_iff.mp (Prod.ext happly rfl)
    obtain ⟨rfl, rfl⟩ := Prod.mk.inj (Except.ok.inj (hparse.symm.trans hparse'))
    refine ⟨hcap, hpkg, hmem, take_signPad_iff.mp himage.symm, copy_eq_self_iff.mp hpath, hslash,
      (otaChannelMatches_field_iff hmatch).mp hchannel, fun hnone => ?_⟩
    by_contra hfull
    rw [installPathText_signManifest, hpath, ramfsPut_of_full (by omega) hlt hnone hfull] at hput
    exact absurd (Prod.mk.inj hput).1 (by decide)
  · rintro ⟨hcap, hpkg, hmem, haligned, hshort, hslash, hchannel, hroom⟩
    have hparse : otaParsePackage sha256 fs heap kpath = .ok (_, elf) :=
      (otaParsePackage_otaSign_iff helf hfile).mpr ⟨hmem, hslash,
        (otaChannelMatches_field_iff hmatch).mpr hchannel, rfl, (take_signPad_iff.mpr haligned).symm⟩
    have hpath : (otaManifestAt (signManifest sha256 name version channel.bytes path.bytes
        elf)).installPathText behind = path := by
      rw [installPathText_signManifest, copy_eq_self_iff.mpr hshort]
    obtain ⟨fs', hput⟩ : ∃ fs', ramfsPut fs path elf = (0, fs') :=
      ramfsPut_of_found_or_room (by omega) hlt hroom
    have happly : otaApplyPackageKpath sha256 a fs heap behind kpath = (0, fs') :=
      otaApplyPackageKpath_eq_ok_iff.mpr ⟨hcap, hpkg, _, _, hparse, by rw [hpath, hput]⟩
    refine ⟨_, hparse, hpath, ?_⟩
    rw [happly]
    exact ⟨rfl, ramfsPut_ok hput⟩

/-- The agent that the scripts build packages for. -/
def workerAgent : Caller := ⟨1, capFs⟩

/-- An image of 128 bytes and a path of 11. -/
theorem otaSign_roundtrip_aligned :
    let sha256 : Sha256 := fun _ => .replicate 32 0
    let channel : CStr := .lit "stable"
    let path : CStr := .lit "/agent/1/ok"
    let elf := List.replicate 128 0x7f
    let fs := stagedFs (otaSign sha256 (bytes "worker") (bytes "1.0.0") channel.bytes path.bytes elf)
    let applied := otaApplyPackageKpath sha256 workerAgent fs (some fun _ => 0) (.lit "") otaPathStaged
    ∃ m, otaParsePackage sha256 fs (some fun _ => 0) otaPathStaged = .ok (m, elf) ∧
      m.installPathText (.lit "") = path ∧ applied.1 = 0 ∧ fs.Stored path elf applied.2 := by
  intro sha256 channel path elf fs applied
  obtain ⟨pkg, hpkg⟩ : ∃ pkg, otaSign sha256 (bytes "worker") (bytes "1.0.0") channel.bytes path.bytes
      elf = pkg := ⟨_, rfl⟩
  have hlen : pkg.length = 256 := by
    rw [← hpkg, otaSign, List.length_append, Buf.length_slice]
    decide +kernel
  have hpos : 0 < pkg.length := by omega
  have hlt : pkg.length < ramfsFileSize := by rw [hlen]; decide
  have hfs : fs = stagedFs pkg := congrArg stagedFs hpkg
  obtain ⟨-, -, -, hroom⟩ := stagedFs_puts hpos hlt
  obtain ⟨hfile, hdevice⟩ := visible_stagedFs pkg hpos hlt
  rw [← hfs] at hroom hfile hdevice
  rw [← hpkg] at hfile
  exact (otaSign_roundtrip_iff sha256 workerAgent (some fun _ => 0) (.lit "") (by decide +kernel)
    hfile (by rw [otaChannelMatches_stable hdevice]; decide)).mpr
    ⟨by decide, by decide +kernel, ⟨_, rfl⟩, .inl (by decide +kernel), by decide, by decide,
      .inl (by decide), fun _ => hroom⟩

/-- With the defaults of the script, the path loses its end, and an image of 64 bytes is replaced by
the padding in front of it. -/
theorem not_otaSign_roundtrip :
    let sha256 : Sha256 := fun _ => .replicate 32 0
    let channel : CStr := .lit "stable"
    let path : CStr := .lit "/agent/1/worker.agent"
    let elf := List.replicate 64 0x7f
    let pkg := otaSign sha256 (bytes "worker") (bytes "1.0.0") channel.bytes path.bytes elf
    (stagedFs pkg).visible otaPathStaged = some pkg ∧
      otaChannelMatches (stagedFs pkg) channel.bytes = true ∧
      ∃ m, otaParsePackage sha256 (stagedFs pkg) (some fun _ => 0) otaPathStaged =
          .ok (m, List.replicate 64 0) ∧
        m.installPathText (.lit "") = .lit "/agent/1/worker" := by
  intro sha256 channel path elf pkg
  have hlen : pkg.length = 256 := by
    rw [show pkg = _ ++ (signPad elf.length ++ elf) from rfl, List.length_append, Buf.length_slice]
    decide
  obtain ⟨hfile, hdevice⟩ := visible_stagedFs pkg (by omega) (by rw [hlen]; decide)
  refine ⟨hfile, by rw [otaChannelMatches_stable hdevice]; decide, _,
    (otaParsePackage_otaSign_iff (by decide) hfile).mpr ⟨⟨_, rfl⟩, by decide,
      by rw [otaChannelMatches_stable hdevice]; decide, rfl, by decide⟩, ?_⟩
  rw [installPathText_signManifest]
  decide

end OpenAgentOS
