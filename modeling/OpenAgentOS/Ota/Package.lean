import OpenAgentOS.Fs.Frame
import OpenAgentOS.Lib.CInt
import OpenAgentOS.Lib.Crc32
import OpenAgentOS.Lib.Layout
import OpenAgentOS.Tool.Policy

/-!
# OTA packages (kernel/ota.c)

A package is a file: a manifest of 128 bytes and, at an offset that the manifest names, the
image of an agent. `ota_apply_package` stores the image under the path in the manifest.

- `OtaManifest`: the manifest. Its path field has 16 bytes, but the path is read as a string, so
  a longer one goes on in the field behind it (`OtaManifest.installPathText`).
- `otaParsePackage`: size, magic, format, offsets, signature and channel are checked in this
  order. Format 1 has a CRC-32, format 2 a keyed SHA-256.
- `otaApplyPackageKpath`, `runOta`: the tool.
- `OtaSound`, `otaParsePackage_eq_ok_iff`: what a package is that is accepted.

SHA-256 is a parameter, and so is what `kalloc` returns: nothing, or memory with some bytes in it.
-/

namespace OpenAgentOS

open CInt CString

/-- `OTA_MANIFEST_SIZE`. -/
abbrev otaManifestSize : Nat := 128

/-- `OTA_PKG_MAGIC`. -/
abbrev otaPkgMagic : UInt32 := 0x4b504f41

/-- `OTA_FMT_VERSION`. -/
abbrev otaFmtVersion : UInt32 := 1

/-- `OTA_FMT_SIGNED`. -/
abbrev otaFmtSigned : UInt32 := 2

/-- `OTA_PATH_CHANNEL`. -/
def otaPathChannel : CStr := .lit "/sys/ota/channel"

/-- `OTA_CHANNEL_STABLE`. -/
def otaChannelStable : List UInt8 := bytes "stable"

/-- `ota_hmac_key`, without its terminator. -/
def otaHmacKey : List UInt8 := bytes "openagentos-ota-dev-key-v1"

/-- SHA-256. -/
abbrev Sha256 := List UInt8 → Vector UInt8 32

/-- `struct ota_manifest`. -/
structure OtaManifest where
  magic : UInt32
  format : UInt32
  sig : UInt32
  name : List UInt8
  version : List UInt8
  channel : List UInt8
  caps : UInt32
  elfOffset : UInt32
  elfSize : UInt32
  installPath : List UInt8
  hmac : List UInt8
  deriving DecidableEq

/-- The manifest that starts a buffer. -/
def otaManifestAt (b : Buf) : OtaManifest where
  magic := b.u32 0
  format := b.u32 4
  sig := b.u32 8
  name := b.slice 12 32
  version := b.slice 44 16
  channel := b.slice 60 8
  caps := b.u32 68
  elfOffset := b.u32 72
  elfSize := b.u32 76
  installPath := b.slice 80 16
  hmac := b.slice 96 32

/-- `install_path` as a string: it goes on behind its field, and behind the manifest with
whatever the stack holds there. -/
def OtaManifest.installPathText (m : OtaManifest) (behind : CStr) : CStr where
  bytes := (m.installPath ++ m.hmac ++ behind.bytes).takeWhile (· != 0)
  nul_free h := by simpa using List.mem_takeWhile_imp h

/-! ## Sizes -/

/-- The loop of `ota_file_size` and `catalog_file_size`: one byte is read at each offset. -/
def fileSizeLoop (fs : Ramfs) (path : CStr) (off : Nat) : Nat → Nat
  | 0 => ramfsFileSize
  | fuel + 1 =>
    match ramfsRead fs path off 1 with
    | .ok (_ :: _) => fileSizeLoop fs path (off + 1) fuel
    | .ok [] | .error _ => off

/-- The size of a file, byte by byte. An empty file counts as one byte. -/
def fileSizeByByte (fs : Ramfs) (path : CStr) : Except Int Nat :=
  match ramfsRead fs path 0 1 with
  | .error e => .error e
  | .ok _ => .ok (fileSizeLoop fs path 1 (ramfsFileSize - 1))

/-- `ota_file_size` (ota.c:38). -/
def otaFileSize : Ramfs → CStr → Except Int Nat := fileSizeByByte

/-! ## The checks -/

/-- `ota_pkg_path_ok` (ota.c:53). The first byte is not looked at. -/
def otaPkgPathOk (a : Caller) (path : List UInt8) : Bool :=
  let num := scanInt 0 (path.drop 7)
  hasAt path 1 (bytes "sys/ota/") ||
    (hasAt path 1 (bytes "agent/") && charAt num.2 0 == '/'.toUInt8 && num.1 == (a.id : Int))

/-- `A` to `Z` become small letters. -/
def toLower (c : UInt8) : UInt8 :=
  if 'A'.toUInt8 ≤ c ∧ c ≤ 'Z'.toUInt8 then c + ('a'.toUInt8 - 'A'.toUInt8) else c

/-- The loop of `ota_channel_matches`, over at most `n` bytes. -/
def sameChannel (cur pkg : List UInt8) : Nat → Bool
  | 0 => true
  | n + 1 =>
    if toLower (charAt cur 0) ≠ toLower (charAt pkg 0) then false
    else if toLower (charAt cur 0) = 0 then true
    else sameChannel (cur.drop 1) (pkg.drop 1) n

/-- `ota_channel_matches` (ota.c:73). -/
def otaChannelMatches (fs : Ramfs) (pkgChannel : List UInt8) : Bool :=
  match ramfsRead fs otaPathChannel 0 15 with
  | .ok (c :: cur) => sameChannel (c :: cur) pkgChannel 8
  | .ok [] | .error _ => charAt pkgChannel 0 == 's'.toUInt8

/-- `ota_crc32_update` (ota.c:13). -/
def otaCrc32Update (crc : UInt32) (data : List UInt8) : UInt32 := data.foldl Crc32.stepByte crc

/-- `ota_package_sig` (ota.c:98): the manifest with its `sig` cleared, what is between it and the
image, and the rest. -/
def otaPackageSig (pkg : Buf) (elfOffset total : UInt32) : UInt32 :=
  let crc := otaCrc32Update 0xffffffff ((pkg.write 8 (u32Bytes 0)).slice 0 otaManifestSize)
  let crc := if 128 < elfOffset then
      otaCrc32Update crc (pkg.slice otaManifestSize (elfOffset.toNat - otaManifestSize))
    else crc
  let crc := if elfOffset < total then
      otaCrc32Update crc (pkg.slice elfOffset.toNat (total.toNat - elfOffset.toNat))
    else crc
  crc ^^^ 0xffffffff

/-- `ota_compute_hmac` (ota.c:116): the manifest with its `hmac` cleared, and the rest. -/
def otaComputeHmac (sha256 : Sha256) (pkg : Buf) (len : Nat) : Vector UInt8 32 :=
  if len < otaManifestSize then sha256 (otaHmacKey ++ pkg.slice 0 len)
  else sha256 (otaHmacKey ++ (pkg.write 96 (List.replicate 32 0)).slice 0 otaManifestSize
    ++ pkg.slice otaManifestSize (len - otaManifestSize))

/-- `ota_hmac_match` (ota.c:138). -/
def otaHmacMatch (sha256 : Sha256) (pkg : Buf) (len : Nat) (expect : List UInt8) : Int :=
  if (otaComputeHmac sha256 pkg len).toList = expect then 0 else eperm

/-- The checks of `ota_parse_package` on the bytes that it has read (ota.c:173). -/
def otaCheck (sha256 : Sha256) (fs : Ramfs) (buf : Buf) (len : Nat) : Int :=
  let m := otaManifestAt buf
  if m.magic ≠ otaPkgMagic then einval
  else if m.format ≠ otaFmtVersion ∧ m.format ≠ otaFmtSigned then einval
  else if m.elfOffset < 128 then einval
  else if UInt32.ofNat len < m.elfOffset + m.elfSize then einval
  else if charAt m.installPath 0 ≠ '/'.toUInt8 then einval
  else if m.format = otaFmtSigned ∧ otaHmacMatch sha256 buf len m.hmac ≠ 0 then eperm
  else if m.format ≠ otaFmtSigned ∧ otaPackageSig buf m.elfOffset (UInt32.ofNat len) ≠ m.sig then
    eperm
  else if !otaChannelMatches fs m.channel then eperm
  else 0

/-- `ota_parse_package` (ota.c:152): the manifest and the image, or the error code. The length of
the image is an `int`, and a negative one leaves nothing. -/
def otaParsePackage (sha256 : Sha256) (fs : Ramfs) (heap : Option Buf) (path : CStr) :
    Except Int (OtaManifest × List UInt8) :=
  match otaFileSize fs path with
  | .error e => .error e
  | .ok len =>
    if len < otaManifestSize + 64 then .error einval
    else
      match heap, ramfsRead fs path 0 len with
      | none, _ => .error enospc
      | some _, .error e => .error e
      | some mem, .ok data =>
        if data.length ≠ len then .error eio
        else
          let buf := mem.write 0 data
          let m := otaManifestAt buf
          let rc := otaCheck sha256 fs buf len
          if rc ≠ 0 then .error rc
          else .ok (m, buf.slice m.elfOffset.toNat (toInt32 m.elfSize.toNat).toNat)

/-! ## The tool -/

/-- `ota_verify_package_kpath` (ota.c:245). -/
def otaVerifyPackageKpath (sha256 : Sha256) (fs : Ramfs) (heap : Option Buf) (kpath : CStr) : Int :=
  match otaParsePackage sha256 fs heap kpath with
  | .error e => e
  | .ok _ => 0

/-- `ota_apply_package_kpath` (ota.c:263). -/
def otaApplyPackageKpath (sha256 : Sha256) (a : Caller) (fs : Ramfs) (heap : Option Buf)
    (behind kpath : CStr) : Int × Ramfs :=
  if !a.hasCap capFs then (eperm, fs)
  else if !otaPkgPathOk a kpath.bytes then (eperm, fs)
  else
    match otaParsePackage sha256 fs heap kpath with
    | .error e => (e, fs)
    | .ok (m, elf) =>
      let put := ramfsPut fs (m.installPathText behind) elf
      if put.1 ≠ 0 then (enospc, put.2) else (0, put.2)

/-- The path argument of `ota_verify_package` and `ota_apply_package`. One that is too long has
no terminator in its buffer. -/
def otaUserPath (path : TextArg) (behind : CStr) : Except Int CStr :=
  match path with
  | .null => .error einval
  | .fault => .error efault
  | .text s =>
    if s.length = 0 then .error efault
    else if s.length < 64 then .ok s
    else .ok
      { bytes := s.bytes.take 64 ++ behind.bytes
        nul_free := by
          rw [List.mem_append, not_or]
          exact ⟨fun h => s.nul_free (List.mem_of_mem_take h), behind.nul_free⟩ }

/-- `ota_channel_set` (ota.c:217). -/
def otaChannelSet (fs : Ramfs) (channel : TextArg) : Int × Ramfs :=
  match channel with
  | .null | .fault => (einval, fs)
  | .text s =>
    if s.length = 0 then (einval, fs)
    else
      let put := ramfsPut fs otaPathChannel (s.bytes.take 15)
      if put.1 ≠ 0 then (enospc, put.2) else (0, put.2)

/-- `ota_channel_get` (ota.c:233): the text that is stored at the caller's buffer. -/
def otaChannelGet (fs : Ramfs) (buflen : Int) : Except Int (List UInt8) :=
  if buflen ≤ 0 then .error einval else ramfsRead fs otaPathChannel 0 (buflen - 1)

/-- `ota_init` (ota.c:201). -/
def otaInit (fs : Ramfs) : Ramfs :=
  match ramfsRead fs otaPathChannel 0 15 with
  | .ok (_ :: _) => fs
  | .ok [] | .error _ => (ramfsPut fs otaPathChannel otaChannelStable).2

/-- The commands of `TOOL_OTA`, with what the machine has in memory for them: the bytes behind the
path buffer and behind the manifest on the stack, and what `kalloc` returns. -/
inductive OtaCmd where
  | apply (path : TextArg) (behindPath behind : CStr) (heap : Option Buf)
  | verify (path : TextArg) (behindPath : CStr) (heap : Option Buf)
  | channelGet (buflen : Int)
  | channelSet (channel : TextArg)
  | kernelGen

/-- `run_ota` (tool.c:594). -/
def runOta (sha256 : Sha256) (a : Caller) (fs : Ramfs) : OtaCmd → Int × Ramfs
  | .apply path behindPath behind heap =>
    if !a.hasCap capFs then (eperm, fs)
    else
      match otaUserPath path behindPath with
      | .error e => (e, fs)
      | .ok kpath => otaApplyPackageKpath sha256 a fs heap behind kpath
  | .verify path behindPath heap =>
    match otaUserPath path behindPath with
    | .error e => (e, fs)
    | .ok kpath => (otaVerifyPackageKpath sha256 fs heap kpath, fs)
  | .channelGet buflen =>
    match otaChannelGet fs buflen with
    | .error e => (e, fs)
    | .ok text => (text.length, fs)
  | .channelSet channel => otaChannelSet fs channel
  | .kernelGen => (2, fs)

/-! ## What is accepted -/

section

variable {fs : Ramfs} {path : CStr} {content : List UInt8}

/-- The loop stops at the end of the file. -/
theorem fileSizeLoop_eq (h : fs.visible path = some content) {fuel off : Nat}
    (hfuel : max off content.length < off + fuel) :
    fileSizeLoop fs path off fuel = max off content.length := by
  induction fuel generalizing off with
  | zero => omega
  | succ fuel ih =>
    have hread : ramfsRead fs path off 1 = .ok ((content.drop off).take 1) := by
      rw [ramfsRead_eq, h]
      rfl
    rw [fileSizeLoop, hread]
    by_cases hoff : off < content.length
    · rw [List.drop_eq_getElem_cons hoff]
      show fileSizeLoop fs path (off + 1) fuel = _
      rw [ih (by omega)]
      omega
    · rw [List.drop_eq_nil_of_le (by omega)]
      show off = _
      omega

/-- **The size of a file**, except that an empty one counts as one byte. -/
theorem fileSizeByByte_eq (h : fs.visible path = some content) :
    fileSizeByByte fs path = .ok (max 1 content.length) := by
  have hread : ramfsRead fs path 0 1 = .ok (content.take 1) := by
    rw [ramfsRead_eq, h]
    rfl
  have hlen := length_lt_of_visible h
  have hloop : fileSizeLoop fs path 1 (ramfsFileSize - 1) = max 1 content.length :=
    fileSizeLoop_eq h (by simp only [ramfsFileSize] at hlen ⊢; omega)
  rw [fileSizeByByte, hread]
  exact congrArg Except.ok hloop

theorem fileSizeByByte_none (h : fs.visible path = none) :
    fileSizeByByte fs path = .error enoent := by
  have hread : ramfsRead fs path 0 1 = .error enoent := by
    rw [ramfsRead_eq, h]
    rfl
  rw [fileSizeByByte, hread]

end

/-- A package of `len` bytes that passes the checks. -/
structure OtaSound (sha256 : Sha256) (fs : Ramfs) (buf : Buf) (len : Nat) : Prop where
  magic : (otaManifestAt buf).magic = otaPkgMagic
  offset : 128 ≤ (otaManifestAt buf).elfOffset
  fits : (otaManifestAt buf).elfOffset + (otaManifestAt buf).elfSize ≤ UInt32.ofNat len
  path : charAt (otaManifestAt buf).installPath 0 = '/'.toUInt8
  signed : ((otaManifestAt buf).format = otaFmtSigned ∧
      (otaComputeHmac sha256 buf len).toList = (otaManifestAt buf).hmac) ∨
    ((otaManifestAt buf).format = otaFmtVersion ∧
      otaPackageSig buf (otaManifestAt buf).elfOffset (UInt32.ofNat len) = (otaManifestAt buf).sig)
  channel : otaChannelMatches fs (otaManifestAt buf).channel = true

theorem otaHmacMatch_eq_zero_iff {sha256 : Sha256} {pkg : Buf} {len : Nat} {expect : List UInt8} :
    otaHmacMatch sha256 pkg len expect = 0 ↔ (otaComputeHmac sha256 pkg len).toList = expect := by
  rw [otaHmacMatch]
  split_ifs with h
  · exact iff_of_true rfl h
  · exact iff_of_false (by decide) h

/-- **The checks pass exactly for the packages that are sound.** -/
theorem otaCheck_eq_zero_iff {sha256 : Sha256} {fs : Ramfs} {buf : Buf} {len : Nat} :
    otaCheck sha256 fs buf len = 0 ↔ OtaSound sha256 fs buf len := by
  have hcodes : einval ≠ 0 ∧ eperm ≠ 0 := by decide
  rw [otaCheck]
  constructor
  · intro h
    split_ifs at h with hmagic hformat hoffset hfits hpath hhmac hsig hchannel
    iterate 5
      · exact absurd h hcodes.1
    iterate 3
      · exact absurd h hcodes.2
    refine ⟨not_not.mp hmagic, UInt32.not_lt.mp hoffset, UInt32.not_lt.mp hfits, not_not.mp hpath,
      ?_, by simpa using hchannel⟩
    by_cases hsigned : (otaManifestAt buf).format = otaFmtSigned
    · refine .inl ⟨hsigned, otaHmacMatch_eq_zero_iff.mp ?_⟩
      by_contra hne
      exact hhmac ⟨hsigned, hne⟩
    · refine .inr ⟨?_, ?_⟩
      · by_contra hne
        exact hformat ⟨hne, hsigned⟩
      · by_contra hne
        exact hsig ⟨hsigned, hne⟩
  · rintro ⟨hmagic, hoffset, hfits, hpath, hsigned, hchannel⟩
    rw [if_neg (not_not.mpr hmagic), if_neg, if_neg (UInt32.not_lt.mpr hoffset),
      if_neg (UInt32.not_lt.mpr hfits), if_neg (not_not.mpr hpath), if_neg, if_neg,
      if_neg (by rw [hchannel]; decide)]
    · rintro ⟨hne, hsig⟩
      rcases hsigned with ⟨hformat, -⟩ | ⟨-, hok⟩
      · exact hne hformat
      · exact hsig hok
    · rintro ⟨hformat, hhmac⟩
      rcases hsigned with ⟨-, hok⟩ | ⟨hversion, -⟩
      · exact hhmac (otaHmacMatch_eq_zero_iff.mpr hok)
      · exact absurd (hversion.symm.trans hformat) (by decide)
    · rintro ⟨hversion, hformat⟩
      rcases hsigned with ⟨hok, -⟩ | ⟨hok, -⟩
      · exact hformat hok
      · exact hversion hok

/-- The image in a package, as its manifest describes it. -/
def otaImage (buf : Buf) : List UInt8 :=
  buf.slice (otaManifestAt buf).elfOffset.toNat (toInt32 (otaManifestAt buf).elfSize.toNat).toNat

/-- **What `ota_parse_package` accepts**: a file of at least 192 bytes whose bytes are sound. -/
theorem otaParsePackage_eq_ok_iff {sha256 : Sha256} {fs : Ramfs} {heap : Option Buf} {path : CStr}
    {m : OtaManifest} {elf : List UInt8} :
    otaParsePackage sha256 fs heap path = .ok (m, elf) ↔
      ∃ mem pkg, heap = some mem ∧ fs.visible path = some pkg ∧ otaManifestSize + 64 ≤ pkg.length ∧
        OtaSound sha256 fs (mem.write 0 pkg) pkg.length ∧
        m = otaManifestAt (mem.write 0 pkg) ∧ elf = otaImage (mem.write 0 pkg) := by
  cases hfile : fs.visible path with
  | none =>
    rw [otaParsePackage, otaFileSize, fileSizeByByte_none hfile]
    exact iff_of_false nofun fun ⟨_, _, _, h, _⟩ => nomatch h
  | some pkg =>
    rw [otaParsePackage, otaFileSize, fileSizeByByte_eq hfile]
    dsimp only
    by_cases hsize : otaManifestSize + 64 ≤ pkg.length
    · have hmax : max 1 pkg.length = pkg.length := by omega
      rw [hmax, if_neg (by omega), ramfsRead_all hfile (by omega)]
      cases heap with
      | none => exact iff_of_false nofun fun ⟨_, _, h, _⟩ => nomatch h
      | some mem =>
        dsimp only
        rw [if_neg (not_not.mpr rfl), ite_not]
        constructor
        · intro h
          split_ifs at h with hcheck
          obtain ⟨rfl, rfl⟩ := Prod.mk.inj (Except.ok.inj h)
          exact ⟨mem, pkg, rfl, rfl, hsize, otaCheck_eq_zero_iff.mp hcheck, rfl, rfl⟩
        · rintro ⟨_, _, hmem, hpkg, -, hsound, rfl, rfl⟩
          obtain rfl := Option.some.inj hmem
          obtain rfl := Option.some.inj hpkg
          rw [if_pos (otaCheck_eq_zero_iff.mpr hsound)]
          rfl
    · rw [if_pos (by omega)]
      refine iff_of_false nofun ?_
      rintro ⟨_, _, -, hpkg, hsize', -⟩
      exact hsize (Option.some.inj hpkg ▸ hsize')

/-- An error is not taken for success. -/
theorem otaParsePackage_error {sha256 : Sha256} {fs : Ramfs} {heap : Option Buf} {path : CStr}
    {e : Int} (h : otaParsePackage sha256 fs heap path = .error e) : e ≠ 0 := by
  have hcodes : enoent ≠ 0 ∧ einval ≠ 0 ∧ enospc ≠ 0 ∧ eio ≠ 0 := by decide
  cases hfile : fs.visible path with
  | none =>
    rw [otaParsePackage, otaFileSize, fileSizeByByte_none hfile] at h
    obtain rfl := Except.error.inj h
    exact hcodes.1
  | some pkg =>
    rw [otaParsePackage, otaFileSize, fileSizeByByte_eq hfile] at h
    dsimp only at h
    split_ifs at h with hsize
    · obtain rfl := Except.error.inj h
      exact hcodes.2.1
    · rw [ramfsRead_start fs path (by omega), hfile] at h
      cases heap with
      | none =>
        obtain rfl := Except.error.inj h
        exact hcodes.2.2.1
      | some mem =>
        dsimp only at h
        split_ifs at h with hlen hcheck
        · obtain rfl := Except.error.inj h
          exact hcodes.2.2.2
        · obtain rfl := Except.error.inj h
          exact hcheck

section

variable {sha256 : Sha256} {a : Caller} {fs fs' : Ramfs} {heap : Option Buf} {behind kpath : CStr}

/-- **Applying a package** is storing its image under its path. -/
theorem otaApplyPackageKpath_eq_ok_iff :
    otaApplyPackageKpath sha256 a fs heap behind kpath = (0, fs') ↔
      a.hasCap capFs = true ∧ otaPkgPathOk a kpath.bytes = true ∧
        ∃ m elf, otaParsePackage sha256 fs heap kpath = .ok (m, elf) ∧
          ramfsPut fs (m.installPathText behind) elf = (0, fs') := by
  have hcodes : eperm ≠ 0 ∧ enospc ≠ 0 := by decide
  constructor
  · intro h
    rw [otaApplyPackageKpath] at h
    split_ifs at h with hcap hpath
    · exact absurd (Prod.mk.inj h).1 hcodes.1
    · exact absurd (Prod.mk.inj h).1 hcodes.1
    · refine ⟨by simpa using hcap, by simpa using hpath, ?_⟩
      cases hparse : otaParsePackage sha256 fs heap kpath with
      | error e =>
        rw [hparse] at h
        exact absurd (Prod.mk.inj h).1 (otaParsePackage_error hparse)
      | ok found =>
        rw [hparse] at h
        dsimp only at h
        split_ifs at h with hput
        · exact absurd (Prod.mk.inj h).1 hcodes.2
        · exact ⟨found.1, found.2, rfl, Prod.ext (not_not.mp hput) (Prod.mk.inj h).2⟩
  · rintro ⟨hcap, hpath, m, elf, hparse, hput⟩
    rw [otaApplyPackageKpath, hcap, hpath, hparse]
    simp only [hput]
    rfl

/-- A package that is not applied leaves the files alone. -/
theorem otaApplyPackageKpath_failed
    (h : (otaApplyPackageKpath sha256 a fs heap behind kpath).1 ≠ 0) :
    (otaApplyPackageKpath sha256 a fs heap behind kpath).2 = fs := by
  rw [otaApplyPackageKpath] at h ⊢
  split_ifs with hcap hpath
  · rfl
  · rfl
  · rw [if_neg hcap, if_neg hpath] at h
    cases hparse : otaParsePackage sha256 fs heap kpath with
    | error e => rfl
    | ok found =>
      rw [hparse] at h
      dsimp only at h ⊢
      split_ifs with hput
      · exact ramfsPut_failed hput
      · rw [if_neg hput] at h
        exact absurd rfl h

end

end OpenAgentOS
