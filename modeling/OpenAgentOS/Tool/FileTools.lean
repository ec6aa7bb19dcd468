import OpenAgentOS.Fs.RoundTrip
import OpenAgentOS.Tool.Audit

/-!
# Reading and writing files through the tool gateway (kernel/tool.c, quota.c, policy.c)

`tool_dispatch` puts a call of `TOOL_READ` or `TOOL_WRITE` through the tool
quota, the deny list, the capability check and the path rules, runs it, logs it
in the caller's audit log and charges it.

- `UserPath`, `readPathFromUser`: a path argument. The kernel reads it twice,
  for the check and for the run. An overlong path is cut to 64 bytes and left
  without a terminator, so what follows it is whatever the kernel's stack holds
  and can differ between the two.
- `runRead`, `runWrite`, `toolDispatch`: the tools and the gateway.
- `reachesOn_toolDispatch`: a call stores only where its caller may write. What
  another agent may read is not such a place (`not_writable_of_read`), and
  `fileTools_isolated` carries this over runs.
- `runWrite_full`: a write of exactly 8192 bytes passes the check of the tool, is
  refused by `ramfs_write`, and leaves an empty file behind.
- `runWrite_failed_iff`: no other failed write leaves a trace.
-/

namespace OpenAgentOS

open CString

/-- `IO_BUF`: what fits into the buffer on the stack. -/
abbrev ioBuf : Nat := 256

/-- `IO_MAX`: the longest transfer. -/
abbrev ioMax : Nat := ramfsFileSize

/-- `QUOTA_TOOL_MAX`. -/
abbrev quotaToolMax : Nat := 128

/-- `QUOTA_FS_FILES`. -/
abbrev quotaFsFiles : Nat := 32

/-! ## Paths from user memory -/

/-- A path argument: the string at the pointer, if it can be read, and the bytes
that follow the path buffer in the stack frames of the check and of the run. -/
structure UserPath where
  text : Option CStr
  behindCheck : CStr
  behindRun : CStr

/-- `read_path_from_user` (tool.c:123), on a string in user memory and the bytes
`behind` the buffer. -/
def readPathFromUser (text : Option CStr) (behind : CStr) : Except Int CStr :=
  match text with
  | none => .error efault
  | some s =>
    if s.length = 0 then .error einval
    else if s.length < ramfsPathMax then .ok s
    else .ok
      { bytes := s.bytes.take ramfsPathMax ++ behind.bytes
        nul_free := by
          rw [List.mem_append, not_or]
          exact ⟨fun h => s.nul_free (List.mem_of_mem_take h), behind.nul_free⟩ }

/-- Whatever is behind the buffer, a path starts with the same 63 bytes. -/
theorem readPathFromUser_take {s path behind : CStr}
    (h : readPathFromUser (some s) behind = .ok path) :
    path.bytes.take (ramfsPathMax - 1) = s.bytes.take (ramfsPathMax - 1) := by
  simp only [readPathFromUser] at h
  split_ifs at h with hempty hshort
  · obtain rfl := Except.ok.inj h
    rfl
  · obtain rfl := Except.ok.inj h
    have hlen : ramfsPathMax ≤ s.bytes.length := Nat.not_lt.mp hshort
    rw [List.take_append_of_le_length (by rw [List.length_take, Nat.min_eq_left hlen]; decide),
      List.take_take]
    rfl

/-- The path of the check starts with the path the run stores. -/
theorem readPathFromUser_stored {text : Option CStr} {behind behind' path path' : CStr}
    (h : readPathFromUser text behind = .ok path)
    (h' : readPathFromUser text behind' = .ok path') :
    ∃ rest, path.bytes = (path'.copy ramfsPathMax).bytes ++ rest := by
  cases text with
  | none => cases h
  | some s =>
    refine ⟨path.bytes.drop (ramfsPathMax - 1), ?_⟩
    show path.bytes = path'.bytes.take (ramfsPathMax - 1) ++ path.bytes.drop (ramfsPathMax - 1)
    rw [readPathFromUser_take h', ← readPathFromUser_take h, List.take_append_drop]

/-! ## Quotas and the deny list -/

/-- What the gateway keeps between calls. -/
structure Gateway where
  fs : Ramfs
  toolCount : Fin maxAgents → Nat
  denyTools : List Int

/-- `quota_tool_allow` (quota.c:81). -/
def quotaToolAllow (g : Gateway) (a : Caller) : Int :=
  if quotaToolMax ≤ g.toolCount a.id then enospc else 0

/-- `quota_tool_charge` (quota.c:92). -/
def quotaToolCharge (g : Gateway) (a : Caller) : Gateway :=
  { g with toolCount := Function.update g.toolCount a.id (g.toolCount a.id + 1) }

/-- `policy_exempt` (policy.c:35). -/
def policyExempt (tool : Int) : Bool :=
  tool == toolPolicy || tool == toolFleet || tool == toolRemote || tool == toolMesh ||
    tool == toolQuota

/-- `policy_tool_allow` (policy.c:271). -/
def policyToolAllow (g : Gateway) (tool : Int) : Int :=
  if policyExempt tool then 0
  else if g.denyTools.contains tool then eperm
  else 0

/-- `parse_agent_path_id` (quota.c:10). -/
def parseAgentPathId (path : List UInt8) : Option Int :=
  let num := scanInt 0 (path.drop 7)
  if charAt path 0 == '/'.toUInt8 && hasAt path 1 (bytes "agent/") && isDigit (charAt path 7)
      && charAt num.2 0 == '/'.toUInt8 then some num.1
  else none

/-- `quota_fs_allow_new` (quota.c:110). -/
def quotaFsAllowNew (fs : Ramfs) (a : Caller) (path : CStr) : Int :=
  match parseAgentPathId path.bytes with
  | none => 0
  | some id =>
    if id ≠ (a.id : Int) then 0
    else if ramfsPathExists fs path then 0
    else if quotaFsFiles ≤ ramfsCountAgentFiles fs a.id then enospc
    else 0

/-! ## The tools -/

/-- The arguments of `TOOL_READ` and `TOOL_WRITE`, and what the machine answers:
whether `kalloc` finds memory, whether `copy_to_user` into the reader's buffer
succeeds, and the `len` bytes at the writer's buffer if they can be read. -/
inductive FileCall where
  | read (path : UserPath) (len : Int) (heap store : Bool)
  | write (path : UserPath) (len : Int) (heap : Bool)
      (data : Option { d : List UInt8 // d.length = len.toNat })

/-- `run_read` (tool.c:221): the bytes delivered, or the error code. -/
def runRead (fs : Ramfs) (path : UserPath) (len : Int) (heap store : Bool) :
    Except Int (List UInt8) := do
  let .ok path := readPathFromUser path.text path.behindRun | .error einval
  if len ≤ 0 ∨ ioMax < len then .error einval
  if ioBuf < len ∧ heap = false then .error enospc
  let out ← ramfsRead fs path 0 len
  if store = false then .error efault
  return out

/-- `run_write` (tool.c:258). -/
def runWrite (fs : Ramfs) (a : Caller) (path : UserPath) (len : Int) (heap : Bool)
    (data : Option { d : List UInt8 // d.length = len.toNat }) : Int × Ramfs :=
  match readPathFromUser path.text path.behindRun with
  | .error _ => (einval, fs)
  | .ok path =>
    if len ≤ 0 ∨ ioMax < len then (einval, fs)
    else if ioBuf < len ∧ heap = false then (enospc, fs)
    else
      match data with
      | none => (efault, fs)
      | some data =>
        if quotaFsAllowNew fs a path ≠ 0 then (quotaFsAllowNew fs a path, fs)
        else ramfsWrite fs path 0 data.1

/-- The `check` of both tools: a path that cannot be read is `EINVAL`. -/
def checkPath (rule : Caller → List UInt8 → Int) (a : Caller) (path : UserPath) : Int :=
  match readPathFromUser path.text path.behindCheck with
  | .error _ => einval
  | .ok path => rule a path.bytes

/-- `tool_audit_log` on the gateway's files. -/
def Gateway.log (g : Gateway) (a : Caller) (tool rc : Int) : Gateway :=
  { g with fs := toolAuditLog g.fs a tool rc }

/-- `tool_dispatch` (tool.c:889) for an entry of the table that is neither exempt
from the quota and the deny list nor from logging. -/
def dispatchEntry (g : Gateway) (a : Caller) (tool : Int) (cap : UInt32) (check : Int)
    (run : Ramfs → Int × Ramfs) : Int × Gateway :=
  if quotaToolAllow g a ≠ 0 then (quotaToolAllow g a, g.log a tool (quotaToolAllow g a))
  else if policyToolAllow g tool ≠ 0 then
    (policyToolAllow g tool, g.log a tool (policyToolAllow g tool))
  else if a.hasCap cap = false then (eperm, g.log a tool eperm)
  else if check ≠ 0 then (check, g.log a tool check)
  else
    let out := run g.fs
    (out.1, quotaToolCharge ({ g with fs := out.2 }.log a tool out.1) a)

/-- `tool_dispatch` for the two file tools. -/
def toolDispatch (g : Gateway) (a : Caller) : FileCall → Int × Gateway
  | .read path len heap store =>
    dispatchEntry g a toolRead capFs (checkPath policyFsRead a path) fun fs =>
      match runRead fs path len heap store with
      | .error e => (e, fs)
      | .ok out => (out.length, fs)
  | .write path len heap data =>
    dispatchEntry g a toolWrite capFs (checkPath policyFsWrite a path) fun fs =>
      runWrite fs a path len heap data

/-- The gateway after a sequence of calls. -/
def Gateway.run (g : Gateway) (calls : List (Caller × FileCall)) : Gateway :=
  calls.foldl (fun g c => (toolDispatch g c.1 c.2).2) g

/-- A call that passes all checks is run, logged and charged. -/
theorem dispatchEntry_granted {g : Gateway} {a : Caller} {tool : Int} {cap : UInt32}
    {check rc : Int} {run : Ramfs → Int × Ramfs} {fs : Ramfs} (hquota : quotaToolAllow g a = 0)
    (hdeny : policyToolAllow g tool = 0) (hcap : a.hasCap cap = true) (hcheck : check = 0)
    (hrun : run g.fs = (rc, fs)) :
    dispatchEntry g a tool cap check run
      = (rc, quotaToolCharge ({ g with fs := fs }.log a tool rc) a) := by
  rw [dispatchEntry, if_neg (not_not.mpr hquota), if_neg (not_not.mpr hdeny),
    if_neg (by rw [hcap]; decide), if_neg (not_not.mpr hcheck), hrun]

/-! ## What a call writes -/

/-- The paths under which the tools store for `a`: its log, and beginnings of
paths that it may write. -/
def Writable (a : Caller) (p : CStr) : Prop :=
  p = auditPathFor a.id ∨ ∃ rest, policyFsWrite a (p.bytes ++ rest) = 0

/-- A write stores under the path that it reads. -/
theorem reachesOn_runWrite (fs : Ramfs) (a : Caller) {path : UserPath} {len : Int} {heap : Bool}
    {data : Option { d : List UInt8 // d.length = len.toNat }} {paths : CStr → Prop}
    (h : ∀ p, readPathFromUser path.text path.behindRun = .ok p →
      paths (p.copy ramfsPathMax)) :
    fs.ReachesOn paths (runWrite fs a path len heap data).2 := by
  rw [runWrite]
  split
  · exact .refl _ fs
  · rename_i p hp
    cases data with
    | none =>
      dsimp only
      split_ifs
      · exact .refl _ fs
      · exact .refl _ fs
      · exact .refl _ fs
    | some data =>
      dsimp only
      split_ifs
      · exact .refl _ fs
      · exact .refl _ fs
      · exact .refl _ fs
      · exact .write fs 0 _ (h p hp)

/-- The gateway adds a line in the caller's log to what the tool writes. -/
theorem reachesOn_dispatchEntry (g : Gateway) (a : Caller) (tool : Int) (cap : UInt32)
    {check : Int} {run : Ramfs → Int × Ramfs} {paths : CStr → Prop}
    (haudit : paths (auditPathFor a.id)) (hrun : check = 0 → g.fs.ReachesOn paths (run g.fs).2) :
    g.fs.ReachesOn paths (dispatchEntry g a tool cap check run).2.fs := by
  have hlog : ∀ (fs : Ramfs) (rc : Int), fs.ReachesOn paths (toolAuditLog fs a tool rc) :=
    fun fs rc => (reachesOn_toolAuditLog fs a tool rc).mono fun _ hp => hp ▸ haudit
  rw [dispatchEntry]
  split_ifs with hquota hdeny hcap hcheck
  · exact hlog g.fs _
  · exact hlog g.fs _
  · exact hlog g.fs _
  · exact hlog g.fs _
  · exact (hrun (not_not.mp hcheck)).trans (hlog _ _)

/-- **A file tool call stores only where its caller may write.** -/
theorem reachesOn_toolDispatch (g : Gateway) (a : Caller) (call : FileCall) :
    g.fs.ReachesOn (Writable a) (toolDispatch g a call).2.fs := by
  cases call with
  | read path len heap store =>
    refine reachesOn_dispatchEntry g a _ _ (.inl rfl) fun _ => ?_
    split
    · exact .refl _ g.fs
    · exact .refl _ g.fs
  | write path len heap data =>
    refine reachesOn_dispatchEntry g a _ _ (.inl rfl) fun hcheck => reachesOn_runWrite g.fs a ?_
    -- the stored path starts the path that was checked
    intro p hp
    rw [checkPath] at hcheck
    split at hcheck
    · exact absurd hcheck (by decide)
    · rename_i p' hp'
      obtain ⟨rest, hrest⟩ := readPathFromUser_stored hp' hp
      rw [hrest] at hcheck
      exact .inr ⟨rest, hcheck⟩

/-! ## Isolation -/

/-- What one agent may read is not writable for another. -/
theorem not_writable_of_read {a b : Caller} {q : CStr} (ha : a.hasCap capSvcStorage = false)
    (hb : b.hasCap capSvcStorage = false) (hne : a.id ≠ b.id)
    (hread : policyFsRead b q.bytes = 0) : ¬ Writable a q := by
  rintro (rfl | ⟨rest, hwrite⟩)
  · rw [policyFsRead, if_pos (isAuditPath_auditPathFor a.id)] at hread
    by_cases hok : auditPathOk b (auditPathFor a.id).bytes = true
    · have hid := (ownPath_iff.mp hok).2
      rw [parseAuditAgentId_auditPathFor (a.id.isLt.trans (by decide))] at hid
      exact hne (Fin.ext (Int.ofNat_inj.mp hid))
    · rw [if_neg hok] at hread
      exact absurd hread (by decide)
  · exact hne (id_eq_of_write_of_read ha hb hwrite hread)

/-- A sequence of calls by agents other than `b` changes no file that `b` may
read. -/
theorem sameUnder_run {b : Caller} {q : CStr} (hb : b.hasCap capSvcStorage = false)
    (hread : policyFsRead b q.bytes = 0) (g : Gateway) {calls : List (Caller × FileCall)}
    (hcalls : ∀ c ∈ calls, c.1.hasCap capSvcStorage = false ∧ c.1.id ≠ b.id) :
    g.fs.SameUnder q (g.run calls).fs := by
  induction calls generalizing g with
  | nil => exact .refl q g.fs
  | cons c calls ih =>
    obtain ⟨⟨hc, hne⟩, hcalls⟩ := List.forall_mem_cons.mp hcalls
    exact ((reachesOn_toolDispatch g c.1 c.2).sameUnder
      (not_writable_of_read hc hb hne hread)).trans (ih _ hcalls)

/-- **Isolation of the file tools.** Of two agents without the storage
capability, at most one may write a path; what one may write the other may not
read; and no sequence of file tool calls by agents other than `b` changes a file
that `b` may read: its slot, its size and its content stay, and none appears. -/
theorem fileTools_isolated (a b : Caller) (ha : a.hasCap capSvcStorage = false)
    (hb : b.hasCap capSvcStorage = false) (hne : a.id ≠ b.id) :
    (∀ p : CStr, ¬ (policyFsWrite a p.bytes = 0 ∧ policyFsWrite b p.bytes = 0)) ∧
    (∀ p q : CStr, policyFsWrite a p.bytes = 0 → policyFsRead b q.bytes = 0 → p ≠ q) ∧
    (∀ q : CStr, policyFsRead b q.bytes = 0 →
      ∀ (g : Gateway) (calls : List (Caller × FileCall)),
        (∀ c ∈ calls, c.1.hasCap capSvcStorage = false ∧ c.1.id ≠ b.id) →
        g.fs.SameUnder q (g.run calls).fs) := by
  refine ⟨fun p ⟨hpa, hpb⟩ => ?_, fun p q hp hq hpq => ?_, fun q hq g calls hcalls => ?_⟩
  · rw [policyFsWrite_eq_zero_iff ha] at hpa
    rw [policyFsWrite_eq_zero_iff hb, hpa, Option.some_inj] at hpb
    exact hne (Fin.ext (Int.ofNat_inj.mp hpb))
  · rw [hpq, ← List.append_nil q.bytes] at hp
    exact hne (id_eq_of_write_of_read ha hb hp hq)
  · exact sameUnder_run hb hq g hcalls

/-- An agent with the file capability only. -/
def plainAgent (id : Fin maxAgents) : Caller := ⟨id, capFs⟩

theorem fileTools_isolated_plain :
    policyFsWrite (plainAgent 3) (CStr.lit "/agent/3/note").bytes = 0 ∧
      policyFsRead (plainAgent 4) (CStr.lit "/sys/version").bytes = 0 ∧
      CStr.lit "/agent/3/note" ≠ CStr.lit "/sys/version" :=
  ⟨by decide +kernel, by decide +kernel,
    (fileTools_isolated (plainAgent 3) (plainAgent 4) (by decide) (by decide) (by decide)).2.1
      _ _ (by decide +kernel) (by decide +kernel)⟩

/-! ## A write that fails and leaves a file -/

/-- **A write of exactly `RAMFS_FILE_SIZE` bytes** to a new path gets past the
length check of the tool. `ramfs_write` then refuses it, after it has created the
file. -/
theorem runWrite_full {fs fs' : Ramfs} {a : Caller} {path : UserPath} {p : CStr}
    {i : Fin ramfsMaxFiles} {data : { d : List UInt8 // d.length = (ioMax : Int).toNat }}
    (hpath : readPathFromUser path.text path.behindRun = .ok p)
    (hquota : quotaFsAllowNew fs a p = 0) (hlookup : lookup fs p true = some (i, fs')) :
    runWrite fs a path ioMax true (some data) = (einval, fs') := by
  have hlen : data.1.length = ramfsFileSize := data.2
  have hsize : ramfsFileSize ≤ 0 + data.1.length := by omega
  rw [runWrite, hpath]
  dsimp only
  rw [if_neg (by decide), if_neg (by decide), if_neg (not_not.mpr hquota), ramfsWrite,
    if_neg (by rw [hlen]; decide), hlookup]
  dsimp only
  rw [dif_pos hsize]

/-- The gateway of a machine that was just switched on. -/
def bootGateway : Gateway := ⟨ramfsInit zeroMem, fun _ => 0, []⟩

/-- The path argument `/agent/3/note`. -/
def noteArg : UserPath := ⟨some (.lit "/agent/3/note"), .lit "", .lit ""⟩

/-- 8192 bytes. -/
def fullData : { d : List UInt8 // d.length = (ioMax : Int).toNat } :=
  ⟨List.replicate ramfsFileSize 1, List.length_replicate⟩

/-- A write of 8192 bytes to `/agent/3/note`. -/
def fullWrite : FileCall := .write noteArg ioMax true (some fullData)

/-- The files after `fullWrite`: an empty note, and a line in the log. -/
def afterFullWrite : Ramfs :=
  toolAuditLog ((ramfsInit zeroMem).create 2 (.lit "/agent/3/note")) (plainAgent 3) toolWrite
    einval

theorem lookup_note : lookup (ramfsInit zeroMem) (.lit "/agent/3/note") true
    = some (2, (ramfsInit zeroMem).create 2 (.lit "/agent/3/note")) := by
  have hfind : (ramfsInit zeroMem).find (.lit "/agent/3/note") = none := by decide +kernel
  have hfree : (firstSlot fun i => !((ramfsInit zeroMem) i).used) = some 2 := by decide +kernel
  rw [lookup, hfind]
  dsimp only
  rw [if_pos rfl, hfree, Option.map_some]

/-- **The failed write makes the disk unreadable**: agent 3 is told `EINVAL`, but
the empty file stays, the next sync saves it, and the reboot after that fails. -/
theorem not_roundTrips_fullWrite :
    (toolDispatch bootGateway (plainAgent 3) fullWrite).1 = einval ∧
      ¬ RoundTrips true zeroJunk zeroJunk zeroMem zeroDisk
        (toolDispatch bootGateway (plainAgent 3) fullWrite).2.fs := by
  have hrun : runWrite bootGateway.fs (plainAgent 3) noteArg ioMax true (some fullData)
      = (einval, (ramfsInit zeroMem).create 2 (.lit "/agent/3/note")) :=
    runWrite_full rfl (by decide +kernel) lookup_note
  have hcheck : checkPath policyFsWrite (plainAgent 3) noteArg = 0 := by decide +kernel
  have hdispatch : toolDispatch bootGateway (plainAgent 3) fullWrite
      = (einval, quotaToolCharge { bootGateway with fs := afterFullWrite } (plainAgent 3)) := by
    rw [fullWrite, toolDispatch, dispatchEntry_granted (by decide) (by decide) (by decide)
      hcheck hrun]
    rfl
  rw [hdispatch]
  refine ⟨rfl, fun h => ?_⟩
  have hrc := (h (by rw [persistSync_eq])).1
  revert hrc
  show (reboot true zeroJunk zeroMem
    (zeroDisk.writeAll (persistSync true zeroJunk afterFullWrite).2)).rc ≠ 0
  decide +kernel

/-! ## What a failed write leaves -/

/-- The file in slot `i`: its path and content. -/
def Ramfs.entry (fs : Ramfs) (i : Fin ramfsMaxFiles) : Option FileRec :=
  if (fs i).used then some ((fs i).path, (fs i).content) else none

theorem entry_create (fs : Ramfs) (i : Fin ramfsMaxFiles) (path : CStr) :
    (fs.create i path).entry i = some (path.copy ramfsPathMax, []) := by
  rw [Ramfs.entry, Ramfs.create, Function.update_self]
  rfl

/-- **A `ramfs_write` that fails** has changed nothing, or has created the file and then found the data
too long. -/
theorem ramfsWrite_failed {fs : Ramfs} {path : CStr} {offset : Nat} {data : List UInt8}
    (h : (ramfsWrite fs path offset data).1 < 0) :
    (ramfsWrite fs path offset data).2 = fs ∨
      fs.visible path = none ∧ slotCount (fun i => (fs i).used) < ramfsMaxFiles ∧
        ramfsFileSize ≤ offset + data.length := by
  rw [ramfsWrite] at h ⊢
  by_cases hempty : data.length = 0
  · rw [if_pos hempty]
    exact .inl rfl
  rw [if_neg hempty] at h ⊢
  by_cases hroom : fs.visible path = none → slotCount (fun i => (fs i).used) < ramfsMaxFiles
  · obtain ⟨i, fs₁, hlookup⟩ := exists_lookup hroom
    rw [hlookup] at h ⊢
    dsimp only at h ⊢
    by_cases hsize : ramfsFileSize ≤ offset + data.length
    · rw [dif_pos hsize]
      obtain ⟨-, rfl⟩ | ⟨hfind, -, -⟩ := lookup_create hlookup
      · exact .inl rfl
      · have hnone : fs.visible path = none := by rw [Ramfs.visible, hfind, Option.map_none]
        exact .inr ⟨hnone, hroom hnone, hsize⟩
    · rw [dif_neg hsize] at h
      exact absurd h (Int.not_lt.mpr (Int.natCast_nonneg _))
  · obtain ⟨hnone, hfull⟩ := Classical.not_imp.mp hroom
    rw [lookup_of_full hnone hfull]
    exact .inl rfl

/-- The write is not one of exactly `RAMFS_FILE_SIZE` bytes that gets as far as `ramfs_write` with a
path that is new there, while a slot is free. -/
def NotFullAndNew (fs : Ramfs) (a : Caller) (path : UserPath) (len : Int) (heap : Bool)
    (data : Option { d : List UInt8 // d.length = len.toNat }) : Prop :=
  len = ramfsFileSize → heap = true → data.isSome = true →
    ∀ p, readPathFromUser path.text path.behindRun = .ok p → quotaFsAllowNew fs a p = 0 →
      fs.visible p = none → ¬ slotCount (fun i => (fs i).used) < ramfsMaxFiles

/-- **A write that fails** leaves all files as they were, except one of exactly `RAMFS_FILE_SIZE` bytes
to a new path. -/
theorem runWrite_failed_iff (fs : Ramfs) (a : Caller) (path : UserPath) (len : Int) (heap : Bool)
    (data : Option { d : List UInt8 // d.length = len.toNat }) :
    ((runWrite fs a path len heap data).1 < 0 →
        ∀ i, (runWrite fs a path len heap data).2.entry i = fs.entry i) ↔
      NotFullAndNew fs a path len heap data := by
  constructor
  · rintro hkept rfl rfl hdata p hpath hquota hnew hroom
    obtain ⟨data, rfl⟩ := Option.isSome_iff_exists.mp hdata
    obtain ⟨i, fs₁, hlookup⟩ := exists_lookup fun _ => hroom
    have hrun : runWrite fs a path ramfsFileSize true (some data) = (einval, fs₁) :=
      runWrite_full hpath hquota hlookup
    rw [hrun] at hkept
    have hfind : fs.find p = none := Option.map_eq_none_iff.mp hnew
    obtain ⟨hfound, -⟩ | ⟨-, hfree, rfl⟩ := lookup_create hlookup
    · rw [hfind] at hfound
      cases hfound
    · have hentry := hkept (show einval < 0 by decide) i
      rw [entry_create, Ramfs.entry, hfree] at hentry
      cases hentry
  · intro hclean hneg i
    rw [runWrite] at hneg ⊢
    cases hpath : readPathFromUser path.text path.behindRun with
    | error rc => rfl
    | ok p =>
      rw [hpath] at hneg
      dsimp only at hneg ⊢
      by_cases hlen : len ≤ 0 ∨ ioMax < len
      · rw [if_pos hlen]
      by_cases hheap : ioBuf < len ∧ heap = false
      · rw [if_neg hlen, if_pos hheap]
      rw [if_neg hlen, if_neg hheap] at hneg ⊢
      cases data with
      | none => rfl
      | some data =>
        dsimp only at hneg ⊢
        by_cases hquota : quotaFsAllowNew fs a p = 0
        · rw [if_neg (not_not_intro hquota)] at hneg ⊢
          obtain hsame | ⟨hnew, hroom, hsize⟩ := ramfsWrite_failed hneg
          · rw [hsame]
          · -- the tool lets no more than 8192 bytes through
            have hfull : len = ramfsFileSize := by
              have hlength := data.2
              simp only [ioMax, ramfsFileSize] at hlen hsize ⊢
              omega
            have hmem : heap = true := by
              by_contra hno
              refine hheap ⟨?_, Bool.not_eq_true _ ▸ hno⟩
              rw [hfull]
              decide
            exact absurd hroom (hclean hfull hmem rfl p hpath hquota hnew)
        · rw [if_pos hquota]

/-- **The empty note.** Agent 3 is told `EINVAL`, and there is one more file than before. -/
theorem not_runWrite_failed_kept :
    (runWrite bootGateway.fs (plainAgent 3) noteArg ioMax true (some fullData)).1 < 0 ∧
      bootGateway.fs.entry 2 = none ∧
      (runWrite bootGateway.fs (plainAgent 3) noteArg ioMax true (some fullData)).2.entry 2 =
        some (.lit "/agent/3/note", []) := by
  have hrun : runWrite bootGateway.fs (plainAgent 3) noteArg ioMax true (some fullData)
      = (einval, (ramfsInit zeroMem).create 2 (.lit "/agent/3/note")) :=
    runWrite_full rfl (by decide +kernel) lookup_note
  rw [hrun]
  refine ⟨by decide, by decide +kernel, ?_⟩
  rw [entry_create]
  exact congrArg (fun p => some (p, [])) (CStr.copy_eq_self (by decide))

end OpenAgentOS
