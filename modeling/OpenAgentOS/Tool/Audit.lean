import OpenAgentOS.Fs.Frame
import OpenAgentOS.Tool.PathPolicy

/-!
# The audit log (kernel/audit.c, tool_audit_log in kernel/tool.c)

Every tool call leaves a line in the log of its caller, `/audit/agent/<id>/tool.log`.
The log has a quota of 512 bytes; when a line does not fit, the log is compacted
to its last eight lines and the line is tried once more.

- `auditPathFor`, `auditWrite`, `auditCompact`, `toolAuditLog`: the code.
- `parseAuditAgentId_auditPathFor`: the path of an agent's log is parsed back as
  that agent's.
- `reachesOn_toolAuditLog`: logging writes to the caller's log and nowhere else.
-/

namespace OpenAgentOS

open CString

/-- `AUDIT_QUOTA_BYTES`. -/
abbrev auditQuotaBytes : Nat := 512

/-- `AUDIT_COMPACT_MAX_LINES`. -/
abbrev auditCompactMaxLines : Nat := 256

/-- `audit_path_for` (audit.c:32). -/
def auditPathFor (agentId : Nat) : CStr where
  bytes := bytes "/audit/agent/" ++ (decimal agentId ++ bytes "/tool.log")
  nul_free := by
    rw [List.mem_append, List.mem_append, not_or, not_or]
    exact ⟨by decide +kernel, zero_not_mem_decimal agentId, by decide⟩

/-- The probing loop of `audit_usage`: bytes are read one by one from `off` on
until none comes back; `n` is what is left of `RAMFS_FILE_SIZE`. -/
def usageLoop (fs : Ramfs) (path : CStr) : Nat → Nat → Nat
  | 0, off => off
  | n + 1, off =>
    match ramfsRead fs path off 1 with
    | .ok (_ :: _) => usageLoop fs path n (off + 1)
    | _ => off

/-- `audit_usage` (audit.c:77). A log that exists counts as one byte at least. -/
def auditUsage (fs : Ramfs) (agentId : Nat) : Nat :=
  match ramfsRead fs (auditPathFor agentId) 0 1 with
  | .error _ => 0
  | .ok _ => usageLoop fs (auditPathFor agentId) (ramfsFileSize - 1) 1

/-- `audit_allow_append` (audit.c:101). -/
def auditAllowAppend (fs : Ramfs) (agentId addBytes : Nat) : Int :=
  if auditQuotaBytes < auditUsage fs agentId + addBytes then enospc else 0

/-- `audit_write` (audit.c:147). -/
def auditWrite (fs : Ramfs) (agentId : Nat) (data : List UInt8) : Int × Ramfs :=
  if data.length = 0 then (einval, fs)
  else if auditAllowAppend fs agentId data.length ≠ 0 then
    (auditAllowAppend fs agentId data.length, fs)
  else
    let path := auditPathFor agentId
    let used := auditUsage fs agentId
    if used = 0 then ramfsPut fs path data
    else if ramfsFileSize ≤ used + data.length then (enospc, fs)
    else
      match ramfsRead fs path 0 used with
      | .error e => (e, fs)
      | .ok old => ramfsPut fs path (old ++ data)

/-- The offsets where lines start, as far as `line_starts` has room. -/
def lineStarts (buf : List UInt8) : List Nat :=
  let newlines := (List.range buf.length).filter fun i =>
    charAt buf i == '\n'.toUInt8 && decide (i + 1 < buf.length)
  (0 :: newlines.map (· + 1)).take (auditCompactMaxLines - 1)

/-- `audit_compact` (audit.c:176). -/
def auditCompact (fs : Ramfs) (agentId : Nat) (keepLines : Int) : Int × Ramfs :=
  let keep := (max 1 (min keepLines 32)).toNat
  let path := auditPathFor agentId
  match ramfsRead fs path 0 ramfsFileSize with
  | .error _ => (0, fs)
  | .ok buf =>
    if buf.length = 0 then (0, fs)
    else if (lineStarts buf).length ≤ keep then (auditUsage fs agentId, fs)
    else
      let start := (lineStarts buf).getD ((lineStarts buf).length - keep) 0
      let head := bytes "compact: " ++ (if 10 ≤ keep then [digitChar (keep / 10)] else [])
        ++ [digitChar (keep % 10), '\n'.toUInt8]
      let out := (head ++ buf.drop start).take (ramfsFileSize - 1)
      (out.length, (ramfsPut fs path out).2)

/-- `append_int` (tool.c:44): the text grows by a number, unless it reaches the
last byte of a buffer of `cap` bytes. -/
def appendInt (text : List UInt8) (cap : Nat) (val : Int) : Option (List UInt8) :=
  let number := if val < 0 then '-'.toUInt8 :: decimal (-val).toNat else decimal val.toNat
  if text.length + number.length ≤ cap - 1 then some (text ++ number) else none

/-- The line that `tool_audit_log` writes. -/
def auditLine (tool rc : Int) : Option (List UInt8) := do
  let text ← appendInt (bytes "tool=") 32 tool
  let text ← appendInt (text ++ bytes " rc=") 32 rc
  return text ++ ['\n'.toUInt8]

/-- `tool_audit_log` (tool.c:74). -/
def toolAuditLog (fs : Ramfs) (a : Caller) (tool rc : Int) : Ramfs :=
  match auditLine tool rc with
  | none => fs
  | some line =>
    let first := auditWrite fs a.id line
    if first.1 = enospc then
      let compacted := auditCompact first.2 a.id 8
      (auditWrite compacted.2 a.id line).2
    else first.2

/-! ## The path of a log -/

/-- **The path of an agent's log names that agent.** -/
theorem parseAuditAgentId_auditPathFor {agentId : Nat} (h : agentId < 2 ^ 31) :
    parseAuditAgentId (auditPathFor agentId).bytes = agentId := by
  have hdrop : (auditPathFor agentId).bytes.drop (1 + (bytes "audit/" ++ bytes "agent/").length)
      = decimal agentId ++ bytes "/tool.log" := rfl
  have hlead : hasAt (auditPathFor agentId).bytes 1 (bytes "audit/" ++ bytes "agent/") = true :=
    hasAt_append (s := bytes "/audit/agent/") (by decide) (by decide) _
  have hdigit := isDigit_decimal agentId (bytes "/tool.log")
  have hnum : scanInt 0 (decimal agentId ++ bytes "/tool.log")
      = ((agentId : Int), bytes "/tool.log") := scanInt_decimal h (by decide)
  have htail : hasAt (bytes "/tool.log") 0 ('/'.toUInt8 :: bytes "tool.log") = true := by decide
  have hend : (charAt (bytes "/tool.log") (1 + "tool.log".length) == 0) = true := by decide
  simp only [parseAuditAgentId, parseOwner, hdrop, hlead, hdigit, hnum, htail, hend,
    Bool.or_true, Bool.and_self, if_true]

/-- A log path starts like an audit path. -/
theorem isAuditPath_auditPathFor (agentId : Nat) :
    isAuditPath (auditPathFor agentId).bytes = true :=
  hasAt_append (s := bytes "/audit/") (by decide) (by decide) _

/-- The log path of an agent of the table is stored in full. -/
theorem copy_auditPathFor (id : Fin maxAgents) :
    (auditPathFor id).copy ramfsPathMax = auditPathFor id := by
  refine CStr.copy_eq_self ?_
  show (bytes "/audit/agent/" ++ (decimal id ++ bytes "/tool.log")).length < ramfsPathMax
  have hid : (decimal id).length ≤ 2 := length_decimal_le (by decide) (id.isLt.trans (by decide))
  rw [List.length_append, List.length_append]
  show 13 + ((decimal id).length + 9) < 64
  omega

/-! ## What logging writes -/

variable {a : Caller}

theorem reachesOn_auditWrite (fs : Ramfs) (data : List UInt8) :
    fs.ReachesOn (· = auditPathFor a.id) (auditWrite fs a.id data).2 := by
  rw [auditWrite]
  split_ifs
  · exact .refl _ fs
  · exact .refl _ fs
  · dsimp only
    split_ifs
    · exact .put fs data (copy_auditPathFor a.id)
    · exact .refl _ fs
    · split
      · exact .refl _ fs
      · exact .put fs _ (copy_auditPathFor a.id)

theorem reachesOn_auditCompact (fs : Ramfs) (keepLines : Int) :
    fs.ReachesOn (· = auditPathFor a.id) (auditCompact fs a.id keepLines).2 := by
  simp only [auditCompact]
  split
  · exact .refl _ fs
  · split
    · exact .refl _ fs
    · split
      · exact .refl _ fs
      · exact .put fs _ (copy_auditPathFor a.id)

/-- **Logging a tool call writes to the caller's log only.** -/
theorem reachesOn_toolAuditLog (fs : Ramfs) (a : Caller) (tool rc : Int) :
    fs.ReachesOn (· = auditPathFor a.id) (toolAuditLog fs a tool rc) := by
  rw [toolAuditLog]
  split
  · exact .refl _ fs
  · dsimp only
    split_ifs
    · exact ((reachesOn_auditWrite fs _).trans (reachesOn_auditCompact _ 8)).trans
        (reachesOn_auditWrite _ _)
    · exact reachesOn_auditWrite fs _

end OpenAgentOS
