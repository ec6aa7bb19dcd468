import OpenAgentOS.Tool.Audit

/-!
# What the audit log holds

`audit.c` works on the log through reads of single bytes and whole files. Here the
log is the text a reader finds under its path, and the operations are described
by what they do to that text.

- `auditUsage_eq`: the usage is the length of the text, and at least one byte once
  the log exists.
- `visible_auditWrite`, `visible_auditCompact`: appending, and keeping the last
  lines.
- `visible_toolAuditLog`: a tool call leaves its line at the end of the log, as
  long as there is a slot for the log and the line fits, before or after a
  compaction.
-/

namespace OpenAgentOS

open CString

variable {fs : Ramfs} {id : Fin maxAgents}

/-- The text of an agent's log. -/
def Ramfs.auditText (fs : Ramfs) (id : Fin maxAgents) : Option (List UInt8) :=
  fs.visible (auditPathFor id)

/-- What the quota counts for a log. -/
def logUsage : Option (List UInt8) → Nat
  | none => 0
  | some text => max 1 text.length

/-- What `audit_compact` makes of a text. -/
def compacted (keepLines : Int) (buf : List UInt8) : List UInt8 :=
  let keep := (max 1 (min keepLines 32)).toNat
  if buf.length = 0 then buf
  else if (lineStarts buf).length ≤ keep then buf
  else
    let start := (lineStarts buf).getD ((lineStarts buf).length - keep) 0
    let head := bytes "compact: " ++ (if 10 ≤ keep then [digitChar (keep / 10)] else [])
      ++ [digitChar (keep % 10), '\n'.toUInt8]
    (head ++ buf.drop start).take (ramfsFileSize - 1)

/-! ## The usage -/

/-- The probing loop finds the end of the file, or stops when it may not go on. -/
theorem usageLoop_eq {path : CStr} {i : Fin ramfsMaxFiles} (hfind : fs.find path = some i)
    (n off : Nat) : usageLoop fs path n off = max off (min (off + n) (fs i).size) := by
  induction n generalizing off with
  | zero =>
    show off = _
    omega
  | succ n ih =>
    have hread : ramfsRead fs path off 1 = if (fs i).size ≤ off then .ok []
        else .ok ((fs i).data.slice off (min 1 ((fs i).size - off))) := by
      rw [ramfsRead, if_neg (by decide), lookup, hfind]
      rfl
    rw [usageLoop, hread]
    by_cases hend : (fs i).size ≤ off
    · rw [if_pos hend]
      dsimp only
      omega
    · have hone : min 1 ((fs i).size - off) = 1 := by omega
      rw [if_neg hend, hone]
      show usageLoop fs path n (off + 1) = _
      rw [ih]
      omega

/-- The probing finds the length of a file, and at least one byte once it exists. -/
theorem usage_eq (fs : Ramfs) (path : CStr) :
    (match ramfsRead fs path 0 1 with
      | .error _ => 0
      | .ok _ => usageLoop fs path (ramfsFileSize - 1) 1) = logUsage (fs.visible path) := by
  have hread := ramfsRead_start fs path (show 0 < 1 by decide)
  rw [Ramfs.visible] at hread ⊢
  rw [show ((1 : Int)) = ((1 : Nat) : Int) from rfl, hread]
  cases hfind : fs.find path with
  | none => rfl
  | some i =>
    show usageLoop fs path (ramfsFileSize - 1) 1 = max 1 (fs i).content.length
    have hlen : (fs i).content.length = (fs i).size := Buf.length_slice _ _ _
    have hlt := (fs i).size_lt
    rw [usageLoop_eq hfind, hlen]
    omega

/-- **The usage is what the text takes.** -/
theorem auditUsage_eq (fs : Ramfs) (id : Fin maxAgents) :
    auditUsage fs id = logUsage (fs.auditText id) := usage_eq fs _

/-! ## Appending and compacting -/

theorem auditPathFor_short (id : Fin maxAgents) : (auditPathFor id).length < ramfsPathMax := by
  rw [← copy_auditPathFor id]
  exact (auditPathFor id).length_copy_lt (by decide)

/-- **Appending to a log** that has a slot, or can get one. -/
theorem visible_auditWrite {data : List UInt8} (hdata : 0 < data.length)
    (hfits : logUsage (fs.auditText id) + data.length ≤ auditQuotaBytes)
    (hslot : fs.auditText id = none → slotCount (fun i => (fs i).used) < ramfsMaxFiles) :
    (auditWrite fs id data).1 = 0 ∧
      (auditWrite fs id data).2.auditText id = some ((fs.auditText id).getD [] ++ data) := by
  have hallow : auditAllowAppend fs id data.length = 0 := by
    rw [auditAllowAppend, auditUsage_eq, if_neg (Nat.not_lt.mpr hfits)]
  have hsmall : auditQuotaBytes < ramfsFileSize := by decide
  -- every way through the function ends in one put
  have hput : ∀ old : List UInt8, old.length + data.length < ramfsFileSize →
      ∃ fs', ramfsPut fs (auditPathFor id) (old ++ data) = (0, fs') ∧
        fs'.auditText id = some (old ++ data) := by
    intro old hold
    have hpos : 0 < (old ++ data).length := by
      rw [List.length_append]
      omega
    have hlt : (old ++ data).length < ramfsFileSize := by
      rw [List.length_append]
      exact hold
    obtain ⟨fs', hfs'⟩ := ramfsPut_of_found_or_room hpos hlt hslot
    exact ⟨fs', hfs', visible_put_self (auditPathFor_short id) hfs'⟩
  rw [auditWrite, if_neg (by omega), if_neg (not_not.mpr hallow)]
  dsimp only
  rw [auditUsage_eq]
  cases htext : fs.auditText id with
  | none =>
    obtain ⟨fs', hfs', hvisible⟩ := hput [] (by rw [List.length_nil]; omega)
    rw [List.nil_append] at hfs' hvisible
    rw [show logUsage none = 0 from rfl, if_pos rfl, hfs']
    exact ⟨rfl, hvisible⟩
  | some text =>
    rw [htext] at hfits
    have husage : logUsage (some text) = max 1 text.length := rfl
    have hread := ramfsRead_start fs (auditPathFor id) (show 0 < logUsage (some text) by omega)
    have hfull : text.take (logUsage (some text)) = text := List.take_of_length_le (by omega)
    rw [show fs.visible (auditPathFor id) = some text from htext] at hread
    dsimp only at hread
    obtain ⟨fs', hfs', hvisible⟩ := hput text (by omega)
    rw [if_neg (by omega), if_neg (by omega), hread, hfull]
    dsimp only
    rw [hfs']
    exact ⟨rfl, hvisible⟩

/-- **Compacting a log.** -/
theorem visible_auditCompact (fs : Ramfs) (id : Fin maxAgents) (keepLines : Int) :
    (auditCompact fs id keepLines).2.auditText id
      = (fs.auditText id).map (compacted keepLines) := by
  have hread := ramfsRead_start fs (auditPathFor id) (show 0 < ramfsFileSize by decide)
  rw [auditCompact]
  dsimp only
  rw [hread]
  cases htext : fs.auditText id with
  | none =>
    rw [show fs.visible (auditPathFor id) = none from htext]
    exact htext
  | some text =>
    rw [show fs.visible (auditPathFor id) = some text from htext]
    have hlen : text.length < ramfsFileSize := by
      obtain ⟨i, -, hi⟩ := Option.map_eq_some_iff.mp htext
      rw [← hi, RamfsFile.content, Buf.length_slice]
      exact (fs i).size_lt
    have hfull : text.take ramfsFileSize = text := List.take_of_length_le (by omega)
    dsimp only
    rw [hfull, Option.map_some, compacted]
    by_cases hempty : text.length = 0
    · rw [if_pos hempty, if_pos hempty]
      exact htext
    rw [if_neg hempty, if_neg hempty]
    by_cases hfew : (lineStarts text).length ≤ (max 1 (min keepLines 32)).toNat
    · rw [if_pos hfew, if_pos hfew]
      exact htext
    rw [if_neg hfew, if_neg hfew]
    -- the file exists and the new text is not empty, so the put succeeds
    generalize hout : List.take (ramfsFileSize - 1) _ = out
    have hbound : 0 < out.length ∧ out.length < ramfsFileSize := by
      rw [← hout, List.length_take, List.length_append, List.length_append, List.length_append]
      show 0 < min 8191 (9 + _ + 2 + _) ∧ min 8191 (9 + _ + 2 + _) < 8192
      omega
    have hfound : fs.visible (auditPathFor id) = none →
        slotCount (fun i => (fs i).used) < ramfsMaxFiles := fun hnone =>
      absurd (htext.symm.trans hnone) (by simp)
    obtain ⟨fs', hfs'⟩ := ramfsPut_of_found_or_room hbound.1 hbound.2 hfound
    rw [hfs']
    exact visible_put_self (auditPathFor_short id) hfs'

/-- A log that does not exist stays so. -/
theorem auditCompact_of_none (htext : fs.auditText id = none) (keepLines : Int) :
    (auditCompact fs id keepLines).2 = fs := by
  have hread := ramfsRead_start fs (auditPathFor id) (show 0 < ramfsFileSize by decide)
  rw [show fs.visible (auditPathFor id) = none from htext] at hread
  rw [auditCompact]
  dsimp only
  rw [hread]

/-! ## A tool call's line -/

section Line

variable {a : Caller} {tool rc : Int} {line : List UInt8}
  (hline : auditLine tool rc = some line) (hpos : 0 < line.length)

include hline hpos

/-- A line within the quota goes to the end of the log. -/
theorem auditText_log (hfits : logUsage (fs.auditText a.id) + line.length ≤ auditQuotaBytes)
    (hslot : fs.auditText a.id = none → slotCount (fun i => (fs i).used) < ramfsMaxFiles) :
    (toolAuditLog fs a tool rc).auditText a.id = some ((fs.auditText a.id).getD [] ++ line) := by
  obtain ⟨hrc, htext⟩ := visible_auditWrite hpos hfits hslot
  rw [toolAuditLog, hline]
  dsimp only
  rw [if_neg (by rw [hrc]; decide)]
  exact htext

/-- For a line beyond the quota the log is compacted first. -/
theorem auditText_log_compacted
    (hover : auditQuotaBytes < logUsage (fs.auditText a.id) + line.length)
    (hagain : logUsage ((fs.auditText a.id).map (compacted 8)) + line.length
      ≤ auditQuotaBytes) :
    (toolAuditLog fs a tool rc).auditText a.id
      = some (((fs.auditText a.id).map (compacted 8)).getD [] ++ line) := by
  have hallow : auditAllowAppend fs a.id line.length = enospc := by
    rw [auditAllowAppend, auditUsage_eq, if_pos hover]
  have hfirst : auditWrite fs a.id line = (enospc, fs) := by
    rw [auditWrite, if_neg (by omega), hallow, if_pos (by decide)]
  rw [toolAuditLog, hline]
  dsimp only
  rw [hfirst, if_pos rfl]
  dsimp only
  have hcompact := visible_auditCompact fs a.id 8
  rw [← hcompact] at hagain
  have hsome : (auditCompact fs a.id 8).2.auditText a.id = none →
      slotCount (fun i => ((auditCompact fs a.id 8).2 i).used) < ramfsMaxFiles := by
    intro hnone
    -- without a log nothing would have exceeded the quota
    rw [hnone] at hagain
    rw [hcompact, Option.map_eq_none_iff] at hnone
    rw [hnone] at hover
    exact absurd hagain (Nat.not_le.mpr hover)
  obtain ⟨-, htext⟩ := visible_auditWrite hpos hagain hsome
  rw [hcompact] at htext
  exact htext

/-- Without a slot for the log nothing happens. -/
theorem toolAuditLog_of_full (hsize : line.length ≤ auditQuotaBytes)
    (hnone : fs.auditText a.id = none)
    (hfull : ¬ slotCount (fun i => (fs i).used) < ramfsMaxFiles) :
    toolAuditLog fs a tool rc = fs := by
  have hallow : auditAllowAppend fs a.id line.length = 0 := by
    rw [auditAllowAppend, auditUsage_eq, hnone]
    exact if_neg (by rw [show logUsage none = 0 from rfl]; omega)
  have hwrite : auditWrite fs a.id line = (enospc, fs) := by
    rw [auditWrite, if_neg (by omega), hallow, if_neg (by decide)]
    dsimp only
    rw [auditUsage_eq, hnone, if_pos (show logUsage none = 0 from rfl)]
    exact ramfsPut_of_full hpos (hsize.trans_lt (by decide)) hnone hfull
  rw [toolAuditLog, hline]
  dsimp only
  rw [hwrite, if_pos rfl]
  dsimp only
  rw [auditCompact_of_none hnone, hwrite]

/-- **A tool call leaves its line** at the end of the caller's log. -/
theorem visible_toolAuditLog
    (hfits : logUsage (fs.auditText a.id) + line.length ≤ auditQuotaBytes ∨
      logUsage ((fs.auditText a.id).map (compacted 8)) + line.length ≤ auditQuotaBytes)
    (hslot : fs.auditText a.id = none → slotCount (fun i => (fs i).used) < ramfsMaxFiles) :
    ∃ before, (before = (fs.auditText a.id).getD [] ∨
        before = ((fs.auditText a.id).map (compacted 8)).getD []) ∧
      (toolAuditLog fs a tool rc).auditText a.id = some (before ++ line) := by
  by_cases hdirect : logUsage (fs.auditText a.id) + line.length ≤ auditQuotaBytes
  · exact ⟨_, .inl rfl, auditText_log hline hpos hdirect hslot⟩
  · exact ⟨_, .inr rfl, auditText_log_compacted hline hpos (Nat.not_le.mp hdirect)
      (hfits.resolve_left hdirect)⟩

end Line

/-! ## The text of a line -/

/-- A number as `append_int` prints it. -/
def intText (val : Int) : List UInt8 :=
  if val < 0 then '-'.toUInt8 :: decimal (-val).toNat else decimal val.toNat

theorem length_intText_pos (val : Int) : 0 < (intText val).length := by
  rw [intText]
  split
  · exact Nat.succ_pos _
  · exact length_decimal_pos _

/-- An `int` has at most ten digits and a sign. -/
theorem length_intText_le {val : Int} (hlo : -2 ^ 31 ≤ val) (hhi : val < 2 ^ 31) :
    (intText val).length ≤ 11 := by
  have hnum : ∀ n : Nat, n ≤ 2 ^ 31 → (decimal n).length ≤ 10 := fun n hn =>
    length_decimal_le (by decide) (by omega)
  rw [intText]
  split
  · exact Nat.succ_le_succ (hnum _ (by omega))
  · exact (hnum _ (by omega)).trans (by decide)

theorem newline_not_mem_intText (val : Int) : '\n'.toUInt8 ∉ intText val := by
  have hdecimal : ∀ n : Nat, '\n'.toUInt8 ∉ decimal n := fun n h =>
    absurd (isDigit_of_mem_decimal h) (by decide)
  rw [intText]
  split
  · rw [List.mem_cons, not_or]
    exact ⟨by decide, hdecimal _⟩
  · exact hdecimal _

theorem appendInt_eq {text : List UInt8} {cap : Nat} {val : Int}
    (h : text.length + (intText val).length ≤ cap - 1) :
    appendInt text cap val = some (text ++ intText val) := if_pos h

/-- The line of a call. -/
def toolLine (tool rc : Int) : List UInt8 :=
  bytes "tool=" ++ intText tool ++ bytes " rc=" ++ intText rc ++ ['\n'.toUInt8]

/-- A line with numbers that leave room for the newline. -/
theorem auditLine_eq {tool rc : Int} (h : (intText tool).length + (intText rc).length ≤ 22) :
    auditLine tool rc = some (toolLine tool rc) := by
  have hfirst : (bytes "tool=").length + (intText tool).length ≤ 32 - 1 := by
    show 5 + (intText tool).length ≤ 31
    omega
  have hsecond : (bytes "tool=" ++ intText tool ++ bytes " rc=").length + (intText rc).length
      ≤ 32 - 1 := by
    rw [List.length_append, List.length_append]
    show 5 + (intText tool).length + 4 + (intText rc).length ≤ 31
    omega
  rw [auditLine, appendInt_eq hfirst, Option.bind_eq_bind, Option.bind_some, appendInt_eq hsecond]
  rfl

theorem length_toolLine (tool rc : Int) :
    (toolLine tool rc).length = 10 + (intText tool).length + (intText rc).length := by
  simp only [toolLine, List.length_append, List.length_singleton]
  show 5 + (intText tool).length + 4 + (intText rc).length + 1 = _
  omega

/-- The line of a call of tool `tool` with one digit and an `int` as its result. -/
theorem auditLine_of_int {tool : Nat} (htool : tool < 10) {rc : Int} (hlo : -2 ^ 31 ≤ rc)
    (hhi : rc < 2 ^ 31) :
    ∃ line, auditLine tool rc = some line ∧ 0 < line.length ∧ line.length ≤ 22 := by
  have hrc := length_intText_le hlo hhi
  have htoolLen : (intText tool).length ≤ 1 := by
    rw [intText, if_neg (by omega)]
    exact length_decimal_le (by decide) htool
  refine ⟨_, auditLine_eq (by omega), ?_, ?_⟩
  · rw [length_toolLine]
    omega
  · rw [length_toolLine]
    omega

end OpenAgentOS
