import OpenAgentOS.Fs.RoundTrip
import OpenAgentOS.Tool.AuditLog

/-!
# Runs of the audit log

- `audit_trail_integrity`: whatever is logged and compacted, the log is all lines so
  far, or a compaction's line and the last of them, and a call's line is there right
  after it. The quota never costs a line that has just been logged: after a
  compaction to eight lines there is always room for it.
- `audit_quota_iff`: the log stays within 512 bytes, except for one case. A compaction
  drops the first line and writes one of its own, which has eleven bytes for a count
  below ten and twelve above. If it drops nothing but an eleven-byte line of its own
  from a log that is exactly full, and writes one of twelve bytes, the log has 513.
-/

namespace OpenAgentOS

open CString Lines

/-- The calls that change an agent's log. `keep_lines` is an `int`, as the tool and its
result are. -/
inductive AuditCall where
  | log (tool rc : Int32)
  | compact (keepLines : Int32)

/-- A call on behalf of agent `a`. -/
def auditStep (a : Caller) (fs : Ramfs) : AuditCall → Ramfs
  | .log tool rc => toolAuditLog fs a tool.toInt rc.toInt
  | .compact keepLines => (auditCompact fs a.id keepLines.toInt).2

/-- The same on the list of lines. -/
def AuditLog.step (log : AuditLog) : AuditCall → AuditLog
  | .log tool rc => log.log (toolLine tool.toInt rc.toInt)
  | .compact keepLines => log.compact (keepCount keepLines.toInt)

/-- The file of agent `id` holds the log. -/
structure HoldsLog (fs : Ramfs) (id : Fin maxAgents) (log : AuditLog) : Prop where
  wellFormed : log.WellFormed
  file : fs.auditText id = log.file

/-- There is the log, or a slot for it. -/
def HasRoom (fs : Ramfs) (log : AuditLog) : Prop :=
  log.kept = [] → slotCount (fun i => (fs i).used) < ramfsMaxFiles

/-! ## One agent's log -/

section OneAgent

variable {a : Caller} {fs : Ramfs} {log : AuditLog}

theorem HoldsLog.of_none {id : Fin maxAgents} (h : fs.auditText id = none) :
    HoldsLog fs id .empty :=
  ⟨AuditLog.wellFormed_empty, h⟩

/-- After a call the log is there, or nothing has changed. -/
theorem HoldsLog.hasRoom_step (h : HoldsLog fs a.id log) (hroom : HasRoom fs log) (c : AuditCall) :
    HasRoom (auditStep a fs c) (log.step c) := by
  cases c with
  | log tool rc =>
    intro hnil
    have hne : ∀ l : AuditLog, (l.append (toolLine tool.toInt rc.toInt)).kept ≠ [] := fun l hl =>
      absurd (List.append_eq_nil_iff.mp hl).2 (List.cons_ne_nil _ _)
    rw [AuditLog.step, AuditLog.log] at hnil
    split at hnil
    · exact absurd hnil (hne _)
    · exact absurd hnil (hne _)
  | compact keepLines =>
    intro hnil
    have hempty := (AuditLog.kept_compact_eq_nil h.wellFormed (keepCount_bounds _)).mp hnil
    have hnone : fs.auditText a.id = none := by rw [h.file, AuditLog.file, if_pos hempty]
    rw [auditStep, auditCompact_of_none hnone]
    exact hroom hempty

/-- **One call on the file is one call on the lines.** -/
theorem HoldsLog.step (h : HoldsLog fs a.id log) (hroom : HasRoom fs log) (c : AuditCall) :
    HoldsLog (auditStep a fs c) a.id (log.step c) := by
  cases c with
  | log tool rc =>
    exact ⟨AuditLog.wellFormed_log h.wellFormed (isToolLine_toolLine tool rc),
      auditText_toolAuditLog h.wellFormed h.file hroom tool rc⟩
  | compact keepLines =>
    exact ⟨AuditLog.wellFormed_compact h.wellFormed (keepCount_bounds _),
      auditText_compact h.wellFormed h.file _⟩

theorem HoldsLog.run (h : HoldsLog fs a.id log) (hroom : HasRoom fs log) (cs : List AuditCall) :
    HoldsLog (Runs.run (auditStep a) fs cs) a.id (Runs.run AuditLog.step log cs) := by
  induction cs generalizing fs log with
  | nil => exact h
  | cons c cs ih => exact ih (h.step hroom c) (h.hasRoom_step hroom c)

end OneAgent

/-! ## The trail -/

/-- The files, and the lines of the calls logged so far. -/
structure AuditState where
  fs : Ramfs
  logged : List (List UInt8)

def AuditState.step (a : Caller) (s : AuditState) (c : AuditCall) : AuditState where
  fs := auditStep a s.fs c
  logged :=
    match c with
    | .log tool rc => s.logged ++ [toolLine tool.toInt rc.toInt]
    | .compact _ => s.logged

/-- The log consists of the lines `kept`: all of them, or the last ones below the line of
a compaction. -/
def AuditState.Keeps (a : Caller) (s : AuditState) (kept : List (List UInt8)) : Prop :=
  (kept = s.logged ∧ (s.fs.auditText a.id).getD [] = kept.flatten) ∨
    (kept <:+ s.logged ∧ ∃ k, (s.fs.auditText a.id).getD []
      = bytes "compact: " ++ decimal k ++ ['\n'.toUInt8] ++ kept.flatten)

/-- After a call is logged, its line is the last one. -/
def AuditState.LogsLast (a : Caller) (s : AuditState) (c : AuditCall) : Prop :=
  ∀ tool rc, c = .log tool rc →
    ∃ kept, (s.step a c).Keeps a kept ∧ kept.getLast? = some (toolLine tool.toInt rc.toInt)

/-- The lines kept are the last of those logged, and all of them before a compaction. -/
structure AuditLog.Trails (log : AuditLog) (logged : List (List UInt8)) : Prop where
  all : log.head = none → log.kept = logged
  last : log.kept <:+ logged

namespace AuditLog.Trails

variable {log : AuditLog} {logged : List (List UInt8)} (h : log.Trails logged)

include h

theorem compact (keep : Nat) : (log.compact keep).Trails logged := by
  rw [AuditLog.compact]
  split
  · exact h
  · exact ⟨fun hnone => (by cases hnone), (List.drop_suffix _ _).trans h.last⟩

theorem append (line : List UInt8) : (log.append line).Trails (logged ++ [line]) := by
  constructor
  · intro hhead
    exact congrArg (· ++ [line]) (h.all hhead)
  · obtain ⟨dropped, hdropped⟩ := h.last
    refine ⟨dropped, ?_⟩
    show dropped ++ (log.kept ++ [line]) = logged ++ [line]
    rw [← List.append_assoc, hdropped]

theorem log_line (line : List UInt8) : (log.log line).Trails (logged ++ [line]) := by
  rw [AuditLog.log]
  split
  · exact h.append line
  · exact (h.compact 8).append line

end AuditLog.Trails

/-- A logged line is the last one kept. -/
theorem AuditLog.getLast?_log (log : AuditLog) (line : List UInt8) :
    (log.log line).kept.getLast? = some line := by
  rw [AuditLog.log]
  split
  · exact List.getLast?_concat
  · exact List.getLast?_concat

/-- What holds along a run. -/
structure TrailInv (a : Caller) (s : AuditState) (log : AuditLog) : Prop where
  holds : HoldsLog s.fs a.id log
  room : HasRoom s.fs log
  trails : log.Trails s.logged

section Trail

variable {a : Caller} {s : AuditState} {log : AuditLog} (h : TrailInv a s log)

include h

theorem TrailInv.keeps : s.Keeps a log.kept := by
  have htext : (s.fs.auditText a.id).getD [] = log.lines.flatten := by
    rw [h.holds.file, file_getD h.holds.wellFormed]
    rfl
  rw [AuditLog.lines, List.flatten_append] at htext
  cases hhead : log.head with
  | none =>
    rw [hhead] at htext
    exact .inl ⟨h.trails.all hhead, htext⟩
  | some k =>
    rw [hhead, Option.map_some, Option.toList_some, List.flatten_singleton,
      compactLine_eq (h.holds.wellFormed.head_le k hhead)] at htext
    exact .inr ⟨h.trails.last, k, htext⟩

theorem TrailInv.step (c : AuditCall) : TrailInv a (s.step a c) (log.step c) := by
  refine ⟨h.holds.step h.room c, h.holds.hasRoom_step h.room c, ?_⟩
  cases c with
  | log tool rc => exact h.trails.log_line _
  | compact keepLines => exact h.trails.compact _

theorem TrailInv.logsLast (c : AuditCall) : s.LogsLast a c := by
  rintro tool rc rfl
  exact ⟨_, (h.step (.log tool rc)).keeps, log.getLast?_log _⟩

theorem TrailInv.run (cs : List AuditCall) :
    Runs.Along (AuditState.step a) (AuditState.LogsLast a) s cs ∧
      ∃ log', TrailInv a (Runs.run (AuditState.step a) s cs) log' := by
  induction cs generalizing s log with
  | nil => exact ⟨trivial, log, h⟩
  | cons c cs ih =>
    obtain ⟨halong, hend⟩ := ih (h.step c)
    exact ⟨⟨h.logsLast c, halong⟩, hend⟩

end Trail

/-- **The audit trail.** From a table without a log and with a slot for it, whatever is
logged and compacted: the log is made of the last lines logged, of all of them unless a
compaction's line comes first, and the line of a call is its last one right after the
call. -/
theorem audit_trail_integrity (a : Caller) (fs : Ramfs) (hnone : fs.auditText a.id = none)
    (hslot : slotCount (fun i => (fs i).used) < ramfsMaxFiles) (cs : List AuditCall) :
    (∃ kept, (Runs.run (AuditState.step a) ⟨fs, []⟩ cs).Keeps a kept) ∧
      Runs.Along (AuditState.step a) (AuditState.LogsLast a) ⟨fs, []⟩ cs := by
  have hstart : TrailInv a ⟨fs, []⟩ .empty :=
    ⟨.of_none hnone, fun _ => hslot, fun _ => rfl, List.suffix_rfl⟩
  obtain ⟨halong, log', hend⟩ := hstart.run cs
  exact ⟨⟨log'.kept, hend.keeps⟩, halong⟩

/-- There is no log right after initialisation, and a slot for one. -/
theorem ramfsInit_auditText (mem : Ramfs) (id : Fin maxAgents) :
    (ramfsInit mem).auditText id = none := by
  refine visible_ramfsInit ?_
  rfl

theorem ramfsInit_room (mem : Ramfs) :
    slotCount (fun i => (ramfsInit mem i).used) < ramfsMaxFiles :=
  (slotCount_ramfsInit_le mem).trans_lt (by decide)

theorem audit_trail_integrity_init :
    ∃ kept, (Runs.run (AuditState.step ⟨3, 0⟩) ⟨ramfsInit zeroMem, []⟩
      [.log 1 0, .log 1 (-3), .compact 1]).Keeps ⟨3, 0⟩ kept :=
  (audit_trail_integrity ⟨3, 0⟩ (ramfsInit zeroMem) (ramfsInit_auditText _ _) (ramfsInit_room _)
    [.log 1 0, .log 1 (-3), .compact 1]).1

/-! ## The quota -/

/-- The compaction of a log of exactly 512 bytes drops a line of eleven bytes and writes
one of twelve. -/
def HeaderGrows (keepLines : Int) (text : List UInt8) : Prop :=
  text.length = auditQuotaBytes ∧ 10 ≤ keepCount keepLines ∧
    (lineStarts text).length = keepCount keepLines + 1 ∧ (lineStarts text).getD 1 0 = 11

instance (keepLines : Int) (text : List UInt8) : Decidable (HeaderGrows keepLines text) :=
  inferInstanceAs (Decidable (_ ∧ _))

namespace AuditLog

variable {log : AuditLog} (h : log.WellFormed) {keep : Nat}

theorem length_text_compact (hmore : keep < log.lines.length) :
    (log.compact keep).text.length = (if 10 ≤ keep then 12 else 11)
      + (log.kept.drop (log.kept.length - keep)).flatten.length := by
  rw [compact, if_neg (Nat.not_le.mpr hmore), length_text, ← length_compactLine]
  show (compactLine keep ++ []).length + _ = _
  rw [List.append_nil]

include h

/-- What a compaction drops of the lines kept. -/
theorem length_drop_kept (keep : Nat) :
    (log.kept.drop (log.kept.length - keep)).flatten.length + 12 * (log.kept.length - keep)
      ≤ log.kept.flatten.length := by
  have hsplit : (log.kept.take (log.kept.length - keep)).flatten.length
      + (log.kept.drop (log.kept.length - keep)).flatten.length = log.kept.flatten.length := by
    rw [← List.length_append, ← List.flatten_append, List.take_append_drop]
  have htake := (length_flatten_bounds fun l hl =>
    h.kept l (List.mem_of_mem_take (i := log.kept.length - keep) hl)).1
  rw [List.length_take, Nat.min_eq_left (Nat.sub_le _ _)] at htake
  omega

/-- The second line starts behind the first. -/
theorem lineStarts_one (hmore : 1 < log.lines.length) :
    (lineStarts log.text).getD 1 0 = (log.lines.take 1).flatten.length := by
  have hne : log.kept ≠ [] := by
    intro hnil
    rw [lines, h.head_none hnil, hnil] at hmore
    exact absurd hmore (by decide)
  rw [lineStarts_text h hne, List.getD_eq_getElem _ _ (by
    rw [List.length_map, List.length_range]
    exact hmore), List.getElem_map, List.getElem_range]

theorem length_lineStarts (hne : log.kept ≠ []) :
    (lineStarts log.text).length = log.lines.length := by
  rw [lineStarts_text h hne, List.length_map, List.length_range]

/-- Without a first line of its own, a compaction drops the line of a tool call, which is
no shorter than the new one. -/
theorem compact_within_of_none (hhead : log.head = none) (hmore : keep < log.kept.length)
    (hfits : log.text.length ≤ auditQuotaBytes) :
    (log.compact keep).text.length ≤ auditQuotaBytes := by
  have hlines : log.lines = log.kept := by
    rw [lines, hhead]
    rfl
  have hdrop := length_drop_kept h keep
  rw [text, hlines] at hfits
  rw [length_text_compact (by rw [hlines]; exact hmore)]
  split <;> omega

/-- Below a first line of its own: its length decides if nothing else is dropped. -/
theorem compact_within_iff_of_some {k : Nat} (hhead : log.head = some k)
    (hmore : keep < log.kept.length + 1) (hfits : log.text.length ≤ auditQuotaBytes) :
    (log.compact keep).text.length ≤ auditQuotaBytes ↔
      ¬ (log.text.length = auditQuotaBytes ∧ 10 ≤ keep ∧ log.kept.length = keep ∧ k < 10) := by
  have hlines : log.lines = compactLine k :: log.kept := by
    rw [lines, hhead]
    rfl
  have htext : log.text.length = (if 10 ≤ k then 12 else 11) + log.kept.flatten.length := by
    rw [text, hlines, List.flatten_cons, List.length_append, length_compactLine]
  have hdrop := length_drop_kept h keep
  have hall : log.kept.length = keep →
      (log.kept.drop (log.kept.length - keep)).flatten.length = log.kept.flatten.length := by
    intro heq
    rw [heq, Nat.sub_self, List.drop_zero]
  rw [length_text_compact (by rw [hlines]; exact hmore)]
  simp only [auditQuotaBytes] at hfits ⊢
  constructor
  · rintro hle ⟨hlen, hten, hcount, hk⟩
    rw [if_neg (by omega)] at htext
    rw [if_pos hten, hall hcount] at hle
    omega
  · intro hnot
    by_cases hcount : log.kept.length = keep
    · have := hall hcount
      split <;> split at htext <;> omega
    · split <;> split at htext <;> omega

/-- **One compaction and the quota.** -/
theorem compact_within_iff {keepLines : Int} (hne : log.kept ≠ [])
    (hfits : log.text.length ≤ auditQuotaBytes) :
    (log.compact (keepCount keepLines)).text.length ≤ auditQuotaBytes
      ↔ ¬ HeaderGrows keepLines log.text := by
  obtain ⟨hkeep, -⟩ := keepCount_bounds keepLines
  rw [HeaderGrows, length_lineStarts h hne]
  by_cases hmore : keepCount keepLines < log.lines.length
  · rw [lineStarts_one h (by omega)]
    cases hhead : log.head with
    | none =>
      obtain ⟨l, rest, hkept⟩ := List.exists_cons_of_ne_nil hne
      have hl := (h.kept l (hkept ▸ List.mem_cons_self)).ge
      have hlines : log.lines = log.kept := by
        rw [lines, hhead]
        rfl
      rw [hlines] at hmore
      refine iff_of_true (compact_within_of_none h hhead hmore hfits) ?_
      rintro ⟨-, -, -, hlen⟩
      rw [hlines, hkept, List.take_succ_cons, List.take_zero, List.flatten_singleton] at hlen
      omega
    | some k =>
      have hlines : log.lines = compactLine k :: log.kept := by
        rw [lines, hhead]
        rfl
      rw [hlines, List.length_cons] at hmore
      rw [compact_within_iff_of_some h hhead hmore hfits, hlines, List.take_succ_cons,
        List.take_zero, List.flatten_singleton, length_compactLine, List.length_cons]
      split <;> omega
  · rw [compact, if_pos (Nat.not_lt.mp hmore)]
    refine iff_of_true hfits ?_
    rintro ⟨-, -, hcount, -⟩
    omega

/-- A logged line is within the quota. -/
theorem log_within {line : List UInt8} (hline : IsToolLine line) :
    (log.log line).text.length ≤ auditQuotaBytes := by
  have happend : ∀ l : AuditLog, (l.append line).text.length = l.text.length + line.length := by
    intro l
    rw [length_text, length_text]
    show _ + (l.kept ++ [line]).flatten.length = _
    rw [List.flatten_append, List.flatten_singleton, List.length_append]
    exact (Nat.add_assoc _ _ _).symm
  rw [AuditLog.log]
  split
  · rename_i hfits
    rw [happend]
    exact hfits
  · rename_i hover
    rw [happend]
    exact length_compact_eight h hline (Nat.not_le.mp hover)

end AuditLog

/-- A call on behalf of some agent. -/
structure AuditEvent where
  agent : Caller
  call : AuditCall

def auditEventStep (fs : Ramfs) (e : AuditEvent) : Ramfs := auditStep e.agent fs e.call

/-- Every agent's log is within the quota. -/
def WithinQuota (fs : Ramfs) : Prop :=
  ∀ id : Fin maxAgents, ((fs.auditText id).getD []).length ≤ auditQuotaBytes

/-- The compaction does not replace a line of eleven bytes by one of twelve in a log that
is full. -/
def HeaderFits (fs : Ramfs) (e : AuditEvent) : Prop :=
  match e.call with
  | .log .. => True
  | .compact keepLines =>
    ¬ HeaderGrows keepLines.toInt ((fs.auditText e.agent.id).getD [])

/-- Every agent's log is one that the code makes, and within the quota. -/
def LogsWithin (fs : Ramfs) : Prop :=
  ∀ id : Fin maxAgents, ∃ log, HoldsLog fs id log ∧ log.text.length ≤ auditQuotaBytes

section AllAgents

variable {fs : Ramfs} {a : Caller}

theorem auditPathFor_injective {id id' : Fin maxAgents}
    (h : auditPathFor id = auditPathFor id') : id = id' := by
  have hlt : ∀ i : Fin maxAgents, (i : Nat) < 2 ^ 31 := fun i => i.isLt.trans (by decide)
  have hid := parseAuditAgentId_auditPathFor (hlt id)
  rw [h, parseAuditAgentId_auditPathFor (hlt id')] at hid
  exact Fin.ext (Int.ofNat_inj.mp hid.symm)

/-- A call leaves the logs of other agents alone. -/
theorem auditText_step_of_ne {id : Fin maxAgents} (hne : id ≠ a.id) (c : AuditCall) :
    (auditStep a fs c).auditText id = fs.auditText id := by
  have hpath : ¬ auditPathFor id = auditPathFor a.id := fun h => hne (auditPathFor_injective h)
  cases c with
  | log tool rc => exact ((reachesOn_toolAuditLog fs a _ _).sameUnder hpath).visible
  | compact keepLines => exact ((reachesOn_auditCompact fs _).sameUnder hpath).visible

/-- The caller's own log after a call. -/
theorem LogsWithin.own (h : LogsWithin fs) (c : AuditCall) :
    ∃ log, HoldsLog (auditStep a fs c) a.id log ∧
      (log.text.length ≤ auditQuotaBytes ↔ HeaderFits fs ⟨a, c⟩) := by
  obtain ⟨log, hlog, hfits⟩ := h a.id
  cases c with
  | log tool rc =>
    have hline := isToolLine_toolLine tool rc
    by_cases hroom : HasRoom fs log
    · exact ⟨_, hlog.step hroom (.log tool rc), iff_of_true (AuditLog.log_within hlog.wellFormed hline)
        trivial⟩
    · -- no log and no slot for it
      obtain ⟨hempty, hfull⟩ := Classical.not_imp.mp hroom
      have hnone : fs.auditText a.id = none := by rw [hlog.file, AuditLog.file, if_pos hempty]
      have hge := hline.ge
      have hle := hline.le
      have hsame : auditStep a fs (.log tool rc) = fs :=
        toolAuditLog_of_full (auditLine_toolLine tool rc) (by omega) (hle.trans (by decide)) hnone
          hfull
      rw [hsame]
      exact ⟨log, hlog, iff_of_true hfits trivial⟩
  | compact keepLines =>
    refine ⟨_, ⟨AuditLog.wellFormed_compact hlog.wellFormed (keepCount_bounds _),
      auditText_compact hlog.wellFormed hlog.file _⟩, ?_⟩
    show _ ↔ ¬ HeaderGrows keepLines.toInt ((fs.auditText a.id).getD [])
    rw [hlog.file, file_getD hlog.wellFormed]
    by_cases hne : log.kept = []
    · have hlines : log.lines = [] := by
        rw [AuditLog.lines, hlog.wellFormed.head_none hne, hne]
        rfl
      rw [AuditLog.compact, if_pos (by rw [hlines]; exact Nat.zero_le _), AuditLog.text, hlines]
      exact iff_of_true (Nat.zero_le _) fun hgrows => absurd hgrows.1 (by decide)
    · exact AuditLog.compact_within_iff hlog.wellFormed hne hfits

/-- **One call**: the logs are within the quota unless the first line grows. -/
theorem LogsWithin.step_iff (h : LogsWithin fs) (e : AuditEvent) :
    WithinQuota (auditEventStep fs e) ↔ HeaderFits fs e := by
  obtain ⟨log, hlog, hiff⟩ := h.own (a := e.agent) e.call
  have hown : ((auditEventStep fs e).auditText e.agent.id).getD [] = log.text := by
    rw [auditEventStep, hlog.file, file_getD hlog.wellFormed]
  constructor
  · intro hwithin
    exact hiff.mp (hown ▸ hwithin e.agent.id)
  · intro hok id
    by_cases hid : id = e.agent.id
    · rw [hid, hown]
      exact hiff.mpr hok
    · obtain ⟨log', hlog', hfits'⟩ := h id
      rw [auditEventStep, auditText_step_of_ne hid, hlog'.file, file_getD hlog'.wellFormed]
      exact hfits'

theorem LogsWithin.step (h : LogsWithin fs) (e : AuditEvent)
    (hwithin : WithinQuota (auditEventStep fs e)) : LogsWithin (auditEventStep fs e) := by
  intro id
  by_cases hid : id = e.agent.id
  · obtain ⟨log, hlog, hiff⟩ := h.own (a := e.agent) e.call
    rw [hid]
    exact ⟨log, hlog, hiff.mpr ((h.step_iff e).mp hwithin)⟩
  · obtain ⟨log, hlog, hfits⟩ := h id
    exact ⟨log, ⟨hlog.wellFormed, (auditText_step_of_ne hid _).trans hlog.file⟩, hfits⟩

end AllAgents

/-- **The quota of the audit log.** From a table without logs, whatever the agents log
and compact: every log stays within 512 bytes after every call iff no compaction makes
the first line grow in a log that is full. -/
theorem audit_quota_iff (fs : Ramfs) (hnone : ∀ id, fs.auditText id = none)
    (es : List AuditEvent) :
    Runs.Along auditEventStep (fun fs e => WithinQuota (auditEventStep fs e)) fs es ↔
      Runs.Along auditEventStep HeaderFits fs es := by
  have hstart : LogsWithin fs := fun id =>
    ⟨.empty, ⟨AuditLog.wellFormed_empty, hnone id⟩, by decide⟩
  exact Runs.along_congr (fun _ e h => h.step_iff e) (fun _ e h => h.step e) hstart es

/-- A log is compacted to one line, filled up to 512 bytes with 29 more lines, and then
compacted to 30 lines. -/
def fillingCalls : List AuditCall :=
  [AuditCall.log 1 0, .log 1 0, .compact 1] ++ List.replicate 28 (AuditCall.log 10 (-8191)) ++
    [AuditCall.log 10 0, .compact 30]

/-- **A log of 513 bytes.** The second compaction drops "compact: 1" and writes
"compact: 30". -/
theorem not_audit_quota :
    ¬ WithinQuota (Runs.run auditEventStep (ramfsInit zeroMem)
      (fillingCalls.map fun c => ⟨⟨3, 0⟩, c⟩)) := by
  intro hwithin
  have hrun := (HoldsLog.of_none (ramfsInit_auditText zeroMem (3 : Fin maxAgents))).run (a := ⟨3, 0⟩)
    (fun _ => ramfsInit_room zeroMem) fillingCalls
  have hsame : Runs.run auditEventStep (ramfsInit zeroMem) (fillingCalls.map fun c => ⟨⟨3, 0⟩, c⟩)
      = Runs.run (auditStep ⟨3, 0⟩) (ramfsInit zeroMem) fillingCalls := List.foldl_map
  have hfile := hrun.file
  have hle := hwithin 3
  rw [hsame, hfile, file_getD hrun.wellFormed] at hle
  have hlen : (Runs.run AuditLog.step .empty fillingCalls).text.length = 513 := by decide +kernel
  rw [hlen] at hle
  exact absurd hle (by decide)

theorem audit_quota_iff_init :
    Runs.Along auditEventStep (fun fs e => WithinQuota (auditEventStep fs e)) (ramfsInit zeroMem)
        [⟨⟨3, 0⟩, .log 1 0⟩, ⟨⟨4, 0⟩, .log 2 (-1)⟩] :=
  (audit_quota_iff (ramfsInit zeroMem) (ramfsInit_auditText zeroMem)
    [⟨⟨3, 0⟩, .log 1 0⟩, ⟨⟨4, 0⟩, .log 2 (-1)⟩]).mpr ⟨trivial, trivial, trivial⟩

end OpenAgentOS
