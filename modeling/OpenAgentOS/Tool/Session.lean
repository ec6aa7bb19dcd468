import OpenAgentOS.Ipc.Msgbox
import OpenAgentOS.Lib.Runs
import OpenAgentOS.Tool.AuditTrail
import OpenAgentOS.Tool.Dispatch

/-!
# The session log (kernel/session.c, tenant.c)

An agent's session is a file of lines, `/session/agent/<id>/log`. `session_append`
adds a line within a quota of 640 bytes; `session_compact` replaces the first lines by
one that sums them up, and checks no quota. What it writes can be longer than what it
replaces, and since `ramfs_write` does not cut a file, the session never gets shorter.

- `countLines`, `lineStartAt`, `sessionCompact`: the code.
- `sessionPotential`: the length of a session and what its first line can still grow.
  A compaction makes the first line longer and never raises this sum
  (`sessionPotential_compact`).
- `session_quota`: 640 bytes are never exceeded. A line is accepted only if the session
  has at most 414 bytes with it, since what is there counts twice, and a first line grows
  by at most 222 after that.
-/

namespace OpenAgentOS

open CString

/-- The byte that ends a line. -/
abbrev newline : UInt8 := '\n'.toUInt8

/-- `count_lines` (session.c:141). -/
def countLines (data : List UInt8) : Nat :=
  if data.length = 0 then 0
  else data.count newline + if charAt data (data.length - 1) ≠ newline then 1 else 0

/-- The place behind the line that starts at `i`. -/
def lineEnd (data : List UInt8) (i : Nat) : Nat :=
  let stop := i + ((data.drop i).takeWhile (· ≠ newline)).length
  if stop < data.length then stop + 1 else stop

/-- `line_start_at` (session.c:156), from place `i` on. -/
def lineStartAt (data : List UInt8) : Nat → Nat → Nat
  | 0, i => i
  | lineIdx + 1, i =>
    if i < data.length then lineStartAt data lineIdx (lineEnd data i) else i

/-- The summary of the bytes before `start` (session.c:243). -/
def sessionSummary (data : List UInt8) (start : Nat) : List UInt8 :=
  bytes "summary: " ++
    ((data.take start).map fun c => if c = newline then ';'.toUInt8 else c).take
      (msgPayloadSize - 2 - 9)

/-- What `session_compact` writes: the summary up to its terminator, and the lines kept. -/
def compactedSession (data : List UInt8) (start : Nat) : List UInt8 :=
  ((sessionSummary data start).takeWhile (· ≠ 0) ++ newline :: data.drop start).take
    (ramfsFileSize - 1)

/-- The summary as a message. -/
def sessionMsg (data : List UInt8) (start : Nat) : AgentMsg :=
  .ofText 0 msgSummary (((sessionSummary data start).takeWhile (· ≠ 0)).take (msgPayloadSize - 1))

/-- `session_compact` (session.c:213): the code, the files and the agent's mailbox. -/
def sessionCompact (fs : Ramfs) (inbox : Msgbox) (a : Caller) (keep : Int) :
    Int × Ramfs × Msgbox :=
  if keep < 0 then (einval, fs, inbox)
  else
    match ramfsRead fs (sessionPath a.id) 0 (ramfsFileSize - 1 : Nat) with
    | .error e => (if e = enoent then 0 else e, fs, inbox)
    | .ok data =>
      if data.length = 0 then (0, fs, inbox)
      else if (countLines data : Int) ≤ keep then (0, fs, inbox)
      else
        let drop := countLines data - keep.toNat
        let start := lineStartAt data drop 0
        let out := ramfsWrite fs (sessionPath a.id) 0 (compactedSession data start)
        if out.1 < 0 then (eio, out.2, inbox)
        else
          let push := msgboxPush inbox (sessionMsg data start)
          (if push.1 ≠ 0 then enospc else drop, out.2, push.2)

/-! ## Places in a text -/

section Places

variable {data : List UInt8}

theorem le_lineEnd (i : Nat) : i ≤ lineEnd data i := by
  rw [lineEnd]
  split <;> omega

theorem lineEnd_le {i : Nat} (hi : i ≤ data.length) : lineEnd data i ≤ data.length := by
  have hlen := (List.takeWhile_sublist (p := (· ≠ newline)) (l := data.drop i)).length_le
  rw [List.length_drop] at hlen
  rw [lineEnd]
  split <;> omega

theorem lineEnd_zero_pos (hne : data ≠ []) : 0 < lineEnd data 0 := by
  have hpos := List.length_pos_iff.mpr hne
  rw [lineEnd]
  split <;> omega

theorem le_lineStartAt (n i : Nat) : i ≤ lineStartAt data n i := by
  induction n generalizing i with
  | zero => exact Nat.le_refl i
  | succ n ih =>
    rw [lineStartAt]
    split
    · exact (le_lineEnd i).trans (ih _)
    · exact Nat.le_refl i

theorem lineStartAt_le (n : Nat) {i : Nat} (hi : i ≤ data.length) :
    lineStartAt data n i ≤ data.length := by
  induction n generalizing i with
  | zero => exact hi
  | succ n ih =>
    rw [lineStartAt]
    split
    · exact ih (lineEnd_le hi)
    · exact hi

/-- Behind at least one line. -/
theorem lineEnd_le_lineStartAt {n : Nat} (hn : 0 < n) (hne : data ≠ []) :
    lineEnd data 0 ≤ lineStartAt data n 0 := by
  obtain ⟨n, rfl⟩ := Nat.exists_eq_succ_of_ne_zero hn.ne'
  rw [lineStartAt, if_pos (List.length_pos_iff.mpr hne)]
  exact le_lineStartAt n _

/-- The first line of a text that starts with one. -/
theorem lineEnd_zero_append {line rest : List UInt8} (hline : newline ∉ line) :
    lineEnd (line ++ newline :: rest) 0 = line.length + 1 := by
  have htake : (line ++ newline :: rest).takeWhile (· ≠ newline) = line := by
    have hne : ∀ c ∈ line, decide (c ≠ newline) = true := fun c hc =>
      decide_eq_true fun heq => hline (heq ▸ hc)
    rw [List.takeWhile_append_of_pos hne, List.takeWhile_cons_of_neg (by simp), List.append_nil]
  rw [lineEnd, List.drop_zero, htake]
  rw [if_pos (by rw [List.length_append, List.length_cons]; omega), Nat.zero_add]

end Places

/-! ## The potential of a session -/

/-- The length, and what the first line is short of the longest summary. -/
def sessionPotential (data : List UInt8) : Nat := data.length + (223 - lineEnd data 0)

section Potential

variable {data : List UInt8} (hnul : (0 : UInt8) ∉ data)

theorem newline_not_mem_sessionSummary (start : Nat) : newline ∉ sessionSummary data start := by
  rw [sessionSummary, List.mem_append, not_or]
  refine ⟨by decide, fun hmem => ?_⟩
  obtain ⟨c, -, hc⟩ := List.mem_map.mp (List.mem_of_mem_take hmem)
  split at hc
  · exact absurd hc (by decide)
  · rename_i hne
    exact hne hc

theorem length_sessionSummary {start : Nat} (hstart : start ≤ data.length) :
    (sessionSummary data start).length = 9 + min start 213 := by
  rw [sessionSummary, List.length_append, List.length_take, List.length_map, List.length_take,
    Nat.min_eq_left hstart, Nat.min_comm]
  rfl

include hnul

theorem zero_not_mem_sessionSummary (start : Nat) : (0 : UInt8) ∉ sessionSummary data start := by
  rw [sessionSummary, List.mem_append, not_or]
  refine ⟨by decide, fun hmem => ?_⟩
  obtain ⟨c, hc, hzero⟩ := List.mem_map.mp (List.mem_of_mem_take hmem)
  split at hzero
  · exact absurd hzero (by decide)
  · exact hnul (hzero ▸ List.mem_of_mem_take hc)

/-- What is written for a session that is not too long. -/
theorem compactedSession_eq {start : Nat} (hstart : start ≤ data.length)
    (hlen : data.length ≤ 7000) :
    compactedSession data start = sessionSummary data start ++ newline :: data.drop start := by
  have hsummary := length_sessionSummary hstart
  have hwhole : (sessionSummary data start).takeWhile (· ≠ 0) = sessionSummary data start :=
    List.takeWhile_eq_self_iff.mpr fun c hc => decide_eq_true fun heq =>
      zero_not_mem_sessionSummary hnul start (heq ▸ hc)
  rw [compactedSession, hwhole]
  refine List.take_of_length_le ?_
  rw [List.length_append, List.length_cons, List.length_drop, hsummary]
  show _ ≤ 8191
  omega

/-- **A compaction never raises the potential.** -/
theorem sessionPotential_compact {start : Nat} (hstart : start ≤ data.length)
    (hfirst : lineEnd data 0 ≤ start) (hlen : data.length ≤ 7000) :
    sessionPotential
        (compactedSession data start ++ data.drop (compactedSession data start).length)
      ≤ sessionPotential data := by
  have hsummary := length_sessionSummary hstart
  rw [compactedSession_eq hnul hstart hlen, sessionPotential, sessionPotential, List.append_assoc,
    List.cons_append, lineEnd_zero_append (newline_not_mem_sessionSummary start)]
  simp only [List.length_append, List.length_cons, List.length_drop, hsummary]
  omega

end Potential

/-! ## Runs -/

/-- The calls that change an agent's session. -/
inductive SessionCall where
  | append (text : List UInt8)
  | compact (keep : Int)

/-- The files and the agent's mailbox. -/
structure SessionState where
  fs : Ramfs
  inbox : Msgbox

def SessionState.step (a : Caller) (s : SessionState) : SessionCall → SessionState
  | .append text => { s with fs := (sessionAppend s.fs a text).2 }
  | .compact keep =>
    let out := sessionCompact s.fs s.inbox a keep
    ⟨out.2.1, out.2.2⟩

/-- What a session can be: not there, or a text whose first line cannot grow beyond the
quota any more. -/
structure SessionBounded (fs : Ramfs) (a : Caller) : Prop where
  nul_free : ∀ data, fs.visible (sessionPath a.id) = some data → (0 : UInt8) ∉ data
  potential : ∀ data, fs.visible (sessionPath a.id) = some data →
    sessionPotential data ≤ tenantSessionQuota

section Runs

variable {fs fs' : Ramfs} {a : Caller}

theorem sessionPath_short (id : Fin maxAgents) : (sessionPath id).length < ramfsPathMax := by
  have hid : (decimal id).length ≤ 2 := length_decimal_le (by decide) (id.isLt.trans (by decide))
  show (bytes "/session/agent/" ++ (decimal id ++ bytes "/log")).length < ramfsPathMax
  rw [List.length_append, List.length_append]
  show 15 + ((decimal id).length + 4) < 64
  omega

theorem tenantSessionUsage_eq (fs : Ramfs) (a : Caller) :
    tenantSessionUsage fs a = logUsage (fs.visible (sessionPath a.id)) := usage_eq fs _

/-- A whole session is read. -/
theorem read_session {len : Nat} {data : List UInt8}
    (hdata : fs.visible (sessionPath a.id) = some data) (hlen : data.length ≤ len)
    (hpos : 0 < len) : ramfsRead fs (sessionPath a.id) 0 len = .ok data := by
  rw [ramfsRead_start fs _ hpos, hdata]
  dsimp only
  rw [List.take_of_length_le hlen]

theorem SessionBounded.of_visible
    (h : fs'.visible (sessionPath a.id) = none ∨
      ∃ data, fs'.visible (sessionPath a.id) = some data ∧ (0 : UInt8) ∉ data ∧
        sessionPotential data ≤ tenantSessionQuota) : SessionBounded fs' a := by
  rcases h with hnone | ⟨data, hdata, hnul, hbound⟩
  · constructor
    · intro data hdata
      rw [hnone] at hdata
      exact absurd hdata nofun
    · intro data hdata
      rw [hnone] at hdata
      exact absurd hdata nofun
  · constructor
    · intro data' hdata'
      rw [hdata, Option.some_inj] at hdata'
      exact hdata' ▸ hnul
    · intro data' hdata'
      rw [hdata, Option.some_inj] at hdata'
      exact hdata' ▸ hbound

/-- The end of `session_append`: what is there counts twice, so there is room for the
first line to grow. -/
theorem SessionBounded.append_line (h : SessionBounded fs a) {old text : List UInt8}
    (hold : old = (fs.visible (sessionPath a.id)).getD []) (hpos : 0 < text.length)
    (hlen : text.length ≤ 188) (hnul : (0 : UInt8) ∉ text) :
    SessionBounded (sessionAppend.append fs a old (text ++ [newline])).2 a := by
  rw [sessionAppend.append]
  split_ifs with hquota hsize
  · exact h
  · exact h
  · dsimp only
    have hline : (text ++ [newline]).length = text.length + 1 := List.length_append
    rw [tenantSessionUsage_eq, hline] at hquota
    rw [hline] at hsize
    have hwritten : (old ++ (text ++ [newline])).length = old.length + (text.length + 1) := by
      rw [List.length_append, hline]
    refine .of_visible ((visible_write_self fs (sessionPath_short a.id) (by omega) (by omega)).symm.imp id fun hdata => ?_)
    rw [← hold, List.drop_eq_nil_of_le (by omega), List.append_nil] at hdata
    refine ⟨_, hdata, ?_, ?_⟩
    · rw [List.mem_append, List.mem_append, not_or, not_or]
      refine ⟨?_, hnul, by decide⟩
      rw [hold]
      cases hvis : fs.visible (sessionPath a.id) with
      | none => exact List.not_mem_nil
      | some data => exact h.nul_free data hvis
    · have husage : old.length ≤ logUsage (fs.visible (sessionPath a.id)) := by
        rw [hold]
        cases fs.visible (sessionPath a.id) with
        | none => exact Nat.le_refl 0
        | some data => exact le_max_right 1 data.length
      have hne : old ++ (text ++ [newline]) ≠ [] := List.ne_nil_of_length_pos (by omega)
      have hfirst := lineEnd_zero_pos hne
      rw [sessionPotential, hwritten]
      simp only [tenantSessionQuota] at hquota ⊢
      omega

theorem SessionBounded.append (h : SessionBounded fs a) (text : List UInt8) :
    SessionBounded (sessionAppend fs a text).2 a := by
  have hlen : ((text.takeWhile (· ≠ 0)).take 188).length ≤ 188 := List.length_take_le _ _
  have hnul : (0 : UInt8) ∉ (text.takeWhile (· ≠ 0)).take 188 := fun hmem => by
    simpa using List.mem_takeWhile_imp (List.mem_of_mem_take hmem)
  rw [sessionAppend]
  by_cases hempty : ((text.takeWhile (· ≠ 0)).take 188).length = 0
  · rw [if_pos hempty]
    exact h
  rw [if_neg hempty]
  cases hvis : fs.visible (sessionPath a.id) with
  | none =>
    rw [ramfsRead_start fs _ (by decide), hvis]
    exact h.append_line (by rw [hvis]; rfl) (by omega) hlen hnul
  | some data =>
    have hdata : data.length ≤ 640 := (Nat.le_add_right _ _).trans (h.potential data hvis)
    rw [read_session hvis (by simp only [ramfsFileSize]; omega) (by decide)]
    exact h.append_line (by rw [hvis]; rfl) (by omega) hlen hnul

/-- What `session_compact` writes. -/
theorem SessionBounded.write_compacted (h : SessionBounded fs a) {data : List UInt8}
    (hvis : fs.visible (sessionPath a.id) = some data) {start : Nat} (hstart : start ≤ data.length)
    (hfirst : lineEnd data 0 ≤ start) :
    SessionBounded (ramfsWrite fs (sessionPath a.id) 0 (compactedSession data start)).2 a := by
  have hnul := h.nul_free data hvis
  have hpot := h.potential data hvis
  have hlen : data.length ≤ 640 := (Nat.le_add_right _ _).trans hpot
  have hwritten := compactedSession_eq hnul hstart (hlen.trans (by decide))
  have hsummary := length_sessionSummary hstart
  have hwrittenLen : (compactedSession data start).length
      = 9 + min start 213 + (data.length - start + 1) := by
    rw [hwritten, List.length_append, List.length_cons, List.length_drop, hsummary]
  refine .of_visible ((visible_write_self fs (sessionPath_short a.id) (by omega)
    (by simp only [ramfsFileSize]; omega)).symm.imp id fun hdata => ?_)
  rw [hvis, Option.getD_some] at hdata
  refine ⟨_, hdata, ?_, ?_⟩
  · have hdrop : ∀ n, (0 : UInt8) ∉ data.drop n := fun n hmem => hnul (List.mem_of_mem_drop hmem)
    rw [hwritten, List.mem_append, List.mem_append, List.mem_cons]
    rintro ((hmem | hmem | hmem) | hmem)
    · exact zero_not_mem_sessionSummary hnul start hmem
    · exact absurd hmem (by decide)
    · exact hdrop _ hmem
    · exact hdrop _ hmem
  · exact (sessionPotential_compact hnul hstart hfirst (hlen.trans (by decide))).trans hpot

theorem SessionBounded.compact (h : SessionBounded fs a) (inbox : Msgbox) (keep : Int) :
    SessionBounded (sessionCompact fs inbox a keep).2.1 a := by
  rw [sessionCompact]
  by_cases hneg : keep < 0
  · rw [if_pos hneg]
    exact h
  rw [if_neg hneg]
  cases hvis : fs.visible (sessionPath a.id) with
  | none =>
    rw [ramfsRead_start fs _ (by decide), hvis]
    exact h
  | some data =>
    have hlen : data.length ≤ 640 := (Nat.le_add_right _ _).trans (h.potential data hvis)
    rw [read_session hvis (by simp only [ramfsFileSize]; omega) (by decide)]
    dsimp only
    by_cases hempty : data.length = 0
    · rw [if_pos hempty]
      exact h
    by_cases hfew : (countLines data : Int) ≤ keep
    · rw [if_neg hempty, if_pos hfew]
      exact h
    have hwrite := h.write_compacted hvis
      (lineStartAt_le (countLines data - keep.toNat) (Nat.zero_le _))
      (lineEnd_le_lineStartAt (by omega) fun hnil => hempty (hnil ▸ rfl))
    rw [if_neg hempty, if_neg hfew]
    split
    · exact hwrite
    · exact hwrite

theorem SessionBounded.step {s : SessionState} (h : SessionBounded s.fs a) (c : SessionCall) :
    SessionBounded (s.step a c).fs a := by
  cases c with
  | append text => exact h.append text
  | compact keep => exact h.compact s.inbox keep

end Runs

/-- **The session quota.** From a table without a session of the agent, whatever is
appended and compacted: the session never has more than 640 bytes. -/
theorem session_quota (a : Caller) (s : SessionState)
    (hnone : s.fs.visible (sessionPath a.id) = none) (cs : List SessionCall) :
    (((Runs.run (SessionState.step a) s cs).fs.visible (sessionPath a.id)).getD []).length
      ≤ tenantSessionQuota := by
  have hbounded : SessionBounded (Runs.run (SessionState.step a) s cs).fs a := by
    have hstart : SessionBounded s.fs a := .of_visible (.inl hnone)
    clear hnone
    induction cs generalizing s with
    | nil => exact hstart
    | cons c cs ih => exact ih (s.step a c) (hstart.step c)
  cases hvis : (Runs.run (SessionState.step a) s cs).fs.visible (sessionPath a.id) with
  | none => exact Nat.zero_le _
  | some data => exact (Nat.le_add_right _ _).trans (hbounded.potential data hvis)

/-- An empty mailbox. -/
def emptyInbox : Msgbox :=
  ⟨⟨fun _ => .ofText 0 0 [], 0, 0, 0⟩, ⟨fun _ => .ofText 0 0 [], 0, 0, 0⟩⟩

/-- Two lines, and a compaction that makes of them a longer one. -/
def sessionCalls : List SessionCall := [.append (bytes "hello"), .append (bytes "world"), .compact 0]

theorem session_quota_longer :
    (((Runs.run (SessionState.step (plainAgent 3)) ⟨ramfsInit zeroMem, emptyInbox⟩ sessionCalls).fs.visible
      (sessionPath 3)).getD []).length = 22 ∧
    (((Runs.run (SessionState.step (plainAgent 3)) ⟨ramfsInit zeroMem, emptyInbox⟩ sessionCalls).fs.visible
      (sessionPath 3)).getD []).length ≤ tenantSessionQuota :=
  ⟨by decide +kernel, session_quota (plainAgent 3) ⟨ramfsInit zeroMem, emptyInbox⟩
    (visible_ramfsInit rfl) sessionCalls⟩

end OpenAgentOS
