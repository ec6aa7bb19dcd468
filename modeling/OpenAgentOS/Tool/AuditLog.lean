import Mathlib.Data.List.Infix
import OpenAgentOS.Lib.Lines
import OpenAgentOS.Lib.Runs
import OpenAgentOS.Tool.AuditTrail

/-!
# The audit log as a list of lines

`audit_compact` finds the lines of a log by scanning it for newlines, and knows
nothing of what it wrote there before. Here a log is what it is meant to be: the
lines of the last tool calls, under a line that says whether there was a
compaction. The code's operations on the text are the operations on the lines.

- `AuditLog`: the line of the last compaction and the lines kept, with
  `AuditLog.compact` and `AuditLog.log`.
- `compacted_text`: `audit_compact` is `AuditLog.compact`. The line of an earlier
  compaction counts as a line, and as the first one it is always among those
  dropped.
- `auditText_compact`, `auditText_toolAuditLog`: the same for the files.
-/

namespace OpenAgentOS

open CString Lines

/-- The line a compaction puts in front. -/
def compactLine (keep : Nat) : List UInt8 :=
  bytes "compact: " ++ (if 10 ≤ keep then [digitChar (keep / 10)] else [])
    ++ [digitChar (keep % 10), '\n'.toUInt8]

/-- The number of lines that `audit_compact` keeps. -/
def keepCount (keepLines : Int) : Nat := (max 1 (min keepLines 32)).toNat

/-- A log: the count of the last compaction, and the lines kept, the oldest first. -/
structure AuditLog where
  head : Option Nat
  kept : List (List UInt8)
  deriving DecidableEq

namespace AuditLog

def empty : AuditLog := ⟨none, []⟩

/-- All lines. -/
def lines (log : AuditLog) : List (List UInt8) := (log.head.map compactLine).toList ++ log.kept

def text (log : AuditLog) : List UInt8 := log.lines.flatten

/-- The file that holds the log; without lines there is none. -/
def file (log : AuditLog) : Option (List UInt8) := if log.kept = [] then none else some log.text

def compact (keep : Nat) (log : AuditLog) : AuditLog :=
  if log.lines.length ≤ keep then log
  else ⟨some keep, log.kept.drop (log.kept.length - keep)⟩

def append (line : List UInt8) (log : AuditLog) : AuditLog :=
  { log with kept := log.kept ++ [line] }

/-- A line is added, after a compaction if there is no room for it. -/
def log (line : List UInt8) (log : AuditLog) : AuditLog :=
  if log.text.length + line.length ≤ auditQuotaBytes then log.append line
  else (log.compact 8).append line

end AuditLog

/-! ## The lines -/

/-- What every line of a tool call is. -/
structure IsToolLine (l : List UInt8) : Prop where
  line : IsLine '\n'.toUInt8 l
  ge : 12 ≤ l.length
  le : l.length ≤ 32

theorem isToolLine_toolLine (tool rc : Int32) : IsToolLine (toolLine tool.toInt rc.toInt) := by
  have htool := length_intText_le tool.le_toInt tool.toInt_lt
  have hrc := length_intText_le rc.le_toInt rc.toInt_lt
  have htoolPos := length_intText_pos tool.toInt
  have hrcPos := length_intText_pos rc.toInt
  constructor
  · refine ⟨_, ?_, rfl⟩
    simp only [List.mem_append, not_or]
    exact ⟨⟨⟨by decide, newline_not_mem_intText _⟩, by decide⟩, newline_not_mem_intText _⟩
  · rw [length_toolLine]
    omega
  · rw [length_toolLine]
    omega

theorem auditLine_toolLine (tool rc : Int32) :
    auditLine tool.toInt rc.toInt = some (toolLine tool.toInt rc.toInt) :=
  auditLine_eq (Nat.add_le_add (length_intText_le tool.le_toInt tool.toInt_lt)
    (length_intText_le rc.le_toInt rc.toInt_lt))

theorem keepCount_bounds (keepLines : Int) : 1 ≤ keepCount keepLines ∧ keepCount keepLines ≤ 32 := by
  rw [keepCount]
  omega

theorem compactLine_eq {k : Nat} (hk : k ≤ 32) :
    compactLine k = bytes "compact: " ++ decimal k ++ ['\n'.toUInt8] := by
  have hall : ∀ i : Fin 33, compactLine i = bytes "compact: " ++ decimal i ++ ['\n'.toUInt8] := by
    decide +kernel
  exact hall ⟨k, Nat.lt_succ_of_le hk⟩

theorem isLine_compactLine {k : Nat} (hk : k ≤ 32) : IsLine '\n'.toUInt8 (compactLine k) := by
  refine ⟨_, ?_, compactLine_eq hk⟩
  rw [List.mem_append, not_or]
  exact ⟨by decide, fun h => absurd (isDigit_of_mem_decimal h) (by decide)⟩

theorem length_compactLine (k : Nat) : (compactLine k).length = if 10 ≤ k then 12 else 11 := by
  rw [compactLine]
  split <;> rfl

theorem length_flatten_bounds {ls : List (List UInt8)} (hls : ∀ l ∈ ls, IsToolLine l) :
    12 * ls.length ≤ ls.flatten.length ∧ ls.flatten.length ≤ 32 * ls.length := by
  induction ls with
  | nil => exact ⟨Nat.le_refl 0, Nat.le_refl 0⟩
  | cons l ls ih =>
    obtain ⟨hl, hls⟩ := List.forall_mem_cons.mp hls
    obtain ⟨hlo, hhi⟩ := ih hls
    have hge := hl.ge
    have hle := hl.le
    rw [List.flatten_cons, List.length_append, List.length_cons]
    omega

/-- The scan of `audit_compact` finds the places that follow an inner newline, as many as
its array holds. -/
theorem lineStarts_eq (buf : List UInt8) :
    lineStarts buf = (offsets '\n'.toUInt8 buf).take (auditCompactMaxLines - 1) := by
  rw [lineStarts, offsets, seps, List.filter_filter]
  refine congrArg (fun is : List Nat => (0 :: is.map (· + 1)).take _)
    (List.filter_congr fun i hi => ?_)
  have hlt := List.mem_range.mp hi
  rw [charAt, List.getD_eq_getElem _ _ hlt, List.getElem?_eq_getElem hlt, Bool.and_comm]
  rfl

/-! ## Logs that the code makes -/

/-- The lines are those of tool calls, at most as many as the quota allows beside the
shortest first line. -/
structure AuditLog.WellFormed (log : AuditLog) : Prop where
  head_le : ∀ k ∈ log.head, k ≤ 32
  kept : ∀ l ∈ log.kept, IsToolLine l
  head_none : log.kept = [] → log.head = none
  size : log.kept.flatten.length + (if log.head.isSome then 11 else 0) ≤ auditQuotaBytes

namespace AuditLog

theorem wellFormed_empty : empty.WellFormed := ⟨nofun, nofun, fun _ => rfl, by decide⟩

theorem length_head (log : AuditLog) : (log.head.map compactLine).toList.length ≤ 1 := by
  cases log.head with
  | none => exact Nat.zero_le 1
  | some k => exact Nat.le_refl 1

theorem length_text (log : AuditLog) :
    log.text.length = (log.head.map compactLine).toList.flatten.length + log.kept.flatten.length := by
  rw [text, lines, List.flatten_append, List.length_append]

/-- A first line has 11 or 12 bytes. -/
theorem head_bounds (log : AuditLog) :
    (if log.head.isSome then 11 else 0) ≤ (log.head.map compactLine).toList.flatten.length ∧
      (log.head.map compactLine).toList.flatten.length ≤ 12 := by
  cases log.head with
  | none => exact ⟨Nat.le_refl 0, Nat.zero_le 12⟩
  | some k =>
    have hlen := length_compactLine k
    rw [Option.map_some, Option.toList_some, List.flatten_singleton, Option.isSome_some,
      if_pos rfl, hlen]
    split <;> omega

variable {log : AuditLog}

theorem lines_ne_nil (hne : log.kept ≠ []) : log.lines ≠ [] := by
  rw [lines]
  exact fun hnil => hne (List.append_eq_nil_iff.mp hnil).2

/-- What follows the first lines. -/
theorem drop_lines {keep : Nat} (hkeep : keep < log.lines.length) :
    log.lines.drop (log.lines.length - keep) = log.kept.drop (log.kept.length - keep) := by
  have hhead := log.length_head
  rw [lines, List.length_append] at hkeep ⊢
  rw [List.drop_append, List.drop_eq_nil_of_le (by omega), List.nil_append]
  congr 1
  omega

variable (h : log.WellFormed)

include h

theorem isLine_of_mem {l : List UInt8} (hl : l ∈ log.lines) : IsLine '\n'.toUInt8 l := by
  rw [lines, List.mem_append, Option.mem_toList, Option.map_eq_some_iff] at hl
  rcases hl with ⟨k, hk, rfl⟩ | hl
  · exact isLine_compactLine (h.head_le k hk)
  · exact (h.kept l hl).line

/-- There are far fewer lines than `audit_compact` has room for. -/
theorem length_lines_le : log.lines.length ≤ 43 := by
  have hsize := h.size
  have hhead := log.length_head
  have hkept := (length_flatten_bounds h.kept).1
  rw [lines, List.length_append]
  simp only [auditQuotaBytes] at hsize
  omega

theorem length_text_pos (hne : log.kept ≠ []) : 0 < log.text.length := by
  have hkept := (length_flatten_bounds h.kept).1
  have hpos := List.length_pos_iff.mpr hne
  rw [length_text]
  omega

theorem length_text_le : log.text.length ≤ auditQuotaBytes + 1 := by
  have hsize := h.size
  rw [length_text]
  cases hhead : log.head with
  | none =>
    rw [hhead] at hsize
    show 0 + _ ≤ _
    omega
  | some k =>
    rw [hhead] at hsize
    have hbound := log.head_bounds.2
    rw [hhead] at hbound
    simp only [Option.isSome_some, if_true] at hsize
    omega

theorem lineStarts_text (hne : log.kept ≠ []) :
    lineStarts log.text
      = (List.range log.lines.length).map fun k => (log.lines.take k).flatten.length := by
  have hcount := length_lines_le h
  rw [lineStarts_eq, text, offsets_flatten (fun l hl => isLine_of_mem h hl) (lines_ne_nil hne)]
  refine List.take_of_length_le ?_
  rw [List.length_map, List.length_range]
  exact hcount.trans (by decide)

/-- **The text after a compaction.** -/
theorem compacted_text (keepLines : Int) :
    compacted keepLines log.text = (log.compact (keepCount keepLines)).text := by
  by_cases hne : log.kept = []
  · have hempty : log.lines = [] := by
      rw [lines, h.head_none hne, hne]
      rfl
    rw [compact, if_pos (by rw [hempty]; exact Nat.zero_le _), text, hempty]
    rfl
  · have hpos := length_text_pos h hne
    have hstarts := lineStarts_text h hne
    have hlen : (lineStarts log.text).length = log.lines.length := by
      rw [hstarts, List.length_map, List.length_range]
    rw [compacted, compact]
    dsimp only
    rw [if_neg (by omega), hlen, show (max 1 (min keepLines 32)).toNat = keepCount keepLines from rfl]
    by_cases hfew : log.lines.length ≤ keepCount keepLines
    · rw [if_pos hfew, if_pos hfew]
    · have hkeep := keepCount_bounds keepLines
      rw [if_neg hfew, if_neg hfew]
      have hstart : (lineStarts log.text).getD (log.lines.length - keepCount keepLines) 0
          = (log.lines.take (log.lines.length - keepCount keepLines)).flatten.length := by
        rw [hstarts, List.getD_eq_getElem _ _ (by rw [List.length_map, List.length_range]; omega),
          List.getElem_map, List.getElem_range]
      have hdrop := drop_flatten log.lines (log.lines.length - keepCount keepLines)
      have hrest : ((log.kept.drop (log.kept.length - keepCount keepLines)).flatten).length
          ≤ log.text.length := by
        rw [← drop_lines (Nat.not_le.mp hfew), ← hdrop, List.length_drop]
        exact Nat.sub_le _ _
      have htext := length_text_le h
      rw [hstart, text, hdrop, drop_lines (Nat.not_le.mp hfew)]
      show ((compactLine (keepCount keepLines)) ++ _).take _ = _
      rw [List.take_of_length_le]
      · rfl
      · have hline := length_compactLine (keepCount keepLines)
        rw [List.length_append, hline]
        have : log.text.length ≤ 513 := htext
        show _ ≤ 8191
        split <;> omega

theorem wellFormed_compact {keep : Nat} (hkeep : 1 ≤ keep ∧ keep ≤ 32) :
    (log.compact keep).WellFormed := by
  rw [compact]
  split
  · exact h
  · rename_i hmore
    -- at least the first line is dropped, and there was room for it
    have hhead := log.length_head
    have hsub : (log.kept.drop (log.kept.length - keep)).Sublist log.kept := List.drop_sublist _ _
    have hmem : ∀ l ∈ log.kept.drop (log.kept.length - keep), IsToolLine l := fun l hl =>
      h.kept l (hsub.subset hl)
    have hlen : log.lines.length = (log.head.map compactLine).toList.length + log.kept.length :=
      List.length_append
    constructor
    · intro k hk
      rw [Option.mem_some_iff] at hk
      exact hk ▸ hkeep.2
    · exact hmem
    · intro hnil
      rw [List.drop_eq_nil_iff] at hnil
      omega
    · have hsize := h.size
      have hsplit : (log.kept.take (log.kept.length - keep)).flatten.length
          + (log.kept.drop (log.kept.length - keep)).flatten.length = log.kept.flatten.length := by
        rw [← List.length_append, ← List.flatten_append, List.take_append_drop]
      have htake := (length_flatten_bounds fun l hl =>
        h.kept l (List.mem_of_mem_take (i := log.kept.length - keep) hl)).1
      rw [List.length_take] at htake
      show (log.kept.drop (log.kept.length - keep)).flatten.length + 11 ≤ _
      cases hcase : log.head with
      | none =>
        rw [hcase] at hsize hlen
        simp only [Option.map_none, Option.toList_none, List.length_nil] at hlen
        simp only [Option.isSome_none, Bool.false_eq_true, if_false] at hsize
        omega
      | some k =>
        rw [hcase] at hsize
        simp only [Option.isSome_some, if_true] at hsize
        omega

variable {line : List UInt8} (hline : IsToolLine line)

include hline

theorem wellFormed_append (hfits : log.text.length + line.length ≤ auditQuotaBytes) :
    (log.append line).WellFormed := by
  have hhead := log.head_bounds.1
  rw [length_text] at hfits
  constructor
  · exact h.head_le
  · intro l hl
    rcases List.mem_append.mp hl with hl | hl
    · exact h.kept l hl
    · exact List.mem_singleton.mp hl ▸ hline
  · exact fun hnil => absurd (List.append_eq_nil_iff.mp hnil).2 (List.cons_ne_nil _ _)
  · show (log.kept ++ [line]).flatten.length + (if log.head.isSome then 11 else 0) ≤ _
    rw [List.flatten_append, List.flatten_singleton, List.length_append]
    omega

/-- After a compaction to eight lines there is room for one more. -/
theorem length_compact_eight (hover : auditQuotaBytes < log.text.length + line.length) :
    (log.compact 8).text.length + line.length ≤ auditQuotaBytes := by
  have hle := hline.le
  have hlen : log.lines.length = (log.head.map compactLine).toList.length + log.kept.length :=
    List.length_append
  have htext := log.length_text
  have hbound := log.head_bounds.2
  have hkept := (length_flatten_bounds h.kept).2
  have hmore : ¬ log.lines.length ≤ 8 := by
    simp only [auditQuotaBytes] at hover
    omega
  have hdrop := (length_flatten_bounds fun l hl =>
    h.kept l (List.mem_of_mem_drop (i := log.kept.length - 8) hl)).2
  rw [List.length_drop] at hdrop
  rw [compact, if_neg hmore, length_text]
  show (compactLine 8 ++ []).length + _ + _ ≤ _
  rw [List.append_nil, length_compactLine, if_neg (by decide)]
  simp only [auditQuotaBytes]
  omega

theorem wellFormed_log : (log.log line).WellFormed := by
  rw [AuditLog.log]
  split
  · rename_i hfits
    exact wellFormed_append h hline hfits
  · rename_i hover
    exact wellFormed_append (wellFormed_compact h (by decide)) hline
      (length_compact_eight h hline (Nat.not_le.mp hover))

end AuditLog

/-! ## The files -/

section Files

variable {fs : Ramfs} {log : AuditLog} (h : log.WellFormed)

include h

theorem AuditLog.kept_compact_eq_nil {keep : Nat} (hkeep : 1 ≤ keep ∧ keep ≤ 32) :
    (log.compact keep).kept = [] ↔ log.kept = [] := by
  constructor
  · intro hnil
    rw [AuditLog.compact] at hnil
    split at hnil
    · exact hnil
    · refine List.length_eq_zero_iff.mp ?_
      rw [List.drop_eq_nil_iff] at hnil
      omega
  · intro hnil
    have hlines : log.lines = [] := by
      rw [AuditLog.lines, h.head_none hnil, hnil]
      rfl
    rw [AuditLog.compact, hlines, if_pos (show ([] : List (List UInt8)).length ≤ keep from
      Nat.zero_le keep)]
    exact hnil

theorem logUsage_file : logUsage log.file = log.text.length := by
  rw [AuditLog.file]
  split
  · rename_i hnil
    rw [AuditLog.text, AuditLog.lines, h.head_none hnil, hnil]
    rfl
  · rename_i hne
    have := AuditLog.length_text_pos h hne
    show max 1 log.text.length = log.text.length
    omega

theorem file_compact (keepLines : Int) :
    log.file.map (compacted keepLines) = (log.compact (keepCount keepLines)).file := by
  rw [AuditLog.file, AuditLog.file]
  simp only [AuditLog.kept_compact_eq_nil h (keepCount_bounds keepLines)]
  split
  · rfl
  · rw [Option.map_some, AuditLog.compacted_text h]

theorem file_getD : log.file.getD [] = log.text := by
  rw [AuditLog.file]
  split
  · rename_i hnil
    rw [AuditLog.text, AuditLog.lines, h.head_none hnil, hnil]
    rfl
  · rfl

theorem file_append_getD (line : List UInt8) :
    some (log.file.getD [] ++ line) = (log.append line).file := by
  have hne : (log.append line).kept ≠ [] := fun hnil =>
    absurd (List.append_eq_nil_iff.mp hnil).2 (List.cons_ne_nil _ _)
  rw [file_getD h, AuditLog.file, if_neg hne]
  refine congrArg some ?_
  show log.lines.flatten ++ line = ((log.head.map compactLine).toList ++ (log.kept ++ [line])).flatten
  rw [← List.append_assoc, List.flatten_append, List.flatten_singleton]
  rfl

/-- **A compaction of the file.** -/
theorem auditText_compact {id : Fin maxAgents} (hfile : fs.auditText id = log.file)
    (keepLines : Int) :
    (auditCompact fs id keepLines).2.auditText id = (log.compact (keepCount keepLines)).file := by
  rw [visible_auditCompact, hfile, file_compact h]

/-- **A line for the file.** -/
theorem auditText_toolAuditLog {a : Caller} (hfile : fs.auditText a.id = log.file)
    (hslot : log.kept = [] → slotCount (fun i => (fs i).used) < ramfsMaxFiles) (tool rc : Int32) :
    (toolAuditLog fs a tool.toInt rc.toInt).auditText a.id
      = (log.log (toolLine tool.toInt rc.toInt)).file := by
  have hline := auditLine_toolLine tool rc
  have htool := isToolLine_toolLine tool rc
  have hpos : 0 < (toolLine tool.toInt rc.toInt).length := by
    have := htool.ge
    omega
  have husage := logUsage_file h
  rw [AuditLog.log]
  by_cases hfits : log.text.length + (toolLine tool.toInt rc.toInt).length ≤ auditQuotaBytes
  · rw [if_pos hfits, auditText_log hline hpos (by rw [hfile, husage]; exact hfits) ?_, hfile,
      file_append_getD h]
    intro hnone
    refine hslot ?_
    by_contra hne
    rw [hfile, AuditLog.file, if_neg hne] at hnone
    exact absurd hnone nofun
  · have hwf := AuditLog.wellFormed_compact h (show 1 ≤ 8 ∧ 8 ≤ 32 by decide)
    have hcompact : (fs.auditText a.id).map (compacted 8) = (log.compact 8).file := by
      rw [hfile, file_compact h]
      rfl
    rw [if_neg hfits, auditText_log_compacted hline hpos ?_ ?_, hcompact, file_append_getD hwf]
    · rw [hfile, husage]
      exact Nat.not_le.mp hfits
    · rw [hcompact, logUsage_file hwf]
      exact AuditLog.length_compact_eight h htool (Nat.not_le.mp hfits)

end Files

end OpenAgentOS
