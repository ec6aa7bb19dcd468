import OpenAgentOS.Tool.Compaction

/-!
# Session calls that are refused (kernel/session.c, tenant.c)

- `sessionAppend_eq`: the end of `session_append` is reached with the first 8190 bytes of the session
  and one line.
- `sessionAppend_enospc_iff`: the quota is tested against the usage plus the whole new session, so
  what is there counts twice. `sessionAdmission_iff` compares that with the length of the new session.
- `sessionCompact_eq`: what a compaction does once it has lines to drop. The session is written first,
  and the message may find no room after that: `sessionCompact_atomic_iff`.
-/

namespace OpenAgentOS

open CString

/-! ## Admission -/

/-- The part of a text that `session_append` takes. -/
def sessionText (text : List UInt8) : List UInt8 := (text.takeWhile (· ≠ 0)).take 188

/-- The line that it appends. -/
def sessionLine (text : List UInt8) : List UInt8 := sessionText text ++ [newline]

/-- An agent's session, empty if there is no file. -/
def Ramfs.session (fs : Ramfs) (a : Caller) : List UInt8 := (fs.visible (sessionPath a.id)).getD []

section

variable {fs : Ramfs} {a : Caller} {text : List UInt8}

theorem length_sessionLine (text : List UInt8) :
    (sessionLine text).length = (sessionText text).length + 1 := List.length_append

/-- A text with a byte in it gets to the end of the function. -/
theorem sessionAppend_eq (hne : sessionText text ≠ []) :
    sessionAppend fs a text =
      sessionAppend.append fs a ((fs.session a).take (ramfsFileSize - 2)) (sessionLine text) := by
  have hpos : ((text.takeWhile (· ≠ 0)).take 188).length ≠ 0 := fun hzero =>
    hne (List.length_eq_zero_iff.mp hzero)
  rw [sessionAppend, if_neg hpos, ramfsRead_start fs _ (by decide), Ramfs.session]
  cases fs.visible (sessionPath a.id) with
  | none => rfl
  | some data => rfl

theorem sessionAppend_nil (hnil : sessionText text = []) : sessionAppend fs a text = (einval, fs) := by
  rw [sessionAppend]
  exact if_pos (List.length_eq_zero_iff.mpr hnil)

/-- **What the quota is tested against**: the usage, and the session with the new line. -/
theorem sessionAppend_enospc_iff (hne : sessionText text ≠ []) :
    (sessionAppend fs a text).1 = enospc ↔
      tenantSessionQuota < logUsage (fs.visible (sessionPath a.id)) +
        ((fs.session a).length + (sessionLine text).length) := by
  rw [sessionAppend_eq hne, sessionAppend.append, tenantSessionUsage_eq, List.length_take]
  simp only [tenantSessionQuota, ramfsFileSize]
  split_ifs with hquota hsize
  · exact ⟨fun _ => by omega, fun _ => rfl⟩
  · omega
  · exact ⟨fun hrc => absurd hrc (show eio ≠ enospc by decide), fun _ => by omega⟩
  · have hcode : enospc < 0 := by decide
    exact ⟨fun hrc => absurd hrc (by dsimp only; omega), fun _ => by omega⟩

/-- **Admission to a session.** An append is refused for its quota exactly if the new session would
be longer than 640 bytes: this holds exactly where a text without bytes finds room for a newline, and
where a session that is not too long with the line is not too long when its usage is added once more. -/
theorem sessionAdmission_iff :
    ((sessionAppend fs a text).1 = enospc ↔
        tenantSessionQuota < (fs.session a).length + (sessionLine text).length) ↔
      if sessionText text = [] then (fs.session a).length + 1 ≤ tenantSessionQuota
      else (fs.session a).length + (sessionLine text).length ≤ tenantSessionQuota →
        logUsage (fs.visible (sessionPath a.id)) + ((fs.session a).length + (sessionLine text).length) ≤
          tenantSessionQuota := by
  by_cases hnil : sessionText text = []
  · have hcode : einval ≠ enospc := by decide
    have hline : (sessionLine text).length = 1 := by rw [length_sessionLine, hnil]; rfl
    rw [if_pos hnil, sessionAppend_nil hnil, hline]
    simp only [hcode, false_iff, Nat.not_lt]
  · rw [if_neg hnil, sessionAppend_enospc_iff hnil]
    omega

end

/-- **A line that is refused though it fits**: a session of 400 bytes, which would have 410. -/
theorem not_sessionAdmission_half :
    let fs := sessionFs (List.replicate 400 'a'.toUInt8)
    (sessionAppend fs (plainAgent 3) (bytes "123456789")).1 = enospc ∧
      (fs.session (plainAgent 3)).length + (sessionLine (bytes "123456789")).length = 410 ∧
      ¬ ((sessionAppend fs (plainAgent 3) (bytes "123456789")).1 = enospc ↔
        tenantSessionQuota <
          (fs.session (plainAgent 3)).length + (sessionLine (bytes "123456789")).length) := by
  intro fs
  have hlen : (List.replicate 400 'a'.toUInt8).length = 400 := List.length_replicate
  have hvis : fs.visible (sessionPath (plainAgent 3).id) = some (List.replicate 400 'a'.toUInt8) :=
    visible_sessionFs (by omega) (by simp only [ramfsFileSize]; omega)
  have hsession : (fs.session (plainAgent 3)).length = 400 := by
    rw [Ramfs.session, hvis, Option.getD_some, hlen]
  have hline : (sessionLine (bytes "123456789")).length = 10 := by decide
  have hrefused : (sessionAppend fs (plainAgent 3) (bytes "123456789")).1 = enospc := by
    rw [sessionAppend_enospc_iff (by decide), hvis, hsession, hline, logUsage, hlen]
    decide
  rw [hsession, hline]
  exact ⟨hrefused, rfl, fun hiff => absurd (hiff.mp hrefused) (by decide)⟩

/-! ## Compaction -/

/-- What a compaction to `keep` lines writes. -/
def rewritten (data : List UInt8) (keep : Nat) : List UInt8 :=
  compactedSession data (droppedText data keep).length

section

variable {fs : Ramfs} {inbox : Msgbox} {a : Caller} {keep : Int} {data : List UInt8}

theorem compactedSession_pos (data : List UInt8) (start : Nat) :
    0 < (compactedSession data start).length := by
  rw [compactedSession, List.length_take, List.length_append, List.length_cons]
  simp only [ramfsFileSize]
  omega

theorem length_compactedSession_lt (data : List UInt8) (start : Nat) :
    (compactedSession data start).length < ramfsFileSize :=
  Nat.lt_of_le_of_lt (List.length_take_le _ _) (by decide)

/-- A session with lines is a file. -/
theorem visible_of_lines (h : (0 : Int) < (Lines.split newline (fs.session a)).length) :
    fs.visible (sessionPath a.id) = some (fs.session a) := by
  rw [Ramfs.session] at h ⊢
  cases hvis : fs.visible (sessionPath a.id) with
  | none =>
    rw [hvis] at h
    exact absurd h (Int.lt_irrefl 0)
  | some data => rfl

/-- `session_compact` with nothing to drop: a code, and no change. -/
theorem sessionCompact_of_few
    (h : keep < 0 ∨ ((Lines.split newline (fs.session a)).length : Int) ≤ keep) :
    sessionCompact fs inbox a keep = (if keep < 0 then einval else 0, fs, inbox) := by
  rw [sessionCompact]
  by_cases hneg : keep < 0
  · rw [if_pos hneg, if_pos hneg]
  rw [if_neg hneg, if_neg hneg, ramfsRead_start fs _ (by decide)]
  have hfew := h.resolve_left hneg
  rw [Ramfs.session, ← countLines_eq] at hfew
  cases hvis : fs.visible (sessionPath a.id) with
  | none => rfl
  | some data =>
    rw [hvis, Option.getD_some] at hfew
    have hwhole : data.take (ramfsFileSize - 1) = data :=
      List.take_of_length_le (Nat.le_sub_one_of_lt (length_lt_of_visible hvis))
    dsimp only
    rw [hwhole]
    split_ifs <;> rfl

/-- `session_compact` with lines to drop: the session is written, and then the message is pushed. -/
theorem sessionCompact_eq (inbox : Msgbox) (hkeep : 0 ≤ keep)
    (hmany : keep < (Lines.split newline (fs.session a)).length) :
    ∃ fs' : Ramfs, ∃ dropped : Nat,
      fs'.visible (sessionPath a.id) = some (rewritten (fs.session a) keep.toNat ++
        (fs.session a).drop (rewritten (fs.session a) keep.toNat).length) ∧
      sessionCompact fs inbox a keep =
        (if inbox.hasRoom msgSummary then (dropped : Int) else enospc, fs',
          (msgboxPush inbox
            (sessionMsg (fs.session a) (droppedText (fs.session a) keep.toNat).length)).2) := by
  have hvis := visible_of_lines (hkeep.trans_lt hmany)
  generalize fs.session a = data at hmany hvis ⊢
  have hwhole : data.take (ramfsFileSize - 1) = data :=
    List.take_of_length_le (Nat.le_sub_one_of_lt (length_lt_of_visible hvis))
  have hempty : ¬ data.length = 0 := fun hzero => by
    rw [List.length_eq_zero_iff.mp hzero] at hmany
    exact absurd hmany (Int.not_lt.mpr hkeep)
  have hstart : lineStartAt data (countLines data - keep.toNat) 0 =
      (droppedText data keep.toNat).length := by
    rw [lineStartAt_eq _ (Nat.zero_le _), List.drop_zero, Nat.zero_add, countLines_eq, droppedText]
  have hfound : fs.visible (sessionPath a.id) = none →
      slotCount (fun i => (fs i).used) < ramfsMaxFiles := fun hnone =>
    absurd (hvis.symm.trans hnone) (Option.some_ne_none _)
  obtain ⟨fs', hwrite, hstored⟩ := ramfsWrite_of_found_or_room
    (compactedSession_pos data (droppedText data keep.toNat).length)
    (length_compactedSession_lt data (droppedText data keep.toNat).length) hfound
  have hvisible := hstored.visible_self (sessionPath_short a.id)
  rw [hvis, Option.getD_some] at hvisible
  refine ⟨fs', countLines data - keep.toNat, hvisible, ?_⟩
  rw [sessionCompact, if_neg (Int.not_lt.mpr hkeep), ramfsRead_start fs _ (by decide), hvis]
  dsimp only
  rw [hwhole, if_neg hempty, if_neg (by rw [countLines_eq]; omega), hstart, hwrite]
  dsimp only
  rw [if_neg (Int.not_lt.mpr (Int.natCast_nonneg _)), msgboxPush_rc]
  have htype : (sessionMsg data (droppedText data keep.toNat).length).type = msgSummary := rfl
  rw [htype]
  cases inbox.hasRoom msgSummary with
  | true => rfl
  | false => rfl

/-- **A compaction that fails changes nothing**, exactly if it does not come to write a session whose
beginning differs while the inbox is full. -/
theorem sessionCompact_atomic_iff :
    ((sessionCompact fs inbox a keep).1 < 0 →
        (sessionCompact fs inbox a keep).2.1.visible (sessionPath a.id) = fs.visible (sessionPath a.id) ∧
          (sessionCompact fs inbox a keep).2.2 = inbox) ↔
      (0 ≤ keep → keep < (Lines.split newline (fs.session a)).length → inbox.hasRoom msgSummary = false →
        rewritten (fs.session a) keep.toNat <+: fs.session a) := by
  by_cases hfew : keep < 0 ∨ ((Lines.split newline (fs.session a)).length : Int) ≤ keep
  · rw [sessionCompact_of_few hfew]
    exact ⟨fun _ hkeep hmany => by omega, fun _ _ => ⟨rfl, rfl⟩⟩
  rw [not_or, Int.not_lt, Int.not_le] at hfew
  obtain ⟨fs', dropped, hvis', hcompact⟩ := sessionCompact_eq inbox hfew.1 hfew.2
  have hbefore := visible_of_lines (hfew.1.trans_lt hfew.2)
  rw [hcompact, hvis', hbefore]
  dsimp only
  cases hroom : inbox.hasRoom msgSummary with
  | true =>
    rw [if_pos rfl]
    refine ⟨fun _ _ _ hfull => absurd hfull (by decide), fun _ hneg => ?_⟩
    omega
  | false =>
    -- the code is ENOSPC, the message is lost, and the session is what was written over it
    rw [if_neg Bool.false_ne_true, Option.some_inj, List.prefix_iff_eq_append]
    constructor
    · intro hatomic _ _ _
      exact (hatomic (by decide)).1
    · intro hcond _
      exact ⟨hcond hfew.1 hfew.2 rfl, msgboxPush_of_full hroom⟩

end

/-- A mailbox with 16 normal messages. -/
def fullInbox : Msgbox :=
  ⟨⟨fun _ => .ofText 0 0 [], 0, 0, 16⟩, ⟨fun _ => .ofText 0 0 [], 0, 0, 0⟩⟩

/-- **A compaction that fails and has changed the session**: two lines, and no room for the message. -/
theorem not_sessionCompact_atomic :
    let fs := sessionFs (bytes "one\ntwo\n")
    (sessionCompact fs fullInbox (plainAgent 3) 1).1 = enospc ∧
      fs.visible (sessionPath 3) = some (bytes "one\ntwo\n") ∧
      (sessionCompact fs fullInbox (plainAgent 3) 1).2.1.visible (sessionPath 3) =
        some (bytes "summary: one;\ntwo\n") := by
  intro fs
  exact ⟨by decide +kernel, visible_sessionFs (by decide) (by decide), by decide +kernel⟩

end OpenAgentOS
