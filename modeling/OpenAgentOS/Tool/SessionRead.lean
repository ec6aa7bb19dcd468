import Mathlib.Data.List.DropRight
import OpenAgentOS.Tool.SessionRefusals

/-!
# Reading a session (kernel/session.c)

- `sessionRead`, `sessionTail`: the code. Both copy from the start of a line; the first finds it by
  counting lines from the front, the second by scanning back from the last byte but one.
- `sessionRead_eq`: the last lines of the session.
- `sessionTail_append`: after an append the last line is the new text behind what was not ended by a
  newline before. It is the text alone if nothing was (`session_reading`), and nothing ever is in a
  session that only `session_append` and `session_compact` have written (`ended_run`).
-/

namespace OpenAgentOS

open CString

/-- `session_read` (session.c:171): the bytes that are copied; the return value is their number. -/
def sessionRead (fs : Ramfs) (a : Caller) (buflen maxLines : Int) : Except Int (List UInt8) :=
  if buflen ≤ 0 then .error einval
  else
    match ramfsRead fs (sessionPath a.id) 0 (ramfsFileSize - 1 : Nat) with
    | .error e => if e = enoent then .ok [] else .error e
    | .ok data =>
      if data.length = 0 then .ok []
      else
        let start :=
          if 0 < maxLines ∧ maxLines < countLines data then
            lineStartAt data (countLines data - maxLines.toNat) 0
          else 0
        .ok (((data.drop start).takeWhile (· ≠ 0)).take (buflen - 1).toNat)

/-- The scan back to the byte behind a newline (session.c:128). -/
def scanBack (data : List UInt8) : Nat → Nat
  | 0 => 0
  | start + 1 => if charAt data start ≠ newline then scanBack data start else start + 1

/-- `session_tail` (session.c:102). -/
def sessionTail (fs : Ramfs) (a : Caller) (buflen : Int) : Except Int (List UInt8) :=
  if buflen ≤ 0 then .error einval
  else
    match ramfsRead fs (sessionPath a.id) 0 (ramfsFileSize - 1 : Nat) with
    | .error e => if e = enoent then .ok [] else .error e
    | .ok data =>
      if data.length = 0 then .ok []
      else
        let start := scanBack data (data.length - 1)
        .ok (((data.drop start).takeWhile fun c => c ≠ 0 ∧ c ≠ newline).take (buflen - 1).toNat)

/-! ## The last lines -/

section

variable {fs : Ramfs} {a : Caller} {buflen : Int}

/-- The whole session is read, also if there is no file. -/
theorem read_whole_session (fs : Ramfs) (a : Caller) :
    ramfsRead fs (sessionPath a.id) 0 (ramfsFileSize - 1 : Nat) = .ok (fs.session a) ∨
      ramfsRead fs (sessionPath a.id) 0 (ramfsFileSize - 1 : Nat) = .error enoent ∧
        fs.session a = [] := by
  rw [ramfsRead_start fs _ (by decide), Ramfs.session]
  cases hvis : fs.visible (sessionPath a.id) with
  | none => exact .inr ⟨rfl, rfl⟩
  | some data =>
    have hlen := length_lt_of_visible hvis
    exact .inl (congrArg Except.ok (List.take_of_length_le (Nat.le_sub_one_of_lt hlen)))

theorem keptText_nil (n : Nat) : keptText [] n = [] := by
  rw [keptText, show Lines.split newline [] = [] from rfl, List.drop_nil]
  rfl

/-- `session_read` as a function of the session. -/
theorem sessionRead_eq_of_session (hbuf : 0 < buflen) {n : Int} (hn : 0 < n) :
    sessionRead fs a buflen n =
      .ok (((keptText (fs.session a) n.toNat).takeWhile (· ≠ 0)).take (buflen - 1).toNat) := by
  rw [sessionRead, if_neg (Int.not_le.mpr hbuf)]
  rcases read_whole_session fs a with hread | ⟨hread, hnil⟩
  · rw [hread]
    generalize fs.session a = data
    dsimp only
    by_cases hempty : data.length = 0
    · rw [if_pos hempty, List.length_eq_zero_iff.mp hempty, keptText_nil, List.takeWhile_nil,
        List.take_nil]
    rw [if_neg hempty]
    have hstart : (if 0 < n ∧ n < countLines data then
        lineStartAt data (countLines data - n.toNat) 0 else 0) = (droppedText data n.toNat).length := by
      split_ifs with hmany
      · rw [lineStartAt_eq _ (Nat.zero_le _), List.drop_zero, Nat.zero_add, countLines_eq, droppedText]
      · -- all lines are asked for, and none is dropped
        rw [countLines_eq] at hmany
        rw [droppedText, Nat.sub_eq_zero_of_le (by omega)]
        rfl
    rw [hstart, drop_dropped]
  · rw [hread, hnil, keptText_nil, List.takeWhile_nil, List.take_nil]
    rfl

/-- **What `session_read` returns**: the last lines, cut to the buffer. -/
theorem sessionRead_eq (hnul : (0 : UInt8) ∉ fs.session a) (hbuf : 0 < buflen) {n : Int} (hn : 0 < n) :
    sessionRead fs a buflen n =
      .ok ((keptText (fs.session a) n.toNat).take (buflen - 1).toNat) := by
  have hkept : (0 : UInt8) ∉ keptText (fs.session a) n.toNat := fun hmem => by
    rw [← drop_dropped] at hmem
    exact hnul (List.mem_of_mem_drop hmem)
  have hwhole : (keptText (fs.session a) n.toNat).takeWhile (· ≠ 0) = keptText (fs.session a) n.toNat :=
    List.takeWhile_eq_self_iff.mpr fun c hc => decide_eq_true fun heq => hkept (heq ▸ hc)
  rw [sessionRead_eq_of_session hbuf hn, hwhole]

end

/-! ## The last line -/

/-- What is behind the last newline. -/
def unended (data : List UInt8) : List UInt8 := data.rtakeWhile (· ≠ newline)

section

variable {fs : Ramfs} {a : Caller} {buflen : Int} {text : List UInt8}

theorem scanBack_eq (data : List UInt8) {k : Nat} (hk : k ≤ data.length) :
    scanBack data k = k - (unended (data.take k)).length := by
  induction k with
  | zero => exact (Nat.zero_sub _).symm
  | succ k ih =>
    have hle : (unended (data.take k)).length ≤ k :=
      (List.rtakeWhile_suffix _ _).length_le.trans (List.length_take_le _ _)
    have hchar : charAt data k = data[k] := List.getD_eq_getElem _ _ hk
    rw [scanBack, hchar, List.take_succ_eq_append_getElem hk]
    by_cases hnew : data[k] = newline
    · rw [if_neg (not_not_intro hnew), unended, List.rtakeWhile_concat_neg _ _ _ (by simpa using hnew)]
      rfl
    · rw [if_pos hnew, unended, List.rtakeWhile_concat_pos _ _ _ (by simpa using hnew), ih (by omega),
        List.length_append, unended, List.length_singleton]
      omega

/-- A text without a newline lengthens what is unended. -/
theorem unended_append (old : List UInt8) (htext : newline ∉ text) :
    unended (old ++ text) = unended old ++ text := by
  induction text using List.reverseRecOn with
  | nil => rw [List.append_nil, List.append_nil]
  | append_singleton text c ih =>
    rw [List.mem_append, not_or] at htext
    have hc : c ≠ newline := fun heq => htext.2 (List.mem_singleton.mpr heq.symm)
    rw [← List.append_assoc, unended, List.rtakeWhile_concat_pos _ _ _ (by simpa using hc)]
    rw [unended] at ih
    rw [ih htext.1, List.append_assoc, unended]

theorem newline_not_mem_unended (data : List UInt8) : newline ∉ unended data := fun hmem => by
  simpa using List.mem_rtakeWhile_imp hmem

/-- From the start of the last line on. -/
theorem drop_scanBack (data : List UInt8) :
    (data ++ [newline]).drop (scanBack (data ++ [newline]) data.length) = unended data ++ [newline] := by
  obtain ⟨front, hfront⟩ := List.rtakeWhile_suffix (· ≠ newline) data
  have hlen : front.length + (unended data).length = data.length := by
    rw [unended, ← List.length_append, hfront]
  rw [scanBack_eq _ (by rw [List.length_append]; omega), List.take_left, ← hlen, Nat.add_sub_cancel]
  calc
    (data ++ [newline]).drop front.length
      = ((front ++ unended data) ++ [newline]).drop front.length := by rw [unended, hfront]
    _ = unended data ++ [newline] := by rw [List.append_assoc, List.drop_left]

/-- `session_tail` of a session that ends with a newline. -/
theorem sessionTail_eq (hbuf : 0 < buflen) {data : List UInt8} (hsession : fs.session a = data ++ [newline]) :
    sessionTail fs a buflen = .ok (((unended data).takeWhile (· ≠ 0)).take (buflen - 1).toNat) := by
  have hline : (unended data ++ [newline]).takeWhile (fun c => c ≠ 0 ∧ c ≠ newline) =
      (unended data).takeWhile (· ≠ 0) := by
    have hnew := newline_not_mem_unended data
    generalize unended data = line at hnew ⊢
    induction line with
    | nil => rfl
    | cons c line ih =>
      rw [List.mem_cons, not_or] at hnew
      by_cases hc : c = 0
      · rw [List.cons_append, List.takeWhile_cons_of_neg (by simp [hc]),
          List.takeWhile_cons_of_neg (by simp [hc])]
      · rw [List.cons_append, List.takeWhile_cons_of_pos (by simpa using ⟨hc, Ne.symm hnew.1⟩),
          List.takeWhile_cons_of_pos (by simpa using hc), ih hnew.2]
  rw [sessionTail, if_neg (Int.not_le.mpr hbuf)]
  rcases read_whole_session fs a with hread | ⟨-, hnil⟩
  · have hlen : (data ++ [newline]).length = data.length + 1 := List.length_append
    rw [hread, hsession]
    dsimp only
    rw [if_neg (by omega), hlen, Nat.add_sub_cancel, drop_scanBack, hline]
  · rw [hnil] at hsession
    exact absurd hsession.symm (List.append_ne_nil_of_right_ne_nil _ (List.cons_ne_nil _ _))

/-- **An append** is refused and changes nothing, or puts the line behind the session. -/
theorem sessionAppend_cases (fs : Ramfs) (a : Caller) (text : List UInt8) :
    (sessionAppend fs a text).1 < 0 ∧ (sessionAppend fs a text).2 = fs ∨
      (sessionAppend fs a text).1 = (sessionLine text).length ∧
        (sessionAppend fs a text).2.session a = fs.session a ++ sessionLine text := by
  by_cases hnil : sessionText text = []
  · rw [sessionAppend_nil hnil]
    exact .inl ⟨show einval < 0 by decide, rfl⟩
  rw [sessionAppend_eq hnil, sessionAppend.append, tenantSessionUsage_eq]
  split_ifs with hquota hsize
  · exact .inl ⟨show enospc < 0 by decide, rfl⟩
  · exact .inl ⟨show enospc < 0 by decide, rfl⟩
  simp only [List.length_take, ramfsFileSize, tenantSessionQuota] at hquota hsize
  have hwhole : (fs.session a).take (ramfsFileSize - 2) = fs.session a :=
    List.take_of_length_le (by simp only [ramfsFileSize]; omega)
  have hpos : 0 < (fs.session a ++ sessionLine text).length := by
    rw [List.length_append, length_sessionLine]
    omega
  have hlt : (fs.session a ++ sessionLine text).length < ramfsFileSize := by
    rw [List.length_append]
    simp only [ramfsFileSize]
    omega
  rw [hwhole]
  by_cases hroom : fs.visible (sessionPath a.id) = none →
      slotCount (fun i => (fs i).used) < ramfsMaxFiles
  · obtain ⟨fs', hwrite, hstored⟩ := ramfsWrite_of_found_or_room hpos hlt hroom
    have hvis := hstored.visible_self (sessionPath_short a.id)
    rw [show (fs.visible (sessionPath a.id)).getD [] = fs.session a from rfl,
      List.drop_eq_nil_of_le (by rw [List.length_append]; omega), List.append_nil] at hvis
    rw [hwrite]
    dsimp only
    rw [if_neg (Int.not_lt.mpr (Int.natCast_nonneg _)), Ramfs.session, hvis, Option.getD_some]
    exact .inr ⟨rfl, rfl⟩
  · obtain ⟨hnone, hfull⟩ := Classical.not_imp.mp hroom
    rw [ramfsWrite_of_full hpos 0 hnone hfull]
    exact .inl ⟨show eio < 0 by decide, rfl⟩

/-- A text that is taken as it is. -/
theorem sessionText_eq (hnul : (0 : UInt8) ∉ text) (hlen : text.length ≤ 188) : sessionText text = text := by
  have hwhole : text.takeWhile (· ≠ 0) = text :=
    List.takeWhile_eq_self_iff.mpr fun c hc => decide_eq_true fun heq => hnul (heq ▸ hc)
  rw [sessionText, hwhole, List.take_of_length_le hlen]

/-- **The last line after an append**: what was unended, and the text. -/
theorem sessionTail_append (hbuf : 0 < buflen) (hnew : newline ∉ text) (hnul : (0 : UInt8) ∉ text)
    (hlen : text.length ≤ 188) (hrc : 0 ≤ (sessionAppend fs a text).1) :
    sessionTail (sessionAppend fs a text).2 a buflen =
      .ok (((unended (fs.session a) ++ text).takeWhile (· ≠ 0)).take (buflen - 1).toNat) := by
  rcases sessionAppend_cases fs a text with ⟨hneg, -⟩ | ⟨-, hsession⟩
  · omega
  rw [sessionLine, sessionText_eq hnul hlen, ← List.append_assoc] at hsession
  rw [sessionTail_eq hbuf hsession, unended_append _ hnew]

end

/-- **Reading a session.** `session_read` returns the last lines, and `session_tail` after an append
the text with what was unended before it, which is the text if there was nothing. -/
theorem session_reading (fs : Ramfs) (a : Caller) {buflen : Int} (hbuf : 0 < buflen) :
    (∀ n : Int, 0 < n → (0 : UInt8) ∉ fs.session a →
      sessionRead fs a buflen n = .ok ((keptText (fs.session a) n.toNat).take (buflen - 1).toNat)) ∧
    ∀ text : List UInt8, newline ∉ text → (0 : UInt8) ∉ text → 0 < text.length → text.length ≤ 188 →
      0 ≤ (sessionAppend fs a text).1 →
        sessionTail (sessionAppend fs a text).2 a buflen =
          .ok (((unended (fs.session a) ++ text).takeWhile (· ≠ 0)).take (buflen - 1).toNat) ∧
        (unended (fs.session a) = [] →
          sessionTail (sessionAppend fs a text).2 a buflen = .ok (text.take (buflen - 1).toNat)) := by
  refine ⟨fun n hn hnul => sessionRead_eq hnul hbuf hn, fun text hnew hnul _ hlen hrc => ?_⟩
  have htail := sessionTail_append hbuf hnew hnul hlen hrc
  refine ⟨htail, fun hended => ?_⟩
  have hwhole : text.takeWhile (· ≠ 0) = text :=
    List.takeWhile_eq_self_iff.mpr fun c hc => decide_eq_true fun heq => hnul (heq ▸ hc)
  rw [htail, hended, List.nil_append, hwhole]

/-- Two lines, and a third that is appended. -/
theorem session_reading_three :
    let fs := sessionFs (bytes "one\ntwo\n")
    sessionRead fs (plainAgent 3) 64 1 = .ok (bytes "two\n") ∧
      sessionTail (sessionAppend fs (plainAgent 3) (bytes "three")).2 (plainAgent 3) 4 =
        .ok (bytes "thr") := by
  intro fs
  have hsession : fs.session (plainAgent 3) = bytes "one\ntwo\n" := by
    have hvis : fs.visible (sessionPath (plainAgent 3).id) = some (bytes "one\ntwo\n") :=
      visible_sessionFs (by decide) (by decide)
    rw [Ramfs.session, hvis, Option.getD_some]
  constructor
  · have hread := (session_reading fs (plainAgent 3) (show (0 : Int) < 64 by decide)).1 1 (by decide)
      (by rw [hsession]; decide)
    rw [hread, hsession]
    decide
  · exact ((session_reading fs (plainAgent 3) (show (0 : Int) < 4 by decide)).2 (bytes "three")
      (by decide) (by decide) (by decide) (by decide) (by decide +kernel)).2
      (by rw [hsession]; decide)

/-- **A text that is not the last line**: the session had no newline at its end. -/
theorem not_sessionTail_append :
    let fs := sessionFs (bytes "abc")
    (sessionAppend fs (plainAgent 3) (bytes "text")).1 = 5 ∧
      sessionTail (sessionAppend fs (plainAgent 3) (bytes "text")).2 (plainAgent 3) 64 =
        .ok (bytes "abctext") ∧
      sessionTail (sessionAppend fs (plainAgent 3) (bytes "text")).2 (plainAgent 3) 64 ≠
        .ok ((bytes "text").take 63) := by
  decide +kernel

/-! ## Runs -/

section

variable {fs : Ramfs} {a : Caller} {data : List UInt8}

theorem unended_eq_nil_iff : unended data = [] ↔ data = [] ∨ ∃ front, data = front ++ [newline] := by
  rcases List.eq_nil_or_concat' data with rfl | ⟨front, c, rfl⟩
  · exact ⟨fun _ => .inl rfl, fun _ => rfl⟩
  rw [unended, List.rtakeWhile_concat]
  by_cases hc : c = newline
  · subst hc
    exact ⟨fun _ => .inr ⟨front, rfl⟩, fun _ => rfl⟩
  · rw [if_pos (by simpa using hc)]
    constructor
    · intro hnil
      exact absurd hnil (List.append_ne_nil_of_right_ne_nil _ (List.cons_ne_nil _ _))
    · rintro (hnil | ⟨front', heq⟩)
      · exact absurd hnil (List.append_ne_nil_of_right_ne_nil _ (List.cons_ne_nil _ _))
      · exact absurd (List.append_inj' heq rfl).2 (by simpa using hc)

theorem unended_line (front : List UInt8) : unended (front ++ [newline]) = [] :=
  unended_eq_nil_iff.mpr (.inr ⟨front, rfl⟩)

/-- Texts whose lines are ended, one behind the other. -/
theorem unended_append_eq_nil {data' : List UInt8} (h : unended data = []) (h' : unended data' = []) :
    unended (data ++ data') = [] := by
  rcases unended_eq_nil_iff.mp h' with rfl | ⟨front, rfl⟩
  · rw [List.append_nil]
    exact h
  · rw [← List.append_assoc]
    exact unended_line _

theorem unended_drop (h : unended data = []) (n : Nat) : unended (data.drop n) = [] := by
  rcases unended_eq_nil_iff.mp h with rfl | ⟨front, rfl⟩
  · rw [List.drop_nil]
    rfl
  · by_cases hn : n ≤ front.length
    · rw [List.drop_append_of_le_length hn]
      exact unended_line _
    · rw [List.drop_eq_nil_of_le (by rw [List.length_append, List.length_singleton]; omega)]
      rfl

/-- The text of a compaction ends where the session did. -/
theorem unended_summedUp (h : unended data = []) (keep : Nat) : unended (summedUp data keep) = [] := by
  rw [summedUp, ← List.singleton_append, ← List.append_assoc, ← drop_dropped]
  exact unended_append_eq_nil (unended_line _) (unended_drop h _)

/-- What the calls keep: all lines are ended, within the bounds of a session. -/
structure SessionEnded (fs : Ramfs) (a : Caller) : Prop where
  bounded : SessionBounded fs a
  ended : unended (fs.session a) = []

theorem SessionBounded.session (h : SessionBounded fs a) :
    (0 : UInt8) ∉ fs.session a ∧ (fs.session a).length ≤ 640 := by
  rw [Ramfs.session]
  cases hvis : fs.visible (sessionPath a.id) with
  | none => exact ⟨List.not_mem_nil, Nat.zero_le _⟩
  | some data => exact ⟨h.nul_free data hvis, (Nat.le_add_right _ _).trans (h.potential data hvis)⟩

theorem SessionEnded.step {s : SessionState} (h : SessionEnded s.fs a) (c : SessionCall) :
    SessionEnded (s.step a c).fs a := by
  refine ⟨h.bounded.step c, ?_⟩
  cases c with
  | append text =>
    rcases sessionAppend_cases s.fs a text with ⟨-, hsame⟩ | ⟨-, hsession⟩
    · exact (congrArg (fun fs => unended (Ramfs.session fs a)) hsame).trans h.ended
    · refine (congrArg unended hsession).trans (unended_append_eq_nil h.ended ?_)
      rw [sessionLine]
      exact unended_line _
  | compact keep =>
    by_cases hfew : keep < 0 ∨ ((Lines.split newline (s.fs.session a)).length : Int) ≤ keep
    · have hsame : (s.step a (.compact keep)).fs = s.fs :=
        congrArg (fun out => out.2.1) (sessionCompact_of_few hfew)
      rw [hsame]
      exact h.ended
    · rw [not_or, Int.not_lt, Int.not_le] at hfew
      obtain ⟨hnul, hlen⟩ := h.bounded.session
      obtain ⟨fs', _, hvis, hcompact⟩ := sessionCompact_eq s.inbox hfew.1 hfew.2
      have hfs : (s.step a (.compact keep)).fs = fs' := congrArg (fun out => out.2.1) hcompact
      rw [hfs, Ramfs.session, hvis, Option.getD_some, rewritten,
        compactedSession_eq_summedUp hnul (hlen.trans (by decide))]
      exact unended_append_eq_nil (unended_summedUp h.ended _) (unended_drop h.ended _)

/-- **Sessions of the kernel's own making** end with a newline, whatever is appended and compacted. -/
theorem ended_run (a : Caller) (s : SessionState) (hnone : s.fs.visible (sessionPath a.id) = none)
    (cs : List SessionCall) : unended ((Runs.run (SessionState.step a) s cs).fs.session a) = [] := by
  have hstart : SessionEnded s.fs a := by
    refine ⟨.of_visible (.inl hnone), ?_⟩
    rw [Ramfs.session, hnone]
    rfl
  exact (Runs.run_invariant (P := fun s : SessionState => SessionEnded s.fs a) (fun s c hs => hs.step c) hstart cs).ended

end

end OpenAgentOS
