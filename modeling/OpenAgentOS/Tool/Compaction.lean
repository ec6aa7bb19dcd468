import OpenAgentOS.Lib.Lines
import OpenAgentOS.Tool.Session

/-!
# What a session holds after a compaction (kernel/session.c)

A session is a text of lines. `session_compact` means to replace all but the last lines by one line
that sums them up.

- `countLines_eq`, `lineStartAt_eq`: the loops of the source count and find lines.
- `summedUp data keep`: the text that a compaction is for.
- `sessionCompact_visible`: what is there afterwards. The text is written over the old one, and what
  was longer there stays.
- `sessionCompact_content_iff`: the session is the text exactly if the lines that go have at most 223
  bytes. `not_sessionCompact_content`: a longer line leaves its end behind the lines that are kept.
-/

namespace OpenAgentOS

open CString

/-! ## Lines -/

section

variable {data : List UInt8}

/-- `count_lines` counts the lines. -/
theorem countLines_eq (data : List UInt8) : countLines data = (Lines.split newline data).length := by
  by_cases hne : data = []
  · subst hne
    rfl
  · have hlen := List.length_pos_iff.mpr hne
    have hlast : charAt data (data.length - 1) = data.getLast hne := by
      rw [charAt, List.getD_eq_getElem _ _ (by omega), List.getLast_eq_getElem]
    rw [countLines, if_neg (by omega), Lines.length_split hne, hlast, ite_not]

theorem lineEnd_eq {i : Nat} (hi : i ≤ data.length) :
    lineEnd data i = i + Lines.firstLine newline (data.drop i) := by
  rw [lineEnd, Lines.firstLine, List.length_drop]
  split_ifs <;> omega

/-- `line_start_at` finds the place behind the lines. -/
theorem lineStartAt_eq (n : Nat) {i : Nat} (hi : i ≤ data.length) :
    lineStartAt data n i = i + ((Lines.split newline (data.drop i)).take n).flatten.length := by
  induction n generalizing i with
  | zero => rfl
  | succ n ih =>
    rw [lineStartAt]
    by_cases hlt : i < data.length
    · have hne : data.drop i ≠ [] := List.ne_nil_of_length_pos (by rw [List.length_drop]; omega)
      have hend := lineEnd_le hi
      rw [lineEnd_eq hi] at hend
      rw [if_pos hlt, lineEnd_eq hi, ih hend, Lines.split_eq hne, List.take_succ_cons,
        List.flatten_cons, List.length_append, List.drop_drop, List.length_take, List.length_drop,
        Nat.min_eq_left (by omega), Nat.add_assoc]
    · rw [if_neg hlt, List.drop_eq_nil_of_le (by omega)]
      rfl

end

/-! ## The text of a compaction -/

/-- The lines that go. -/
def droppedText (data : List UInt8) (keep : Nat) : List UInt8 :=
  ((Lines.split newline data).take ((Lines.split newline data).length - keep)).flatten

/-- The last `keep` lines. -/
def keptText (data : List UInt8) (keep : Nat) : List UInt8 :=
  ((Lines.split newline data).drop ((Lines.split newline data).length - keep)).flatten

/-- One line `summary: ` with the text that goes, each newline replaced and cut to 222 bytes, and the
lines that are kept. -/
def summedUp (data : List UInt8) (keep : Nat) : List UInt8 :=
  (bytes "summary: " ++
      (droppedText data keep).map fun c => if c = newline then ';'.toUInt8 else c).take 222
    ++ newline :: keptText data keep

section

variable (data : List UInt8) (keep : Nat)

theorem droppedText_append_keptText : droppedText data keep ++ keptText data keep = data := by
  rw [droppedText, keptText, ← List.flatten_append, List.take_append_drop, Lines.flatten_split]

theorem take_dropped : data.take (droppedText data keep).length = droppedText data keep :=
  (List.prefix_iff_eq_take.mp ⟨_, droppedText_append_keptText data keep⟩).symm

theorem drop_dropped : data.drop (droppedText data keep).length = keptText data keep :=
  calc
    data.drop (droppedText data keep).length
      = (droppedText data keep ++ keptText data keep).drop (droppedText data keep).length := by
        rw [droppedText_append_keptText]
    _ = keptText data keep := List.drop_left

theorem length_dropped_le : (droppedText data keep).length ≤ data.length := by
  have h := congrArg List.length (droppedText_append_keptText data keep)
  rw [List.length_append] at h
  omega

theorem length_summedUp :
    (summedUp data keep).length =
      min 222 (9 + (droppedText data keep).length) + (data.length - (droppedText data keep).length + 1) := by
  have h := congrArg List.length (droppedText_append_keptText data keep)
  rw [List.length_append] at h
  rw [summedUp, List.length_append, List.length_take, List.length_append, List.length_map,
    List.length_cons, show (bytes "summary: ").length = 9 from rfl]
  omega

variable {data keep}

/-- What `session_compact` writes is the text that it is for. -/
theorem compactedSession_eq_summedUp (hnul : (0 : UInt8) ∉ data) (hlen : data.length ≤ 7000) :
    compactedSession data (droppedText data keep).length = summedUp data keep := by
  rw [compactedSession_eq hnul (length_dropped_le data keep) hlen, sessionSummary, summedUp,
    take_dropped, drop_dropped, List.take_append,
    List.take_of_length_le (show (bytes "summary: ").length ≤ 222 by decide)]
  rfl

end

/-! ## The file -/

section

variable {fs : Ramfs} {inbox : Msgbox} {a : Caller} {keep : Int} {data : List UInt8}

/-- **What is there after a compaction**: its text, and what the old one had behind that. -/
theorem sessionCompact_visible (hvis : fs.visible (sessionPath a.id) = some data)
    (hnul : (0 : UInt8) ∉ data) (hlen : data.length ≤ 640)
    (hrc : 0 < (sessionCompact fs inbox a keep).1) :
    (sessionCompact fs inbox a keep).2.1.visible (sessionPath a.id) =
      some (summedUp data keep.toNat ++ data.drop (summedUp data keep.toNat).length) := by
  have hcodes : einval < 0 ∧ eio < 0 := by decide
  rw [sessionCompact] at hrc ⊢
  by_cases hneg : keep < 0
  · rw [if_pos hneg] at hrc
    exact absurd hrc (Int.not_lt.mpr hcodes.1.le)
  rw [if_neg hneg, read_session hvis (by simp only [ramfsFileSize]; omega) (by decide)] at hrc ⊢
  dsimp only at hrc ⊢
  by_cases hempty : data.length = 0
  · rw [if_pos hempty] at hrc
    exact absurd hrc (Int.lt_irrefl 0)
  by_cases hfew : (countLines data : Int) ≤ keep
  · rw [if_neg hempty, if_pos hfew] at hrc
    exact absurd hrc (Int.lt_irrefl 0)
  rw [if_neg hempty, if_neg hfew] at hrc ⊢
  -- the lines that go are those the summary is about
  have hstart : lineStartAt data (countLines data - keep.toNat) 0 =
      (droppedText data keep.toNat).length := by
    rw [lineStartAt_eq _ (Nat.zero_le _), List.drop_zero, Nat.zero_add, countLines_eq, droppedText]
  rw [hstart, compactedSession_eq_summedUp hnul (by omega)] at hrc ⊢
  have hsize := length_summedUp data keep.toNat
  have hpos : 0 < (summedUp data keep.toNat).length := by omega
  have hfits : (summedUp data keep.toNat).length < ramfsFileSize := by
    simp only [ramfsFileSize]
    omega
  have hfound : fs.visible (sessionPath a.id) = none →
      slotCount (fun i => (fs i).used) < ramfsMaxFiles := fun hnone =>
    absurd (hvis.symm.trans hnone) (Option.some_ne_none _)
  obtain ⟨fs', hwrite, hstored⟩ := ramfsWrite_of_found_or_room hpos hfits hfound
  have hvisible := hstored.visible_self (sessionPath_short a.id)
  rw [hvis, Option.getD_some] at hvisible
  rw [hwrite] at hrc ⊢
  by_cases hneg : ((summedUp data keep.toNat).length : Int) < 0
  · omega
  · rw [if_neg hneg]
    exact hvisible

/-- **The session after a compaction** is the line that sums up and the lines kept, and nothing else,
exactly if the lines that go have at most 223 bytes. -/
theorem sessionCompact_content_iff (hvis : fs.visible (sessionPath a.id) = some data)
    (hnul : (0 : UInt8) ∉ data) (hlen : data.length ≤ 640)
    (hrc : 0 < (sessionCompact fs inbox a keep).1) :
    (sessionCompact fs inbox a keep).2.1.visible (sessionPath a.id) = some (summedUp data keep.toNat) ↔
      (droppedText data keep.toNat).length ≤ 223 := by
  have hsize := length_summedUp data keep.toNat
  have hle := length_dropped_le data keep.toNat
  rw [sessionCompact_visible hvis hnul hlen hrc, Option.some_inj, List.append_right_eq_self,
    List.drop_eq_nil_iff]
  omega

end

/-- A file system with a session in it. -/
def sessionFs (data : List UInt8) : Ramfs := (ramfsPut (ramfsInit zeroMem) (sessionPath 3) data).2

theorem visible_sessionFs {data : List UInt8} (hpos : 0 < data.length)
    (hlt : data.length < ramfsFileSize) :
    (sessionFs data).visible (sessionPath 3) = some data := by
  obtain ⟨fs, hput⟩ : ∃ fs, ramfsPut (ramfsInit zeroMem) (sessionPath 3) data = (0, fs) :=
    ramfsPut_of_found_or_room hpos hlt fun _ => by decide +kernel
  rw [sessionFs, hput]
  exact visible_put_self (sessionPath_short 3) hput

theorem sessionCompact_content_two :
    let data := bytes "one\ntwo\nthree\n"
    0 < (sessionCompact (sessionFs data) emptyInbox (plainAgent 3) 1).1 ∧
      (sessionCompact (sessionFs data) emptyInbox (plainAgent 3) 1).2.1.visible (sessionPath 3) =
        some (bytes "summary: one;two;\nthree\n") := by
  intro data
  have hvis : (sessionFs data).visible (sessionPath (plainAgent 3).id) = some data :=
    visible_sessionFs (by decide) (by decide)
  have hrc : 0 < (sessionCompact (sessionFs data) emptyInbox (plainAgent 3) 1).1 := by decide +kernel
  have hshort : (droppedText data (1 : Int).toNat).length ≤ 223 := by decide +kernel
  have htext : summedUp data (1 : Int).toNat = bytes "summary: one;two;\nthree\n" := by
    decide +kernel
  rw [← htext]
  exact ⟨hrc, (sessionCompact_content_iff hvis (by decide) (by decide) hrc).mpr hshort⟩

/-- A line of 300 bytes and a short one. -/
def longSession : List UInt8 := List.replicate 300 'a'.toUInt8 ++ bytes "\nb\n"

/-- **A compaction that leaves old bytes behind**: the new text has 225 bytes, and the old one 303. -/
theorem not_sessionCompact_content :
    (sessionFs longSession).visible (sessionPath 3) = some longSession ∧
      (0 : UInt8) ∉ longSession ∧ longSession.length = 303 ∧
      (sessionCompact (sessionFs longSession) emptyInbox (plainAgent 3) 1).1 = 1 ∧
      (sessionCompact (sessionFs longSession) emptyInbox (plainAgent 3) 1).2.1.visible
        (sessionPath 3) ≠ some (summedUp longSession 1) := by
  have hnul : (0 : UInt8) ∉ longSession := by decide +kernel
  have hlen : longSession.length = 303 := by decide +kernel
  have hvis : (sessionFs longSession).visible (sessionPath 3) = some longSession :=
    visible_sessionFs (by omega) (by simp only [ramfsFileSize]; omega)
  have hrc : (sessionCompact (sessionFs longSession) emptyInbox (plainAgent 3) 1).1 = 1 := by
    decide +kernel
  have hnew : (summedUp longSession (1 : Int).toNat).length = 225 := by decide +kernel
  refine ⟨hvis, hnul, hlen, hrc, fun hsame => ?_⟩
  have hread : (sessionFs longSession).visible (sessionPath (plainAgent 3).id) = some longSession := hvis
  have hpos : 0 < (sessionCompact (sessionFs longSession) emptyInbox (plainAgent 3) 1).1 := by
    rw [hrc]
    exact Int.one_pos
  have hafter := sessionCompact_visible hread hnul (by omega) hpos
  have hlength := congrArg List.length (Option.some_inj.mp (hafter.symm.trans hsame))
  rw [List.length_append, List.length_drop, hlen, hnew, show 1 = (1 : Int).toNat from rfl,
    hnew] at hlength
  exact absurd hlength (by decide)

end OpenAgentOS
