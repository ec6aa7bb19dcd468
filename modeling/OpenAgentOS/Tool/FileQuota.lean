import OpenAgentOS.Lib.Runs
import OpenAgentOS.Tool.FileTools

/-!
# The file quota (kernel/quota.c, ramfs.c)

An agent may have 32 files below `/agent/<id>/`. Three places of the kernel decide
what that area is, and they do not agree: `policy_fs_write` ignores the first
character and reads the id as a number, `parse_agent_path_id` wants a slash and a
digit, and `ramfs_count_agent_files` compares with the prefix as the kernel itself
spells it.

- `ownFiles`: the files that `policy_fs_write` takes for the agent's own.
- `file_quota`: if an agent spells the paths of its area as the kernel does, it has
  at most 32 files.
- `not_file_quota`: with a leading zero in the id it has as many as the table holds.
-/

namespace OpenAgentOS

open CString Function

/-- `policy_fs_write` takes the path for one of the caller's `/agent/` area. -/
def ownArea (a : Caller) (path : CStr) : Bool := agentAreaRule a path.bytes == 0

/-- The slot holds a file of the caller's own. -/
def RamfsFile.ownedBy (f : RamfsFile) (a : Caller) : Bool := f.used && ownArea a f.path

/-- The number of such files. -/
def ownFiles (fs : Ramfs) (a : Caller) : Nat := slotCount fun i => (fs i).ownedBy a

/-- The area of an agent as the kernel spells it. -/
def areaPrefix (id : Fin maxAgents) : List UInt8 := bytes "/agent/" ++ decimal id ++ bytes "/"

/-- A call of a tool by agent `a`. -/
def fileStep (a : Caller) (g : Gateway) (c : FileCall) : Gateway := (toolDispatch g a c).2

/-- What is written to the caller's own area is spelled like it. -/
def FileCall.SpelledOut (a : Caller) : FileCall → Prop
  | .read .. => True
  | .write path .. => ∀ s, path.text = some s → ownArea a (s.copy ramfsPathMax) = true →
      areaPrefix a.id <+: (s.copy ramfsPathMax).bytes

/-- At most 32 files, all of them spelled out. -/
structure QuotaInv (a : Caller) (fs : Ramfs) : Prop where
  count : ownFiles fs a ≤ quotaFsFiles
  spelled : ∀ i, (fs i).ownedBy a = true → areaPrefix a.id <+: (fs i).path.bytes

variable {a : Caller} {fs fs' : Ramfs} {path : CStr}

/-! ## Paths that are spelled out -/

/-- The quota finds the owner of such a path. -/
theorem parseAgentPathId_of_spelled {id : Fin maxAgents} {path : List UInt8}
    (h : areaPrefix id <+: path) : parseAgentPathId path = some (id : Int) := by
  obtain ⟨rest, rfl⟩ := h
  have hpath : areaPrefix id ++ rest = bytes "/agent/" ++ (decimal id ++ (bytes "/" ++ rest)) := by
    simp only [areaPrefix, List.append_assoc]
  have hdrop : (areaPrefix id ++ rest).drop 7 = decimal id ++ (bytes "/" ++ rest) := by
    rw [hpath]
    rfl
  have hlead : hasAt (areaPrefix id ++ rest) 1 (bytes "agent/") = true := by
    rw [hpath]
    exact hasAt_append (s := bytes "/agent/") (by decide) (by decide) _
  have hdigit : isDigit (charAt (areaPrefix id ++ rest) 7) = true := by
    rw [hpath]
    exact isDigit_decimal id (bytes "/" ++ rest)
  have hnum : scanInt 0 (decimal id ++ (bytes "/" ++ rest)) = ((id : Int), bytes "/" ++ rest) :=
    scanInt_decimal (id.isLt.trans (by decide)) rfl
  have hfirst : charAt (areaPrefix id ++ rest) 0 = '/'.toUInt8 := by
    rw [hpath]
    rfl
  have hslash : charAt (bytes "/" ++ rest) 0 = '/'.toUInt8 := rfl
  rw [parseAgentPathId]
  simp only [hdrop, hnum, hlead, hdigit, hfirst, hslash, beq_self_eq_true, Bool.and_self, if_true]

/-- Such a file is counted. -/
theorem counted_of_spelled {f : RamfsFile} (hused : f.used = true)
    (h : areaPrefix a.id <+: f.path.bytes) :
    (f.isUser && hasAt f.path.bytes 0 (bytes "/agent/" ++ decimal a.id ++ bytes "/")) = true := by
  obtain ⟨rest, hrest⟩ := h
  have hpath : f.path.bytes = bytes "/agent/" ++ (decimal a.id ++ (bytes "/" ++ rest)) := by
    rw [← hrest]
    simp only [areaPrefix, List.append_assoc]
  have hsys : isSysPath f.path = false := by
    rw [isSysPath, hpath]
    rfl
  have hzero : (0 : UInt8) ∉ areaPrefix a.id := fun hmem =>
    f.path.nul_free (hrest ▸ List.mem_append_left _ hmem)
  have hat : hasAt f.path.bytes 0 (areaPrefix a.id) = true := by
    rw [← hrest]
    exact hasAt_append hzero hasAt_self rest
  rw [RamfsFile.isUser, hused, hsys]
  exact hat

/-- The files that are spelled out are among those the quota counts. -/
theorem ownFiles_le_count
    (h : ∀ i, (fs i).ownedBy a = true → areaPrefix a.id <+: (fs i).path.bytes) :
    ownFiles fs a ≤ ramfsCountAgentFiles fs a.id := by
  refine slotCount_mono fun i hi => ?_
  exact counted_of_spelled (Bool.and_eq_true_iff.mp hi).1 (h i hi)

/-! ## One call -/

/-- What leaves the files of the area alone keeps the quota. -/
theorem QuotaInv.of_sameUnder (h : QuotaInv a fs)
    (hsame : ∀ q, ownArea a q = true → fs.SameUnder q fs') : QuotaInv a fs' := by
  have hslot : ∀ i, (fs' i).ownedBy a = true → fs' i = fs i := by
    intro i hi
    obtain ⟨hused, hown⟩ := Bool.and_eq_true_iff.mp hi
    exact hsame _ hown i (.inr ⟨hused, rfl⟩)
  constructor
  · refine (slotCount_mono fun i hi => ?_).trans h.count
    rw [← hslot i hi]
    exact hi
  · intro i hi
    rw [hslot i hi]
    exact h.spelled i (hslot i hi ▸ hi)

/-- A log is not in the area. -/
theorem not_ownArea_auditPathFor (id : Fin maxAgents) :
    ownArea a (auditPathFor id) = false := by
  have hagent : hasAt (auditPathFor id).bytes 1 (bytes "agent/") = false := by
    rw [← Bool.not_eq_true]
    exact fun hat => absurd (hasAt_agree (k := 1) hat (isAuditPath_auditPathFor id)
      (by decide) (by decide)) (by decide)
  rw [ownArea, agentAreaRule, hagent]
  rfl

theorem QuotaInv.log (h : QuotaInv a fs) (b : Caller) (tool rc : Int) :
    QuotaInv a (toolAuditLog fs b tool rc) := by
  refine h.of_sameUnder fun q hq => (reachesOn_toolAuditLog fs b tool rc).sameUnder ?_
  rintro rfl
  rw [not_ownArea_auditPathFor] at hq
  exact absurd hq (by decide)

theorem QuotaInv.store (h : QuotaInv a fs) (i : Fin ramfsMaxFiles) (data : Buf) (size : Nat)
    (hsize : size < ramfsFileSize) : QuotaInv a (fs.store i data size hsize) := by
  have hslot : ∀ j, (fs.store i data size hsize j).used = (fs j).used ∧
      (fs.store i data size hsize j).path = (fs j).path := by
    intro j
    by_cases hj : j = i
    · rw [hj, Ramfs.store, update_self]
      exact ⟨rfl, rfl⟩
    · rw [Ramfs.store, update_of_ne hj]
      exact ⟨rfl, rfl⟩
  have howned : ∀ j, (fs.store i data size hsize j).ownedBy a = (fs j).ownedBy a := by
    intro j
    rw [RamfsFile.ownedBy, RamfsFile.ownedBy, (hslot j).1, (hslot j).2]
  constructor
  · rw [ownFiles, funext howned]
    exact h.count
  · intro j hj
    rw [(hslot j).2]
    exact h.spelled j (howned j ▸ hj)

/-- A new file, if there is room for it and it is spelled out. -/
theorem QuotaInv.create (h : QuotaInv a fs) (i : Fin ramfsMaxFiles)
    (hroom : ownFiles fs a < quotaFsFiles)
    (hspelled : areaPrefix a.id <+: (path.copy ramfsPathMax).bytes) :
    QuotaInv a (fs.create i path) := by
  constructor
  · refine (slotCount_le_succ (i := i) fun j hj hown => ?_).trans hroom
    rw [Ramfs.create, update_of_ne hj] at hown
    exact hown
  · intro j hj
    by_cases hji : j = i
    · rw [hji, Ramfs.create, update_self]
      exact hspelled
    · rw [Ramfs.create, update_of_ne hji] at hj ⊢
      exact h.spelled j hj

/-- **A write that the quota allows.** -/
theorem QuotaInv.write (h : QuotaInv a fs) (hallow : quotaFsAllowNew fs a path = 0)
    (hspelled : ownArea a (path.copy ramfsPathMax) = true →
      areaPrefix a.id <+: (path.copy ramfsPathMax).bytes) (data : List UInt8) :
    QuotaInv a (ramfsWrite fs path 0 data).2 := by
  by_cases hown : ownArea a (path.copy ramfsPathMax) = true
  · have hpre := hspelled hown
    have hparse := parseAgentPathId_of_spelled (hpre.trans (List.take_prefix _ _))
    -- a new file is made only if the quota has counted fewer than 32
    have hlookup : ∀ i fs₁, lookup fs path true = some (i, fs₁) → QuotaInv a fs₁ := by
      intro i fs₁ hlookup
      obtain ⟨-, rfl⟩ | ⟨hfind, -, rfl⟩ := lookup_create hlookup
      · exact h
      · refine h.create i (Nat.lt_of_le_of_lt (ownFiles_le_count h.spelled) ?_) hpre
        have hexists : ramfsPathExists fs path = false := by
          rw [ramfsPathExists, lookup, hfind]
          rfl
        rw [quotaFsAllowNew, hparse] at hallow
        dsimp only at hallow
        rw [if_neg (not_not.mpr rfl), hexists, if_neg (by decide)] at hallow
        by_contra hfull
        rw [if_pos (Nat.not_lt.mp hfull)] at hallow
        exact absurd hallow (by decide)
    rw [ramfsWrite]
    split
    · exact h
    · split
      · exact h
      · rename_i i fs₁ hfound
        split
        · exact hlookup i fs₁ hfound
        · exact (hlookup i fs₁ hfound).store i _ _ _
  · refine h.of_sameUnder fun q hq => sameUnder_write fs 0 data ?_
    rintro rfl
    exact hown hq

theorem QuotaInv.runWrite (h : QuotaInv a fs) {path : UserPath} {len : Int} {heap : Bool}
    {data : Option { d : List UInt8 // d.length = len.toNat }}
    (hspelled : (FileCall.write path len heap data).SpelledOut a) :
    QuotaInv a (runWrite fs a path len heap data).2 := by
  rw [OpenAgentOS.runWrite]
  split
  · exact h
  · rename_i p hp
    cases data with
    | none =>
      dsimp only
      split_ifs
      · exact h
      · exact h
      · exact h
    | some data =>
      dsimp only
      split_ifs with hlen hheap hallow
      · exact h
      · exact h
      · exact h
      · refine h.write (not_not.mp hallow) ?_ _
        -- what is stored are the first bytes of the string
        cases htext : path.text with
        | none =>
          rw [htext] at hp
          cases hp
        | some s =>
          rw [htext] at hp
          have hcopy : p.copy ramfsPathMax = s.copy ramfsPathMax :=
            CStr.ext_bytes (readPathFromUser_take hp)
          rw [hcopy]
          exact hspelled s htext

/-- **One call of a file tool.** -/
theorem QuotaInv.step {g : Gateway} (h : QuotaInv a g.fs) {c : FileCall}
    (hspelled : c.SpelledOut a) : QuotaInv a (fileStep a g c).fs := by
  have hentry : ∀ (tool : Int) (cap : UInt32) (check : Int) (run : Ramfs → Int × Ramfs),
      QuotaInv a (run g.fs).2 → QuotaInv a (dispatchEntry g a tool cap check run).2.fs := by
    intro tool cap check run hrun
    rw [dispatchEntry]
    split_ifs
    · exact h.log a tool _
    · exact h.log a tool _
    · exact h.log a tool _
    · exact h.log a tool _
    · exact hrun.log a tool _
  cases c with
  | read path len heap store =>
    refine hentry _ _ _ _ ?_
    split
    · exact h
    · exact h
  | write path len heap data => exact hentry _ _ _ _ (h.runWrite hspelled)

/-- **The file quota.** An agent that spells the paths of its own area as the kernel does
never has more than 32 files there, whatever it reads and writes. -/
theorem file_quota (a : Caller) (g : Gateway) (hstart : QuotaInv a g.fs) (cs : List FileCall)
    (hspelled : Runs.Along (fileStep a) (fun _ c => c.SpelledOut a) g cs) :
    ownFiles (Runs.run (fileStep a) g cs).fs a ≤ quotaFsFiles :=
  (hspelled.invariant (P := fun g => QuotaInv a g.fs) (fun _ _ hc h => h.step hc) hstart).count

/-- There are no files of an agent right after initialisation. -/
theorem quotaInv_ramfsInit (a : Caller) (mem : Ramfs) : QuotaInv a (ramfsInit mem) := by
  have hnone : ∀ i, (ramfsInit mem i).ownedBy a = false := by
    intro i
    rw [← Bool.not_eq_true]
    intro hi
    obtain ⟨hused, hown⟩ := Bool.and_eq_true_iff.mp hi
    obtain ⟨-, hpath⟩ | ⟨-, hpath⟩ := ramfsInit_used hused
    · rw [hpath] at hown
      exact absurd hown (by rw [show ownArea a (.lit "/sys/version") = false from rfl]; decide)
    · rw [hpath] at hown
      exact absurd hown (by rw [show ownArea a (.lit "/sys/tick_hz") = false from rfl]; decide)
  constructor
  · rw [ownFiles, funext hnone]
    decide
  · intro i hi
    rw [hnone i] at hi
    exact absurd hi (by decide)

/-- Agent 3 writes one byte to `path`. -/
def oneByte (path : CStr) : FileCall := .write ⟨some path, .lit "", .lit ""⟩ 1 true (some ⟨[1], rfl⟩)

theorem file_quota_note :
    ownFiles (Runs.run (fileStep (plainAgent 3)) bootGateway [oneByte (.lit "/agent/3/note")]).fs
      (plainAgent 3) ≤ quotaFsFiles :=
  file_quota (plainAgent 3) bootGateway (quotaInv_ramfsInit _ _) [oneByte (.lit "/agent/3/note")]
    ⟨fun s hs _ => by
      obtain rfl := Option.some.inj hs
      decide +kernel, trivial⟩

/-- The path `/agent/03/<k>`. -/
def zeroPath (k : Nat) : CStr where
  bytes := bytes "/agent/03/" ++ decimal k
  nul_free := by
    rw [List.mem_append, not_or]
    exact ⟨by decide, zero_not_mem_decimal k⟩

/-- **33 files.** Agent 3 has no other capability than that for files; the quota counts
none of the files it makes below `/agent/03/`. -/
theorem not_file_quota :
    (plainAgent 3).hasCap capSvcStorage = false ∧
      ¬ ownFiles (Runs.run (fileStep (plainAgent 3)) bootGateway
        ((List.range 33).map fun k => oneByte (zeroPath k))).fs (plainAgent 3) ≤ quotaFsFiles := by
  constructor
  · decide
  · decide +kernel

end OpenAgentOS
