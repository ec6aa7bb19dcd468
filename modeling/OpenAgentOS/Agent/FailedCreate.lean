import OpenAgentOS.Agent.ConcurrentCreate
import OpenAgentOS.Ota.Package

/-!
# Attempts to create an agent that fail (kernel/agent.c, elfload.c)

`agent_create` and `agent_load_from_path` take memory from pools that nothing is ever given back to,
before they have looked at all of their arguments.

- `agentCreateCall`, `agentLoadCall`: the two calls, over the agent table, the page tables and the heap.
  `agentCreateCall_table` and `agentLoadCall_table` say that on the table they are the attempts of
  `Agent/Table`.
- `SpawnState.Kept`: the table, `pt_next` and `heap_ptr` are as before.
- `SpawnCall.Early`: the call ends before its first allocation. `SpawnCall.kept_iff`: only then it
  changes nothing.
- `StackFits`, `CreateArgs.Valid`: what `agent_setup_stack` and `agent_create` need to succeed.
- `failedSpawn_iff`: failing calls, one of them and any number (`kept_run`).
-/

namespace OpenAgentOS

open Function

/-! ## The calls -/

/-- What an attempt to create an agent works on. -/
structure SpawnState where
  table : Kernel
  mem : VmKernel

/-- The end of both calls looks at the name: the error that it gives. -/
def nameError : UserText → Option Int
  | .null | .fault => some efault
  | .text s => if s = [] then some einval else none

theorem nameError_neg {name : UserText} {rc : Int} (h : nameError name = some rc) : rc < 0 := by
  have hfault : efault < 0 := by decide
  have hinval : einval < 0 := by decide
  cases name with
  | null => exact Option.some.inj h ▸ hfault
  | fault => exact Option.some.inj h ▸ hfault
  | text s =>
    rw [nameError] at h
    split_ifs at h
    exact Option.some.inj h ▸ hinval

/-- `agent_create` (agent.c:130) up to `sched_notify_runnable`. -/
def agentCreateCall (cfg : Config) (l : Layout) (s : SpawnState) (cur : Fin maxAgents) (gp entry : Nat)
    (name : UserText) (caps : UInt32) : Int × SpawnState :=
  if !(s.table.agents cur).hasCap capSpawn then (eperm, s)
  else if entry = 0 ∨ name = .null then (einval, s)
  else
    match agentAllocId s.table with
    | none => (enospc, s)
    | some i =>
      let setup := agentSetupStack l s.mem i
      if setup.1 = false then
        (enospc, ⟨s.table.setAgent i { s.table.agents i with tf := none }, setup.2⟩)
      else
        match nameError name with
        | some rc => (rc, ⟨s.table.setAgent i ((s.table.agents i).reframe gp i entry), setup.2⟩)
        | none =>
          ((i : Nat), ⟨s.table.setAgent i ((s.table.agents i).recreate cfg gp caps i entry), setup.2⟩)

/-- A path argument, with what `kpath` holds. -/
inductive LoadPath where
  | null
  | fault
  | ok (kpath : CStr)

/-- `AGENT_ELF_MAX`. -/
abbrev agentElfMax : Nat := 8192

/-- The file in the buffer, and what the memory behind it holds. -/
def elfBuffer (data : List UInt8) (around : Buf) : ElfFile where
  bytes := fun i => if h : i < data.length then data[i] else around i
  len := data.length

/-- The end of `agent_load_from_path` (elfload.c:235), with the file in a buffer. -/
def agentLoadInto (l : Layout) (s : SpawnState) (gp : Nat) (elf : ElfFile) (name : UserText)
    (caps : UInt32) : Int × SpawnState :=
  match agentAllocId s.table with
  | none => (enospc, s)
  | some i =>
    let setup := agentSetupLoaded l s.mem i
    if setup.1 ≠ 0 then (setup.1, ⟨s.table, setup.2⟩)
    else
      let loaded := agentLoad l s.mem i elf
      if loaded.1 < 0 then (loaded.1, ⟨s.table.setAgent i ((s.table.agents i).reframe gp i 0), loaded.2⟩)
      else
        match nameError name with
        | some rc =>
          (rc, ⟨s.table.setAgent i ((s.table.agents i).reframe gp i (elf.header 24 8)), loaded.2⟩)
        | none =>
          ((i : Nat),
            ⟨s.table.setAgent i ((s.table.agents i).reload gp caps i (elf.header 24 8)), loaded.2⟩)

/-- `agent_load_from_path` (elfload.c:197) up to `sched_notify_runnable`. -/
def agentLoadCall (l : Layout) (fs : Ramfs) (s : SpawnState) (cur : Fin maxAgents) (gp : Nat)
    (path : LoadPath) (name : UserText) (caps : UInt32) (around : Buf) : Int × SpawnState :=
  if !(s.table.agents cur).hasCap capSpawn then (eperm, s)
  else if name = .null then (einval, s)
  else
    match path with
    | .null => (einval, s)
    | .fault => (efault, s)
    | .ok kpath =>
      match fileSizeByByte fs kpath with
      | .error rc => (rc, s)
      | .ok len =>
        if len < 64 ∨ agentElfMax < len then (einval, s)
        else
          let elf := kalloc l s.mem.vm len
          let s' : SpawnState := { s with mem := { s.mem with vm := elf.2 } }
          if elf.1 = 0 then (enospc, s')
          else
            match ramfsRead fs kpath 0 len with
            | .error rc => (rc, s')
            | .ok data =>
              if data.length ≠ len then (eio, s')
              else agentLoadInto l s' gp (elfBuffer data around) name caps

/-! ## The calls on the agent table -/

/-- The result as the caller sees it. -/
def spawnResult : Except Int (Fin maxAgents) → Int
  | .error rc => rc
  | .ok i => (i : Nat)

/-- What a call returns and leaves of the table is what an attempt of `Agent/Table` does. -/
def Attempts (out : Int × SpawnState) (attempt : Spawn → Except Int (Fin maxAgents) × Kernel) : Prop :=
  ∃ outcome, out.1 = spawnResult (attempt outcome).1 ∧ out.2.table = (attempt outcome).2

section

variable {cfg : Config} {l : Layout} {s : SpawnState} {cur : Fin maxAgents} {gp : Nat} {name : UserText}
  {caps : UInt32}

theorem agentCreateCall_table (entry : Nat) :
    Attempts (agentCreateCall cfg l s cur gp entry name caps) (agentCreate cfg s.table cur gp caps) := by
  by_cases hcap : (!(s.table.agents cur).hasCap capSpawn) = true
  · refine ⟨.refused eperm, ?_⟩
    simp only [agentCreateCall, agentCreate, spawnWith, if_pos hcap, spawnResult, true_and]
  rw [Attempts]
  simp only [agentCreateCall, agentCreate, spawnWith, if_neg hcap]
  by_cases hargs : entry = 0 ∨ name = .null
  · rw [if_pos hargs]
    exact ⟨.refused einval, rfl, rfl⟩
  rw [if_neg hargs]
  cases hslot : agentAllocId s.table with
  | none => exact ⟨.noFrame enospc, rfl, rfl⟩
  | some i =>
    obtain ⟨setup, hsetup⟩ : ∃ setup, agentSetupStack l s.mem i = setup := ⟨_, rfl⟩
    simp only [hsetup]
    split_ifs
    · exact ⟨.noFrame enospc, rfl, rfl⟩
    · cases nameError name with
      | none => exact ⟨.done entry, rfl, rfl⟩
      | some rc => exact ⟨.failed rc entry, rfl, rfl⟩

theorem agentLoadInto_table (hcap : ¬ (!(s.table.agents cur).hasCap capSpawn) = true) (elf : ElfFile) :
    Attempts (agentLoadInto l s gp elf name caps) (agentLoadFromPath s.table cur gp caps) := by
  rw [Attempts]
  simp only [agentLoadInto, agentLoadFromPath, spawnWith, if_neg hcap]
  cases hslot : agentAllocId s.table with
  | none => exact ⟨.noFrame enospc, rfl, rfl⟩
  | some i =>
    obtain ⟨setup, hsetup⟩ : ∃ setup, agentSetupLoaded l s.mem i = setup := ⟨_, rfl⟩
    obtain ⟨loaded, hloaded⟩ : ∃ loaded, agentLoad l s.mem i elf = loaded := ⟨_, rfl⟩
    simp only [hsetup, hloaded]
    split_ifs
    · refine ⟨.noFrame _, rfl, ?_⟩
      exact (congrArg (Kernel.mk · _) (update_eq_self i s.table.agents)).symm
    · exact ⟨.failed _ 0, rfl, rfl⟩
    · cases nameError name with
      | none => exact ⟨.done (elf.header 24 8), rfl, rfl⟩
      | some rc => exact ⟨.failed rc (elf.header 24 8), rfl, rfl⟩

theorem agentLoadCall_table (fs : Ramfs) (path : LoadPath) (around : Buf) :
    Attempts (agentLoadCall l fs s cur gp path name caps around)
      (agentLoadFromPath s.table cur gp caps) := by
  by_cases hcap : (!(s.table.agents cur).hasCap capSpawn) = true
  · refine ⟨.refused eperm, ?_⟩
    unfold agentLoadCall
    simp only [agentLoadFromPath, spawnWith, if_pos hcap, spawnResult, true_and]
  have hrefused : ∀ (rc : Int) (mem : VmKernel), Attempts (rc, ⟨s.table, mem⟩)
      (agentLoadFromPath s.table cur gp caps) := by
    intro rc mem
    refine ⟨.refused rc, ?_⟩
    simp only [agentLoadFromPath, spawnWith, if_neg hcap, spawnResult, true_and]
  unfold agentLoadCall
  rw [if_neg hcap]
  split_ifs
  · exact hrefused einval s.mem
  cases path with
  | null => exact hrefused einval s.mem
  | fault => exact hrefused efault s.mem
  | ok kpath =>
    dsimp only
    cases fileSizeByByte fs kpath with
    | error rc => exact hrefused rc s.mem
    | ok len =>
      obtain ⟨elf, helf⟩ : ∃ elf, kalloc l s.mem.vm len = elf := ⟨_, rfl⟩
      simp only [helf]
      split_ifs
      · exact hrefused einval s.mem
      · exact hrefused enospc _
      · cases ramfsRead fs kpath 0 len with
        | error rc => exact hrefused rc _
        | ok data =>
          dsimp only
          split_ifs
          · exact hrefused eio _
          · exact agentLoadInto_table (s := { s with mem := { s.mem with vm := elf.2 } }) hcap _

end

/-! ## Memory for an agent -/

/-- The heap has no page left. -/
def NoPage (l : Layout) (vm : Vm) : Prop :=
  l.heapStart + heapSize < pageDown (vm.heapPtr + (pageSize - 1)) + pageSize

/-- The heap has no block of this size left. -/
def NoBlock (l : Layout) (vm : Vm) (size : Nat) : Prop :=
  l.heapStart + heapSize < vm.heapPtr + (size + 15) / 16 * 16

/-- **What an agent needs**: a page, a stack and a trapframe on the heap, a root table, and the tables
in which its stack is mapped. -/
def StackFits (l : Layout) (vm : Vm) (i : Fin maxAgents) : Prop :=
  let stack := pageDown (vm.heapPtr + (pageSize - 1)) + pageSize
  stack ≠ pageSize ∧ stack + agentStackSize + 272 ≤ l.heapStart + heapSize ∧
    ∃ pt vm', vmCreateAgentPt l (vm.setHeap (stack + agentStackSize)) = (some pt, vm') ∧
      (vmMapUserStack l vm' pt i (pageUp stack)).1 = 0

section

variable {l : Layout} {vm : Vm} {size : Nat}

theorem kallocPage_of_noPage (h : NoPage l vm) : kallocPage l vm = (0, vm) := by
  rw [kallocPage]
  exact if_pos h

theorem kallocPage_of_page (h : ¬ NoPage l vm) :
    kallocPage l vm = (pageDown (vm.heapPtr + (pageSize - 1)),
      vm.setHeap (pageDown (vm.heapPtr + (pageSize - 1)) + pageSize)) := by
  rw [kallocPage]
  exact if_neg h

theorem kalloc_of_noBlock (h : NoBlock l vm size) : kalloc l vm size = (0, vm) := by
  rw [kalloc]
  exact if_pos h

theorem kalloc_of_block (h : ¬ NoBlock l vm size) :
    kalloc l vm size = (vm.heapPtr, vm.setHeap (vm.heapPtr + (size + 15) / 16 * 16)) := by
  rw [kalloc]
  exact if_neg h

theorem le_pageDown_add (n : Nat) : n ≤ pageDown (n + (pageSize - 1)) := by
  rw [pageDown]
  simp only [pageSize]
  omega

/-- A block that does not start at address 0. -/
theorem kalloc_ne_zero_iff (hpos : 0 < vm.heapPtr) : (kalloc l vm size).1 ≠ 0 ↔ ¬ NoBlock l vm size := by
  by_cases hblock : NoBlock l vm size
  · rw [kalloc_of_noBlock hblock]
    exact iff_of_false (not_not_intro rfl) (not_not_intro hblock)
  · rw [kalloc_of_block hblock]
    exact iff_of_true hpos.ne' hblock

/-- The last step of both ways to set up an agent: the trapframe, after the stack was mapped. -/
theorem trapframe_fits {pt stack : Nat} {i : Fin maxAgents} {vm' : Vm}
    (hroot : vmCreateAgentPt l (vm.setHeap (stack + agentStackSize)) = (some pt, vm')) (pa : Nat) :
    (kalloc l (vmMapUserStack l vm' pt i pa).2 trapframeSize).1 ≠ 0 ↔
      stack + agentStackSize + 272 ≤ l.heapStart + heapSize := by
  have hheap : (vmMapUserStack l vm' pt i pa).2.heapPtr = stack + agentStackSize := by
    have hcreate := vmCreateAgentPt_heapPtr l (vm.setHeap (stack + agentStackSize))
    rw [hroot] at hcreate
    exact (vmMapUserStack_heapPtr ..).trans hcreate
  rw [kalloc_ne_zero_iff (by rw [hheap]; exact Nat.lt_of_lt_of_le (by decide) (Nat.le_add_left _ _)),
    NoBlock, hheap, Nat.not_lt, show (trapframeSize + 15) / 16 * 16 = 272 from rfl]

theorem finishStack_fst {k : VmKernel} {i : Fin maxAgents} {pt : Nat} {mapped : Int × Vm} :
    (finishStack l k i pt mapped).1 = true ↔
      mapped.1 = 0 ∧ (kalloc l mapped.2 trapframeSize).1 ≠ 0 := by
  rw [finishStack]
  split_ifs with hmap htf
  · exact ⟨fun h => (by cases h), fun h => absurd h.1 hmap⟩
  · exact ⟨fun h => (by cases h), fun h => absurd htf h.2⟩
  · exact ⟨fun _ => ⟨not_not.mp hmap, htf⟩, fun _ => rfl⟩

/-- The slot of the memory table that `agent_setup_stack` clears first. -/
def VmKernel.clearRoot (k : VmKernel) (i : Fin maxAgents) : VmKernel :=
  k.setAgent i { k.agents i with pagetable := none }

theorem agentSetupStack_of_noPage {k : VmKernel} {i : Fin maxAgents} (h : NoPage l k.vm) :
    agentSetupStack l k i = (false, k.clearRoot i) := by
  simp only [agentSetupStack, VmKernel.setAgent_vm, kallocPage_of_noPage h, if_true]
  rfl

/-- What is needed, by the allocations that must not fail. -/
theorem stackFits_iff {i : Fin maxAgents} : StackFits l vm i ↔
    ∃ guard stack pt vm', kallocPage l vm = guard ∧ guard.1 ≠ 0 ∧
      kalloc l guard.2 agentStackSize = stack ∧ stack.1 ≠ 0 ∧
      vmCreateAgentPt l stack.2 = (some pt, vm') ∧ (vmMapUserStack l vm' pt i (pageUp stack.1)).1 = 0 ∧
      (kalloc l (vmMapUserStack l vm' pt i (pageUp stack.1)).2 trapframeSize).1 ≠ 0 := by
  rw [StackFits]
  by_cases hpage : NoPage l vm
  · have hguard := kallocPage_of_noPage hpage
    rw [NoPage] at hpage
    constructor
    · rintro ⟨-, hheap, -⟩
      omega
    · rintro ⟨guard, stack, pt, vm', rfl, hne, -⟩
      rw [hguard] at hne
      exact absurd rfl hne
  have hguard := kallocPage_of_page hpage
  generalize pageDown (vm.heapPtr + (pageSize - 1)) = start at hguard ⊢
  by_cases hblock : NoBlock l (vm.setHeap (start + pageSize)) agentStackSize
  · have hfull : l.heapStart + heapSize < start + pageSize + agentStackSize := hblock
    constructor
    · rintro ⟨-, hheap, -⟩
      omega
    · rintro ⟨guard, stack, pt, vm', rfl, -, rfl, hne, -⟩
      rw [hguard, kalloc_of_noBlock hblock] at hne
      exact absurd rfl hne
  have hstack : kalloc l (vm.setHeap (start + pageSize)) agentStackSize =
      (start + pageSize, vm.setHeap (start + pageSize + agentStackSize)) := kalloc_of_block hblock
  constructor
  · rintro ⟨hne, hheap, pt, vm', hroot, hmap⟩
    exact ⟨_, _, pt, vm', hguard, fun hzero => hne (by rw [show start = 0 from hzero, Nat.zero_add]),
      hstack, (by dsimp only; omega), hroot, hmap, (trapframe_fits hroot _).mpr hheap⟩
  · rintro ⟨guard, stack, pt, vm', rfl, hne, rfl, -, hroot, hmap, hframe⟩
    rw [hguard] at hne hroot hmap hframe
    rw [hstack] at hroot hmap hframe
    exact ⟨fun heq => hne (by dsimp only; omega), (trapframe_fits hroot _).mp hframe, pt, vm', hroot, hmap⟩

/-- **`agent_setup_stack`** succeeds exactly if there is what it needs. -/
theorem agentSetupStack_fst (k : VmKernel) (i : Fin maxAgents) :
    (agentSetupStack l k i).1 = true ↔ StackFits l k.vm i := by
  rw [stackFits_iff]
  obtain ⟨guard, hguard⟩ : ∃ guard, kallocPage l k.vm = guard := ⟨_, rfl⟩
  obtain ⟨stack, hstack⟩ : ∃ stack, kalloc l guard.2 agentStackSize = stack := ⟨_, rfl⟩
  simp only [agentSetupStack, VmKernel.setAgent_vm, hguard, hstack]
  constructor
  · intro h
    split_ifs at h with hzero hnone
    rcases hroot : vmCreateAgentPt l stack.2 with ⟨_ | pt, vm'⟩ <;> rw [hroot] at h
    · cases h
    · obtain ⟨hmap, hframe⟩ := finishStack_fst.mp h
      exact ⟨guard, stack, pt, vm', rfl, hzero, hstack, hnone, hroot, hmap, hframe⟩
  · rintro ⟨_, _, pt, vm', rfl, hzero, hstack', hnone, hroot, hmap, hframe⟩
    rw [hstack] at hstack'
    subst hstack'
    rw [if_neg hzero, if_neg hnone, hroot]
    exact finishStack_fst.mpr ⟨hmap, hframe⟩

/-! ## What is taken stays taken -/

theorem heapPtr_le_finishStack (k : VmKernel) (i : Fin maxAgents) (pt : Nat) (mapped : Int × Vm) :
    mapped.2.heapPtr ≤ (finishStack l k i pt mapped).2.vm.heapPtr := by
  have htf := heapPtr_le_kalloc l mapped.2 trapframeSize
  obtain ⟨tf, heq⟩ : ∃ tf, kalloc l mapped.2 trapframeSize = tf := ⟨_, rfl⟩
  rw [heq] at htf
  simp only [finishStack, heq]
  split_ifs
  · exact Nat.le_refl _
  · exact htf
  · exact htf

theorem heapPtr_le_finishLoaded (k : VmKernel) (i : Fin maxAgents) (pt : Nat) (mapped : Int × Vm) :
    mapped.2.heapPtr ≤ (finishLoaded l k i pt mapped).2.vm.heapPtr := by
  have htf := heapPtr_le_kalloc l mapped.2 trapframeSize
  obtain ⟨tf, heq⟩ : ∃ tf, kalloc l mapped.2 trapframeSize = tf := ⟨_, rfl⟩
  rw [heq] at htf
  simp only [finishLoaded, heq]
  split_ifs
  · exact Nat.le_refl _
  · exact htf
  · exact htf

/-- A page that `agent_setup_stack` has taken, whatever happens then. -/
theorem heapPtr_lt_agentSetupStack {k : VmKernel} (i : Fin maxAgents) (hpage : ¬ NoPage l k.vm) :
    k.vm.heapPtr < (agentSetupStack l k i).2.vm.heapPtr := by
  have hguard := kallocPage_of_page hpage
  have hlt : k.vm.heapPtr < (kallocPage l k.vm).2.heapPtr := by
    rw [hguard]
    exact Nat.lt_of_le_of_lt (le_pageDown_add _) (Nat.lt_add_of_pos_right (by decide))
  obtain ⟨guard, hguard⟩ : ∃ guard, kallocPage l k.vm = guard := ⟨_, rfl⟩
  obtain ⟨stack, hstack⟩ : ∃ stack, kalloc l guard.2 agentStackSize = stack := ⟨_, rfl⟩
  have hle := heapPtr_le_kalloc l guard.2 agentStackSize
  rw [hguard] at hlt
  rw [hstack] at hle
  refine Nat.lt_of_lt_of_le hlt ?_
  simp only [agentSetupStack, VmKernel.setAgent_vm, hguard, hstack]
  split_ifs
  · exact Nat.le_refl _
  · exact hle
  · have hcreate := vmCreateAgentPt_heapPtr l stack.2
    rcases hroot : vmCreateAgentPt l stack.2 with ⟨_ | pt, vm'⟩ <;> rw [hroot] at hcreate
    · exact hle.trans hcreate.ge
    · refine hle.trans (hcreate.ge.trans ?_)
      rw [← vmMapUserStack_heapPtr l vm' pt i (pageUp stack.1)]
      exact heapPtr_le_finishStack ..

/-- `agent_setup_loaded` never gives anything back. -/
theorem heapPtr_le_agentSetupLoaded (k : VmKernel) (i : Fin maxAgents) :
    k.vm.heapPtr ≤ (agentSetupLoaded l k i).2.vm.heapPtr := by
  have hpage := heapPtr_le_kallocPage l k.vm
  obtain ⟨guard, hguard⟩ : ∃ guard, kallocPage l k.vm = guard := ⟨_, rfl⟩
  obtain ⟨stack, hstack⟩ : ∃ stack, kalloc l guard.2 agentStackSize = stack := ⟨_, rfl⟩
  have hle := heapPtr_le_kalloc l guard.2 agentStackSize
  rw [hguard] at hpage
  rw [hstack] at hle
  refine hpage.trans ?_
  simp only [agentSetupLoaded, hguard, hstack]
  split_ifs
  · exact Nat.le_refl _
  · exact hle
  · have hcreate := vmCreateAgentPt_heapPtr l stack.2
    rcases hroot : vmCreateAgentPt l stack.2 with ⟨_ | pt, vm'⟩ <;> rw [hroot] at hcreate
    · exact hle.trans hcreate.ge
    · refine hle.trans (hcreate.ge.trans ?_)
      rw [← vmMapUserStack_heapPtr l vm' pt i (pageUp stack.1)]
      exact heapPtr_le_finishLoaded ..

theorem heapPtr_le_elfMapPages (pt perm n : Nat) (va : Nat) (vm : Vm) :
    vm.heapPtr ≤ (elfMapPages l pt perm n va vm).2.heapPtr := by
  induction n generalizing va vm with
  | zero => exact Nat.le_refl _
  | succ n ih =>
    have hle := heapPtr_le_kallocPage l vm
    obtain ⟨page, hpage⟩ : ∃ page, kallocPage l vm = page := ⟨_, rfl⟩
    have hmap := vmMapPage_heapPtr l page.2 pt va page.1 perm
    obtain ⟨out, hout⟩ : ∃ out, vmMapPage l page.2 pt va page.1 perm = out := ⟨_, rfl⟩
    rw [hpage] at hle
    rw [hout] at hmap
    simp only [elfMapPages, hpage, hout]
    split_ifs
    · exact hle
    · exact hle.trans hmap.ge
    · exact hle.trans (hmap.ge.trans (ih _ _))

theorem heapPtr_le_elfLoadHeaders (f : ElfFile) (pt n i : Nat) (vm : Vm) :
    vm.heapPtr ≤ (elfLoadHeaders l f pt n i vm).2.heapPtr := by
  induction n generalizing i vm with
  | zero => exact Nat.le_refl _
  | succ n ih =>
    have hsegment : vm.heapPtr ≤
        (elfMapSegment l vm pt (f.pVaddr i) (f.pMemsz i) (f.pFlags i)).2.heapPtr :=
      heapPtr_le_elfMapPages ..
    simp only [elfLoadHeaders]
    split_ifs
    · exact Nat.le_refl _
    · exact ih _ _
    · exact Nat.le_refl _
    · exact hsegment
    · exact hsegment.trans (ih _ _)

theorem heapPtr_le_elfLoadIntoAgent (vm : Vm) (pt : Nat) (f : ElfFile) :
    vm.heapPtr ≤ (elfLoadIntoAgent l vm pt f).2.heapPtr := by
  have hheaders := heapPtr_le_elfLoadHeaders (l := l) f pt f.phnum 0 vm
  rw [elfLoadIntoAgent]
  split_ifs
  · exact Nat.le_refl _
  · exact Nat.le_refl _
  · exact Nat.le_refl _
  · exact Nat.le_refl _
  · exact Nat.le_refl _
  · exact hheaders

theorem heapPtr_le_agentLoad (k : VmKernel) (i : Fin maxAgents) (elf : ElfFile) :
    k.vm.heapPtr ≤ (agentLoad l k i elf).2.vm.heapPtr := by
  have hsetup := heapPtr_le_agentSetupLoaded (l := l) k i
  obtain ⟨setup, heq⟩ : ∃ setup, agentSetupLoaded l k i = setup := ⟨_, rfl⟩
  rw [heq] at hsetup
  simp only [agentLoad, heq]
  split_ifs with hrc
  · exact hsetup
  · cases (setup.2.agents i).pagetable with
    | none => exact hsetup
    | some pt => exact hsetup.trans (heapPtr_le_elfLoadIntoAgent ..)

end

/-! ## Calls that change nothing -/

/-- The agent table, the count of used page-table pages and the heap pointer are as before. -/
structure SpawnState.Kept (s s' : SpawnState) : Prop where
  table : s'.table.agents = s.table.agents
  roots : s'.mem.agents = s.mem.agents
  ptNext : s'.mem.vm.ptNext = s.mem.vm.ptNext
  heapPtr : s'.mem.vm.heapPtr = s.mem.vm.heapPtr

theorem SpawnState.Kept.refl (s : SpawnState) : s.Kept s := ⟨rfl, rfl, rfl, rfl⟩

/-- One of the two calls with its arguments. A load finds the files of `fs`, and `around` in the memory
behind its buffer. -/
inductive SpawnCall where
  | create (args : CreateArgs)
  | load (fs : Ramfs) (cur : Fin maxAgents) (gp : Nat) (path : LoadPath) (name : UserText)
      (caps : UInt32) (around : Buf)

/-- What the call returns and leaves. -/
def SpawnCall.exec (cfg : Config) (l : Layout) (s : SpawnState) : SpawnCall → Int × SpawnState
  | .create a => agentCreateCall cfg l s a.cur a.gp a.entry a.name a.caps
  | .load fs cur gp path name caps around => agentLoadCall l fs s cur gp path name caps around

/-- The state after the call. -/
def SpawnState.step (cfg : Config) (l : Layout) (s : SpawnState) (c : SpawnCall) : SpawnState :=
  (c.exec cfg l s).2

/-- The file can be read into a buffer of its size: it has the size of an ELF header, and the heap has a
block of that size. -/
def Readable (l : Layout) (vm : Vm) (content : List UInt8) : Prop :=
  64 ≤ content.length ∧ ¬ NoBlock l vm content.length

/-- **The call ends before anything is taken or written.** `agent_create` must not get a slot, or find
the heap without a page and a slot with neither trapframe nor page table: it clears both first.
`agent_load_from_path` must not find a file for which it gets a buffer. -/
def SpawnCall.Early (l : Layout) (s : SpawnState) : SpawnCall → Prop
  | .create a =>
    (s.table.agents a.cur).hasCap capSpawn = true → a.entry ≠ 0 → a.name ≠ .null →
      ∀ i, agentAllocId s.table = some i →
        NoPage l s.mem.vm ∧ (s.table.agents i).tf = none ∧ (s.mem.agents i).pagetable = none
  | .load fs cur _ path name _ _ =>
    (s.table.agents cur).hasCap capSpawn = true → name ≠ .null →
      ∀ kpath, path = .ok kpath → ∀ content, fs.visible kpath = some content →
        ¬ Readable l s.mem.vm content

section

variable {cfg : Config} {l : Layout} {s : SpawnState}

/-- A failed setup in a slot that was clear. -/
theorem SpawnState.clear_eq {i : Fin maxAgents} (htf : (s.table.agents i).tf = none)
    (hroot : (s.mem.agents i).pagetable = none) :
    (⟨s.table.setAgent i { s.table.agents i with tf := none }, s.mem.clearRoot i⟩ : SpawnState) = s := by
  have hslot : ({ s.table.agents i with tf := none } : Agent) = s.table.agents i := by
    rw [← htf]
  have hmem : ({ s.mem.agents i with pagetable := none } : AgentVm) = s.mem.agents i := by
    rw [← hroot]
  rw [Kernel.setAgent, VmKernel.clearRoot, VmKernel.setAgent, hslot, hmem, update_eq_self,
    update_eq_self]

/-- **`agent_create` once it has a slot**: what is left of `agent_setup_stack`, in all cases. -/
theorem agentCreateCall_slot {a : CreateArgs} (hcap : (s.table.agents a.cur).hasCap capSpawn = true)
    (hentry : a.entry ≠ 0) (hname : a.name ≠ .null) {i : Fin maxAgents}
    (hslot : agentAllocId s.table = some i) {setup : Bool × VmKernel}
    (hsetup : agentSetupStack l s.mem i = setup) :
    ∃ slot, (SpawnCall.exec cfg l s (.create a)).2 = ⟨s.table.setAgent i slot, setup.2⟩ ∧
      (setup.1 = false → slot = { s.table.agents i with tf := none } ∧
        (SpawnCall.exec cfg l s (.create a)).1 = enospc) := by
  have hperm : (!(s.table.agents a.cur).hasCap capSpawn) ≠ true := by simpa using hcap
  have hargs : ¬ (a.entry = 0 ∨ a.name = .null) := not_or.mpr ⟨hentry, hname⟩
  simp only [SpawnCall.exec, agentCreateCall, if_neg hperm, if_neg hargs, hslot, hsetup]
  by_cases hout : setup.1 = false
  · rw [if_pos hout]
    exact ⟨_, rfl, fun _ => ⟨rfl, rfl⟩⟩
  · rw [if_neg hout]
    cases nameError a.name with
    | none => exact ⟨_, rfl, fun h => absurd h hout⟩
    | some rc => exact ⟨_, rfl, fun h => absurd h hout⟩

theorem agentCreateCall_early {a : CreateArgs} (h : SpawnCall.Early l s (.create a)) :
    ∃ rc < 0, SpawnCall.exec cfg l s (.create a) = (rc, s) := by
  rw [SpawnCall.exec, agentCreateCall]
  by_cases hcap : (s.table.agents a.cur).hasCap capSpawn = true
  swap
  · exact ⟨eperm, by decide, if_pos (by simpa using hcap)⟩
  rw [if_neg (by simpa using hcap)]
  by_cases hargs : a.entry = 0 ∨ a.name = .null
  · exact ⟨einval, by decide, if_pos hargs⟩
  rw [if_neg hargs]
  rw [not_or] at hargs
  cases hslot : agentAllocId s.table with
  | none => exact ⟨enospc, by decide, rfl⟩
  | some i =>
    obtain ⟨hpage, htf, hroot⟩ := h hcap hargs.1 hargs.2 i hslot
    refine ⟨enospc, by decide, ?_⟩
    simp only [agentSetupStack_of_noPage hpage, if_true]
    rw [SpawnState.clear_eq htf hroot]

/-- A call that got past its arguments has taken a page, or has cleared a slot. -/
theorem agentCreateCall_late {a : CreateArgs} (h : ¬ SpawnCall.Early l s (.create a)) :
    ¬ s.Kept (SpawnCall.exec cfg l s (.create a)).2 := by
  rw [SpawnCall.Early] at h
  push Not at h
  obtain ⟨hcap, hentry, hname, i, hslot, hclear⟩ := h
  obtain ⟨setup, hsetup⟩ : ∃ setup, agentSetupStack l s.mem i = setup := ⟨_, rfl⟩
  obtain ⟨slot, hout, hfailed⟩ := agentCreateCall_slot hcap hentry hname hslot hsetup
  rintro ⟨htable, hroots, -, hheap⟩
  rw [hout] at htable hroots hheap
  by_cases hpage : NoPage l s.mem.vm
  · rw [agentSetupStack_of_noPage hpage] at hsetup
    subst hsetup
    have htf := congrArg Agent.tf (congrFun htable i)
    have hroot := congrArg AgentVm.pagetable (congrFun hroots i)
    rw [Kernel.setAgent_agents, update_self, (hfailed rfl).1] at htf
    rw [VmKernel.clearRoot, VmKernel.setAgent_self] at hroot
    exact hclear hpage htf.symm hroot.symm
  · have hlt := heapPtr_lt_agentSetupStack i hpage
    rw [hsetup] at hlt
    exact Nat.lt_irrefl _ (hlt.trans_eq hheap)

/-- **`agent_load_from_path` once it has found a file** of the size of an ELF header. -/
theorem agentLoadCall_file {fs : Ramfs} {cur : Fin maxAgents} {gp : Nat} {kpath : CStr}
    {name : UserText} {caps : UInt32} {around : Buf} {content : List UInt8}
    (hcap : (s.table.agents cur).hasCap capSpawn = true) (hname : name ≠ .null)
    (hfile : fs.visible kpath = some content) (hsize : 64 ≤ content.length) {buf : Nat × Vm}
    (hbuf : kalloc l s.mem.vm content.length = buf) :
    SpawnCall.exec cfg l s (.load fs cur gp (.ok kpath) name caps around) =
      if buf.1 = 0 then (enospc, { s with mem := { s.mem with vm := buf.2 } })
      else
        agentLoadInto l { s with mem := { s.mem with vm := buf.2 } } gp (elfBuffer content around) name
          caps := by
  have hperm : (!(s.table.agents cur).hasCap capSpawn) ≠ true := by simpa using hcap
  have hmax : max 1 content.length = content.length := by omega
  have hlen : ¬ (content.length < 64 ∨ agentElfMax < content.length) := by
    have hlt := length_lt_of_visible hfile
    simp only [ramfsFileSize, agentElfMax] at hlt ⊢
    omega
  simp only [SpawnCall.exec, agentLoadCall, if_neg hperm, if_neg hname, fileSizeByByte_eq hfile, hmax,
    if_neg hlen, ramfsRead_all hfile (by omega : 0 < content.length), hbuf, ne_eq, not_true, if_false]

theorem heapPtr_le_agentLoadInto (gp : Nat) (elf : ElfFile) (name : UserText) (caps : UInt32) :
    s.mem.vm.heapPtr ≤ (agentLoadInto l s gp elf name caps).2.mem.vm.heapPtr := by
  rw [agentLoadInto]
  cases agentAllocId s.table with
  | none => exact Nat.le_refl _
  | some i =>
    have hsetup := heapPtr_le_agentSetupLoaded (l := l) s.mem i
    have hload := heapPtr_le_agentLoad (l := l) s.mem i elf
    obtain ⟨setup, heq⟩ : ∃ setup, agentSetupLoaded l s.mem i = setup := ⟨_, rfl⟩
    obtain ⟨loaded, heq'⟩ : ∃ loaded, agentLoad l s.mem i elf = loaded := ⟨_, rfl⟩
    rw [heq] at hsetup
    rw [heq'] at hload
    simp only [heq, heq']
    split_ifs
    · exact hsetup
    · exact hload
    · cases nameError name with
      | none => exact hload
      | some rc => exact hload

section

variable {fs : Ramfs} {cur : Fin maxAgents} {gp : Nat} {path : LoadPath} {name : UserText}
  {caps : UInt32} {around : Buf}

theorem agentLoadCall_early (h : SpawnCall.Early l s (.load fs cur gp path name caps around)) :
    ∃ rc < 0, SpawnCall.exec cfg l s (.load fs cur gp path name caps around) = (rc, s) := by
  by_cases hcap : (s.table.agents cur).hasCap capSpawn = true
  swap
  · refine ⟨eperm, by decide, ?_⟩
    rw [SpawnCall.exec]
    unfold agentLoadCall
    exact if_pos (by simpa using hcap)
  have hperm : (!(s.table.agents cur).hasCap capSpawn) ≠ true := by simpa using hcap
  by_cases hname : name = .null
  · refine ⟨einval, by decide, ?_⟩
    rw [SpawnCall.exec]
    unfold agentLoadCall
    rw [if_neg hperm, if_pos hname]
  cases path with
  | null =>
    refine ⟨einval, by decide, ?_⟩
    rw [SpawnCall.exec, agentLoadCall, if_neg hperm, if_neg hname]
  | fault =>
    refine ⟨efault, by decide, ?_⟩
    rw [SpawnCall.exec, agentLoadCall, if_neg hperm, if_neg hname]
  | ok kpath =>
    cases hfile : fs.visible kpath with
    | none =>
      refine ⟨enoent, by decide, ?_⟩
      simp only [SpawnCall.exec, agentLoadCall, if_neg hperm, if_neg hname, fileSizeByByte_none hfile]
    | some content =>
      by_cases hsize : 64 ≤ content.length
      · have hfull : NoBlock l s.mem.vm content.length := by
          by_contra hblock
          exact h hcap hname kpath rfl content hfile ⟨hsize, hblock⟩
        refine ⟨enospc, by decide, ?_⟩
        rw [agentLoadCall_file hcap hname hfile hsize (kalloc_of_noBlock hfull)]
        exact if_pos rfl
      · have hlen : max 1 content.length < 64 ∨ agentElfMax < max 1 content.length :=
          .inl (by omega)
        refine ⟨einval, by decide, ?_⟩
        simp only [SpawnCall.exec, agentLoadCall, if_neg hperm, if_neg hname, fileSizeByByte_eq hfile,
          if_pos hlen]

/-- A call that has found a file that it can read has taken a buffer for it. -/
theorem agentLoadCall_late (h : ¬ SpawnCall.Early l s (.load fs cur gp path name caps around)) :
    ¬ s.Kept (SpawnCall.exec cfg l s (.load fs cur gp path name caps around)).2 := by
  rw [SpawnCall.Early] at h
  push Not at h
  obtain ⟨hcap, hname, kpath, rfl, content, hfile, hsize, hblock⟩ := h
  have hbuf := kalloc_of_block hblock
  generalize hend : s.mem.vm.heapPtr + (content.length + 15) / 16 * 16 = newHeap at hbuf
  have hlt : s.mem.vm.heapPtr < newHeap := by omega
  rw [agentLoadCall_file hcap hname hfile hsize hbuf]
  rintro ⟨-, -, -, hheap⟩
  split_ifs at hheap with hzero
  · exact hlt.ne' hheap
  · have hle := heapPtr_le_agentLoadInto (l := l)
      (s := { s with mem := { s.mem with vm := s.mem.vm.setHeap newHeap } }) gp
      (elfBuffer content around) name caps
    exact (hlt.trans_le hle).ne' hheap

end

theorem SpawnCall.exec_early (cfg : Config) {c : SpawnCall} (h : c.Early l s) :
    ∃ rc < 0, c.exec cfg l s = (rc, s) := by
  cases c with
  | create a => exact agentCreateCall_early h
  | load fs cur gp path name caps around => exact agentLoadCall_early h

/-- A call of `agent_create` that has all it needs. -/
def CreateArgs.Valid (l : Layout) (s : SpawnState) (a : CreateArgs) : Prop :=
  (s.table.agents a.cur).hasCap capSpawn = true ∧ a.entry ≠ 0 ∧ nameError a.name = none ∧
    ∃ i, agentAllocId s.table = some i ∧ StackFits l s.mem.vm i

/-- **What `agent_create` needs to succeed.** -/
theorem agentCreateCall_ok_iff {a : CreateArgs} :
    0 ≤ (SpawnCall.exec cfg l s (.create a)).1 ↔ a.Valid l s := by
  by_cases hearly : SpawnCall.Early l s (.create a)
  · obtain ⟨rc, hneg, heq⟩ : ∃ rc < 0, SpawnCall.exec cfg l s (.create a) = (rc, s) :=
      agentCreateCall_early hearly
    rw [heq]
    refine iff_of_false (Int.not_le.mpr hneg) ?_
    rintro ⟨hcap, hentry, hname, i, hslot, hfits⟩
    have hnull : a.name ≠ .null := fun h => nomatch (h ▸ hname : nameError .null = none)
    have hpage := (hearly hcap hentry hnull i hslot).1
    rw [← agentSetupStack_fst, agentSetupStack_of_noPage hpage] at hfits
    cases hfits
  · rw [SpawnCall.Early] at hearly
    push Not at hearly
    obtain ⟨hcap, hentry, hname, i, hslot, -⟩ := hearly
    have hperm : (!(s.table.agents a.cur).hasCap capSpawn) ≠ true := by simpa using hcap
    have hargs : ¬ (a.entry = 0 ∨ a.name = .null) := not_or.mpr ⟨hentry, hname⟩
    have hvalid : a.Valid l s ↔ nameError a.name = none ∧ (agentSetupStack l s.mem i).1 = true := by
      rw [agentSetupStack_fst]
      constructor
      · rintro ⟨-, -, hgood, j, hj, hfits⟩
        obtain rfl : i = j := Option.some.inj (hslot.symm.trans hj)
        exact ⟨hgood, hfits⟩
      · rintro ⟨hgood, hfits⟩
        exact ⟨hcap, hentry, hgood, i, hslot, hfits⟩
    rw [hvalid]
    obtain ⟨setup, hsetup⟩ : ∃ setup, agentSetupStack l s.mem i = setup := ⟨_, rfl⟩
    simp only [SpawnCall.exec, agentCreateCall, if_neg hperm, if_neg hargs, hslot, hsetup]
    by_cases hout : setup.1 = false
    · rw [if_pos hout, hout]
      exact iff_of_false (show ¬ (0 : Int) ≤ enospc by decide) fun h => nomatch h.2
    · rw [if_neg hout]
      rw [Bool.not_eq_false] at hout
      cases hgood : nameError a.name with
      | none => exact iff_of_true (Int.natCast_nonneg _) ⟨rfl, hout⟩
      | some rc => exact iff_of_false (Int.not_le.mpr (nameError_neg hgood)) fun h => nomatch h.1

/-- **What a call needs to change nothing**, whatever it returns. -/
theorem SpawnCall.kept_iff {c : SpawnCall} : s.Kept (c.exec cfg l s).2 ↔ c.Early l s := by
  constructor
  · intro hkept
    by_contra hlate
    cases c with
    | create a => exact agentCreateCall_late hlate hkept
    | load fs cur gp path name caps around => exact agentLoadCall_late hlate hkept
  · intro hearly
    obtain ⟨rc, -, heq⟩ := SpawnCall.exec_early cfg hearly
    rw [heq]
    exact .refl s

/-- **Calls that end early**, any number of them. -/
theorem kept_run {calls : List SpawnCall}
    (h : Runs.Along (SpawnState.step cfg l) (fun s c => c.Early l s) s calls) :
    Runs.run (SpawnState.step cfg l) s calls = s := by
  refine Runs.Along.invariant (P := (· = s)) ?_ rfl h
  rintro _ c hearly rfl
  obtain ⟨rc, -, heq⟩ := SpawnCall.exec_early cfg hearly
  rw [SpawnState.step, heq]

end

/-- **Failed attempts.** A call that fails leaves the agent table, `pt_next` and `heap_ptr` as they were
exactly if it ends early. After any number of calls that end early, exactly the creations succeed that
would have succeeded before them. -/
theorem failedSpawn_iff (cfg : Config) (l : Layout) (s : SpawnState) :
    (∀ c : SpawnCall, (c.exec cfg l s).1 < 0 → (s.Kept (c.exec cfg l s).2 ↔ c.Early l s)) ∧
      ∀ calls, Runs.Along (SpawnState.step cfg l) (fun s c => c.Early l s) s calls →
        ∀ later : CreateArgs,
          0 ≤ ((SpawnCall.create later).exec cfg l (Runs.run (SpawnState.step cfg l) s calls)).1 ↔
            later.Valid l s := by
  constructor
  · intro c _
    exact SpawnCall.kept_iff
  · intro calls hcalls later
    rw [kept_run hcalls]
    exact agentCreateCall_ok_iff

/-- Agent 1 runs and may create others, and the heap has room for one more. -/
def spawnLast : SpawnState where
  table := createStart.table
  mem := { virtKernel with vm := virtKernel.vm.setHeap (virtLayout.heapStart + heapSize - 16384) }

/-- Without an entry point nothing is taken. -/
theorem failedSpawn_iff_null :
    let c := SpawnCall.create { createArgs with entry := 0 }
    (c.exec twoHarts virtLayout spawnLast).1 < 0 ∧
      spawnLast.Kept (c.exec twoHarts virtLayout spawnLast).2 := by
  have hneg : ((SpawnCall.create { createArgs with entry := 0 }).exec twoHarts virtLayout
      spawnLast).1 < 0 := by decide +kernel
  refine ⟨hneg, ((failedSpawn_iff twoHarts virtLayout spawnLast).1 _ hneg).mpr ?_⟩
  intro _ hentry
  exact absurd rfl hentry

/-- **A name that is rejected.** The call fails with `EINVAL` and has used up the memory for one more
agent, page tables included, and has left a trapframe in the slot. The call with a good name, which
would have succeeded before it, fails after it. -/
theorem not_failedSpawn_kept :
    let bad := SpawnCall.create { createArgs with name := .text [] }
    let good := SpawnCall.create createArgs
    let s' := (bad.exec twoHarts virtLayout spawnLast).2
    (bad.exec twoHarts virtLayout spawnLast).1 = einval ∧ ¬ spawnLast.Kept s' ∧
      s'.mem.vm.heapPtr ≠ spawnLast.mem.vm.heapPtr ∧ s'.mem.vm.ptNext ≠ spawnLast.mem.vm.ptNext ∧
      (s'.table.agents 2).tf ≠ (spawnLast.table.agents 2).tf ∧
      (good.exec twoHarts virtLayout spawnLast).1 = 2 ∧ (good.exec twoHarts virtLayout s').1 = enospc := by
  have hheap : ((SpawnCall.create { createArgs with name := .text [] }).exec twoHarts virtLayout
      spawnLast).2.mem.vm.heapPtr ≠ spawnLast.mem.vm.heapPtr := by decide +kernel
  exact ⟨by decide +kernel, fun hkept => hheap hkept.heapPtr, hheap, by decide +kernel, by decide +kernel,
    by decide +kernel, by decide +kernel⟩

end OpenAgentOS
