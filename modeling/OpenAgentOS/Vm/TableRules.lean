import OpenAgentOS.Vm.Isolation

/-!
# Invariants of page tables

The kernel does six things to page tables: it takes memory from its heap, forgets a
root, follows a walk, maps a page, replaces the entry that a walk has led to, and makes
a root. A property that all six keep is kept by every operation of `VmOp`, also where
the operation fails half-way.

- `TableRules`: the six rules, for a property of memory with the pages that serve as
  roots and the tables that walks have ended in.
- `TableRules.step`, `TableRules.run`: the operations and their runs.
-/

namespace OpenAgentOS

open Function

/-- Some pages. -/
abbrev Pages := Nat → Prop

/-- One page more. -/
def Pages.also (P : Pages) (p : Nat) : Pages := fun q => q = p ∨ P q

/-- `Inv R T vm` is kept by what the kernel does, where `R` are roots, `T` are tables of
the lowest level, and the flags of entries are `Ok`. -/
structure TableRules (l : Layout) (Ok : Nat → Prop) (Inv : Pages → Pages → Vm → Prop) : Prop where
  heap : ∀ {R T vm} heapPtr, Inv R T vm → Inv R T (vm.setHeap heapPtr)
  fewer : ∀ {R R' T T' vm}, Inv R T vm → (∀ p, R' p → R p) → (∀ p, T' p → T p) → Inv R' T' vm
  walk : ∀ {R T vm root va slot}, Inv R T vm → R root → (vmWalk l vm root va false).1 = some slot →
    Inv R (Pages.also T slot.1) vm
  map : ∀ {R T vm root perm} va pa, Inv R T vm → R root → Ok (perm ||| pteV ||| pteStd) →
    Inv R T (vmMapPage l vm root va pa perm).2
  store : ∀ {R T vm table flags} (i : Fin 512) f, Inv R T vm → T table → Ok flags →
    Inv R T (vm.write table i (mkPte f flags))
  create : ∀ {R T vm vm' pt}, Inv R T vm → vmCreateAgentPt l vm = (some pt, vm') →
    Inv (Pages.also R pt) T vm'

/-- The roots of the agents. -/
def VmKernel.roots (k : VmKernel) : Pages := fun pt => ∃ a, (k.agents a).pagetable = some pt

/-- The property holds for the roots of the agents. -/
def VmKernel.Keeps (Inv : Pages → Pages → Vm → Prop) (k : VmKernel) : Prop :=
  Inv k.roots (fun _ => False) k.vm

/-- The permissions that `elf_map_segment` makes of the flags of a segment. -/
def ElfFile.FlagsOk (Ok : Nat → Prop) (f : ElfFile) : Prop :=
  ∀ i, i < f.phnum → f.pType i = 1 →
    Ok ((pteU ||| pteR ||| (if f.pFlags i &&& 2 ≠ 0 then pteW else 0)
      ||| (if f.pFlags i &&& 1 ≠ 0 then pteX else 0)) ||| pteV ||| pteStd)

/-- What the rules ask of an operation: files are loaded whose segments have such flags. -/
def VmOp.FlagsOk (Ok : Nat → Prop) : VmOp → Prop
  | .load _ elf => elf.FlagsOk Ok
  | _ => True

/-- Roots after one agent has been replaced. -/
theorem pagetable_setAgent {k : VmKernel} {id : Fin maxAgents} {a : AgentVm} {b : Fin maxAgents}
    (ha : a.pagetable = (k.agents id).pagetable) :
    ((k.setAgent id a).agents b).pagetable = (k.agents b).pagetable := by
  by_cases hb : b = id
  · rw [hb, VmKernel.setAgent_self, ha]
  · rw [VmKernel.setAgent_of_ne _ hb]

namespace TableRules

variable {l : Layout} {Ok : Nat → Prop} {Inv : Pages → Pages → Vm → Prop} {R T : Pages}
  {vm : Vm} {root perm : Nat} (rules : TableRules l Ok Inv)

include rules

/-! ## The loops -/

section Loops

variable (h : Inv R T vm) (hroot : R root)

include h hroot

theorem vmMapPages (hperm : Ok (perm ||| pteV ||| pteStd)) (n va pa : Nat) :
    Inv R T (vmMapPages l root perm n va pa vm).2 := by
  induction n generalizing va pa vm with
  | zero => exact h
  | succ n ih =>
    rw [OpenAgentOS.vmMapPages]
    have hpage := rules.map va pa h hroot hperm
    split_ifs
    · exact hpage
    · exact ih hpage _ _

theorem vmMapRegion (hperm : Ok (perm ||| pteV ||| pteStd)) (va pa size : Nat) :
    Inv R T (vmMapRegion l vm root va pa size perm).2 := by
  rw [OpenAgentOS.vmMapRegion]
  exact rules.vmMapPages h hroot hperm _ _ _

theorem vmMapRegions {regions : List (Nat × Nat × Nat × Nat)}
    (hperm : ∀ r ∈ regions, Ok (r.2.2.2 ||| pteV ||| pteStd)) :
    Inv R T (vmMapRegions l root regions vm).2 := by
  induction regions generalizing vm with
  | nil => exact h
  | cons region regions ih =>
    obtain ⟨va, pa, size, perm⟩ := region
    obtain ⟨hfirst, hrest⟩ := List.forall_mem_cons.mp hperm
    have hregion := rules.vmMapRegion h hroot hfirst va pa size
    rw [OpenAgentOS.vmMapRegions]
    split_ifs
    · exact hregion
    · exact ih hregion hrest

theorem elfMapPages (hperm : Ok (perm ||| pteV ||| pteStd)) (n va : Nat) :
    Inv R T (elfMapPages l root perm n va vm).2 := by
  induction n generalizing va vm with
  | zero => exact h
  | succ n ih =>
    obtain ⟨heapPtr, hheap⟩ := kallocPage_snd l vm
    have hframe := rules.heap heapPtr h
    simp only [OpenAgentOS.elfMapPages, hheap]
    split_ifs
    · exact hframe
    · exact rules.map va _ hframe hroot hperm
    · exact ih (rules.map va _ hframe hroot hperm) _

theorem elfLoadHeaders {f : ElfFile} (hf : f.FlagsOk Ok) (n i : Nat) (hn : i + n ≤ f.phnum) :
    Inv R T (elfLoadHeaders l f root n i vm).2 := by
  induction n generalizing i vm with
  | zero => exact h
  | succ n ih =>
    rw [OpenAgentOS.elfLoadHeaders]
    split_ifs with hhdr htype hfile
    · exact h
    · exact ih h _ (by omega)
    · exact h
    · have hsegment : Inv R T (elfMapSegment l vm root (f.pVaddr i) (f.pMemsz i) (f.pFlags i)).2 :=
        rules.elfMapPages h hroot (hf i (by omega) (not_not.mp htype)) _ _
      dsimp only
      split_ifs
      · exact hsegment
      · exact ih hsegment _ (by omega)

theorem elfLoadIntoAgent {f : ElfFile} (hf : f.FlagsOk Ok) :
    Inv R T (elfLoadIntoAgent l vm root f).2 := by
  rw [OpenAgentOS.elfLoadIntoAgent]
  split_ifs
  · exact h
  · exact h
  · exact h
  · exact h
  · exact h
  · exact rules.elfLoadHeaders h hroot hf _ _ (Nat.zero_add _).le

/-- The end of `agent_heap_cow`. -/
theorem cowProtect {src : Nat × Fin 512} (hsrc : T src.1) (hflags : Ok (pteU ||| pteR ||| pteV ||| pteStd))
    (dstVa ppn : Nat) : Inv R T (cowProtect l vm root dstVa src ppn).2 := by
  have hfirst := rules.store src.2 ppn h hsrc hflags
  simp only [OpenAgentOS.cowProtect]
  split
  · exact hfirst
  · rename_i table i hslot
    have hslot' := rules.walk hfirst hroot hslot
    split_ifs
    · exact hfirst
    · exact rules.fewer (rules.store i ppn hslot' (.inl rfl) hflags) (fun _ hR => hR)
        fun _ => .inr

end Loops

/-! ## The operations -/

section Operations

variable {k : VmKernel} {id : Fin maxAgents} {pt : Nat} {vm' : Vm} {agents : Fin maxAgents → AgentVm}

/-- Memory has changed below the roots, and the roots are the same. -/
theorem same (h : Inv k.roots T vm') (hsame : ∀ a, (agents a).pagetable = (k.agents a).pagetable) :
    VmKernel.Keeps Inv ⟨vm', agents⟩ := by
  refine rules.fewer h ?_ nofun
  rintro pt ⟨a, ha⟩
  exact ⟨a, (hsame a).symm.trans ha⟩

/-- One agent has got the new root, or none. -/
theorem started (h : Inv (Pages.also k.roots pt) T vm') {a : AgentVm}
    (ha : a.pagetable = some pt ∨ a.pagetable = none) :
    VmKernel.Keeps Inv ⟨vm', update k.agents id a⟩ := by
  refine rules.fewer h ?_ nofun
  rintro pt' ⟨b, hb⟩
  dsimp only at hb
  by_cases hbi : b = id
  · rw [hbi, update_self] at hb
    rcases ha with ha | ha
    · exact .inl (Option.some.inj (hb.symm.trans ha))
    · exact absurd (hb.symm.trans ha) nofun
  · rw [update_of_ne hbi] at hb
    exact .inr ⟨b, hb⟩

variable (h : k.Keeps Inv) (hrw : Ok (pteU ||| pteR ||| pteW ||| pteV ||| pteStd))

include h

/-- An agent has lost its root. -/
theorem rootless (heapPtr : Nat) {a : AgentVm} (ha : a.pagetable = none) :
    VmKernel.Keeps Inv ⟨k.vm.setHeap heapPtr, update k.agents id a⟩ := by
  refine rules.fewer (rules.heap heapPtr h) ?_ fun _ hT => hT
  rintro pt ⟨b, hb⟩
  dsimp only at hb
  by_cases hbi : b = id
  · rw [hbi, update_self, ha] at hb
    exact absurd hb nofun
  · rw [update_of_ne hbi] at hb
    exact ⟨b, hb⟩

include hrw

/-- A new root with its stack. -/
theorem stack {heapPtr : Nat} (hcreate : vmCreateAgentPt l (k.vm.setHeap heapPtr) = (some pt, vm))
    (id : Fin maxAgents) (stackPa : Nat) :
    Inv (Pages.also k.roots pt) (fun _ => False) (vmMapUserStack l vm pt id stackPa).2 := by
  have hnew := rules.create (rules.heap heapPtr h) hcreate
  exact rules.vmMapRegion hnew (.inl rfl) hrw (userStackBase + id * userStackSlot + pageSize)
    stackPa agentStackSize

omit h hrw in
/-- The end of `agent_setup_stack`. -/
theorem finishStack {mapped : Int × Vm} (hnew : Inv (Pages.also k.roots pt) (fun _ => False) mapped.2) (a : AgentVm)
    (ha : a.pagetable = none) :
    (finishStack l (k.setAgent id a) id pt mapped).2.Keeps Inv := by
  obtain ⟨heapPtr, htf⟩ := kalloc_snd l mapped.2 trapframeSize
  rw [OpenAgentOS.finishStack, htf]
  dsimp only
  split_ifs
  · exact rules.started hnew (.inr ha)
  · simp only [VmKernel.setAgent, update_idem]
    exact rules.started (rules.heap heapPtr hnew) (.inl rfl)
  · simp only [VmKernel.setAgent, update_idem]
    exact rules.started (rules.heap heapPtr hnew) (.inl rfl)

theorem agentSetupStack (id : Fin maxAgents) :
    (agentSetupStack l k id).2.Keeps Inv := by
  obtain ⟨h₁, hguard⟩ := kallocPage_snd l k.vm
  obtain ⟨h₂, hstack⟩ := kalloc_snd l (k.vm.setHeap h₁) agentStackSize
  have hheap : (k.vm.setHeap h₁).setHeap h₂ = k.vm.setHeap h₂ := rfl
  simp only [OpenAgentOS.agentSetupStack, VmKernel.setAgent_vm, hguard, hstack, hheap]
  split_ifs
  · exact rules.rootless h h₁ rfl
  · exact rules.rootless h h₂ rfl
  split
  · rename_i vm hnone
    rw [vmCreateAgentPt_none hnone]
    exact rules.rootless h h₂ rfl
  · rename_i pt vm hsome
    exact rules.finishStack (rules.stack h hrw hsome id _) _ rfl

omit h hrw in
/-- The end of `agent_setup_loaded`. -/
theorem finishLoaded {mapped : Int × Vm} (hnew : Inv (Pages.also k.roots pt) (fun _ => False) mapped.2) :
    (finishLoaded l k id pt mapped).2.Keeps Inv := by
  obtain ⟨heapPtr, htf⟩ := kalloc_snd l mapped.2 trapframeSize
  simp only [OpenAgentOS.finishLoaded, htf]
  split_ifs
  · exact rules.started hnew (.inl rfl)
  · exact rules.started (rules.heap heapPtr hnew) (.inl rfl)
  · exact rules.started (rules.heap heapPtr hnew) (.inl rfl)

theorem agentSetupLoaded (id : Fin maxAgents) :
    (agentSetupLoaded l k id).2.Keeps Inv := by
  obtain ⟨h₁, hguard⟩ := kallocPage_snd l k.vm
  obtain ⟨h₂, hstack⟩ := kalloc_snd l (k.vm.setHeap h₁) agentStackSize
  have hheap : (k.vm.setHeap h₁).setHeap h₂ = k.vm.setHeap h₂ := rfl
  simp only [OpenAgentOS.agentSetupLoaded, hguard, hstack, hheap]
  split_ifs
  · exact rules.same (rules.heap h₁ h) fun _ => rfl
  · exact rules.same (rules.heap h₂ h) fun _ => rfl
  split
  · rename_i vm hnone
    rw [vmCreateAgentPt_none hnone]
    exact rules.rootless h h₂ rfl
  · rename_i pt vm hsome
    exact rules.finishLoaded (rules.stack h hrw hsome id _)

theorem agentLoad (id : Fin maxAgents) {elf : ElfFile} (helf : elf.FlagsOk Ok) :
    (agentLoad l k id elf).2.Keeps Inv := by
  obtain ⟨setup, hs⟩ : ∃ out, OpenAgentOS.agentSetupLoaded l k id = out := ⟨_, rfl⟩
  have hsetup := rules.agentSetupLoaded h hrw id
  rw [hs] at hsetup
  rw [OpenAgentOS.agentLoad, hs]
  dsimp only
  split_ifs
  · exact hsetup
  · cases hpt : (setup.2.agents id).pagetable with
    | none => exact hsetup
    | some pt =>
      have hroot : setup.2.roots pt := ⟨id, hpt⟩
      have hload := rules.elfLoadIntoAgent hsetup hroot helf
      exact rules.same hload fun _ => rfl

theorem vmHeapMapPage (id : Fin maxAgents) (va : Nat) :
    (vmHeapMapPage l k id va).2.Keeps Inv := by
  obtain ⟨heapPtr, hheap⟩ := kallocPage_snd l k.vm
  simp only [OpenAgentOS.vmHeapMapPage, hheap]
  cases hpt : (k.agents id).pagetable with
  | none => exact h
  | some pt =>
    have hmap := fun va pa => rules.map va pa (rules.heap heapPtr h) ⟨id, hpt⟩ hrw
    dsimp only
    split_ifs
    · exact h
    · exact h
    · exact h
    · exact rules.same (rules.heap heapPtr h) fun _ => rfl
    · exact rules.same (hmap ..) fun _ => rfl
    · exact rules.same (hmap ..) fun _ => pagetable_setAgent hpt.symm

theorem agentHeapMap (id : Fin maxAgents) (pageOff : Int) :
    (agentHeapMap l k id pageOff).2.Keeps Inv := by
  rw [OpenAgentOS.agentHeapMap]
  dsimp only
  split_ifs
  · exact h
  · exact rules.vmHeapMapPage h hrw id _
  · exact rules.vmHeapMapPage h hrw id _

theorem vmCowBreak (hpt : (k.agents id).pagetable = some pt) (pageVa : Nat) :
    (vmCowBreak l k pt pageVa).2.Keeps Inv := by
  obtain ⟨heapPtr, hheap⟩ := kallocPage_snd l k.vm
  simp only [OpenAgentOS.vmCowBreak, hheap]
  split
  · exact h
  · rename_i table i hslot
    have hframe := rules.heap heapPtr (rules.walk h ⟨id, hpt⟩ hslot)
    split_ifs
    · exact h
    · exact h
    · exact rules.same hframe fun _ => rfl
    · exact rules.same (rules.store i _ hframe (.inl rfl) hrw) fun _ => rfl

theorem vmHeapFault (id : Fin maxAgents) (va : Nat) (write : Bool) :
    (vmHeapFault l k id va write).2.Keeps Inv := by
  rw [OpenAgentOS.vmHeapFault]
  cases hpt : (k.agents id).pagetable with
  | none => exact h
  | some pt =>
    dsimp only
    split_ifs
    · exact h
    · exact h
    · split
      · exact h
      · split_ifs
        · exact rules.vmCowBreak h hrw hpt _
        · exact h
    · exact rules.vmHeapMapPage h hrw id va

omit hrw in
theorem vmHeapCowAlias (hr : Ok (pteU ||| pteR ||| pteV ||| pteStd)) (id : Fin maxAgents)
    (dstOff srcOff : Int) :
    (vmHeapCowAlias l k id dstOff srcOff).2.Keeps Inv := by
  rw [OpenAgentOS.vmHeapCowAlias]
  cases hpt : (k.agents id).pagetable with
  | none => exact h
  | some pt =>
    have hroot : k.roots pt := ⟨id, hpt⟩
    dsimp only
    split
    · exact h
    split
    · exact h
    split
    · exact h
    split
    · exact h
    split
    · exact h
    rename_i table i hslot
    have hsrc := rules.walk h hroot hslot
    split
    · exact h
    split
    · -- the target is mapped already
      split
      · exact h
      split
      · exact h
      split
      · exact h
      exact rules.same (rules.cowProtect hsrc hroot (.inl rfl) hr _ _) fun _ => rfl
    split
    · exact h
    have hpage := rules.map ((k.agents id).heapBase + dstOff.toNat * pageSize)
      (ptePpn (k.vm.mem table i) * pageSize) hsrc hroot hr
    split
    · exact rules.same hpage fun _ => rfl
    exact rules.same (rules.cowProtect hpage hroot (.inl rfl) hr _ _) fun _ =>
      pagetable_setAgent hpt.symm

/-- **Every operation keeps the property.** -/
theorem step (hr : Ok (pteU ||| pteR ||| pteV ||| pteStd)) {op : VmOp} (hop : op.FlagsOk Ok) :
    (k.step l op).Keeps Inv := by
  cases op with
  | create id =>
    rw [VmKernel.step, VmKernel.after_eq]
    exact rules.agentSetupStack h hrw id
  | load id elf =>
    rw [VmKernel.step, VmKernel.after_eq]
    exact rules.agentLoad h hrw id hop
  | heapMap id pageOff =>
    rw [VmKernel.step, VmKernel.after_eq]
    exact rules.agentHeapMap h hrw id pageOff
  | heapFault id va write =>
    rw [VmKernel.step, VmKernel.after_eq]
    exact rules.vmHeapFault h hrw id va write
  | heapCow id dstOff srcOff =>
    rw [VmKernel.step, VmKernel.after_eq]
    exact rules.vmHeapCowAlias h hr id dstOff srcOff

/-- **Every run keeps the property.** -/
theorem run (hr : Ok (pteU ||| pteR ||| pteV ||| pteStd)) (ops : List VmOp)
    (hops : ∀ op ∈ ops, op.FlagsOk Ok) : (k.run l ops).Keeps Inv := by
  induction ops generalizing k with
  | nil => exact h
  | cons op ops ih =>
    obtain ⟨hop, hrest⟩ := List.forall_mem_cons.mp hops
    exact ih (rules.step h hrw hr hop) hrest

end Operations

end TableRules

end OpenAgentOS
