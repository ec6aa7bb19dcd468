import OpenAgentOS.Vm.AgentMemory
import OpenAgentOS.Vm.Ownership

/-!
# Isolation of address spaces

- `VmInv`: in every state of a run the page tables form a forest in which each
  agent has a root of its own, and the kernel's root is as `vm_init` left it.
- `Effect`: the three things a step can do to the forest.
- `isolated_run`: if the kernel leaves the second gigabyte empty, where stacks and
  heaps lie, and all segments of loaded files lie in gigabytes that the kernel
  leaves empty, then no step changes a translation of another agent or of the
  kernel.
-/

namespace OpenAgentOS

variable {l : Layout} {k k' : VmKernel} {own : Ownership} {id : Fin maxAgents}

/-- The kernel's root table has no entry for the gigabyte of `va`. -/
def KernelFree (words : Fin 512 → Nat) (va : Nat) : Prop := hasFlag (words (vpn 2 va)) pteV = false

/-- The heap of an agent is where `agent_create` puts it, or has no pages. -/
def AgentVm.HeapOk (a : AgentVm) (id : Fin maxAgents) : Prop :=
  a.heapMaxPages = 0 ∨
    (a.heapBase = userHeapBase + id * agentHeapSize ∧ a.heapMaxPages = agentHeapSize / pageSize)

/-- The invariant of runs; `words` is the root table of the kernel. -/
structure VmInv (l : Layout) (words : Fin 512 → Nat) (k : VmKernel) (own : Ownership) : Prop where
  forest : Forest l k.vm own
  kernelRoot : k.vm.mem l.kernelPt = words
  pagetable : ∀ a pt, (k.agents a).pagetable = some pt →
    own pt = some (pt, 2) ∧ pt ≠ l.kernelPt
  distinct : ∀ a b pt, (k.agents a).pagetable = some pt → (k.agents b).pagetable = some pt → a = b
  heap : ∀ a, (k.agents a).HeapOk a

/-- What a step on agent `id` does to memory and to the agent's page table. -/
inductive Effect (l : Layout) (k : VmKernel) (own : Ownership) (id : Fin maxAgents) (vm : Vm)
    (pagetable : Option Nat) : Prop where
  /-- No table changes. -/
  | quiet (hmem : vm.mem = k.vm.mem) (hnext : vm.ptNext = k.vm.ptNext)
      (hpt : pagetable = none ∨ pagetable = (k.agents id).pagetable)
  /-- The agent's tree grows. -/
  | grow (pt : Nat) (hpt : (k.agents id).pagetable = some pt) (hgrow : GrowsTo l pt k.vm own vm)
      (hpt' : pagetable = some pt)
  /-- The agent gets a new tree. -/
  | sprout (pt : Nat) (own' : Ownership) (hforest : Forest l vm own')
      (hsprout : Sprouts pt k.vm own vm own') (hpt : pagetable = none ∨ pagetable = some pt)

/-- A step on agent `id` from `k` to `k'`. -/
structure StepEffect (l : Layout) (k : VmKernel) (own : Ownership) (id : Fin maxAgents)
    (k' : VmKernel) : Prop where
  effect : Effect l k own id k'.vm (k'.agents id).pagetable
  others : ∀ b, b ≠ id → k'.agents b = k.agents b
  heap : (k'.agents id).HeapOk id

section Preservation

variable {words : Fin 512 → Nat} (hinv : VmInv l words k own) (hstep : StepEffect l k own id k')

include hinv hstep

/-- Every effect leaves the other translations alone. -/
theorem StepEffect.isolated (va : Nat) :
    translation l k'.vm l.kernelPt va = translation l k.vm l.kernelPt va ∧
      ∀ b, b ≠ id → ∀ pt, (k.agents b).pagetable = some pt →
        translation l k'.vm pt va = translation l k.vm pt va := by
  have hf := hinv.forest
  cases hstep.effect with
  | quiet hmem hnext hpt =>
    have hsame : ∀ root, own root = some (root, 2) →
        translation l k'.vm root va = translation l k.vm root va := fun root hroot =>
      translation_congr hf hroot (fun p _ _ => by rw [hmem]) va
    exact ⟨hsame _ hf.kernel, fun b _ pt hb => hsame pt (hinv.pagetable b pt hb).1⟩
  | grow pt hpt hgrow hpt' =>
    obtain ⟨own', -, hgrow⟩ := hgrow
    obtain ⟨-, hkernel⟩ := hinv.pagetable id pt hpt
    refine ⟨hgrow.translation hf hkernel hf.kernel hkernel.symm va, fun b hb old hold => ?_⟩
    refine hgrow.translation hf hkernel (hinv.pagetable b old hold).1 ?_ va
    rintro rfl
    exact hb (hinv.distinct b id _ hold hpt)
  | sprout pt own' hforest hsprout hpt =>
    exact ⟨hsprout.translation hf hf.kernel va, fun b _ pt' hpt' =>
      hsprout.translation hf (hinv.pagetable b pt' hpt').1 va⟩

/-- The invariant goes on if the page table of `id` is a root that no other agent
has. -/
theorem VmInv.next {own' : Ownership} (hforest : Forest l k'.vm own')
    (hroot : k'.vm.mem l.kernelPt = words) (hkeeps : ∀ p x, own p = some x → own' p = some x)
    (hid : ∀ pt, (k'.agents id).pagetable = some pt →
      own' pt = some (pt, 2) ∧ pt ≠ l.kernelPt ∧
        ∀ b, b ≠ id → (k.agents b).pagetable ≠ some pt) : VmInv l words k' own' := by
  refine ⟨hforest, hroot, fun a pt ha => ?_, fun a b pt ha hb => ?_, fun a => ?_⟩
  · by_cases haid : a = id
    · rw [haid] at ha
      exact ⟨(hid pt ha).1, (hid pt ha).2.1⟩
    · rw [hstep.others a haid] at ha
      exact ⟨hkeeps _ _ (hinv.pagetable a pt ha).1, (hinv.pagetable a pt ha).2⟩
  · by_cases haid : a = id <;> by_cases hbid : b = id
    · rw [haid, hbid]
    · rw [haid] at ha
      rw [hstep.others b hbid] at hb
      exact absurd hb ((hid pt ha).2.2 b hbid)
    · rw [hbid] at hb
      rw [hstep.others a haid] at ha
      exact absurd ha ((hid pt hb).2.2 a haid)
    · rw [hstep.others a haid] at ha
      rw [hstep.others b hbid] at hb
      exact hinv.distinct a b pt ha hb
  · by_cases haid : a = id
    · rw [haid]
      exact hstep.heap
    · rw [hstep.others a haid]
      exact hinv.heap a

/-- Every effect keeps the invariant. -/
theorem StepEffect.inv : ∃ own', VmInv l words k' own' := by
  have hf := hinv.forest
  -- the root that the agent had is still its own
  have hold : ∀ pt, (k.agents id).pagetable = some pt → own pt = some (pt, 2) ∧
      pt ≠ l.kernelPt ∧ ∀ b, b ≠ id → (k.agents b).pagetable ≠ some pt := fun pt hpt =>
    ⟨(hinv.pagetable id pt hpt).1, (hinv.pagetable id pt hpt).2, fun b hb hb' =>
      hb (hinv.distinct b id pt hb' hpt)⟩
  cases hstep.effect with
  | quiet hmem hnext hpt =>
    refine ⟨own, hinv.next hstep (hf.congr hmem hnext) (by rw [hmem, hinv.kernelRoot])
      (fun _ _ h => h) fun pt hpt' => ?_⟩
    rcases hpt with hpt | hpt
    · rw [hpt] at hpt'
      cases hpt'
    · rw [hpt] at hpt'
      exact hold pt hpt'
  | grow pt hpt hgrow hpt' =>
    obtain ⟨own', hforest, hgrow⟩ := hgrow
    obtain ⟨hroot, hkernel, hothers⟩ := hold pt hpt
    refine ⟨own', hinv.next hstep hforest ?_ hgrow.keeps fun pt' hpt'' => ?_⟩
    · rw [hgrow.frame _ _ _ hf.kernel hkernel.symm, hinv.kernelRoot]
    · obtain rfl := Option.some.inj (hpt'.symm.trans hpt'')
      exact ⟨hgrow.keeps _ _ hroot, hkernel, hothers⟩
  | sprout pt own' hforest hsprout hpt =>
    refine ⟨own', hinv.next hstep hforest ?_ hsprout.keeps fun pt' hpt' => ?_⟩
    · rw [hsprout.frame _ _ hf.kernel, hinv.kernelRoot]
    · rcases hpt with hpt | hpt
      · rw [hpt] at hpt'
        cases hpt'
      · obtain rfl := Option.some.inj (hpt.symm.trans hpt')
        -- a new root is no old page
        refine ⟨hsprout.root, ?_, fun b _ hb => ?_⟩
        · rintro rfl
          have := hsprout.new
          rw [hf.kernel] at this
          cases this
        · have := (hinv.pagetable b _ hb).1
          rw [hsprout.new] at this
          cases this

end Preservation

/-! ## Where stacks and heaps lie -/

/-- Addresses between one and two gigabytes. -/
theorem vpn_two_eq_one {va : Nat} (hlow : 0x40000000 ≤ va) (hhigh : va < 0x80000000) :
    vpn 2 va = 1 := by
  refine Fin.ext ?_
  show va / 1073741824 % 512 = 1
  omega

/-- The pages of a user stack lie in the second gigabyte. -/
theorem vpn_stackPage (id : Fin maxAgents) {j : Nat}
    (hj : j < (pageUp ((userStackBase + id * userStackSlot + pageSize + agentStackSize) % 2 ^ 64)
      - pageDown (userStackBase + id * userStackSlot + pageSize)) / pageSize) :
    vpn 2 (pageDown (userStackBase + id * userStackSlot + pageSize) + j * pageSize) = 1 := by
  have hid : (id : Nat) < 12 := id.isLt
  have hsmall : userStackBase + id * userStackSlot + pageSize + agentStackSize + (pageSize - 1)
      < 2 ^ 64 := by
    simp only [userStackBase, userStackSlot, pageSize, agentStackSize]
    omega
  rw [pageUp, Nat.mod_eq_of_lt (by omega : _ + agentStackSize < _), Nat.mod_eq_of_lt hsmall] at hj
  simp only [pageDown, userStackBase, userStackSlot, pageSize, agentStackSize] at hj ⊢
  refine vpn_two_eq_one ?_ ?_ <;> omega

/-- The pages of a heap lie in the second gigabyte. -/
theorem vpn_heapPage {a : AgentVm} (hheap : a.HeapOk id) {va : Nat} (hlow : a.heapBase ≤ va)
    (hhigh : va < a.heapBase + a.heapMaxPages * pageSize) : vpn 2 (pageDown va) = 1 := by
  have hid : (id : Nat) < 12 := id.isLt
  rcases hheap with hzero | ⟨hbase, hmax⟩
  · rw [hzero] at hhigh
    omega
  · rw [hbase] at hlow hhigh
    rw [hmax] at hhigh
    simp only [userHeapBase, agentHeapSize, pageSize] at hlow hhigh
    simp only [pageDown, pageSize]
    refine vpn_two_eq_one ?_ ?_ <;> omega

/-- Rounding down stays within the heap. -/
theorem pageDown_heap {a : AgentVm} (hheap : a.HeapOk id) {va : Nat} (hlow : a.heapBase ≤ va)
    (hhigh : va < a.heapBase + a.heapMaxPages * pageSize) :
    a.heapBase ≤ pageDown va ∧ pageDown va < a.heapBase + a.heapMaxPages * pageSize := by
  rcases hheap with hzero | ⟨hbase, hmax⟩
  · rw [hzero] at hhigh
    omega
  · rw [hbase] at hlow hhigh ⊢
    rw [hmax] at hhigh ⊢
    simp only [pageDown, userHeapBase, agentHeapSize, pageSize] at *
    omega

/-- A page number below the maximum is a page of the heap. -/
theorem heapPage_range {a : AgentVm} {off : Int} (hoff : ¬ (off < 0 ∨ (a.heapMaxPages : Int) ≤ off)) :
    a.heapBase ≤ a.heapBase + off.toNat * pageSize ∧
      a.heapBase + off.toNat * pageSize < a.heapBase + a.heapMaxPages * pageSize := by
  simp only [pageSize]
  omega

/-- The pages of a heap start at multiples of the page size. -/
theorem pageDown_heapPage {a : AgentVm} (hheap : a.HeapOk id) {off : Int}
    (hoff : ¬ (off < 0 ∨ (a.heapMaxPages : Int) ≤ off)) :
    pageDown (a.heapBase + off.toNat * pageSize) = a.heapBase + off.toNat * pageSize := by
  rcases hheap with hzero | ⟨hbase, -⟩
  · rw [hzero] at hoff
    omega
  · rw [hbase]
    simp only [pageDown, userHeapBase, agentHeapSize, pageSize]
    omega

/-! ## The steps -/

theorem kalloc_snd (l : Layout) (vm : Vm) (size : Nat) :
    ∃ heapPtr, (kalloc l vm size).2 = vm.setHeap heapPtr := by
  simp only [kalloc]
  split_ifs
  · exact ⟨vm.heapPtr, rfl⟩
  · exact ⟨_, rfl⟩

theorem kallocPage_snd (l : Layout) (vm : Vm) :
    ∃ heapPtr, (kallocPage l vm).2 = vm.setHeap heapPtr := by
  simp only [kallocPage]
  split_ifs
  · exact ⟨vm.heapPtr, rfl⟩
  · exact ⟨_, rfl⟩

section Loading

variable {root : Nat} {vm : Vm} {words : Fin 512 → Nat}

/-- A page that may be mapped into the tree of an agent. -/
theorem mappable_of_free (hroot : root ≠ l.kernelPt) (hwords : vm.mem l.kernelPt = words)
    {va : Nat} (hfree : KernelFree words va) : Mappable l vm own root (vpn 2 va) :=
  .inl ⟨hroot, by rw [hwords]; exact hfree⟩

theorem growsTo_vmMapUserStack (hf : Forest l vm own) (hroot : own root = some (root, 2))
    (hne : root ≠ l.kernelPt) (hwords : vm.mem l.kernelPt = words)
    (hgig : hasFlag (words 1) pteV = false) (id : Fin maxAgents) (stackPa : Nat) :
    GrowsTo l root vm own (vmMapUserStack l vm root id stackPa).2 :=
  growsTo_vmMapPages _ _ _ _ vm own hf hroot fun _ hj =>
    mappable_of_free hne hwords (by rw [KernelFree, vpn_stackPage id hj]; exact hgig)

theorem growsTo_elfMapPages (hne : root ≠ l.kernelPt) (perm : Nat) :
    ∀ (n va : Nat) (vm : Vm) (own : Ownership), Forest l vm own → own root = some (root, 2) →
      vm.mem l.kernelPt = words → (∀ j, j < n → KernelFree words (va + j * pageSize)) →
      GrowsTo l root vm own (elfMapPages l root perm n va vm).2 := by
  intro n
  induction n with
  | zero => exact fun va vm own hf _ _ _ => .refl hf root
  | succ n ih =>
    intro va vm own hf hroot hwords hfree
    obtain ⟨heapPtr, hpage⟩ := kallocPage_snd l vm
    have hfirst : KernelFree words va := by simpa using hfree 0 (Nat.succ_pos n)
    simp only [elfMapPages, hpage]
    split_ifs
    · exact .heap hf root heapPtr
    · -- the page could not be mapped
      exact (GrowsTo.heap hf root heapPtr).trans fun own' hf' hgrow =>
        growsTo_vmMapPage hf' (hgrow.keeps _ _ hroot) (mappable_of_free hne hwords hfirst) _ _
    · refine (GrowsTo.heap hf root heapPtr).trans fun own' hf' hgrow => ?_
      have hroot' := hgrow.keeps _ _ hroot
      refine (growsTo_vmMapPage hf' hroot' (mappable_of_free hne hwords hfirst) _ _).trans
        fun own'' hf'' hgrow' => ih _ _ own'' hf'' (hgrow'.keeps _ _ hroot') ?_ fun j hj => ?_
      · rw [hgrow'.frame _ _ _ hf'.kernel hne.symm]
        exact hwords
      · rw [show va + pageSize + j * pageSize = va + (j + 1) * pageSize by
          rw [Nat.succ_mul]; omega]
        exact hfree (j + 1) (Nat.succ_lt_succ hj)

/-- The pages of a loadable segment. -/
theorem maps_segmentPage {f : ElfFile} {i j : Nat} (hi : i < f.phnum) (htype : f.pType i = 1)
    (hj : j < (segmentEnd (f.pVaddr i) (f.pMemsz i) - pageDown (f.pVaddr i)) / pageSize) :
    f.Maps (pageDown (f.pVaddr i) + j * pageSize) := by
  refine ⟨i, hi, htype, Nat.le_add_right _ _, ?_⟩
  simp only [pageSize] at hj ⊢
  omega

theorem growsTo_elfLoadHeaders (hne : root ≠ l.kernelPt) {f : ElfFile}
    (hfree : ∀ va, f.Maps va → KernelFree words va) :
    ∀ (n i : Nat) (vm : Vm) (own : Ownership), i + n ≤ f.phnum → Forest l vm own →
      own root = some (root, 2) → vm.mem l.kernelPt = words →
      GrowsTo l root vm own (elfLoadHeaders l f root n i vm).2 := by
  intro n
  induction n with
  | zero => exact fun i vm own _ hf _ _ => .refl hf root
  | succ n ih =>
    intro i vm own hn hf hroot hwords
    by_cases htype : f.pType i = 1
    · have hsegment : GrowsTo l root vm own
          (elfMapSegment l vm root (f.pVaddr i) (f.pMemsz i) (f.pFlags i)).2 :=
        growsTo_elfMapPages hne _ _ _ vm own hf hroot hwords fun j hj =>
          hfree _ (maps_segmentPage (by omega) htype hj)
      simp only [elfLoadHeaders, if_neg (not_not.mpr htype)]
      split_ifs
      · exact .refl hf root
      · exact .refl hf root
      · exact hsegment
      · refine hsegment.trans fun own' hf' hgrow =>
          ih _ _ own' (by omega) hf' (hgrow.keeps _ _ hroot) ?_
        rw [hgrow.frame _ _ _ hf.kernel hne.symm]
        exact hwords
    · rw [elfLoadHeaders, if_pos htype]
      split_ifs
      · exact .refl hf root
      · exact ih _ _ own (by omega) hf hroot hwords

/-- **Loading a file** grows the tree of its agent. -/
theorem growsTo_elfLoadIntoAgent (hf : Forest l vm own) (hroot : own root = some (root, 2))
    (hne : root ≠ l.kernelPt) (hwords : vm.mem l.kernelPt = words) {f : ElfFile}
    (hfree : ∀ va, f.Maps va → KernelFree words va) :
    GrowsTo l root vm own (elfLoadIntoAgent l vm root f).2 := by
  rw [elfLoadIntoAgent]
  split_ifs
  · exact .refl hf root
  · exact .refl hf root
  · exact .refl hf root
  · exact .refl hf root
  · exact .refl hf root
  · exact growsTo_elfLoadHeaders hne hfree _ _ vm own (Nat.zero_add _).le hf hroot hwords

end Loading

section Steps

variable {words : Fin 512 → Nat} (hinv : VmInv l words k own)
  (hgig : hasFlag (words 1) pteV = false)

/-- Taking memory from the heap does not matter. -/
theorem Sprouts.heap {pt : Nat} {vm vm' : Vm} {own' : Ownership} (h : Sprouts pt vm own vm' own')
    (heapPtr : Nat) : Sprouts pt vm own (vm'.setHeap heapPtr) own' :=
  ⟨h.new, h.root, h.keeps, h.frame⟩

include hinv

/-- A new root is not the kernel's. -/
theorem Sprouts.ne_kernel {pt : Nat} {vm : Vm} {own' : Ownership}
    (h : Sprouts pt k.vm own vm own') : pt ≠ l.kernelPt := by
  rintro rfl
  have := h.new
  rw [hinv.forest.kernel] at this
  cases this

include hgig

/-- A new root with a stack on it. -/
theorem sprouts_stack {heapPtr pt : Nat} {vm : Vm}
    (h : vmCreateAgentPt l (k.vm.setHeap heapPtr) = (some pt, vm)) (id : Fin maxAgents)
    (stackPa : Nat) :
    ∃ own', Forest l (vmMapUserStack l vm pt id stackPa).2 own' ∧
      Sprouts pt k.vm own (vmMapUserStack l vm pt id stackPa).2 own' := by
  have hf : Forest l (k.vm.setHeap heapPtr) own := hinv.forest.congr rfl rfl
  obtain ⟨hf', hsprout⟩ := sprouts_vmCreateAgentPt hf h
  have hsprout' : Sprouts pt k.vm own vm _ := ⟨hsprout.new, hsprout.root, hsprout.keeps,
    hsprout.frame⟩
  have hwords : vm.mem l.kernelPt = words := by
    rw [hsprout.frame _ _ hf.kernel]
    exact hinv.kernelRoot
  obtain ⟨own', hf'', hgrow⟩ := growsTo_vmMapUserStack hf' hsprout.root
    (hsprout'.ne_kernel hinv) hwords hgig id stackPa
  exact ⟨own', hf'', hsprout'.grows hinv.forest hgrow⟩

omit hinv hgig in
/-- The end of `agent_create` on a new root. -/
theorem stepEffect_finishStack {k₀ : VmKernel} (hothers : ∀ b, b ≠ id → k.agents b = k₀.agents b)
    (hnone : (k.agents id).pagetable = none) (hheap : (k.agents id).HeapOk id) {pt : Nat}
    {mapped : Int × Vm}
    (h : ∃ own', Forest l mapped.2 own' ∧ Sprouts pt k₀.vm own mapped.2 own') :
    StepEffect l k₀ own id (finishStack l k id pt mapped).2 := by
  obtain ⟨own', hf, hs⟩ := h
  obtain ⟨heapPtr, htf⟩ := kalloc_snd l mapped.2 trapframeSize
  simp only [finishStack, htf]
  split_ifs
  · exact ⟨.sprout pt own' hf hs (.inl hnone), hothers, hheap⟩
  · refine ⟨.sprout pt own' (hf.congr rfl rfl) (hs.heap heapPtr) (.inr ?_), fun b hb => ?_, ?_⟩
    · rw [VmKernel.setAgent_self]
    · rw [VmKernel.setAgent_of_ne _ hb]
      exact hothers b hb
    · rw [VmKernel.setAgent_self]
      exact hheap
  · refine ⟨.sprout pt own' (hf.congr rfl rfl) (hs.heap heapPtr) (.inr ?_), fun b hb => ?_, ?_⟩
    · rw [VmKernel.setAgent_self]
      rfl
    · rw [VmKernel.setAgent_of_ne _ hb]
      exact hothers b hb
    · rw [VmKernel.setAgent_self]
      exact .inr ⟨rfl, rfl⟩

/-- `agent_create`. -/
theorem stepEffect_agentSetupStack (id : Fin maxAgents) :
    StepEffect l k own id (agentSetupStack l k id).2 := by
  have hheap := hinv.heap id
  obtain ⟨h₁, hguard⟩ := kallocPage_snd l k.vm
  obtain ⟨h₂, hstack⟩ := kalloc_snd l (k.vm.setHeap h₁) agentStackSize
  have hquiet : ∀ heapPtr, StepEffect l k own id
      { k.setAgent id { k.agents id with pagetable := none } with
        vm := k.vm.setHeap heapPtr } := fun heapPtr =>
    { effect := .quiet rfl rfl (.inl (congrArg AgentVm.pagetable (k.setAgent_self ..)))
      others := fun b hb => k.setAgent_of_ne hb _
      heap := by rw [k.setAgent_self]; exact hheap }
  simp only [agentSetupStack, VmKernel.setAgent_vm, hguard, hstack]
  split_ifs
  · exact hquiet h₁
  · exact hquiet h₂
  · split
    · rename_i vm hnone
      rw [vmCreateAgentPt_none hnone]
      exact hquiet h₂
    · rename_i pt vm hsome
      refine stepEffect_finishStack (fun b hb => k.setAgent_of_ne hb _) ?_ ?_
        (sprouts_stack hinv hgig hsome id _)
      · rw [k.setAgent_self]
      · rw [k.setAgent_self]
        exact hheap

omit hgig in
/-- The end of `agent_setup_loaded` on a new root: failure, or a fresh agent. -/
theorem finishLoaded_cases (id : Fin maxAgents) {pt : Nat} {mapped : Int × Vm}
    (h : ∃ own', Forest l mapped.2 own' ∧ Sprouts pt k.vm own mapped.2 own') :
    ((finishLoaded l k id pt mapped).1 ≠ 0 ∧
        StepEffect l k own id (finishLoaded l k id pt mapped).2) ∨
      ∃ vm own', finishLoaded l k id pt mapped
          = (0, { k with vm := vm }.setAgent id (freshHeap id (some pt))) ∧
        Forest l vm own' ∧ Sprouts pt k.vm own vm own' := by
  obtain ⟨own', hf, hs⟩ := h
  obtain ⟨heapPtr, htf⟩ := kalloc_snd l mapped.2 trapframeSize
  have hfail : ∀ vm, Forest l vm own' → Sprouts pt k.vm own vm own' → StepEffect l k own id
      (({ k with vm := vm } : VmKernel).setAgent id { k.agents id with pagetable := some pt }) :=
    fun vm hf hs =>
      { effect := .sprout pt own' hf hs
          (.inr (congrArg AgentVm.pagetable (VmKernel.setAgent_self ..)))
        others := fun b hb => VmKernel.setAgent_of_ne _ hb _
        heap := by rw [VmKernel.setAgent_self]; exact hinv.heap id }
  simp only [finishLoaded, htf]
  split_ifs
  · exact .inl ⟨(by decide : enospc ≠ 0), hfail _ hf hs⟩
  · exact .inl ⟨(by decide : enospc ≠ 0), hfail _ (hf.congr rfl rfl) (hs.heap heapPtr)⟩
  · exact .inr ⟨_, own', rfl, hf.congr rfl rfl, hs.heap heapPtr⟩

/-- `agent_setup_loaded`: failure, or a fresh agent. -/
theorem agentSetupLoaded_cases (id : Fin maxAgents) :
    ((agentSetupLoaded l k id).1 ≠ 0 ∧ StepEffect l k own id (agentSetupLoaded l k id).2) ∨
      ∃ pt vm own', agentSetupLoaded l k id
          = (0, { k with vm := vm }.setAgent id (freshHeap id (some pt))) ∧
        Forest l vm own' ∧ Sprouts pt k.vm own vm own' := by
  obtain ⟨h₁, hguard⟩ := kallocPage_snd l k.vm
  obtain ⟨h₂, hstack⟩ := kalloc_snd l (k.vm.setHeap h₁) agentStackSize
  have hquiet : ∀ heapPtr, StepEffect l k own id { k with vm := k.vm.setHeap heapPtr } :=
    fun heapPtr => ⟨.quiet rfl rfl (.inr rfl), fun _ _ => rfl, hinv.heap id⟩
  simp only [agentSetupLoaded, hguard, hstack]
  split_ifs
  · exact .inl ⟨(by decide : enospc ≠ 0), hquiet h₁⟩
  · exact .inl ⟨(by decide : enospc ≠ 0), hquiet h₂⟩
  · split
    · rename_i vm hnone
      rw [vmCreateAgentPt_none hnone]
      refine .inl ⟨(by decide : enospc ≠ 0), .quiet rfl rfl (.inl ?_), fun b hb => ?_, ?_⟩
      · rw [VmKernel.setAgent_self]
      · exact VmKernel.setAgent_of_ne _ hb _
      · rw [VmKernel.setAgent_self]
        exact hinv.heap id
    · rename_i pt vm hsome
      rcases finishLoaded_cases hinv id (sprouts_stack hinv hgig hsome id _) with h | h
      · exact .inl h
      · obtain ⟨vm', own', heq, hf, hs⟩ := h
        exact .inr ⟨pt, vm', own', heq, hf, hs⟩

/-- `agent_load_from_path`, with a file whose pages the kernel leaves free. -/
theorem stepEffect_agentLoad (id : Fin maxAgents) {elf : ElfFile}
    (hfree : ∀ va, elf.Maps va → KernelFree words va) :
    StepEffect l k own id (agentLoad l k id elf).2 := by
  rcases agentSetupLoaded_cases hinv hgig id with ⟨hrc, heffect⟩ | ⟨pt, vm, own', heq, hf, hs⟩
  · rw [agentLoad, if_pos hrc]
    exact heffect
  · have hwords : vm.mem l.kernelPt = words := by
      rw [hs.frame _ _ hinv.forest.kernel]
      exact hinv.kernelRoot
    obtain ⟨own'', hf', hgrow⟩ := growsTo_elfLoadIntoAgent hf hs.root (hs.ne_kernel hinv) hwords
      hfree
    simp only [agentLoad, heq, VmKernel.setAgent_self, VmKernel.setAgent_vm, freshHeap, ne_eq,
      not_true_eq_false, if_false]
    refine ⟨.sprout pt own'' hf' (hs.grows hinv.forest hgrow) (.inr ?_), fun b hb => ?_, ?_⟩
    · rw [VmKernel.setAgent_self]
    · exact VmKernel.setAgent_of_ne _ hb _
    · rw [VmKernel.setAgent_self]
      exact .inr ⟨rfl, rfl⟩

omit hgig in
/-- The agent's tree grows. -/
theorem stepEffect_grow {pt : Nat} {vm : Vm} (hpt : (k.agents id).pagetable = some pt)
    (hgrow : GrowsTo l pt k.vm own vm) : StepEffect l k own id { k with vm := vm } :=
  ⟨.grow pt hpt hgrow hpt, fun _ _ => rfl, hinv.heap id⟩

omit hinv hgig in
/-- The agent's tree grows, and fields other than its page table change. -/
theorem stepEffect_setAgent {pt : Nat} {vm : Vm} {a : AgentVm}
    (hpt : (k.agents id).pagetable = some pt) (hgrow : GrowsTo l pt k.vm own vm)
    (ha : a.pagetable = some pt) (hheap : a.HeapOk id) :
    StepEffect l k own id (({ k with vm := vm } : VmKernel).setAgent id a) where
  effect := .grow pt hpt hgrow (by rw [VmKernel.setAgent_self]; exact ha)
  others b hb := VmKernel.setAgent_of_ne _ hb _
  heap := by rw [VmKernel.setAgent_self]; exact hheap

omit hgig in
theorem stepEffect_refl : StepEffect l k own id k :=
  ⟨.quiet rfl rfl (.inr rfl), fun _ _ => rfl, hinv.heap id⟩

/-- Heap pages may be mapped into the agent's tree. -/
theorem mappable_heapPage {pt : Nat} (hpt : (k.agents id).pagetable = some pt) {va : Nat}
    (hlow : (k.agents id).heapBase ≤ va)
    (hhigh : va < (k.agents id).heapBase + (k.agents id).heapMaxPages * pageSize) :
    Mappable l k.vm own pt (vpn 2 (pageDown va)) :=
  mappable_of_free (hinv.pagetable id pt hpt).2 hinv.kernelRoot
    (by rw [KernelFree, vpn_heapPage (hinv.heap id) hlow hhigh]; exact hgig)

theorem growsTo_heapPage {pt : Nat} (hpt : (k.agents id).pagetable = some pt) {va : Nat}
    (hlow : (k.agents id).heapBase ≤ va)
    (hhigh : va < (k.agents id).heapBase + (k.agents id).heapMaxPages * pageSize)
    (heapPtr pa perm : Nat) :
    GrowsTo l pt k.vm own (vmMapPage l (k.vm.setHeap heapPtr) pt (pageDown va) pa perm).2 :=
  (GrowsTo.heap hinv.forest pt heapPtr).trans fun _ hf' hgrow =>
    growsTo_vmMapPage hf' (hgrow.keeps _ _ (hinv.pagetable id pt hpt).1)
      ((mappable_heapPage hinv hgig hpt hlow hhigh).grows hinv.forest hgrow) pa perm

/-- Mapping a heap page, by system call or by fault. -/
theorem stepEffect_vmHeapMapPage (id : Fin maxAgents) (va : Nat) :
    StepEffect l k own id (vmHeapMapPage l k id va).2 := by
  obtain ⟨heapPtr, hheap⟩ := kallocPage_snd l k.vm
  simp only [vmHeapMapPage, hheap]
  cases hpt : (k.agents id).pagetable with
  | none => exact stepEffect_refl hinv
  | some pt =>
    dsimp only
    by_cases hrange : va < (k.agents id).heapBase ∨
        (k.agents id).heapBase + (k.agents id).heapMaxPages * pageSize ≤ va
    · rw [if_pos hrange]
      exact stepEffect_refl hinv
    rw [if_neg hrange]
    rw [not_or, not_lt, not_le] at hrange
    have hgrow := growsTo_heapPage hinv hgig hpt hrange.1 hrange.2 heapPtr
    split_ifs
    · exact stepEffect_refl hinv
    · exact stepEffect_refl hinv
    · exact stepEffect_grow hinv hpt (.heap hinv.forest pt heapPtr)
    · exact stepEffect_grow hinv hpt (hgrow _ _)
    · exact stepEffect_setAgent hpt (hgrow _ _) rfl (hinv.heap id)

/-- `agent_heap_map`. -/
theorem stepEffect_agentHeapMap (id : Fin maxAgents) (pageOff : Int) :
    StepEffect l k own id (agentHeapMap l k id pageOff).2 := by
  simp only [agentHeapMap]
  split_ifs
  · exact stepEffect_refl hinv
  · exact stepEffect_vmHeapMapPage hinv hgig id _
  · exact stepEffect_vmHeapMapPage hinv hgig id _

/-- An entry that a walk over a heap page finds is the agent's own. -/
theorem heapSlot_owned {pt : Nat} (hpt : (k.agents id).pagetable = some pt) {va : Nat}
    (hlow : (k.agents id).heapBase ≤ va)
    (hhigh : va < (k.agents id).heapBase + (k.agents id).heapMaxPages * pageSize)
    {table : Nat} {i : Fin 512}
    (h : (vmWalk l k.vm pt (pageDown va) false).1 = some (table, i)) :
    own table = some (pt, 0) :=
  walkFrom_owned hinv.forest (hinv.pagetable id pt hpt).1
    (mappable_heapPage hinv hgig hpt hlow hhigh) 2 pt (table, i) (hinv.pagetable id pt hpt).1 h

/-- Breaking the sharing of a heap page. -/
theorem stepEffect_vmCowBreak {pt : Nat} (hpt : (k.agents id).pagetable = some pt) {va : Nat}
    (hlow : (k.agents id).heapBase ≤ va)
    (hhigh : va < (k.agents id).heapBase + (k.agents id).heapMaxPages * pageSize) :
    StepEffect l k own id (vmCowBreak l k pt va).2 := by
  obtain ⟨heapPtr, hheap⟩ := kallocPage_snd l k.vm
  simp only [vmCowBreak, hheap]
  split
  · exact stepEffect_refl hinv
  · rename_i table i hslot
    have htable := heapSlot_owned hinv hgig hpt hlow hhigh hslot
    split_ifs
    · exact stepEffect_refl hinv
    · exact stepEffect_refl hinv
    · exact stepEffect_grow hinv hpt (.heap hinv.forest pt heapPtr)
    · refine stepEffect_grow hinv hpt ((GrowsTo.heap hinv.forest pt heapPtr).trans
        fun own' hf' hgrow => ?_)
      have htable' := hgrow.keeps _ _ htable
      exact ⟨own', forest_write htable' i _ hf', grows_write htable' i _⟩

/-- A fault on a heap page. -/
theorem stepEffect_vmHeapFault (id : Fin maxAgents) (va : Nat) (write : Bool) :
    StepEffect l k own id (vmHeapFault l k id va write).2 := by
  simp only [vmHeapFault]
  cases hpt : (k.agents id).pagetable with
  | none => exact stepEffect_refl hinv
  | some pt =>
    dsimp only
    by_cases hrange : va < (k.agents id).heapBase ∨
        (k.agents id).heapBase + (k.agents id).heapMaxPages * pageSize ≤ va
    · rw [if_pos hrange]
      exact stepEffect_refl hinv
    rw [if_neg hrange]
    rw [not_or, not_lt, not_le] at hrange
    obtain ⟨hlow, hhigh⟩ := pageDown_heap (hinv.heap id) hrange.1 hrange.2
    split_ifs
    · exact stepEffect_refl hinv
    · split
      · exact stepEffect_refl hinv
      · split_ifs
        · exact stepEffect_vmCowBreak hinv hgig hpt hlow hhigh
        · exact stepEffect_refl hinv
    · exact stepEffect_vmHeapMapPage hinv hgig id va

omit hinv hgig in
/-- The end of `agent_heap_cow`: entries of heap pages become read-only. -/
theorem growsTo_cowProtect {root : Nat} {vm : Vm} (hf : Forest l vm own)
    (hroot : own root = some (root, 2)) {dstVa : Nat}
    (hmap : Mappable l vm own root (vpn 2 dstVa)) {src : Nat × Fin 512}
    (hsrc : own src.1 = some (root, 0)) (ppn : Nat) :
    GrowsTo l root vm own (cowProtect l vm root dstVa src ppn).2 := by
  have hf' := fun word => forest_write hsrc src.2 word hf
  have hgrow : ∀ word, Grows root vm own (vm.write src.1 src.2 word) own := fun word =>
    grows_write hsrc src.2 word
  simp only [cowProtect]
  split
  · exact ⟨own, hf' _, hgrow _⟩
  · rename_i table i hslot
    have htable := walkFrom_owned (hf' _) hroot (hmap.grows hf (hgrow _)) 2 root _ hroot hslot
    split_ifs
    · exact ⟨own, hf' _, hgrow _⟩
    · exact ⟨own, forest_write htable i _ (hf' _), (hgrow _).trans (grows_write htable i _)⟩

/-- `agent_heap_cow`. -/
theorem stepEffect_vmHeapCowAlias (id : Fin maxAgents) (dstOff srcOff : Int) :
    StepEffect l k own id (vmHeapCowAlias l k id dstOff srcOff).2 := by
  have hrefl : StepEffect l k own id k := stepEffect_refl hinv
  simp only [vmHeapCowAlias]
  cases hpt : (k.agents id).pagetable with
  | none => exact hrefl
  | some pt =>
    have hroot := (hinv.pagetable id pt hpt).1
    dsimp only
    by_cases heq : dstOff = srcOff
    · rw [if_pos heq]
      exact hrefl
    by_cases hsrc : srcOff < 0 ∨ ((k.agents id).heapMaxPages : Int) ≤ srcOff
    · rw [if_neg heq, if_pos hsrc]
      exact hrefl
    by_cases hdst : dstOff < 0 ∨ ((k.agents id).heapMaxPages : Int) ≤ dstOff
    · rw [if_neg heq, if_neg hsrc, if_pos hdst]
      exact hrefl
    rw [if_neg heq, if_neg hsrc, if_neg hdst]
    obtain ⟨hsrcLow, hsrcHigh⟩ := heapPage_range hsrc
    obtain ⟨hdstLow, hdstHigh⟩ := heapPage_range hdst
    have hmap := mappable_heapPage hinv hgig hpt hdstLow hdstHigh
    rw [pageDown_heapPage (hinv.heap id) hdst] at hmap
    split
    · exact hrefl
    split
    · exact hrefl
    rename_i table i hslot
    rw [← pageDown_heapPage (hinv.heap id) hsrc] at hslot
    have htable := heapSlot_owned hinv hgig hpt hsrcLow hsrcHigh hslot
    split
    · exact hrefl
    split
    · -- the target is mapped already
      split
      · exact hrefl
      split
      · exact hrefl
      split
      · exact hrefl
      exact stepEffect_grow hinv hpt (growsTo_cowProtect hinv.forest hroot hmap htable _)
    split
    · exact hrefl
    -- the target is mapped first
    have hpage := growsTo_vmMapPage hinv.forest hroot hmap
      (ptePpn (k.vm.mem table i) * pageSize) (pteU ||| pteR)
    split
    · exact stepEffect_grow hinv hpt hpage
    refine stepEffect_setAgent hpt (hpage.trans fun own' hf' hgrow => ?_) rfl (hinv.heap id)
    exact growsTo_cowProtect hf' (hgrow.keeps _ _ hroot) (hmap.grows hinv.forest hgrow)
      (hgrow.keeps _ _ htable) _

end Steps

/-! ## Runs -/

/-- A file to be loaded lies where the kernel has no pages. -/
def VmOp.Free (words : Fin 512 → Nat) : VmOp → Prop
  | .load _ elf => ∀ va, elf.Maps va → KernelFree words va
  | _ => True

/-- What every step does. -/
theorem stepEffect_step {words : Fin 512 → Nat} (hinv : VmInv l words k own)
    (hgig : hasFlag (words 1) pteV = false) {op : VmOp} (hop : op.Free words) :
    StepEffect l k own op.agent (k.step l op) := by
  cases op with
  | create id =>
    rw [VmKernel.step, VmKernel.after_eq]
    exact stepEffect_agentSetupStack hinv hgig id
  | load id elf =>
    rw [VmKernel.step, VmKernel.after_eq]
    exact stepEffect_agentLoad hinv hgig id hop
  | heapMap id pageOff =>
    rw [VmKernel.step, VmKernel.after_eq]
    exact stepEffect_agentHeapMap hinv hgig id pageOff
  | heapFault id va write =>
    rw [VmKernel.step, VmKernel.after_eq]
    exact stepEffect_vmHeapFault hinv hgig id va write
  | heapCow id dstOff srcOff =>
    rw [VmKernel.step, VmKernel.after_eq]
    exact stepEffect_vmHeapCowAlias hinv hgig id dstOff srcOff

/-- The invariant holds after boot. -/
theorem vmInv_vmBoot (l : Layout) (mem : Nat → Fin 512 → Nat) :
    ∃ own, VmInv l ((vmInit l mem).mem l.kernelPt) (vmBoot l mem) own := by
  obtain ⟨own, hf, -⟩ := forest_vmInit l mem
  refine ⟨own, hf, rfl, fun a pt h => ?_, fun a b pt h _ => ?_, fun a => .inl rfl⟩
  · cases h
  · cases h

/-- The invariant holds along every run of free steps. -/
theorem vmInv_run {words : Fin 512 → Nat} (hgig : hasFlag (words 1) pteV = false)
    {ops : List VmOp} (hops : ∀ op ∈ ops, op.Free words) (h : ∃ own, VmInv l words k own) :
    ∃ own, VmInv l words (k.run l ops) own := by
  induction ops generalizing k with
  | nil => exact h
  | cons op ops ih =>
    obtain ⟨own, hinv⟩ := h
    obtain ⟨hop, hops⟩ := List.forall_mem_cons.mp hops
    exact ih hops ((stepEffect_step hinv hgig hop).inv hinv)

/-- In a new page table, only what the kernel has mapped is in the way. -/
theorem translation_newRoot {vm vm' : Vm} {pt va : Nat}
    (h : vmCreateAgentPt l vm = (some pt, vm')) (hfree : KernelFree (vm.mem l.kernelPt) va) :
    translation l vm' pt va = none := by
  obtain ⟨-, rfl, rfl⟩ := vmCreateAgentPt_some h
  have hentry : ¬ hasFlag ((newRoot l vm).mem (l.poolPage vm.ptNext) (vpn 2 va)) pteV = true := by
    rw [newRoot_self, hfree]
    decide
  rw [translation, vmWalk, walkFrom, walkLevel, if_neg hentry, if_neg (by decide)]
  rfl

end OpenAgentOS
