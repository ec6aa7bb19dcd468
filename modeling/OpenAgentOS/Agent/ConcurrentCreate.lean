import OpenAgentOS.Agent.Lifecycle
import OpenAgentOS.Lib.Span
import OpenAgentOS.Vm.HeapPages

/-!
# Creating agents on several harts (kernel/agent.c, kernel/mem.c)

`agent_create` takes no lock. It chooses a slot by its state, allocates, and writes the state at the
end. The stack is put at the first page boundary behind the address that `kalloc` returns, which is
that address if the guard page before it was the last allocation.

- `CreateSys`: what the harts share, where each of them stands in its call, and the blocks that the
  kernel heap has handed out. `CreateSys.step`: one hart goes on to its next allocation, to the page
  table, or to the write of the state.
- `setup_alone`: a hart that is not disturbed does what `agentSetupStack` says.
- `SafelyCreated`: what is wanted of the agents that were created.
- `createInv_step`, `safelyCreated_run`: it holds in every run in which no call starts while another
  one is under way.
- `not_safelyCreated_overlap`: two calls at once, which get the same slot, and one of them a stack that
  reaches over the end of its block.
-/

namespace OpenAgentOS

open Function

/-! ## Calls -/

/-- The arguments of `agent_create`, the agent that calls, and the global pointer. -/
structure CreateArgs where
  cur : Fin maxAgents
  entry : Nat
  gp : Nat
  caps : UInt32
  name : UserText
  deriving DecidableEq

/-- Where a call stands, by the last thing it has done: chosen its slot, allocated the guard page,
allocated the stack, mapped it, or returned from `agent_setup_stack`, with the stack if one is
mapped. -/
inductive CreatePhase where
  | chosen
  | guarded
  | stacked (stack : Nat)
  | mapped (stack : Nat)
  | setUp (stack : Option Nat)
  deriving DecidableEq

/-- What a hart is doing. -/
inductive CreateCall where
  | idle
  | active (args : CreateArgs) (id : Fin maxAgents) (phase : CreatePhase)
  deriving DecidableEq

/-- A call that has succeeded: the result, and what `kalloc(AGENT_STACK_SIZE)` returned for the stack
that it has mapped. -/
structure Created where
  id : Fin maxAgents
  stack : Option Nat

/-- The agent table, page tables and kernel heap, the harts, all blocks that were allocated, and the
calls that have succeeded. -/
structure CreateSys where
  table : Kernel
  mem : VmKernel
  calls : Fin maxHarts → CreateCall
  allocs : List Span
  created : List Created

namespace CreateSys

/-- Hart `h` goes on. -/
def enter (s : CreateSys) (h : Fin maxHarts) (call : CreateCall) : CreateSys :=
  { s with calls := update s.calls h call }

/-- A block was allocated. -/
def took (s : CreateSys) (block : Span) : CreateSys := { s with allocs := block :: s.allocs }

/-- The kernel heap and the page tables. -/
def setVm (s : CreateSys) (vm : Vm) : CreateSys := { s with mem := { s.mem with vm := vm } }

/-- `a->pagetable`. -/
def setRoot (s : CreateSys) (id : Fin maxAgents) (root : Option Nat) : CreateSys :=
  { s with mem := s.mem.setAgent id { s.mem.agents id with pagetable := root } }

/-- `a->tf`. -/
def setTf (s : CreateSys) (id : Fin maxAgents) (tf : Option TrapFrame) : CreateSys :=
  { s with table := s.table.setAgent id { s.table.agents id with tf := tf } }

/-- `a->heap_base`, `a->heap_max_pages` and `a->heap_mapped`. -/
def setHeapFields (s : CreateSys) (id : Fin maxAgents) : CreateSys :=
  { s with mem := s.mem.setAgent id (freshHeap id (s.mem.agents id).pagetable) }

/-- The last lines of `agent_create` (agent.c:158-170). -/
def publish (s : CreateSys) (cfg : Config) (args : CreateArgs) (id : Fin maxAgents)
    (stack : Option Nat) : CreateSys :=
  { s with
    table := s.table.setAgent id { s.table.agents id with
      state := .runnable
      caps := args.caps
      inbox := msgboxInit (s.table.agents id).inbox
      homeCpu := cfg.home id
      runningCpu := none }
    created := ⟨id, stack⟩ :: s.created }

/-- The next step of a call (agent.c:69-124 and 145-158). -/
def advance (cfg : Config) (l : Layout) (s : CreateSys) (h : Fin maxHarts) (args : CreateArgs)
    (id : Fin maxAgents) : CreatePhase → CreateSys
  | .chosen =>
    let s := (s.setTf id none).setRoot id none
    let page := kallocPage l s.mem.vm
    if page.1 = 0 then (s.setVm page.2).enter h (.active args id (.setUp none))
    else ((s.setVm page.2).took ⟨page.1, pageSize⟩).enter h (.active args id .guarded)
  | .guarded =>
    let stack := kalloc l s.mem.vm agentStackSize
    if stack.1 = 0 then (s.setVm stack.2).enter h (.active args id (.setUp none))
    else ((s.setVm stack.2).took ⟨stack.1, agentStackSize⟩).enter h
      (.active args id (.stacked stack.1))
  | .stacked stack =>
    match vmCreateAgentPt l s.mem.vm with
    | (none, vm) => ((s.setVm vm).setRoot id none).enter h (.active args id (.setUp none))
    | (some pt, vm) =>
      let mapped := vmMapUserStack l vm pt id (pageUp stack)
      if mapped.1 ≠ 0 then
        ((s.setVm mapped.2).setRoot id none).enter h (.active args id (.setUp none))
      else ((s.setVm mapped.2).setRoot id (some pt)).enter h (.active args id (.mapped stack))
  | .mapped stack =>
    let tf := kalloc l s.mem.vm trapframeSize
    if tf.1 = 0 then (s.setVm tf.2).enter h (.active args id (.setUp (some stack)))
    else ((((s.setVm tf.2).took ⟨tf.1, trapframeSize⟩).setTf id
      (some (newTrapframe id args.entry args.gp))).setHeapFields id).enter h
        (.active args id (.setUp (some stack)))
  | .setUp stack =>
    -- a trapframe that another hart has put there will do
    if (s.table.agents id).tf = none then s.enter h .idle
    else
      match args.name with
      | .text (_ :: _) => (s.publish cfg args id stack).enter h .idle
      | _ => s.enter h .idle

end CreateSys

/-- A hart calls `agent_create`, or goes on with its call. -/
inductive CreateEvent where
  | call (h : Fin maxHarts) (args : CreateArgs)
  | next (h : Fin maxHarts)

/-- One step of one hart. A call begins with the checks and the choice of the slot
(agent.c:131-140). -/
def CreateSys.step (cfg : Config) (l : Layout) (s : CreateSys) : CreateEvent → CreateSys
  | .call h args =>
    if s.calls h ≠ .idle then s
    else if !(s.table.agents args.cur).hasCap capSpawn then s
    else if args.entry = 0 ∨ args.name = .null then s
    else
      match agentAllocId s.table with
      | none => s
      | some id => s.enter h (.active args id .chosen)
  | .next h =>
    match s.calls h with
    | .idle => s
    | .active args id phase => s.advance cfg l h args id phase

/-! ## A hart that is not disturbed -/

/-- A trapframe does not make a slot free or take it. -/
theorem CreateSys.free_setTf (s : CreateSys) (id : Fin maxAgents) (tf : Option TrapFrame)
    (i : Fin maxAgents) : ((s.setTf id tf).table.agents i).free = (s.table.agents i).free := by
  by_cases hi : i = id
  · rw [hi, CreateSys.setTf, Kernel.setAgent_agents, update_self]
    rfl
  · rw [CreateSys.setTf, Kernel.setAgent_agents, update_of_ne hi]

theorem CreateSys.setTf_self (s : CreateSys) (id : Fin maxAgents) (tf : Option TrapFrame) :
    ((s.setTf id tf).table.agents id).tf = tf := by
  rw [CreateSys.setTf, Kernel.setAgent_agents, update_self]

section Alone

variable {cfg : Config} {l : Layout} {s s' : CreateSys} {h : Fin maxHarts} {args : CreateArgs}
  {id : Fin maxAgents} {phase : CreatePhase}

/-- The call comes to the end of `agent_setup_stack` with this memory, and with a trapframe or
without. -/
def SetsUp (cfg : Config) (l : Layout) (h : Fin maxHarts) (args : CreateArgs) (id : Fin maxAgents)
    (s : CreateSys) (out : Bool × VmKernel) : Prop :=
  ∃ n stack s', Runs.run (CreateSys.step cfg l) s (List.replicate n (.next h)) = s' ∧
    s'.calls h = .active args id (.setUp stack) ∧ (s'.table.agents id).tf.isSome = out.1 ∧
    s'.mem = out.2

/-- At the end. -/
theorem SetsUp.done {stack : Option Nat} (hcall : s.calls h = .active args id (.setUp stack))
    {out : Bool × VmKernel} (htf : (s.table.agents id).tf.isSome = out.1) (hmem : s.mem = out.2) :
    SetsUp cfg l h args id s out := ⟨0, stack, s, rfl, hcall, htf, hmem⟩

/-- One step more. -/
theorem SetsUp.next (hcall : s.calls h = .active args id phase) {out : Bool × VmKernel}
    (hnext : SetsUp cfg l h args id (s.advance cfg l h args id phase) out) :
    SetsUp cfg l h args id s out := by
  obtain ⟨n, stack, s', hrun, hend⟩ := hnext
  refine ⟨n + 1, stack, s', ?_, hend⟩
  rw [List.replicate_succ, Runs.run_cons, CreateSys.step, hcall]
  exact hrun

theorem VmKernel.setAgent_setAgent (k : VmKernel) (id : Fin maxAgents) (a b : AgentVm) :
    (k.setAgent id a).setAgent id b = k.setAgent id b := by
  rw [VmKernel.setAgent, VmKernel.setAgent, VmKernel.setAgent, update_idem]

/-- From the page table on, where `k` is the memory with the stack allocated. -/
theorem setsUp_mapped {stack pt : Nat} {k : VmKernel} {vm : Vm}
    (hcall : s.calls h = .active args id (.mapped stack)) (htf : (s.table.agents id).tf = none)
    (hmem : s.mem = { k with vm := vm }.setAgent id { k.agents id with pagetable := some pt }) :
    SetsUp cfg l h args id s (finishStack l k id pt (0, vm)) := by
  have hvm : s.mem.vm = vm := by
    rw [hmem]
    rfl
  have hroot : (s.mem.agents id).pagetable = some pt := by
    rw [hmem, VmKernel.setAgent_self]
  have hset : ∀ vm', { s.mem with vm := vm' } =
      { k with vm := vm' }.setAgent id { k.agents id with pagetable := some pt } := by
    intro vm'
    rw [hmem]
    rfl
  refine .next hcall ?_
  -- named through equations, so that no check unfolds an allocation
  obtain ⟨tf, htf'⟩ : ∃ tf, kalloc l vm trapframeSize = tf := ⟨_, rfl⟩
  rw [CreateSys.advance, finishStack, hvm, htf']
  dsimp only
  rw [if_neg (not_not.mpr rfl)]
  by_cases hnone : tf.1 = 0
  · rw [if_pos hnone, if_pos hnone]
    refine .done (update_self ..) ?_ (hset tf.2)
    exact congrArg Option.isSome htf
  · rw [if_neg hnone, if_neg hnone]
    refine .done (update_self ..) ?_ ?_
    · exact congrArg Option.isSome (CreateSys.setTf_self ..)
    · show { s.mem with vm := tf.2 }.setAgent id (freshHeap id (s.mem.agents id).pagetable) = _
      rw [hset, hroot, VmKernel.setAgent_setAgent]

/-- From the stack on, for a slot without a page table. -/
theorem setsUp_stacked {stack : Nat} {k : VmKernel} {vm : Vm}
    (hcall : s.calls h = .active args id (.stacked stack)) (htf : (s.table.agents id).tf = none)
    (hnone : (k.agents id).pagetable = none) (hmem : s.mem = { k with vm := vm }) :
    SetsUp cfg l h args id s
      (match vmCreateAgentPt l vm with
      | (none, vm) => (false, { k with vm := vm })
      | (some pt, vm) => finishStack l k id pt (vmMapUserStack l vm pt id (pageUp stack))) := by
  have hvm : s.mem.vm = vm := by rw [hmem]
  have hset : ∀ vm' root, { s.mem with vm := vm' }.setAgent id { s.mem.agents id with pagetable := root } =
      { k with vm := vm' }.setAgent id { k.agents id with pagetable := root } := by
    intro vm' root
    rw [hmem]
  -- a page table that is taken back leaves the slot as it was
  have hback : ∀ vm', { k with vm := vm' }.setAgent id { k.agents id with pagetable := none } =
      { k with vm := vm' } := by
    intro vm'
    rw [← hnone, VmKernel.setAgent, update_eq_self]
  have hidle : (false, k).1 = ((s.table.agents id).tf.isSome) := by
    rw [htf]
    rfl
  refine .next hcall ?_
  obtain ⟨out, hout⟩ : ∃ out, vmCreateAgentPt l vm = out := ⟨_, rfl⟩
  rw [CreateSys.advance, hvm, hout]
  obtain ⟨_ | pt, vm₁⟩ := out
  · refine .done (update_self ..) hidle.symm ?_
    show { s.mem with vm := vm₁ }.setAgent id { s.mem.agents id with pagetable := none } = _
    rw [hset, hback]
  dsimp only
  obtain ⟨⟨rc, vm₂⟩, hmapped⟩ : ∃ mapped, vmMapUserStack l vm₁ pt id (pageUp stack) = mapped := ⟨_, rfl⟩
  rw [hmapped]
  by_cases hrc : rc ≠ 0
  · rw [if_pos hrc]
    rw [finishStack, if_pos hrc]
    refine .done (update_self ..) hidle.symm ?_
    show { s.mem with vm := vm₂ }.setAgent id { s.mem.agents id with pagetable := none } = _
    rw [hset, hback]
  · obtain rfl := not_not.mp hrc
    rw [if_neg hrc]
    exact setsUp_mapped (update_self ..) htf (hset vm₂ (some pt))

/-- From the guard page on. -/
theorem setsUp_guarded {k : VmKernel} {vm : Vm} {stack : Nat × Vm}
    (hcall : s.calls h = .active args id .guarded) (htf : (s.table.agents id).tf = none)
    (hnone : (k.agents id).pagetable = none) (hmem : s.mem = { k with vm := vm })
    (hstack : kalloc l vm agentStackSize = stack) :
    SetsUp cfg l h args id s
      (if stack.1 = 0 then (false, { k with vm := stack.2 })
      else
        match vmCreateAgentPt l stack.2 with
        | (none, vm) => (false, { k with vm := vm })
        | (some pt, vm) => finishStack l k id pt (vmMapUserStack l vm pt id (pageUp stack.1))) := by
  have hvm : s.mem.vm = vm := by rw [hmem]
  have hset : ∀ vm', { s.mem with vm := vm' } = { k with vm := vm' } := by
    intro vm'
    rw [hmem]
  refine .next hcall ?_
  rw [CreateSys.advance, hvm, hstack]
  by_cases hzero : stack.1 = 0
  · rw [if_pos hzero, if_pos hzero]
    exact .done (update_self ..) (congrArg Option.isSome htf) (hset stack.2)
  · rw [if_neg hzero, if_neg hzero]
    exact setsUp_stacked (update_self ..) htf hnone (hset stack.2)

/-- **A hart that is not disturbed** does what `agent_setup_stack` does. -/
theorem setup_alone (hcall : s.calls h = .active args id .chosen) :
    SetsUp cfg l h args id s (agentSetupStack l s.mem id) := by
  have htf := s.setTf_self id none
  have hvm : ((s.setTf id none).setRoot id none).mem.vm = s.mem.vm := rfl
  obtain ⟨k, hk, hnone⟩ : ∃ k, s.mem.setAgent id { s.mem.agents id with pagetable := none } = k ∧
      (k.agents id).pagetable = none := by
    refine ⟨_, rfl, ?_⟩
    rw [VmKernel.setAgent_self]
  refine .next hcall ?_
  have hkvm : k.vm = s.mem.vm := by
    rw [← hk, VmKernel.setAgent_vm]
  obtain ⟨page, hguard⟩ : ∃ page, kallocPage l s.mem.vm = page := ⟨_, rfl⟩
  rw [CreateSys.advance, agentSetupStack, hvm, hk, hkvm, hguard]
  dsimp only
  by_cases hpage : page.1 = 0
  · rw [if_pos hpage, if_pos hpage]
    refine .done (update_self ..) (congrArg Option.isSome htf) ?_
    show { s.mem.setAgent id { s.mem.agents id with pagetable := none } with vm := page.2 } = _
    rw [hk]
  · rw [if_neg hpage, if_neg hpage]
    obtain ⟨stack, hstack⟩ : ∃ stack, kalloc l page.2 agentStackSize = stack := ⟨_, rfl⟩
    rw [hstack]
    refine setsUp_guarded (update_self ..) htf hnone ?_ hstack
    show { s.mem.setAgent id { s.mem.agents id with pagetable := none } with vm := page.2 } = _
    rw [hk]

end Alone

/-! ## What is wanted -/

/-- The pages that are mapped for a stack at this address (agent.c:81). -/
def stackPages (stack : Nat) : Span := ⟨pageUp stack, agentStackSize⟩

/-- New agents have different ids. Each has a stack, whose pages lie inside the block that was
allocated for it and meet no other block. -/
structure SafelyCreated (s : CreateSys) : Prop where
  ids : (s.created.map Created.id).Nodup
  ownStacks : ∀ c ∈ s.created, ∃ stack, c.stack = some stack ∧
    (∀ a, (stackPages stack).Covers a → Span.Covers ⟨stack, agentStackSize⟩ a) ∧
    ∀ b ∈ s.allocs, b ≠ ⟨stack, agentStackSize⟩ → ∀ a, (stackPages stack).Covers a → ¬ b.Covers a

/-- No call is under way, none has succeeded yet, and blocks lie below the end of the heap. -/
structure CreateSys.Quiet (s : CreateSys) : Prop where
  calls : ∀ h, s.calls h = .idle
  created : s.created = []
  below : ∀ b ∈ s.allocs, b.start + b.len ≤ s.mem.vm.heapPtr

/-- A call starts only when no other is under way. -/
def CreateEvent.Alone (s : CreateSys) : CreateEvent → Prop
  | .call _ _ => ∀ h, s.calls h = .idle
  | .next _ => True

/-! ## The kernel heap -/

section Heap

variable {l : Layout} {vm : Vm} {size : Nat}

/-- A block that `kalloc` has handed out. -/
theorem kalloc_pos (h : (kalloc l vm size).1 ≠ 0) :
    (kalloc l vm size).1 = vm.heapPtr ∧ vm.heapPtr + size ≤ (kalloc l vm size).2.heapPtr ∧
      (kalloc l vm size).2.heapPtr ≤ l.heapStart + heapSize := by
  simp only [kalloc] at h ⊢
  by_cases hfull : l.heapStart + heapSize < vm.heapPtr + (size + 15) / 16 * 16
  · rw [if_pos hfull] at h
    exact absurd rfl h
  · rw [if_neg hfull]
    refine ⟨rfl, ?_, Nat.not_lt.mp hfull⟩
    show vm.heapPtr + size ≤ vm.heapPtr + (size + 15) / 16 * 16
    omega

theorem heapPtr_le_kalloc (l : Layout) (vm : Vm) (size : Nat) :
    vm.heapPtr ≤ (kalloc l vm size).2.heapPtr := by
  simp only [kalloc]
  split_ifs
  · exact Nat.le_refl _
  · exact Nat.le_add_right _ _

theorem heapPtr_le_kallocPage (l : Layout) (vm : Vm) : vm.heapPtr ≤ (kallocPage l vm).2.heapPtr := by
  obtain ⟨heapPtr, hle, heq⟩ := kallocPage_le l vm
  rw [heq]
  exact hle

/-- Tables do not come from the heap. -/
theorem walkFrom_heapPtr (l : Layout) (alloc : Bool) (va n : Nat) :
    ∀ vm pt, (walkFrom l alloc va n vm pt).2.heapPtr = vm.heapPtr := by
  induction n with
  | zero => exact fun _ _ => rfl
  | succ n ih =>
    intro vm pt
    rw [walkFrom, walkLevel]
    split_ifs
    · exact ih _ _
    · rw [ptAlloc]
      split_ifs
      · rfl
      · exact ih _ _
    · rfl

theorem vmMapPage_heapPtr (l : Layout) (vm : Vm) (pt va pa perm : Nat) :
    (vmMapPage l vm pt va pa perm).2.heapPtr = vm.heapPtr := by
  have hwalk := walkFrom_heapPtr l true va 2 vm pt
  rw [vmMapPage]
  split_ifs
  · rfl
  · rw [vmWalk]
    rcases hout : walkFrom l true va 2 vm pt with ⟨_ | ⟨table, i⟩, vm'⟩
    · rw [hout] at hwalk
      exact hwalk
    · rw [hout] at hwalk
      dsimp only
      split_ifs
      · exact hwalk
      · exact hwalk

theorem vmMapPages_heapPtr (l : Layout) (pt perm n : Nat) :
    ∀ va pa vm, (vmMapPages l pt perm n va pa vm).2.heapPtr = vm.heapPtr := by
  induction n with
  | zero => exact fun _ _ _ => rfl
  | succ n ih =>
    intro va pa vm
    rw [vmMapPages]
    have hpage := vmMapPage_heapPtr l vm pt va pa perm
    split_ifs
    · exact hpage
    · exact (ih _ _ _).trans hpage

theorem vmMapUserStack_heapPtr (l : Layout) (vm : Vm) (pt : Nat) (id : Fin maxAgents) (pa : Nat) :
    (vmMapUserStack l vm pt id pa).2.heapPtr = vm.heapPtr := by
  rw [vmMapUserStack, vmMapRegion]
  exact vmMapPages_heapPtr ..

theorem vmCreateAgentPt_heapPtr (l : Layout) (vm : Vm) :
    (vmCreateAgentPt l vm).2.heapPtr = vm.heapPtr := by
  rw [vmCreateAgentPt, ptAlloc]
  split_ifs
  · rfl
  · rfl

end Heap

/-! ## Stacks that are alone in their block -/

/-- The stack starts at a page, ends below the end of the heap, and no other block reaches into
it. -/
structure OwnStack (s : CreateSys) (stack : Nat) : Prop where
  aligned : pageUp stack = stack
  below : stack + agentStackSize ≤ s.mem.vm.heapPtr
  apart : ∀ b ∈ s.allocs, b = ⟨stack, agentStackSize⟩ ∨ b.start + b.len ≤ stack ∨
    stack + agentStackSize ≤ b.start

/-- Nothing was allocated, or one block behind the end of the heap. -/
def HeapGrows (s s' : CreateSys) : Prop :=
  s.mem.vm.heapPtr ≤ s'.mem.vm.heapPtr ∧ (s'.allocs = s.allocs ∨ ∃ b : Span,
    s'.allocs = b :: s.allocs ∧ s.mem.vm.heapPtr ≤ b.start ∧ b.start + b.len ≤ s'.mem.vm.heapPtr)

theorem OwnStack.mono {s s' : CreateSys} {stack : Nat} (h : OwnStack s stack) (hgrows : HeapGrows s s') :
    OwnStack s' stack := by
  obtain ⟨hle, hsame | ⟨b, hcons, hstart, -⟩⟩ := hgrows
  · refine ⟨h.aligned, Nat.le_trans h.below hle, ?_⟩
    rw [hsame]
    exact h.apart
  · refine ⟨h.aligned, Nat.le_trans h.below hle, ?_⟩
    rw [hcons, List.forall_mem_cons]
    exact ⟨.inr (.inr (Nat.le_trans h.below hstart)), h.apart⟩

/-- The pages of such a stack. -/
theorem OwnStack.pages {s : CreateSys} {stack : Nat} (h : OwnStack s stack) :
    (∀ a, (stackPages stack).Covers a → Span.Covers ⟨stack, agentStackSize⟩ a) ∧
      ∀ b ∈ s.allocs, b ≠ ⟨stack, agentStackSize⟩ → ∀ a, (stackPages stack).Covers a →
        ¬ b.Covers a := by
  rw [stackPages, h.aligned]
  refine ⟨fun _ ha => ha, fun b hb hne a ha hba => ?_⟩
  obtain ⟨hlo, hhi⟩ := ha
  obtain ⟨hblo, hbhi⟩ := hba
  rcases h.apart b hb with heq | hbefore | hbehind
  · exact hne heq
  · dsimp only at hlo
    omega
  · dsimp only at hhi
    omega

/-! ## The invariant -/

/-- What a call knows at each point: the slot has no trapframe before the last allocation, the guard
page has left the heap at a page boundary, and the stack is its own. -/
def PhaseOk (s : CreateSys) (id : Fin maxAgents) : CreatePhase → Prop
  | .chosen => True
  | .guarded => (s.table.agents id).tf = none ∧ s.mem.vm.heapPtr % pageSize = 0
  | .stacked stack => (s.table.agents id).tf = none ∧ OwnStack s stack
  | .mapped stack => (s.table.agents id).tf = none ∧ OwnStack s stack
  | .setUp none => (s.table.agents id).tf = none
  | .setUp (some stack) => OwnStack s stack

/-- At most one call is under way. Its slot is free, and the slots of new agents are not. -/
structure CreateInv (s : CreateSys) : Prop where
  alone : ∀ h h', s.calls h ≠ .idle → s.calls h' ≠ .idle → h = h'
  below : ∀ b ∈ s.allocs, b.start + b.len ≤ s.mem.vm.heapPtr
  active : ∀ h args id phase, s.calls h = .active args id phase →
    (s.table.agents id).free = true ∧ PhaseOk s id phase
  taken : ∀ c ∈ s.created, (s.table.agents c.id).free = false ∧
    ∃ stack, c.stack = some stack ∧ OwnStack s stack
  ids : (s.created.map Created.id).Nodup

theorem CreateSys.Quiet.createInv {s : CreateSys} (h : s.Quiet) : CreateInv s where
  alone h₁ _ hne := absurd (h.calls h₁) hne
  below := h.below
  active h₁ args id phase heq := by
    rw [h.calls h₁] at heq
    exact absurd heq nofun
  taken c hc := by
    rw [h.created] at hc
    exact absurd hc List.not_mem_nil
  ids := by
    rw [h.created]
    exact List.nodup_nil

theorem CreateInv.safelyCreated {s : CreateSys} (hinv : CreateInv s) : SafelyCreated s where
  ids := hinv.ids
  ownStacks c hc := by
    obtain ⟨-, stack, hstack, hown⟩ := hinv.taken c hc
    exact ⟨stack, hstack, hown.pages⟩

theorem HeapGrows.below {s s' : CreateSys} (hgrows : HeapGrows s s')
    (h : ∀ b ∈ s.allocs, b.start + b.len ≤ s.mem.vm.heapPtr) :
    ∀ b ∈ s'.allocs, b.start + b.len ≤ s'.mem.vm.heapPtr := by
  obtain ⟨hle, hsame | ⟨b, hcons, -, hend⟩⟩ := hgrows
  · rw [hsame]
    exact fun b hb => Nat.le_trans (h b hb) hle
  · rw [hcons, List.forall_mem_cons]
    exact ⟨hend, fun b hb => Nat.le_trans (h b hb) hle⟩

section Step

variable {cfg : Config} {l : Layout} {s s' : CreateSys} {h : Fin maxHarts} {args : CreateArgs}
  {id : Fin maxAgents} {phase : CreatePhase} (hinv : CreateInv s)

include hinv

/-- The other harts have nothing to do. -/
theorem CreateInv.others_idle (hcall : s.calls h = .active args id phase) {h' : Fin maxHarts}
    (hne : h' ≠ h) : s.calls h' = .idle := by
  by_contra hbusy
  exact hne (hinv.alone h' h hbusy (by rw [hcall]; exact nofun))

/-- **The call goes on**: hart `h` is at the next point, and slots are free as before. -/
theorem CreateInv.go_on (hothers : ∀ h', h' ≠ h → s.calls h' = .idle) {call : CreateCall}
    (hcalls : s'.calls = update s.calls h call) (hgrows : HeapGrows s s')
    (hcreated : s'.created = s.created)
    (hfree : ∀ i, (s'.table.agents i).free = (s.table.agents i).free)
    (hphase : ∀ args id phase, call = .active args id phase →
      (s.table.agents id).free = true ∧ PhaseOk s' id phase) : CreateInv s' := by
  have hidle : ∀ h', h' ≠ h → s'.calls h' = .idle := fun h' hne => by
    rw [hcalls, update_of_ne hne, hothers h' hne]
  refine ⟨fun h₁ h₂ h₁busy h₂busy => ?_, hgrows.below hinv.below, fun h' args' id' phase' heq => ?_,
    fun c hc => ?_, ?_⟩
  · by_contra hne
    by_cases hh : h₁ = h
    · exact h₂busy (hidle h₂ fun hh' => hne (hh.trans hh'.symm))
    · exact h₁busy (hidle h₁ hh)
  · by_cases hh : h' = h
    · rw [hcalls, hh, update_self] at heq
      rw [hfree]
      exact hphase args' id' phase' heq
    · rw [hidle h' hh] at heq
      exact absurd heq nofun
  · rw [hcreated] at hc
    obtain ⟨hbusy, stack, hstack, hown⟩ := hinv.taken c hc
    rw [hfree]
    exact ⟨hbusy, stack, hstack, hown.mono hgrows⟩
  · rw [hcreated]
    exact hinv.ids

variable (hcall : s.calls h = .active args id phase)

include hcall

/-- The slot of a call is free. -/
theorem CreateInv.slot_free : (s.table.agents id).free = true := (hinv.active h args id phase hcall).1

/-- Hart `h` goes on with its call, and the slots are free as before. -/
theorem CreateInv.go_on_active (phase' : CreatePhase)
    (hcalls : s'.calls = update s.calls h (.active args id phase')) (hgrows : HeapGrows s s')
    (hcreated : s'.created = s.created)
    (hfree : ∀ i, (s'.table.agents i).free = (s.table.agents i).free) (hphase : PhaseOk s' id phase') :
    CreateInv s' := by
  refine hinv.go_on (fun _ hne => hinv.others_idle hcall hne) hcalls hgrows hcreated hfree ?_
  rintro _ _ _ ⟨rfl, rfl, rfl⟩
  exact ⟨hinv.slot_free hcall, hphase⟩

/-- Hart `h` returns without an agent. -/
theorem CreateInv.give_up : CreateInv (s.enter h .idle) :=
  hinv.go_on (fun _ hne => hinv.others_idle hcall hne) rfl ⟨Nat.le_refl _, .inl rfl⟩ rfl
    (fun _ => rfl) nofun

end Step

section Advance

variable {cfg : Config} {l : Layout} {s : CreateSys} {h : Fin maxHarts} {args : CreateArgs}
  {id : Fin maxAgents} (hinv : CreateInv s)

include hinv

/-- The guard page. -/
theorem CreateInv.advance_chosen (hcall : s.calls h = .active args id .chosen) :
    CreateInv (s.advance cfg l h args id .chosen) := by
  have hfree := s.free_setTf id none
  have htf := s.setTf_self id none
  have hle := heapPtr_le_kallocPage l s.mem.vm
  have hpos := @kallocPage_pos l s.mem.vm
  have hvm : ((s.setTf id none).setRoot id none).mem.vm = s.mem.vm := rfl
  obtain ⟨page, hguard⟩ : ∃ page, kallocPage l s.mem.vm = page := ⟨_, rfl⟩
  rw [CreateSys.advance, hvm, hguard]
  rw [hguard] at hle hpos
  by_cases hpage : page.1 = 0
  · rw [if_pos hpage]
    exact hinv.go_on_active hcall (.setUp none) rfl ⟨hle, .inl rfl⟩ rfl hfree htf
  · obtain ⟨haligned, hstart, heq⟩ := hpos hpage
    have hend : page.2.heapPtr = page.1 + pageSize := by
      rw [heq]
      rfl
    rw [if_neg hpage]
    refine hinv.go_on_active hcall .guarded rfl ⟨hle, .inr ⟨_, rfl, hstart, hend.symm.le⟩⟩ rfl hfree
      ⟨htf, ?_⟩
    show page.2.heapPtr % pageSize = 0
    rw [hend, Nat.add_mod_right, haligned]

/-- The stack, at the page boundary where the guard page has ended. -/
theorem CreateInv.advance_guarded (hheap : l.heapStart + heapSize ≤ 2 ^ 64)
    (hcall : s.calls h = .active args id .guarded) :
    CreateInv (s.advance cfg l h args id .guarded) := by
  obtain ⟨htf, haligned⟩ := (hinv.active h args id _ hcall).2
  have hle := heapPtr_le_kalloc l s.mem.vm agentStackSize
  have hpos := @kalloc_pos l s.mem.vm agentStackSize
  obtain ⟨stack, hout⟩ : ∃ stack, kalloc l s.mem.vm agentStackSize = stack := ⟨_, rfl⟩
  rw [CreateSys.advance, hout]
  rw [hout] at hle hpos
  by_cases hstack : stack.1 = 0
  · rw [if_pos hstack]
    exact hinv.go_on_active hcall (.setUp none) rfl ⟨hle, .inl rfl⟩ rfl (fun _ => rfl) htf
  · obtain ⟨hstart, hend, hlimit⟩ := hpos hstack
    rw [if_neg hstack, hstart]
    have hup : pageUp s.mem.vm.heapPtr = s.mem.vm.heapPtr := by
      rw [pageUp, pageDown]
      simp only [pageSize, agentStackSize] at haligned hend ⊢
      omega
    refine hinv.go_on_active hcall (.stacked s.mem.vm.heapPtr) rfl
      ⟨hle, .inr ⟨_, rfl, Nat.le_refl _, hend⟩⟩ rfl (fun _ => rfl) ⟨htf, hup, hend, ?_⟩
    exact List.forall_mem_cons.mpr ⟨.inl rfl, fun b hb => .inr (.inl (hinv.below b hb))⟩

/-- The page table is changed, but not the heap. -/
theorem CreateInv.new_root {stack : Nat} (hcall : s.calls h = .active args id (.stacked stack))
    {vm : Vm} (hvm : vm.heapPtr = s.mem.vm.heapPtr) (root : Option Nat) {phase : CreatePhase}
    (hphase : phase = .setUp none ∨ phase = .mapped stack) :
    CreateInv (((s.setVm vm).setRoot id root).enter h (.active args id phase)) := by
  obtain ⟨htf, hown⟩ := (hinv.active h args id _ hcall).2
  have hgrows : HeapGrows s (((s.setVm vm).setRoot id root).enter h (.active args id phase)) :=
    ⟨hvm.symm.le, .inl rfl⟩
  refine hinv.go_on_active hcall phase rfl hgrows rfl (fun _ => rfl) ?_
  rcases hphase with rfl | rfl
  · exact htf
  · exact ⟨htf, hown.mono hgrows⟩

/-- The page table. -/
theorem CreateInv.advance_stacked {stack : Nat}
    (hcall : s.calls h = .active args id (.stacked stack)) :
    CreateInv (s.advance cfg l h args id (.stacked stack)) := by
  have hroot := vmCreateAgentPt_heapPtr l s.mem.vm
  obtain ⟨out, hout⟩ : ∃ out, vmCreateAgentPt l s.mem.vm = out := ⟨_, rfl⟩
  rw [CreateSys.advance, hout]
  rw [hout] at hroot
  obtain ⟨_ | pt, vm⟩ := out
  · exact hinv.new_root hcall hroot none (.inl rfl)
  · have hmap := (vmMapUserStack_heapPtr l vm pt id (pageUp stack)).trans hroot
    dsimp only
    split_ifs
    · exact hinv.new_root hcall hmap none (.inl rfl)
    · exact hinv.new_root hcall hmap (some pt) (.inr rfl)

/-- The trapframe. -/
theorem CreateInv.advance_mapped {stack : Nat} (hcall : s.calls h = .active args id (.mapped stack)) :
    CreateInv (s.advance cfg l h args id (.mapped stack)) := by
  obtain ⟨-, hown⟩ := (hinv.active h args id _ hcall).2
  have hle := heapPtr_le_kalloc l s.mem.vm trapframeSize
  have hpos := @kalloc_pos l s.mem.vm trapframeSize
  obtain ⟨tf, hout⟩ : ∃ tf, kalloc l s.mem.vm trapframeSize = tf := ⟨_, rfl⟩
  rw [CreateSys.advance, hout]
  rw [hout] at hle hpos
  by_cases htf : tf.1 = 0
  · rw [if_pos htf]
    exact hinv.go_on_active hcall (.setUp (some stack)) rfl ⟨hle, .inl rfl⟩ rfl (fun _ => rfl)
      (hown.mono ⟨hle, .inl rfl⟩)
  · obtain ⟨hstart, hend, -⟩ := hpos htf
    rw [if_neg htf, hstart]
    have hgrows : HeapGrows s (((((s.setVm tf.2).took ⟨s.mem.vm.heapPtr, trapframeSize⟩).setTf id
        (some (newTrapframe id args.entry args.gp))).setHeapFields id).enter h
        (.active args id (.setUp (some stack)))) :=
      ⟨hle, .inr ⟨_, rfl, Nat.le_refl _, hend⟩⟩
    exact hinv.go_on_active hcall (.setUp (some stack)) rfl hgrows rfl (s.free_setTf id _)
      (hown.mono hgrows)

/-- **A new agent.** The slot was free, so no agent has got it before. -/
theorem CreateInv.advance_setUp {stack : Option Nat}
    (hcall : s.calls h = .active args id (.setUp stack)) :
    CreateInv (s.advance cfg l h args id (.setUp stack)) := by
  obtain ⟨hslot, hphase⟩ := hinv.active h args id _ hcall
  rw [CreateSys.advance]
  by_cases htf : (s.table.agents id).tf = none
  · rw [if_pos htf]
    exact hinv.give_up hcall
  rw [if_neg htf]
  split
  · obtain ⟨stack, rfl⟩ : ∃ p, stack = some p := by
      cases stack with
      | none => exact absurd hphase htf
      | some p => exact ⟨p, rfl⟩
    have hidle : ∀ h', ((s.publish cfg args id (some stack)).enter h .idle).calls h' = .idle := by
      intro h'
      by_cases hh : h' = h
      · rw [hh]
        exact update_self ..
      · exact (update_of_ne hh _ _).trans (hinv.others_idle hcall hh)
    have hnew : ∀ c ∈ s.created, c.id ≠ id := by
      rintro c hc rfl
      rw [(hinv.taken c hc).1] at hslot
      exact absurd hslot nofun
    have hgrows : HeapGrows s ((s.publish cfg args id (some stack)).enter h .idle) :=
      ⟨Nat.le_refl _, .inl rfl⟩
    refine ⟨fun h₁ _ hbusy => absurd (hidle h₁) hbusy, hinv.below,
      fun h' args' id' phase' heq => ?_, List.forall_mem_cons.mpr ⟨⟨?_, stack, rfl, hphase.mono hgrows⟩,
        fun c hc => ?_⟩, ?_⟩
    · rw [hidle h'] at heq
      exact absurd heq nofun
    · show (update s.table.agents id _ id).free = false
      rw [update_self]
      rfl
    · obtain ⟨hbusy, p, hp, hown⟩ := hinv.taken c hc
      refine ⟨?_, p, hp, hown.mono hgrows⟩
      show (update s.table.agents id _ c.id).free = false
      rw [update_of_ne (hnew c hc)]
      exact hbusy
    · show ((⟨id, some stack⟩ :: s.created : List Created).map Created.id).Nodup
      refine List.nodup_cons.mpr ⟨fun hmem => ?_, hinv.ids⟩
      obtain ⟨c, hc, hid⟩ := List.mem_map.mp hmem
      exact hnew c hc hid
  · exact hinv.give_up hcall

/-- A call starts where none is under way. -/
theorem CreateInv.start_call (hidle : ∀ h', s.calls h' = .idle) (h : Fin maxHarts) (args : CreateArgs) :
    CreateInv (s.step cfg l (.call h args)) := by
  rw [CreateSys.step]
  split_ifs
  · exact hinv
  · exact hinv
  · exact hinv
  cases hslot : agentAllocId s.table with
  | none => exact hinv
  | some id =>
    have hfree : (s.table.agents id).free = true := by
      have hfound := List.find?_some hslot
      rw [Bool.and_eq_true] at hfound
      exact hfound.2
    refine hinv.go_on (fun h' _ => hidle h') rfl ⟨Nat.le_refl _, .inl rfl⟩ rfl (fun _ => rfl) ?_
    rintro _ _ _ ⟨rfl, rfl, rfl⟩
    exact ⟨hfree, trivial⟩

/-- **One step.** -/
theorem createInv_step (hheap : l.heapStart + heapSize ≤ 2 ^ 64) {e : CreateEvent} (he : e.Alone s) :
    CreateInv (s.step cfg l e) := by
  cases e with
  | call h args => exact hinv.start_call he h args
  | next h =>
    rw [CreateSys.step]
    cases hcall : s.calls h with
    | idle => exact hinv
    | active args id phase =>
      cases phase with
      | chosen => exact hinv.advance_chosen hcall
      | guarded => exact hinv.advance_guarded hheap hcall
      | stacked stack => exact hinv.advance_stacked hcall
      | mapped stack => exact hinv.advance_mapped hcall
      | setUp stack => exact hinv.advance_setUp hcall

end Advance

/-! ## Runs -/

/-- **Runs of calls that do not overlap.** From a state where no call is under way: if each call
starts when no other one is under way, then new agents have different ids and stacks of their own. -/
theorem safelyCreated_run (cfg : Config) {l : Layout} (hheap : l.heapStart + heapSize ≤ 2 ^ 64)
    {s : CreateSys} (hquiet : s.Quiet) {es : List CreateEvent}
    (hes : Runs.Along (CreateSys.step cfg l) CreateEvent.Alone s es) :
    SafelyCreated (Runs.run (CreateSys.step cfg l) s es) := by
  have hinv : CreateInv (Runs.run (CreateSys.step cfg l) s es) :=
    Runs.Along.invariant (P := CreateInv) (fun _ _ he hinv => createInv_step hinv hheap he)
      hquiet.createInv hes
  exact hinv.safelyCreated

instance (s : CreateSys) (e : CreateEvent) : Decidable (e.Alone s) :=
  match e with
  | .call _ _ => inferInstanceAs (Decidable (∀ h, s.calls h = .idle))
  | .next _ => .isTrue trivial

/-- Agent 1 runs and may create others. -/
def createStart : CreateSys where
  table := ⟨fun i => ⟨if i = 1 then .running else .unused, none, if i = 1 then capSpawn else 0,
    blankBox, 0, none⟩, fun _ => 0⟩
  mem := virtKernel
  calls := fun _ => .idle
  allocs := []
  created := []

theorem quiet_createStart : createStart.Quiet := ⟨fun _ => rfl, rfl, nofun⟩

/-- An agent with a name. -/
def createArgs : CreateArgs := ⟨1, 0x80400000, 0, 0, .text [97]⟩

/-- Hart 0 creates an agent, and then hart 1. -/
def createApart : List CreateEvent :=
  .call 0 createArgs :: List.replicate 5 (.next 0) ++ .call 1 createArgs :: List.replicate 5 (.next 1)

theorem safelyCreated_run_apart :
    SafelyCreated (Runs.run (CreateSys.step twoHarts virtLayout) createStart createApart) ∧
      (Runs.run (CreateSys.step twoHarts virtLayout) createStart createApart).created.map Created.id =
        [3, 2] :=
  ⟨safelyCreated_run twoHarts (by decide +kernel) quiet_createStart (by decide +kernel),
    by decide +kernel⟩

/-- Hart 1 creates an agent while hart 0 is about to write the state of its own. -/
def createSameSlot : List CreateEvent :=
  .call 0 createArgs :: List.replicate 4 (CreateEvent.next 0) ++
    CreateEvent.call 1 createArgs :: List.replicate 5 (CreateEvent.next 1) ++ [CreateEvent.next 0]

/-- Hart 1 allocates a trapframe between the guard page and the stack of hart 0. -/
def createBetween : List CreateEvent :=
  [CreateEvent.call 0 createArgs, .next 0, .call 1 createArgs] ++
    List.replicate 4 (CreateEvent.next 1) ++ List.replicate 4 (CreateEvent.next 0)

/-- **Calls that overlap.** Both return slot 2, or the pages of a stack reach over the end of the block
that was allocated for it, into memory that the next allocation will get. -/
theorem not_safelyCreated_overlap : createStart.Quiet ∧
    (Runs.run (CreateSys.step twoHarts virtLayout) createStart createSameSlot).created.map Created.id =
      [2, 2] ∧
    ∃ stack, (Runs.run (CreateSys.step twoHarts virtLayout) createStart createBetween).created.map
        Created.stack = [some stack] ∧
      ∃ a, (stackPages stack).Covers a ∧ ¬ Span.Covers ⟨stack, agentStackSize⟩ a := by
  refine ⟨quiet_createStart, by decide +kernel, ?_⟩
  obtain ⟨stack, hstack⟩ : ∃ stack, (Runs.run (CreateSys.step twoHarts virtLayout) createStart
      createBetween).created.map Created.stack = [some stack] ∧ stack % pageSize = 272 ∧
      stack < 2 ^ 63 := ⟨_, rfl, by decide +kernel, by decide +kernel⟩
  refine ⟨stack, hstack.1, stack + agentStackSize, ?_, fun h => Nat.lt_irrefl _ h.2⟩
  obtain ⟨-, hmod, hlt⟩ := hstack
  rw [stackPages, Span.Covers]
  simp only [pageUp, pageDown, pageSize, agentStackSize] at hmod ⊢
  omega

end OpenAgentOS
