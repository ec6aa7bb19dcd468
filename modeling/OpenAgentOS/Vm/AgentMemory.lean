import OpenAgentOS.Lib.Bytes
import OpenAgentOS.Vm.Sv39

/-!
# The memory of agents (kernel/agent.c, elfload.c, and the heap part of vm.c)

Creating or loading an agent gives it a copy of the kernel's root table and maps
its stack; loading maps the segments of an ELF file as well. Afterwards the agent
maps heap pages, by a system call or by faulting on them, and can alias two of
them copy-on-write.

- `VmKernel`: page tables together with what `struct agent` says about memory.
- `VmOp`, `VmKernel.step`, `VmKernel.run`: the operations, and runs of them.
- `Isolated`: a step of one agent does not change where an address leads in the
  page table of another agent or of the kernel.
-/

namespace OpenAgentOS

/-- `AGENT_STACK_SIZE`. -/
abbrev agentStackSize : Nat := 8192

/-- `USER_STACK_BASE`. -/
abbrev userStackBase : Nat := 0x40000000

/-- `USER_STACK_SLOT`. -/
abbrev userStackSlot : Nat := agentStackSize + 4096

/-- `USER_HEAP_BASE`. -/
abbrev userHeapBase : Nat := 0x60000000

/-- `AGENT_HEAP_SIZE`. -/
abbrev agentHeapSize : Nat := 16 * pageSize

/-- `sizeof(struct trapframe)`. -/
abbrev trapframeSize : Nat := 33 * 8

/-- The fields of `struct agent` that describe its memory. -/
structure AgentVm where
  pagetable : Option Nat
  heapBase : Nat
  heapMaxPages : Nat
  heapMapped : Nat

structure VmKernel where
  vm : Vm
  agents : Fin maxAgents → AgentVm

/-- Replace the memory of one agent. -/
def VmKernel.setAgent (k : VmKernel) (id : Fin maxAgents) (a : AgentVm) : VmKernel :=
  { k with agents := Function.update k.agents id a }

@[simp] theorem VmKernel.setAgent_vm (k : VmKernel) (id : Fin maxAgents) (a : AgentVm) :
    (k.setAgent id a).vm = k.vm := rfl

@[simp] theorem VmKernel.setAgent_self (k : VmKernel) (id : Fin maxAgents) (a : AgentVm) :
    (k.setAgent id a).agents id = a := Function.update_self ..

theorem VmKernel.setAgent_of_ne (k : VmKernel) {id b : Fin maxAgents} (h : b ≠ id) (a : AgentVm) :
    (k.setAgent id a).agents b = k.agents b := Function.update_of_ne h _ _

/-- The machine after `vm_init`, before any agent exists. -/
def vmBoot (l : Layout) (mem : Nat → Fin 512 → Nat) : VmKernel where
  vm := vmInit l mem
  agents := fun _ => ⟨none, 0, 0, 0⟩

/-! ## Stacks -/

/-- `vm_map_user_stack` (vm.c:317). -/
def vmMapUserStack (l : Layout) (vm : Vm) (pt : Nat) (id : Fin maxAgents) (stackPa : Nat) :
    Int × Vm :=
  vmMapRegion l vm pt (userStackBase + id * userStackSlot + pageSize) stackPa agentStackSize
    (pteU ||| pteR ||| pteW)

/-- The heap fields of a new agent. -/
def freshHeap (id : Fin maxAgents) (pagetable : Option Nat) : AgentVm where
  pagetable := pagetable
  heapBase := userHeapBase + id * agentHeapSize
  heapMaxPages := agentHeapSize / pageSize
  heapMapped := 0

/-- The end of `agent_setup_stack`: the trapframe, after `vm_map_user_stack`
returned `mapped`. -/
def finishStack (l : Layout) (k : VmKernel) (id : Fin maxAgents) (pt : Nat) (mapped : Int × Vm) :
    Bool × VmKernel :=
  let tf := kalloc l mapped.2 trapframeSize
  if mapped.1 ≠ 0 then (false, { k with vm := mapped.2 })
  else if tf.1 = 0 then
    (false, { k with vm := tf.2 }.setAgent id { k.agents id with pagetable := some pt })
  else (true, { k with vm := tf.2 }.setAgent id (freshHeap id (some pt)))

/-- `agent_setup_stack` (agent.c:69); the flag says whether `a->tf` was set. -/
def agentSetupStack (l : Layout) (k : VmKernel) (id : Fin maxAgents) : Bool × VmKernel :=
  let k := k.setAgent id { k.agents id with pagetable := none }
  let guard := kallocPage l k.vm
  if guard.1 = 0 then (false, { k with vm := guard.2 })
  else
    let stack := kalloc l guard.2 agentStackSize
    if stack.1 = 0 then (false, { k with vm := stack.2 })
    else
      match vmCreateAgentPt l stack.2 with
      | (none, vm) => (false, { k with vm := vm })
      | (some pt, vm) => finishStack l k id pt (vmMapUserStack l vm pt id (pageUp stack.1))

/-- The end of `agent_setup_loaded`. Unlike `agent_setup_stack` it keeps the new
page table if the stack could not be mapped. -/
def finishLoaded (l : Layout) (k : VmKernel) (id : Fin maxAgents) (pt : Nat)
    (mapped : Int × Vm) : Int × VmKernel :=
  let tf := kalloc l mapped.2 trapframeSize
  if mapped.1 ≠ 0 then
    (enospc, { k with vm := mapped.2 }.setAgent id { k.agents id with pagetable := some pt })
  else if tf.1 = 0 then
    (enospc, { k with vm := tf.2 }.setAgent id { k.agents id with pagetable := some pt })
  else (0, { k with vm := tf.2 }.setAgent id (freshHeap id (some pt)))

/-- `agent_setup_loaded` (elfload.c:153). The old page table stays in place until
there is a new one. -/
def agentSetupLoaded (l : Layout) (k : VmKernel) (id : Fin maxAgents) : Int × VmKernel :=
  let guard := kallocPage l k.vm
  if guard.1 = 0 then (enospc, { k with vm := guard.2 })
  else
    let stack := kalloc l guard.2 agentStackSize
    if stack.1 = 0 then (enospc, { k with vm := stack.2 })
    else
      match vmCreateAgentPt l stack.2 with
      | (none, vm) =>
        (enospc, { k with vm := vm }.setAgent id { k.agents id with pagetable := none })
      | (some pt, vm) => finishLoaded l k id pt (vmMapUserStack l vm pt id (pageUp stack.1))

/-! ## ELF files -/

/-- An ELF file in a kernel buffer of `len` bytes. Reads outside the buffer yield
whatever the memory around it holds. -/
structure ElfFile where
  bytes : Buf
  len : Nat

namespace ElfFile

/-- A field of the file header, `width` bytes at `off`. -/
def header (f : ElfFile) (off width : Nat) : Nat := f.bytes.le off width

/-- The offset of program header `i`. -/
def phdr (f : ElfFile) (i : Nat) : Nat := (f.header 32 8 + i * f.header 54 2) % 2 ^ 64

/-- A field of program header `i`. -/
def field (f : ElfFile) (i off width : Nat) : Nat := f.bytes.le ((f.phdr i + off) % 2 ^ 64) width

def phnum (f : ElfFile) : Nat := f.header 56 2
def pType (f : ElfFile) (i : Nat) : Nat := f.field i 0 4
def pFlags (f : ElfFile) (i : Nat) : Nat := f.field i 4 4
def pOffset (f : ElfFile) (i : Nat) : Nat := f.field i 8 8
def pVaddr (f : ElfFile) (i : Nat) : Nat := f.field i 16 8
def pFilesz (f : ElfFile) (i : Nat) : Nat := f.field i 32 8
def pMemsz (f : ElfFile) (i : Nat) : Nat := f.field i 40 8

end ElfFile

/-- The page behind the last one that `elf_map_segment` maps. -/
def segmentEnd (vaddr memsz : Nat) : Nat := pageUp ((vaddr + memsz) % 2 ^ 64)

/-- The loop of `elf_map_segment`, `n` pages from `va` on. -/
def elfMapPages (l : Layout) (pt perm : Nat) : Nat → Nat → Vm → Int × Vm
  | 0, _, vm => (0, vm)
  | n + 1, va, vm =>
    let page := kallocPage l vm
    if page.1 = 0 then (enospc, page.2)
    else
      let out := vmMapPage l page.2 pt va page.1 perm
      if out.1 ≠ 0 then (enospc, out.2) else elfMapPages l pt perm n (va + pageSize) out.2

/-- `elf_map_segment` (elfload.c:78). -/
def elfMapSegment (l : Layout) (vm : Vm) (pt vaddr memsz flags : Nat) : Int × Vm :=
  let perm := pteU ||| pteR ||| (if flags &&& 2 ≠ 0 then pteW else 0)
    ||| (if flags &&& 1 ≠ 0 then pteX else 0)
  let first := pageDown vaddr
  elfMapPages l pt perm ((segmentEnd vaddr memsz - first) / pageSize) first vm

/-- The loop of `elf_load_into_agent` over the program headers from `i` on. -/
def elfLoadHeaders (l : Layout) (f : ElfFile) (pt : Nat) : Nat → Nat → Vm → Int × Vm
  | 0, _, vm => (0, vm)
  | n + 1, i, vm =>
    if f.len < (f.phdr i + 56) % 2 ^ 64 then (einval, vm)
    else if f.pType i ≠ 1 then elfLoadHeaders l f pt n (i + 1) vm
    else if f.len < (f.pOffset i + f.pFilesz i) % 2 ^ 64 then (einval, vm)
    else
      let out := elfMapSegment l vm pt (f.pVaddr i) (f.pMemsz i) (f.pFlags i)
      if out.1 ≠ 0 then (enospc, out.2) else elfLoadHeaders l f pt n (i + 1) out.2

/-- `elf_load_into_agent` (elfload.c:117). -/
def elfLoadIntoAgent (l : Layout) (vm : Vm) (pt : Nat) (f : ElfFile) : Int × Vm :=
  if f.len < 64 then (einval, vm)
  else if f.header 0 4 ≠ 0x464c457f then (einval, vm)
  else if f.header 4 1 ≠ 2 ∨ f.header 5 1 ≠ 1 then (einval, vm)
  else if f.header 18 2 ≠ 243 then (einval, vm)
  else if f.header 54 2 ≠ 56 then (einval, vm)
  else elfLoadHeaders l f pt f.phnum 0 vm

/-- The page at `va` belongs to a loadable segment. -/
def ElfFile.Maps (f : ElfFile) (va : Nat) : Prop :=
  ∃ i, i < f.phnum ∧ f.pType i = 1 ∧ pageDown (f.pVaddr i) ≤ va ∧
    va < segmentEnd (f.pVaddr i) (f.pMemsz i)

/-! ## Heaps -/

/-- `vm_heap_map_page` (vm.c:184). -/
def vmHeapMapPage (l : Layout) (k : VmKernel) (id : Fin maxAgents) (va : Nat) : Int × VmKernel :=
  let a := k.agents id
  match a.pagetable with
  | none => (-1, k)
  | some pt =>
    if va < a.heapBase ∨ a.heapBase + a.heapMaxPages * pageSize ≤ va then (-1, k)
    else if vmPageMapped l k.vm pt (pageDown va) then (0, k)
    else if a.heapMaxPages ≤ a.heapMapped then (-1, k)
    else
      let page := kallocPage l k.vm
      if page.1 = 0 then (-1, { k with vm := page.2 })
      else
        let out := vmMapPage l page.2 pt (pageDown va) page.1 (pteU ||| pteR ||| pteW)
        if out.1 ≠ 0 then (-1, { k with vm := out.2 })
        else (0, { k with vm := out.2 }.setAgent id { a with heapMapped := a.heapMapped + 1 })

/-- `agent_heap_map` (agent.c:366). -/
def agentHeapMap (l : Layout) (k : VmKernel) (id : Fin maxAgents) (pageOff : Int) :
    Int × VmKernel :=
  let a := k.agents id
  if pageOff < 0 ∨ a.heapMaxPages ≤ pageOff then (einval, k)
  else
    let va := a.heapBase + pageOff.toNat * pageSize
    let out := vmHeapMapPage l k id va
    if out.1 ≠ 0 then (enospc, out.2) else (va, out.2)

/-- `vm_cow_break` (vm.c:103), for a page that is known to be mapped. -/
def vmCowBreak (l : Layout) (k : VmKernel) (pt pageVa : Nat) : Int × VmKernel :=
  match (vmWalk l k.vm pt (pageDown pageVa) false).1 with
  | none => (-1, k)
  | some (table, i) =>
    if !hasFlag (k.vm.mem table i) pteV then (-1, k)
    else if hasFlag (k.vm.mem table i) pteW then (0, k)
    else
      let page := kallocPage l k.vm
      if page.1 = 0 then (-1, { k with vm := page.2 })
      else
        let pte := mkPte (page.1 / pageSize) (pteU ||| pteR ||| pteW ||| pteV ||| pteStd)
        (0, { k with vm := page.2.write table i pte })

/-- `vm_heap_fault` (vm.c:209): whether the fault was handled. -/
def vmHeapFault (l : Layout) (k : VmKernel) (id : Fin maxAgents) (va : Nat) (write : Bool) :
    Bool × VmKernel :=
  let a := k.agents id
  match a.pagetable with
  | none => (false, k)
  | some pt =>
    if va < a.heapBase ∨ a.heapBase + a.heapMaxPages * pageSize ≤ va then (false, k)
    else if vmPageMapped l k.vm pt (pageDown va) then
      if !write then (false, k)
      else
        match (vmWalk l k.vm pt (pageDown va) false).1 with
        | none => (false, k)
        | some (table, i) =>
          if hasFlag (k.vm.mem table i) pteV && !hasFlag (k.vm.mem table i) pteW then
            let out := vmCowBreak l k pt (pageDown va)
            (out.1 = 0, out.2)
          else (false, k)
    else
      let out := vmHeapMapPage l k id va
      (out.1 = 0, out.2)

/-- The end of `vm_heap_cow_alias`: both entries become read-only. -/
def cowProtect (l : Layout) (vm : Vm) (pt dstVa : Nat) (src : Nat × Fin 512) (ppn : Nat) :
    Int × Vm :=
  let pte := mkPte ppn (pteU ||| pteR ||| pteV ||| pteStd)
  let vm := vm.write src.1 src.2 pte
  match (vmWalk l vm pt dstVa false).1 with
  | none => (einval, vm)
  | some (table, i) =>
    if !hasFlag (vm.mem table i) pteV then (einval, vm) else (dstVa, vm.write table i pte)

/-- `vm_heap_cow_alias` (vm.c:132), which is `agent_heap_cow` (agent.c:380). -/
def vmHeapCowAlias (l : Layout) (k : VmKernel) (id : Fin maxAgents) (dstOff srcOff : Int) :
    Int × VmKernel :=
  let a := k.agents id
  match a.pagetable with
  | none => (einval, k)
  | some pt =>
    if dstOff = srcOff then (einval, k)
    else if srcOff < 0 ∨ a.heapMaxPages ≤ srcOff then (einval, k)
    else if dstOff < 0 ∨ a.heapMaxPages ≤ dstOff then (einval, k)
    else
      let srcVa := a.heapBase + srcOff.toNat * pageSize
      let dstVa := a.heapBase + dstOff.toNat * pageSize
      if !vmPageMapped l k.vm pt srcVa then (einval, k)
      else
        match (vmWalk l k.vm pt srcVa false).1 with
        | none => (einval, k)
        | some (table, i) =>
          let ppn := ptePpn (k.vm.mem table i)
          if !hasFlag (k.vm.mem table i) pteV then (einval, k)
          else if vmPageMapped l k.vm pt dstVa then
            match (vmWalk l k.vm pt dstVa false).1 with
            | none => (einval, k)
            | some (table', i') =>
              if !hasFlag (k.vm.mem table' i') pteV then (einval, k)
              else if ptePpn (k.vm.mem table' i') ≠ ppn then (einval, k)
              else
                let out := cowProtect l k.vm pt dstVa (table, i) ppn
                (out.1, { k with vm := out.2 })
          else if a.heapMaxPages ≤ a.heapMapped then (enospc, k)
          else
            let mapped := vmMapPage l k.vm pt dstVa (ppn * pageSize) (pteU ||| pteR)
            if mapped.1 ≠ 0 then (enospc, { k with vm := mapped.2 })
            else
              let out := cowProtect l mapped.2 pt dstVa (table, i) ppn
              (out.1,
                { k with vm := out.2 }.setAgent id { a with heapMapped := a.heapMapped + 1 })

/-! ## Steps and runs -/

/-- What agents can do to page tables. Creating and loading name the slot that
`agent_alloc_id` chose. -/
inductive VmOp where
  | create (id : Fin maxAgents)
  | load (id : Fin maxAgents) (elf : ElfFile)
  | heapMap (id : Fin maxAgents) (pageOff : Int)
  | heapFault (id : Fin maxAgents) (va : Nat) (write : Bool)
  | heapCow (id : Fin maxAgents) (dstOff srcOff : Int)

/-- The agent whose page table the operation works on. -/
def VmOp.agent : VmOp → Fin maxAgents
  | create id | load id _ | heapMap id _ | heapFault id _ _ | heapCow id _ _ => id

/-- The page-table part of `agent_load_from_path` (elfload.c:195): the error code
or the slot. -/
def agentLoad (l : Layout) (k : VmKernel) (id : Fin maxAgents) (elf : ElfFile) :
    Int × VmKernel :=
  let setup := agentSetupLoaded l k id
  if setup.1 ≠ 0 then setup
  else
    match (setup.2.agents id).pagetable with
    | none => setup
    | some pt =>
      let out := elfLoadIntoAgent l setup.2.vm pt elf
      (if out.1 ≠ 0 then out.1 else id, { setup.2 with vm := out.2 })

/-- What an operation leaves behind, whatever it returns. -/
def VmKernel.after {α : Type} (out : α × VmKernel) : VmKernel := out.2

theorem VmKernel.after_eq {α : Type} (out : α × VmKernel) : VmKernel.after out = out.2 := rfl

/-- The kernel after an operation, whether it succeeds or not. -/
def VmKernel.step (l : Layout) (k : VmKernel) : VmOp → VmKernel
  | .create id => .after (agentSetupStack l k id)
  | .load id elf => .after (agentLoad l k id elf)
  | .heapMap id pageOff => .after (agentHeapMap l k id pageOff)
  | .heapFault id va write => .after (vmHeapFault l k id va write)
  | .heapCow id dstOff srcOff => .after (vmHeapCowAlias l k id dstOff srcOff)

/-- The kernel after a sequence of operations. -/
def VmKernel.run (l : Layout) (k : VmKernel) (ops : List VmOp) : VmKernel :=
  ops.foldl (VmKernel.step l) k

/-- The operation leaves all translations of the other agents and of the kernel
unchanged. -/
def Isolated (l : Layout) (k : VmKernel) (op : VmOp) : Prop :=
  ∀ va,
    translation l (k.step l op).vm l.kernelPt va = translation l k.vm l.kernelPt va ∧
    ∀ b, b ≠ op.agent → ∀ pt, (k.agents b).pagetable = some pt →
      translation l (k.step l op).vm pt va = translation l k.vm pt va

end OpenAgentOS
