import OpenAgentOS.Vm.AgentMemory
import OpenAgentOS.Vm.UserCheck

/-!
# The page tables of the x86 port (kernel/arch/x86/vm.c)

The port has page tables of two levels with 1024 words of 32 bits each. An entry holds the
address of a page above twelve flag bits; the flags have the values of the RISC-V port.

- `X86.vmWalk`, `X86.vmMapPage`: unlike the RISC-V port, a page may be mapped a second time to
  the address it has, and an entry of the directory is opened for the user when a user page is
  mapped below it.
- `X86.vmHeapMapPage`, `X86.vmCowBreak`, `X86.vmHeapFault`, `X86.vmHeapCowAlias`,
  `X86.vmUserCheck`: the heap functions.
- `X86.vmCreateAgentPt`, `X86.agentSetupStack`: every agent gets tables of its own, in which
  the kernel is mapped again. The stack of an agent is mapped one to one.

There is no `agent_load` on this port (it is built with elfload_stub.c). Paging stays off while
the tables are kept (vm_init), so they count only through the checks of the kernel.
-/

namespace OpenAgentOS

open Function

namespace X86

/-! ## Memory -/

/-- What the linker and the platform fix. Addresses have 32 bits; the kernel heap does not lie
at their very end. -/
structure Layout where
  start : Nat
  erodata : Nat
  end_ : Nat
  userTextStart : Nat
  userEnd : Nat
  ptpoolStart : Nat
  ptpoolEnd : Nat
  heapStart : Nat
  pool_aligned : ptpoolStart % pageSize = 0
  pool_below : ptpoolStart + ptPages * pageSize ≤ 2 ^ 32
  heap_below : heapStart + heapSize + pageSize ≤ 2 ^ 32

/-- The page number of `pt_storage[k]`. -/
def Layout.poolPage (l : Layout) (k : Nat) : Nat := l.ptpoolStart / pageSize + k

/-- Page tables by page number, `pt_next`, and `heap_ptr`. -/
structure Vm where
  mem : Nat → Fin 1024 → Nat
  ptNext : Nat
  heapPtr : Nat

/-- Store a word. -/
def Vm.write (vm : Vm) (page : Nat) (i : Fin 1024) (word : Nat) : Vm :=
  { vm with mem := update vm.mem page (update (vm.mem page) i word) }

/-- Move `heap_ptr`. -/
def Vm.setHeap (vm : Vm) (heapPtr : Nat) : Vm := { vm with heapPtr := heapPtr }

/-- Replace a whole page. -/
def Vm.writePage (vm : Vm) (page : Nat) (words : Fin 1024 → Nat) : Vm :=
  { vm with mem := update vm.mem page words }

/-- `kalloc` (mem.c:24). -/
def kalloc (l : Layout) (vm : Vm) (size : Nat) : Nat × Vm :=
  let size := (size + 15) / 16 * 16
  if l.heapStart + heapSize < vm.heapPtr + size then (0, vm)
  else (vm.heapPtr, vm.setHeap (vm.heapPtr + size))

/-- `kalloc_page` (mem.c:41). -/
def kallocPage (l : Layout) (vm : Vm) : Nat × Vm :=
  let p := pageDown (vm.heapPtr + (pageSize - 1))
  if l.heapStart + heapSize < p + pageSize then (0, vm)
  else (p, vm.setHeap (p + pageSize))

/-- `pt_alloc` (x86/vm.c:26). -/
def ptAlloc (l : Layout) (vm : Vm) : Option Nat × Vm :=
  if ptPages ≤ vm.ptNext then (none, vm)
  else
    let page := l.poolPage vm.ptNext
    (some page, { vm with ptNext := vm.ptNext + 1 }.writePage page fun _ => 0)

/-! ## Walking and mapping -/

/-- `(va >> 22) & 0x3ff`. -/
def dirIndex (va : Nat) : Fin 1024 := ⟨va / 2 ^ 22 % 1024, Nat.mod_lt _ (by decide +kernel)⟩

/-- `(va >> 12) & 0x3ff`. -/
def tableIndex (va : Nat) : Fin 1024 := ⟨va / 2 ^ 12 % 1024, Nat.mod_lt _ (by decide)⟩

/-- `(pa & 0xfffff000) | flags`, on 32 bits. -/
def mkPte (pa flags : Nat) : Nat := pageDown pa ||| flags

/-- The page that an entry names: `pte & 0xfffff000` as a page number. -/
def ptePage (pte : Nat) : Nat := pte / pageSize

/-- `vm_walk` (x86/vm.c:35): the table and the index of the last entry. -/
def vmWalk (l : Layout) (vm : Vm) (pt va : Nat) (alloc : Bool) : Option (Nat × Fin 1024) × Vm :=
  if hasFlag (vm.mem pt (dirIndex va)) pteV then
    (some (ptePage (vm.mem pt (dirIndex va)), tableIndex va), vm)
  else if alloc then
    match ptAlloc l vm with
    | (none, vm) => (none, vm)
    | (some child, vm) =>
      let pde := mkPte (child * pageSize) (pteV ||| pteW)
      (some (ptePage pde, tableIndex va), vm.write pt (dirIndex va) pde)
  else (none, vm)

/-- `x86_pte_flags` (x86/vm.c:49). -/
def x86PteFlags (perm : Nat) : Nat :=
  pteV ||| pteStd |||
    (if hasFlag perm pteU then pteU ||| (if hasFlag perm pteW then pteW else 0) else pteW)

/-- `*pde |= PTE_U | PTE_W` for a user page. -/
def openDir (vm : Vm) (pt va perm : Nat) : Vm :=
  if hasFlag perm pteU then
    vm.write pt (dirIndex va) (vm.mem pt (dirIndex va) ||| (pteU ||| pteW))
  else vm

/-- `vm_map_page` (x86/vm.c:61), also `vm_map_user_page`. -/
def vmMapPage (l : Layout) (vm : Vm) (pt va pa perm : Nat) : Int × Vm :=
  if va % pageSize ≠ 0 ∨ pa % pageSize ≠ 0 then (-1, vm)
  else
    match vmWalk l vm pt va true with
    | (none, vm) => (-1, vm)
    | (some (table, i), vm) =>
      if hasFlag (vm.mem table i) pteV then
        if ptePage (vm.mem table i) = pa / pageSize then
          (0, (openDir vm pt va perm).write table i (mkPte pa (x86PteFlags perm)))
        else (-1, vm)
      else (0, (openDir vm pt va perm).write table i (mkPte pa (x86PteFlags perm)))

/-- `vm_page_mapped` (x86/vm.c:93). -/
def vmPageMapped (l : Layout) (vm : Vm) (pt va : Nat) : Bool :=
  match (vmWalk l vm pt (pageDown va) false).1 with
  | none => false
  | some (table, i) => hasFlag (vm.mem table i) pteV

/-- The test of `vm_user_check` for one page; a page that is mapped for the user can be read. -/
def userPageOk (l : Layout) (vm : Vm) (pt : Nat) (write : Bool) (a : Nat) : Bool :=
  match (vmWalk l vm pt a false).1 with
  | none => false
  | some (table, i) =>
    let pte := vm.mem table i
    hasFlag pte pteV && hasFlag pte pteU && !(write && !hasFlag pte pteW)

/-- `vm_user_check` (x86/vm.c:103). -/
def vmUserCheck (l : Layout) (vm : Vm) (pt ua len : Nat) (write : Bool) : Option Int :=
  userCheck 32 (userPageOk l vm pt write) ua len

/-- The loop of `vm_map_region`, `n` pages from `va` and `pa` on. -/
def vmMapPages (l : Layout) (pt perm : Nat) : Nat → Nat → Nat → Vm → Int × Vm
  | 0, _, _, vm => (0, vm)
  | n + 1, va, pa, vm =>
    let out := vmMapPage l vm pt va pa perm
    if out.1 ≠ 0 then (-1, out.2)
    else vmMapPages l pt perm n (va + pageSize) ((pa + pageSize) % 2 ^ 32) out.2

/-- `pa_round_up`, in 32 bits. -/
def pageUp (x : Nat) : Nat := pageDown ((x + (pageSize - 1)) % 2 ^ 32)

/-- `vm_map_region` (x86/vm.c:250). -/
def vmMapRegion (l : Layout) (vm : Vm) (pt va pa size perm : Nat) : Int × Vm :=
  let first := pageDown va
  let last := pageUp ((va + size) % 2 ^ 32)
  vmMapPages l pt perm ((last - first) / pageSize) first
    ((pa + (2 ^ 32 - (va - first))) % 2 ^ 32) vm

/-- Map regions until one fails. -/
def vmMapRegions (l : Layout) (pt : Nat) : List (Nat × Nat × Nat × Nat) → Vm → Int × Vm
  | [], vm => (0, vm)
  | (va, pa, size, perm) :: regions, vm =>
    let out := vmMapRegion l vm pt va pa size perm
    if out.1 ≠ 0 then (-1, out.2) else vmMapRegions l pt regions out.2

/-- The regions of `map_kernel` (x86/vm.c:262), in order, all mapped one to one. -/
def Layout.kernelRegions (l : Layout) : List (Nat × Nat × Nat × Nat) :=
  let dataStart := pageUp l.erodata
  [(l.start, l.start, l.erodata - l.start, pteR ||| pteX)]
    ++ (if dataStart < l.end_ then
        [(dataStart, dataStart, l.end_ - dataStart, pteR ||| pteW)] else [])
    ++ (if l.userTextStart < l.userEnd then
        [(l.userTextStart, l.userTextStart, l.userEnd - l.userTextStart,
          pteU ||| pteR ||| pteW)] else [])
    ++ [(l.heapStart, l.heapStart, heapSize, pteR ||| pteW),
      (l.ptpoolStart, l.ptpoolStart, l.ptpoolEnd - l.ptpoolStart, pteR ||| pteW)]

/-- `vm_create_agent_pt` (x86/vm.c:376): a new directory with the kernel mapped in it. -/
def vmCreateAgentPt (l : Layout) (vm : Vm) : Option Nat × Vm :=
  match ptAlloc l vm with
  | (none, vm) => (none, vm)
  | (some pt, vm) =>
    let out := vmMapRegions l pt l.kernelRegions vm
    if out.1 ≠ 0 then (none, out.2) else (some pt, out.2)

/-! ## Agents -/

/-- Page tables together with what `struct agent` says about memory. -/
structure Kernel where
  vm : Vm
  agents : Fin maxAgents → AgentVm

/-- Replace the memory of one agent. -/
def Kernel.setAgent (k : Kernel) (id : Fin maxAgents) (a : AgentVm) : Kernel :=
  { k with agents := update k.agents id a }

/-- `sizeof(struct trapframe)` with words of 32 bits. -/
abbrev trapframeSize : Nat := 33 * 4

/-- The end of `agent_setup_stack`, after `vm_map_region` returned `mapped`. -/
def finishStack (l : Layout) (k : Kernel) (id : Fin maxAgents) (pt : Nat) (mapped : Int × Vm) :
    Bool × Kernel :=
  let tf := kalloc l mapped.2 trapframeSize
  if mapped.1 ≠ 0 then (false, { k with vm := mapped.2 })
  else if tf.1 = 0 then
    (false, { k with vm := tf.2 }.setAgent id { k.agents id with pagetable := some pt })
  else (true, { k with vm := tf.2 }.setAgent id (freshHeap id (some pt)))

/-- `agent_setup_stack` (agent.c:69) with `PLATFORM_X86_64_PC`. -/
def agentSetupStack (l : Layout) (k : Kernel) (id : Fin maxAgents) : Bool × Kernel :=
  let k := k.setAgent id { k.agents id with pagetable := none }
  let guard := kallocPage l k.vm
  if guard.1 = 0 then (false, { k with vm := guard.2 })
  else
    let stack := kalloc l guard.2 agentStackSize
    if stack.1 = 0 then (false, { k with vm := stack.2 })
    else
      match vmCreateAgentPt l stack.2 with
      | (none, vm) => (false, { k with vm := vm })
      | (some pt, vm) =>
        finishStack l k id pt (vmMapRegion l vm pt (pageUp stack.1) (pageUp stack.1)
          agentStackSize (pteU ||| pteR ||| pteW))

/-! ## Heaps -/

/-- `vm_heap_map_page` (x86/vm.c:203). -/
def vmHeapMapPage (l : Layout) (k : Kernel) (id : Fin maxAgents) (va : Nat) : Int × Kernel :=
  let a := k.agents id
  match a.pagetable with
  | none => (-1, k)
  | some pt =>
    if va < a.heapBase ∨ a.heapBase + a.heapMaxPages * pageSize ≤ va then (-1, k)
    else if vmPageMapped l k.vm pt (pageDown va) then (0, k)
    else if a.heapMaxPages ≤ a.heapMapped then (-1, k)
    else
      let page := kallocPage l k.vm
      if page.1 = 0 then (-1, { k with vm := page.2 })
      else
        let out := vmMapPage l page.2 pt (pageDown va) page.1 (pteU ||| pteR ||| pteW)
        if out.1 ≠ 0 then (-1, { k with vm := out.2 })
        else (0, { k with vm := out.2 }.setAgent id { a with heapMapped := a.heapMapped + 1 })

/-- `vm_cow_break` (x86/vm.c:128). -/
def vmCowBreak (l : Layout) (k : Kernel) (pt pageVa : Nat) : Int × Kernel :=
  match (vmWalk l k.vm pt (pageDown pageVa) false).1 with
  | none => (-1, k)
  | some (table, i) =>
    if !hasFlag (k.vm.mem table i) pteV then (-1, k)
    else if hasFlag (k.vm.mem table i) pteW then (0, k)
    else
      let page := kallocPage l k.vm
      if page.1 = 0 then (-1, { k with vm := page.2 })
      else
        let pte := mkPte page.1 (pteV ||| pteU ||| pteW ||| pteStd)
        (0, { k with vm := page.2.write table i pte })

/-- `vm_heap_fault` (x86/vm.c:227): whether the fault was handled. -/
def vmHeapFault (l : Layout) (k : Kernel) (id : Fin maxAgents) (va : Nat) (write : Bool) :
    Bool × Kernel :=
  let a := k.agents id
  match a.pagetable with
  | none => (false, k)
  | some pt =>
    if va < a.heapBase ∨ a.heapBase + a.heapMaxPages * pageSize ≤ va then (false, k)
    else if vmPageMapped l k.vm pt (pageDown va) then
      if !write then (false, k)
      else
        match (vmWalk l k.vm pt (pageDown va) false).1 with
        | none => (false, k)
        | some (table, i) =>
          if hasFlag (k.vm.mem table i) pteV && !hasFlag (k.vm.mem table i) pteW then
            let out := vmCowBreak l k pt (pageDown va)
            (out.1 = 0, out.2)
          else (false, k)
    else
      let out := vmHeapMapPage l k id va
      (out.1 = 0, out.2)

/-- The end of `vm_heap_cow_alias`: both entries become read-only. -/
def cowProtect (l : Layout) (vm : Vm) (pt dstVa : Nat) (src : Nat × Fin 1024) (pa : Nat) :
    Int × Vm :=
  let pte := mkPte pa (pteV ||| pteU ||| pteStd)
  let vm := vm.write src.1 src.2 pte
  match (vmWalk l vm pt dstVa false).1 with
  | none => (einval, vm)
  | some (table, i) =>
    if !hasFlag (vm.mem table i) pteV then (einval, vm) else (dstVa, vm.write table i pte)

/-- `vm_heap_cow_alias` (x86/vm.c:155). -/
def vmHeapCowAlias (l : Layout) (k : Kernel) (id : Fin maxAgents) (dstOff srcOff : Int) :
    Int × Kernel :=
  let a := k.agents id
  match a.pagetable with
  | none => (einval, k)
  | some pt =>
    if dstOff = srcOff then (einval, k)
    else if srcOff < 0 ∨ a.heapMaxPages ≤ srcOff then (einval, k)
    else if dstOff < 0 ∨ a.heapMaxPages ≤ dstOff then (einval, k)
    else
      let srcVa := a.heapBase + srcOff.toNat * pageSize
      let dstVa := a.heapBase + dstOff.toNat * pageSize
      if !vmPageMapped l k.vm pt srcVa then (einval, k)
      else
        match (vmWalk l k.vm pt srcVa false).1 with
        | none => (einval, k)
        | some (table, i) =>
          let page := ptePage (k.vm.mem table i)
          if !hasFlag (k.vm.mem table i) pteV then (einval, k)
          else if vmPageMapped l k.vm pt dstVa then
            match (vmWalk l k.vm pt dstVa false).1 with
            | none => (einval, k)
            | some (table', i') =>
              if !hasFlag (k.vm.mem table' i') pteV then (einval, k)
              else if ptePage (k.vm.mem table' i') ≠ page then (einval, k)
              else
                let out := cowProtect l k.vm pt dstVa (table, i) (page * pageSize)
                (out.1, { k with vm := out.2 })
          else if a.heapMaxPages ≤ a.heapMapped then (enospc, k)
          else
            let mapped := vmMapPage l k.vm pt dstVa (page * pageSize) (pteU ||| pteR)
            if mapped.1 ≠ 0 then (enospc, { k with vm := mapped.2 })
            else
              let out := cowProtect l mapped.2 pt dstVa (table, i) (page * pageSize)
              (out.1,
                { k with vm := out.2 }.setAgent id { a with heapMapped := a.heapMapped + 1 })

end X86

end OpenAgentOS
