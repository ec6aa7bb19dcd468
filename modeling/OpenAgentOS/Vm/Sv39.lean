import Mathlib.Data.Nat.Bitwise
import Mathlib.Logic.Function.Basic
import OpenAgentOS.Abi

/-!
# Sv39 page tables (kernel/vm.c, kernel/mem.c)

A page table is a tree of three levels. Its nodes are physical pages of 512
words; an entry holds the number of the page it points to above ten flag bits.
The kernel maps physical memory one to one, so following an entry and
dereferencing a pointer are the same thing.

- `Layout`: the linker symbols and the platform's addresses. All node pages come
  from the pool `pt_storage`, except the root of the kernel's own tree.
- `Vm`: the words of the node pages, the next free pool page and the kernel heap.
  Pages that hold data are handed out by the heap and lie outside the pool; their
  contents are not modelled.
- `vmWalk`, `vmMapPage`, `vmMapRegion`, `vmInit`, `vmCreateAgentPt`: the code.
- `translation`: where `vm_walk(pt, va, 0)` ends, with the entry it finds there.
-/

namespace OpenAgentOS

open Function

/-! ## Addresses and entries -/

/-- `PAGE_SIZE`. -/
abbrev pageSize : Nat := 4096

/-- `PT_PAGES`: size of the pool. -/
abbrev ptPages : Nat := 64

/-- `HEAP_MAP_SIZE` and `HEAP_SIZE`. -/
abbrev heapSize : Nat := 2 * 1024 * 1024

abbrev pteV : Nat := 0x001
abbrev pteR : Nat := 0x002
abbrev pteW : Nat := 0x004
abbrev pteX : Nat := 0x008
abbrev pteU : Nat := 0x010
abbrev pteStd : Nat := 0x040 ||| 0x080

/-- `*pte & flag`. -/
def hasFlag (pte flag : Nat) : Bool := pte &&& flag != 0

/-- The page an entry points to. -/
def ptePpn (pte : Nat) : Nat := pte >>> 10

/-- An entry for page `ppn` with the given flag bits. -/
def mkPte (ppn flags : Nat) : Nat := (ppn <<< 10) ||| flags

/-- `(va >> (12 + 9 * level)) & 0x1ff`. -/
def vpn (level va : Nat) : Fin 512 := ⟨va / 2 ^ (12 + 9 * level) % 512, Nat.mod_lt _ (by decide +kernel)⟩

/-- `va & ~(PAGE_SIZE - 1)`. -/
def pageDown (va : Nat) : Nat := va / pageSize * pageSize

/-- `(x + PAGE_SIZE - 1) & ~(PAGE_SIZE - 1)`, in 64 bits. -/
def pageUp (x : Nat) : Nat := pageDown ((x + (pageSize - 1)) % 2 ^ 64)

theorem ptePpn_mkPte {ppn flags : Nat} (h : flags < 2 ^ 10) : ptePpn (mkPte ppn flags) = ppn := by
  rw [ptePpn, mkPte, ← Nat.shiftLeft_add_eq_or_of_lt h, Nat.shiftRight_eq_div_pow,
    Nat.shiftLeft_eq]
  omega

/-! ## Memory -/

/-- What the linker and the platform fix. -/
structure Layout where
  start : Nat
  erodata : Nat
  end_ : Nat
  userTextStart : Nat
  userBssStart : Nat
  userEnd : Nat
  ptpoolStart : Nat
  ptpoolEnd : Nat
  rootTable : Nat
  heapStart : Nat
  uartMmio : Nat
  virtioMmioBase : Nat
  virtioMmioStride : Nat
  virtioMmioCount : Nat
  pool_aligned : ptpoolStart % pageSize = 0
  root_aligned : rootTable % pageSize = 0
  root_outside : rootTable / pageSize < ptpoolStart / pageSize ∨
    ptpoolStart / pageSize + ptPages ≤ rootTable / pageSize

/-- The page number of `pt_storage[k]`. -/
def Layout.poolPage (l : Layout) (k : Nat) : Nat := l.ptpoolStart / pageSize + k

/-- The page number of `kernel_pt`. -/
def Layout.kernelPt (l : Layout) : Nat := l.rootTable / pageSize

/-- Page tables by page number, `pt_next`, and `heap_ptr`. -/
structure Vm where
  mem : Nat → Fin 512 → Nat
  ptNext : Nat
  heapPtr : Nat

/-- Store a word. -/
def Vm.write (vm : Vm) (page : Nat) (i : Fin 512) (word : Nat) : Vm :=
  { vm with mem := update vm.mem page (update (vm.mem page) i word) }

/-- Move `heap_ptr`. -/
def Vm.setHeap (vm : Vm) (heapPtr : Nat) : Vm := { vm with heapPtr := heapPtr }

/-- Replace a whole page. -/
def Vm.writePage (vm : Vm) (page : Nat) (words : Fin 512 → Nat) : Vm :=
  { vm with mem := update vm.mem page words }

namespace Vm

variable {vm : Vm} {page p : Nat} {i : Fin 512} {word : Nat} {words : Fin 512 → Nat}

theorem write_self : (vm.write page i word).mem page = update (vm.mem page) i word :=
  update_self ..

theorem write_of_ne (h : p ≠ page) : (vm.write page i word).mem p = vm.mem p :=
  update_of_ne h _ _

theorem writePage_self : (vm.writePage page words).mem page = words := update_self ..

theorem writePage_of_ne (h : p ≠ page) : (vm.writePage page words).mem p = vm.mem p :=
  update_of_ne h _ _

end Vm

/-- `kalloc` (mem.c:24): the address, 0 when the heap is used up. -/
def kalloc (l : Layout) (vm : Vm) (size : Nat) : Nat × Vm :=
  let size := (size + 15) / 16 * 16
  if l.heapStart + heapSize < vm.heapPtr + size then (0, vm)
  else (vm.heapPtr, vm.setHeap (vm.heapPtr + size))

/-- `kalloc_page` (mem.c:41). -/
def kallocPage (l : Layout) (vm : Vm) : Nat × Vm :=
  let p := pageDown (vm.heapPtr + (pageSize - 1))
  if l.heapStart + heapSize < p + pageSize then (0, vm)
  else (p, vm.setHeap (p + pageSize))

/-- `pt_alloc` (vm.c:27): a cleared page of the pool. -/
def ptAlloc (l : Layout) (vm : Vm) : Option Nat × Vm :=
  if ptPages ≤ vm.ptNext then (none, vm)
  else
    let page := l.poolPage vm.ptNext
    (some page, { vm with ptNext := vm.ptNext + 1 }.writePage page fun _ => 0)

/-! ## Walking and mapping -/

/-- One round of the loop in `vm_walk`: the child table behind entry `i` of table
`pt`, which is allocated if it is missing and `alloc` is set. -/
def walkLevel (l : Layout) (alloc : Bool) (vm : Vm) (pt : Nat) (i : Fin 512) :
    Option Nat × Vm :=
  if hasFlag (vm.mem pt i) pteV then (some (ptePpn (vm.mem pt i)), vm)
  else if alloc then
    match ptAlloc l vm with
    | (none, vm) => (none, vm)
    | (some child, vm) => (some child, vm.write pt i (mkPte child pteV))
  else (none, vm)

/-- The loop of `vm_walk` from `level` down: the table and the index of the last
entry. -/
def walkFrom (l : Layout) (alloc : Bool) (va : Nat) : Nat → Vm → Nat → Option (Nat × Fin 512) × Vm
  | 0, vm, pt => (some (pt, vpn 0 va), vm)
  | level + 1, vm, pt =>
    match walkLevel l alloc vm pt (vpn (level + 1) va) with
    | (none, vm) => (none, vm)
    | (some child, vm) => walkFrom l alloc va level vm child

/-- `vm_walk` (vm.c:36). -/
def vmWalk (l : Layout) (vm : Vm) (pt va : Nat) (alloc : Bool) : Option (Nat × Fin 512) × Vm :=
  walkFrom l alloc va 2 vm pt

/-- Where `vm_walk(pt, va, 0)` ends, and the entry it finds there. -/
def translation (l : Layout) (vm : Vm) (pt va : Nat) : Option ((Nat × Fin 512) × Nat) :=
  (vmWalk l vm pt va false).1.map fun slot => (slot, vm.mem slot.1 slot.2)

/-- `vm_map_page` (vm.c:54), also `vm_map_user_page`. -/
def vmMapPage (l : Layout) (vm : Vm) (pt va pa perm : Nat) : Int × Vm :=
  if va % pageSize ≠ 0 ∨ pa % pageSize ≠ 0 then (-1, vm)
  else
    match vmWalk l vm pt va true with
    | (none, vm) => (-1, vm)
    | (some (table, i), vm) =>
      if hasFlag (vm.mem table i) pteV then (-1, vm)
      else (0, vm.write table i (mkPte (pa / pageSize) (perm ||| pteV ||| pteStd)))

/-- `vm_page_mapped` (vm.c:70). -/
def vmPageMapped (l : Layout) (vm : Vm) (pt va : Nat) : Bool :=
  match (vmWalk l vm pt (pageDown va) false).1 with
  | none => false
  | some (table, i) => hasFlag (vm.mem table i) pteV

/-- The loop of `vm_map_region`, `n` pages from `va` and `pa` on. -/
def vmMapPages (l : Layout) (pt perm : Nat) : Nat → Nat → Nat → Vm → Int × Vm
  | 0, _, _, vm => (0, vm)
  | n + 1, va, pa, vm =>
    let out := vmMapPage l vm pt va pa perm
    if out.1 ≠ 0 then (-1, out.2)
    else vmMapPages l pt perm n (va + pageSize) ((pa + pageSize) % 2 ^ 64) out.2

/-- `vm_map_region` (vm.c:234). -/
def vmMapRegion (l : Layout) (vm : Vm) (pt va pa size perm : Nat) : Int × Vm :=
  let first := pageDown va
  let last := pageUp ((va + size) % 2 ^ 64)
  vmMapPages l pt perm ((last - first) / pageSize) first
    ((pa + (2 ^ 64 - (va - first))) % 2 ^ 64) vm

/-- Map regions until one fails. -/
def vmMapRegions (l : Layout) (pt : Nat) : List (Nat × Nat × Nat × Nat) → Vm → Int × Vm
  | [], vm => (0, vm)
  | (va, pa, size, perm) :: regions, vm =>
    let out := vmMapRegion l vm pt va pa size perm
    if out.1 ≠ 0 then (-1, out.2) else vmMapRegions l pt regions out.2

/-- `ACLINT_MSWI_BASE`. -/
abbrev aclintMswiBase : Nat := 0x02000000

/-- The regions of `map_kernel` and `map_mmio` (vm.c:246-294), in order. All of
them are mapped one to one. -/
def Layout.kernelRegions (l : Layout) : List (Nat × Nat × Nat × Nat) :=
  let dataStart := pageUp l.erodata
  [(l.start, l.start, l.erodata - l.start, pteR ||| pteX)]
    ++ (if dataStart < l.end_ then
        [(dataStart, dataStart, l.end_ - dataStart, pteR ||| pteW)] else [])
    ++ [(l.heapStart, l.heapStart, heapSize, pteR ||| pteW),
      (l.ptpoolStart, l.ptpoolStart, l.ptpoolEnd - l.ptpoolStart, pteR ||| pteW),
      (l.uartMmio, l.uartMmio, 0x1000, pteR ||| pteW),
      (aclintMswiBase, aclintMswiBase, 0x8000, pteR ||| pteW)]
    ++ (if 0 < l.virtioMmioCount ∧ 0 < l.virtioMmioCount * l.virtioMmioStride then
        [(l.virtioMmioBase, l.virtioMmioBase, l.virtioMmioCount * l.virtioMmioStride,
          pteR ||| pteW)] else [])

/-- The regions of `vm_map_user_text` (vm.c:325). -/
def Layout.userRegions (l : Layout) : List (Nat × Nat × Nat × Nat) :=
  let codeSize := l.userBssStart - l.userTextStart
  let bssSize := l.userEnd - l.userBssStart
  (if 0 < codeSize then
      [(l.userTextStart, l.userTextStart, max codeSize pageSize, pteU ||| pteR ||| pteX)]
    else [])
    ++ (if 0 < bssSize then
      [(l.userBssStart, l.userBssStart, max bssSize pageSize, pteU ||| pteR ||| pteW)]
    else [])

/-- `vm_init` (vm.c:296) after `mem_init`, on whatever the memory held before. The
user text is mapped only if the kernel could be mapped. -/
def vmInit (l : Layout) (mem : Nat → Fin 512 → Nat) : Vm :=
  let vm : Vm := { mem := mem, ptNext := 0, heapPtr := l.heapStart }
  (vmMapRegions l l.kernelPt (l.kernelRegions ++ l.userRegions)
    (vm.writePage l.kernelPt fun _ => 0)).2

/-- `vm_create_agent_pt` (vm.c:349): a copy of the kernel's root. -/
def vmCreateAgentPt (l : Layout) (vm : Vm) : Option Nat × Vm :=
  match ptAlloc l vm with
  | (none, vm) => (none, vm)
  | (some pt, vm) => (some pt, vm.writePage pt (vm.mem l.kernelPt))

end OpenAgentOS
