import OpenAgentOS.Vm.AgentMemory
import OpenAgentOS.Vm.Ownership

/-!
# Regions, and the `virt` machine

- `Vm.fill`, `vmMapRegion_block`: mapping a region that lies within one table of
  the last level links that table if need be, and fills a range of its entries.
  With this the state after boot can be written down.
- `virtLayout`, `virtVm`: the layout of the `virt` machine with a small kernel,
  and its memory after `vm_init`.
-/

namespace OpenAgentOS

open Function

variable {l : Layout} {vm : Vm}

/-- Entries `i`, ..., `i + n - 1` of table `t` point to consecutive pages. -/
def Vm.fill (vm : Vm) (t i n ppn flags : Nat) : Vm :=
  vm.writePage t fun j =>
    if i ≤ j.val ∧ j.val < i + n then mkPte (ppn + (j.val - i)) flags else vm.mem t j

theorem Vm.fill_zero (vm : Vm) (t i ppn flags : Nat) : vm.fill t i 0 ppn flags = vm := by
  have hsame : (fun j : Fin 512 => if i ≤ j.val ∧ j.val < i + 0 then mkPte (ppn + (j.val - i)) flags
      else vm.mem t j) = vm.mem t := by
    funext j
    rw [if_neg (by omega)]
  rw [Vm.fill, hsame, Vm.writePage, update_eq_self]

/-- Storing the first entry and filling the rest. -/
theorem Vm.fill_write (vm : Vm) {t n ppn flags : Nat} {i : Fin 512} :
    (vm.write t i (mkPte ppn flags)).fill t (i.val + 1) n (ppn + 1) flags
      = vm.fill t i.val (n + 1) ppn flags := by
  have hwords : (fun j : Fin 512 => if i.val + 1 ≤ j.val ∧ j.val < i.val + 1 + n then
        mkPte (ppn + 1 + (j.val - (i.val + 1))) flags
      else (vm.write t i (mkPte ppn flags)).mem t j)
      = fun j : Fin 512 => if i.val ≤ j.val ∧ j.val < i.val + (n + 1) then
        mkPte (ppn + (j.val - i.val)) flags else vm.mem t j := by
    funext j
    rw [Vm.write_self]
    by_cases hji : j = i
    · rw [hji, if_neg (by omega), update_self, if_pos (by omega), Nat.sub_self,
        Nat.add_zero]
    · have hne : j.val ≠ i.val := fun h => hji (Fin.ext h)
      rw [update_of_ne hji]
      by_cases hin : i.val + 1 ≤ j.val ∧ j.val < i.val + 1 + n
      · rw [if_pos hin, if_pos (by omega)]
        congr 1
        omega
      · rw [if_neg hin, if_neg (by omega)]
  rw [Vm.fill, hwords, Vm.fill, Vm.writePage, Vm.write, Vm.writePage]
  simp only [update_idem]

/-- A walk that finds both tables. -/
theorem vmWalk_of_links {pt p t va : Nat} (alloc : Bool)
    (h₂ : hasFlag (vm.mem pt (vpn 2 va)) pteV = true) (hp : ptePpn (vm.mem pt (vpn 2 va)) = p)
    (h₁ : hasFlag (vm.mem p (vpn 1 va)) pteV = true) (ht : ptePpn (vm.mem p (vpn 1 va)) = t) :
    vmWalk l vm pt va alloc = (some (t, vpn 0 va), vm) := by
  rw [vmWalk, walkFrom, walkLevel, if_pos h₂]
  dsimp only
  rw [hp, walkFrom, walkLevel, if_pos h₁]
  dsimp only
  rw [ht, walkFrom]

/-- **Pages of one table**: the loop fills a range of entries. -/
theorem vmMapPages_fill {pt p t perm : Nat} (hpt : pt ≠ t) (hp : p ≠ t) {i₂ i₁ : Fin 512} :
    ∀ (n va pa i : Nat) (vm : Vm), va % pageSize = 0 → pa % pageSize = 0 →
      pa + n * pageSize < 2 ^ 64 →
      hasFlag (vm.mem pt i₂) pteV = true → ptePpn (vm.mem pt i₂) = p →
      hasFlag (vm.mem p i₁) pteV = true → ptePpn (vm.mem p i₁) = t →
      (∀ j, j < n → vpn 2 (va + j * pageSize) = i₂ ∧ vpn 1 (va + j * pageSize) = i₁ ∧
        (vpn 0 (va + j * pageSize)).val = i + j) →
      (∀ j : Fin 512, i ≤ j.val → j.val < i + n → hasFlag (vm.mem t j) pteV = false) →
      vmMapPages l pt perm n va pa vm
        = (0, vm.fill t i n (pa / pageSize) (perm ||| pteV ||| pteStd)) := by
  intro n
  induction n with
  | zero =>
    intro va pa i vm _ _ _ _ _ _ _ _ _
    rw [vmMapPages, Vm.fill_zero]
  | succ n ih =>
    intro va pa i vm hva hpa hbound h₂ hp₂ h₁ ht₁ hvpn hfree
    obtain ⟨hv₂, hv₁, hv₀⟩ := hvpn 0 (Nat.succ_pos n)
    rw [Nat.zero_mul, Nat.add_zero] at hv₂ hv₁ hv₀
    have hv₀ : (vpn 0 va).val = i := hv₀
    -- the first page
    have hwalk : vmWalk l vm pt va true = (some (t, vpn 0 va), vm) :=
      vmWalk_of_links true (hv₂ ▸ h₂) (hv₂ ▸ hp₂) (hv₁ ▸ h₁) (hv₁ ▸ ht₁)
    have hentry := hfree (vpn 0 va) (by omega) (by omega)
    have hpage : vmMapPage l vm pt va pa perm
        = (0, vm.write t (vpn 0 va) (mkPte (pa / pageSize) (perm ||| pteV ||| pteStd))) := by
      rw [vmMapPage, if_neg (by omega), hwalk]
      dsimp only
      rw [if_neg (by rw [hentry]; decide)]
    rw [vmMapPages, hpage, if_neg (fun h => h rfl), Nat.mod_eq_of_lt (by simp only [pageSize] at *; omega)]
    rw [ih (va + pageSize) (pa + pageSize) (i + 1) _ (by simp only [pageSize] at *; omega)
      (by simp only [pageSize] at *; omega) (by simp only [pageSize] at *; omega)
      (by rw [Vm.write_of_ne hpt]; exact h₂) (by rw [Vm.write_of_ne hpt]; exact hp₂)
      (by rw [Vm.write_of_ne hp]; exact h₁) (by rw [Vm.write_of_ne hp]; exact ht₁)]
    · rw [show (pa + pageSize) / pageSize = pa / pageSize + 1 by simp only [pageSize]; omega, ← hv₀,
        Vm.fill_write]
    · intro j hj
      have h := hvpn (j + 1) (Nat.succ_lt_succ hj)
      rw [show va + (j + 1) * pageSize = va + pageSize + j * pageSize by
        rw [Nat.succ_mul]; omega] at h
      exact ⟨h.1, h.2.1, by rw [h.2.2]; omega⟩
    · intro j hlow hhigh
      have hne : j ≠ vpn 0 va := fun h => by rw [h] at hlow; omega
      rw [Vm.write_self, update_of_ne hne]
      exact hfree j (by omega) (by omega)

/-! ## Regions -/

/-- A walk that links both tables. -/
theorem vmWalk_linked_both {pt va : Nat} (h₂ : hasFlag (vm.mem pt (vpn 2 va)) pteV = false)
    (h₁ : hasFlag ((linked l vm pt (vpn 2 va)).mem (l.poolPage vm.ptNext) (vpn 1 va)) pteV = false)
    (hnext : vm.ptNext + 1 < ptPages) :
    vmWalk l vm pt va true = (some (l.poolPage (vm.ptNext + 1), vpn 0 va),
      linked l (linked l vm pt (vpn 2 va)) (l.poolPage vm.ptNext) (vpn 1 va)) := by
  rw [vmWalk, walkFrom, walkLevel_linked h₂ (by omega)]
  dsimp only
  rw [walkFrom, walkLevel_linked h₁ hnext]
  rfl

/-- A walk that finds the first table and links the second. -/
theorem vmWalk_linked_last {pt p va : Nat} (h₂ : hasFlag (vm.mem pt (vpn 2 va)) pteV = true)
    (hp : ptePpn (vm.mem pt (vpn 2 va)) = p) (h₁ : hasFlag (vm.mem p (vpn 1 va)) pteV = false)
    (hnext : vm.ptNext < ptPages) :
    vmWalk l vm pt va true
      = (some (l.poolPage vm.ptNext, vpn 0 va), linked l vm p (vpn 1 va)) := by
  rw [vmWalk, walkFrom, walkLevel, if_pos h₂, hp]
  dsimp only
  rw [walkFrom, walkLevel_linked h₁ hnext]
  rfl

/-- The index of a page within the last table. -/
theorem vpn_add {va j : Nat} (hva : va % pageSize = 0) (h : (vpn 0 va).val + j < 512) :
    vpn 2 (va + j * pageSize) = vpn 2 va ∧ vpn 1 (va + j * pageSize) = vpn 1 va ∧
      (vpn 0 (va + j * pageSize)).val = (vpn 0 va).val + j := by
  simp only [vpn, Fin.mk.injEq, pageSize] at *
  omega

/-- The `n` pages from `va` on lie in the last-level table `t`, which the walk
reaches through `p`, and their entries are free. -/
@[mk_iff] structure BlockFree (vm : Vm) (pt p t va n : Nat) : Prop where
  aligned : va % pageSize = 0
  bound : va + n * pageSize < 2 ^ 64
  inside : 0 < n ∧ (vpn 0 va).val + n ≤ 512
  distinct : pt ≠ t ∧ p ≠ t
  upper : hasFlag (vm.mem pt (vpn 2 va)) pteV = true ∧ ptePpn (vm.mem pt (vpn 2 va)) = p
  lower : hasFlag (vm.mem p (vpn 1 va)) pteV = true ∧ ptePpn (vm.mem p (vpn 1 va)) = t
  free : ∀ j : Fin 512, (vpn 0 va).val ≤ j.val → j.val < (vpn 0 va).val + n →
    hasFlag (vm.mem t j) pteV = false

instance (vm : Vm) (pt p t va n : Nat) : Decidable (BlockFree vm pt p t va n) :=
  decidable_of_iff' _ (blockFree_iff vm pt p t va n)

/-- **A region within one table of the last level**, mapped one to one: its entries
are filled, after the tables that are missing have been linked. -/
theorem vmMapRegion_block {pt t va size perm : Nat} {vm' : Vm} (p n : Nat)
    (hwalk : vmWalk l vm pt va true = (some (t, vpn 0 va), vm'))
    (hend : pageUp ((va + size) % 2 ^ 64) = va + n * pageSize)
    (h : BlockFree vm' pt p t va n) :
    vmMapRegion l vm pt va va size perm
      = (0, vm'.fill t (vpn 0 va).val n (va / pageSize) (perm ||| pteV ||| pteStd)) := by
  have hdown : pageDown va = va := by
    have := h.aligned
    simp only [pageDown, pageSize] at *
    omega
  have hcount : (va + n * pageSize - va) / pageSize = n := by
    rw [Nat.add_sub_cancel_left, Nat.mul_div_cancel _ (by decide)]
  have hpa : (va + (2 ^ 64 - (va - va))) % 2 ^ 64 = va := by
    rw [Nat.sub_self, Nat.sub_zero, Nat.add_mod_right]
    exact Nat.mod_eq_of_lt (Nat.lt_of_le_of_lt (Nat.le_add_right _ _) h.bound)
  -- the first page is mapped as if the tables had been there before
  have hfirst : vmMapPage l vm pt va va perm = vmMapPage l vm' pt va va perm := by
    have haligned : ¬ (va % pageSize ≠ 0 ∨ va % pageSize ≠ 0) := by
      have := h.aligned
      omega
    rw [vmMapPage, vmMapPage, if_neg haligned, if_neg haligned, hwalk,
      vmWalk_of_links true h.upper.1 h.upper.2 h.lower.1 h.lower.2]
  have hpages : vmMapPages l pt perm n va va vm = vmMapPages l pt perm n va va vm' := by
    cases n with
    | zero => exact absurd h.inside.1 (Nat.lt_irrefl 0)
    | succ n => rw [vmMapPages, vmMapPages, hfirst]
  simp only [vmMapRegion, hdown, hend, hcount, hpa]
  rw [hpages]
  exact vmMapPages_fill h.distinct.1 h.distinct.2 n va va _ vm' h.aligned h.aligned h.bound
    h.upper.1 h.upper.2 h.lower.1 h.lower.2
    (fun j hj => vpn_add h.aligned (by have := h.inside; omega)) h.free

theorem vmMapRegions_cons {pt va pa size perm : Nat} {rest : List (Nat × Nat × Nat × Nat)}
    {vm' : Vm} (h : vmMapRegion l vm pt va pa size perm = (0, vm')) :
    vmMapRegions l pt ((va, pa, size, perm) :: rest) vm = vmMapRegions l pt rest vm' := by
  rw [vmMapRegions, h, if_neg (fun h => h rfl)]

/-! ## The `virt` machine -/

/-- A kernel of three pages at `0x80200000`, two pages of user code, the heap and
the pool of page tables, each at a multiple of 2 MiB. -/
def virtLayout : Layout where
  start := 0x80200000
  erodata := 0x80201000
  end_ := 0x80203000
  userTextStart := 0x80400000
  userBssStart := 0x80401000
  userEnd := 0x80402000
  ptpoolStart := 0x80800000
  ptpoolEnd := 0x80840000
  rootTable := 0x80202000
  heapStart := 0x80600000
  uartMmio := 0x10000000
  virtioMmioBase := 0x10001000
  virtioMmioStride := 0x1000
  virtioMmioCount := 8
  pool_aligned := by decide +kernel
  root_aligned := by decide
  root_outside := by decide

/-- The memory before the first region is mapped. -/
def virtReset : Vm :=
  { mem := fun _ _ => 0, ptNext := 0, heapPtr := 0x80600000 : Vm }.writePage 0x80202 fun _ => 0

/-- Flags of the kernel's data and device pages. -/
abbrev dataFlags : Nat := pteR ||| pteW ||| pteV ||| pteStd

/-- The kernel's code: page 0 of the pool serves the gigabyte, page 1 its block. -/
def virtText : Vm :=
  (linked virtLayout (linked virtLayout virtReset 0x80202 2) 0x80800 1).fill 0x80801 0 1 0x80200
    (pteR ||| pteX ||| pteV ||| pteStd)

def virtData : Vm := virtText.fill 0x80801 1 2 0x80201 dataFlags

def virtHeap : Vm := (linked virtLayout virtData 0x80800 3).fill 0x80802 0 512 0x80600 dataFlags

def virtPool : Vm := (linked virtLayout virtHeap 0x80800 4).fill 0x80803 0 64 0x80800 dataFlags

/-- The first device needs two tables again. -/
def virtUart : Vm :=
  (linked virtLayout (linked virtLayout virtPool 0x80202 0) 0x80804 128).fill 0x80805 0 1 0x10000
    dataFlags

def virtAclint : Vm := (linked virtLayout virtUart 0x80804 16).fill 0x80806 0 8 0x2000 dataFlags

def virtVirtio : Vm := virtAclint.fill 0x80805 1 8 0x10001 dataFlags

def virtUserText : Vm :=
  (linked virtLayout virtVirtio 0x80800 2).fill 0x80807 0 1 0x80400
    (pteU ||| pteR ||| pteX ||| pteV ||| pteStd)

/-- The memory after `vm_init`. -/
def virtVm : Vm :=
  virtUserText.fill 0x80807 1 1 0x80401 (pteU ||| pteR ||| pteW ||| pteV ||| pteStd)

/-- **Boot** ends in `virtVm`. -/
theorem vmInit_virtLayout : vmInit virtLayout (fun _ _ => 0) = virtVm := by
  have htext : vmMapRegion virtLayout virtReset 0x80202 0x80200000 0x80200000 0x1000 (pteR ||| pteX) = (0, virtText) :=
    vmMapRegion_block 0x80800 1 (vmWalk_linked_both (by decide +kernel) (by decide +kernel) (by decide)) (by decide)
      (by decide +kernel)
  have hdata : vmMapRegion virtLayout virtText 0x80202 0x80201000 0x80201000 0x2000 (pteR ||| pteW) = (0, virtData) :=
    vmMapRegion_block 0x80800 2 (vmWalk_of_links true (by decide +kernel) rfl (by decide +kernel) rfl) (by decide)
      (by decide +kernel)
  have hheap : vmMapRegion virtLayout virtData 0x80202 0x80600000 0x80600000 heapSize (pteR ||| pteW) = (0, virtHeap) :=
    vmMapRegion_block 0x80800 512 (vmWalk_linked_last (by decide +kernel) rfl (by decide +kernel) (by decide)) (by decide)
      (by decide +kernel)
  have hpool : vmMapRegion virtLayout virtHeap 0x80202 0x80800000 0x80800000 0x40000 (pteR ||| pteW) = (0, virtPool) :=
    vmMapRegion_block 0x80800 64 (vmWalk_linked_last (by decide +kernel) rfl (by decide +kernel) (by decide)) (by decide)
      (by decide +kernel)
  have huart : vmMapRegion virtLayout virtPool 0x80202 0x10000000 0x10000000 0x1000 (pteR ||| pteW) = (0, virtUart) :=
    vmMapRegion_block 0x80804 1 (vmWalk_linked_both (by decide +kernel) (by decide +kernel) (by decide)) (by decide)
      (by decide +kernel)
  have haclint : vmMapRegion virtLayout virtUart 0x80202 0x02000000 0x02000000 0x8000 (pteR ||| pteW) = (0, virtAclint) :=
    vmMapRegion_block 0x80804 8 (vmWalk_linked_last (by decide +kernel) rfl (by decide +kernel) (by decide)) (by decide)
      (by decide +kernel)
  have hvirtio : vmMapRegion virtLayout virtAclint 0x80202 0x10001000 0x10001000 0x8000 (pteR ||| pteW) = (0, virtVirtio) :=
    vmMapRegion_block 0x80804 8 (vmWalk_of_links true (by decide +kernel) rfl (by decide +kernel) rfl) (by decide)
      (by decide +kernel)
  have huserText : vmMapRegion virtLayout virtVirtio 0x80202 0x80400000 0x80400000 0x1000 (pteU ||| pteR ||| pteX) = (0, virtUserText) :=
    vmMapRegion_block 0x80800 1 (vmWalk_linked_last (by decide +kernel) rfl (by decide +kernel) (by decide)) (by decide)
      (by decide +kernel)
  have huserBss : vmMapRegion virtLayout virtUserText 0x80202 0x80401000 0x80401000 0x1000 (pteU ||| pteR ||| pteW) = (0, virtVm) :=
    vmMapRegion_block 0x80800 1 (vmWalk_of_links true (by decide +kernel) rfl (by decide +kernel) rfl) (by decide)
      (by decide +kernel)
  have hregions : vmMapRegions virtLayout virtLayout.kernelPt
      (virtLayout.kernelRegions ++ virtLayout.userRegions) virtReset = (0, virtVm) := by
    refine (vmMapRegions_cons htext).trans ((vmMapRegions_cons hdata).trans ?_)
    refine (vmMapRegions_cons hheap).trans ((vmMapRegions_cons hpool).trans ?_)
    refine (vmMapRegions_cons huart).trans ((vmMapRegions_cons haclint).trans ?_)
    refine (vmMapRegions_cons hvirtio).trans ((vmMapRegions_cons huserText).trans ?_)
    exact (vmMapRegions_cons huserBss).trans rfl
  have hreset : { mem := fun _ _ => 0, ptNext := 0, heapPtr := virtLayout.heapStart : Vm }.writePage
      virtLayout.kernelPt (fun _ => 0) = virtReset := rfl
  rw [vmInit, hreset, hregions]

/-- The machine after boot. -/
def virtKernel : VmKernel where
  vm := virtVm
  agents := fun _ => ⟨none, 0, 0, 0⟩

theorem vmBoot_virtLayout : vmBoot virtLayout (fun _ _ => 0) = virtKernel := by
  rw [vmBoot, vmInit_virtLayout, virtKernel]

end OpenAgentOS
