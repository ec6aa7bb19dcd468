import OpenAgentOS.Vm.HeapRefines
import OpenAgentOS.Vm.X86

/-!
# The x86 heap functions

Each heap function of arch/x86/vm.c does what the machine of `HeapSpec` does, as its RISC-V
counterpart does (`HeapRefines`). All heap pages of all agents lie below one entry of the
directory, so a heap is one table.

- `X86.OwnTables`: the directory is a page of the pool, and the tables below it are pages that
  were handed out later. No store to a table changes the directory.
- `X86.Kernel.heap`, `X86.HeapInv`, `X86.HeapRefines`: as for the RISC-V port.
- `X86.refines_map`, `X86.refines_fault`, `X86.refines_cow`: the functions.
- `X86.heapInv_created`: a new agent satisfies the invariant, whatever the state was before.
-/

namespace OpenAgentOS

open Function

namespace X86

/-- The entry of the directory above all heap pages. -/
abbrev heapDir : Fin 1024 := 0x180

/-- The entries of the heap pages. -/
def heapLeaf (l : Layout) (vm : Vm) (pt : Nat) (id : Fin maxAgents) (p : HeapPage) : Nat :=
  match (vmWalk l vm pt (heapVa id p) false).1 with
  | none => 0
  | some (table, i) => vm.mem table i

/-- The frame that a valid entry names, and whether it may be written. -/
def pteEntry (pte : Nat) : Option (Nat × Bool) :=
  if hasFlag pte pteV then some (ptePage pte, hasFlag pte pteW) else none

/-- Frames and permissions of the heap pages. -/
def heapEntry (l : Layout) (vm : Vm) (pt : Nat) (id : Fin maxAgents) (p : HeapPage) :
    Option (Nat × Bool) :=
  pteEntry (heapLeaf l vm pt id p)

variable {l : Layout} {vm vm' : Vm} {k k' : Kernel} {id : Fin maxAgents}
  {pt va pa perm flags f : Nat} {p q : HeapPage} {i : Fin 1024}

/-! ## Entries -/

theorem hasFlag_or (a b flag : Nat) : hasFlag (a ||| b) flag = (hasFlag a flag || hasFlag b flag) := by
  rw [hasFlag, hasFlag, hasFlag, Nat.and_or_distrib_right, Bool.eq_iff_iff]
  simp only [bne_iff_ne, ne_eq, Nat.or_eq_zero_iff, Bool.or_eq_true]
  exact Decidable.not_and_iff_or_not

theorem hasFlag_page (n : Nat) {flag : Nat} (hflag : flag < 2 ^ 12) :
    hasFlag (n * pageSize) flag = false := by
  have hzero : (n * pageSize) &&& flag = 0 := by
    refine Nat.eq_of_testBit_eq fun i => ?_
    rw [show n * pageSize = n <<< 12 from (Nat.shiftLeft_eq n 12).symm, Nat.testBit_and,
      Nat.testBit_shiftLeft, Nat.zero_testBit]
    by_cases hi : 12 ≤ i
    · rw [Nat.testBit_lt_two_pow (Nat.lt_of_lt_of_le hflag (Nat.pow_le_pow_right (by decide) hi)),
        Bool.and_false]
    · rw [decide_eq_false hi, Bool.false_and, Bool.false_and]
  rw [hasFlag, hzero]
  rfl

theorem hasFlag_mkPte (pa flags : Nat) {flag : Nat} (hflag : flag < 2 ^ 12) :
    hasFlag (mkPte pa flags) flag = hasFlag flags flag := by
  rw [mkPte, hasFlag_or, pageDown, hasFlag_page _ hflag, Bool.false_or]

theorem ptePage_or (pte : Nat) (hflags : flags < 2 ^ 12) : ptePage (pte ||| flags) = ptePage pte := by
  rw [ptePage, ptePage, show pageSize = 2 ^ 12 from rfl, ← Nat.shiftRight_eq_div_pow,
    ← Nat.shiftRight_eq_div_pow, Nat.shiftRight_or_distrib, Nat.shiftRight_eq_div_pow flags,
    Nat.div_eq_of_lt hflags, Nat.or_zero]

theorem ptePage_mkPte (pa : Nat) (hflags : flags < 2 ^ 12) :
    ptePage (mkPte pa flags) = pa / pageSize := by
  rw [mkPte, ptePage_or _ hflags, ptePage, pageDown]
  exact Nat.mul_div_cancel _ (by decide)

theorem pteEntry_isSome (pte : Nat) : (pteEntry pte).isSome = hasFlag pte pteV := by
  rw [pteEntry]
  by_cases hv : hasFlag pte pteV = true
  · rw [if_pos hv, hv]
    rfl
  · rw [if_neg hv, Bool.eq_false_iff.mpr hv]
    rfl

theorem pteEntry_eq_some {pte : Nat} {w : Bool} (h : pteEntry pte = some (f, w)) :
    hasFlag pte pteV = true ∧ ptePage pte = f ∧ hasFlag pte pteW = w := by
  rw [pteEntry] at h
  by_cases hv : hasFlag pte pteV = true
  · rw [if_pos hv] at h
    obtain ⟨hf, hw⟩ := Prod.mk.inj (Option.some.inj h)
    exact ⟨hv, hf, hw⟩
  · rw [if_neg hv] at h
    exact absurd h nofun

/-- The flags of entries that the heap functions write. -/
structure UserFlags (flags : Nat) : Prop where
  lt : flags < 2 ^ 12
  valid : hasFlag flags pteV = true
  user : hasFlag flags pteU = true

/-- Reading back an entry that was written. -/
theorem UserFlags.pteEntry (h : UserFlags flags) (pa : Nat) :
    X86.pteEntry (mkPte pa flags) = some (pa / pageSize, hasFlag flags pteW) := by
  rw [X86.pteEntry, hasFlag_mkPte _ _ (by decide), if_pos h.valid, ptePage_mkPte _ h.lt,
    hasFlag_mkPte _ _ (by decide)]

/-! ## Addresses -/

theorem dirIndex_heapVa (id : Fin maxAgents) (p : HeapPage) : dirIndex (heapVa id p) = heapDir := by
  have hid : (id : Nat) < 12 := id.isLt
  have hp := p.isLt
  refine Fin.ext ?_
  show heapVa id p / 2 ^ 22 % 1024 = 0x180
  rw [heapVa_eq]
  omega

theorem tableIndex_injective (h : tableIndex (heapVa id p) = tableIndex (heapVa id q)) : p = q := by
  have hid : (id : Nat) < 12 := id.isLt
  have hp := p.isLt
  have hq := q.isLt
  have hval : heapVa id p / 2 ^ 12 % 1024 = heapVa id q / 2 ^ 12 % 1024 := congrArg Fin.val h
  rw [heapVa_eq, heapVa_eq] at hval
  exact Fin.ext (by omega)

theorem vmWalk_valid (l : Layout) (pt va : Nat) (alloc : Bool)
    (hv : hasFlag (vm.mem pt (dirIndex va)) pteV = true) :
    vmWalk l vm pt va alloc = (some (ptePage (vm.mem pt (dirIndex va)), tableIndex va), vm) :=
  if_pos hv

/-- The entry of a heap page, in the one table there is. -/
theorem heapLeaf_eq (l : Layout) (vm : Vm) (pt : Nat) (id : Fin maxAgents) (p : HeapPage) :
    heapLeaf l vm pt id p =
      if hasFlag (vm.mem pt heapDir) pteV then
        vm.mem (ptePage (vm.mem pt heapDir)) (tableIndex (heapVa id p)) else 0 := by
  rw [heapLeaf, vmWalk, dirIndex_heapVa]
  by_cases hv : hasFlag (vm.mem pt heapDir) pteV = true
  · rw [if_pos hv, if_pos hv]
  · rw [if_neg hv, if_neg hv]
    rfl

theorem vmPageMapped_heapVa (l : Layout) (vm : Vm) (pt : Nat) (id : Fin maxAgents) (p : HeapPage) :
    vmPageMapped l vm pt (heapVa id p) = (heapEntry l vm pt id p).isSome := by
  rw [heapEntry, pteEntry_isSome, heapLeaf, vmPageMapped, pageDown_heapVa]
  cases (vmWalk l vm pt (heapVa id p) false).1 with
  | none => exact (hasFlag_zero _).symm
  | some slot => rfl

/-- The walk to a page that is mapped. -/
theorem walk_of_heapEntry {w : Bool} (h : heapEntry l vm pt id p = some (f, w)) :
    hasFlag (vm.mem pt heapDir) pteV = true ∧
      (vmWalk l vm pt (heapVa id p) false).1 =
        some (ptePage (vm.mem pt heapDir), tableIndex (heapVa id p)) ∧
      vm.mem (ptePage (vm.mem pt heapDir)) (tableIndex (heapVa id p)) = heapLeaf l vm pt id p := by
  have hv := (pteEntry_eq_some h).1
  rw [heapLeaf_eq] at hv ⊢
  by_cases hdir : hasFlag (vm.mem pt heapDir) pteV = true
  · refine ⟨hdir, ?_, (if_pos hdir).symm⟩
    rw [vmWalk, dirIndex_heapVa, if_pos hdir]
  · rw [if_neg hdir, hasFlag_zero] at hv
    cases hv

/-! ## Tables of an agent -/

namespace Vm

theorem write_self (vm : Vm) (page : Nat) (i : Fin 1024) (word : Nat) :
    (vm.write page i word).mem page = update (vm.mem page) i word :=
  update_self ..

theorem write_of_ne (vm : Vm) {page q : Nat} (h : q ≠ page) (i : Fin 1024) (word : Nat) :
    (vm.write page i word).mem q = vm.mem q :=
  update_of_ne h _ _

end Vm

/-- The directory and, behind it in the pool, its tables. -/
def OwnTables (l : Layout) (vm : Vm) (pt : Nat) : Prop :=
  ∃ r, pt = l.poolPage r ∧ r < vm.ptNext ∧ ∀ i, hasFlag (vm.mem pt i) pteV = true →
    ∃ c, r < c ∧ c < vm.ptNext ∧ ptePage (vm.mem pt i) = l.poolPage c

namespace OwnTables

theorem poolPage_ne {r c : Nat} (h : r < c) : l.poolPage c ≠ l.poolPage r := by
  rw [Layout.poolPage, Layout.poolPage]
  omega

theorem page_ne (h : OwnTables l vm pt) (hv : hasFlag (vm.mem pt i) pteV = true) :
    ptePage (vm.mem pt i) ≠ pt := by
  obtain ⟨r, rfl, -, htables⟩ := h
  obtain ⟨c, hrc, -, hpage⟩ := htables i hv
  rw [hpage]
  exact poolPage_ne hrc

theorem setHeap (h : OwnTables l vm pt) (heapPtr : Nat) : OwnTables l (vm.setHeap heapPtr) pt := h

/-- Stores outside the directory. -/
theorem write (h : OwnTables l vm pt) {page : Nat} (hne : page ≠ pt) (i : Fin 1024) (word : Nat) :
    OwnTables l (vm.write page i word) pt := by
  obtain ⟨r, hr, hlt, htables⟩ := h
  refine ⟨r, hr, hlt, fun j => ?_⟩
  rw [vm.write_of_ne hne.symm]
  exact htables j

/-- An entry of the directory is replaced by one for a table of the agent. -/
theorem writeDir (h : OwnTables l vm pt) (i : Fin 1024) {word : Nat}
    (hword : hasFlag word pteV = true → hasFlag (vm.mem pt i) pteV = true ∧
      ptePage word = ptePage (vm.mem pt i)) :
    OwnTables l (vm.write pt i word) pt := by
  obtain ⟨r, hr, hlt, htables⟩ := h
  refine ⟨r, hr, hlt, fun j hv => ?_⟩
  rw [vm.write_self] at hv ⊢
  by_cases hj : j = i
  · subst hj
    rw [update_self] at hv ⊢
    obtain ⟨hold, hpage⟩ := hword hv
    rw [hpage]
    exact htables j hold
  · rw [update_of_ne hj] at hv ⊢
    exact htables j hv

/-- A store to a heap page's entry. -/
theorem heapLeaf_write (h : OwnTables l vm pt) (hv : hasFlag (vm.mem pt heapDir) pteV = true)
    (id : Fin maxAgents) (p : HeapPage) (word : Nat) :
    heapLeaf l (vm.write (ptePage (vm.mem pt heapDir)) (tableIndex (heapVa id p)) word) pt id =
      update (heapLeaf l vm pt id) p word := by
  funext q
  rw [heapLeaf_eq, vm.write_of_ne (h.page_ne hv).symm, if_pos hv, vm.write_self]
  by_cases hq : q = p
  · rw [hq, update_self, update_self]
  · rw [update_of_ne hq, update_of_ne fun he => hq (tableIndex_injective he),
      heapLeaf_eq, if_pos hv]

/-- Stores to the directory that keep the tables. -/
theorem heapLeaf_writeDir (h : OwnTables l vm pt) (i : Fin 1024) {word : Nat}
    (hvalid : hasFlag word pteV = hasFlag (vm.mem pt i) pteV)
    (hpage : ptePage word = ptePage (vm.mem pt i)) (id : Fin maxAgents) :
    heapLeaf l (vm.write pt i word) pt id = heapLeaf l vm pt id := by
  have hdir : hasFlag ((vm.write pt i word).mem pt heapDir) pteV =
      hasFlag (vm.mem pt heapDir) pteV ∧
      ptePage ((vm.write pt i word).mem pt heapDir) = ptePage (vm.mem pt heapDir) := by
    rw [vm.write_self]
    by_cases hi : heapDir = i
    · rw [← hi] at hvalid hpage ⊢
      rw [update_self]
      exact ⟨hvalid, hpage⟩
    · rw [update_of_ne hi]
      exact ⟨rfl, rfl⟩
  funext q
  rw [heapLeaf_eq, heapLeaf_eq, hdir.1, hdir.2]
  by_cases hv : hasFlag (vm.mem pt heapDir) pteV = true
  · rw [if_pos hv, if_pos hv, vm.write_of_ne (h.page_ne hv)]
  · rw [if_neg hv, if_neg hv]

/-- The state after `vm_walk` has linked a new table. -/
def linked (l : Layout) (vm : Vm) (pt : Nat) (i : Fin 1024) : Vm :=
  (ptAlloc l vm).2.write pt i (mkPte (l.poolPage vm.ptNext * pageSize) (pteV ||| pteW))

theorem ptePage_link (child : Nat) :
    ptePage (mkPte (child * pageSize) (pteV ||| pteW)) = child := by
  rw [ptePage_mkPte _ (by decide)]
  exact Nat.mul_div_cancel _ (by decide)

/-- **Linking a table**: it is empty and belongs to the directory alone. -/
theorem link (h : OwnTables l vm pt) (hroom : vm.ptNext < ptPages)
    (hfree : hasFlag (vm.mem pt i) pteV = false) :
    OwnTables l (linked l vm pt i) pt ∧ (∀ id, heapLeaf l (linked l vm pt i) pt id =
      heapLeaf l vm pt id) ∧ (linked l vm pt i).heapPtr = vm.heapPtr := by
  obtain ⟨r, rfl, hlt, htables⟩ := h
  obtain ⟨pde, hpde⟩ : ∃ pde, pde = mkPte (l.poolPage vm.ptNext * pageSize) (pteV ||| pteW) :=
    ⟨_, rfl⟩
  have hpage : ptePage pde = l.poolPage vm.ptNext := by rw [hpde, ptePage_link]
  have hvalid : hasFlag pde pteV = true := by
    rw [hpde, hasFlag_mkPte _ _ (by decide)]
    decide
  have hlinked : linked l vm (l.poolPage r) i =
      (({ vm with ptNext := vm.ptNext + 1 } : Vm).writePage (l.poolPage vm.ptNext)
        fun _ => 0).write (l.poolPage r) i pde := by
    rw [linked, ptAlloc, if_neg (Nat.not_le.mpr hroom), hpde]
  have hnew : l.poolPage vm.ptNext ≠ l.poolPage r := poolPage_ne hlt
  -- the three kinds of pages: the directory, the new table, and the others
  have hroot : (linked l vm (l.poolPage r) i).mem (l.poolPage r) =
      update (vm.mem (l.poolPage r)) i pde := by
    rw [hlinked, Vm.write_self]
    refine congrArg (fun words : Fin 1024 → Nat => update words i pde) ?_
    exact update_of_ne hnew.symm _ _
  have hchild : (linked l vm (l.poolPage r) i).mem (l.poolPage vm.ptNext) = fun _ => 0 := by
    rw [hlinked, Vm.write_of_ne _ hnew]
    exact update_self ..
  have hother : ∀ c, r < c → c < vm.ptNext →
      (linked l vm (l.poolPage r) i).mem (l.poolPage c) = vm.mem (l.poolPage c) := by
    intro c hrc hc
    rw [hlinked, Vm.write_of_ne _ (poolPage_ne hrc)]
    exact update_of_ne (poolPage_ne hc).symm _ _
  have hnext : (linked l vm (l.poolPage r) i).ptNext = vm.ptNext + 1 := by
    rw [hlinked]
    rfl
  refine ⟨⟨r, rfl, by omega, fun j hv => ?_⟩, fun id => funext fun q => ?_, by rw [hlinked]; rfl⟩
  · rw [hroot] at hv ⊢
    rw [hnext]
    by_cases hj : j = i
    · rw [hj, update_self, hpage]
      exact ⟨vm.ptNext, hlt, Nat.lt_succ_self _, rfl⟩
    · rw [update_of_ne hj] at hv ⊢
      obtain ⟨c, hrc, hc, hcpage⟩ := htables j hv
      exact ⟨c, hrc, Nat.lt_succ_of_lt hc, hcpage⟩
  · rw [heapLeaf_eq, heapLeaf_eq, hroot]
    by_cases hi : heapDir = i
    · rw [hi, update_self, hpage, hchild, hfree, if_pos hvalid]
      rfl
    · rw [update_of_ne hi]
      by_cases hv : hasFlag (vm.mem (l.poolPage r) heapDir) pteV = true
      · obtain ⟨c, hrc, hc, hcpage⟩ := htables heapDir hv
        rw [if_pos hv, if_pos hv, hcpage, hother c hrc hc]
      · rw [if_neg hv, if_neg hv]

/-- **`vm_walk`** leaves the entries of heap pages as they are and ends in a table of the
agent. -/
theorem walk (h : OwnTables l vm pt) (va : Nat) (alloc : Bool) {slot : Option (Nat × Fin 1024)}
    {vm' : Vm} (hwalk : vmWalk l vm pt va alloc = (slot, vm')) :
    OwnTables l vm' pt ∧ (∀ id, heapLeaf l vm' pt id = heapLeaf l vm pt id) ∧
      vm'.heapPtr = vm.heapPtr ∧
      ∀ s, slot = some s → hasFlag (vm'.mem pt (dirIndex va)) pteV = true ∧
        s = (ptePage (vm'.mem pt (dirIndex va)), tableIndex va) := by
  by_cases hv : hasFlag (vm.mem pt (dirIndex va)) pteV = true
  · rw [vmWalk_valid l pt va alloc hv] at hwalk
    obtain ⟨rfl, rfl⟩ := Prod.mk.inj hwalk
    exact ⟨h, fun _ => rfl, rfl, fun s hs => ⟨hv, (Option.some.inj hs).symm⟩⟩
  rw [vmWalk, if_neg hv] at hwalk
  cases alloc with
  | false =>
    rw [if_neg (by decide)] at hwalk
    obtain ⟨rfl, rfl⟩ := Prod.mk.inj hwalk
    exact ⟨h, fun _ => rfl, rfl, nofun⟩
  | true =>
    rw [if_pos rfl] at hwalk
    by_cases hroom : vm.ptNext < ptPages
    · have halloc : ptAlloc l vm = (some (l.poolPage vm.ptNext), (ptAlloc l vm).2) := by
        rw [ptAlloc, if_neg (Nat.not_le.mpr hroom)]
      rw [halloc] at hwalk
      obtain ⟨rfl, hvm⟩ := Prod.mk.inj hwalk
      obtain rfl : linked l vm pt (dirIndex va) = vm' := hvm
      obtain ⟨hown, hleaf, hptr⟩ := h.link hroom (Bool.eq_false_iff.mpr hv)
      refine ⟨hown, hleaf, hptr, fun s hs => ?_⟩
      rw [linked, Vm.write_self, update_self, hasFlag_mkPte _ _ (by decide)]
      exact ⟨by decide, (Option.some.inj hs).symm⟩
    · have halloc : ptAlloc l vm = (none, vm) := by
        rw [ptAlloc, if_pos (Nat.not_lt.mp hroom)]
      rw [halloc] at hwalk
      obtain ⟨rfl, rfl⟩ := Prod.mk.inj hwalk
      exact ⟨h, fun _ => rfl, rfl, nofun⟩

theorem openDir (h : OwnTables l vm pt) (va perm : Nat) :
    OwnTables l (X86.openDir vm pt va perm) pt ∧
      (∀ id, heapLeaf l (X86.openDir vm pt va perm) pt id = heapLeaf l vm pt id) ∧
      (X86.openDir vm pt va perm).heapPtr = vm.heapPtr ∧
      ∀ j, hasFlag ((X86.openDir vm pt va perm).mem pt j) pteV = hasFlag (vm.mem pt j) pteV ∧
        ptePage ((X86.openDir vm pt va perm).mem pt j) = ptePage (vm.mem pt j) := by
  rw [X86.openDir]
  by_cases hu : hasFlag perm pteU = true
  · have hflag : hasFlag (vm.mem pt (dirIndex va) ||| (pteU ||| pteW)) pteV =
        hasFlag (vm.mem pt (dirIndex va)) pteV := by
      rw [hasFlag_or, show hasFlag (pteU ||| pteW) pteV = false by decide, Bool.or_false]
    have hpage : ptePage (vm.mem pt (dirIndex va) ||| (pteU ||| pteW)) =
        ptePage (vm.mem pt (dirIndex va)) := ptePage_or _ (by decide)
    rw [if_pos hu]
    refine ⟨h.writeDir _ fun hv => ⟨hflag.symm.trans hv, hpage⟩,
      h.heapLeaf_writeDir _ hflag hpage, rfl, fun j => ?_⟩
    rw [Vm.write_self]
    by_cases hj : j = dirIndex va
    · rw [hj, update_self]
      exact ⟨hflag, hpage⟩
    · rw [update_of_ne hj]
      exact ⟨rfl, rfl⟩
  · rw [if_neg hu]
    exact ⟨h, fun _ => rfl, rfl, fun _ => ⟨rfl, rfl⟩⟩

/-- **`vm_map_page`**, on any page. -/
theorem vmMapPage (h : OwnTables l vm pt) (va pa perm : Nat) :
    OwnTables l (X86.vmMapPage l vm pt va pa perm).2 pt := by
  rw [X86.vmMapPage]
  by_cases haligned : va % pageSize ≠ 0 ∨ pa % pageSize ≠ 0
  · rw [if_pos haligned]
    exact h
  rw [if_neg haligned]
  rcases hwalk : vmWalk l vm pt va true with ⟨_ | ⟨table, i⟩, vm'⟩
  · exact (h.walk va true hwalk).1
  · obtain ⟨hown, -, -, hslot⟩ := h.walk va true hwalk
    obtain ⟨hv, hs⟩ := hslot _ rfl
    obtain ⟨rfl, rfl⟩ := Prod.mk.inj hs
    have hwrite := (hown.openDir va perm).1.write (hown.page_ne hv) (tableIndex va)
      (mkPte pa (x86PteFlags perm))
    dsimp only
    split_ifs
    · exact hwrite
    · exact hown
    · exact hwrite

/-- **`vm_map_page` on a heap page that is free**, if there is a table for it. -/
theorem mapHeapPage (h : OwnTables l vm pt) (hfree : heapEntry l vm pt id p = none)
    (htables : (vmWalk l vm pt (heapVa id p) true).1 ≠ none) (hpa : pa % pageSize = 0)
    (perm : Nat) {out : Int × Vm} (hout : X86.vmMapPage l vm pt (heapVa id p) pa perm = out) :
    out.1 = 0 ∧ OwnTables l out.2 pt ∧ out.2.heapPtr = vm.heapPtr ∧
      heapLeaf l out.2 pt id =
        update (heapLeaf l vm pt id) p (mkPte pa (x86PteFlags perm)) := by
  rw [X86.vmMapPage, if_neg (by rw [heapVa_mod, hpa]; decide)] at hout
  rcases hwalk : vmWalk l vm pt (heapVa id p) true with ⟨_ | ⟨table, i⟩, vm'⟩
  · rw [hwalk] at htables
    exact absurd rfl htables
  obtain ⟨hown, hleaf, hptr, hslot⟩ := h.walk _ true hwalk
  obtain ⟨hv, hs⟩ := hslot _ rfl
  rw [dirIndex_heapVa] at hv hs
  obtain ⟨rfl, rfl⟩ := Prod.mk.inj hs
  obtain ⟨hown', hleaf', hptr', hdir⟩ := hown.openDir (heapVa id p) perm
  have hfree' : ¬ hasFlag (vm'.mem (ptePage (vm'.mem pt heapDir)) (tableIndex (heapVa id p)))
      pteV = true := by
    have hnone : (pteEntry (heapLeaf l vm' pt id p)).isSome = false := by
      rw [hleaf id]
      exact congrArg Option.isSome hfree
    rw [pteEntry_isSome, heapLeaf_eq, if_pos hv] at hnone
    rw [hnone]
    nofun
  rw [hwalk] at hout
  dsimp only at hout
  rw [if_neg hfree'] at hout
  subst hout
  obtain ⟨hdirV, hdirPage⟩ := hdir heapDir
  have hv' := hdirV.trans hv
  refine ⟨rfl, hown'.write (hown.page_ne hv) _ _, hptr'.trans hptr, ?_⟩
  dsimp only
  rw [← hdirPage, hown'.heapLeaf_write hv', hleaf' id, hleaf id]

/-- `vm_map_page` does not replace tables. -/
theorem vmMapPage_dir (h : OwnTables l vm pt) (hdir : hasFlag (vm.mem pt heapDir) pteV = true)
    {out : Int × Vm} (hout : X86.vmMapPage l vm pt (heapVa id p) pa perm = out) :
    hasFlag (out.2.mem pt heapDir) pteV = true ∧
      ptePage (out.2.mem pt heapDir) = ptePage (vm.mem pt heapDir) := by
  rw [X86.vmMapPage, vmWalk_valid l pt _ true (by rw [dirIndex_heapVa]; exact hdir),
    dirIndex_heapVa] at hout
  dsimp only at hout
  obtain ⟨-, -, -, hopen⟩ := h.openDir (heapVa id p) perm
  obtain ⟨hflag, hpage⟩ := hopen heapDir
  have hwritten : ∀ word, hasFlag (((X86.openDir vm pt (heapVa id p) perm).write
      (ptePage (vm.mem pt heapDir)) (tableIndex (heapVa id p)) word).mem pt heapDir) pteV = true ∧
      ptePage (((X86.openDir vm pt (heapVa id p) perm).write (ptePage (vm.mem pt heapDir))
        (tableIndex (heapVa id p)) word).mem pt heapDir) = ptePage (vm.mem pt heapDir) := by
    intro word
    rw [Vm.write_of_ne _ (h.page_ne hdir).symm]
    exact ⟨hflag.trans hdir, hpage⟩
  rw [← hout]
  split_ifs
  · exact ⟨hdir, rfl⟩
  · exact hwritten _
  · exact ⟨hdir, rfl⟩
  · exact hwritten _

end OwnTables

/-! ## Heaps -/

/-- The heap of the agent with directory `pt`. -/
def Kernel.heap (l : Layout) (id : Fin maxAgents) (pt : Nat) (k : Kernel) : AgentHeap Nat where
  entry := heapEntry l k.vm pt id
  mapped := (k.agents id).heapMapped

/-- The frame that `kalloc_page` would hand out. -/
def newFrame (l : Layout) (vm : Vm) : Option Nat :=
  if (kallocPage l vm).1 = 0 then none else some ((kallocPage l vm).1 / pageSize)

/-- A table can be had for a page. -/
def TablesFor (l : Layout) (vm : Vm) (pt : Nat) (id : Fin maxAgents) (p : HeapPage) : Prop :=
  (vmWalk l vm pt (heapVa id p) true).1 ≠ none

/-- Valid entries are for users, and their frames have been handed out. -/
structure HeapSound (leaf : HeapPage → Nat) (heapPtr : Nat) : Prop where
  user : ∀ p, hasFlag (leaf p) pteV = true → hasFlag (leaf p) pteU = true
  below : ∀ p, hasFlag (leaf p) pteV = true → (ptePage (leaf p) + 1) * pageSize ≤ heapPtr

namespace HeapSound

variable {leaf : HeapPage → Nat} {heapPtr heapPtr' : Nat}

theorem mono (h : HeapSound leaf heapPtr) (hle : heapPtr ≤ heapPtr') : HeapSound leaf heapPtr' :=
  ⟨h.user, fun p hv => Nat.le_trans (h.below p hv) hle⟩

/-- A page gets an entry for a frame that has been handed out. -/
theorem put (h : HeapSound leaf heapPtr) (hflags : UserFlags flags)
    (hpa : (pa / pageSize + 1) * pageSize ≤ heapPtr) (p : HeapPage) :
    HeapSound (update leaf p (mkPte pa flags)) heapPtr := by
  constructor
  · intro q hv
    by_cases hq : q = p
    · rw [hq, update_self, hasFlag_mkPte _ _ (by decide)]
      exact hflags.user
    · rw [update_of_ne hq] at hv ⊢
      exact h.user q hv
  · intro q hv
    by_cases hq : q = p
    · rw [hq, update_self, ptePage_mkPte _ hflags.lt]
      exact hpa
    · rw [update_of_ne hq] at hv ⊢
      exact h.below q hv

end HeapSound

/-- The agent has a directory and a heap, whose pages are sound. -/
structure HeapInv (l : Layout) (id : Fin maxAgents) (pt : Nat) (k : Kernel) : Prop where
  pagetable : (k.agents id).pagetable = some pt
  base : (k.agents id).heapBase = heapVa id 0
  max : (k.agents id).heapMaxPages = 16
  own : OwnTables l k.vm pt
  sound : HeapSound (heapLeaf l k.vm pt id) k.vm.heapPtr

/-- A call has answered and left the heap as the abstract one has. -/
structure HeapRefines (l : Layout) (id : Fin maxAgents) (pt : Nat) (ok : Prop) (k' : Kernel)
    (out : Bool × AgentHeap Nat) : Prop where
  answer : ok ↔ out.1 = true
  heap : k'.heap l id pt = out.2
  inv : HeapInv l id pt k'

theorem HeapRefines.decided {P : Prop} [Decidable P] {out : Bool × AgentHeap Nat}
    (h : HeapRefines l id pt P k' out) : HeapRefines l id pt (decide P = true) k' out :=
  ⟨by rw [decide_eq_true_iff]; exact h.answer, h.heap, h.inv⟩

theorem Kernel.setAgent_self (k : Kernel) (id : Fin maxAgents) (a : AgentVm) :
    (k.setAgent id a).agents id = a := update_self ..

/-! ## The kernel heap -/

theorem kalloc_snd (l : Layout) (vm : Vm) (size : Nat) :
    ∃ heapPtr, (kalloc l vm size).2 = vm.setHeap heapPtr := by
  rw [kalloc]
  split_ifs
  · exact ⟨vm.heapPtr, rfl⟩
  · exact ⟨_, rfl⟩

theorem kallocPage_le (l : Layout) (vm : Vm) :
    ∃ heapPtr, vm.heapPtr ≤ heapPtr ∧ (kallocPage l vm).2 = vm.setHeap heapPtr := by
  rw [kallocPage]
  split_ifs
  · exact ⟨vm.heapPtr, Nat.le_refl _, rfl⟩
  · refine ⟨_, ?_, rfl⟩
    simp only [pageDown, pageSize]
    omega

theorem kallocPage_pos (h : (kallocPage l vm).1 ≠ 0) :
    (kallocPage l vm).1 % pageSize = 0 ∧ vm.heapPtr ≤ (kallocPage l vm).1 ∧
      (kallocPage l vm).2 = vm.setHeap ((kallocPage l vm).1 + pageSize) := by
  rw [kallocPage] at h ⊢
  by_cases hfull : l.heapStart + heapSize < pageDown (vm.heapPtr + (pageSize - 1)) + pageSize
  · rw [if_pos hfull] at h
    exact absurd rfl h
  · rw [if_neg hfull]
    refine ⟨Nat.mul_mod_left _ _, ?_, rfl⟩
    simp only [pageDown, pageSize]
    omega

/-- The new frame lies behind all that was handed out before. -/
theorem frame_of_kallocPage (h : (kallocPage l vm).1 ≠ 0) :
    vm.heapPtr ≤ (kallocPage l vm).1 / pageSize * pageSize ∧
      ((kallocPage l vm).1 / pageSize + 1) * pageSize = (kallocPage l vm).1 + pageSize := by
  obtain ⟨haligned, hle, -⟩ := kallocPage_pos h
  have hdiv := Nat.div_mul_cancel (Nat.dvd_of_mod_eq_zero haligned)
  rw [Nat.add_mul, Nat.one_mul, hdiv]
  exact ⟨hle, rfl⟩

theorem vmWalk_setHeap (l : Layout) (vm : Vm) (pt va : Nat) (alloc : Bool) (heapPtr : Nat) :
    vmWalk l (vm.setHeap heapPtr) pt va alloc =
      ((vmWalk l vm pt va alloc).1, (vmWalk l vm pt va alloc).2.setHeap heapPtr) := by
  have hmem : (vm.setHeap heapPtr).mem = vm.mem := rfl
  have hnext : (vm.setHeap heapPtr).ptNext = vm.ptNext := rfl
  simp only [vmWalk, ptAlloc, hmem, hnext]
  split_ifs
  · rfl
  · rfl
  · rfl
  · rfl

theorem heapLeaf_setHeap (l : Layout) (vm : Vm) (pt heapPtr : Nat) (id : Fin maxAgents) :
    heapLeaf l (vm.setHeap heapPtr) pt id = heapLeaf l vm pt id := by
  funext p
  rw [heapLeaf_eq, heapLeaf_eq]
  rfl

theorem TablesFor.setHeap (h : TablesFor l vm pt id p) (heapPtr : Nat) :
    TablesFor l (vm.setHeap heapPtr) pt id p := by
  rw [TablesFor, vmWalk_setHeap]
  exact h

/-! ## Mapping and faults -/

/-- The heap after a page got a new entry. -/
theorem heapEntry_update (hflags : UserFlags flags)
    (hleaf : heapLeaf l vm' pt id = update (heapLeaf l vm pt id) p (mkPte pa flags)) :
    heapEntry l vm' pt id = update (heapEntry l vm pt id) p
      (some (pa / pageSize, hasFlag flags pteW)) := by
  show pteEntry ∘ heapLeaf l vm' pt id = _
  rw [hleaf, comp_update, hflags.pteEntry]
  rfl

section Map

variable (hinv : HeapInv l id pt k)

include hinv

/-- The address check of the heap functions. -/
theorem HeapInv.range :
    (va < (k.agents id).heapBase ∨
      (k.agents id).heapBase + (k.agents id).heapMaxPages * pageSize ≤ va) ↔
        heapPageAt id va = none := by
  rw [hinv.base, hinv.max]
  constructor
  · intro hrange
    rw [heapPageAt, dif_neg (by omega)]
  · exact heapPageAt_none

theorem HeapInv.refused {ok : Prop} (hok : ¬ ok) :
    HeapRefines l id pt ok k (false, k.heap l id pt) :=
  ⟨iff_of_false hok nofun, rfl, hinv⟩

/-- Memory was taken from the kernel heap, and nothing else has happened. -/
theorem HeapInv.setHeap {ok : Prop} (hok : ¬ ok) {heapPtr : Nat} (hle : k.vm.heapPtr ≤ heapPtr) :
    HeapRefines l id pt ok { k with vm := k.vm.setHeap heapPtr } (false, k.heap l id pt) := by
  have hleaf := heapLeaf_setHeap l k.vm pt heapPtr id
  refine ⟨iff_of_false hok nofun, ?_, hinv.pagetable, hinv.base, hinv.max,
    hinv.own.setHeap heapPtr, ?_⟩
  · rw [Kernel.heap, Kernel.heap]
    exact congrArg (AgentHeap.mk · _) (congrArg (pteEntry ∘ ·) hleaf)
  · rw [hleaf]
    exact hinv.sound.mono hle

/-- **`vm_heap_map_page`.** -/
theorem refines_map (va : Nat) (htables : ∀ p, heapPageAt id va = some p →
      heapEntry l k.vm pt id p = none → TablesFor l k.vm pt id p) :
    HeapRefines l id pt ((vmHeapMapPage l k id va).1 = 0) (vmHeapMapPage l k id va).2
      ((k.heap l id pt).call (newFrame l k.vm) (.map (heapPageAt id va))) := by
  rw [vmHeapMapPage]
  simp only [hinv.pagetable]
  cases hva : heapPageAt id va with
  | none =>
    rw [if_pos (hinv.range.mpr hva)]
    exact hinv.refused minus_one_ne_zero
  | some p =>
    rw [if_neg (by rw [hinv.range, hva]; exact Option.some_ne_none _)]
    obtain ⟨hpage, -, -⟩ := heapPageAt_some hva
    rw [hpage, vmPageMapped_heapVa]
    show HeapRefines l id pt _ _ ((k.heap l id pt).mapPage p (newFrame l k.vm))
    unfold AgentHeap.mapPage
    have hentry : (k.heap l id pt).entry p = heapEntry l k.vm pt id p := rfl
    have hcount : (k.heap l id pt).mapped = (k.agents id).heapMapped := rfl
    rw [hentry, hcount, hinv.max]
    by_cases hmapped : (heapEntry l k.vm pt id p).isSome = true
    · rw [if_pos hmapped, if_pos hmapped]
      exact ⟨iff_of_true rfl rfl, rfl, hinv⟩
    rw [if_neg hmapped, if_neg hmapped]
    by_cases hfull : 16 ≤ (k.agents id).heapMapped
    · rw [if_pos hfull, if_pos hfull]
      exact hinv.refused minus_one_ne_zero
    rw [if_neg hfull, if_neg hfull, newFrame]
    by_cases hnone : (kallocPage l k.vm).1 = 0
    · obtain ⟨heapPtr, hle, hheap⟩ := kallocPage_le l k.vm
      rw [if_pos hnone, if_pos hnone, hheap]
      exact hinv.setHeap minus_one_ne_zero hle
    rw [if_neg hnone, if_neg hnone]
    -- the page is free and gets the frame
    have hfree := Option.not_isSome_iff_eq_none.mp hmapped
    obtain ⟨haligned, -, hheap⟩ := kallocPage_pos hnone
    obtain ⟨hold, hend⟩ := frame_of_kallocPage hnone
    have hfree' : heapEntry l (kallocPage l k.vm).2 pt id p = none := by
      rw [hheap, heapEntry, heapLeaf_setHeap]
      exact hfree
    have htables' : TablesFor l (kallocPage l k.vm).2 pt id p := by
      rw [hheap]
      exact (htables p hva hfree).setHeap _
    have hown : OwnTables l (kallocPage l k.vm).2 pt := by
      rw [hheap]
      exact hinv.own.setHeap _
    obtain ⟨hrc, hown', hptr, hleaf⟩ := hown.mapHeapPage hfree' htables' haligned
      (pteU ||| pteR ||| pteW) rfl
    rw [hheap, heapLeaf_setHeap, ← hheap] at hleaf
    have hflags : UserFlags (x86PteFlags (pteU ||| pteR ||| pteW)) :=
      ⟨by decide, by decide, by decide⟩
    have hmono : k.vm.heapPtr ≤ (kallocPage l k.vm).1 + pageSize :=
      Nat.le_trans hold (Nat.le_trans (Nat.div_mul_le_self _ _) (Nat.le_add_right _ _))
    have hsound := (hinv.sound.mono hmono).put hflags (Nat.le_of_eq hend) p
    have hptr' : (kallocPage l k.vm).1 + pageSize = (vmMapPage l (kallocPage l k.vm).2 pt
        (heapVa id p) (kallocPage l k.vm).1 (pteU ||| pteR ||| pteW)).2.heapPtr := by
      rw [hptr, hheap]
      rfl
    rw [← hleaf, hptr'] at hsound
    rw [if_neg (by rw [hrc]; exact fun h => h rfl)]
    refine ⟨iff_of_true rfl rfl, ?_, ?_, ?_, ?_, hown', hsound⟩
    · rw [Kernel.heap, Kernel.setAgent_self]
      exact congrArg (AgentHeap.mk · _) (heapEntry_update hflags hleaf)
    · rw [Kernel.setAgent_self]
    · rw [Kernel.setAgent_self]
      exact hinv.base
    · rw [Kernel.setAgent_self]

/-- `vm_cow_break`, on a page that may not be written. -/
theorem refines_cowBreak (hentry : heapEntry l k.vm pt id p = some (f, false)) :
    HeapRefines l id pt ((vmCowBreak l k pt (heapVa id p)).1 = 0)
      (vmCowBreak l k pt (heapVa id p)).2
      ((k.heap l id pt).fault p true (newFrame l k.vm)) := by
  have hentry' : (k.heap l id pt).entry p = some (f, false) := hentry
  unfold AgentHeap.fault
  rw [hentry']
  dsimp only
  rw [if_pos (by decide)]
  obtain ⟨hdir, hslot, hword⟩ := walk_of_heapEntry hentry
  obtain ⟨hvalid, -, hwrite⟩ := pteEntry_eq_some hentry
  rw [vmCowBreak, pageDown_heapVa, hslot]
  dsimp only
  rw [hword, hvalid, hwrite, newFrame, if_neg (by decide), if_neg (by decide)]
  by_cases hnone : (kallocPage l k.vm).1 = 0
  · obtain ⟨heapPtr, hle, hheap⟩ := kallocPage_le l k.vm
    rw [if_pos hnone, if_pos hnone, hheap]
    exact hinv.setHeap minus_one_ne_zero hle
  · obtain ⟨-, -, hheap⟩ := kallocPage_pos hnone
    obtain ⟨hold, hend⟩ := frame_of_kallocPage hnone
    have hflags : UserFlags (pteV ||| pteU ||| pteW ||| pteStd) := ⟨by decide, by decide, by decide⟩
    have hleaf := (hinv.own.setHeap ((kallocPage l k.vm).1 + pageSize)).heapLeaf_write hdir id p
      (mkPte (kallocPage l k.vm).1 (pteV ||| pteU ||| pteW ||| pteStd))
    rw [heapLeaf_setHeap] at hleaf
    rw [if_neg hnone, if_neg hnone, hheap]
    refine ⟨iff_of_true rfl rfl, ?_, hinv.pagetable, hinv.base, hinv.max,
      (hinv.own.setHeap _).write (hinv.own.page_ne hdir) _ _, ?_⟩
    · exact congrArg (AgentHeap.mk · _) (heapEntry_update hflags hleaf)
    · refine hleaf.symm ▸ (hinv.sound.mono ?_).put hflags (Nat.le_of_eq hend) p
      exact Nat.le_trans hold (Nat.le_trans (Nat.div_mul_le_self _ _) (Nat.le_add_right _ _))

/-- **`vm_heap_fault`.** -/
theorem refines_fault (va : Nat) (write : Bool) (htables : ∀ p, heapPageAt id va = some p →
      heapEntry l k.vm pt id p = none → TablesFor l k.vm pt id p) :
    HeapRefines l id pt ((vmHeapFault l k id va write).1 = true) (vmHeapFault l k id va write).2
      ((k.heap l id pt).call (newFrame l k.vm) (.fault (heapPageAt id va) write)) := by
  rw [vmHeapFault]
  simp only [hinv.pagetable]
  cases hva : heapPageAt id va with
  | none =>
    rw [if_pos (hinv.range.mpr hva)]
    exact hinv.refused Bool.false_ne_true
  | some p =>
    rw [if_neg (by rw [hinv.range, hva]; exact Option.some_ne_none _)]
    obtain ⟨hpage, -, -⟩ := heapPageAt_some hva
    have hmap := refines_map hinv va htables
    rw [hva] at hmap
    rw [hpage, vmPageMapped_heapVa]
    show HeapRefines l id pt _ _ ((k.heap l id pt).fault p write (newFrame l k.vm))
    cases hp : heapEntry l k.vm pt id p with
    | none =>
      rw [if_neg (by decide), (k.heap l id pt).fault_none hp]
      exact hmap.decided
    | some e =>
      obtain ⟨f, w⟩ := e
      obtain ⟨-, hslot, hword⟩ := walk_of_heapEntry hp
      obtain ⟨hvalid, -, hwrite⟩ := pteEntry_eq_some hp
      rw [hslot]
      dsimp only [Option.isSome_some]
      rw [if_pos rfl, hword, hvalid, hwrite]
      by_cases hcow : (write && !w) = true
      · -- a store to a page that may not be written
        obtain ⟨rfl, hw⟩ := Bool.and_eq_true_iff.mp hcow
        obtain rfl : w = false := by simpa using hw
        rw [if_neg (by decide), if_pos (by decide)]
        exact (refines_cowBreak hinv hp).decided
      · rw [(k.heap l id pt).fault_some hp hcow]
        cases write with
        | false => exact hinv.refused Bool.false_ne_true
        | true =>
          obtain rfl : w = true := by simpa using hcow
          exact hinv.refused Bool.false_ne_true

end Map

/-! ## Aliases -/

/-- An entry for a page that may not be written. -/
def readOnly (pa : Nat) : Nat := mkPte pa (pteV ||| pteU ||| pteStd)

theorem userFlags_readOnly : UserFlags (pteV ||| pteU ||| pteStd) :=
  ⟨by decide, by decide, by decide⟩

/-- **The end of `vm_heap_cow_alias`**: both pages become read-only. -/
theorem OwnTables.cowProtect (h : OwnTables l vm pt) {src dst : HeapPage} (hne : dst ≠ src)
    (hdir : hasFlag (vm.mem pt heapDir) pteV = true)
    (hdst : hasFlag (heapLeaf l vm pt id dst) pteV = true) {out : Int × Vm}
    (hout : X86.cowProtect l vm pt (heapVa id dst)
      (ptePage (vm.mem pt heapDir), tableIndex (heapVa id src)) pa = out) :
    out.1 = heapVa id dst ∧ OwnTables l out.2 pt ∧ out.2.heapPtr = vm.heapPtr ∧
      heapLeaf l out.2 pt id =
        update (update (heapLeaf l vm pt id) src (readOnly pa)) dst
          (readOnly pa) := by
  have htable := h.page_ne hdir
  have hleaf := h.heapLeaf_write hdir id src (readOnly pa)
  have hown := h.write htable (tableIndex (heapVa id src)) (readOnly pa)
  obtain ⟨vm', hvm'⟩ : ∃ vm', vm.write (ptePage (vm.mem pt heapDir)) (tableIndex (heapVa id src))
      (readOnly pa) = vm' := ⟨_, rfl⟩
  have hroot : vm'.mem pt = vm.mem pt := by
    rw [← hvm', vm.write_of_ne htable.symm]
  have hptr : vm'.heapPtr = vm.heapPtr := by rw [← hvm']; rfl
  rw [hvm'] at hleaf hown
  have hdir' : hasFlag (vm'.mem pt heapDir) pteV = true := by rw [hroot, hdir]
  -- the entry of `dst` is still valid, so both entries are written
  have hvalid : hasFlag (vm'.mem (ptePage (vm'.mem pt heapDir)) (tableIndex (heapVa id dst)))
      pteV = true := by
    have hdst' : heapLeaf l vm' pt id dst = heapLeaf l vm pt id dst := by
      rw [hleaf, update_of_ne hne]
    rw [heapLeaf_eq, if_pos hdir'] at hdst'
    rw [hdst', hdst]
  have hresult : out = ((heapVa id dst : Int), vm'.write (ptePage (vm'.mem pt heapDir))
      (tableIndex (heapVa id dst)) (readOnly pa)) := by
    rw [← hout, X86.cowProtect]
    show (match (vmWalk l (vm.write (ptePage (vm.mem pt heapDir)) (tableIndex (heapVa id src))
      (readOnly pa)) pt (heapVa id dst) false).1 with | none => _ | some (table, i) => _) = _
    rw [hvm', vmWalk_valid l pt _ false (by rw [dirIndex_heapVa]; exact hdir'), dirIndex_heapVa]
    dsimp only
    rw [← readOnly, hvm', hvalid]
    rfl
  rw [hresult]
  refine ⟨rfl, hown.write (hown.page_ne hdir') _ _, hptr, ?_⟩
  dsimp only
  rw [hown.heapLeaf_write hdir' id dst, hleaf]

/-- The entries after both pages have become read-only. -/
theorem heapEntry_share {src dst : HeapPage}
    (hleaf : heapLeaf l vm' pt id = update
      (update (heapLeaf l vm pt id) src (readOnly (f * pageSize))) dst
        (readOnly (f * pageSize))) (n : Nat) :
    heapEntry l vm' pt id = AgentHeap.share ⟨heapEntry l vm pt id, n⟩ dst src f := by
  have hentry : pteEntry (readOnly (f * pageSize)) = some (f, false) := by
    rw [readOnly, userFlags_readOnly.pteEntry, Nat.mul_div_cancel _ (by decide)]
    rfl
  show pteEntry ∘ heapLeaf l vm' pt id = _
  rw [hleaf, comp_update, comp_update, hentry]
  rfl

section Cow

variable {src dst : HeapPage} {w : Bool} (hinv : HeapInv l id pt k) (hne : dst ≠ src)
  (hsrc : heapEntry l k.vm pt id src = some (f, w))

include hinv hsrc

/-- Sharing the frame of a mapped page keeps the entries sound. -/
theorem HeapInv.sound_share (dst : HeapPage) :
    HeapSound (update (update (heapLeaf l k.vm pt id) src
      (readOnly (f * pageSize))) dst (readOnly (f * pageSize))) k.vm.heapPtr := by
  obtain ⟨hvalid, hpage, -⟩ := pteEntry_eq_some hsrc
  have hbelow : (f * pageSize / pageSize + 1) * pageSize ≤ k.vm.heapPtr := by
    rw [Nat.mul_div_cancel _ (by decide), ← hpage]
    exact hinv.sound.below src hvalid
  exact (hinv.sound.put userFlags_readOnly hbelow src).put userFlags_readOnly hbelow dst

include hne

/-- The target shares the frame already. -/
theorem refines_cow_again (hdst : (heapEntry l k.vm pt id dst).isSome = true) {out : Int × Vm}
    (hout : cowProtect l k.vm pt (heapVa id dst)
      (ptePage (k.vm.mem pt heapDir), tableIndex (heapVa id src)) (f * pageSize) = out) :
    HeapRefines l id pt (0 ≤ out.1) { k with vm := out.2 }
      (true, { k.heap l id pt with entry := (k.heap l id pt).share dst src f }) := by
  obtain ⟨hdir, -, -⟩ := walk_of_heapEntry hsrc
  rw [heapEntry, pteEntry_isSome] at hdst
  obtain ⟨hrc, hown, hptr, hleaf⟩ := hinv.own.cowProtect hne hdir hdst hout
  refine ⟨iff_of_true ?_ rfl, ?_, hinv.pagetable, hinv.base, hinv.max, hown, ?_⟩
  · rw [hrc]
    exact Int.natCast_nonneg _
  · exact congrArg (AgentHeap.mk · _) (heapEntry_share hleaf _)
  · rw [hptr, hleaf]
    exact hinv.sound_share hsrc dst

/-- The target is mapped to the frame of the source. -/
theorem refines_cow_map (hdst : heapEntry l k.vm pt id dst = none)
    (htables : TablesFor l k.vm pt id dst) {mapped out : Int × Vm}
    (hmapped : vmMapPage l k.vm pt (heapVa id dst) (f * pageSize) (pteU ||| pteR) = mapped)
    (hout : cowProtect l mapped.2 pt (heapVa id dst)
      (ptePage (k.vm.mem pt heapDir), tableIndex (heapVa id src)) (f * pageSize) = out) :
    mapped.1 = 0 ∧
      HeapRefines l id pt (0 ≤ out.1)
        (({ k with vm := out.2 } : Kernel).setAgent id
          ⟨some pt, heapVa id 0, 16, (k.agents id).heapMapped + 1⟩)
        (true, ⟨(k.heap l id pt).share dst src f, (k.heap l id pt).mapped + 1⟩) := by
  obtain ⟨hdir, -, -⟩ := walk_of_heapEntry hsrc
  obtain ⟨hrc, hown, hptr, hleaf⟩ := hinv.own.mapHeapPage hdst htables (Nat.mul_mod_left f pageSize)
    (pteU ||| pteR) hmapped
  have hflags : UserFlags (x86PteFlags (pteU ||| pteR)) := ⟨by decide, by decide, by decide⟩
  have hdst' : hasFlag (heapLeaf l mapped.2 pt id dst) pteV = true := by
    rw [hleaf, update_self, hasFlag_mkPte _ _ (by decide)]
    exact hflags.valid
  obtain ⟨hdir', hpage⟩ := hinv.own.vmMapPage_dir hdir hmapped
  rw [← hpage] at hout
  obtain ⟨hva, hown', hptr', hleaf'⟩ := hown.cowProtect hne hdir' hdst' hout
  -- what was written for `dst` first is overwritten
  have hshare : heapLeaf l out.2 pt id =
      update (update (heapLeaf l k.vm pt id) src (readOnly (f * pageSize))) dst
        (readOnly (f * pageSize)) := by
    rw [hleaf', hleaf, update_comm hne, update_idem]
  refine ⟨hrc, iff_of_true ?_ rfl, ?_, ?_, ?_, ?_, hown', ?_⟩
  · rw [hva]
    exact Int.natCast_nonneg _
  · rw [Kernel.heap, Kernel.setAgent_self]
    exact congrArg (AgentHeap.mk · _) (heapEntry_share hshare _)
  · rw [Kernel.setAgent_self]
  · rw [Kernel.setAgent_self]
  · rw [Kernel.setAgent_self]
  · show HeapSound (heapLeaf l out.2 pt id) out.2.heapPtr
    rw [hptr', hptr, hshare]
    exact hinv.sound_share hsrc dst

end Cow

/-- What remains of `vm_heap_cow_alias` after the checks of its arguments. -/
theorem refines_cow_pages {src dst : HeapPage} (hinv : HeapInv l id pt k) (hne : dst ≠ src)
    (htables : heapEntry l k.vm pt id src ≠ none → heapEntry l k.vm pt id dst = none →
      TablesFor l k.vm pt id dst) :
    HeapRefines l id pt (0 ≤ (vmHeapCowAlias l k id (dst : Nat) (src : Nat)).1)
      (vmHeapCowAlias l k id (dst : Nat) (src : Nat)).2 ((k.heap l id pt).cowAlias dst src) := by
  have hinval : ¬ 0 ≤ einval := by decide
  have hnospc : ¬ 0 ≤ enospc := by decide
  have hoff : ¬ ((dst : Nat) : Int) = ((src : Nat) : Int) := fun h => hne (Fin.ext (by omega))
  rw [vmHeapCowAlias]
  simp only [hinv.pagetable, hinv.base, hinv.max]
  rw [if_neg hoff, if_neg (natCast_in_heap src), if_neg (natCast_in_heap dst),
    heapVa_natCast, heapVa_natCast, vmPageMapped_heapVa, vmPageMapped_heapVa]
  cases hsrc : heapEntry l k.vm pt id src with
  | none =>
    rw [(k.heap l id pt).cowAlias_unmapped hne hsrc, if_pos (by decide)]
    exact hinv.refused hinval
  | some e =>
    obtain ⟨f, w⟩ := e
    obtain ⟨-, hslot, hword⟩ := walk_of_heapEntry hsrc
    obtain ⟨hvalid, hpage, -⟩ := pteEntry_eq_some hsrc
    rw [if_neg (by simp), hslot]
    dsimp only
    rw [hword, hpage, hvalid, if_neg (by decide)]
    cases hdst : heapEntry l k.vm pt id dst with
    | some e =>
      obtain ⟨g, w'⟩ := e
      obtain ⟨-, hslot', hword'⟩ := walk_of_heapEntry hdst
      obtain ⟨hvalid', hpage', -⟩ := pteEntry_eq_some hdst
      rw [if_pos (Option.isSome_some), hslot']
      dsimp only
      rw [hword', hpage', hvalid', if_neg (by decide), (k.heap l id pt).cowAlias_mapped hne hsrc hdst]
      by_cases hgf : g = f
      · rw [if_neg (not_not.mpr hgf), if_pos hgf]
        exact refines_cow_again hinv hne hsrc (by rw [hdst]; rfl) rfl
      · rw [if_pos hgf, if_neg hgf]
        exact hinv.refused hinval
    | none =>
      rw [if_neg (by decide), (k.heap l id pt).cowAlias_new hne hsrc hdst]
      have hcount : (k.heap l id pt).mapped = (k.agents id).heapMapped := rfl
      rw [hcount]
      by_cases hfull : 16 ≤ (k.agents id).heapMapped
      · rw [if_pos hfull, if_pos hfull]
        exact hinv.refused hnospc
      · obtain ⟨hrc, hrefines⟩ := refines_cow_map hinv hne hsrc hdst
          (htables (by rw [hsrc]; exact Option.some_ne_none _) hdst) rfl rfl
        rw [if_neg hfull, if_neg hfull, if_neg (by rw [hrc]; exact fun h => h rfl)]
        exact hrefines

/-- **`vm_heap_cow_alias`.** -/
theorem refines_cow (hinv : HeapInv l id pt k) (dstOff srcOff : Int)
    (htables : ∀ dst src, heapPageOff dstOff = some dst → heapPageOff srcOff = some src →
      heapEntry l k.vm pt id src ≠ none → heapEntry l k.vm pt id dst = none →
      TablesFor l k.vm pt id dst) :
    HeapRefines l id pt (0 ≤ (vmHeapCowAlias l k id dstOff srcOff).1)
      (vmHeapCowAlias l k id dstOff srcOff).2
      ((k.heap l id pt).call (newFrame l k.vm)
        (.cow (heapPageOff dstOff) (heapPageOff srcOff))) := by
  have hrefused : HeapRefines l id pt (0 ≤ einval) k (false, k.heap l id pt) :=
    hinv.refused (by decide)
  by_cases hsame : dstOff = srcOff
  · rw [vmHeapCowAlias, AgentHeap.call_cow_same _ _ (congrArg heapPageOff hsame)]
    simp only [hinv.pagetable]
    rw [if_pos hsame]
    exact hrefused
  cases hsrcOff : heapPageOff srcOff with
  | none =>
    rw [vmHeapCowAlias, AgentHeap.call_cow_none]
    simp only [hinv.pagetable, hinv.max]
    rw [if_neg hsame, if_pos (heapPageOff_none hsrcOff)]
    exact hrefused
  | some src =>
    obtain ⟨hsrcRange, hsrcEq⟩ := heapPageOff_some hsrcOff
    cases hdstOff : heapPageOff dstOff with
    | none =>
      rw [vmHeapCowAlias]
      simp only [hinv.pagetable, hinv.max]
      rw [if_neg hsame, if_neg (by omega), if_pos (heapPageOff_none hdstOff)]
      exact hrefused
    | some dst =>
      obtain ⟨-, hdstEq⟩ := heapPageOff_some hdstOff
      have hne : dst ≠ src := by
        rintro rfl
        exact hsame (hdstEq.trans hsrcEq.symm)
      have hpages := refines_cow_pages hinv hne (htables dst src hdstOff hsrcOff)
      rw [← hdstEq, ← hsrcEq] at hpages
      exact hpages

/-- The frame that `kalloc_page` hands out is not in use. -/
theorem HeapInv.unused (hinv : HeapInv l id pt k) (hnew : newFrame l k.vm = some f) :
    (k.heap l id pt).Unused f := by
  intro p hframe
  rw [newFrame] at hnew
  by_cases hnone : (kallocPage l k.vm).1 = 0
  · rw [if_pos hnone] at hnew
    cases hnew
  rw [if_neg hnone] at hnew
  obtain rfl := Option.some.inj hnew
  obtain ⟨⟨g, w⟩, hentry, rfl⟩ := Option.map_eq_some_iff.mp hframe
  obtain ⟨hvalid, hpage, -⟩ := pteEntry_eq_some hentry
  have hbelow := hinv.sound.below p hvalid
  have hold := (frame_of_kallocPage hnone).1
  rw [hpage, Nat.add_mul, Nat.one_mul] at hbelow
  simp only [pageSize] at hbelow hold
  omega

/-! ## New agents -/

theorem OwnTables.vmMapPages (perm n : Nat) : ∀ {va pa vm}, OwnTables l vm pt →
    OwnTables l (X86.vmMapPages l pt perm n va pa vm).2 pt := by
  induction n with
  | zero => exact id
  | succ n ih =>
    intro va pa vm h
    have hmap := h.vmMapPage va pa perm
    rw [X86.vmMapPages]
    split_ifs
    · exact hmap
    · exact ih hmap

theorem OwnTables.vmMapRegions (regions : List (Nat × Nat × Nat × Nat)) :
    ∀ {vm}, OwnTables l vm pt → OwnTables l (X86.vmMapRegions l pt regions vm).2 pt := by
  induction regions with
  | nil => exact id
  | cons region regions ih =>
    obtain ⟨va, pa, size, perm⟩ := region
    intro vm h
    have hregion : OwnTables l (vmMapRegion l vm pt va pa size perm).2 pt := h.vmMapPages perm _
    rw [X86.vmMapRegions]
    split_ifs
    · exact hregion
    · exact ih hregion

/-- **`vm_create_agent_pt`** makes a directory with tables of its own. -/
theorem ownTables_created (h : vmCreateAgentPt l vm = (some pt, vm')) : OwnTables l vm' pt := by
  rw [vmCreateAgentPt] at h
  by_cases hroom : vm.ptNext < ptPages
  · rw [ptAlloc, if_neg (Nat.not_le.mpr hroom)] at h
    dsimp only at h
    have hnew : OwnTables l (({ vm with ptNext := vm.ptNext + 1 } : Vm).writePage
        (l.poolPage vm.ptNext) fun _ => 0) (l.poolPage vm.ptNext) := by
      refine ⟨vm.ptNext, rfl, Nat.lt_succ_self _, fun i hv => ?_⟩
      have hzero : (({ vm with ptNext := vm.ptNext + 1 } : Vm).writePage (l.poolPage vm.ptNext)
          fun _ => 0).mem (l.poolPage vm.ptNext) = fun _ => 0 := update_self ..
      rw [hzero, hasFlag_zero] at hv
      exact absurd hv nofun
    have hmapped := hnew.vmMapRegions l.kernelRegions
    split_ifs at h
    · exact absurd h nofun
    · obtain ⟨hpt, rfl⟩ := Prod.mk.inj h
      obtain rfl := Option.some.inj hpt
      exact hmapped
  · rw [ptAlloc, if_pos (Nat.not_lt.mp hroom)] at h
    exact absurd h nofun

/-- The end of `agent_setup_stack`. -/
theorem ownTables_finishStack {mapped : Int × Vm} (hown : OwnTables l mapped.2 pt)
    (h : finishStack l k id pt mapped = (true, k')) :
    k'.agents id = freshHeap id (some pt) ∧ OwnTables l k'.vm pt := by
  obtain ⟨heapPtr, htf⟩ := kalloc_snd l mapped.2 trapframeSize
  simp only [finishStack, htf] at h
  split_ifs at h
  · exact absurd (Prod.mk.inj h).1 nofun
  · exact absurd (Prod.mk.inj h).1 nofun
  · obtain rfl := (Prod.mk.inj h).2
    exact ⟨Kernel.setAgent_self .., hown.setHeap heapPtr⟩

/-- **A new agent** has tables of its own, whatever the state was before. -/
theorem ownTables_setupStack (h : agentSetupStack l k id = (true, k')) :
    ∃ pt, k'.agents id = freshHeap id (some pt) ∧ OwnTables l k'.vm pt := by
  simp only [agentSetupStack] at h
  split_ifs at h
  · exact absurd (Prod.mk.inj h).1 nofun
  · exact absurd (Prod.mk.inj h).1 nofun
  split at h
  · exact absurd (Prod.mk.inj h).1 nofun
  rename_i pt vm hcreate
  exact ⟨pt, ownTables_finishStack ((ownTables_created hcreate).vmMapPages _ _) h⟩

/-- **A new agent whose heap is empty.** -/
theorem heapInv_created (h : agentSetupStack l k id = (true, k'))
    (hempty : ∀ pt, (k'.agents id).pagetable = some pt → ∀ p, heapEntry l k'.vm pt id p = none) :
    ∃ pt, HeapInv l id pt k' ∧ k'.heap l id pt = AgentHeap.empty := by
  obtain ⟨pt, hagent, hown⟩ := ownTables_setupStack h
  have hpt : (k'.agents id).pagetable = some pt := by
    rw [hagent]
    rfl
  have hnone : heapEntry l k'.vm pt id = fun _ => none := funext (hempty pt hpt)
  have hinvalid : ∀ p, ¬ hasFlag (heapLeaf l k'.vm pt id p) pteV = true := by
    intro p hv
    have hsome := pteEntry_isSome (heapLeaf l k'.vm pt id p)
    rw [hv, ← heapEntry, hnone] at hsome
    exact absurd hsome nofun
  refine ⟨pt, ⟨hpt, ?_, ?_, hown, ?_⟩, ?_⟩
  · rw [hagent]
    rfl
  · rw [hagent]
    rfl
  · exact ⟨fun p hv => absurd hv (hinvalid p), fun p hv => absurd hv (hinvalid p)⟩
  · rw [Kernel.heap, hnone, hagent]
    rfl

end X86

end OpenAgentOS
