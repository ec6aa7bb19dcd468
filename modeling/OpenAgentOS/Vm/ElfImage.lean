import OpenAgentOS.Vm.HeapPages
import OpenAgentOS.Vm.LoadConflict

/-!
# The memory image of a loaded file (kernel/elfload.c)

`elf_map_segment` maps new pages at the addresses of a segment and copies the bytes of the file into
them. This module follows the bytes, which the model of the page tables leaves out.

- `LoadMem`: page tables, and the bytes of physical memory.
- `elfLoadBytes`: `elf_load_into_agent` with the bytes. On page tables it is `elfLoadIntoAgent`
  (`elfLoadBytes_vm`).
- `HoldsPage`: a page of an agent has given bytes and permissions. `KeepsPages`: what a later step
  leaves alone. A page that is held stays so, since new pages come from memory that was free.
- `elfLoadBytes_image_iff`: when memory is what the file says. Behind the end of a segment there are
  zeroes exactly if the file has none but zeroes to copy there: a segment may be longer in the file
  than in memory (`not_elfLoadBytes_image`).
-/

namespace OpenAgentOS

/-! ## Loading with bytes -/

/-- Page tables and the bytes at physical addresses. -/
structure LoadMem where
  vm : Vm
  data : Nat → UInt8

/-- What `elf_map_segment` puts into the page at `va` (elfload.c:95-109), where `src` is the file
from `p_offset` on. -/
def segmentPage (src : Nat → UInt8) (vaddr filesz va : Nat) : Nat → UInt8 :=
  let pageOff := if va < vaddr then vaddr - va else 0
  let foff := va + pageOff - vaddr
  let copyLen := min (pageSize - pageOff) (filesz - foff)
  fun j => if foff < filesz ∧ pageOff ≤ j ∧ j < pageOff + copyLen then src (foff + (j - pageOff)) else 0

/-- A whole page is written. -/
def LoadMem.fill (m : LoadMem) (page : Nat) (bytes : Nat → UInt8) : LoadMem :=
  { m with data := fun a => if page ≤ a ∧ a < page + pageSize then bytes (a - page) else m.data a }

/-- The loop of `elf_map_segment`, `n` pages from `va` on. -/
def elfMapPagesBytes (l : Layout) (pt perm : Nat) (src : Nat → UInt8) (vaddr filesz : Nat) :
    Nat → Nat → LoadMem → Int × LoadMem
  | 0, _, m => (0, m)
  | n + 1, va, m =>
    let page := kallocPage l m.vm
    if page.1 = 0 then (enospc, { m with vm := page.2 })
    else
      let m := LoadMem.fill { m with vm := page.2 } page.1 (segmentPage src vaddr filesz va)
      let out := vmMapPage l m.vm pt va page.1 perm
      if out.1 ≠ 0 then (enospc, { m with vm := out.2 })
      else elfMapPagesBytes l pt perm src vaddr filesz n (va + pageSize) { m with vm := out.2 }

/-- The permissions of a segment with these flags. -/
def segmentPerm (flags : Nat) : Nat :=
  pteU ||| pteR ||| (if flags &&& 2 ≠ 0 then pteW else 0) ||| (if flags &&& 1 ≠ 0 then pteX else 0)

/-- The file from offset `off` on. -/
def ElfFile.from (f : ElfFile) (off : Nat) : Nat → UInt8 := fun i => f.bytes ((off + i) % 2 ^ 64)

/-- The number of pages of a segment. -/
def segmentPages (vaddr memsz : Nat) : Nat := (segmentEnd vaddr memsz - pageDown vaddr) / pageSize

/-- `elf_map_segment` (elfload.c:78) for program header `i`. -/
def elfMapSegmentBytes (l : Layout) (f : ElfFile) (pt i : Nat) (m : LoadMem) : Int × LoadMem :=
  elfMapPagesBytes l pt (segmentPerm (f.pFlags i)) (f.from (f.pOffset i)) (f.pVaddr i) (f.pFilesz i)
    (segmentPages (f.pVaddr i) (f.pMemsz i)) (pageDown (f.pVaddr i)) m

/-- The loop of `elf_load_into_agent` over the program headers from `i` on. -/
def elfLoadHeadersBytes (l : Layout) (f : ElfFile) (pt : Nat) : Nat → Nat → LoadMem → Int × LoadMem
  | 0, _, m => (0, m)
  | n + 1, i, m =>
    if f.len < (f.phdr i + 56) % 2 ^ 64 then (einval, m)
    else if f.pType i ≠ 1 then elfLoadHeadersBytes l f pt n (i + 1) m
    else if f.len < (f.pOffset i + f.pFilesz i) % 2 ^ 64 then (einval, m)
    else
      let out := elfMapSegmentBytes l f pt i m
      if out.1 ≠ 0 then (enospc, out.2) else elfLoadHeadersBytes l f pt n (i + 1) out.2

/-- `elf_load_into_agent` (elfload.c:117). -/
def elfLoadBytes (l : Layout) (m : LoadMem) (pt : Nat) (f : ElfFile) : Int × LoadMem :=
  if f.len < 64 then (einval, m)
  else if f.header 0 4 ≠ 0x464c457f then (einval, m)
  else if f.header 4 1 ≠ 2 ∨ f.header 5 1 ≠ 1 then (einval, m)
  else if f.header 18 2 ≠ 243 then (einval, m)
  else if f.header 54 2 ≠ 56 then (einval, m)
  else elfLoadHeadersBytes l f pt f.phnum 0 m

/-! ## The same page tables -/

/-- Two results agree on the code and on the page tables. -/
def SameTables (out : Int × LoadMem) (out' : Int × Vm) : Prop := out.1 = out'.1 ∧ out.2.vm = out'.2

section

variable {l : Layout} {pt : Nat}

theorem elfMapPagesBytes_vm (perm : Nat) (src : Nat → UInt8) (vaddr filesz n : Nat) :
    ∀ va m, SameTables (elfMapPagesBytes l pt perm src vaddr filesz n va m)
      (elfMapPages l pt perm n va m.vm) := by
  induction n with
  | zero => exact fun _ _ => ⟨rfl, rfl⟩
  | succ n ih =>
    intro va m
    rw [elfMapPagesBytes, elfMapPages]
    -- named through an equation, so that no check unfolds the allocation
    obtain ⟨page, hpage⟩ : ∃ page, kallocPage l m.vm = page := ⟨_, rfl⟩
    rw [hpage]
    dsimp only [LoadMem.fill]
    split_ifs
    · exact ⟨rfl, rfl⟩
    · exact ⟨rfl, rfl⟩
    · exact ih _ _

theorem elfLoadHeadersBytes_vm (f : ElfFile) (n : Nat) :
    ∀ i m, SameTables (elfLoadHeadersBytes l f pt n i m) (elfLoadHeaders l f pt n i m.vm) := by
  induction n with
  | zero => exact fun _ _ => ⟨rfl, rfl⟩
  | succ n ih =>
    intro i m
    rw [elfLoadHeadersBytes, elfLoadHeaders]
    have hseg : SameTables (elfMapSegmentBytes l f pt i m)
        (elfMapSegment l m.vm pt (f.pVaddr i) (f.pMemsz i) (f.pFlags i)) :=
      elfMapPagesBytes_vm _ _ _ _ _ _ _
    dsimp only
    rw [hseg.1, ← hseg.2]
    split_ifs
    · exact ⟨rfl, rfl⟩
    · exact ih _ _
    · exact ⟨rfl, rfl⟩
    · exact ⟨rfl, rfl⟩
    · exact ih _ _

/-- **On page tables this is `elf_load_into_agent`.** -/
theorem elfLoadBytes_vm (m : LoadMem) (f : ElfFile) :
    SameTables (elfLoadBytes l m pt f) (elfLoadIntoAgent l m.vm pt f) := by
  rw [elfLoadBytes, elfLoadIntoAgent]
  split_ifs
  · exact ⟨rfl, rfl⟩
  · exact ⟨rfl, rfl⟩
  · exact ⟨rfl, rfl⟩
  · exact ⟨rfl, rfl⟩
  · exact ⟨rfl, rfl⟩
  · exact elfLoadHeadersBytes_vm f _ _ _

end

/-! ## Pages -/

/-- The page of `va` has a frame below the free memory with these bytes, and these permissions. -/
def HoldsPage (l : Layout) (pt : Nat) (m : LoadMem) (va : Nat) (bytes : Nat → UInt8) (perm : Nat) :
    Prop :=
  ∃ frame, leafFrom l m.vm (va % 2 ^ 39) 2 pt = mappedEntry frame perm ∧ frame % pageSize = 0 ∧
    frame + pageSize ≤ m.vm.heapPtr ∧ ∀ j, j < pageSize → m.data (frame + j) = bytes j

/-- Pages that are mapped stay as they are, and so do the bytes of memory in use. -/
structure KeepsPages (l : Layout) (pt : Nat) (m m' : LoadMem) (place' : Places) : Prop where
  tree : PageTree l m'.vm place'
  root : place' pt = some (2, 0)
  heap : m.vm.heapPtr ≤ m'.vm.heapPtr
  leaf : ∀ va, va < 2 ^ 39 → hasFlag (leafFrom l m.vm va 2 pt) pteV = true →
    leafFrom l m'.vm va 2 pt = leafFrom l m.vm va 2 pt
  data : ∀ a, a < m.vm.heapPtr → m'.data a = m.data a

section

variable {l : Layout} {pt perm : Nat} {m m' m'' : LoadMem} {place place' place'' : Places}

theorem KeepsPages.refl (htree : PageTree l m.vm place) (hroot : place pt = some (2, 0)) :
    KeepsPages l pt m m place :=
  ⟨htree, hroot, Nat.le_refl _, fun _ _ _ => rfl, fun _ _ => rfl⟩

theorem KeepsPages.trans (h : KeepsPages l pt m m' place') (h' : KeepsPages l pt m' m'' place'') :
    KeepsPages l pt m m'' place'' where
  tree := h'.tree
  root := h'.root
  heap := Nat.le_trans h.heap h'.heap
  leaf va hva hvalid := by
    have hsame := h.leaf va hva hvalid
    rw [h'.leaf va hva (by rw [hsame]; exact hvalid), hsame]
  data a ha := (h'.data a (Nat.lt_of_lt_of_le ha h.heap)).trans (h.data a ha)

/-- A page that is held stays so. -/
theorem HoldsPage.keep {va : Nat} {bytes : Nat → UInt8} (h : HoldsPage l pt m va bytes perm)
    (hkeeps : KeepsPages l pt m m' place') : HoldsPage l pt m' va bytes perm := by
  obtain ⟨frame, hleaf, haligned, hused, hbytes⟩ := h
  refine ⟨frame, ?_, haligned, Nat.le_trans hused hkeeps.heap, fun j hj => ?_⟩
  · rw [hkeeps.leaf _ (mod_lt_39 va) (by rw [hleaf]; exact hasFlag_mappedEntry _ _), hleaf]
  · rw [hkeeps.data _ (by omega), hbytes j hj]

/-- A new page with bytes, mapped. -/
def LoadMem.mapped (l : Layout) (m : LoadMem) (pt va perm : Nat) (bytes : Nat → UInt8) : LoadMem :=
  { LoadMem.fill m (kallocPage l m.vm).1 bytes with
    vm := (vmMapPage l (kallocPage l m.vm).2 pt va (kallocPage l m.vm).1 perm).2 }

/-- **Mapping one page** puts its bytes there and keeps all others. -/
theorem keepsPages_mapped (htree : PageTree l m.vm place) (hroot : place pt = some (2, 0)) {va : Nat}
    (bytes : Nat → UInt8) (hpage : (kallocPage l m.vm).1 ≠ 0)
    (hrc : (vmMapPage l (kallocPage l m.vm).2 pt va (kallocPage l m.vm).1 perm).1 = 0) :
    ∃ place', KeepsPages l pt m (m.mapped l pt va perm bytes) place' ∧
      HoldsPage l pt (m.mapped l pt va perm bytes) va bytes perm := by
  obtain ⟨haligned, hle, hheap⟩ := kallocPage_pos hpage
  obtain ⟨page, hpageEq⟩ : ∃ page, (kallocPage l m.vm).1 = page := ⟨_, rfl⟩
  rw [LoadMem.mapped]
  rw [hheap, hpageEq] at hrc ⊢
  rw [hpageEq] at haligned hle
  rw [← vmMapPage_mod] at hrc ⊢
  obtain ⟨place', heffect⟩ := (htree.setHeap (page + pageSize)).vmMapPage_effect hroot (mod_lt_39 va)
    page perm
  cases heffect with
  | refused hfail => exact absurd (hfail.symm.trans hrc) (by decide)
  | mapped _ _ htree' hkeeps hptr hfree hentry hother =>
    rw [leafFrom_setHeap] at hfree
    refine ⟨place', ⟨htree', hkeeps _ _ hroot, ?_, fun va' hva' hvalid => ?_, fun a ha => ?_⟩,
      page, hentry, haligned, ?_, fun j hj => ?_⟩
    · show m.vm.heapPtr ≤ _
      rw [hptr]
      exact Nat.le_trans hle (Nat.le_add_right _ _)
    · -- a page that was mapped is another one
      have hne : va' / pageSize ≠ va % 2 ^ 39 / pageSize := by
        intro heq
        rw [leafFrom_congr heq] at hvalid
        rw [hvalid] at hfree
        cases hfree
      have hplace : place pt = some (2, tablePrefix 2 va') := by rw [tablePrefix_two hva', hroot]
      exact (hother 2 pt va' hplace hne).trans (leafFrom_setHeap _ _ _ _ _ _)
    · exact if_neg fun h => absurd (Nat.lt_of_lt_of_le ha hle) (Nat.not_lt.mpr h.1)
    · show page + pageSize ≤ _
      rw [hptr]
      exact Nat.le_refl _
    · show (if page ≤ page + j ∧ page + j < page + pageSize then bytes (page + j - page) else _) = _
      rw [if_pos ⟨Nat.le_add_right _ _, Nat.add_lt_add_left hj _⟩, Nat.add_sub_cancel_left]

/-- **A loop over pages that succeeds** has mapped all of them. -/
theorem elfMapPagesBytes_ok {src : Nat → UInt8} {vaddr filesz : Nat} (n : Nat) :
    ∀ va m place, PageTree l m.vm place → place pt = some (2, 0) →
      (elfMapPagesBytes l pt perm src vaddr filesz n va m).1 = 0 →
      ∃ place', KeepsPages l pt m (elfMapPagesBytes l pt perm src vaddr filesz n va m).2 place' ∧
        ∀ j, j < n → HoldsPage l pt (elfMapPagesBytes l pt perm src vaddr filesz n va m).2
          (va + j * pageSize) (segmentPage src vaddr filesz (va + j * pageSize)) perm := by
  induction n with
  | zero =>
    intro va m place htree hroot _
    exact ⟨place, .refl htree hroot, fun j hj => absurd hj (Nat.not_lt_zero j)⟩
  | succ n ih =>
    intro va m place htree hroot hrc
    have hcode : enospc ≠ 0 := by decide
    have hnext : (kallocPage l m.vm).1 ≠ 0 ∧
        (vmMapPage l (kallocPage l m.vm).2 pt va (kallocPage l m.vm).1 perm).1 = 0 ∧
        elfMapPagesBytes l pt perm src vaddr filesz (n + 1) va m =
          elfMapPagesBytes l pt perm src vaddr filesz n (va + pageSize)
            (m.mapped l pt va perm (segmentPage src vaddr filesz va)) := by
      rw [elfMapPagesBytes] at hrc ⊢
      rw [LoadMem.mapped]
      obtain ⟨page, hpage⟩ : ∃ page, kallocPage l m.vm = page := ⟨_, rfl⟩
      rw [hpage] at hrc ⊢
      dsimp only [LoadMem.fill] at hrc ⊢
      split_ifs at hrc ⊢ with hnone hfail
      · exact absurd hrc hcode
      · exact absurd hrc hcode
      · exact ⟨hnone, not_not.mp hfail, rfl⟩
    obtain ⟨hpage, hmap, heq⟩ := hnext
    rw [heq] at hrc ⊢
    obtain ⟨place₁, hkeeps, hheld⟩ := keepsPages_mapped htree hroot (segmentPage src vaddr filesz va)
      hpage hmap
    obtain ⟨place', hkeeps', hheld'⟩ := ih _ _ place₁ hkeeps.tree hkeeps.root hrc
    refine ⟨place', hkeeps.trans hkeeps', ?_⟩
    rintro (_ | j) hj
    · rw [Nat.zero_mul, Nat.add_zero]
      exact hheld.keep hkeeps'
    · have hva : va + (j + 1) * pageSize = va + pageSize + j * pageSize := by
        rw [Nat.succ_mul]
        omega
      rw [hva]
      exact hheld' j (Nat.lt_of_succ_lt_succ hj)

end

/-! ## Segments -/

/-- The byte that the agent finds at an address. -/
def userByteAt (l : Layout) (m : LoadMem) (pt va : Nat) : Option UInt8 :=
  (vmLookup l m.vm pt va).map fun pte => m.data (ptePpn pte * pageSize + va % pageSize)

/-- All pages of segment `i` are there. -/
def HoldsSegment (l : Layout) (pt : Nat) (m : LoadMem) (f : ElfFile) (i : Nat) : Prop :=
  ∀ j, j < segmentPages (f.pVaddr i) (f.pMemsz i) →
    HoldsPage l pt m (pageDown (f.pVaddr i) + j * pageSize)
      (segmentPage (f.from (f.pOffset i)) (f.pVaddr i) (f.pFilesz i)
        (pageDown (f.pVaddr i) + j * pageSize))
      (segmentPerm (f.pFlags i))

section

variable {l : Layout} {pt : Nat} {m m' : LoadMem} {place : Places} {f : ElfFile}

/-- **A load that succeeds** has mapped every segment. -/
theorem elfLoadHeadersBytes_ok (n : Nat) :
    ∀ i m place, PageTree l m.vm place → place pt = some (2, 0) →
      (elfLoadHeadersBytes l f pt n i m).1 = 0 →
      ∃ place', KeepsPages l pt m (elfLoadHeadersBytes l f pt n i m).2 place' ∧
        ∀ j, i ≤ j → j < i + n → f.pType j = 1 →
          HoldsSegment l pt (elfLoadHeadersBytes l f pt n i m).2 f j := by
  have hcodes : einval ≠ 0 ∧ enospc ≠ 0 := by decide
  induction n with
  | zero =>
    intro i m place htree hroot _
    exact ⟨place, .refl htree hroot, fun j hlo hhi => absurd hhi (Nat.not_lt.mpr hlo)⟩
  | succ n ih =>
    intro i m place htree hroot hrc
    rw [elfLoadHeadersBytes] at hrc ⊢
    by_cases hhdr : f.len < (f.phdr i + 56) % 2 ^ 64
    · rw [if_pos hhdr] at hrc
      exact absurd hrc hcodes.1
    rw [if_neg hhdr] at hrc ⊢
    -- what is known of the headers behind `i`, with or without a segment at `i`
    by_cases htype : f.pType i ≠ 1
    · rw [if_pos htype] at hrc ⊢
      obtain ⟨place', hkeeps, hheld⟩ := ih (i + 1) m place htree hroot hrc
      refine ⟨place', hkeeps, fun j hlo hhi hj => hheld j ?_ (by omega) hj⟩
      rcases Nat.lt_or_eq_of_le hlo with hlt | rfl
      · exact hlt
      · exact absurd hj htype
    rw [if_neg htype] at hrc ⊢
    by_cases hfile : f.len < (f.pOffset i + f.pFilesz i) % 2 ^ 64
    · rw [if_pos hfile] at hrc
      exact absurd hrc hcodes.1
    rw [if_neg hfile] at hrc ⊢
    dsimp only at hrc ⊢
    by_cases hseg : (elfMapSegmentBytes l f pt i m).1 ≠ 0
    · rw [if_pos hseg] at hrc
      exact absurd hrc hcodes.2
    rw [if_neg hseg] at hrc ⊢
    obtain ⟨place₁, hkeeps, hheld⟩ := elfMapPagesBytes_ok _ _ m place htree hroot (not_not.mp hseg)
    obtain ⟨place', hkeeps', hheld'⟩ := ih (i + 1) _ place₁ hkeeps.tree hkeeps.root hrc
    refine ⟨place', hkeeps.trans hkeeps', fun j hlo hhi hj => ?_⟩
    rcases Nat.lt_or_eq_of_le hlo with hlt | rfl
    · exact hheld' j hlt (by omega) hj
    · exact fun t ht => (hheld t ht).keep hkeeps'

theorem elfLoadBytes_ok (htree : PageTree l m.vm place) (hroot : place pt = some (2, 0))
    (hok : elfLoadBytes l m pt f = (0, m')) :
    ∀ i, i < f.phnum → f.pType i = 1 → HoldsSegment l pt m' f i := by
  have hcode : einval ≠ 0 := by decide
  have hheaders : elfLoadHeadersBytes l f pt f.phnum 0 m = (0, m') := by
    rw [elfLoadBytes] at hok
    split_ifs at hok
    iterate 5
      · exact absurd (Prod.mk.inj hok).1 hcode
    exact hok
  obtain ⟨place', -, hheld⟩ := elfLoadHeadersBytes_ok f.phnum 0 m place htree hroot
    (congrArg Prod.fst hheaders)
  rw [hheaders] at hheld
  exact fun i hi => hheld i (Nat.zero_le i) (by omega)

/-! ## Bytes -/

/-- A page of a segment, byte by byte. -/
theorem segmentPage_eq {src : Nat → UInt8} {vaddr filesz va j : Nat} (hva : pageDown vaddr ≤ va)
    (hj : j < pageSize) :
    segmentPage src vaddr filesz va j =
      if vaddr ≤ va + j ∧ va + j - vaddr < filesz then src (va + j - vaddr) else 0 := by
  have hdown : vaddr < pageDown vaddr + pageSize := by
    simp only [pageDown, pageSize]
    omega
  simp only [segmentPage, pageSize] at hj hdown ⊢
  by_cases hfirst : va < vaddr
  · rw [if_pos hfirst]
    have hfoff : va + (vaddr - va) - vaddr = 0 := by omega
    rw [hfoff]
    by_cases hin : vaddr ≤ va + j ∧ va + j - vaddr < filesz
    · rw [if_pos hin, if_pos (by omega), Nat.zero_add]
      congr 1
      omega
    · rw [if_neg hin, if_neg (by omega)]
  · rw [if_neg hfirst, Nat.add_zero]
    by_cases hin : vaddr ≤ va + j ∧ va + j - vaddr < filesz
    · rw [if_pos hin, if_pos (by omega)]
      congr 1
      omega
    · rw [if_neg hin, if_neg (by omega)]

theorem leafFrom_mod (l : Layout) (vm : Vm) (pt va : Nat) :
    leafFrom l vm (va % 2 ^ 39) 2 pt = leafFrom l vm va 2 pt := by
  rw [leafFrom, leafFrom, walkFrom_mod l false va (Nat.le_refl 2)]

/-- What the agent finds in a page that is held. -/
theorem HoldsPage.lookup {page va perm : Nat} {bytes : Nat → UInt8} (hperm : perm < 2 ^ 10)
    (h : HoldsPage l pt m page bytes perm) (hpage : va / pageSize = page / pageSize) :
    userByteAt l m pt va = some (bytes (va % pageSize)) ∧
      ∃ pte, vmLookup l m.vm pt va = some pte ∧
        ∀ flag, flag < 2 ^ 10 → hasFlag pte flag = hasFlag (perm ||| pteV ||| pteStd) flag := by
  obtain ⟨frame, hleaf, haligned, -, hbytes⟩ := h
  obtain ⟨hframe, -⟩ := mappedEntry_decode haligned hperm
  have hsame : leafFrom l m.vm va 2 pt = mappedEntry frame perm := by
    rw [← hleaf, ← leafFrom_mod l m.vm pt va]
    refine leafFrom_congr ?_ 2 pt
    simp only [pageSize] at hpage ⊢
    omega
  have hlookup : vmLookup l m.vm pt va = some (mappedEntry frame perm) := by
    rw [vmLookup, hsame]
    exact if_pos (hasFlag_mappedEntry _ _)
  refine ⟨?_, _, hlookup, fun flag hflag => hasFlag_mkPte _ _ hflag⟩
  rw [userByteAt, hlookup, Option.map_some, hframe, hbytes _ (Nat.mod_lt _ (by decide))]

/-- The agent finds segment `i` in memory: the bytes of the file, zeroes behind them and in the rest
of the pages, and the permissions of the segment. -/
structure SegmentImage (l : Layout) (pt : Nat) (m : LoadMem) (f : ElfFile) (i : Nat) : Prop where
  bytes : ∀ k, k < f.pMemsz i → userByteAt l m pt (f.pVaddr i + k) =
    some (if k < f.pFilesz i then f.bytes (f.pOffset i + k) else 0)
  rest : ∀ va, pageDown (f.pVaddr i) ≤ va → va < segmentEnd (f.pVaddr i) (f.pMemsz i) →
    va < f.pVaddr i ∨ f.pVaddr i + f.pMemsz i ≤ va → userByteAt l m pt va = some 0
  perms : ∀ va, pageDown (f.pVaddr i) ≤ va → va < segmentEnd (f.pVaddr i) (f.pMemsz i) →
    ∃ pte, vmLookup l m.vm pt va = some pte ∧ hasFlag pte pteU = true ∧ hasFlag pte pteR = true ∧
      hasFlag pte pteW = decide (f.pFlags i &&& 2 ≠ 0) ∧
      hasFlag pte pteX = decide (f.pFlags i &&& 1 ≠ 0)

theorem segmentPerm_lt (flags : Nat) : segmentPerm flags < 2 ^ 10 := by
  rw [segmentPerm]
  split_ifs <;> decide

theorem hasFlag_segmentPerm (flags : Nat) :
    hasFlag (segmentPerm flags ||| pteV ||| pteStd) pteU = true ∧
      hasFlag (segmentPerm flags ||| pteV ||| pteStd) pteR = true ∧
      hasFlag (segmentPerm flags ||| pteV ||| pteStd) pteW = decide (flags &&& 2 ≠ 0) ∧
      hasFlag (segmentPerm flags ||| pteV ||| pteStd) pteX = decide (flags &&& 1 ≠ 0) := by
  rw [segmentPerm]
  by_cases hw : flags &&& 2 ≠ 0 <;> by_cases hx : flags &&& 1 ≠ 0
  · rw [if_pos hw, if_pos hx, decide_eq_true hw, decide_eq_true hx]
    decide
  · rw [if_pos hw, if_neg hx, decide_eq_true hw, decide_eq_false hx]
    decide
  · rw [if_neg hw, if_pos hx, decide_eq_false hw, decide_eq_true hx]
    decide
  · rw [if_neg hw, if_neg hx, decide_eq_false hw, decide_eq_false hx]
    decide

/-- The end of a segment, where rounding it up does not wrap. -/
theorem segmentEnd_eq {vaddr memsz : Nat} (h : vaddr + memsz + (pageSize - 1) < 2 ^ 64) :
    segmentEnd vaddr memsz = pageDown (vaddr + memsz + (pageSize - 1)) := by
  have hlt : vaddr + memsz < 2 ^ 64 := Nat.lt_of_le_of_lt (Nat.le_add_right _ _) h
  rw [segmentEnd, pageUp, Nat.mod_eq_of_lt hlt, Nat.mod_eq_of_lt h]

/-- **What the agent finds at an address of a segment**: a byte of the file or zero, and the
permissions. -/
theorem HoldsSegment.at {i : Nat} (h : HoldsSegment l pt m f i)
    (hfile : f.pOffset i + f.pFilesz i < 2 ^ 64) (va : Nat) (hlo : pageDown (f.pVaddr i) ≤ va)
    (hhi : va < segmentEnd (f.pVaddr i) (f.pMemsz i)) :
    userByteAt l m pt va = some (if f.pVaddr i ≤ va ∧ va - f.pVaddr i < f.pFilesz i then
        f.bytes (f.pOffset i + (va - f.pVaddr i)) else 0) ∧
      ∃ pte, vmLookup l m.vm pt va = some pte ∧ ∀ flag, flag < 2 ^ 10 →
        hasFlag pte flag = hasFlag (segmentPerm (f.pFlags i) ||| pteV ||| pteStd) flag := by
  have hfirst : pageDown (f.pVaddr i) % pageSize = 0 := pageDown_mod _
  have hlast : segmentEnd (f.pVaddr i) (f.pMemsz i) % pageSize = 0 := pageUp_mod _
  -- the page of the address is one of the pages of the segment
  obtain ⟨j, hj, hpage⟩ : ∃ j, j < segmentPages (f.pVaddr i) (f.pMemsz i) ∧
      pageDown (f.pVaddr i) + j * pageSize = pageDown va := by
    refine ⟨(va - pageDown (f.pVaddr i)) / pageSize, ?_, ?_⟩
    · rw [segmentPages]
      generalize pageDown (f.pVaddr i) = first at hlo hfirst ⊢
      generalize segmentEnd (f.pVaddr i) (f.pMemsz i) = last at hhi hlast ⊢
      simp only [pageSize] at hfirst hlast ⊢
      omega
    · generalize pageDown (f.pVaddr i) = first at hlo hfirst ⊢
      simp only [pageDown, pageSize] at hfirst ⊢
      omega
  have hheld := h j hj
  rw [hpage] at hheld
  have hsame : va / pageSize = pageDown va / pageSize := by
    simp only [pageDown, pageSize]
    omega
  obtain ⟨hbyte, hlookup⟩ := hheld.lookup (segmentPerm_lt _) hsame
  refine ⟨?_, hlookup⟩
  have hva : pageDown va + va % pageSize = va := by
    simp only [pageDown, pageSize]
    omega
  have hle : pageDown (f.pVaddr i) ≤ pageDown va := by
    rw [← hpage]
    exact Nat.le_add_right _ _
  rw [hbyte, segmentPage_eq hle (Nat.mod_lt _ (by decide)), hva]
  by_cases hin : f.pVaddr i ≤ va ∧ va - f.pVaddr i < f.pFilesz i
  · rw [if_pos hin, if_pos hin, ElfFile.from, Nat.mod_eq_of_lt (by omega)]
  · rw [if_neg hin, if_neg hin]

/-- **Memory after a load that succeeds.** For files whose segments do not wrap, neither in the file
nor in memory, also when their end is rounded up to a page: each segment is found in memory exactly
if the file has only zeroes where a segment goes on in the file, but no longer in memory. -/
theorem elfLoadBytes_image_iff (htree : PageTree l m.vm place) (hroot : place pt = some (2, 0))
    (hok : elfLoadBytes l m pt f = (0, m'))
    (hfile : ∀ i, i < f.phnum → f.pType i = 1 → f.pOffset i + f.pFilesz i < 2 ^ 64)
    (haddr : ∀ i, i < f.phnum → f.pType i = 1 →
      f.pVaddr i + f.pMemsz i + (pageSize - 1) < 2 ^ 64) :
    (∀ i, i < f.phnum → f.pType i = 1 → SegmentImage l pt m' f i) ↔
      ∀ i, i < f.phnum → f.pType i = 1 → ∀ k, f.pMemsz i ≤ k → k < f.pFilesz i →
        f.pVaddr i + k < segmentEnd (f.pVaddr i) (f.pMemsz i) → f.bytes (f.pOffset i + k) = 0 := by
  have hheld := elfLoadBytes_ok htree hroot hok
  have hdown : ∀ x, pageDown x ≤ x := fun x => Nat.div_mul_le_self x pageSize
  constructor
  · intro himage i hi htype k hmem hk hend
    have hrest := (himage i hi htype).rest (f.pVaddr i + k)
      (Nat.le_trans (hdown _) (Nat.le_add_right _ _)) hend (.inr (by omega))
    have hat := ((hheld i hi htype).at (hfile i hi htype) _
      (Nat.le_trans (hdown _) (Nat.le_add_right _ _)) hend).1
    rw [hrest, Nat.add_sub_cancel_left, if_pos ⟨Nat.le_add_right _ _, hk⟩] at hat
    exact (Option.some.inj hat).symm
  · intro hzero i hi htype
    have hat := (hheld i hi htype).at (hfile i hi htype)
    constructor
    · intro k hk
      have hend : f.pVaddr i + k < segmentEnd (f.pVaddr i) (f.pMemsz i) := by
        rw [segmentEnd_eq (haddr i hi htype)]
        simp only [pageDown, pageSize]
        omega
      rw [(hat _ (Nat.le_trans (hdown _) (Nat.le_add_right _ _)) hend).1, Nat.add_sub_cancel_left]
      simp only [Nat.le_add_right, true_and]
    · intro va hlo hhi hout
      rw [(hat va hlo hhi).1]
      by_cases hin : f.pVaddr i ≤ va ∧ va - f.pVaddr i < f.pFilesz i
      · have hva : f.pVaddr i + (va - f.pVaddr i) = va := by omega
        rw [if_pos hin, hzero i hi htype _ (by omega) hin.2 (by rw [hva]; exact hhi)]
      · rw [if_neg hin]
    · intro va hlo hhi
      obtain ⟨pte, hlookup, hflags⟩ := (hat va hlo hhi).2
      obtain ⟨hu, hr, hw, hx⟩ := hasFlag_segmentPerm (f.pFlags i)
      refine ⟨pte, hlookup, ?_, ?_, ?_, ?_⟩
      · rw [hflags _ (by decide), hu]
      · rw [hflags _ (by decide), hr]
      · rw [hflags _ (by decide), hw]
      · rw [hflags _ (by decide), hx]

end

/-- A machine with an empty page table. -/
def emptyMem : LoadMem := ⟨⟨fun _ _ => 0, 0, virtLayout.heapStart⟩, fun _ => 0xff⟩

theorem pageTree_emptyMem : PageTree virtLayout emptyMem.vm fun p =>
    if p = virtLayout.kernelPt then some (2, 0) else none :=
  pageTree_empty rfl fun _ _ hk => poolPage_ne_kernelPt hk

/-- The only segment of a file, if it has one header. -/
theorem forall_lt_phnum_one {f : ElfFile} {P : Nat → Prop} (hone : f.phnum = 1) (h : P 0) :
    ∀ i, i < f.phnum → P i := by
  intro i hi
  obtain rfl : i = 0 := by omega
  exact h

theorem elfLoadBytes_image_highElf :
    (elfLoadBytes virtLayout emptyMem virtLayout.kernelPt highElf).1 = 0 ∧
      ∀ i, i < highElf.phnum → highElf.pType i = 1 → SegmentImage virtLayout virtLayout.kernelPt
        (elfLoadBytes virtLayout emptyMem virtLayout.kernelPt highElf).2 highElf i := by
  have hone : highElf.phnum = 1 := by decide +kernel
  have hrc : (elfLoadBytes virtLayout emptyMem virtLayout.kernelPt highElf).1 = 0 := by decide +kernel
  refine ⟨hrc, (elfLoadBytes_image_iff pageTree_emptyMem (if_pos rfl) (Prod.ext hrc rfl)
    (forall_lt_phnum_one hone fun _ => by decide +kernel)
    (forall_lt_phnum_one hone fun _ => by decide +kernel)).mpr ?_⟩
  refine forall_lt_phnum_one hone fun _ k hmem hk _ => ?_
  have hsizes : highElf.pFilesz 0 ≤ highElf.pMemsz 0 := by decide +kernel
  omega

/-- The same file, with 16 bytes in memory for the 120 bytes in the file. -/
def shortMemElf : ElfFile where
  bytes := Function.update (Function.update highElf.bytes 104 16) 105 0
  len := 120

/-- **A segment that is longer in the file**: the byte behind its end is that of the file. -/
theorem not_elfLoadBytes_image :
    (elfLoadBytes virtLayout emptyMem virtLayout.kernelPt shortMemElf).1 = 0 ∧
      shortMemElf.phnum = 1 ∧ shortMemElf.pType 0 = 1 ∧
      shortMemElf.pOffset 0 + shortMemElf.pFilesz 0 < 2 ^ 64 ∧
      shortMemElf.pVaddr 0 + shortMemElf.pMemsz 0 + (pageSize - 1) < 2 ^ 64 ∧
      ¬ SegmentImage virtLayout virtLayout.kernelPt
        (elfLoadBytes virtLayout emptyMem virtLayout.kernelPt shortMemElf).2 shortMemElf 0 := by
  refine ⟨by decide +kernel, by decide +kernel, by decide +kernel, by decide +kernel,
    by decide +kernel, fun h => ?_⟩
  have hrest := h.rest 0xc0000010 (by decide +kernel) (by decide +kernel) (.inr (by decide +kernel))
  revert hrest
  decide +kernel

end OpenAgentOS
