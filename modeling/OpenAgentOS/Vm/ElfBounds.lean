import OpenAgentOS.Lib.Span
import OpenAgentOS.Vm.ElfImage

/-!
# Offsets in ELF files (kernel/elfload.c)

`elf_load_into_agent` compares the end of each program header, and the end of each segment in the
file, with the length of the file. Both ends are sums of 64 bit words, and wrap.

- `elfLoadReads`: the ranges of the file that are read, in order. `elfLoadBytes_congr`: bytes outside
  the file play no part if these ranges lie inside it.
- `Reaches`: the headers before this one have been loaded.
- `elfLoadReads_within_iff`: nothing outside the file is read, and a header or segment that does not
  lie in it is refused, exactly if no sum wraps into the file.
- `not_elfLoadReads_within`: a segment that starts eight bytes in front of the file.
-/

namespace OpenAgentOS

/-! ## What is read -/

/-- The bytes of the file that the page at `va` of a segment takes (elfload.c:95-109), where `off` is
`p_offset`. -/
def segmentPageReads (off vaddr filesz va : Nat) : List Span :=
  let pageOff := if va < vaddr then vaddr - va else 0
  let foff := va + pageOff - vaddr
  if foff < filesz then [⟨(off + foff) % 2 ^ 64, min (pageSize - pageOff) (filesz - foff)⟩] else []

/-- What the loop of `elf_map_segment` reads, `n` pages from `va` on. -/
def elfMapPagesReads (l : Layout) (pt perm off vaddr filesz : Nat) : Nat → Nat → Vm → List Span
  | 0, _, _ => []
  | n + 1, va, vm =>
    let page := kallocPage l vm
    if page.1 = 0 then []
    else
      let out := vmMapPage l page.2 pt va page.1 perm
      segmentPageReads off vaddr filesz va ++
        if out.1 ≠ 0 then []
        else elfMapPagesReads l pt perm off vaddr filesz n (va + pageSize) out.2

/-- Where a field of program header `i` lies. -/
def ElfFile.fieldSpan (f : ElfFile) (i off width : Nat) : Span := ⟨(f.phdr i + off) % 2 ^ 64, width⟩

/-- What is read for program header `i`: the type, for a loadable segment offset and size, and after
the check the other fields and the bytes. -/
def elfPhdrReads (l : Layout) (f : ElfFile) (pt i : Nat) (vm : Vm) : List Span :=
  if f.len < (f.phdr i + 56) % 2 ^ 64 then []
  else f.fieldSpan i 0 4 ::
    if f.pType i ≠ 1 then []
    else [f.fieldSpan i 8 8, f.fieldSpan i 32 8] ++
      if f.len < (f.pOffset i + f.pFilesz i) % 2 ^ 64 then []
      else [f.fieldSpan i 16 8, f.fieldSpan i 40 8, f.fieldSpan i 4 4] ++
        elfMapPagesReads l pt (segmentPerm (f.pFlags i)) (f.pOffset i) (f.pVaddr i) (f.pFilesz i)
          (segmentPages (f.pVaddr i) (f.pMemsz i)) (pageDown (f.pVaddr i)) vm

/-- What is read for `n` program headers from `i` on. -/
def elfLoadHeadersReads (l : Layout) (f : ElfFile) (pt : Nat) : Nat → Nat → Vm → List Span
  | 0, _, _ => []
  | n + 1, i, vm =>
    let out := elfLoadHeaders l f pt 1 i vm
    elfPhdrReads l f pt i vm ++
      if out.1 ≠ 0 then [] else elfLoadHeadersReads l f pt n (i + 1) out.2

/-- The checks of `elf_load_into_agent` on the file header (elfload.c:122-131). -/
def ElfFile.Accepted (f : ElfFile) : Prop :=
  64 ≤ f.len ∧ f.header 0 4 = 0x464c457f ∧ (f.header 4 1 = 2 ∧ f.header 5 1 = 1) ∧
    f.header 18 2 = 243 ∧ f.header 54 2 = 56

instance (f : ElfFile) : Decidable f.Accepted := inferInstanceAs (Decidable (_ ∧ _))

/-- What `elf_load_into_agent` reads. The file header counts as read as a whole. -/
def elfLoadReads (l : Layout) (vm : Vm) (pt : Nat) (f : ElfFile) : List Span :=
  if f.len < 64 then []
  else ⟨0, 64⟩ :: if f.Accepted then elfLoadHeadersReads l f pt f.phnum 0 vm else []

/-- Header `i` is looked at: the file header is accepted, and the headers before `i` are loaded. -/
def Reaches (l : Layout) (vm : Vm) (pt : Nat) (f : ElfFile) (i : Nat) : Prop :=
  f.Accepted ∧ i < f.phnum ∧ (elfLoadHeaders l f pt i 0 vm).1 = 0

/-- Header `i`, and its segment if it is loadable, lie in the file. -/
def ElfFile.Inside (f : ElfFile) (i : Nat) : Prop :=
  f.phdr i + 56 ≤ f.len ∧ (f.pType i = 1 → f.pOffset i + f.pFilesz i ≤ f.len)

section

variable {l : Layout} {vm : Vm} {pt : Nat} {f : ElfFile}

/-! ## One header after the other -/

/-- The loop as its first step and the rest. -/
theorem elfLoadHeaders_succ (n i : Nat) (vm : Vm) :
    elfLoadHeaders l f pt (n + 1) i vm =
      if (elfLoadHeaders l f pt 1 i vm).1 ≠ 0 then elfLoadHeaders l f pt 1 i vm
      else elfLoadHeaders l f pt n (i + 1) (elfLoadHeaders l f pt 1 i vm).2 := by
  rw [elfLoadHeaders, elfLoadHeaders]
  by_cases hhdr : f.len < (f.phdr i + 56) % 2 ^ 64
  · rw [if_pos hhdr, if_pos hhdr, if_pos (show einval ≠ 0 by decide)]
  by_cases htype : f.pType i ≠ 1
  · rw [if_neg hhdr, if_neg hhdr, if_pos htype, if_pos htype]
    rfl
  by_cases hfile : f.len < (f.pOffset i + f.pFilesz i) % 2 ^ 64
  · rw [if_neg hhdr, if_neg hhdr, if_neg htype, if_neg htype, if_pos hfile, if_pos hfile,
      if_pos (show einval ≠ 0 by decide)]
  rw [if_neg hhdr, if_neg hhdr, if_neg htype, if_neg htype, if_neg hfile, if_neg hfile]
  dsimp only
  by_cases hseg : (elfMapSegment l vm pt (f.pVaddr i) (f.pMemsz i) (f.pFlags i)).1 ≠ 0
  · rw [if_pos hseg, if_pos hseg, if_pos (show enospc ≠ 0 by decide)]
  · rw [if_neg hseg, if_neg hseg]
    rfl

/-- The loop goes on where it stands after `j` headers. -/
theorem elfLoadHeaders_add {j : Nat} (n : Nat) : ∀ {i vm}, (elfLoadHeaders l f pt j i vm).1 = 0 →
    elfLoadHeaders l f pt (j + n) i vm =
      elfLoadHeaders l f pt n (i + j) (elfLoadHeaders l f pt j i vm).2 := by
  induction j with
  | zero =>
    intro i vm _
    rw [Nat.zero_add]
    rfl
  | succ j ih =>
    intro i vm hok
    rw [Nat.succ_add, elfLoadHeaders_succ (j + n), elfLoadHeaders_succ j i vm]
    rw [elfLoadHeaders_succ j i vm] at hok
    by_cases hfirst : (elfLoadHeaders l f pt 1 i vm).1 ≠ 0
    · rw [if_pos hfirst] at hok
      exact absurd hok hfirst
    · rw [if_neg hfirst] at hok
      rw [if_neg hfirst, if_neg hfirst, ih hok, Nat.add_right_comm, Nat.add_assoc]

/-- **What is read** is read for one of the headers that the loop looks at. -/
theorem mem_elfLoadHeadersReads {r : Span} (n : Nat) : ∀ i vm, r ∈ elfLoadHeadersReads l f pt n i vm ↔
    ∃ j, j < n ∧ (elfLoadHeaders l f pt j i vm).1 = 0 ∧
      r ∈ elfPhdrReads l f pt (i + j) (elfLoadHeaders l f pt j i vm).2 := by
  induction n with
  | zero =>
    intro i vm
    constructor
    · exact fun h => absurd h List.not_mem_nil
    · rintro ⟨j, hj, -⟩
      exact absurd hj (Nat.not_lt_zero j)
  | succ n ih =>
    intro i vm
    rw [elfLoadHeadersReads, List.mem_append]
    constructor
    · rintro (hfirst | hrest)
      · exact ⟨0, Nat.succ_pos n, rfl, hfirst⟩
      · split_ifs at hrest with hok
        · exact absurd hrest List.not_mem_nil
        · obtain ⟨j, hj, hreach, hmem⟩ := (ih _ _).mp hrest
          refine ⟨j + 1, Nat.succ_lt_succ hj, ?_, ?_⟩
          · rw [elfLoadHeaders_succ, if_neg hok, hreach]
          · rw [elfLoadHeaders_succ, if_neg hok, ← Nat.add_assoc, Nat.add_right_comm]
            exact hmem
    · rintro ⟨j, hj, hreach, hmem⟩
      cases j with
      | zero => exact .inl hmem
      | succ j =>
        right
        rw [elfLoadHeaders_succ] at hreach hmem
        by_cases hok : (elfLoadHeaders l f pt 1 i vm).1 ≠ 0
        · rw [if_pos hok] at hreach
          exact absurd hreach hok
        · rw [if_neg hok] at hreach hmem ⊢
          rw [← Nat.add_assoc, Nat.add_right_comm] at hmem
          exact (ih _ _).mpr ⟨j, Nat.lt_of_succ_lt_succ hj, hreach, hmem⟩

theorem mem_elfLoadReads {r : Span} : r ∈ elfLoadReads l vm pt f ↔
    64 ≤ f.len ∧ r = ⟨0, 64⟩ ∨ ∃ i, Reaches l vm pt f i ∧
      r ∈ elfPhdrReads l f pt i (elfLoadHeaders l f pt i 0 vm).2 := by
  rw [elfLoadReads]
  by_cases hlen : f.len < 64
  · rw [if_pos hlen]
    constructor
    · exact fun h => absurd h List.not_mem_nil
    · rintro (⟨hlen', -⟩ | ⟨i, ⟨⟨hlen', -⟩, -⟩, -⟩)
      · exact absurd hlen (Nat.not_lt.mpr hlen')
      · exact absurd hlen (Nat.not_lt.mpr hlen')
  rw [if_neg hlen, List.mem_cons]
  refine or_congr (by simp only [Nat.not_lt.mp hlen, true_and]) ?_
  by_cases haccepted : f.Accepted
  · rw [if_pos haccepted, mem_elfLoadHeadersReads]
    simp only [Reaches, haccepted, true_and, Nat.zero_add, and_assoc]
  · rw [if_neg haccepted]
    simp only [Reaches, haccepted, false_and, exists_false, List.not_mem_nil]

/-! ## Bounds -/

theorem segmentPageReads_within {off vaddr filesz : Nat} (va : Nat) {n : Nat} (hn : n < 2 ^ 31)
    (hend : off + filesz ≤ n) : ∀ r ∈ segmentPageReads off vaddr filesz va, r.Within n := by
  intro r hr
  rw [segmentPageReads] at hr
  split_ifs at hr with hfirst hfile hfile
  · rw [List.mem_singleton.mp hr, Span.within_iff, Nat.mod_eq_of_lt (by omega)]
    dsimp only
    omega
  · exact absurd hr List.not_mem_nil
  · rw [List.mem_singleton.mp hr, Span.within_iff, Nat.mod_eq_of_lt (by omega)]
    dsimp only
    omega
  · exact absurd hr List.not_mem_nil

theorem elfMapPagesReads_within {perm off vaddr filesz n : Nat} (hn : n < 2 ^ 31)
    (hend : off + filesz ≤ n) (pages : Nat) : ∀ va vm,
      ∀ r ∈ elfMapPagesReads l pt perm off vaddr filesz pages va vm, r.Within n := by
  induction pages with
  | zero => exact fun _ _ _ hr => absurd hr List.not_mem_nil
  | succ pages ih =>
    intro va vm r hr
    rw [elfMapPagesReads] at hr
    split_ifs at hr with hpage
    · exact absurd hr List.not_mem_nil
    · rcases List.mem_append.mp hr with hr | hr
      · exact segmentPageReads_within va hn hend r hr
      · split_ifs at hr with hrc
        · exact absurd hr List.not_mem_nil
        · exact ih _ _ r hr

/-- The fields of a header that lies in the file. -/
theorem ElfFile.fieldSpan_within {i : Nat} (hlen : f.len < 2 ^ 31) (hhdr : f.phdr i + 56 ≤ f.len)
    {off width : Nat} (hfield : off + width ≤ 56) : (f.fieldSpan i off width).Within f.len := by
  rw [Span.within_iff, ElfFile.fieldSpan, Nat.mod_eq_of_lt (by omega)]
  dsimp only
  omega

/-- **Reads for one header** without sums that wrap into the file. -/
theorem elfPhdrReads_within {i : Nat} (hlen : f.len < 2 ^ 31) (hhdr : f.phdr i + 56 < 2 ^ 64)
    (hseg : f.phdr i + 56 ≤ f.len → f.pType i = 1 →
      f.pOffset i + f.pFilesz i < 2 ^ 64 ∨ 2 ^ 64 + f.len < f.pOffset i + f.pFilesz i)
    (vm : Vm) : ∀ r ∈ elfPhdrReads l f pt i vm, r.Within f.len := by
  intro r hr
  rw [elfPhdrReads, Nat.mod_eq_of_lt hhdr] at hr
  by_cases hout : f.len < f.phdr i + 56
  · rw [if_pos hout] at hr
    exact absurd hr List.not_mem_nil
  have hin : f.phdr i + 56 ≤ f.len := Nat.not_lt.mp hout
  have hfield : ∀ {off width}, off + width ≤ 56 → (f.fieldSpan i off width).Within f.len :=
    ElfFile.fieldSpan_within hlen hin
  rw [if_neg hout, List.mem_cons] at hr
  rcases hr with rfl | hr
  · exact hfield (by decide)
  by_cases htype : f.pType i ≠ 1
  · rw [if_pos htype] at hr
    exact absurd hr List.not_mem_nil
  rw [if_neg htype] at hr
  rcases List.mem_append.mp hr with hr | hr
  · simp only [List.mem_cons, List.not_mem_nil, or_false] at hr
    rcases hr with rfl | rfl
    · exact hfield (by decide)
    · exact hfield (by decide)
  by_cases hfile : f.len < (f.pOffset i + f.pFilesz i) % 2 ^ 64
  · rw [if_pos hfile] at hr
    exact absurd hr List.not_mem_nil
  rw [if_neg hfile] at hr
  rcases List.mem_append.mp hr with hr | hr
  · simp only [List.mem_cons, List.not_mem_nil, or_false] at hr
    rcases hr with rfl | rfl | rfl
    · exact hfield (by decide)
    · exact hfield (by decide)
    · exact hfield (by decide)
  · have hoff : f.pOffset i < 2 ^ 64 := Buf.le_lt _ _ 8
    have hsize : f.pFilesz i < 2 ^ 64 := Buf.le_lt _ _ 8
    have hend : f.pOffset i + f.pFilesz i ≤ f.len := by
      have := hseg hin (not_not.mp htype)
      omega
    exact elfMapPagesReads_within hlen hend _ _ _ r hr

/-! ## Only what is read matters -/

@[simp] theorem LoadMem.fill_vm (m : LoadMem) (page : Nat) (bytes : Nat → UInt8) :
    (m.fill page bytes).vm = m.vm := rfl

/-- The files have the same length, and the same bytes up to there. -/
structure SameImage (f f' : ElfFile) : Prop where
  len : f'.len = f.len
  bytes : ∀ i, i < f.len → f'.bytes i = f.bytes i

section

variable {f' : ElfFile}

theorem SameImage.le_eq (h : SameImage f f') {off width : Nat} (hin : Span.Within f.len ⟨off, width⟩) :
    f'.bytes.le off width = f.bytes.le off width :=
  Buf.le_congr fun _ hi => h.bytes _ (hin _ ⟨Nat.le_add_right _ _, Nat.add_lt_add_left hi _⟩)

theorem SameImage.header_eq (h : SameImage f f') {off width : Nat} (hlong : 64 ≤ f.len)
    (hin : off + width ≤ 64) : f'.header off width = f.header off width :=
  h.le_eq (Span.within_iff.mpr (.inr (Nat.le_trans hin hlong)))

theorem SameImage.phdr_eq (h : SameImage f f') (hlong : 64 ≤ f.len) (i : Nat) : f'.phdr i = f.phdr i := by
  rw [ElfFile.phdr, ElfFile.phdr, h.header_eq hlong (by decide), h.header_eq hlong (by decide)]

theorem SameImage.field_eq (h : SameImage f f') (hlong : 64 ≤ f.len) {i off width : Nat}
    (hin : (f.fieldSpan i off width).Within f.len) : f'.field i off width = f.field i off width := by
  rw [ElfFile.field, h.phdr_eq hlong]
  exact h.le_eq hin

/-- A page gets the same bytes if the part of the file it takes lies inside. -/
theorem SameImage.segmentPage_eq (h : SameImage f f') (hlen : f.len < 2 ^ 31)
    {off vaddr filesz va : Nat} (hin : ∀ r ∈ segmentPageReads off vaddr filesz va, r.Within f.len) :
    segmentPage (f'.from off) vaddr filesz va = segmentPage (f.from off) vaddr filesz va := by
  funext j
  rw [segmentPageReads] at hin
  rw [segmentPage, segmentPage]
  dsimp only at hin ⊢
  generalize (if va < vaddr then vaddr - va else 0) = pageOff at hin ⊢
  generalize va + pageOff - vaddr = foff at hin ⊢
  by_cases hj : foff < filesz ∧ pageOff ≤ j ∧ j < pageOff + min (pageSize - pageOff) (filesz - foff)
  · rw [if_pos hj, if_pos hj, ElfFile.from, ElfFile.from]
    rw [if_pos hj.1] at hin
    have hwithin := Span.within_iff.mp (hin _ List.mem_cons_self)
    dsimp only at hwithin
    refine h.bytes _ ?_
    omega
  · rw [if_neg hj, if_neg hj]

theorem SameImage.elfMapPagesBytes_eq (h : SameImage f f') (hlen : f.len < 2 ^ 31)
    {perm off vaddr filesz : Nat} (n : Nat) : ∀ va m,
      (∀ r ∈ elfMapPagesReads l pt perm off vaddr filesz n va m.vm, r.Within f.len) →
      elfMapPagesBytes l pt perm (f'.from off) vaddr filesz n va m =
        elfMapPagesBytes l pt perm (f.from off) vaddr filesz n va m := by
  induction n with
  | zero => exact fun _ _ _ => rfl
  | succ n ih =>
    intro va m hin
    rw [elfMapPagesReads] at hin
    rw [elfMapPagesBytes, elfMapPagesBytes]
    by_cases hpage : (kallocPage l m.vm).1 = 0
    · rw [if_pos hpage, if_pos hpage]
    rw [if_neg hpage, List.forall_mem_append] at hin
    rw [if_neg hpage, if_neg hpage, h.segmentPage_eq hlen hin.1]
    obtain ⟨page, hpageEq⟩ : ∃ page, kallocPage l m.vm = page := ⟨_, rfl⟩
    rw [hpageEq] at hin ⊢
    obtain ⟨M, hM⟩ : ∃ M, LoadMem.fill { m with vm := page.2 } page.1
        (segmentPage (f.from off) vaddr filesz va) = M := ⟨_, rfl⟩
    have hvm : M.vm = page.2 := by rw [← hM, LoadMem.fill_vm]
    rw [hM]
    dsimp only
    rw [hvm]
    by_cases hrc : (vmMapPage l page.2 pt va page.1 perm).1 ≠ 0
    · rw [if_pos hrc, if_pos hrc]
    · rw [if_neg hrc, if_neg hrc]
      rw [if_neg hrc] at hin
      exact ih _ _ hin.2

/-- The loop over the headers is the same for both files, if what it reads lies inside. -/
theorem SameImage.elfLoadHeadersBytes_eq (h : SameImage f f') (hlen : f.len < 2 ^ 31)
    (hlong : 64 ≤ f.len) (n : Nat) : ∀ i m,
      (∀ r ∈ elfLoadHeadersReads l f pt n i m.vm, r.Within f.len) →
      elfLoadHeadersBytes l f' pt n i m = elfLoadHeadersBytes l f pt n i m := by
  induction n with
  | zero => exact fun _ _ _ => rfl
  | succ n ih =>
    intro i m hin
    rw [elfLoadHeadersReads, List.forall_mem_append, elfPhdrReads, elfLoadHeaders] at hin
    rw [elfLoadHeadersBytes, elfLoadHeadersBytes, h.len, h.phdr_eq hlong]
    by_cases hhdr : f.len < (f.phdr i + 56) % 2 ^ 64
    · rw [if_pos hhdr, if_pos hhdr]
    rw [if_neg hhdr, if_neg hhdr] at hin
    rw [if_neg hhdr, if_neg hhdr]
    obtain ⟨⟨htypeIn, hfields⟩, hrest⟩ := And.imp_left List.forall_mem_cons.mp hin
    have htypeEq : f'.pType i = f.pType i := h.field_eq hlong htypeIn
    rw [htypeEq]
    by_cases htype : f.pType i ≠ 1
    · rw [if_pos htype] at hrest
      rw [if_pos htype, if_pos htype]
      exact ih _ _ hrest
    rw [if_neg htype] at hfields hrest
    rw [if_neg htype, if_neg htype]
    obtain ⟨hsizes, hbody⟩ := List.forall_mem_append.mp hfields
    have hoffEq : f'.pOffset i = f.pOffset i :=
      h.field_eq hlong (hsizes _ List.mem_cons_self)
    have hsizeEq : f'.pFilesz i = f.pFilesz i :=
      h.field_eq hlong (hsizes _ (List.mem_cons_of_mem _ List.mem_cons_self))
    rw [hoffEq, hsizeEq]
    by_cases hfile : f.len < (f.pOffset i + f.pFilesz i) % 2 ^ 64
    · rw [if_pos hfile, if_pos hfile]
    rw [if_neg hfile] at hbody hrest
    rw [if_neg hfile, if_neg hfile]
    obtain ⟨hothers, hpages⟩ := List.forall_mem_append.mp hbody
    have hvaddrEq : f'.pVaddr i = f.pVaddr i := h.field_eq hlong (hothers _ List.mem_cons_self)
    have hmemszEq : f'.pMemsz i = f.pMemsz i :=
      h.field_eq hlong (hothers _ (List.mem_cons_of_mem _ List.mem_cons_self))
    have hflagsEq : f'.pFlags i = f.pFlags i := h.field_eq hlong
      (hothers _ (List.mem_cons_of_mem _ (List.mem_cons_of_mem _ List.mem_cons_self)))
    have hseg : elfMapSegmentBytes l f' pt i m = elfMapSegmentBytes l f pt i m := by
      rw [elfMapSegmentBytes, elfMapSegmentBytes, hoffEq, hsizeEq, hvaddrEq, hmemszEq, hflagsEq]
      exact h.elfMapPagesBytes_eq hlen _ _ _ hpages
    have hsame : SameTables (elfMapSegmentBytes l f pt i m)
        (elfMapSegment l m.vm pt (f.pVaddr i) (f.pMemsz i) (f.pFlags i)) :=
      elfMapPagesBytes_vm _ _ _ _ _ _ _
    rw [hseg]
    obtain ⟨out, hout⟩ : ∃ out, elfMapSegmentBytes l f pt i m = out := ⟨_, rfl⟩
    obtain ⟨tables, htables⟩ : ∃ tables,
      elfMapSegment l m.vm pt (f.pVaddr i) (f.pMemsz i) (f.pFlags i) = tables := ⟨_, rfl⟩
    rw [hout, htables] at hsame
    rw [htables] at hrest
    rw [hout]
    dsimp only at hrest ⊢
    by_cases hrc : out.1 ≠ 0
    · rw [if_pos hrc, if_pos hrc]
    · have hok : ¬ tables.1 ≠ 0 := by
        rw [← hsame.1]
        exact hrc
      rw [if_neg hok, elfLoadHeaders, if_neg (not_not.mpr rfl), ← hsame.2] at hrest
      rw [if_neg hrc, if_neg hrc]
      exact ih _ _ hrest

/-- **Bytes outside the file do not matter**, neither for the result nor for memory, if what is read
lies inside. -/
theorem elfLoadBytes_congr {m : LoadMem} (h : SameImage f f') (hlen : f.len < 2 ^ 31)
    (hin : ∀ r ∈ elfLoadReads l m.vm pt f, r.Within f.len) :
    elfLoadBytes l m pt f' = elfLoadBytes l m pt f := by
  rw [elfLoadReads] at hin
  rw [elfLoadBytes, elfLoadBytes, h.len]
  by_cases hshort : f.len < 64
  · rw [if_pos hshort, if_pos hshort]
  rw [if_neg hshort, List.forall_mem_cons] at hin
  have hlong : 64 ≤ f.len := Nat.not_lt.mp hshort
  have hphnum : f'.phnum = f.phnum := h.header_eq hlong (by decide)
  rw [if_neg hshort, if_neg hshort, hphnum, h.header_eq hlong (by decide),
    h.header_eq hlong (by decide), h.header_eq hlong (by decide), h.header_eq hlong (by decide),
    h.header_eq hlong (by decide)]
  split_ifs with hmagic hclass hmachine hentsize
  · rfl
  · rfl
  · rfl
  · rfl
  · have haccepted : f.Accepted := ⟨hlong, not_not.mp hmagic, by simpa using hclass,
      not_not.mp hmachine, not_not.mp hentsize⟩
    rw [if_pos haccepted] at hin
    exact h.elfLoadHeadersBytes_eq hlen hlong _ _ _ hin.2

end

/-! ## When the bounds hold -/

/-- The type of a header is read as soon as the header is looked at. -/
theorem fieldSpan_mem_elfPhdrReads {i : Nat} (hhdr : (f.phdr i + 56) % 2 ^ 64 ≤ f.len) (vm : Vm) :
    f.fieldSpan i 0 4 ∈ elfPhdrReads l f pt i vm := by
  rw [elfPhdrReads, if_neg (Nat.not_lt.mpr hhdr)]
  exact List.mem_cons_self

/-- A header, or a segment, whose end as it is computed lies behind the file is refused. -/
theorem elfLoadHeaders_one_einval_iff {i : Nat} :
    (elfLoadHeaders l f pt 1 i vm).1 = einval ↔ f.len < (f.phdr i + 56) % 2 ^ 64 ∨
      f.pType i = 1 ∧ f.len < (f.pOffset i + f.pFilesz i) % 2 ^ 64 := by
  have hcodes : enospc ≠ einval ∧ (0 : Int) ≠ einval := by decide
  rw [elfLoadHeaders]
  by_cases hhdr : f.len < (f.phdr i + 56) % 2 ^ 64
  · rw [if_pos hhdr]
    simp only [hhdr, true_or]
  rw [if_neg hhdr]
  by_cases htype : f.pType i ≠ 1
  · rw [if_pos htype]
    simp only [hhdr, htype, false_and, or_false, iff_false]
    exact hcodes.2
  rw [if_neg htype]
  by_cases hfile : f.len < (f.pOffset i + f.pFilesz i) % 2 ^ 64
  · rw [if_pos hfile]
    simp only [hfile, not_not.mp htype, and_true, or_true]
  rw [if_neg hfile]
  simp only [hhdr, hfile, and_false, or_false, iff_false]
  split_ifs with hseg
  · exact hcodes.1
  · exact hcodes.2

/-- **The bounds of a load.** Only bytes of the file are read, and a header or segment that does not
lie in the file is refused, exactly if at no header that is looked at one of the two sums wraps into
the file. -/
theorem elfLoadReads_within_iff (hlen : f.len < 2 ^ 31) :
    ((∀ r ∈ elfLoadReads l vm pt f, r.Within f.len) ∧
        ∀ i, Reaches l vm pt f i → ¬ f.Inside i → (elfLoadHeaders l f pt (i + 1) 0 vm).1 = einval) ↔
      ∀ i, Reaches l vm pt f i → f.phdr i + 56 < 2 ^ 64 ∧ (f.phdr i + 56 ≤ f.len → f.pType i = 1 →
        f.pOffset i + f.pFilesz i < 2 ^ 64 ∨ 2 ^ 64 + f.len < f.pOffset i + f.pFilesz i) := by
  have hstep : ∀ {i}, Reaches l vm pt f i → elfLoadHeaders l f pt (i + 1) 0 vm =
      elfLoadHeaders l f pt 1 i (elfLoadHeaders l f pt i 0 vm).2 := by
    intro i hreach
    rw [elfLoadHeaders_add 1 hreach.2.2, Nat.zero_add]
  have hphdr : ∀ i, f.phdr i < 2 ^ 64 := fun i => Nat.mod_lt _ (by decide)
  have hoff : ∀ i, f.pOffset i < 2 ^ 64 := fun i => Buf.le_lt _ _ 8
  have hsize : ∀ i, f.pFilesz i < 2 ^ 64 := fun i => Buf.le_lt _ _ 8
  constructor
  · rintro ⟨hreads, hrefused⟩ i hreach
    have hlong : 64 ≤ f.len := hreach.1.1
    have hhdr : f.phdr i + 56 < 2 ^ 64 := by
      -- else the sum passes the check, and the type is read outside
      by_contra hwrap
      have hpass : (f.phdr i + 56) % 2 ^ 64 ≤ f.len := by
        have := hphdr i
        omega
      have hwithin := hreads _ (mem_elfLoadReads.mpr
        (.inr ⟨i, hreach, fieldSpan_mem_elfPhdrReads hpass _⟩))
      rw [Span.within_iff, ElfFile.fieldSpan, Nat.add_zero, Nat.mod_eq_of_lt (hphdr i)] at hwithin
      dsimp only at hwithin
      omega
    refine ⟨hhdr, fun hin htype => ?_⟩
    by_contra hwrap
    have hpass : (f.pOffset i + f.pFilesz i) % 2 ^ 64 ≤ f.len := by
      have := hoff i
      have := hsize i
      omega
    have hcode := hrefused i hreach fun hinside => by
      have := hinside.2 htype
      omega
    rw [hstep hreach, elfLoadHeaders_one_einval_iff, Nat.mod_eq_of_lt hhdr] at hcode
    omega
  · intro hwrap
    refine ⟨fun r hr => ?_, fun i hreach hout => ?_⟩
    · rcases mem_elfLoadReads.mp hr with ⟨hlong, rfl⟩ | ⟨i, hreach, hr⟩
      · exact Span.within_iff.mpr (.inr hlong)
      · exact elfPhdrReads_within hlen (hwrap i hreach).1 (hwrap i hreach).2 _ r hr
    · obtain ⟨hhdr, hseg⟩ := hwrap i hreach
      rw [hstep hreach, elfLoadHeaders_one_einval_iff, Nat.mod_eq_of_lt hhdr]
      by_cases hin : f.phdr i + 56 ≤ f.len
      · obtain ⟨htype, hend⟩ := Classical.not_imp.mp fun h => hout ⟨hin, h⟩
        have := hseg hin htype
        have := hoff i
        have := hsize i
        exact .inr ⟨htype, by omega⟩
      · exact .inl (Nat.not_le.mp hin)

end

/-- `highElf` lies inside its 120 bytes. -/
theorem elfLoadReads_within_highElf :
    (∀ r ∈ elfLoadReads virtLayout emptyMem.vm virtLayout.kernelPt highElf, r.Within highElf.len) ∧
      ∀ i, Reaches virtLayout emptyMem.vm virtLayout.kernelPt highElf i → ¬ highElf.Inside i →
        (elfLoadHeaders virtLayout highElf virtLayout.kernelPt (i + 1) 0 emptyMem.vm).1 = einval := by
  refine (elfLoadReads_within_iff (by decide)).mpr fun i ⟨_, hi, _⟩ => ?_
  have hone : highElf.phnum = 1 := by decide +kernel
  refine forall_lt_phnum_one (P := fun i => highElf.phdr i + 56 < 2 ^ 64 ∧ (highElf.phdr i + 56 ≤
    highElf.len → highElf.pType i = 1 → highElf.pOffset i + highElf.pFilesz i < 2 ^ 64 ∨
      2 ^ 64 + highElf.len < highElf.pOffset i + highElf.pFilesz i)) hone ?_ i hi
  decide +kernel

/-- The same file with `p_offset` -8 and `p_filesz` 16. -/
def wrappingElf : ElfFile where
  bytes i := if 72 ≤ i ∧ i < 80 then (if i = 72 then 0xf8 else 0xff) else
    if i = 96 then 16 else highElf.bytes i
  len := 120

/-- **A segment in front of the file** is loaded: the end of `-8 + 16` bytes lies in the file. -/
theorem not_elfLoadReads_within : wrappingElf.len < 2 ^ 31 ∧
    (elfLoadIntoAgent virtLayout emptyMem.vm virtLayout.kernelPt wrappingElf).1 = 0 ∧
    ∃ r ∈ elfLoadReads virtLayout emptyMem.vm virtLayout.kernelPt wrappingElf,
      ¬ r.Within wrappingElf.len := by
  refine ⟨by decide, by decide +kernel, ⟨2 ^ 64 - 8, 16⟩, by decide +kernel, ?_⟩
  rw [Span.within_iff]
  decide

end OpenAgentOS
