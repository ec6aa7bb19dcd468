import OpenAgentOS.Vm.HeapSpec
import OpenAgentOS.Vm.Trees

/-!
# The heap pages of an agent

An agent has sixteen heap pages. What its page table says about them is a function from
pages to entries of the last level, and that is all the heap functions of vm.c look at.

- `heapLeaf`, `heapEntry`: the entry of a heap page; the frame and whether the page may be
  written, if it is valid.
- `HeapSound`: valid entries are for users and readable, no writable frame is shared, and
  all frames come from the part of the kernel heap that has been handed out.
- `HeapTables`: the page table is a tree whose heap pages are sound.
- `heapTables_create`, `heapTables_load`: new agents have sound heap pages. Of an agent that
  was created none is mapped; of one that was loaded exactly those are mapped which a
  segment of its file covers.
-/

namespace OpenAgentOS

open Function

/-- The address of a heap page. -/
def heapVa (id : Fin maxAgents) (p : HeapPage) : Nat :=
  userHeapBase + id * agentHeapSize + p * pageSize

/-- The frame that a valid entry names, and whether it may be written. -/
def pteEntry (pte : Nat) : Option (Nat × Bool) :=
  if hasFlag pte pteV then some (ptePpn pte, hasFlag pte pteW) else none

/-- The entries of the heap pages. -/
def heapLeaf (l : Layout) (vm : Vm) (pt : Nat) (id : Fin maxAgents) (p : HeapPage) : Nat :=
  leafFrom l vm (heapVa id p) 2 pt

/-- Frames and permissions of the heap pages. -/
def heapEntry (l : Layout) (vm : Vm) (pt : Nat) (id : Fin maxAgents) (p : HeapPage) :
    Option (Nat × Bool) :=
  pteEntry (heapLeaf l vm pt id p)

variable {l : Layout} {vm vm' : Vm} {place place' : Places} {pt va pa perm f : Nat}
  {id : Fin maxAgents} {p q : HeapPage}

/-! ## Addresses -/

theorem heapVa_eq (id : Fin maxAgents) (p : HeapPage) :
    heapVa id p = 0x60000000 + id * 0x10000 + p * 4096 := rfl

theorem heapVa_bounds (id : Fin maxAgents) (p : HeapPage) :
    0x60000000 ≤ heapVa id p ∧ heapVa id p < 0x80000000 := by
  have hid : (id : Nat) < 12 := id.isLt
  have hp := p.isLt
  rw [heapVa_eq]
  omega

theorem heapVa_lt (id : Fin maxAgents) (p : HeapPage) : heapVa id p < 2 ^ 39 := by
  have := heapVa_bounds id p
  omega

theorem heapVa_mod (id : Fin maxAgents) (p : HeapPage) : heapVa id p % pageSize = 0 := by
  rw [heapVa_eq, pageSize]
  omega

@[simp] theorem pageDown_heapVa (id : Fin maxAgents) (p : HeapPage) :
    pageDown (heapVa id p) = heapVa id p :=
  Nat.div_mul_cancel (Nat.dvd_of_mod_eq_zero (heapVa_mod id p))

theorem heapVa_page_injective (h : heapVa id p / pageSize = heapVa id q / pageSize) : p = q := by
  rw [heapVa_eq, heapVa_eq, pageSize] at h
  exact Fin.ext (by omega)

theorem vpn_heapVa (id : Fin maxAgents) (p : HeapPage) : vpn 2 (heapVa id p) = 1 := by
  have := heapVa_bounds id p
  exact vpn_two_eq_one (by omega) (by omega)

/-! ## Entries -/

theorem pteEntry_eq_none : pteEntry va = none ↔ hasFlag va pteV = false := by
  rw [pteEntry]
  by_cases hv : hasFlag va pteV = true
  · simp [hv]
  · simp [hv]

theorem pteEntry_isSome (pte : Nat) : (pteEntry pte).isSome = hasFlag pte pteV := by
  rw [pteEntry]
  by_cases hv : hasFlag pte pteV = true
  · simp [hv]
  · simp [hv]

theorem pteEntry_eq_some {w : Bool} (h : pteEntry va = some (f, w)) :
    hasFlag va pteV = true ∧ ptePpn va = f ∧ hasFlag va pteW = w := by
  rw [pteEntry] at h
  by_cases hv : hasFlag va pteV = true
  · rw [if_pos hv] at h
    obtain ⟨hf, hw⟩ := Prod.mk.inj (Option.some.inj h)
    exact ⟨hv, hf, hw⟩
  · rw [if_neg hv] at h
    exact absurd h nofun

/-- Reading back an entry that was written. -/
theorem pteEntry_mkPte {flags : Nat} (hlt : flags < 2 ^ 10) (hv : hasFlag flags pteV = true) :
    pteEntry (mkPte f flags) = some (f, hasFlag flags pteW) := by
  rw [pteEntry, hasFlag_mkPte _ _ (by decide), if_pos hv, ptePpn_mkPte hlt,
    hasFlag_mkPte _ _ (by decide)]

/-- `vm_page_mapped` on a heap page. -/
theorem vmPageMapped_heapVa (l : Layout) (vm : Vm) (pt : Nat) (id : Fin maxAgents) (p : HeapPage) :
    vmPageMapped l vm pt (heapVa id p) = (heapEntry l vm pt id p).isSome := by
  rw [heapEntry, pteEntry_isSome, heapLeaf, vmPageMapped, pageDown_heapVa, leafFrom, vmWalk]
  cases (walkFrom l false (heapVa id p) 2 vm pt).1 with
  | none => exact (hasFlag_zero _).symm
  | some slot => rfl

/-- The walk to a page that is mapped. -/
theorem walk_of_heapEntry {w : Bool} (h : heapEntry l vm pt id p = some (f, w)) :
    ∃ table i, (vmWalk l vm pt (heapVa id p) false).1 = some (table, i) ∧
      vm.mem table i = heapLeaf l vm pt id p := by
  have hv := (pteEntry_eq_some h).1
  rw [vmWalk]
  rw [heapLeaf, leafFrom] at hv ⊢
  cases hslot : (walkFrom l false (heapVa id p) 2 vm pt).1 with
  | none =>
    rw [hslot, hasFlag_zero] at hv
    cases hv
  | some slot => exact ⟨slot.1, slot.2, rfl, rfl⟩

/-! ## Operations on the tables -/

/-- What mapping a page does to the heap pages. -/
inductive HeapMapped (l : Layout) (vm : Vm) (pt : Nat) (id : Fin maxAgents) (va pa perm : Nat)
    (out : Int × Vm) : Prop
  /-- Nothing, because the call fails or the page is none of the heap. -/
  | same (hleaf : heapLeaf l out.2 pt id = heapLeaf l vm pt id)
      (hother : out.1 = 0 → ∀ p, va % 2 ^ 39 / pageSize ≠ heapVa id p / pageSize)
  /-- A heap page that was not mapped is mapped now. -/
  | mapped (p : HeapPage) (hrc : out.1 = 0) (hpage : va % 2 ^ 39 / pageSize = heapVa id p / pageSize)
      (hfree : heapEntry l vm pt id p = none)
      (hleaf : heapLeaf l out.2 pt id = update (heapLeaf l vm pt id) p (mappedEntry pa perm))

section Tables

variable (h : PageTree l vm place) (hroot : place pt = some (2, 0))

omit h in
theorem heapVa_place (hroot : place pt = some (2, 0)) (id : Fin maxAgents) (p : HeapPage) :
    place pt = some (2, tablePrefix 2 (heapVa id p)) := by
  rw [tablePrefix_two (heapVa_lt id p), hroot]

include h hroot

/-- **Writing the entry of a heap page** changes that page only. -/
theorem PageTree.heapLeaf_write {slot : Nat × Fin 512}
    (hslot : (vmWalk l vm pt (heapVa id p) false).1 = some slot) (word : Nat) :
    heapLeaf l (vm.write slot.1 slot.2 word) pt id =
      update (heapLeaf l vm pt id) p word := by
  obtain ⟨htable, hindex⟩ := h.walk_place 2 pt (heapVa_place hroot id p) hslot
  funext q
  by_cases hq : q = p
  · subst hq
    rw [update_self]
    exact h.leafFrom_write_self htable slot.2 word (heapVa_place hroot id q) hslot
  · rw [update_of_ne hq]
    refine h.leafFrom_write_of_ne htable slot.2 word (heapVa_place hroot id q) fun hpage => ?_
    rw [hindex, ← page_eq] at hpage
    exact hq (heapVa_page_injective hpage)

/-- **`vm_map_page` and the heap**, for any address. -/
theorem PageTree.heapMapped_vmMapPage (id : Fin maxAgents) (va pa perm : Nat) :
    ∃ place', PageTree l (vmMapPage l vm pt va pa perm).2 place' ∧
      (∀ p x, place p = some x → place' p = some x) ∧
      (vmMapPage l vm pt va pa perm).2.heapPtr = vm.heapPtr ∧
      HeapMapped l vm pt id va pa perm (vmMapPage l vm pt va pa perm) := by
  rw [← vmMapPage_mod]
  obtain ⟨place', heffect⟩ := h.vmMapPage_effect hroot (mod_lt_39 va) pa perm
  refine ⟨place', ?_⟩
  cases heffect with
  | refused hrc hgrows =>
    refine ⟨hgrows.tree, hgrows.keeps, hgrows.heapPtr, .same ?_ ?_⟩
    · funext q
      exact hgrows.leaf 2 pt _ (heapVa_place hroot id q)
    · intro hzero
      rw [hrc] at hzero
      exact absurd hzero (by decide)
  | mapped hrc haligned tree keeps heapPtr hfree hentry hother =>
    refine ⟨tree, keeps, heapPtr, ?_⟩
    by_cases hheap : ∃ p : HeapPage, va % 2 ^ 39 / pageSize = heapVa id p / pageSize
    · obtain ⟨p, hpage⟩ := hheap
      refine .mapped p hrc hpage ?_ ?_
      · rw [heapEntry, pteEntry_eq_none, heapLeaf, ← leafFrom_congr hpage, hfree]
      · funext q
        by_cases hq : q = p
        · subst hq
          rw [update_self, ← hentry]
          exact (leafFrom_congr hpage 2 pt).symm
        · rw [update_of_ne hq]
          refine hother 2 pt _ (heapVa_place hroot id q) fun hsame => ?_
          exact hq (heapVa_page_injective (hsame.trans hpage))
    · rw [not_exists] at hheap
      refine .same ?_ fun _ => hheap
      funext q
      exact hother 2 pt _ (heapVa_place hroot id q) fun hsame => hheap q hsame.symm

end Tables

/-! ## Soundness -/

/-- The heap pages as pages that share frames, with any contents. -/
def leafCow {C : Type*} (leaf : HeapPage → Nat) (data : Nat → C) : Cow HeapPage Nat C where
  entry := pteEntry ∘ leaf
  data := data

/-- What holds of the entries of the heap pages, given how far the kernel heap has been
handed out. -/
structure HeapSound (leaf : HeapPage → Nat) (heapPtr : Nat) : Prop where
  user : ∀ p, hasFlag (leaf p) pteV = true →
    hasFlag (leaf p) pteU = true ∧ hasFlag (leaf p) pteR = true
  exclusive : (leafCow leaf fun _ => ()).Exclusive
  below : ∀ p f w, pteEntry (leaf p) = some (f, w) → (f + 1) * pageSize ≤ heapPtr

/-- Flags of a page that its agent can read. -/
structure UserFlags (flags : Nat) : Prop where
  lt : flags < 2 ^ 10
  valid : hasFlag flags pteV = true
  user : hasFlag flags pteU = true
  read : hasFlag flags pteR = true

namespace HeapSound

variable {leaf : HeapPage → Nat} {heapPtr heapPtr' flags : Nat} {w : Bool}

/-- Whether frames are shared does not depend on their contents. -/
theorem exclusive_data {C : Type*} (h : HeapSound leaf heapPtr) (data : Nat → C) :
    (leafCow leaf data).Exclusive :=
  h.exclusive

theorem empty (h : ∀ p, hasFlag (leaf p) pteV = false) (heapPtr : Nat) :
    HeapSound leaf heapPtr where
  user p hv := absurd hv (by rw [h p]; decide)
  exclusive p _ f _ hp _ := by
    have hnone : (leafCow leaf fun _ => ()).entry p = none := pteEntry_eq_none.mpr (h p)
    exact absurd (hnone.symm.trans hp) nofun
  below p f w hp := absurd ((pteEntry_eq_none.mpr (h p)).symm.trans hp) nofun

theorem mono (h : HeapSound leaf heapPtr) (hle : heapPtr ≤ heapPtr') : HeapSound leaf heapPtr' where
  user := h.user
  exclusive := h.exclusive
  below p f w hp := Nat.le_trans (h.below p f w hp) hle

/-- A frame behind the part that has been handed out is in no entry. -/
theorem unused {C : Type*} (h : HeapSound leaf heapPtr) (hf : heapPtr ≤ f * pageSize)
    (data : Nat → C) : (leafCow leaf data).Unused f := by
  intro p w hp
  have hbelow := h.below p f w hp
  simp only [pageSize] at hbelow hf
  omega

/-- Entries with user flags written to some pages. -/
theorem user_update (h : ∀ p, hasFlag (leaf p) pteV = true →
      hasFlag (leaf p) pteU = true ∧ hasFlag (leaf p) pteR = true)
    (hflags : UserFlags flags) (p : HeapPage) (f : Nat) :
    ∀ q, hasFlag (update leaf p (mkPte f flags) q) pteV = true →
      hasFlag (update leaf p (mkPte f flags) q) pteU = true ∧
        hasFlag (update leaf p (mkPte f flags) q) pteR = true := by
  intro q hv
  by_cases hq : q = p
  · rw [hq, update_self, hasFlag_mkPte _ _ (by decide), hasFlag_mkPte _ _ (by decide)]
    exact ⟨hflags.user, hflags.read⟩
  · rw [update_of_ne hq] at hv ⊢
    exact h q hv

/-- **A page with a new frame.** -/
theorem put (h : HeapSound leaf heapPtr) (hf : heapPtr ≤ f * pageSize)
    (hend : (f + 1) * pageSize ≤ heapPtr') (hflags : UserFlags flags) (p : HeapPage) :
    HeapSound (update leaf p (mkPte f flags)) heapPtr' := by
  have hentry : pteEntry ∘ update leaf p (mkPte f flags) =
      update (pteEntry ∘ leaf) p (some (f, hasFlag flags pteW)) := by
    rw [comp_update, pteEntry_mkPte hflags.lt hflags.valid]
  constructor
  · exact user_update h.user hflags p f
  · rw [leafCow, hentry]
    exact h.exclusive.update (h.unused hf _) p _ _
  · intro q g w hq
    have hq' : (pteEntry ∘ update leaf p (mkPte f flags)) q = some (g, w) := hq
    rw [hentry] at hq'
    by_cases hqp : q = p
    · rw [hqp, update_self] at hq'
      rw [← (Prod.mk.inj (Option.some.inj hq')).1]
      exact hend
    · rw [update_of_ne hqp] at hq'
      calc (g + 1) * pageSize ≤ heapPtr := h.below q g w hq'
        _ ≤ f * pageSize := hf
        _ ≤ (f + 1) * pageSize := Nat.mul_le_mul_right _ (Nat.le_succ f)
        _ ≤ heapPtr' := hend

/-- The entry of a shared page. -/
def readOnly (f : Nat) : Nat := mkPte f (pteU ||| pteR ||| pteV ||| pteStd)

theorem userFlags_readOnly : UserFlags (pteU ||| pteR ||| pteV ||| pteStd) :=
  ⟨by decide, by decide, by decide, by decide⟩

theorem pteEntry_readOnly (f : Nat) : pteEntry (readOnly f) = some (f, false) :=
  pteEntry_mkPte userFlags_readOnly.lt userFlags_readOnly.valid

theorem leafCow_share {C : Type*} (leaf : HeapPage → Nat) (data : Nat → C) (dst src : HeapPage)
    (f : Nat) :
    leafCow (update (update leaf src (readOnly f)) dst (readOnly f)) data =
      (leafCow leaf data).share dst src f := by
  rw [leafCow, comp_update, comp_update, pteEntry_readOnly]
  rfl

/-- **Two pages that share a frame.** -/
theorem share (h : HeapSound leaf heapPtr) {src : HeapPage} (hsrc : pteEntry (leaf src) = some (f, w))
    (dst : HeapPage) :
    HeapSound (update (update leaf src (readOnly f)) dst (readOnly f)) heapPtr := by
  constructor
  · exact user_update (user_update h.user userFlags_readOnly src f) userFlags_readOnly dst f
  · rw [leafCow_share]
    exact h.exclusive.share hsrc dst
  · intro q g w' hq
    have hq' : ((leafCow leaf fun _ => ()).share dst src f).entry q = some (g, w') := by
      rw [← leafCow_share]
      exact hq
    rw [Cow.share_entry] at hq'
    by_cases hshared : q = dst ∨ q = src
    · rw [if_pos hshared] at hq'
      rw [← (Prod.mk.inj (Option.some.inj hq')).1]
      exact h.below src f w hsrc
    · rw [if_neg hshared] at hq'
      exact h.below q g w' hq'

end HeapSound

/-! ## Tables with sound heap pages -/

/-- The page table of an agent is a tree whose heap pages are sound. -/
structure HeapTables (l : Layout) (id : Fin maxAgents) (pt : Nat) (vm : Vm) (place : Places) :
    Prop where
  tree : PageTree l vm place
  root : place pt = some (2, 0)
  sound : HeapSound (heapLeaf l vm pt id) vm.heapPtr

/-- A page that `kalloc_page` has handed out. -/
theorem kallocPage_pos (h : (kallocPage l vm).1 ≠ 0) :
    (kallocPage l vm).1 % pageSize = 0 ∧ vm.heapPtr ≤ (kallocPage l vm).1 ∧
      (kallocPage l vm).2 = vm.setHeap ((kallocPage l vm).1 + pageSize) := by
  simp only [kallocPage] at h ⊢
  by_cases hfull : l.heapStart + heapSize < pageDown (vm.heapPtr + (pageSize - 1)) + pageSize
  · rw [if_pos hfull] at h
    exact absurd rfl h
  · rw [if_neg hfull]
    refine ⟨Nat.mul_mod_left _ _, ?_, rfl⟩
    show vm.heapPtr ≤ (vm.heapPtr + (4096 - 1)) / 4096 * 4096
    omega

/-- The kernel heap is never given back. -/
theorem kallocPage_le (l : Layout) (vm : Vm) :
    ∃ heapPtr, vm.heapPtr ≤ heapPtr ∧ (kallocPage l vm).2 = vm.setHeap heapPtr := by
  simp only [kallocPage]
  split_ifs
  · exact ⟨vm.heapPtr, Nat.le_refl _, rfl⟩
  · refine ⟨_, ?_, rfl⟩
    show vm.heapPtr ≤ (vm.heapPtr + (4096 - 1)) / 4096 * 4096 + 4096
    omega

/-- The same page as a frame. -/
theorem frame_of_kallocPage (h : (kallocPage l vm).1 ≠ 0) :
    vm.heapPtr ≤ (kallocPage l vm).1 / pageSize * pageSize ∧
      ((kallocPage l vm).1 / pageSize + 1) * pageSize = (kallocPage l vm).1 + pageSize := by
  obtain ⟨haligned, hle, -⟩ := kallocPage_pos h
  have hframe := Nat.div_mul_cancel (Nat.dvd_of_mod_eq_zero haligned)
  rw [Nat.succ_mul, hframe]
  exact ⟨hle, rfl⟩

theorem leafFrom_setHeap (l : Layout) (vm : Vm) (heapPtr va n : Nat) :
    ∀ pt, leafFrom l (vm.setHeap heapPtr) va n pt = leafFrom l vm va n pt := by
  induction n with
  | zero => exact fun _ => rfl
  | succ n ih =>
    intro pt
    have hmem : (vm.setHeap heapPtr).mem = vm.mem := rfl
    rw [leafFrom_succ, leafFrom_succ, hmem, ih]

theorem heapLeaf_setHeap (l : Layout) (vm : Vm) (heapPtr pt : Nat) (id : Fin maxAgents) :
    heapLeaf l (vm.setHeap heapPtr) pt id = heapLeaf l vm pt id :=
  funext fun p => leafFrom_setHeap l vm heapPtr (heapVa id p) 2 pt

theorem HeapTables.setHeap (h : HeapTables l id pt vm place) {heapPtr : Nat}
    (hle : vm.heapPtr ≤ heapPtr) : HeapTables l id pt (vm.setHeap heapPtr) place where
  tree := h.tree.setHeap heapPtr
  root := h.root
  sound := by
    rw [heapLeaf_setHeap]
    exact h.sound.mono hle

/-- **Mapping a page to a new frame**, at any address. -/
theorem HeapTables.mapFrame (h : HeapTables l id pt vm place) (hpage : (kallocPage l vm).1 ≠ 0)
    (hflags : UserFlags (perm ||| pteV ||| pteStd)) (va : Nat) :
    ∃ place', HeapTables l id pt
        (vmMapPage l (kallocPage l vm).2 pt va (kallocPage l vm).1 perm).2 place' ∧
      HeapMapped l vm pt id va (kallocPage l vm).1 perm
        (vmMapPage l (kallocPage l vm).2 pt va (kallocPage l vm).1 perm) := by
  obtain ⟨-, hle, hheap⟩ := kallocPage_pos hpage
  obtain ⟨hframe, hend⟩ := frame_of_kallocPage hpage
  have hsame := heapLeaf_setHeap l vm ((kallocPage l vm).1 + pageSize) pt id
  have hunder : TreeUnder l pt vm place (kallocPage l vm).2 place := h.tree.under_kallocPage
  obtain ⟨place', htree, hkeeps, hptr, hmapped⟩ := hunder.tree.heapMapped_vmMapPage h.root id va
    (kallocPage l vm).1 perm
  have hptr' : (vmMapPage l (kallocPage l vm).2 pt va (kallocPage l vm).1 perm).2.heapPtr =
      (kallocPage l vm).1 + pageSize := by
    rw [hptr, hheap]
    rfl
  have hleaf : heapLeaf l (kallocPage l vm).2 pt id = heapLeaf l vm pt id := by
    rw [hheap]
    exact hsame
  refine ⟨place', ⟨htree, hkeeps _ _ h.root, ?_⟩, ?_⟩
  · rw [hptr']
    cases hmapped with
    | same hsame _ =>
      rw [hsame, hleaf]
      exact h.sound.mono (by omega)
    | mapped p _ _ _ hset =>
      rw [hset, hleaf]
      exact h.sound.put hframe (Nat.le_of_eq hend) hflags p
  · cases hmapped with
    | same hsame hother => exact .same (by rw [hsame, hleaf]) hother
    | mapped p hrc hpage hfree hset =>
      refine .mapped p hrc hpage ?_ (by rw [hset, hleaf])
      rw [heapEntry, hleaf] at hfree
      exact hfree

/-- The heap pages that are mapped after a successful call. -/
theorem HeapMapped.isSome_iff {out : Int × Vm} (h : HeapMapped l vm pt id va pa perm out)
    (hrc : out.1 = 0) (p : HeapPage) :
    (heapEntry l out.2 pt id p).isSome = true ↔
      (heapEntry l vm pt id p).isSome = true ∨ va % 2 ^ 39 / pageSize = heapVa id p / pageSize := by
  rw [heapEntry, heapEntry, pteEntry_isSome, pteEntry_isSome]
  cases h with
  | same hleaf hother =>
    rw [hleaf]
    exact ⟨.inl, fun h => h.resolve_right (hother hrc p)⟩
  | mapped q _ hpage _ hleaf =>
    rw [hleaf]
    by_cases hpq : p = q
    · rw [hpq, update_self, hasFlag_mappedEntry]
      exact ⟨fun _ => .inr hpage, fun _ => rfl⟩
    · rw [update_of_ne hpq]
      exact ⟨.inl, fun h => h.resolve_right fun hother =>
        hpq (heapVa_page_injective (hother.symm.trans hpage))⟩

/-! ## Loading a file -/

/-- Segment `i` of the file covers the heap page. A walk uses 39 bits of an address, so
segments beyond them count as well. -/
def ElfFile.Covers (f : ElfFile) (i : Nat) (id : Fin maxAgents) (p : HeapPage) : Prop :=
  f.pType i = 1 ∧ ∃ va, pageDown (f.pVaddr i) ≤ va ∧ va < segmentEnd (f.pVaddr i) (f.pMemsz i) ∧
    va % 2 ^ 39 / pageSize = heapVa id p / pageSize

/-- The heap pages have stayed sound, and after success exactly those in `covers` have been
mapped in addition. -/
def Loads (l : Layout) (id : Fin maxAgents) (pt : Nat) (vm : Vm) (covers : HeapPage → Prop)
    (out : Int × Vm) : Prop :=
  (∃ place', HeapTables l id pt out.2 place') ∧
    (out.1 = 0 → ∀ p, (heapEntry l out.2 pt id p).isSome = true ↔
      (heapEntry l vm pt id p).isSome = true ∨ covers p)

theorem Loads.refused {rc : Int} (h : HeapTables l id pt vm place) (hrc : rc ≠ 0)
    (covers : HeapPage → Prop) {heapPtr : Nat} (hle : vm.heapPtr ≤ heapPtr) :
    Loads l id pt vm covers (rc, vm.setHeap heapPtr) :=
  ⟨⟨place, h.setHeap hle⟩, fun hzero => absurd hzero hrc⟩

/-- Loading in two parts, the second of which is only tried after the first. -/
theorem Loads.bind {covers covers' covers'' : HeapPage → Prop} {out : Int × Vm} {rc : Int}
    {next : Vm → Int × Vm} (hrc : rc ≠ 0) (h : Loads l id pt vm covers out)
    (hnext : ∀ place', HeapTables l id pt out.2 place' → Loads l id pt out.2 covers' (next out.2))
    (hcovers : ∀ p, covers'' p ↔ covers p ∨ covers' p) :
    Loads l id pt vm covers'' (if out.1 ≠ 0 then (rc, out.2) else next out.2) := by
  obtain ⟨⟨place', htables⟩, hmapped⟩ := h
  split_ifs with hout
  · exact ⟨⟨place', htables⟩, fun hzero => absurd hzero hrc⟩
  · obtain ⟨htables', hmapped'⟩ := hnext place' htables
    refine ⟨htables', fun hzero p => ?_⟩
    rw [hmapped' hzero, hmapped (not_not.mp hout), hcovers, or_assoc]

/-- The pages of a segment. -/
theorem segment_pages {first last x : Nat} (hfirst : first % pageSize = 0)
    (hlast : last % pageSize = 0) :
    (∃ j, j < (last - first) / pageSize ∧ (first + j * pageSize) % 2 ^ 39 / pageSize = x) ↔
      ∃ va, first ≤ va ∧ va < last ∧ va % 2 ^ 39 / pageSize = x := by
  simp only [pageSize] at hfirst hlast ⊢
  constructor
  · rintro ⟨j, hj, hx⟩
    exact ⟨first + j * 4096, by omega, by omega, hx⟩
  · rintro ⟨va, hlow, hhigh, hx⟩
    have hdiv := Nat.div_add_mod (va - first) 4096
    have hmod := Nat.mod_lt (va - first) (show 4096 > 0 by decide)
    refine ⟨(va - first) / 4096, by omega, ?_⟩
    have hva : va / 4096 = (first + (va - first) / 4096 * 4096) / 4096 := by omega
    omega

theorem userFlags_segment (flags : Nat) :
    UserFlags ((pteU ||| pteR ||| (if flags &&& 2 ≠ 0 then pteW else 0)
      ||| (if flags &&& 1 ≠ 0 then pteX else 0)) ||| pteV ||| pteStd) := by
  split_ifs <;> exact ⟨by decide, by decide, by decide, by decide⟩

theorem HeapTables.elfMapPages (hflags : UserFlags (perm ||| pteV ||| pteStd)) (n : Nat) :
    ∀ va vm place, HeapTables l id pt vm place →
      Loads l id pt vm
        (fun p => ∃ j, j < n ∧ (va + j * pageSize) % 2 ^ 39 / pageSize = heapVa id p / pageSize)
        (OpenAgentOS.elfMapPages l pt perm n va vm) := by
  induction n with
  | zero =>
    intro va vm place h
    refine ⟨⟨place, h⟩, fun _ p => ⟨.inl, fun h => h.resolve_right ?_⟩⟩
    rintro ⟨j, hj, -⟩
    exact absurd hj (Nat.not_lt_zero j)
  | succ n ih =>
    intro va vm place h
    rw [OpenAgentOS.elfMapPages]
    by_cases hnone : (kallocPage l vm).1 = 0
    · rw [if_pos hnone]
      obtain ⟨heapPtr, hle, hheap⟩ := kallocPage_le l vm
      rw [hheap]
      exact .refused h (by decide) _ hle
    rw [if_neg hnone]
    obtain ⟨place', htables, hmapped⟩ := h.mapFrame hnone hflags va
    refine Loads.bind (by decide)
      (⟨⟨place', htables⟩, fun hrc p => hmapped.isSome_iff hrc p⟩ : Loads l id pt vm _ _)
      (fun place' h' => ih (va + pageSize) _ place' h') fun p => ?_
    -- page 0 is the first one, and page `j + 1` is page `j` of the rest
    constructor
    · rintro ⟨_ | j, hj, hpage⟩
      · rw [Nat.zero_mul, Nat.add_zero] at hpage
        exact .inl hpage
      · refine .inr ⟨j, Nat.lt_of_succ_lt_succ hj, ?_⟩
        rw [Nat.succ_mul, ← Nat.add_assoc, Nat.add_right_comm] at hpage
        exact hpage
    · rintro (hpage | ⟨j, hj, hpage⟩)
      · exact ⟨0, Nat.succ_pos n, by rw [Nat.zero_mul, Nat.add_zero]; exact hpage⟩
      · refine ⟨j + 1, Nat.succ_lt_succ hj, ?_⟩
        rw [Nat.succ_mul, ← Nat.add_assoc, Nat.add_right_comm]
        exact hpage

theorem pageUp_mod (x : Nat) : pageUp x % pageSize = 0 := Nat.mul_mod_left _ _

theorem pageDown_mod (x : Nat) : pageDown x % pageSize = 0 := Nat.mul_mod_left _ _

/-- The pages of one segment. -/
theorem HeapTables.elfMapSegment (h : HeapTables l id pt vm place) (f : ElfFile) {i : Nat}
    (htype : f.pType i = 1) :
    Loads l id pt vm (f.Covers i id)
      (OpenAgentOS.elfMapSegment l vm pt (f.pVaddr i) (f.pMemsz i) (f.pFlags i)) := by
  obtain ⟨htables, hmapped⟩ := HeapTables.elfMapPages (userFlags_segment (f.pFlags i))
    ((segmentEnd (f.pVaddr i) (f.pMemsz i) - pageDown (f.pVaddr i)) / pageSize)
    (pageDown (f.pVaddr i)) vm place h
  refine ⟨htables, fun hrc p => ?_⟩
  have hlast : segmentEnd (f.pVaddr i) (f.pMemsz i) % pageSize = 0 := pageUp_mod _
  have hpages := segment_pages (x := heapVa id p / pageSize) (pageDown_mod (f.pVaddr i)) hlast
  have hcovers : f.Covers i id p ↔ ∃ va, pageDown (f.pVaddr i) ≤ va ∧
      va < segmentEnd (f.pVaddr i) (f.pMemsz i) ∧ va % 2 ^ 39 / pageSize = heapVa id p / pageSize :=
    ⟨And.right, fun hva => ⟨htype, hva⟩⟩
  exact (hmapped hrc p).trans (or_congr_right (hpages.trans hcovers.symm))

/-- The segments from `i` on. -/
theorem HeapTables.elfLoadHeaders (f : ElfFile) (n : Nat) :
    ∀ i vm place, HeapTables l id pt vm place →
      Loads l id pt vm (fun p => ∃ j, i ≤ j ∧ j < i + n ∧ f.Covers j id p)
        (OpenAgentOS.elfLoadHeaders l f pt n i vm) := by
  induction n with
  | zero =>
    intro i vm place h
    refine ⟨⟨place, h⟩, fun _ p => ⟨.inl, fun h => h.resolve_right ?_⟩⟩
    rintro ⟨j, hlow, hhigh, -⟩
    omega
  | succ n ih =>
    intro i vm place h
    have herror : ∀ {rc : Int}, rc ≠ 0 → Loads l id pt vm
        (fun p => ∃ j, i ≤ j ∧ j < i + (n + 1) ∧ f.Covers j id p) (rc, vm) :=
      fun hrc => ⟨⟨place, h⟩, fun hzero => absurd hzero hrc⟩
    -- what the segments from `i` on cover is covered by segment `i` or by a later one
    have hsplit : ∀ p, (∃ j, i ≤ j ∧ j < i + (n + 1) ∧ f.Covers j id p) ↔
        f.Covers i id p ∨ ∃ j, i + 1 ≤ j ∧ j < i + 1 + n ∧ f.Covers j id p := by
      intro p
      constructor
      · rintro ⟨j, hlow, hhigh, hcovers⟩
        rcases Nat.eq_or_lt_of_le hlow with rfl | hlt
        · exact .inl hcovers
        · exact .inr ⟨j, hlt, by omega, hcovers⟩
      · rintro (hcovers | ⟨j, hlow, hhigh, hcovers⟩)
        · exact ⟨i, Nat.le_refl i, by omega, hcovers⟩
        · exact ⟨j, by omega, by omega, hcovers⟩
    rw [OpenAgentOS.elfLoadHeaders]
    by_cases hheader : f.len < (f.phdr i + 56) % 2 ^ 64
    · rw [if_pos hheader]
      exact herror (by decide)
    rw [if_neg hheader]
    by_cases htype : f.pType i ≠ 1
    · rw [if_pos htype]
      obtain ⟨htables, hmapped⟩ := ih (i + 1) vm place h
      refine ⟨htables, fun hrc p => ?_⟩
      dsimp only
      rw [hsplit, hmapped hrc]
      exact or_congr_right ⟨.inr, fun h => h.resolve_left fun hcovers => htype hcovers.1⟩
    rw [if_neg htype]
    by_cases hsize : f.len < (f.pOffset i + f.pFilesz i) % 2 ^ 64
    · rw [if_pos hsize]
      exact herror (by decide)
    rw [if_neg hsize]
    exact Loads.bind (by decide) (h.elfMapSegment f (not_not.mp htype))
      (fun place' h' => ih (i + 1) _ place' h') hsplit

/-- **Loading a file** maps the heap pages that its segments cover. -/
theorem HeapTables.elfLoadIntoAgent (h : HeapTables l id pt vm place) (f : ElfFile) :
    Loads l id pt vm (fun p => ∃ i, i < f.phnum ∧ f.Covers i id p)
      (OpenAgentOS.elfLoadIntoAgent l vm pt f) := by
  have herror : ∀ {rc : Int}, rc ≠ 0 → Loads l id pt vm
      (fun p => ∃ i, i < f.phnum ∧ f.Covers i id p) (rc, vm) :=
    fun hrc => ⟨⟨place, h⟩, fun hzero => absurd hzero hrc⟩
  have hinval : einval ≠ 0 := by decide
  rw [OpenAgentOS.elfLoadIntoAgent]
  split_ifs
  · exact herror hinval
  · exact herror hinval
  · exact herror hinval
  · exact herror hinval
  · exact herror hinval
  · obtain ⟨htables, hmapped⟩ := HeapTables.elfLoadHeaders f f.phnum 0 vm place h
    refine ⟨htables, fun hrc p => ?_⟩
    rw [hmapped hrc]
    simp only [Nat.zero_le, true_and, Nat.zero_add]

/-! ## New agents -/

/-- Pages outside the heap leave it alone. -/
theorem PageTree.heapLeaf_vmMapPages (n : Nat) : ∀ va pa vm place, PageTree l vm place →
    place pt = some (2, 0) →
    (∀ j, j < n → ∀ p, (va + j * pageSize) % 2 ^ 39 / pageSize ≠ heapVa id p / pageSize) →
    ∃ place', PageTree l (vmMapPages l pt perm n va pa vm).2 place' ∧ place' pt = some (2, 0) ∧
      heapLeaf l (vmMapPages l pt perm n va pa vm).2 pt id = heapLeaf l vm pt id := by
  induction n with
  | zero => exact fun _ _ _ place h hroot _ => ⟨place, h, hroot, rfl⟩
  | succ n ih =>
    intro va pa vm place h hroot houtside
    rw [vmMapPages]
    obtain ⟨place', htree, hkeeps, -, hmapped⟩ := h.heapMapped_vmMapPage hroot id va pa perm
    have hleaf : heapLeaf l (vmMapPage l vm pt va pa perm).2 pt id = heapLeaf l vm pt id := by
      cases hmapped with
      | same hleaf _ => exact hleaf
      | mapped p _ hpage _ _ =>
        have hfirst := houtside 0 (Nat.succ_pos n) p
        rw [Nat.zero_mul, Nat.add_zero] at hfirst
        exact absurd hpage hfirst
    split_ifs
    · exact ⟨place', htree, hkeeps _ _ hroot, hleaf⟩
    · obtain ⟨place'', htree', hroot', hleaf'⟩ := ih (va + pageSize) ((pa + pageSize) % 2 ^ 64)
        (vmMapPage l vm pt va pa perm).2 place' htree (hkeeps _ _ hroot) fun j hj p => by
          have hnext := houtside (j + 1) (Nat.succ_lt_succ hj) p
          rw [Nat.succ_mul, ← Nat.add_assoc, Nat.add_right_comm] at hnext
          exact hnext
      exact ⟨place'', htree', hroot', hleaf'.trans hleaf⟩

/-- The pages of a stack are none of a heap. -/
theorem stackPage_ne_heapPage (id : Fin maxAgents) {j : Nat}
    (hj : j < (pageUp ((userStackBase + id * userStackSlot + pageSize + agentStackSize) % 2 ^ 64)
      - pageDown (userStackBase + id * userStackSlot + pageSize)) / pageSize) (p : HeapPage) :
    (pageDown (userStackBase + id * userStackSlot + pageSize) + j * pageSize) % 2 ^ 39 / pageSize ≠
      heapVa id p / pageSize := by
  have hid : (id : Nat) < 12 := id.isLt
  have hsmall : userStackBase + id * userStackSlot + pageSize + agentStackSize + (pageSize - 1)
      < 2 ^ 64 := by
    simp only [userStackBase, userStackSlot, pageSize, agentStackSize]
    omega
  rw [pageUp, Nat.mod_eq_of_lt (by omega : _ + agentStackSize < _), Nat.mod_eq_of_lt hsmall] at hj
  have hstack : pageDown (userStackBase + id * userStackSlot + pageSize) + j * pageSize
      < 0x60000000 := by
    simp only [pageDown, userStackBase, userStackSlot, pageSize, agentStackSize] at hj ⊢
    omega
  obtain ⟨hheap, -⟩ := heapVa_bounds id p
  rw [Nat.mod_eq_of_lt (by omega), pageSize] at *
  omega

/-- A new root has no heap pages, with or without a stack. -/
theorem heapTables_stacked {k : VmKernel} (hinv : TreeInv l k place)
    (h : Stacked l k id pt vm') :
    (∃ place', HeapTables l id pt vm' place') ∧ ∀ p, heapEntry l vm' pt id p = none := by
  obtain ⟨heapPtr, vm, stackPa, heapPtr', hcreate, rfl⟩ := h
  have hnew := (hinv.tree.setHeap heapPtr).newTree hinv.kernel hcreate
  have hempty : ∀ p, hasFlag (heapLeaf l vm pt id p) pteV = false := by
    intro p
    obtain ⟨-, rfl, rfl⟩ := vmCreateAgentPt_some hcreate
    have hentry : hasFlag ((newRoot l (k.vm.setHeap heapPtr)).mem
        (l.poolPage (k.vm.setHeap heapPtr).ptNext) (vpn 2 (heapVa id p))) pteV = false := by
      rw [newRoot_self, vpn_heapVa]
      exact hinv.gigabyte
    rw [heapLeaf, leafFrom_succ, hentry, if_neg (by decide), hasFlag_zero]
  have hstack : ∃ place', PageTree l (vmMapUserStack l vm pt id stackPa).2 place' ∧
      place' pt = some (2, 0) ∧
      heapLeaf l (vmMapUserStack l vm pt id stackPa).2 pt id = heapLeaf l vm pt id :=
    PageTree.heapLeaf_vmMapPages _ _ _ vm _ hnew.under.tree hnew.root
      fun j hj p => stackPage_ne_heapPage id hj p
  obtain ⟨place', htree, hroot, hleaf⟩ := hstack
  have hleaf' := (heapLeaf_setHeap l (vmMapUserStack l vm pt id stackPa).2 heapPtr' pt id).trans hleaf
  refine ⟨⟨place', htree.setHeap heapPtr', hroot, ?_⟩, fun p => ?_⟩
  · rw [hleaf']
    exact .empty hempty _
  · rw [heapEntry, hleaf', pteEntry_eq_none, hempty]

/-- **An agent that was created has no heap pages.** -/
theorem heapTables_create {k k' : VmKernel} (hinv : TreeInv l k place)
    (h : agentSetupStack l k id = (true, k')) :
    ∃ pt place', k'.agents id = freshHeap id (some pt) ∧ HeapTables l id pt k'.vm place' ∧
      ∀ p, heapEntry l k'.vm pt id p = none := by
  obtain ⟨pt, hstacked, hagent⟩ := agentSetupStack_true h
  obtain ⟨⟨place', htables⟩, hempty⟩ := heapTables_stacked hinv hstacked
  exact ⟨pt, place', hagent, htables, hempty⟩

/-- Loading returns 0 or an error. -/
theorem elfLoadHeaders_nonpos (f : ElfFile) (n : Nat) :
    ∀ i vm, (elfLoadHeaders l f pt n i vm).1 ≤ 0 := by
  induction n with
  | zero => exact fun _ _ => Int.le_refl 0
  | succ n ih =>
    intro i vm
    rw [elfLoadHeaders]
    split_ifs
    · exact (by decide : einval ≤ 0)
    · exact ih _ _
    · exact (by decide : einval ≤ 0)
    · dsimp only
      split_ifs
      · exact (by decide : enospc ≤ 0)
      · exact ih _ _

theorem elfLoadIntoAgent_nonpos (f : ElfFile) (vm : Vm) :
    (elfLoadIntoAgent l vm pt f).1 ≤ 0 := by
  have hinval : einval ≤ 0 := by decide
  rw [elfLoadIntoAgent]
  split_ifs
  · exact hinval
  · exact hinval
  · exact hinval
  · exact hinval
  · exact hinval
  · exact elfLoadHeaders_nonpos f _ _ _

/-- **An agent that was loaded has the heap pages that its file covers.** -/
theorem heapTables_load {k k' : VmKernel} (hinv : TreeInv l k place) {elf : ElfFile}
    (h : agentLoad l k id elf = (((id : Nat) : Int), k')) :
    ∃ pt place', k'.agents id = freshHeap id (some pt) ∧ HeapTables l id pt k'.vm place' ∧
      ∀ p, (heapEntry l k'.vm pt id p).isSome = true ↔ ∃ i, i < elf.phnum ∧ elf.Covers i id p := by
  rcases agentSetupLoaded_stacked l k id with hrc | ⟨pt, vm', hstacked, heq⟩
  · rw [agentLoad, if_pos (by rw [hrc]; decide)] at h
    have hid := hrc.symm.trans (congrArg Prod.fst h)
    dsimp only [enospc] at hid
    omega
  obtain ⟨⟨place', htables⟩, hempty⟩ := heapTables_stacked hinv hstacked
  obtain ⟨⟨place'', htables'⟩, hmapped⟩ := htables.elfLoadIntoAgent elf
  simp only [agentLoad, heq, VmKernel.setAgent_self, VmKernel.setAgent_vm, freshHeap, ne_eq,
    not_true_eq_false, if_false] at h
  obtain ⟨hid, rfl⟩ := Prod.mk.inj h
  have hrc : (elfLoadIntoAgent l vm' pt elf).1 = 0 := by
    by_contra herror
    rw [if_pos herror] at hid
    have hle : (elfLoadIntoAgent l vm' pt elf).1 ≤ 0 := elfLoadIntoAgent_nonpos elf vm'
    omega
  refine ⟨pt, place'', VmKernel.setAgent_self .., htables', fun p => ?_⟩
  rw [hmapped hrc p, hempty p]
  simp

end OpenAgentOS
