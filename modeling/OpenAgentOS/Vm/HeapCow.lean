import OpenAgentOS.Lib.Cells
import OpenAgentOS.Vm.HeapRefines
import OpenAgentOS.Vm.LoadConflict

/-!
# Copy-on-write of heap pages is not observable

An agent maps heap pages, aliases them, and loads and stores bytes. A load or store that the
page table does not permit faults; `vm_heap_fault` serves it, and the access is made again.
The agent sees sixteen independent pages, and `agent_heap_cow` copies one to another.

Accesses are translated by the page table as it is. The code changes entries without
`sfence.vma` (only `vm_activate` has one), so what follows is about a machine that does not
use an entry after it was changed.

- `HeapMachine`: the kernel and the bytes of all frames. `kalloc_page` does not clear what it
  hands out, so a new page shows what its frame held.
- `HeapMachine.step`: the operations of an agent. `modelStep`: the same on sixteen arrays.
- `HeapTransparent`: there are first contents for which every load shows the byte of the
  model, all stores are made, and a call of `agent_heap_cow` that fails changes no page.
- `HeapCounted`: `heap_mapped` is the number of heap pages that are mapped.
- `heap_transparent`: the first holds for every agent. `heap_cow_transparent_iff`: both hold
  iff no segment of the file that the agent was loaded from covers a heap page. The loader
  maps such a page without counting it.
-/

namespace OpenAgentOS

open Function

/-- The contents of a page. -/
abbrev PageBytes := Fin pageSize → UInt8

/-- The kernel, and what is in the frames. -/
structure HeapMachine where
  k : VmKernel
  data : Nat → PageBytes

/-! ## Accesses -/

/-- The frames after `vm_cow_break` (vm.c:103): its loop copies the old frame to the new. -/
def cowBreakData (l : Layout) (k : VmKernel) (pt pageVa : Nat) (data : Nat → PageBytes) :
    Nat → PageBytes :=
  match (vmWalk l k.vm pt (pageDown pageVa) false).1 with
  | none => data
  | some (table, i) =>
    if !hasFlag (k.vm.mem table i) pteV then data
    else if hasFlag (k.vm.mem table i) pteW then data
    else
      let page := kallocPage l k.vm
      if page.1 = 0 then data
      else update data (page.1 / pageSize) (data (ptePpn (k.vm.mem table i)))

/-- The frames after `vm_heap_fault`. -/
def heapFaultData (l : Layout) (k : VmKernel) (id : Fin maxAgents) (va : Nat) (write : Bool)
    (data : Nat → PageBytes) : Nat → PageBytes :=
  let a := k.agents id
  match a.pagetable with
  | none => data
  | some pt =>
    if va < a.heapBase ∨ a.heapBase + a.heapMaxPages * pageSize ≤ va then data
    else if vmPageMapped l k.vm pt (pageDown va) then
      if !write then data
      else
        match (vmWalk l k.vm pt (pageDown va) false).1 with
        | none => data
        | some (table, i) =>
          if hasFlag (k.vm.mem table i) pteV && !hasFlag (k.vm.mem table i) pteW then
            cowBreakData l k pt (pageDown va) data
          else data
    else data

/-- The frame of an address, if a user may access it. -/
def userFrame (l : Layout) (vm : Vm) (pt va : Nat) (write : Bool) : Option Nat :=
  let pte := leafFrom l vm va 2 pt
  if hasFlag pte pteV && hasFlag pte pteU && hasFlag pte (if write then pteW else pteR) then
    some (ptePpn pte)
  else none

/-- The machine after `vm_heap_fault`. -/
def HeapMachine.fault (l : Layout) (id : Fin maxAgents) (m : HeapMachine) (va : Nat)
    (write : Bool) : HeapMachine where
  k := (vmHeapFault l m.k id va write).2
  data := heapFaultData l m.k id va write m.data

/-- An access to a byte of a heap page: the frame, after at most one fault that was served.
Without a frame the agent is killed (trap_handler.c:131). -/
def HeapMachine.access (l : Layout) (id : Fin maxAgents) (m : HeapMachine) (p : HeapPage)
    (off : Fin pageSize) (write : Bool) : Option Nat × HeapMachine :=
  match (m.k.agents id).pagetable with
  | none => (none, m)
  | some pt =>
    let va := heapVa id p + off
    match userFrame l m.k.vm pt va write with
    | some f => (some f, m)
    | none =>
      let m' := m.fault l id va write
      if (vmHeapFault l m.k id va write).1 then (userFrame l m'.k.vm pt va write, m')
      else (none, m')

/-! ## Steps -/

/-- What an agent does with its heap. -/
inductive HeapEvent where
  | map (pageOff : Int)
  | cow (dstOff srcOff : Int)
  | load (p : HeapPage) (off : Fin pageSize)
  | store (p : HeapPage) (off : Fin pageSize) (byte : UInt8)

/-- The byte that a load returns. -/
def HeapMachine.loaded (l : Layout) (id : Fin maxAgents) (m : HeapMachine) (p : HeapPage)
    (off : Fin pageSize) : Option UInt8 :=
  let out := m.access l id p off false
  out.1.map fun f => out.2.data f off

/-- Write a byte of a frame. -/
def HeapMachine.poke (m : HeapMachine) (f : Nat) (off : Fin pageSize) (byte : UInt8) :
    HeapMachine :=
  { m with data := update m.data f (update (m.data f) off byte) }

def HeapMachine.step (l : Layout) (id : Fin maxAgents) (m : HeapMachine) : HeapEvent → HeapMachine
  | .map pageOff => { m with k := (agentHeapMap l m.k id pageOff).2 }
  | .cow dstOff srcOff => { m with k := (vmHeapCowAlias l m.k id dstOff srcOff).2 }
  | .load p off => (m.access l id p off false).2
  | .store p off byte =>
    match m.access l id p off true with
    | (some f, m') => m'.poke f off byte
    | (none, m') => m'

/-- Sixteen independent pages. -/
abbrev HeapArrays := HeapPage → PageBytes

/-- The step on independent pages: only stores and successful calls of `agent_heap_cow`
change them. -/
def modelStep (l : Layout) (id : Fin maxAgents) (m : HeapMachine) (a : HeapArrays) :
    HeapEvent → HeapArrays
  | .map _ | .load _ _ => a
  | .cow dstOff srcOff =>
    if 0 ≤ (vmHeapCowAlias l m.k id dstOff srcOff).1 then
      match heapPageOff dstOff, heapPageOff srcOff with
      | some dst, some src => update a dst (a src)
      | _, _ => a
    else a
  | .store p off byte => update a p (update (a p) off byte)

/-- The allocations that the step makes succeed: a frame and tables for a page that it maps,
a frame for a page whose sharing it breaks. -/
def AllocOk (l : Layout) (id : Fin maxAgents) (m : HeapMachine) (e : HeapEvent) : Prop :=
  ∀ pt, (m.k.agents id).pagetable = some pt →
    match e with
    | .map pageOff => ∀ p, heapPageOff pageOff = some p → heapEntry l m.k.vm pt id p = none →
        newFrame l m.k.vm ≠ none ∧ TablesFor l m.k.vm pt id p
    | .cow dstOff srcOff => ∀ dst src, heapPageOff dstOff = some dst →
        heapPageOff srcOff = some src → heapEntry l m.k.vm pt id src ≠ none →
        heapEntry l m.k.vm pt id dst = none → TablesFor l m.k.vm pt id dst
    | .load p _ => heapEntry l m.k.vm pt id p = none →
        newFrame l m.k.vm ≠ none ∧ TablesFor l m.k.vm pt id p
    | .store p _ _ =>
      (heapEntry l m.k.vm pt id p = none →
        newFrame l m.k.vm ≠ none ∧ TablesFor l m.k.vm pt id p) ∧
      (∀ f, heapEntry l m.k.vm pt id p = some (f, false) → newFrame l m.k.vm ≠ none)

/-! ## What an agent can observe -/

/-- What the page table says about the heap pages. -/
def HeapMachine.entries (l : Layout) (id : Fin maxAgents) (m : HeapMachine) (p : HeapPage) :
    Option (Nat × Bool) :=
  match (m.k.agents id).pagetable with
  | none => none
  | some pt => heapEntry l m.k.vm pt id p

/-- One step, seen by the agent, with the contents of the model before it. -/
def StepSeen (l : Layout) (id : Fin maxAgents) (x : HeapMachine × HeapArrays) : HeapEvent → Prop
  | .map _ => True
  | .cow dstOff srcOff => (vmHeapCowAlias l x.1.k id dstOff srcOff).1 < 0 →
      (x.1.step l id (.cow dstOff srcOff)).entries l id = x.1.entries l id ∧
        (x.1.step l id (.cow dstOff srcOff)).data = x.1.data
  | .load p off => x.1.loaded l id p off = some (x.2 p off)
  | .store p off _ => (x.1.access l id p off true).1 ≠ none

/-- The machine beside the model. -/
def pairStep (l : Layout) (id : Fin maxAgents) (x : HeapMachine × HeapArrays) (e : HeapEvent) :
    HeapMachine × HeapArrays :=
  (x.1.step l id e, modelStep l id x.1 x.2 e)

/-- The agent sees independent pages. -/
def HeapTransparent (l : Layout) (id : Fin maxAgents) (m : HeapMachine) (es : List HeapEvent) :
    Prop :=
  ∃ first : HeapArrays, Runs.Along (pairStep l id) (StepSeen l id) (m, first) es

/-- `heap_mapped` is the number of mapped heap pages. -/
def HeapMachine.Counts (l : Layout) (id : Fin maxAgents) (m : HeapMachine) : Prop :=
  (m.k.agents id).heapMapped = slotCount fun p => (m.entries l id p).isSome

/-- It is so at the start and after each step. -/
def HeapCounted (l : Layout) (id : Fin maxAgents) (m : HeapMachine) (es : List HeapEvent) : Prop :=
  m.Counts l id ∧
    Runs.Along (HeapMachine.step l id) (fun m e => (m.step l id e).Counts l id) m es

variable {l : Layout} {id : Fin maxAgents} {pt : Nat} {m m' : HeapMachine} {p : HeapPage}
  {off : Fin pageSize} {write : Bool} {extra : Nat}

/-! ## The access -/

/-- The heap pages with their contents. -/
def HeapMachine.cow (l : Layout) (id : Fin maxAgents) (pt : Nat) (m : HeapMachine) :
    Cow HeapPage Nat PageBytes where
  entry := heapEntry l m.k.vm pt id
  data := m.data

/-- The invariant: sound page tables, and a count that misses `extra` pages. -/
structure MachineInv (l : Layout) (id : Fin maxAgents) (pt extra : Nat) (m : HeapMachine) : Prop where
  heap : HeapInv l id pt m.k
  counted : (m.k.heap l id pt).Counted extra

theorem MachineInv.exclusive (h : MachineInv l id pt extra m) : (m.cow l id pt).Exclusive := by
  obtain ⟨place, htables⟩ := h.heap.tables
  exact htables.sound.exclusive_data m.data

theorem heapPageAt_heapVa (id : Fin maxAgents) (p : HeapPage) (off : Fin pageSize) :
    heapPageAt id (heapVa id p + off) = some p := by
  have hoff : (off : Nat) < 4096 := off.isLt
  have hp := p.isLt
  have hrange : heapVa id 0 ≤ heapVa id p + off ∧
      heapVa id p + off < heapVa id 0 + 16 * pageSize := by
    simp only [heapVa_eq, pageSize, Fin.val_zero]
    omega
  rw [heapPageAt, dif_pos hrange]
  refine congrArg some (Fin.ext ?_)
  simp only [heapVa_eq, pageSize, Fin.val_zero]
  omega

/-- What an access finds without a fault. -/
theorem userFrame_heapVa (h : HeapInv l id pt m.k) (p : HeapPage) (off : Fin pageSize)
    (write : Bool) :
    userFrame l m.k.vm pt (heapVa id p + off) write =
      match heapEntry l m.k.vm pt id p with
      | none => none
      | some (f, w) => if write && !w then none else some f := by
  obtain ⟨place, htables⟩ := h.tables
  have hpage : (heapVa id p + off) / pageSize = heapVa id p / pageSize := by
    have hoff : (off : Nat) < 4096 := off.isLt
    simp only [heapVa_eq, pageSize]
    omega
  rw [userFrame, leafFrom_congr hpage, ← heapLeaf, heapEntry, pteEntry]
  by_cases hv : hasFlag (heapLeaf l m.k.vm pt id p) pteV = true
  · obtain ⟨huser, hread⟩ := htables.sound.user p hv
    simp only [hv, huser, if_true, Bool.true_and]
    cases write with
    | false => simp [hread]
    | true => cases hw : hasFlag (heapLeaf l m.k.vm pt id p) pteW <;> simp [hw]
  · rw [Bool.not_eq_true] at hv
    simp [hv]

/-- The frames after a fault on a heap page. -/
theorem heapFaultData_heapVa (h : HeapInv l id pt m.k) (p : HeapPage) (off : Fin pageSize)
    (write : Bool) :
    heapFaultData l m.k id (heapVa id p + off) write m.data =
      match heapEntry l m.k.vm pt id p, newFrame l m.k.vm with
      | some (f, false), some g =>
        if write then update m.data g (m.data f) else m.data
      | _, _ => m.data := by
  have hat := heapPageAt_heapVa id p off
  obtain ⟨hpage, -, -⟩ := heapPageAt_some hat
  rw [heapFaultData]
  simp only [h.pagetable]
  rw [if_neg (by rw [h.range, hat]; nofun), hpage, vmPageMapped_heapVa]
  cases hp : heapEntry l m.k.vm pt id p with
  | none => exact if_neg (by decide)
  | some e =>
    obtain ⟨f, w⟩ := e
    obtain ⟨table, i, hslot, hword⟩ := walk_of_heapEntry hp
    obtain ⟨hvalid, hppn, hwrite⟩ := pteEntry_eq_some hp
    rw [if_pos Option.isSome_some, hslot]
    dsimp only
    rw [hword, hvalid, hwrite]
    cases write with
    | false =>
      rw [if_pos (by decide)]
      cases w <;> cases newFrame l m.k.vm <;> rfl
    | true =>
      rw [if_neg (by decide)]
      cases w with
      | true => exact if_neg (by decide)
      | false =>
        rw [if_pos (by decide), cowBreakData, pageDown_heapVa, hslot]
        dsimp only
        rw [hword, hvalid, hwrite, hppn, if_neg (by decide), if_neg (by decide), newFrame]
        by_cases hnone : (kallocPage l m.k.vm).1 = 0
        · rw [if_pos hnone, if_pos hnone]
        · rw [if_neg hnone, if_neg hnone]
          exact (if_pos rfl).symm

/-- What an access finds: the page as it is, a new page, or a copy of a shared one. -/
inductive Accessed (l : Layout) (id : Fin maxAgents) (pt : Nat) (m : HeapMachine) (p : HeapPage)
    (write : Bool) : Option Nat × HeapMachine → Prop
  | direct {f : Nat} {w : Bool} (hentry : heapEntry l m.k.vm pt id p = some (f, w))
      (hw : write = true → w = true) : Accessed l id pt m p write (some f, m)
  | mapped {f : Nat} {m' : HeapMachine} (hentry : heapEntry l m.k.vm pt id p = none)
      (hnew : newFrame l m.k.vm = some f) (hcow : m'.cow l id pt = (m.cow l id pt).mapNew p f) :
      Accessed l id pt m p write (some f, m')
  | copied {f g : Nat} {m' : HeapMachine} (hwrite : write = true)
      (hentry : heapEntry l m.k.vm pt id p = some (f, false)) (hnew : newFrame l m.k.vm = some g)
      (hcow : m'.cow l id pt = (m.cow l id pt).split p f g) :
      Accessed l id pt m p write (some g, m')

/-- A new frame is in no page. -/
theorem HeapInv.unused {C : Type*} {k : VmKernel} (h : HeapInv l id pt k) {f : Nat}
    (hnew : newFrame l k.vm = some f) (data : Nat → C) :
    (⟨heapEntry l k.vm pt id, data⟩ : Cow HeapPage Nat C).Unused f := by
  obtain ⟨place, htables⟩ := h.tables
  rw [newFrame] at hnew
  by_cases hnone : (kallocPage l k.vm).1 = 0
  · rw [if_pos hnone] at hnew
    cases hnew
  · rw [if_neg hnone] at hnew
    obtain rfl := Option.some.inj hnew
    exact htables.sound.unused (frame_of_kallocPage hnone).1 data

section Access

variable (hpt : (m.k.agents id).pagetable = some pt)

include hpt

/-- An access that the page table permits. -/
theorem access_direct {f : Nat} (hframe : userFrame l m.k.vm pt (heapVa id p + off) write = some f) :
    m.access l id p off write = (some f, m) := by
  simp only [HeapMachine.access, hpt, hframe]

/-- An access that faults once. -/
theorem access_fault {f : Nat} (hnone : userFrame l m.k.vm pt (heapVa id p + off) write = none)
    (hserved : (vmHeapFault l m.k id (heapVa id p + off) write).1 = true)
    (hframe : userFrame l (m.fault l id (heapVa id p + off) write).k.vm pt (heapVa id p + off)
      write = some f) :
    m.access l id p off write = (some f, m.fault l id (heapVa id p + off) write) := by
  simp only [HeapMachine.access, hpt, hnone, hserved, if_true, hframe]

end Access

/-- **A fault that is served** leaves the machine ready for the access. -/
theorem fault_served (h : MachineInv l id pt extra m) {n f : Nat}
    (htables : heapEntry l m.k.vm pt id p = none → TablesFor l m.k.vm pt id p)
    (hfault : (m.k.heap l id pt).fault p write (newFrame l m.k.vm) =
      (true, ⟨update (heapEntry l m.k.vm pt id) p (some (f, true)), n⟩))
    (hnone : userFrame l m.k.vm pt (heapVa id p + off) write = none) :
    m.access l id p off write = (some f, m.fault l id (heapVa id p + off) write) ∧
      heapEntry l (m.fault l id (heapVa id p + off) write).k.vm pt id =
        update (heapEntry l m.k.vm pt id) p (some (f, true)) ∧
      MachineInv l id pt extra (m.fault l id (heapVa id p + off) write) := by
  have hat := heapPageAt_heapVa id p off
  have hrefines := refines_fault h.heap (heapVa id p + off) write fun q hq hfree => by
    rw [hat] at hq
    obtain rfl := Option.some.inj hq
    exact htables hfree
  rw [hat] at hrefines
  have hcall : (m.k.heap l id pt).call (newFrame l m.k.vm) (.fault (some p) write) =
      (true, ⟨update (heapEntry l m.k.vm pt id) p (some (f, true)), n⟩) := hfault
  have hcounted := h.counted.call (newFrame l m.k.vm) (.fault (some p) write)
  have hinv : MachineInv l id pt extra (m.fault l id (heapVa id p + off) write) :=
    ⟨hrefines.inv, by rw [HeapMachine.fault, hrefines.heap]; exact hcounted⟩
  rw [hcall] at hrefines
  have hentry : heapEntry l (m.fault l id (heapVa id p + off) write).k.vm pt id =
      update (heapEntry l m.k.vm pt id) p (some (f, true)) :=
    congrArg AgentHeap.entry hrefines.heap
  refine ⟨access_fault h.heap.pagetable hnone (hrefines.answer.mpr rfl) ?_, hentry, hinv⟩
  rw [userFrame_heapVa hinv.heap, hentry, update_self]
  simp

/-- **An access**, with the allocations it needs. -/
theorem access_accessed (h : MachineInv l id pt extra m) (p : HeapPage) (off : Fin pageSize)
    (write : Bool)
    (hmap : heapEntry l m.k.vm pt id p = none →
      newFrame l m.k.vm ≠ none ∧ TablesFor l m.k.vm pt id p)
    (hcopy : write = true → ∀ f, heapEntry l m.k.vm pt id p = some (f, false) →
      newFrame l m.k.vm ≠ none) :
    Accessed l id pt m p write (m.access l id p off write) ∧
      MachineInv l id pt extra (m.access l id p off write).2 := by
  have hframe := userFrame_heapVa h.heap p off write
  have hdata := heapFaultData_heapVa h.heap p off write
  cases hp : heapEntry l m.k.vm pt id p with
  | none =>
    obtain ⟨hsome, htables⟩ := hmap hp
    obtain ⟨f, hnew⟩ := Option.ne_none_iff_exists'.mp hsome
    rw [hp] at hframe hdata
    have hfault : (m.k.heap l id pt).fault p write (newFrame l m.k.vm) =
        (true, ⟨update (heapEntry l m.k.vm pt id) p (some (f, true)),
          (m.k.agents id).heapMapped + 1⟩) := by
      rw [(m.k.heap l id pt).fault_none hp, hnew]
      exact (m.k.heap l id pt).mapPage_new hp (h.counted.lt hp) f
    obtain ⟨haccess, hentry, hinv⟩ := fault_served h (fun _ => htables) hfault hframe
    rw [haccess]
    refine ⟨.mapped hp hnew ?_, hinv⟩
    rw [HeapMachine.cow, hentry, HeapMachine.fault, hdata]
    rfl
  | some e =>
    obtain ⟨f, w⟩ := e
    rw [hp] at hframe
    by_cases hcow : (write && !w) = true
    · -- the page is shared, so it is copied
      obtain ⟨rfl, hw⟩ := Bool.and_eq_true_iff.mp hcow
      obtain rfl : w = false := by simpa using hw
      obtain ⟨g, hnew⟩ := Option.ne_none_iff_exists'.mp (hcopy rfl f hp)
      rw [hp, hnew] at hdata
      have hfault : (m.k.heap l id pt).fault p true (newFrame l m.k.vm) =
          (true, ⟨update (heapEntry l m.k.vm pt id) p (some (g, true)),
            (m.k.agents id).heapMapped⟩) := by
        rw [hnew]
        exact (m.k.heap l id pt).fault_copy hp g
      obtain ⟨haccess, hentry, hinv⟩ := fault_served h (fun hnone => by rw [hp] at hnone; cases hnone)
        hfault hframe
      rw [haccess]
      refine ⟨.copied rfl hp hnew ?_, hinv⟩
      rw [HeapMachine.cow, hentry, HeapMachine.fault, hdata]
      rfl
    · dsimp only at hframe
      rw [if_neg hcow] at hframe
      rw [access_direct h.heap.pagetable hframe]
      exact ⟨.direct hp fun hw => by simpa [hw] using hcow, h⟩

/-- What an access shows: nothing that was known has changed, the page is known now, and a
store has the frame for itself. -/
theorem Accessed.spec (h : MachineInv l id pt extra m) {out : Option Nat × HeapMachine}
    (hacc : Accessed l id pt m p write out) :
    ∃ f, out.1 = some f ∧
      (∀ q c, (m.cow l id pt).view q = some c → (out.2.cow l id pt).view q = some c) ∧
      (out.2.cow l id pt).view p = some (out.2.data f) ∧
      (write = true → (out.2.cow l id pt).entry p = some (f, true)) := by
  cases hacc with
  | @direct f w hentry hw =>
    refine ⟨f, rfl, fun _ _ hq => hq, Cow.view_of_entry hentry, fun hwrite => ?_⟩
    rw [← hw hwrite]
    exact hentry
  | @mapped f m' hentry hnew hcow =>
    have hdata : m'.data = m.data := congrArg Cow.data hcow
    refine ⟨f, rfl, fun q c hq => ?_, ?_, fun _ => ?_⟩
    · have hne : q ≠ p := by
        rintro rfl
        rw [Cow.view_eq_none_iff.mpr hentry] at hq
        exact absurd hq nofun
      rw [hcow, Cow.view_mapNew, update_of_ne hne]
      exact hq
    · rw [hcow, Cow.view_mapNew, update_self, hdata]
      rfl
    · rw [hcow]
      exact update_self ..
  | @copied f g m' hwrite hentry hnew hcow =>
    have hview : (m'.cow l id pt).view = (m.cow l id pt).view := by
      rw [hcow]
      exact Cow.view_split hentry (h.heap.unused hnew m.data)
    refine ⟨g, rfl, fun q c hq => ?_, ?_, fun _ => ?_⟩
    · rw [hview]
      exact hq
    · refine Cow.view_of_entry (w := true) ?_
      rw [hcow]
      exact update_self ..
    · rw [hcow]
      exact update_self ..

/-! ## The steps -/

/-- A step keeps the invariant, and the model follows it. -/
def StepOk (l : Layout) (id : Fin maxAgents) (pt extra : Nat) (m : HeapMachine) (e : HeapEvent) :
    Prop :=
  MachineInv l id pt extra (m.step l id e) ∧
    Pulls (m.cow l id pt).view ((m.step l id e).cow l id pt).view fun a => modelStep l id m a e

section Steps

variable (h : MachineInv l id pt extra m)

include h

theorem stepOk_load (hok : AllocOk l id m (.load p off)) : StepOk l id pt extra m (.load p off) := by
  obtain ⟨hacc, hinv⟩ := access_accessed h p off false (hok pt h.heap.pagetable) nofun
  obtain ⟨f, -, hknown, -, -⟩ := hacc.spec h
  exact ⟨hinv, pulls_id hknown⟩

theorem stepOk_store {byte : UInt8} (hok : AllocOk l id m (.store p off byte)) :
    StepOk l id pt extra m (.store p off byte) := by
  obtain ⟨hmap, hcopy⟩ := hok pt h.heap.pagetable
  obtain ⟨hacc, hinv⟩ := access_accessed h p off true hmap fun _ => hcopy
  obtain ⟨f, hframe, hknown, hview, hentry⟩ := hacc.spec h
  rcases haccess : m.access l id p off true with ⟨f', m'⟩
  rw [haccess] at hframe hknown hview hentry hinv
  obtain rfl : f' = some f := hframe
  have hstep : m.step l id (.store p off byte) = m'.poke f off byte := by
    rw [HeapMachine.step, haccess]
  rw [StepOk, hstep]
  refine ⟨⟨hinv.heap, hinv.counted⟩, pulls_modify (g := fun c => update c off byte)
    hknown hview ?_⟩
  exact Cow.view_write hinv.exclusive (hentry rfl) _

omit h in
/-- `agent_heap_map` is `vm_heap_map_page` on a page of the heap. -/
theorem agentHeapMap_snd (h : HeapInv l id pt m.k) (pageOff : Int) :
    (agentHeapMap l m.k id pageOff).2 =
      match heapPageOff pageOff with
      | none => m.k
      | some p => (vmHeapMapPage l m.k id (heapVa id p)).2 := by
  rw [agentHeapMap]
  simp only [h.base, h.max]
  cases hoff : heapPageOff pageOff with
  | none => rw [if_pos (heapPageOff_none hoff)]
  | some p =>
    obtain ⟨hrange, hp⟩ := heapPageOff_some hoff
    have hva : heapVa id 0 + pageOff.toNat * pageSize = heapVa id p := by
      rw [hp]
      simp only [heapVa_eq, pageSize, Fin.val_zero, Int.toNat_natCast]
      omega
    rw [if_neg (by omega), hva]
    split_ifs
    · rfl
    · rfl

theorem stepOk_map {pageOff : Int} (hok : AllocOk l id m (.map pageOff)) :
    StepOk l id pt extra m (.map pageOff) := by
  have hmap := hok pt h.heap.pagetable
  rw [StepOk, HeapMachine.step, agentHeapMap_snd h.heap]
  cases hoff : heapPageOff pageOff with
  | none => exact ⟨h, pulls_id fun _ _ hq => hq⟩
  | some p =>
    have hat : heapPageAt id (heapVa id p) = some p := heapPageAt_heapVa id p 0
    have hrefines := refines_map h.heap (heapVa id p) fun q hq hfree => by
      rw [hat] at hq
      obtain rfl := Option.some.inj hq
      exact (hmap p hoff hfree).2
    rw [hat] at hrefines
    have hheap : (vmHeapMapPage l m.k id (heapVa id p)).2.heap l id pt =
        ((m.k.heap l id pt).mapPage p (newFrame l m.k.vm)).2 := hrefines.heap
    refine ⟨⟨hrefines.inv, by rw [hheap]; exact h.counted.mapPage _ _⟩, pulls_id fun q c hq => ?_⟩
    dsimp only
    rw [Cow.view, HeapMachine.cow, show heapEntry l (vmHeapMapPage l m.k id (heapVa id p)).2.vm pt id =
      _ from congrArg AgentHeap.entry hheap]
    cases hp : heapEntry l m.k.vm pt id p with
    | some e =>
      rw [(m.k.heap l id pt).mapPage_mapped hp]
      exact hq
    | none =>
      obtain ⟨f, hnew⟩ := Option.ne_none_iff_exists'.mp (hmap p hoff hp).1
      have hne : q ≠ p := by
        rintro rfl
        rw [Cow.view_eq_none_iff.mpr hp] at hq
        cases hq
      rw [hnew, (m.k.heap l id pt).mapPage_new hp (h.counted.lt hp) f]
      dsimp only
      rw [update_of_ne hne]
      exact hq

/-- What `agent_heap_cow` does to the heap. -/
theorem cow_cases {dstOff srcOff : Int} (hok : AllocOk l id m (.cow dstOff srcOff)) :
    MachineInv l id pt extra (m.step l id (.cow dstOff srcOff)) ∧
      ((¬ 0 ≤ (vmHeapCowAlias l m.k id dstOff srcOff).1 ∧
          (m.step l id (.cow dstOff srcOff)).cow l id pt = m.cow l id pt) ∨
        ∃ dst src f w, heapPageOff dstOff = some dst ∧ heapPageOff srcOff = some src ∧ dst ≠ src ∧
          0 ≤ (vmHeapCowAlias l m.k id dstOff srcOff).1 ∧
          (m.cow l id pt).entry src = some (f, w) ∧
          (m.step l id (.cow dstOff srcOff)).cow l id pt = (m.cow l id pt).share dst src f) := by
  have hrefines := refines_cow h.heap dstOff srcOff (hok pt h.heap.pagetable)
  have hcounted := h.counted.call (newFrame l m.k.vm)
    (.cow (heapPageOff dstOff) (heapPageOff srcOff))
  rw [← hrefines.heap] at hcounted
  refine ⟨⟨hrefines.inv, hcounted⟩, ?_⟩
  have hanswer := hrefines.answer
  have hentry : heapEntry l (vmHeapCowAlias l m.k id dstOff srcOff).2.vm pt id = _ :=
    congrArg AgentHeap.entry hrefines.heap
  rw [HeapMachine.step, HeapMachine.cow, hentry]
  rcases (m.k.heap l id pt).call_cow_cases (newFrame l m.k.vm) (heapPageOff dstOff)
    (heapPageOff srcOff) with hfail | ⟨dst, src, f, w, n, hdst, hsrc, hne, hframe, hshare⟩
  · rw [hfail] at hanswer ⊢
    exact .inl ⟨fun hrc => absurd (hanswer.mp hrc) nofun, rfl⟩
  · rw [hshare] at hanswer ⊢
    exact .inr ⟨dst, src, f, w, hdst, hsrc, hne, hanswer.mpr rfl, hframe, rfl⟩

theorem stepOk_cow {dstOff srcOff : Int} (hok : AllocOk l id m (.cow dstOff srcOff)) :
    StepOk l id pt extra m (.cow dstOff srcOff) := by
  obtain ⟨hinv, hcases⟩ := cow_cases h hok
  refine ⟨hinv, ?_⟩
  simp only [modelStep]
  rcases hcases with ⟨hfail, hcow⟩ | ⟨dst, src, f, w, hdst, hsrc, hne, hrc, hentry, hcow⟩
  · simp only [if_neg hfail]
    rw [hcow]
    exact pulls_id fun _ _ hq => hq
  · simp only [if_pos hrc, hdst, hsrc]
    rw [hcow]
    exact pulls_copy hne (Cow.view_of_entry hentry) (Cow.view_share hentry dst)

end Steps

/-! ## Runs -/

theorem stepOk_step (h : MachineInv l id pt extra m) (e : HeapEvent) (hok : AllocOk l id m e) :
    StepOk l id pt extra m e := by
  cases e with
  | map pageOff => exact stepOk_map h hok
  | cow dstOff srcOff => exact stepOk_cow h hok
  | load p off => exact stepOk_load h hok
  | store p off byte => exact stepOk_store h hok

/-- What the frames hold for the agent, page by page. -/
def HeapMachine.view (l : Layout) (id : Fin maxAgents) (pt : Nat) (m : HeapMachine) :
    HeapPage → Option PageBytes :=
  (m.cow l id pt).view

/-- What the agent sees in a step whose contents the model has. -/
theorem stepSeen_of_agrees (h : MachineInv l id pt extra m) {a : HeapArrays} {e : HeapEvent}
    (hok : AllocOk l id m e)
    (hagrees : Agrees ((m.step l id e).cow l id pt).view (modelStep l id m a e)) :
    StepSeen l id (m, a) e := by
  cases e with
  | map pageOff => trivial
  | cow dstOff srcOff =>
    intro hneg
    obtain ⟨hinv, hcases⟩ := cow_cases h hok
    rcases hcases with ⟨-, hcow⟩ | ⟨-, -, -, -, -, -, -, hrc, -⟩
    · refine ⟨?_, rfl⟩
      funext q
      rw [HeapMachine.entries, HeapMachine.entries, hinv.heap.pagetable, h.heap.pagetable]
      exact congrFun (congrArg Cow.entry hcow) q
    · exact absurd hneg (Int.not_lt.mpr hrc)
  | load p off =>
    obtain ⟨hacc, -⟩ := access_accessed h p off false (hok pt h.heap.pagetable) nofun
    obtain ⟨f, hframe, -, hview, -⟩ := hacc.spec h
    have hbytes := hagrees p _ hview
    show HeapMachine.loaded l id m p off = some (a p off)
    rw [HeapMachine.loaded, hframe]
    exact congrArg some (congrFun hbytes.symm off)
  | store p off byte =>
    obtain ⟨hmap, hcopy⟩ := hok pt h.heap.pagetable
    obtain ⟨hacc, -⟩ := access_accessed h p off true hmap fun _ => hcopy
    obtain ⟨f, hframe, -⟩ := hacc.spec h
    show (m.access l id p off true).1 ≠ none
    rw [hframe]
    nofun

/-- Transparency from every state with sound heap pages. -/
theorem MachineInv.transparent (h : MachineInv l id pt extra m) {es : List HeapEvent}
    (halloc : Runs.Along (HeapMachine.step l id) (AllocOk l id) m es) :
    HeapTransparent l id m es := by
  have hstep : ∀ m e, MachineInv l id pt extra m → AllocOk l id m e →
      MachineInv l id pt extra (m.step l id e) ∧
        Pulls (m.view l id pt) ((m.step l id e).view l id pt)
          ((fun m e a => modelStep l id m a e) m e) :=
    fun m e h hok => stepOk_step h e hok
  obtain ⟨first, -, hrun⟩ := exists_cells hstep h halloc
  exact ⟨first, hrun.imp fun x e hx => stepSeen_of_agrees hx.1.1 hx.1.2 hx.2⟩

/-- The count is right iff it misses no page. -/
theorem MachineInv.counts_iff (h : MachineInv l id pt extra m) : m.Counts l id ↔ extra = 0 := by
  have hcounted : (m.k.agents id).heapMapped + extra =
      slotCount fun p => (heapEntry l m.k.vm pt id p).isSome := h.counted
  have hentries : m.entries l id = heapEntry l m.k.vm pt id := by
    funext p
    rw [HeapMachine.entries, h.heap.pagetable]
  rw [HeapMachine.Counts, hentries]
  omega

theorem MachineInv.counted_iff (h : MachineInv l id pt extra m) {es : List HeapEvent}
    (halloc : Runs.Along (HeapMachine.step l id) (AllocOk l id) m es) :
    HeapCounted l id m es ↔ extra = 0 := by
  constructor
  · exact fun hcounted => h.counts_iff.mp hcounted.1
  · rintro rfl
    have hstep : ∀ m e, MachineInv l id pt 0 m → AllocOk l id m e →
        MachineInv l id pt 0 (m.step l id e) := fun m e h hok => (stepOk_step h e hok).1
    have hcounts : ∀ m e, MachineInv l id pt 0 m →
        (AllocOk l id m e ↔ AllocOk l id m e ∧ (m.step l id e).Counts l id) := by
      intro m e hm
      exact ⟨fun hok => ⟨hok, (hstep m e hm hok).counts_iff.mpr rfl⟩, And.left⟩
    have hboth := (Runs.along_congr hcounts hstep h es).mp halloc
    exact ⟨h.counts_iff.mpr rfl, hboth.imp fun _ _ => And.right⟩

/-! ## Agents -/

/-- The agent has been started by `agent_create`, or by `agent_load` with a file. -/
def Started (l : Layout) (k₀ : VmKernel) (id : Fin maxAgents) : Option ElfFile → VmKernel → Prop
  | none, k => agentSetupStack l k₀ id = (true, k)
  | some elf, k => agentLoad l k₀ id elf = (((id : Nat) : Int), k)

/-- No segment of the agent's file covers a heap page. -/
def HeapFree (id : Fin maxAgents) (file : Option ElfFile) : Prop :=
  ∀ elf, file = some elf → ∀ i, i < elf.phnum → ∀ p, ¬ elf.Covers i id p

/-- A new agent satisfies the invariant; what its count misses are the pages of the file. -/
theorem machineInv_started {k₀ k : VmKernel} {place : Places} (hinv : TreeInv l k₀ place)
    {file : Option ElfFile} (h : Started l k₀ id file k) (data : Nat → PageBytes) :
    ∃ pt extra, MachineInv l id pt extra ⟨k, data⟩ ∧ (extra = 0 ↔ HeapFree id file) := by
  have hnew : ∃ pt place', k.agents id = freshHeap id (some pt) ∧ HeapTables l id pt k.vm place' ∧
      ((∀ p, heapEntry l k.vm pt id p = none) ↔ HeapFree id file) := by
    cases file with
    | none =>
      obtain ⟨pt, place', hagent, htables, hempty⟩ := heapTables_create hinv h
      exact ⟨pt, place', hagent, htables, fun _ elf helf => absurd helf nofun, fun _ => hempty⟩
    | some elf =>
      obtain ⟨pt, place', hagent, htables, hmapped⟩ := heapTables_load hinv h
      refine ⟨pt, place', hagent, htables, fun hempty elf' helf i hi p hcovers => ?_,
        fun hfree p => ?_⟩
      · obtain rfl := Option.some.inj helf
        have hsome := (hmapped p).mpr ⟨i, hi, hcovers⟩
        rw [hempty p] at hsome
        exact absurd hsome nofun
      · rw [← Option.not_isSome_iff_eq_none, hmapped p]
        rintro ⟨i, hi, hcovers⟩
        exact hfree elf rfl i hi p hcovers
  obtain ⟨pt, place', hagent, htables, hfree⟩ := hnew
  refine ⟨pt, (k.heap l id pt).count, ⟨⟨?_, ?_, ?_, place', htables⟩, ?_⟩, ?_⟩
  · rw [hagent]
    rfl
  · rw [hagent]
    rfl
  · rw [hagent]
    rfl
  · show (k.agents id).heapMapped + _ = _
    rw [hagent]
    exact Nat.zero_add _
  · rw [← hfree, AgentHeap.count, slotCount, Finset.card_eq_zero, Finset.filter_eq_empty_iff]
    constructor
    · exact fun hnone p => Option.not_isSome_iff_eq_none.mp (hnone (Finset.mem_univ p))
    · exact fun hnone p _ => Option.not_isSome_iff_eq_none.mpr (hnone p)

/-- **Copy-on-write is transparent for every agent**, after any operations of the kernel. -/
theorem heap_transparent (l : Layout) (mem : Nat → Fin 512 → Nat)
    (hgig : hasFlag ((vmInit l mem).mem l.kernelPt 1) pteV = false) (ops : List VmOp)
    (id : Fin maxAgents) (file : Option ElfFile) (k : VmKernel)
    (hstart : Started l ((vmBoot l mem).run l ops) id file k) (data : Nat → PageBytes)
    (es : List HeapEvent)
    (halloc : Runs.Along (HeapMachine.step l id) (AllocOk l id) ⟨k, data⟩ es) :
    HeapTransparent l id ⟨k, data⟩ es := by
  obtain ⟨place, hinv⟩ := treeInv_run ops (treeInv_vmBoot l mem hgig)
  obtain ⟨pt, extra, hm, -⟩ := machineInv_started hinv hstart data
  exact hm.transparent halloc

/-- **Copy-on-write is transparent and the mapped pages are counted** iff the file of the agent
has no segment in its heap. -/
theorem heap_cow_transparent_iff (l : Layout) (mem : Nat → Fin 512 → Nat)
    (hgig : hasFlag ((vmInit l mem).mem l.kernelPt 1) pteV = false) (ops : List VmOp)
    (id : Fin maxAgents) (file : Option ElfFile) (k : VmKernel)
    (hstart : Started l ((vmBoot l mem).run l ops) id file k) (data : Nat → PageBytes)
    (es : List HeapEvent)
    (halloc : Runs.Along (HeapMachine.step l id) (AllocOk l id) ⟨k, data⟩ es) :
    (HeapTransparent l id ⟨k, data⟩ es ∧ HeapCounted l id ⟨k, data⟩ es) ↔ HeapFree id file := by
  obtain ⟨place, hinv⟩ := treeInv_run ops (treeInv_vmBoot l mem hgig)
  obtain ⟨pt, extra, hm, hextra⟩ := machineInv_started hinv hstart data
  rw [hm.counted_iff halloc, ← hextra]
  exact ⟨And.right, fun hzero => ⟨hm.transparent halloc, hzero⟩⟩

/-- Agent 1 right after `agent_create`. -/
def heapCreated : VmKernel := (agentSetupStack virtLayout virtKernel 1).2

theorem virtLayout_gigabyte :
    hasFlag ((vmInit virtLayout fun _ _ => 0).mem virtLayout.kernelPt 1) pteV = false := by
  rw [vmInit_virtLayout]
  decide +kernel

theorem started_heapCreated :
    Started virtLayout ((vmBoot virtLayout fun _ _ => 0).run virtLayout []) 1 none heapCreated := by
  rw [vmBoot_virtLayout]
  refine Prod.ext ?_ rfl
  show (agentSetupStack virtLayout virtKernel 1).1 = true
  decide +kernel

/-- The agent is created and stores to its first heap page. -/
theorem heap_cow_transparent_created :
    HeapTransparent virtLayout 1 ⟨heapCreated, fun _ _ => 0⟩ [.store 0 0 7] ∧
    HeapCounted virtLayout 1 ⟨heapCreated, fun _ _ => 0⟩ [.store 0 0 7] := by
  have halloc : AllocOk virtLayout 1 ⟨heapCreated, fun _ _ => 0⟩ (.store 0 0 7) := by
    intro pt hpt
    have hroot : (heapCreated.agents 1).pagetable = some 526344 := by decide +kernel
    obtain rfl := Option.some.inj (hpt.symm.trans hroot)
    have hframe : newFrame virtLayout heapCreated.vm ≠ none := by decide +kernel
    have htables : (vmWalk virtLayout heapCreated.vm 526344 (heapVa 1 0) true).1 ≠ none := by
      decide +kernel
    exact ⟨fun _ => ⟨hframe, htables⟩, fun _ _ => hframe⟩
  exact (heap_cow_transparent_iff virtLayout _ virtLayout_gigabyte [] 1 none _ started_heapCreated _ [.store 0 0 7]
    ⟨halloc, trivial⟩).mpr nofun

/-- A file with one page at `0x60010000`, the first heap page of agent 1. -/
def heapElf : ElfFile := elfAt [0, 0, 1, 0x60, 0, 0, 0, 0]

/-- Agent 1, loaded from `heapElf`. -/
def heapLoaded : VmKernel := (agentLoad virtLayout virtKernel 1 heapElf).2

/-- The loaded agent has a heap page that is not counted, before and after it maps another. -/
theorem not_heapCounted_load :
    Started virtLayout ((vmBoot virtLayout fun _ _ => 0).run virtLayout []) 1 (some heapElf)
      heapLoaded ∧
    (heapLoaded.agents 1).heapMapped = 0 ∧
    (agentHeapMap virtLayout heapLoaded 1 1).1 = 0x60011000 ∧
    ¬ HeapCounted virtLayout 1 ⟨heapLoaded, fun _ _ => 0⟩ [.map 1] := by
  rw [vmBoot_virtLayout]
  refine ⟨Prod.ext ?_ rfl, by decide +kernel, by decide +kernel, fun h => ?_⟩
  · show (agentLoad virtLayout virtKernel 1 heapElf).1 = 1
    decide +kernel
  · have hcounts := h.1
    revert hcounts
    rw [HeapMachine.Counts]
    decide +kernel

end OpenAgentOS
