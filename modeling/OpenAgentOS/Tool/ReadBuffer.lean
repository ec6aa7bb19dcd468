import OpenAgentOS.Lib.Span
import OpenAgentOS.Tool.FileTools
import OpenAgentOS.Vm.Regions

/-!
# The buffer of TOOL_READ (kernel/tool.c)

`run_read` reads up to `len` bytes into a buffer on the stack, or for more than 256 bytes into a block
of the kernel heap, and then stores a terminator behind what it has read.

- `readBuffer`: the buffer, by addresses. `runReadStores`: the stores to it.
- `runReadStores_of_ok`: a call that returns the bytes `out` has stored them and a terminator.
- `runReadStores_within_iff`: all stores lie inside the buffer, except that the terminator has no place
  behind a file of at least `len` bytes if `len` is 256, or more and a multiple of 16.
-/

namespace OpenAgentOS

/-- Where `kbuf` points to, and how much is behind it: `small` at address `frame`, or the block that
`kalloc` returns. -/
def readBuffer (l : Layout) (vm : Vm) (frame : Nat) (len : Int) : Option Span :=
  if ioBuf < len then
    let block := kalloc l vm len.toNat
    if block.1 = 0 then none else some ⟨block.1, block.2.heapPtr - block.1⟩
  else some ⟨frame, ioBuf⟩

/-- The stores of `run_read` (tool.c:221) to `kbuf`: those of `ramfs_read`, and the terminator. -/
def runReadStores (l : Layout) (vm : Vm) (frame : Nat) (fs : Ramfs) (path : UserPath) (len : Int)
    (store : Bool) : List Span :=
  match readPathFromUser path.text path.behindRun with
  | .error _ => []
  | .ok path =>
    if len ≤ 0 ∨ ioMax < len then []
    else
      match readBuffer l vm frame len with
      | none => []
      | some kbuf =>
        match ramfsRead fs path 0 len with
        | .error _ => []
        | .ok out =>
          ⟨kbuf.start, out.length⟩ ::
            if store = false then [] else [⟨kbuf.start + out.length, 1⟩]

section

variable {l : Layout} {vm : Vm} {frame : Nat} {fs : Ramfs} {path : UserPath} {len : Int} {store : Bool}

/-- **A call that succeeds** has stored what it returns and a terminator behind it. -/
theorem runReadStores_of_ok {kbuf : Span} (hbuf : readBuffer l vm frame len = some kbuf)
    {heap : Bool} {out : List UInt8} (h : runRead fs path len heap store = .ok out) :
    runReadStores l vm frame fs path len store =
      [⟨kbuf.start, out.length⟩, ⟨kbuf.start + out.length, 1⟩] := by
  rw [runRead] at h
  rw [runReadStores]
  cases hpath : readPathFromUser path.text path.behindRun with
  | error rc =>
    rw [hpath] at h
    cases h
  | ok p =>
    rw [hpath] at h
    dsimp only at h ⊢
    by_cases hlen : len ≤ 0 ∨ ioMax < len
    · rw [if_pos hlen] at h
      cases h
    · rw [if_neg hlen] at h ⊢
      by_cases hheap : ioBuf < len ∧ heap = false
      · rw [if_pos hheap] at h
        cases h
      · rw [if_neg hheap] at h
        rw [hbuf]
        cases hread : ramfsRead fs p 0 len with
        | error rc =>
          rw [hread] at h
          cases h
        | ok data =>
          rw [hread] at h
          cases store with
          | false => cases h
          | true =>
            obtain rfl : data = out := Except.ok.inj h
            rfl

/-- The size of the buffer. -/
theorem readBuffer_len {kbuf : Span} (hbuf : readBuffer l vm frame len = some kbuf) (hpos : 0 < len) :
    kbuf.len = if ioBuf < len.toNat then (len.toNat + 15) / 16 * 16 else ioBuf := by
  have hcast : (ioBuf : Int) < len ↔ ioBuf < len.toNat := by omega
  rw [readBuffer, if_congr hcast rfl rfl] at hbuf
  split_ifs at hbuf ⊢ with hlarge
  · obtain ⟨block, hblock⟩ : ∃ block, kalloc l vm len.toNat = block := ⟨_, rfl⟩
    simp only [hblock] at hbuf
    rw [kalloc] at hblock
    split_ifs at hblock with hfull <;> subst hblock
    · cases hbuf
    · split_ifs at hbuf
      obtain rfl := Option.some.inj hbuf
      exact Nat.add_sub_cancel_left _ _
  · obtain rfl := Option.some.inj hbuf
    rfl

/-- The bytes of a range, and one more behind it. -/
theorem covers_terminated_iff {kbuf : Span} {n : Nat} :
    (∀ r ∈ ([⟨kbuf.start, n⟩, ⟨kbuf.start + n, 1⟩] : List Span), ∀ a, r.Covers a → kbuf.Covers a) ↔
      n < kbuf.len := by
  constructor
  · intro h
    have hlast := h ⟨kbuf.start + n, 1⟩ (by simp) (kbuf.start + n) ⟨Nat.le_refl _, Nat.lt_succ_self _⟩
    exact Nat.lt_of_add_lt_add_left hlast.2
  · intro h r hr a hcovers
    rw [List.mem_pair] at hr
    obtain rfl | rfl := hr
    · exact ⟨hcovers.1, by have := hcovers.2; dsimp only at this; omega⟩
    · obtain ⟨hlo, hhi⟩ := hcovers
      dsimp only at hlo hhi
      exact ⟨by omega, by omega⟩

/-- There is a place for the terminator behind what a read of `len` bytes finds in a file of this
size. -/
def TerminatorFits (len : Int) (size : Nat) : Prop :=
  (size : Int) < len ∨ len < ioBuf ∨ ioBuf < len ∧ ¬ (16 : Int) ∣ len

theorem min_lt_iff_terminatorFits (size : Nat) (hpos : 0 < len) :
    min len.toNat size < (if ioBuf < len.toNat then (len.toNat + 15) / 16 * 16 else ioBuf) ↔
      TerminatorFits len size := by
  obtain ⟨n, rfl⟩ := Int.eq_ofNat_of_zero_le hpos.le
  rw [TerminatorFits, Int.toNat_natCast]
  simp only [ioBuf]
  split_ifs with hlarge
  · omega
  · omega

end

/-- **The stores of `run_read`** lie inside its buffer exactly if there is a place for the terminator. -/
theorem runReadStores_within_iff (l : Layout) (vm : Vm) (frame : Nat) (fs : Ramfs) (path : UserPath)
    (len : Int) (hpos : 0 < len) (hmax : len ≤ ioMax) (store : Bool) :
    (∀ kbuf, readBuffer l vm frame len = some kbuf →
        ∀ r ∈ runReadStores l vm frame fs path len store, ∀ a, r.Covers a → kbuf.Covers a) ↔
      (store = true → (readBuffer l vm frame len).isSome = true →
        ∀ p, readPathFromUser path.text path.behindRun = .ok p →
          ∀ content, fs.visible p = some content → TerminatorFits len content.length) := by
  have hlen : ¬ (len ≤ 0 ∨ (ioMax : Int) < len) := by omega
  cases hbuf : readBuffer l vm frame len with
  | none => exact iff_of_true nofun nofun
  | some kbuf =>
    have hsize := readBuffer_len hbuf hpos
    rw [runReadStores]
    cases hpath : readPathFromUser path.text path.behindRun with
    | error rc => exact iff_of_true (fun _ _ => nofun) fun _ _ => nofun
    | ok p =>
      dsimp only
      rw [if_neg hlen, hbuf]
      dsimp only
      rw [ramfsRead_eq, if_neg hpos.not_ge]
      cases hfile : fs.visible p with
      | none =>
        refine iff_of_true (fun _ _ => nofun) ?_
        rintro - - _ hp content hcontent
        rw [← Except.ok.inj hp, hfile] at hcontent
        cases hcontent
      | some content =>
        dsimp only [List.drop_zero]
        rw [List.length_take]
        have hfits := min_lt_iff_terminatorFits content.length hpos
        rw [← hsize] at hfits
        cases store with
        | false =>
          -- what `ramfs_read` stores always fits
          have hroom : len.toNat ≤ kbuf.len := by
            rw [hsize]
            simp only [ioBuf]
            split_ifs with hlarge
            · omega
            · omega
          refine iff_of_true ?_ nofun
          rintro _ hkbuf r hr a ⟨hlo, hhi⟩
          obtain rfl := Option.some.inj hkbuf
          obtain rfl := List.mem_singleton.mp hr
          dsimp only at hlo hhi
          exact ⟨hlo, by omega⟩
        | true =>
          rw [if_neg (by decide)]
          constructor
          · rintro h - - _ hp _ hcontent
            rw [← Except.ok.inj hp, hfile] at hcontent
            obtain rfl := Option.some.inj hcontent
            exact hfits.mp (covers_terminated_iff.mp (h kbuf rfl))
          · rintro h _ hkbuf
            obtain rfl := Option.some.inj hkbuf
            exact covers_terminated_iff.mpr (hfits.mpr (h rfl rfl p rfl content hfile))

/-- A file of 300 bytes. -/
def longFile : Ramfs := (ramfsInit zeroMem).run [.put (.lit "/agent/3/note") (List.replicate 300 1)]

/-- 299 bytes are read into a block of 304. -/
theorem runReadStores_within_odd :
    readBuffer virtLayout virtVm 0 299 = some ⟨0x80600000, 304⟩ ∧
    ∀ kbuf, readBuffer virtLayout virtVm 0 299 = some kbuf →
      ∀ r ∈ runReadStores virtLayout virtVm 0 longFile noteArg 299 true, ∀ a, r.Covers a → kbuf.Covers a := by
  refine ⟨by decide +kernel, (runReadStores_within_iff virtLayout virtVm 0 longFile noteArg 299
    (by decide) (by decide) true).mpr ?_⟩
  rintro - - _ - _ -
  exact .inr (.inr ⟨by decide, by decide⟩)

/-- **The byte behind the buffer.** Of a file of 300 bytes, a read of 256 bytes stores a terminator
behind the array on the stack, and a read of 272 bytes one into the next block of the heap. -/
theorem not_runReadStores_within :
    (∃ kbuf, readBuffer virtLayout virtVm 0x80300000 256 = some kbuf ∧
      ∃ r ∈ runReadStores virtLayout virtVm 0x80300000 longFile noteArg 256 true,
        r.Covers (kbuf.start + kbuf.len)) ∧
    ∃ kbuf, readBuffer virtLayout virtVm 0x80300000 272 = some kbuf ∧
      kbuf.start + kbuf.len = (kalloc virtLayout virtVm 272).2.heapPtr ∧
      ∃ r ∈ runReadStores virtLayout virtVm 0x80300000 longFile noteArg 272 true,
        r.Covers (kalloc virtLayout virtVm 272).2.heapPtr := by
  have hheap : (kalloc virtLayout virtVm 272).2.heapPtr = 0x80600110 := by decide +kernel
  have hsmall : runReadStores virtLayout virtVm 0x80300000 longFile noteArg 256 true =
      [⟨0x80300000, 256⟩, ⟨0x80300100, 1⟩] := by decide +kernel
  have hlarge : runReadStores virtLayout virtVm 0x80300000 longFile noteArg 272 true =
      [⟨0x80600000, 272⟩, ⟨0x80600110, 1⟩] := by decide +kernel
  rw [hheap, hsmall, hlarge]
  exact ⟨⟨⟨0x80300000, 256⟩, by decide +kernel, _, .tail _ (.head _), by decide, by decide⟩,
    ⟨0x80600000, 272⟩, by decide +kernel, rfl, _, .tail _ (.head _), by decide, by decide⟩

end OpenAgentOS
