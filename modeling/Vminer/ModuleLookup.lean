import Vminer.Dump
import Vminer.LinuxModules
import Vminer.WindowsModules

/-!
# The lookup of modules while unwinding

While a stack is unwound a module is looked up by binary search in the modules
that were collected at the start. On Windows, where the modules of a process do
not overlap, this finds what the public lookup does. On Linux the modules are
computed from the areas of the process, and those of a file that is mapped from
its beginning twice in a row overlap; then the first one is found by the public
lookup, and the second one by the binary search.
-/

/-- **The two lookups of a module agree** on Windows. On Linux they do exactly if
only the first area of a run of one file is at offset zero, and if no run that
begins so reaches into the half of the kernel; the vector of modules is sorted in
any case. -/
theorem findModuleByAddress_agrees_iff {B : Type} [Memory B] [HasVcpus B] (linux : Linux B)
    (windows : Windows B) (sorts : SortUnstable) :
    (∀ (fuel : ℕ) (proc : Os.Process) (areas : List Linux.Area),
      linux.HoldsProcess fuel proc areas → Linux.Area.Ascending areas →
      ∃ ctx, Linux.Context.new linux fuel proc = .ok ctx
        ∧ ctx.modules.Pairwise (fun a b => a.start < b.start)
        ∧ ((∀ addr, linux.findModuleByAddress fuel proc addr
            = .ok ((ctx.findModuleByAddress addr).map Callstack.Module.module))
          ↔ Linux.Area.OneModuleARun areas))
    ∧ ∀ (fuel : ℕ) (proc : Os.Process) (user kernel : List Callstack.Module),
      windows.HoldsModules fuel proc user kernel → Windows.Halves user kernel →
      ∃ modules, windows.collectModules sorts fuel proc = .ok modules
        ∧ ∀ addr, windows.findModuleByAddress fuel proc addr
          = .ok ((Callstack.findByAddress modules addr).map Callstack.Module.module) := by
  refine ⟨fun fuel proc areas h hasc => ?_, fun fuel proc user kernel h hhalves => ?_⟩
  · obtain ⟨ctx, hctx, hmods⟩ := h.exists_context
    have htogether := h.endTogether hasc
    refine ⟨ctx, hctx, ?_, ?_⟩
    · rw [hmods]
      exact htogether.sorted
    · rw [← Linux.Area.separate_modules_iff hasc,
        ← Callstack.findByAddress_agrees_iff htogether]
      refine forall_congr' fun addr => ?_
      rw [h.findModuleByAddress_eq, Except.ok.injEq, Linux.Context.findModuleByAddress, hmods]
      exact eq_comm
  · refine ⟨_, h.collectModules_eq sorts, fun addr => ?_⟩
    rw [h.findModuleByAddress_eq, hhalves.findByAddress_eq]

/-- A guest with a process that has two areas, one after the other, of one file:
the first is at its beginning, the second at some page of it. -/
def Linux.twoAreas (page : U64) : Linux (DumbDump RawMemory) where
  backend := .ofWords ([0x83, 16,
    32, 0,
    0x1000, 0x2000, 72, 112, 0,
    0x2000, 0x3000, 0, 112, page,
    120, 120, 136, 0x61] ++ List.replicate 32 0)
  layouts := fun _ => some fun field =>
    if field = "pgd" ∨ field = "vm_end" ∨ field = "d_name" then some 8
    else if field = "vm_next" then some 16
    else if field = "vm_file" then some 24
    else if field = "vm_pgoff" then some 32
    else some 0
  kpgd := 0

/-- **Where both are at the beginning** the lookups of the second area differ. -/
theorem not_agree_twoAreas :
    ∃ (areas : List Linux.Area) (ctx : Linux.Context),
      (Linux.twoAreas 0).HoldsProcess 3 ⟨8⟩ areas ∧ Linux.Area.Ascending areas
        ∧ Linux.Context.new (Linux.twoAreas 0) 3 ⟨8⟩ = .ok ctx
        ∧ (Linux.twoAreas 0).findModuleByAddress 3 ⟨8⟩ 0x2000 = .ok (some ⟨32⟩)
        ∧ (ctx.findModuleByAddress 0x2000).map Callstack.Module.module = some ⟨72⟩ := by
  refine ⟨[⟨32, 0x1000, 0x2000, 112, 0⟩, ⟨72, 0x2000, 0x3000, 112, 0⟩],
    ⟨⟨8⟩, 0, [⟨0x1000, 0x3000, ⟨32⟩⟩, ⟨0x2000, 0x3000, ⟨72⟩⟩]⟩,
    ⟨⟨0, by decide +kernel⟩, Or.inr ⟨16, 32, by decide +kernel, by decide +kernel, ?_⟩, by decide⟩,
    ⟨by decide, by decide⟩, by decide +kernel, by decide +kernel, by decide +kernel⟩
  refine ⟨by decide, rfl, by decide +kernel, by decide +kernel, by decide +kernel,
    by decide +kernel, fun _ => ⟨.ofChars ['a'], by decide +kernel⟩, 72, by decide +kernel, ?_⟩
  exact ⟨by decide, rfl, by decide +kernel, by decide +kernel, by decide +kernel,
    by decide +kernel, fun _ => ⟨.ofChars ['a'], by decide +kernel⟩, 0, by decide +kernel, rfl⟩


/-- A guest with a process that has a module, and a kernel that has one. -/
def Windows.twoModules : Windows (DumbDump RawMemory) where
  backend := .ofWords [0x83, 24, 0, 32, 40,
    32, 0x5000, 0x1000,
    72,
    64, 0xffff800000000000, 0x1000]
  kpgd := 0
  baseAddr := 64
  layouts := fun _ => some fun field =>
    if field = "UserDirectoryTableBase" then none
    else if field = "Pcb" ∨ field = "DllBase" then some 8
    else if field = "SizeOfImage" then some 16
    else some 0
  psLoadedModuleList := 0
  unswizzleMask := ~~~ 0

/-- Its modules. -/
theorem Windows.holdsModules_twoModules :
    Windows.twoModules.HoldsModules 2 ⟨8⟩ [⟨0x5000, 0x6000, ⟨40⟩⟩]
      [⟨0xffff800000000000, 0xffff800000001000, ⟨72⟩⟩] := by
  refine ⟨⟨24, by decide +kernel, Or.inr ⟨by decide, 0, 32, 32, by decide +kernel,
      by decide +kernel, by decide +kernel, 0, by decide +kernel, ?_⟩⟩,
    ⟨64, by decide +kernel, 0, by decide +kernel, ?_⟩, by decide +kernel, by decide⟩
  · refine ⟨40, by decide, by decide +kernel, by decide +kernel, ?_⟩
    show Pointer.readPointerField _ _ _ _ = _
    decide +kernel
  · refine ⟨72, by decide, by decide +kernel, by decide +kernel, ?_⟩
    show Pointer.readPointerField _ _ _ _ = _
    decide +kernel

/-- Where only the first one is, and of a guest with a module in each half, the
lookups agree. -/
theorem agrees_twoAreas_twoModules :
    (∃ ctx, Linux.Context.new (Linux.twoAreas 1) 3 ⟨8⟩ = .ok ctx
      ∧ ∀ addr, (Linux.twoAreas 1).findModuleByAddress 3 ⟨8⟩ addr
        = .ok ((ctx.findModuleByAddress addr).map Callstack.Module.module))
    ∧ ∃ modules, Windows.twoModules.collectModules .stable 2 ⟨8⟩ = .ok modules
      ∧ ∀ addr, Windows.twoModules.findModuleByAddress 2 ⟨8⟩ addr
        = .ok ((Callstack.findByAddress modules addr).map Callstack.Module.module) := by
  have hagree := findModuleByAddress_agrees_iff (Linux.twoAreas 1) Windows.twoModules .stable
  let areas : List Linux.Area := [⟨32, 0x1000, 0x2000, 112, 0⟩, ⟨72, 0x2000, 0x3000, 112, 0x1000⟩]
  refine ⟨?_, hagree.2 2 ⟨8⟩ _ _ Windows.holdsModules_twoModules
    ⟨by decide, by decide, by decide, by decide⟩⟩
  · have hheld : (Linux.twoAreas 1).HoldsProcess 3 ⟨8⟩ areas := by
      refine ⟨⟨0, by decide +kernel⟩,
        Or.inr ⟨16, 32, by decide +kernel, by decide +kernel, ?_⟩, by decide⟩
      refine ⟨by decide, rfl, by decide +kernel, by decide +kernel, by decide +kernel,
        by decide +kernel, fun _ => ⟨.ofChars ['a'], by decide +kernel⟩, 72, by decide +kernel, ?_⟩
      exact ⟨by decide, rfl, by decide +kernel, by decide +kernel, by decide +kernel,
        by decide +kernel, fun h => absurd h (by decide), 0, by decide +kernel, rfl⟩
    have hasc : Linux.Area.Ascending areas := ⟨by decide, by decide⟩
    have hone : Linux.Area.OneModuleARun areas :=
      (Linux.Area.separate_modules_iff hasc).mp ⟨by decide, by decide⟩
    obtain ⟨ctx, hctx, -, hiff⟩ := hagree.1 3 ⟨8⟩ areas hheld hasc
    exact ⟨ctx, hctx, hiff.mpr hone⟩
