import Vminer.ModuleSearch
import Vminer.Windows

/-!
# Modules of a Windows process

The modules of a Windows process are a list in its own memory, and those of the
kernel another one in the memory of the kernel. The handle of a module does not
tell which of them it is from: its fields are read from the memory of the
process or from the one of the kernel, depending on its address (`procSpace`).

The vector that a walk of the stack looks modules up in has those of both lists,
sorted by where they start.
-/

namespace Windows

variable {B : Type} [Memory B] [HasVcpus B] {σ : Type}

/-- `Windows::process_pgd` -/
def processPgd (windows : Windows B) (proc : Os.Process) : Exec VmError PhysicalAddress :=
  if VirtualAddress.isNull proc.addr then return windows.kpgd
  else do
    let kproc ← Pointer.field windows.layouts proc.addr (eprocess "Pcb")
    let readDtb := fun name => Pointer.readField windows.readKernelMemory windows.layouts
      Layout.u64 kproc (kprocess name)
    if (kprocess "UserDirectoryTableBase").present windows.layouts then do
      let dtb ← readDtb "UserDirectoryTableBase"
      if dtb ≠ 0 ∧ dtb ≠ 1 then return dtb else readDtb "DirectoryTableBase"
    else readDtb "DirectoryTableBase"

/-- `ProcSpace`: how a pointer of a process reads. -/
def procSpace (windows : Windows B) (fuel : ℕ) (proc : Os.Process) (pgd : PhysicalAddress) :
    ReadMemory := fun addr len =>
  if VirtualAddress.isKernel addr then windows.readKernelMemory addr len
  else windows.readProcessMemory fuel proc pgd addr len

/-- `Windows::for_each_kernel_module` -/
def forEachKernelModule (windows : Windows B) (fuel : ℕ) (f : Callback σ Os.Module) (s : σ) :
    Exec VmError σ := do
  let head ← checkedAdd windows.baseAddr windows.psLoadedModuleList
  windows.iterateList windows.readKernelMemory (ldrDataTableEntry "InLoadOrderLinks") fuel head
    (fun module => f ⟨module⟩) s

/-- `Windows::process_for_each_module` -/
def processForEachModule (windows : Windows B) (fuel : ℕ) (proc : Os.Process)
    (f : Callback σ Os.Module) (s : σ) : Exec VmError σ := do
  let p ← Pointer.readPointerField windows.readKernelMemory windows.layouts proc.addr
    (eprocess "Peb")
  if VirtualAddress.isNull p then return s
  else do
    let pgd ← windows.processPgd proc
    let readMemory := windows.procSpace fuel proc pgd
    let ldr ← Pointer.readPointerField readMemory windows.layouts p (peb "Ldr")
    let head ← Pointer.field windows.layouts ldr (pebLdrData "InLoadOrderModuleList")
    windows.iterateList readMemory (ldrDataTableEntry "InLoadOrderLinks") fuel head
      (fun module => f ⟨module⟩) s

/-- `Windows::module_span` -/
def moduleSpan (windows : Windows B) (fuel : ℕ) (module : Os.Module) (proc : Os.Process) :
    Exec VmError (VirtualAddress × VirtualAddress) := do
  let pgd ← windows.processPgd proc
  let readMemory := windows.procSpace fuel proc pgd
  let dllBase ← Pointer.readField readMemory windows.layouts Layout.u64 module.addr
    (ldrDataTableEntry "DllBase")
  let size ← Pointer.readField readMemory windows.layouts Layout.u32 module.addr
    (ldrDataTableEntry "SizeOfImage")
  let stop ← checkedAdd dllBase (size.setWidth 64)
  return (dllBase, stop)

/-- `Os::find_module_by_address` -/
def findModuleByAddress (windows : Windows B) (fuel : ℕ) (proc : Os.Process) :
    VirtualAddress → Exec VmError (Option Os.Module) :=
  Os.findModuleByAddress (windows.forEachKernelModule fuel)
    (windows.processForEachModule fuel proc)
    (Os.moduleContains fun module => windows.moduleSpan fuel module proc)

/-- What `AllModules::collect` pushes of a module. -/
def pushModule (windows : Windows B) (fuel : ℕ) (proc : Os.Process) :
    Callback (List Callstack.Module) Os.Module := fun module modules => do
  let (start, stop) ← windows.moduleSpan fuel module proc
  return (.Continue, modules ++ [⟨start, stop, module⟩])

/-- `AllModules::collect` -/
def collectModules (windows : Windows B) (sorts : SortUnstable) (fuel : ℕ) (proc : Os.Process) :
    Exec VmError (List Callstack.Module) := do
  let push := windows.pushModule fuel proc
  let modules ← windows.processForEachModule fuel proc push []
  let modules ← windows.forEachKernelModule fuel push modules
  return sorts.byKey Callstack.Module.first modules

/-! ## Lists of modules in memory -/

/-- **A list of modules**, as it is read from its head on. -/
def HoldsModuleList (windows : Windows B) (readMemory : ReadMemory) (head : VirtualAddress)
    (modules : List Callstack.Module) : Prop :=
  ∃ offset, (ldrDataTableEntry "InLoadOrderLinks").offset windows.layouts = .ok offset
    ∧ Pointer.HoldsList readMemory windows.layouts (listEntry "Flink") head offset
      (modules.map fun m => m.module.addr) head

/-- **A process with these modules** and those of the kernel, for which the
budget is enough. A process without an environment block has none. -/
structure HoldsModules (windows : Windows B) (fuel : ℕ) (proc : Os.Process)
    (user kernel : List Callstack.Module) : Prop where
  userList : ∃ p, Pointer.readPointerField windows.readKernelMemory windows.layouts proc.addr
      (eprocess "Peb") = .ok p ∧ ((p = 0 ∧ user = []) ∨ p ≠ 0 ∧ ∃ pgd ldr head,
        windows.processPgd proc = .ok pgd
        ∧ Pointer.readPointerField (windows.procSpace fuel proc pgd) windows.layouts p
          (peb "Ldr") = .ok ldr
        ∧ Pointer.field windows.layouts ldr (pebLdrData "InLoadOrderModuleList") = .ok head
        ∧ windows.HoldsModuleList (windows.procSpace fuel proc pgd) head user)
  kernelList : ∃ head, checkedAdd (ε := VmError) windows.baseAddr windows.psLoadedModuleList
      = .ok head ∧ windows.HoldsModuleList windows.readKernelMemory head kernel
  span : ∀ m ∈ user ++ kernel, windows.moduleSpan fuel m.module proc = .ok (m.start, m.stop)
  enough : user.length < fuel ∧ kernel.length < fuel

/-- **Modules that do not overlap**, those of the process in the half of the
user and those of the kernel in its own. -/
structure Halves (user kernel : List Callstack.Module) : Prop where
  nonempty : ∀ m ∈ user ++ kernel, m.first < m.bound
  disjoint : (user ++ kernel).Pairwise fun a b => a.bound ≤ b.first ∨ b.bound ≤ a.first
  user : ∀ m ∈ user, m.bound ≤ 2 ^ 63
  kernel : ∀ m ∈ kernel, 2 ^ 63 ≤ m.first

variable {windows : Windows B} {fuel : ℕ} {proc : Os.Process}
  {user kernel modules : List Callstack.Module}

omit [Memory B] [HasVcpus B] in
/-- The walk of a list of modules visits them in their order. -/
theorem HoldsModuleList.iterateList_eq {readMemory : ReadMemory} {head : VirtualAddress}
    (h : windows.HoldsModuleList readMemory head modules) (hfuel : modules.length < fuel)
    (f : Callback σ Os.Module) (s : σ) :
    windows.iterateList readMemory (ldrDataTableEntry "InLoadOrderLinks") fuel head
        (fun module => f ⟨module⟩) s
      = Prod.snd <$> forEach f (modules.map Callstack.Module.module) s := by
  obtain ⟨offset, hoffset, hlist⟩ := h
  rw [iterateList, Pointer.iterateList, hoffset, Exec.ok_bind,
    Pointer.iterateListFrom_eq _ hlist (by rwa [List.length_map]), forEach_map, forEach_map]

section Process

variable (h : windows.HoldsModules fuel proc user kernel)

include h

/-- The walk of the modules of the process. -/
theorem HoldsModules.processForEachModule_eq (f : Callback σ Os.Module) (s : σ) :
    windows.processForEachModule fuel proc f s
      = Prod.snd <$> forEach f (user.map Callstack.Module.module) s := by
  obtain ⟨p, hp, ⟨rfl, rfl⟩ | ⟨hne, pgd, ldr, head, hpgd, hldr, hhead, hlist⟩⟩ := h.userList
  · rw [processForEachModule, hp]
    rfl
  · have hnull : ¬ VirtualAddress.isNull p = true := fun hnull => hne (beq_iff_eq.mp hnull)
    rw [processForEachModule, hp, Exec.ok_bind, if_neg hnull, hpgd, Exec.ok_bind]
    dsimp only
    rw [hldr, Exec.ok_bind, hhead, Exec.ok_bind]
    exact hlist.iterateList_eq h.enough.1 f s

/-- The walk of the modules of the kernel. -/
theorem HoldsModules.forEachKernelModule_eq (f : Callback σ Os.Module) (s : σ) :
    windows.forEachKernelModule fuel f s
      = Prod.snd <$> forEach f (kernel.map Callstack.Module.module) s := by
  obtain ⟨head, hhead, hlist⟩ := h.kernelList
  rw [forEachKernelModule, hhead, Exec.ok_bind]
  exact hlist.iterateList_eq h.enough.2 f s

/-- **The vector has the modules of both lists**, sorted. -/
theorem HoldsModules.collectModules_eq (sorts : SortUnstable) :
    windows.collectModules sorts fuel proc
      = .ok (sorts.byKey Callstack.Module.first (user ++ kernel)) := by
  have hpush : ∀ part : List Callstack.Module, (∀ m ∈ part, m ∈ user ++ kernel) → ∀ l,
      forEach (windows.pushModule fuel proc) (part.map Callstack.Module.module) l
        = .ok (.Continue, l ++ part) := by
    intro part hpart l
    refine (forEach_push Callstack.Module.module id (fun m hm l => ?_) l).trans
      (by rw [List.map_id])
    rw [pushModule, h.span m (hpart m hm)]
    rfl
  rw [collectModules]
  rw [h.processForEachModule_eq, hpush user fun m hm => List.mem_append_left _ hm]
  show (windows.forEachKernelModule fuel _ _ >>= _) = _
  rw [h.forEachKernelModule_eq, hpush kernel fun m hm => List.mem_append_right _ hm]
  rfl

/-- The public lookup asks the modules of one list, one after the other. -/
theorem HoldsModules.findModuleByAddress_eq (addr : VirtualAddress) :
    windows.findModuleByAddress fuel proc addr
      = .ok (Callstack.firstContaining
          (if VirtualAddress.isKernel addr then kernel else user) addr) := by
  have hfind : ∀ part : List Callstack.Module, (∀ m ∈ part, m ∈ user ++ kernel) →
      Prod.snd <$> forEach (find fun m => Os.moduleContains
          (fun module => windows.moduleSpan fuel module proc) m addr)
        (part.map Callstack.Module.module) none
      = .ok (Callstack.firstContaining part addr) := by
    intro part hpart
    rw [forEach_find _ Callstack.Module.module (p := fun m => m.contains addr) part
      (fun m hm => by rw [Os.moduleContains, h.span m (hpart m hm)]; rfl),
      Callstack.firstContaining]
    cases part.find? fun m => m.contains addr <;> rfl
  unfold findModuleByAddress Os.findModuleByAddress
  dsimp only
  split
  · rw [h.forEachKernelModule_eq, hfind kernel fun m hm => List.mem_append_right _ hm]
  · rw [h.processForEachModule_eq, hfind user fun m hm => List.mem_append_left _ hm]

end Process

/-- **In a vector sorted by where the modules start** they are looked up as each
half is scanned. -/
theorem Halves.findByAddress_eq (h : Halves user kernel) (sorts : SortUnstable)
    (addr : VirtualAddress) :
    (Callstack.findByAddress (sorts.byKey Callstack.Module.first (user ++ kernel)) addr).map
        Callstack.Module.module
      = Callstack.firstContaining (if VirtualAddress.isKernel addr then kernel else user) addr := by
  have hperm := sorts.perm_byKey Callstack.Module.first (user ++ kernel)
  have hne : ∀ m ∈ sorts.byKey Callstack.Module.first (user ++ kernel), m.first < m.bound :=
    fun m hm => h.nonempty m (hperm.mem_iff.mp hm)
  have hdisj := hperm.symm.pairwise h.disjoint fun {_ _} h => h.symm
  have hsorted := pairwise_stop_le hdisj (sorts.pairwise_byKey Callstack.Module.first _) hne
  rw [Callstack.findByAddress_eq_firstContaining hne hsorted, Callstack.firstContaining_eq,
    Callstack.firstContaining_eq, ← find?_covers_perm h.disjoint hperm.symm, List.find?_append]
  -- no module of the other half contains the address
  by_cases hk : VirtualAddress.isKernel addr = true
  · have hnone : user.find? (covers Callstack.Module.first Callstack.Module.bound addr.toNat)
        = none := by
      refine List.find?_eq_none.mpr fun m hm => ?_
      rw [covers_eq_false_of_stop_le
        ((h.user m hm).trans ((Callstack.isKernel_iff addr).mp hk))]
      exact Bool.false_ne_true
    rw [if_pos hk, hnone, Option.none_or]
  · have hnone : kernel.find? (covers Callstack.Module.first Callstack.Module.bound addr.toNat)
        = none := by
      refine List.find?_eq_none.mpr fun m hm => ?_
      have hlt : addr.toNat < 2 ^ 63 :=
        not_le.mp fun hle => hk ((Callstack.isKernel_iff addr).mpr hle)
      rw [covers_eq_false_of_lt_start (hlt.trans_le (h.kernel m hm))]
      exact Bool.false_ne_true
    rw [if_neg hk, hnone, Option.or_none]

end Windows
