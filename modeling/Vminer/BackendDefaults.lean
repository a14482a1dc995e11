import Vminer.RuntimeBackend

/-!
# Backends without overrides

A backend has to say what its memory maps, how it is read, and which registers its
virtual CPUs have. Every other method has a default, which is computed from these.
Two backends that keep all defaults and agree on what they have to say therefore
answer the same in every method (`Transparent.of_byDefault`), whatever they are: this
is how a dump is compared with the guest it was taken from.
-/

/-! ## What the defaults are -/

/-- `Backend::find_kernel_pgd` -/
def Backend.defaultFindKernelPgd {B : Type} [Memory B] [HasVcpus.Methods B] (backend : B)
    (usePerCpu : Bool) (additional : List VirtualAddress) : Exec VmError PhysicalAddress := do
  let pgd ← HasVcpus.dispatch backend
    (fun backend => X86_64.findKernelPgd backend backend usePerCpu additional)
    (fun backend => Aarch64.findKernelPgd backend backend usePerCpu additional)
  Exec.okOr pgd (VmError.ofStr "could not find kernel page directory")

/-- **A backend that overrides no method** that has a default. -/
structure Backend.ByDefault {B : Type} [Backend.Methods B] (b : B) : Prop where
  isValid : Memory.isValid b = defaultIsValid (Memory.memoryMappings b)
  search : Memory.search b = defaultSearch (Memory.readPhysical b)
  dump : Memory.DumpsByDefault b
  iterVcpus : HasVcpus.IteratesByDefault b
  registerByName : HasVcpus.NamesByDefault b
  instructionPointer : HasVcpus.Methods.instructionPointer b
    = HasVcpus.dispatch b X86_64.instructionPointer Aarch64.instructionPointer
  stackPointer : HasVcpus.Methods.stackPointer b
    = HasVcpus.dispatch b X86_64.stackPointer Aarch64.stackPointer
  basePointer : HasVcpus.Methods.basePointer b
    = HasVcpus.dispatch b X86_64.basePointer Aarch64.basePointer
  pgd : HasVcpus.Methods.pgd b = HasVcpus.dispatch b X86_64.pgd Aarch64.pgd
  kernelPerCpu : HasVcpus.Methods.kernelPerCpu b
    = HasVcpus.dispatch b X86_64.kernelPerCpu Aarch64.kernelPerCpu
  readVirtualMemory : Backend.Methods.readVirtualMemory b
    = defaultReadVirtualMemory (Architecture.intoRuntime (HasVcpus.arch b)).mmuDesc b
  readValueVirtual : Backend.ReadsByDefault b
  virtualToPhysical : Backend.Methods.virtualToPhysical b
    = virtualToPhysical (Architecture.intoRuntime (HasVcpus.arch b)).mmuDesc b
  findKernelPgd : Backend.Methods.findKernelPgd b = Backend.defaultFindKernelPgd b
  findInKernelMemory :
    Backend.Methods.findInKernelMemory b = Backend.defaultFindInKernelMemory b

/-- **What a backend has to say**, the same of both. -/
structure Backend.Agree {V W : Type} [Memory V] [HasVcpus V] [Memory W] [HasVcpus W]
    (v : V) (w : W) : Prop where
  memoryMappings : Memory.memoryMappings v = Memory.memoryMappings w
  readPhysical : Memory.readPhysical v = Memory.readPhysical w
  arch : Architecture.intoRuntime (HasVcpus.arch v) = Architecture.intoRuntime (HasVcpus.arch w)
  vcpusCount : HasVcpus.vcpusCount v = HasVcpus.vcpusCount w
  registers : HasVcpus.runtimeRegisters v = HasVcpus.runtimeRegisters w
  specialRegisters : HasVcpus.runtimeSpecialRegisters v = HasVcpus.runtimeSpecialRegisters w
  otherRegisters : HasVcpus.runtimeOtherRegisters v = HasVcpus.runtimeOtherRegisters w

/-! ## Translation depends on the reads -/

section Walk

variable {M N : Type} [Memory M] [Memory N] {m : M} {n : N}
  (hread : Memory.readPhysical m = Memory.readPhysical n)

include hread

theorem walk_congr (desc : MmuDesc) (addr : VirtualAddress) (levels : List (ℕ × Bool)) :
    walk desc m addr levels = walk desc n addr levels := by
  induction levels with
  | nil => rfl
  | cons level rest ih =>
    funext entry
    rw [walk, walk, hread, ih]

theorem virtualToPhysical_congr (desc : MmuDesc) :
    virtualToPhysical desc m = virtualToPhysical desc n := by
  funext mmuAddr addr
  exact congrFun (walk_congr hread desc addr levels) mmuAddr

theorem defaultReadVirtualMemory_congr (desc : MmuDesc) :
    defaultReadVirtualMemory desc m = defaultReadVirtualMemory desc n := by
  funext mmuAddr addr len
  rw [defaultReadVirtualMemory, defaultReadVirtualMemory, virtualToPhysical_congr hread, hread]

theorem findInKernelMemory_congr (hsearch : Memory.search m = Memory.search n)
    (desc : MmuDesc) (mmuAddr : PhysicalAddress) (needle : List UInt8)
    (baseSearchAddr : VirtualAddress) :
    findInKernelMemory desc m mmuAddr needle baseSearchAddr
      = findInKernelMemory desc n mmuAddr needle baseSearchAddr := by
  unfold findInKernelMemory findInKernelMemoryRaw
  rw [findInKernelMemoryInner_congr hread hsearch]

end Walk

/-! ## Registers -/

namespace Backend.Agree

section Registers

variable {V W : Type} [Memory V] [HasVcpus V] [Memory W] [HasVcpus W] {v : V} {w : W}
  (h : Backend.Agree v w)

include h

/-- What a dispatch to the architecture gives is the same if both architectures give
the same. -/
theorem dispatch_eq {α : Type} {x86_64 aarch64 : V → α} {x86_64' aarch64' : W → α}
    (hx86 : x86_64 v = x86_64' w) (haarch64 : aarch64 v = aarch64' w) :
    HasVcpus.dispatch v x86_64 aarch64 = HasVcpus.dispatch w x86_64' aarch64' := by
  unfold HasVcpus.dispatch
  rw [h.arch]
  cases Architecture.intoRuntime (HasVcpus.arch w) with
  | x86_64 => exact hx86
  | aarch64 => exact haarch64

theorem x86Registers_eq : X86_64.registers v = X86_64.registers w := by
  funext vcpu
  show (HasVcpus.runtimeRegisters v vcpu >>= _) = _
  rw [h.registers]
  rfl

theorem x86SpecialRegisters_eq : X86_64.specialRegisters v = X86_64.specialRegisters w := by
  funext vcpu
  show (HasVcpus.runtimeSpecialRegisters v vcpu >>= _) = _
  rw [h.specialRegisters]
  rfl

theorem x86OtherRegisters_eq : X86_64.otherRegisters v = X86_64.otherRegisters w := by
  funext vcpu
  show (HasVcpus.runtimeOtherRegisters v vcpu >>= _) = _
  rw [h.otherRegisters]
  rfl

theorem aarch64Registers_eq : Aarch64.registers v = Aarch64.registers w := by
  funext vcpu
  show (HasVcpus.runtimeRegisters v vcpu >>= _) = _
  rw [h.registers]
  rfl

theorem aarch64SpecialRegisters_eq :
    Aarch64.specialRegisters v = Aarch64.specialRegisters w := by
  funext vcpu
  show (HasVcpus.runtimeSpecialRegisters v vcpu >>= _) = _
  rw [h.specialRegisters]
  rfl

theorem registerByName_eq :
    HasVcpus.defaultRegisterByName v = HasVcpus.defaultRegisterByName w := by
  refine h.dispatch_eq ?_ ?_ <;> funext vcpu name
  · rw [X86_64.registerByName, X86_64.registerByName, h.x86Registers_eq]
  · rw [Aarch64.registerByName, Aarch64.registerByName, h.aarch64Registers_eq]

theorem instructionPointer_eq :
    HasVcpus.dispatch v X86_64.instructionPointer Aarch64.instructionPointer
      = HasVcpus.dispatch w X86_64.instructionPointer Aarch64.instructionPointer := by
  refine h.dispatch_eq ?_ ?_ <;> funext vcpu
  · rw [X86_64.instructionPointer, X86_64.instructionPointer, h.x86Registers_eq]
  · rw [Aarch64.instructionPointer, Aarch64.instructionPointer, h.aarch64Registers_eq]

theorem stackPointer_eq :
    HasVcpus.dispatch v X86_64.stackPointer Aarch64.stackPointer
      = HasVcpus.dispatch w X86_64.stackPointer Aarch64.stackPointer := by
  refine h.dispatch_eq ?_ ?_ <;> funext vcpu
  · rw [X86_64.stackPointer, X86_64.stackPointer, h.x86Registers_eq]
  · rw [Aarch64.stackPointer, Aarch64.stackPointer, Aarch64.instructionPointer,
      Aarch64.instructionPointer, h.aarch64Registers_eq, h.aarch64SpecialRegisters_eq]

theorem basePointer_eq :
    HasVcpus.dispatch v X86_64.basePointer Aarch64.basePointer
      = HasVcpus.dispatch w X86_64.basePointer Aarch64.basePointer := by
  refine h.dispatch_eq ?_ ?_ <;> funext vcpu
  · rw [X86_64.basePointer, X86_64.basePointer, h.x86Registers_eq]
  · rw [Aarch64.basePointer, Aarch64.basePointer, h.aarch64Registers_eq]

theorem pgd_eq :
    HasVcpus.dispatch v X86_64.pgd Aarch64.pgd = HasVcpus.dispatch w X86_64.pgd Aarch64.pgd := by
  refine h.dispatch_eq ?_ ?_ <;> funext vcpu
  · rw [X86_64.pgd, X86_64.pgd, h.x86SpecialRegisters_eq]
  · rw [Aarch64.pgd, Aarch64.pgd, Aarch64.instructionPointer, Aarch64.instructionPointer,
      h.aarch64Registers_eq, h.aarch64SpecialRegisters_eq]

theorem kernelPerCpu_eq :
    HasVcpus.dispatch v X86_64.kernelPerCpu Aarch64.kernelPerCpu
      = HasVcpus.dispatch w X86_64.kernelPerCpu Aarch64.kernelPerCpu := by
  refine h.dispatch_eq ?_ rfl
  funext vcpu
  rw [X86_64.kernelPerCpu, X86_64.kernelPerCpu, h.x86SpecialRegisters_eq,
    h.x86OtherRegisters_eq]

end Registers

/-! ## All methods -/

section Methods

variable {V W : Type} [Backend.Methods V] [Backend.Methods W] {v : V} {w : W}
  (h : Backend.Agree v w) (hv : Backend.ByDefault v) (hw : Backend.ByDefault w)

include h hv hw

theorem isValid_eq : Memory.isValid v = Memory.isValid w := by
  rw [hv.isValid, hw.isValid, h.memoryMappings]

theorem search_eq : Memory.search v = Memory.search w := by
  rw [hv.search, hw.search, h.readPhysical]

theorem iterVcpus_eq : HasVcpus.Methods.iterVcpus v = HasVcpus.Methods.iterVcpus w := by
  rw [hv.iterVcpus, hw.iterVcpus, HasVcpus.iterVcpus, HasVcpus.iterVcpus, h.vcpusCount]

/-- The test of an address depends on the memory and the registers alone. -/
theorem makeAddressTest_eq (usePerCpu : Bool) (additional : List VirtualAddress) :
    makeAddressTest v v usePerCpu additional = makeAddressTest w w usePerCpu additional := by
  have hperCpu : HasVcpus.Methods.kernelPerCpu v = HasVcpus.Methods.kernelPerCpu w := by
    rw [hv.kernelPerCpu, hw.kernelPerCpu, h.kernelPerCpu_eq]
  unfold makeAddressTest
  simp only [h.iterVcpus_eq hv hw, hperCpu, h.arch, virtualToPhysical_congr h.readPhysical,
    h.isValid_eq hv hw]

/-- So does the search for the page directory of the kernel. -/
theorem findKernelPgd_eq :
    Backend.defaultFindKernelPgd v = Backend.defaultFindKernelPgd w := by
  funext usePerCpu additional
  have hpgd : HasVcpus.Methods.pgd v = HasVcpus.Methods.pgd w := by
    rw [hv.pgd, hw.pgd, h.pgd_eq]
  have hip : HasVcpus.Methods.instructionPointer v = HasVcpus.Methods.instructionPointer w := by
    rw [hv.instructionPointer, hw.instructionPointer, h.instructionPointer_eq]
  refine congrArg (· >>= _) (h.dispatch_eq ?_ ?_)
  · simp only [X86_64.findKernelPgd, h.x86OtherRegisters_eq, h.makeAddressTest_eq hv hw,
      h.iterVcpus_eq hv hw, hpgd]
  · simp only [Aarch64.findKernelPgd, hip, hpgd, h.makeAddressTest_eq hv hw,
      h.iterVcpus_eq hv hw]

end Methods

end Backend.Agree

/-- **A backend without overrides is what it has to say**: two of them that agree on
their mappings, their reads and their registers answer the same in every method. -/
theorem Transparent.of_byDefault {V W : Type} [Backend.Methods V] [Backend.Methods W] {v : V}
    {w : W} (hv : Backend.ByDefault v) (hw : Backend.ByDefault w) (h : Backend.Agree v w) :
    Transparent v w where
  memoryMappings := h.memoryMappings
  isValid := h.isValid_eq hv hw
  readPhysical := h.readPhysical
  search := h.search_eq hv hw
  dump := by
    rw [hv.dump, hw.dump, h.memoryMappings, h.readPhysical]
  arch := h.arch
  vcpusCount := h.vcpusCount
  iterVcpus := h.iterVcpus_eq hv hw
  registers := h.registers
  specialRegisters := h.specialRegisters
  otherRegisters := h.otherRegisters
  registerByName := hv.registerByName.trans (h.registerByName_eq.trans hw.registerByName.symm)
  instructionPointer := by
    rw [hv.instructionPointer, hw.instructionPointer, h.instructionPointer_eq]
  stackPointer := by
    rw [hv.stackPointer, hw.stackPointer, h.stackPointer_eq]
  basePointer := by
    rw [hv.basePointer, hw.basePointer, h.basePointer_eq]
  pgd := by
    rw [hv.pgd, hw.pgd, h.pgd_eq]
  kernelPerCpu := by
    rw [hv.kernelPerCpu, hw.kernelPerCpu, h.kernelPerCpu_eq]
  readVirtualMemory := by
    rw [hv.readVirtualMemory, hw.readVirtualMemory, h.arch,
      defaultReadVirtualMemory_congr h.readPhysical]
  readValueVirtual L mmuAddr addr := by
    rw [hv.readValueVirtual, hw.readValueVirtual, hv.readVirtualMemory, hw.readVirtualMemory,
      h.arch, defaultReadVirtualMemory_congr h.readPhysical]
  virtualToPhysical := by
    rw [hv.virtualToPhysical, hw.virtualToPhysical, h.arch,
      virtualToPhysical_congr h.readPhysical]
  findKernelPgd := by
    rw [hv.findKernelPgd, hw.findKernelPgd, h.findKernelPgd_eq hv hw]
  findInKernelMemory := by
    funext mmuAddr needle
    rw [hv.findInKernelMemory, hw.findInKernelMemory, Backend.defaultFindInKernelMemory,
      Backend.defaultFindInKernelMemory, h.arch]
    exact findInKernelMemory_congr h.readPhysical (h.search_eq hv hw) _ _ _ _
  collectInKernelMemory := by
    funext mmuAddr needle fuel
    rw [Backend.collectInKernelMemory, Backend.collectInKernelMemory, h.arch]
    exact collect_congr h.readPhysical (h.search_eq hv hw) fuel _
