import Vminer.Vcpus

/-!
# Wrapped backends

`RuntimeBackend` wraps a backend of any architecture as one of the `runtime`
architecture, and `Arc` shares one. Both forward the methods of the backend, so
that what it overrides is kept – all methods but a few, which fall back to their
default and with it to what the default is computed from.

What a wrapper answers is compared with what the backend answers method by method
(`Transparent`). It is the same exactly if the backend does not override one of
the methods that are not forwarded with something else (`transparent_iff`).
-/

/-! ## `Backend` -/

/-- **The trait `Backend`**. The default of `find_kernel_pgd` depends on the
architecture; neither wrapper falls back to it. -/
class Backend.Methods (B : Type) extends Memory B, HasVcpus.Methods B where
  readVirtualMemory : B → PhysicalAddress → VirtualAddress → ℕ →
      Exec TranslationError (List UInt8) :=
    fun backend => defaultReadVirtualMemory
      (Architecture.intoRuntime (HasVcpus.arch backend)).mmuDesc backend
  readValueVirtual : {α : Type} → B → Layout α → PhysicalAddress → VirtualAddress →
      Exec TranslationError α :=
    fun backend L mmuAddr addr => L.dec <$> readVirtualMemory backend mmuAddr addr L.size
  virtualToPhysical : B → PhysicalAddress → VirtualAddress →
      Exec TranslationError PhysicalAddress :=
    fun backend => virtualToPhysical
      (Architecture.intoRuntime (HasVcpus.arch backend)).mmuDesc backend
  findKernelPgd : B → Bool → List VirtualAddress → Exec VmError PhysicalAddress
  findInKernelMemory : B → PhysicalAddress → List UInt8 →
      Exec MemoryAccessError (Option VirtualAddress) :=
    Backend.defaultFindInKernelMemory

/-- `Memory::dump`, where it is not overridden. -/
def Memory.DumpsByDefault {M : Type} [Memory M] (m : M) : Prop :=
  Memory.dump m = defaultDump (Memory.memoryMappings m) (Memory.readPhysical m)

section Defaults

variable {B : Type} [Backend.Methods B]

/-- `HasVcpus::iter_vcpus`, where it is not overridden. -/
def HasVcpus.IteratesByDefault (vcpus : B) : Prop :=
  HasVcpus.Methods.iterVcpus vcpus = HasVcpus.iterVcpus vcpus

/-- `HasVcpus::register_by_name`, where it is not overridden. -/
def HasVcpus.NamesByDefault (vcpus : B) : Prop :=
  HasVcpus.Methods.registerByName vcpus = HasVcpus.defaultRegisterByName vcpus

/-- `Backend::read_value_virtual`, where it is not overridden. -/
def Backend.ReadsByDefault (backend : B) : Prop :=
  ∀ {α : Type} (L : Layout α) (mmuAddr : PhysicalAddress) (addr : VirtualAddress),
    Backend.Methods.readValueVirtual backend L mmuAddr addr
      = L.dec <$> Backend.Methods.readVirtualMemory backend mmuAddr addr L.size

end Defaults

/-! ## The wrappers -/

/-- `RuntimeBackend` -/
structure RuntimeBackend (B : Type) where
  inner : B

/-- `Arc` -/
structure Arc (B : Type) where
  inner : B

section Wrappers

variable {B : Type} [Backend.Methods B]

instance : Memory (RuntimeBackend B) where
  memoryMappings backend := Memory.memoryMappings backend.inner
  readPhysical backend := Memory.readPhysical backend.inner
  length_readPhysical := Memory.length_readPhysical
  isValid backend := Memory.isValid backend.inner
  search backend := Memory.search backend.inner

instance : HasVcpus.Methods (RuntimeBackend B) where
  Arch := RuntimeArchitecture
  arch backend := Architecture.intoRuntime (HasVcpus.arch backend.inner)
  vcpusCount backend := HasVcpus.vcpusCount backend.inner
  registers backend vcpu := HasVcpus.runtimeRegisters backend.inner vcpu
  specialRegisters backend vcpu := HasVcpus.runtimeSpecialRegisters backend.inner vcpu
  otherRegisters backend vcpu := HasVcpus.runtimeOtherRegisters backend.inner vcpu
  instructionPointer backend := HasVcpus.Methods.instructionPointer backend.inner
  stackPointer backend := HasVcpus.Methods.stackPointer backend.inner
  basePointer backend := HasVcpus.Methods.basePointer backend.inner
  pgd backend := HasVcpus.Methods.pgd backend.inner
  kernelPerCpu backend := HasVcpus.Methods.kernelPerCpu backend.inner

instance : Backend.Methods (RuntimeBackend B) where
  readVirtualMemory backend := Backend.Methods.readVirtualMemory backend.inner
  readValueVirtual backend := Backend.Methods.readValueVirtual backend.inner
  virtualToPhysical backend := Backend.Methods.virtualToPhysical backend.inner
  findKernelPgd backend := Backend.Methods.findKernelPgd backend.inner
  findInKernelMemory backend := Backend.Methods.findInKernelMemory backend.inner

instance : Memory (Arc B) where
  memoryMappings backend := Memory.memoryMappings backend.inner
  readPhysical backend := Memory.readPhysical backend.inner
  length_readPhysical := Memory.length_readPhysical
  isValid backend := Memory.isValid backend.inner
  search backend := Memory.search backend.inner
  dump backend := Memory.dump backend.inner

instance : HasVcpus.Methods (Arc B) where
  Arch := HasVcpus.Arch B
  arch backend := HasVcpus.arch backend.inner
  vcpusCount backend := HasVcpus.vcpusCount backend.inner
  registers backend := HasVcpus.registers backend.inner
  specialRegisters backend := HasVcpus.specialRegisters backend.inner
  otherRegisters backend := HasVcpus.otherRegisters backend.inner
  registerByName backend := HasVcpus.Methods.registerByName backend.inner
  instructionPointer backend := HasVcpus.Methods.instructionPointer backend.inner
  stackPointer backend := HasVcpus.Methods.stackPointer backend.inner
  basePointer backend := HasVcpus.Methods.basePointer backend.inner
  pgd backend := HasVcpus.Methods.pgd backend.inner
  kernelPerCpu backend := HasVcpus.Methods.kernelPerCpu backend.inner

instance : Backend.Methods (Arc B) where
  readVirtualMemory backend := Backend.Methods.readVirtualMemory backend.inner
  virtualToPhysical backend := Backend.Methods.virtualToPhysical backend.inner
  findKernelPgd backend := Backend.Methods.findKernelPgd backend.inner
  findInKernelMemory backend := Backend.Methods.findInKernelMemory backend.inner

end Wrappers

/-! ## Transparency -/

/-- **A wrapper answers as what it wraps**, in every method, up to the `runtime`
enums that registers are injected into. -/
structure Transparent {W B : Type} [Backend.Methods W] [Backend.Methods B] (w : W) (b : B) :
    Prop where
  memoryMappings : Memory.memoryMappings w = Memory.memoryMappings b
  isValid : Memory.isValid w = Memory.isValid b
  readPhysical : Memory.readPhysical w = Memory.readPhysical b
  search : Memory.search w = Memory.search b
  dump : Memory.dump w = Memory.dump b
  arch : Architecture.intoRuntime (HasVcpus.arch w) = Architecture.intoRuntime (HasVcpus.arch b)
  vcpusCount : HasVcpus.vcpusCount w = HasVcpus.vcpusCount b
  iterVcpus : HasVcpus.Methods.iterVcpus w = HasVcpus.Methods.iterVcpus b
  registers : HasVcpus.runtimeRegisters w = HasVcpus.runtimeRegisters b
  specialRegisters : HasVcpus.runtimeSpecialRegisters w = HasVcpus.runtimeSpecialRegisters b
  otherRegisters : HasVcpus.runtimeOtherRegisters w = HasVcpus.runtimeOtherRegisters b
  registerByName : HasVcpus.Methods.registerByName w = HasVcpus.Methods.registerByName b
  instructionPointer :
    HasVcpus.Methods.instructionPointer w = HasVcpus.Methods.instructionPointer b
  stackPointer : HasVcpus.Methods.stackPointer w = HasVcpus.Methods.stackPointer b
  basePointer : HasVcpus.Methods.basePointer w = HasVcpus.Methods.basePointer b
  pgd : HasVcpus.Methods.pgd w = HasVcpus.Methods.pgd b
  kernelPerCpu : HasVcpus.Methods.kernelPerCpu w = HasVcpus.Methods.kernelPerCpu b
  readVirtualMemory : Backend.Methods.readVirtualMemory w = Backend.Methods.readVirtualMemory b
  readValueVirtual : ∀ {α : Type} (L : Layout α) (mmuAddr : PhysicalAddress)
      (addr : VirtualAddress),
    Backend.Methods.readValueVirtual w L mmuAddr addr
      = Backend.Methods.readValueVirtual b L mmuAddr addr
  virtualToPhysical : Backend.Methods.virtualToPhysical w = Backend.Methods.virtualToPhysical b
  findKernelPgd : Backend.Methods.findKernelPgd w = Backend.Methods.findKernelPgd b
  findInKernelMemory :
    Backend.Methods.findInKernelMemory w = Backend.Methods.findInKernelMemory b
  collectInKernelMemory : Backend.collectInKernelMemory w = Backend.collectInKernelMemory b

section Search

variable {M N : Type} [Memory M] [Memory N] {m : M} {n : N}
  (hread : Memory.readPhysical m = Memory.readPhysical n)
  (hsearch : Memory.search m = Memory.search n)

include hread hsearch

/-- **The search of the kernel's memory** depends on the memory only through its
reads and its searches. -/
theorem findInKernelMemoryInner_congr (desc : MmuDesc) (needle : List UInt8) (bufLen : ℕ)
    (levels : List (ℕ × Bool)) :
    findInKernelMemoryInner desc m needle bufLen levels
      = findInKernelMemoryInner desc n needle bufLen levels := by
  induction levels with
  | nil => rfl
  | cons level rest ih =>
    funext tableAddr baseSearchAddr
    rw [findInKernelMemoryInner, findInKernelMemoryInner, hread, ih]
    unfold searchEntry searchPage
    rw [hsearch]

/-- So does the iterator. -/
theorem collect_congr (fuel : ℕ) (it : KernelSearchIterator) :
    KernelSearchIterator.collect m fuel it = KernelSearchIterator.collect n fuel it := by
  induction fuel generalizing it with
  | zero => rfl
  | succ fuel ih =>
    have hnext : it.next m = it.next n := by
      unfold KernelSearchIterator.next findInKernelMemoryRaw
      rw [findInKernelMemoryInner_congr hread hsearch]
    rw [KernelSearchIterator.collect, KernelSearchIterator.collect, hnext]
    simp only [ih]

end Search

section Runtime

variable {B : Type} [Backend.Methods B] (b : B)

namespace RuntimeBackend

/-- Injecting what was injected changes nothing. -/
theorem runtimeRegisters_eq :
    HasVcpus.runtimeRegisters (RuntimeBackend.mk b) = HasVcpus.runtimeRegisters b :=
  funext fun vcpu => bind_pure (HasVcpus.runtimeRegisters b vcpu)

theorem runtimeSpecialRegisters_eq :
    HasVcpus.runtimeSpecialRegisters (RuntimeBackend.mk b)
      = HasVcpus.runtimeSpecialRegisters b :=
  funext fun vcpu => bind_pure (HasVcpus.runtimeSpecialRegisters b vcpu)

theorem runtimeOtherRegisters_eq :
    HasVcpus.runtimeOtherRegisters (RuntimeBackend.mk b) = HasVcpus.runtimeOtherRegisters b :=
  funext fun vcpu => bind_pure (HasVcpus.runtimeOtherRegisters b vcpu)

/-- A register that is looked up in the registers of the backend is the one that
is looked up in those that were injected. -/
theorem defaultRegisterByName_eq :
    HasVcpus.defaultRegisterByName (RuntimeBackend.mk b) = HasVcpus.defaultRegisterByName b := by
  have hx : ∀ vcpu, X86_64.registers (RuntimeBackend.mk b) vcpu = X86_64.registers b vcpu := by
    intro vcpu
    show (HasVcpus.runtimeRegisters (RuntimeBackend.mk b) vcpu >>= _) = _
    rw [runtimeRegisters_eq]
    rfl
  have ha : ∀ vcpu, Aarch64.registers (RuntimeBackend.mk b) vcpu = Aarch64.registers b vcpu := by
    intro vcpu
    show (HasVcpus.runtimeRegisters (RuntimeBackend.mk b) vcpu >>= _) = _
    rw [runtimeRegisters_eq]
    rfl
  funext vcpu name
  unfold HasVcpus.defaultRegisterByName HasVcpus.dispatch
  have harch : Architecture.intoRuntime (HasVcpus.arch (RuntimeBackend.mk b))
      = Architecture.intoRuntime (HasVcpus.arch b) := rfl
  rw [harch]
  cases Architecture.intoRuntime (HasVcpus.arch b) with
  | x86_64 =>
    show X86_64.registerByName _ vcpu name = X86_64.registerByName _ vcpu name
    unfold X86_64.registerByName
    rw [hx]
  | aarch64 =>
    show Aarch64.registerByName _ vcpu name = Aarch64.registerByName _ vcpu name
    unfold Aarch64.registerByName
    rw [ha]

/-- A search through the wrapper is one of the backend. -/
theorem collectInKernelMemory_eq :
    Backend.collectInKernelMemory (RuntimeBackend.mk b) = Backend.collectInKernelMemory b := by
  funext mmuAddr needle fuel
  exact collect_congr (m := RuntimeBackend.mk b) (n := b) rfl rfl fuel _

end RuntimeBackend

/-- A search through a shared backend is one of the backend. -/
theorem Arc.collectInKernelMemory_eq :
    Backend.collectInKernelMemory (Arc.mk b) = Backend.collectInKernelMemory b := by
  funext mmuAddr needle fuel
  exact collect_congr (m := Arc.mk b) (n := b) rfl rfl fuel _

/-- **The wrapper is transparent** exactly for what dumps, iterates over its
virtual CPUs and finds registers by their names as by default. -/
theorem RuntimeBackend.transparent_iff :
    Transparent (RuntimeBackend.mk b) b
      ↔ Memory.DumpsByDefault b ∧ HasVcpus.IteratesByDefault b ∧ HasVcpus.NamesByDefault b := by
  constructor
  · intro h
    refine ⟨h.dump.symm, h.iterVcpus.symm, h.registerByName.symm.trans ?_⟩
    exact defaultRegisterByName_eq b
  · rintro ⟨hdump, hiter, hnames⟩
    exact
      { memoryMappings := rfl
        isValid := rfl
        readPhysical := rfl
        search := rfl
        dump := hdump.symm
        arch := rfl
        vcpusCount := rfl
        iterVcpus := hiter.symm
        registers := runtimeRegisters_eq b
        specialRegisters := runtimeSpecialRegisters_eq b
        otherRegisters := runtimeOtherRegisters_eq b
        registerByName := (defaultRegisterByName_eq b).trans hnames.symm
        instructionPointer := rfl
        stackPointer := rfl
        basePointer := rfl
        pgd := rfl
        kernelPerCpu := rfl
        readVirtualMemory := rfl
        readValueVirtual := fun _ _ _ => rfl
        virtualToPhysical := rfl
        findKernelPgd := rfl
        findInKernelMemory := rfl
        collectInKernelMemory := collectInKernelMemory_eq b }

/-- **A shared backend is transparent** exactly for what iterates over its virtual
CPUs and reads values as by default. -/
theorem Arc.transparent_iff :
    Transparent (Arc.mk b) b ↔ HasVcpus.IteratesByDefault b ∧ Backend.ReadsByDefault b := by
  constructor
  · intro h
    exact ⟨h.iterVcpus.symm, fun L mmuAddr addr => (h.readValueVirtual L mmuAddr addr).symm⟩
  · rintro ⟨hiter, hreads⟩
    exact
      { memoryMappings := rfl
        isValid := rfl
        readPhysical := rfl
        search := rfl
        dump := rfl
        arch := rfl
        vcpusCount := rfl
        iterVcpus := hiter.symm
        registers := rfl
        specialRegisters := rfl
        otherRegisters := rfl
        registerByName := rfl
        instructionPointer := rfl
        stackPointer := rfl
        basePointer := rfl
        pgd := rfl
        kernelPerCpu := rfl
        readVirtualMemory := rfl
        readValueVirtual := fun L mmuAddr addr => (hreads L mmuAddr addr).symm
        virtualToPhysical := rfl
        findKernelPgd := rfl
        findInKernelMemory := rfl
        collectInKernelMemory := collectInKernelMemory_eq b }

end Runtime

/-! ## The native backend -/

/-- `X86_64Backend`: a backend whose methods are functions of the host, each of
which it may leave out. A function that fills a buffer gives its bytes with its
result. -/
structure X86_64Backend where
  memoryMappings : Option (List MemoryMap)
  readPhysicalMemory : Option (PhysicalAddress → (size : ℕ) → ℤ × Vector UInt8 size)
  readVirtualMemory :
    Option (PhysicalAddress → VirtualAddress → (size : ℕ) → ℤ × Vector UInt8 size)
  vcpusCount : ℕ
  registers : Option (ℕ → X86_64.Registers)
  specialRegisters : Option (ℕ → X86_64.SpecialRegisters)
  otherRegisters : Option (ℕ → X86_64.OtherRegisters)
  registersByName : Option (ℕ → String → ℤ × U64)

namespace X86_64Backend

/-- The outcome of a function of the host that fills a buffer. -/
def filled {n : ℕ} : ℤ × Vector UInt8 n → Exec MemoryAccessError (List UInt8)
  | (res, buf) =>
    if res = 0 then .ok buf.toList
    else if 0 < res then Exec.fail (.io (.os res.toNat))
    else Exec.fail .outOfBounds

/-- What a function of the host gives for a virtual CPU. -/
def ofVcpu {α : Type} (backend : X86_64Backend) (registers : Option (ℕ → α)) (vcpu : VcpuId) :
    Exec VcpuError α :=
  if backend.vcpusCount ≤ vcpu then Exec.fail .invalidId
  else
    match registers with
    | some registers => return registers vcpu
    | none => Exec.fail .unsupported

/-- `X86_64Backend::read_physical` -/
def readPhysical (backend : X86_64Backend) (addr : PhysicalAddress) (size : ℕ) :
    Exec MemoryAccessError (List UInt8) :=
  match backend.readPhysicalMemory with
  | some readPhysical => filled (readPhysical addr size)
  | none => Exec.fail .unsupported

theorem length_of_readPhysical {backend : X86_64Backend} {addr : PhysicalAddress} {size : ℕ}
    {bytes : List UInt8} (h : backend.readPhysical addr size = .ok bytes) :
    bytes.length = size := by
  unfold readPhysical filled at h
  split at h
  · next read _ =>
    dsimp only at h
    split at h
    · rw [← Except.ok.inj h, Vector.length_toList]
    · split at h <;> cases h
  · cases h

instance : Memory X86_64Backend where
  memoryMappings backend := backend.memoryMappings.getD []
  readPhysical := readPhysical
  length_readPhysical := length_of_readPhysical

instance : HasVcpus X86_64Backend where
  Arch := X86_64
  arch _ := {}
  vcpusCount backend := backend.vcpusCount
  registers backend := backend.ofVcpu backend.registers
  specialRegisters backend := backend.ofVcpu backend.specialRegisters
  otherRegisters backend := backend.ofVcpu backend.otherRegisters

/-- `X86_64Backend::register_by_name` -/
def registerByName (backend : X86_64Backend) (vcpu : VcpuId) (name : String) :
    Exec VcpuError U64 :=
  match backend.registersByName with
  | some registersByName =>
    -- no C string has a null character
    if Char.ofNat 0 ∈ name.toList then Exec.fail .unknownRegister
    else
      let (res, reg) := registersByName vcpu name
      if res = 0 then .ok reg else Exec.fail .unknownRegister
  | none => X86_64.registerByName backend vcpu name

instance : HasVcpus.Methods X86_64Backend where
  registerByName := registerByName

instance : Backend.Methods X86_64Backend where
  readVirtualMemory backend mmuAddr addr size :=
    match backend.readVirtualMemory with
    | some readVirtual =>
      Exec.mapErr TranslationError.memory (filled (readVirtual mmuAddr addr size))
    | none => defaultReadVirtualMemory X86_64.mmuDesc backend mmuAddr addr size
  findKernelPgd backend usePerCpu additional := do
    let pgd ← X86_64.findKernelPgd backend backend usePerCpu additional
    Exec.okOr pgd (VmError.ofStr "could not find kernel page directory")

end X86_64Backend

/-- **Wrapping is transparent**, whatever the backend overrides, exactly if it does
not override what a wrapper does not forward: `dump`, `iter_vcpus` and
`register_by_name` for `RuntimeBackend`, `iter_vcpus` and `read_value_virtual` for
`Arc`. -/
theorem wrapped_transparent_iff {B : Type} [Backend.Methods B] (b : B) :
    (Transparent (RuntimeBackend.mk b) b
      ↔ Memory.DumpsByDefault b ∧ HasVcpus.IteratesByDefault b ∧ HasVcpus.NamesByDefault b)
    ∧ (Transparent (Arc.mk b) b ↔ HasVcpus.IteratesByDefault b ∧ Backend.ReadsByDefault b) :=
  ⟨RuntimeBackend.transparent_iff b, Arc.transparent_iff b⟩

/-- A host with one virtual CPU that only finds registers by their names. -/
def X86_64Backend.namedOnly : X86_64Backend where
  memoryMappings := none
  readPhysicalMemory := none
  readVirtualMemory := none
  vcpusCount := 1
  registers := none
  specialRegisters := none
  otherRegisters := none
  registersByName := some fun _ name => if name = "cr3" then (0, 0x1000) else (1, 0)

/-- **Its wrapper does not find them.** -/
theorem not_transparent_namedOnly :
    ¬ Transparent (RuntimeBackend.mk X86_64Backend.namedOnly) X86_64Backend.namedOnly := by
  intro h
  have hname := congrFun (congrFun h.registerByName 0) "cr3"
  have hfound : HasVcpus.Methods.registerByName X86_64Backend.namedOnly 0 "cr3" = .ok 0x1000 := by
    decide +kernel
  have hlost : HasVcpus.Methods.registerByName (RuntimeBackend.mk X86_64Backend.namedOnly) 0 "cr3"
      = Exec.fail .unsupported := rfl
  rw [hfound, hlost] at hname
  cases hname
