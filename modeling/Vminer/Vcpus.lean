import Vminer.KernelIterator
import Vminer.VirtualRead
import Vminer.Arch

/-!
# The traits of a backend

What an architecture tells of the virtual CPUs of a guest, and the traits
`HasVcpus` and `Backend` with all their methods. Those that have a default are
computed from the registers, through the architecture, and from the memory; a
backend may override any of them, as the native one does that asks its host for a
register by its name.
-/

/-! ## The architectures -/

/-- `usize::from_str`: decimal digits, perhaps after a plus sign. -/
def parseUsize (s : List Char) : Option ℕ :=
  let digits := fun ds : List Char =>
    if ds ≠ [] ∧ ds.all Char.isDigit then
      let n := ds.foldl (fun n c => 10 * n + (c.toNat - '0'.toNat)) 0
      if n < 2 ^ 64 then some n else none
    else none
  match s with
  | '+' :: ds => digits ds
  | ds => digits ds

section Registers

variable {V : Type} [HasVcpus V]

namespace X86_64

/-- The registers of a guest of this architecture. -/
def registers (vcpus : V) (vcpu : VcpuId) : Exec VcpuError Registers :=
  HasVcpus.registers (AssumeX86_64.mk vcpus) vcpu

def specialRegisters (vcpus : V) (vcpu : VcpuId) : Exec VcpuError SpecialRegisters :=
  HasVcpus.specialRegisters (AssumeX86_64.mk vcpus) vcpu

def otherRegisters (vcpus : V) (vcpu : VcpuId) : Exec VcpuError OtherRegisters :=
  HasVcpus.otherRegisters (AssumeX86_64.mk vcpus) vcpu

/-- `X86_64::register_by_name` -/
def registerByName (vcpus : V) (vcpu : VcpuId) (name : String) : Exec VcpuError U64 := do
  let regs ← registers vcpus vcpu
  match name with
  | "rax" => return regs.rax
  | "rbx" => return regs.rbx
  | "rcx" => return regs.rcx
  | "rdx" => return regs.rdx
  | "rsi" => return regs.rsi
  | "rdi" => return regs.rdi
  | "rsp" => return regs.rsp
  | "rbp" => return regs.rbp
  | "r8" => return regs.r8
  | "r9" => return regs.r9
  | "r10" => return regs.r10
  | "r11" => return regs.r11
  | "r12" => return regs.r12
  | "r13" => return regs.r13
  | "r14" => return regs.r14
  | "r15" => return regs.r15
  | "rip" => return regs.rip
  | "rflags" => return regs.rflags
  | _ => Exec.fail .unknownRegister

/-- `X86_64::instruction_pointer` -/
def instructionPointer (vcpus : V) (vcpu : VcpuId) : Exec VcpuError VirtualAddress := do
  let regs ← registers vcpus vcpu
  return regs.rip

/-- `X86_64::stack_pointer` -/
def stackPointer (vcpus : V) (vcpu : VcpuId) : Exec VcpuError VirtualAddress := do
  let regs ← registers vcpus vcpu
  return regs.rsp

/-- `X86_64::base_pointer` -/
def basePointer (vcpus : V) (vcpu : VcpuId) : Exec VcpuError (Option VirtualAddress) := do
  let regs ← registers vcpus vcpu
  return some regs.rbp

/-- `X86_64::pgd` -/
def pgd (vcpus : V) (vcpu : VcpuId) : Exec VcpuError PhysicalAddress := do
  let regs ← specialRegisters vcpus vcpu
  return regs.cr3

/-- `X86_64::kernel_per_cpu` -/
def kernelPerCpu (vcpus : V) (vcpu : VcpuId) : Exec VcpuError (Option VirtualAddress) := do
  let regs ← specialRegisters vcpus vcpu
  if VirtualAddress.isKernel regs.gs.base then return some regs.gs.base
  else do
    let regs ← otherRegisters vcpus vcpu
    if VirtualAddress.isKernel regs.gsKernelBase then return some regs.gsKernelBase
    else return none

end X86_64

namespace Aarch64

/-- The registers of a guest of this architecture. -/
def registers (vcpus : V) (vcpu : VcpuId) : Exec VcpuError Registers :=
  HasVcpus.registers (AssumeAarch64.mk vcpus) vcpu

def specialRegisters (vcpus : V) (vcpu : VcpuId) : Exec VcpuError SpecialRegisters :=
  HasVcpus.specialRegisters (AssumeAarch64.mk vcpus) vcpu

/-- `Aarch64::register_by_name` -/
def registerByName (vcpus : V) (vcpu : VcpuId) (name : String) : Exec VcpuError U64 := do
  let regs ← registers vcpus vcpu
  let reg : Option U64 :=
    match name.toList with
    | 'x' :: n => do
      let n ← parseUsize n
      if n = 0 then some 0
      else if h : n - 1 < 31 then some (regs.regs ⟨n - 1, h⟩) else none
    | _ =>
      match name with
      | "pc" => some regs.pc
      | "sp" => some regs.sp
      | "pstate" => some regs.pstate
      | _ => none
  Exec.okOr reg .unknownRegister

/-- `Aarch64::instruction_pointer` -/
def instructionPointer (vcpus : V) (vcpu : VcpuId) : Exec VcpuError VirtualAddress := do
  let regs ← registers vcpus vcpu
  return regs.pc

/-- `Aarch64::stack_pointer` -/
def stackPointer (vcpus : V) (vcpu : VcpuId) : Exec VcpuError VirtualAddress := do
  let ip ← instructionPointer vcpus vcpu
  if VirtualAddress.isKernel ip then do
    let regs ← specialRegisters vcpus vcpu
    return regs.spEl1
  else do
    let regs ← registers vcpus vcpu
    return regs.sp

/-- `Aarch64::base_pointer` -/
def basePointer (vcpus : V) (vcpu : VcpuId) : Exec VcpuError (Option VirtualAddress) := do
  let regs ← registers vcpus vcpu
  return some (regs.regs 29)

/-- `Aarch64::pgd` -/
def pgd (vcpus : V) (vcpu : VcpuId) : Exec VcpuError PhysicalAddress := do
  let regs ← specialRegisters vcpus vcpu
  let ip ← instructionPointer vcpus vcpu
  let ttbr := if VirtualAddress.isKernel ip then regs.ttbr1El1 else regs.ttbr0El1
  return ttbr &&& mask addrBits

/-- `Aarch64::kernel_per_cpu` -/
def kernelPerCpu (_ : V) (_ : VcpuId) : Exec VcpuError (Option VirtualAddress) := return none

end Aarch64

/-! ## `HasVcpus` -/

/-- What the architecture of a guest says of it. -/
def HasVcpus.dispatch {α : Type} (vcpus : V) (x86_64 aarch64 : V → α) : α :=
  match Architecture.intoRuntime (HasVcpus.arch vcpus) with
  | .x86_64 => x86_64 vcpus
  | .aarch64 => aarch64 vcpus

/-- `HasVcpus::register_by_name` -/
def HasVcpus.defaultRegisterByName (vcpus : V) : VcpuId → String → Exec VcpuError U64 :=
  dispatch vcpus X86_64.registerByName Aarch64.registerByName

end Registers

/-- **The trait `HasVcpus`**, with the methods that have a default. -/
class HasVcpus.Methods (V : Type) extends HasVcpus V where
  iterVcpus : V → List VcpuId := HasVcpus.iterVcpus
  registerByName : V → VcpuId → String → Exec VcpuError U64 := HasVcpus.defaultRegisterByName
  instructionPointer : V → VcpuId → Exec VcpuError VirtualAddress :=
    fun vcpus => HasVcpus.dispatch vcpus X86_64.instructionPointer Aarch64.instructionPointer
  stackPointer : V → VcpuId → Exec VcpuError VirtualAddress :=
    fun vcpus => HasVcpus.dispatch vcpus X86_64.stackPointer Aarch64.stackPointer
  basePointer : V → VcpuId → Exec VcpuError (Option VirtualAddress) :=
    fun vcpus => HasVcpus.dispatch vcpus X86_64.basePointer Aarch64.basePointer
  pgd : V → VcpuId → Exec VcpuError PhysicalAddress :=
    fun vcpus => HasVcpus.dispatch vcpus X86_64.pgd Aarch64.pgd
  kernelPerCpu : V → VcpuId → Exec VcpuError (Option VirtualAddress) :=
    fun vcpus => HasVcpus.dispatch vcpus X86_64.kernelPerCpu Aarch64.kernelPerCpu

/-! ## The page directory of the kernel -/

section KernelPgd

variable {V M : Type} [HasVcpus.Methods V] [Memory M]

/-- `try_all_addresses` -/
def tryAllAddresses (test : PhysicalAddress → Exec VmError Bool) :
    Exec VmError (Option PhysicalAddress) :=
  (stepBy 0 (2 ^ 32 - 1) 0x1000).findSomeM? fun addr => do
    let addr : PhysicalAddress := BitVec.ofNat 64 addr
    if ← test addr then return some addr else return none

/-- `make_address_test`: whether an address is the one of a table that maps all
of some addresses to valid memory. -/
def makeAddressTest (vcpus : V) (memory : M) (usePerCpu : Bool) (additional : List VirtualAddress) :
    Exec VmError (PhysicalAddress → Exec VmError Bool) := do
  let perCpu ←
    if usePerCpu then
      (HasVcpus.Methods.iterVcpus vcpus).filterMapM fun vcpu =>
        match HasVcpus.Methods.kernelPerCpu vcpus vcpu with
        | .error (.err _) => return none
        | result => Exec.mapErr VmError.vcpu result
    else pure []
  let desc := (Architecture.intoRuntime (HasVcpus.arch vcpus)).mmuDesc
  return fun addr => (additional ++ perCpu).allM fun testAddr =>
    match virtualToPhysical desc memory addr testAddr with
    | .ok addr => Exec.mapErr VmError.memory (Memory.isValid memory addr 1)
    | .error (.err _) => return false
    | .error e => Exec.mapErr TranslationError.toVm (.error e)

/-- `X86_64::find_kernel_pgd` -/
def X86_64.findKernelPgd (memory : M) (vcpus : V) (usePerCpu : Bool)
    (additional : List VirtualAddress) : Exec VmError (Option PhysicalAddress) := do
  let lstar ←
    match X86_64.otherRegisters vcpus 0 with
    | .ok regs => pure [regs.lstar]
    | .error (.err _) => pure []
    | .error e => Exec.mapErr VmError.vcpu (.error e)
  let test ← makeAddressTest vcpus memory usePerCpu (additional ++ lstar)
  let found ← (HasVcpus.Methods.iterVcpus vcpus).findSomeM? fun vcpu => do
    let addr ← Exec.mapErr VmError.vcpu (HasVcpus.Methods.pgd vcpus vcpu)
    if ← test addr then return some addr else return none
  match found with
  | some addr => return some addr
  | none => tryAllAddresses test

/-- `Aarch64::find_kernel_pgd` -/
def Aarch64.findKernelPgd (memory : M) (vcpus : V) (usePerCpu : Bool)
    (additional : List VirtualAddress) : Exec VmError (Option PhysicalAddress) := do
  let running ← (HasVcpus.Methods.iterVcpus vcpus).findSomeM? fun vcpu => do
    let ip ← Exec.mapErr VmError.vcpu (HasVcpus.Methods.instructionPointer vcpus vcpu)
    if VirtualAddress.isKernel ip then do
      let pgd ← Exec.mapErr VmError.vcpu (HasVcpus.Methods.pgd vcpus vcpu)
      return some pgd
    else return none
  match running with
  | some pgd => return some pgd
  | none => do
    let test ← makeAddressTest vcpus memory usePerCpu additional
    tryAllAddresses test

end KernelPgd

/-! ## `Backend` -/

section Backend

variable {B : Type} [Memory B] [HasVcpus B]

/-- `Backend::find_in_kernel_memory` -/
def Backend.defaultFindInKernelMemory (backend : B) (mmuAddr : PhysicalAddress)
    (needle : List UInt8) : Exec MemoryAccessError (Option VirtualAddress) :=
  let arch := Architecture.intoRuntime (HasVcpus.arch backend)
  findInKernelMemory arch.mmuDesc backend mmuAddr needle arch.kernelBase

/-- `Backend::iter_in_kernel_memory`, to its end. -/
def Backend.collectInKernelMemory (backend : B) (mmuAddr : PhysicalAddress) (needle : List UInt8)
    (fuel : ℕ) : Exec Empty (List (Except VmError VirtualAddress)) :=
  KernelSearchIterator.collect backend fuel
    (iterInKernelMemory (Architecture.intoRuntime (HasVcpus.arch backend)) mmuAddr needle)

end Backend
