import Vminer.BackendDefaults
import Vminer.KernelPgd
import Vminer.DumpFormat
import Vminer.RemoteAttach

/-!
# The backend of a running guest

`Kvm` is the backend of a running guest: the memory of the process that runs it, laid
out at the physical addresses of the guest, and the registers of its virtual CPUs. It
overrides none of the methods that have a default. The program `kvm_dump_live` takes a
dump of it and writes it to a file.

The memory of the process is as it is at one moment: it is taken not to change while it
is read.
-/

open Remote (Mem bytesOf window)

/-! ## The memory of a process -/

/-- `File` on `/proc/{pid}/mem`. -/
structure ProcessFile where
  mem : Mem
  start : U64
  mapping : MemoryMap

namespace ProcessFile

/-- `File::new` -/
def new {ε : Type} (mem : Mem) (start stop : U64) : Exec ε ProcessFile := do
  let size ← checkedSub stop start
  return ⟨mem, start, ⟨0, size⟩⟩

/-- `File::size` -/
def size (m : ProcessFile) : U64 := m.mapping.stop

/-- `File::read_physical` -/
def readPhysical (m : ProcessFile) (addr : PhysicalAddress) (len : ℕ) :
    Exec MemoryAccessError (List UInt8) := do
  let valid ← defaultIsValid [m.mapping] addr len
  if valid then
    let offset ← checkedAdd m.start addr
    Exec.mapErr MemoryAccessError.io (Exec.okOr (bytesOf m.mem offset len) (.os 5))
  else Exec.fail .outOfBounds

theorem length_of_readPhysical {m : ProcessFile} {addr : PhysicalAddress} {len : ℕ}
    {bs : List UInt8} (h : m.readPhysical addr len = .ok bs) : bs.length = len := by
  unfold readPhysical at h
  obtain ⟨valid, -, h⟩ := (Exec.bind_eq_ok_iff _ _ _).mp h
  cases valid with
  | false => exact absurd h (by simp [Exec.fail])
  | true =>
    obtain ⟨offset, -, h⟩ := (Exec.bind_eq_ok_iff _ _ _).mp h
    have hbytes := (Exec.okOr_eq_ok_iff _ _ _).mp ((Exec.mapErr_eq_ok_iff _ _ _).mp h)
    exact (Remote.isSome_of_bytesOf hbytes).1

instance : Memory ProcessFile where
  memoryMappings m := [m.mapping]
  readPhysical := readPhysical
  length_readPhysical := length_of_readPhysical

/-- Bytes that are all mapped can be read. -/
theorem exists_bytesOf {mem : Mem} {addr : U64} {n : ℕ}
    (h : ∀ a ∈ window addr n, (mem a).isSome) : ∃ bytes, bytesOf mem addr n = some bytes := by
  induction n generalizing addr with
  | zero => exact ⟨[], rfl⟩
  | succ n ih =>
    rw [Remote.window_succ, Set.forall_mem_insert] at h
    obtain ⟨b, hb⟩ := Option.isSome_iff_exists.mp h.1
    obtain ⟨bytes, hbytes⟩ := ih h.2
    exact ⟨b :: bytes, (Remote.bytesOf_succ_eq_some_iff _ _ _ _).mpr ⟨b, bytes, hb, hbytes, rfl⟩⟩

/-- A part of what is read. -/
theorem bytesOf_part {mem : Mem} {addr : U64} {bytes : List UInt8}
    (h : bytesOf mem addr bytes.length = some bytes) {p n : ℕ} (hle : p + n ≤ bytes.length) :
    bytesOf mem (addr + BitVec.ofNat 64 p) n = some ((bytes.drop p).take n) := by
  have hp : (bytes.take p).length = p := by
    rw [List.length_take]
    omega
  have hn : ((bytes.drop p).take n).length = n := by
    rw [List.length_take, List.length_drop]
    omega
  rw [← List.take_append_drop p bytes] at h
  have hdrop := (Remote.bytesOf_append h).2
  rw [hp, ← List.take_append_drop n (bytes.drop p)] at hdrop
  have htake := (Remote.bytesOf_append hdrop).1
  rwa [hn] at htake

/-- **What is read of the memory of a process**: bytes at their place in the range. -/
theorem readPhysical_eq_ok_iff {m : ProcessFile} (hstart : m.mapping.start = 0)
    (hlt : m.start.toNat + m.size.toNat < 2 ^ 64) (p : PhysicalAddress) (n : ℕ)
    (bs : List UInt8) :
    Memory.readPhysical m p n = .ok bs
      ↔ p.toNat + n ≤ m.size.toNat ∧ bytesOf m.mem (m.start + p) n = some bs := by
  have hholds : (∃ mapping ∈ [m.mapping], mapping.Holds p n) ↔ p.toNat + n ≤ m.size.toNat := by
    simp only [List.mem_singleton, exists_eq_left, MemoryMap.Holds, hstart]
    exact and_iff_right (BitVec.le_def.mpr (Nat.zero_le _))
  show ProcessFile.readPhysical m p n = .ok bs ↔ _
  unfold ProcessFile.readPhysical
  rw [← hholds, ← defaultIsValid_eq_true_iff, Exec.bind_eq_ok_iff]
  constructor
  · rintro ⟨valid, hvalid, h⟩
    cases valid with
    | false => exact absurd h (by simp [Exec.fail])
    | true =>
      obtain ⟨offset, hoffset, h⟩ := (Exec.bind_eq_ok_iff _ _ _).mp h
      obtain ⟨-, rfl⟩ := (checkedAdd_eq_ok_iff _ _ _).mp hoffset
      exact ⟨hvalid, (Exec.okOr_eq_ok_iff _ _ _).mp ((Exec.mapErr_eq_ok_iff _ _ _).mp h)⟩
  · rintro ⟨hvalid, hbytes⟩
    have hle := hholds.mp ((defaultIsValid_eq_true_iff _ _ _).mp hvalid)
    refine ⟨true, hvalid, ?_⟩
    rw [if_pos rfl, checkedAdd_eq_ok (by omega), Exec.ok_bind, hbytes]
    rfl

end ProcessFile

/-! ## The backend -/

/-- The architecture that a register file is of. -/
def Runtime.Registers.architecture : Runtime.Registers → RuntimeArchitecture
  | .x86_64 _ => .x86_64
  | .aarch64 _ => .aarch64

def Runtime.SpecialRegisters.architecture : Runtime.SpecialRegisters → RuntimeArchitecture
  | .x86_64 _ => .x86_64
  | .aarch64 _ => .aarch64

def Runtime.OtherRegisters.architecture : Runtime.OtherRegisters → RuntimeArchitecture
  | .x86_64 _ => .x86_64
  | .aarch64 _ => .aarch64

/-- **What the program is built for**, the module `arch`: its architecture, and the
registers in an `arch::Vcpu`. -/
class KvmArch (V : Type) where
  Arch : Type
  [archInst : Architecture Arch]
  arch : Arch
  registers : V → Architecture.Registers Arch
  specialRegisters : V → Architecture.SpecialRegisters Arch
  otherRegisters : V → Architecture.OtherRegisters Arch
  registers_arch : ∀ v,
    (Architecture.registersInto (registers v)).architecture = Architecture.intoRuntime arch
  specialRegisters_arch : ∀ v,
    (Architecture.specialRegistersInto (specialRegisters v)).architecture
      = Architecture.intoRuntime arch
  otherRegisters_arch : ∀ v,
    (Architecture.otherRegistersInto (otherRegisters v)).architecture
      = Architecture.intoRuntime arch

namespace KvmArch

instance {V : Type} [KvmArch V] : Architecture (Arch V) := archInst

instance : KvmArch X86_64.Vcpu where
  Arch := X86_64
  arch := {}
  registers v := v.registers
  specialRegisters v := v.specialRegisters
  otherRegisters v := v.otherRegisters
  registers_arch _ := rfl
  specialRegisters_arch _ := rfl
  otherRegisters_arch _ := rfl

instance : KvmArch Aarch64.Vcpu where
  Arch := Aarch64
  arch := {}
  registers v := v.registers
  specialRegisters v := v.specialRegisters
  otherRegisters v := v.otherRegisters
  registers_arch _ := rfl
  specialRegisters_arch _ := rfl
  otherRegisters_arch _ := rfl

end KvmArch

/-- `Kvm` -/
structure Kvm (V : Type) where
  mem : MemRemap ProcessFile
  vcpus : List V

/-- **What is found of the process of a guest**: its file of mappings, its memory if it
can be opened, and what `get_regs` returns. -/
structure Hypervisor (V : Type) where
  maps : Except IoError (List UInt8)
  openMem : Except IoError Unit
  mem : Mem
  getRegs : Exec VmError (List V)

namespace Kvm

variable {V : Type}

/-- `Kvm::find_memory`, which opens the range that it finds. -/
def openMemory (hypervisor : Hypervisor V) : Exec VmError ProcessFile := do
  let (start, stop) ← findMemory hypervisor.maps
  Remote.ofIo hypervisor.openMem
  ProcessFile.new hypervisor.mem start stop

/-- `Kvm::create` -/
def create (hypervisor : Hypervisor V)
    (makeMappings : U64 → Exec VmError (List MemoryMap × List PhysicalAddress)) :
    Exec VmError (Kvm V) := do
  let mem ← openMemory hypervisor
  let vcpus ← hypervisor.getRegs
  let (mappings, remapAt) ← makeMappings mem.size
  return ⟨⟨mappings, remapAt, mem⟩, vcpus⟩

/-- `Kvm::connect` -/
def connect (hypervisor : Hypervisor V) : Exec VmError (Kvm V) :=
  create hypervisor fun size => return ([⟨0, size⟩], [0])

/-- `n << 30` -/
def gib (n : ℕ) : U64 := BitVec.ofNat 64 (n <<< 30)

/-- `default_qemu_mappings` -/
def defaultQemuMappings (targetArch : RuntimeArchitecture) (size : U64) :
    Exec VmError (List MemoryMap × List PhysicalAddress) :=
  match targetArch with
  | .x86_64 =>
    if size ≤ gib 2 then return ([⟨0, size⟩], [0])
    else do
      let stop ← checkedAdd size (gib 2)
      return ([⟨0, gib 2⟩, ⟨gib 4, stop⟩], [0, gib 2])
  | .aarch64 => do
    let stop ← checkedAdd size (gib 1)
    return ([⟨gib 1, stop⟩], [0])

/-- `Kvm::with_default_qemu_mappings` -/
def withDefaultQemuMappings [KvmArch V] (hypervisor : Hypervisor V) : Exec VmError (Kvm V) :=
  create hypervisor
    (defaultQemuMappings (Architecture.intoRuntime (KvmArch.arch : KvmArch.Arch V)))

/-- `Kvm::with_memory_mappings` -/
def withMemoryMappings (hypervisor : Hypervisor V) (mappings : List MemoryMap)
    (remapAt : List PhysicalAddress) : Exec VmError (Kvm V) :=
  create hypervisor fun _ => return (mappings, remapAt)

instance : Memory (Kvm V) where
  memoryMappings kvm := Memory.memoryMappings kvm.mem
  readPhysical kvm := Memory.readPhysical kvm.mem
  length_readPhysical := Memory.length_readPhysical

variable [KvmArch V]

instance : HasVcpus.Methods (Kvm V) where
  Arch := KvmArch.Arch V
  arch _ := KvmArch.arch
  vcpusCount kvm := kvm.vcpus.length
  registers kvm vcpu := do
    let v ← Exec.okOr kvm.vcpus[vcpu]? .invalidId
    return KvmArch.registers v
  specialRegisters kvm vcpu := do
    let v ← Exec.okOr kvm.vcpus[vcpu]? .invalidId
    return KvmArch.specialRegisters v
  otherRegisters kvm vcpu := do
    let v ← Exec.okOr kvm.vcpus[vcpu]? .invalidId
    return KvmArch.otherRegisters v

instance : Backend.Methods (Kvm V) where
  findKernelPgd := Backend.defaultFindKernelPgd

theorem byDefault (kvm : Kvm V) : Backend.ByDefault kvm where
  isValid := rfl
  search := rfl
  dump := rfl
  iterVcpus := rfl
  registerByName := rfl
  instructionPointer := rfl
  stackPointer := rfl
  basePointer := rfl
  pgd := rfl
  kernelPerCpu := rfl
  readVirtualMemory := rfl
  readValueVirtual _ _ _ := rfl
  virtualToPhysical := rfl
  findKernelPgd := rfl
  findInKernelMemory := rfl

end Kvm

namespace DumbDump

variable {M : Type} [Memory M]

instance : Backend.Methods (DumbDump M) where
  findKernelPgd := Backend.defaultFindKernelPgd

theorem byDefault (dump : DumbDump M) : Backend.ByDefault dump where
  isValid := rfl
  search := rfl
  dump := rfl
  iterVcpus := rfl
  registerByName := rfl
  instructionPointer := rfl
  stackPointer := rfl
  basePointer := rfl
  pgd := rfl
  kernelPerCpu := rfl
  readVirtualMemory := rfl
  readValueVirtual _ _ _ := rfl
  virtualToPhysical := rfl
  findKernelPgd := rfl
  findInKernelMemory := rfl

end DumbDump

/-! ## `kvm_dump_live` -/

/-- An error of `main`, a `Box<dyn std::error::Error>`. -/
inductive MainError where
  | vm (e : VmError)
  | io (e : IoError)

/-- `main` of `kvm_dump_live`: what is written to the file. -/
def dumpLive {V : Type} [KvmArch V] (hypervisor : Hypervisor V) : Exec MainError (List UInt8) := do
  let vm ← Exec.mapErr MainError.vm (Kvm.withDefaultQemuMappings hypervisor)
  let dump ← Exec.mapErr MainError.vm (DumbDump.dumpVm vm)
  Exec.mapErr MainError.io (DumbDump.write dump)
