import Vminer.Arch

/-!
# Dump files

A dump is a snapshot of a virtual machine: the registers of its virtual CPUs
and its physical memory, which is packed mapping after mapping into one flat
section and read back through `MemRemap`. `DumbDump::dump_vm` takes a
snapshot of a backend, `DumbDump::write` stores a dump in a file – a header,
the table of mappings, the register files and the memory section – and
`DumbDump::read` opens such a file.

The place of a mapping in the packed section is the sum of the sizes of the
mappings before it. The source computes these sums twice and differently:
as unsigned addresses to which signed differences are added (`remapTable`)
and as a signed total (`memSize`).
-/

/-- The contents of a file. Positions in it are 64-bit words. -/
structure FileBytes where
  bytes : List UInt8
  length_lt : bytes.length < 2 ^ 64

/-! ## The format -/

/-- `Header` -/
structure Header where
  magic : U32
  arch : U32
  nMappings : U32
  nVcpus : U32
deriving DecidableEq, Repr

def Header.layout : Layout Header :=
  (Layout.array Layout.u32 4).via
    (fun h => ![h.magic, h.arch, h.nMappings, h.nVcpus])
    (fun f => ⟨f 0, f 1, f 2, f 3⟩) (fun _ => rfl)

/-- `MAGIC`: the bytes `\xaabox`. -/
def magic : U32 := leWord 32 [0xaa, 0x62, 0x6f, 0x78]

/-- `Vcpus` -/
inductive Vcpus where
  | x86_64 (vcpus : List X86_64.Vcpu)
  | aarch64 (vcpus : List Aarch64.Vcpu)
deriving DecidableEq, Repr

namespace Vcpus

/-- The number of virtual CPUs. -/
def count : Vcpus → ℕ
  | x86_64 vcpus => vcpus.length
  | aarch64 vcpus => vcpus.length

/-- The architecture of the virtual CPUs. -/
def arch : Vcpus → RuntimeArchitecture
  | x86_64 _ => .x86_64
  | aarch64 _ => .aarch64

/-- The code of the architecture in the header. -/
def archCode : Vcpus → U32
  | x86_64 _ => 0
  | aarch64 _ => 1

/-- The bytes of the register files. -/
def enc : Vcpus → List UInt8
  | x86_64 vcpus => X86_64.Vcpu.layout.encList vcpus
  | aarch64 vcpus => Aarch64.Vcpu.layout.encList vcpus

/-- The `match` on the architecture of `DumbDump::read`, with
`Vcpus::read_x86_64` and `Vcpus::read_aarch64`. -/
def read (arch nVcpus : U32) (bytes : List UInt8) :
    Exec VmError (Vcpus × List UInt8) :=
  if arch = 0 then do
    let (vcpus, rest) ← Exec.okOr
      (X86_64.Vcpu.layout.readMany nVcpus.toNat bytes) (.io .unexpectedEof)
    return (x86_64 vcpus, rest)
  else if arch = 1 then do
    let (vcpus, rest) ← Exec.okOr
      (Aarch64.Vcpu.layout.readMany nVcpus.toNat bytes) (.io .unexpectedEof)
    return (aarch64 vcpus, rest)
  else Exec.fail (VmError.new "unsupported architecture")

end Vcpus

/-! ## The packed section -/

/-- The signed size of a mapping, `mapping.end - mapping.start`. -/
def MemoryMap.diff (mapping : MemoryMap) : U64 := mapping.stop - mapping.start

/-- The fold that computes `remap_at`: for each mapping the sum of the sizes
of the mappings before it, and the sum of all of them at the end. -/
def remapTable {ε : Type} :
    PhysicalAddress → List MemoryMap → Exec ε (List PhysicalAddress × PhysicalAddress)
  | remapAddr, [] => return ([], remapAddr)
  | remapAddr, mapping :: rest => do
    let next ← checkedAddSigned remapAddr mapping.diff
    let (remapAt, total) ← remapTable next rest
    return (remapAddr :: remapAt, total)

/-- The fold that computes `mem_size`, over `i64`. -/
def memSize {ε : Type} : U64 → List MemoryMap → Exec ε U64
  | sum, [] => return sum
  | sum, mapping :: rest => do
    let sum ← checkedAddInt sum mapping.diff
    memSize sum rest

/-! ## Dumps -/

/-- `DumbDump` -/
structure DumbDump (M : Type) where
  vcpus : Vcpus
  mem : MemRemap M
deriving DecidableEq

namespace DumbDump

variable {M : Type}

/-- `DumbDump::read` -/
def read (file : FileBytes) : Exec VmError (DumbDump File) := do
  let (header, rest) ← Exec.okOr (Header.layout.read file.bytes) (.io .unexpectedEof)
  if header.magic ≠ magic then Exec.fail (VmError.new "invalid file magic")
  else do
    let (mappings, rest) ← Exec.okOr
      (MemoryMap.layout.readMany header.nMappings.toNat rest) (.io .unexpectedEof)
    let (remapAt, _) ← remapTable 0 mappings
    let (vcpus, rest) ← Vcpus.read header.arch header.nVcpus rest
    let start := BitVec.ofNat 64 (file.bytes.length - rest.length)
    let stop := BitVec.ofNat 64 file.bytes.length
    let size ← memSize 0 mappings
    let len ← checkedSub stop start
    if len ≠ size then Exec.fail (VmError.new "invalid file size")
    else do
      let inner ← File.new file.bytes start stop
      return ⟨vcpus, ⟨mappings, remapAt, inner⟩⟩

/-- `DumbDump::write`: what is written to the file. -/
def write [Memory M] (dump : DumbDump M) : Exec IoError (List UInt8) := do
  let mappings := dump.mem.mappings
  let header : Header := {
    magic := magic
    arch := dump.vcpus.archCode
    nMappings := BitVec.ofNat 32 mappings.length
    nVcpus := BitVec.ofNat 32 dump.vcpus.count }
  let memory ← Memory.dump dump.mem
  return Header.layout.enc header ++ MemoryMap.layout.encList mappings
    ++ dump.vcpus.enc ++ memory

/-- The loop of `DumbDump::dump_vm` that reads each mapping into its slice of
the buffer. -/
def readMappings [Memory M] (backend : M) :
    List MemoryMap → List UInt8 → U64 → Exec VmError (List UInt8)
  | [], mem, _ => return mem
  | mapping :: rest, mem, offset => do
    let next ← checkedAdd offset mapping.diff
    if offset ≤ next ∧ next.toNat ≤ mem.length then do
      let bytes ← Exec.mapErr VmError.memory (Memory.readPhysical backend
        mapping.start (next.toNat - offset.toNat))
      readMappings backend rest
        (mem.take offset.toNat ++ bytes ++ mem.drop next.toNat) next
    else Exec.panicked

/-- The virtual CPUs of an `x86_64` backend. -/
def x86Vcpus [HasVcpus M] (backend : M) : Exec VcpuError (List X86_64.Vcpu) :=
  (HasVcpus.iterVcpus (AssumeX86_64.mk backend)).mapM fun vcpu => do
    let registers ← HasVcpus.registers (AssumeX86_64.mk backend) vcpu
    let specialRegisters ← HasVcpus.specialRegisters (AssumeX86_64.mk backend) vcpu
    let otherRegisters ← HasVcpus.otherRegisters (AssumeX86_64.mk backend) vcpu
    return ⟨registers, specialRegisters, otherRegisters⟩

/-- The virtual CPUs of an `aarch64` backend. -/
def aarch64Vcpus [HasVcpus M] (backend : M) : Exec VcpuError (List Aarch64.Vcpu) :=
  (HasVcpus.iterVcpus (AssumeAarch64.mk backend)).mapM fun vcpu => do
    let registers ← HasVcpus.registers (AssumeAarch64.mk backend) vcpu
    let specialRegisters ← HasVcpus.specialRegisters (AssumeAarch64.mk backend) vcpu
    let otherRegisters ← HasVcpus.otherRegisters (AssumeAarch64.mk backend) vcpu
    return ⟨registers, specialRegisters, otherRegisters⟩

/-- `DumbDump::dump_vm`. A buffer of `2 ^ 63` bytes or more is a capacity
overflow. -/
def dumpVm [Memory M] [HasVcpus M] (backend : M) :
    Exec VmError (DumbDump RawMemory) := do
  let mappings := Memory.memoryMappings backend
  let (remapAt, remapAddr) ← remapTable 0 mappings
  if remapAddr.toNat < 2 ^ 63 then do
    let mem ← readMappings backend mappings (List.replicate remapAddr.toNat 0) 0
    let vcpus ← match Architecture.intoRuntime (HasVcpus.arch backend) with
      | .x86_64 => do
        let vcpus ← Exec.mapErr VmError.vcpu (x86Vcpus backend)
        pure (Vcpus.x86_64 vcpus)
      | .aarch64 => do
        let vcpus ← Exec.mapErr VmError.vcpu (aarch64Vcpus backend)
        pure (Vcpus.aarch64 vcpus)
    return ⟨vcpus, ⟨mappings, remapAt, RawMemory.new mem⟩⟩
  else Exec.panicked

instance [Memory M] : Memory (DumbDump M) where
  memoryMappings dump := Memory.memoryMappings dump.mem
  readPhysical dump := Memory.readPhysical dump.mem
  length_readPhysical := Memory.length_readPhysical
  isValid dump := Memory.isValid dump.mem
  search dump := Memory.search dump.mem

instance : HasVcpus (DumbDump M) where
  Arch := RuntimeArchitecture
  arch dump := dump.vcpus.arch
  vcpusCount dump := dump.vcpus.count
  registers dump vcpu :=
    match dump.vcpus with
    | .x86_64 vcpus => do
      let v ← Exec.okOr vcpus[vcpu]? .invalidId
      return Runtime.Registers.x86_64 v.registers
    | .aarch64 vcpus => do
      let v ← Exec.okOr vcpus[vcpu]? .invalidId
      return Runtime.Registers.aarch64 v.registers
  specialRegisters dump vcpu :=
    match dump.vcpus with
    | .x86_64 vcpus => do
      let v ← Exec.okOr vcpus[vcpu]? .invalidId
      return Runtime.SpecialRegisters.x86_64 v.specialRegisters
    | .aarch64 vcpus => do
      let v ← Exec.okOr vcpus[vcpu]? .invalidId
      return Runtime.SpecialRegisters.aarch64 v.specialRegisters
  otherRegisters dump vcpu :=
    match dump.vcpus with
    | .x86_64 vcpus => do
      let v ← Exec.okOr vcpus[vcpu]? .invalidId
      return Runtime.OtherRegisters.x86_64 v.otherRegisters
    | .aarch64 vcpus => do
      let v ← Exec.okOr vcpus[vcpu]? .invalidId
      return Runtime.OtherRegisters.aarch64 v.otherRegisters

/-- A guest without virtual CPUs whose memory is these words. -/
def ofWords (words : List U64) : DumbDump RawMemory where
  vcpus := .x86_64 []
  mem := ⟨[⟨0, BitVec.ofNat 64 (8 * words.length)⟩], [0],
    RawMemory.new (words.flatMap Layout.u64.enc)⟩

end DumbDump
