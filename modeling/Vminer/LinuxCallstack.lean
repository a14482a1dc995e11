import Vminer.CallstackFrames
import Vminer.LinuxModules
import Vminer.Search
import Vminer.TryRead

/-!
# The call stack of a Linux process

A round of the walk looks up the module of the instruction pointer and in it the
frame description entry (FDE) of the function there, and computes the registers of
the caller by the rules of the entry. Where the entries of a module are is not
known: its memory is searched for the header of the section that has them, once for
each module, with the instruction pointer that came to it first.

The DWARF format itself is left open (`Gimli`); the section that was found decides
what it is about.
-/

/-- `gimli::Pointer` -/
inductive Gimli.Pointer where
  | Direct (addr : U64)
  | Indirect (addr : U64)
deriving DecidableEq, Repr

/-- `gimli::Register` -/
abbrev Gimli.Register : Type := BitVec 16

/-- `gimli::CfaRule`, with its signed offset. -/
inductive Gimli.CfaRule where
  | RegisterAndOffset (register : Gimli.Register) (offset : U64)
  | Expression
deriving DecidableEq, Repr

/-- `gimli::RegisterRule`, with its signed offsets. The rules that the unwinder has no
case for are one. -/
inductive Gimli.RegisterRule where
  | Undefined
  | SameValue
  | Offset (offset : U64)
  | ValOffset (offset : U64)
  | Register (register : Gimli.Register)
  | Other
deriving DecidableEq, Repr

/-- `gimli::UnwindTableRow` -/
structure Gimli.UnwindTableRow where
  cfa : Gimli.CfaRule
  register : Gimli.Register → Gimli.RegisterRule

/-- `gimli::FrameDescriptionEntry`: the addresses it is about. -/
structure Gimli.Fde where
  initialAddress : U64
  len : U64
deriving DecidableEq, Repr

/-- `FrameDescriptionEntry::contains`, of its half-open range. -/
def Gimli.Fde.contains (fde : Gimli.Fde) (addr : VirtualAddress) : Bool :=
  fde.initialAddress ≤ addr && addr.toNat < fde.initialAddress.toNat + fde.len.toNat

/-- `UnwindData`: the memory of a module, and where in it the section is. -/
structure Linux.UnwindData where
  ehFrameHdr : U64
  ehFrameAddr : U64
  segment : List UInt8
  ehFrame : ℕ
deriving DecidableEq, Repr

/-- **The reader of DWARF sections.** Common entries are looked up again where the
unwinder keeps them. -/
structure Gimli where
  /-- `EhFrameHdr::parse` and `eh_frame_ptr`, of a header at an address. -/
  ehFramePtr : List UInt8 → U64 → Option Gimli.Pointer
  /-- `fde_for_address` -/
  fdeForAddress : Linux.UnwindData → VirtualAddress → Option Gimli.Fde
  /-- `unwind_info_for_address` -/
  unwindInfoForAddress : Linux.UnwindData → Gimli.Fde → VirtualAddress →
    Option Gimli.UnwindTableRow

/-- `DwarfRegisters` -/
structure DwarfRegisters where
  ip : Gimli.Register
  sp : Gimli.Register
  bp : Option Gimli.Register
deriving DecidableEq, Repr

/-- `dwarf_registers` -/
def dwarfRegisters : RuntimeArchitecture → DwarfRegisters
  | .x86_64 => { ip := 16, sp := 7, bp := some 6 }
  | .aarch64 => { ip := 30, sp := 31, bp := none }

/-! ## One step up the stack -/

section Step

/-- `get_base_pointer` -/
def getBasePointer (basePointer : Option VirtualAddress) : Exec VmError VirtualAddress :=
  Exec.okOr basePointer (.new "missing required register rpb")

/-- `unsupported_register` -/
def unsupportedRegister {α : Type} (register : Gimli.Register) (missing : String) :
    Exec VmError α :=
  Exec.fail (.new ("getting " ++ missing ++ " requires unsupported register "
    ++ .ofList (Nat.toDigits 10 register.toNat)))

variable (registers : DwarfRegisters) (frame : StackFrame) (basePointer : Option VirtualAddress)

/-- The value of a register, before the step. -/
def oldRegister (register : Gimli.Register) (missing : String) : Exec VmError VirtualAddress :=
  if register = registers.sp then .ok frame.stackPointer
  else if register = registers.ip then .ok frame.instructionPointer
  else if some register = registers.bp then getBasePointer basePointer
  else unsupportedRegister register missing

/-- The canonical frame address. -/
def canonicalFrameAddress : Gimli.CfaRule → Exec VmError VirtualAddress
  | .RegisterAndOffset register offset =>
    if register = registers.sp then checkedAddSigned frame.stackPointer offset
    else if some register = registers.bp then do
      let bp ← getBasePointer basePointer
      checkedAddSigned bp offset
    else unsupportedRegister register "CFA"
  | .Expression => Exec.fail (.new "unsupported DWARF expression")

variable (readValue : VirtualAddress → Exec VmError U64) (cfa : VirtualAddress)

/-- The base pointer of the caller, by its rule. -/
def callerBasePointer : Gimli.RegisterRule → Exec VmError (Option VirtualAddress)
  | .SameValue => do
    let bp ← getBasePointer basePointer
    return some bp
  | .Offset offset => do
    let addr ← checkedAddSigned cfa offset
    let value ← readValue addr
    return some value
  | .ValOffset offset => do
    let addr ← checkedAddSigned cfa offset
    return some addr
  | .Register register => do
    let value ← oldRegister registers frame basePointer register "base pointer"
    return some value
  | _ => return none

/-- The instruction pointer of the caller, by its rule, if there is a caller. -/
def callerInstructionPointer : Gimli.RegisterRule → Exec VmError (Option VirtualAddress)
  | .Undefined => return none
  | .SameValue => return some frame.instructionPointer
  | .Offset offset => do
    let addr ← checkedAddSigned cfa offset
    let value ← readValue addr
    return some value
  | .ValOffset offset => do
    let addr ← checkedAddSigned cfa offset
    return some addr
  | .Register register => do
    let value ← oldRegister registers frame basePointer register "instruction pointer"
    return some value
  | .Other => Exec.fail (.new "cannot retrieve instruction pointer")

end Step

/-! ## Unwind data of a module -/

/-- `vmc::try_read_virtual_memory`, with the error of the guest system. -/
def tryReadPages (read : VirtualAddress → ℕ → Exec TranslationError (List UInt8)) : TryRead :=
  fun addr buf =>
    match tryReadVirtualMemory addr buf (fill read) with
    | (.ok (), buf) => .ok buf
    | (.error e, _) => Exec.mapErr VmError.memory (.error e)

namespace Linux

variable {B : Type} [Memory B] [HasVcpus B] {σ : Type}

/-- `Linux::try_read_virtual_memory` -/
def tryReadVirtualMemory (linux : Linux B) (mmuAddr : PhysicalAddress) : TryRead :=
  tryReadPages (Backend.readVirtualMemory linux.backend mmuAddr)

/-- `Context::read_value` -/
def readValue (linux : Linux B) (ctx : Context) {α : Type} (L : Layout α)
    (addr : VirtualAddress) : Exec VmError α :=
  Pointer.read (linux.readVirtualMemory ctx.pgd) L addr

/-- Where the section is that a header points to. One that cannot be read is passed
over. -/
def ehFrameAddr (linux : Linux B) (ctx : Context) :
    Gimli.Pointer → Exec VmError (Option VirtualAddress)
  | .Direct addr => return some addr
  | .Indirect addr =>
    match linux.readValue ctx Layout.u64 addr with
    | .ok addr => .ok (some addr)
    | .error (.err _) => .ok none
    | .error stop => .error stop

/-- The loop of `discover_sections`, over the places where a header may be. -/
def discoverFrom (linux : Linux B) (gimli : Gimli) (ctx : Context) (module : Callstack.Module)
    (ip : VirtualAddress) (vmaData : List UInt8) : List ℕ → Exec VmError UnwindData
  | [] => Exec.fail (.new "Unable to find .eh_frame section")
  | i :: is => do
    let ehFrameHdr ← checkedAddNat module.start i
    match gimli.ehFramePtr (vmaData.drop i) ehFrameHdr with
    | none => discoverFrom linux gimli ctx module ip vmaData is
    | some ptr => do
      match ← linux.ehFrameAddr ctx ptr with
      | none => discoverFrom linux gimli ctx module ip vmaData is
      | some ehFrameAddr =>
        if ¬ module.contains ehFrameAddr then
          discoverFrom linux gimli ctx module ip vmaData is
        else
          let data : UnwindData :=
            { ehFrameHdr, ehFrameAddr, segment := vmaData
              ehFrame := (ehFrameAddr - module.start).toNat }
          if (gimli.fdeForAddress data ip).isNone then
            discoverFrom linux gimli ctx module ip vmaData is
          else return data

/-- `Context::discover_sections`, with nothing logged. -/
def discoverSections (linux : Linux B) (gimli : Gimli) (ctx : Context)
    (module : Callstack.Module) (ip : VirtualAddress) : Exec VmError UnwindData := do
  let vmaData ← Callstack.zeroes (module.stop - module.start).toNat
  let vmaData ← linux.tryReadVirtualMemory ctx.pgd module.start vmaData
  linux.discoverFrom gimli ctx module ip vmaData (findIter [1] 0 0 vmaData)

/-- The state of a walk. -/
abbrev WalkState : Type := Callstack.State Os.Module UnwindData

/-- `Context::get_unwind_data` -/
def getUnwindData (linux : Linux B) (gimli : Gimli) (ctx : Context)
    (cache : OnceMap Os.Module UnwindData) (module : Callstack.Module) (ip : VirtualAddress) :
    Exec VmError UnwindData × OnceMap Os.Module UnwindData :=
  if ctx.modules.any fun m => m.module = module.module then
    cache.tryInsert module.module fun _ => linux.discoverSections gimli ctx module ip
  else (Exec.fail (.new "unknown file"), cache)

/-! ## The walk -/

/-- `Linux::vma_flags` -/
def vmaFlags (linux : Linux B) (vma : Os.Vma) : Exec VmError U64 :=
  linux.readField Layout.u64 vma.addr (vmAreaStruct "vm_flags")

/-- `VmaFlags::is_exec` -/
def isExec (flags : U64) : Bool := flags &&& 0x4 != 0

/-- `Os::process_find_vma_by_address` -/
def processFindVmaByAddress (linux : Linux B) (fuel : ℕ) (proc : Os.Process) :
    VirtualAddress → Exec VmError (Option Os.Vma) :=
  Os.processFindVmaByAddress (linux.processForEachVma fuel proc)
    (Os.vmaContains linux.vmaStart linux.vmaEnd)

/-- A check of `handle_invalid_address`. An error is logged. -/
def orInvalid : Exec VmError Bool → Exec VmError Bool
  | .error (.err _) => .ok false
  | result => result

/-- `Linux::handle_invalid_address`: one more frame, if this is the kernel or may be
generated code, and an error after it. -/
def handleInvalidAddress (linux : Linux B) (fuel : ℕ) (proc : Os.Process) (frame : StackFrame) :
    Exec VmError (Round WalkState StackFrame) :=
  if VirtualAddress.isKernel frame.instructionPointer then
    return { item := frame, next := Exec.fail (.ofStr "kernel unwinding is not supported") }
  else do
    let spIsValid ← orInvalid do
      let vma ← linux.processFindVmaByAddress fuel proc frame.stackPointer
      return vma.isSome
    let ipIsValid ← orInvalid do
      match ← linux.processFindVmaByAddress fuel proc frame.instructionPointer with
      | some vma => do
        let flags ← linux.vmaFlags vma
        return isExec flags
      | none => return false
    if spIsValid && ipIsValid then
      return { item := { frame with start := none, size := none, module := none }
               next := Exec.fail (.ofStr "unwinding through JIT is unsupported") }
    else
      Exec.fail (.context
        ("invalid instruction pointer: 0x"
          ++ .ofList (Nat.toDigits 16 frame.instructionPointer.toNat))
        (some (.new "this is probably a bug")))

/-- The state of the next round, by the row of the table that is about this
instruction pointer. -/
def nextState (linux : Linux B) (ctx : Context) (frame : StackFrame)
    (basePointer : Option VirtualAddress) (cache : OnceMap Os.Module UnwindData)
    (row : Gimli.UnwindTableRow) : Exec VmError (Option WalkState) := do
  let registers := dwarfRegisters (Architecture.intoRuntime (HasVcpus.arch linux.backend))
  let readValue := linux.readValue ctx Layout.u64
  let cfa ← canonicalFrameAddress registers frame basePointer row.cfa
  let nextBp ←
    match registers.bp with
    | none => pure none
    | some bp =>
      callerBasePointer registers frame basePointer readValue cfa (row.register bp)
  match ← callerInstructionPointer registers frame basePointer readValue cfa
      (row.register registers.ip) with
  | none => return none
  | some instructionPointer =>
    return some { frame := { frame with instructionPointer, stackPointer := cfa }
                  basePointer := nextBp, cache }

/-- One round of the loop of `iter`. -/
def callstackRound (linux : Linux B) (gimli : Gimli) (fuel : ℕ) (ctx : Context)
    (st : WalkState) : Exec VmError (Round WalkState StackFrame) :=
  match ctx.findModuleByAddress st.frame.instructionPointer with
  | none => linux.handleInvalidAddress fuel ctx.proc st.frame
  | some module => do
    let frame := { st.frame with module := some module.module }
    let ip := frame.instructionPointer
    let (data, cache) := linux.getUnwindData gimli ctx st.cache module ip
    let data ← data
    match gimli.fdeForAddress data ip with
    | none => return { item := { frame with start := none, size := none }, next := return none }
    | some fde =>
      let frame := { frame with start := some fde.initialAddress, size := some fde.len }
      return { item := frame
               next := match gimli.unwindInfoForAddress data fde ip with
                 | none => Exec.panicked
                 | some row => linux.nextState ctx frame st.basePointer cache row }

/-- `iter` -/
def iterCallstack (linux : Linux B) (gimli : Gimli) (fuel : ℕ) (proc : Os.Process)
    (instructionPointer stackPointer : VirtualAddress) (basePointer : Option VirtualAddress)
    (f : Callback σ StackFrame) (s : σ) (steps : ℕ) : Exec VmError σ := do
  let ctx ← Context.new linux fuel proc
  walkRounds (linux.callstackRound gimli fuel ctx) f steps
    (.init _ _ instructionPointer stackPointer basePointer) s

end Linux
