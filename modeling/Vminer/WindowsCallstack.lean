import Vminer.CallstackFrames
import Vminer.UnwindParents
import Vminer.WindowsSymbols

/-!
# The call stack of a Windows process

A round of the walk looks up the module of the instruction pointer, whose unwind
data is read from its image once, and undoes one function: by its epilog, by its
prolog, or not at all if it is a leaf. An instruction pointer outside all modules
ends the walk, with one more frame if it may be in generated code.

How an image is parsed is left open (`PeParser`).
-/

/-- `object::read::pe::PeFile64`, of which the unwinder uses the data directories:
where one is and its size. -/
structure PeFile where
  dataDirectory : ℕ → Option (U32 × U32)

/-- `PeFile64::parse` -/
abbrev PeParser : Type := List UInt8 → Exec VmError PeFile

/-- `IMAGE_DIRECTORY_ENTRY_EXCEPTION` -/
def imageDirectoryEntryException : ℕ := 3

/-- The body of `unwind_function`, with the unwind data of the module. -/
def UnwindData.unwindFunction (data : UnwindData) (steps : ℕ) (frame : StackFrame)
    (basePointer : Option VirtualAddress) : Exec VmError UnwindResult := do
  match ← readEpilog data steps frame with
  | some result => return result
  | none => do
    match ← data.findByOffset (data.offsetOf frame.instructionPointer) with
    | some function => unwindWithInfos data steps function frame basePointer
    | none => do
      -- this is a leaf function
      let nextSp ← checkedAdd frame.stackPointer 8
      return { nextSp := .Value nextSp, nextIpAddr := frame.stackPointer, nextBpAddr := none,
               funStart := none }

namespace Windows

variable {B : Type} [Memory B] [HasVcpus B] {σ : Type}

/-- `Context` -/
structure Context where
  proc : Os.Process
  pgd : PhysicalAddress
deriving DecidableEq, Repr

/-- `Context::new` -/
def Context.new (windows : Windows B) (proc : Os.Process) : Exec VmError Context := do
  let pgd ← windows.processPgd proc
  return { proc, pgd }

/-- `Context::pgd_for` -/
def pgdFor (windows : Windows B) (ctx : Context) (addr : VirtualAddress) : PhysicalAddress :=
  if VirtualAddress.isKernel addr then windows.kpgd else ctx.pgd

/-- `Context::read_value` -/
def readValue (windows : Windows B) (fuel : ℕ) (ctx : Context) {α : Type} (L : Layout α)
    (addr : VirtualAddress) : Exec VmError α :=
  Pointer.read (windows.readProcessMemory fuel ctx.proc (windows.pgdFor ctx addr)) L addr

/-- `Context::init_unwind_data` -/
def initUnwindData (windows : Windows B) (parsePe : PeParser) (fuel : ℕ) (ctx : Context)
    (module : Callstack.Module) : Exec VmError UnwindData := do
  let content ← Callstack.zeroes (module.stop - module.start).toNat
  let pgd := windows.pgdFor ctx module.start
  let content ← windows.tryReadProcessMemory fuel ctx.proc pgd module.start content
  let pe ← withContext "failed to parse PE" (parsePe content)
  let (start, size) ← Exec.okOr (pe.dataDirectory imageDirectoryEntryException)
    (.new "failed to get debug directory")
  let directoryStart := start.toNat
  let directoryEnd := directoryStart + size.toNat
  if content.length < directoryEnd ∨ size.toNat % RuntimeFunction.layout.size ≠ 0 then
    Exec.fail (.new "invalid exception directory size")
  else
    return { offset := module.start, content, directoryRange := (directoryStart, directoryEnd) }

/-- The state of a walk. The unwind data is kept in the modules, of which equal ones
have the same. -/
abbrev WalkState : Type := Callstack.State Callstack.Module UnwindData

/-- `unwind_function` -/
def unwindFunction (windows : Windows B) (parsePe : PeParser) (fuel : ℕ) (ctx : Context)
    (steps : ℕ) (cache : OnceMap Callstack.Module UnwindData) (module : Callstack.Module)
    (frame : StackFrame) (basePointer : Option VirtualAddress) :
    Exec VmError UnwindResult × OnceMap Callstack.Module UnwindData :=
  let (data, cache) := cache.tryInsert module (windows.initUnwindData parsePe fuel ctx)
  (do
    let data ← withContext "cannot get unwind data" data
    data.unwindFunction steps frame basePointer, cache)

/-- Whether an address is mapped, for `handle_invalid_address`. An error is
logged. -/
def isMapped (windows : Windows B) (fuel : ℕ) (proc : Os.Process) (addr : VirtualAddress) :
    Exec VmError Bool :=
  match windows.processFindVmaByAddress fuel proc addr with
  | .ok vma => .ok vma.isSome
  | .error (.err _) => .ok false
  | .error stop => .error stop

/-- `Windows::handle_invalid_address`: one more frame, if this may be generated
code, and an error after it. -/
def handleInvalidAddress (windows : Windows B) (fuel : ℕ) (proc : Os.Process)
    (frame : StackFrame) : Exec VmError (Round WalkState StackFrame) := do
  let valid ←
    if ← windows.isMapped fuel proc frame.instructionPointer then
      windows.isMapped fuel proc frame.stackPointer
    else pure false
  if valid then
    return { item := { frame with start := none, module := none }
             next := Exec.fail (.ofStr "unwinding through JIT is unsupported") }
  else
    Exec.fail (.context
      ("invalid instruction pointer: 0x"
        ++ .ofList (Nat.toDigits 16 frame.instructionPointer.toNat))
      (some (.new "this is probably a bug")))

/-- The state of the next round, from what undoing a function gave. -/
def nextState (windows : Windows B) (fuel : ℕ) (ctx : Context) (frame : StackFrame)
    (basePointer : Option VirtualAddress) (cache : OnceMap Callstack.Module UnwindData)
    (infos : UnwindResult) : Exec VmError (Option WalkState) := do
  let instructionPointer ← windows.readValue fuel ctx Layout.u64 infos.nextIpAddr
  let stackPointer ←
    match infos.nextSp with
    | .Addr addr => windows.readValue fuel ctx Layout.u64 addr
    | .Value addr => pure addr
  let basePointer ←
    match infos.nextBpAddr with
    | some addr => do
      let value ← windows.readValue fuel ctx Layout.u64 addr
      pure (some value)
    | none => pure basePointer
  if VirtualAddress.isNull instructionPointer then return none
  else
    return some { frame := { frame with instructionPointer, stackPointer }, basePointer, cache }

/-- One round of the loop of `iter_callstack`. -/
def callstackRound (windows : Windows B) (parsePe : PeParser) (fuel : ℕ) (ctx : Context)
    (modules : List Callstack.Module) (steps : ℕ) (st : WalkState) :
    Exec VmError (Round WalkState StackFrame) :=
  match Callstack.findByAddress modules st.frame.instructionPointer with
  | none => windows.handleInvalidAddress fuel ctx.proc st.frame
  | some module =>
    let frame := { st.frame with module := some module.module }
    let (result, cache) :=
      windows.unwindFunction parsePe fuel ctx steps st.cache module frame st.basePointer
    match result with
    | .ok infos =>
      let frame := { frame with start := infos.funStart }
      return { item := frame
               next := windows.nextState fuel ctx frame st.basePointer cache infos }
    | .error (.err err) => return { item := { frame with start := none }, next := Exec.fail err }
    | .error stop => .error stop

/-- `Windows::iter_callstack` -/
def iterCallstack (windows : Windows B) (parsePe : PeParser) (sorts : SortUnstable) (fuel : ℕ)
    (proc : Os.Process) (instructionPointer stackPointer : VirtualAddress)
    (basePointer : Option VirtualAddress) (f : Callback σ StackFrame) (s : σ) (steps : ℕ) :
    Exec VmError σ := do
  let ctx ← Context.new windows proc
  let modules ← windows.collectModules sorts fuel proc
  walkRounds (windows.callstackRound parsePe fuel ctx modules steps) f steps
    (.init _ _ instructionPointer stackPointer basePointer) s

end Windows
