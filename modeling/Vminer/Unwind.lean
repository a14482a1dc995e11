import Vminer.BinarySearch
import Vminer.Os
import Vminer.UnwindCode

/-!
# Unwinding with the exception directory

The part of the Windows unwinder that looks at one module: its image in memory
and the exception directory in it. A stack frame is unwound by recognising an
epilog in the instructions themselves (`readEpilog`) or by undoing the prolog
(`unwindWithInfos`), entry by entry along the chain of parents.

The image is the guest's. Nothing keeps a chain of parents from being a cycle,
so the loops along it take a step budget.
-/

/-! ## The exception directory -/

/-- `RuntimeFunction` -/
structure RuntimeFunction where
  start : U32
  stop : U32
  ptr : U32
deriving DecidableEq, Repr

namespace RuntimeFunction

/-- The three words of an entry. -/
def layout : Layout RuntimeFunction :=
  (Layout.u32.pair (Layout.u32.pair Layout.u32)).via
    (fun rt => (rt.start, rt.stop, rt.ptr)) (fun p => ⟨p.1, p.2.1, p.2.2⟩) fun _ => rfl

/-- `RuntimeFunction::contains` -/
def contains (rt : RuntimeFunction) (addr : U32) : Bool :=
  rt.start ≤ addr && addr < rt.stop

/-- `RuntimeFunction::is_valid` -/
def isValid (rt : RuntimeFunction) : Bool :=
  rt.start != 0 && rt.stop != 0 && rt.ptr != 0

end RuntimeFunction

/-- `FunctionEntry` -/
structure FunctionEntry where
  mother : Option RuntimeFunction
  version : BitVec 8
  frameRegisterOffset : Option (BitVec 8)
  unwindCodes : List UInt8
deriving DecidableEq, Repr

/-- `FunctionEntry::iter_codes` -/
def FunctionEntry.iterCodes (function : FunctionEntry) : UnwindOpIterator :=
  ⟨function.version, function.unwindCodes⟩

/-- `UnwindData`: the image of a module and where its directory is in it. -/
structure UnwindData where
  offset : VirtualAddress
  content : List UInt8
  directoryRange : ℕ × ℕ

/-- `read_slice` -/
def readSlice (codes : List UInt8) (len : ℕ) : Option (List UInt8 × List UInt8) :=
  if len ≤ codes.length then some (codes.splitAt len) else none

namespace UnwindData

/-- The slower search of `find_runtime_function` in a table with holes. -/
def findLinear (offset : U32) :
    Option RuntimeFunction → List RuntimeFunction → Exec VmError (Option RuntimeFunction)
  | lastValid, [] => stopped lastValid
  | lastValid, function :: functions =>
    if !function.isValid then findLinear offset none functions
    else if offset < function.start then stopped lastValid
    else if offset < function.stop then .ok (some function)
    else findLinear offset (some function) functions
where
  /-- What it means to find no function: the offset is in a leaf function if
  the search ended behind a valid entry. -/
  stopped : Option RuntimeFunction → Exec VmError (Option RuntimeFunction)
    | some _ => .ok none
    | none => Exec.fail (.ofStr "unmapped unwind data")

/-- `UnwindData::find_runtime_function`. The state of the search says whether
it came across an entry that is not valid. -/
def findRuntimeFunction (functions : List RuntimeFunction) (offset : U32) :
    Exec VmError (Option RuntimeFunction) :=
  let cmp (rt : RuntimeFunction) : StateM Bool Ordering := do
    if rt.isValid then return compare rt.start.toNat offset.toNat
    else
      set true
      return .eq
  let (pos, corrupted) := (binarySearchBy cmp functions).run false
  if corrupted then findLinear offset none functions
  else
    match pos with
    | .ok i =>
      match functions[i]? with
      | some fun' => .ok (some fun')
      | none => Exec.panicked
    | .error 0 => .ok none
    | .error (i + 1) =>
      match functions[i]? with
      | some fun' => .ok (if fun'.contains offset then some fun' else none)
      | none => Exec.panicked

/-- `UnwindData::parse_function` -/
def parseFunction (data : UnwindData) (runtimeFunction : RuntimeFunction) :
    Option FunctionEntry := do
  let (_, unwindData) ← readSlice data.content runtimeFunction.ptr.toNat
  let (versionFlags, unwindData) ← Layout.u8.read unwindData
  let version := versionFlags &&& 0x7
  if ¬ (1 ≤ version ∧ version ≤ 2) then none
  else
    let isChained := versionFlags &&& 0x20 ≠ 0
    let (_prologSize, unwindData) ← Layout.u8.read unwindData
    let (unwindCodeCount, unwindData) ← Layout.u8.read unwindData
    let (frameInfos, unwindData) ← Layout.u8.read unwindData
    let frameRegister := frameInfos &&& 0x0f
    let frameRegisterOffset :=
      if frameRegister ≠ 0 then some (frameInfos &&& 0xf0) else none
    let (unwindCodes, unwindData) ← readSlice unwindData (2 * unwindCodeCount.toNat)
    let mother ←
      if isChained then do
        let (mother, _) ← RuntimeFunction.layout.read unwindData
        some (some mother)
      else some none
    some { mother, version, frameRegisterOffset, unwindCodes }

/-- `UnwindData::find_by_offset`. The content is allocated at the alignment of
a directory entry, so the cast fails where the place of the directory is not
aligned or its size not a multiple of an entry's. -/
def findByOffset (data : UnwindData) (offset : U32) :
    Exec VmError (Option RuntimeFunction) :=
  let (start, stop) := data.directoryRange
  if stop < start ∨ data.content.length < stop then Exec.panicked
  else if start % 4 ≠ 0 ∨ (stop - start) % RuntimeFunction.layout.size ≠ 0 then
    Exec.panicked
  else
    let count := (stop - start) / RuntimeFunction.layout.size
    match RuntimeFunction.layout.readMany count (data.content.drop start) with
    | none => Exec.panicked
    | some (functions, _) => findRuntimeFunction functions offset

end UnwindData

/-! ## One step up the stack -/

/-- `NextSp` -/
inductive NextSp where
  | Value (addr : VirtualAddress)
  | Addr (addr : VirtualAddress)
deriving DecidableEq, Repr

/-- `UnwindResult` -/
structure UnwindResult where
  nextSp : NextSp
  nextIpAddr : VirtualAddress
  nextBpAddr : Option VirtualAddress
  funStart : Option VirtualAddress
deriving DecidableEq, Repr

/-- `UnwindStep` -/
inductive UnwindStep where
  | MachInst (offset : U32)
  | SpOffset (offset : U32)
deriving DecidableEq, Repr

/-- The distance of an address from the start of an image, cut to 32 bits. -/
def UnwindData.offsetOf (data : UnwindData) (addr : VirtualAddress) : U32 :=
  (addr - data.offset).setWidth 32

/-- The end of `read_unwind_codes` at a machine frame: it has to be the last
code, of an entry without a parent. -/
def readMachFrame (function : FunctionEntry) (codes : UnwindOpIterator)
    (spOffset : U32) (bpAddr : Option U32) (error : Bool) :
    Exec VmError (Option U32 × UnwindStep) :=
  if codes.next.isSome then
    Exec.fail (.ofStr "unsupported UWOP_MACHFRAME in the middle of unwind ops")
  else if function.mother.isSome then
    Exec.fail (.ofStr "unsupported UWOP_MACHFRAME with mother")
  else do
    let offset ← checkedAdd spOffset (if error then 8 else 0)
    return (bpAddr, .MachInst offset)

/-- The loop of `read_unwind_codes`. A round takes at least one byte of the
codes. -/
def readUnwindCodesLoop (function : FunctionEntry) (offset : Option U32) :
    ℕ → UnwindOpIterator → U32 → Option U32 → Exec VmError (Option U32 × UnwindStep)
  | 0, _, _, _ => Exec.outOfFuel
  | rounds + 1, codes, spOffset, bpAddr =>
    match codes.next with
    | none => return (bpAddr, .SpOffset spOffset)
    | some (none, _) => Exec.fail (.new "invalid unwind code")
    | some (some (opOffset, op), codes) =>
      if offset.any (· < opOffset.setWidth 32) then
        -- this part of the prolog has not been executed yet
        readUnwindCodesLoop function offset rounds codes spOffset bpAddr
      else
        match op with
        | .Push reg => do
          let bpAddr := if reg = Reg.rbp then some spOffset else bpAddr
          let spOffset ← checkedAdd spOffset 8
          readUnwindCodesLoop function offset rounds codes spOffset bpAddr
        | .Alloc size => do
          let spOffset ← checkedAdd spOffset size
          readUnwindCodesLoop function offset rounds codes spOffset bpAddr
        | .PushMachFrame error => readMachFrame function codes spOffset bpAddr error
        | .Save reg saved =>
          let bpAddr := if reg = Reg.rbp then some saved else bpAddr
          readUnwindCodesLoop function offset rounds codes spOffset bpAddr
        | _ => readUnwindCodesLoop function offset rounds codes spOffset bpAddr

/-- `read_unwind_codes` -/
def readUnwindCodes (function : FunctionEntry) (offset : Option U32) :
    Exec VmError (Option U32 × UnwindStep) :=
  readUnwindCodesLoop function offset (function.unwindCodes.length + 1)
    function.iterCodes 0 none

/-- The loop of `unwind_with_infos`, along the chain of parents. -/
def unwindChain (data : UnwindData) : ℕ → FunctionEntry → Option U32 →
    VirtualAddress → Option VirtualAddress → VirtualAddress → Exec VmError UnwindResult
  | 0, _, _, _, _, _ => Exec.outOfFuel
  | fuel + 1, function, ipOffset, nextSp, nextBpAddr, funStart => do
    let (bpOffset, step) ← readUnwindCodes function ipOffset
    let nextBpAddr ←
      match bpOffset with
      | some offset => do
        let addr ← checkedAdd nextSp (offset.setWidth 64)
        pure (some addr)
      | none => pure nextBpAddr
    match step with
    | .MachInst offset => do
      let nextIpAddr ← checkedAdd nextSp (offset.setWidth 64)
      let addr ← checkedAdd nextIpAddr 0x18
      return { nextSp := .Addr addr, nextIpAddr, nextBpAddr, funStart := some funStart }
    | .SpOffset offset => do
      let nextSp ← checkedAdd nextSp (offset.setWidth 64)
      match function.mother with
      | some mother => do
        let function ← Exec.okOr (data.parseFunction mother)
          (.new "failed to parse unwind data")
        let funStart ← checkedAdd data.offset (mother.start.setWidth 64)
        unwindChain data fuel function none nextSp nextBpAddr funStart
      | none => do
        let addr ← checkedAdd nextSp 8
        return { nextSp := .Value addr, nextIpAddr := nextSp, nextBpAddr,
                 funStart := some funStart }

/-- Where the frame of a function is: at the frame register, once it has been
set up. -/
def framePointer (function : FunctionEntry) (ipOffset : U32)
    (stackPointer : VirtualAddress) (basePointer : Option VirtualAddress) :
    Exec VmError VirtualAddress :=
  match function.frameRegisterOffset with
  | none => .ok stackPointer
  | some offset =>
    if ipOffset = 0 then .ok stackPointer
    else do
      let base ← Exec.okOr basePointer (.new "missing required frame pointer")
      checkedSub base (offset.setWidth 64)

/-- `unwind_with_infos` -/
def unwindWithInfos (data : UnwindData) (fuel : ℕ) (runtimeFunction : RuntimeFunction)
    (frame : StackFrame) (basePointer : Option VirtualAddress) :
    Exec VmError UnwindResult := do
  let ipOffset ← checkedSub (data.offsetOf frame.instructionPointer) runtimeFunction.start
  let function ← Exec.okOr (data.parseFunction runtimeFunction)
    (.new "failed to parse unwind data")
  let funStart ← checkedAdd data.offset (runtimeFunction.start.setWidth 64)
  let framePointer ← framePointer function ipOffset frame.stackPointer basePointer
  unwindChain data fuel function (some ipOffset) framePointer none funStart

/-! ## Epilogs -/

/-- The loop of `read_epilog`: the instructions of an epilog up to its `ret`,
with the effect of each on the stack pointer, and where `rbp` is popped from.
Every instruction takes a byte, so the content bounds the rounds. -/
def emulateEpilog : ℕ → List UInt8 → VirtualAddress → Option VirtualAddress →
    Exec VmError (Option (VirtualAddress × Option VirtualAddress))
  | 0, _, _, _ => .ok none
  | _, [], _, _ => .ok none
  | rounds + 1, byte :: code, nextSp, nextBpAddr =>
    match byte.toNat, code with
    -- pop r8-r15
    | 0x41, byte :: code =>
      if 0x58 ≤ byte ∧ byte ≤ 0x5f then do
        let nextSp ← checkedAdd nextSp 8
        emulateEpilog rounds code nextSp nextBpAddr
      else .ok none
    -- add rsp, [n]
    | 0x48, op :: 0xc4 :: code =>
      match op.toNat with
      | 0x81 =>
        match Layout.u32.read code with
        | none => .ok none
        | some (n, code) => do
          let nextSp ← checkedAdd nextSp (n.setWidth 64)
          emulateEpilog rounds code nextSp nextBpAddr
      | 0x83 =>
        match Layout.u8.read code with
        | none => .ok none
        | some (n, code) => do
          let nextSp ← checkedAdd nextSp (n.setWidth 64)
          emulateEpilog rounds code nextSp nextBpAddr
      | _ => .ok none
    -- pop rsp
    | 0x5c, _ => .ok none
    -- pop rbp
    | 0x5d, code => do
      let bpAddr := nextSp
      let nextSp ← checkedAdd nextSp 8
      emulateEpilog rounds code nextSp (some bpAddr)
    -- ret
    | 0xc3, _ => .ok (some (nextSp, nextBpAddr))
    | op, code =>
      -- pop [reg] | popf
      if (0x58 ≤ op ∧ op ≤ 0x5f) ∨ op = 0x9d then do
        let nextSp ← checkedAdd nextSp 8
        emulateEpilog rounds code nextSp nextBpAddr
      else .ok none

/-- The start of the function an entry belongs to: that of its last parent. -/
def motherStart (data : UnwindData) : ℕ → RuntimeFunction →
    Exec VmError (Option VirtualAddress)
  | 0, _ => Exec.outOfFuel
  | fuel + 1, runtimeFunction =>
    match data.parseFunction runtimeFunction with
    | none => .ok none
    | some function =>
      match function.mother with
      | some mother => motherStart data fuel mother
      | none => do
        let start ← checkedAdd data.offset (runtimeFunction.start.setWidth 64)
        return some start

/-- `read_epilog`. An error of the directory is logged. -/
def readEpilog (data : UnwindData) (fuel : ℕ) (frame : StackFrame) :
    Exec VmError (Option UnwindResult) :=
  let offset := data.offsetOf frame.instructionPointer
  match readSlice data.content offset.toNat with
  | none => .ok none
  | some (_, code) => do
    match ← emulateEpilog code.length code frame.stackPointer none with
    | none => return none
    | some (nextIpAddr, nextBpAddr) => do
      let runtimeFunction ←
        match data.findByOffset offset with
        | .ok function => .ok function
        | .error (.err _) => .ok none
        | .error stop => .error stop
      let funStart ←
        match runtimeFunction with
        | none => .ok none
        | some function => motherStart data fuel function
      let addr ← checkedAdd nextIpAddr 8
      return some { nextSp := .Value addr, nextIpAddr, nextBpAddr, funStart }
