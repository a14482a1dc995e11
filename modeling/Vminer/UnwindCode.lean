import Vminer.Core

/-!
# Unwind codes

The exception directory of a Windows module describes what the prolog of each
function does to the stack, as an array of 16-bit slots: an operation takes
one, two or three of them, by its kind, its info nibble and the version.
`UnwindOpIterator` decodes the array.

`UnwindCode` is the format itself, one constructor for each form the decoder
knows, with its operand as it is stored. Every code comes back from its bytes,
whatever follows them (`UnwindOpIterator.next_bytes`).
-/

/-! ## Reading -/

/-- Reading from the front of a slice that is advanced on the way. A read that
fails leaves the slice where it is, and what was read before stays read. -/
abbrev Cursor : Type → Type := OptionT (StateM (List UInt8))

namespace Cursor

variable {α : Type}

/-- `read_u8`, `read_u16` and `read_u32` -/
def read (L : Layout α) : Cursor α := OptionT.mk fun codes =>
  match L.read codes with
  | some (a, rest) => (some a, rest)
  | none => (none, codes)

theorem run_read (L : Layout α) (codes : List UInt8) :
    (read L).run.run codes = match L.read codes with
      | some (a, rest) => (some a, rest)
      | none => (none, codes) := rfl

/-- **What has been laid out is read**, and the rest goes on behind it. -/
theorem run_read_enc_bind {β : Type} (L : Layout α) (a : α) (rest : List UInt8)
    (f : α → Cursor β) :
    (read L >>= f).run.run (L.enc a ++ rest) = (f a).run.run rest := by
  have hread : (read L).run.run (L.enc a ++ rest) = (some a, rest) := by
    show (match L.read (L.enc a ++ rest) with
      | some (a, rest) => (some a, rest)
      | none => (none, L.enc a ++ rest)) = _
    rw [Layout.read_enc_append]
  rw [OptionT.run_bind, Option.elimM, StateT.run_bind, hread]
  rfl

end Cursor

/-! ## Operations -/

/-- `Reg` and `XmmReg` -/
abbrev Reg : Type := BitVec 8

/-- `Reg::RBP` -/
def Reg.rbp : Reg := 5

/-- `UnwindOp` -/
inductive UnwindOp where
  | Push (reg : Reg)
  | Alloc (size : U32)
  | SetFpReg
  | Save (reg : Reg) (offset : U32)
  | Epilog
  | SaveXmm128 (reg : Reg) (offset : U32)
  | PushMachFrame (error : Bool)
deriving DecidableEq, Repr

/-- `UnwindOpIterator` -/
structure UnwindOpIterator where
  version : BitVec 8
  codes : List UInt8
deriving DecidableEq, Repr

namespace UnwindOpIterator

/-- The operation of a number and an info nibble, with its operand read from
the slots that follow. The scaled operands are products of a small number and a
16-bit one, which do not overflow. -/
def opOf (version : BitVec 8) (opCode : ℕ) (opInfo : BitVec 8) : Cursor UnwindOp :=
  match opCode with
  | 0 => return .Push opInfo
  | 1 =>
    match opInfo.toNat with
    | 0 => do
      let slots ← Cursor.read Layout.u16
      return .Alloc (slots.setWidth 32 * 8)
    | 1 => do
      let size ← Cursor.read Layout.u32
      return .Alloc size
    | _ => failure
  | 2 => return .Alloc (opInfo.setWidth 32 * 8 + 8)
  | 3 => return .SetFpReg
  | 4 => do
    let slots ← Cursor.read Layout.u16
    return .Save opInfo (slots.setWidth 32 * 8)
  | 5 => do
    let offset ← Cursor.read Layout.u32
    return .Save opInfo offset
  | 6 =>
    if version = 2 then do
      let _ ← Cursor.read Layout.u16
      return .Epilog
    else failure
  | 8 => do
    let slots ← Cursor.read Layout.u16
    return .SaveXmm128 opInfo (slots.setWidth 32 * 16)
  | 9 => do
    let offset ← Cursor.read Layout.u32
    return .SaveXmm128 opInfo offset
  | 10 =>
    match opInfo.toNat with
    | 0 => return .PushMachFrame false
    | 1 => return .PushMachFrame true
    | _ => failure
  | _ => failure

/-- The closure of `UnwindOpIterator::next`: one operation, after its
offset. -/
def nextOp (version : BitVec 8) : Cursor UnwindOp := do
  let op ← Cursor.read Layout.u8
  let opCode := op &&& 0xf
  let opInfo := op >>> 4
  opOf version opCode.toNat opInfo

/-- `UnwindOpIterator::next`: the outer option says whether there is an item,
the inner one whether it is valid. -/
def next (iter : UnwindOpIterator) :
    Option (Option (BitVec 8 × UnwindOp) × UnwindOpIterator) :=
  match Layout.u8.read iter.codes with
  | none => none
  | some (opOffset, codes) =>
    let (op, codes) := (nextOp iter.version).run.run codes
    some (op.map (opOffset, ·), { iter with codes })

end UnwindOpIterator

/-! ## The format -/

/-- **An unwind code**: the forms of the format, with their operands as they
are stored. -/
inductive UnwindCode where
  | pushNonvol (reg : Fin 16)
  | allocLarge (slots : BitVec 16)
  | allocHuge (size : U32)
  | allocSmall (info : Fin 16)
  | setFpReg (info : Fin 16)
  | saveNonvol (reg : Fin 16) (slots : BitVec 16)
  | saveNonvolFar (reg : Fin 16) (offset : U32)
  | epilog (info : Fin 16) (slot : BitVec 16)
  | saveXmm128 (reg : Fin 16) (slots : BitVec 16)
  | saveXmm128Far (reg : Fin 16) (offset : U32)
  | pushMachFrame (error : Bool)
deriving DecidableEq, Repr

namespace UnwindCode

/-- The number of an operation, from its low nibble, and its info, from the
high one. -/
def nibbles (opCode info : Fin 16) : BitVec 8 := BitVec.ofNat 8 (16 * info + opCode)

/-- The second byte of a code, and the slots behind it. -/
def tail : UnwindCode → List UInt8
  | pushNonvol reg => Layout.u8.enc (nibbles 0 reg)
  | allocLarge slots => Layout.u8.enc (nibbles 1 0) ++ Layout.u16.enc slots
  | allocHuge size => Layout.u8.enc (nibbles 1 1) ++ Layout.u32.enc size
  | allocSmall info => Layout.u8.enc (nibbles 2 info)
  | setFpReg info => Layout.u8.enc (nibbles 3 info)
  | saveNonvol reg slots => Layout.u8.enc (nibbles 4 reg) ++ Layout.u16.enc slots
  | saveNonvolFar reg offset => Layout.u8.enc (nibbles 5 reg) ++ Layout.u32.enc offset
  | epilog info slot => Layout.u8.enc (nibbles 6 info) ++ Layout.u16.enc slot
  | saveXmm128 reg slots => Layout.u8.enc (nibbles 8 reg) ++ Layout.u16.enc slots
  | saveXmm128Far reg offset => Layout.u8.enc (nibbles 9 reg) ++ Layout.u32.enc offset
  | pushMachFrame error => Layout.u8.enc (nibbles 10 (if error then 1 else 0))

/-- The bytes of a code that takes effect at an offset of the prolog. -/
def bytes (offset : BitVec 8) (code : UnwindCode) : List UInt8 :=
  Layout.u8.enc offset ++ code.tail

/-- The register of an info nibble. -/
def reg (info : Fin 16) : Reg := BitVec.ofNat 8 info

/-- **What a code means**, with its operand scaled. -/
def op : UnwindCode → UnwindOp
  | pushNonvol r => .Push (reg r)
  | allocLarge slots => .Alloc (slots.setWidth 32 * 8)
  | allocHuge size => .Alloc size
  | allocSmall info => .Alloc (BitVec.ofNat 32 info * 8 + 8)
  | setFpReg _ => .SetFpReg
  | saveNonvol r slots => .Save (reg r) (slots.setWidth 32 * 8)
  | saveNonvolFar r offset => .Save (reg r) offset
  | epilog _ _ => .Epilog
  | saveXmm128 r slots => .SaveXmm128 (reg r) (slots.setWidth 32 * 16)
  | saveXmm128Far r offset => .SaveXmm128 (reg r) offset
  | pushMachFrame error => .PushMachFrame error

/-- The versions a code exists in. -/
def InVersion (version : BitVec 8) : UnwindCode → Prop
  | epilog _ _ => version = 2
  | _ => True

/-- The low nibble is the operation. -/
theorem nibbles_and (opCode info : Fin 16) :
    (nibbles opCode info &&& 0xf).toNat = opCode := by
  revert opCode info
  decide

/-- The high nibble is the info. -/
theorem nibbles_shiftRight (opCode info : Fin 16) :
    nibbles opCode info >>> 4 = reg info := by
  revert opCode info
  decide

/-- An info nibble is the number it stands for at any width. -/
theorem setWidth_reg (info : Fin 16) :
    (reg info).setWidth 32 = BitVec.ofNat 32 info := by
  revert info
  decide

/-- After the first byte of a code, the operation and its info are known. -/
theorem run_nextOp_nibbles (version : BitVec 8) (opCode info : Fin 16)
    (rest : List UInt8) :
    (UnwindOpIterator.nextOp version).run.run
        (Layout.u8.enc (nibbles opCode info) ++ rest)
      = (UnwindOpIterator.opOf version opCode (reg info)).run.run rest := by
  unfold UnwindOpIterator.nextOp
  rw [Cursor.run_read_enc_bind]
  simp only [nibbles_and, nibbles_shiftRight]

/-- **A code comes back from its bytes**, and what follows it stays. -/
theorem run_nextOp {version : BitVec 8} {code : UnwindCode}
    (h : code.InVersion version) (rest : List UInt8) :
    (UnwindOpIterator.nextOp version).run.run (code.tail ++ rest)
      = (some code.op, rest) := by
  cases code with
  | pushNonvol r =>
    rw [tail, run_nextOp_nibbles]
    rfl
  | allocLarge slots =>
    rw [tail, List.append_assoc, run_nextOp_nibbles]
    exact Cursor.run_read_enc_bind Layout.u16 slots rest _
  | allocHuge size =>
    rw [tail, List.append_assoc, run_nextOp_nibbles]
    exact Cursor.run_read_enc_bind Layout.u32 size rest _
  | allocSmall info =>
    rw [tail, run_nextOp_nibbles, op, ← setWidth_reg]
    rfl
  | setFpReg info =>
    rw [tail, run_nextOp_nibbles]
    rfl
  | saveNonvol r slots =>
    rw [tail, List.append_assoc, run_nextOp_nibbles]
    exact Cursor.run_read_enc_bind Layout.u16 slots rest _
  | saveNonvolFar r offset =>
    rw [tail, List.append_assoc, run_nextOp_nibbles]
    exact Cursor.run_read_enc_bind Layout.u32 offset rest _
  | epilog info slot =>
    obtain rfl : version = 2 := h
    rw [tail, List.append_assoc, run_nextOp_nibbles]
    exact Cursor.run_read_enc_bind Layout.u16 slot rest _
  | saveXmm128 r slots =>
    rw [tail, List.append_assoc, run_nextOp_nibbles]
    exact Cursor.run_read_enc_bind Layout.u16 slots rest _
  | saveXmm128Far r offset =>
    rw [tail, List.append_assoc, run_nextOp_nibbles]
    exact Cursor.run_read_enc_bind Layout.u32 offset rest _
  | pushMachFrame error =>
    rw [tail, run_nextOp_nibbles]
    cases error <;> rfl

end UnwindCode

namespace UnwindOpIterator

/-- Where the codes end, so does the iteration. -/
theorem next_nil (version : BitVec 8) : next ⟨version, []⟩ = none := rfl

/-- **One code is one item**, with its operand scaled. -/
theorem next_bytes {version : BitVec 8} {code : UnwindCode}
    (h : code.InVersion version) (offset : BitVec 8) (rest : List UInt8) :
    next ⟨version, code.bytes offset ++ rest⟩
      = some (some (offset, code.op), ⟨version, rest⟩) := by
  unfold next UnwindCode.bytes
  simp only [List.append_assoc, Layout.read_enc_append, UnwindCode.run_nextOp h,
    Option.map_some]

end UnwindOpIterator
