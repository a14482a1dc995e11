import Vminer.Prologs

/-!
# What a prolog does to the machine

A prolog pushes registers, allocates stack, makes `rbp` the frame register and saves registers
where there is room for them. `Machine` is what it changes: the stack pointer, `rbp`, and where
the caller's `rbp` has been stored.

Going back from its last instruction to its first, what an instruction took from the stack is
put back. So the sizes of all of them lead to where the stack pointer was before
(`Machine.rsp_run`), the frame register to where it was when it was set (`Machine.rbp_run`), and
the caller's `rbp` is where the first of them stored it (`Machine.saved_run`).
-/

open UnwindOp

/-! ## The machine -/

/-- **What a prolog changes.** -/
structure Machine where
  rsp : VirtualAddress
  rbp : VirtualAddress
  /-- Where the caller's `rbp` has been stored first. -/
  saved : Option VirtualAddress
  /-- Whether `rbp` has become the frame register. -/
  framed : Bool
deriving DecidableEq

namespace Machine

/-- A function is entered with the stack pointer at the return address. -/
def entered (rsp rbp : VirtualAddress) : Machine := ⟨rsp, rbp, none, false⟩

/-- A register is stored. What is in `rbp` is the caller's until it is the frame register. -/
def store (m : Machine) (reg : Reg) (addr : VirtualAddress) : Machine :=
  if reg = Reg.rbp ∧ m.framed = false then { m with saved := m.saved.or (some addr) } else m

/-- **What an instruction of a prolog does.** -/
def exec (frameOffset : VirtualAddress) (m : Machine) : UnwindOp → Machine
  | .Push reg => { m with rsp := m.rsp - 8 }.store reg (m.rsp - 8)
  | .Alloc size => { m with rsp := m.rsp - size.setWidth 64 }
  | .SetFpReg => { m with rbp := m.rsp + frameOffset, framed := true }
  | .Save reg offset => m.store reg (m.rsp + offset.setWidth 64)
  | _ => m

theorem exec_push (frameOffset : VirtualAddress) (m : Machine) (reg : Reg) :
    m.exec frameOffset (.Push reg) = { m with rsp := m.rsp - 8 }.store reg (m.rsp - 8) := rfl

theorem exec_save (frameOffset : VirtualAddress) (m : Machine) (reg : Reg) (offset : U32) :
    m.exec frameOffset (.Save reg offset) = m.store reg (m.rsp + offset.setWidth 64) := rfl

/-- What some instructions do, one after the other. -/
def run (frameOffset : VirtualAddress) (m : Machine) (ops : List UnwindOp) : Machine :=
  ops.foldl (exec frameOffset) m

theorem store_rsp (m : Machine) (reg : Reg) (addr : VirtualAddress) :
    (m.store reg addr).rsp = m.rsp := by
  unfold store
  split <;> rfl

theorem store_rbp (m : Machine) (reg : Reg) (addr : VirtualAddress) :
    (m.store reg addr).rbp = m.rbp := by
  unfold store
  split <;> rfl

theorem store_framed (m : Machine) (reg : Reg) (addr : VirtualAddress) :
    (m.store reg addr).framed = m.framed := by
  unfold store
  split <;> rfl

variable (frameOffset : VirtualAddress)

theorem run_append (m : Machine) (ops ops' : List UnwindOp) :
    run frameOffset m (ops ++ ops') = run frameOffset (run frameOffset m ops) ops' :=
  List.foldl_append

/-! ## The registers -/

/-- An instruction lowers the stack pointer by its size. -/
theorem rsp_exec (m : Machine) (op : UnwindOp) :
    (exec frameOffset m op).rsp + BitVec.ofNat 64 op.size = m.rsp := by
  have hzero : m.rsp + BitVec.ofNat 64 0 = m.rsp := BitVec.add_zero m.rsp
  cases op with
  | Push reg =>
    rw [exec_push, store_rsp]
    exact sub_add_cancel m.rsp 8
  | Alloc size =>
    rw [UnwindOp.size, BitVec.ofNat_toNat]
    exact sub_add_cancel m.rsp _
  | Save reg offset =>
    rw [exec_save, store_rsp]
    exact hzero
  | SetFpReg => exact hzero
  | Epilog => exact hzero
  | SaveXmm128 reg offset => exact hzero
  | PushMachFrame error => exact hzero

/-- **A prolog lowers the stack pointer** by the sizes of its instructions. -/
theorem rsp_run (m : Machine) (ops : List UnwindOp) :
    (run frameOffset m ops).rsp + BitVec.ofNat 64 (totalSize ops) = m.rsp := by
  induction ops generalizing m with
  | nil => exact BitVec.add_zero m.rsp
  | cons op ops ih =>
    rw [totalSize_cons, Nat.add_comm, BitVec.ofNat_add, ← BitVec.add_assoc]
    show (run frameOffset (exec frameOffset m op) ops).rsp + _ + _ = _
    rw [ih, rsp_exec]

/-- Only setting it makes `rbp` the frame register. -/
theorem framed_exec (m : Machine) (op : UnwindOp) :
    (exec frameOffset m op).framed = true ↔ op = .SetFpReg ∨ m.framed = true := by
  cases op with
  | SetFpReg => exact iff_of_true rfl (Or.inl rfl)
  | Push reg => rw [exec_push, store_framed]; exact (or_iff_right (fun h => nomatch h)).symm
  | Save reg offset => rw [exec_save, store_framed]; exact (or_iff_right (fun h => nomatch h)).symm
  | Alloc size => exact (or_iff_right (fun h => nomatch h)).symm
  | Epilog => exact (or_iff_right (fun h => nomatch h)).symm
  | SaveXmm128 reg offset => exact (or_iff_right (fun h => nomatch h)).symm
  | PushMachFrame error => exact (or_iff_right (fun h => nomatch h)).symm

theorem framed_run (m : Machine) (ops : List UnwindOp) :
    (run frameOffset m ops).framed = true ↔ .SetFpReg ∈ ops ∨ m.framed = true := by
  induction ops generalizing m with
  | nil => exact (or_iff_right List.not_mem_nil).symm
  | cons op ops ih =>
    show (run frameOffset (exec frameOffset m op) ops).framed = true ↔ _
    rw [ih, framed_exec, List.mem_cons, eq_comm (a := UnwindOp.SetFpReg), ← or_assoc,
      or_comm (a := UnwindOp.SetFpReg ∈ ops)]

/-- Nothing else changes `rbp`. -/
theorem rbp_exec (m : Machine) {op : UnwindOp} (h : op ≠ .SetFpReg) :
    (exec frameOffset m op).rbp = m.rbp := by
  cases op with
  | SetFpReg => exact absurd rfl h
  | Push reg => rw [exec_push, store_rbp]
  | Save reg offset => rw [exec_save, store_rbp]
  | _ => rfl

/-- **Until it is the frame register, `rbp` is the caller's.** -/
theorem rbp_run_of_notMem (m : Machine) {ops : List UnwindOp} (h : .SetFpReg ∉ ops) :
    (run frameOffset m ops).rbp = m.rbp := by
  induction ops generalizing m with
  | nil => rfl
  | cons op ops ih =>
    obtain ⟨hop, hops⟩ := not_or.mp (mt List.mem_cons.mpr h)
    show (run frameOffset (exec frameOffset m op) ops).rbp = _
    rw [ih _ hops, rbp_exec frameOffset m (Ne.symm hop)]

/-- **The frame register is at its offset** from where the stack pointer was when it was set. -/
theorem rbp_run (m : Machine) (front : List UnwindOp) {back : List UnwindOp}
    (h : .SetFpReg ∉ back) :
    (run frameOffset m (front ++ .SetFpReg :: back)).rbp
      = (run frameOffset m (front ++ .SetFpReg :: back)).rsp + BitVec.ofNat 64 (totalSize back)
        + frameOffset := by
  rw [run_append]
  show (run frameOffset (exec frameOffset (run frameOffset m front) .SetFpReg) back).rbp
    = (run frameOffset (exec frameOffset (run frameOffset m front) .SetFpReg) back).rsp + _ + _
  rw [rsp_run, rbp_run_of_notMem frameOffset _ h]
  rfl

end Machine

/-! ## Where `rbp` is saved -/

namespace UnwindOp

/-- Where an instruction has stored `rbp`, when it has left the stack pointer here. -/
def slotAt (rsp : VirtualAddress) : UnwindOp → Option VirtualAddress
  | .Push reg => if reg = Reg.rbp then some rsp else none
  | .Save reg offset => if reg = Reg.rbp then some (rsp + offset.setWidth 64) else none
  | _ => none

/-- Where the first of some instructions to store `rbp` put it. They are undone from the last
one on, when the stack pointer is here. -/
def firstSlot : VirtualAddress → List UnwindOp → Option VirtualAddress
  | _, [] => none
  | rsp, op :: undone =>
    (firstSlot (rsp + BitVec.ofNat 64 op.size) undone).or (op.slotAt rsp)

/-- What is undone later was executed first. -/
theorem firstSlot_append (rsp : VirtualAddress) (undone undone' : List UnwindOp) :
    firstSlot rsp (undone ++ undone')
      = (firstSlot (rsp + BitVec.ofNat 64 (totalSize undone)) undone').or
          (firstSlot rsp undone) := by
  induction undone generalizing rsp with
  | nil =>
    rw [totalSize_nil, show rsp + BitVec.ofNat 64 0 = rsp from BitVec.add_zero rsp]
    exact (Option.or_none).symm
  | cons op undone ih =>
    rw [List.cons_append, firstSlot, ih, firstSlot, totalSize_cons, BitVec.ofNat_add,
      ← BitVec.add_assoc, Option.or_assoc]

/-- A `push` of `rbp` stores it. -/
theorem isSome_firstSlot {undone : List UnwindOp} (h : .Push Reg.rbp ∈ undone)
    (rsp : VirtualAddress) : (firstSlot rsp undone).isSome := by
  induction undone generalizing rsp with
  | nil => cases h
  | cons op undone ih =>
    rw [firstSlot, Option.isSome_or]
    obtain rfl | h := List.mem_cons.mp h
    · exact Bool.or_eq_true_iff.mpr (Or.inr rfl)
    · exact Bool.or_eq_true_iff.mpr (Or.inl (ih h _))

/-- Whether an operation is that of an instruction of a prolog. -/
def isInstr : UnwindOp → Bool
  | .Epilog => false
  | .PushMachFrame _ => false
  | _ => true

end UnwindOp

/-- **The instructions of a prolog, in order**: `rbp` is pushed before it becomes the frame
register, which it does at most once. It is saved elsewhere only when all of the stack is
allocated, and not where it becomes the frame register. -/
structure IsProlog (ops : List UnwindOp) : Prop where
  instr : ∀ op ∈ ops, op.isInstr = true
  framed : ∀ front back, ops = front ++ .SetFpReg :: back →
    .Push Reg.rbp ∈ front ∧ .SetFpReg ∉ back
  saved : ∀ front back offset, ops = front ++ .Save Reg.rbp offset :: back →
    totalSize back = 0 ∧ .SetFpReg ∉ ops

/-- What has been executed of a prolog is one as well. -/
theorem IsProlog.left {ops ops' : List UnwindOp} (h : IsProlog (ops ++ ops')) : IsProlog ops where
  instr op hop := h.instr op (List.mem_append_left _ hop)
  framed front back heq := by
    obtain ⟨hpush, hnot⟩ := h.framed front (back ++ ops') (by rw [heq, List.append_assoc]; rfl)
    exact ⟨hpush, fun hmem => hnot (List.mem_append_left _ hmem)⟩
  saved front back offset heq := by
    obtain ⟨hsize, hnot⟩ := h.saved front (back ++ ops') offset (by
      rw [heq, List.append_assoc]
      rfl)
    rw [totalSize_append] at hsize
    exact ⟨(Nat.add_eq_zero_iff.mp hsize).1, fun hmem => hnot (List.mem_append_left _ hmem)⟩

namespace Machine

variable (frameOffset : VirtualAddress)

/-- An instruction stores the caller's `rbp` unless it is the frame register. -/
theorem saved_exec (m : Machine) (op : UnwindOp) :
    (exec frameOffset m op).saved
      = m.saved.or (if m.framed then none else op.slotAt (exec frameOffset m op).rsp) := by
  have hstore : ∀ (m : Machine) (reg : Reg) (addr : VirtualAddress), (m.store reg addr).saved
      = m.saved.or (if m.framed then none else if reg = Reg.rbp then some addr else none) := by
    intro m reg addr
    unfold store
    cases m.framed with
    | true => simp
    | false =>
      by_cases hreg : reg = Reg.rbp <;> simp [hreg]
  have hnone : m.saved = m.saved.or (if m.framed then none else none) := by
    rw [ite_self, Option.or_none]
  cases op with
  | Push reg =>
    rw [exec_push, store_rsp]
    exact hstore _ reg _
  | Save reg offset =>
    rw [exec_save, store_rsp]
    exact hstore m reg _
  | Alloc size => exact hnone
  | SetFpReg => exact hnone
  | Epilog => exact hnone
  | SaveXmm128 reg offset => exact hnone
  | PushMachFrame error => exact hnone

/-- **The caller's `rbp` is where the prolog stored it first.** Behind the instruction that makes
it the frame register it has been pushed already. -/
theorem saved_run {undone : List UnwindOp} (h : IsProlog undone.reverse)
    (rsp rbp : VirtualAddress) :
    (run frameOffset (entered rsp rbp) undone.reverse).saved
      = firstSlot (run frameOffset (entered rsp rbp) undone.reverse).rsp undone := by
  induction undone with
  | nil => rfl
  | cons op undone ih =>
    rw [List.reverse_cons] at h ⊢
    have hprolog := h.left
    have hsaved := ih hprolog
    have hframed := framed_run frameOffset (entered rsp rbp) undone.reverse
    rw [run_append]
    generalize run frameOffset (entered rsp rbp) undone.reverse = m at hsaved hframed
    show (exec frameOffset m op).saved = firstSlot (exec frameOffset m op).rsp (op :: undone)
    rw [saved_exec, firstSlot, rsp_exec, ← hsaved]
    cases hm : m.framed with
    | false => rfl
    | true =>
      have hmem : .SetFpReg ∈ undone.reverse :=
        (hframed.mp hm).resolve_right fun h => (nomatch h)
      obtain ⟨front, back, heq⟩ := List.append_of_mem hmem
      have hpush : .Push Reg.rbp ∈ undone :=
        List.mem_reverse.mp (heq ▸ List.mem_append_left _ (hprolog.framed front back heq).1)
      have hsome : m.saved.isSome := hsaved ▸ isSome_firstSlot hpush _
      rw [Option.or_of_isSome hsome, Option.or_of_isSome hsome]

end Machine
