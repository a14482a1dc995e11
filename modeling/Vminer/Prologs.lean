import Vminer.UnwindParents

/-!
# What the codes of an entry amount to

`read_unwind_codes` goes through the codes of an entry and adds up, in 32 bits, what the
operations that have been executed took from the stack. Without the machine words this is a
list of operations (`FunctionEntry.undone`), the sum of their sizes (`stackSize`), where the
last of them to save `rbp` put it (`rbpSlot`), and what is behind them (`ending`).

The code computes just that, if the sum fits its 32 bits, and panics otherwise
(`readUnwindCodes_eq`).
-/

/-! ## Items and operations -/

namespace UnwindOpIterator

/-- All items of an iterator. -/
def items (iter : UnwindOpIterator) : List (Option (BitVec 8 × UnwindOp)) :=
  match _h : iter.next with
  | none => []
  | some (item, iter') => item :: items iter'
termination_by iter.codes.length
decreasing_by exact length_next _h

theorem items_of_next_none {iter : UnwindOpIterator} (h : iter.next = none) :
    iter.items = [] := by
  rw [items]
  split
  · rfl
  · next heq => cases h.symm.trans heq

theorem items_of_next_some {iter iter' : UnwindOpIterator}
    {item : Option (BitVec 8 × UnwindOp)} (h : iter.next = some (item, iter')) :
    iter.items = item :: iter'.items := by
  rw [items]
  split
  · next heq => cases h.symm.trans heq
  · next heq =>
    obtain ⟨rfl, rfl⟩ := Prod.mk.inj (Option.some.inj (h.symm.trans heq))
    rfl

/-- Another item is one more of them. -/
theorem items_isEmpty (iter : UnwindOpIterator) : iter.items.isEmpty = !iter.next.isSome := by
  match h : iter.next with
  | none => rw [items_of_next_none h]; rfl
  | some (item, iter') => rw [items_of_next_some h]; rfl

end UnwindOpIterator

namespace UnwindOp

/-- What an operation takes from the stack. -/
def size : UnwindOp → ℕ
  | .Push _ => 8
  | .Alloc size => size.toNat
  | _ => 0

/-- Where an operation saves `rbp`, from the stack pointer on, when what has been undone
before it has this size. -/
def slotOf (below : ℕ) : UnwindOp → Option ℕ
  | .Push reg => if reg = Reg.rbp then some below else none
  | .Save reg offset => if reg = Reg.rbp then some offset.toNat else none
  | _ => none

/-- Whether an operation is a machine frame. -/
def isMachFrame : UnwindOp → Bool
  | .PushMachFrame _ => true
  | _ => false

/-- The size of some operations. -/
def totalSize (ops : List UnwindOp) : ℕ := (ops.map size).sum

/-- Where the last of some operations to save `rbp` put it. -/
def lastSlot : List UnwindOp → ℕ → Option ℕ → Option ℕ
  | [], _, slot => slot
  | op :: ops, below, slot => lastSlot ops (below + op.size) ((op.slotOf below).or slot)

@[simp] theorem totalSize_nil : totalSize [] = 0 := rfl

theorem totalSize_cons (op : UnwindOp) (ops : List UnwindOp) :
    totalSize (op :: ops) = op.size + totalSize ops := List.sum_cons

theorem totalSize_append (ops ops' : List UnwindOp) :
    totalSize (ops ++ ops') = totalSize ops + totalSize ops' := by
  rw [totalSize, List.map_append, List.sum_append]
  rfl

/-- A place in 32 bits, or below what has been undone. -/
theorem lastSlot_lt {ops : List UnwindOp} {below : ℕ} {slot : Option ℕ}
    (hlt : below + totalSize ops < 2 ^ 32) (hslot : ∀ n ∈ slot, n < 2 ^ 32) :
    ∀ n ∈ lastSlot ops below slot, n < 2 ^ 32 := by
  induction ops generalizing below slot with
  | nil => exact hslot
  | cons op ops ih =>
    rw [totalSize_cons, ← Nat.add_assoc] at hlt
    refine ih hlt fun n hn => ?_
    have hor : op.slotOf below = some n ∨ slot = some n :=
      (Option.or_eq_some_iff.mp hn).imp_right And.right
    obtain hop | hn := hor
    · match op, hop with
      | .Push reg, hop =>
        obtain rfl := Option.some.inj (Option.ite_none_right_eq_some.mp hop).2
        omega
      | .Save reg offset, hop =>
        obtain rfl := Option.some.inj (Option.ite_none_right_eq_some.mp hop).2
        exact offset.isLt
    · exact hslot n hn

end UnwindOp

/-! ## What is undone -/

/-- What is behind the operations that are undone. -/
inductive PrologEnd where
  | function
  | machFrame (error : Bool)
  | failed (e : VmError)

namespace FunctionEntry

variable (function : FunctionEntry) (ip : Option U32)

/-- Whether an operation has not been executed yet at an offset of the prolog. Behind the
prolog all have been. -/
def isAhead (opOffset : BitVec 8) : Bool := ip.any (· < opOffset.setWidth 32)

/-- The operations that are undone: those that have been executed, up to a machine frame or
a code that is not valid. -/
def undoneOf : List (Option (BitVec 8 × UnwindOp)) → List UnwindOp
  | some (opOffset, op) :: items =>
    if isAhead ip opOffset then undoneOf items
    else
      match op with
      | .PushMachFrame _ => []
      | op => op :: undoneOf items
  | _ => []

/-- What is behind them. A machine frame is the last code, of an entry without a parent. -/
def endingOf : List (Option (BitVec 8 × UnwindOp)) → PrologEnd
  | [] => .function
  | none :: _ => .failed (.new "invalid unwind code")
  | some (opOffset, op) :: items =>
    if isAhead ip opOffset then endingOf items
    else
      match op with
      | .PushMachFrame error =>
        if !items.isEmpty then
          .failed (.ofStr "unsupported UWOP_MACHFRAME in the middle of unwind ops")
        else if function.mother.isSome then
          .failed (.ofStr "unsupported UWOP_MACHFRAME with mother")
        else .machFrame error
      | _ => endingOf items

/-- **The operations of an entry that are undone.** -/
def undone : List UnwindOp := undoneOf ip function.iterCodes.items

/-- What is behind the operations of an entry that are undone. -/
def ending : PrologEnd := endingOf function ip function.iterCodes.items

/-- **What the operations took from the stack.** -/
def stackSize : ℕ := UnwindOp.totalSize (function.undone ip)

/-- **Where the caller's `rbp` is**, if it has been saved. -/
def rbpSlot : Option ℕ := UnwindOp.lastSlot (function.undone ip) 0 none

end FunctionEntry

/-! ## What the code computes -/

namespace FunctionEntry

open UnwindOp

/-- What `read_unwind_codes` returns behind the last operation. -/
def finish (size : U32) (slot : Option U32) :
    PrologEnd → Exec VmError (Option U32 × UnwindStep)
  | .function => .ok (slot, .SpOffset size)
  | .machFrame error => do
    let offset ← checkedAdd size (if error then 8 else 0)
    return (slot, .MachInst offset)
  | .failed e => Exec.fail e

variable (function : FunctionEntry) (ip : Option U32)

/-- What `read_unwind_codes` returns for some items, after others. -/
def computed (items : List (Option (BitVec 8 × UnwindOp))) (spOffset : U32) (slot : Option ℕ) :
    Exec VmError (Option U32 × UnwindStep) :=
  if spOffset.toNat + totalSize (undoneOf ip items) < 2 ^ 32 then
    finish (spOffset + BitVec.ofNat 32 (totalSize (undoneOf ip items)))
      ((lastSlot (undoneOf ip items) spOffset.toNat slot).map (BitVec.ofNat 32))
      (endingOf function ip items)
  else Exec.panicked

variable {function ip}

/-- Nothing is undone. -/
theorem computed_of_undoneOf_eq_nil {items : List (Option (BitVec 8 × UnwindOp))}
    (h : undoneOf ip items = []) (spOffset : U32) (slot : Option ℕ) :
    computed function ip items spOffset slot
      = finish spOffset (slot.map (BitVec.ofNat 32)) (endingOf function ip items) := by
  rw [computed, h, totalSize_nil, if_pos (show spOffset.toNat + 0 < 2 ^ 32 from spOffset.isLt),
    show spOffset + BitVec.ofNat 32 0 = spOffset from BitVec.add_zero spOffset]
  rfl

/-- An operation that is undone, before the others. -/
theorem undoneOf_cons (function : FunctionEntry) {opOffset : BitVec 8}
    (hahead : ¬ isAhead ip opOffset = true) {op : UnwindOp} (hop : op.isMachFrame = false)
    (items : List (Option (BitVec 8 × UnwindOp))) :
    undoneOf ip (some (opOffset, op) :: items) = op :: undoneOf ip items
      ∧ endingOf function ip (some (opOffset, op) :: items) = endingOf function ip items := by
  cases op with
  | PushMachFrame error => cases hop
  | _ => exact ⟨if_neg hahead, if_neg hahead⟩

/-- One more operation is undone first. -/
theorem computed_cons {opOffset : BitVec 8} (hahead : ¬ isAhead ip opOffset = true)
    {op : UnwindOp} (hop : op.isMachFrame = false) (size : U32) (hsize : size.toNat = op.size)
    (items : List (Option (BitVec 8 × UnwindOp))) (spOffset : U32) (slot : Option ℕ) :
    computed function ip (some (opOffset, op) :: items) spOffset slot
      = checkedAdd spOffset size >>= fun spOffset' =>
        computed function ip items spOffset' ((op.slotOf spOffset.toNat).or slot) := by
  obtain ⟨hundone, hend⟩ := undoneOf_cons function hahead hop items
  refine (checkedAdd_bind_eq (fun hfits => ?_) fun hnot => ?_).symm
  · rw [computed, computed, hundone, hend, totalSize_cons, toNat_add_of_lt hfits, hsize,
      Nat.add_assoc, lastSlot, BitVec.ofNat_add, ← hsize, BitVec.ofNat_toNat, BitVec.setWidth_eq,
      BitVec.add_assoc]
  · rw [computed, hundone, totalSize_cons, if_neg (by omega)]

/-- An operation that takes nothing from the stack is undone first. -/
theorem computed_cons_of_size_eq_zero {opOffset : BitVec 8} (hahead : ¬ isAhead ip opOffset = true)
    {op : UnwindOp} (hop : op.isMachFrame = false) (hsize : op.size = 0)
    (items : List (Option (BitVec 8 × UnwindOp))) (spOffset : U32) (slot : Option ℕ) :
    computed function ip (some (opOffset, op) :: items) spOffset slot
      = computed function ip items spOffset ((op.slotOf spOffset.toNat).or slot) := by
  rw [computed_cons hahead hop 0 hsize.symm]
  refine checkedAdd_bind_eq (fun _ => ?_) fun hnot => absurd spOffset.isLt hnot
  rw [show spOffset + 0 = spOffset from BitVec.add_zero spOffset]

/-- **The loop of `read_unwind_codes`** undoes the operations, if their size fits. -/
theorem readUnwindCodesLoop_eq (function : FunctionEntry) (ip : Option U32) {rounds : ℕ}
    (codes : UnwindOpIterator) (h : codes.codes.length < rounds) (spOffset : U32)
    (slot : Option ℕ) :
    readUnwindCodesLoop function ip rounds codes spOffset (slot.map (BitVec.ofNat 32))
      = computed function ip codes.items spOffset slot := by
  induction rounds generalizing codes spOffset slot with
  | zero => exact absurd h (Nat.not_lt_zero _)
  | succ rounds ih =>
    rw [readUnwindCodesLoop]
    -- no item, one that is not valid, or an operation
    rcases hnext : codes.next with _ | ⟨_ | ⟨opOffset, op⟩, codes'⟩
    · rw [UnwindOpIterator.items_of_next_none hnext, computed_of_undoneOf_eq_nil rfl]
      rfl
    · rw [UnwindOpIterator.items_of_next_some hnext, computed_of_undoneOf_eq_nil rfl]
      rfl
    · have hlen := UnwindOpIterator.length_next hnext
      have hrest : codes'.codes.length < rounds := by omega
      rw [UnwindOpIterator.items_of_next_some hnext]
      dsimp only
      by_cases hahead : isAhead ip opOffset = true
      · have hundone : undoneOf ip (some (opOffset, op) :: codes'.items)
            = undoneOf ip codes'.items := if_pos hahead
        have hend : endingOf function ip (some (opOffset, op) :: codes'.items)
            = endingOf function ip codes'.items := if_pos hahead
        rw [show ip.any (· < opOffset.setWidth 32) = true from hahead, if_pos rfl,
          ih codes' hrest, computed, computed, hundone, hend]
      · rw [show ip.any (· < opOffset.setWidth 32) = isAhead ip opOffset from rfl,
          if_neg hahead]
        have hslot : ∀ (reg : Reg) (n : ℕ),
            (if reg = Reg.rbp then some (BitVec.ofNat 32 n) else slot.map (BitVec.ofNat 32))
              = ((if reg = Reg.rbp then some n else none).or slot).map (BitVec.ofNat 32) := by
          intro reg n
          split <;> rfl
        cases op with
        | Push reg =>
          rw [computed_cons hahead rfl 8 rfl]
          refine congrArg (checkedAdd spOffset 8 >>= ·) (funext fun spOffset' => ?_)
          rw [← ih codes' hrest, UnwindOp.slotOf, ← hslot, BitVec.ofNat_toNat, BitVec.setWidth_eq]
        | Alloc size =>
          rw [computed_cons hahead rfl size rfl]
          exact congrArg _ (funext fun spOffset' => ih codes' hrest spOffset' slot)
        | PushMachFrame error =>
          rw [computed_of_undoneOf_eq_nil (by rw [undoneOf, if_neg hahead]), endingOf,
            if_neg hahead]
          dsimp only
          rw [readMachFrame, UnwindOpIterator.items_isEmpty, Bool.not_not]
          split
          · rfl
          · split <;> rfl
        | Save reg offset =>
          rw [computed_cons_of_size_eq_zero hahead rfl rfl, ← ih codes' hrest,
            UnwindOp.slotOf, ← hslot, BitVec.ofNat_toNat, BitVec.setWidth_eq]
        | SetFpReg =>
          rw [computed_cons_of_size_eq_zero hahead rfl rfl]
          exact ih codes' hrest spOffset slot
        | Epilog =>
          rw [computed_cons_of_size_eq_zero hahead rfl rfl]
          exact ih codes' hrest spOffset slot
        | SaveXmm128 reg offset =>
          rw [computed_cons_of_size_eq_zero hahead rfl rfl]
          exact ih codes' hrest spOffset slot

/-- **`read_unwind_codes` undoes the operations that have been executed**, if what they took
from the stack fits 32 bits. -/
theorem readUnwindCodes_eq (function : FunctionEntry) (ip : Option U32) :
    readUnwindCodes function ip
      = if function.stackSize ip < 2 ^ 32 then
          finish (BitVec.ofNat 32 (function.stackSize ip))
            ((function.rbpSlot ip).map (BitVec.ofNat 32)) (function.ending ip)
        else Exec.panicked := by
  have h := readUnwindCodesLoop_eq function ip function.iterCodes
    (Nat.lt_succ_self function.unwindCodes.length) 0 none
  rw [computed, show (0 : U32).toNat = 0 from rfl, Nat.zero_add] at h
  rw [show ∀ size : U32, 0 + size = size from BitVec.zero_add] at h
  exact h

/-- Where the operations are undone to the last, that is what it returns. -/
theorem ending_of_readUnwindCodes {function : FunctionEntry} {ip : Option U32}
    {slot : Option U32} {size : U32}
    (h : readUnwindCodes function ip = .ok (slot, .SpOffset size)) :
    function.stackSize ip < 2 ^ 32 ∧ function.ending ip = .function
      ∧ (function.rbpSlot ip).map (BitVec.ofNat 32) = slot
      ∧ BitVec.ofNat 32 (function.stackSize ip) = size := by
  rw [readUnwindCodes_eq] at h
  split at h
  · next hsize =>
    cases hend : function.ending ip with
    | function =>
      rw [hend] at h
      obtain ⟨hslot, hstep⟩ := Prod.mk.inj (Except.ok.inj h)
      exact ⟨hsize, rfl, hslot, UnwindStep.SpOffset.inj hstep⟩
    | machFrame error =>
      rw [hend] at h
      obtain ⟨_, -, h⟩ := (Exec.bind_eq_ok_iff _ _ _).mp h
      cases h
    | failed e =>
      rw [hend] at h
      cases h
  · cases h

/-- Where the caller's `rbp` is fits 32 bits as well. -/
theorem rbpSlot_lt {function : FunctionEntry} {ip : Option U32}
    (h : function.stackSize ip < 2 ^ 32) : ∀ n ∈ function.rbpSlot ip, n < 2 ^ 32 :=
  lastSlot_lt (by rw [Nat.zero_add]; exact h) fun _ h => (nomatch h)

end FunctionEntry
