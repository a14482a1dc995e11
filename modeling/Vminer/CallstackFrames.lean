import Vminer.ModuleSearch
import Vminer.OnceMap
import Vminer.Rounds

/-!
# Frames of a call stack

What the unwinders of the two guest systems share. A walk of a stack has one frame:
a round looks its module up and completes it, hands it out, and overwrites in it
what the next round starts with. Beside the frame it keeps the base pointer and the
unwind data of the modules it came through.

A frame that is handed out should describe its own instruction pointer and not that
of an earlier round (`Describes`).
-/

namespace Callstack

/-- The buffer for the content of a module, `vec![0; len]`: its size is that of a signed
number at most. -/
def zeroes (len : ℕ) : Exec VmError (List UInt8) :=
  if len < 2 ^ 63 then .ok (List.replicate len 0) else Exec.panicked

/-- What a walk keeps from one round to the next. -/
structure State (κ υ : Type) where
  frame : StackFrame
  basePointer : Option VirtualAddress
  /-- The unwind data found so far. -/
  cache : OnceMap κ υ

/-- What a walk starts with. -/
def State.init (κ υ : Type) (instructionPointer stackPointer : VirtualAddress)
    (basePointer : Option VirtualAddress) : State κ υ where
  frame :=
    { start := none, size := none, stackPointer, instructionPointer, module := none }
  basePointer
  cache := .new

/-- The registers that the step to the caller starts with. -/
structure Registers where
  instructionPointer : VirtualAddress
  stackPointer : VirtualAddress
  basePointer : Option VirtualAddress
deriving DecidableEq, Repr

/-- The registers in a state. -/
def State.registers {κ υ : Type} (st : State κ υ) : Registers where
  instructionPointer := st.frame.instructionPointer
  stackPointer := st.frame.stackPointer
  basePointer := st.basePointer

/-- A frame of which nothing else is known. -/
def Registers.frame (r : Registers) : StackFrame where
  start := none
  size := none
  stackPointer := r.stackPointer
  instructionPointer := r.instructionPointer
  module := none

/-- **A frame describes its own step**: its instruction pointer is in the span of its
module, and its start and size are those of the code there. -/
structure Describes (moduleSpan : Os.Module → Exec VmError (VirtualAddress × VirtualAddress))
    (IsStart : VirtualAddress → VirtualAddress → Prop) (IsSize : VirtualAddress → U64 → Prop)
    (frame : StackFrame) : Prop where
  module : ∀ m, frame.module = some m → ∃ start stop, moduleSpan m = .ok (start, stop)
    ∧ start ≤ frame.instructionPointer ∧ frame.instructionPointer < stop
  start : ∀ addr, frame.start = some addr → IsStart frame.instructionPointer addr
  size : ∀ size, frame.size = some size → IsSize frame.instructionPointer size

/-! ## Modules -/

/-- **A module that is found** is one of the vector, and the address is where it
starts or in it. -/
theorem findByAddress_eq_some {modules : List Module} {addr : VirtualAddress} {m : Module}
    (h : findByAddress modules addr = some m) :
    m ∈ modules ∧ (m.start = addr ∨ m.contains addr = true) := by
  unfold findByAddress at h
  cases hs : binarySearchByKey (m := Id) Module.first addr.toNat modules with
  | ok i =>
    rw [hs] at h
    dsimp only at h
    obtain ⟨x, hx, hkey⟩ := binarySearchByKey_ok hs
    obtain rfl := Option.some.inj (hx.symm.trans h)
    exact ⟨List.mem_of_getElem? h, Or.inl (BitVec.eq_of_toNat_eq hkey)⟩
  | error i =>
    rw [hs] at h
    cases i with
    | zero => cases h
    | succ i =>
      obtain ⟨hget, hcontains⟩ := Option.filter_eq_some_iff.mp h
      exact ⟨List.mem_of_getElem? hget, Or.inr hcontains⟩

/-! ## Finitely many states -/

instance : Finite Os.Module :=
  Finite.of_injective Os.Module.addr fun a b h => by
    cases a
    cases b
    simp_all

instance : Finite Module :=
  Finite.of_injective (fun m => (m.start, m.stop, m.module)) fun a b h => by
    cases a
    cases b
    simp_all

instance : Finite Registers :=
  Finite.of_injective (fun r => (r.instructionPointer, r.stackPointer, r.basePointer))
    fun a b h => by
      cases a
      cases b
      simp_all

end Callstack
