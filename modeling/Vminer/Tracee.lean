import Vminer.Session
import Vminer.ProcMaps

/-!
# Calling functions in another process

`Tracee` makes the process it is attached to execute functions: it saves the
registers and three bytes of code of the process, writes a call and a trap in
their place, and for every call sets the registers – with the stack pointer moved
below what the process may be using – and lets the process run into the trap.
When it is dropped it writes back the bytes and the registers.

The process is seen through its registers and its memory, in which a byte that is
not mapped can neither be read nor written; the rest of what its steps depend on is
a state of any type. What the process does between two stops is not in the source:
`Process.resume` is any function of all three, and getting and setting the registers can
fail at any time. The calls are recorded, each with its arguments, the memory it was made
with and what it returned.
-/

/-! ## Registers -/

/-- **The registers of an architecture** as `ptrace` sees them, and the
instructions that make a call. -/
class RemoteArch (R : Type) where
  /-- `INSTRUCTIONS` -/
  instructions : List UInt8
  length_instructions : instructions.length ≤ 8
  instructionPointer : R → U64
  setInstructionPointer : R → U64 → R
  stackPointer : R → U64
  setStackPointer : R → U64 → R
  prepareFuncall0 : R → U64 → R
  prepareFuncall1 : R → U64 → U64 → R
  prepareFuncall2 : R → U64 → U64 → U64 → R
  prepareFuncall6 : R → U64 → U64 → U64 → U64 → U64 → U64 → U64 → R
  returnValue : R → U64

/-- `Registers::move_stack` -/
def RemoteArch.moveStack {R : Type} [RemoteArch R] (r : R) : Exec VmError R := do
  let sp ← checkedSub (RemoteArch.stackPointer r) 0x100
  return RemoteArch.setStackPointer r (sp &&& ~~~0xf)

namespace Remote

namespace X86_64

/-- `libc::user_regs_struct` -/
structure Registers where
  r15 : U64
  r14 : U64
  r13 : U64
  r12 : U64
  rbp : U64
  rbx : U64
  r11 : U64
  r10 : U64
  r9 : U64
  r8 : U64
  rax : U64
  rcx : U64
  rdx : U64
  rsi : U64
  rdi : U64
  origRax : U64
  rip : U64
  cs : U64
  eflags : U64
  rsp : U64
  ss : U64
  fsBase : U64
  gsBase : U64
  ds : U64
  es : U64
  fs : U64
  gs : U64
deriving DecidableEq, Repr

instance : RemoteArch Registers where
  -- call rax; int3
  instructions := [0xff, 0xd0, 0xcc]
  length_instructions := by decide
  instructionPointer r := r.rip
  setInstructionPointer r addr := { r with rip := addr }
  stackPointer r := r.rsp
  setStackPointer r addr := { r with rsp := addr }
  prepareFuncall0 r addr := { r with rax := addr }
  prepareFuncall1 r addr a := { r with rax := addr, rdi := a }
  prepareFuncall2 r addr a b := { r with rax := addr, rdi := a, rsi := b }
  prepareFuncall6 r addr a b c d e f :=
    { r with rax := addr, rdi := a, rsi := b, rdx := c, rcx := d, r8 := e, r9 := f }
  returnValue r := r.rax

end X86_64

namespace Aarch64

/-- `libc::user_regs_struct` -/
structure Registers where
  regs : Fin 31 → U64
  sp : U64
  pc : U64
  pstate : U64
deriving DecidableEq

/-- Some of the numbered registers set. -/
def Registers.set (r : Registers) (values : List (Fin 31 × U64)) : Registers :=
  { r with regs := values.foldl (fun regs v => Function.update regs v.1 v.2) r.regs }

instance : RemoteArch Registers where
  -- blr x8; brk #0
  instructions := [0x00, 0x01, 0x3f, 0xd6, 0x00, 0x00, 0x20, 0xd4]
  length_instructions := by decide
  instructionPointer r := r.pc
  setInstructionPointer r addr := { r with pc := addr }
  stackPointer r := r.sp
  setStackPointer r addr := { r with sp := addr }
  prepareFuncall0 r addr := r.set [(8, addr)]
  prepareFuncall1 r addr a := r.set [(8, addr), (0, a)]
  prepareFuncall2 r addr a b := r.set [(8, addr), (0, a), (1, b)]
  prepareFuncall6 r addr a b c d e f :=
    r.set [(8, addr), (0, a), (1, b), (2, c), (3, d), (4, e), (5, f)]
  returnValue r := r.regs 0

end Aarch64

/-! ## The process -/

/-- The memory of a process: the bytes that are mapped. -/
abbrev Mem : Type := U64 → Option UInt8

/-- The functions that are called in the process. -/
inductive Function where
  | mmap
  | dlopen
  | dlsym
  | payload
  | dlclose
  | dlerror
  | errnoLocation
deriving DecidableEq, Repr

/-- A call: what it was made with and, if it came back, what it returned. -/
structure Call where
  function : Function
  address : U64
  args : List U64
  mem : Mem
  result : Option U64

/-- The process as `ptrace` sees it, what else its steps depend on, and the calls
made in it so far. -/
structure State (R W : Type) where
  regs : R
  mem : Mem
  world : W
  calls : List Call

/-- How `PTRACE_SETREGSET` ends: where it does not set all the registers, it leaves any of
them behind. -/
inductive SetRegset (R : Type) where
  | done
  | short (left : R)
  | failed (e : IoError) (left : R)

/-- **What the source leaves to the system**: whether the process can be attached
to, what is mapped in it, whether its registers can be read and set, and what it does until
it stops again. -/
structure Process (R W : Type) where
  /-- Opening `/proc/{pid}/mem`. -/
  openMem : Except IoError Unit
  /-- `PTRACE_ATTACH`, and waiting for it. -/
  attach : Except IoError Unit
  /-- The path of its file of mappings, and the file when the process has stopped. -/
  mapsPath : String
  maps : Except IoError (List UInt8)
  /-- `PTRACE_GETREGSET`: whether all the registers are filled in. -/
  getRegset : R → W → Except IoError Bool
  /-- `PTRACE_SETREGSET`, from the registers that there are to the others. -/
  setRegset : R → R → W → SetRegset R
  /-- `PTRACE_CONT`, and waiting for the process to stop. -/
  resume : R → Mem → W → Except IoError Unit × R × Mem × W

/-- An I/O error as the error of an operation. -/
def ofIo (x : Except IoError Unit) : Exec VmError Unit :=
  match x with
  | .ok () => .ok ()
  | .error e => Exec.fail (.io e)

/-- What reading and writing memory that is not mapped fails with. -/
def notMapped : VmError := .io (.os 5)

/-- The bytes at an address, if they are mapped. -/
def bytesOf (mem : Mem) : U64 → ℕ → Option (List UInt8)
  | _, 0 => some []
  | addr, n + 1 => do
    let b ← mem addr
    let bytes ← bytesOf mem (addr + 1) n
    return b :: bytes

/-- Bytes written at an address, up to the first that is not mapped. -/
def writeBytes (mem : Mem) : U64 → List UInt8 → Except Unit Unit × Mem
  | _, [] => (.ok (), mem)
  | addr, b :: bytes =>
    match mem addr with
    | none => (.error (), mem)
    | some _ => writeBytes (Function.update mem addr (some b)) (addr + 1) bytes

section Operations

variable {R W : Type}

/-- `read_exact_at` on `/proc/{pid}/mem`, also `peek_data`. -/
def peekData (addr : U64) (n : ℕ) : Session (State R W) VmError (List UInt8) := fun s =>
  (Exec.okOr (bytesOf s.mem addr n) notMapped, s)

/-- `write_all_at` on `/proc/{pid}/mem`, also `poke_data`. -/
def pokeData (addr : U64) (bytes : List UInt8) : Session (State R W) VmError Unit := fun s =>
  match writeBytes s.mem addr bytes with
  | (.ok (), mem) => (.ok (), { s with mem := mem })
  | (.error (), mem) => (Exec.fail notMapped, { s with mem := mem })

/-- `RawTracee::get_registers` -/
def getRegisters (p : Process R W) : Session (State R W) VmError R := fun s =>
  match p.getRegset s.regs s.world with
  | .ok true => (.ok s.regs, s)
  | .ok false => (Exec.fail (VmError.new "failed to fill registers"), s)
  | .error e => (Exec.fail (.context "failed to get registers" (some (.io e))), s)

/-- `RawTracee::set_registers` -/
def setRegisters (p : Process R W) (regs : R) : Session (State R W) VmError Unit := fun s =>
  match p.setRegset s.regs regs s.world with
  | .done => (.ok (), { s with regs := regs })
  | .short left =>
    (Exec.fail (VmError.new "failed to set registers"), { s with regs := left })
  | .failed e left =>
    (Exec.fail (.context "failed to set registers" (some (.io e))), { s with regs := left })

/-- The process runs until it stops. -/
def resume (p : Process R W) : Session (State R W) VmError Unit := fun s =>
  let (r, regs, mem, world) := p.resume s.regs s.mem s.world
  (ofIo r, { s with regs := regs, mem := mem, world := world })

/-- A call with its record. -/
def recorded (function : Function) (address : U64) (args : List U64)
    (x : Session (State R W) VmError U64) : Session (State R W) VmError U64 := fun s =>
  let (r, s') := x s
  (r, { s' with calls := s'.calls ++ [⟨function, address, args, s.mem, r.toOption⟩] })

/-- A word as `{:#x}` writes it. -/
def hex (v : U64) : String := "0x" ++ String.ofList (Nat.toDigits 16 v.toNat)

end Operations

end Remote

open Remote

/-- `Tracee`: what it restores. -/
structure Tracee (R : Type) where
  registers : R
  instrs : List UInt8
  instrsAddr : U64

namespace Tracee

variable {R W : Type} [RemoteArch R]

/-- `Tracee::attach` -/
def attach (p : Process R W) : Session (State R W) VmError (Tracee R) := do
  Session.lift (ofIo p.openMem)
  Session.lift (ofIo p.attach)
  let registers ← getRegisters p
  let instrsAddr ← Session.lift (findLib p.mapsPath p.maps "/")
  let instrs ← peekData instrsAddr (RemoteArch.instructions R).length
  pokeData instrsAddr (RemoteArch.instructions R)
  return ⟨registers, instrs, instrsAddr⟩

/-- `Tracee::do_funcall` -/
def doFuncall (p : Process R W) (t : Tracee R) (registers : R) :
    Session (State R W) VmError U64 := do
  let registers ← Session.lift (RemoteArch.moveStack registers)
  setRegisters p (RemoteArch.setInstructionPointer registers t.instrsAddr)
  resume p
  let registers ← getRegisters p
  let ip := RemoteArch.instructionPointer registers
  let trap ← Session.lift
    (checkedAddNat t.instrsAddr (RemoteArch.instructions R).length)
  if ip ≠ trap then
    Session.lift (Exec.fail (VmError.new ("unexpected return address: " ++ hex ip)))
  else return RemoteArch.returnValue registers

/-- `Tracee::funcall0` -/
def funcall0 (p : Process R W) (t : Tracee R) (function : Function) (addr : U64) :
    Session (State R W) VmError U64 :=
  recorded function addr [] (doFuncall p t (RemoteArch.prepareFuncall0 t.registers addr))

/-- `Tracee::funcall1` -/
def funcall1 (p : Process R W) (t : Tracee R) (function : Function) (addr a : U64) :
    Session (State R W) VmError U64 :=
  recorded function addr [a]
    (doFuncall p t (RemoteArch.prepareFuncall1 t.registers addr a))

/-- `Tracee::funcall2` -/
def funcall2 (p : Process R W) (t : Tracee R) (function : Function) (addr a b : U64) :
    Session (State R W) VmError U64 :=
  recorded function addr [a, b]
    (doFuncall p t (RemoteArch.prepareFuncall2 t.registers addr a b))

/-- `Tracee::funcall6` -/
def funcall6 (p : Process R W) (t : Tracee R) (function : Function)
    (addr a b c d e f : U64) : Session (State R W) VmError U64 :=
  recorded function addr [a, b, c, d, e, f]
    (doFuncall p t (RemoteArch.prepareFuncall6 t.registers addr a b c d e f))

/-- `Drop for Tracee`. An error is only logged. -/
def drop (p : Process R W) (t : Tracee R) : Session (State R W) VmError Unit := do
  pokeData t.instrsAddr t.instrs
  setRegisters p t.registers

end Tracee

/-! ## What is read and written -/

namespace Remote

/-- The addresses of `n` bytes. -/
def window (addr : U64) (n : ℕ) : Set U64 := {a | ∃ i < n, a = addr + BitVec.ofNat 64 i}

theorem add_one_add_ofNat (addr : U64) (i : ℕ) :
    addr + 1 + BitVec.ofNat 64 i = addr + BitVec.ofNat 64 (i + 1) := by
  rw [BitVec.add_assoc, Nat.add_comm i 1, BitVec.ofNat_add]
  rfl

theorem window_succ (addr : U64) (n : ℕ) :
    window addr (n + 1) = insert addr (window (addr + 1) n) := by
  ext a
  constructor
  · rintro ⟨i, hi, rfl⟩
    cases i with
    | zero => exact .inl (BitVec.add_zero addr)
    | succ i => exact .inr ⟨i, Nat.lt_of_succ_lt_succ hi, (add_one_add_ofNat addr i).symm⟩
  · rintro (rfl | ⟨i, hi, rfl⟩)
    · exact ⟨0, Nat.succ_pos n, (BitVec.add_zero a).symm⟩
    · exact ⟨i + 1, Nat.succ_lt_succ hi, add_one_add_ofNat addr i⟩

theorem window_zero (addr : U64) : window addr 0 = ∅ :=
  Set.eq_empty_of_forall_notMem fun _ ⟨_, hi, _⟩ => Nat.not_lt_zero _ hi

theorem window_mono (addr : U64) {m n : ℕ} (h : m ≤ n) : window addr m ⊆ window addr n :=
  fun _ ⟨i, hi, ha⟩ => ⟨i, hi.trans_le h, ha⟩

/-- An address is not met again in fewer than `2 ^ 64` bytes. -/
theorem not_mem_window_add_one (addr : U64) {n : ℕ} (h : n + 1 ≤ 2 ^ 64) :
    addr ∉ window (addr + 1) n := by
  rintro ⟨i, hi, heq⟩
  have hsum := congrArg BitVec.toNat heq
  have hlt := addr.isLt
  rw [add_one_add_ofNat, BitVec.toNat_add, BitVec.toNat_ofNat] at hsum
  omega

variable {mem mem' : Mem} {addr : U64}

theorem bytesOf_succ_eq_some_iff (mem : Mem) (addr : U64) (n : ℕ) (l : List UInt8) :
    bytesOf mem addr (n + 1) = some l
      ↔ ∃ b bytes, mem addr = some b ∧ bytesOf mem (addr + 1) n = some bytes ∧ l = b :: bytes := by
  rw [bytesOf]
  simp only [Option.bind_eq_bind, Option.bind_eq_some_iff, Option.pure_def, Option.some.injEq]
  exact ⟨fun ⟨b, hb, bytes, hbytes, h⟩ => ⟨b, bytes, hb, hbytes, h.symm⟩,
    fun ⟨b, bytes, hb, hbytes, h⟩ => ⟨b, hb, bytes, hbytes, h.symm⟩⟩

/-- Only the bytes that are read count. -/
theorem bytesOf_congr {n : ℕ} (h : ∀ a ∈ window addr n, mem' a = mem a) :
    bytesOf mem' addr n = bytesOf mem addr n := by
  induction n generalizing addr with
  | zero => rfl
  | succ n ih =>
    rw [window_succ, Set.forall_mem_insert] at h
    rw [bytesOf, bytesOf, h.1, ih h.2]

/-- What can be read is mapped. -/
theorem isSome_of_bytesOf {n : ℕ} {bytes : List UInt8} (h : bytesOf mem addr n = some bytes) :
    bytes.length = n ∧ ∀ a ∈ window addr n, (mem a).isSome := by
  induction n generalizing addr bytes with
  | zero =>
    obtain rfl := Option.some.inj h
    exact ⟨rfl, fun a ha => absurd ha (by rw [window_zero]; exact Set.notMem_empty a)⟩
  | succ n ih =>
    obtain ⟨b, rest, hb, hrest, rfl⟩ := (bytesOf_succ_eq_some_iff _ _ _ _).mp h
    obtain ⟨hlen, hmapped⟩ := ih hrest
    rw [window_succ, Set.forall_mem_insert]
    exact ⟨congrArg (· + 1) hlen, by rw [hb]; rfl, hmapped⟩

/-- What is read in two parts. -/
theorem bytesOf_append {l₁ l₂ : List UInt8}
    (h : bytesOf mem addr (l₁ ++ l₂).length = some (l₁ ++ l₂)) :
    bytesOf mem addr l₁.length = some l₁
      ∧ bytesOf mem (addr + BitVec.ofNat 64 l₁.length) l₂.length = some l₂ := by
  induction l₁ generalizing addr with
  | nil =>
    refine ⟨rfl, ?_⟩
    rw [List.length_nil, BitVec.add_zero]
    exact h
  | cons b l₁ ih =>
    obtain ⟨b', rest, hb, hrest, heq⟩ := (bytesOf_succ_eq_some_iff _ _ _ _).mp h
    obtain ⟨rfl, rfl⟩ := List.cons.inj heq
    obtain ⟨hleft, hright⟩ := ih hrest
    refine ⟨(bytesOf_succ_eq_some_iff _ _ _ _).mpr ⟨b, l₁, hb, hleft, rfl⟩, ?_⟩
    rwa [List.length_cons, ← add_one_add_ofNat]

/-- **The bytes that are read determine the memory there.** -/
theorem eq_of_bytesOf {n : ℕ} {bytes : List UInt8} (h : bytesOf mem addr n = some bytes)
    (h' : bytesOf mem' addr n = some bytes) : ∀ a ∈ window addr n, mem' a = mem a := by
  induction n generalizing addr bytes with
  | zero => exact fun a ha => absurd ha (by rw [window_zero]; exact Set.notMem_empty a)
  | succ n ih =>
    obtain ⟨b, rest, hb, hrest, rfl⟩ := (bytesOf_succ_eq_some_iff _ _ _ _).mp h
    obtain ⟨b', rest', hb', hrest', heq⟩ := (bytesOf_succ_eq_some_iff _ _ _ _).mp h'
    obtain ⟨rfl, rfl⟩ := List.cons.inj heq
    rw [window_succ, Set.forall_mem_insert]
    exact ⟨hb'.trans hb.symm, ih hrest hrest'⟩

/-- A write changes nothing outside. -/
theorem writeBytes_of_not_mem {bytes : List UInt8} {a : U64}
    (h : a ∉ window addr bytes.length) : (writeBytes mem addr bytes).2 a = mem a := by
  induction bytes generalizing mem addr with
  | nil => rfl
  | cons b bytes ih =>
    rw [List.length_cons, window_succ, Set.mem_insert_iff, not_or] at h
    rw [writeBytes]
    cases mem addr with
    | none => rfl
    | some _ =>
      dsimp only
      rw [ih h.2]
      exact Function.update_of_ne h.1 _ _

/-- A write maps nothing and unmaps nothing. -/
theorem isSome_writeBytes (bytes : List UInt8) (a : U64) :
    ((writeBytes mem addr bytes).2 a).isSome = (mem a).isSome := by
  induction bytes generalizing mem addr with
  | nil => rfl
  | cons b bytes ih =>
    rw [writeBytes]
    cases hmem : mem addr with
    | none => rfl
    | some old =>
      dsimp only
      rw [ih]
      by_cases ha : a = addr
      · rw [ha, Function.update_self, hmem]
        rfl
      · rw [Function.update_of_ne ha]

/-- A write to what is mapped succeeds. -/
theorem writeBytes_ok {bytes : List UInt8}
    (h : ∀ a ∈ window addr bytes.length, (mem a).isSome) :
    (writeBytes mem addr bytes).1 = .ok () := by
  induction bytes generalizing mem addr with
  | nil => rfl
  | cons b bytes ih =>
    rw [List.length_cons, window_succ, Set.forall_mem_insert] at h
    obtain ⟨old, hold⟩ := Option.isSome_iff_exists.mp h.1
    rw [writeBytes, hold]
    refine ih fun a ha => ?_
    by_cases heq : a = addr
    · rw [heq, Function.update_self]
      rfl
    · rw [Function.update_of_ne heq]
      exact h.2 a ha

/-- **What was written is read back.** -/
theorem bytesOf_writeBytes {bytes : List UInt8} (hlen : bytes.length ≤ 2 ^ 64)
    (h : (writeBytes mem addr bytes).1 = .ok ()) :
    bytesOf (writeBytes mem addr bytes).2 addr bytes.length = some bytes := by
  induction bytes generalizing mem addr with
  | nil => rfl
  | cons b bytes ih =>
    rw [writeBytes] at h ⊢
    cases hmem : mem addr with
    | none =>
      rw [hmem] at h
      exact absurd h (fun heq => by cases heq)
    | some old =>
      rw [hmem] at h
      have hrest := ih (Nat.le_of_succ_le hlen) h
      refine (bytesOf_succ_eq_some_iff _ _ _ _).mpr ⟨b, bytes, ?_, hrest, rfl⟩
      dsimp only
      rw [writeBytes_of_not_mem (not_mem_window_add_one addr hlen), Function.update_self]

end Remote

section Access

variable {R W : Type} {s : Remote.State R W} {addr : U64}

theorem Remote.pokeData_of_mapped {bytes : List UInt8}
    (h : ∀ a ∈ window addr bytes.length, (s.mem a).isSome) :
    pokeData addr bytes s = (.ok (), { s with mem := (writeBytes s.mem addr bytes).2 }) := by
  have hok := writeBytes_ok h
  rw [pokeData]
  rcases hwrite : writeBytes s.mem addr bytes with ⟨r, mem⟩
  rw [hwrite] at hok
  obtain rfl : r = .ok () := hok
  rfl

theorem Remote.peekData_of_some {n : ℕ} {bytes : List UInt8}
    (h : bytesOf s.mem addr n = some bytes) : peekData addr n s = (.ok bytes, s) := by
  rw [peekData, h]
  rfl

theorem Remote.peekData_of_none {n : ℕ} (h : bytesOf s.mem addr n = none) :
    peekData addr n s = (Exec.fail notMapped, s) := by
  rw [peekData, h]
  rfl

end Access

/-! ## What a call does -/

section Registers

variable {R W : Type} (p : Remote.Process R W)

theorem Remote.getRegisters_cases (s : Remote.State R W) :
    getRegisters p s = (.ok s.regs, s) ∨ ∃ e, getRegisters p s = (Exec.fail e, s) := by
  rw [getRegisters]
  rcases p.getRegset s.regs s.world with e | _ | _
  · exact .inr ⟨_, rfl⟩
  · exact .inr ⟨_, rfl⟩
  · exact .inl rfl

/-- **The registers are set**, or some are and it fails. -/
theorem Remote.setRegisters_cases (regs : R) (s : Remote.State R W) :
    setRegisters p regs s = (.ok (), { s with regs := regs })
      ∨ p.setRegset s.regs regs s.world ≠ .done
        ∧ ∃ e left, setRegisters p regs s = (Exec.fail e, { s with regs := left }) := by
  rw [setRegisters]
  rcases p.setRegset s.regs regs s.world with _ | left | ⟨e, left⟩
  · exact .inl rfl
  · exact .inr ⟨(fun heq => by cases heq), _, left, rfl⟩
  · exact .inr ⟨(fun heq => by cases heq), _, left, rfl⟩

end Registers

theorem RemoteArch.moveStack_cases {R : Type} [RemoteArch R] (r : R) :
    RemoteArch.moveStack r = Exec.panicked ∨ ∃ r', RemoteArch.moveStack r = .ok r' := by
  rw [RemoteArch.moveStack, checkedSub]
  split
  · exact .inr ⟨_, rfl⟩
  · exact .inl rfl

section Calls

variable {R W : Type}

/-- **What is left alone** between two states: the addresses owned in the first one
are owned in the second one, with the same bytes. -/
def Remote.Kept (owned : W → Set U64) (s s' : State R W) : Prop :=
  ∀ a ∈ owned s.world, s'.mem a = s.mem a ∧ a ∈ owned s'.world

theorem Remote.Kept.refl (owned : W → Set U64) (s : State R W) : Kept owned s s :=
  fun _ ha => ⟨rfl, ha⟩

theorem Remote.Kept.trans {owned : W → Set U64} {s s' s'' : State R W} (h : Kept owned s s')
    (h' : Kept owned s' s'') : Kept owned s s'' := fun a ha =>
  ⟨(h' a (h a ha).2).1.trans (h a ha).1, (h' a (h a ha).2).2⟩

/-- What is owned can be read as before. -/
theorem Remote.Kept.bytesOf_eq {owned : W → Set U64} {s s' : State R W} (h : Kept owned s s')
    {addr : U64} {n : ℕ} (ha : window addr n ⊆ owned s.world) :
    bytesOf s'.mem addr n = bytesOf s.mem addr n :=
  bytesOf_congr fun a hmem => (h a (ha hmem)).1

/-- **The functions of a process leave alone what it owns**: code they are not part
of, data that is not theirs. -/
def Remote.Process.Leaves (p : Process R W) (owned : W → Set U64) : Prop :=
  ∀ regs mem world, ∀ a ∈ owned world,
    (p.resume regs mem world).2.2.1 a = mem a ∧ a ∈ owned (p.resume regs mem world).2.2.2

/-- **A function comes back** from where the process is resumed: it has stopped at the trap,
with this value. -/
def Remote.Process.ComesBack [RemoteArch R] (p : Process R W) (instrsAddr : U64) (regs : R)
    (mem : Mem) (world : W) (value : U64) : Prop :=
  (p.resume regs mem world).1 = .ok ()
    ∧ RemoteArch.instructionPointer (p.resume regs mem world).2.1
      = instrsAddr + BitVec.ofNat 64 (RemoteArch.instructions R).length
    ∧ value = RemoteArch.returnValue (p.resume regs mem world).2.1

/-- The state a process is in when it has stopped again. -/
def Remote.resumed (p : Process R W) (regs : R) (s : State R W) : State R W :=
  { s with
    regs := (p.resume regs s.mem s.world).2.1
    mem := (p.resume regs s.mem s.world).2.2.1
    world := (p.resume regs s.mem s.world).2.2.2 }

namespace Tracee

/-! ### What is restored -/

/-- **A process that is attached to**, which was in the state `s₀` before: all that is
owned is as it was but for the code that was overwritten. -/
structure Attached (owned : W → Set U64) (s₀ : State R W) (t : Tracee R) (s : State R W) :
    Prop where
  registers_eq : t.registers = s₀.regs
  length_le : t.instrs.length ≤ 2 ^ 64
  saved : bytesOf s₀.mem t.instrsAddr t.instrs.length = some t.instrs
  code_owned : window t.instrsAddr t.instrs.length ⊆ owned s₀.world
  mapped : ∀ a ∈ window t.instrsAddr t.instrs.length, (s.mem a).isSome
  others : ∀ a ∈ owned s₀.world, a ∉ window t.instrsAddr t.instrs.length →
    s.mem a = s₀.mem a
  still_owned : owned s₀.world ⊆ owned s.world

namespace Attached

variable {owned : W → Set U64} {s₀ s s' : State R W} {t : Tracee R}

theorem of_kept (h : t.Attached owned s₀ s) (hk : Kept owned s s') :
    t.Attached owned s₀ s' where
  registers_eq := h.registers_eq
  length_le := h.length_le
  saved := h.saved
  code_owned := h.code_owned
  mapped a ha := by
    rw [(hk a (h.still_owned (h.code_owned ha))).1]
    exact h.mapped a ha
  others a ha hnot := ((hk a (h.still_owned ha)).1).trans (h.others a ha hnot)
  still_owned a ha := (hk a (h.still_owned ha)).2

/-- What is not mapped was not overwritten. -/
theorem mem_eq_none (h : t.Attached owned s₀ s) {a : U64} (ha : a ∈ owned s₀.world)
    (hnone : s₀.mem a = none) : s.mem a = none := by
  refine (h.others a ha fun hmem => ?_).trans hnone
  have hsome := (isSome_of_bytesOf h.saved).2 a hmem
  rw [hnone] at hsome
  exact absurd hsome Bool.false_ne_true

/-- A write to what was not owned keeps it. -/
theorem write (h : t.Attached owned s₀ s) {addr : U64} {bytes : List UInt8}
    (hout : ∀ a ∈ window addr bytes.length, a ∉ owned s₀.world) :
    t.Attached owned s₀ { s with mem := (writeBytes s.mem addr bytes).2 } where
  registers_eq := h.registers_eq
  length_le := h.length_le
  saved := h.saved
  code_owned := h.code_owned
  mapped a ha := by
    rw [isSome_writeBytes]
    exact h.mapped a ha
  others a ha hnot :=
    (writeBytes_of_not_mem fun hmem => hout a hmem ha).trans (h.others a ha hnot)
  still_owned := h.still_owned

/-- **Detaching restores the process**, its registers if they can be set. -/
theorem drop_eq (p : Process R W) (h : t.Attached owned s₀ s) :
    ∃ r mem regs, drop p t s = (r, { s with regs := regs, mem := mem }) ∧ r ≠ Exec.outOfFuel
      ∧ (∀ a ∈ owned s₀.world, mem a = s₀.mem a)
      ∧ (p.setRegset s.regs s₀.regs s.world = .done → regs = s₀.regs) := by
  have hmem : ∀ a ∈ owned s₀.world, (writeBytes s.mem t.instrsAddr t.instrs).2 a = s₀.mem a := by
    intro a ha
    by_cases hcode : a ∈ window t.instrsAddr t.instrs.length
    · exact eq_of_bytesOf h.saved
        (bytesOf_writeBytes h.length_le (writeBytes_ok h.mapped)) a hcode
    · rw [writeBytes_of_not_mem hcode]
      exact h.others a ha hcode
  rw [drop, Session.bind_of_ok (pokeData_of_mapped h.mapped), h.registers_eq]
  obtain hset | ⟨hfails, e, left, hset⟩ := setRegisters_cases p s₀.regs
    { s with mem := (writeBytes s.mem t.instrsAddr t.instrs).2 }
  · exact ⟨_, _, _, hset, Exec.ok_ne_outOfFuel _, hmem, fun _ => rfl⟩
  · exact ⟨_, _, _, hset, Exec.fail_ne_outOfFuel _, hmem, fun hdone => absurd hdone hfails⟩

end Attached

/-! ### What a call does -/

variable [RemoteArch R] {p : Process R W} {t : Tracee R}

/-- **What a call can do**: it fails before the process is resumed, with any registers, or it
does what the process does until it stops, and gives a value if the function came back. -/
theorem doFuncall_cases (p : Process R W) (t : Tracee R) (regs : R) (s : State R W) :
    (∃ e left, doFuncall p t regs s = (.error e, { s with regs := left }) ∧ e ≠ .fuel)
      ∨ ∃ regs' r, RemoteArch.moveStack regs = .ok regs' ∧ r ≠ Exec.outOfFuel
        ∧ doFuncall p t regs s
          = (r, resumed p (RemoteArch.setInstructionPointer regs' t.instrsAddr) s)
        ∧ ∀ v, r = .ok v → p.ComesBack t.instrsAddr
          (RemoteArch.setInstructionPointer regs' t.instrsAddr) s.mem s.world v := by
  obtain hmove | ⟨regs', hmove⟩ := RemoteArch.moveStack_cases regs
  · refine .inl ⟨.panic, s.regs, ?_, fun heq => by cases heq⟩
    rw [doFuncall, hmove]
    rfl
  rw [doFuncall, hmove, Session.lift_ok_bind]
  obtain hset | ⟨-, e, left, hset⟩ := setRegisters_cases p
    (RemoteArch.setInstructionPointer regs' t.instrsAddr) s
  swap
  · exact .inl ⟨_, left, Session.bind_of_error hset, fun heq => by cases heq⟩
  rw [Session.bind_of_ok hset]
  set q := p.resume (RemoteArch.setInstructionPointer regs' t.instrsAddr) s.mem s.world with hq
  have hresume : resume p { s with regs := RemoteArch.setInstructionPointer regs' t.instrsAddr }
      = (ofIo q.1, resumed p (RemoteArch.setInstructionPointer regs' t.instrsAddr) s) := rfl
  right
  rcases hstop : q.1 with e | ⟨⟩
  · rw [hstop] at hresume
    exact ⟨regs', _, rfl, Exec.fail_ne_outOfFuel _, Session.bind_of_error hresume,
      fun v hv => by cases hv⟩
  rw [hstop] at hresume
  rw [Session.bind_of_ok hresume]
  obtain hget | ⟨e, hget⟩ := getRegisters_cases p
    (resumed p (RemoteArch.setInstructionPointer regs' t.instrsAddr) s)
  swap
  · exact ⟨regs', _, rfl, Exec.fail_ne_outOfFuel _, Session.bind_of_error hget,
      fun v hv => by cases hv⟩
  rw [Session.bind_of_ok hget, checkedAddNat]
  by_cases hfits : t.instrsAddr.toNat + (RemoteArch.instructions R).length < 2 ^ 64
  swap
  · rw [if_neg hfits]
    exact ⟨regs', _, rfl, Exec.panicked_ne_outOfFuel, rfl, fun v hv => by cases hv⟩
  rw [if_pos hfits, Session.lift_ok_bind]
  by_cases htrap : RemoteArch.instructionPointer q.2.1
      = t.instrsAddr + BitVec.ofNat 64 (RemoteArch.instructions R).length
  · refine ⟨regs', _, rfl, Exec.ok_ne_outOfFuel _, congrFun (if_neg (not_not.mpr htrap)) _,
      fun v hv => ⟨hstop, htrap, (Except.ok.inj hv).symm⟩⟩
  · exact ⟨regs', _, rfl, Exec.fail_ne_outOfFuel _, congrFun (if_pos htrap) _,
      fun v hv => by cases hv⟩

omit [RemoteArch R] in
theorem recorded_apply (function : Function) (addr : U64) (args : List U64)
    (x : Session (State R W) VmError U64) (s : State R W) :
    recorded function addr args x s = ((x s).1, { (x s).2 with
      calls := (x s).2.calls ++ [⟨function, addr, args, s.mem, (x s).1.toOption⟩] }) := rfl

/-- **A call keeps what is owned** and is recorded. -/
theorem recorded_doFuncall {owned : W → Set U64} (hp : p.Leaves owned) (function : Function)
    (addr : U64) (args : List U64) (regs : R) (s : State R W) {r : Exec VmError U64}
    {s' : State R W} (h : recorded function addr args (doFuncall p t regs) s = (r, s')) :
    r ≠ Exec.outOfFuel ∧ Kept owned s s'
      ∧ s'.calls = s.calls ++ [⟨function, addr, args, s.mem, r.toOption⟩] := by
  rw [recorded_apply] at h
  obtain ⟨rfl, rfl⟩ := Prod.mk.inj h
  obtain ⟨e, left, hcall, he⟩ | ⟨regs', r, -, hr, hcall, -⟩ := doFuncall_cases p t regs s
  · rw [hcall]
    exact ⟨fun heq => he (Except.error.inj heq), Kept.refl owned s, rfl⟩
  · rw [hcall]
    exact ⟨hr, hp _ _ _, rfl⟩

/-- **Attaching saves what it overwrites**, and changes nothing when it fails. -/
theorem attach_cases {owned : W → Set U64} (s₀ : State R W)
    (hcode : ∀ addr, findLib p.mapsPath p.maps "/" = .ok addr →
      window addr (RemoteArch.instructions R).length ⊆ owned s₀.world) :
    (∃ e, attach p s₀ = (.error e, s₀) ∧ e ≠ .fuel)
      ∨ ∃ t s, attach p s₀ = (.ok t, s) ∧ t.Attached owned s₀ s
        ∧ s = { s₀ with mem := (writeBytes s₀.mem t.instrsAddr (RemoteArch.instructions R)).2 }
        ∧ findLib p.mapsPath p.maps "/" = .ok t.instrsAddr := by
  rcases hopen : p.openMem with e | ⟨⟩
  · refine .inl ⟨.err (.io e), ?_, fun heq => by cases heq⟩
    rw [attach, hopen]
    rfl
  rcases hattach : p.attach with e | ⟨⟩
  · refine .inl ⟨.err (.io e), ?_, fun heq => by cases heq⟩
    rw [attach, hopen, hattach]
    rfl
  have hstart : attach p s₀ = (do
      let registers ← getRegisters p
      let instrsAddr ← Session.lift (findLib p.mapsPath p.maps "/")
      let instrs ← peekData instrsAddr (RemoteArch.instructions R).length
      pokeData instrsAddr (RemoteArch.instructions R)
      return ⟨registers, instrs, instrsAddr⟩ : Session (State R W) VmError (Tracee R)) s₀ := by
    rw [attach, hopen, hattach]
    rfl
  rw [hstart]
  obtain hget | ⟨e, hget⟩ := getRegisters_cases p s₀
  swap
  · exact .inl ⟨_, Session.bind_of_error hget, fun heq => by cases heq⟩
  rw [Session.bind_of_ok hget]
  rcases hfind : findLib p.mapsPath p.maps "/" with e | addr
  · refine .inl ⟨e, rfl, fun heq => ?_⟩
    exact findLib_ne_outOfFuel p.mapsPath p.maps "/" (hfind.trans (congrArg Except.error heq))
  rw [Session.lift_ok_bind]
  rcases hpeek : bytesOf s₀.mem addr (RemoteArch.instructions R).length with _ | instrs
  · exact .inl ⟨.err notMapped, Session.bind_of_error (peekData_of_none hpeek),
      fun heq => by cases heq⟩
  · obtain ⟨hlength, hmapped⟩ := isSome_of_bytesOf hpeek
    right
    refine ⟨⟨s₀.regs, instrs, addr⟩,
      { s₀ with mem := (writeBytes s₀.mem addr (RemoteArch.instructions R)).2 }, ?_, ?_, rfl,
      rfl⟩
    · refine (Session.bind_of_ok (peekData_of_some hpeek)).trans ?_
      exact (Session.bind_of_ok (pokeData_of_mapped hmapped)).trans rfl
    · have hwindow : window addr instrs.length = window addr (RemoteArch.instructions R).length :=
        congrArg (window addr) hlength
      constructor
      · rfl
      · exact hlength.trans_le (RemoteArch.length_instructions.trans (by decide))
      · exact (congrArg _ hlength).trans hpeek
      · exact hwindow.trans_subset (hcode addr hfind)
      · intro a ha
        exact (isSome_writeBytes _ a).trans (hmapped a (hwindow ▸ ha))
      · intro a _ hnot
        exact writeBytes_of_not_mem fun hmem => hnot (hwindow ▸ hmem)
      · exact le_rfl

end Tracee

end Calls
