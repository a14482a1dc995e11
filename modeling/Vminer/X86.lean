import Vminer.Core

/-!
# The instructions of an epilog

What takes a stack frame down on x86-64: `pop`, `popf`, `add rsp` with an immediate of one
or of four bytes, and `ret`. The machine reads the bytes at its instruction pointer, and an
immediate is signed.

Code that is an epilog (`IsEpilog`) is executed up to its `ret`, whatever is on the stack,
and `exists_reachesRet` says where the stack pointer is then and what has become of `rbp`.
-/

namespace X86

/-! ## Instructions -/

/-- An instruction of an epilog. -/
inductive Instr where
  | pop (reg : Fin 16)
  | popf
  | addRsp8 (imm : BitVec 8)
  | addRsp32 (imm : BitVec 32)
  | ret
deriving DecidableEq, Repr

/-- `rsp` -/
def rsp : Fin 16 := 4

/-- `rbp` -/
def rbp : Fin 16 := 5

/-- **The first instruction of some code**, and the code behind it. -/
def decode : List UInt8 → Option (Instr × List UInt8)
  | [] => none
  | op :: code =>
    match op.toNat, code with
    -- a prefix for the registers r8-r15
    | 0x41, op :: code =>
      if 0x58 ≤ op ∧ op ≤ 0x5f then some (.pop (Fin.ofNat 16 (op.toNat - 0x50)), code) else none
    -- a prefix for the width, and rsp as the operand
    | 0x48, op :: 0xc4 :: code =>
      match op.toNat with
      | 0x81 => (Layout.u32.read code).map fun (imm, code) => (.addRsp32 imm, code)
      | 0x83 => (Layout.u8.read code).map fun (imm, code) => (.addRsp8 imm, code)
      | _ => none
    | 0x9d, code => some (.popf, code)
    | 0xc3, code => some (.ret, code)
    | op, code =>
      if 0x58 ≤ op ∧ op ≤ 0x5f then some (.pop (Fin.ofNat 16 (op - 0x58)), code) else none

/-- An immediate is the front of what it is read from. -/
theorem exists_front_of_read {w : ℕ} {L : Layout (BitVec w)}
    {code rest : List UInt8} {make : BitVec w → Instr} {i : Instr}
    (h : (L.read code).map (fun (imm, code) => (make imm, code)) = some (i, rest)) :
    ∃ front, code = front ++ rest := by
  obtain ⟨⟨imm, code'⟩, hread, heq⟩ := Option.map_eq_some_iff.mp h
  obtain ⟨-, rfl⟩ := Prod.mk.inj heq
  unfold Layout.read at hread
  split at hread
  · obtain ⟨-, rfl⟩ := Prod.mk.inj (Option.some.inj hread)
    exact ⟨code.take L.size, (List.take_append_drop ..).symm⟩
  · cases hread

/-- **An instruction is the front of its code**, and has a byte. -/
theorem exists_front_of_decode {code rest : List UInt8} {i : Instr}
    (h : decode code = some (i, rest)) : ∃ front, front ≠ [] ∧ code = front ++ rest := by
  unfold decode at h
  split at h
  · cases h
  · next op code =>
    split at h
    · next op' code' hop =>
      split at h
      · obtain ⟨-, rfl⟩ := Prod.mk.inj (Option.some.inj h)
        exact ⟨[op, op'], List.cons_ne_nil _ _, rfl⟩
      · cases h
    · next op' code' hop =>
      split at h
      · obtain ⟨front, rfl⟩ := exists_front_of_read h
        exact ⟨op :: op' :: 0xc4 :: front, List.cons_ne_nil _ _, rfl⟩
      · obtain ⟨front, rfl⟩ := exists_front_of_read h
        exact ⟨op :: op' :: 0xc4 :: front, List.cons_ne_nil _ _, rfl⟩
      · cases h
    · obtain ⟨-, rfl⟩ := Prod.mk.inj (Option.some.inj h)
      exact ⟨[op], List.cons_ne_nil _ _, rfl⟩
    · obtain ⟨-, rfl⟩ := Prod.mk.inj (Option.some.inj h)
      exact ⟨[op], List.cons_ne_nil _ _, rfl⟩
    · split at h
      · obtain ⟨-, rfl⟩ := Prod.mk.inj (Option.some.inj h)
        exact ⟨[op], List.cons_ne_nil _ _, rfl⟩
      · cases h

theorem length_decode {code rest : List UInt8} {i : Instr} (h : decode code = some (i, rest)) :
    rest.length < code.length := by
  obtain ⟨front, hne, rfl⟩ := exists_front_of_decode h
  rw [List.length_append]
  exact Nat.lt_add_of_pos_left (List.length_pos_of_ne_nil hne)

/-- What is behind an instruction is the end of the code. -/
theorem drop_decode {code rest : List UInt8} {i : Instr} (h : decode code = some (i, rest)) :
    code.drop (code.length - rest.length) = rest := by
  obtain ⟨front, -, rfl⟩ := exists_front_of_decode h
  rw [List.length_append, Nat.add_sub_cancel, List.drop_left]

/-! ## Execution -/

/-- The state of the machine that an epilog changes. -/
structure Cpu where
  rip : BitVec 64
  regs : Fin 16 → BitVec 64

/-- What is in memory: the code from an address on, and the value at an address of the
stack. -/
structure Memory where
  code : BitVec 64 → List UInt8
  value : BitVec 64 → BitVec 64

/-- What an instruction adds to the stack pointer. -/
def Instr.amount : Instr → BitVec 64
  | addRsp8 imm => imm.signExtend 64
  | addRsp32 imm => imm.signExtend 64
  | _ => 8

namespace Cpu

/-- The registers after the stack pointer has been moved. -/
def moved (cpu : Cpu) (i : Instr) : Fin 16 → BitVec 64 :=
  Function.update cpu.regs rsp (cpu.regs rsp + i.amount)

/-- **What an instruction does**, with the address of the next one. -/
def exec (mem : Memory) (cpu : Cpu) (next : BitVec 64) : Instr → Cpu
  | .pop reg =>
    { rip := next
      regs := Function.update (cpu.moved (.pop reg)) reg (mem.value (cpu.regs rsp)) }
  | .ret => { rip := mem.value (cpu.regs rsp), regs := cpu.moved .ret }
  | i => { rip := next, regs := cpu.moved i }

/-- Where the instruction behind one is. -/
def next (mem : Memory) (cpu : Cpu) (rest : List UInt8) : BitVec 64 :=
  cpu.rip + BitVec.ofNat 64 ((mem.code cpu.rip).length - rest.length)

/-- A step of the machine. -/
def step (mem : Memory) (cpu : Cpu) : Option Cpu :=
  (decode (mem.code cpu.rip)).map fun (i, rest) => cpu.exec mem (cpu.next mem rest) i

end Cpu

section Runs

variable (mem : Memory)

/-- A step of another instruction than `ret`. -/
def StepsInFrame (cpu cpu' : Cpu) : Prop :=
  ∃ i rest, decode (mem.code cpu.rip) = some (i, rest) ∧ i ≠ .ret
    ∧ cpu' = cpu.exec mem (cpu.next mem rest) i

/-- **Where the machine is at its first `ret`.** -/
def ReachesRet (cpu cpu' : Cpu) : Prop :=
  Relation.ReflTransGen (StepsInFrame mem) cpu cpu'
    ∧ ∃ rest, decode (mem.code cpu'.rip) = some (.ret, rest)

variable {mem}

theorem rightUnique_stepsInFrame : Relator.RightUnique (StepsInFrame mem) := by
  rintro cpu cpu₁ cpu₂ ⟨i, rest, h, -, rfl⟩ ⟨i', rest', h', -, rfl⟩
  obtain ⟨rfl, rfl⟩ := Prod.mk.inj (Option.some.inj (h.symm.trans h'))
  rfl

/-- At a `ret` there is no other instruction. -/
theorem eq_of_reflTransGen_of_ret {cpu cpu' : Cpu} {rest : List UInt8}
    (hret : decode (mem.code cpu.rip) = some (.ret, rest))
    (h : Relation.ReflTransGen (StepsInFrame mem) cpu cpu') : cpu' = cpu := by
  obtain rfl | ⟨cpu'', ⟨i, rest', hi, hne, -⟩, -⟩ := h.cases_head
  · rfl
  · exact absurd (Prod.mk.inj (Option.some.inj (hi.symm.trans hret))).1 hne

/-- **The machine gets to one `ret`.** -/
theorem ReachesRet.unique {cpu cpu₁ cpu₂ : Cpu} (h₁ : ReachesRet mem cpu cpu₁)
    (h₂ : ReachesRet mem cpu cpu₂) : cpu₁ = cpu₂ := by
  obtain ⟨hrun₁, rest₁, hret₁⟩ := h₁
  obtain ⟨hrun₂, rest₂, hret₂⟩ := h₂
  obtain h | h := Relation.ReflTransGen.total_of_right_unique rightUnique_stepsInFrame hrun₁ hrun₂
  · exact (eq_of_reflTransGen_of_ret hret₁ h).symm
  · exact eq_of_reflTransGen_of_ret hret₂ h

end Runs

/-! ## Epilogs -/

/-- **Code that is an epilog**: some instructions, and a `ret` behind them. -/
inductive IsEpilog : List UInt8 → List Instr → Prop where
  | ret {code rest : List UInt8} (h : decode code = some (.ret, rest)) : IsEpilog code []
  | cons {code rest : List UInt8} {i : Instr} {is : List Instr}
    (h : decode code = some (i, rest)) (hne : i ≠ .ret) (hrest : IsEpilog rest is) :
    IsEpilog code (i :: is)

/-- **Some instructions that code begins with**, none of them a `ret`. -/
inductive Begins : List UInt8 → List Instr → Prop where
  | nil (code : List UInt8) : Begins code []
  | cons {code rest : List UInt8} {i : Instr} {is : List Instr}
    (h : decode code = some (i, rest)) (hne : i ≠ .ret) (hrest : Begins rest is) :
    Begins code (i :: is)

theorem IsEpilog.begins {code : List UInt8} {is : List Instr} (h : IsEpilog code is) :
    Begins code is := by
  induction h with
  | ret _ => exact .nil _
  | cons hdecode hne _ ih => exact .cons hdecode hne ih

/-- The instructions of an epilog are those of its code. -/
theorem IsEpilog.unique {code : List UInt8} {is is' : List Instr} (h : IsEpilog code is)
    (h' : IsEpilog code is') : is = is' := by
  induction h generalizing is' with
  | ret hret =>
    cases h' with
    | ret _ => rfl
    | cons hi hne _ => exact absurd (Prod.mk.inj (Option.some.inj (hi.symm.trans hret))).1 hne
  | cons hi hne _ ih =>
    cases h' with
    | ret hret => exact absurd (Prod.mk.inj (Option.some.inj (hi.symm.trans hret))).1 hne
    | cons hi' _ hrest' =>
      obtain ⟨rfl, rfl⟩ := Prod.mk.inj (Option.some.inj (hi.symm.trans hi'))
      rw [ih hrest']

/-- Each instruction has a byte. -/
theorem IsEpilog.length_le {code : List UInt8} {is : List Instr} (h : IsEpilog code is) :
    is.length ≤ code.length := by
  induction h with
  | ret _ => exact Nat.zero_le _
  | cons hi _ _ ih => exact Nat.lt_of_le_of_lt ih (length_decode hi)

/-- Where `rbp` was popped from last, when the stack pointer moves by some amounts. -/
def poppedFrom (amount : Instr → BitVec 64) :
    List Instr → BitVec 64 → Option (BitVec 64) → Option (BitVec 64)
  | [], _, addr => addr
  | i :: is, sp, addr =>
    poppedFrom amount is (sp + amount i) (if i = .pop rbp then some sp else addr)

theorem poppedFrom_congr {amount amount' : Instr → BitVec 64} {is : List Instr}
    (h : ∀ i ∈ is, amount i = amount' i) (sp : BitVec 64) (addr : Option (BitVec 64)) :
    poppedFrom amount is sp addr = poppedFrom amount' is sp addr := by
  induction is generalizing sp addr with
  | nil => rfl
  | cons i is ih =>
    rw [poppedFrom, poppedFrom, h i List.mem_cons_self]
    exact ih (fun i hi => h i (List.mem_cons_of_mem _ hi)) _ _

/-- The value at an address, or what there was. -/
def Memory.valueAt (mem : Memory) (addr : Option (BitVec 64)) (old : BitVec 64) : BitVec 64 :=
  match addr with
  | some addr => mem.value addr
  | none => old

/-- The code of an image that begins at an address. -/
def codeAt (base : BitVec 64) (content : List UInt8) (addr : BitVec 64) : List UInt8 :=
  content.drop (addr - base).toNat

/-- Behind an instruction of an image is the next one. -/
theorem codeAt_next {mem : Memory} {base : BitVec 64} {content : List UInt8}
    (hcode : mem.code = codeAt base content) (hlen : content.length < 2 ^ 64) {cpu : Cpu}
    {i : Instr} {rest : List UInt8} (h : decode (mem.code cpu.rip) = some (i, rest)) :
    mem.code (cpu.next mem rest) = rest := by
  have hdrop := drop_decode h
  have hlt := length_decode h
  rw [Cpu.next]
  rw [hcode, codeAt] at hdrop hlt ⊢
  rw [List.length_drop] at hdrop hlt
  have hnext : (cpu.rip + BitVec.ofNat 64 ((content.drop (cpu.rip - base).toNat).length
      - rest.length) - base).toNat
      = (cpu.rip - base).toNat + ((content.drop (cpu.rip - base).toNat).length - rest.length) := by
    rw [add_sub_right_comm, toNat_add_ofNat_of_lt]
    rw [List.length_drop]
    omega
  rw [codeAt, hnext, List.length_drop, ← List.drop_drop]
  exact hdrop

/-- What an instruction other than `pop rsp` and `ret` does to `rsp` and `rbp`. -/
theorem exec_regs (mem : Memory) (cpu : Cpu) (next : BitVec 64) {i : Instr} (hpop : i ≠ .pop rsp)
    (hne : i ≠ .ret) :
    (cpu.exec mem next i).rip = next
      ∧ (cpu.exec mem next i).regs rsp = cpu.regs rsp + i.amount
      ∧ (cpu.exec mem next i).regs rbp
        = if i = .pop rbp then mem.value (cpu.regs rsp) else cpu.regs rbp := by
  have hmoved : ∀ i : Instr, cpu.moved i rsp = cpu.regs rsp + i.amount :=
    fun i => Function.update_self ..
  have hkept : ∀ i : Instr, cpu.moved i rbp = cpu.regs rbp :=
    fun i => Function.update_of_ne (by decide) ..
  cases i with
  | pop reg =>
    have hreg : rsp ≠ reg := fun h => hpop (congrArg Instr.pop h.symm)
    refine ⟨rfl, (Function.update_of_ne hreg ..).trans (hmoved _), ?_⟩
    by_cases hrbp : reg = rbp
    · rw [hrbp, if_pos rfl]
      exact Function.update_self rbp (mem.value (cpu.regs rsp)) (cpu.moved (.pop rbp))
    · rw [if_neg fun h => hrbp (Instr.pop.inj h)]
      exact (Function.update_of_ne (Ne.symm hrbp) ..).trans (hkept _)
  | popf => exact ⟨rfl, hmoved .popf, hkept .popf⟩
  | addRsp8 imm => exact ⟨rfl, hmoved (.addRsp8 imm), hkept (.addRsp8 imm)⟩
  | addRsp32 imm => exact ⟨rfl, hmoved (.addRsp32 imm), hkept (.addRsp32 imm)⟩
  | ret => exact absurd rfl hne

/-- **An epilog is executed up to its `ret`.** The stack pointer is then moved by what its
instructions add, and `rbp` is what was popped last. -/
theorem exists_reachesRet (mem : Memory) {base : BitVec 64} {content : List UInt8}
    (hcode : mem.code = codeAt base content) (hlen : content.length < 2 ^ 64) {is : List Instr}
    (cpu : Cpu) (h : IsEpilog (mem.code cpu.rip) is) (hpop : .pop rsp ∉ is)
    (addr : Option (BitVec 64)) (old : BitVec 64) (hrbp : cpu.regs rbp = mem.valueAt addr old) :
    ∃ cpu', ReachesRet mem cpu cpu' ∧ cpu'.regs rsp = cpu.regs rsp + (is.map Instr.amount).sum
      ∧ cpu'.regs rbp = mem.valueAt (poppedFrom Instr.amount is (cpu.regs rsp) addr) old := by
  induction is generalizing cpu addr with
  | nil =>
    obtain hret : ∃ rest, decode (mem.code cpu.rip) = some (.ret, rest) := by
      cases h with
      | ret hret => exact ⟨_, hret⟩
    exact ⟨cpu, ⟨.refl, hret⟩, (BitVec.add_zero _).symm, hrbp⟩
  | cons i is ih =>
    cases h with
    | cons hi hne hrest =>
      rename_i rest
      have hpop' : i ≠ .pop rsp := fun heq => hpop (heq ▸ List.mem_cons_self)
      obtain ⟨hrip, hrsp, hrbp'⟩ := exec_regs mem cpu (cpu.next mem rest) hpop' hne
      have hnext : IsEpilog (mem.code (cpu.exec mem (cpu.next mem rest) i).rip) is := by
        rw [hrip, codeAt_next hcode hlen hi]
        exact hrest
      have hvalue : (cpu.exec mem (cpu.next mem rest) i).regs rbp
          = mem.valueAt (if i = .pop rbp then some (cpu.regs rsp) else addr) old := by
        rw [hrbp']
        split
        · rfl
        · exact hrbp
      obtain ⟨cpu', ⟨hrun, hret⟩, hsp, hbp⟩ :=
        ih _ hnext (fun hmem => hpop (List.mem_cons_of_mem _ hmem)) _ hvalue
      refine ⟨cpu', ⟨.head ⟨i, rest, hi, hne, rfl⟩ hrun, hret⟩, ?_, ?_⟩
      · rw [hsp, hrsp, List.map_cons, List.sum_cons, BitVec.add_assoc]
      · rw [hbp, hrsp]
        rfl

end X86
