import Vminer.UnwindParents
import Vminer.X86

/-!
# Epilogs that are recognised

`read_epilog` walks through the instructions at the instruction pointer as the machine would
execute them, and adds to the stack pointer what they add. It reads the immediate of an
`add` as a number without a sign, so what it finds is where the machine gets to exactly if
no immediate is negative.
-/

open X86

namespace Epilog

/-- What the emulation adds for an instruction. -/
def emulated : Instr → BitVec 64
  | .addRsp8 imm => imm.setWidth 64
  | .addRsp32 imm => imm.setWidth 64
  | _ => 8

/-- An instruction that takes from the stack pointer. -/
def IsNegative : Instr → Prop
  | .addRsp8 imm => imm.msb = true
  | .addRsp32 imm => imm.msb = true
  | _ => False

/-- By how much the emulation is off. -/
def excess : Instr → ℕ
  | .addRsp8 imm => if imm.msb then 2 ^ 8 else 0
  | .addRsp32 imm => if imm.msb then 2 ^ 32 else 0
  | _ => 0

/-- An immediate without its sign. -/
theorem setWidth_eq_signExtend_add {w : ℕ} (hw : w ≤ 64) (imm : BitVec w) :
    imm.setWidth 64 = imm.signExtend 64 + BitVec.ofNat 64 (if imm.msb then 2 ^ w else 0) := by
  by_cases hmsb : imm.msb = true
  · refine BitVec.eq_of_toNat_eq ?_
    have hpow : 2 ^ w ≤ 2 ^ 64 := Nat.pow_le_pow_right (by decide) hw
    have hlt := imm.isLt
    rw [if_pos hmsb, BitVec.toNat_add, BitVec.toNat_signExtend, if_pos hmsb, BitVec.toNat_setWidth,
      BitVec.toNat_ofNat, Nat.mod_eq_of_lt (hlt.trans_le hpow), Nat.add_mod_mod, Nat.add_assoc,
      Nat.sub_add_cancel hpow, Nat.add_mod_right, Nat.mod_eq_of_lt (hlt.trans_le hpow)]
  · rw [if_neg hmsb, BitVec.signExtend_eq_setWidth_of_msb_false (Bool.not_eq_true _ ▸ hmsb)]
    exact (BitVec.add_zero _).symm

theorem emulated_eq (i : Instr) : emulated i = i.amount + BitVec.ofNat 64 (excess i) := by
  cases i with
  | addRsp8 imm => exact setWidth_eq_signExtend_add (by decide) imm
  | addRsp32 imm => exact setWidth_eq_signExtend_add (by decide) imm
  | pop reg => rfl
  | popf => rfl
  | ret => rfl

theorem excess_eq_zero_iff (i : Instr) : excess i = 0 ↔ ¬ IsNegative i := by
  cases i with
  | addRsp8 imm =>
    by_cases h : imm.msb = true <;> simp [excess, IsNegative, h]
  | addRsp32 imm =>
    by_cases h : imm.msb = true <;> simp [excess, IsNegative, h]
  | pop reg => exact ⟨fun _ => id, fun _ => rfl⟩
  | popf => exact ⟨fun _ => id, fun _ => rfl⟩
  | ret => exact ⟨fun _ => id, fun _ => rfl⟩

theorem excess_le (i : Instr) : excess i ≤ 2 ^ 32 := by
  cases i with
  | addRsp8 imm => by_cases h : imm.msb = true <;> simp [excess, h]
  | addRsp32 imm => by_cases h : imm.msb = true <;> simp [excess, h]
  | pop reg => exact Nat.zero_le _
  | popf => exact Nat.zero_le _
  | ret => exact Nat.zero_le _

/-! ## What is recognised -/

/-- `pop` of a register with a prefix. -/
theorem decode_popHigh {op op' : UInt8} {code : List UInt8} (h : op.toNat = 0x41)
    (h' : 0x58 ≤ op' ∧ op' ≤ 0x5f) :
    decode (op :: op' :: code) = some (.pop (Fin.ofNat 16 (op'.toNat - 0x50)), code) := by
  obtain rfl : op = 0x41 := UInt8.toNat_inj.mp h
  exact if_pos h'

theorem decode_addRsp32 {op op' : UInt8} {code rest : List UInt8} {imm : BitVec 32}
    (h : op.toNat = 0x48) (h' : op'.toNat = 0x81)
    (hread : Layout.u32.read code = some (imm, rest)) :
    decode (op :: op' :: 0xc4 :: code) = some (.addRsp32 imm, rest) := by
  obtain rfl : op = 0x48 := UInt8.toNat_inj.mp h
  obtain rfl : op' = 0x81 := UInt8.toNat_inj.mp h'
  exact congrArg (Option.map _) hread

theorem decode_addRsp8 {op op' : UInt8} {code rest : List UInt8} {imm : BitVec 8}
    (h : op.toNat = 0x48) (h' : op'.toNat = 0x83) (hread : Layout.u8.read code = some (imm, rest)) :
    decode (op :: op' :: 0xc4 :: code) = some (.addRsp8 imm, rest) := by
  obtain rfl : op = 0x48 := UInt8.toNat_inj.mp h
  obtain rfl : op' = 0x83 := UInt8.toNat_inj.mp h'
  exact congrArg (Option.map _) hread

theorem decode_ret {op : UInt8} {code : List UInt8} (h : op.toNat = 0xc3) :
    decode (op :: code) = some (.ret, code) := by
  obtain rfl : op = 0xc3 := UInt8.toNat_inj.mp h
  rfl

theorem decode_popf {op : UInt8} {code : List UInt8} (h : op.toNat = 0x9d) :
    decode (op :: code) = some (.popf, code) := by
  obtain rfl : op = 0x9d := UInt8.toNat_inj.mp h
  rfl

/-- `pop` of a register. -/
theorem decode_pop {op : UInt8} {code : List UInt8} (h : 0x58 ≤ op.toNat ∧ op.toNat ≤ 0x5f) :
    decode (op :: code) = some (.pop (Fin.ofNat 16 (op.toNat - 0x58)), code) := by
  simp only [decode]
  split
  · omega
  · omega
  · omega
  · omega
  · exact if_pos h

/-- Registers of different numbers. -/
theorem pop_ne {m k : ℕ} (hm : m < 16) (hk : k < 16) (hne : m ≠ k) :
    Instr.pop (Fin.ofNat 16 m) ≠ Instr.pop (Fin.ofNat 16 k) := by
  intro h
  have hval := congrArg Fin.val (Instr.pop.inj h)
  rw [Fin.val_ofNat, Fin.val_ofNat, Nat.mod_eq_of_lt hm, Nat.mod_eq_of_lt hk] at hval
  exact hne hval

/-- What the emulation does with an instruction: a `pop rsp` is not supported. -/
def emulateStep (next : List UInt8 → VirtualAddress → Option VirtualAddress →
      Exec VmError (Option (VirtualAddress × Option VirtualAddress)))
    (sp : VirtualAddress) (bp : Option VirtualAddress) :
    Option (Instr × List UInt8) → Exec VmError (Option (VirtualAddress × Option VirtualAddress))
  | none => .ok none
  | some (i, rest) =>
    if i = .ret then .ok (some (sp, bp))
    else if i = .pop rsp then .ok none
    else do
      let sp' ← checkedAdd sp (emulated i)
      next rest sp' (if i = .pop rbp then some sp else bp)

theorem emulateStep_some (next : List UInt8 → VirtualAddress → Option VirtualAddress →
      Exec VmError (Option (VirtualAddress × Option VirtualAddress)))
    (sp : VirtualAddress) (bp : Option VirtualAddress) (i : Instr) (hret : i ≠ .ret)
    (hpop : i ≠ .pop rsp) (rest : List UInt8) :
    emulateStep next sp bp (some (i, rest)) = checkedAdd sp (emulated i) >>= fun sp' =>
      next rest sp' (if i = .pop rbp then some sp else bp) := by
  rw [emulateStep, if_neg hret, if_neg hpop]

theorem decode_addRsp_none {op op' : UInt8} {code : List UInt8} (h : op.toNat = 0x48)
    (h' : op'.toNat = 0x81 ∧ Layout.u32.read code = none
      ∨ op'.toNat = 0x83 ∧ Layout.u8.read code = none
      ∨ op'.toNat ≠ 0x81 ∧ op'.toNat ≠ 0x83) : decode (op :: op' :: 0xc4 :: code) = none := by
  obtain ⟨h', hread⟩ | ⟨h', hread⟩ | ⟨h', h''⟩ := h'
  · obtain rfl : op = 0x48 := UInt8.toNat_inj.mp h
    obtain rfl : op' = 0x81 := UInt8.toNat_inj.mp h'
    exact congrArg (Option.map _) hread
  · obtain rfl : op = 0x48 := UInt8.toNat_inj.mp h
    obtain rfl : op' = 0x83 := UInt8.toNat_inj.mp h'
    exact congrArg (Option.map _) hread
  · simp only [decode, h]

/-- **The emulation goes instruction by instruction.** -/
theorem emulateEpilog_succ (rounds : ℕ) (code : List UInt8) (sp : VirtualAddress)
    (bp : Option VirtualAddress) :
    emulateEpilog (rounds + 1) code sp bp
      = emulateStep (emulateEpilog rounds) sp bp (decode code) := by
  generalize hrounds : rounds + 1 = rounds'
  fun_cases emulateEpilog rounds' code sp bp with
  | case1 => cases hrounds
  | case2 => rfl
  | case3 rounds' byte sp bp op code hbyte hop =>
    obtain rfl := Nat.succ.inj hrounds
    have hlow : 0x58 ≤ op.toNat := UInt8.le_iff_toNat_le.mp hop.1
    have hhigh : op.toNat ≤ 0x5f := UInt8.le_iff_toNat_le.mp hop.2
    have hrsp : Instr.pop (Fin.ofNat 16 (op.toNat - 0x50)) ≠ .pop rsp :=
      pop_ne (k := 4) (by omega) (by decide) (by omega)
    have hrbp : Instr.pop (Fin.ofNat 16 (op.toNat - 0x50)) ≠ .pop rbp :=
      pop_ne (k := 5) (by omega) (by decide) (by omega)
    rw [decode_popHigh hbyte hop, emulateStep_some _ _ _ (.pop _) (fun h => (nomatch h)) hrsp,
      if_neg hrbp]
    rfl
  | case4 rounds' byte sp bp op code hbyte hop =>
    have hdecode : decode (byte :: op :: code) = none := by
      obtain rfl : byte = 0x41 := UInt8.toNat_inj.mp hbyte
      exact if_neg hop
    rw [hdecode]
    rfl
  | case5 rounds' byte sp bp op code hbyte hop hread =>
    rw [decode_addRsp_none hbyte (Or.inl ⟨hop, hread⟩)]
    rfl
  | case6 rounds' byte sp bp op code hbyte hop imm rest hread =>
    obtain rfl := Nat.succ.inj hrounds
    rw [decode_addRsp32 hbyte hop hread]
    rfl
  | case7 rounds' byte sp bp op code hbyte hop hread =>
    rw [decode_addRsp_none hbyte (Or.inr (Or.inl ⟨hop, hread⟩))]
    rfl
  | case8 rounds' byte sp bp op code hbyte hop imm rest hread =>
    obtain rfl := Nat.succ.inj hrounds
    rw [decode_addRsp8 hbyte hop hread]
    rfl
  | case9 rounds' byte sp bp op code hbyte hop hop' =>
    rw [decode_addRsp_none hbyte (Or.inr (Or.inr ⟨hop, hop'⟩))]
    rfl
  | case10 rounds' byte sp bp code hbyte =>
    rw [decode_pop (by omega), hbyte]
    rfl
  | case11 rounds' byte sp bp code hbyte bpAddr =>
    obtain rfl := Nat.succ.inj hrounds
    rw [decode_pop (by omega), hbyte]
    rfl
  | case12 rounds' byte sp bp code hbyte =>
    rw [decode_ret hbyte]
    rfl
  | case13 rounds' byte sp bp code _ _ hrsp hrbp _ hbyte =>
    obtain rfl := Nat.succ.inj hrounds
    obtain hbyte | hbyte := hbyte
    · have hne : Instr.pop (Fin.ofNat 16 (byte.toNat - 0x58)) ≠ .pop rsp :=
        pop_ne (k := 4) (by omega) (by decide) fun h => hrsp (by omega)
      have hne' : Instr.pop (Fin.ofNat 16 (byte.toNat - 0x58)) ≠ .pop rbp :=
        pop_ne (k := 5) (by omega) (by decide) fun h => hrbp (by omega)
      rw [decode_pop hbyte, emulateStep_some _ _ _ (.pop _) (fun h => (nomatch h)) hne, if_neg hne']
      rfl
    · rw [decode_popf hbyte]
      rfl
  | case14 rounds' byte sp bp code hpre hadd _ _ hret hbyte =>
    have hdecode : decode (byte :: code) = none := by
      simp only [decode]
      split
      · next h => exact (hpre _ _ h rfl).elim
      · next h => exact (hadd _ _ h rfl).elim
      · next h => exact absurd (Or.inr h) hbyte
      · next h => exact (hret h).elim
      · exact if_neg fun h => hbyte (Or.inl h)
    rw [hdecode]
    rfl

/-- **What is recognised is an epilog**, without a `pop rsp`, and what is found is where
the emulation gets to. -/
theorem exists_isEpilog {rounds : ℕ} {code : List UInt8} {sp : VirtualAddress}
    {bp : Option VirtualAddress} {found : VirtualAddress × Option VirtualAddress}
    (h : emulateEpilog rounds code sp bp = .ok (some found)) :
    ∃ is, IsEpilog code is ∧ .pop rsp ∉ is ∧ found.1 = sp + (is.map emulated).sum
      ∧ found.2 = poppedFrom emulated is sp bp := by
  induction rounds generalizing code sp bp with
  | zero => cases h
  | succ rounds ih =>
    rw [emulateEpilog_succ] at h
    match hdecode : decode code with
    | none =>
      rw [hdecode] at h
      cases h
    | some (i, rest) =>
      rw [hdecode] at h
      by_cases hret : i = .ret
      · rw [emulateStep, if_pos hret] at h
        obtain rfl := Option.some.inj (Except.ok.inj h)
        exact ⟨[], .ret (hret ▸ hdecode), List.not_mem_nil, (BitVec.add_zero _).symm, rfl⟩
      · by_cases hpop : i = .pop rsp
        · rw [emulateStep, if_neg hret, if_pos hpop] at h
          cases h
        · rw [emulateStep_some _ _ _ i hret hpop] at h
          obtain ⟨sp', hsp', h⟩ := (Exec.bind_eq_ok_iff _ _ _).mp h
          obtain ⟨-, rfl⟩ := (checkedAdd_eq_ok_iff _ _ _).mp hsp'
          obtain ⟨is, his, hnot, hfound, hfound'⟩ := ih h
          refine ⟨i :: is, .cons hdecode hret his, ?_, ?_, hfound'⟩
          · exact fun hmem => (List.mem_cons.mp hmem).elim (fun heq => hpop heq.symm) hnot
          · rw [hfound, List.map_cons, List.sum_cons, BitVec.add_assoc]

/-! ## Where the machine gets to -/

/-- The emulation is off by what it does not see of the signs. -/
theorem sum_emulated (is : List Instr) :
    (is.map emulated).sum = (is.map Instr.amount).sum + BitVec.ofNat 64 (is.map excess).sum := by
  induction is with
  | nil => rfl
  | cons i is ih =>
    rw [List.map_cons, List.map_cons, List.map_cons, List.sum_cons, List.sum_cons, List.sum_cons,
      ih, emulated_eq, BitVec.ofNat_add]
    ac_rfl

theorem sum_excess_le (is : List Instr) : (is.map excess).sum ≤ is.length * 2 ^ 32 := by
  have h := List.sum_le_card_nsmul (is.map excess) (2 ^ 32) fun n hn => by
    obtain ⟨i, -, rfl⟩ := List.mem_map.mp hn
    exact excess_le i
  rwa [List.length_map, smul_eq_mul] at h

/-- **The emulation is right** exactly if no instruction takes from the stack pointer: there
are too few of them for errors to cancel. -/
theorem sum_emulated_eq_iff {is : List Instr} (hlen : is.length < 2 ^ 32) :
    (is.map emulated).sum = (is.map Instr.amount).sum ↔ ∀ i ∈ is, ¬ IsNegative i := by
  have hlt : (is.map excess).sum < 2 ^ 64 :=
    (sum_excess_le is).trans_lt (Nat.mul_lt_mul_of_pos_right hlen (by decide))
  have hzero : BitVec.ofNat 64 (is.map excess).sum = 0 ↔ (is.map excess).sum = 0 := by
    rw [← BitVec.toNat_inj, BitVec.toNat_ofNat, Nat.mod_eq_of_lt hlt]
    exact Iff.rfl
  rw [sum_emulated, add_eq_left, hzero, List.sum_eq_zero_iff]
  simp only [List.mem_map, forall_exists_index, and_imp, forall_apply_eq_imp_iff₂,
    excess_eq_zero_iff]

/-- The memory of a guest whose module is an image. -/
def memory (data : UnwindData) (value : BitVec 64 → BitVec 64) : Memory :=
  ⟨codeAt data.offset data.content, value⟩

/-- **What is found for a frame is where the machine gets to**, whatever is on the stack and
in the other registers: it comes to a `ret` with the stack pointer at the return address,
and behind that `rbp` is what it was popped from. -/
def IsSound (data : UnwindData) (frame : StackFrame) (res : UnwindResult) : Prop :=
  ∀ (value : BitVec 64 → BitVec 64) (regs : Fin 16 → BitVec 64), regs rsp = frame.stackPointer →
    ∃ cpu cpu', ReachesRet (memory data value) ⟨frame.instructionPointer, regs⟩ cpu
      ∧ cpu.step (memory data value) = some cpu'
      ∧ cpu.regs rsp = res.nextIpAddr ∧ res.nextSp = .Value (cpu'.regs rsp)
      ∧ cpu'.regs rbp = (memory data value).valueAt res.nextBpAddr (regs rbp)

/-- What `read_epilog` returns is what the emulation found. -/
theorem exists_emulateEpilog_of_readEpilog {data : UnwindData} {fuel : ℕ} {frame : StackFrame}
    {res : UnwindResult} (h : readEpilog data fuel frame = .ok (some res)) :
    let code := data.content.drop (data.offsetOf frame.instructionPointer).toNat
    emulateEpilog code.length code frame.stackPointer none
        = .ok (some (res.nextIpAddr, res.nextBpAddr))
      ∧ res.nextSp = .Value (res.nextIpAddr + 8) := by
  rw [UnwindData.readEpilog_eq] at h
  obtain ⟨epilog, hepilog, h⟩ := (Exec.bind_eq_ok_iff _ _ _).mp h
  match epilog with
  | none => cases h
  | some (nextIpAddr, nextBpAddr) =>
    obtain ⟨rt, -, h⟩ := (Exec.bind_eq_ok_iff _ _ _).mp h
    obtain ⟨funStart, -, h⟩ := (Exec.bind_eq_ok_iff _ _ _).mp h
    obtain ⟨next, hnext, h⟩ := (Exec.bind_eq_ok_iff _ _ _).mp h
    obtain ⟨-, rfl⟩ := (checkedAdd_eq_ok_iff _ _ _).mp hnext
    obtain rfl := Option.some.inj (Except.ok.inj h)
    refine ⟨?_, rfl⟩
    unfold UnwindData.epilogAt readSlice at hepilog
    by_cases hle : (data.offsetOf frame.instructionPointer).toNat ≤ data.content.length
    · rw [if_pos hle, List.splitAt_eq] at hepilog
      exact hepilog
    · rw [if_neg hle] at hepilog
      cases hepilog

/-- Where there is no code, the machine gets nowhere. -/
theorem not_reachesRet {mem : Memory} {cpu cpu' : Cpu} (h : mem.code cpu.rip = []) :
    ¬ ReachesRet mem cpu cpu' := by
  rintro ⟨hrun, rest, hret⟩
  obtain rfl | ⟨cpu'', ⟨i, rest', hi, -⟩, -⟩ := hrun.cases_head
  · rw [h] at hret
    cases hret
  · rw [h] at hi
    cases hi

/-- After a `ret` the stack pointer is behind the return address. -/
theorem step_ret {mem : Memory} {cpu : Cpu} {rest : List UInt8}
    (h : decode (mem.code cpu.rip) = some (.ret, rest)) :
    ∃ cpu', cpu.step mem = some cpu' ∧ cpu'.regs rsp = cpu.regs rsp + 8
      ∧ cpu'.regs rbp = cpu.regs rbp := by
  have hne : rbp ≠ rsp := by decide
  refine ⟨cpu.exec mem (cpu.next mem rest) .ret, ?_, ?_, ?_⟩
  · rw [Cpu.step, h]
    rfl
  · exact Function.update_self rsp (cpu.regs rsp + 8) cpu.regs
  · exact Function.update_of_ne hne (cpu.regs rsp + 8) cpu.regs

end Epilog

open Epilog in
/-- **An epilog that is recognised is emulated as the machine executes it** exactly if the
instruction pointer is in the module, and no `add` up to the `ret` has a negative immediate.

The size of a module is a number of 32 bits. -/
theorem readEpilog_sound_iff (data : UnwindData) (fuel : ℕ) (frame : StackFrame)
    (res : UnwindResult) (hlen : data.content.length < 2 ^ 32)
    (h : readEpilog data fuel frame = .ok (some res)) :
    IsSound data frame res
      ↔ (frame.instructionPointer - data.offset).toNat < data.content.length
        ∧ ∀ is, IsEpilog (codeAt data.offset data.content frame.instructionPointer) is →
          ∀ i ∈ is, ¬ IsNegative i := by
  obtain ⟨hfound, hsp⟩ := exists_emulateEpilog_of_readEpilog h
  obtain ⟨is, hepilog, hpop, hip, hbp⟩ := exists_isEpilog hfound
  dsimp only at hip hbp
  have hcode : (frame.instructionPointer - data.offset).toNat < data.content.length →
      data.content.drop (data.offsetOf frame.instructionPointer).toNat
        = codeAt data.offset data.content frame.instructionPointer := by
    intro hlt
    rw [UnwindData.offsetOf, BitVec.toNat_setWidth, Nat.mod_eq_of_lt (hlt.trans hlen)]
    rfl
  have hcount : is.length < 2 ^ 32 := by
    have hle := hepilog.length_le
    rw [List.length_drop] at hle
    omega
  -- the machine gets to the `ret` in any case
  have hreach : (frame.instructionPointer - data.offset).toNat < data.content.length →
      ∀ (value : BitVec 64 → BitVec 64) (regs : Fin 16 → BitVec 64),
      regs rsp = frame.stackPointer →
      ∃ cpu, ReachesRet (memory data value) ⟨frame.instructionPointer, regs⟩ cpu
        ∧ cpu.regs rsp = frame.stackPointer + (is.map Instr.amount).sum
        ∧ cpu.regs rbp = (memory data value).valueAt
          (poppedFrom Instr.amount is frame.stackPointer none) (regs rbp) := by
    intro hlt value regs hregs
    have hmem : IsEpilog ((memory data value).code frame.instructionPointer) is := by
      rw [hcode hlt] at hepilog
      exact hepilog
    have hrun := exists_reachesRet (memory data value) rfl (hlen.trans (by decide))
      ⟨frame.instructionPointer, regs⟩ hmem hpop none (regs rbp) rfl
    dsimp only at hrun
    rwa [hregs] at hrun
  constructor
  · intro hsound
    have hlt : (frame.instructionPointer - data.offset).toNat < data.content.length := by
      by_contra hge
      obtain ⟨cpu, -, hret, -⟩ := hsound (fun _ => 0) (fun _ => frame.stackPointer) rfl
      exact not_reachesRet (List.drop_eq_nil_of_le (not_lt.mp hge)) hret
    refine ⟨hlt, fun is' his' => ?_⟩
    obtain rfl := his'.unique (hcode hlt ▸ hepilog)
    obtain ⟨cpu, cpu', hret, -, hrsp, -⟩ := hsound (fun _ => 0) (fun _ => frame.stackPointer) rfl
    obtain ⟨cpu'', hret', hrsp', -⟩ := hreach hlt (fun _ => 0) (fun _ => frame.stackPointer) rfl
    rw [hret'.unique hret, hrsp, hip] at hrsp'
    exact (sum_emulated_eq_iff hcount).mp (add_left_cancel hrsp')
  · rintro ⟨hlt, hall⟩ value regs hregs
    have hnot := hall is (hcode hlt ▸ hepilog)
    have hsame : ∀ i ∈ is, emulated i = i.amount := by
      intro i hi
      rw [emulated_eq, (excess_eq_zero_iff i).mpr (hnot i hi)]
      exact BitVec.add_zero _
    obtain ⟨cpu, hret, hrsp, hrbp⟩ := hreach hlt value regs hregs
    obtain ⟨cpu', hstep, hrsp', hrbp'⟩ := step_ret hret.2.choose_spec
    refine ⟨cpu, cpu', hret, hstep, ?_, ?_, ?_⟩
    · rw [hrsp, hip, (sum_emulated_eq_iff hcount).mpr hnot]
    · rw [hsp, hrsp', hrsp, hip, (sum_emulated_eq_iff hcount).mpr hnot]
    · rw [hrbp', hrbp, hbp, poppedFrom_congr hsame]

namespace Epilog

/-- A module with nothing but code. -/
def moduleOf (code : List UInt8) : UnwindData := ⟨0x1000, code, (0, 0)⟩

/-- A frame at its first instruction. -/
def firstFrame : StackFrame := ⟨none, none, 0x8000, 0x1000, none⟩

/-- `pop rbp`, `add rsp, 8` and `ret`. -/
def popAdd : List UInt8 := [0x5d, 0x48, 0x83, 0xc4, 0x08, 0xc3]

theorem isEpilog_popAdd : IsEpilog popAdd [.pop rbp, .addRsp8 8] :=
  .cons rfl (by decide) (.cons rfl (by decide) (.ret rfl))

/-- An epilog that is emulated right. -/
theorem isSound_popAdd :
    IsSound (moduleOf popAdd) firstFrame ⟨.Value 0x8018, 0x8010, some 0x8000, none⟩ := by
  refine (readEpilog_sound_iff (moduleOf popAdd) 1 firstFrame _ (by decide) (by decide)).mpr
    ⟨by decide, fun is his => ?_⟩
  obtain rfl := his.unique isEpilog_popAdd
  exact List.forall_mem_cons.mpr
    ⟨id, List.forall_mem_singleton.mpr (show ¬ (8 : BitVec 8).msb = true by decide)⟩

/-- `add rsp, -8` and `ret`. -/
def addNegative : List UInt8 := [0x48, 0x83, 0xc4, 0xf8, 0xc3]

theorem isEpilog_addNegative : IsEpilog addNegative [.addRsp8 0xf8] :=
  .cons rfl (by decide) (.ret rfl)

/-- **The sign of an immediate is lost.** -/
theorem not_isSound_addNegative :
    ¬ ∀ (data : UnwindData) (fuel : ℕ) (frame : StackFrame) (res : UnwindResult),
      data.content.length < 2 ^ 32 → readEpilog data fuel frame = .ok (some res) →
      IsSound data frame res := by
  intro h
  have hsound := h (moduleOf addNegative) 1 firstFrame ⟨.Value 0x8100, 0x80f8, none, none⟩
    (by decide) (by decide)
  obtain ⟨cpu, -, hret, -, hrsp, -⟩ := hsound (fun _ => 0) (fun _ => 0x8000) rfl
  -- the machine takes 8 from the stack pointer
  obtain ⟨cpu', hret', hrsp', -⟩ := exists_reachesRet (memory (moduleOf addNegative) fun _ => 0)
    rfl (by decide) ⟨0x1000, fun _ => 0x8000⟩ isEpilog_addNegative (by decide) none 0x8000 rfl
  rw [hret'.unique hret, hrsp] at hrsp'
  exact absurd hrsp' (by decide)

end Epilog
