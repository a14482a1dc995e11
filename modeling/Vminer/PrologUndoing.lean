import Vminer.PrologParts

/-!
# Undoing a prolog

A function is interrupted behind some of the instructions of its prolog, or behind all of them.
`unwind_with_infos` is to find where its return address and its caller's `rbp` are. It takes the
stack pointer to be where the prolog left it or, if a frame register is declared, that to be set,
and puts back what the instructions took from the stack that have been executed.

So it is right without a frame register. With one it is right where that has been set and nothing
was taken from the stack behind it. Before the frame register is set its value is the caller's, and
what is allocated after it is counted although it is not below it.

This is where the prolog is read as it is. Where an entry fills an odd number of slots the record
of its parent is behind padding and is not read from its place, and it is chance what is undone
(`Prolog.isUndone_iff`).
-/

open UnwindOp FunctionEntry

/-! ## The prolog -/

/-- **A prolog as its entries describe it**: that of the function itself, whose codes come in
order, and those of its parents. `rbp` is declared as the frame register if it is set. -/
structure Prolog where
  child : UnwindInfo
  parents : List UnwindInfo
  declared : child.frame.isSome = true ↔ .SetFpReg ∈ (child :: parents).flatMap UnwindInfo.ops
  ordered : child.codes.Pairwise fun code code' => code'.1 ≤ code.1
  isProlog : IsProlog ((child :: parents).flatMap UnwindInfo.ops).reverse

namespace Prolog

variable (prolog : Prolog) (ip : U32)

/-- What has been executed at an offset, part by part, the last instruction first. -/
def parts : List (List UnwindOp) := executedParts (some ip) (prolog.child :: prolog.parents)

/-- **The instructions that have been executed.** -/
def executed : List UnwindOp := (prolog.parts ip).flatten.reverse

/-- The distance of the frame register from the stack pointer when it is set. -/
def frameOffset : VirtualAddress := (prolog.child.frameRegisterOffset.getD 0).setWidth 64

/-- **The machine after them**, when the function is entered with these registers. -/
def interrupted (rsp rbp : VirtualAddress) : Machine :=
  .run prolog.frameOffset (.entered rsp rbp) (prolog.executed ip)

/-- Whether the prolog is behind. -/
def Finished : Prop := ∀ code ∈ prolog.child.codes, ¬ isAhead (some ip) code.1 = true

/-- **A frame of an interrupted function.** Behind the prolog the stack pointer may be lowered
further, if there is a frame register. -/
structure InterruptedAt (data : UnwindData) (rt : RuntimeFunction)
    (rsp rbp lowered : VirtualAddress) (frame : StackFrame) : Prop where
  inside : rt.start.toNat + ip.toNat < rt.stop.toNat
  instructionPointer : frame.instructionPointer = data.offset + (rt.start + ip).setWidth 64
  stackPointer : frame.stackPointer = (prolog.interrupted ip rsp rbp).rsp - lowered
  lowered_eq : lowered ≠ 0 → prolog.child.frame.isSome = true ∧ prolog.Finished ip

/-- **The prolog is undone**: the return address is found where it was when the function was
entered, the caller's stack behind it, and the caller's `rbp` where it has been saved, if it
has. -/
def IsUndone (data : UnwindData) (rt : RuntimeFunction) (rsp rbp : VirtualAddress)
    (frame : StackFrame) : Prop :=
  ∃ n res, unwindWithInfos data n rt frame (some (prolog.interrupted ip rsp rbp).rbp) = .ok res
    ∧ res.nextIpAddr = rsp ∧ res.nextSp = .Value (rsp + 8)
    ∧ res.nextBpAddr = (prolog.interrupted ip rsp rbp).saved

/-- **The sums for a prolog fit**: those that are added to where it left the stack pointer. -/
structure Fits (rsp : VirtualAddress) : Prop where
  parts : ∀ part ∈ prolog.parts ip, totalSize part < 2 ^ 32
  stack : totalSize (prolog.executed ip) ≤ rsp.toNat
  next : rsp.toNat + 8 < 2 ^ 64
  slot : ∀ part ∈ prolog.parts ip, ∀ n ∈ lastSlot part 0 none,
    rsp.toNat - totalSize (prolog.executed ip) + n < 2 ^ 64

/-- **The prolog is read as it is**: no entry has padding before the record of its parent. -/
def Unpadded : Prop :=
  ∀ info ∈ prolog.child :: prolog.parents, info.mother.isSome = true → info.IsEven

instance : Decidable prolog.Unpadded := inferInstanceAs (Decidable (∀ info ∈ _, _))

/-- **When it can be undone**, if it is read. If a frame register is declared, nothing has been
taken from the stack behind the instruction that sets it; before that instruction the caller's
`rbp` happens to be at the frame offset from the stack pointer; and at the entry the stack pointer
has not been lowered. All sums fit. -/
structure IsUndoable (rsp rbp lowered : VirtualAddress) : Prop where
  entry : prolog.child.frame.isSome = true → ip = 0 → lowered = 0
  notSet : prolog.child.frame.isSome = true → ip ≠ 0 → .SetFpReg ∉ prolog.executed ip →
    rbp - prolog.frameOffset = (prolog.interrupted ip rsp rbp).rsp
  set : prolog.child.frame.isSome = true → ip ≠ 0 → ∀ front back,
    prolog.executed ip = front ++ .SetFpReg :: back → totalSize back = 0
  frameOffset : prolog.child.frame.isSome = true → ip ≠ 0 →
    prolog.frameOffset ≤ (prolog.interrupted ip rsp rbp).rbp
  fits : prolog.Fits ip rsp

/-- Where the stack pointer is taken to be that the prolog left: at the frame register, if one is
declared and this is not the entry. -/
def base (rsp rbp lowered : VirtualAddress) : VirtualAddress :=
  if prolog.child.frame.isSome = true ∧ ip ≠ 0 then
    (prolog.interrupted ip rsp rbp).rbp - prolog.frameOffset
  else (prolog.interrupted ip rsp rbp).rsp - lowered

/-- **Some parts add up** to the prolog, from a stack pointer on: what they took from the stack is
what the prolog took, and the caller's `rbp` is where they have it. The sums fit. -/
structure AddsUp (rsp rbp sp : VirtualAddress) (parts : List (List UnwindOp)) : Prop where
  fits : PartsFit sp.toNat parts
  sum : sp + BitVec.ofNat 64 (totalSize parts.flatten) = rsp
  slot : slotOfParts sp none parts = (prolog.interrupted ip rsp rbp).saved

/-- **When it is undone by chance**: behind the first padding, at the record that is read two bytes
early, there are entries with which it adds up all the same. -/
structure UndoneByChance (data : UnwindData) (rsp rbp lowered : VirtualAddress) : Prop where
  frameOffset : prolog.child.frame.isSome = true → ip ≠ 0 →
    prolog.frameOffset ≤ (prolog.interrupted ip rsp rbp).rbp
  reads : ∃ front padded mother rest,
    UnwindData.PaddedAt (prolog.child :: prolog.parents) front padded mother
      ∧ data.offset.toNat + (padded.misread mother).start.toNat < 2 ^ 64
      ∧ data.ReadsParts none (padded.misread mother) rest
      ∧ prolog.AddsUp ip rsp rbp (prolog.base ip rsp rbp lowered)
        (executedParts (some ip) (front ++ [padded]) ++ rest)

/-- Of codes that come in order, those that have been executed are the last. -/
theorem exists_eq_append_filter {codes : List (BitVec 8 × UnwindCode)}
    (h : codes.Pairwise fun code code' => code'.1 ≤ code.1) :
    ∃ ahead, codes = ahead ++ codes.filter fun code => !isAhead (some ip) code.1 := by
  induction codes with
  | nil => exact ⟨[], rfl⟩
  | cons code codes ih =>
    obtain ⟨hcode, hcodes⟩ := List.pairwise_cons.mp h
    obtain ⟨ahead, heq⟩ := ih hcodes
    by_cases hahead : isAhead (some ip) code.1 = true
    · rw [List.filter_cons_of_neg (by simp [hahead])]
      exact ⟨code :: ahead, congrArg (code :: ·) heq⟩
    · have hall : ∀ code' ∈ code :: codes, (!isAhead (some ip) code'.1) = true := by
        intro code' hmem
        have hle : code'.1 ≤ code.1 := by
          obtain rfl | hmem := List.mem_cons.mp hmem
          · exact BitVec.le_refl _
          · exact hcode code' hmem
        simp only [isAhead, Option.any_some, decide_eq_true_eq, Bool.not_eq_true',
          decide_eq_false_iff_not] at hahead ⊢
        bv_omega
      exact ⟨[], (List.filter_eq_self.mpr hall).symm⟩

/-- Behind an entry all of a part has been executed. -/
theorem executed_none (info : UnwindInfo) : info.executed none = info.ops := by
  have hall : ∀ code ∈ info.codes, (!isAhead none code.1) = true := fun _ _ => rfl
  unfold UnwindInfo.ops UnwindInfo.executed
  rw [List.filter_eq_self.mpr hall]

theorem executedParts_none (infos : List UnwindInfo) :
    executedParts none infos = infos.map UnwindInfo.ops := by
  induction infos with
  | nil => rfl
  | cons info infos ih => rw [executedParts, ih, executed_none, List.map_cons]

/-- **What has been executed is the beginning** of the prolog. -/
theorem isProlog_executed : IsProlog (prolog.executed ip) := by
  obtain ⟨ahead, heq⟩ := exists_eq_append_filter ip prolog.ordered
  have hops : prolog.child.ops
      = ahead.map (fun code => code.2.op) ++ prolog.child.executed (some ip) := by
    rw [UnwindInfo.ops, UnwindInfo.executed, ← List.map_append, ← heq]
  have hprolog := prolog.isProlog
  rw [List.flatMap_cons, hops, List.append_assoc, List.reverse_append] at hprolog
  unfold executed parts
  rw [executedParts, executedParts_none, List.flatten_cons, ← List.flatMap_def]
  exact hprolog.left

/-- The parts are parts of a prolog. -/
theorem isPart {info : UnwindInfo} (h : info ∈ prolog.child :: prolog.parents) :
    info.IsPart :=
  fun code hcode => prolog.isProlog.instr code.2.op (List.mem_reverse.mpr
    (List.mem_flatMap.mpr ⟨info, h, List.mem_map_of_mem hcode⟩))

/-- They are the sums that the loop makes from there. -/
theorem partsFit_iff_fits {rsp sp : VirtualAddress}
    (hsp : sp + BitVec.ofNat 64 (totalSize (prolog.parts ip).flatten) = rsp) :
    PartsFit sp.toNat (prolog.parts ip) ↔ prolog.Fits ip rsp := by
  have hsize : totalSize (prolog.executed ip) = totalSize (prolog.parts ip).flatten :=
    totalSize_reverse _
  rw [partsFit_iff (savesLast_of_isProlog (prolog.isProlog_executed ip))]
  constructor
  · rintro ⟨hparts, hsum, hslot⟩
    have hadd : rsp.toNat = sp.toNat + totalSize (prolog.parts ip).flatten := by
      rw [← hsp, toNat_add_ofNat_of_lt (by omega)]
    have hsub : rsp.toNat - totalSize (prolog.executed ip) = sp.toNat := by omega
    exact ⟨hparts, by omega, by omega, hsub ▸ hslot⟩
  · rintro ⟨hparts, hstack, hnext, hslot⟩
    have hsub : sp = rsp - BitVec.ofNat 64 (totalSize (prolog.parts ip).flatten) :=
      eq_sub_of_add_eq hsp
    have hlt := rsp.isLt
    have hword : (BitVec.ofNat 64 (totalSize (prolog.parts ip).flatten)).toNat
        = totalSize (prolog.parts ip).flatten := by
      rw [BitVec.toNat_ofNat, Nat.mod_eq_of_lt (by omega)]
    have hnat : sp.toNat = rsp.toNat - totalSize (prolog.executed ip) := by
      rw [hsub, toNat_sub_of_le (by omega), hword, hsize]
    refine ⟨hparts, by omega, ?_⟩
    rw [hnat]
    exact hslot

/-- **From where the loop begins** it undoes the prolog exactly if what it reads adds up. -/
theorem exists_chainFrom_iff (data : UnwindData) (rt : RuntimeFunction)
    (rsp rbp sp funStart : VirtualAddress) :
    (∃ n res, data.chainFrom n (some ip, rt, sp, none, funStart) = .ok res
        ∧ res.nextIpAddr = rsp ∧ res.nextSp = .Value (rsp + 8)
        ∧ res.nextBpAddr = (prolog.interrupted ip rsp rbp).saved)
      ↔ ∃ parts, data.ReadsParts (some ip) rt parts ∧ prolog.AddsUp ip rsp rbp sp parts := by
  have hloop := data.exists_chainFrom_eq_ok_iff (some ip) rt sp none funStart
    fun addr nextIpAddr nextBpAddr => nextIpAddr = rsp ∧ addr = rsp + 8
      ∧ nextBpAddr = (prolog.interrupted ip rsp rbp).saved
  constructor
  · rintro ⟨n, res, hres, hip, hsp, hbp⟩
    obtain ⟨parts, hparts, hfits, hsum, -, hslot⟩ := hloop.mp ⟨n, res, _, hres, hsp, hip, rfl, hbp⟩
    exact ⟨parts, hparts, hfits, hsum, hslot⟩
  · rintro ⟨parts, hparts, ⟨hfits, hsum, hslot⟩⟩
    obtain ⟨n, res, addr, hres, hsp, hip, rfl, hbp⟩ :=
      hloop.mpr ⟨parts, hparts, hfits, hsum, by rw [hsum], hslot⟩
    exact ⟨n, res, hres, hip, hsp, hbp⟩

/-- **Where the prolog is read** it adds up exactly if the loop begins at the stack pointer that
the prolog left, and the sums fit. -/
theorem exists_readsParts_iff {data : UnwindData}
    (himage : data.offset.toNat + data.content.length ≤ 2 ^ 64) {rt : RuntimeFunction}
    (hchain : data.HoldsChain rt (prolog.child :: prolog.parents)) (hread : prolog.Unpadded)
    (rsp rbp sp : VirtualAddress) :
    (∃ parts, data.ReadsParts (some ip) rt parts ∧ prolog.AddsUp ip rsp rbp sp parts)
      ↔ sp = (prolog.interrupted ip rsp rbp).rsp ∧ prolog.Fits ip rsp := by
  have hprolog := prolog.isProlog_executed ip
  have hlast : SavesLast (prolog.parts ip).flatten := savesLast_of_isProlog hprolog
  have hsize : totalSize (prolog.executed ip) = totalSize (prolog.parts ip).flatten :=
    totalSize_reverse _
  have hrsp : (prolog.interrupted ip rsp rbp).rsp
      + BitVec.ofNat 64 (totalSize (prolog.parts ip).flatten) = rsp :=
    hsize ▸ Machine.rsp_run prolog.frameOffset (.entered rsp rbp) (prolog.executed ip)
  have hsaved : (prolog.interrupted ip rsp rbp).saved
      = firstSlot (prolog.interrupted ip rsp rbp).rsp (prolog.parts ip).flatten :=
    Machine.saved_run prolog.frameOffset hprolog rsp rbp
  have hreads : data.ReadsParts (some ip) rt (prolog.parts ip) :=
    hchain.readsParts himage (fun info h => prolog.isPart h) hread (some ip)
  constructor
  · rintro ⟨parts, hparts, ⟨hfits, hsum, -⟩⟩
    obtain rfl := hparts.unique hreads
    exact ⟨add_right_cancel (hsum.trans hrsp.symm), (prolog.partsFit_iff_fits ip hsum).mp hfits⟩
  · rintro ⟨rfl, hfits⟩
    refine ⟨prolog.parts ip, hreads, ⟨(prolog.partsFit_iff_fits ip hrsp).mpr hfits, hrsp, ?_⟩⟩
    rw [slotOfParts_eq _ none hlast, Option.or_none, hsaved]

/-- **Where the frame register points to**: to the stack pointer, if it has been set and nothing
has been taken from the stack since, or if it happens to before. -/
theorem rbp_sub_frameOffset_eq_iff {rsp : VirtualAddress} (hfits : prolog.Fits ip rsp)
    (rbp : VirtualAddress) :
    (prolog.interrupted ip rsp rbp).rbp - prolog.frameOffset = (prolog.interrupted ip rsp rbp).rsp
      ↔ (.SetFpReg ∉ prolog.executed ip →
          rbp - prolog.frameOffset = (prolog.interrupted ip rsp rbp).rsp)
        ∧ ∀ front back, prolog.executed ip = front ++ .SetFpReg :: back → totalSize back = 0 := by
  by_cases hset : .SetFpReg ∈ prolog.executed ip
  · obtain ⟨front, back, heq⟩ := List.append_of_mem hset
    have hframed := (prolog.isProlog_executed ip).framed
    have hrbp := Machine.rbp_run prolog.frameOffset (.entered rsp rbp) front
      (hframed front back heq).2
    rw [← heq] at hrbp
    have hback : totalSize back < 2 ^ 64 := by
      have hstack := hfits.stack
      rw [heq, totalSize_append, totalSize_cons] at hstack
      have hlt := rsp.isLt
      omega
    have hzero : BitVec.ofNat 64 (totalSize back) = 0 ↔ totalSize back = 0 := by
      rw [← BitVec.toNat_inj, BitVec.toNat_ofNat, Nat.mod_eq_of_lt hback]
      rfl
    rw [interrupted, hrbp, add_sub_cancel_right, add_eq_left, hzero,
      and_iff_right fun hnot => absurd hset hnot]
    refine ⟨fun hsize front' back' heq' => ?_, fun h => h front back heq⟩
    -- it is set only once
    have hfront : .SetFpReg ∉ front := by
      intro hmem
      obtain ⟨front₁, front₂, rfl⟩ := List.append_of_mem hmem
      refine (hframed front₁ (front₂ ++ .SetFpReg :: back) ?_).2 ?_
      · rw [heq, List.append_assoc]
        rfl
      · exact List.mem_append_right _ List.mem_cons_self
    have hsplit := (List.append_cons_inj_of_notMem hfront (hframed front back heq).2).mp
      (heq.symm.trans heq')
    rw [← hsplit.2.2]
    exact hsize
  · have hrbp : (prolog.interrupted ip rsp rbp).rbp = rbp :=
      Machine.rbp_run_of_notMem prolog.frameOffset (.entered rsp rbp) hset
    rw [hrbp, imp_iff_right hset]
    refine (and_iff_left fun front back heq => ?_).symm
    exact absurd (heq ▸ List.mem_append_right _ List.mem_cons_self) hset

/-- Where the loop begins: at the frame register, if one is declared and this is not the
entry. -/
theorem framePointer_entry (sp base : VirtualAddress) :
    framePointer prolog.child.entry ip sp (some base)
      = if prolog.child.frame.isSome = true ∧ ip ≠ 0 then checkedSub base prolog.frameOffset
        else .ok sp := by
  unfold framePointer frameOffset
  rw [show prolog.child.entry.frameRegisterOffset = prolog.child.frameRegisterOffset from rfl,
    UnwindInfo.frameRegisterOffset]
  cases prolog.child.frame with
  | none => exact (if_neg fun h => nomatch h.1).symm
  | some offset =>
    by_cases hip : ip = 0
    · rw [if_neg fun h => h.2 hip]
      exact if_pos hip
    · rw [if_pos ⟨rfl, hip⟩]
      exact if_neg hip

/-- Before its loop, `unwind_with_infos` finds the frame pointer. -/
theorem unwindWithInfos_eq_framePointer {data : UnwindData}
    (himage : data.offset.toNat + data.content.length ≤ 2 ^ 64) {rt : RuntimeFunction}
    (hholds : data.Holds rt prolog.child) {rsp rbp lowered : VirtualAddress} {frame : StackFrame}
    (hframe : prolog.InterruptedAt ip data rt rsp rbp lowered frame) (n : ℕ)
    (base : VirtualAddress) :
    unwindWithInfos data n rt frame (some base)
      = framePointer prolog.child.entry ip frame.stackPointer (some base) >>= fun sp =>
        data.chainFrom n (some ip, rt, sp, none, data.offset + rt.start.setWidth 64) := by
  have hinside := hframe.inside
  have hlt := rt.stop.isLt
  have hip : data.offsetOf frame.instructionPointer = rt.start + ip := by
    rw [UnwindData.offsetOf, hframe.instructionPointer]
    bv_omega
  have hsub : checkedSub (ε := VmError) (rt.start + ip) rt.start = .ok ip := by
    rw [checkedSub_eq_ok (by bv_omega), add_sub_cancel_left]
  have hstart : data.offset.toNat + (rt.start.setWidth 64).toNat < 2 ^ 64 := by
    have hcontent := hholds.inside
    rw [BitVec.toNat_setWidth_of_le (by decide)]
    omega
  rw [UnwindData.unwindWithInfos_eq, UnwindData.chainStart, hip, hsub,
    UnwindData.parseFunction_of_holds hholds, checkedAdd_eq_ok hstart]
  simp only [Exec.okOr, Exec.ok_bind, bind_assoc, Exec.pure_eq_ok]

/-- **`unwind_with_infos` undoes a prolog** exactly if what it reads of it adds up from where the
stack pointer is taken to be. -/
theorem isUndone_iff_reads {data : UnwindData}
    (himage : data.offset.toNat + data.content.length ≤ 2 ^ 64) {rt : RuntimeFunction}
    (hholds : data.Holds rt prolog.child) {rsp rbp lowered : VirtualAddress} {frame : StackFrame}
    (hframe : prolog.InterruptedAt ip data rt rsp rbp lowered frame) :
    prolog.IsUndone ip data rt rsp rbp frame
      ↔ (prolog.child.frame.isSome = true → ip ≠ 0 →
          prolog.frameOffset ≤ (prolog.interrupted ip rsp rbp).rbp)
        ∧ ∃ parts, data.ReadsParts (some ip) rt parts
          ∧ prolog.AddsUp ip rsp rbp (prolog.base ip rsp rbp lowered) parts := by
  have hloop := fun sp => prolog.exists_chainFrom_iff ip data rt rsp rbp sp
    (data.offset + rt.start.setWidth 64)
  unfold IsUndone
  simp only [prolog.unwindWithInfos_eq_framePointer ip himage hholds hframe,
    prolog.framePointer_entry]
  by_cases hbase : prolog.child.frame.isSome = true ∧ ip ≠ 0
  · -- from the frame register
    have hsp : prolog.base ip rsp rbp lowered
        = (prolog.interrupted ip rsp rbp).rbp - prolog.frameOffset := if_pos hbase
    rw [if_pos hbase, checkedSub]
    by_cases hle : prolog.frameOffset ≤ (prolog.interrupted ip rsp rbp).rbp
    · rw [if_pos (show prolog.frameOffset.toNat ≤ _ from hle)]
      simp only [Exec.ok_bind]
      rw [hloop, ← hsp]
      exact (and_iff_right fun _ _ => hle).symm
    · rw [if_neg (show ¬ prolog.frameOffset.toNat ≤ _ from hle)]
      refine iff_of_false ?_ fun h => hle (h.1 hbase.1 hbase.2)
      rintro ⟨_, _, h, _⟩
      cases h
  · -- from the stack pointer
    have hsp : prolog.base ip rsp rbp lowered = frame.stackPointer :=
      (if_neg hbase).trans hframe.stackPointer.symm
    rw [if_neg hbase]
    simp only [Exec.ok_bind]
    rw [hloop, ← hsp]
    exact (and_iff_right fun hdeclared hip => absurd ⟨hdeclared, hip⟩ hbase).symm

/-- **A prolog that is read** is undone exactly when it can be: from a frame register that is
declared, only if that is where the stack pointer is. -/
theorem isUndone_iff_isUndoable {data : UnwindData}
    (himage : data.offset.toNat + data.content.length ≤ 2 ^ 64) {rt : RuntimeFunction}
    (hchain : data.HoldsChain rt (prolog.child :: prolog.parents)) (hread : prolog.Unpadded)
    {rsp rbp lowered : VirtualAddress} {frame : StackFrame}
    (hframe : prolog.InterruptedAt ip data rt rsp rbp lowered frame) :
    prolog.IsUndone ip data rt rsp rbp frame ↔ prolog.IsUndoable ip rsp rbp lowered := by
  have hreads := fun sp => prolog.exists_readsParts_iff ip himage hchain hread rsp rbp sp
  rw [prolog.isUndone_iff_reads ip himage hchain.holds hframe]
  constructor
  · rintro ⟨hframeOffset, h⟩
    obtain ⟨hsp, hfits⟩ := (hreads _).mp h
    unfold base at hsp
    by_cases hbase : prolog.child.frame.isSome = true ∧ ip ≠ 0
    · rw [if_pos hbase] at hsp
      obtain ⟨hnotSet, hset⟩ := (prolog.rbp_sub_frameOffset_eq_iff ip hfits rbp).mp hsp
      exact ⟨fun _ hip => absurd hip hbase.2, fun _ _ => hnotSet, fun _ _ => hset, hframeOffset,
        hfits⟩
    · rw [if_neg hbase, sub_eq_self] at hsp
      exact ⟨fun _ _ => hsp, fun h h' => absurd ⟨h, h'⟩ hbase, fun h h' => absurd ⟨h, h'⟩ hbase,
        hframeOffset, hfits⟩
  · intro h
    refine ⟨h.frameOffset, (hreads _).mpr ⟨?_, h.fits⟩⟩
    unfold base
    by_cases hbase : prolog.child.frame.isSome = true ∧ ip ≠ 0
    · rw [if_pos hbase]
      exact (prolog.rbp_sub_frameOffset_eq_iff ip h.fits rbp).mpr
        ⟨h.notSet hbase.1 hbase.2, h.set hbase.1 hbase.2⟩
    · rw [if_neg hbase, sub_eq_self]
      by_contra hne
      have hdeclared := (hframe.lowered_eq hne).1
      exact hne (h.entry hdeclared (by_contra fun hip => hbase ⟨hdeclared, hip⟩))

/-- **A prolog with padding** is undone only by chance. -/
theorem isUndone_iff_undoneByChance {data : UnwindData}
    (himage : data.offset.toNat + data.content.length ≤ 2 ^ 64) {rt : RuntimeFunction}
    (hchain : data.HoldsChain rt (prolog.child :: prolog.parents)) (hread : ¬ prolog.Unpadded)
    {rsp rbp lowered : VirtualAddress} {frame : StackFrame}
    (hframe : prolog.InterruptedAt ip data rt rsp rbp lowered frame) :
    prolog.IsUndone ip data rt rsp rbp frame
      ↔ prolog.UndoneByChance ip data rsp rbp lowered := by
  have hreads := fun front padded mother
      (hpadded : UnwindData.PaddedAt (prolog.child :: prolog.parents) front padded mother) =>
    hchain.readsParts_iff_of_paddedAt himage (fun info h => prolog.isPart h) hpadded (some ip)
  rw [prolog.isUndone_iff_reads ip himage hchain.holds hframe]
  constructor
  · rintro ⟨hframeOffset, parts, hparts, hadds⟩
    obtain ⟨front, padded, mother, hpadded⟩ := UnwindData.exists_paddedAt hread
    obtain ⟨hstart, rest, hrest, rfl⟩ := (hreads front padded mother hpadded parts).mp hparts
    exact ⟨hframeOffset, front, padded, mother, rest, hpadded, hstart, hrest, hadds⟩
  · rintro ⟨hframeOffset, front, padded, mother, rest, hpadded, hstart, hrest, hadds⟩
    exact ⟨hframeOffset, _,
      (hreads front padded mother hpadded _).mpr ⟨hstart, rest, hrest, rfl⟩, hadds⟩

/-- **`unwind_with_infos` undoes a prolog** exactly when it can be undone, if it is read as it is.
Where it is not, it is undone only by chance. -/
theorem isUndone_iff (prolog : Prolog) {data : UnwindData}
    (himage : data.offset.toNat + data.content.length ≤ 2 ^ 64) {rt : RuntimeFunction}
    (hchain : data.HoldsChain rt (prolog.child :: prolog.parents)) {ip : U32}
    {rsp rbp lowered : VirtualAddress} {frame : StackFrame}
    (hframe : prolog.InterruptedAt ip data rt rsp rbp lowered frame) :
    prolog.IsUndone ip data rt rsp rbp frame
      ↔ prolog.Unpadded ∧ prolog.IsUndoable ip rsp rbp lowered
        ∨ ¬ prolog.Unpadded ∧ prolog.UndoneByChance ip data rsp rbp lowered := by
  by_cases hread : prolog.Unpadded
  · rw [prolog.isUndone_iff_isUndoable ip himage hchain hread hframe]
    exact ⟨fun h => Or.inl ⟨hread, h⟩, fun h => h.elim And.right fun h => absurd hread h.1⟩
  · rw [prolog.isUndone_iff_undoneByChance ip himage hchain hread hframe]
    exact ⟨fun h => Or.inr ⟨hread, h⟩, fun h => h.elim (fun h => absurd h.1 hread) And.right⟩

end Prolog

/-! ### Two prologs with a frame register -/

/-- A prolog that sets its frame register behind a `push` of `rbp`. -/
theorem isProlog_of_setFpReg (front back : List UnwindOp) (hpush : .Push Reg.rbp ∈ front)
    (hfront : .SetFpReg ∉ front) (hback : .SetFpReg ∉ back)
    (hinstr : ∀ op ∈ front ++ .SetFpReg :: back, op.isInstr = true)
    (hsave : ∀ op ∈ front ++ .SetFpReg :: back, op.slotOf 0 ≠ none → op = .Push Reg.rbp) :
    IsProlog (front ++ .SetFpReg :: back) where
  instr := hinstr
  framed front' back' heq := by
    obtain ⟨rfl, -, rfl⟩ := (List.append_cons_inj_of_notMem hfront hback).mp heq
    exact ⟨hpush, hback⟩
  saved front' back' offset heq := by
    have hmem : .Save Reg.rbp offset ∈ front ++ .SetFpReg :: back :=
      heq ▸ List.mem_append_right _ List.mem_cons_self
    exact nomatch hsave _ hmem (fun h => nomatch h)

namespace UnwindInfo

/-- `push rbp` and `sub rsp, 0x20`. -/
def pushesAndAllocates : UnwindInfo where
  versionFlags := 0x01
  prologSize := 5
  frame := some 2
  codes := [(5, .allocSmall 3), (1, .pushNonvol 5)]
  unused := 0
  mother := none
  isVersion := by decide
  isChained := by decide
  inVersion := by
    intro code hcode
    fin_cases hcode <;> exact trivial
  slots_lt := by decide

/-- `push rbx` and `lea rbp, [rsp + 0x20]`, with the entry before as the parent. -/
def setsFrame : UnwindInfo where
  versionFlags := 0x21
  prologSize := 6
  frame := some 2
  codes := [(6, .setFpReg 0), (1, .pushNonvol 3)]
  unused := 0
  mother := some ⟨28, 38, 20⟩
  isVersion := by decide
  isChained := by decide
  inVersion := by
    intro code hcode
    fin_cases hcode <;> exact trivial
  slots_lt := by decide

/-- `push rbp`, `mov rbp, rsp` and `sub rsp, 0x20`. -/
def allocatesLast : UnwindInfo where
  versionFlags := 0x01
  prologSize := 8
  frame := some 0
  codes := [(8, .allocSmall 3), (4, .setFpReg 0), (1, .pushNonvol 5)]
  unused := 0
  mother := none
  isVersion := by decide
  isChained := by decide
  inVersion := by
    intro code hcode
    fin_cases hcode <;> exact trivial
  slots_lt := by decide

/-- `push rbp`. -/
def pushesRbp : UnwindInfo where
  versionFlags := 0x01
  prologSize := 1
  frame := none
  codes := [(1, .pushNonvol 5)]
  unused := 0
  mother := none
  isVersion := by decide
  isChained := by decide
  inVersion := by
    intro code hcode
    fin_cases hcode
    exact trivial
  slots_lt := by decide

/-- `push rbx`, with the entry before as the parent. -/
def pushesRbx : UnwindInfo where
  versionFlags := 0x21
  prologSize := 1
  frame := none
  codes := [(1, .pushNonvol 3)]
  unused := 0
  mother := some ⟨28, 38, 20⟩
  isVersion := by decide
  isChained := by decide
  inVersion := by
    intro code hcode
    fin_cases hcode
    exact trivial
  slots_lt := by decide

end UnwindInfo

namespace Prolog

/-- A prolog in two entries. -/
def inTwoEntries : Prolog where
  child := .setsFrame
  parents := [.pushesAndAllocates]
  declared := by decide
  ordered := by decide
  isProlog := isProlog_of_setFpReg [.Push Reg.rbp, .Alloc 0x20, .Push 3] [] (by decide)
    (by decide) (by decide) (by decide) (by decide)

/-- The image that they are in. -/
def imageInTwoEntries : UnwindData where
  offset := 0x1000
  content := UnwindInfo.setsFrame.bytes ++ UnwindInfo.pushesAndAllocates.bytes
    ++ List.replicate 20 0x90
  directoryRange := (0, 0)

/-- **A prolog in two entries is undone** behind it, where the stack pointer is lowered. -/
theorem isUndone_inTwoEntries :
    inTwoEntries.IsUndone 7 imageInTwoEntries ⟨38, 48, 0⟩ 0x8000 0x1234
      { start := none, size := none, stackPointer := 0x7f00, instructionPointer := 0x102d,
        module := none } := by
  have hset : ∀ front back, inTwoEntries.executed 7 = front ++ .SetFpReg :: back →
      totalSize back = 0 := by
    intro front back heq
    have hsplit : [.Push Reg.rbp, .Alloc 0x20, .Push 3] ++ .SetFpReg :: []
        = front ++ UnwindOp.SetFpReg :: back := heq
    obtain ⟨-, -, rfl⟩ := (List.append_cons_inj_of_notMem (by decide) (by decide)).mp hsplit
    rfl
  have hfinished : inTwoEntries.Finished 7 := by
    unfold Finished
    decide
  have hframe : inTwoEntries.InterruptedAt 7 imageInTwoEntries ⟨38, 48, 0⟩ 0x8000 0x1234 0xd0
      { start := none, size := none, stackPointer := 0x7f00, instructionPointer := 0x102d,
        module := none } :=
    ⟨by decide, by decide, by decide, fun _ => ⟨rfl, hfinished⟩⟩
  refine (isUndone_iff inTwoEntries (by decide)
    (.child ⟨⟨_, rfl⟩, by decide, by decide⟩ rfl (.last ⟨⟨_, rfl⟩, by decide, by decide⟩ rfl))
    hframe).mpr (Or.inl ⟨by decide, ?_⟩)
  exact ⟨by decide, by decide, fun _ _ => hset, by decide,
    ⟨by decide, by decide, by decide, by decide⟩⟩

/-- A prolog that allocates stack after it has set the frame register. -/
def inOneEntry : Prolog where
  child := .allocatesLast
  parents := []
  declared := by decide
  ordered := by decide
  isProlog := isProlog_of_setFpReg [.Push Reg.rbp] [.Alloc 0x20] (by decide) (by decide)
    (by decide) (by decide) (by decide)

/-- The image that it is in. -/
def imageInOneEntry : UnwindData where
  offset := 0x1000
  content := UnwindInfo.allocatesLast.bytes ++ List.replicate 16 0x90
  directoryRange := (0, 0)

/-- **Stack that is allocated after the frame register is set is counted twice.** -/
theorem not_isUndone :
    ¬ ∀ (prolog : Prolog) (data : UnwindData) (rt : RuntimeFunction) (ip : U32)
      (rsp rbp lowered : VirtualAddress) (frame : StackFrame),
      data.offset.toNat + data.content.length ≤ 2 ^ 64 →
      data.HoldsChain rt (prolog.child :: prolog.parents) →
      prolog.InterruptedAt ip data rt rsp rbp lowered frame →
      prolog.IsUndone ip data rt rsp rbp frame := by
  intro h
  have hchain : imageInOneEntry.HoldsChain ⟨12, 28, 0⟩ [.allocatesLast] :=
    .last ⟨⟨_, rfl⟩, by decide, by decide⟩ rfl
  have hframe : inOneEntry.InterruptedAt 8 imageInOneEntry ⟨12, 28, 0⟩ 0x8000 0x1234 0
      { start := none, size := none, stackPointer := 0x7fd8, instructionPointer := 0x1014,
        module := none } :=
    ⟨by decide, by decide, by decide, fun h => absurd rfl h⟩
  have hundoable := (inOneEntry.isUndone_iff_isUndoable 8 (by decide) hchain (by decide) hframe).mp
    (h inOneEntry imageInOneEntry ⟨12, 28, 0⟩ 8 0x8000 0x1234 0 _ (by decide) hchain hframe)
  exact absurd (hundoable.set rfl (by decide) [.Push Reg.rbp] [.Alloc 0x20] rfl) (by decide)

/-- `push rbp` and, in an entry of its own, `push rbx`: no frame register is declared. -/
def inPaddedEntry : Prolog where
  child := .pushesRbx
  parents := [.pushesRbp]
  declared := by decide
  ordered := by decide
  isProlog :=
    { instr := by decide
      framed := fun front back heq => absurd
        (heq ▸ List.mem_append_right front List.mem_cons_self) (by decide)
      saved := fun front back offset heq => by
        change [UnwindOp.Push Reg.rbp, .Push 3] = _ at heq
        have hmem : .Save Reg.rbp offset ∈ front ++ .Save Reg.rbp offset :: back :=
          List.mem_append_right front List.mem_cons_self
        rw [← heq] at hmem
        simp at hmem }

/-- The image that they are in. -/
def imageInPaddedEntry : UnwindData where
  offset := 0x1000
  content := UnwindInfo.pushesRbx.bytes ++ UnwindInfo.pushesRbp.bytes ++ List.replicate 20 0x90
  directoryRange := (0, 0)

/- The record behind one slot and its padding is not read from its place, and where it seems to
lead there is no entry. -/
example : ¬ inPaddedEntry.IsUndone 1 imageInPaddedEntry ⟨38, 48, 0⟩ 0x8000 0x1234
    { start := none, size := none, stackPointer := 0x7ff0, instructionPointer := 0x1027,
      module := none } := by
  intro h
  have hchain : imageInPaddedEntry.HoldsChain ⟨38, 48, 0⟩ [.pushesRbx, .pushesRbp] :=
    .child ⟨⟨_, rfl⟩, by decide, by decide⟩ rfl (.last ⟨⟨_, rfl⟩, by decide, by decide⟩ rfl)
  have hframe : inPaddedEntry.InterruptedAt 1 imageInPaddedEntry ⟨38, 48, 0⟩ 0x8000 0x1234 0
      { start := none, size := none, stackPointer := 0x7ff0, instructionPointer := 0x1027,
        module := none } :=
    ⟨by decide, by decide, by decide, fun h => absurd rfl h⟩
  obtain ⟨-, parts, hparts, -⟩ := (inPaddedEntry.isUndone_iff_reads 1 (by decide) hchain.holds
    hframe).mp h
  have hmother : UnwindInfo.pushesRbx.entry.mother = some ⟨0x1c0000, 0x260000, 0x140000⟩ := by
    decide
  obtain ⟨-, rest, hrest, -⟩ := (UnwindData.readsParts_iff_of_mother
    (UnwindData.parseFunction_of_holds hchain.holds)
    (UnwindInfo.pushesRbx.ending_entry (inPaddedEntry.isPart List.mem_cons_self) (some 1))
    hmother parts).mp hparts
  obtain ⟨function, hparse⟩ := hrest.exists_parse
  have hnone : imageInPaddedEntry.parseFunction ⟨0x1c0000, 0x260000, 0x140000⟩ = none := by decide
  cases hnone.symm.trans hparse

end Prolog
