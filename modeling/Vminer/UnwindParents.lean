import Vminer.LinkWalk
import Vminer.Unwind

/-!
# Chains of parents

A step up the stack follows the entries of the exception directory from one to its
parent. Nothing in the image keeps the chain from being a cycle, so a step ends
exactly if it does not run into one; the codes of one entry always end, as each
takes a byte at least.

The start of a function is that of the last entry of the chain.
-/

namespace Cursor

variable {α β : Type}

/-- What is left is not longer than what there was. -/
def NonGrowing (c : Cursor α) : Prop := ∀ codes, (c.run.run codes).2.length ≤ codes.length

theorem nonGrowing_pure (a : α) : NonGrowing (pure a : Cursor α) := fun _ => le_rfl

theorem nonGrowing_failure : NonGrowing (failure : Cursor α) := fun _ => le_rfl

theorem nonGrowing_read (L : Layout α) : NonGrowing (read L) := by
  intro codes
  rw [run_read]
  cases h : L.read codes with
  | none => exact le_rfl
  | some p =>
    have hlen := Layout.length_of_read h
    show p.2.length ≤ codes.length
    omega

theorem NonGrowing.bind {c : Cursor α} {f : α → Cursor β} (hc : NonGrowing c)
    (hf : ∀ a, NonGrowing (f a)) : NonGrowing (c >>= f) := by
  intro codes
  rw [OptionT.run_bind, Option.elimM, StateT.run_bind]
  have hle := hc codes
  cases h : c.run.run codes with
  | mk o rest =>
    rw [h] at hle
    cases o with
    | none => exact hle
    | some a => exact (hf a rest).trans hle

end Cursor

namespace UnwindOpIterator

open Cursor in
/-- The operand of an operation is behind it. -/
theorem nonGrowing_opOf (version : BitVec 8) (opCode : ℕ) (opInfo : BitVec 8) :
    NonGrowing (opOf version opCode opInfo) := by
  unfold opOf
  split
  · exact nonGrowing_pure _
  · split
    · exact (nonGrowing_read _).bind fun _ => nonGrowing_pure _
    · exact (nonGrowing_read _).bind fun _ => nonGrowing_pure _
    · exact nonGrowing_failure
  · exact nonGrowing_pure _
  · exact nonGrowing_pure _
  · exact (nonGrowing_read _).bind fun _ => nonGrowing_pure _
  · exact (nonGrowing_read _).bind fun _ => nonGrowing_pure _
  · split
    · exact (nonGrowing_read _).bind fun _ => nonGrowing_pure _
    · exact nonGrowing_failure
  · exact (nonGrowing_read _).bind fun _ => nonGrowing_pure _
  · exact (nonGrowing_read _).bind fun _ => nonGrowing_pure _
  · split
    · exact nonGrowing_pure _
    · exact nonGrowing_pure _
    · exact nonGrowing_failure
  · exact nonGrowing_failure

/-- **An item takes a byte at least.** -/
theorem length_next {iter iter' : UnwindOpIterator} {item : Option (BitVec 8 × UnwindOp)}
    (h : iter.next = some (item, iter')) : iter'.codes.length < iter.codes.length := by
  unfold next at h
  cases hread : Layout.u8.read iter.codes with
  | none =>
    rw [hread] at h
    cases h
  | some p =>
    rw [hread] at h
    have hlen : p.2.length + 1 = iter.codes.length :=
      (Nat.add_comm _ _).trans (Layout.length_of_read hread).symm
    have hop : Cursor.NonGrowing (nextOp iter.version) :=
      (Cursor.nonGrowing_read _).bind fun _ => nonGrowing_opOf _ _ _
    obtain rfl : iter' = { iter with codes := ((nextOp iter.version).run.run p.2).2 } :=
      (congrArg Prod.snd (Option.some.inj h)).symm
    exact Nat.lt_of_le_of_lt (hop p.2) (by omega)

end UnwindOpIterator

/-! ## What takes no budget -/

namespace UnwindData

end UnwindData

/-! ## Parents -/

namespace UnwindData

/-- An entry and its parent. -/
def Parent (data : UnwindData) (rt rt' : RuntimeFunction) : Prop :=
  ∃ function, data.parseFunction rt = some function ∧ function.mother = some rt'

/-- **The start of the function at an offset**: that of the last parent of its
entry. -/
def IsFunStart (data : UnwindData) (offset : U32) (addr : VirtualAddress) : Prop :=
  ∃ rt last, data.findByOffset offset = .ok (some rt)
    ∧ Relation.ReflTransGen data.Parent rt last ∧ (∀ rt', ¬ data.Parent last rt')
    ∧ checkedAdd (ε := VmError) data.offset (last.start.setWidth 64) = .ok addr

variable {data : UnwindData}

/-- An entry that does not parse has no parent. -/
theorem not_parent_of_parse_eq_none {rt : RuntimeFunction} (h : data.parseFunction rt = none)
    (rt' : RuntimeFunction) : ¬ data.Parent rt rt' := by
  rintro ⟨function, hparse, -⟩
  rw [h] at hparse
  cases hparse

/-- The parent of an entry is the one that it names. -/
theorem parent_iff {rt : RuntimeFunction} {function : FunctionEntry}
    (h : data.parseFunction rt = some function) (rt' : RuntimeFunction) :
    data.Parent rt rt' ↔ function.mother = some rt' := by
  refine ⟨?_, fun hm => ⟨function, h, hm⟩⟩
  rintro ⟨function', hparse, hm⟩
  rw [h] at hparse
  exact Option.some.inj hparse ▸ hm

/-! ### The start of a function -/

/-- What the loop finds is the start of the last parent. -/
theorem motherStart_eq_some {n : ℕ} {rt : RuntimeFunction} {addr : VirtualAddress}
    (h : motherStart data n rt = .ok (some addr)) :
    ∃ last, Relation.ReflTransGen data.Parent rt last ∧ (∀ rt', ¬ data.Parent last rt')
      ∧ checkedAdd (ε := VmError) data.offset (last.start.setWidth 64) = .ok addr := by
  induction n generalizing rt with
  | zero => cases h
  | succ n ih =>
    rw [motherStart] at h
    cases hparse : data.parseFunction rt with
    | none =>
      rw [hparse] at h
      cases h
    | some function =>
      rw [hparse] at h
      dsimp only at h
      cases hmother : function.mother with
      | none =>
        rw [hmother] at h
        obtain ⟨start, hstart, heq⟩ := (Exec.bind_eq_ok_iff _ _ _).mp h
        obtain rfl := Option.some.inj (Except.ok.inj heq)
        refine ⟨rt, .refl, fun rt' hp => ?_, hstart⟩
        rw [parent_iff hparse, hmother] at hp
        cases hp
      | some mother =>
        rw [hmother] at h
        obtain ⟨last, hreach, hlast, haddr⟩ := ih h
        exact ⟨last, hreach.head ⟨function, hparse, hmother⟩, hlast, haddr⟩

/-! ### Undoing the prologs of a chain -/

/-- Where the loop of `unwind_with_infos` is: what it knows of the instruction
pointer, its entry, and the variables `next_sp`, `next_bp_addr` and `fun_start`. -/
abbrev ChainState : Type :=
  Option U32 × RuntimeFunction × VirtualAddress × Option VirtualAddress × VirtualAddress

instance : DecidableEq ChainState := inferInstance

/-- What the loop of `unwind_with_infos` makes of where `rbp` is saved. -/
def bpAddrFrom (nextSp : VirtualAddress) (bpOffset : Option U32)
    (nextBpAddr : Option VirtualAddress) : Exec VmError (Option VirtualAddress) :=
  match bpOffset with
  | some offset => do
    let addr ← checkedAdd nextSp (offset.setWidth 64)
    return some addr
  | none => return nextBpAddr

/-- How it goes on after the codes of an entry. -/
def chainStep (data : UnwindData) (function : FunctionEntry) (step : UnwindStep)
    (nextSp : VirtualAddress) (nextBpAddr : Option VirtualAddress) (funStart : VirtualAddress) :
    Exec VmError (UnwindResult ⊕ ChainState) :=
  match step with
  | .MachInst offset => do
    let nextIpAddr ← checkedAdd nextSp (offset.setWidth 64)
    let addr ← checkedAdd nextIpAddr 0x18
    return .inl { nextSp := .Addr addr, nextIpAddr, nextBpAddr, funStart := some funStart }
  | .SpOffset offset => do
    let nextSp ← checkedAdd nextSp (offset.setWidth 64)
    match function.mother with
    | some mother => do
      let _ ← Exec.okOr (data.parseFunction mother) (.new "failed to parse unwind data")
      let funStart ← checkedAdd data.offset (mother.start.setWidth 64)
      return .inr (none, mother, nextSp, nextBpAddr, funStart)
    | none => do
      let addr ← checkedAdd nextSp 8
      return .inl { nextSp := .Value addr, nextIpAddr := nextSp, nextBpAddr,
                    funStart := some funStart }

/-- One round of the loop. -/
def chainRound (data : UnwindData) : ChainState → Exec VmError (UnwindResult ⊕ ChainState)
  | (ipOffset, rt, nextSp, nextBpAddr, funStart) => do
    let function ← Exec.okOr (data.parseFunction rt) (.new "failed to parse unwind data")
    let (bpOffset, step) ← readUnwindCodes function ipOffset
    let nextBpAddr ← bpAddrFrom nextSp bpOffset nextBpAddr
    data.chainStep function step nextSp nextBpAddr funStart

/-- The loop, from an entry on that is parsed for it. -/
def chainFrom (data : UnwindData) : ℕ → ChainState → Exec VmError UnwindResult
  | 0, _ => Exec.outOfFuel
  | fuel + 1, (ipOffset, rt, nextSp, nextBpAddr, funStart) => do
    let function ← Exec.okOr (data.parseFunction rt) (.new "failed to parse unwind data")
    unwindChain data (fuel + 1) function ipOffset nextSp nextBpAddr funStart

/-- What `unwind_with_infos` does before its loop. -/
def chainStart (data : UnwindData) (rt : RuntimeFunction) (frame : StackFrame)
    (basePointer : Option VirtualAddress) : Exec VmError ChainState := do
  let ipOffset ← checkedSub (data.offsetOf frame.instructionPointer) rt.start
  let function ← Exec.okOr (data.parseFunction rt) (.new "failed to parse unwind data")
  let funStart ← checkedAdd data.offset (rt.start.setWidth 64)
  let framePointer ← framePointer function ipOffset frame.stackPointer basePointer
  return (some ipOffset, rt, framePointer, none, funStart)

/-- **After the codes of an entry** the loop ends or goes on with the parent. -/
theorem chainStep_bind (data : UnwindData) (n : ℕ) (function : FunctionEntry) (step : UnwindStep)
    (nextSp : VirtualAddress) (nextBpAddr : Option VirtualAddress) (funStart : VirtualAddress) :
    data.chainStep function step nextSp nextBpAddr funStart
        >>= Sum.elim (fun r => .ok r) (data.chainFrom n)
      = match step with
        | .MachInst offset => do
          let nextIpAddr ← checkedAdd nextSp (offset.setWidth 64)
          let addr ← checkedAdd nextIpAddr 0x18
          return { nextSp := .Addr addr, nextIpAddr, nextBpAddr, funStart := some funStart }
        | .SpOffset offset => do
          let nextSp ← checkedAdd nextSp (offset.setWidth 64)
          match function.mother with
          | some mother => do
            let function ← Exec.okOr (data.parseFunction mother)
              (.new "failed to parse unwind data")
            let funStart ← checkedAdd data.offset (mother.start.setWidth 64)
            unwindChain data n function none nextSp nextBpAddr funStart
          | none => do
            let addr ← checkedAdd nextSp 8
            return { nextSp := .Value addr, nextIpAddr := nextSp, nextBpAddr,
                     funStart := some funStart } := by
  unfold chainStep
  cases step with
  | MachInst offset =>
    simp only [bind_assoc]
    rfl
  | SpOffset offset =>
    simp only [bind_assoc]
    refine congrArg _ (funext fun nextSp => ?_)
    cases function.mother with
    | none =>
      simp only [bind_assoc]
      rfl
    | some mother =>
      simp only [bind_assoc]
      cases hparse : data.parseFunction mother with
      | none => rfl
      | some function' =>
        show (checkedAdd _ _ >>= _) = (checkedAdd _ _ >>= _)
        refine congrArg _ (funext fun funStart => ?_)
        show chainFrom data n (none, mother, nextSp, nextBpAddr, funStart) = _
        cases n with
        | zero => rfl
        | succ n =>
          rw [chainFrom, hparse]
          rfl

/-- The loop goes round by round. -/
theorem chainFrom_succ (data : UnwindData) (n : ℕ) (st : ChainState) :
    data.chainFrom (n + 1) st
      = data.chainRound st >>= Sum.elim (fun r => .ok r) (data.chainFrom n) := by
  obtain ⟨ipOffset, rt, nextSp, nextBpAddr, funStart⟩ := st
  rw [chainFrom, chainRound]
  simp only [bind_assoc, chainStep_bind, unwindChain]
  refine congrArg _ (funext fun function => ?_)
  refine congrArg _ (funext fun res => ?_)
  cases res.1 with
  | none => rfl
  | some offset => exact (bind_assoc _ _ _).symm

/-- It begins with the codes of an entry that parses. -/
theorem chainFrom_succ_of_parse {rt : RuntimeFunction} {function : FunctionEntry}
    (h : data.parseFunction rt = some function) (n : ℕ) (ip : Option U32)
    (nextSp : VirtualAddress) (nextBpAddr : Option VirtualAddress) (funStart : VirtualAddress) :
    data.chainFrom (n + 1) (ip, rt, nextSp, nextBpAddr, funStart)
      = readUnwindCodes function ip >>= fun codes =>
        bpAddrFrom nextSp codes.1 nextBpAddr >>= fun nextBpAddr =>
        data.chainStep function codes.2 nextSp nextBpAddr funStart
          >>= Sum.elim (fun r => .ok r) (data.chainFrom n) := by
  rw [chainFrom_succ, chainRound, h]
  simp only [Exec.okOr, Exec.ok_bind, bind_assoc]

/-- An entry that is used parses. -/
theorem parse_eq_some {rt : RuntimeFunction} {function : FunctionEntry} {e : VmError}
    (h : Exec.okOr (data.parseFunction rt) e = .ok function) :
    data.parseFunction rt = some function := by
  cases hp : data.parseFunction rt with
  | none =>
    rw [hp] at h
    cases h
  | some function' =>
    rw [hp] at h
    exact congrArg some (Except.ok.inj h)

/-- **After the codes of an entry the loop goes on** only with a parent that parses, and only
where both sums fit. -/
theorem chainStep_inr {function : FunctionEntry} {step : UnwindStep} {nextSp : VirtualAddress}
    {nextBpAddr : Option VirtualAddress} {funStart : VirtualAddress} {st : ChainState}
    (h : data.chainStep function step nextSp nextBpAddr funStart = .ok (.inr st)) :
    ∃ offset mother function' nextSp' funStart', step = .SpOffset offset
      ∧ function.mother = some mother ∧ data.parseFunction mother = some function'
      ∧ checkedAdd (ε := VmError) nextSp (offset.setWidth 64) = .ok nextSp'
      ∧ checkedAdd (ε := VmError) data.offset (mother.start.setWidth 64) = .ok funStart'
      ∧ st = (none, mother, nextSp', nextBpAddr, funStart') := by
  cases step with
  | MachInst offset =>
    obtain ⟨_, -, h⟩ := (Exec.bind_eq_ok_iff _ _ _).mp h
    obtain ⟨_, -, h⟩ := (Exec.bind_eq_ok_iff _ _ _).mp h
    cases h
  | SpOffset offset =>
    obtain ⟨nextSp', hsp, h⟩ := (Exec.bind_eq_ok_iff _ _ _).mp h
    cases hm : function.mother with
    | none =>
      rw [hm] at h
      obtain ⟨_, -, h⟩ := (Exec.bind_eq_ok_iff _ _ _).mp h
      cases h
    | some mother =>
      rw [hm] at h
      obtain ⟨function', hparse, h⟩ := (Exec.bind_eq_ok_iff _ _ _).mp h
      obtain ⟨funStart', hstart, h⟩ := (Exec.bind_eq_ok_iff _ _ _).mp h
      cases h
      exact ⟨offset, mother, function', nextSp', funStart', rfl, rfl, parse_eq_some hparse, hsp,
        hstart, rfl⟩

/-- **The loop goes from an entry to its parent**, whose start it takes. -/
theorem chainRound_inr {st st' : ChainState} (h : data.chainRound st = .ok (.inr st')) :
    data.Parent st.2.1 st'.2.1
      ∧ checkedAdd (ε := VmError) data.offset (st'.2.1.start.setWidth 64) = .ok st'.2.2.2.2 := by
  obtain ⟨ipOffset, rt, nextSp, nextBpAddr, funStart⟩ := st
  obtain ⟨function, hparse, h⟩ := (Exec.bind_eq_ok_iff _ _ _).mp h
  obtain ⟨⟨bpOffset, step⟩, -, h⟩ := (Exec.bind_eq_ok_iff _ _ _).mp h
  obtain ⟨nextBpAddr, -, h⟩ := (Exec.bind_eq_ok_iff _ _ _).mp h
  obtain ⟨_, mother, _, _, _, -, hm, -, -, hstart, rfl⟩ := chainStep_inr h
  exact ⟨⟨function, parse_eq_some hparse, hm⟩, hstart⟩

/-- A machine frame is not that of an entry with a parent. -/
theorem mother_of_machInst {function : FunctionEntry} {offset : Option U32} {rounds : ℕ}
    {codes : UnwindOpIterator} {spOffset : U32} {bpAddr res : Option U32} {size : U32}
    (h : readUnwindCodesLoop function offset rounds codes spOffset bpAddr
      = .ok (res, .MachInst size)) : function.mother = none := by
  induction rounds generalizing codes spOffset bpAddr with
  | zero => cases h
  | succ rounds ih =>
    rw [readUnwindCodesLoop] at h
    match hnext : codes.next with
    | none =>
      rw [hnext] at h
      cases h
    | some (none, _) =>
      rw [hnext] at h
      cases h
    | some (some (opOffset, op), codes') =>
      rw [hnext] at h
      dsimp only at h
      split at h
      · exact ih h
      · split at h
        · obtain ⟨_, -, h⟩ := (Exec.bind_eq_ok_iff _ _ _).mp h
          exact ih h
        · obtain ⟨_, -, h⟩ := (Exec.bind_eq_ok_iff _ _ _).mp h
          exact ih h
        · unfold readMachFrame at h
          split at h
          · cases h
          · split at h
            · cases h
            · next hm => simpa using hm
        · exact ih h
        · exact ih h

/-- The loop ends at an entry without a parent. -/
theorem chainRound_inl {st : ChainState} {res : UnwindResult}
    (h : data.chainRound st = .ok (.inl res)) :
    (∀ rt', ¬ data.Parent st.2.1 rt') ∧ res.funStart = some st.2.2.2.2 := by
  obtain ⟨ipOffset, rt, nextSp, nextBpAddr, funStart⟩ := st
  obtain ⟨function, hparse, h⟩ := (Exec.bind_eq_ok_iff _ _ _).mp h
  obtain ⟨⟨bpOffset, step⟩, hread, h⟩ := (Exec.bind_eq_ok_iff _ _ _).mp h
  obtain ⟨nextBpAddr, -, h⟩ := (Exec.bind_eq_ok_iff _ _ _).mp h
  have hnone : function.mother = none → ∀ rt', ¬ data.Parent rt rt' := by
    intro hm rt' hp
    rw [parent_iff (parse_eq_some hparse), hm] at hp
    cases hp
  cases step with
  | MachInst offset =>
    obtain ⟨_, -, h⟩ := (Exec.bind_eq_ok_iff _ _ _).mp h
    obtain ⟨_, -, h⟩ := (Exec.bind_eq_ok_iff _ _ _).mp h
    cases h
    exact ⟨hnone (mother_of_machInst hread), rfl⟩
  | SpOffset offset =>
    obtain ⟨nextSp, -, h⟩ := (Exec.bind_eq_ok_iff _ _ _).mp h
    cases hm : function.mother with
    | none =>
      rw [hm] at h
      obtain ⟨_, -, h⟩ := (Exec.bind_eq_ok_iff _ _ _).mp h
      cases h
      exact ⟨hnone hm, rfl⟩
    | some mother =>
      rw [hm] at h
      obtain ⟨_, -, h⟩ := (Exec.bind_eq_ok_iff _ _ _).mp h
      obtain ⟨_, -, h⟩ := (Exec.bind_eq_ok_iff _ _ _).mp h
      cases h

/-- `unwind_with_infos` is its loop, from where it begins. -/
theorem unwindWithInfos_eq (data : UnwindData) (n : ℕ) (rt : RuntimeFunction) (frame : StackFrame)
    (basePointer : Option VirtualAddress) :
    unwindWithInfos data n rt frame basePointer
      = data.chainStart rt frame basePointer >>= data.chainFrom n := by
  unfold unwindWithInfos chainStart
  simp only [bind_assoc]
  refine congrArg _ (funext fun ipOffset => ?_)
  cases hparse : data.parseFunction rt with
  | none => rfl
  | some function =>
    show (checkedAdd _ _ >>= _) = (checkedAdd _ _ >>= _)
    refine congrArg _ (funext fun funStart => ?_)
    refine congrArg _ (funext fun framePointer => ?_)
    show _ = chainFrom data n (some ipOffset, rt, framePointer, none, funStart)
    cases n with
    | zero => rfl
    | succ n =>
      rw [chainFrom, hparse]
      rfl

/-! ### Steps that end -/

instance : Finite RuntimeFunction :=
  Finite.of_injective (fun rt => (rt.start, rt.stop, rt.ptr)) fun a b h => by
    cases a
    cases b
    simp_all

/-- The epilog that begins at the instruction pointer. -/
def epilogAt (data : UnwindData) (frame : StackFrame) :
    Exec VmError (Option (VirtualAddress × Option VirtualAddress)) :=
  match readSlice data.content (data.offsetOf frame.instructionPointer).toNat with
  | none => .ok none
  | some (_, code) => emulateEpilog code.length code frame.stackPointer none

/-- The entry that `read_epilog` finds. An error of the directory is logged. -/
def entryAt (data : UnwindData) (offset : U32) : Exec VmError (Option RuntimeFunction) :=
  match data.findByOffset offset with
  | .ok function => .ok function
  | .error (.err _) => .ok none
  | .error stop => .error stop

/-- The start of the function of an entry, if there is one. -/
def startFrom (data : UnwindData) (n : ℕ) :
    Option RuntimeFunction → Exec VmError (Option VirtualAddress)
  | none => .ok none
  | some function => motherStart data n function

/-- What `read_epilog` makes of an epilog. -/
def finishEpilog (data : UnwindData) (n : ℕ) (frame : StackFrame) :
    Option (VirtualAddress × Option VirtualAddress) → Exec VmError (Option UnwindResult)
  | none => .ok none
  | some (nextIpAddr, nextBpAddr) => do
    let runtimeFunction ← data.entryAt (data.offsetOf frame.instructionPointer)
    let funStart ← data.startFrom n runtimeFunction
    let addr ← checkedAdd nextIpAddr 8
    return some { nextSp := .Value addr, nextIpAddr, nextBpAddr, funStart }

theorem readEpilog_eq (data : UnwindData) (n : ℕ) (frame : StackFrame) :
    readEpilog data n frame = data.epilogAt frame >>= data.finishEpilog n frame := by
  unfold readEpilog epilogAt
  dsimp only
  cases readSlice data.content (data.offsetOf frame.instructionPointer).toNat with
  | none => rfl
  | some slices =>
    dsimp only
    refine congrArg _ (funext fun epilog => ?_)
    match epilog with
    | none => rfl
    | some (nextIpAddr, nextBpAddr) =>
      dsimp only [finishEpilog, entryAt]
      match data.findByOffset (data.offsetOf frame.instructionPointer) with
      | .error (.err _) => rfl
      | .error .panic => rfl
      | .error .fuel => rfl
      | .ok none => rfl
      | .ok (some function) => rfl

/-- An entry that is found is one of the directory. -/
theorem entryAt_eq_some_iff (data : UnwindData) (offset : U32) (rt : RuntimeFunction) :
    data.entryAt offset = .ok (some rt) ↔ data.findByOffset offset = .ok (some rt) := by
  unfold entryAt
  match data.findByOffset offset with
  | .ok function => exact Iff.rfl
  | .error (.err _) => exact ⟨fun h => (nomatch h), fun h => (nomatch h)⟩
  | .error .panic => exact ⟨fun h => (nomatch h), fun h => (nomatch h)⟩
  | .error .fuel => exact ⟨fun h => (nomatch h), fun h => (nomatch h)⟩

/-- The loop of `unwind_with_infos` reports the start of the last parent. -/
theorem funStart_of_chainFrom {n : ℕ} {st : ChainState} {res : UnwindResult}
    (h : data.chainFrom n st = .ok res)
    (hstart : checkedAdd (ε := VmError) data.offset (st.2.1.start.setWidth 64)
      = .ok st.2.2.2.2) :
    ∃ last, Relation.ReflTransGen data.Parent st.2.1 last ∧ (∀ rt', ¬ data.Parent last rt')
      ∧ ∃ addr, res.funStart = some addr
        ∧ checkedAdd (ε := VmError) data.offset (last.start.setWidth 64) = .ok addr := by
  induction n generalizing st with
  | zero => cases h
  | succ n ih =>
    rw [chainFrom_succ] at h
    obtain ⟨next, hround, h⟩ := (Exec.bind_eq_ok_iff _ _ _).mp h
    cases next with
    | inl res' =>
      obtain rfl := Except.ok.inj h
      obtain ⟨hlast, hfun⟩ := chainRound_inl hround
      exact ⟨st.2.1, .refl, hlast, _, hfun, hstart⟩
    | inr st' =>
      obtain ⟨hparent, hstart'⟩ := chainRound_inr hround
      obtain ⟨last, hreach, hlast, haddr⟩ := ih h hstart'
      exact ⟨last, hreach.head hparent, hlast, haddr⟩

/-- **What `unwind_with_infos` reports** is the start of the function of its
entry. -/
theorem isFunStart_of_unwindWithInfos {n : ℕ} {rt : RuntimeFunction} {frame : StackFrame}
    {basePointer : Option VirtualAddress} {res : UnwindResult} {offset : U32}
    (hrt : data.findByOffset offset = .ok (some rt))
    (h : unwindWithInfos data n rt frame basePointer = .ok res) {addr : VirtualAddress}
    (haddr : res.funStart = some addr) : data.IsFunStart offset addr := by
  rw [unwindWithInfos_eq] at h
  obtain ⟨st, hst, h⟩ := (Exec.bind_eq_ok_iff _ _ _).mp h
  obtain ⟨ipOffset, -, hst⟩ := (Exec.bind_eq_ok_iff _ _ _).mp hst
  obtain ⟨function, -, hst⟩ := (Exec.bind_eq_ok_iff _ _ _).mp hst
  obtain ⟨funStart, hstart, hst⟩ := (Exec.bind_eq_ok_iff _ _ _).mp hst
  obtain ⟨framePointer, -, hst⟩ := (Exec.bind_eq_ok_iff _ _ _).mp hst
  obtain rfl := Except.ok.inj hst
  obtain ⟨last, hreach, hlast, addr', hfun, hadd⟩ := funStart_of_chainFrom h hstart
  obtain rfl := Option.some.inj (hfun.symm.trans haddr)
  exact ⟨rt, last, hrt, hreach, hlast, hadd⟩

/-- **What `read_epilog` reports** is the start of the function that it is in. -/
theorem isFunStart_of_readEpilog {n : ℕ} {frame : StackFrame} {res : UnwindResult}
    (h : readEpilog data n frame = .ok (some res)) {addr : VirtualAddress}
    (haddr : res.funStart = some addr) :
    data.IsFunStart (data.offsetOf frame.instructionPointer) addr := by
  rw [readEpilog_eq] at h
  obtain ⟨epilog, -, h⟩ := (Exec.bind_eq_ok_iff _ _ _).mp h
  match epilog with
  | none => cases h
  | some (nextIpAddr, nextBpAddr) =>
    obtain ⟨rt, hrt, h⟩ := (Exec.bind_eq_ok_iff _ _ _).mp h
    obtain ⟨funStart, hstart, h⟩ := (Exec.bind_eq_ok_iff _ _ _).mp h
    obtain ⟨next, -, h⟩ := (Exec.bind_eq_ok_iff _ _ _).mp h
    obtain rfl := Option.some.inj (Except.ok.inj h)
    obtain rfl : funStart = some addr := haddr
    cases rt with
    | none => cases hstart
    | some rt =>
      obtain ⟨last, hreach, hlast, hadd⟩ := motherStart_eq_some hstart
      exact ⟨rt, last, (data.entryAt_eq_some_iff _ rt).mp hrt, hreach, hlast, hadd⟩

end UnwindData
