import Vminer.Dump
import Vminer.LinuxCallstack

/-!
# Walks of a Linux stack

What a round of the walk does, said once (`callstackRound_eq_ok`), and what follows
from it for whole walks.

A module in which a section was found is not empty, so the modules of the frames are
right. What is wrong is the frame of a kernel address that is in no module: it is
handed out as the round before has left it.
-/

/-- A list walk keeps what its callback keeps. -/
theorem Linux.forEachVmaFrom_preserves {B : Type} [Memory B] [HasVcpus B] {σ : Type}
    {P : σ → Prop} {linux : Linux B} {f : Callback σ Os.Vma}
    (hf : ∀ a s flow s', f a s = .ok (flow, s') → P s → P s') {fuel : ℕ} {cur : VirtualAddress}
    {s s' : σ} (h : linux.forEachVmaFrom f fuel cur s = .ok s') (hs : P s) : P s' := by
  induction fuel generalizing cur s with
  | zero => cases h
  | succ fuel ih =>
    rw [forEachVmaFrom] at h
    split at h
    · obtain rfl := Except.ok.inj h
      exact hs
    · obtain ⟨⟨flow, s₁⟩, hcall, h⟩ := (Exec.bind_eq_ok_iff _ _ _).mp h
      have hs₁ := hf _ _ _ _ hcall hs
      cases flow with
      | Break =>
        obtain rfl := Except.ok.inj h
        exact hs₁
      | Continue =>
        obtain ⟨next, -, h⟩ := (Exec.bind_eq_ok_iff _ _ _).mp h
        exact ih h hs₁

namespace Linux

variable {B : Type} [Memory B] [HasVcpus B] {linux : Linux B} {gimli : Gimli} {fuel : ℕ}
  {ctx : Context}

/-! ## Modules -/

/-- The modules of a context have the spans that they are given. -/
def SpansModules (linux : Linux B) (fuel : ℕ) (ctx : Context) : Prop :=
  ∀ m ∈ ctx.modules, linux.moduleSpan fuel m.module = .ok (m.start, m.stop)

/-- **The spans in a context** are those of its modules. -/
theorem spansModules_of_new {proc : Os.Process} (h : Context.new linux fuel proc = .ok ctx) :
    linux.SpansModules fuel ctx := by
  let P : List Callstack.Module → Prop := fun l =>
    ∀ m ∈ l, linux.moduleSpan fuel m.module = .ok (m.start, m.stop)
  obtain ⟨pgd, -, h⟩ := (Exec.bind_eq_ok_iff _ _ _).mp h
  obtain ⟨modules, hmodules, h⟩ := (Exec.bind_eq_ok_iff _ _ _).mp h
  obtain rfl := Except.ok.inj h
  have hnil : P [] := fun m hm => absurd hm List.not_mem_nil
  show P modules
  obtain ⟨mm, -, hmodules⟩ := (Exec.bind_eq_ok_iff _ _ _).mp hmodules
  cases mm with
  | none =>
    obtain rfl := Except.ok.inj hmodules
    exact hnil
  | some mm =>
    obtain ⟨cur, -, hmodules⟩ := (Exec.bind_eq_ok_iff _ _ _).mp hmodules
    refine forEachVmaFrom_preserves (fun vma l flow l' hcall hl => ?_) hmodules hnil
    obtain ⟨offset, -, hcall⟩ := (Exec.bind_eq_ok_iff _ _ _).mp hcall
    split at hcall
    · obtain ⟨path, -, hcall⟩ := (Exec.bind_eq_ok_iff _ _ _).mp hcall
      split at hcall
      · obtain ⟨⟨start, stop⟩, hspan, hcall⟩ := (Exec.bind_eq_ok_iff _ _ _).mp hcall
        obtain ⟨-, rfl⟩ := Prod.mk.inj (Except.ok.inj hcall)
        intro m hm
        obtain hm | hm := List.mem_append.mp hm
        · exact hl m hm
        · obtain rfl := List.mem_singleton.mp hm
          exact hspan
      · obtain ⟨-, rfl⟩ := Prod.mk.inj (Except.ok.inj hcall)
        exact hl
    · obtain ⟨-, rfl⟩ := Prod.mk.inj (Except.ok.inj hcall)
      exact hl

/-- A module is known by its address. -/
theorem SpansModules.eq {a b : Callstack.Module} (h : linux.SpansModules fuel ctx)
    (ha : a ∈ ctx.modules) (hb : b ∈ ctx.modules) (heq : a.module = b.module) : a = b := by
  have hspan := (h a ha).symm.trans ((congrArg _ heq).trans (h b hb))
  obtain ⟨hstart, hstop⟩ := Prod.mk.inj (Except.ok.inj hspan)
  cases a
  cases b
  simp_all

/-! ## Unwind data -/

/-- What is found is in the module and has an entry for the address. -/
theorem discoverFrom_eq_ok {module : Callstack.Module} {ip : VirtualAddress}
    {vmaData : List UInt8} {places : List ℕ} {data : UnwindData}
    (h : linux.discoverFrom gimli ctx module ip vmaData places = .ok data) :
    module.contains data.ehFrameAddr = true ∧ (gimli.fdeForAddress data ip).isSome := by
  induction places with
  | nil => cases h
  | cons i is ih =>
    rw [discoverFrom] at h
    obtain ⟨hdr, -, h⟩ := (Exec.bind_eq_ok_iff _ _ _).mp h
    cases hptr : gimli.ehFramePtr (vmaData.drop i) hdr with
    | none =>
      rw [hptr] at h
      exact ih h
    | some ptr =>
      rw [hptr] at h
      obtain ⟨addr, -, h⟩ := (Exec.bind_eq_ok_iff _ _ _).mp h
      cases addr with
      | none => exact ih h
      | some addr =>
        dsimp only at h
        split at h
        · exact ih h
        · next hcontains =>
          split at h
          · exact ih h
          · next hfde =>
            obtain rfl := Except.ok.inj h
            refine ⟨not_not.mp hcontains, Option.isSome_iff_ne_none.mpr fun heq => hfde ?_⟩
            rw [heq]
            rfl

/-- **Unwind data that is found** at an address is in the module and has an entry for
the address. -/
theorem discoverSections_eq_ok {module : Callstack.Module} {ip : VirtualAddress}
    {data : UnwindData} (h : linux.discoverSections gimli ctx module ip = .ok data) :
    module.contains data.ehFrameAddr = true ∧ (gimli.fdeForAddress data ip).isSome := by
  obtain ⟨zeroes, -, h⟩ := (Exec.bind_eq_ok_iff _ _ _).mp h
  obtain ⟨vmaData, -, h⟩ := (Exec.bind_eq_ok_iff _ _ _).mp h
  exact discoverFrom_eq_ok h

/-- The unwind data of a module, found at one of its addresses. -/
def Discovers (linux : Linux B) (gimli : Gimli) (ctx : Context) (module : Callstack.Module)
    (data : UnwindData) : Prop :=
  ∃ ip, linux.discoverSections gimli ctx module ip = .ok data

/-- A module that has unwind data is not empty. -/
theorem Discovers.start_lt_stop {module : Callstack.Module} {data : UnwindData}
    (h : linux.Discovers gimli ctx module data) : module.start < module.stop := by
  obtain ⟨ip, h⟩ := h
  have hcontains := (discoverSections_eq_ok h).1
  rw [Callstack.Module.contains, Bool.and_eq_true] at hcontains
  exact Nat.lt_of_le_of_lt (of_decide_eq_true hcontains.1) (of_decide_eq_true hcontains.2)

/-- The unwind data that is kept of a module is its own. -/
def HoldsUnwindData (linux : Linux B) (gimli : Gimli) (ctx : Context)
    (cache : OnceMap Os.Module UnwindData) : Prop :=
  ∀ key data, cache.get key = some data →
    ∃ module ∈ ctx.modules, module.module = key ∧ linux.Discovers gimli ctx module data

/-- **The unwind data of a module** is its own, and is kept. -/
theorem getUnwindData_eq_ok {cache cache' : OnceMap Os.Module UnwindData}
    {module : Callstack.Module} {ip : VirtualAddress} {data : UnwindData}
    (hspans : linux.SpansModules fuel ctx) (hmem : module ∈ ctx.modules)
    (hcache : linux.HoldsUnwindData gimli ctx cache)
    (h : linux.getUnwindData gimli ctx cache module ip = (.ok data, cache')) :
    linux.Discovers gimli ctx module data ∧ linux.HoldsUnwindData gimli ctx cache' := by
  unfold getUnwindData at h
  split at h
  · obtain ⟨hdata, rfl⟩ := Prod.ext_iff.mp h
    constructor
    · obtain hget | hd := OnceMap.tryInsert_eq_ok hdata
      · obtain ⟨m, hm, heq, hdisc⟩ := hcache _ _ hget
        rwa [← hspans.eq hm hmem heq]
      · exact ⟨ip, hd⟩
    · intro key d hget
      obtain hget | ⟨rfl, hd⟩ := OnceMap.get_tryInsert hget
      · exact hcache key d hget
      · exact ⟨module, hmem, rfl, ip, hd⟩
  · cases h

/-! ## One round -/

/-- The frame of the caller keeps what the walk has found so far. -/
theorem eq_some_of_callerInstructionPointer {registers : DwarfRegisters} {frame : StackFrame}
    {basePointer nextBp : Option VirtualAddress}
    {readValue : VirtualAddress → Exec VmError U64} {cfa : VirtualAddress}
    {rule : Gimli.RegisterRule} {cache : OnceMap Os.Module UnwindData} {st' : WalkState}
    (h : (do
      match ← callerInstructionPointer registers frame basePointer readValue cfa rule with
      | none => return none
      | some instructionPointer =>
        return some ({ frame := { frame with instructionPointer, stackPointer := cfa }
                       basePointer := nextBp, cache } : WalkState) :
      Exec VmError (Option WalkState)) = .ok (some st')) :
    st'.cache = cache ∧ st'.frame.start = frame.start := by
  obtain ⟨ip, -, h⟩ := (Exec.bind_eq_ok_iff _ _ _).mp h
  cases ip with
  | none => cases h
  | some ip =>
    obtain rfl := Option.some.inj (Except.ok.inj h)
    exact ⟨rfl, rfl⟩

/-- What comes after a frame keeps the unwind data that was found, and the start of the
frame. -/
theorem nextState_eq_some {frame : StackFrame} {basePointer : Option VirtualAddress}
    {cache : OnceMap Os.Module UnwindData} {row : Gimli.UnwindTableRow} {st' : WalkState}
    (h : linux.nextState ctx frame basePointer cache row = .ok (some st')) :
    st'.cache = cache ∧ st'.frame.start = frame.start := by
  unfold nextState at h
  obtain ⟨cfa, -, h⟩ := (Exec.bind_eq_ok_iff _ _ _).mp h
  dsimp only at h
  cases hbp : (dwarfRegisters (Architecture.intoRuntime (HasVcpus.arch linux.backend))).bp with
  | none =>
    rw [hbp] at h
    exact eq_some_of_callerInstructionPointer h
  | some bp =>
    rw [hbp] at h
    obtain ⟨nextBp, -, h⟩ := (Exec.bind_eq_ok_iff _ _ _).mp h
    exact eq_some_of_callerInstructionPointer h

/-- **What a round does.** Outside all modules it is the last one: it hands out the frame
as it is, at an address of the kernel, or a blank one. In a module it hands out the frame
with what the entry there says, or with nothing of it and is the last one. -/
theorem callstackRound_eq_ok {st : WalkState} {r : Round WalkState StackFrame}
    (h : linux.callstackRound gimli fuel ctx st = .ok r) :
    (ctx.findModuleByAddress st.frame.instructionPointer = none
        ∧ (∀ st', r.next ≠ .ok (some st'))
        ∧ (VirtualAddress.isKernel st.frame.instructionPointer = true ∧ r.item = st.frame
          ∨ ¬ VirtualAddress.isKernel st.frame.instructionPointer = true
            ∧ r.item = { st.frame with start := none, size := none, module := none }))
      ∨ ∃ module data cache,
        ctx.findModuleByAddress st.frame.instructionPointer = some module
        ∧ linux.getUnwindData gimli ctx st.cache module st.frame.instructionPointer
          = (.ok data, cache)
        ∧ (gimli.fdeForAddress data st.frame.instructionPointer = none
              ∧ r.item = { st.frame with module := some module.module, start := none, size := none }
              ∧ r.next = .ok none
            ∨ ∃ fde, gimli.fdeForAddress data st.frame.instructionPointer = some fde
              ∧ r.item = { st.frame with
                  module := some module.module
                  start := some fde.initialAddress, size := some fde.len }
              ∧ r.next =
                match gimli.unwindInfoForAddress data fde st.frame.instructionPointer with
                | none => Exec.panicked
                | some row => linux.nextState ctx r.item st.basePointer cache row) := by
  unfold callstackRound at h
  cases hfind : ctx.findModuleByAddress st.frame.instructionPointer with
  | none =>
    rw [hfind] at h
    refine Or.inl ⟨rfl, ?_⟩
    dsimp only [handleInvalidAddress] at h
    split at h
    · next hkernel =>
      obtain rfl := Except.ok.inj h
      exact ⟨fun _ heq => (nomatch heq), Or.inl ⟨hkernel, rfl⟩⟩
    · next hkernel =>
      obtain ⟨spIsValid, -, h⟩ := (Exec.bind_eq_ok_iff _ _ _).mp h
      obtain ⟨ipIsValid, -, h⟩ := (Exec.bind_eq_ok_iff _ _ _).mp h
      split at h
      · obtain rfl := Except.ok.inj h
        exact ⟨fun _ heq => (nomatch heq), Or.inr ⟨hkernel, rfl⟩⟩
      · cases h
  | some module =>
    rw [hfind] at h
    dsimp only at h
    cases hdata : linux.getUnwindData gimli ctx st.cache module st.frame.instructionPointer with
    | mk result cache =>
      rw [hdata] at h
      obtain ⟨data, rfl, h⟩ := (Exec.bind_eq_ok_iff _ _ _).mp h
      refine Or.inr ⟨module, data, cache, rfl, hdata, ?_⟩
      cases hfde : gimli.fdeForAddress data st.frame.instructionPointer with
      | none =>
        rw [hfde] at h
        obtain rfl := Except.ok.inj h
        exact Or.inl ⟨rfl, rfl, rfl⟩
      | some fde =>
        rw [hfde] at h
        obtain rfl := Except.ok.inj h
        exact Or.inr ⟨fde, rfl, rfl, rfl⟩

/-! ## Frames that are handed out -/

/-- The entry for an address, in the unwind data of its module. -/
def HasFde (linux : Linux B) (gimli : Gimli) (ctx : Context) (ip : VirtualAddress)
    (fde : Gimli.Fde) : Prop :=
  ∃ module data, ctx.findModuleByAddress ip = some module
    ∧ linux.Discovers gimli ctx module data ∧ gimli.fdeForAddress data ip = some fde

/-- **A frame describes its own step.** -/
def Describes (linux : Linux B) (gimli : Gimli) (fuel : ℕ) (ctx : Context)
    (frame : StackFrame) : Prop :=
  Callstack.Describes (linux.moduleSpan fuel)
    (fun ip addr => ∃ fde, linux.HasFde gimli ctx ip fde ∧ addr = fde.initialAddress)
    (fun ip size => ∃ fde, linux.HasFde gimli ctx ip fde ∧ size = fde.len) frame

/-- What every state of a walk keeps to: a frame without a start is blank. -/
structure Invariant (linux : Linux B) (gimli : Gimli) (ctx : Context) (st : WalkState) :
    Prop where
  blank : st.frame.start = none → st.frame.size = none ∧ st.frame.module = none
  cache : linux.HoldsUnwindData gimli ctx st.cache

theorem Invariant.init (instructionPointer stackPointer : VirtualAddress)
    (basePointer : Option VirtualAddress) :
    linux.Invariant gimli ctx (.init _ _ instructionPointer stackPointer basePointer) where
  blank _ := ⟨rfl, rfl⟩
  cache _ _ hget := nomatch hget

/-- **A round leads on** from an address that has an entry in the unwind data of its
module: the data is kept, and the frame has the start of the entry. -/
theorem leadsTo_inv {st st' : WalkState}
    (hlead : LeadsTo (linux.callstackRound gimli fuel ctx) st st') :
    ∃ module data fde, ctx.findModuleByAddress st.frame.instructionPointer = some module
      ∧ linux.getUnwindData gimli ctx st.cache module st.frame.instructionPointer
        = (.ok data, st'.cache)
      ∧ gimli.fdeForAddress data st.frame.instructionPointer = some fde
      ∧ st'.frame.start = some fde.initialAddress := by
  obtain ⟨r, hr, hnext⟩ := hlead
  obtain ⟨-, hlast, -⟩ | ⟨module, data, cache, hfind, hdata,
      ⟨-, -, hlast⟩ | ⟨fde, hfde, hitem, hnext'⟩⟩ := callstackRound_eq_ok hr
  · exact absurd hnext (hlast st')
  · cases hlast.symm.trans hnext
  · rw [hnext', hitem] at hnext
    cases hrow : gimli.unwindInfoForAddress data fde st.frame.instructionPointer with
    | none =>
      rw [hrow] at hnext
      cases hnext
    | some row =>
      rw [hrow] at hnext
      obtain ⟨hkept, hstart⟩ := nextState_eq_some hnext
      exact ⟨module, data, fde, hfind, hkept ▸ hdata, hfde, hstart⟩

/-- The unwind data that is kept stays that of its module. -/
theorem HoldsUnwindData.step {st st' : WalkState} (hspans : linux.SpansModules fuel ctx)
    (h : linux.HoldsUnwindData gimli ctx st.cache)
    (hlead : LeadsTo (linux.callstackRound gimli fuel ctx) st st') :
    linux.HoldsUnwindData gimli ctx st'.cache := by
  obtain ⟨module, data, fde, hfind, hdata, -⟩ := leadsTo_inv hlead
  exact (getUnwindData_eq_ok hspans (Callstack.findByAddress_eq_some hfind).1 h hdata).2

/-- A round keeps to it, and the next frame has a start. -/
theorem Invariant.step {st st' : WalkState} (hspans : linux.SpansModules fuel ctx)
    (h : linux.Invariant gimli ctx st)
    (hlead : LeadsTo (linux.callstackRound gimli fuel ctx) st st') :
    linux.Invariant gimli ctx st' ∧ st'.frame.start ≠ none := by
  obtain ⟨-, -, fde, -, -, -, hstart⟩ := leadsTo_inv hlead
  have hne : st'.frame.start ≠ none := by
    rw [hstart]
    exact Option.some_ne_none _
  exact ⟨⟨fun hnone => absurd hnone hne, h.cache.step hspans hlead⟩, hne⟩

/-- Nor does a walk leave it. -/
theorem Invariant.reach {st st' : WalkState} (hspans : linux.SpansModules fuel ctx)
    (h : linux.Invariant gimli ctx st)
    (hreach : Relation.ReflTransGen (LeadsTo (linux.callstackRound gimli fuel ctx)) st st') :
    linux.Invariant gimli ctx st' := by
  induction hreach with
  | refl => exact h
  | tail _ hlead ih => exact (ih.step hspans hlead).1

/-- **A kernel address outside all modules**, where a frame is handed out as it is. -/
def KernelOutside (ctx : Context) (ip : VirtualAddress) : Prop :=
  ctx.findModuleByAddress ip = none ∧ VirtualAddress.isKernel ip = true

/-- **The frame of a round describes its step** unless it is one of an earlier round, at
a kernel address outside all modules. -/
theorem describes_item_iff {st : WalkState} {r : Round WalkState StackFrame}
    (hspans : linux.SpansModules fuel ctx) (h : linux.Invariant gimli ctx st)
    (hr : linux.callstackRound gimli fuel ctx st = .ok r) :
    linux.Describes gimli fuel ctx r.item
      ↔ ¬ (KernelOutside ctx st.frame.instructionPointer ∧ st.frame.start ≠ none) := by
  obtain ⟨hfind, -, ⟨hkernel, hitem⟩ | ⟨hkernel, hitem⟩⟩
    | ⟨module, data, cache, hfind, hdata, hitem⟩ := callstackRound_eq_ok hr
  · rw [hitem]
    constructor
    · rintro hdescribes ⟨-, hstart⟩
      obtain ⟨addr, haddr⟩ := Option.ne_none_iff_exists'.mp hstart
      obtain ⟨fde, ⟨module, data, hfind', -⟩, -⟩ := hdescribes.start addr haddr
      cases hfind.symm.trans hfind'
    · intro hnot
      have hstart : st.frame.start = none := by
        by_contra hne
        exact hnot ⟨⟨hfind, hkernel⟩, hne⟩
      obtain ⟨hsize, hmodule⟩ := h.blank hstart
      refine ⟨fun m hm => ?_, fun addr haddr => ?_, fun size hs => ?_⟩
      · cases hmodule.symm.trans hm
      · cases hstart.symm.trans haddr
      · cases hsize.symm.trans hs
  · rw [hitem]
    refine iff_of_true
      ⟨fun _ hm => (nomatch hm), fun _ ha => (nomatch ha), fun _ hs => (nomatch hs)⟩ ?_
    exact fun hout => hkernel hout.1.2
  · obtain ⟨hmem, hwhere⟩ := Callstack.findByAddress_eq_some hfind
    obtain ⟨hdisc, -⟩ := getUnwindData_eq_ok hspans hmem h.cache hdata
    have hspan : ∃ start stop, linux.moduleSpan fuel module.module = .ok (start, stop)
        ∧ start ≤ st.frame.instructionPointer ∧ st.frame.instructionPointer < stop := by
      refine ⟨module.start, module.stop, hspans module hmem, ?_⟩
      obtain heq | hcontains := hwhere
      · rw [← heq]
        exact ⟨BitVec.le_refl _, hdisc.start_lt_stop⟩
      · rw [Callstack.Module.contains, Bool.and_eq_true] at hcontains
        exact ⟨of_decide_eq_true hcontains.1, of_decide_eq_true hcontains.2⟩
    refine iff_of_true ?_ fun hout => nomatch hout.1.1.symm.trans hfind
    obtain ⟨-, hitem, -⟩ | ⟨fde, hfde, hitem, -⟩ := hitem
    · rw [hitem]
      refine ⟨fun m hm => ?_, fun _ ha => (nomatch ha), fun _ hs => (nomatch hs)⟩
      obtain rfl := Option.some.inj hm
      exact hspan
    · have hentry : linux.HasFde gimli ctx st.frame.instructionPointer fde :=
        ⟨module, data, hfind, hdisc, hfde⟩
      rw [hitem]
      refine ⟨fun m hm => ?_, fun addr ha => ⟨fde, hentry, ?_⟩, fun size hs => ⟨fde, hentry, ?_⟩⟩
      · obtain rfl := Option.some.inj hm
        exact hspan
      · exact (Option.some.inj ha).symm
      · exact (Option.some.inj hs).symm

/-- At a kernel address outside all modules the frame is handed out, the last one. -/
theorem callstackRound_kernelOutside {st : WalkState}
    (h : KernelOutside ctx st.frame.instructionPointer) :
    linux.callstackRound gimli fuel ctx st
      = .ok { item := st.frame
              next := Exec.fail (.ofStr "kernel unwinding is not supported") } := by
  unfold callstackRound
  rw [h.1]
  dsimp only [handleInvalidAddress]
  rw [if_pos h.2]
  rfl

/-- **All frames of a walk describe their steps** exactly if no round but the first is at a
kernel address outside all modules. -/
theorem delivers_describes_iff (hspans : linux.SpansModules fuel ctx)
    (instructionPointer stackPointer : VirtualAddress) (basePointer : Option VirtualAddress) :
    (∀ frame, Delivers (linux.callstackRound gimli fuel ctx)
          (.init _ _ instructionPointer stackPointer basePointer) frame →
        linux.Describes gimli fuel ctx frame)
      ↔ ∀ st', Relation.TransGen (LeadsTo (linux.callstackRound gimli fuel ctx))
          (.init _ _ instructionPointer stackPointer basePointer) st' →
        ¬ KernelOutside ctx st'.frame.instructionPointer := by
  have hinit : linux.Invariant gimli ctx
      (.init _ _ instructionPointer stackPointer basePointer) := .init _ _ _
  constructor
  · intro hall st' htrans hout
    have hr : linux.callstackRound gimli fuel ctx st' = _ := callstackRound_kernelOutside hout
    obtain ⟨st, hreach, hlead⟩ := Relation.TransGen.tail'_iff.mp htrans
    obtain ⟨hinv, hstart⟩ := (hinit.reach hspans hreach).step hspans hlead
    have hdescribes := hall _ ⟨st', _, htrans.to_reflTransGen, hr, rfl⟩
    exact (describes_item_iff hspans hinv hr).mp hdescribes ⟨hout, hstart⟩
  · rintro hnot frame ⟨st', r, hreach, hr, rfl⟩
    refine (describes_item_iff hspans (hinit.reach hspans hreach) hr).mpr fun ⟨hout, hstart⟩ => ?_
    obtain rfl | htrans := Relation.reflTransGen_iff_eq_or_transGen.mp hreach
    · exact hstart rfl
    · exact hnot st' htrans hout

/-! ## Walks that end -/

/-- The registers of the caller, by the row of the table that is about this instruction
pointer. -/
def nextRegisters (linux : Linux B) (ctx : Context) (r : Callstack.Registers)
    (row : Gimli.UnwindTableRow) : Exec VmError (Option Callstack.Registers) := do
  let registers := dwarfRegisters (Architecture.intoRuntime (HasVcpus.arch linux.backend))
  let readValue := linux.readValue ctx Layout.u64
  let stackPointer ← canonicalFrameAddress registers r.frame r.basePointer row.cfa
  let basePointer ←
    match registers.bp with
    | none => pure none
    | some bp =>
      callerBasePointer registers r.frame r.basePointer readValue stackPointer (row.register bp)
  match ← callerInstructionPointer registers r.frame r.basePointer readValue stackPointer
      (row.register registers.ip) with
  | none => return none
  | some instructionPointer => return some { instructionPointer, stackPointer, basePointer }

/-- **One step up the stack**, of the registers and of the unwind data found so far: the entry
for the instruction pointer is looked up in the unwind data of its module, which is the one
that was found there first. -/
def callerRegisters (linux : Linux B) (gimli : Gimli) (fuel : ℕ) (ctx : Context) :
    Callstack.Registers × OnceMap Os.Module UnwindData →
      Exec VmError (Option (Callstack.Registers × OnceMap Os.Module UnwindData))
  | (r, found) =>
    match ctx.findModuleByAddress r.instructionPointer with
    | none => do
      let last ← linux.handleInvalidAddress fuel ctx.proc r.frame
      let next ← last.next
      return next.map fun st => (st.registers, st.cache)
    | some module => do
      let (data, found) := linux.getUnwindData gimli ctx found module r.instructionPointer
      let data ← data
      match gimli.fdeForAddress data r.instructionPointer with
      | none => return none
      | some fde =>
        match gimli.unwindInfoForAddress data fde r.instructionPointer with
        | none => Exec.panicked
        | some row => do
          let next ← linux.nextRegisters ctx r row
          return next.map fun r => (r, found)

/-- The registers of a frame and of its caller, each with the unwind data found before. -/
def Caller (linux : Linux B) (gimli : Gimli) (fuel : ℕ) (ctx : Context)
    (p q : Callstack.Registers × OnceMap Os.Module UnwindData) : Prop :=
  linux.callerRegisters gimli fuel ctx p = .ok (some q)

/-- **The registers come back**, with more found or not. -/
def ComesBack (linux : Linux B) (gimli : Gimli) (fuel : ℕ) (ctx : Context)
    (p : Callstack.Registers × OnceMap Os.Module UnwindData) : Prop :=
  ∃ q q', Relation.ReflTransGen (linux.Caller gimli fuel ctx) p q
    ∧ Relation.TransGen (linux.Caller gimli fuel ctx) q q' ∧ q'.1 = q.1

/-- A guest with a process that has one module, in which a section describes two
functions, one right after the other. A stack comes after it. -/
def twoFunctions (stack : List U64) : Linux (DumbDump RawMemory) where
  backend := .ofWords ([0x83, 16,
    32, 0,
    0x200, 0x2c0, 0, 72, 0,
    80,
    80, 96, 0x61] ++ List.replicate 51 0 ++
    -- `.eh_frame_hdr`, and `.eh_frame` with a common entry and that of each function
    [0x4ffff1b01,
    0x14, 0x08070c1078010001, 0x190,
    0x1c00000014, 0x280, 0x10,
    0x3400000014, 0x290, 0x10,
    0] ++ List.replicate 13 0 ++ stack)
  layouts := fun _ => some fun field =>
    if field = "pgd" ∨ field = "vm_end" ∨ field = "d_name" then some 8
    else if field = "vm_next" then some 16
    else if field = "vm_file" then some 24
    else if field = "vm_pgoff" then some 32
    else some 0
  kpgd := 0

/-- What is known of its process. -/
def twoFunctionsContext : Context where
  proc := ⟨8⟩
  pgd := 0
  modules := [⟨0x200, 0x2c0, ⟨32⟩⟩]

/-- It is found with each of these stacks. -/
theorem new_twoFunctions {stack : List U64}
    (h : stack ∈ [[], [0], [0x284], [0x2a0], [0x294, 0], [0x2c0, 0x284], [0xffff800000000000]]) :
    Context.new (twoFunctions stack) 3 ⟨8⟩ = .ok twoFunctionsContext := by
  revert stack
  decide +kernel

end Linux

/-- What is read of the section there: the return address is right below the frame
address, and that is right above it. -/
def Gimli.twoFunctions : Gimli where
  ehFramePtr bytes addr :=
    if bytes.take 8 = Layout.u64.enc 0x4ffff1b01 then some (.Direct (addr + 8)) else none
  fdeForAddress _ ip := [⟨0x280, 0x10⟩, ⟨0x290, 0x10⟩].find? (Gimli.Fde.contains · ip)
  unwindInfoForAddress _ _ _ := some {
    cfa := .RegisterAndOffset 7 8
    register := fun register => if register = 16 then .Offset (-8) else .Undefined }
