import Vminer.WindowsCallstack

/-!
# Walks of a Windows stack

What a round of the walk does, said once (`callstackRound_eq_ok`), and what follows
from it for whole walks: of the frames that are handed out, and of the states they
come to.
-/

/-- A list walk keeps what its callback keeps. -/
theorem Pointer.iterateListFrom_preserves {σ : Type} {P : σ → Prop} {readMemory : ReadMemory}
    {layouts : Layouts} {next : StructField} {head : VirtualAddress} {offset : U64}
    {f : Callback σ VirtualAddress}
    (hf : ∀ a s flow s', f a s = .ok (flow, s') → P s → P s') {fuel : ℕ} {pos : VirtualAddress}
    {s s' : σ}
    (h : Pointer.iterateListFrom readMemory layouts next head offset f fuel pos s = .ok s')
    (hs : P s) : P s' := by
  induction fuel generalizing pos s with
  | zero => cases h
  | succ fuel ih =>
    rw [Pointer.iterateListFrom] at h
    obtain ⟨pos', -, h⟩ := (Exec.bind_eq_ok_iff _ _ _).mp h
    by_cases hend : pos' = head
    · rw [if_pos hend] at h
      obtain rfl := Except.ok.inj h
      exact hs
    · rw [if_neg hend] at h
      obtain ⟨item, -, h⟩ := (Exec.bind_eq_ok_iff _ _ _).mp h
      obtain ⟨⟨flow, s₁⟩, hcall, h⟩ := (Exec.bind_eq_ok_iff _ _ _).mp h
      have hs₁ := hf _ _ _ _ hcall hs
      cases flow with
      | Break =>
        obtain rfl := Except.ok.inj h
        exact hs₁
      | Continue => exact ih h hs₁

namespace Windows

variable {B : Type} [Memory B] [HasVcpus B] {windows : Windows B} {parsePe : PeParser}
  {fuel : ℕ} {ctx : Context} {modules : List Callstack.Module}

/-! ## Modules -/

/-- **The spans in the vector** are those of its modules. -/
theorem moduleSpan_of_collectModules {sorts : SortUnstable} {proc : Os.Process}
    (h : windows.collectModules sorts fuel proc = .ok modules) :
    ∀ m ∈ modules, windows.moduleSpan fuel m.module proc = .ok (m.start, m.stop) := by
  let P : List Callstack.Module → Prop := fun l =>
    ∀ m ∈ l, windows.moduleSpan fuel m.module proc = .ok (m.start, m.stop)
  have hpush : ∀ a l flow l', windows.pushModule fuel proc a l = .ok (flow, l') → P l → P l' := by
    intro a l flow l' hcall hl m hm
    obtain ⟨⟨start, stop⟩, hspan, hcall⟩ := (Exec.bind_eq_ok_iff _ _ _).mp hcall
    obtain ⟨-, rfl⟩ := Prod.mk.inj (Except.ok.inj hcall)
    obtain hm | hm := List.mem_append.mp hm
    · exact hl m hm
    · obtain rfl := List.mem_singleton.mp hm
      exact hspan
  have hlist : ∀ {readMemory : ReadMemory} {link : StructField} {head : VirtualAddress} {l l'},
      windows.iterateList readMemory link fuel head
        (fun module => windows.pushModule fuel proc ⟨module⟩) l = .ok l' → P l → P l' := by
    intro readMemory link head l l' hwalk hl
    obtain ⟨offset, -, hwalk⟩ := (Exec.bind_eq_ok_iff _ _ _).mp hwalk
    exact Pointer.iterateListFrom_preserves (fun a l flow l' => hpush ⟨a⟩ l flow l') hwalk hl
  obtain ⟨user, huser, h⟩ := (Exec.bind_eq_ok_iff _ _ _).mp h
  obtain ⟨all, hall, h⟩ := (Exec.bind_eq_ok_iff _ _ _).mp h
  obtain rfl := Except.ok.inj h
  have hPuser : P user := by
    obtain ⟨p, -, huser⟩ := (Exec.bind_eq_ok_iff _ _ _).mp huser
    split at huser
    · obtain rfl := Except.ok.inj huser
      exact fun m hm => absurd hm List.not_mem_nil
    · obtain ⟨pgd, -, huser⟩ := (Exec.bind_eq_ok_iff _ _ _).mp huser
      obtain ⟨ldr, -, huser⟩ := (Exec.bind_eq_ok_iff _ _ _).mp huser
      obtain ⟨head, -, huser⟩ := (Exec.bind_eq_ok_iff _ _ _).mp huser
      exact hlist huser fun m hm => absurd hm List.not_mem_nil
  obtain ⟨head, -, hall⟩ := (Exec.bind_eq_ok_iff _ _ _).mp hall
  exact fun m hm => hlist hall hPuser m ((sorts.perm_byKey _ all).mem_iff.mp hm)

/-! ## One round -/

/-- What comes after a frame keeps the unwind data that was found. -/
theorem nextState_eq_some {frame : StackFrame} {basePointer : Option VirtualAddress}
    {cache : OnceMap Callstack.Module UnwindData} {infos : UnwindResult} {st' : WalkState}
    (h : windows.nextState fuel ctx frame basePointer cache infos = .ok (some st')) :
    st'.cache = cache ∧ st'.frame.size = frame.size := by
  have hlast : ∀ (ip sp : VirtualAddress) (bp : Option VirtualAddress),
      (if VirtualAddress.isNull ip then (.ok none : Exec VmError (Option WalkState))
        else .ok (some ⟨{ frame with instructionPointer := ip, stackPointer := sp }, bp, cache⟩))
        = .ok (some st') → st'.cache = cache ∧ st'.frame.size = frame.size := by
    intro ip sp bp hst
    split at hst
    · cases hst
    · obtain rfl := Option.some.inj (Except.ok.inj hst)
      exact ⟨rfl, rfl⟩
  obtain ⟨ip, -, h⟩ := (Exec.bind_eq_ok_iff _ _ _).mp h
  dsimp only at h
  cases hsp : infos.nextSp with
  | Addr addr =>
    rw [hsp] at h
    obtain ⟨sp, -, h⟩ := (Exec.bind_eq_ok_iff _ _ _).mp h
    cases hbp : infos.nextBpAddr with
    | none =>
      rw [hbp] at h
      exact hlast ip sp _ h
    | some addr =>
      rw [hbp] at h
      obtain ⟨value, -, h⟩ := (Exec.bind_eq_ok_iff _ _ _).mp h
      exact hlast ip sp _ h
  | Value sp =>
    rw [hsp] at h
    dsimp only at h
    rw [Exec.pure_eq_ok, Exec.ok_bind] at h
    cases hbp : infos.nextBpAddr with
    | none =>
      rw [hbp] at h
      exact hlast ip sp basePointer h
    | some addr =>
      rw [hbp] at h
      obtain ⟨value, -, h⟩ := (Exec.bind_eq_ok_iff _ _ _).mp h
      exact hlast ip sp (some value) h

/-- **What a round does.** Outside all modules it hands out a blank frame and is the
last one; in a module it hands out a frame with the start that was found, or with none
and is the last one. -/
theorem callstackRound_eq_ok {steps : ℕ} {st : WalkState} {r : Round WalkState StackFrame}
    (h : windows.callstackRound parsePe fuel ctx modules steps st = .ok r) :
    (Callstack.findByAddress modules st.frame.instructionPointer = none
        ∧ r.item = { st.frame with start := none, module := none }
        ∧ ∀ st', r.next ≠ .ok (some st'))
      ∨ ∃ module, Callstack.findByAddress modules st.frame.instructionPointer = some module
        ∧ ((∃ infos cache, windows.unwindFunction parsePe fuel ctx steps st.cache module
                { st.frame with module := some module.module } st.basePointer = (.ok infos, cache)
              ∧ r.item = { st.frame with module := some module.module, start := infos.funStart }
              ∧ r.next = windows.nextState fuel ctx r.item st.basePointer cache infos)
            ∨ (r.item = { st.frame with module := some module.module, start := none }
              ∧ ∀ st', r.next ≠ .ok (some st'))) := by
  unfold callstackRound at h
  cases hfind : Callstack.findByAddress modules st.frame.instructionPointer with
  | none =>
    rw [hfind] at h
    refine Or.inl ⟨rfl, ?_⟩
    have hlast : ∀ valid : Bool, (if valid = true then
        (.ok ⟨{ st.frame with start := none, module := none },
          Exec.fail (.ofStr "unwinding through JIT is unsupported")⟩ :
          Exec VmError (Round WalkState StackFrame))
        else Exec.fail (.context
          ("invalid instruction pointer: 0x"
            ++ .ofList (Nat.toDigits 16 st.frame.instructionPointer.toNat))
          (some (.new "this is probably a bug")))) = .ok r →
        r.item = { st.frame with start := none, module := none }
          ∧ ∀ st', r.next ≠ .ok (some st') := by
      intro valid hr
      split at hr
      · obtain rfl := Except.ok.inj hr
        exact ⟨rfl, fun _ heq => nomatch heq⟩
      · cases hr
    dsimp only [handleInvalidAddress] at h
    obtain ⟨mapped, -, h⟩ := (Exec.bind_eq_ok_iff _ _ _).mp h
    cases mapped with
    | false => exact hlast false h
    | true =>
      obtain ⟨valid, -, h⟩ := (Exec.bind_eq_ok_iff _ _ _).mp h
      exact hlast valid h
  | some module =>
    rw [hfind] at h
    refine Or.inr ⟨module, rfl, ?_⟩
    dsimp only at h
    cases hunwind : windows.unwindFunction parsePe fuel ctx steps st.cache module
        { st.frame with module := some module.module } st.basePointer with
    | mk result cache =>
      rw [hunwind] at h
      match result with
      | .ok infos =>
        obtain rfl := Except.ok.inj h
        exact Or.inl ⟨infos, cache, rfl, rfl, rfl⟩
      | .error (.err err) =>
        obtain rfl := Except.ok.inj h
        exact Or.inr ⟨rfl, fun _ heq => nomatch heq⟩
      | .error .panic => cases h
      | .error .fuel => cases h

/-! ## Unwind data -/

/-- The unwind data that is kept of a module is its own. -/
def HoldsUnwindData (windows : Windows B) (parsePe : PeParser) (fuel : ℕ) (ctx : Context)
    (cache : OnceMap Callstack.Module UnwindData) : Prop :=
  ∀ module data, cache.get module = some data →
    windows.initUnwindData parsePe fuel ctx module = .ok data

/-- **A function is undone** with the unwind data of its module, which is kept. -/
theorem unwindFunction_eq_ok {steps : ℕ} {cache cache' : OnceMap Callstack.Module UnwindData}
    {module : Callstack.Module} {frame : StackFrame} {basePointer : Option VirtualAddress}
    {infos : UnwindResult} (hcache : windows.HoldsUnwindData parsePe fuel ctx cache)
    (h : windows.unwindFunction parsePe fuel ctx steps cache module frame basePointer
      = (.ok infos, cache')) :
    windows.HoldsUnwindData parsePe fuel ctx cache'
      ∧ ∃ data, windows.initUnwindData parsePe fuel ctx module = .ok data
        ∧ data.unwindFunction steps frame basePointer = .ok infos := by
  obtain ⟨hinfos, rfl⟩ := Prod.mk.inj h
  obtain ⟨data, hdata, hinfos⟩ := (Exec.bind_eq_ok_iff _ _ _).mp hinfos
  rw [withContext, Exec.mapErr_eq_ok_iff] at hdata
  refine ⟨fun m d hget => ?_, data, ?_, hinfos⟩
  · obtain hget | ⟨rfl, hd⟩ := OnceMap.get_tryInsert hget
    · exact hcache m d hget
    · exact hd
  · obtain hget | hd := OnceMap.tryInsert_eq_ok hdata
    · exact hcache module data hget
    · exact hd

/-- **The start that is reported** is that of the function there. -/
theorem isFunStart_of_unwindFunction {data : UnwindData} {steps : ℕ} {frame : StackFrame}
    {basePointer : Option VirtualAddress} {infos : UnwindResult} {addr : VirtualAddress}
    (h : data.unwindFunction steps frame basePointer = .ok infos)
    (haddr : infos.funStart = some addr) :
    data.IsFunStart (data.offsetOf frame.instructionPointer) addr := by
  obtain ⟨epilog, hepilog, h⟩ := (Exec.bind_eq_ok_iff _ _ _).mp h
  cases epilog with
  | some result =>
    obtain rfl := Except.ok.inj h
    exact UnwindData.isFunStart_of_readEpilog hepilog haddr
  | none =>
    obtain ⟨function, hfunction, h⟩ := (Exec.bind_eq_ok_iff _ _ _).mp h
    cases function with
    | some rt => exact UnwindData.isFunStart_of_unwindWithInfos hfunction h haddr
    | none =>
      obtain ⟨nextSp, -, h⟩ := (Exec.bind_eq_ok_iff _ _ _).mp h
      obtain rfl := Except.ok.inj h
      cases haddr

/-! ## Frames that are handed out -/

/-- The start of the function at an address, by the unwind data of its module. -/
def IsStart (windows : Windows B) (parsePe : PeParser) (fuel : ℕ) (ctx : Context)
    (modules : List Callstack.Module) (ip addr : VirtualAddress) : Prop :=
  ∃ module data, Callstack.findByAddress modules ip = some module
    ∧ windows.initUnwindData parsePe fuel ctx module = .ok data
    ∧ data.IsFunStart (data.offsetOf ip) addr

/-- **A frame describes its own step.** There are no sizes. -/
def Describes (windows : Windows B) (parsePe : PeParser) (fuel : ℕ) (ctx : Context)
    (modules : List Callstack.Module) (frame : StackFrame) : Prop :=
  Callstack.Describes (fun m => windows.moduleSpan fuel m ctx.proc)
    (windows.IsStart parsePe fuel ctx modules) (fun _ _ => False) frame

/-- What every state of a walk keeps to. -/
structure Invariant (windows : Windows B) (parsePe : PeParser) (fuel : ℕ) (ctx : Context)
    (st : WalkState) : Prop where
  size : st.frame.size = none
  cache : windows.HoldsUnwindData parsePe fuel ctx st.cache

theorem Invariant.init (instructionPointer stackPointer : VirtualAddress)
    (basePointer : Option VirtualAddress) :
    windows.Invariant parsePe fuel ctx
      (.init _ _ instructionPointer stackPointer basePointer) where
  size := rfl
  cache _ _ hget := nomatch hget

/-- A round keeps the unwind data of each module its own. -/
theorem HoldsUnwindData.step {steps : ℕ} {st st' : WalkState}
    (h : windows.HoldsUnwindData parsePe fuel ctx st.cache)
    (hlead : LeadsTo (windows.callstackRound parsePe fuel ctx modules steps) st st') :
    windows.HoldsUnwindData parsePe fuel ctx st'.cache ∧ st'.frame.size = st.frame.size := by
  obtain ⟨r, hr, hnext⟩ := hlead
  obtain ⟨-, -, hlast⟩ | ⟨module, -, ⟨infos, cache, hunwind, hitem, hnext'⟩ | ⟨-, hlast⟩⟩ :=
    callstackRound_eq_ok hr
  · exact absurd hnext (hlast st')
  · rw [hnext', hitem] at hnext
    obtain ⟨hcache, hsize⟩ := nextState_eq_some hnext
    rw [hcache]
    exact ⟨(unwindFunction_eq_ok h hunwind).1, hsize⟩
  · exact absurd hnext (hlast st')

/-- A round keeps to it. -/
theorem Invariant.step {steps : ℕ} {st st' : WalkState}
    (h : windows.Invariant parsePe fuel ctx st)
    (hlead : LeadsTo (windows.callstackRound parsePe fuel ctx modules steps) st st') :
    windows.Invariant parsePe fuel ctx st' := by
  obtain ⟨hcache, hsize⟩ := HoldsUnwindData.step h.cache hlead
  exact ⟨hsize.trans h.size, hcache⟩

/-- Nor does a walk leave it. -/
theorem Invariant.reach {steps : ℕ} {st st' : WalkState}
    (h : windows.Invariant parsePe fuel ctx st)
    (hreach : Relation.ReflTransGen
      (LeadsTo (windows.callstackRound parsePe fuel ctx modules steps)) st st') :
    windows.Invariant parsePe fuel ctx st' := by
  induction hreach with
  | refl => exact h
  | tail _ hlead ih => exact ih.step hlead

/-- **The frame of a round describes its step** exactly if the module there, where one
is found, is not empty. -/
theorem describes_item_iff {steps : ℕ} {st : WalkState} {r : Round WalkState StackFrame}
    (hmodules : ∀ m ∈ modules, windows.moduleSpan fuel m.module ctx.proc = .ok (m.start, m.stop))
    (h : windows.Invariant parsePe fuel ctx st)
    (hr : windows.callstackRound parsePe fuel ctx modules steps st = .ok r) :
    windows.Describes parsePe fuel ctx modules r.item
      ↔ ∀ module, Callstack.findByAddress modules st.frame.instructionPointer = some module →
        module.start < module.stop := by
  have hsize : ∀ {frame : StackFrame}, frame.size = st.frame.size → ∀ size,
      frame.size = some size → False := by
    intro frame heq size hsome
    rw [heq, h.size] at hsome
    cases hsome
  -- a frame with the module that is found
  have hfound : ∀ {module : Callstack.Module} {start : Option VirtualAddress},
      Callstack.findByAddress modules st.frame.instructionPointer = some module →
      (∀ addr, start = some addr →
        windows.IsStart parsePe fuel ctx modules st.frame.instructionPointer addr) →
      (windows.Describes parsePe fuel ctx modules
          { st.frame with module := some module.module, start }
        ↔ ∀ m, Callstack.findByAddress modules st.frame.instructionPointer = some m →
          m.start < m.stop) := by
    intro module start hfind hstart
    obtain ⟨hmem, hwhere⟩ := Callstack.findByAddress_eq_some hfind
    have hspan := hmodules module hmem
    constructor
    · intro hdescribes m hm
      obtain rfl := Option.some.inj (hfind.symm.trans hm)
      obtain ⟨a, b, hab, hle, hlt⟩ := hdescribes.module module.module rfl
      obtain ⟨rfl, rfl⟩ := Prod.mk.inj (Except.ok.inj (hspan.symm.trans hab))
      exact Nat.lt_of_le_of_lt hle hlt
    · intro hne
      have hlt := hne module hfind
      refine ⟨fun m hm => ?_, hstart, hsize rfl⟩
      obtain rfl := Option.some.inj hm
      refine ⟨module.start, module.stop, hspan, ?_⟩
      obtain heq | hcontains := hwhere
      · show module.start ≤ st.frame.instructionPointer ∧ st.frame.instructionPointer < module.stop
        rw [← heq]
        exact ⟨BitVec.le_refl _, hlt⟩
      · rw [Callstack.Module.contains, Bool.and_eq_true] at hcontains
        exact ⟨of_decide_eq_true hcontains.1, of_decide_eq_true hcontains.2⟩
  obtain ⟨hnone, hitem, -⟩ | ⟨module, hfind, ⟨infos, cache, hunwind, hitem, -⟩ | ⟨hitem, -⟩⟩ :=
    callstackRound_eq_ok hr
  · rw [hitem, hnone]
    exact iff_of_true ⟨fun _ hm => (nomatch hm), fun _ hs => (nomatch hs), hsize rfl⟩
      fun _ hm => nomatch hm
  · rw [hitem]
    obtain ⟨-, data, hdata, hundo⟩ := unwindFunction_eq_ok h.cache hunwind
    exact hfound hfind fun addr haddr =>
      ⟨module, data, hfind, hdata, isFunStart_of_unwindFunction hundo haddr⟩
  · rw [hitem]
    exact hfound hfind fun _ hs => nomatch hs

/-- **All frames of a walk describe their steps** exactly if no module is empty that
the walk finds for a frame that it hands out. -/
theorem delivers_describes_iff {steps : ℕ} {st : WalkState}
    (hmodules : ∀ m ∈ modules, windows.moduleSpan fuel m.module ctx.proc = .ok (m.start, m.stop))
    (h : windows.Invariant parsePe fuel ctx st) :
    (∀ frame, Delivers (windows.callstackRound parsePe fuel ctx modules steps) st frame →
        windows.Describes parsePe fuel ctx modules frame)
      ↔ ∀ st' r, Relation.ReflTransGen
          (LeadsTo (windows.callstackRound parsePe fuel ctx modules steps)) st st' →
        windows.callstackRound parsePe fuel ctx modules steps st' = .ok r →
        ∀ module, Callstack.findByAddress modules st'.frame.instructionPointer = some module →
          module.start < module.stop := by
  constructor
  · intro hall st' r hreach hr
    exact (describes_item_iff hmodules (h.reach hreach) hr).mp (hall _ ⟨st', r, hreach, hr, rfl⟩)
  · rintro hne frame ⟨st', r, hreach, hr, rfl⟩
    exact (describes_item_iff hmodules (h.reach hreach) hr).mpr (hne st' r hreach hr)

/-! ## Walks that end -/

/-- The registers of the caller, from what undoing a function gave. -/
def nextRegisters (windows : Windows B) (fuel : ℕ) (ctx : Context)
    (basePointer : Option VirtualAddress) (infos : UnwindResult) :
    Exec VmError (Option Callstack.Registers) := do
  let instructionPointer ← windows.readValue fuel ctx Layout.u64 infos.nextIpAddr
  let stackPointer ←
    match infos.nextSp with
    | .Addr addr => windows.readValue fuel ctx Layout.u64 addr
    | .Value addr => pure addr
  let basePointer ←
    match infos.nextBpAddr with
    | some addr => do
      let value ← windows.readValue fuel ctx Layout.u64 addr
      pure (some value)
    | none => pure basePointer
  if VirtualAddress.isNull instructionPointer then return none
  else return some { instructionPointer, stackPointer, basePointer }

/-- **One step up the stack**, of the registers alone: the function is undone with the unwind
data that the image of its module has, whatever has been found before. -/
def callerRegisters (windows : Windows B) (parsePe : PeParser) (fuel : ℕ) (ctx : Context)
    (modules : List Callstack.Module) (steps : ℕ) (r : Callstack.Registers) :
    Exec VmError (Option Callstack.Registers) :=
  match Callstack.findByAddress modules r.instructionPointer with
  | none => do
    let last ← windows.handleInvalidAddress fuel ctx.proc r.frame
    let next ← last.next
    return next.map Callstack.State.registers
  | some module => do
    let data ← withContext "cannot get unwind data"
      (windows.initUnwindData parsePe fuel ctx module)
    let infos ← data.unwindFunction steps r.frame r.basePointer
    windows.nextRegisters fuel ctx r.basePointer infos

/-- The registers of a frame and of its caller. -/
def Caller (windows : Windows B) (parsePe : PeParser) (fuel : ℕ) (ctx : Context)
    (modules : List Callstack.Module) (r r' : Callstack.Registers) : Prop :=
  ∃ steps, windows.callerRegisters parsePe fuel ctx modules steps r = .ok (some r')

end Windows
