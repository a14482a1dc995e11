import Vminer.LinuxFrames

/-!
# Which entry a frame is unwound by

A frame is looked up by its instruction pointer. In a caller that is the return
address, the address after the call, so a call that is the last instruction of its
function is taken for one of the function behind it, if there is one
(`attributes_iff`).

An address that no function covers ends a walk with one more frame, but only in a
module that the walk has come through before: the search for the unwind data of a
module wants an entry for the first address that is looked up in it
(`uncovered_iff`).
-/

namespace Linux

variable {B : Type} [Memory B] [HasVcpus B] {linux : Linux B} {gimli : Gimli} {fuel : ℕ}
  {ctx : Context}

/-! ## Callers -/

/-- **The functions of each module**: their ranges are disjoint, and an address is looked
up among them. -/
structure HasFunctions (linux : Linux B) (gimli : Gimli) (ctx : Context)
    (functions : Os.Module → List Gimli.Fde) : Prop where
  disjoint : ∀ m, (functions m).Pairwise fun a b =>
    ∀ addr, ¬ (a.contains addr = true ∧ b.contains addr = true)
  lookup : ∀ module ∈ ctx.modules, ∀ data, linux.Discovers gimli ctx module data →
    ∀ addr, gimli.fdeForAddress data addr
      = (functions module.module).find? (Gimli.Fde.contains · addr)

/-- In disjoint ranges the one that is found is the one with the address. -/
theorem find_contains_eq_some_iff {functions : List Gimli.Fde}
    (h : functions.Pairwise fun a b => ∀ addr, ¬ (a.contains addr = true ∧ b.contains addr = true))
    (addr : VirtualAddress) (fde : Gimli.Fde) :
    functions.find? (Gimli.Fde.contains · addr) = some fde
      ↔ fde ∈ functions ∧ fde.contains addr = true := by
  induction functions with
  | nil => simp
  | cons a functions ih =>
    obtain ⟨ha, hrest⟩ := List.pairwise_cons.mp h
    rw [List.find?_cons]
    cases hc : a.contains addr with
    | false =>
      show List.find? _ _ = some fde ↔ _
      rw [ih hrest, List.mem_cons]
      refine ⟨fun ⟨hmem, hf⟩ => ⟨Or.inr hmem, hf⟩, fun ⟨hmem, hf⟩ => ⟨?_, hf⟩⟩
      obtain rfl | hmem := hmem
      · cases hc.symm.trans hf
      · exact hmem
    | true =>
      show some a = some fde ↔ _
      rw [List.mem_cons]
      constructor
      · intro heq
        obtain rfl := Option.some.inj heq
        exact ⟨Or.inl rfl, hc⟩
      · rintro ⟨rfl | hmem, hf⟩
        · rfl
        · exact absurd ⟨hc, hf⟩ (ha fde hmem addr)

/-- The module and the entry that a round looks up. -/
def UsesFde (linux : Linux B) (gimli : Gimli) (ctx : Context) (st : WalkState)
    (module : Callstack.Module) (fde : Gimli.Fde) : Prop :=
  ctx.findModuleByAddress st.frame.instructionPointer = some module
    ∧ ∃ data cache, linux.getUnwindData gimli ctx st.cache module st.frame.instructionPointer
        = (.ok data, cache)
      ∧ gimli.fdeForAddress data st.frame.instructionPointer = some fde

/-- **A round attributes its frame to a function**: it looks the function up, to report
its start and size and to unwind by its rules. -/
structure Attributes (linux : Linux B) (gimli : Gimli) (ctx : Context) (st : WalkState)
    (r : Round WalkState StackFrame) (fde : Gimli.Fde) : Prop where
  used : ∃ module, linux.UsesFde gimli ctx st module fde
  start : r.item.start = some fde.initialAddress
  size : r.item.size = some fde.len

/-- An address is in a function of its module. -/
def InFunction (ctx : Context) (functions : Os.Module → List Gimli.Fde) (addr : VirtualAddress)
    (fde : Gimli.Fde) : Prop :=
  ∃ module, ctx.findModuleByAddress addr = some module ∧ fde ∈ functions module.module
    ∧ fde.contains addr = true

/-- **A frame is attributed to the function of its instruction pointer.** -/
theorem attributes_iff_inFunction {functions : Os.Module → List Gimli.Fde}
    (hspans : linux.SpansModules fuel ctx) (hfun : linux.HasFunctions gimli ctx functions)
    {st : WalkState} (hinv : linux.Invariant gimli ctx st) {r : Round WalkState StackFrame}
    (hr : linux.callstackRound gimli fuel ctx st = .ok r) (fde : Gimli.Fde) :
    linux.Attributes gimli ctx st r fde
      ↔ InFunction ctx functions st.frame.instructionPointer fde := by
  -- the entry of a module that is found
  have hlookup : ∀ {module data cache},
      ctx.findModuleByAddress st.frame.instructionPointer = some module →
      linux.getUnwindData gimli ctx st.cache module st.frame.instructionPointer
        = (.ok data, cache) →
      (gimli.fdeForAddress data st.frame.instructionPointer = some fde
        ↔ fde ∈ functions module.module ∧ fde.contains st.frame.instructionPointer = true) := by
    intro module data cache hfind hdata
    have hmem := (Callstack.findByAddress_eq_some hfind).1
    rw [hfun.lookup module hmem data (getUnwindData_eq_ok hspans hmem hinv.cache hdata).1,
      find_contains_eq_some_iff (hfun.disjoint _)]
  constructor
  · rintro ⟨⟨module, hfind, data, cache, hdata, hfde⟩, -, -⟩
    exact ⟨module, hfind, (hlookup hfind hdata).mp hfde⟩
  · rintro ⟨module, hfind, hin⟩
    obtain ⟨hnone, -⟩ | ⟨module', data, cache, hfind', hdata, hitem⟩ := callstackRound_eq_ok hr
    · cases hnone.symm.trans hfind
    obtain rfl := Option.some.inj (hfind.symm.trans hfind')
    have hfde := (hlookup hfind hdata).mpr hin
    obtain ⟨hnone, -⟩ | ⟨fde', hfde', hitem, -⟩ := hitem
    · cases hnone.symm.trans hfde
    · obtain rfl := Option.some.inj (hfde.symm.trans hfde')
      exact ⟨⟨module, hfind, data, cache, hdata, hfde⟩, by rw [hitem], by rw [hitem]⟩

/-- **A caller is attributed to the function of its call** exactly if the return address is
still in that function: if the call is not the last of its instructions. -/
theorem attributes_iff {proc : Os.Process} {functions : Os.Module → List Gimli.Fde}
    (hctx : Context.new linux fuel proc = .ok ctx)
    (hfun : linux.HasFunctions gimli ctx functions)
    (instructionPointer stackPointer : VirtualAddress) (basePointer : Option VirtualAddress)
    {st : WalkState}
    (hreach : Relation.TransGen (LeadsTo (linux.callstackRound gimli fuel ctx))
      (.init _ _ instructionPointer stackPointer basePointer) st)
    {r : Round WalkState StackFrame} (hr : linux.callstackRound gimli fuel ctx st = .ok r) :
    (∀ fde, InFunction ctx functions (st.frame.instructionPointer - 1) fde →
        linux.Attributes gimli ctx st r fde)
      ↔ ∀ fde, InFunction ctx functions (st.frame.instructionPointer - 1) fde →
        InFunction ctx functions st.frame.instructionPointer fde := by
  have hspans := spansModules_of_new hctx
  have hinv := (Invariant.init instructionPointer stackPointer basePointer).reach hspans
    hreach.to_reflTransGen
  exact forall₂_congr fun fde _ => attributes_iff_inFunction hspans hfun hinv hr fde

/-- The functions of the module of `twoFunctions`. -/
theorem hasFunctions_twoFunctions (stack : List U64) :
    (twoFunctions stack).HasFunctions .twoFunctions twoFunctionsContext
      fun _ => [⟨0x280, 0x10⟩, ⟨0x290, 0x10⟩] where
  disjoint _ := by
    refine List.pairwise_pair.mpr fun addr ⟨ha, hb⟩ => ?_
    rw [Gimli.Fde.contains, Bool.and_eq_true] at ha hb
    have hlt := of_decide_eq_true ha.2
    have hle : (0x290 : U64).toNat ≤ addr.toNat := of_decide_eq_true hb.1
    exact absurd (hlt.trans_le hle) (lt_irrefl _)
  lookup _ _ _ _ _ := rfl

/-- The frame of the caller there. -/
theorem exists_caller_twoFunctions (ra ip : VirtualAddress) (frame : StackFrame)
    (h : ((twoFunctions [ra]).callstackRound .twoFunctions 3 twoFunctionsContext
        (.init _ _ ip 0x2c0 none) >>= Round.next).map (Option.map fun st =>
          (st.frame.instructionPointer, ((twoFunctions [ra]).callstackRound .twoFunctions 3
            twoFunctionsContext st).toOption.map Round.item)) = .ok (some (ra, some frame))) :
    ∃ st r, (twoFunctions [ra]).callstackRound .twoFunctions 3 twoFunctionsContext st = .ok r
      ∧ Relation.TransGen (LeadsTo ((twoFunctions [ra]).callstackRound .twoFunctions 3
        twoFunctionsContext)) (.init _ _ ip 0x2c0 none) st
      ∧ st.frame.instructionPointer = ra ∧ r.item = frame := by
  obtain ⟨⟨st, hlead⟩, hst⟩ := leadsTo_of_map_eq h
  obtain ⟨hip, hitem⟩ := Prod.mk.inj (hst st hlead)
  cases hr : (twoFunctions [ra]).callstackRound .twoFunctions 3 twoFunctionsContext st with
  | error e =>
    rw [hr] at hitem
    cases hitem
  | ok r =>
    rw [hr] at hitem
    exact ⟨st, r, hr, .single hlead, hip, Option.some.inj hitem⟩

/-- A call in the middle of its function is attributed to it. -/
theorem attributes_middleCall :
    ∃ st r, (twoFunctions [0x284]).callstackRound .twoFunctions 3 twoFunctionsContext st = .ok r
      ∧ st.frame.instructionPointer = 0x284
      ∧ (twoFunctions [0x284]).Attributes .twoFunctions twoFunctionsContext st r
        ⟨0x280, 0x10⟩ := by
  obtain ⟨st, r, hr, hreach, hip, -⟩ := exists_caller_twoFunctions 0x284 0x294
    ⟨some 0x280, some 0x10, 0x2c8, 0x284, some ⟨32⟩⟩ (by decide +kernel)
  refine ⟨st, r, hr, hip, ?_⟩
  have hctx : Context.new (twoFunctions [0x284]) 3 ⟨8⟩ = .ok twoFunctionsContext :=
    new_twoFunctions (by decide)
  have hiff := attributes_iff hctx (hasFunctions_twoFunctions _) 0x294 0x2c0 none hreach hr
  rw [hip] at hiff
  have hmodule : twoFunctionsContext.findModuleByAddress 0x284 = some ⟨0x200, 0x2c0, ⟨32⟩⟩ :=
    rfl
  have hcall : twoFunctionsContext.findModuleByAddress (0x284 - 1)
      = some ⟨0x200, 0x2c0, ⟨32⟩⟩ := by decide +kernel
  refine hiff.mpr (fun fde ⟨module, hmod, hmem, hcontains⟩ => ?_) ⟨0x280, 0x10⟩
    ⟨_, hcall, by decide, by decide⟩
  obtain rfl := Option.some.inj (hcall.symm.trans hmod)
  refine ⟨_, hmodule, hmem, ?_⟩
  obtain rfl | hmem := List.mem_cons.mp hmem
  · decide
  · obtain rfl := List.mem_singleton.mp hmem
    exact absurd hcontains (by decide)

/-- **A call at the end of its function** is attributed to the next function. -/
theorem not_attributes_lastCall :
    ∃ st r, (twoFunctions [0x290]).callstackRound .twoFunctions 3 twoFunctionsContext st = .ok r
      ∧ Relation.TransGen (LeadsTo ((twoFunctions [0x290]).callstackRound .twoFunctions 3
        twoFunctionsContext)) (.init _ _ 0x284 0x2c0 none) st
      ∧ st.frame.instructionPointer = 0x290
      ∧ InFunction twoFunctionsContext (fun _ => [⟨0x280, 0x10⟩, ⟨0x290, 0x10⟩]) (0x290 - 1)
        ⟨0x280, 0x10⟩
      ∧ ¬ (twoFunctions [0x290]).Attributes .twoFunctions twoFunctionsContext st r
        ⟨0x280, 0x10⟩ := by
  obtain ⟨st, r, hr, hreach, hip, hitem⟩ := exists_caller_twoFunctions 0x290 0x284
    ⟨some 0x290, some 0x10, 0x2c8, 0x290, some ⟨32⟩⟩ (by decide +kernel)
  refine ⟨st, r, hr, hreach, hip, ⟨⟨0x200, 0x2c0, ⟨32⟩⟩, by decide +kernel, by decide, by decide⟩,
    fun hattr => ?_⟩
  have hstart := hattr.start
  rw [hitem] at hstart
  exact absurd (Option.some.inj hstart) (by decide)

/-! ## Addresses that no function covers -/

/-- A round looks up its module in this one. -/
def InModule (ctx : Context) (module : Os.Module) (st : WalkState) : Prop :=
  ∃ m, ctx.findModuleByAddress st.frame.instructionPointer = some m ∧ m.module = module

/-- The unwind data of a module of the context is looked up in what is kept. -/
theorem getUnwindData_eq {module : Callstack.Module} (hmem : module ∈ ctx.modules)
    (cache : OnceMap Os.Module UnwindData) (ip : VirtualAddress) :
    linux.getUnwindData gimli ctx cache module ip
      = cache.tryInsert module.module fun _ => linux.discoverSections gimli ctx module ip := by
  rw [getUnwindData, if_pos (List.any_eq_true.mpr ⟨module, hmem, decide_eq_true rfl⟩)]

/-- A round that leads on keeps the unwind data of its module. -/
theorem isSome_cache_step {st st' : WalkState}
    (hlead : LeadsTo (linux.callstackRound gimli fuel ctx) st st') (module : Os.Module) :
    (st'.cache.get module).isSome
      ↔ (st.cache.get module).isSome ∨ InModule ctx module st := by
  obtain ⟨m, data, fde, hfind, hdata, -⟩ := leadsTo_inv hlead
  rw [getUnwindData_eq (Callstack.findByAddress_eq_some hfind).1] at hdata
  rw [OnceMap.get_of_tryInsert_eq hdata]
  by_cases hm : module = m.module
  · rw [if_pos hm]
    exact iff_of_true rfl (Or.inr ⟨m, hfind, hm.symm⟩)
  · rw [if_neg hm]
    refine ⟨Or.inl, fun h => h.resolve_right fun ⟨m', hfind', hm'⟩ => hm ?_⟩
    rw [← hm', Option.some.inj (hfind.symm.trans hfind')]

/-- **What is kept of a walk** is the unwind data of the modules it came through. -/
theorem isSome_cache_iff {instructionPointer stackPointer : VirtualAddress}
    {basePointer : Option VirtualAddress} {st : WalkState}
    (hreach : Relation.ReflTransGen (LeadsTo (linux.callstackRound gimli fuel ctx))
      (.init _ _ instructionPointer stackPointer basePointer) st) (module : Os.Module) :
    (st.cache.get module).isSome
      ↔ ∃ st', Relation.ReflTransGen (LeadsTo (linux.callstackRound gimli fuel ctx))
          (.init _ _ instructionPointer stackPointer basePointer) st'
        ∧ Relation.TransGen (LeadsTo (linux.callstackRound gimli fuel ctx)) st' st
        ∧ InModule ctx module st' := by
  constructor
  · intro hsome
    induction hreach with
    | refl => cases hsome
    | tail hreach hlead ih =>
      obtain hsome | hin := (isSome_cache_step hlead module).mp hsome
      · obtain ⟨st', hst', htrans, hin⟩ := ih hsome
        exact ⟨st', hst', htrans.tail hlead, hin⟩
      · exact ⟨_, hreach, .single hlead, hin⟩
  · rintro ⟨st', -, htrans, hin⟩
    clear hreach
    induction htrans with
    | single hlead => exact (isSome_cache_step hlead module).mpr (Or.inr hin)
    | tail _ hlead ih => exact (isSome_cache_step hlead module).mpr (Or.inl ih)

/-- The first address that is looked up in a module has to be covered. -/
theorem callstackRound_first {st : WalkState} {module : Callstack.Module}
    (hfind : ctx.findModuleByAddress st.frame.instructionPointer = some module)
    (hget : st.cache.get module.module = none)
    (huncovered : ∀ data, linux.Discovers gimli ctx module data →
      gimli.fdeForAddress data st.frame.instructionPointer = none) :
    ∃ e, linux.callstackRound gimli fuel ctx st = .error e := by
  rw [callstackRound, hfind]
  dsimp only
  rw [getUnwindData_eq (Callstack.findByAddress_eq_some hfind).1, OnceMap.tryInsert, hget]
  dsimp only
  cases hdisc : linux.discoverSections gimli ctx module st.frame.instructionPointer with
  | error e => exact ⟨e, rfl⟩
  | ok data =>
    have hfde := (discoverSections_eq_ok hdisc).2
    rw [huncovered data ⟨_, hdisc⟩] at hfde
    cases hfde

/-- **Where no function covers the address** the walk hands out one more frame and ends
without an error exactly if it came through the module before. -/
theorem uncovered_iff {proc : Os.Process} (hctx : Context.new linux fuel proc = .ok ctx)
    (instructionPointer stackPointer : VirtualAddress) (basePointer : Option VirtualAddress)
    {st : WalkState}
    (hreach : Relation.ReflTransGen (LeadsTo (linux.callstackRound gimli fuel ctx))
      (.init _ _ instructionPointer stackPointer basePointer) st)
    {module : Callstack.Module}
    (hfind : ctx.findModuleByAddress st.frame.instructionPointer = some module)
    (huncovered : ∀ data, linux.Discovers gimli ctx module data →
      gimli.fdeForAddress data st.frame.instructionPointer = none) :
    (∀ (σ : Type) (f : Callback σ StackFrame) (s : σ) (rounds : ℕ),
        walkRounds (linux.callstackRound gimli fuel ctx) f (rounds + 1) st s
          = f { st.frame with module := some module.module, start := none, size := none } s
            >>= fun p => return p.2)
      ↔ ∃ st', Relation.ReflTransGen (LeadsTo (linux.callstackRound gimli fuel ctx))
          (.init _ _ instructionPointer stackPointer basePointer) st'
        ∧ Relation.TransGen (LeadsTo (linux.callstackRound gimli fuel ctx)) st' st
        ∧ InModule ctx module.module st' := by
  have hspans := spansModules_of_new hctx
  have hmem := (Callstack.findByAddress_eq_some hfind).1
  have hinv := (Invariant.init instructionPointer stackPointer basePointer).reach hspans hreach
  rw [← isSome_cache_iff hreach]
  cases hget : st.cache.get module.module with
  | some data =>
    refine iff_of_true (fun σ f s rounds => ?_) rfl
    -- the data that is kept has no entry
    obtain ⟨m, hm, heq, hdisc⟩ := hinv.cache _ _ hget
    rw [hspans.eq hm hmem heq] at hdisc
    have hround : linux.callstackRound gimli fuel ctx st
        = .ok { item := { st.frame with module := some module.module, start := none, size := none }
                next := return none } := by
      rw [callstackRound, hfind]
      dsimp only
      rw [getUnwindData_eq hmem, OnceMap.tryInsert, hget]
      dsimp only
      rw [Exec.ok_bind, huncovered data hdisc]
      rfl
    rw [walkRounds, hround, Exec.ok_bind]
    refine congrArg _ (funext fun p => ?_)
    obtain ⟨_ | _, s⟩ := p
    · rfl
    · rfl
  | none =>
    refine iff_of_false (fun hall => ?_) Bool.false_ne_true
    obtain ⟨e, herr⟩ : ∃ e, linux.callstackRound gimli fuel ctx st = .error e :=
      callstackRound_first hfind hget huncovered
    have hok := hall Unit (fun _ s => .ok (.Continue, s)) () 0
    rw [walkRounds, herr] at hok
    cases hok

/-- Behind the two functions, in the second round. -/
theorem uncovered_second :
    ∃ st : WalkState, st.frame.instructionPointer = 0x2a0
      ∧ ∀ (σ : Type) (f : Callback σ StackFrame) (s : σ) (rounds : ℕ),
        walkRounds ((twoFunctions [0x2a0]).callstackRound .twoFunctions 3 twoFunctionsContext) f
            (rounds + 1) st s
          = f { st.frame with module := some ⟨32⟩, start := none, size := none } s
            >>= fun p => return p.2 := by
  have hctx : Context.new (twoFunctions [0x2a0]) 3 ⟨8⟩ = .ok twoFunctionsContext :=
    new_twoFunctions (by decide)
  have hmodule : twoFunctionsContext.findModuleByAddress 0x2a0 = some ⟨0x200, 0x2c0, ⟨32⟩⟩ :=
    rfl
  obtain ⟨st, -, -, hreach, hip, -⟩ := exists_caller_twoFunctions 0x2a0 0x284
    ⟨none, none, 0x2c8, 0x2a0, some ⟨32⟩⟩ (by decide +kernel)
  refine ⟨st, hip, (uncovered_iff hctx 0x284 0x2c0 none hreach.to_reflTransGen
    (by rw [hip]; exact hmodule) fun data _ => ?_).mpr ⟨_, .refl, hreach, ?_⟩⟩
  · rw [hip]
    rfl
  · exact ⟨⟨0x200, 0x2c0, ⟨32⟩⟩, by decide +kernel, rfl⟩

/-- **There in the first round** the walk fails and hands out nothing, though the unwind data
of the module can be found from another address. -/
theorem not_uncovered_first :
    twoFunctionsContext.findModuleByAddress 0x2a0 = some ⟨0x200, 0x2c0, ⟨32⟩⟩
      ∧ (∃ data, (twoFunctions []).discoverSections .twoFunctions twoFunctionsContext
        ⟨0x200, 0x2c0, ⟨32⟩⟩ 0x284 = .ok data)
      ∧ (∀ data, Gimli.twoFunctions.fdeForAddress data 0x2a0 = none)
      ∧ ∃ e, ∀ (σ : Type) (f : Callback σ StackFrame) (s : σ) (steps : ℕ),
        (twoFunctions []).iterCallstack .twoFunctions 3 ⟨8⟩ 0x2a0 0x2c0 none f s (steps + 1)
          = .error e := by
  have hctx : Context.new (twoFunctions []) 3 ⟨8⟩ = .ok twoFunctionsContext :=
    new_twoFunctions (by decide)
  have hmodule : twoFunctionsContext.findModuleByAddress 0x2a0 = some ⟨0x200, 0x2c0, ⟨32⟩⟩ :=
    rfl
  refine ⟨hmodule, ?_, fun _ => rfl, ?_⟩
  · exact ⟨⟨0x200, 0x208, (twoFunctions []).backend.mem.inner.bytes.drop 0x200, 8⟩,
      by decide +kernel⟩
  · obtain ⟨e, herr⟩ : ∃ e, (twoFunctions []).callstackRound .twoFunctions 3 twoFunctionsContext
        (.init _ _ 0x2a0 0x2c0 none) = .error e :=
      callstackRound_first hmodule rfl fun _ _ => rfl
    refine ⟨e, fun σ f s steps => ?_⟩
    rw [iterCallstack, hctx, Exec.ok_bind, walkRounds, herr]
    rfl

end Linux
