import Vminer.LinuxFrames
import Vminer.ModuleLookup
import Vminer.UnwindTermination
import Vminer.WindowsFrames

/-!
# The two unwinders

What the walks of a Linux and of a Windows stack have in common: when the frames
they hand out are right, and when they end.
-/

variable {B : Type} [Memory B] [HasVcpus B]

/-- **The frames of a walk describe their steps** exactly if the walk stays clear of
the addresses where its frame is wrong: on Linux, after the first round, those of the
kernel that are in no module; on Windows those where an empty module starts. -/
theorem walks_describe_iff (linux : Linux B) (gimli : Gimli) (windows : Windows B)
    (parsePe : PeParser) (sorts : SortUnstable) :
    (∀ (fuel : ℕ) (proc : Os.Process) (ctx : Linux.Context),
      Linux.Context.new linux fuel proc = .ok ctx →
      ∀ (ip sp : VirtualAddress) (bp : Option VirtualAddress),
      (∀ frame, Delivers (linux.callstackRound gimli fuel ctx) (.init _ _ ip sp bp) frame →
          linux.Describes gimli fuel ctx frame)
        ↔ ∀ st', Relation.TransGen (LeadsTo (linux.callstackRound gimli fuel ctx))
            (.init _ _ ip sp bp) st' →
          ¬ Linux.KernelOutside ctx st'.frame.instructionPointer)
    ∧ ∀ (fuel : ℕ) (proc : Os.Process) (ctx : Windows.Context)
        (modules : List Callstack.Module),
      Windows.Context.new windows proc = .ok ctx →
      windows.collectModules sorts fuel proc = .ok modules →
      ∀ (steps : ℕ) (ip sp : VirtualAddress) (bp : Option VirtualAddress),
      (∀ frame, Delivers (windows.callstackRound parsePe fuel ctx modules steps)
            (.init _ _ ip sp bp) frame →
          windows.Describes parsePe fuel ctx modules frame)
        ↔ ∀ st' r, Relation.ReflTransGen
            (LeadsTo (windows.callstackRound parsePe fuel ctx modules steps))
            (.init _ _ ip sp bp) st' →
          windows.callstackRound parsePe fuel ctx modules steps st' = .ok r →
          ∀ module, Callstack.findByAddress modules st'.frame.instructionPointer = some module →
            module.start < module.stop := by
  refine ⟨fun fuel proc ctx hctx ip sp bp => ?_,
    fun fuel proc ctx modules hctx hmodules steps ip sp bp => ?_⟩
  · exact Linux.delivers_describes_iff (Linux.spansModules_of_new hctx) ip sp bp
  · obtain ⟨pgd, -, hctx⟩ := (Exec.bind_eq_ok_iff _ _ _).mp hctx
    obtain rfl := Except.ok.inj hctx
    exact Windows.delivers_describes_iff (Windows.moduleSpan_of_collectModules hmodules)
      (Windows.Invariant.init ip sp bp)

/-- They do where the stack leads out of the module to a null pointer, and where it begins
outside all modules. -/
theorem walks_describe_twoFunctions_twoModules :
    (∀ frame, Delivers ((Linux.twoFunctions [0]).callstackRound .twoFunctions 3
          Linux.twoFunctionsContext) (.init _ _ 0x284 0x2c0 none) frame →
        (Linux.twoFunctions [0]).Describes .twoFunctions 3 Linux.twoFunctionsContext frame)
    ∧ ∃ ctx modules, Windows.Context.new Windows.twoModules ⟨8⟩ = .ok ctx
      ∧ Windows.twoModules.collectModules .stable 2 ⟨8⟩ = .ok modules
      ∧ ∀ frame, Delivers (Windows.twoModules.callstackRound
            (fun _ => Exec.fail (.new "not a PE file")) 2 ctx modules 1)
            (.init _ _ 0 0 none) frame →
          Windows.twoModules.Describes (fun _ => Exec.fail (.new "not a PE file")) 2 ctx modules
            frame := by
  have hiff := walks_describe_iff (Linux.twoFunctions [0]) .twoFunctions Windows.twoModules
    (fun _ => Exec.fail (.new "not a PE file")) .stable
  constructor
  · refine (hiff.1 3 ⟨8⟩ Linux.twoFunctionsContext (Linux.new_twoFunctions (by decide)) 0x284 0x2c0
      none).mpr ?_
    intro st' hreach hout
    obtain ⟨st, hlead, hreach⟩ := Relation.TransGen.head'_iff.mp hreach
    have hnext : ((Linux.twoFunctions [0]).callstackRound .twoFunctions 3
        Linux.twoFunctionsContext (.init _ _ 0x284 0x2c0 none) >>= Round.next).map
          (Option.map fun st => st.frame.instructionPointer) = .ok (some 0) := by decide +kernel
    have hip : st.frame.instructionPointer = 0 := (leadsTo_of_map_eq hnext).2 st hlead
    obtain rfl | ⟨st', ⟨r, hr, hnext⟩, -⟩ := hreach.cases_head
    · rw [hip] at hout
      exact absurd hout.2 (by decide)
    · -- no round comes after one that finds no module
      have hfind :
          Linux.twoFunctionsContext.findModuleByAddress st.frame.instructionPointer = none := by
        rw [hip]
        rfl
      obtain ⟨-, hlast, -⟩ | ⟨module, data, cache, hfind', -⟩ := Linux.callstackRound_eq_ok hr
      · exact hlast st' hnext
      · cases hfind.symm.trans hfind'
  · have hmodules := Windows.holdsModules_twoModules.collectModules_eq .stable
    refine ⟨⟨⟨8⟩, 0⟩, _, rfl, hmodules, ?_⟩
    refine (hiff.2 2 ⟨8⟩ ⟨⟨8⟩, 0⟩ _ rfl hmodules 1 0 0 none).mpr ?_
    intro st' r hreach hr module hfind
    have hmem := (SortUnstable.stable.perm_byKey _ _).mem_iff.mp
      (Callstack.findByAddress_eq_some hfind).1
    obtain rfl | hmem := List.mem_cons.mp hmem
    · decide
    · obtain rfl := List.mem_singleton.mp hmem
      decide

/-- **A return address of the kernel** that is in no module: the frame of the caller has
the module, the start and the size of the one before. -/
theorem not_describes_kernelReturn :
    ∃ ctx, Linux.Context.new (Linux.twoFunctions [0xffff800000000000]) 3 ⟨8⟩ = .ok ctx
      ∧ ∃ frame, Delivers ((Linux.twoFunctions [0xffff800000000000]).callstackRound .twoFunctions 3
          ctx) (.init _ _ 0x284 0x2c0 none) frame
        ∧ ¬ (Linux.twoFunctions [0xffff800000000000]).Describes .twoFunctions 3 ctx frame := by
  have hctx : Linux.Context.new (Linux.twoFunctions [0xffff800000000000]) 3 ⟨8⟩ = _ :=
    Linux.new_twoFunctions (by decide)
  refine ⟨_, hctx, ?_⟩
  by_contra hnone
  push Not at hnone
  have hclear := (Linux.delivers_describes_iff (Linux.spansModules_of_new hctx) 0x284 0x2c0
    none).mp hnone
  have hnext : ((Linux.twoFunctions [0xffff800000000000]).callstackRound .twoFunctions 3
      Linux.twoFunctionsContext (.init _ _ 0x284 0x2c0 none) >>= Round.next).map
        (Option.map fun st => st.frame.instructionPointer)
      = .ok (some 0xffff800000000000) := by decide +kernel
  obtain ⟨⟨st, hlead⟩, hip⟩ := leadsTo_of_map_eq hnext
  refine hclear st (.single hlead) ?_
  rw [hip st hlead]
  exact ⟨rfl, by decide⟩

/-! ## Walks that end -/
