import Vminer.Linux
import Vminer.ModuleSearch

/-!
# Modules of a Linux process

A module of a Linux process is a file that is mapped from its beginning: an area
at offset zero. It spans the areas from there on that are backed by the same
file. The areas of a process are sorted by address, and so is the vector of
modules that is collected from them; but an area at offset zero may come after
another one in the same run of areas, and then the spans of the two overlap.

`Area` is what the code reads of an area, `HoldsAreas` says that the list of a
process in memory is such areas, and everything that the walks compute is read
off their list.
-/

namespace Linux

variable {B : Type} [Memory B] [HasVcpus B] {σ : Type}

/-! ## The vector of modules -/

/-- `Linux::process_is_kernel` -/
def processIsKernel (linux : Linux B) (proc : Os.Process) : Exec VmError Bool := do
  let flags ← linux.readField Layout.u32 proc.addr (taskStruct "flags")
  return flags &&& 0x200000 != 0

/-- `Linux::process_pgd` -/
def processPgd (linux : Linux B) (proc : Os.Process) : Exec VmError PhysicalAddress := do
  match ← linux.processMm proc with
  | some mm => do
    let pgd ← linux.readField Layout.u64 mm (mmStruct "pgd")
    Exec.mapErr TranslationError.toVm
      (virtualToPhysical (Backend.mmuDesc linux.backend) linux.backend linux.kpgd pgd)
  | none => do
    if ← linux.processIsKernel proc then return linux.kpgd
    else Exec.fail (VmError.new "process has NULL mm")

/-- `Linux::for_each_kernel_module` -/
def forEachKernelModule (_ : Linux B) (_ : Callback σ Os.Module) (s : σ) : Exec VmError σ :=
  return s

/-- `Os::find_module_by_address` -/
def findModuleByAddress (linux : Linux B) (fuel : ℕ) (proc : Os.Process) :
    VirtualAddress → Exec VmError (Option Os.Module) :=
  Os.findModuleByAddress linux.forEachKernelModule (linux.processForEachModule fuel proc)
    (Os.moduleContains (linux.moduleSpan fuel))

/-- `Context`: what a walk of the stack knows of its process. -/
structure Context where
  proc : Os.Process
  pgd : PhysicalAddress
  modules : List Callstack.Module
deriving DecidableEq, Repr

/-- `Context::new` -/
def Context.new (linux : Linux B) (fuel : ℕ) (proc : Os.Process) : Exec VmError Context := do
  let pgd ← linux.processPgd proc
  let modules ← linux.processForEachModule fuel proc (fun module modules => do
    let (start, stop) ← linux.moduleSpan fuel module
    return (.Continue, modules ++ [⟨start, stop, module⟩])) []
  return { proc, pgd, modules }

/-- `Context::find_module_by_address` -/
def Context.findModuleByAddress (ctx : Context) (addr : VirtualAddress) :
    Option Callstack.Module :=
  Callstack.findByAddress ctx.modules addr

/-! ## Areas -/

/-- An area, as the code reads it: where it is, the addresses it spans, and what
part of which file it maps. -/
structure Area where
  addr : VirtualAddress
  start : VirtualAddress
  stop : VirtualAddress
  file : VirtualAddress
  offset : U64
deriving DecidableEq, Repr

namespace Area

/-- Whether a module begins here: a file is mapped from its beginning. -/
def isModule (a : Area) : Bool := a.offset == 0 && !VirtualAddress.isNull a.file

/-- The end of the run of areas that are backed by a file, from one of them
on. -/
def runEnd (file : VirtualAddress) : Area → List Area → VirtualAddress
  | a, [] => a.stop
  | a, b :: rest => if b.file = file then runEnd file b rest else a.stop

/-- The modules of a list of areas. -/
def modules : List Area → List Callstack.Module
  | [] => []
  | a :: rest =>
    if a.isModule then ⟨a.start, runEnd a.file a rest, ⟨a.addr⟩⟩ :: modules rest
    else modules rest

/-- **The areas of a process**: none is empty, and they are sorted. -/
structure Ascending (areas : List Area) : Prop where
  nonempty : ∀ a ∈ areas, a.start.toNat < a.stop.toNat
  disjoint : areas.Pairwise fun a b => a.stop.toNat ≤ b.start.toNat

/-- **Only the first area of a run of one file is at offset zero**, and what
begins with one does not reach into the half of the kernel. -/
def OneModuleARun (areas : List Area) : Prop :=
  ∀ (a : Area) (run : List Area), a :: run <:+: areas → a.isModule = true →
    (∀ c ∈ run, c.file = a.file) →
      (∀ c ∈ run, c.offset ≠ 0) ∧ ∀ c ∈ a :: run, c.stop.toNat ≤ 2 ^ 63

end Area

/-- **The list of areas in memory**, from a pointer on; the names of the mapped
files can be read. -/
def HoldsAreas (linux : Linux B) (fuel : ℕ) : List Area → VirtualAddress → Prop
  | [], p => p = 0
  | a :: rest, p => p ≠ 0 ∧ a.addr = p
      ∧ linux.vmaStart ⟨p⟩ = .ok a.start ∧ linux.vmaEnd ⟨p⟩ = .ok a.stop
      ∧ linux.readPointerField p (vmAreaStruct "vm_file") = .ok a.file
      ∧ linux.vmaOffset ⟨p⟩ = .ok a.offset
      ∧ (a.isModule = true → ∃ path, linux.vmaPath fuel ⟨p⟩ = .ok (some path))
      ∧ ∃ q, linux.readPointerField p (vmAreaStruct "vm_next") = .ok q
        ∧ linux.HoldsAreas fuel rest q

/-- **A process with these areas**, for which the budget is enough. -/
structure HoldsProcess (linux : Linux B) (fuel : ℕ) (proc : Os.Process) (areas : List Area) :
    Prop where
  pgd : ∃ pgd, linux.processPgd proc = .ok pgd
  held : (areas = [] ∧ linux.processMm proc = .ok none) ∨
    ∃ mm first, linux.processMm proc = .ok (some mm)
      ∧ linux.readPointerField mm (mmStruct "mmap") = .ok first
      ∧ linux.HoldsAreas fuel areas first
  enough : areas.length < fuel

/-! ## What the walks compute -/

variable {linux : Linux B} {fuel : ℕ}

/-- **The walk of the areas** visits them in their order. -/
theorem forEachVmaFrom_eq (f : Callback σ Os.Vma) {areas : List Area} {p : VirtualAddress}
    (h : linux.HoldsAreas fuel areas p) {n : ℕ} (hn : areas.length < n) (s : σ) :
    linux.forEachVmaFrom f n p s
      = Prod.snd <$> forEach f (areas.map fun a => ⟨a.addr⟩) s := by
  induction areas generalizing p n s with
  | nil =>
    obtain ⟨n, rfl⟩ := Nat.exists_eq_add_one.mpr hn
    rw [show p = 0 from h]
    rfl
  | cons a rest ih =>
    obtain ⟨n, rfl⟩ := Nat.exists_eq_add_one.mpr (Nat.zero_lt_of_lt hn)
    obtain ⟨hp, rfl, -, -, -, -, -, q, hq, hrest⟩ := h
    have hnull : ¬ VirtualAddress.isNull a.addr = true := fun hnull => hp (beq_iff_eq.mp hnull)
    rw [forEachVmaFrom, if_neg hnull, List.map_cons, forEach, ControlFlow.andThen]
    -- an error of the callback, going on, or breaking off
    rcases f ⟨a.addr⟩ s with e | ⟨_ | _, s'⟩
    · rfl
    · show (linux.readPointerField a.addr (vmAreaStruct "vm_next") >>= _) = _
      rw [hq]
      exact ih hrest (Nat.lt_of_succ_lt_succ hn) s'
    · rfl

/-- The walk of a process is the one of its areas. -/
theorem HoldsProcess.processForEachVma_eq {proc : Os.Process} {areas : List Area}
    (h : linux.HoldsProcess fuel proc areas) (f : Callback σ Os.Vma) (s : σ) :
    linux.processForEachVma fuel proc f s
      = Prod.snd <$> forEach f (areas.map fun a => ⟨a.addr⟩) s := by
  obtain ⟨rfl, hmm⟩ | ⟨mm, first, hmm, hfirst, hareas⟩ := h.held
  · rw [processForEachVma, hmm]
    rfl
  · rw [processForEachVma, hmm]
    show (linux.readPointerField mm (mmStruct "mmap") >>= _) = _
    rw [hfirst]
    exact forEachVmaFrom_eq f hareas h.enough s

/-- Every area of the list is one, with those after it. -/
theorem HoldsAreas.suffix {areas rest : List Area} {a : Area} {p : VirtualAddress}
    (h : linux.HoldsAreas fuel areas p) (hsuf : a :: rest <:+ areas) :
    linux.HoldsAreas fuel (a :: rest) a.addr := by
  induction areas generalizing p with
  | nil => exact absurd (List.suffix_nil.mp hsuf) (by simp)
  | cons b areas ih =>
    obtain heq | hsuf := List.suffix_cons_iff.mp hsuf
    · obtain ⟨rfl, rfl⟩ := List.cons.inj heq
      obtain rfl : a.addr = p := h.2.1
      exact h
    · obtain ⟨-, -, -, -, -, -, -, q, -, hrest⟩ := h
      exact ih hrest hsuf

/-- **`module_span`** gives the start of an area and the end of its run. -/
theorem moduleSpan_eq {a : Area} {rest : List Area}
    (h : linux.HoldsAreas fuel (a :: rest) a.addr) (hn : rest.length < fuel) :
    linux.moduleSpan fuel ⟨a.addr⟩ = .ok (a.start, Area.runEnd a.file a rest) := by
  have hend : ∀ (file : VirtualAddress) (n : ℕ) (a : Area) (rest : List Area), rest.length < n →
      linux.HoldsAreas fuel (a :: rest) a.addr →
      linux.moduleEndFrom file n a.addr = .ok (Area.runEnd file a rest) := by
    intro file n
    induction n with
    | zero => exact fun a rest hn => absurd hn (Nat.not_lt_zero _)
    | succ n ih =>
      rintro a rest hn ⟨-, -, -, hstop, -, -, -, q, hq, hrest⟩
      rw [moduleEndFrom, hq, Exec.ok_bind]
      cases rest with
      | nil =>
        rw [show q = 0 from hrest]
        exact hstop
      | cons b rest =>
        obtain ⟨hne, rfl, -, -, hfile, -⟩ := id hrest
        have hnull : ¬ VirtualAddress.isNull b.addr = true := fun hnull => hne (beq_iff_eq.mp hnull)
        rw [if_neg hnull, hfile, Exec.ok_bind, Area.runEnd]
        by_cases heq : b.file = file
        · rw [if_pos heq]
          show (if (b.file != file) = true then _ else _) = _
          rw [if_neg (by simpa using heq)]
          exact ih b rest (Nat.lt_of_succ_lt_succ hn) hrest
        · rw [if_neg heq]
          show (if (b.file != file) = true then _ else _) = _
          rw [if_pos (by simpa using heq)]
          exact hstop
  obtain ⟨-, -, hstart, -, hfile, -⟩ := id h
  rw [moduleSpan, hfile, Exec.ok_bind]
  show (linux.readField Layout.u64 a.addr (vmAreaStruct "vm_start") >>= _) = _
  rw [show linux.readField Layout.u64 a.addr (vmAreaStruct "vm_start") = .ok a.start from hstart,
    Exec.ok_bind, hend a.file fuel a rest hn h]
  rfl

namespace Area

/-- The module that begins with an area. -/
def toModule (a : Area) (rest : List Area) : Callstack.Module :=
  ⟨a.start, runEnd a.file a rest, ⟨a.addr⟩⟩

/-- **Each module begins with an area at offset zero.** -/
theorem mem_modules_iff {areas : List Area} {m : Callstack.Module} :
    m ∈ modules areas
      ↔ ∃ a rest, a :: rest <:+ areas ∧ a.isModule = true ∧ m = a.toModule rest := by
  induction areas with
  | nil => simp [modules]
  | cons b areas ih =>
    have hcons : (∃ a rest, a :: rest <:+ b :: areas ∧ a.isModule = true ∧ m = a.toModule rest)
        ↔ (b.isModule = true ∧ m = b.toModule areas) ∨ m ∈ modules areas := by
      rw [ih]
      constructor
      · rintro ⟨a, rest, hsuf, ha, hm⟩
        obtain heq | hsuf := List.suffix_cons_iff.mp hsuf
        · obtain ⟨rfl, rfl⟩ := List.cons.inj heq
          exact Or.inl ⟨ha, hm⟩
        · exact Or.inr ⟨a, rest, hsuf, ha, hm⟩
      · rintro (⟨hb, hm⟩ | ⟨a, rest, hsuf, ha, hm⟩)
        · exact ⟨b, areas, List.suffix_refl _, hb, hm⟩
        · exact ⟨a, rest, hsuf.trans (List.suffix_cons b areas), ha, hm⟩
    rw [hcons, modules]
    cases hb : b.isModule with
    | true => rw [if_pos rfl, List.mem_cons, and_iff_right rfl]; rfl
    | false => rw [if_neg Bool.false_ne_true]; simp

/-- The modules are the areas at offset zero that map a file. -/
theorem map_module_modules (areas : List Area) :
    (modules areas).map Callstack.Module.module
      = (areas.filter isModule).map fun a => ⟨a.addr⟩ := by
  induction areas with
  | nil => rfl
  | cons a areas ih =>
    rw [modules]
    cases ha : a.isModule with
    | true =>
      rw [if_pos rfl, List.map_cons, ih, List.filter_cons_of_pos ha]
      rfl
    | false =>
      rw [if_neg Bool.false_ne_true, ih, List.filter_cons_of_neg (ne_true_of_eq_false ha)]

end Area

section Process

variable {proc : Os.Process} {areas : List Area} (h : linux.HoldsProcess fuel proc areas)

include h

/-- Every area of a process is one, with those after it, for which the budget is
enough. -/
theorem HoldsProcess.suffix {a : Area} {rest : List Area} (hsuf : a :: rest <:+ areas) :
    linux.HoldsAreas fuel (a :: rest) a.addr ∧ rest.length < fuel := by
  obtain ⟨rfl, -⟩ | ⟨mm, first, -, -, hareas⟩ := h.held
  · exact absurd (List.suffix_nil.mp hsuf) (by simp)
  · refine ⟨hareas.suffix hsuf, lt_of_le_of_lt ?_ h.enough⟩
    exact (Nat.le_succ _).trans hsuf.length_le

/-- The span of a module is the one that is computed from the areas. -/
theorem HoldsProcess.moduleSpan_eq {m : Callstack.Module} (hm : m ∈ Area.modules areas) :
    linux.moduleSpan fuel m.module = .ok (m.start, m.stop) := by
  obtain ⟨a, rest, hsuf, -, rfl⟩ := Area.mem_modules_iff.mp hm
  obtain ⟨hareas, hn⟩ := h.suffix hsuf
  exact Linux.moduleSpan_eq hareas hn

/-- **The walk of the modules** visits the areas at offset zero that map a
file. -/
theorem HoldsProcess.processForEachModule_eq (f : Callback σ Os.Module) (s : σ) :
    linux.processForEachModule fuel proc f s
      = Prod.snd <$> forEach f ((Area.modules areas).map Callstack.Module.module) s := by
  rw [processForEachModule, h.processForEachVma_eq, forEach_map, Area.map_module_modules]
  refine congrArg (Prod.snd <$> ·) (forEach_filter (fun a : Area => (⟨a.addr⟩ : Os.Module))
    (fun a ha s => ?_) s)
  obtain ⟨before, rest, rfl⟩ := List.append_of_mem ha
  obtain ⟨⟨-, -, -, -, hfile, hoffset, hpath, -⟩, -⟩ := h.suffix ⟨before, rfl⟩
  rw [hoffset, Exec.ok_bind]
  by_cases hzero : a.offset = 0
  · rw [if_pos hzero]
    cases hnull : VirtualAddress.isNull a.file with
    | true =>
      have hmod : a.isModule = false := by
        rw [Area.isModule, hnull, Bool.not_true, Bool.and_false]
      have hnone : linux.vmaPath fuel ⟨a.addr⟩ = .ok none := by
        rw [vmaPath, hfile, Exec.ok_bind, Pointer.mapNonNull, if_pos hnull]
        rfl
      rw [hnone, hmod]
      rfl
    | false =>
      have hmod : a.isModule = true := by
        rw [Area.isModule, hnull, beq_iff_eq.mpr hzero]
        rfl
      obtain ⟨path, hpath⟩ := hpath hmod
      rw [hpath, hmod]
      rfl
  · have hmod : a.isModule = false := by
      rw [Area.isModule, beq_eq_false_iff_ne.mpr hzero, Bool.false_and]
    rw [if_neg hzero, hmod]
    rfl

/-- **What `Context::new` collects** are the modules of the areas. -/
theorem HoldsProcess.exists_context :
    ∃ ctx, Context.new linux fuel proc = .ok ctx ∧ ctx.modules = Area.modules areas := by
  obtain ⟨pgd, hpgd⟩ := h.pgd
  have hpush := forEach_push (f := fun module modules => do
      let (start, stop) ← linux.moduleSpan fuel module
      return (ControlFlow.Continue, modules ++ [⟨start, stop, module⟩]))
    Callstack.Module.module id
    (fun m (hm : m ∈ Area.modules areas) l => by rw [h.moduleSpan_eq hm]; rfl) []
  refine ⟨⟨proc, pgd, Area.modules areas⟩, ?_, rfl⟩
  rw [Context.new, hpgd, Exec.ok_bind, h.processForEachModule_eq, hpush, List.map_id]
  rfl

/-- **The public lookup** asks one module after the other, and none for an
address of the kernel. -/
theorem HoldsProcess.findModuleByAddress_eq (addr : VirtualAddress) :
    linux.findModuleByAddress fuel proc addr
      = .ok (if VirtualAddress.isKernel addr then none
        else Callstack.firstContaining (Area.modules areas) addr) := by
  have hfind := forEach_find (fun m => Os.moduleContains (linux.moduleSpan fuel) m addr)
    Callstack.Module.module (p := fun m => m.contains addr) (Area.modules areas)
    (fun m hm => by rw [Os.moduleContains, h.moduleSpan_eq hm]; rfl) none
  unfold findModuleByAddress Os.findModuleByAddress
  dsimp only
  split
  · rfl
  · rw [h.processForEachModule_eq, hfind, Callstack.firstContaining]
    cases (Area.modules areas).find? fun m => m.contains addr <;> rfl

end Process

/-! ## When the lookups agree -/

namespace Area

variable {a b : Area} {rest : List Area} {file : VirtualAddress}

theorem Ascending.of_suffix (h : Ascending areas) (hsuf : rest <:+ areas) : Ascending rest where
  nonempty := fun a ha => h.nonempty a (hsuf.subset ha)
  disjoint := h.disjoint.sublist hsuf.sublist

/-- Areas end one after the other. -/
theorem Ascending.stop_le (h : Ascending (a :: rest)) (hb : b ∈ rest) :
    a.stop.toNat ≤ b.stop.toNat :=
  ((List.pairwise_cons.mp h.disjoint).1 b hb).trans
    (h.nonempty b (List.mem_cons_of_mem _ hb)).le

/-- A run ends where one of its areas does. -/
theorem exists_runEnd_eq (file : VirtualAddress) (a : Area) (rest : List Area) :
    ∃ run, run <+: rest ∧ (∀ c ∈ run, c.file = file)
      ∧ ∃ c ∈ a :: run, runEnd file a rest = c.stop := by
  induction rest generalizing a with
  | nil => exact ⟨[], List.nil_prefix, by simp, a, List.mem_cons_self, rfl⟩
  | cons b rest ih =>
    rw [runEnd]
    by_cases hb : b.file = file
    · obtain ⟨run, hrun, hfile, c, hc, hend⟩ := ih b
      refine ⟨b :: run, List.cons_prefix_cons.mpr ⟨rfl, hrun⟩, ?_, c,
        List.mem_cons_of_mem _ hc, ?_⟩
      · exact List.forall_mem_cons.mpr ⟨hb, hfile⟩
      · rw [if_pos hb, hend]
    · exact ⟨[], List.nil_prefix, by simp, a, List.mem_cons_self, by rw [if_neg hb]⟩

/-- No area of a run ends after it. -/
theorem Ascending.stop_le_runEnd {run post : List Area} (h : Ascending (a :: (run ++ post)))
    (hfile : ∀ c ∈ run, c.file = file) :
    ∀ c ∈ a :: run, c.stop.toNat ≤ (runEnd file a (run ++ post)).toNat := by
  induction run generalizing a with
  | nil =>
    obtain ⟨run', hrun', -, d, hd, hend⟩ := exists_runEnd_eq file a post
    rintro c hc
    obtain rfl := List.mem_singleton.mp hc
    rw [List.nil_append, hend]
    obtain rfl | hd := List.mem_cons.mp hd
    · exact le_rfl
    · exact h.stop_le (hrun'.subset hd)
  | cons b run ih =>
    have hrest := ih (h.of_suffix (List.suffix_cons _ _))
      fun c hc => hfile c (List.mem_cons_of_mem _ hc)
    rw [List.cons_append, runEnd, if_pos (hfile b List.mem_cons_self)]
    refine List.forall_mem_cons.mpr ⟨?_, hrest⟩
    exact (h.stop_le List.mem_cons_self).trans (hrest b List.mem_cons_self)

/-- **A run ends before an area** that comes later, or the area is in it. -/
theorem Ascending.runEnd_le_or (h : Ascending (a :: rest)) (file : VirtualAddress)
    {rest' : List Area} (hsuf : b :: rest' <:+ rest) :
    (runEnd file a rest).toNat ≤ b.start.toNat
      ∨ runEnd file a rest = runEnd file b rest'
        ∧ ∃ run, rest = run ++ b :: rest' ∧ ∀ c ∈ run ++ [b], c.file = file := by
  induction rest generalizing a with
  | nil => exact absurd (List.suffix_nil.mp hsuf) (by simp)
  | cons c rest ih =>
    rw [runEnd]
    by_cases hc : c.file = file
    · rw [if_pos hc]
      obtain heq | hsuf := List.suffix_cons_iff.mp hsuf
      · obtain ⟨rfl, rfl⟩ := List.cons.inj heq
        exact Or.inr ⟨rfl, [], rfl, by simpa using hc⟩
      · obtain hle | ⟨hend, run, hrun, hfile⟩ := ih (h.of_suffix (List.suffix_cons _ _)) hsuf
        · exact Or.inl hle
        · exact Or.inr ⟨hend, c :: run, by rw [hrun]; rfl, List.forall_mem_cons.mpr ⟨hc, hfile⟩⟩
    · rw [if_neg hc]
      exact Or.inl ((List.pairwise_cons.mp h.disjoint).1 b (hsuf.subset List.mem_cons_self))

/-- The modules of the areas from one on are among those of all. -/
theorem modules_suffix (hsuf : rest <:+ areas) : modules rest <:+ modules areas := by
  induction areas with
  | nil => rw [List.suffix_nil.mp hsuf]
  | cons a areas ih =>
    obtain rfl | hsuf := List.suffix_cons_iff.mp hsuf
    · exact List.suffix_refl _
    · rw [modules]
      split
      · exact (ih hsuf).trans (List.suffix_cons _ _)
      · exact ih hsuf

/-- **What holds of the modules of two areas** holds of all in their order. -/
theorem pairwise_modules {R : Callstack.Module → Callstack.Module → Prop}
    (hR : ∀ a rest b rest', a :: rest <:+ areas → b :: rest' <:+ rest → a.isModule = true →
      b.isModule = true → R (a.toModule rest) (b.toModule rest')) :
    (modules areas).Pairwise R := by
  induction areas with
  | nil => exact List.Pairwise.nil
  | cons a areas ih =>
    have hrest := ih fun a' rest b rest' ha => hR a' rest b rest' (ha.trans (List.suffix_cons _ _))
    rw [modules]
    cases ha : a.isModule with
    | false => rwa [if_neg Bool.false_ne_true]
    | true =>
      rw [if_pos rfl]
      refine List.pairwise_cons.mpr ⟨fun m hm => ?_, hrest⟩
      obtain ⟨b, rest', hb, hmod, rfl⟩ := mem_modules_iff.mp hm
      exact hR a areas b rest' (List.suffix_refl _) hb ha hmod

/-- **The modules of a process** are sorted by where they start, and those that
overlap end together. -/
theorem endTogether_modules (h : Ascending areas)
    (hd : ∀ m ∈ modules areas, ∀ m' ∈ modules areas, m.module = m'.module → m = m') :
    Callstack.EndTogether (modules areas) where
  nonempty := by
    intro m hm
    obtain ⟨a, rest, hsuf, -, rfl⟩ := mem_modules_iff.mp hm
    have ha : a ∈ areas := hsuf.subset List.mem_cons_self
    exact (h.nonempty a ha).trans_le
      (Ascending.stop_le_runEnd (h.of_suffix hsuf) (List.forall_mem_nil _) a List.mem_cons_self)
  sorted := pairwise_modules fun a rest b rest' ha hb _ _ =>
    (h.nonempty a (ha.subset List.mem_cons_self)).trans_le
      ((List.pairwise_cons.mp (h.of_suffix ha).disjoint).1 b (hb.subset List.mem_cons_self))
  overlap := pairwise_modules fun a rest b rest' ha hb _ _ => by
    obtain hle | ⟨hend, run, -, hfile⟩ := (h.of_suffix ha).runEnd_le_or a.file hb
    · exact Or.inl hle
    · have hb : b.file = a.file := hfile b (by simp)
      exact Or.inr (congrArg BitVec.toNat (by rw [toModule, toModule, hend, hb]))
  distinct := hd

/-- **The modules are separate** if only the first area of a run is at offset
zero, and those runs are in the half of the user. -/
theorem separate_modules_iff (h : Ascending areas) :
    Callstack.Separate (modules areas) ↔ OneModuleARun areas := by
  constructor
  · rintro hsep a run ⟨before, post, rfl⟩ ha hfile
    have hsuf : a :: (run ++ post) <:+ before ++ (a :: run) ++ post :=
      ⟨before, by rw [List.append_assoc]; rfl⟩
    have hend := (h.of_suffix hsuf).stop_le_runEnd hfile
    have hmem := mem_modules_iff.mpr ⟨a, run ++ post, hsuf, ha, rfl⟩
    refine ⟨fun c hc hzero => ?_, fun c hc => (hend c hc).trans (hsep.user _ hmem)⟩
    -- otherwise the module that begins with `c` starts in the run
    obtain ⟨run', run'', rfl⟩ := List.append_of_mem hc
    have hc' : c.isModule = true := by
      rw [isModule, hfile c hc, hzero]
      rw [isModule] at ha
      exact (Bool.and_eq_true_iff.mp ha).2
    have hmods := hsep.disjoint.sublist (modules_suffix hsuf).sublist
    rw [modules, if_pos ha] at hmods
    have hle : (runEnd a.file a (run' ++ c :: run'' ++ post)).toNat ≤ c.start.toNat :=
      (List.pairwise_cons.mp hmods).1 (c.toModule (run'' ++ post)) (mem_modules_iff.mpr
        ⟨c, run'' ++ post, ⟨run', by rw [List.append_assoc]; rfl⟩, hc', rfl⟩)
    have hne := h.nonempty c (hsuf.subset (by simp))
    exact absurd (hne.trans_le (hend c (List.mem_cons_of_mem _ hc))) (not_lt.mpr hle)
  · intro hone
    refine ⟨pairwise_modules fun a rest b rest' ha hb hmod hmod' => ?_, fun m hm => ?_⟩
    · obtain hle | ⟨-, run, rfl, hfile⟩ := (h.of_suffix ha).runEnd_le_or a.file hb
      · exact hle
      · have hinfix : a :: (run ++ [b]) <:+: areas :=
          List.IsInfix.trans ⟨[], rest', by simp⟩ ha.isInfix
        have hoffset := (hone a (run ++ [b]) hinfix hmod hfile).1 b (by simp)
        rw [isModule] at hmod'
        exact absurd (beq_iff_eq.mp (Bool.and_eq_true_iff.mp hmod').1) hoffset
    · obtain ⟨a, rest, hsuf, ha, rfl⟩ := mem_modules_iff.mp hm
      obtain ⟨run, hrun, hfile, c, hc, hend⟩ := exists_runEnd_eq a.file a rest
      have hinfix : a :: run <:+: areas :=
        List.IsInfix.trans (List.cons_prefix_cons.mpr ⟨rfl, hrun⟩).isInfix hsuf.isInfix
      show (runEnd a.file a rest).toNat ≤ _
      rw [hend]
      exact (hone a run hinfix ha hfile).2 c hc

end Area

/-- The vector of modules of a process that is in memory. -/
theorem HoldsProcess.endTogether {proc : Os.Process} {areas : List Area}
    (h : linux.HoldsProcess fuel proc areas) (hasc : Area.Ascending areas) :
    Callstack.EndTogether (Area.modules areas) := by
  refine Area.endTogether_modules hasc fun m hm m' hm' heq => ?_
  have hspan := h.moduleSpan_eq hm
  rw [heq, h.moduleSpan_eq hm'] at hspan
  obtain ⟨hstart, hstop⟩ := Prod.mk.inj (Except.ok.inj hspan)
  cases m
  cases m'
  simp_all

end Linux
