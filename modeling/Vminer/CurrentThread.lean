import Vminer.KernelPgd
import Vminer.LinuxModules

/-!
# The current thread of a virtual CPU

Linux for `x86_64` has the current task in a per-CPU variable. On `aarch64` there is
no such symbol, and a virtual CPU that does not run the kernel does not tell its task
either: `current_thread` then looks in the list of processes for one whose page
directory is the one that the virtual CPU uses.

The register `TTBR0_EL1` holds more than the base of a table. `Aarch64::pgd` removes
the identifier of the address space from it but not its flags, and the search gives
up at the first process whose page directory cannot be determined. It is right
exactly where neither makes a difference (`findsCurrentThread_iff`).
-/

/-- `vmc::Thread` -/
structure Os.Thread where
  addr : VirtualAddress
deriving DecidableEq, Repr

/-- `FastSymbols` -/
structure Linux.FastSymbols where
  perCpuOffset : VirtualAddress
  currentTask : Option U64
  initTask : VirtualAddress
deriving DecidableEq, Repr

/-- **`Linux`, with what its tasks are found by**: the symbols of the profile and the
shift the kernel was loaded at. -/
structure LinuxTasks (B : Type) extends Linux B where
  fastSyms : Linux.FastSymbols
  kaslr : BitVec 64

namespace LinuxTasks

variable {B : Type} [Memory B] [HasVcpus.Methods B] {σ : Type}

/-- `Linux::per_cpu` -/
def perCpu (linux : LinuxTasks B) (vcpu : VcpuId) : Exec VmError VirtualAddress := do
  let perCpuOffset ← checkedAddSigned linux.fastSyms.perCpuOffset linux.kaslr
  let offset ← checkedMul 8 (BitVec.ofNat 64 vcpu)
  let addr ← checkedAdd perCpuOffset offset
  Pointer.read linux.readKernelMemory Layout.u64 addr

/-- `Linux::init_process` -/
def initProcess (linux : LinuxTasks B) : Exec VmError Os.Process := do
  let addr ← checkedAddSigned linux.fastSyms.initTask linux.kaslr
  return ⟨addr⟩

/-- `Linux::for_each_process` -/
def forEachProcess (linux : LinuxTasks B) (fuel : ℕ) (f : Callback σ Os.Process) (s : σ) :
    Exec VmError σ := do
  let init ← linux.initProcess
  let head ← Pointer.field linux.layouts init.addr (Linux.taskStruct "tasks")
  linux.iterateList (Linux.taskStruct "tasks") fuel head (fun proc => f ⟨proc⟩) s

/-- The callback of `current_thread`: stop at a process with the page directory. -/
def matchPgd (linux : LinuxTasks B) (vcpuPgd : PhysicalAddress) :
    Callback (Option Os.Thread) Os.Process := fun proc currentTask => do
  let procPgd ← linux.processPgd proc
  if procPgd = vcpuPgd then return (.Break, some ⟨proc.addr⟩)
  else return (.Continue, currentTask)

/-- The last resort of `current_thread`: the process whose page directory is that of
the virtual CPU. -/
def findByPgd (linux : LinuxTasks B) (fuel : ℕ) (vcpuPgd : PhysicalAddress) :
    Exec VmError Os.Thread := do
  let currentTask ← linux.forEachProcess fuel (linux.matchPgd vcpuPgd) none
  Exec.okOr currentTask (VmError.new "cannot find current thread")

/-- `Linux::current_thread` -/
def currentThread (linux : LinuxTasks B) (fuel : ℕ) (vcpu : VcpuId) :
    Exec VmError Os.Thread :=
  match linux.fastSyms.currentTask with
  | some currentTask => do
    let perCpu ← linux.perCpu vcpu
    let currentTask ← checkedAdd perCpu currentTask
    let addr ← Pointer.read linux.readKernelMemory Layout.u64 currentTask
    return ⟨addr⟩
  | none => do
    let vcpuPgd ← Exec.mapErr VmError.vcpu (HasVcpus.Methods.pgd linux.backend vcpu)
    match Architecture.intoRuntime (HasVcpus.arch linux.backend) with
    | .aarch64 => do
      let ip ← Exec.mapErr VmError.vcpu
        (HasVcpus.Methods.instructionPointer linux.backend vcpu)
      if VirtualAddress.isKernel ip then do
        let regs ← Exec.mapErr VmError.vcpu (Aarch64.registers linux.backend vcpu)
        return ⟨regs.sp⟩
      else linux.findByPgd fuel vcpuPgd
    | .x86_64 => linux.findByPgd fuel vcpuPgd

/-! ## The list of processes -/

/-- **The circular list of tasks in memory**, from the initial one on, without it. To
determine the page directory of one of them gives a value or an error. -/
structure HoldsTasks (linux : LinuxTasks B) (tasks : List VirtualAddress) : Prop where
  list : ∃ init head offset, linux.initProcess = .ok init
    ∧ Pointer.field linux.layouts init.addr (Linux.taskStruct "tasks") = .ok head
    ∧ (Linux.taskStruct "tasks").offset linux.layouts = .ok offset
    ∧ Pointer.HoldsList linux.readKernelMemory linux.layouts (Linux.listHead "next") head offset
        tasks head
  returns : ∀ task ∈ tasks, (linux.processPgd ⟨task⟩).Returns

/-- **The table that a task uses**: its page directory has the base bits of a
register. -/
def usesTable (linux : LinuxTasks B) (ttbr : U64) (task : VirtualAddress) : Bool :=
  match linux.processPgd ⟨task⟩ with
  | .ok pgd => decide (MmuEntry.takeBits pgd 12 addrBits = MmuEntry.takeBits ttbr 12 addrBits)
  | .error _ => false

/-- The scan of the list for a page directory. -/
def scanPgd (linux : LinuxTasks B) (vcpuPgd : PhysicalAddress) :
    List VirtualAddress → Exec VmError (Option Os.Thread)
  | [] => return none
  | task :: tasks => do
    let procPgd ← linux.processPgd ⟨task⟩
    if procPgd = vcpuPgd then return some ⟨task⟩ else scanPgd linux vcpuPgd tasks

variable {linux : LinuxTasks B} {vcpuPgd : PhysicalAddress} {tasks : List VirtualAddress}

/-- **The last resort scans the list.** -/
theorem HoldsTasks.findByPgd_eq (h : linux.HoldsTasks tasks) {fuel : ℕ}
    (hfuel : tasks.length < fuel) :
    linux.findByPgd fuel vcpuPgd
      = linux.scanPgd vcpuPgd tasks >>= fun currentTask =>
        Exec.okOr currentTask (VmError.new "cannot find current thread") := by
  obtain ⟨init, head, offset, hinit, hhead, hoffset, hlist⟩ := h.list
  unfold findByPgd forEachProcess Linux.iterateList Pointer.iterateList
  rw [hinit, Exec.ok_bind, hhead, Exec.ok_bind, hoffset, Exec.ok_bind,
    Pointer.iterateListFrom_eq _ hlist hfuel]
  refine congrArg (· >>= _) ?_
  clear hlist hfuel h
  induction tasks with
  | nil => rfl
  | cons task tasks ih =>
    rw [forEach, scanPgd, ControlFlow.andThen, matchPgd]
    cases linux.processPgd ⟨task⟩ with
    | error e => rfl
    | ok procPgd =>
      rw [Exec.ok_bind, Exec.ok_bind]
      by_cases heq : procPgd = vcpuPgd
      · rw [if_pos heq, if_pos heq]
        rfl
      · rw [if_neg heq, if_neg heq]
        exact ih

/-- What the scan finds is a task of the list with the page directory. -/
theorem mem_of_scanPgd {thread : Os.Thread}
    (h : linux.scanPgd vcpuPgd tasks = .ok (some thread)) :
    thread.addr ∈ tasks ∧ linux.processPgd ⟨thread.addr⟩ = .ok vcpuPgd := by
  induction tasks with
  | nil => cases h
  | cons task tasks ih =>
    obtain ⟨procPgd, hpgd, hrest⟩ := (Exec.bind_eq_ok_iff _ _ _).mp h
    by_cases heq : procPgd = vcpuPgd
    · rw [if_pos heq] at hrest
      obtain rfl := Option.some.inj (Except.ok.inj hrest)
      exact ⟨List.mem_cons_self, heq ▸ hpgd⟩
    · rw [if_neg heq] at hrest
      obtain ⟨hmem, hthread⟩ := ih hrest
      exact ⟨List.mem_cons_of_mem task hmem, hthread⟩

/-- The scan returns. -/
theorem returns_scanPgd (vcpuPgd : PhysicalAddress)
    (h : ∀ task ∈ tasks, (linux.processPgd ⟨task⟩).Returns) :
    (linux.scanPgd vcpuPgd tasks).Returns := by
  induction tasks with
  | nil => trivial
  | cons task tasks ih =>
    rw [scanPgd, Exec.returns_bind_iff]
    obtain ⟨htask, htasks⟩ := List.forall_mem_cons.mp h
    refine ⟨htask, fun procPgd _ => ?_⟩
    split
    · trivial
    · exact ih htasks

/-- **What the first task that uses a table has to be** for the scan to find it: those
before it are passed, and its page directory is the one that is looked for. -/
theorem scanPgd_append_eq_iff {pre post : List VirtualAddress} {task : VirtualAddress}
    (hpre : ∀ q ∈ pre, linux.processPgd ⟨q⟩ ≠ .ok vcpuPgd) :
    linux.scanPgd vcpuPgd (pre ++ task :: post) = .ok (some ⟨task⟩)
      ↔ (∀ q ∈ pre, ∃ pgd, linux.processPgd ⟨q⟩ = .ok pgd)
        ∧ linux.processPgd ⟨task⟩ = .ok vcpuPgd := by
  induction pre with
  | nil =>
    refine ⟨fun h => ⟨by simp, (mem_of_scanPgd h).2⟩, fun ⟨_, htask⟩ => ?_⟩
    rw [List.nil_append, scanPgd, htask, Exec.ok_bind, if_pos rfl]
    rfl
  | cons q pre ih =>
    obtain ⟨hq, hpre⟩ := List.forall_mem_cons.mp hpre
    rw [List.cons_append, scanPgd, List.forall_mem_cons, Exec.bind_eq_ok_iff, and_assoc,
      ← ih hpre]
    constructor
    · rintro ⟨pgd, hpgd, hrest⟩
      rw [if_neg fun heq : pgd = vcpuPgd => hq (heq ▸ hpgd)] at hrest
      exact ⟨⟨pgd, hpgd⟩, hrest⟩
    · rintro ⟨⟨pgd, hpgd⟩, hrest⟩
      refine ⟨pgd, hpgd, ?_⟩
      rwa [if_neg fun heq : pgd = vcpuPgd => hq (heq ▸ hpgd)]

end LinuxTasks

/-! ## The current thread in user mode -/

/-- **A virtual CPU of `aarch64` that does not run the kernel**, with the value of its
register `TTBR0_EL1`. The backend does not override what is computed from the
registers. -/
structure Aarch64.InUserMode {V : Type} [HasVcpus.Methods V] (vcpus : V) (vcpu : VcpuId)
    (ttbr0 : U64) : Prop where
  arch : Architecture.intoRuntime (HasVcpus.arch vcpus) = .aarch64
  pgd_eq : HasVcpus.Methods.pgd vcpus vcpu = Aarch64.pgd vcpus vcpu
  instructionPointer_eq :
    HasVcpus.Methods.instructionPointer vcpus vcpu = Aarch64.instructionPointer vcpus vcpu
  user : ∃ regs, Aarch64.registers vcpus vcpu = .ok regs
    ∧ VirtualAddress.isKernel regs.pc = false
  ttbr0 : ∃ regs, Aarch64.specialRegisters vcpus vcpu = .ok regs ∧ regs.ttbr0El1 = ttbr0

/-- The page directory of such a virtual CPU is the register without the identifier
of the address space. -/
theorem Aarch64.InUserMode.pgd {V : Type} [HasVcpus.Methods V] {vcpus : V} {vcpu : VcpuId}
    {ttbr0 : U64} (h : Aarch64.InUserMode vcpus vcpu ttbr0) :
    HasVcpus.Methods.pgd vcpus vcpu = .ok (ttbr0 &&& mask addrBits) := by
  obtain ⟨regs, hregs, huser⟩ := h.user
  obtain ⟨special, hspecial, rfl⟩ := h.ttbr0
  rw [h.pgd_eq, Aarch64.pgd, hspecial, Exec.ok_bind, Aarch64.instructionPointer, hregs]
  show Except.ok ((if VirtualAddress.isKernel regs.pc then _ else _) &&& _) = _
  rw [huser]
  rfl

/-- Without the identifier the base bits are the same. -/
theorem takeBits_and_mask (ttbr : U64) :
    MmuEntry.takeBits (ttbr &&& mask addrBits) 12 addrBits
      = MmuEntry.takeBits ttbr 12 addrBits := by
  have hmask : mask addrBits &&& maskRange 12 addrBits = maskRange 12 addrBits := by decide
  rw [MmuEntry.takeBits, BitVec.and_assoc, hmask]
  rfl

namespace LinuxTasks

section UserMode

variable {B : Type} [Memory B] [HasVcpus.Methods B] {linux : LinuxTasks B}
  {tasks : List VirtualAddress} {ttbr0 : U64}

/-- A task with the page directory of the virtual CPU uses its table. -/
theorem usesTable_of_processPgd {task : VirtualAddress}
    (h : linux.processPgd ⟨task⟩ = .ok (ttbr0 &&& mask addrBits)) :
    linux.usesTable ttbr0 task = true := by
  unfold usesTable
  rw [h]
  exact decide_eq_true (takeBits_and_mask ttbr0)

/-- **What the search in user mode is for**: the first task that uses the table of the
virtual CPU, and an error if there is none. -/
def FindsCurrentThread (linux : LinuxTasks B) (fuel : ℕ) (vcpu : VcpuId) (ttbr0 : U64)
    (tasks : List VirtualAddress) : Prop :=
  match tasks.find? (linux.usesTable ttbr0) with
  | some task => linux.currentThread fuel vcpu = .ok ⟨task⟩
  | none => ∃ e, linux.currentThread fuel vcpu = Exec.fail e

/-- In user mode the list is scanned. -/
theorem HoldsTasks.currentThread_eq (h : linux.HoldsTasks tasks)
    (hsym : linux.fastSyms.currentTask = none) {vcpu : VcpuId}
    (huser : Aarch64.InUserMode linux.backend vcpu ttbr0) {fuel : ℕ}
    (hfuel : tasks.length < fuel) :
    linux.currentThread fuel vcpu
      = linux.scanPgd (ttbr0 &&& mask addrBits) tasks >>= fun currentTask =>
        Exec.okOr currentTask (VmError.new "cannot find current thread") := by
  obtain ⟨regs, hregs, hpc⟩ := huser.user
  have hip : HasVcpus.Methods.instructionPointer linux.backend vcpu = .ok regs.pc := by
    rw [huser.instructionPointer_eq, Aarch64.instructionPointer, hregs]
    rfl
  unfold currentThread
  rw [hsym, ← h.findByPgd_eq hfuel]
  dsimp only
  rw [huser.pgd, Exec.mapErr_ok, Exec.ok_bind, huser.arch]
  dsimp only
  rw [hip, Exec.mapErr_ok, Exec.ok_bind, hpc, if_neg Bool.false_ne_true]

/-- **The search in user mode is right exactly where** the page directories of the tasks
before the first one that uses the table can be determined, and its own is the
register with its flags. -/
theorem findsCurrentThread_iff (h : linux.HoldsTasks tasks)
    (hsym : linux.fastSyms.currentTask = none) {vcpu : VcpuId}
    (huser : Aarch64.InUserMode linux.backend vcpu ttbr0) {fuel : ℕ}
    (hfuel : tasks.length < fuel) :
    linux.FindsCurrentThread fuel vcpu ttbr0 tasks
      ↔ ∀ pre task post, tasks = pre ++ task :: post →
        (∀ q ∈ pre, linux.usesTable ttbr0 q = false) → linux.usesTable ttbr0 task = true →
        (∀ q ∈ pre, ∃ pgd, linux.processPgd ⟨q⟩ = .ok pgd)
          ∧ linux.processPgd ⟨task⟩ = .ok (ttbr0 &&& mask addrBits) := by
  have hunused : ∀ q, linux.usesTable ttbr0 q = false →
      linux.processPgd ⟨q⟩ ≠ .ok (ttbr0 &&& mask addrBits) := by
    intro q hq hpgd
    exact Bool.false_ne_true (hq.symm.trans (usesTable_of_processPgd hpgd))
  unfold FindsCurrentThread
  rw [h.currentThread_eq hsym huser hfuel]
  cases hfind : tasks.find? (linux.usesTable ttbr0) with
  | none =>
    have hnone := List.find?_eq_none.mp hfind
    refine iff_of_true ?_ fun pre task post htasks _ htask => ?_
    · have hreturns := returns_scanPgd (ttbr0 &&& mask addrBits) h.returns
      cases hscan : linux.scanPgd (ttbr0 &&& mask addrBits) tasks with
      | error e =>
        rw [hscan] at hreturns
        cases e with
        | err e => exact ⟨e, rfl⟩
        | panic => exact hreturns.elim
        | fuel => exact hreturns.elim
      | ok found =>
        cases found with
        | none => exact ⟨_, rfl⟩
        | some thread =>
          obtain ⟨hmem, hpgd⟩ := mem_of_scanPgd hscan
          exact absurd (usesTable_of_processPgd hpgd) (hnone thread.addr hmem)
    · exact absurd htask (hnone task (by rw [htasks]; simp))
  | some first =>
    have hscan : (linux.scanPgd (ttbr0 &&& mask addrBits) tasks >>= fun currentTask =>
        Exec.okOr currentTask (VmError.new "cannot find current thread")) = .ok ⟨first⟩
        ↔ linux.scanPgd (ttbr0 &&& mask addrBits) tasks = .ok (some ⟨first⟩) := by
      simp only [Exec.bind_eq_ok_iff, Exec.okOr_eq_ok_iff, exists_eq_right]
    show _ = _ ↔ _
    rw [hscan]
    constructor
    · rintro hfound pre task post rfl hpre htask
      -- the first task that uses the table is found by both
      have htask' := List.find?_eq_some_iff_append.mpr
        ⟨htask, pre, post, rfl, fun q hq => by rw [hpre q hq]; rfl⟩
      obtain rfl := Option.some.inj (hfind.symm.trans htask')
      exact (scanPgd_append_eq_iff fun q hq => hunused q (hpre q hq)).mp hfound
    · intro hcond
      obtain ⟨hfirst, pre, post, htasks, hpre⟩ := List.find?_eq_some_iff_append.mp hfind
      have hpre : ∀ q ∈ pre, linux.usesTable ttbr0 q = false := fun q hq => by
        simpa using hpre q hq
      rw [htasks]
      exact (scanPgd_append_eq_iff fun q hq => hunused q (hpre q hq)).mpr
        (hcond pre first post htasks hpre hfirst)

end UserMode

/-! ## Guests with two tasks -/

/-- A guest of `aarch64` with one virtual CPU in user mode, whose memory is these words
and maps itself. A task is four words, a memory descriptor one. -/
def ofWords (words : List U64) (ttbr0 : U64) : LinuxTasks (DumbDump RawMemory) where
  backend :=
    { DumbDump.ofWords words with
      vcpus := .aarch64 [⟨⟨fun _ => 0, 0, 0, 0⟩, ⟨0, ttbr0, 0, 0⟩, ⟨⟩⟩] }
  layouts := fun _ => some fun
    | "mm" => some 8
    | "active_mm" => some 16
    | "flags" => some 24
    | _ => some 0
  kpgd := 0
  fastSyms := ⟨0, none, 8⟩
  kaslr := 0

/-- Its virtual CPU is in user mode. -/
theorem inUserMode_ofWords (words : List U64) (ttbr0 : U64) :
    Aarch64.InUserMode (ofWords words ttbr0).backend 0 ttbr0 where
  arch := rfl
  pgd_eq := rfl
  instructionPointer_eq := rfl
  user := ⟨⟨fun _ => 0, 0, 0, 0⟩, rfl, rfl⟩
  ttbr0 := ⟨⟨0, ttbr0, 0, 0⟩, rfl, rfl⟩

/-- A list of two tasks, whose page directories are at 0x1000 and 0x2000. -/
def twoTasks : U64 → LinuxTasks (DumbDump RawMemory) :=
  ofWords [1, 16, 48, 80, 0, 0, 8, 88, 0, 0, 0x1000, 0x2000]

/-- Their list, whatever else is in the register. -/
theorem holdsTasks_twoTasks {ttbr0 : U64} (h : ttbr0 = 0x5000000002000 ∨ ttbr0 = 0x1001) :
    (twoTasks ttbr0).HoldsTasks [16, 48] := by
  obtain rfl | rfl := h
  all_goals exact
    { list := by
        refine ⟨⟨8⟩, 8, 0, by decide +kernel, by decide +kernel, by decide +kernel, ?_⟩
        refine ⟨16, by decide, by decide +kernel, by decide +kernel, ?_⟩
        exact ⟨48, by decide, by decide +kernel, by decide +kernel,
          show Pointer.readPointerField _ _ 48 _ = .ok 8 by decide +kernel⟩
      returns := by
        intro task htask
        obtain rfl | rfl : task = 16 ∨ task = 48 := by simpa using htask
        · decide +kernel
        · decide +kernel }

/-- A task behind one that has exited. -/
def exitedTask : U64 → LinuxTasks (DumbDump RawMemory) :=
  ofWords [1, 16, 48, 0, 0, 0, 8, 80, 0, 0, 0x1000]

/-- **With another identifier of the address space** the second task is found. -/
theorem findsCurrentThread_twoTasks :
    (twoTasks 0x5000000002000).FindsCurrentThread 3 0 0x5000000002000 [16, 48] := by
  have hpgd : (twoTasks 0x5000000002000).processPgd ⟨16⟩ = .ok 0x1000
      ∧ (twoTasks 0x5000000002000).processPgd ⟨48⟩ = .ok 0x2000 := by decide +kernel
  have hfirst : (twoTasks 0x5000000002000).usesTable 0x5000000002000 16 = false := by
    decide +kernel
  have hlist := holdsTasks_twoTasks (Or.inl rfl)
  refine (findsCurrentThread_iff hlist rfl (inUserMode_ofWords _ _) (by decide)).mpr ?_
  intro pre task post htasks _ htask
  obtain ⟨rfl, rfl⟩ : pre = [16] ∧ task = 48 := by
    match pre with
    | [] =>
      obtain ⟨rfl, -⟩ := List.cons.inj htasks
      exact absurd htask (by rw [hfirst]; decide)
    | [q] =>
      obtain ⟨rfl, hrest⟩ := List.cons.inj htasks
      exact ⟨rfl, (List.cons.inj hrest).1.symm⟩
    | q :: q' :: pre => exact absurd (congrArg List.length htasks) (by simp)
  exact ⟨fun q hq => ⟨0x1000, List.mem_singleton.mp hq ▸ hpgd.1⟩, hpgd.2⟩

/-- **With a flag in the register it is not**, nor after a task that has exited. -/
theorem not_findsCurrentThread :
    ((twoTasks 0x1001).HoldsTasks [16, 48]
      ∧ Aarch64.InUserMode (twoTasks 0x1001).backend 0 0x1001
      ∧ ¬ (twoTasks 0x1001).FindsCurrentThread 3 0 0x1001 [16, 48])
    ∧ (exitedTask 0x1000).HoldsTasks [16, 48]
      ∧ Aarch64.InUserMode (exitedTask 0x1000).backend 0 0x1000
      ∧ ¬ (exitedTask 0x1000).FindsCurrentThread 3 0 0x1000 [16, 48] := by
  refine ⟨⟨holdsTasks_twoTasks (Or.inr rfl), inUserMode_ofWords _ _, ?_⟩, ?_,
    inUserMode_ofWords _ _, ?_⟩
  · have hfind : [16, 48].find? ((twoTasks 0x1001).usesTable 0x1001) = some 16 := by
      decide +kernel
    rw [FindsCurrentThread, hfind]
    decide +kernel
  · exact
      { list := by
          refine ⟨⟨8⟩, 8, 0, by decide +kernel, by decide +kernel, by decide +kernel, ?_⟩
          refine ⟨16, by decide, by decide +kernel, by decide +kernel, ?_⟩
          exact ⟨48, by decide, by decide +kernel, by decide +kernel,
            show Pointer.readPointerField _ _ 48 _ = .ok 8 by decide +kernel⟩
        returns := by
          intro task htask
          obtain rfl | rfl : task = 16 ∨ task = 48 := by simpa using htask
          · decide +kernel
          · decide +kernel }
  · have hfind : [16, 48].find? ((exitedTask 0x1000).usesTable 0x1000) = some 48 := by
      decide +kernel
    rw [FindsCurrentThread, hfind]
    decide +kernel

end LinuxTasks
