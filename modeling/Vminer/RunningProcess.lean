import Vminer.Processes

/-!
# The call stack of a running process

Without registers of its own, `process_callstack` begins at those of a virtual CPU: the first one
that runs the process. The virtual CPUs are asked for their current process in turn, and the first
that cannot tell ends the search, so that one of them can hide a process that runs on another
(`processCallstack_iff_outcome`). On Linux the process of a thread is the leader of its group.
-/

section Os

variable {V σ : Type} [HasVcpus.Methods V]

/-- `Os::current_process` -/
def Os.currentProcess (currentThread : VcpuId → Exec VmError Os.Thread)
    (threadProcess : Os.Thread → Exec VmError Os.Process) (vcpu : VcpuId) :
    Exec VmError Os.Process := do
  let thread ← currentThread vcpu
  threadProcess thread

/-- The pointers of a virtual CPU that a call stack begins with. -/
def Os.pointersOf (vcpus : V) (vcpu : VcpuId) :
    Exec VmError (VirtualAddress × VirtualAddress × Option VirtualAddress) := do
  let instructionPointer ←
    Exec.mapErr VmError.vcpu (HasVcpus.Methods.instructionPointer vcpus vcpu)
  let stackPointer ← Exec.mapErr VmError.vcpu (HasVcpus.Methods.stackPointer vcpus vcpu)
  let basePointer ← Exec.mapErr VmError.vcpu (HasVcpus.Methods.basePointer vcpus vcpu)
  return (instructionPointer, stackPointer, basePointer)

/-- A round of the loop of `process_callstack`. -/
def Os.pointersIfCurrent (vcpus : V) (currentProcess : VcpuId → Exec VmError Os.Process)
    (proc : Os.Process) (vcpu : VcpuId) :
    Exec VmError (Option (VirtualAddress × VirtualAddress × Option VirtualAddress)) := do
  let current ← currentProcess vcpu
  if current = proc then do
    let pointers ← Os.pointersOf vcpus vcpu
    return some pointers
  else return none

/-- `Os::process_callstack`, over the `process_callstack_with_regs` of a guest system. Neither of
the two systems overrides `iter_vcpus`. -/
def Os.processCallstack (vcpus : V) (currentProcess : VcpuId → Exec VmError Os.Process)
    (processCallstackWithRegs : Os.Process → VirtualAddress → VirtualAddress →
      Option VirtualAddress → Callback σ StackFrame → σ → Exec VmError σ)
    (proc : Os.Process) (f : Callback σ StackFrame) (s : σ) : Exec VmError σ := do
  match ← (HasVcpus.iterVcpus vcpus).findSomeM? (pointersIfCurrent vcpus currentProcess proc) with
  | some (instructionPointer, stackPointer, basePointer) =>
    processCallstackWithRegs proc instructionPointer stackPointer basePointer f s
  | none => Exec.fail (VmError.new "Not a running process")

/-! ## The virtual CPU that ends the search -/

/-- A virtual CPU tells that it runs another process. -/
def Os.RunsOther (currentProcess : VcpuId → Exec VmError Os.Process) (proc : Os.Process)
    (vcpu : VcpuId) : Prop :=
  ∃ other, other ≠ proc ∧ currentProcess vcpu = .ok other

/-- **The first virtual CPU that runs a process**: those before it tell that they run another. -/
structure Os.RunsFirst (vcpus : V) (currentProcess : VcpuId → Exec VmError Os.Process)
    (proc : Os.Process) (vcpu : VcpuId) : Prop where
  lt : vcpu < HasVcpus.vcpusCount vcpus
  current : currentProcess vcpu = .ok proc
  before : ∀ w < vcpu, Os.RunsOther currentProcess proc w

variable {vcpus : V} {currentProcess : VcpuId → Exec VmError Os.Process} {proc : Os.Process}
  {vcpu : VcpuId}

/-- A virtual CPU that runs another process is passed by. -/
theorem Os.RunsOther.pointersIfCurrent_eq (vcpus : V)
    (h : Os.RunsOther currentProcess proc vcpu) :
    Os.pointersIfCurrent vcpus currentProcess proc vcpu = .ok none := by
  obtain ⟨other, hne, hother⟩ := h
  rw [Os.pointersIfCurrent, hother, Exec.ok_bind, if_neg hne]
  rfl

/-- A list of them is passed by. -/
theorem Os.findSomeM?_pointers_append (vcpus : V) {before after : List VcpuId}
    (h : ∀ w ∈ before, Os.RunsOther currentProcess proc w) :
    (before ++ after).findSomeM? (Os.pointersIfCurrent vcpus currentProcess proc)
      = after.findSomeM? (Os.pointersIfCurrent vcpus currentProcess proc) := by
  induction before with
  | nil => rfl
  | cons w before ih =>
    rw [List.cons_append, List.findSomeM?, (h w List.mem_cons_self).pointersIfCurrent_eq]
    exact ih fun w hw => h w (List.mem_cons_of_mem _ hw)

/-- The search begins at a virtual CPU where all before it run other processes. -/
theorem Os.exists_findSomeM?_pointers (hlt : vcpu < HasVcpus.vcpusCount vcpus)
    (hbefore : ∀ w < vcpu, Os.RunsOther currentProcess proc w) :
    ∃ after, (HasVcpus.iterVcpus vcpus).findSomeM?
        (Os.pointersIfCurrent vcpus currentProcess proc)
      = (vcpu :: after).findSomeM? (Os.pointersIfCurrent vcpus currentProcess proc) := by
  obtain ⟨k, hcount⟩ := Nat.exists_eq_add_of_lt hlt
  have hiter : HasVcpus.iterVcpus vcpus
      = List.range vcpu ++ vcpu :: (List.range k).map (vcpu + · + 1) := by
    rw [HasVcpus.iterVcpus, hcount, Nat.add_assoc, List.range_add, List.range_succ_eq_map,
      List.map_cons, List.map_map]
    rfl
  refine ⟨(List.range k).map (vcpu + · + 1), ?_⟩
  rw [hiter, Os.findSomeM?_pointers_append vcpus fun w hw => hbefore w (List.mem_range.mp hw)]

/-! ## The outcomes of `process_callstack` -/

/-- **What comes of the search for a process**: a call stack that begins at the pointers of the
first virtual CPU that runs it, an error if none does, and the error of the first virtual CPU that
cannot tell its process where this comes before. -/
inductive Os.Outcome {α : Type} (vcpus : V) (currentProcess : VcpuId → Exec VmError Os.Process)
    (proc : Os.Process)
    (start : VirtualAddress → VirtualAddress → Option VirtualAddress → Exec VmError α) :
    Exec VmError α → Prop where
  | runs (vcpu : VcpuId) (h : Os.RunsFirst vcpus currentProcess proc vcpu) :
    Os.Outcome vcpus currentProcess proc start
      (Os.pointersOf vcpus vcpu >>= fun (ip, sp, bp) => start ip sp bp)
  | notRunning (h : ∀ w < HasVcpus.vcpusCount vcpus, Os.RunsOther currentProcess proc w) :
    Os.Outcome vcpus currentProcess proc start (Exec.fail (VmError.new "Not a running process"))
  | unknown (vcpu : VcpuId) (hlt : vcpu < HasVcpus.vcpusCount vcpus)
    (hbefore : ∀ w < vcpu, Os.RunsOther currentProcess proc w)
    (e : Stop VmError) (herror : currentProcess vcpu = .error e) :
    Os.Outcome vcpus currentProcess proc start (.error e)

/-- **Every search has an outcome.** -/
theorem Os.exists_outcome {α : Type} (vcpus : V)
    (currentProcess : VcpuId → Exec VmError Os.Process) (proc : Os.Process)
    (start : VirtualAddress → VirtualAddress → Option VirtualAddress → Exec VmError α) :
    ∃ r, Os.Outcome vcpus currentProcess proc start r := by
  classical
  by_cases hall : ∀ w < HasVcpus.vcpusCount vcpus, Os.RunsOther currentProcess proc w
  · exact ⟨_, .notRunning hall⟩
  · push Not at hall
    -- the first virtual CPU that does not tell that it runs another process
    obtain ⟨hlt, hother⟩ := Nat.find_spec hall
    have hbefore : ∀ w < Nat.find hall, Os.RunsOther currentProcess proc w := by
      intro w hw
      have hmin := Nat.find_min hall hw
      push Not at hmin
      exact hmin (hw.trans hlt)
    generalize Nat.find hall = vcpu at hlt hother hbefore
    cases hcurrent : currentProcess vcpu with
    | error e => exact ⟨_, .unknown vcpu hlt hbefore e hcurrent⟩
    | ok current =>
      have heq : current = proc := by
        by_contra hne
        exact hother ⟨current, hne, hcurrent⟩
      exact ⟨_, .runs vcpu ⟨hlt, heq ▸ hcurrent, hbefore⟩⟩

/-- The call stack is what comes of the search. -/
theorem Os.Outcome.processCallstack_eq
    {processCallstackWithRegs : Os.Process → VirtualAddress → VirtualAddress →
      Option VirtualAddress → Callback σ StackFrame → σ → Exec VmError σ}
    {f : Callback σ StackFrame} {s : σ} {r : Exec VmError σ}
    (h : Os.Outcome vcpus currentProcess proc
      (fun ip sp bp => processCallstackWithRegs proc ip sp bp f s) r) :
    Os.processCallstack vcpus currentProcess processCallstackWithRegs proc f s = r := by
  rw [Os.processCallstack]
  cases h with
  | runs vcpu h =>
    obtain ⟨after, hafter⟩ := Os.exists_findSomeM?_pointers h.lt h.before
    rw [hafter, List.findSomeM?, Os.pointersIfCurrent, h.current, Exec.ok_bind, if_pos rfl]
    cases Os.pointersOf vcpus vcpu with
    | error e => rfl
    | ok pointers => rfl
  | notRunning h =>
    have hnone : (HasVcpus.iterVcpus vcpus ++ []).findSomeM?
        (Os.pointersIfCurrent vcpus currentProcess proc) = .ok none :=
      Os.findSomeM?_pointers_append vcpus fun w hw => h w (List.mem_range.mp hw)
    rw [List.append_nil] at hnone
    rw [hnone]
    rfl
  | unknown vcpu hlt hbefore e herror =>
    obtain ⟨after, hafter⟩ := Os.exists_findSomeM?_pointers hlt hbefore
    rw [hafter, List.findSomeM?, Os.pointersIfCurrent, herror]
    rfl

/-- **A call stack is exactly what comes of the search.** -/
theorem Os.processCallstack_eq_outcome_iff
    (processCallstackWithRegs : Os.Process → VirtualAddress → VirtualAddress →
      Option VirtualAddress → Callback σ StackFrame → σ → Exec VmError σ)
    (f : Callback σ StackFrame) (s : σ) (r : Exec VmError σ) :
    Os.processCallstack vcpus currentProcess processCallstackWithRegs proc f s = r
      ↔ Os.Outcome vcpus currentProcess proc
        (fun ip sp bp => processCallstackWithRegs proc ip sp bp f s) r := by
  refine ⟨fun h => ?_, Os.Outcome.processCallstack_eq⟩
  obtain ⟨r', hr'⟩ := Os.exists_outcome vcpus currentProcess proc
    fun ip sp bp => processCallstackWithRegs proc ip sp bp f s
  rwa [← h, hr'.processCallstack_eq]

end Os

/-! ## The two guest systems -/

section Systems

variable {σ : Type}

/-- `Linux::thread_process` -/
def Linux.threadProcess {B : Type} [Memory B] [HasVcpus B] (linux : Linux B)
    (thread : Os.Thread) : Exec VmError Os.Process := do
  let addr ← linux.readPointerField thread.addr (taskStruct "group_leader")
  return ⟨addr⟩

namespace LinuxTasks

variable {B : Type} [Memory B] [HasVcpus.Methods B]

/-- `current_process` of Linux -/
def currentProcess (linux : LinuxTasks B) (fuel : ℕ) : VcpuId → Exec VmError Os.Process :=
  Os.currentProcess (linux.currentThread fuel) linux.threadProcess

/-- `process_callstack` of Linux -/
def processCallstack (linux : LinuxTasks B) (fuel : ℕ) :
    (Os.Process → VirtualAddress → VirtualAddress → Option VirtualAddress →
      Callback σ StackFrame → σ → Exec VmError σ) →
    Os.Process → Callback σ StackFrame → σ → Exec VmError σ :=
  Os.processCallstack linux.backend (linux.currentProcess fuel)

end LinuxTasks

namespace Windows

variable {B : Type} [Memory B] [HasVcpus.Methods B]

/-- `Windows::kpcr` -/
def kpcr (windows : Windows B) (vcpu : VcpuId) : Exec VmError VirtualAddress := do
  let perCpu ← Exec.mapErr VmError.vcpu (HasVcpus.Methods.kernelPerCpu windows.backend vcpu)
  Exec.okOr perCpu (VmError.new "failed to get kernel per cpu")

/-- `Windows::current_thread` -/
def currentThread (windows : Windows B) (vcpu : VcpuId) : Exec VmError Os.Thread := do
  let kpcr ← windows.kpcr vcpu
  let prcb ← Pointer.field windows.layouts kpcr ⟨"Kpcr", "_KPCR", "Prcb"⟩
  let thread ← Pointer.readPointerField windows.readKernelMemory windows.layouts prcb
    ⟨"Kprcb", "_KPRCB", "CurrentThread"⟩
  return ⟨thread⟩

/-- `Windows::thread_process` -/
def threadProcess (windows : Windows B) (thread : Os.Thread) : Exec VmError Os.Process := do
  let tcb ← Pointer.field windows.layouts thread.addr (ethread "Tcb")
  let proc ← Pointer.readPointerField windows.readKernelMemory windows.layouts tcb
    ⟨"Kthread", "_KTHREAD", "Process"⟩
  return ⟨proc⟩

/-- `current_process` of Windows -/
def currentProcess (windows : Windows B) : VcpuId → Exec VmError Os.Process :=
  Os.currentProcess windows.currentThread windows.threadProcess

/-- `process_callstack` of Windows -/
def processCallstack (windows : Windows B) :
    (Os.Process → VirtualAddress → VirtualAddress → Option VirtualAddress →
      Callback σ StackFrame → σ → Exec VmError σ) →
    Os.Process → Callback σ StackFrame → σ → Exec VmError σ :=
  Os.processCallstack windows.backend windows.currentProcess

end Windows

/-- **Which call stack a process has.** On both systems it begins at the pointers of the first
virtual CPU that runs the process. A process that none runs has no call stack, and neither has one
that only runs behind a virtual CPU that cannot tell its own. -/
theorem processCallstack_iff_outcome {B B' : Type} [Memory B] [HasVcpus.Methods B] [Memory B']
    [HasVcpus.Methods B'] (linux : LinuxTasks B) (windows : Windows B')
    (processCallstackWithRegs : Os.Process → VirtualAddress → VirtualAddress →
      Option VirtualAddress → Callback σ StackFrame → σ → Exec VmError σ)
    (proc : Os.Process) (f : Callback σ StackFrame) (s : σ) (r : Exec VmError σ) :
    (∀ fuel, linux.processCallstack fuel processCallstackWithRegs proc f s = r
      ↔ Os.Outcome linux.backend (linux.currentProcess fuel) proc
        (fun ip sp bp => processCallstackWithRegs proc ip sp bp f s) r)
    ∧ (windows.processCallstack processCallstackWithRegs proc f s = r
      ↔ Os.Outcome windows.backend windows.currentProcess proc
        (fun ip sp bp => processCallstackWithRegs proc ip sp bp f s) r) :=
  ⟨fun _ => Os.processCallstack_eq_outcome_iff processCallstackWithRegs f s r,
    Os.processCallstack_eq_outcome_iff processCallstackWithRegs f s r⟩

/-- The task at 48 runs in the group of the one at 8, which has the call stack. -/
example :
    (LinuxTasks.twoTasks 0x5000000002000).processCallstack 3
        (fun proc _ _ _ _ procs => .ok (procs ++ [proc])) ⟨8⟩
        (fun _ procs => .ok (.Continue, procs)) []
      = .ok [⟨8⟩] := by
  decide +kernel

end Systems
