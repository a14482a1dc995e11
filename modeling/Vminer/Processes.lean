import Vminer.ListWalks

/-!
# Threads and parents

The tasks of a thread group of Linux are linked in a circle that has no head of its own: the walk
along it starts at the task it is asked of and ends when it comes back there, so it sees every
other thread of the group, and not that one. Windows has the head of the list in the process and
sees all its threads (`processForEachThread_visits`).

A process of Windows names its parent by an identifier. The parent is the first process that has
it, and a process whose parent is gone is its own parent; the children of a process are all that
name it. The two agree but for processes that share an identifier (`processParent_iff_child`).
-/

section Threads

variable {σ : Type}

/-- `Os::process_collect_threads` -/
def Os.processCollectThreads
    (processForEachThread : Callback (List Os.Thread) Os.Thread → List Os.Thread →
      Exec VmError (List Os.Thread)) : Exec VmError (List Os.Thread) :=
  processForEachThread pushTo []

variable {B : Type} [Memory B] [HasVcpus B]

/-- `Linux::process_for_each_thread` -/
def Linux.processForEachThread (linux : Linux B) (fuel : ℕ) (proc : Os.Process)
    (f : Callback σ Os.Thread) (s : σ) : Exec VmError σ := do
  let head ← Pointer.field linux.layouts proc.addr (taskStruct "thread_group")
  linux.iterateList (taskStruct "thread_group") fuel head (fun thread => f ⟨thread⟩) s

/-- Fields of `_ETHREAD`. -/
def Windows.ethread (name : String) : StructField := ⟨"Ethread", "_ETHREAD", name⟩

/-- `Windows::process_for_each_thread` -/
def Windows.processForEachThread (windows : Windows B) (fuel : ℕ) (proc : Os.Process)
    (f : Callback σ Os.Thread) (s : σ) : Exec VmError σ := do
  let head ← Pointer.field windows.layouts proc.addr (eprocess "ThreadListHead")
  windows.iterateList windows.readKernelMemory (ethread "ThreadListEntry") fuel head
    (fun thread => f ⟨thread⟩) s

/-! ## Thread groups -/

/-- **A thread group**: tasks in a circle, each with its link at an offset. -/
structure Linux.IsThreadGroup (linux : Linux B) (offset : U64) (group : Cycle VirtualAddress) :
    Prop where
  offset_eq : (taskStruct "thread_group").offset linux.layouts = .ok offset
  distinct : group.Nodup
  linked : group.Chain fun task task' =>
    Pointer.readPointerField linux.readKernelMemory linux.layouts (task + offset) (listHead "next")
      = .ok (task' + offset)
  inside : ∀ task ∈ group, task ≠ 0 ∧ task.toNat + offset.toNat < 2 ^ 64

/-- A circle can be cut open at each of its elements. -/
theorem Cycle.exists_cons_of_mem {α : Type} {a : α} {c : Cycle α} (h : a ∈ c) :
    ∃ l : List α, (↑(a :: l) : Cycle α) = c := by
  induction c using Quotient.inductionOn' with
  | _ l =>
    obtain ⟨front, back, rfl⟩ := List.append_of_mem (Cycle.mem_coe_iff.mp h)
    have hrotated : (a :: back) ++ front ~r front ++ a :: back := List.isRotated_append
    exact ⟨back ++ front, Cycle.coe_eq_coe.mpr hrotated⟩

variable {linux : Linux B} {offset : U64} {task : VirtualAddress} {others : List VirtualAddress}

/-- A group is a list with its head in a task, wherever it is cut open. -/
theorem Linux.IsThreadGroup.isList (h : linux.IsThreadGroup offset ↑(task :: others)) :
    Pointer.IsList linux.readKernelMemory linux.layouts (listHead "next")
      (taskStruct "thread_group") (task + offset) offset (others.map (· + offset)) none := by
  have hchain := (Cycle.chain_coe_cons _ _ _).mp h.linked
  have hmapped : (((task :: others) ++ [task]).map (· + offset)).IsChain fun p q =>
      Pointer.readPointerField linux.readKernelMemory linux.layouts p (listHead "next")
        = .ok q :=
    List.isChain_map_of_isChain (· + offset) (fun _ _ => id) hchain
  rw [List.map_append] at hmapped
  obtain ⟨hlinked, -, hlast⟩ := List.isChain_append.mp hmapped
  constructor
  · exact h.offset_eq
  · exact List.Nodup.map (f := (· + offset)) (add_left_injective offset)
      (Cycle.nodup_coe_iff.mp h.distinct)
  · exact hlinked
  · exact hlast _ (List.getLast?_eq_getLast_of_ne_nil _) _ rfl
  · intro l hl
    obtain ⟨t, ht, rfl⟩ := List.mem_map.mp hl
    have hfits := (h.inside t (List.mem_cons_of_mem _ ht)).2
    rw [BitVec.toNat_add, Nat.mod_eq_of_lt hfits]
    omega

/-- The link of a task. -/
theorem Linux.IsThreadGroup.field_eq (h : linux.IsThreadGroup offset ↑(task :: others)) :
    Pointer.field linux.layouts task (taskStruct "thread_group") = .ok (task + offset) := by
  obtain ⟨hne, hfits⟩ := h.inside task List.mem_cons_self
  rw [Pointer.field, if_neg (by simpa [VirtualAddress.isNull] using hne), h.offset_eq,
    Exec.ok_bind, checkedAdd_eq_ok hfits]

/-- **The threads that are seen of a task** are the others of its group. -/
theorem Linux.IsThreadGroup.visits (h : linux.IsThreadGroup offset ↑(task :: others)) {fuel : ℕ}
    (hfuel : others.length < fuel) :
    Visits (fun _ f s => linux.processForEachThread fuel ⟨task⟩ f s)
      (others.map Os.Thread.mk) none := by
  have hlist := h.isList
  have helements : Pointer.elements offset (others.map (· + offset)) = others := by
    simp [Pointer.elements, Function.comp_def]
  have hvisits := (hlist.visits (by simpa using hfuel)).map Os.Thread.mk
  rw [helements] at hvisits
  intro σ f s
  show Linux.processForEachThread linux fuel ⟨task⟩ f s = _
  rw [Linux.processForEachThread, h.field_eq, Exec.ok_bind]
  exact hvisits σ f s

/-- **Which threads a process has.** On Linux, a task of a group has all the others as threads, in
the order they come behind it, and never itself, whichever task of the group is asked; on Windows
a process has all the threads of its list, and what can be read of a list that is broken. -/
theorem processForEachThread_visits {B' : Type} [Memory B'] [HasVcpus B'] (linux : Linux B)
    (windows : Windows B') :
    (∀ offset group fuel, linux.IsThreadGroup offset group → group.length ≤ fuel →
      (∀ task ∈ group, ∃ others : List VirtualAddress, ↑(task :: others) = group)
      ∧ ∀ (task : VirtualAddress) (others : List VirtualAddress), ↑(task :: others) = group →
        task ∉ others ∧ (∀ thread ∈ group, thread = task ∨ thread ∈ others)
        ∧ Visits (fun _ f s => linux.processForEachThread fuel ⟨task⟩ f s)
          (others.map Os.Thread.mk) none
        ∧ Os.processCollectThreads (linux.processForEachThread fuel ⟨task⟩)
          = .ok (others.map Os.Thread.mk))
    ∧ ∀ proc head offset links broken fuel,
      Pointer.field windows.layouts proc (Windows.eprocess "ThreadListHead") = .ok head →
      Pointer.IsList windows.readKernelMemory windows.layouts (Windows.listEntry "Flink")
        (Windows.ethread "ThreadListEntry") head offset links broken → links.length < fuel →
      ((Pointer.elements offset links).map Os.Thread.mk).Nodup
        ∧ Visits (fun _ f s => windows.processForEachThread fuel ⟨proc⟩ f s)
          ((Pointer.elements offset links).map Os.Thread.mk) broken
        ∧ Os.processCollectThreads (windows.processForEachThread fuel ⟨proc⟩)
          = broken.elim (.ok ((Pointer.elements offset links).map Os.Thread.mk)) Exec.fail := by
  refine ⟨fun offset group fuel h hfuel =>
      ⟨fun task htask => Cycle.exists_cons_of_mem htask, fun task others hgroup => ?_⟩,
    fun proc head offset links broken fuel hhead h hfuel => ?_⟩
  · subst hgroup
    have hvisits := h.visits (show others.length < fuel from hfuel)
    exact ⟨(List.nodup_cons.mp (Cycle.nodup_coe_iff.mp h.distinct)).1,
      fun thread hthread => List.mem_cons.mp (Cycle.mem_coe_iff.mp hthread), hvisits,
      hvisits.pushTo_eq⟩
  · have hvisits : Visits (fun _ f s => windows.processForEachThread fuel ⟨proc⟩ f s)
        ((Pointer.elements offset links).map Os.Thread.mk) broken := by
      intro σ f s
      show Windows.processForEachThread windows fuel ⟨proc⟩ f s = _
      rw [Windows.processForEachThread, hhead]
      exact (h.visits hfuel).map Os.Thread.mk σ f s
    exact ⟨h.nodup_elements.map fun _ _ => congrArg Os.Thread.addr, hvisits, hvisits.pushTo_eq⟩

/-- A guest whose structures have all their fields at their beginnings, with two threads. -/
def Windows.twoThreads : Windows (DumbDump RawMemory) :=
  { WindowsProcesses.twoProcesses.toWindows with layouts := fun _ => some fun _ => some 0 }

/-- Each task of a group sees the others; the process on Windows sees its threads. -/
theorem processForEachThread_visits_threeTasks :
    Os.processCollectThreads ((LinuxTasks.twoTasks 0x1001).processForEachThread 3 ⟨8⟩)
        = .ok [⟨16⟩, ⟨48⟩]
      ∧ Os.processCollectThreads ((LinuxTasks.twoTasks 0x1001).processForEachThread 3 ⟨16⟩)
        = .ok [⟨48⟩, ⟨8⟩]
      ∧ Os.processCollectThreads (Windows.twoThreads.processForEachThread 3 ⟨8⟩)
        = .ok [⟨24⟩, ⟨48⟩] := by
  obtain ⟨hlinux, hwindows⟩ :=
    processForEachThread_visits (LinuxTasks.twoTasks 0x1001).toLinux Windows.twoThreads
  have hgroup : (LinuxTasks.twoTasks 0x1001).toLinux.IsThreadGroup 0 ↑([8, 16, 48] : List U64) :=
    { offset_eq := by decide
      distinct := Cycle.nodup_coe_iff.mpr (by decide)
      linked := (Cycle.chain_coe_cons _ _ _).mpr
        (List.isChain_cons_cons.mpr ⟨by decide +kernel, List.isChain_cons_cons.mpr
          ⟨by decide +kernel, List.isChain_pair.mpr (by decide +kernel)⟩⟩)
      inside := by
        intro task htask
        obtain rfl | rfl | rfl : task = 8 ∨ task = 16 ∨ task = 48 := by
          simpa using Cycle.mem_coe_iff.mp htask
        · exact ⟨by decide, by decide⟩
        · exact ⟨by decide, by decide⟩
        · exact ⟨by decide, by decide⟩ }
  have hthreads : Pointer.IsList Windows.twoThreads.readKernelMemory Windows.twoThreads.layouts
      (Windows.listEntry "Flink") (Windows.ethread "ThreadListEntry") 8 0 [24, 48] none :=
    { offset_eq := by decide
      distinct := by decide
      linked := List.isChain_cons_cons.mpr
        ⟨by decide +kernel, List.isChain_pair.mpr (by decide +kernel)⟩
      last := show Pointer.readPointerField _ _ 48 _ = .ok 8 by decide +kernel
      inside := by simp }
  have htasks := (hlinux 0 _ 3 hgroup le_rfl).2
  exact ⟨(htasks 8 [16, 48] rfl).2.2.2,
    (htasks 16 [48, 8] (Cycle.coe_eq_coe.mpr (List.isRotated_append (l := [16, 48])))).2.2.2,
    (hwindows 8 8 0 [24, 48] none 3 (by decide) hthreads (by decide)).2.2⟩

end Threads

/-! ## Parents and children -/

section Parents

variable {B : Type} [Memory B] [HasVcpus B]

/-- `Windows::process_parent` -/
def WindowsProcesses.processParent (windows : WindowsProcesses B) (fuel : ℕ)
    (proc : Os.Process) : Exec VmError Os.Process := do
  let parentPid ← windows.processParentId proc
  let parent ← Os.findProcessById (windows.forEachProcess fuel) windows.processId parentPid
  return parent.getD proc

variable {windows : WindowsProcesses B} {fuel : ℕ} {procs : List Os.Process}
  {broken : Option VmError} {id parentId : Os.Process → U64}

/-- The first process with an identifier is found. -/
theorem WindowsProcesses.findProcessById_eq
    (hvisits : Visits (fun _ f s => windows.forEachProcess fuel f s) procs broken)
    (hid : ∀ p ∈ procs, windows.processId p = .ok (id p)) (pid : U64) :
    Os.findProcessById (windows.forEachProcess fuel) windows.processId pid
      = match procs.find? fun p => id p = pid with
        | some p => .ok (some p)
        | none => broken.elim (.ok none) Exec.fail := by
  have hpred : ∀ p ∈ procs, (do
      let id ← windows.processId p
      return id = pid : Exec VmError Bool) = .ok (id p = pid) := by
    intro p hp
    rw [hid p hp]
    rfl
  rw [Os.findProcessById, hvisits.find_eq hpred]
  cases procs.find? fun p => id p = pid with
  | none => rfl
  | some p => rfl

/-- The children of a process are those that name it. -/
theorem WindowsProcesses.visits_processForEachChild
    (hvisits : Visits (fun _ f s => windows.forEachProcess fuel f s) procs broken)
    (hparent : ∀ p ∈ procs, windows.processParentId p = .ok (parentId p)) {proc : Os.Process}
    {pid : U64} (hpid : windows.processId proc = .ok pid) :
    Visits (fun _ f s => windows.processForEachChild fuel proc f s)
      (procs.filter fun p => parentId p = pid) broken := by
  have hfilter := hvisits.filter (g := fun _ f proc s => do
      let parent ← windows.processParentId proc
      if parent = pid then f proc s else return (.Continue, s))
    (p := fun p => parentId p = pid) fun σ f p hp s => by
      rw [hparent p hp, Exec.ok_bind]
      simp only [decide_eq_true_eq]
      rfl
  intro σ f s
  show WindowsProcesses.processForEachChild windows fuel proc f s = _
  rw [WindowsProcesses.processForEachChild, hpid]
  exact hfilter σ f s

/-- **Parents and children.** Of the processes of a list, one is the parent of another exactly if
it is the first with its identifier and the other is among its children. Where no two share an
identifier, each process either has its parent in the list, and is then the child of this one and
of no other, or it is its own parent and nobody's child. -/
theorem processParent_iff_child (windows : WindowsProcesses B) (head : VirtualAddress)
    (offset : U64) (links : List VirtualAddress) (fuel : ℕ) (id parentId : Os.Process → U64)
    (hhead : checkedAdd windows.baseAddr windows.psActiveProcessHead
      = (.ok head : Exec VmError _))
    (hlist : Pointer.IsList windows.readKernelMemory windows.layouts (Windows.listEntry "Flink")
      (Windows.eprocess "ActiveProcessLinks") head offset links none)
    (hfuel : links.length < fuel)
    (hid : ∀ p ∈ Os.processesAt offset links, windows.processId p = .ok (id p))
    (hparent : ∀ p ∈ Os.processesAt offset links,
      windows.processParentId p = .ok (parentId p))
    (children : Os.Process → List Os.Process)
    (hchildren : ∀ p, children p
      = (Os.processesAt offset links).filter fun q => parentId q = id p) :
    (∀ p ∈ Os.processesAt offset links,
      Os.processCollectChildren (windows.processForEachChild fuel p) = .ok (children p))
    ∧ (∀ q ∈ Os.processesAt offset links, ∀ p ∈ Os.processesAt offset links, p ≠ q →
      (windows.processParent fuel q = .ok p
        ↔ q ∈ children p ∧ (Os.processesAt offset links).find? (fun p' => id p' = id p) = some p))
    ∧ (((Os.processesAt offset links).map id).Nodup → ∀ q ∈ Os.processesAt offset links,
      (∃ p ∈ Os.processesAt offset links, windows.processParent fuel q = .ok p
          ∧ ∀ p' ∈ Os.processesAt offset links, q ∈ children p' ↔ p' = p)
        ∨ windows.processParent fuel q = .ok q
          ∧ ∀ p' ∈ Os.processesAt offset links, q ∉ children p') := by
  have hvisits : Visits (fun _ f s => windows.forEachProcess fuel f s)
      (Os.processesAt offset links) none := by
    intro σ f s
    show WindowsProcesses.forEachProcess windows fuel f s = _
    rw [WindowsProcesses.forEachProcess, hhead]
    exact hlist.visits_processes hfuel σ f s
  generalize Os.processesAt offset links = procs at *
  have hmem : ∀ p q, q ∈ children p ↔ q ∈ procs ∧ parentId q = id p := by
    intro p q
    rw [hchildren, List.mem_filter, decide_eq_true_eq]
  have hparentOf : ∀ q ∈ procs, windows.processParent fuel q
      = .ok ((procs.find? fun p => id p = parentId q).getD q) := by
    intro q hq
    rw [WindowsProcesses.processParent, hparent q hq, Exec.ok_bind,
      WindowsProcesses.findProcessById_eq hvisits hid]
    cases procs.find? fun p => id p = parentId q with
    | none => rfl
    | some p => rfl
  refine ⟨fun p hp => ?_, fun q hq p hp hne => ?_, fun hnodup q hq => ?_⟩
  · rw [hchildren]
    exact (WindowsProcesses.visits_processForEachChild hvisits hparent (hid p hp)).pushTo_eq
  · rw [hparentOf q hq, hmem]
    constructor
    · intro h
      have hfound : (procs.find? fun p => id p = parentId q).getD q = p := Except.ok.inj h
      cases hfind : procs.find? fun p => id p = parentId q with
      | none =>
        rw [hfind] at hfound
        exact absurd hfound.symm hne
      | some p' =>
        rw [hfind] at hfound
        obtain rfl : p' = p := hfound
        have hpid : id p' = parentId q := by simpa using List.find?_some hfind
        exact ⟨⟨hq, hpid.symm⟩, by rw [hpid]; exact hfind⟩
    · rintro ⟨⟨-, hpid⟩, hfind⟩
      rw [hpid, hfind]
      rfl
  · cases hfind : procs.find? fun p => id p = parentId q with
    | some p =>
      have hp := List.mem_of_find?_eq_some hfind
      have hpid : id p = parentId q := by simpa using List.find?_some hfind
      refine .inl ⟨p, hp, by rw [hparentOf q hq, hfind]; rfl, fun p' hp' => ?_⟩
      rw [hmem]
      constructor
      · rintro ⟨-, hpid'⟩
        exact List.inj_on_of_nodup_map hnodup hp' hp (hpid'.symm.trans hpid.symm)
      · rintro rfl
        exact ⟨hq, hpid.symm⟩
    | none =>
      refine .inr ⟨by rw [hparentOf q hq, hfind]; rfl, fun p' hp' hchild => ?_⟩
      have hpid := ((hmem p' q).mp hchild).2
      exact absurd hpid.symm (by simpa using List.find?_eq_none.mp hfind p' hp')

/-- Of two processes the second is the child of the first, whose own parent is gone. -/
theorem processParent_iff_child_twoProcesses :
    Os.processCollectChildren (WindowsProcesses.twoProcesses.processForEachChild 3 ⟨16⟩)
        = .ok [⟨40⟩]
      ∧ WindowsProcesses.twoProcesses.processParent 3 ⟨40⟩ = .ok ⟨16⟩
      ∧ WindowsProcesses.twoProcesses.processParent 3 ⟨16⟩ = .ok ⟨16⟩ := by
  have hprocs : Os.processesAt 8 [24, 48] = [⟨16⟩, ⟨40⟩] := by decide
  have hids := WindowsProcesses.processId_twoProcesses
  obtain ⟨hcollect, hparent, hunique⟩ := processParent_iff_child WindowsProcesses.twoProcesses 8 8
    [24, 48] 3 _ _ (by decide) WindowsProcesses.isList_twoProcesses (by decide)
    (fun p hp => (hids p hp).1) (fun p hp => (hids p hp).2) _ fun _ => rfl
  rw [hprocs] at hcollect hparent hunique
  refine ⟨hcollect ⟨16⟩ (by decide), ?_, ?_⟩
  · exact (hparent ⟨40⟩ (by decide) ⟨16⟩ (by decide) (by decide)).mpr ⟨by decide, by decide⟩
  · obtain ⟨p, hp, -, honly⟩ | ⟨hself, -⟩ := hunique (by decide) ⟨16⟩ (by decide)
    · exact absurd ((honly p hp).mpr rfl) (by revert p; decide)
    · exact hself

end Parents
