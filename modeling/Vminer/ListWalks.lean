import Vminer.CurrentThread
import Vminer.Windows

/-!
# The walks along the lists of a guest

Both kernels keep their objects in circular lists that go through a field of each of
them, and through a head that is in none. `iterate_list` follows the pointers from the
head on, and hands what is around each link to a callback.

A list is given by its links, which all differ. Where the pointer of the last one cannot
be read, what is behind it is not known, and the error ends the walk. What the walk does
with its elements (`handOut`) is all there is to say of it, whatever the callback
does: the functions that collect processes or look for one see each of them once
(`iterateList_visits`).
-/

/-! ## Walks -/

section Walks

variable {σ α β : Type}

/-- **What a walk does with its items**: they are handed to the callback one after the
other, until it breaks the walk off or returns an error. Behind the last one the memory
may be broken. -/
def handOut (f : Callback σ α) (items : List α) (broken : Option VmError) (s : σ) :
    Exec VmError σ := do
  match ← forEach f items s with
  | (.Break, s) => return s
  | (.Continue, s) => broken.elim (return s) Exec.fail

/-- **A walk visits these items** and no others, whatever it is used for. -/
def Visits (walk : (σ : Type) → Callback σ α → σ → Exec VmError σ) (items : List α)
    (broken : Option VmError) : Prop :=
  ∀ σ f s, walk σ f s = handOut f items broken s

/-- `push_to`: the callback that collects the items. -/
def pushTo : Callback (List α) α := fun item items => return (.Continue, items ++ [item])

/-- `Os::collect_processes` -/
def Os.collectProcesses
    (forEachProcess : Callback (List Os.Process) Os.Process → List Os.Process →
      Exec VmError (List Os.Process)) : Exec VmError (List Os.Process) :=
  forEachProcess pushTo []

/-- `Os::process_collect_children` -/
def Os.processCollectChildren
    (processForEachChild : Callback (List Os.Process) Os.Process → List Os.Process →
      Exec VmError (List Os.Process)) : Exec VmError (List Os.Process) :=
  processForEachChild pushTo []

/-- `Os::find_process_by_id` -/
def Os.findProcessById
    (forEachProcess : Callback (Option Os.Process) Os.Process → Option Os.Process →
      Exec VmError (Option Os.Process))
    (processId : Os.Process → Exec VmError U64) (pid : U64) : Exec VmError (Option Os.Process) :=
  forEachProcess (find fun p => do
    let id ← processId p
    return id = pid) none

variable {walk : (σ : Type) → Callback σ α → σ → Exec VmError σ} {items : List α}
  {broken : Option VmError}

/-- An item, and then the others. -/
theorem handOut_cons (f : Callback σ α) (a : α) (items : List α) (broken : Option VmError)
    (s : σ) :
    handOut f (a :: items) broken s = f a s >>= fun
      | (.Break, s) => return s
      | (.Continue, s) => handOut f items broken s := by
  rw [handOut, forEach, ControlFlow.andThen]
  rcases f a s with e | ⟨_ | _, s'⟩
  · rfl
  · rfl
  · rfl

/-- Whoever collects the items has all of them. -/
theorem Visits.pushTo_eq (h : Visits walk items broken) :
    walk _ pushTo [] = broken.elim (.ok items) Exec.fail := by
  have hpush : forEach pushTo (items.map id) [] = .ok (.Continue, [] ++ items.map id) :=
    forEach_push id id (fun _ _ _ => rfl) []
  rw [List.map_id, List.nil_append] at hpush
  rw [h, handOut, hpush]
  rfl

/-- Whoever looks for an item finds the first one. -/
theorem Visits.find_eq (h : Visits walk items broken) {predicate : α → Exec VmError Bool}
    {p : α → Bool} (hp : ∀ a ∈ items, predicate a = .ok (p a)) :
    walk _ (find predicate) none = match items.find? p with
      | some a => .ok (some a)
      | none => broken.elim (.ok none) Exec.fail := by
  have hfind := forEach_find predicate id items hp none
  rw [List.map_id] at hfind
  rw [h, handOut, hfind]
  cases items.find? p <;> rfl

/-- A walk that hands out something of each item. -/
theorem Visits.map (h : Visits walk items broken) (g : α → β) :
    Visits (fun σ f s => walk σ (fun a => f (g a)) s) (items.map g) broken := by
  intro σ f s
  refine (h σ _ s).trans ?_
  rw [handOut, handOut, forEach_map]

/-- A walk that passes over some of the items. -/
theorem Visits.filter (h : Visits walk items broken)
    {g : (σ : Type) → Callback σ α → Callback σ α} {p : α → Bool}
    (hg : ∀ σ f, ∀ a ∈ items, ∀ s, g σ f a s = if p a then f a s else .ok (.Continue, s)) :
    Visits (fun σ f s => walk σ (g σ f) s) (items.filter p) broken := by
  intro σ f s
  have hfilter := forEach_filter (f := f) id (hg σ f) s
  rw [List.map_id] at hfilter
  refine (h σ _ s).trans ?_
  rw [handOut, handOut, hfilter]

end Walks

/-! ## Lists -/

/-- **A list in memory**, as far as it can be read: the links from the head on, which all
differ, each at its place in an element. Behind the last one is the head again, or a
pointer that cannot be read. -/
structure Pointer.IsList (readMemory : ReadMemory) (layouts : Layouts)
    (next link : StructField) (head : VirtualAddress) (offset : U64)
    (links : List VirtualAddress) (broken : Option VmError) : Prop where
  offset_eq : link.offset layouts = .ok offset
  distinct : (head :: links).Nodup
  linked : (head :: links).IsChain fun p q =>
    Pointer.readPointerField readMemory layouts p next = .ok q
  last : Pointer.readPointerField readMemory layouts
    ((head :: links).getLast (List.cons_ne_nil head links)) next
      = broken.elim (.ok head) Exec.fail
  inside : ∀ l ∈ links, offset.toNat ≤ l.toNat

/-- The elements around some links. -/
def Pointer.elements (offset : U64) (links : List VirtualAddress) : List VirtualAddress :=
  links.map (· - offset)

section Lists

variable {readMemory : ReadMemory} {layouts : Layouts} {next link : StructField}
  {head : VirtualAddress} {offset : U64} {links : List VirtualAddress} {broken : Option VmError}

/-- The loop of `iterate_list`, from a position on. -/
theorem Pointer.iterateListFrom_eq_handOut {σ : Type} (f : Callback σ VirtualAddress)
    {pos : VirtualAddress}
    (hlinked : (pos :: links).IsChain fun p q =>
      Pointer.readPointerField readMemory layouts p next = .ok q)
    (hlast : Pointer.readPointerField readMemory layouts
      ((pos :: links).getLast (List.cons_ne_nil pos links)) next
        = broken.elim (.ok head) Exec.fail)
    (hne : ∀ l ∈ links, l ≠ head) (hinside : ∀ l ∈ links, offset.toNat ≤ l.toNat) {fuel : ℕ}
    (hfuel : links.length < fuel) (s : σ) :
    iterateListFrom readMemory layouts next head offset f fuel pos s
      = handOut f (elements offset links) broken s := by
  induction links generalizing pos fuel s with
  | nil =>
    obtain ⟨fuel, rfl⟩ := Nat.exists_eq_add_one.mpr hfuel
    rw [List.getLast_singleton] at hlast
    rw [iterateListFrom, hlast]
    cases broken with
    | none => exact if_pos rfl
    | some e => rfl
  | cons l links ih =>
    obtain ⟨fuel, rfl⟩ := Nat.exists_eq_add_one.mpr (Nat.zero_lt_of_lt hfuel)
    obtain ⟨hread, hlinked⟩ := List.isChain_cons_cons.mp hlinked
    obtain ⟨hl, hne⟩ := List.forall_mem_cons.mp hne
    obtain ⟨hle, hinside⟩ := List.forall_mem_cons.mp hinside
    rw [List.getLast_cons_cons] at hlast
    rw [iterateListFrom, hread, Exec.ok_bind, if_neg hl, checkedSub_eq_ok hle, Exec.ok_bind,
      elements, List.map_cons, handOut_cons]
    refine congrArg (f (l - offset) s >>= ·) (funext fun res => ?_)
    obtain ⟨_ | _, s'⟩ := res
    · exact ih hlinked hlast hne hinside (Nat.lt_of_succ_lt_succ hfuel) s'
    · rfl

namespace Pointer.IsList

/-- **`iterate_list` visits the elements.** -/
theorem visits (h : IsList readMemory layouts next link head offset links broken) {fuel : ℕ}
    (hfuel : links.length < fuel) :
    Visits (fun _ f s => Pointer.iterateList readMemory layouts next link fuel head f s)
      (elements offset links) broken := by
  intro σ f s
  have hne := (List.nodup_cons.mp h.distinct).1
  dsimp only
  rw [iterateList, h.offset_eq, Exec.ok_bind]
  exact iterateListFrom_eq_handOut f h.linked h.last (fun l hl => ne_of_mem_of_not_mem hl hne)
    h.inside hfuel s

/-- The elements differ, as their links do. -/
theorem nodup_elements (h : IsList readMemory layouts next link head offset links broken) :
    (elements offset links).Nodup :=
  (List.nodup_cons.mp h.distinct).2.map fun _ _ => sub_left_inj.mp

end Pointer.IsList

end Lists

/-! ## Processes -/

section Processes

variable {B : Type} [Memory B] {σ : Type}

/-- `Linux::process_id` -/
def Linux.processId [HasVcpus B] (linux : Linux B) (proc : Os.Process) : Exec VmError U64 := do
  let pid ← linux.readField Layout.u32 proc.addr (taskStruct "tgid")
  return pid.setWidth 64

/-- `Linux::process_for_each_child` -/
def Linux.processForEachChild [HasVcpus B] (linux : Linux B) (fuel : ℕ) (proc : Os.Process)
    (f : Callback σ Os.Process) (s : σ) : Exec VmError σ := do
  let head ← Pointer.field linux.layouts proc.addr (taskStruct "children")
  linux.iterateList (taskStruct "sibling") fuel head (fun child => f ⟨child⟩) s

/-- **`Windows`, with what its processes are found by**: a symbol of the profile. -/
structure WindowsProcesses (B : Type) extends Windows B where
  psActiveProcessHead : U64

namespace WindowsProcesses

variable [HasVcpus B] (windows : WindowsProcesses B)

/-- `Windows::process_id` -/
def processId (proc : Os.Process) : Exec VmError U64 :=
  Pointer.readField windows.readKernelMemory windows.layouts Layout.u64 proc.addr
    (Windows.eprocess "UniqueProcessId")

/-- `Windows::process_parent_id` -/
def processParentId (proc : Os.Process) : Exec VmError U64 :=
  Pointer.readField windows.readKernelMemory windows.layouts Layout.u64 proc.addr
    (Windows.eprocess "InheritedFromUniqueProcessId")

/-- `Windows::for_each_process` -/
def forEachProcess (fuel : ℕ) (f : Callback σ Os.Process) (s : σ) : Exec VmError σ := do
  let head ← checkedAdd windows.baseAddr windows.psActiveProcessHead
  windows.iterateList windows.readKernelMemory (Windows.eprocess "ActiveProcessLinks") fuel head
    (fun proc => f ⟨proc⟩) s

/-- `Windows::process_for_each_child` -/
def processForEachChild (fuel : ℕ) (proc : Os.Process) (f : Callback σ Os.Process) (s : σ) :
    Exec VmError σ := do
  let pid ← windows.processId proc
  windows.forEachProcess fuel (fun proc s => do
    let parent ← windows.processParentId proc
    if parent = pid then f proc s else return (.Continue, s)) s

end WindowsProcesses

/-- The processes around some links. -/
def Os.processesAt (offset : U64) (links : List VirtualAddress) : List Os.Process :=
  (Pointer.elements offset links).map Os.Process.mk

/-- **The processes are seen, each of them once**: they differ, the walk visits them and
no others, all of them are collected, and the first one with an identifier is found. -/
structure Os.SeesProcesses
    (forEachProcess : (σ : Type) → Callback σ Os.Process → σ → Exec VmError σ)
    (processId : Os.Process → Exec VmError U64) (procs : List Os.Process)
    (broken : Option VmError) : Prop where
  distinct : procs.Nodup
  visits : Visits forEachProcess procs broken
  collect : Os.collectProcesses (forEachProcess _) = broken.elim (.ok procs) Exec.fail
  find : ∀ id : Os.Process → U64, (∀ p ∈ procs, processId p = .ok (id p)) → ∀ pid,
    Os.findProcessById (forEachProcess _) processId pid
      = match procs.find? fun p => id p = pid with
        | some p => .ok (some p)
        | none => broken.elim (.ok none) Exec.fail

variable {readMemory : ReadMemory} {layouts : Layouts} {next link : StructField}
  {head : VirtualAddress} {offset : U64} {links : List VirtualAddress} {broken : Option VmError}

/-- A list of processes is visited. -/
theorem Pointer.IsList.visits_processes
    (h : IsList readMemory layouts next link head offset links broken) {fuel : ℕ}
    (hfuel : links.length < fuel) :
    Visits (fun _ (f : Callback _ Os.Process) s =>
        Pointer.iterateList readMemory layouts next link fuel head (fun proc => f ⟨proc⟩) s)
      (Os.processesAt offset links) broken :=
  (h.visits hfuel).map Os.Process.mk

/-- The processes differ. -/
theorem Pointer.IsList.nodup_processesAt
    (h : IsList readMemory layouts next link head offset links broken) :
    (Os.processesAt offset links).Nodup :=
  h.nodup_elements.map fun _ _ => congrArg Os.Process.addr

/-- **A walk that visits some processes is enough** to see each of them once. -/
theorem Os.seesProcesses_of_visits
    {forEachProcess : (σ : Type) → Callback σ Os.Process → σ → Exec VmError σ}
    (processId : Os.Process → Exec VmError U64) {procs : List Os.Process} (hnodup : procs.Nodup)
    (h : Visits forEachProcess procs broken) :
    Os.SeesProcesses forEachProcess processId procs broken where
  distinct := hnodup
  visits := h
  collect := h.pushTo_eq
  find id hid pid := by
    have hpred : ∀ p ∈ procs, (do
        let id ← processId p
        return id = pid : Exec VmError Bool) = .ok (id p = pid) := by
      intro p hp
      rw [hid p hp]
      rfl
    rw [Os.findProcessById, h.find_eq hpred]
    cases procs.find? fun p => id p = pid <;> rfl

/-- **A list is walked from its head back to it.** Each element is handed to the callback
once, in the order of the links, up to the first one at which the callback breaks the walk
off or returns an error; a pointer that cannot be read is the error behind the elements
before it. So all processes of a list are collected, and all children of a process, and
one is looked for among them. -/
theorem iterateList_visits {B' : Type} [HasVcpus.Methods B] [Memory B'] [HasVcpus B']
    (linux : LinuxTasks B) (windows : WindowsProcesses B') :
    (∀ link head offset links broken fuel,
      Pointer.IsList linux.readKernelMemory linux.layouts (Linux.listHead "next") link head offset
        links broken → links.length < fuel →
      (Pointer.elements offset links).Nodup
        ∧ Visits (fun _ f s => linux.iterateList link fuel head f s)
          (Pointer.elements offset links) broken)
    ∧ (∀ readMemory link head offset links broken fuel,
      Pointer.IsList readMemory windows.layouts (Windows.listEntry "Flink") link head offset links
        broken → links.length < fuel →
      (Pointer.elements offset links).Nodup
        ∧ Visits (fun _ f s => windows.iterateList readMemory link fuel head f s)
          (Pointer.elements offset links) broken)
    ∧ (∀ init head offset links broken fuel, linux.initProcess = .ok init →
      Pointer.field linux.layouts init.addr (Linux.taskStruct "tasks") = .ok head →
      Pointer.IsList linux.readKernelMemory linux.layouts (Linux.listHead "next")
        (Linux.taskStruct "tasks") head offset links broken → links.length < fuel →
      Os.SeesProcesses (fun _ f s => linux.forEachProcess fuel f s) linux.processId
        (Os.processesAt offset links) broken)
    ∧ (∀ proc head offset links broken fuel,
      Pointer.field linux.layouts proc.addr (Linux.taskStruct "children") = .ok head →
      Pointer.IsList linux.readKernelMemory linux.layouts (Linux.listHead "next")
        (Linux.taskStruct "sibling") head offset links broken → links.length < fuel →
      (Os.processesAt offset links).Nodup
        ∧ Os.processCollectChildren (linux.processForEachChild fuel proc)
          = broken.elim (.ok (Os.processesAt offset links)) Exec.fail)
    ∧ ∀ head offset links broken fuel,
      checkedAdd windows.baseAddr windows.psActiveProcessHead = (.ok head : Exec VmError _) →
      Pointer.IsList windows.readKernelMemory windows.layouts (Windows.listEntry "Flink")
        (Windows.eprocess "ActiveProcessLinks") head offset links broken → links.length < fuel →
      Os.SeesProcesses (fun _ f s => windows.forEachProcess fuel f s) windows.processId
          (Os.processesAt offset links) broken
        ∧ ∀ proc pid (parent : Os.Process → U64), windows.processId proc = .ok pid →
          (∀ p ∈ Os.processesAt offset links, windows.processParentId p = .ok (parent p)) →
          Os.processCollectChildren (windows.processForEachChild fuel proc)
            = broken.elim (.ok ((Os.processesAt offset links).filter fun p => parent p = pid))
              Exec.fail := by
  refine ⟨fun link head offset links broken fuel h hfuel => ⟨h.nodup_elements, h.visits hfuel⟩,
    fun readMemory link head offset links broken fuel h hfuel =>
      ⟨h.nodup_elements, h.visits hfuel⟩, ?_, ?_, ?_⟩
  · intro init head offset links broken fuel hinit hhead h hfuel
    refine Os.seesProcesses_of_visits _ h.nodup_processesAt fun σ f s => ?_
    show LinuxTasks.forEachProcess linux fuel f s = _
    rw [LinuxTasks.forEachProcess, hinit, Exec.ok_bind, hhead]
    exact h.visits_processes hfuel σ f s
  · intro proc head offset links broken fuel hhead h hfuel
    refine ⟨h.nodup_processesAt, ?_⟩
    rw [Os.processCollectChildren, Linux.processForEachChild, hhead]
    exact (h.visits_processes hfuel).pushTo_eq
  · intro head offset links broken fuel hhead h hfuel
    have hvisits : Visits (fun _ f s => windows.forEachProcess fuel f s)
        (Os.processesAt offset links) broken := by
      intro σ f s
      show WindowsProcesses.forEachProcess windows fuel f s = _
      rw [WindowsProcesses.forEachProcess, hhead]
      exact h.visits_processes hfuel σ f s
    refine ⟨Os.seesProcesses_of_visits _ h.nodup_processesAt hvisits, ?_⟩
    intro proc pid parent hpid hparent
    rw [Os.processCollectChildren, WindowsProcesses.processForEachChild, hpid]
    refine (hvisits.filter (g := fun _ f proc s => do
      let parent ← windows.processParentId proc
      if parent = pid then f proc s else return (.Continue, s))
      (p := fun p => parent p = pid) fun σ f p hp s => ?_).pushTo_eq
    rw [hparent p hp, Exec.ok_bind]
    simp only [decide_eq_true_eq]
    rfl

end Processes

/-! ## Guests with two processes -/

/-- A guest whose list has two processes: the one at 16 has the identifier 7 and its parent is
gone, the one at 40 is its child, with the identifier 9. -/
def WindowsProcesses.twoProcesses : WindowsProcesses (DumbDump RawMemory) where
  backend := .ofWords [0x83, 24, 7, 48, 1, 9, 8, 7]
  kpgd := 0
  baseAddr := 0
  layouts := fun name =>
    if name = "_LIST_ENTRY" then some fun field => if field = "Flink" then some 0 else none
    else if name = "_EPROCESS" then some fun field =>
      if field = "UniqueProcessId" then some 0
      else if field = "ActiveProcessLinks" then some 8
      else if field = "InheritedFromUniqueProcessId" then some 16
      else none
    else none
  psLoadedModuleList := 0
  unswizzleMask := ~~~ 0
  psActiveProcessHead := 8

/-- The list is one. -/
theorem WindowsProcesses.isList_twoProcesses :
    Pointer.IsList twoProcesses.readKernelMemory twoProcesses.layouts (Windows.listEntry "Flink")
      (Windows.eprocess "ActiveProcessLinks") 8 8 [24, 48] none where
  offset_eq := by decide
  distinct := by decide
  linked := List.isChain_cons_cons.mpr
    ⟨by decide +kernel, List.isChain_pair.mpr (by decide +kernel)⟩
  last := by
    show Pointer.readPointerField _ _ 48 _ = .ok 8
    decide +kernel
  inside := by simp

/-- The identifiers of its processes, and of their parents. -/
theorem WindowsProcesses.processId_twoProcesses :
    ∀ p ∈ Os.processesAt 8 [24, 48],
      twoProcesses.processId p = .ok (if p = ⟨16⟩ then 7 else 9)
        ∧ twoProcesses.processParentId p = .ok (if p = ⟨16⟩ then 1 else 7) := by
  intro p hp
  obtain rfl | rfl : p = ⟨16⟩ ∨ p = ⟨40⟩ := by simpa [Os.processesAt, Pointer.elements] using hp
  · decide +kernel
  · decide +kernel

/-- The list of tasks of the other guest is one, whatever it goes through. -/
theorem LinuxTasks.isList_twoTasks {link : StructField}
    (h : link.offset (twoTasks 0x1001).layouts = .ok 0) :
    Pointer.IsList (twoTasks 0x1001).readKernelMemory (twoTasks 0x1001).layouts
      (Linux.listHead "next") link 8 0 [16, 48] none where
  offset_eq := h
  distinct := by decide
  linked := List.isChain_cons_cons.mpr
    ⟨by decide +kernel, List.isChain_pair.mpr (by decide +kernel)⟩
  last := by
    show Pointer.readPointerField _ _ 48 _ = .ok 8
    decide +kernel
  inside := by simp

/-- **Their processes are seen**, up to where the callback stops. -/
theorem iterateList_visits_twoElements :
    Visits (fun _ f s =>
          (LinuxTasks.twoTasks 0x1001).iterateList (Linux.taskStruct "tasks") 3 8 f s)
        [16, 48] none
      ∧ Visits (fun _ f s => WindowsProcesses.twoProcesses.iterateList
          WindowsProcesses.twoProcesses.readKernelMemory (Windows.eprocess "ActiveProcessLinks") 3 8
          f s) [16, 40] none
      ∧ WindowsProcesses.twoProcesses.iterateList WindowsProcesses.twoProcesses.readKernelMemory
          (Windows.eprocess "ActiveProcessLinks") 3 8
          (fun addr seen => .ok (.Break, seen ++ [addr])) [] = .ok [16]
      ∧ Os.collectProcesses ((LinuxTasks.twoTasks 0x1001).forEachProcess 3) = .ok [⟨16⟩, ⟨48⟩]
      ∧ Os.processCollectChildren ((LinuxTasks.twoTasks 0x1001).processForEachChild 3 ⟨8⟩)
        = .ok [⟨16⟩, ⟨48⟩]
      ∧ Os.findProcessById (WindowsProcesses.twoProcesses.forEachProcess 3)
          WindowsProcesses.twoProcesses.processId 9 = .ok (some ⟨40⟩)
      ∧ Os.processCollectChildren (WindowsProcesses.twoProcesses.processForEachChild 3 ⟨16⟩)
        = .ok [⟨40⟩] := by
  obtain ⟨hlinux, hwindows, htasks, hchildren, hprocs⟩ :=
    iterateList_visits (LinuxTasks.twoTasks 0x1001) WindowsProcesses.twoProcesses
  have htask :=
    LinuxTasks.isList_twoTasks (show (Linux.taskStruct "tasks").offset _ = .ok 0 by decide)
  have hsibling :=
    LinuxTasks.isList_twoTasks (show (Linux.taskStruct "sibling").offset _ = .ok 0 by decide)
  have hids := WindowsProcesses.processId_twoProcesses
  obtain ⟨hseen, hchild⟩ := hprocs 8 8 [24, 48] none 3 (by decide)
    WindowsProcesses.isList_twoProcesses (by decide)
  have hvisits := (hwindows WindowsProcesses.twoProcesses.readKernelMemory _ 8 8 [24, 48] none 3
    WindowsProcesses.isList_twoProcesses (by decide)).2
  exact ⟨(hlinux _ 8 0 [16, 48] none 3 htask (by decide)).2, hvisits, hvisits _ _ _,
    (htasks ⟨8⟩ 8 0 [16, 48] none 3 (by decide +kernel) (by decide +kernel) htask
      (by decide)).collect,
    (hchildren ⟨8⟩ 8 0 [16, 48] none 3 (by decide +kernel) hsibling (by decide)).2,
    hseen.find _ (fun p hp => (hids p hp).1) 9,
    hchild ⟨16⟩ 7 _ (by decide +kernel) fun p hp => (hids p hp).2⟩
