import Vminer.LinuxCallstack
import Vminer.ListWalks
import Vminer.OsBuilder
import Vminer.WindowsSymbols

/-!
# How a Windows guest is recognised, and how the system of a guest is guessed

A kernel of Windows is an image, which begins with `MZ` at a page, and its record of debugging
information names the database `ntkrnlmp.pdb`. The tool goes over the places where `MZ` is in
what the page tables map, in order, and takes the first page whose image is such a kernel
(`findKernel_eq_ok_iff`). The identifier in the record leads to the symbols, unless the index
has a module of that name already.

For a guest whose system is not told, both systems are checked for, Linux first. A guest that
passes is built from what the check found (`Os.new_eq_ok_iff`).
-/

/-! ## The profile of Windows -/

/-- `FastSymbols` -/
structure Windows.FastSymbols where
  kiImplementedPhysicalBits : Option U64
  psActiveProcessHead : U64
  psLoadedModuleList : U64

/-- `Profile` -/
structure Windows.Profile where
  syms : Symbols.Indexer
  fastSyms : Windows.FastSymbols
  layouts : Layouts

/-- `Profile::new` -/
def Windows.Profile.new (syms : Symbols.Indexer) : Exec VmError Windows.Profile := do
  let kernel ← syms.requireModule "ntoskrnl.exe"
  let kiImplementedPhysicalBits ←
    kernel.getAddress (Str.ofChars "KiImplementedPhysicalBits".toList)
  let psActiveProcessHead ← kernel.requireAddress "PsActiveProcessHead"
  let psLoadedModuleList ← kernel.requireAddress "PsLoadedModuleList"
  return {
    syms
    fastSyms := { kiImplementedPhysicalBits, psActiveProcessHead, psLoadedModuleList }
    layouts := Layouts.ofModule kernel }

/-- **`Windows`**, with its symbols and what loads those of modules. -/
structure WindowsGuest (B : Type) extends WindowsProcesses B where
  syms : Symbols.Indexer
  symbolsLoader : Symbols.Loader

namespace Windows

variable {B : Type} [Backend.Methods B]

/-! ## Finding the kernel -/

/-- `KERNEL_PDB` -/
def kernelPdb : List UInt8 :=
  [0x6e, 0x74, 0x6b, 0x72, 0x6e, 0x6c, 0x6d, 0x70, 0x2e, 0x70, 0x64, 0x62, 0]

/-- `KERNEL_PDB_STR` -/
def kernelPdbStr : String := "ntkrnlmp.pdb"

/-- `b"MZ"` -/
def mz : List UInt8 := [0x4d, 0x5a]

/-- `SizeOfImage`, as `PeFile64::parse` finds it in the first page of an image. -/
abbrev ImageSize : Type := List UInt8 → Exec VmError U32

/-- `pe_get_pdb_guid`, for an image whose size its headers tell. -/
def peGetPdbGuidOfHeaders (sizeOfImage : ImageSize) (tryReadMemory : TryRead)
    (addr : VirtualAddress) : Exec VmError (Option Codeview) := do
  let page ← tryReadMemory addr (List.replicate 0x1000 0)
  let size ← sizeOfImage page
  peGetPdbGuidFrom tryReadMemory addr ((size.toNat + 0xfff) / 0x1000) 0
    (List.replicate 8 0 ++ page)

/-- `find_kernel_pgd` -/
def findKernelPgd (backend : B) : Exec VmError PhysicalAddress :=
  withContext "could not find kernel PGD"
    (Backend.Methods.findKernelPgd backend false [0xfffff78000000000])

/-- The body of the loop of `find_kernel`: an error is as good as no record. -/
def kernelAt (sizeOfImage : ImageSize) (backend : B) (kpgd : PhysicalAddress)
    (addr : VirtualAddress) : Exec VmError (Option (String × VirtualAddress)) := do
  match ← Exec.discardErr (peGetPdbGuidOfHeaders sizeOfImage
      (tryReadPages (Backend.Methods.readVirtualMemory backend kpgd)) addr) with
  | some (some codeview) =>
    if kernelPdb <+: codeview.name then return some (codeview.pdbId, addr) else return none
  | _ => return none

/-- The loop of `find_kernel`. It ends with the first error of the iterator. -/
def findKernelFrom (sizeOfImage : ImageSize) (backend : B) (kpgd : PhysicalAddress) :
    ℕ → KernelSearchIterator → Exec VmError (Option (String × VirtualAddress))
  | 0, _ => Exec.outOfFuel
  | fuel + 1, it =>
    match it.next backend with
    | .ok (some (.ok addr), it) => do
      if addr &&& 0xfff = 0 then
        match ← kernelAt sizeOfImage backend kpgd addr with
        | some kernel => return some kernel
        | none => findKernelFrom sizeOfImage backend kpgd fuel it
      else findKernelFrom sizeOfImage backend kpgd fuel it
    | .ok _ => return none
    | .error .panic => Exec.panicked
    | .error _ => Exec.outOfFuel

/-- `find_kernel` -/
def findKernel (sizeOfImage : ImageSize) (fuel : ℕ) (backend : B) (kpgd : PhysicalAddress) :
    Exec VmError (Option (String × VirtualAddress)) :=
  findKernelFrom sizeOfImage backend kpgd fuel
    (iterInKernelMemory (Architecture.intoRuntime (HasVcpus.arch backend)) kpgd mz)

/-! ## Building Windows -/

/-- `Windows::quick_check` -/
def quickCheck (sizeOfImage : ImageSize) (fuel : ℕ) (backend : B) :
    Exec VmError (Option OsBuilder) := do
  match ← Exec.discardErr (findKernelPgd backend) with
  | none => return none
  | some kpgd =>
    match ← Exec.discardErr (findKernel sizeOfImage fuel backend kpgd) with
    | some (some (pdbId, kaslr)) =>
      return some { OsBuilder.new with
        kpgd := some kpgd, kaslr := some kaslr, version := some pdbId }
    | _ => return none

/-- The page directory of `Windows::build`. -/
def buildKpgd (backend : B) (builder : OsBuilder) : Exec VmError PhysicalAddress :=
  match builder.kpgd with
  | some kpgd => return kpgd
  | none => findKernelPgd backend

/-- The kernel of `Windows::build`. -/
def buildKernel (sizeOfImage : ImageSize) (fuel : ℕ) (backend : B) (kpgd : PhysicalAddress)
    (builder : OsBuilder) : Exec VmError (String × VirtualAddress) :=
  match builder.kaslr with
  | some kaslr => do
    let pdbId ← Exec.okOr builder.version (VmError.new "missing version")
    return (pdbId, kaslr)
  | none => do
    let found ← withContext "failed to find kernel data"
      (findKernel sizeOfImage fuel backend kpgd)
    Exec.okOr found (VmError.new "failed to find kernel data")

/-- The mask of `Windows::build`: without the bit above the addresses that are implemented. -/
def maskOfBits (bits : U64) : Exec VmError U64 :=
  if bits = 0 then return BitVec.allOnes 64
  else if bits.toNat - 1 < 64 then return ~~~((1 : U64) <<< (bits.toNat - 1))
  -- the shift overflows
  else Exec.panicked

/-- How many bits an address has, as the kernel knows it. -/
def implementedBits (backend : B) (kpgd : PhysicalAddress) (baseAddr : VirtualAddress)
    (fastSyms : FastSymbols) : Exec VmError U64 :=
  match fastSyms.kiImplementedPhysicalBits with
  | some bits => do
    let addr ← checkedAdd baseAddr bits
    Exec.mapErr TranslationError.toVm
      (Backend.Methods.readValueVirtual backend Layout.u64 kpgd addr)
  | none => return 0

/-- `Windows::build`, from where the kernel is known. -/
def buildAt (backend : B) (loader : Exec VmError Symbols.Loader) (symbols : Symbols.Indexer)
    (kpgd : PhysicalAddress) (pdbId : String) (baseAddr : VirtualAddress) :
    Exec VmError (WindowsGuest B) := do
  let symbolsLoader ← loader
  let loaded := symbols.loadModule "ntoskrnl.exe" fun _ => symbolsLoader kernelPdbStr pdbId
  let _ ← loaded.1
  let profile ← Profile.new loaded.2
  let bits ← implementedBits backend kpgd baseAddr profile.fastSyms
  let unswizzleMask ← maskOfBits bits
  return {
    backend
    kpgd
    baseAddr
    layouts := profile.layouts
    psLoadedModuleList := profile.fastSyms.psLoadedModuleList
    unswizzleMask
    psActiveProcessHead := profile.fastSyms.psActiveProcessHead
    syms := profile.syms
    symbolsLoader }

/-- `Windows::build` -/
def build (sizeOfImage : ImageSize) (fuel : ℕ) (backend : B)
    (defaultLoader : Exec VmError Symbols.Loader) (builder : OsBuilder) :
    Exec VmError (WindowsGuest B) := do
  let kpgd ← buildKpgd backend builder
  let (pdbId, baseAddr) ← buildKernel sizeOfImage fuel backend kpgd builder
  buildAt backend (Linux.buildLoader defaultLoader builder) (builder.symbols.getD OnceMap.new)
    kpgd pdbId baseAddr

/-- `Windows::create` -/
def create (sizeOfImage : ImageSize) (fuel : ℕ) (backend : B)
    (defaultLoader : Exec VmError Symbols.Loader) (symbols : Symbols.Indexer) :
    Exec VmError (WindowsGuest B) :=
  build sizeOfImage fuel backend defaultLoader (OsBuilder.new.withSymbols symbols)

end Windows

/-! ## Guessing the system -/

/-- A guest of one of the systems: `Os`. -/
inductive Os.Guest (B : Type) where
  | linux (linux : LinuxGuest B)
  | windows (windows : WindowsGuest B)

/-- `Os::new` -/
def Os.new {B : Type} [Backend.Methods B] (sizeOfImage : Windows.ImageSize) (fuel : ℕ)
    (backend : B) (linuxLoader windowsLoader : Exec VmError Symbols.Loader)
    (symbols : Symbols.Indexer) : Exec VmError (Os.Guest B) := do
  match ← Linux.quickCheck backend with
  | some builder =>
    let linux ← Linux.build backend linuxLoader (builder.withSymbols symbols)
    return .linux linux
  | none =>
    match ← Windows.quickCheck sizeOfImage fuel backend with
    | some builder =>
      let windows ← Windows.build sizeOfImage fuel backend windowsLoader
        (builder.withSymbols symbols)
      return .windows windows
    | none => Exec.fail (VmError.ofStr "Failed to guess host OS")

/-! ## The first kernel -/

/-- The first of some sorted values for which a function gives something. -/
theorem findSomeM?_eq_some_iff_of_sorted {ε α β : Type} {r : α → α → Prop}
    (hasymm : ∀ a b, r a b → ¬ r b a) {f : α → Exec ε (Option β)} {l : List α}
    (hsorted : l.Pairwise r) (b : β) :
    l.findSomeM? f = .ok (some b)
      ↔ ∃ a ∈ l, f a = .ok (some b) ∧ ∀ x ∈ l, r x a → f x = .ok none := by
  induction l with
  | nil =>
    refine iff_of_false (fun h => by cases h) fun h => ?_
    obtain ⟨a, ha, -⟩ := h
    exact absurd ha List.not_mem_nil
  | cons a l ih =>
    obtain ⟨hfirst, hrest⟩ := List.pairwise_cons.mp hsorted
    rw [List.findSomeM?, Exec.bind_eq_ok_iff]
    constructor
    · rintro ⟨r, hr, h⟩
      cases r with
      | some b' =>
        obtain rfl := Option.some.inj (Except.ok.inj h)
        refine ⟨a, List.mem_cons_self, hr, fun x hx hlt => ?_⟩
        obtain rfl | hx := List.mem_cons.mp hx
        · exact absurd hlt (hasymm x x hlt)
        · exact absurd hlt (hasymm a x (hfirst x hx))
      | none =>
        obtain ⟨a', ha', hfound, hbefore⟩ := (ih hrest).mp h
        refine ⟨a', List.mem_cons_of_mem _ ha', hfound, fun x hx hlt => ?_⟩
        obtain rfl | hx := List.mem_cons.mp hx
        · exact hr
        · exact hbefore x hx hlt
    · rintro ⟨a', ha', hfound, hbefore⟩
      obtain rfl | ha' := List.mem_cons.mp ha'
      · exact ⟨some b, hfound, rfl⟩
      · refine ⟨none, hbefore a List.mem_cons_self (hfirst a' ha'), (ih hrest).mpr ?_⟩
        exact ⟨a', ha', hfound, fun x hx => hbefore x (List.mem_cons_of_mem _ hx)⟩

/-- None of some values gives anything. -/
theorem findSomeM?_eq_none_iff {ε α β : Type} {f : α → Exec ε (Option β)} {l : List α} :
    l.findSomeM? f = .ok none ↔ ∀ a ∈ l, f a = .ok none := by
  refine ⟨eq_none_of_findSomeM?_eq_none, fun h => ?_⟩
  rw [findSomeM?_eq_ok (g := fun _ => none) h]
  exact congrArg Except.ok (List.findSome?_eq_none_iff.mpr fun _ _ => rfl)

namespace Windows

variable {B : Type} [Backend.Methods B] {sizeOfImage : ImageSize} {backend : B}
  {kpgd : PhysicalAddress}

/-- The loop goes over the pages among the items of the iterator. -/
theorem findKernelFrom_eq (n : ℕ) {it : KernelSearchIterator} {l : List VirtualAddress}
    (h : it.collect backend n = .ok (l.map .ok)) :
    findKernelFrom sizeOfImage backend kpgd n it
      = (l.filter fun addr => addr &&& 0xfff = 0).findSomeM?
        (kernelAt sizeOfImage backend kpgd) := by
  induction n generalizing it l with
  | zero => cases h
  | succ n ih =>
    unfold KernelSearchIterator.collect at h
    unfold findKernelFrom
    rcases hnext : it.next backend with (e | - | -) | ⟨- | item, it'⟩
    · cases e
    · rw [hnext] at h
      cases h
    · rw [hnext] at h
      cases h
    · rw [hnext, Exec.ok_bind] at h
      have hnil : l.map (Except.ok : _ → Except VmError _) = [] := (Except.ok.inj h).symm
      rw [List.map_eq_nil_iff.mp hnil]
      rfl
    · rw [hnext, Exec.ok_bind] at h
      obtain ⟨items, hitems, hcons⟩ := (Exec.bind_eq_ok_iff _ _ _).mp h
      obtain ⟨addr, rest, rfl, hitem, hrest⟩ :=
        List.map_eq_cons_iff.mp (Except.ok.inj hcons).symm
      subst hitem hrest
      have hrun := ih hitems
      dsimp only
      by_cases haligned : addr &&& 0xfff = 0
      · rw [if_pos haligned, List.filter_cons_of_pos (by simpa using haligned), List.findSomeM?]
        cases kernelAt sizeOfImage backend kpgd addr with
        | error e => rfl
        | ok found =>
          rw [Exec.ok_bind, Exec.ok_bind]
          cases found with
          | none => exact hrun
          | some kernel => rfl
      · rw [if_neg haligned, List.filter_cons_of_neg (by simpa using haligned)]
        exact hrun

/-- **Where an image may be**: at a page that begins with `MZ`. -/
def IsImage (backend : B) (kpgd : PhysicalAddress) (addr : VirtualAddress) : Prop :=
  KernelHit (Linux.archOf backend) backend kpgd mz addr ∧ addr &&& 0xfff = 0

/-- **The kernel is the first image with its record.** -/
theorem findKernel_spec (hsearch : Linux.SearchesPages backend kpgd) {fuel : ℕ}
    (hfuel : 2 ^ 64 < fuel) :
    (∀ kernel, findKernel sizeOfImage fuel backend kpgd = .ok (some kernel)
        ↔ ∃ addr, IsImage backend kpgd addr
          ∧ kernelAt sizeOfImage backend kpgd addr = .ok (some kernel)
          ∧ ∀ addr' < addr, IsImage backend kpgd addr' →
            kernelAt sizeOfImage backend kpgd addr' = .ok none)
      ∧ (findKernel sizeOfImage fuel backend kpgd = .ok none
        ↔ ∀ addr, IsImage backend kpgd addr →
          kernelAt sizeOfImage backend kpgd addr = .ok none) := by
  obtain ⟨limit, hm, hpages⟩ := hsearch
  obtain ⟨l, hsorted, hmem, hrun⟩ := collect_of_not_last
    (iterInKernelMemory (Linux.archOf backend) kpgd mz)
    (hm ((1 <<< 21) + mz.length) (Nat.le_add_right _ _)) hpages (show mz ≠ [] by decide)
    (not_kernelHit_last (show 2 ≤ mz.length by decide)) _ (Or.inl rfl) le_rfl
  have heq : findKernel sizeOfImage fuel backend kpgd
      = (l.filter fun addr => addr &&& 0xfff = 0).findSomeM?
        (kernelAt sizeOfImage backend kpgd) :=
    findKernelFrom_eq fuel (hrun fuel (by omega))
  have hiff : ∀ addr, addr ∈ l.filter (fun addr => addr &&& 0xfff = 0)
      ↔ IsImage backend kpgd addr := fun addr => by
    rw [List.mem_filter, hmem, decide_eq_true_eq]
    exact and_congr_left' ⟨fun h => h.1, fun h => ⟨h, h.1⟩⟩
  rw [heq, findSomeM?_eq_none_iff]
  refine ⟨fun kernel => ?_, forall_congr' fun addr => by rw [hiff]⟩
  have hasymm : ∀ a b : VirtualAddress, a < b → ¬ b < a := fun a b hab hba =>
    absurd (BitVec.lt_def.mp hab) (BitVec.lt_def.mp hba).asymm
  rw [findSomeM?_eq_some_iff_of_sorted hasymm (hsorted.filter _)]
  simp only [hiff]
  exact exists_congr fun addr => and_congr_right fun _ => and_congr_right fun _ =>
    forall_congr' fun x => ⟨fun h hlt hx => h hx hlt, fun h hx hlt => h hlt hx⟩

variable {fuel : ℕ} {defaultLoader : Exec VmError Symbols.Loader} {symbols : Symbols.Indexer}

/-- Where the kernel is found, `create` goes on with it. -/
theorem create_of_findKernel {found : Exec VmError (Option (String × VirtualAddress))}
    (hpgd : findKernelPgd backend = .ok kpgd)
    (hfound : findKernel sizeOfImage fuel backend kpgd = found) :
    create sizeOfImage fuel backend defaultLoader symbols
      = (withContext "failed to find kernel data" found >>= fun found =>
          Exec.okOr found (VmError.new "failed to find kernel data")) >>= fun kernel =>
        buildAt backend defaultLoader symbols kpgd kernel.1 kernel.2 := by
  show (findKernelPgd backend >>= _) = _
  rw [hpgd, Exec.ok_bind, ← hfound]
  rfl

/-- **The quick check saves a search and nothing else**, as that of Linux. -/
theorem build_of_quickCheck {r : Option OsBuilder}
    (h : quickCheck sizeOfImage fuel backend = .ok r) :
    (∀ builder, r = some builder →
        build sizeOfImage fuel backend defaultLoader (builder.withSymbols symbols)
          = create sizeOfImage fuel backend defaultLoader symbols)
      ∧ (r = none → ∀ windows,
        create sizeOfImage fuel backend defaultLoader symbols ≠ .ok windows) := by
  -- where nothing is handed on, nothing is created
  have hends : ∀ stop, create sizeOfImage fuel backend defaultLoader symbols = .error stop →
      ∀ windows, create sizeOfImage fuel backend defaultLoader symbols ≠ .ok windows := by
    intro stop hstop windows hwindows
    rw [hstop] at hwindows
    cases hwindows
  unfold quickCheck at h
  rcases hpgd : findKernelPgd backend with (e | - | -) | kpgd
  · rw [hpgd] at h
    obtain rfl : none = r := Except.ok.inj h
    refine ⟨fun _ hr => (by cases hr), fun _ => hends (.err e) ?_⟩
    show (findKernelPgd backend >>= _) = _
    rw [hpgd]
    rfl
  · rw [hpgd] at h
    cases h
  · rw [hpgd] at h
    cases h
  · rw [hpgd] at h
    change (Exec.discardErr (findKernel sizeOfImage fuel backend kpgd) >>= _) = _ at h
    rcases hfound : findKernel sizeOfImage fuel backend kpgd with (e | - | -) | (- | ⟨pdbId, addr⟩)
    · rw [hfound] at h
      obtain rfl : none = r := Except.ok.inj h
      exact ⟨fun _ hr => (by cases hr), fun _ => hends _ (create_of_findKernel hpgd hfound)⟩
    · rw [hfound] at h
      cases h
    · rw [hfound] at h
      cases h
    · rw [hfound] at h
      obtain rfl : none = r := Except.ok.inj h
      exact ⟨fun _ hr => (by cases hr), fun _ => hends _ (create_of_findKernel hpgd hfound)⟩
    · rw [hfound] at h
      obtain rfl : some _ = r := Except.ok.inj h
      refine ⟨fun builder hr => ?_, fun hr => (by cases hr)⟩
      obtain rfl := Option.some.inj hr
      exact (create_of_findKernel hpgd hfound).symm

/-- What is created was handed on by the quick check. -/
theorem quickCheck_of_create {windows : WindowsGuest B}
    (h : create sizeOfImage fuel backend defaultLoader symbols = .ok windows) :
    ∃ builder, quickCheck sizeOfImage fuel backend = .ok (some builder) := by
  obtain ⟨kpgd, hpgd, -⟩ := (Exec.bind_eq_ok_iff _ _ _).mp h
  have hpgd : findKernelPgd backend = .ok kpgd := hpgd
  rw [create_of_findKernel hpgd rfl] at h
  obtain ⟨kernel, hkernel, -⟩ := (Exec.bind_eq_ok_iff _ _ _).mp h
  obtain ⟨found, hfound, hsome⟩ := (Exec.bind_eq_ok_iff _ _ _).mp hkernel
  obtain rfl := (Exec.okOr_eq_ok_iff _ _ _).mp hsome
  rw [quickCheck, hpgd]
  show ∃ builder, (Exec.discardErr (findKernel sizeOfImage fuel backend kpgd) >>= _) = _
  rw [(Exec.mapErr_eq_ok_iff _ _ _).mp hfound]
  exact ⟨_, rfl⟩

end Windows

/-- The symbols of that kernel. -/
def bareKernel : Exec VmError Symbols.Module :=
  Symbols.Module.fromBytes Linux.sortedMaps
    (Str.ofChars ("0000000000001000 D PsActiveProcessHead\n"
      ++ "0000000000002000 D PsLoadedModuleList\n").toList).bytes

section Guess

variable {B : Type} [Backend.Methods B] {backend : B} {defaultLoader : Exec VmError Symbols.Loader}
  {symbols : Symbols.Indexer}

/-- **A guest does not look like Linux**: no page directory is found, or the text of the banner
is nowhere in what it maps. -/
def Linux.NotFound (backend : B) : Prop :=
  (∃ e, Backend.Methods.findKernelPgd backend true [] = Exec.fail e)
    ∨ ∃ kpgd, Backend.Methods.findKernelPgd backend true [] = .ok kpgd
      ∧ ∀ va, ¬ KernelHit (Linux.archOf backend) backend kpgd Linux.bannerStart va

/-- **A guest does not look like Windows**: no page directory is found, or no image in what it
maps is a kernel. -/
def Windows.NotFound (sizeOfImage : Windows.ImageSize) (backend : B) : Prop :=
  (∃ e, Windows.findKernelPgd backend = Exec.fail e)
    ∨ ∃ kpgd, Windows.findKernelPgd backend = .ok kpgd
      ∧ ∀ addr, Windows.IsImage backend kpgd addr →
        Windows.kernelAt sizeOfImage backend kpgd addr = .ok none

/-- Linux is passed over where it is not found. -/
theorem Linux.quickCheck_eq_none_iff
    (hsearch : ∀ kpgd, Backend.Methods.findKernelPgd backend true [] = .ok kpgd →
      Linux.SearchesPages backend kpgd)
    (hdefault : Backend.Methods.findInKernelMemory backend
      = Backend.defaultFindInKernelMemory backend) :
    Linux.quickCheck backend = .ok none ↔ Linux.NotFound backend := by
  unfold Linux.quickCheck Linux.NotFound
  rcases hfound : Backend.Methods.findKernelPgd backend true [] with (e | - | -) | kpgd
  · exact iff_of_true rfl (Or.inl ⟨e, rfl⟩)
  · refine iff_of_false (fun h => by cases h) fun h => ?_
    obtain ⟨e, he⟩ | ⟨kpgd, hpgd, -⟩ := h
    · cases he
    · cases hpgd
  · refine iff_of_false (fun h => by cases h) fun h => ?_
    obtain ⟨e, he⟩ | ⟨kpgd, hpgd, -⟩ := h
    · cases he
    · cases hpgd
  · show (Exec.discardErr (Linux.getBannerAddr backend kpgd) >>= _) = _ ↔ _
    obtain ⟨r, hr, hnone, hsome⟩ := Linux.getBannerAddr_eq (hsearch kpgd hfound) hdefault
    rw [hr]
    cases r with
    | none => exact iff_of_true rfl (Or.inr ⟨kpgd, rfl, hnone rfl⟩)
    | some va =>
      refine iff_of_false (fun h => by cases h) fun h => ?_
      obtain ⟨e, he⟩ | ⟨kpgd', hpgd, hno⟩ := h
      · cases he
      · obtain rfl := Except.ok.inj hpgd
        exact hno va (hsome va rfl).1

/-- What is created was handed on by the quick check. -/
theorem Linux.quickCheck_of_create {linux : LinuxGuest B}
    (h : Linux.create backend defaultLoader symbols = .ok linux) :
    ∃ builder, Linux.quickCheck backend = .ok (some builder) := by
  obtain ⟨kpgd, hpgd, h⟩ := (Exec.bind_eq_ok_iff _ _ _).mp h
  have hpgd := (Exec.mapErr_eq_ok_iff _ _ _).mp hpgd
  obtain ⟨banner, hbanner, -⟩ := (Exec.bind_eq_ok_iff _ _ _).mp h
  obtain ⟨found, hfound, hsome⟩ := (Exec.bind_eq_ok_iff _ _ _).mp hbanner
  obtain rfl := (Exec.okOr_eq_ok_iff _ _ _).mp hsome
  have hfound := (Exec.mapErr_eq_ok_iff _ _ _).mp ((Exec.mapErr_eq_ok_iff _ _ _).mp hfound)
  rw [Linux.quickCheck, hpgd]
  show ∃ builder, (Exec.discardErr (Linux.getBannerAddr backend kpgd) >>= _) = _
  rw [hfound]
  exact ⟨_, rfl⟩

/-- Windows is passed over where it is not found. -/
theorem Windows.quickCheck_of_notFound {sizeOfImage : Windows.ImageSize} {fuel : ℕ}
    (hsearch : ∀ kpgd, Windows.findKernelPgd backend = .ok kpgd →
      Linux.SearchesPages backend kpgd) (hfuel : 2 ^ 64 < fuel)
    (h : Windows.NotFound sizeOfImage backend) :
    Windows.quickCheck sizeOfImage fuel backend = .ok none := by
  unfold Windows.quickCheck
  obtain ⟨e, he⟩ | ⟨kpgd, hpgd, hno⟩ := h
  · rw [he]
    rfl
  · rw [hpgd]
    show (Exec.discardErr (Windows.findKernel sizeOfImage fuel backend kpgd) >>= _) = _
    rw [(Windows.findKernel_spec (hsearch kpgd hpgd) hfuel).2.mpr hno]
    rfl

end Guess

/-- **Guessing the system is creating it.** The guess is Linux exactly where Linux is created,
and Windows exactly where Windows is and nothing in the guest looks like Linux. Where it looks
like none of the two, there is no guess. -/
theorem Os.new_guesses {B : Type} [Backend.Methods B] (sizeOfImage : Windows.ImageSize) (fuel : ℕ)
    (backend : B) (linuxLoader windowsLoader : Exec VmError Symbols.Loader)
    (symbols : Symbols.Indexer)
    (hlinux : ∀ kpgd, Backend.Methods.findKernelPgd backend true [] = .ok kpgd →
      Linux.SearchesPages backend kpgd)
    (hwindows : ∀ kpgd, Windows.findKernelPgd backend = .ok kpgd →
      Linux.SearchesPages backend kpgd)
    (hdefault : Backend.Methods.findInKernelMemory backend
      = Backend.defaultFindInKernelMemory backend) (hfuel : 2 ^ 64 < fuel) :
    (∀ linux, Os.new sizeOfImage fuel backend linuxLoader windowsLoader symbols
          = .ok (.linux linux)
        ↔ Linux.create backend linuxLoader symbols = .ok linux)
      ∧ (∀ windows, Os.new sizeOfImage fuel backend linuxLoader windowsLoader symbols
          = .ok (.windows windows)
        ↔ Linux.NotFound backend
          ∧ Windows.create sizeOfImage fuel backend windowsLoader symbols = .ok windows)
      ∧ (Linux.NotFound backend → Windows.NotFound sizeOfImage backend →
        Os.new sizeOfImage fuel backend linuxLoader windowsLoader symbols
          = Exec.fail (VmError.ofStr "Failed to guess host OS")) := by
  have hnone := Linux.quickCheck_eq_none_iff hlinux hdefault
  refine ⟨fun linux => ?_, fun windows => ?_, fun hnolinux hnowindows => ?_⟩
  · constructor
    · intro h
      obtain ⟨r, hr, h⟩ := (Exec.bind_eq_ok_iff _ _ _).mp h
      cases r with
      | some builder =>
        obtain ⟨linux', hbuild, h⟩ := (Exec.bind_eq_ok_iff _ _ _).mp h
        obtain rfl := Os.Guest.linux.inj (Except.ok.inj h)
        rw [← hbuild]
        exact ((Linux.build_of_quickCheck hr).1 builder rfl).symm
      | none =>
        obtain ⟨r, hr, h⟩ := (Exec.bind_eq_ok_iff _ _ _).mp h
        cases r with
        | some builder =>
          obtain ⟨windows, -, h⟩ := (Exec.bind_eq_ok_iff _ _ _).mp h
          cases h
        | none => cases h
    · intro h
      obtain ⟨builder, hr⟩ := Linux.quickCheck_of_create h
      rw [Os.new, hr, Exec.ok_bind]
      dsimp only
      rw [(Linux.build_of_quickCheck hr).1 builder rfl, h, Exec.ok_bind]
      rfl
  · constructor
    · intro h
      obtain ⟨r, hr, h⟩ := (Exec.bind_eq_ok_iff _ _ _).mp h
      cases r with
      | some builder =>
        obtain ⟨linux, -, h⟩ := (Exec.bind_eq_ok_iff _ _ _).mp h
        cases h
      | none =>
        refine ⟨hnone.mp hr, ?_⟩
        obtain ⟨r, hr, h⟩ := (Exec.bind_eq_ok_iff _ _ _).mp h
        cases r with
        | some builder =>
          obtain ⟨windows', hbuild, h⟩ := (Exec.bind_eq_ok_iff _ _ _).mp h
          obtain rfl := Os.Guest.windows.inj (Except.ok.inj h)
          rw [← hbuild]
          exact ((Windows.build_of_quickCheck hr).1 builder rfl).symm
        | none => cases h
    · rintro ⟨hnolinux, h⟩
      obtain ⟨builder, hr⟩ := Windows.quickCheck_of_create h
      rw [Os.new, hnone.mpr hnolinux, Exec.ok_bind]
      dsimp only
      rw [hr, Exec.ok_bind]
      dsimp only
      rw [(Windows.build_of_quickCheck hr).1 builder rfl, h, Exec.ok_bind]
      rfl
  · rw [Os.new, hnone.mpr hnolinux, Exec.ok_bind]
    dsimp only
    rw [Windows.quickCheck_of_notFound hwindows hfuel hnowindows, Exec.ok_bind]

/-- The guess for a guest of Linux. -/
theorem Os.new_guesses_bareLinux :
    ∃ linux, Os.new (fun _ => .ok 0x1000) (2 ^ 64 + 1) Linux.bareLinux (.ok fun _ _ => .ok none)
      (.ok fun _ _ => some <$> bareKernel) Linux.bareSymbols = .ok (.linux linux) := by
  obtain ⟨linux, hcreate⟩ := Linux.exists_create_bareLinux
  exact ⟨linux, ((Os.new_guesses (fun _ => .ok 0x1000) (2 ^ 64 + 1) Linux.bareLinux
    (.ok fun _ _ => .ok none) (.ok fun _ _ => some <$> bareKernel) Linux.bareSymbols
    (fun kpgd _ => Linux.searchesPages_bareLinux kpgd)
    (fun kpgd _ => Linux.searchesPages_bareLinux kpgd) rfl (by decide)).1 linux).mpr hcreate⟩
