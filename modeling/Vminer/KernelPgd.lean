import Vminer.Dump
import Vminer.MemSearch
import Vminer.RemappedRead
import Vminer.RuntimeBackend

/-!
# Finding the page directory of the kernel

`find_kernel_pgd` guesses where the tables of the kernel are. A candidate is
accepted if it maps every address known to be the kernel's – those that the caller
gives, the entry point of system calls and the bases of the per-CPU areas – to
valid memory. On `x86_64` the candidates are what the virtual CPUs use, then every
page below 4 GiB; on `aarch64` a virtual CPU that runs the kernel is trusted
without a test, and only if there is none the pages are tried.

Where no address is known the test accepts anything, and the first candidate is
returned for the kernel's. This is the only way the search goes wrong
(`findKernelPgd_iff`).
-/

/-! ## Scans -/

/-- What a scan returns is what one of its rounds does. -/
theorem exists_of_findSomeM?_eq_some {ε α β : Type} {f : α → Exec ε (Option β)} {l : List α}
    {b : β} (h : l.findSomeM? f = .ok (some b)) : ∃ a ∈ l, f a = .ok (some b) := by
  induction l with
  | nil => cases h
  | cons a l ih =>
    rw [List.findSomeM?, Exec.bind_eq_ok_iff] at h
    obtain ⟨r, hr, hrest⟩ := h
    cases r with
    | some b' =>
      obtain rfl := Option.some.inj (Except.ok.inj hrest)
      exact ⟨a, List.mem_cons_self, hr⟩
    | none =>
      obtain ⟨a', ha', hf⟩ := ih hrest
      exact ⟨a', List.mem_cons_of_mem a ha', hf⟩

/-- A scan that returns nothing has gone through all its rounds. -/
theorem eq_none_of_findSomeM?_eq_none {ε α β : Type} {f : α → Exec ε (Option β)} {l : List α}
    (h : l.findSomeM? f = .ok none) : ∀ a ∈ l, f a = .ok none := by
  induction l with
  | nil => simp
  | cons a l ih =>
    rw [List.findSomeM?, Exec.bind_eq_ok_iff] at h
    obtain ⟨r, hr, hrest⟩ := h
    cases r with
    | some b => cases hrest
    | none => exact List.forall_mem_cons.mpr ⟨hr, ih hrest⟩

/-! ## Translations -/

section Translation

variable {M : Type} [Memory M] {memory : M}

/-- **A memory that answers**: reading it and asking it whether an address is valid
returns, for every range inside the address space. -/
structure Memory.Answers (memory : M) : Prop where
  read : ∀ addr : PhysicalAddress, ∀ size, addr.toNat + size < 2 ^ 64 →
    (Memory.readPhysical memory addr size).Returns
  valid : ∀ addr : PhysicalAddress, ∀ size, addr.toNat + size < 2 ^ 64 →
    ∃ b, Memory.isValid memory addr size = .ok b

/-- The default of `is_valid` answers. -/
theorem exists_defaultIsValid (mappings : List MemoryMap) {addr : PhysicalAddress} {size : ℕ}
    (h : addr.toNat + size < 2 ^ 64) : ∃ b, defaultIsValid mappings addr size = .ok b := by
  induction mappings with
  | nil => exact ⟨false, rfl⟩
  | cons mapping rest ih =>
    rw [defaultIsValid]
    split
    · rw [checkedAddNat_eq_ok h, Exec.ok_bind]
      split
      · exact ⟨true, rfl⟩
      · exact ih
    · exact ih

/-- A flat buffer answers. -/
theorem RawMemory.answers (m : RawMemory) : Memory.Answers m where
  read addr size hlt := by
    obtain ⟨bytes, hbytes⟩ | hfail := (RawMemory.contract m).read_or addr size hlt
    · rw [hbytes]
      exact Exec.returns_ok bytes
    · rw [hfail]
      exact Exec.returns_fail _
  valid addr size hlt := exists_defaultIsValid _ hlt

/-- **A relocated memory answers**, unless it has a mapping of half the address space. -/
theorem MemRemap.answers {m : MemRemap M} (h : m.InsideInner)
    (hhalf : ∀ mapping ∈ m.mappings, mapping.stop.toNat - mapping.start.toNat < 2 ^ 63)
    (hinner : Memory.Answers m.inner) : Memory.Answers m where
  read addr size hlt := by
    show (MemRemap.readPhysical m addr size).Returns
    rw [MemRemap.readPhysical, if_pos h.length_remapAt, MemRemap.remap_eq_find? hlt]
    cases hx : m.firstHolding addr size with
    | none =>
      rw [show List.find? _ _ = none from hx]
      exact Exec.returns_fail _
    | some x =>
      have hmem := List.mem_of_find?_eq_some hx
      have hholds : x.1.Holds addr size := MemRemap.holds_of_firstHolding hx
      have hsize := hhalf x.1 (List.of_mem_zip hmem).1
      obtain ⟨inner, -, -, htarget⟩ := h.target x hmem
      have hstop := inner.stop.isLt
      have hend := hholds.2
      have hstart : x.1.start.toNat ≤ addr.toNat := hholds.1
      rw [show List.find? _ _ = some x from hx]
      dsimp only
      by_cases hempty : addr.toNat - x.1.start.toNat < 2 ^ 63
      · rw [h.relocate hx, if_pos hempty, Exec.ok_bind]
        refine hinner.read _ _ ?_
        rw [BitVec.toNat_ofNat, Nat.mod_eq_of_lt (by omega)]
        omega
      · omega
  valid addr size hlt := exists_defaultIsValid _ hlt

/-- An entry of a table is far from the end of the address space. -/
theorem entryAddr_add_lt (entry : MmuEntry) (shift : ℕ) (addr : VirtualAddress) :
    (entryAddr shift (MmuEntry.takeBits entry 12 addrBits) addr).toNat + 8 < 2 ^ 64 := by
  have hlt := frame_lt entry (show 12 ≤ addrBits by decide)
  have hmod : addr.toNat / 2 ^ shift % 512 < 512 := Nat.mod_lt _ (by decide)
  rw [entryAddr, toNat_add_ofNat_of_lt (by omega)]
  omega

/-- The place in a page of 48 bits is far from the end of the address space. -/
theorem inFrame_lt (entry : MmuEntry) (addr : VirtualAddress) {shift : ℕ} (h : shift ≤ addrBits) :
    (inFrame (MmuEntry.takeBits entry shift addrBits) shift addr).toNat < 2 ^ 49 := by
  have hlt := frame_lt entry h
  have hmod := mod_lt_of_shift_le h addr.toNat
  rw [toNat_inFrame addr hlt h]
  omega

/-- **A translation ends in the physical address space**, or with an error. -/
theorem walk_answers (hmem : Memory.Answers memory) (desc : MmuDesc) (addr : VirtualAddress)
    {top : ℕ} {levels : List (ℕ × Bool)} (hl : LevelsTo top levels) (htop : top ≤ addrBits)
    (entry : MmuEntry) :
    (∃ phys : PhysicalAddress, phys.toNat < 2 ^ 49
        ∧ walk desc memory addr levels entry = .ok phys)
      ∨ ∃ e, walk desc memory addr levels entry = Exec.fail e := by
  induction levels generalizing top entry with
  | nil =>
    left
    rw [walk_nil]
    exact ⟨_, inFrame_lt entry addr (by decide), rfl⟩
  | cons level rest ih =>
    obtain ⟨shift, hasHuge⟩ := level
    obtain ⟨rfl, hrest⟩ := hl
    rw [walk_cons desc memory addr (by omega)]
    have hread := hmem.read (entryAddr shift (MmuEntry.takeBits entry 12 addrBits) addr) 8
      (entryAddr_add_lt entry shift addr)
    cases hbytes : Memory.readPhysical memory
        (entryAddr shift (MmuEntry.takeBits entry 12 addrBits) addr) 8 with
    | error e =>
      rw [hbytes] at hread
      cases e with
      | err e => exact Or.inr ⟨.memory e, rfl⟩
      | panic => exact hread.elim
      | fuel => exact hread.elim
    | ok bytes =>
      rw [Exec.mapErr_ok, Exec.ok_bind]
      dsimp only
      split
      · exact Or.inr ⟨_, rfl⟩
      · split
        · left
          exact ⟨_, inFrame_lt _ addr (by omega), rfl⟩
        · exact ih hrest (by omega) _

end Translation

/-! ## The test of a candidate -/

section Test

variable {V M : Type} [HasVcpus.Methods V] [Memory M]

/-- **Whether a table maps an address** to valid memory. -/
def mapsToValid (desc : MmuDesc) (memory : M) (pgd : PhysicalAddress) (addr : VirtualAddress) :
    Bool :=
  match virtualToPhysical desc memory pgd addr with
  | .ok phys => decide (Memory.isValid memory phys 1 = .ok true)
  | .error _ => false

/-- The base of the per-CPU area of a virtual CPU, where it can be read. -/
def HasVcpus.perCpuAddress (vcpus : V) (vcpu : VcpuId) : Option VirtualAddress :=
  match HasVcpus.Methods.kernelPerCpu vcpus vcpu with
  | .ok addr => addr
  | .error _ => none

/-- The bases of the per-CPU areas. -/
def HasVcpus.perCpuAddresses (vcpus : V) : List VirtualAddress :=
  (HasVcpus.Methods.iterVcpus vcpus).filterMap (HasVcpus.perCpuAddress vcpus)

/-- **The addresses that are known to be the kernel's**. -/
def knownAddresses (vcpus : V) (usePerCpu : Bool) (additional : List VirtualAddress) :
    List VirtualAddress :=
  additional ++ if usePerCpu then HasVcpus.perCpuAddresses vcpus else []

/-- The bases of the per-CPU areas are read, if they are used, or cannot be. -/
def PerCpuReturns (vcpus : V) (usePerCpu : Bool) : Prop :=
  usePerCpu = true → ∀ vcpu ∈ HasVcpus.Methods.iterVcpus vcpus,
    (HasVcpus.Methods.kernelPerCpu vcpus vcpu).Returns

/-- The MMU of the virtual CPUs. -/
def HasVcpus.mmuDesc (vcpus : V) : MmuDesc :=
  (Architecture.intoRuntime (HasVcpus.arch vcpus)).mmuDesc

/-- The test of one address. -/
def testAddress (desc : MmuDesc) (memory : M) (pgd : PhysicalAddress)
    (testAddr : VirtualAddress) : Exec VmError Bool :=
  match virtualToPhysical desc memory pgd testAddr with
  | .ok addr => Exec.mapErr VmError.memory (Memory.isValid memory addr 1)
  | .error (.err _) => return false
  | .error e => Exec.mapErr TranslationError.toVm (.error e)

/-- The test of a list of addresses. -/
def addressTest (desc : MmuDesc) (memory : M) (known : List VirtualAddress)
    (pgd : PhysicalAddress) : Exec VmError Bool :=
  known.allM (testAddress desc memory pgd)

/-- The base of a per-CPU area, left out if it cannot be read. -/
def readPerCpu (vcpus : V) (vcpu : VcpuId) : Exec VmError (Option VirtualAddress) :=
  match HasVcpus.Methods.kernelPerCpu vcpus vcpu with
  | .error (.err _) => return none
  | result => Exec.mapErr VmError.vcpu result

theorem readPerCpu_eq_ok_iff (vcpus : V) (vcpu : VcpuId) (base : Option VirtualAddress) :
    readPerCpu vcpus vcpu = .ok base
      ↔ (HasVcpus.Methods.kernelPerCpu vcpus vcpu).Returns
        ∧ base = HasVcpus.perCpuAddress vcpus vcpu := by
  unfold readPerCpu HasVcpus.perCpuAddress
  cases HasVcpus.Methods.kernelPerCpu vcpus vcpu with
  | ok addr => simp [Exec.Returns, eq_comm]
  | error e => cases e <;> simp [Exec.Returns, eq_comm]

/-- All of them. -/
theorem filterMapM_readPerCpu_eq_ok_iff (vcpus : V) (l : List VcpuId)
    (bases : List VirtualAddress) :
    l.filterMapM (readPerCpu vcpus) = .ok bases
      ↔ (∀ vcpu ∈ l, (HasVcpus.Methods.kernelPerCpu vcpus vcpu).Returns)
        ∧ bases = l.filterMap (HasVcpus.perCpuAddress vcpus) := by
  induction l generalizing bases with
  | nil => simp [eq_comm]
  | cons vcpu l ih =>
    simp only [List.filterMapM_cons, List.forall_mem_cons, List.filterMap_cons,
      Exec.bind_eq_ok_iff, readPerCpu_eq_ok_iff]
    cases HasVcpus.perCpuAddress vcpus vcpu with
    | none => simp [ih, and_assoc]
    | some base =>
      constructor
      · rintro ⟨_, ⟨hreturns, rfl⟩, h⟩
        obtain ⟨rest, hrest, hbases⟩ := (Exec.bind_eq_ok_iff _ _ _).mp h
        obtain ⟨hl, rfl⟩ := (ih rest).mp hrest
        exact ⟨⟨hreturns, hl⟩, (Except.ok.inj hbases).symm⟩
      · rintro ⟨⟨hreturns, hl⟩, rfl⟩
        refine ⟨_, ⟨hreturns, rfl⟩, (Exec.bind_eq_ok_iff _ _ _).mpr ?_⟩
        exact ⟨_, (ih _).mpr ⟨hl, rfl⟩, rfl⟩

/-- The addresses that the test is made of are the known ones. -/
theorem makeAddressTest_eq_ok_iff (vcpus : V) (memory : M) (usePerCpu : Bool)
    (additional : List VirtualAddress) (test : PhysicalAddress → Exec VmError Bool) :
    makeAddressTest vcpus memory usePerCpu additional = .ok test
      ↔ PerCpuReturns vcpus usePerCpu
        ∧ test = addressTest (HasVcpus.mmuDesc vcpus) memory
            (knownAddresses vcpus usePerCpu additional) := by
  unfold makeAddressTest PerCpuReturns knownAddresses
  cases usePerCpu with
  | false =>
    rw [if_neg Bool.false_ne_true, if_neg Bool.false_ne_true, Exec.pure_eq_ok, Exec.ok_bind]
    constructor
    · intro h
      exact ⟨fun hfalse => absurd hfalse Bool.false_ne_true, (Except.ok.inj h).symm⟩
    · rintro ⟨-, rfl⟩
      rfl
  | true =>
    rw [if_pos rfl, if_pos rfl, Exec.bind_eq_ok_iff]
    constructor
    · rintro ⟨bases, hbases, htest⟩
      obtain ⟨hreturns, rfl⟩ := (filterMapM_readPerCpu_eq_ok_iff vcpus _ bases).mp hbases
      exact ⟨fun _ => hreturns, (Except.ok.inj htest).symm⟩
    · rintro ⟨hreturns, rfl⟩
      exact ⟨_, (filterMapM_readPerCpu_eq_ok_iff vcpus _ _).mpr ⟨hreturns rfl, rfl⟩, rfl⟩

/-- An address passes the test where it is mapped to valid memory. -/
theorem testAddress_eq_true_iff (desc : MmuDesc) (memory : M) (pgd : PhysicalAddress)
    (addr : VirtualAddress) :
    testAddress desc memory pgd addr = .ok true ↔ mapsToValid desc memory pgd addr = true := by
  unfold testAddress mapsToValid
  cases virtualToPhysical desc memory pgd addr with
  | ok phys => simp
  | error e => cases e <;> simp

/-- **The test accepts what maps all the addresses.** -/
theorem addressTest_eq_true_iff (desc : MmuDesc) (memory : M) (known : List VirtualAddress)
    (pgd : PhysicalAddress) :
    addressTest desc memory known pgd = .ok true
      ↔ known.all (mapsToValid desc memory pgd) = true := by
  induction known with
  | nil => simp [addressTest]
  | cons addr known ih =>
    rw [List.all_cons, Bool.and_eq_true, ← ih, ← testAddress_eq_true_iff]
    unfold addressTest
    rw [List.allM_cons, Exec.bind_eq_ok_iff]
    constructor
    · rintro ⟨passed, hpassed, hrest⟩
      cases passed with
      | true => exact ⟨hpassed, hrest⟩
      | false => cases hrest
    · rintro ⟨hpassed, hrest⟩
      exact ⟨true, hpassed, hrest⟩

/-- Where the memory answers, so does the test of an address. -/
theorem testAddress_eq (desc : MmuDesc) {memory : M} (hmem : Memory.Answers memory)
    (pgd : PhysicalAddress) (addr : VirtualAddress) :
    testAddress desc memory pgd addr = .ok (mapsToValid desc memory pgd addr) := by
  unfold testAddress mapsToValid virtualToPhysical
  obtain ⟨phys, hlt, hwalk⟩ | ⟨e, hwalk⟩ :=
    walk_answers hmem desc addr levelsTo_levels le_rfl pgd
  · obtain ⟨valid, hvalid⟩ := hmem.valid phys 1 (by omega)
    rw [hwalk]
    dsimp only
    rw [hvalid, Exec.mapErr_ok]
    cases valid <;> rfl
  · rw [hwalk]
    rfl

/-- So does the whole test. -/
theorem addressTest_eq (desc : MmuDesc) {memory : M} (hmem : Memory.Answers memory)
    (known : List VirtualAddress) (pgd : PhysicalAddress) :
    addressTest desc memory known pgd = .ok (known.all (mapsToValid desc memory pgd)) := by
  induction known with
  | nil => rfl
  | cons addr known ih =>
    unfold addressTest at ih ⊢
    rw [List.allM_cons, List.all_cons, testAddress_eq desc hmem, Exec.ok_bind]
    cases mapsToValid desc memory pgd addr with
    | true => exact ih
    | false => rfl

end Test

/-! ## The candidates -/

section Candidates

variable {test : PhysicalAddress → Exec VmError Bool} {p : PhysicalAddress → Bool}

/-- The pages below 4 GiB. -/
def alignedAddresses : List PhysicalAddress :=
  (List.range (2 ^ 20)).map fun page => BitVec.ofNat 64 (0x1000 * page)

/-- The pages below 4 GiB are the aligned addresses below it. -/
theorem mem_alignedAddresses_iff (addr : PhysicalAddress) :
    addr ∈ alignedAddresses ↔ addr.toNat < 2 ^ 32 ∧ 0x1000 ∣ addr.toNat := by
  unfold alignedAddresses
  rw [List.mem_map]
  constructor
  · rintro ⟨page, hpage, rfl⟩
    have hlt := List.mem_range.mp hpage
    rw [BitVec.toNat_ofNat, Nat.mod_eq_of_lt (by omega)]
    exact ⟨by omega, Nat.dvd_mul_right _ _⟩
  · rintro ⟨hlt, page, hpage⟩
    refine ⟨page, List.mem_range.mpr (by omega), ?_⟩
    rw [← hpage, BitVec.ofNat_toNat, BitVec.setWidth_eq]

/-- They are tried from the lowest on. -/
theorem pairwise_alignedAddresses : alignedAddresses.Pairwise (· < ·) := by
  unfold alignedAddresses
  rw [List.pairwise_map]
  refine List.Pairwise.imp_of_mem ?_ List.pairwise_lt_range
  intro i j hi hj hij
  have hj := List.mem_range.mp hj
  rw [BitVec.lt_def, BitVec.toNat_ofNat, BitVec.toNat_ofNat, Nat.mod_eq_of_lt (by omega),
    Nat.mod_eq_of_lt (by omega)]
  omega

/-- **The first page that passes is the lowest.** -/
theorem isLeast_of_find?_alignedAddresses {addr : PhysicalAddress}
    (h : alignedAddresses.find? p = some addr) :
    IsLeast {addr | addr.toNat < 2 ^ 32 ∧ 0x1000 ∣ addr.toNat ∧ p addr = true} addr := by
  obtain ⟨hpass, before, after, hsplit, hbefore⟩ := List.find?_eq_some_iff_append.mp h
  have hmem := (mem_alignedAddresses_iff addr).mp (List.mem_of_find?_eq_some h)
  refine ⟨⟨hmem.1, hmem.2, hpass⟩, ?_⟩
  rintro other ⟨hlt, hdvd, hother⟩
  have hsorted := pairwise_alignedAddresses
  rw [hsplit] at hsorted
  have hin := (mem_alignedAddresses_iff other).mpr ⟨hlt, hdvd⟩
  rw [hsplit] at hin
  obtain hin | hin := List.mem_append.mp hin
  · have hfails := hbefore other hin
    rw [hother] at hfails
    cases hfails
  · obtain rfl | hin := List.mem_cons.mp hin
    · exact BitVec.le_refl _
    · exact BitVec.le_of_lt ((List.pairwise_cons.mp (List.pairwise_append.mp hsorted).2.1).1 _ hin)

/-- The lowest of them is 0. -/
theorem find?_alignedAddresses (h : p 0 = true) : alignedAddresses.find? p = some 0 := by
  unfold alignedAddresses
  rw [show (2 : ℕ) ^ 20 = 2 ^ 20 - 1 + 1 from rfl, List.range_succ_eq_map, List.map_cons]
  exact List.find?_cons_of_pos h

/-- A candidate that is returned has passed the test. -/
theorem test_of_tryOne {candidate addr : PhysicalAddress}
    (h : (do if ← test candidate then return some candidate else return none : Exec VmError _)
      = .ok (some addr)) : test addr = .ok true := by
  obtain ⟨passed, hpassed, hrest⟩ := (Exec.bind_eq_ok_iff _ _ _).mp h
  cases passed with
  | false => cases hrest
  | true =>
    obtain rfl := Option.some.inj (Except.ok.inj hrest)
    exact hpassed

/-- What the last resort returns has passed the test. -/
theorem test_of_tryAllAddresses {addr : PhysicalAddress}
    (h : tryAllAddresses test = .ok (some addr)) : test addr = .ok true := by
  obtain ⟨n, -, hround⟩ := exists_of_findSomeM?_eq_some h
  exact test_of_tryOne hround

/-- The points at a distance are the multiples of it. -/
theorem stepBy_zero_eq_map (stop step : ℕ) :
    stepBy 0 stop step = (List.range ((stop - 0 + step - 1) / step)).map (step * ·) := by
  refine List.ext_getElem ?_ fun i hi _ => ?_
  · rw [length_stepBy, List.length_map, List.length_range]
  · rw [getElem_stepBy _ _ _ _ hi, List.getElem_map, List.getElem_range, Nat.zero_add]

/-- The steps of the loop are the pages. -/
theorem map_stepBy_eq :
    (stepBy 0 (2 ^ 32 - 1) 0x1000).map (BitVec.ofNat 64) = alignedAddresses := by
  have hpages : (2 ^ 32 - 1 - 0 + 0x1000 - 1) / 0x1000 = 2 ^ 20 := by norm_num
  rw [stepBy_zero_eq_map, List.map_map, hpages, alignedAddresses]
  simp only [Function.comp_def]

/-- **The last resort** is the lowest page that passes the test. -/
theorem tryAllAddresses_eq (htest : ∀ addr, test addr = .ok (p addr)) :
    tryAllAddresses test = .ok (alignedAddresses.find? p) := by
  have hround : ∀ n ∈ stepBy 0 (2 ^ 32 - 1) 0x1000,
      (do
        let addr : PhysicalAddress := BitVec.ofNat 64 n
        if ← test addr then return some addr else return none : Exec VmError _)
        = .ok (Option.guard p (BitVec.ofNat 64 n)) := by
    intro n _
    dsimp only
    rw [htest, Exec.ok_bind, Option.guard]
    cases p (BitVec.ofNat 64 n) <;> rfl
  unfold tryAllAddresses
  rw [findSomeM?_eq_ok hround, ← map_stepBy_eq, ← List.findSome?_guard, List.findSome?_map]
  simp only [Function.comp_def]

variable {V : Type} [HasVcpus.Methods V] {vcpus : V}

/-- The round of the search for one virtual CPU of `x86_64`. -/
theorem exists_pgd_of_round {vcpu : VcpuId} {addr : PhysicalAddress}
    (h : (do
        let addr ← Exec.mapErr VmError.vcpu (HasVcpus.Methods.pgd vcpus vcpu)
        if ← test addr then return some addr else return none : Exec VmError _)
      = .ok (some addr)) : test addr = .ok true := by
  obtain ⟨pgd, -, hrest⟩ := (Exec.bind_eq_ok_iff _ _ _).mp h
  exact test_of_tryOne hrest

/-- **What the virtual CPUs use is tried in their order.** -/
theorem findSomeM?_pgd_eq (htest : ∀ addr, test addr = .ok (p addr)) {l : List VcpuId}
    {pgds : List PhysicalAddress} (h : l.mapM (HasVcpus.Methods.pgd vcpus) = .ok pgds) :
    (l.findSomeM? fun vcpu => do
        let addr ← Exec.mapErr VmError.vcpu (HasVcpus.Methods.pgd vcpus vcpu)
        if ← test addr then return some addr else return none)
      = .ok (pgds.find? p) := by
  induction l generalizing pgds with
  | nil =>
    obtain rfl := Except.ok.inj h
    rfl
  | cons vcpu l ih =>
    rw [List.mapM_cons, Exec.bind_eq_ok_iff] at h
    obtain ⟨pgd, hpgd, h⟩ := h
    obtain ⟨rest, hrest, h⟩ := (Exec.bind_eq_ok_iff _ _ _).mp h
    obtain rfl := Except.ok.inj h
    rw [List.findSomeM?, hpgd, Exec.mapErr_ok, Exec.ok_bind, htest, Exec.ok_bind, List.find?_cons]
    cases p pgd with
    | true => rfl
    | false => exact ih hrest

end Candidates

/-! ## `x86_64` -/

section X86_64

variable {V M : Type} [HasVcpus.Methods V] [Memory M] (memory : M) (vcpus : V)
  (usePerCpu : Bool) (additional : List VirtualAddress)

namespace X86_64

/-- The entry point of system calls, where it can be read. -/
def lstar : List VirtualAddress :=
  match X86_64.otherRegisters vcpus 0 with
  | .ok regs => [regs.lstar]
  | .error _ => []

/-- The addresses known to be the kernel's. -/
def known : List VirtualAddress := knownAddresses vcpus usePerCpu (additional ++ lstar vcpus)

/-- The registers that the known addresses are taken from are read or cannot be. -/
def KnownReturns : Prop :=
  (X86_64.otherRegisters vcpus 0).Returns ∧ PerCpuReturns vcpus usePerCpu

/-- **What the search on `x86_64` is for**: what it finds maps the known addresses, of
which there is one, to valid memory, and it finds the first such table among those
that the virtual CPUs use, in their order, and then the pages below 4 GiB. -/
structure FindsKernelPgd : Prop where
  sound : ∀ pgd, findKernelPgd memory vcpus usePerCpu additional = .ok (some pgd) →
    known vcpus usePerCpu additional ≠ []
    ∧ (known vcpus usePerCpu additional).all
      (mapsToValid (HasVcpus.mmuDesc vcpus) memory pgd) = true
  complete : known vcpus usePerCpu additional ≠ [] → Memory.Answers memory →
    KnownReturns vcpus usePerCpu →
    ∀ cr3s, (HasVcpus.Methods.iterVcpus vcpus).mapM (HasVcpus.Methods.pgd vcpus) = .ok cr3s →
      findKernelPgd memory vcpus usePerCpu additional
        = .ok ((cr3s ++ alignedAddresses).find? fun pgd =>
          (known vcpus usePerCpu additional).all
            (mapsToValid (HasVcpus.mmuDesc vcpus) memory pgd))
  lowest : known vcpus usePerCpu additional ≠ [] → Memory.Answers memory →
    KnownReturns vcpus usePerCpu →
    ∀ cr3s, (HasVcpus.Methods.iterVcpus vcpus).mapM (HasVcpus.Methods.pgd vcpus) = .ok cr3s →
      (∀ cr3 ∈ cr3s, (known vcpus usePerCpu additional).all
        (mapsToValid (HasVcpus.mmuDesc vcpus) memory cr3) = false) →
      ∀ pgd, findKernelPgd memory vcpus usePerCpu additional = .ok (some pgd) →
        IsLeast {addr : PhysicalAddress | addr.toNat < 2 ^ 32 ∧ 0x1000 ∣ addr.toNat
          ∧ (known vcpus usePerCpu additional).all
            (mapsToValid (HasVcpus.mmuDesc vcpus) memory addr) = true} pgd

/-- Nothing stops the search before its first test: the registers that are read for
it are read, those of the known addresses at least without a panic. -/
def ReachesTest : Prop :=
  KnownReturns vcpus usePerCpu
    ∧ ∀ vcpu, (HasVcpus.Methods.iterVcpus vcpus).head? = some vcpu →
      ∃ cr3, HasVcpus.Methods.pgd vcpus vcpu = .ok cr3

/-- The candidates, given the test. -/
def tryCandidates (test : PhysicalAddress → Exec VmError Bool) :
    Exec VmError (Option PhysicalAddress) := do
  let found ← (HasVcpus.Methods.iterVcpus vcpus).findSomeM? fun vcpu => do
    let addr ← Exec.mapErr VmError.vcpu (HasVcpus.Methods.pgd vcpus vcpu)
    if ← test addr then return some addr else return none
  match found with
  | some addr => return some addr
  | none => tryAllAddresses test

/-- The search is the test of the known addresses on the candidates. -/
theorem findKernelPgd_eq_ok_iff (r : Option PhysicalAddress) :
    findKernelPgd memory vcpus usePerCpu additional = .ok r
      ↔ KnownReturns vcpus usePerCpu
        ∧ tryCandidates vcpus (addressTest (HasVcpus.mmuDesc vcpus) memory
          (known vcpus usePerCpu additional)) = .ok r := by
  have hmake : ∀ lstar : List VirtualAddress,
      (makeAddressTest vcpus memory usePerCpu (additional ++ lstar) >>= tryCandidates vcpus) = .ok r
        ↔ PerCpuReturns vcpus usePerCpu
          ∧ tryCandidates vcpus (addressTest (HasVcpus.mmuDesc vcpus) memory
            (knownAddresses vcpus usePerCpu (additional ++ lstar))) = .ok r := by
    intro lstar
    simp only [Exec.bind_eq_ok_iff, makeAddressTest_eq_ok_iff, and_assoc, exists_and_left,
      exists_eq_left]
  unfold findKernelPgd KnownReturns known lstar
  cases X86_64.otherRegisters vcpus 0 with
  | ok regs =>
    refine (hmake [regs.lstar]).trans ?_
    simp [Exec.Returns]
  | error e =>
    cases e with
    | err e =>
      refine (hmake []).trans ?_
      simp [Exec.Returns]
    | panic => simp [Exec.Returns]
    | fuel => simp [Exec.Returns]

variable {memory vcpus usePerCpu additional}

/-- **What is found has passed the test.** -/
theorem test_of_tryCandidates {test : PhysicalAddress → Exec VmError Bool}
    {pgd : PhysicalAddress} (h : tryCandidates vcpus test = .ok (some pgd)) :
    test pgd = .ok true := by
  obtain ⟨found, hfound, hrest⟩ := (Exec.bind_eq_ok_iff _ _ _).mp h
  cases found with
  | some addr =>
    obtain rfl := Option.some.inj (Except.ok.inj hrest)
    obtain ⟨vcpu, -, hround⟩ := exists_of_findSomeM?_eq_some hfound
    exact exists_pgd_of_round hround
  | none => exact test_of_tryAllAddresses hrest

/-- **The candidates are tried in their order.** -/
theorem tryCandidates_eq {test : PhysicalAddress → Exec VmError Bool} {p : PhysicalAddress → Bool}
    (htest : ∀ addr, test addr = .ok (p addr)) {cr3s : List PhysicalAddress}
    (hcr3s : (HasVcpus.Methods.iterVcpus vcpus).mapM (HasVcpus.Methods.pgd vcpus) = .ok cr3s) :
    tryCandidates vcpus test = .ok ((cr3s ++ alignedAddresses).find? p) := by
  unfold tryCandidates
  rw [findSomeM?_pgd_eq htest hcr3s, Exec.ok_bind, List.find?_append]
  cases cr3s.find? p with
  | some cr3 =>
    rw [Option.some_or]
    rfl
  | none =>
    rw [Option.none_or]
    exact tryAllAddresses_eq htest

/-- A test that accepts anything accepts the first candidate. -/
theorem exists_tryCandidates (vcpus : V) {test : PhysicalAddress → Exec VmError Bool}
    (htest : ∀ addr, test addr = .ok true)
    (hhead : ∀ vcpu, (HasVcpus.Methods.iterVcpus vcpus).head? = some vcpu →
      ∃ cr3, HasVcpus.Methods.pgd vcpus vcpu = .ok cr3) :
    ∃ pgd, tryCandidates vcpus test = .ok (some pgd) := by
  unfold tryCandidates
  cases hiter : HasVcpus.Methods.iterVcpus vcpus with
  | nil =>
    refine ⟨0, ?_⟩
    rw [List.findSomeM?_nil, Exec.pure_eq_ok, Exec.ok_bind]
    exact (tryAllAddresses_eq htest).trans (congrArg Except.ok (find?_alignedAddresses rfl))
  | cons vcpu l =>
    obtain ⟨cr3, hcr3⟩ := hhead vcpu (by rw [hiter]; rfl)
    refine ⟨cr3, ?_⟩
    rw [List.findSomeM?, hcr3, Exec.mapErr_ok, Exec.ok_bind, htest, Exec.ok_bind, if_pos rfl]
    rfl

/-- The first virtual CPU is asked for its table, whatever the test. -/
theorem exists_pgd_of_tryCandidates {test : PhysicalAddress → Exec VmError Bool}
    {r : Option PhysicalAddress} (h : tryCandidates vcpus test = .ok r) {vcpu : VcpuId}
    (hhead : (HasVcpus.Methods.iterVcpus vcpus).head? = some vcpu) :
    ∃ cr3, HasVcpus.Methods.pgd vcpus vcpu = .ok cr3 := by
  obtain ⟨l, hl⟩ := List.head?_eq_some_iff.mp hhead
  unfold tryCandidates at h
  rw [hl, List.findSomeM?] at h
  cases hpgd : HasVcpus.Methods.pgd vcpus vcpu with
  | ok cr3 => exact ⟨cr3, rfl⟩
  | error e =>
    rw [hpgd] at h
    cases e <;> cases h

/-- **The search on `x86_64` is right exactly where an address is known**, or where it
stops before its first test. -/
theorem findsKernelPgd_iff :
    FindsKernelPgd memory vcpus usePerCpu additional
      ↔ known vcpus usePerCpu additional ≠ [] ∨ ¬ ReachesTest vcpus usePerCpu := by
  constructor
  · intro h
    by_contra hcond
    obtain ⟨hknown, hreturns, hhead⟩ := by simpa only [not_or, not_not] using hcond
    have htest : ∀ pgd, addressTest (HasVcpus.mmuDesc vcpus) memory
        (known vcpus usePerCpu additional) pgd = .ok true := by
      intro pgd
      rw [hknown]
      rfl
    obtain ⟨pgd, hpgd⟩ := exists_tryCandidates vcpus htest hhead
    have hfound := (findKernelPgd_eq_ok_iff memory vcpus usePerCpu additional _).mpr
      ⟨hreturns, hpgd⟩
    exact (h.sound pgd hfound).1 hknown
  · intro hcond
    constructor
    · intro pgd hpgd
      obtain ⟨hreturns, hcandidates⟩ := (findKernelPgd_eq_ok_iff _ _ _ _ _).mp hpgd
      refine ⟨?_, (addressTest_eq_true_iff _ _ _ _).mp (test_of_tryCandidates hcandidates)⟩
      rcases hcond with hknown | hstops
      · exact hknown
      · exact absurd ⟨hreturns, fun vcpu => exists_pgd_of_tryCandidates hcandidates⟩ hstops
    · intro _ hmem hreturns cr3s hcr3s
      refine (findKernelPgd_eq_ok_iff _ _ _ _ _).mpr ⟨hreturns, ?_⟩
      exact tryCandidates_eq (addressTest_eq _ hmem _) hcr3s
    · intro _ hmem hreturns cr3s hcr3s hfail pgd hpgd
      have hcandidates := ((findKernelPgd_eq_ok_iff _ _ _ _ _).mp hpgd).2
      have hnone : cr3s.find? (fun pgd => (known vcpus usePerCpu additional).all
          (mapsToValid (HasVcpus.mmuDesc vcpus) memory pgd)) = none :=
        List.find?_eq_none.mpr fun cr3 hcr3 hpass =>
          Bool.false_ne_true ((hfail cr3 hcr3).symm.trans hpass)
      rw [tryCandidates_eq (addressTest_eq _ hmem _) hcr3s, List.find?_append, hnone,
        Option.none_or] at hcandidates
      exact isLeast_of_find?_alignedAddresses (Except.ok.inj hcandidates)

end X86_64

end X86_64

/-! ## `aarch64` -/

section Aarch64

variable {V M : Type} [HasVcpus.Methods V] [Memory M] (memory : M) (vcpus : V)
  (usePerCpu : Bool) (additional : List VirtualAddress)

namespace Aarch64

/-- **The table of a virtual CPU that runs the kernel**: what it uses for the
addresses of the kernel. Where the traits' defaults are not overridden this is the
base in `TTBR1_EL1`. -/
def IsRunning (pgd : PhysicalAddress) : Prop :=
  ∃ vcpu ∈ HasVcpus.Methods.iterVcpus vcpus,
    (∃ ip, HasVcpus.Methods.instructionPointer vcpus vcpu = .ok ip
      ∧ VirtualAddress.isKernel ip = true)
    ∧ HasVcpus.Methods.pgd vcpus vcpu = .ok pgd
    ∧ (HasVcpus.Methods.pgd vcpus = Aarch64.pgd vcpus →
      HasVcpus.Methods.instructionPointer vcpus = Aarch64.instructionPointer vcpus →
      ∃ regs, Aarch64.specialRegisters vcpus vcpu = .ok regs
        ∧ pgd = regs.ttbr1El1 &&& mask addrBits)

/-- **What the search on `aarch64` is for**: what it finds is the table of a virtual
CPU that runs the kernel, or maps the known addresses, of which there is one, to
valid memory. -/
def FindsKernelPgd : Prop :=
  ∀ pgd, findKernelPgd memory vcpus usePerCpu additional = .ok (some pgd) →
    IsRunning vcpus pgd
    ∨ (knownAddresses vcpus usePerCpu additional ≠ []
      ∧ (knownAddresses vcpus usePerCpu additional).all
        (mapsToValid (HasVcpus.mmuDesc vcpus) memory pgd) = true)

/-- Nothing ends the search before its first test: no virtual CPU runs the kernel or
fails to tell, and the registers of the known addresses are read without a
panic. -/
def ReachesTest : Prop :=
  (∀ vcpu ∈ HasVcpus.Methods.iterVcpus vcpus, ∃ ip,
      HasVcpus.Methods.instructionPointer vcpus vcpu = .ok ip
        ∧ VirtualAddress.isKernel ip = false)
    ∧ PerCpuReturns vcpus usePerCpu

/-- The round of the search for one virtual CPU. -/
def running (vcpu : VcpuId) : Exec VmError (Option PhysicalAddress) := do
  let ip ← Exec.mapErr VmError.vcpu (HasVcpus.Methods.instructionPointer vcpus vcpu)
  if VirtualAddress.isKernel ip then do
    let pgd ← Exec.mapErr VmError.vcpu (HasVcpus.Methods.pgd vcpus vcpu)
    return some pgd
  else return none

variable {memory vcpus usePerCpu additional}

/-- A virtual CPU that runs the kernel gives its table. -/
theorem isRunning_of_running {vcpu : VcpuId} (hvcpu : vcpu ∈ HasVcpus.Methods.iterVcpus vcpus)
    {pgd : PhysicalAddress} (h : running vcpus vcpu = .ok (some pgd)) : IsRunning vcpus pgd := by
  unfold running at h
  obtain ⟨ip, hip, h⟩ := (Exec.bind_eq_ok_iff _ _ _).mp h
  have hip := (Exec.mapErr_eq_ok_iff _ _ _).mp hip
  cases hkernel : VirtualAddress.isKernel ip with
  | false =>
    rw [hkernel] at h
    cases h
  | true =>
    rw [hkernel, if_pos rfl] at h
    obtain ⟨pgd', hpgd, h⟩ := (Exec.bind_eq_ok_iff _ _ _).mp h
    obtain rfl := Option.some.inj (Except.ok.inj h)
    have hpgd := (Exec.mapErr_eq_ok_iff _ _ _).mp hpgd
    refine ⟨vcpu, hvcpu, ⟨ip, hip, hkernel⟩, hpgd, fun hpgds hips => ?_⟩
    -- the defaults read the registers
    rw [hpgds, Aarch64.pgd] at hpgd
    rw [hips] at hip
    obtain ⟨regs, hregs, hpgd⟩ := (Exec.bind_eq_ok_iff _ _ _).mp hpgd
    rw [hip, Exec.ok_bind, hkernel] at hpgd
    exact ⟨regs, hregs, (Except.ok.inj hpgd).symm⟩

/-- One that does not gives none. -/
theorem running_eq_none_iff (vcpu : VcpuId) :
    running vcpus vcpu = .ok none
      ↔ ∃ ip, HasVcpus.Methods.instructionPointer vcpus vcpu = .ok ip
        ∧ VirtualAddress.isKernel ip = false := by
  unfold running
  simp only [Exec.bind_eq_ok_iff, Exec.mapErr_eq_ok_iff]
  refine exists_congr fun ip => and_congr_right fun _ => ?_
  cases VirtualAddress.isKernel ip with
  | true =>
    rw [if_pos rfl]
    simp [Exec.bind_eq_ok_iff]
  | false => simp

/-- **The search on `aarch64` is right exactly where an address is known**, or where it
ends before its first test. -/
theorem findsKernelPgd_iff :
    FindsKernelPgd memory vcpus usePerCpu additional
      ↔ knownAddresses vcpus usePerCpu additional ≠ [] ∨ ¬ ReachesTest vcpus usePerCpu := by
  constructor
  · intro h
    by_contra hcond
    obtain ⟨hknown, huser, hpercpu⟩ := by simpa only [not_or, not_not] using hcond
    -- no virtual CPU runs the kernel, and the lowest page passes
    have hnone : (HasVcpus.Methods.iterVcpus vcpus).findSomeM? (running vcpus) = .ok none := by
      rw [findSomeM?_eq_ok (g := fun _ => none) fun vcpu hvcpu =>
        (running_eq_none_iff vcpu).mpr (huser vcpu hvcpu)]
      exact congrArg Except.ok (List.findSome?_eq_none_iff.mpr fun _ _ => rfl)
    have hmake := (makeAddressTest_eq_ok_iff vcpus memory usePerCpu additional _).mpr
      ⟨hpercpu, rfl⟩
    have hfound : findKernelPgd memory vcpus usePerCpu additional = .ok (some 0) := by
      show (HasVcpus.Methods.iterVcpus vcpus).findSomeM? (running vcpus) >>= _ = _
      rw [hnone, Exec.ok_bind]
      dsimp only
      rw [hmake, Exec.ok_bind, hknown]
      exact (tryAllAddresses_eq fun _ => rfl).trans
        (congrArg Except.ok (find?_alignedAddresses rfl))
    obtain ⟨vcpu, hvcpu, ⟨ip, hip, hkernel⟩, -⟩ | ⟨hsome, -⟩ := h 0 hfound
    · obtain ⟨ip', hip', hkernel'⟩ := huser vcpu hvcpu
      rw [hip'] at hip
      cases hip
      rw [hkernel'] at hkernel
      cases hkernel
    · exact hsome hknown
  · intro hcond pgd hpgd
    obtain ⟨found, hfound, hrest⟩ := (Exec.bind_eq_ok_iff _ _ _).mp hpgd
    cases found with
    | some addr =>
      obtain rfl := Option.some.inj (Except.ok.inj hrest)
      obtain ⟨vcpu, hvcpu, hround⟩ := exists_of_findSomeM?_eq_some hfound
      exact Or.inl (isRunning_of_running hvcpu hround)
    | none =>
      obtain ⟨test, hmake, htry⟩ := (Exec.bind_eq_ok_iff _ _ _).mp hrest
      obtain ⟨hpercpu, rfl⟩ := (makeAddressTest_eq_ok_iff _ _ _ _ _).mp hmake
      refine Or.inr ⟨?_, (addressTest_eq_true_iff _ _ _ _).mp (test_of_tryAllAddresses htry)⟩
      rcases hcond with hknown | hends
      · exact hknown
      · have huser := eq_none_of_findSomeM?_eq_none hfound
        exact absurd ⟨fun vcpu hvcpu => (running_eq_none_iff vcpu).mp (huser vcpu hvcpu), hpercpu⟩
          hends

end Aarch64

end Aarch64

/-- **The search for the page directory of the kernel is right** exactly where an
address of the kernel is known, or where it ends before its first test. -/
theorem findKernelPgd_iff {V M : Type} [HasVcpus.Methods V] [Memory M] (memory : M) (vcpus : V)
    (usePerCpu : Bool) (additional : List VirtualAddress) :
    (X86_64.FindsKernelPgd memory vcpus usePerCpu additional
      ↔ X86_64.known vcpus usePerCpu additional ≠ [] ∨ ¬ X86_64.ReachesTest vcpus usePerCpu)
    ∧ (Aarch64.FindsKernelPgd memory vcpus usePerCpu additional
      ↔ knownAddresses vcpus usePerCpu additional ≠ []
        ∨ ¬ Aarch64.ReachesTest vcpus usePerCpu) :=
  ⟨X86_64.findsKernelPgd_iff, Aarch64.findsKernelPgd_iff⟩

instance {M : Type} : HasVcpus.Methods (DumbDump M) where

/-- A guest of `aarch64` whose only virtual CPU does not run the kernel, and whose
memory maps nothing. -/
def userOnly : DumbDump RawMemory where
  vcpus := .aarch64 [⟨⟨fun _ => 0, 0, 0, 0⟩, ⟨0, 0, 0, 0⟩, ⟨⟩⟩]
  mem := ⟨[⟨0, 8⟩], [0], RawMemory.new [0, 0, 0, 0, 0, 0, 0, 0]⟩

/-- **The page 0 is found for it**, which maps no address; and on `x86_64` for a guest
without virtual CPUs. -/
theorem not_findsKernelPgd_userOnly :
    Aarch64.findKernelPgd userOnly userOnly true [] = .ok (some 0)
      ∧ ¬ Aarch64.FindsKernelPgd userOnly userOnly true []
      ∧ X86_64.findKernelPgd (DumbDump.ofWords [0]) (DumbDump.ofWords [0]) true []
        = .ok (some 0)
      ∧ ¬ X86_64.FindsKernelPgd (DumbDump.ofWords [0]) (DumbDump.ofWords [0]) true [] := by
  have haarch64 : Aarch64.findKernelPgd userOnly userOnly true [] = .ok (some 0) := by
    decide +kernel
  have hx86 : X86_64.findKernelPgd (DumbDump.ofWords [0]) (DumbDump.ofWords [0]) true []
      = .ok (some 0) := by
    decide +kernel
  refine ⟨haarch64, fun h => ?_, hx86, fun h => (h.sound 0 hx86).1 rfl⟩
  obtain ⟨vcpu, hvcpu, ⟨ip, hip, hkernel⟩, -⟩ | ⟨hsome, -⟩ := h 0 haarch64
  · have hlt : vcpu < 1 := List.mem_range.mp hvcpu
    obtain rfl := Nat.lt_one_iff.mp hlt
    obtain rfl : (0 : VirtualAddress) = ip := Except.ok.inj hip
    cases hkernel
  · exact hsome rfl

/-- A guest of `x86_64` whose virtual CPU uses a table that is not there, and whose first page
maps itself. -/
def mapsFirstPage : DumbDump RawMemory :=
  let vcpu := X86_64.Vcpu.layout.dec []
  { DumbDump.ofWords [1] with
    vcpus := .x86_64
      [{ vcpu with specialRegisters := { vcpu.specialRegisters with cr3 := 0x5000 } }] }

/-- **Its first page is found**: it maps the address of the caller, and the table of the virtual
CPU does not. -/
theorem findsKernelPgd_mapsFirstPage :
    X86_64.findKernelPgd mapsFirstPage mapsFirstPage false [0] = .ok (some 0) := by
  have hanswers : Memory.Answers mapsFirstPage.mem :=
    MemRemap.answers ⟨rfl, by decide, by decide⟩ (by decide) (RawMemory.answers _)
  have hfinds := (findKernelPgd_iff mapsFirstPage mapsFirstPage false [0]).1.mpr
    (Or.inl (by decide))
  have hfound := hfinds.complete (by decide) ⟨hanswers.read, hanswers.valid⟩
    ⟨trivial, fun h => absurd h Bool.false_ne_true⟩ [0x5000] rfl
  rw [hfound, List.cons_append, List.find?_cons_of_neg (by decide +kernel), List.nil_append,
    find?_alignedAddresses (by decide +kernel)]
