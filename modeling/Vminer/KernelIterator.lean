import Vminer.KernelSearch

/-!
# Iterating over the hits of a kernel search

`iter_in_kernel_memory` searches from the base of the kernel's half of the
address space and, after each hit, again from the byte after it. What it
should yield is the sorted list of all hits: the addresses from the kernel
base on at which a copy of the pattern begins and ends in one readable leaf
page (`KernelHit`).

A restart is in the middle of a page, where the search reads only the rest of
the page. That changes nothing: the page had a hit, so it is readable as a
whole (`searchHit_restart`). One step therefore yields the least hit that is
left (`next_spec`) and a whole run all of them – up to the last address of
all, after which the iterator adds one to `u64::MAX`.
-/

variable {M : Type} [Memory M]

/-! ## The iterator -/

/-- `KernelSearchIterator`, without the backend it borrows. -/
structure KernelSearchIterator where
  arch : RuntimeArchitecture
  needle : List UInt8
  /-- The length of the scratch buffer. -/
  bufLen : ℕ
  mmuAddr : PhysicalAddress
  baseSearchAddr : VirtualAddress
deriving DecidableEq, Repr

/-- `Backend::iter_in_kernel_memory` -/
def iterInKernelMemory (arch : RuntimeArchitecture) (mmuAddr : PhysicalAddress)
    (needle : List UInt8) : KernelSearchIterator where
  arch := arch
  needle := needle
  bufLen := (2 <<< 20) + needle.length
  mmuAddr := mmuAddr
  baseSearchAddr := arch.kernelBase

namespace KernelSearchIterator

/-- `KernelSearchIterator::next`: the item and the iterator after it. -/
def next (backend : M) (it : KernelSearchIterator) :
    Exec Empty (Option (Except VmError VirtualAddress) × KernelSearchIterator) :=
  match findInKernelMemoryRaw it.arch.mmuDesc backend it.mmuAddr it.baseSearchAddr
      it.needle it.bufLen with
  | .ok none => return (none, it)
  | .ok (some addr) => do
    let base ← checkedAdd addr 1
    return (some (.ok addr), { it with baseSearchAddr := base })
  | .error (.err e) => do
    let base ← checkedAdd it.baseSearchAddr 1
    return (some (.error (.memory e)), { it with baseSearchAddr := base })
  | .error .panic => Exec.panicked
  | .error .fuel => Exec.outOfFuel

/-- The items of the iterator, until it ends. -/
def collect (backend : M) : ℕ → KernelSearchIterator →
    Exec Empty (List (Except VmError VirtualAddress))
  | 0, _ => Exec.outOfFuel
  | fuel + 1, it => do
    let (item, it) ← it.next backend
    match item with
    | none => return []
    | some item => do
      let items ← collect backend fuel it
      return item :: items

end KernelSearchIterator

/-! ## Hits -/

/-- **A copy of the pattern begins at `va`**, in the kernel's part of the
address space, and ends in the leaf page of `va`, which is readable. -/
def KernelHit (arch : RuntimeArchitecture) (memory : M)
    (mmuAddr : PhysicalAddress) (needle : List UInt8) (va : VirtualAddress) :
    Prop :=
  arch.kernelBase ≤ va
    ∧ ∃ leaf bs,
      leafOf arch.mmuDesc memory levels (rootTable mmuAddr) va.toNat = some leaf
      ∧ Memory.readPhysical memory leaf.frame (2 ^ leaf.shift) = .ok bs
      ∧ needle <+: bs.drop (va.toNat % 2 ^ leaf.shift)

/-- Where a search may start again without changing which addresses are hits:
at the kernel base, and after a hit. -/
def IsRestart (arch : RuntimeArchitecture) (memory : M)
    (mmuAddr : PhysicalAddress) (needle : List UInt8) (base : VirtualAddress) :
    Prop :=
  base = arch.kernelBase
    ∨ ∃ va, KernelHit arch memory mmuAddr needle va ∧ base.toNat = va.toNat + 1

section Restart

variable {arch : RuntimeArchitecture} {memory : M} {mmuAddr : PhysicalAddress}
  {needle : List UInt8} {base va : VirtualAddress}

/-- The kernel base is aligned to the pages of every level, and all kernel
addresses have the same bits above the 48 that are translated. -/
theorem kernelBase_spec (arch : RuntimeArchitecture) :
    2 ^ 39 ∣ arch.kernelBase.toNat ∧ arch.kernelBase.toNat / 2 ^ 48 = 2 ^ 16 - 1 := by
  cases arch with
  | x86_64 => decide
  | aarch64 => decide

theorem IsRestart.kernelBase_le (h : IsRestart arch memory mmuAddr needle base) :
    arch.kernelBase ≤ base := by
  obtain rfl | ⟨va, hva, heq⟩ := h
  · exact BitVec.le_refl _
  · have hle := BitVec.le_def.mp hva.1
    exact BitVec.le_def.mpr (by omega)

/-- A whole page that is readable is readable from any of its addresses on. -/
theorem readFrom_of_readable (hm : Memory.Coherent memory) {leaf : Leaf}
    (hshift : leaf.shift ≤ 48) (hframe : leaf.frame.toNat < 2 ^ 48)
    {bs : List UInt8}
    (hread : Memory.readPhysical memory leaf.frame (2 ^ leaf.shift) = .ok bs)
    {base va : ℕ} (hle : base ≤ va) :
    leaf.readFrom memory base va
      = .ok (bs.drop (max (leaf.pageStart va) base - leaf.pageStart va)) := by
  have hpow : 2 ^ leaf.shift ≤ 2 ^ 48 := Nat.pow_le_pow_right (by decide) hshift
  have hsplit : leaf.pageStart va + va % 2 ^ leaf.shift = va := Nat.div_add_mod' _ _
  have hrem : va % 2 ^ leaf.shift < 2 ^ leaf.shift := Nat.mod_lt _ (Nat.two_pow_pos _)
  have hlen := Memory.length_readPhysical hread
  unfold Leaf.readFrom
  dsimp only
  generalize hoff : max (leaf.pageStart va) base - leaf.pageStart va = offset
  rw [hm.read_part _ _ _ offset (2 ^ leaf.shift - offset) (by omega) hread (by omega),
    List.take_of_length_le (by rw [List.length_drop, hlen])]

/-- A search from any kernel address meets the hits that are not before
it. -/
theorem searchHit_of_kernelHit (hm : Memory.Coherent memory)
    (hbase : arch.kernelBase ≤ base)
    (h : KernelHit arch memory mmuAddr needle va) (hle : base ≤ va) :
    SearchHit arch.mmuDesc memory mmuAddr needle base va := by
  obtain ⟨hva, leaf, bs, hleaf, hread, hocc⟩ := h
  have h48 : addrBits = 48 := rfl
  have hshift := shift_of_leafOf levelsTo_levels hleaf
  have hframe := frame_of_leafOf levelsTo_levels le_rfl hleaf
  have hsplit : leaf.pageStart va.toNat + va.toNat % 2 ^ leaf.shift = va.toNat :=
    Nat.div_add_mod' _ _
  have hle' := BitVec.le_def.mp hle
  have hbase' := BitVec.le_def.mp hbase
  have htop := (kernelBase_spec arch).2
  refine ⟨hle, ?_, leaf, _, hleaf, readFrom_of_readable hm (by omega) hframe hread hle', ?_⟩
  · refine BitVec.eq_of_toNat_eq ?_
    rw [toNat_shiftRight, toNat_shiftRight]
    have hlt := va.isLt
    omega
  · rw [List.drop_drop]
    rw [show max (leaf.pageStart va.toNat) base.toNat - leaf.pageStart va.toNat
        + (va.toNat - max (leaf.pageStart va.toNat) base.toNat)
        = va.toNat % 2 ^ leaf.shift by omega]
    exact hocc

/-- **A restart changes nothing**: a search from there meets exactly the hits
that are not before it. -/
theorem searchHit_restart (hm : Memory.Coherent memory)
    (hbase : IsRestart arch memory mmuAddr needle base) :
    SearchHit arch.mmuDesc memory mmuAddr needle base va
      ↔ KernelHit arch memory mmuAddr needle va ∧ base ≤ va := by
  refine ⟨?_, fun h => searchHit_of_kernelHit hm hbase.kernelBase_le h.1 h.2⟩
  rintro ⟨hle, -, leaf, bs, hleaf, hread, hocc⟩
  refine ⟨⟨BitVec.le_trans hbase.kernelBase_le hle, ?_⟩, hle⟩
  have h48 : addrBits = 48 := rfl
  have hshift := shift_of_leafOf levelsTo_levels hleaf
  have hframe := frame_of_leafOf levelsTo_levels le_rfl hleaf
  have hle' := BitVec.le_def.mp hle
  have hsplit : leaf.pageStart va.toNat + va.toNat % 2 ^ leaf.shift = va.toNat :=
    Nat.div_add_mod' _ _
  have hrem : va.toNat % 2 ^ leaf.shift < 2 ^ leaf.shift :=
    Nat.mod_lt _ (Nat.two_pow_pos _)
  by_cases hstart : base.toNat ≤ leaf.pageStart va.toNat
  · -- the page is searched as a whole
    unfold Leaf.readFrom at hread
    rw [max_eq_left hstart] at hread hocc
    rw [Nat.sub_self] at hread
    refine ⟨leaf, bs, hleaf, ?_, ?_⟩
    · simpa using hread
    · rwa [show va.toNat - leaf.pageStart va.toNat = va.toNat % 2 ^ leaf.shift by omega]
        at hocc
  · -- the search starts inside the page, so after a hit in the same page
    obtain rfl | ⟨hit, ⟨-, leaf', bs', hleaf', hread', -⟩, heq⟩ := hbase
    · exfalso
      have hdvd : 2 ^ leaf.shift ∣ arch.kernelBase.toNat :=
        (Nat.pow_dvd_pow 2 (by omega)).trans (kernelBase_spec arch).1
      have hpage : arch.kernelBase.toNat ≤ leaf.pageStart va.toNat := by
        obtain ⟨q, hq⟩ := hdvd
        unfold Leaf.pageStart
        rw [hq, Nat.mul_comm _ q] at hle' ⊢
        exact Nat.mul_le_mul_right _
          ((Nat.le_div_iff_mul_le (Nat.two_pow_pos _)).mpr hle')
      exact hstart hpage
    · have hpage : va.toNat / 2 ^ leaf.shift = hit.toNat / 2 ^ leaf.shift := by
        refine ((Nat.div_eq_iff (Nat.two_pow_pos _)).mpr ?_).symm
        unfold Leaf.pageStart at hstart hsplit
        omega
      have hsame := (leafOf_eq_of_page levelsTo_levels hleaf hpage).symm.trans hleaf'
      obtain rfl := Option.some.inj hsame
      refine ⟨leaf, bs', hleaf, hread', ?_⟩
      rw [readFrom_of_readable hm (by omega) hframe hread' hle'] at hread
      obtain rfl := Except.ok.inj hread
      rwa [List.drop_drop,
        show max (leaf.pageStart va.toNat) base.toNat - leaf.pageStart va.toNat
          + (va.toNat - max (leaf.pageStart va.toNat) base.toNat)
          = va.toNat % 2 ^ leaf.shift by omega] at hocc

end Restart

/-! ## Runs -/

section Run

variable {arch : RuntimeArchitecture} {memory : M} {mmuAddr : PhysicalAddress}
  {needle : List UInt8} {base : VirtualAddress}

/-- The iterator with another start address. -/
abbrev KernelSearchIterator.at (it : KernelSearchIterator) (base : VirtualAddress) :
    KernelSearchIterator := { it with baseSearchAddr := base }

/-- Searches from later kernel addresses come to no other pages. -/
theorem SearchesWithin.of_le {limit : ℕ}
    (h : SearchesWithin arch.mmuDesc memory mmuAddr arch.kernelBase limit)
    (hle : arch.kernelBase ≤ base) : SearchesWithin arch.mmuDesc memory mmuAddr base limit := by
  have hle := BitVec.le_def.mp hle
  have hlt := base.isLt
  have htop := (kernelBase_spec arch).2
  exact PagesWithin.mono h hle (by omega)

/-- **One step yields the least hit that is left**, and goes on after it. -/
theorem next_spec (it : KernelSearchIterator) {limit : ℕ}
    (hm : Memory.SearchContract memory it.bufLen limit)
    (hpages : SearchesWithin it.arch.mmuDesc memory it.mmuAddr it.arch.kernelBase limit)
    (hne : it.needle ≠ [])
    (hbase : IsRestart it.arch memory it.mmuAddr it.needle base) :
    ((it.at base).next memory = .ok (none, it.at base)
        ∧ ∀ va, KernelHit it.arch memory it.mmuAddr it.needle va → ¬ base ≤ va)
      ∨ ∃ va, IsLeast {va | KernelHit it.arch memory it.mmuAddr it.needle va
            ∧ base ≤ va} va
          ∧ (it.at base).next memory
            = (do
              let base ← checkedAdd va 1
              return (some (.ok va), it.at base)) := by
  obtain ⟨r, hr, hnone, hsome⟩ := findInKernelMemoryRaw_eq it.arch.mmuDesc
    hm hne it.mmuAddr base (hpages.of_le hbase.kernelBase_le)
  unfold KernelSearchIterator.next
  rw [hr]
  cases r with
  | none =>
    refine Or.inl ⟨rfl, fun va hva hle => hnone rfl va ?_⟩
    exact (searchHit_restart hm.toCoherent hbase).mpr ⟨hva, hle⟩
  | some va =>
    refine Or.inr ⟨va, ?_, rfl⟩
    have hset : {va | SearchHit it.arch.mmuDesc memory it.mmuAddr it.needle base va}
        = {va | KernelHit it.arch memory it.mmuAddr it.needle va ∧ base ≤ va} :=
      Set.ext fun va => searchHit_restart hm.toCoherent hbase
    exact hset ▸ hsome va rfl

/-- The byte after a hit is where the search may start again. -/
theorem isRestart_succ {va : VirtualAddress}
    (hva : KernelHit arch memory mmuAddr needle va) (hlt : va ≠ BitVec.allOnes 64) :
    va.toNat + 1 < 2 ^ 64 ∧ (va + 1).toNat = va.toNat + 1
      ∧ IsRestart arch memory mmuAddr needle (va + 1) := by
  have hmax : va.toNat ≠ 2 ^ 64 - 1 := fun h => hlt (BitVec.eq_of_toNat_eq h)
  have hlt' := va.isLt
  have hsum : va.toNat + (1 : U64).toNat < 2 ^ 64 := by
    rw [show (1 : U64).toNat = 1 from rfl]
    omega
  have hadd := toNat_add_of_lt hsum
  exact ⟨hsum, hadd, Or.inr ⟨va, hva, hadd⟩⟩

/-- **A whole run yields the hits in order**, if the last address of all is
not one. The induction is on how many addresses are left. -/
theorem collect_of_not_last (it : KernelSearchIterator) {limit : ℕ}
    (hm : Memory.SearchContract memory it.bufLen limit)
    (hpages : SearchesWithin it.arch.mmuDesc memory it.mmuAddr it.arch.kernelBase limit)
    (hne : it.needle ≠ [])
    (hlast : ¬ KernelHit it.arch memory it.mmuAddr it.needle (BitVec.allOnes 64))
    (n : ℕ) (hbase : IsRestart it.arch memory it.mmuAddr it.needle base)
    (hn : 2 ^ 64 - base.toNat ≤ n) :
    ∃ l : List VirtualAddress, l.Pairwise (· < ·)
      ∧ (∀ va, va ∈ l ↔ KernelHit it.arch memory it.mmuAddr it.needle va ∧ base ≤ va)
      ∧ ∀ fuel > n, (it.at base).collect memory fuel = .ok (l.map .ok) := by
  induction n generalizing base with
  | zero =>
    have hlt := base.isLt
    omega
  | succ n ih =>
    obtain ⟨hnext, hno⟩ | ⟨va, ⟨⟨hva, hle⟩, hleast⟩, hnext⟩ := next_spec it hm hpages hne hbase
    · refine ⟨[], List.Pairwise.nil, fun va => ?_, fun fuel hfuel => ?_⟩
      · exact ⟨fun h => absurd h List.not_mem_nil, fun h => absurd h.2 (hno va h.1)⟩
      · obtain ⟨fuel, rfl⟩ := Nat.exists_eq_succ_of_ne_zero (Nat.ne_zero_of_lt hfuel)
        rw [KernelSearchIterator.collect, hnext, Exec.ok_bind]
        rfl
    · have hne' : va ≠ BitVec.allOnes 64 := fun h => hlast (h ▸ hva)
      obtain ⟨hsum, hadd, hrestart⟩ := isRestart_succ hva hne'
      have hle' := BitVec.le_def.mp hle
      obtain ⟨l, hsorted, hmem, hrun⟩ := ih hrestart (by omega)
      refine ⟨va :: l, List.Pairwise.cons (fun x hx => ?_) hsorted, fun x => ?_,
        fun fuel hfuel => ?_⟩
      · have hx' := BitVec.le_def.mp ((hmem x).mp hx).2
        exact BitVec.lt_def.mpr (by omega)
      · rw [List.mem_cons, hmem]
        constructor
        · rintro (rfl | ⟨hx, hx'⟩)
          · exact ⟨hva, hle⟩
          · have hxle := BitVec.le_def.mp hx'
            exact ⟨hx, BitVec.le_def.mpr (by omega)⟩
        · rintro ⟨hx, hx'⟩
          have hxle := BitVec.le_def.mp (hleast ⟨hx, hx'⟩)
          by_cases heq : x = va
          · exact Or.inl heq
          · have hxne : x.toNat ≠ va.toNat := fun h => heq (BitVec.eq_of_toNat_eq h)
            exact Or.inr ⟨hx, BitVec.le_def.mpr (by omega)⟩
      · obtain ⟨fuel, rfl⟩ := Nat.exists_eq_succ_of_ne_zero (Nat.ne_zero_of_lt hfuel)
        rw [KernelSearchIterator.collect, hnext, checkedAdd_eq_ok hsum, Exec.ok_bind,
          Exec.pure_eq_ok, Exec.ok_bind]
        dsimp only
        rw [hrun fuel (by omega)]
        rfl

/-- **A run that meets the last address of all overflows** after it. -/
theorem collect_of_last (it : KernelSearchIterator) {limit : ℕ}
    (hm : Memory.SearchContract memory it.bufLen limit)
    (hpages : SearchesWithin it.arch.mmuDesc memory it.mmuAddr it.arch.kernelBase limit)
    (hne : it.needle ≠ [])
    (hlast : KernelHit it.arch memory it.mmuAddr it.needle (BitVec.allOnes 64))
    (n : ℕ) (hbase : IsRestart it.arch memory it.mmuAddr it.needle base)
    (hn : 2 ^ 64 - base.toNat ≤ n) (fuel : ℕ) (hfuel : n < fuel) :
    (it.at base).collect memory fuel = .error .panic := by
  induction n generalizing base fuel with
  | zero =>
    have hlt := base.isLt
    omega
  | succ n ih =>
    obtain ⟨fuel, rfl⟩ := Nat.exists_eq_succ_of_ne_zero (Nat.ne_zero_of_lt hfuel)
    rw [KernelSearchIterator.collect]
    obtain ⟨hnext, hno⟩ | ⟨va, ⟨⟨hva, hle⟩, hleast⟩, hnext⟩ := next_spec it hm hpages hne hbase
    · have hall : base ≤ BitVec.allOnes 64 :=
        BitVec.le_def.mpr (Nat.le_pred_of_lt base.isLt)
      exact absurd hall (hno _ hlast)
    · rw [hnext]
      by_cases heq : va = BitVec.allOnes 64
      · subst heq
        rfl
      · obtain ⟨hsum, hadd, hrestart⟩ := isRestart_succ hva heq
        have hle' := BitVec.le_def.mp hle
        rw [checkedAdd_eq_ok hsum, Exec.ok_bind, Exec.pure_eq_ok, Exec.ok_bind]
        dsimp only
        rw [ih hrestart (by omega) fuel (by omega)]
        rfl

/-- A copy of two bytes or more never begins at the last address. -/
theorem not_kernelHit_last (hlen : 2 ≤ needle.length) :
    ¬ KernelHit arch memory mmuAddr needle (BitVec.allOnes 64) := by
  rintro ⟨-, leaf, bs, hleaf, hread, hocc⟩
  have hshift := shift_of_leafOf levelsTo_levels hleaf
  have h48 : addrBits = 48 := rfl
  have hbs := Memory.length_readPhysical hread
  have hle := hocc.length_le
  have hrem : (BitVec.allOnes 64).toNat % 2 ^ leaf.shift = 2 ^ leaf.shift - 1 := by
    rw [BitVec.toNat_allOnes]
    have hdvd : 2 ^ leaf.shift ∣ 2 ^ 64 := Nat.pow_dvd_pow 2 (by omega)
    obtain ⟨q, hq⟩ := hdvd
    have hpos := Nat.two_pow_pos leaf.shift
    have hqpos : 0 < q := Nat.pos_of_ne_zero (by rintro rfl; omega)
    obtain ⟨p, rfl⟩ := Nat.exists_eq_succ_of_ne_zero hqpos.ne'
    rw [hq, Nat.mul_succ, Nat.add_sub_assoc hpos, Nat.mul_add_mod,
      Nat.mod_eq_of_lt (Nat.sub_lt hpos Nat.one_pos)]
  rw [List.length_drop, hbs, hrem] at hle
  have hpos := Nat.two_pow_pos leaf.shift
  omega

/-- **The iterator yields all hits in order, each once, and ends, unless the
last address of all is a hit.** After a hit at `u64::MAX` the next start
address overflows. -/
theorem iterInKernelMemory_complete_iff (arch : RuntimeArchitecture) (memory : M)
    (hm : Memory.Contract memory) (mmuAddr : PhysicalAddress)
    (needle : List UInt8) (hne : needle ≠ []) :
    (∃ (l : List VirtualAddress) (n : ℕ), l.Pairwise (· < ·)
        ∧ (∀ va, va ∈ l ↔ KernelHit arch memory mmuAddr needle va)
        ∧ ∀ fuel ≥ n, (iterInKernelMemory arch mmuAddr needle).collect memory fuel
          = .ok (l.map .ok))
      ↔ ¬ KernelHit arch memory mmuAddr needle (BitVec.allOnes 64) := by
  have hstart : IsRestart arch memory mmuAddr needle arch.kernelBase := Or.inl rfl
  have hwithin := hm.within (iterInKernelMemory arch mmuAddr needle).bufLen (2 ^ 48)
  have hpages := searchesWithin_all arch.mmuDesc memory mmuAddr arch.kernelBase
  constructor
  · rintro ⟨l, n, -, -, hrun⟩ hlast
    have hpanic := collect_of_last (iterInKernelMemory arch mmuAddr needle)
      hwithin hpages hne hlast _ hstart le_rfl (n + 2 ^ 64 + 1) (by omega)
    have hok := hrun (n + 2 ^ 64 + 1) (by omega)
    exact absurd (hok.symm.trans hpanic) (by simp)
  · intro hlast
    obtain ⟨l, hsorted, hmem, hrun⟩ := collect_of_not_last
      (iterInKernelMemory arch mmuAddr needle) hwithin hpages hne hlast _ hstart le_rfl
    refine ⟨l, _, hsorted, fun va => ?_, hrun⟩
    exact (hmem va).trans ⟨fun h => h.1, fun h => ⟨h, h.1⟩⟩

/-- The last byte of the address space is a hit in the memory whose table
leads to itself. -/
theorem selfMap_kernelHit :
    KernelHit .x86_64 selfMap 0 [0xaa] (BitVec.allOnes 64) :=
  ((searchHit_restart (RawMemory.contract selfMap).toCoherent (Or.inl rfl)).mp selfMap_hit).1

/-- There, the run overflows after its one hit. -/
theorem iterInKernelMemory_selfMap :
    ¬ ∃ (l : List VirtualAddress) (n : ℕ), l.Pairwise (· < ·)
        ∧ (∀ va, va ∈ l ↔ KernelHit .x86_64 selfMap 0 [0xaa] va)
        ∧ ∀ fuel ≥ n, (iterInKernelMemory .x86_64 0 [0xaa]).collect selfMap fuel
          = .ok (l.map .ok) := by
  rintro ⟨l, n, -, -, hrun⟩
  have hpanic := collect_of_last (iterInKernelMemory .x86_64 0 [0xaa])
    ((RawMemory.contract selfMap).within _ (2 ^ 48)) (searchesWithin_all _ _ _ _) (by decide)
    selfMap_kernelHit _ (Or.inl rfl) le_rfl
    (n + 2 ^ 64 + 1) (by omega)
  have hok := hrun (n + 2 ^ 64 + 1) (by omega)
  exact absurd (hok.symm.trans hpanic) (by simp)

/-- A pattern of two bytes is found everywhere it is. -/
theorem iterInKernelMemory_selfMap_two :
    ∃ (l : List VirtualAddress) (n : ℕ), l.Pairwise (· < ·)
        ∧ (∀ va, va ∈ l ↔ KernelHit .x86_64 selfMap 0 [0, 0xaa] va)
        ∧ ∀ fuel ≥ n, (iterInKernelMemory .x86_64 0 [0, 0xaa]).collect selfMap fuel
          = .ok (l.map .ok) :=
  (iterInKernelMemory_complete_iff .x86_64 selfMap (RawMemory.contract selfMap) 0
    [0, 0xaa] (by decide)).mpr (not_kernelHit_last (by decide))

end Run
