import Vminer.Dump
import Vminer.Windows

/-!
# Windows entries and the levels of the walk

The hardware walk that fails reports the entry it stopped at and not the level
it was found at. `Windows::read_virtual_memory_raw` takes every such entry for
one of the last level, which maps a page of 4 KiB. An entry of an upper level
covers more, and in transition it designates a table: the bytes that are read
there as the page are bytes of the table.

`walkStop` is the walk that remembers the level, and `walk_eq_invalid_iff` says
that it stops where the walk of the source does. Reads respect the levels
exactly if no entry met above the last level is usable as a leaf
(`readVirtualMemoryRaw_respectsLevels_iff`).
-/

variable {B : Type} [Memory B]

/-! ## Where the walk stops -/

/-- **Where the walk stops**: the level of the first entry on the way that is
not valid, and the entry. -/
def walkStop (desc : MmuDesc) (memory : B) (addr : VirtualAddress) :
    List (ℕ × Bool) → MmuEntry → Option (ℕ × MmuEntry)
  | [], _ => none
  | (shift, hasHuge) :: rest, entry =>
    match Memory.readPhysical memory
        (entryAddr shift (MmuEntry.takeBits entry 12 addrBits) addr) 8 with
    | .error _ => none
    | .ok bytes =>
      let next := Layout.u64.dec bytes
      if !desc.isValid next then some (shift, next)
      else if hasHuge && desc.isLarge next then none
      else walkStop desc memory addr rest next

/-- **The walk fails with the entry it stops at.** -/
theorem walk_eq_invalid_iff (desc : MmuDesc) (memory : B) (addr : VirtualAddress)
    {top : ℕ} {levels : List (ℕ × Bool)} (hl : LevelsTo top levels)
    (htop : top ≤ addrBits) (entry stop : MmuEntry) :
    walk desc memory addr levels entry = Exec.fail (.invalid stop)
      ↔ ∃ shift, walkStop desc memory addr levels entry = some (shift, stop) := by
  induction levels generalizing top entry with
  | nil =>
    rw [walk_nil]
    simp [walkStop, Exec.fail]
  | cons level rest ih =>
    obtain ⟨shift, hasHuge⟩ := level
    obtain ⟨rfl, hrest⟩ := hl
    rw [walk_cons desc memory addr (by omega), walkStop]
    cases hread : Memory.readPhysical memory
        (entryAddr shift (MmuEntry.takeBits entry 12 addrBits) addr) 8 with
    | error e =>
      -- an entry that cannot be read is an error of the memory
      cases e <;> simp [Exec.fail]
    | ok bytes =>
      rw [Exec.mapErr_ok, Exec.ok_bind]
      dsimp only
      by_cases hvalid : (!desc.isValid (Layout.u64.dec bytes)) = true
      · rw [if_pos hvalid, if_pos hvalid]
        simp [Exec.fail]
      · rw [if_neg hvalid, if_neg hvalid]
        by_cases hlarge : (hasHuge && desc.isLarge (Layout.u64.dec bytes)) = true
        · rw [if_pos hlarge, if_pos hlarge]
          simp [Exec.fail]
        · rw [if_neg hlarge, if_neg hlarge]
          exact ih hrest (by omega) _

section Backend

variable [HasVcpus B]

/-- Where the backend's translation of an address stops. -/
def Backend.stopsAt (backend : B) (mmuAddr : PhysicalAddress) (addr : VirtualAddress) :
    Option (ℕ × MmuEntry) :=
  walkStop (Backend.mmuDesc backend) backend addr levels mmuAddr

/-- Reading stops with the entry the translation stops at. -/
theorem Backend.readVirtualMemory_of_stop {backend : B} {mmuAddr : PhysicalAddress}
    {addr : VirtualAddress} {shift : ℕ} {entry : MmuEntry}
    (h : Backend.stopsAt backend mmuAddr addr = some (shift, entry)) (len : ℕ) :
    Backend.readVirtualMemory backend mmuAddr addr len = Exec.fail (.invalid entry) := by
  have hwalk := (walk_eq_invalid_iff (Backend.mmuDesc backend) backend addr
    levelsTo_levels le_rfl mmuAddr entry).mpr ⟨shift, h⟩
  show (virtualToPhysical _ backend mmuAddr addr >>= _) = _
  rw [virtualToPhysical, hwalk]
  rfl

end Backend

/-! ## Entries that are usable as a leaf -/

/-- A stretch of physical memory can be read. -/
def Readable (backend : B) (addr : PhysicalAddress) (len : ℕ) : Prop :=
  ∃ bytes, Memory.readPhysical backend addr len = .ok bytes

/-- The place of an address in a page does not overflow. -/
theorem checked_pageOffset {ε : Type} (pte : U64) {hi : ℕ} (hlo : 12 ≤ hi)
    (hhi : hi ≤ addrBits) (addr : VirtualAddress) :
    (checkedAdd (pte &&& maskRange 12 hi) (addr &&& mask 12) : Exec ε PhysicalAddress)
      = .ok ((pte &&& maskRange 12 hi) + (addr &&& mask 12)) := by
  have h48 : addrBits = 48 := rfl
  have hpage : (pte &&& maskRange 12 hi).toNat < 2 ^ 48 :=
    (takeBits_lt pte hlo (by omega)).trans_le (Nat.pow_le_pow_right (by decide) hhi)
  have hmask := toNat_and_mask addr (show 12 ≤ 64 by decide)
  have hmod := Nat.mod_lt addr.toNat (show 0 < 2 ^ 12 by decide)
  exact checkedAdd_eq_ok (by omega)

namespace Windows

variable [HasVcpus B] (windows : Windows B) (addr : VirtualAddress) (len : ℕ)

/-- What a prototype entry has to say for the bytes of an address to be
read through it. -/
def PrototypeUsable (pte : MmPte) : Prop :=
  if pte.isValid then
    Readable windows.backend ((pte &&& maskRange 12 48) + (addr &&& mask 12)) len
  else
    match MmPte.classify (windows.unswizzle pte) with
    | .Transition => Readable windows.backend
        (MmPte.transitionPage (windows.unswizzle pte) + (addr &&& mask 12)) len
    | .Zero => True
    | _ => False

/-- **Whether bytes are read from an entry taken as the leaf**: from the page
in transition, as zeros, or through the prototype entry it points to. -/
def UsableAsLeaf (pte : MmPte) : Prop :=
  match MmPte.classify pte with
  | .Software => ∃ proto, Backend.readValueVirtual windows.backend Layout.u64
      windows.kpgd (pte >>> 16) = .ok proto ∧ windows.PrototypeUsable addr len proto
  | .Transition => Readable windows.backend
      (MmPte.transitionPage pte + (addr &&& mask 12)) len
  | .Zero => True
  | .Vad => False
  | .Unknown => False

omit [HasVcpus B] in
/-- Bytes are read through a prototype entry exactly if it is usable. -/
theorem exists_readPrototypePte_iff (pte : MmPte) :
    (∃ bytes, windows.readPrototypePte addr len pte = .ok bytes)
      ↔ windows.PrototypeUsable addr len pte := by
  unfold readPrototypePte PrototypeUsable
  dsimp only
  by_cases hvalid : pte.isValid = true
  · rw [if_pos hvalid, if_pos hvalid,
      checked_pageOffset pte (by decide) (show 48 ≤ addrBits from le_rfl), Exec.ok_bind]
    simp only [Exec.mapErr_eq_ok_iff]
    rfl
  · rw [if_neg hvalid, if_neg hvalid]
    cases hkind : MmPte.classify (windows.unswizzle pte) with
    | Transition =>
      simp only [MmPte.transitionPage, checked_pageOffset _ (show 12 ≤ 40 by decide)
        (show 40 ≤ addrBits by decide), Exec.ok_bind, Exec.mapErr_eq_ok_iff]
      rfl
    | Zero => simp
    | Software => simp [Exec.fail]
    | Vad => simp [Exec.fail]
    | Unknown => simp [Exec.fail]

/-- The branches that take an entry as the leaf. -/
def TakenAsLeaf (pte : MmPte) : Prop :=
  MmPte.classify pte = .Transition ∨ MmPte.classify pte = .Zero
    ∨ MmPte.classify pte = .Software

variable (fuel : ℕ) (mmuAddr : PhysicalAddress) (proc : Option Os.Process)

/-- **A read respects the levels of the walk**: bytes come from an entry that
is taken as the leaf only if it was met at the last level. -/
def RespectsLevels : Prop :=
  ∀ shift entry, Backend.stopsAt windows.backend mmuAddr addr = some (shift, entry) →
    TakenAsLeaf (windows.unswizzle entry) →
    (∃ bytes, windows.readVirtualMemoryRaw fuel mmuAddr addr len proc = .ok bytes) →
    shift = 12

/-- Where the walk stops, at whatever level, the entry is taken as the
leaf. -/
theorem exists_readVirtualMemoryRaw_iff {shift : ℕ} {entry : MmuEntry}
    (hstop : Backend.stopsAt windows.backend mmuAddr addr = some (shift, entry)) :
    (TakenAsLeaf (windows.unswizzle entry)
        ∧ ∃ bytes, windows.readVirtualMemoryRaw fuel mmuAddr addr len proc = .ok bytes)
      ↔ windows.UsableAsLeaf addr len (windows.unswizzle entry) := by
  unfold readVirtualMemoryRaw readVirtualMemoryRawWith TakenAsLeaf UsableAsLeaf
  rw [Backend.readVirtualMemory_of_stop hstop]
  simp only [Exec.fail]
  cases hkind : MmPte.classify (windows.unswizzle entry) with
  | Software =>
    simp only [Exec.bind_eq_ok_iff, reduceCtorEq, or_true, true_and]
    rw [exists_comm]
    refine exists_congr fun proto => ?_
    rw [← exists_readPrototypePte_iff, ← exists_and_left]
  | Transition =>
    simp only [MmPte.transitionPage, checked_pageOffset _ (show 12 ≤ 40 by decide)
      (show 40 ≤ addrBits by decide), Exec.ok_bind, Exec.mapErr_eq_ok_iff, true_or,
      true_and]
    rfl
  | Vad => simp
  | Zero => simp
  | Unknown => simp

end Windows

/-- **Reads respect the levels exactly if no entry above the last level is
usable as a leaf.** -/
theorem readVirtualMemoryRaw_respectsLevels_iff [HasVcpus B] (windows : Windows B)
    (fuel : ℕ) (mmuAddr : PhysicalAddress) (addr : VirtualAddress) (len : ℕ)
    (proc : Option Os.Process) :
    windows.RespectsLevels addr len fuel mmuAddr proc
      ↔ ∀ shift entry,
        Backend.stopsAt windows.backend mmuAddr addr = some (shift, entry) →
        shift ≠ 12 → ¬ windows.UsableAsLeaf addr len (windows.unswizzle entry) := by
  refine forall_congr' fun shift => forall_congr' fun entry => imp_congr_right fun hstop => ?_
  have hleaf := windows.exists_readVirtualMemoryRaw_iff addr len fuel mmuAddr proc hstop
  constructor
  · intro h hshift husable
    obtain ⟨htaken, hread⟩ := hleaf.mpr husable
    exact hshift (h htaken hread)
  · intro h htaken hread
    by_contra hshift
    exact h hshift (hleaf.mp ⟨htaken, hread⟩)

/-- A guest of sixteen bytes: the first table entry is in transition. -/
def transitionTable : Windows (DumbDump RawMemory) where
  backend := {
    vcpus := .x86_64 []
    mem := ⟨[⟨0, 16⟩], [0],
      RawMemory.new [0, 8, 0, 0, 0, 0, 0, 0, 0xaa, 0xbb, 0, 0, 0, 0, 0, 0]⟩ }
  kpgd := 0
  baseAddr := 0
  layouts := fun _ => none
  psLoadedModuleList := 0
  unswizzleMask := ~~~ 0

/-- **The walk stops at the first level, and bytes are read**: those of the
table. -/
theorem not_respectsLevels_transitionTable :
    Backend.stopsAt transitionTable.backend 0 8 = some (39, 0x800)
      ∧ transitionTable.readVirtualMemoryRaw 0 0 8 2 none = .ok [0xaa, 0xbb]
      ∧ ¬ transitionTable.RespectsLevels 8 2 0 0 none := by
  have hstop : Backend.stopsAt transitionTable.backend 0 8 = some (39, 0x800) := by decide
  have hread : transitionTable.readVirtualMemoryRaw 0 0 8 2 none = .ok [0xaa, 0xbb] := by
    decide
  refine ⟨hstop, hread, fun h => ?_⟩
  exact absurd (h 39 0x800 hstop (Or.inl (by decide)) ⟨_, hread⟩) (by decide)
