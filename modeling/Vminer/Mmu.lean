import Vminer.Mem

/-!
# Address translation

The MMU of both architectures: four levels of tables of 512 entries, each
indexed by nine bits of the virtual address, with large pages allowed at the
two middle levels. `MmuDesc` is what differs between them – which entries are
valid and which of them map a large page.

`virtualToPhysical` is the walk of the source, which reads one entry of eight
bytes at each level. Next to it stands the meaning of the tables, `leafOf`:
the leaf page that holds an address, found through tables that can each be
read as a whole. The two are connected by `walk_of_leaf` – where there is a
leaf page, the walk ends in it – and both only depend on the page an address
is in (`walk_eq_of_page`, `leafOf_eq_of_page`).
-/

/-- `MmuDesc`: which entries of a table are valid, and which map a large
page. -/
structure MmuDesc where
  isValid : MmuEntry → Bool
  isLarge : MmuEntry → Bool

/-- `MmuDesc::ADDR_BITS` -/
def addrBits : ℕ := 48

/-- `MmuDesc::LEVELS`: the shift of each level, and whether a large page may
be met there. -/
def levels : List (ℕ × Bool) := [(39, false), (30, true), (21, true), (12, false)]

/-- `MmuDesc` of `x86_64` -/
def X86_64.mmuDesc : MmuDesc where
  isValid entry := entry &&& 1 != 0
  isLarge entry := entry &&& ((1 : U64) <<< 7) != 0

/-- `MmuDesc` of `aarch64` -/
def Aarch64.mmuDesc : MmuDesc where
  isValid entry := entry &&& 1 != 0
  isLarge entry := entry &&& 2 == 0

/-- `runtime::Architecture` -/
inductive RuntimeArchitecture where
  | x86_64
  | aarch64
deriving DecidableEq, Repr

namespace RuntimeArchitecture

/-- The MMU of an architecture. -/
def mmuDesc : RuntimeArchitecture → MmuDesc
  | x86_64 => X86_64.mmuDesc
  | aarch64 => Aarch64.mmuDesc

/-- `Architecture::kernel_base` -/
def kernelBase : RuntimeArchitecture → VirtualAddress
  | x86_64 => 0xffff_f800_0000_0000
  | aarch64 => 0xffff_a000_0000_0000

end RuntimeArchitecture

variable {M : Type} [Memory M]

/-! ## The walk -/

/-- The loop of `virtual_to_physical`: the levels still to go and the entry
that leads to the next table. -/
def walk (desc : MmuDesc) (memory : M) (addr : VirtualAddress) :
    List (ℕ × Bool) → MmuEntry → Exec TranslationError PhysicalAddress
  | [], mmuEntry =>
    checkedAdd (MmuEntry.takeBits mmuEntry 12 addrBits) (addr &&& mask 12)
  | (shift, hasHuge) :: rest, mmuEntry => do
    let tableAddr := MmuEntry.takeBits mmuEntry 12 addrBits
    let index := (addr >>> shift) &&& mask 9
    let offset ← checkedMul 8 index
    let entryAddr ← checkedAdd tableAddr offset
    let bytes ← Exec.mapErr TranslationError.memory
      (Memory.readPhysical memory entryAddr 8)
    let mmuEntry := Layout.u64.dec bytes
    if !desc.isValid mmuEntry then Exec.fail (.invalid mmuEntry)
    else if hasHuge && desc.isLarge mmuEntry then
      checkedAdd (MmuEntry.takeBits mmuEntry shift addrBits) (addr &&& mask shift)
    else walk desc memory addr rest mmuEntry

/-- `virtual_to_physical` -/
def virtualToPhysical (desc : MmuDesc) (memory : M)
    (mmuAddr : PhysicalAddress) (addr : VirtualAddress) :
    Exec TranslationError PhysicalAddress :=
  walk desc memory addr levels mmuAddr

/-- `levels` cut the low `top` bits of an address into groups of nine, down
to the twelve bits of a page. -/
def LevelsTo : ℕ → List (ℕ × Bool) → Prop
  | top, [] => top = 12
  | top, (shift, _) :: rest => top = shift + 9 ∧ LevelsTo shift rest

/-- The four levels cut 48 bits. -/
theorem levelsTo_levels : LevelsTo addrBits levels := by
  unfold levels addrBits LevelsTo LevelsTo LevelsTo LevelsTo LevelsTo
  decide

/-- No level is below the page offset. -/
theorem LevelsTo.le {top : ℕ} {levels : List (ℕ × Bool)}
    (h : LevelsTo top levels) : 12 ≤ top := by
  induction levels generalizing top with
  | nil => exact h.ge
  | cons level rest ih =>
    obtain ⟨rfl, hrest⟩ := h
    exact (ih hrest).trans (Nat.le_add_right _ 9)

/-! ## One step of the walk -/

section Step

variable (desc : MmuDesc) (memory : M) (addr : VirtualAddress)

/-- The address of the entry of `addr` in a table. -/
def entryAddr (shift : ℕ) (tableAddr : PhysicalAddress)
    (addr : VirtualAddress) : PhysicalAddress :=
  tableAddr + BitVec.ofNat 64 (8 * (addr.toNat / 2 ^ shift % 512))

/-- The address in a page at `frame` that corresponds to `addr`. -/
def inFrame (frame : PhysicalAddress) (shift : ℕ) (addr : VirtualAddress) :
    PhysicalAddress := frame + (addr &&& mask shift)

/-- The place in a page of at most 48 bits. -/
theorem mod_lt_of_shift_le {shift : ℕ} (h : shift ≤ addrBits) (n : ℕ) :
    n % 2 ^ shift < 2 ^ 48 :=
  (Nat.mod_lt _ (Nat.two_pow_pos _)).trans_le
    (Nat.pow_le_pow_right (by decide) h)

/-- A frame is a 48-bit address. -/
theorem frame_lt (entry : MmuEntry) {shift : ℕ} (h : shift ≤ addrBits) :
    (MmuEntry.takeBits entry shift addrBits).toNat < 2 ^ 48 :=
  takeBits_lt entry h (by decide)

/-- A frame and the place in it do not overlap. -/
theorem toNat_inFrame {frame : PhysicalAddress} (hframe : frame.toNat < 2 ^ 48)
    {shift : ℕ} (h : shift ≤ addrBits) :
    (inFrame frame shift addr).toNat = frame.toNat + addr.toNat % 2 ^ shift := by
  have hmask := toNat_and_mask addr (show shift ≤ 64 from h.trans (by decide))
  have hmod := mod_lt_of_shift_le h addr.toNat
  unfold inFrame
  rw [toNat_add_of_lt (by omega), hmask]

/-- Adding the place in a page does not overflow. -/
theorem checked_inFrame {ε : Type} (entry : MmuEntry) {shift : ℕ}
    (h : shift ≤ addrBits) :
    (checkedAdd (MmuEntry.takeBits entry shift addrBits) (addr &&& mask shift)
      : Exec ε PhysicalAddress)
      = .ok (inFrame (MmuEntry.takeBits entry shift addrBits) shift addr) := by
  have hmask := toNat_and_mask addr (show shift ≤ 64 from h.trans (by decide))
  have hlt := frame_lt entry h
  have hmod := mod_lt_of_shift_le h addr.toNat
  exact checkedAdd_eq_ok (by omega)

/-- The offset of an entry in its table. -/
theorem checked_index {ε : Type} (shift : ℕ) :
    (checkedMul 8 ((addr >>> shift) &&& mask 9) : Exec ε U64)
      = .ok (BitVec.ofNat 64 (8 * (addr.toNat / 2 ^ shift % 512))) := by
  have hindex : ((addr >>> shift) &&& mask 9).toNat
      = addr.toNat / 2 ^ shift % 512 := by
    rw [toNat_and_mask _ (by decide), toNat_shiftRight]
    rfl
  have hmod : addr.toNat / 2 ^ shift % 512 < 512 := Nat.mod_lt _ (by decide)
  generalize addr.toNat / 2 ^ shift % 512 = index at hindex hmod
  have h8 : (8 : U64).toNat = 8 := rfl
  have hlt : (8 : U64).toNat * ((addr >>> shift) &&& mask 9).toNat < 2 ^ 64 := by
    rw [hindex, h8]
    omega
  rw [checkedMul_eq_ok hlt]
  refine congrArg Except.ok (BitVec.eq_of_toNat_eq ?_)
  rw [toNat_mul_of_lt hlt, hindex, h8, BitVec.toNat_ofNat,
    Nat.mod_eq_of_lt (by omega)]

theorem walk_nil (entry : MmuEntry) :
    walk desc memory addr [] entry
      = .ok (inFrame (MmuEntry.takeBits entry 12 addrBits) 12 addr) :=
  checked_inFrame addr entry (by decide)

/-- **One level of the walk**: the entry is read; it ends the walk when it is
not valid or maps a large page. -/
theorem walk_cons {shift : ℕ} (hshift : shift ≤ addrBits) (hasHuge : Bool)
    (rest : List (ℕ × Bool)) (entry : MmuEntry) :
    walk desc memory addr ((shift, hasHuge) :: rest) entry
      = (do
        let bytes ← Exec.mapErr TranslationError.memory
          (Memory.readPhysical memory
            (entryAddr shift (MmuEntry.takeBits entry 12 addrBits) addr) 8)
        let next := Layout.u64.dec bytes
        if !desc.isValid next then Exec.fail (.invalid next)
        else if hasHuge && desc.isLarge next then
          .ok (inFrame (MmuEntry.takeBits next shift addrBits) shift addr)
        else walk desc memory addr rest next) := by
  have hmod : addr.toNat / 2 ^ shift % 512 < 512 := Nat.mod_lt _ (by decide)
  have hlt := frame_lt entry (show 12 ≤ addrBits by decide)
  have hentry : (checkedAdd (MmuEntry.takeBits entry 12 addrBits)
      (BitVec.ofNat 64 (8 * (addr.toNat / 2 ^ shift % 512)))
        : Exec TranslationError PhysicalAddress)
      = .ok (entryAddr shift (MmuEntry.takeBits entry 12 addrBits) addr) :=
    checkedAdd_eq_ok (by rw [BitVec.toNat_ofNat]; omega)
  rw [walk]
  simp only [checked_inFrame addr _ hshift]
  rw [checked_index, Exec.ok_bind, hentry, Exec.ok_bind]

end Step

/-! ## The meaning of the tables -/

/-- The layout of a translation table. -/
def tableLayout : Layout (Fin 512 → MmuEntry) := Layout.array Layout.u64 512

/-- The index of an address in the tables of a level. -/
def tableIndex (shift va : ℕ) : Fin 512 :=
  ⟨va / 2 ^ shift % 512, Nat.mod_lt _ (by decide)⟩

/-- A leaf page: the number of bits of an address inside it and the physical
address it is at. -/
structure Leaf where
  shift : ℕ
  frame : PhysicalAddress
deriving DecidableEq, Repr

/-- The virtual address at which the page of `va` begins. -/
def Leaf.pageStart (leaf : Leaf) (va : ℕ) : ℕ :=
  va / 2 ^ leaf.shift * 2 ^ leaf.shift

/-- **The leaf page that holds `va`**, below a table that can be read as a
whole: the entry of `va` in it is valid, and either maps a page itself or
leads to a table of the next level. -/
def leafOf (desc : MmuDesc) (memory : M) :
    List (ℕ × Bool) → PhysicalAddress → ℕ → Option Leaf
  | [], _, _ => none
  | (shift, hasLarge) :: rest, tableAddr, va =>
    match Memory.readPhysical memory tableAddr tableLayout.size with
    | .error _ => none
    | .ok bytes =>
      let entry := tableLayout.dec bytes (tableIndex shift va)
      if !desc.isValid entry then none
      else if rest.isEmpty || (hasLarge && desc.isLarge entry) then
        some ⟨shift, MmuEntry.takeBits entry shift addrBits⟩
      else leafOf desc memory rest (MmuEntry.takeBits entry 12 addrBits) va

section LeafOf

variable {desc : MmuDesc} {memory : M}

/-- A leaf page has at least the size of a page, and is smaller than what the
levels above it cover. -/
theorem shift_of_leafOf {top va : ℕ} {levels : List (ℕ × Bool)}
    {tableAddr : PhysicalAddress} {leaf : Leaf} (hl : LevelsTo top levels)
    (h : leafOf desc memory levels tableAddr va = some leaf) :
    12 ≤ leaf.shift ∧ leaf.shift + 9 ≤ top := by
  induction levels generalizing top tableAddr with
  | nil => exact absurd h (by simp [leafOf])
  | cons level rest ih =>
    obtain ⟨shift, hasLarge⟩ := level
    obtain ⟨rfl, hrest⟩ := hl
    rw [leafOf] at h
    split at h
    · exact absurd h (by simp)
    · dsimp only at h
      split at h
      · exact absurd h (by simp)
      · split at h
        · obtain rfl := Option.some.inj h
          exact ⟨hrest.le, le_rfl⟩
        · have hle := ih hrest h
          exact ⟨hle.1, by omega⟩

/-- The frame of a leaf page is a 48-bit address. -/
theorem frame_of_leafOf {top va : ℕ} {levels : List (ℕ × Bool)}
    {tableAddr : PhysicalAddress} {leaf : Leaf} (hl : LevelsTo top levels)
    (htop : top ≤ addrBits)
    (h : leafOf desc memory levels tableAddr va = some leaf) :
    leaf.frame.toNat < 2 ^ 48 := by
  induction levels generalizing top tableAddr with
  | nil => exact absurd h (by simp [leafOf])
  | cons level rest ih =>
    obtain ⟨shift, hasLarge⟩ := level
    obtain ⟨rfl, hrest⟩ := hl
    rw [leafOf] at h
    split at h
    · exact absurd h (by simp)
    · dsimp only at h
      split at h
      · exact absurd h (by simp)
      · split at h
        · obtain rfl := Option.some.inj h
          exact frame_lt _ (by omega)
        · exact ih hrest (by omega) h

/-- Two addresses of one leaf page are of the same page at every level. -/
theorem tableIndex_eq_of_page {shift small va va' : ℕ} (hle : small ≤ shift)
    (h : va / 2 ^ small = va' / 2 ^ small) :
    tableIndex shift va = tableIndex shift va' := by
  unfold tableIndex
  have hdvd : 2 ^ small ∣ 2 ^ shift := Nat.pow_dvd_pow 2 hle
  refine Fin.ext (congrArg (· % 512) ?_)
  rw [← div_mul_div_of_dvd (Nat.two_pow_pos small) hdvd va, h,
    div_mul_div_of_dvd (Nat.two_pow_pos small) hdvd va']

/-- **The leaf page only depends on the page.** -/
theorem leafOf_eq_of_page {top va va' : ℕ} {levels : List (ℕ × Bool)}
    {tableAddr : PhysicalAddress} {leaf : Leaf} (hl : LevelsTo top levels)
    (h : leafOf desc memory levels tableAddr va = some leaf)
    (hpage : va / 2 ^ leaf.shift = va' / 2 ^ leaf.shift) :
    leafOf desc memory levels tableAddr va' = some leaf := by
  induction levels generalizing top tableAddr with
  | nil => exact absurd h (by simp [leafOf])
  | cons level rest ih =>
    obtain ⟨shift, hasLarge⟩ := level
    have hle := shift_of_leafOf hl h
    obtain ⟨rfl, hrest⟩ := hl
    rw [leafOf] at h ⊢
    rw [← tableIndex_eq_of_page (by omega) hpage]
    split at h
    · exact absurd h (by simp)
    · dsimp only at h ⊢
      split at h
      · exact absurd h (by simp)
      · next hvalid =>
        rw [if_neg hvalid]
        split at h
        · next hleaf => rw [if_pos hleaf, h]
        · next hleaf =>
          rw [if_neg hleaf]
          exact ih hrest h

/-- An entry of a readable table is read alone as what it is in the table. -/
theorem readPhysical_entryAddr (hm : Memory.Coherent memory) (shift : ℕ)
    (addr : VirtualAddress) {entry : MmuEntry} {bytes : List UInt8}
    (h : Memory.readPhysical memory (MmuEntry.takeBits entry 12 addrBits)
      tableLayout.size = .ok bytes) :
    ∃ bs, Memory.readPhysical memory
        (entryAddr shift (MmuEntry.takeBits entry 12 addrBits) addr) 8 = .ok bs
      ∧ Layout.u64.dec bs
        = tableLayout.dec bytes (tableIndex shift addr.toNat) := by
  have hlt := frame_lt entry (show 12 ≤ addrBits by decide)
  have hsize : tableLayout.size = 4096 := rfl
  have hmod : addr.toNat / 2 ^ shift % 512 < 512 := Nat.mod_lt _ (by decide)
  refine ⟨_, hm.read_part _ tableLayout.size bytes _ 8 (by omega) h (by omega), ?_⟩
  show _ = Layout.u64.dec ((bytes.drop (_ * 8)).take 8)
  rw [Nat.mul_comm 8]
  rfl

/-- **The walk ends in the leaf page**, where there is one. -/
theorem walk_of_leaf (hm : Memory.Coherent memory) {top : ℕ}
    {levels : List (ℕ × Bool)} (hl : LevelsTo top levels)
    (htop : top ≤ addrBits) {entry : MmuEntry} {addr : VirtualAddress}
    {leaf : Leaf}
    (h : leafOf desc memory levels (MmuEntry.takeBits entry 12 addrBits)
      addr.toNat = some leaf) :
    walk desc memory addr levels entry
      = .ok (inFrame leaf.frame leaf.shift addr) := by
  induction levels generalizing top entry with
  | nil => exact absurd h (by simp [leafOf])
  | cons level rest ih =>
    obtain ⟨shift, hasLarge⟩ := level
    obtain ⟨rfl, hrest⟩ := hl
    rw [walk_cons desc memory addr (by omega)]
    rw [leafOf] at h
    split at h
    · exact absurd h (by simp)
    · next bytes hbytes =>
      obtain ⟨bs, hbs, hdec⟩ := readPhysical_entryAddr hm shift addr hbytes
      rw [hbs, Exec.mapErr_ok, Exec.ok_bind, hdec]
      dsimp only at h ⊢
      split at h
      · exact absurd h (by simp)
      · next hvalid =>
        rw [if_neg hvalid]
        split at h
        · next hleaf =>
          obtain rfl := Option.some.inj h
          rw [Bool.or_eq_true] at hleaf
          by_cases hlarge : (hasLarge && desc.isLarge
              (tableLayout.dec bytes (tableIndex shift addr.toNat))) = true
          · rw [if_pos hlarge]
          · -- the last level: what is left of the walk is the page offset
            rw [if_neg hlarge]
            obtain rfl := List.isEmpty_iff.mp (hleaf.resolve_right hlarge)
            obtain rfl : shift = 12 := hrest
            exact walk_nil desc memory addr _
        · next hleaf =>
          rw [Bool.or_eq_true, not_or] at hleaf
          rw [if_neg hleaf.2]
          exact ih hrest (by omega) h

end LeafOf

/-- The table the page tables of a process begin with. -/
def rootTable (mmuAddr : PhysicalAddress) : PhysicalAddress :=
  MmuEntry.takeBits mmuAddr 12 addrBits

/-- **Translation finds the leaf page.** -/
theorem virtualToPhysical_of_leaf {desc : MmuDesc} {memory : M}
    (hm : Memory.Coherent memory) {mmuAddr : PhysicalAddress}
    {addr : VirtualAddress} {leaf : Leaf}
    (h : leafOf desc memory levels (rootTable mmuAddr) addr.toNat = some leaf) :
    virtualToPhysical desc memory mmuAddr addr
      = .ok (inFrame leaf.frame leaf.shift addr) :=
  walk_of_leaf hm levelsTo_levels le_rfl h

/-! ## Translation inside a page -/

/-- The place of an address in a page is that of its 4 KiB page plus the
place in that. -/
theorem inFrame_eq_add (frame : PhysicalAddress) {shift : ℕ} (h : 12 ≤ shift)
    (h64 : shift ≤ 64) (addr : VirtualAddress) :
    inFrame frame shift addr
      = inFrame frame shift (pageBase addr) + (addr &&& mask 12) := by
  unfold inFrame
  rw [BitVec.add_assoc]
  refine congrArg (frame + ·) (BitVec.eq_of_toNat_eq ?_)
  have hsplit := mod_eq_add_of_dvd (Nat.pow_dvd_pow 2 h) addr.toNat
  have hlt : addr.toNat % 2 ^ shift < 2 ^ 64 :=
    (Nat.mod_le _ _).trans_lt addr.isLt
  have hbase := toNat_pageBase addr
  rw [toNat_add_of_lt, toNat_and_mask _ h64, toNat_and_mask _ h64,
    toNat_and_mask _ (by decide), hbase]
  · exact hsplit
  · rw [toNat_and_mask _ h64, toNat_and_mask _ (by decide), hbase]
    exact hsplit ▸ hlt

/-- **Addresses of one 4 KiB page are translated alike**: the walk of an
address is the walk of the first address of its page, moved by the place in
the page. -/
theorem walk_page (desc : MmuDesc) (memory : M) (addr : VirtualAddress)
    {top : ℕ} {levels : List (ℕ × Bool)} (hl : LevelsTo top levels)
    (htop : top ≤ addrBits) (entry : MmuEntry) :
    walk desc memory addr levels entry
      = (do
        let base ← walk desc memory (pageBase addr) levels entry
        return base + (addr &&& mask 12)) := by
  have hpage : addr.toNat / 2 ^ 12 = (pageBase addr).toNat / 2 ^ 12 := by
    rw [toNat_pageBase]
    exact (Nat.mul_div_cancel _ (by decide)).symm
  induction levels generalizing top entry with
  | nil =>
    rw [walk_nil, walk_nil, Exec.ok_bind, Exec.pure_eq_ok,
      inFrame_eq_add _ le_rfl (by decide)]
  | cons level rest ih =>
    obtain ⟨shift, hasHuge⟩ := level
    obtain ⟨rfl, hrest⟩ := hl
    have hentry : entryAddr shift (MmuEntry.takeBits entry 12 addrBits) addr
        = entryAddr shift (MmuEntry.takeBits entry 12 addrBits) (pageBase addr) := by
      have hindex := congrArg Fin.val (tableIndex_eq_of_page hrest.le hpage)
      exact congrArg (fun n => _ + BitVec.ofNat 64 (8 * n)) hindex
    rw [walk_cons desc memory addr (by omega),
      walk_cons desc memory (pageBase addr) (by omega), hentry, bind_assoc]
    refine congrArg (_ >>= ·) (funext fun bytes => ?_)
    dsimp only
    split
    · rfl
    · split
      · rw [Exec.ok_bind, Exec.pure_eq_ok, inFrame_eq_add _ hrest.le (by
          have h48 : addrBits = 48 := rfl
          omega)]
      · exact ih hrest (by omega) _

/-- **A translated address** keeps its place in the 4 KiB page, and is below
the end of two times 48 bits. -/
theorem walk_range {desc : MmuDesc} {memory : M} {addr : VirtualAddress}
    {top : ℕ} {levels : List (ℕ × Bool)} (hl : LevelsTo top levels)
    (htop : top ≤ addrBits) {entry : MmuEntry} {p : PhysicalAddress}
    (h : walk desc memory addr levels entry = .ok p) :
    p.toNat % 4096 = addr.toNat % 4096 ∧ p.toNat < 2 ^ 49 := by
  have hframe : ∀ (entry : MmuEntry) {shift : ℕ}, 12 ≤ shift → shift ≤ addrBits →
      (inFrame (MmuEntry.takeBits entry shift addrBits) shift addr).toNat % 4096
          = addr.toNat % 4096
        ∧ (inFrame (MmuEntry.takeBits entry shift addrBits) shift addr).toNat
          < 2 ^ 49 := by
    intro entry shift hlow hhigh
    have hlt := frame_lt entry hhigh
    have hdvd : 4096 ∣ 2 ^ shift := Nat.pow_dvd_pow 2 hlow
    have hrem := mod_lt_of_shift_le hhigh addr.toNat
    rw [toNat_inFrame addr hlt hhigh]
    refine ⟨?_, by omega⟩
    have hbase : 4096 ∣ (MmuEntry.takeBits entry shift addrBits).toNat :=
      hdvd.trans (dvd_takeBits entry hhigh (by decide))
    rw [Nat.add_mod, Nat.mod_eq_zero_of_dvd hbase, Nat.zero_add, Nat.mod_mod,
      Nat.mod_mod_of_dvd _ hdvd]
  induction levels generalizing top entry with
  | nil =>
    rw [walk_nil] at h
    obtain rfl := Except.ok.inj h
    exact hframe entry le_rfl (by decide)
  | cons level rest ih =>
    obtain ⟨shift, hasHuge⟩ := level
    obtain ⟨rfl, hrest⟩ := hl
    rw [walk_cons desc memory addr (by omega)] at h
    obtain ⟨bytes, -, h⟩ := (Exec.bind_eq_ok_iff _ _ _).mp h
    dsimp only at h
    split at h
    · exact absurd h (by simp [Exec.fail])
    · split at h
      · obtain rfl := Except.ok.inj h
        exact hframe _ hrest.le (by omega)
      · exact ih hrest (by omega) h
