import Vminer.Mmu

/-!
# Searching kernel memory

`find_in_kernel_memory` looks for a byte pattern in the virtual memory of the
kernel by walking the translation tables from a start address: at each level
the start address is cut into a prefix, an index and a rest, the valid
entries from the index on are visited in order, and a leaf page is handed to
`Memory::search`. The first page is searched from the rest on, every later
one as a whole.

What the recursion computes is said without it: an address is a *hit*
(`SearchHit`) if it lies in a leaf page whose part from the start address on
is readable and begins a copy of the pattern inside that part. The walk finds
the first hit (`findInKernelMemoryInner_spec`), because at each level the
entries are consecutive blocks of addresses and a scan over consecutive
blocks that stops at the first hit finds the first hit of their union.

`KernelSearchIterator` repeats the search one byte after the last hit. The
restart is in the middle of a page, but a page in which there was a hit is
readable as a whole, so restarting never changes which addresses are hits
(`searchHit_restart`).
-/

variable {M : Type} [Memory M]

/-! ## The walk -/

/-- The branch of `find_in_kernel_memory_inner` that looks for the pattern in
a leaf page. -/
def searchPage (memory : M) (needle : List UInt8) (bufLen shift : ℕ)
    (entry : MmuEntry) (pageSize offset : U64) (baseAddr : VirtualAddress) :
    Exec MemoryAccessError (Option VirtualAddress) := do
  let addr := MmuEntry.takeBits entry shift addrBits
  let addr ← checkedAdd addr offset
  let size ← checkedSub pageSize offset
  match Memory.search memory addr size needle bufLen with
  | .ok (some i) => do
    let found ← checkedAdd baseAddr offset
    let found ← checkedAdd found i
    return some found
  | .ok none => return none
  | .error (.err .outOfBounds) => return none
  | .error e => .error e

/-- The body of the loop of `find_in_kernel_memory_inner` for one valid entry
and its index; `walkNext` is the recursive call on the levels below, of which
there are none if `isLast`. -/
def searchEntry (desc : MmuDesc) (memory : M) (needle : List UInt8)
    (bufLen shift : ℕ) (hasLarge isLast : Bool)
    (walkNext : PhysicalAddress → VirtualAddress →
      Exec MemoryAccessError (Option VirtualAddress))
    (baseSearchAddr : VirtualAddress) (p : MmuEntry × ℕ) :
    Exec MemoryAccessError (Option VirtualAddress) := do
  let pageSize := (1 : U64) <<< shift
  let pre := baseSearchAddr &&& ~~~ mask (shift + 9)
  let baseIndex := ((baseSearchAddr >>> shift) &&& mask 9).toNat
  let searchRest := baseSearchAddr &&& mask shift
  let delta ← checkedMul (BitVec.ofNat 64 p.2) pageSize
  let baseAddr ← checkedAdd pre delta
  let offset := if p.2 = baseIndex then searchRest else 0
  if isLast || (hasLarge && desc.isLarge p.1) then
    searchPage memory needle bufLen shift p.1 pageSize offset baseAddr
  else do
    let base ← checkedAdd baseAddr offset
    walkNext (MmuEntry.takeBits p.1 12 addrBits) base

/-- `find_in_kernel_memory_inner` -/
def findInKernelMemoryInner (desc : MmuDesc) (memory : M)
    (needle : List UInt8) (bufLen : ℕ) :
    List (ℕ × Bool) → PhysicalAddress → VirtualAddress →
      Exec MemoryAccessError (Option VirtualAddress)
  | [], _, _ => .ok none
  | (shift, hasLarge) :: rest, tableAddr, baseSearchAddr =>
    match Memory.readPhysical memory tableAddr tableLayout.size with
    | .error (.err .outOfBounds) => .ok none
    | .error e => .error e
    | .ok bytes =>
      let table := List.ofFn (tableLayout.dec bytes)
      let baseIndex := ((baseSearchAddr >>> shift) &&& mask 9).toNat
      let entries := (table.zipIdx.drop baseIndex).filter
        (fun p => desc.isValid p.1)
      entries.findSomeM? (searchEntry desc memory needle bufLen shift hasLarge
        rest.isEmpty (findInKernelMemoryInner desc memory needle bufLen rest)
        baseSearchAddr)

/-- `find_in_kernel_memory_raw` -/
def findInKernelMemoryRaw (desc : MmuDesc) (memory : M)
    (mmuAddr : PhysicalAddress) (baseSearchAddr : VirtualAddress)
    (needle : List UInt8) (bufLen : ℕ) :
    Exec MemoryAccessError (Option VirtualAddress) :=
  findInKernelMemoryInner desc memory needle bufLen levels (rootTable mmuAddr)
    baseSearchAddr

/-- `find_in_kernel_memory` -/
def findInKernelMemory (desc : MmuDesc) (memory : M)
    (mmuAddr : PhysicalAddress) (needle : List UInt8)
    (baseSearchAddr : VirtualAddress) :
    Exec MemoryAccessError (Option VirtualAddress) :=
  findInKernelMemoryRaw desc memory mmuAddr baseSearchAddr needle
    ((1 <<< 21) + needle.length)

/-! ## Hits -/

/-- The bytes of the leaf page of `va` from the address `base` on, if `base`
is inside the page, and of the whole page if it is before it. -/
def Leaf.readFrom (leaf : Leaf) (memory : M) (base va : ℕ) :
    Exec MemoryAccessError (List UInt8) :=
  let offset := max (leaf.pageStart va) base - leaf.pageStart va
  Memory.readPhysical memory (leaf.frame + BitVec.ofNat 64 offset)
    (2 ^ leaf.shift - offset)

/-- **A copy of the pattern begins at `va`** and lies inside the leaf page of
`va`, whose part from `base` on is readable. -/
def HitBelow (desc : MmuDesc) (memory : M) (needle : List UInt8)
    (levels : List (ℕ × Bool)) (tableAddr : PhysicalAddress) (base va : ℕ) :
    Prop :=
  ∃ leaf bs, leafOf desc memory levels tableAddr va = some leaf
    ∧ leaf.readFrom memory base va = .ok bs
    ∧ needle <+: bs.drop (va - max (leaf.pageStart va) base)

/-- **The hits of a search from `base`**: those at `base` or after it with
the same bits above the 48 that are translated. -/
def SearchHit (desc : MmuDesc) (memory : M) (mmuAddr : PhysicalAddress)
    (needle : List UInt8) (base va : VirtualAddress) : Prop :=
  base ≤ va ∧ va >>> 48 = base >>> 48
    ∧ HitBelow desc memory needle levels (rootTable mmuAddr) base.toNat va.toNat

/-! ## Blocks of addresses

The addresses below one entry of a table are a block of `2 ^ shift`
addresses; the 512 blocks of the table that holds `base` begin where the bits
of `base` from `shift + 9` on say. -/

/-- The first address of the `i`-th block of the table of `base`. -/
def blockStart (shift base i : ℕ) : ℕ :=
  base / 2 ^ (shift + 9) * 2 ^ (shift + 9) + i * 2 ^ shift

theorem blockStart_eq (shift base i : ℕ) :
    blockStart shift base i
      = (base / 2 ^ (shift + 9) * 512 + i) * 2 ^ shift := by
  unfold blockStart
  rw [pow_add]
  ring

theorem blockStart_succ (shift base i : ℕ) :
    blockStart shift base (i + 1) = blockStart shift base i + 2 ^ shift := by
  unfold blockStart
  ring

theorem blockStart_mono (shift base : ℕ) : Monotone (blockStart shift base) := by
  intro i j h
  exact Nat.add_le_add_left (Nat.mul_le_mul_right _ h) _

/-- The start address is in the block of its index, at its rest. -/
theorem blockStart_add_mod (shift base : ℕ) :
    blockStart shift base (base / 2 ^ shift % 512) + base % 2 ^ shift = base := by
  have hdiv : base / 2 ^ (shift + 9) = base / 2 ^ shift / 512 := by
    rw [Nat.div_div_eq_div_mul, pow_add]
    rfl
  rw [blockStart_eq, hdiv, Nat.div_add_mod', Nat.div_add_mod']

/-- The blocks of a table end inside the address space. -/
theorem blockStart_le {shift base i : ℕ} (hshift : shift + 9 ≤ 64)
    (hbase : base < 2 ^ 64) (hi : i ≤ 512) : blockStart shift base i ≤ 2 ^ 64 := by
  have hsplit : 2 ^ 64 = 2 ^ (64 - (shift + 9)) * 2 ^ (shift + 9) := by
    rw [← pow_add, Nat.sub_add_cancel hshift]
  have hlt : base / 2 ^ (shift + 9) < 2 ^ (64 - (shift + 9)) := by
    rw [Nat.div_lt_iff_lt_mul (Nat.two_pow_pos _), ← hsplit]
    exact hbase
  calc blockStart shift base i
      ≤ blockStart shift base 512 := blockStart_mono shift base hi
    _ = (base / 2 ^ (shift + 9) + 1) * 2 ^ (shift + 9) := by
        unfold blockStart
        rw [pow_add]
        ring
    _ ≤ 2 ^ (64 - (shift + 9)) * 2 ^ (shift + 9) := Nat.mul_le_mul_right _ hlt
    _ = 2 ^ 64 := hsplit.symm

/-- The page of an address in a block is the block. -/
theorem div_of_mem_block {shift base i va : ℕ}
    (hlo : blockStart shift base i ≤ va) (hhi : va < blockStart shift base (i + 1)) :
    va / 2 ^ shift = base / 2 ^ (shift + 9) * 512 + i := by
  rw [blockStart_eq] at hlo hhi
  exact (Nat.div_eq_iff (Nat.two_pow_pos shift)).mpr
    ⟨hlo, by rw [← Nat.add_assoc, Nat.succ_mul] at hhi; omega⟩

/-- An address in a block has the index of the block. -/
theorem tableIndex_of_mem_block {shift base i va : ℕ} (hi : i < 512)
    (hlo : blockStart shift base i ≤ va) (hhi : va < blockStart shift base (i + 1)) :
    tableIndex shift va = ⟨i, hi⟩ := by
  refine Fin.ext ?_
  show va / 2 ^ shift % 512 = i
  rw [div_of_mem_block hlo hhi]
  omega

/-- The page of an address in a block begins in the block. -/
theorem blockStart_le_pageStart {shift base i va : ℕ} (leaf : Leaf)
    (hleaf : leaf.shift ≤ shift) (hlo : blockStart shift base i ≤ va) :
    blockStart shift base i ≤ leaf.pageStart va := by
  have hdvd : 2 ^ leaf.shift ∣ blockStart shift base i := by
    rw [blockStart_eq]
    exact Dvd.dvd.mul_left (Nat.pow_dvd_pow 2 hleaf) _
  obtain ⟨q, hq⟩ := hdvd
  unfold Leaf.pageStart
  rw [hq, Nat.mul_comm _ q] at hlo ⊢
  exact Nat.mul_le_mul_right _ ((Nat.le_div_iff_mul_le (Nat.two_pow_pos _)).mpr hlo)

/-- **The pages that are mapped in a range** have a size of at most `limit`. -/
def PagesWithin (desc : MmuDesc) (memory : M) (limit : ℕ) (levels : List (ℕ × Bool))
    (tableAddr : PhysicalAddress) (lo hi : ℕ) : Prop :=
  ∀ va, lo ≤ va → va < hi → ∀ leaf, leafOf desc memory levels tableAddr va = some leaf →
    2 ^ leaf.shift ≤ limit

/-- A smaller range has no other pages. -/
theorem PagesWithin.mono {desc : MmuDesc} {memory : M} {limit : ℕ} {levels : List (ℕ × Bool)}
    {tableAddr : PhysicalAddress} {lo hi lo' hi' : ℕ}
    (h : PagesWithin desc memory limit levels tableAddr lo hi) (hlo : lo ≤ lo') (hhi : hi' ≤ hi) :
    PagesWithin desc memory limit levels tableAddr lo' hi' :=
  fun va hlo' hhi' => h va (hlo.trans hlo') (hhi'.trans_le hhi)

/-! ## One entry -/

section Entry

variable {desc : MmuDesc} {memory : M} {needle : List UInt8} {bufLen limit : ℕ}

/-- The address computed for an entry is the start of its block. -/
theorem checked_blockStart {ε : Type} {shift : ℕ} (hshift : shift + 9 ≤ addrBits)
    (base : VirtualAddress) {i : ℕ} (hi : i < 512) :
    (do
      let delta ← checkedMul (BitVec.ofNat 64 i) ((1 : U64) <<< shift)
      checkedAdd (base &&& ~~~ mask (shift + 9)) delta : Exec ε VirtualAddress)
      = .ok (BitVec.ofNat 64 (blockStart shift base.toNat i)) := by
  have h48 : addrBits = 48 := rfl
  have hend := blockStart_le (show shift + 9 ≤ 64 by omega) base.isLt
    (show i + 1 ≤ 512 from hi)
  rw [blockStart_succ] at hend
  have hpos := Nat.two_pow_pos shift
  have hsize := toNat_one_shiftLeft (show shift < 64 by omega)
  have hindex : (BitVec.ofNat 64 i).toNat = i := by
    rw [BitVec.toNat_ofNat, Nat.mod_eq_of_lt (by omega)]
  have hpre := toNat_and_not_mask base (show shift + 9 ≤ 64 by omega)
  unfold blockStart at hend ⊢
  have hmul : (BitVec.ofNat 64 i).toNat * ((1 : U64) <<< shift).toNat < 2 ^ 64 := by
    rw [hindex, hsize]
    omega
  have hdelta := toNat_mul_of_lt hmul
  rw [hindex, hsize] at hdelta
  rw [checkedMul_eq_ok hmul, Exec.ok_bind, checkedAdd_eq_ok (by omega)]
  refine congrArg Except.ok (BitVec.eq_of_toNat_eq ?_)
  rw [toNat_add_of_lt (by omega), hpre, hdelta, BitVec.toNat_ofNat,
    Nat.mod_eq_of_lt (by omega)]

/-- The offset given to an entry: the rest of the start address for the
entry of the start address, nothing for the later ones. -/
theorem offset_eq {shift : ℕ} (hshift : shift + 9 ≤ addrBits)
    (base : VirtualAddress) {i : ℕ} (hi : base.toNat / 2 ^ shift % 512 ≤ i) :
    (if i = base.toNat / 2 ^ shift % 512 then base &&& mask shift else 0)
        = BitVec.ofNat 64 (max base.toNat (blockStart shift base.toNat i)
          - blockStart shift base.toNat i)
      ∧ max base.toNat (blockStart shift base.toNat i)
        < blockStart shift base.toNat (i + 1) := by
  have h48 : addrBits = 48 := rfl
  have hrest := blockStart_add_mod shift base.toNat
  have hlt : base.toNat % 2 ^ shift < 2 ^ shift := Nat.mod_lt _ (Nat.two_pow_pos _)
  have hsucc := blockStart_succ shift base.toNat i
  have hmask := toNat_and_mask base (show shift ≤ 64 by omega)
  have hmod : base.toNat % 2 ^ shift < 2 ^ 64 := (Nat.mod_le _ _).trans_lt base.isLt
  generalize base.toNat / 2 ^ shift % 512 = baseIndex at hi hrest ⊢
  by_cases heq : i = baseIndex
  · subst heq
    rw [if_pos rfl]
    refine ⟨BitVec.eq_of_toNat_eq ?_, by omega⟩
    rw [hmask, BitVec.toNat_ofNat, max_eq_left (by omega)]
    rw [show base.toNat - blockStart shift base.toNat i = base.toNat % 2 ^ shift by omega,
      Nat.mod_eq_of_lt hmod]
  · have hmono := blockStart_mono shift base.toNat (show baseIndex + 1 ≤ i by omega)
    rw [blockStart_succ] at hmono
    rw [if_neg heq, max_eq_right (by omega), Nat.sub_self]
    exact ⟨rfl, by omega⟩

/-- **A leaf page is searched for its first hit.** -/
theorem searchPage_spec (hm : Memory.SearchContract memory bufLen limit) (hne : needle ≠ [])
    {shift : ℕ} (hshift : shift + 9 ≤ addrBits) (hlimit : 2 ^ shift ≤ limit) (entry : MmuEntry)
    (start offset : ℕ) (hoffset : offset < 2 ^ shift)
    (hstart : start + 2 ^ shift ≤ 2 ^ 64) :
    ∃ r, searchPage memory needle bufLen shift entry ((1 : U64) <<< shift)
        (BitVec.ofNat 64 offset) (BitVec.ofNat 64 start) = .ok r
      ∧ FirstIn (fun va => ∃ bs, Memory.readPhysical memory
            (MmuEntry.takeBits entry shift addrBits + BitVec.ofNat 64 offset)
            (2 ^ shift - offset) = .ok bs
          ∧ needle <+: bs.drop (va - (start + offset)))
        (start + offset) (start + 2 ^ shift) (r.map BitVec.toNat) := by
  have h48 : addrBits = 48 := rfl
  have hframe := frame_lt entry (show shift ≤ addrBits by omega)
  have hpow : 2 ^ shift < 2 ^ 48 := Nat.pow_lt_pow_right (by decide) (by omega)
  have hsize := toNat_one_shiftLeft (show shift < 64 by omega)
  have hoff : (BitVec.ofNat 64 offset).toNat = offset := by
    rw [BitVec.toNat_ofNat, Nat.mod_eq_of_lt (by omega)]
  have hsub : (BitVec.ofNat 64 offset).toNat ≤ ((1 : U64) <<< shift).toNat := by omega
  have hlen : ((1 : U64) <<< shift - BitVec.ofNat 64 offset).toNat
      = 2 ^ shift - offset := by rw [toNat_sub_of_le hsub, hsize, hoff]
  have haddr : (MmuEntry.takeBits entry shift addrBits).toNat
      + (BitVec.ofNat 64 offset).toNat < 2 ^ 64 := by omega
  have hrange : (MmuEntry.takeBits entry shift addrBits + BitVec.ofNat 64 offset).toNat
      + (2 ^ shift - offset) < 2 ^ 64 := by rw [toNat_add_of_lt haddr]; omega
  unfold searchPage
  dsimp only
  rw [checkedAdd_eq_ok haddr, Exec.ok_bind, checkedSub_eq_ok hsub, Exec.ok_bind,
    hm.search_eq _ _ _ (hlen.symm ▸ hrange) (by omega), hlen]
  obtain ⟨bs, hbs⟩ | hbs := hm.read_or _ _ hrange
  · have hbslen := Memory.length_readPhysical hbs
    have hfirst := firstIn_findSub bs hne (start + offset)
    rw [hbslen, show start + offset + (2 ^ shift - offset) = start + 2 ^ shift by omega]
      at hfirst
    rw [hbs, Exec.ok_bind, Exec.pure_eq_ok]
    cases hfind : findSub needle bs with
    | none =>
      rw [hfind] at hfirst
      refine ⟨none, rfl, fun va hlo hhi hhit => ?_⟩
      obtain ⟨bs', hbs', hocc⟩ := hhit
      exact hfirst va hlo hhi (Except.ok.inj hbs' ▸ hocc)
    | some i =>
      rw [hfind] at hfirst
      have hi : i < 2 ^ shift - offset := by
        obtain ⟨-, hocc, -⟩ := findSub_eq_some_iff.mp hfind
        exact hbslen ▸ lt_length_of_prefix_drop hne hocc
      have hstart' : (BitVec.ofNat 64 start).toNat = start := by
        rw [BitVec.toNat_ofNat, Nat.mod_eq_of_lt (by omega)]
      have hi' : (BitVec.ofNat 64 i).toNat = i := by
        rw [BitVec.toNat_ofNat, Nat.mod_eq_of_lt (by omega)]
      have hsum : (BitVec.ofNat 64 start + BitVec.ofNat 64 offset).toNat
          = start + offset := by rw [toNat_add_of_lt (by omega), hstart', hoff]
      refine ⟨some (BitVec.ofNat 64 start + BitVec.ofNat 64 offset + BitVec.ofNat 64 i),
        ?_, ?_⟩
      · dsimp only [Option.map_some]
        rw [checkedAdd_eq_ok (by omega), Exec.ok_bind, checkedAdd_eq_ok (by omega),
          Exec.ok_bind, Exec.pure_eq_ok]
      · rw [Option.map_some, toNat_add_of_lt (by omega), hsum, hi']
        refine FirstIn.congr (fun va hlo hhi => ?_) hfirst
        refine ⟨fun hocc => ⟨bs, rfl, hocc⟩, fun ⟨bs', hbs', hocc⟩ => ?_⟩
        exact Except.ok.inj hbs' ▸ hocc
  · rw [hbs]
    refine ⟨none, rfl, fun va hlo hhi hhit => ?_⟩
    obtain ⟨bs', hbs', -⟩ := hhit
    exact absurd hbs' (by simp [Exec.fail])

/-- Below a readable table, the entry of an address says where its leaf page
is. -/
theorem leafOf_cons {shift : ℕ} {hasLarge : Bool} {rest : List (ℕ × Bool)}
    {tableAddr : PhysicalAddress} {bytes : List UInt8} {va : ℕ} {i : Fin 512}
    (h : Memory.readPhysical memory tableAddr tableLayout.size = .ok bytes)
    (hi : tableIndex shift va = i) :
    leafOf desc memory ((shift, hasLarge) :: rest) tableAddr va
      = if !desc.isValid (tableLayout.dec bytes i) then none
        else if rest.isEmpty || (hasLarge && desc.isLarge (tableLayout.dec bytes i)) then
          some ⟨shift, MmuEntry.takeBits (tableLayout.dec bytes i) shift addrBits⟩
        else leafOf desc memory rest
          (MmuEntry.takeBits (tableLayout.dec bytes i) 12 addrBits) va := by
  rw [leafOf, h, ← hi]

variable {shift : ℕ} {hasLarge : Bool} {rest : List (ℕ × Bool)}
  {tableAddr : PhysicalAddress} {bytes : List UInt8} {i : Fin 512} {base va : ℕ}

/-- There is no hit below an entry that is not valid. -/
theorem not_hitBelow_of_invalid
    (h : Memory.readPhysical memory tableAddr tableLayout.size = .ok bytes)
    (hi : tableIndex shift va = i)
    (hvalid : desc.isValid (tableLayout.dec bytes i) = false) :
    ¬ HitBelow desc memory needle ((shift, hasLarge) :: rest) tableAddr base va := by
  rintro ⟨leaf, bs, hleaf, -⟩
  rw [leafOf_cons h hi, hvalid] at hleaf
  exact absurd hleaf (by simp)

/-- The hits below an entry that maps a page are the copies of the pattern in
what is read of the page. -/
theorem hitBelow_iff_of_leaf
    (h : Memory.readPhysical memory tableAddr tableLayout.size = .ok bytes)
    (hi : tableIndex shift va = i)
    (hvalid : desc.isValid (tableLayout.dec bytes i) = true)
    (hleaf : (rest.isEmpty || (hasLarge && desc.isLarge (tableLayout.dec bytes i)))
      = true)
    (hlo : blockStart shift base i ≤ va) (hhi : va < blockStart shift base (i + 1)) :
    HitBelow desc memory needle ((shift, hasLarge) :: rest) tableAddr base va
      ↔ ∃ bs, Memory.readPhysical memory
            (MmuEntry.takeBits (tableLayout.dec bytes i) shift addrBits
              + BitVec.ofNat 64 (max base (blockStart shift base i)
                - blockStart shift base i))
            (2 ^ shift - (max base (blockStart shift base i)
              - blockStart shift base i)) = .ok bs
          ∧ needle <+: bs.drop (va - max base (blockStart shift base i)) := by
  have hstart : va / 2 ^ shift * 2 ^ shift = blockStart shift base i := by
    rw [div_of_mem_block hlo hhi, blockStart_eq]
  unfold HitBelow
  rw [leafOf_cons h hi, hvalid, Bool.not_true, if_neg Bool.false_ne_true, if_pos hleaf]
  constructor
  · rintro ⟨leaf, bs, hsome, hread, hocc⟩
    obtain rfl := Option.some.inj hsome
    simp only [Leaf.readFrom, Leaf.pageStart, hstart, max_comm _ base] at hread hocc
    exact ⟨bs, hread, hocc⟩
  · rintro ⟨bs, hread, hocc⟩
    refine ⟨_, bs, rfl, ?_⟩
    simp only [Leaf.readFrom, Leaf.pageStart, hstart, max_comm _ base]
    exact ⟨hread, hocc⟩

/-- The hits below an entry that leads to a table are those below that table;
a start address before the block of the entry may be taken at its start. -/
theorem hitBelow_iff_of_table {top : ℕ} (hrest : LevelsTo top rest)
    (htop : top ≤ shift)
    (h : Memory.readPhysical memory tableAddr tableLayout.size = .ok bytes)
    (hi : tableIndex shift va = i)
    (hvalid : desc.isValid (tableLayout.dec bytes i) = true)
    (hleaf : ¬ (rest.isEmpty || (hasLarge && desc.isLarge (tableLayout.dec bytes i)))
      = true)
    (hlo : blockStart shift base i ≤ va) :
    HitBelow desc memory needle ((shift, hasLarge) :: rest) tableAddr base va
      ↔ HitBelow desc memory needle rest
        (MmuEntry.takeBits (tableLayout.dec bytes i) 12 addrBits)
        (max base (blockStart shift base i)) va := by
  have hmax : ∀ leaf : Leaf, leafOf desc memory rest
      (MmuEntry.takeBits (tableLayout.dec bytes i) 12 addrBits) va = some leaf →
      max (leaf.pageStart va) (max base (blockStart shift base i))
        = max (leaf.pageStart va) base := by
    intro leaf hsome
    have hle := shift_of_leafOf hrest hsome
    have hstart := blockStart_le_pageStart leaf (by omega) hlo
    omega
  unfold HitBelow
  rw [leafOf_cons h hi, hvalid, Bool.not_true, if_neg Bool.false_ne_true, if_neg hleaf]
  refine exists_congr fun leaf => exists_congr fun bs => and_congr_right fun hsome => ?_
  unfold Leaf.readFrom
  rw [hmax leaf hsome]

/-- The addresses searched for an entry: those of its block that are not
before the start address. -/
def scanStart (shift base i : ℕ) : ℕ := max base (blockStart shift base i)

theorem scanStart_mono (shift base : ℕ) : Monotone (scanStart shift base) :=
  fun _ _ h => max_le_max le_rfl (blockStart_mono shift base h)

/-- **One entry of the loop**: the first hit in the block of a valid entry,
if the recursive call finds the first hit below a table. -/
theorem searchEntry_spec (hm : Memory.SearchContract memory bufLen limit) (hne : needle ≠ [])
    (hshift : shift + 9 ≤ addrBits) (hrest : LevelsTo shift rest)
    (h : Memory.readPhysical memory tableAddr tableLayout.size = .ok bytes)
    {walkNext : PhysicalAddress → VirtualAddress →
      Exec MemoryAccessError (Option VirtualAddress)}
    (hnext : ∀ (tableAddr : PhysicalAddress) (base : VirtualAddress),
      tableAddr.toNat < 2 ^ 48 →
      PagesWithin desc memory limit rest tableAddr base.toNat
        (base.toNat / 2 ^ shift * 2 ^ shift + 2 ^ shift) →
      ∃ r, walkNext tableAddr base = .ok r
        ∧ FirstIn (HitBelow desc memory needle rest tableAddr base.toNat)
          base.toNat (base.toNat / 2 ^ shift * 2 ^ shift + 2 ^ shift)
          (r.map BitVec.toNat))
    (base : VirtualAddress) (hi : base.toNat / 2 ^ shift % 512 ≤ i)
    (hpages : PagesWithin desc memory limit ((shift, hasLarge) :: rest) tableAddr
      (scanStart shift base.toNat i) (scanStart shift base.toNat (i + 1)))
    (hvalid : desc.isValid (tableLayout.dec bytes i) = true) :
    ∃ r, searchEntry desc memory needle bufLen shift hasLarge rest.isEmpty
        walkNext base (tableLayout.dec bytes i, i) = .ok r
      ∧ FirstIn (HitBelow desc memory needle ((shift, hasLarge) :: rest)
          tableAddr base.toNat)
        (scanStart shift base.toNat i) (scanStart shift base.toNat (i + 1))
        (r.map BitVec.toNat) := by
  have h48 : addrBits = 48 := rfl
  have hindex : ((base >>> shift) &&& mask 9).toNat = base.toNat / 2 ^ shift % 512 := by
    rw [toNat_and_mask _ (by decide), toNat_shiftRight]
    rfl
  obtain ⟨hoffset, hbase⟩ := offset_eq hshift base hi
  have hsucc := blockStart_succ shift base.toNat i
  have hbound := blockStart_le (show shift + 9 ≤ 64 by omega) base.isLt
    (show i.val + 1 ≤ 512 from i.isLt)
  have hend : scanStart shift base.toNat (i + 1)
      = blockStart shift base.toNat i + 2 ^ shift := by
    unfold scanStart
    omega
  have hmem : ∀ va, scanStart shift base.toNat i ≤ va →
      va < blockStart shift base.toNat i + 2 ^ shift →
      blockStart shift base.toNat i ≤ va
        ∧ va < blockStart shift base.toNat (i + 1)
        ∧ tableIndex shift va = i := by
    intro va hlo hhi
    have hlo' := (le_max_right _ _).trans hlo
    exact ⟨hlo', hsucc ▸ hhi, tableIndex_of_mem_block i.isLt hlo' (hsucc ▸ hhi)⟩
  rw [hend] at hpages
  unfold searchEntry
  dsimp only
  rw [← bind_assoc, checked_blockStart hshift base i.isLt, Exec.ok_bind, hindex,
    hoffset, hend]
  unfold scanStart at hmem hpages ⊢
  by_cases hleaf : (rest.isEmpty || (hasLarge && desc.isLarge (tableLayout.dec bytes i)))
      = true
  · have hlimit : 2 ^ shift ≤ limit := by
      refine hpages _ le_rfl (hsucc ▸ hbase)
        ⟨shift, MmuEntry.takeBits (tableLayout.dec bytes i) shift addrBits⟩ ?_
      rw [leafOf_cons h (hmem _ le_rfl (hsucc ▸ hbase)).2.2, hvalid, Bool.not_true,
        if_neg Bool.false_ne_true, if_pos hleaf]
    obtain ⟨r, hr, hfirst⟩ := searchPage_spec hm hne hshift hlimit
      (tableLayout.dec bytes i) (blockStart shift base.toNat i)
      (max base.toNat (blockStart shift base.toNat i)
        - blockStart shift base.toNat i) (by omega) (by omega)
    rw [Nat.add_sub_cancel' (le_max_right _ _)] at hfirst
    refine ⟨r, by rw [if_pos hleaf, hr], hfirst.congr fun va hlo hhi => ?_⟩
    obtain ⟨hlo', hhi', hva⟩ := hmem va hlo hhi
    exact (hitBelow_iff_of_leaf h hva hvalid hleaf hlo' hhi').symm
  · have hstart : (BitVec.ofNat 64 (blockStart shift base.toNat i)).toNat
        = blockStart shift base.toNat i := by
      rw [BitVec.toNat_ofNat, Nat.mod_eq_of_lt (by omega)]
    have hdelta : (BitVec.ofNat 64 (max base.toNat (blockStart shift base.toNat i)
        - blockStart shift base.toNat i)).toNat
        = max base.toNat (blockStart shift base.toNat i)
          - blockStart shift base.toNat i := by
      rw [BitVec.toNat_ofNat, Nat.mod_eq_of_lt (by omega)]
    have hadd : (BitVec.ofNat 64 (blockStart shift base.toNat i)).toNat
        + (BitVec.ofNat 64 (max base.toNat (blockStart shift base.toNat i)
          - blockStart shift base.toNat i)).toNat < 2 ^ 64 := by
      rw [hstart, hdelta]
      omega
    have hsum := toNat_add_of_lt hadd
    rw [hstart, hdelta, Nat.add_sub_cancel' (le_max_right _ _)] at hsum
    have hblock : max base.toNat (blockStart shift base.toNat i) / 2 ^ shift * 2 ^ shift
        = blockStart shift base.toNat i := by
      rw [div_of_mem_block (le_max_right _ _) hbase, ← blockStart_eq]
    have hbelow : PagesWithin desc memory limit rest
        (MmuEntry.takeBits (tableLayout.dec bytes i) 12 addrBits)
        (max base.toNat (blockStart shift base.toNat i))
        (blockStart shift base.toNat i + 2 ^ shift) := by
      intro va hlo hhi leaf hsome
      refine hpages va hlo hhi leaf ?_
      rw [leafOf_cons h (hmem va hlo hhi).2.2, hvalid, Bool.not_true, if_neg Bool.false_ne_true,
        if_neg hleaf]
      exact hsome
    obtain ⟨r, hr, hfirst⟩ := hnext
      (MmuEntry.takeBits (tableLayout.dec bytes i) 12 addrBits) _
      (frame_lt _ (by decide)) (by rw [hsum, hblock]; exact hbelow)
    refine ⟨r, by rw [if_neg hleaf, checkedAdd_eq_ok hadd, Exec.ok_bind, hr], ?_⟩
    rw [hsum, hblock] at hfirst
    refine hfirst.congr fun va hlo hhi => ?_
    obtain ⟨hlo', hhi', hva⟩ := hmem va hlo hhi
    exact (hitBelow_iff_of_table hrest le_rfl h hva hvalid hleaf hlo').symm

/-- One entry of the loop, valid or not: there is nothing to find below an
entry that the loop filters out. -/
theorem visitEntry_spec (hm : Memory.SearchContract memory bufLen limit) (hne : needle ≠ [])
    (hshift : shift + 9 ≤ addrBits) (hrest : LevelsTo shift rest)
    (h : Memory.readPhysical memory tableAddr tableLayout.size = .ok bytes)
    {walkNext : PhysicalAddress → VirtualAddress →
      Exec MemoryAccessError (Option VirtualAddress)}
    (hnext : ∀ (tableAddr : PhysicalAddress) (base : VirtualAddress),
      tableAddr.toNat < 2 ^ 48 →
      PagesWithin desc memory limit rest tableAddr base.toNat
        (base.toNat / 2 ^ shift * 2 ^ shift + 2 ^ shift) →
      ∃ r, walkNext tableAddr base = .ok r
        ∧ FirstIn (HitBelow desc memory needle rest tableAddr base.toNat)
          base.toNat (base.toNat / 2 ^ shift * 2 ^ shift + 2 ^ shift)
          (r.map BitVec.toNat))
    (base : VirtualAddress) (hi : base.toNat / 2 ^ shift % 512 ≤ i)
    (hpages : PagesWithin desc memory limit ((shift, hasLarge) :: rest) tableAddr
      (scanStart shift base.toNat i) (scanStart shift base.toNat (i + 1))) :
    ∃ r, (if desc.isValid (tableLayout.dec bytes i) then
        searchEntry desc memory needle bufLen shift hasLarge rest.isEmpty walkNext
          base (tableLayout.dec bytes i, i.val) else .ok none) = .ok r
      ∧ FirstIn (HitBelow desc memory needle ((shift, hasLarge) :: rest)
          tableAddr base.toNat)
        (scanStart shift base.toNat i) (scanStart shift base.toNat (i + 1))
        (r.map BitVec.toNat) := by
  cases hvalid : desc.isValid (tableLayout.dec bytes i) with
  | true =>
    rw [if_pos rfl]
    exact searchEntry_spec hm hne hshift hrest h hnext base hi hpages hvalid
  | false =>
    refine ⟨none, rfl, fun va hlo hhi => ?_⟩
    have hlo' := (le_max_right _ _).trans hlo
    have hhi' : va < blockStart shift base.toNat (i + 1) :=
      (lt_max_iff.mp hhi).resolve_left (not_lt.mpr ((le_max_left _ _).trans hlo))
    exact not_hitBelow_of_invalid h (tableIndex_of_mem_block i.isLt hlo' hhi') hvalid

end Entry

/-! ## The whole walk -/

section Walk

variable {desc : MmuDesc} {memory : M} {needle : List UInt8} {bufLen : ℕ}

/-- **The first hit below a table**: the walk of the tables finds the first
hit at or after the start address, among the addresses the table covers. -/
theorem findInKernelMemoryInner_spec (desc : MmuDesc) {limit : ℕ}
    (hm : Memory.SearchContract memory bufLen limit) (hne : needle ≠ []) {top : ℕ}
    {levels : List (ℕ × Bool)}
    (hl : LevelsTo top levels) (htop : top ≤ addrBits)
    {tableAddr : PhysicalAddress} (htable : tableAddr.toNat < 2 ^ 48)
    (base : VirtualAddress)
    (hpages : PagesWithin desc memory limit levels tableAddr base.toNat
      (base.toNat / 2 ^ top * 2 ^ top + 2 ^ top)) :
    ∃ r, findInKernelMemoryInner desc memory needle bufLen levels tableAddr base
        = .ok r
      ∧ FirstIn (HitBelow desc memory needle levels tableAddr base.toNat)
        base.toNat (base.toNat / 2 ^ top * 2 ^ top + 2 ^ top)
        (r.map BitVec.toNat) := by
  induction levels generalizing top tableAddr base with
  | nil =>
    refine ⟨none, rfl, fun va _ _ hhit => ?_⟩
    obtain ⟨leaf, bs, hleaf, -⟩ := hhit
    exact absurd hleaf (by simp [leafOf])
  | cons level rest ih =>
    obtain ⟨shift, hasLarge⟩ := level
    obtain ⟨rfl, hrest⟩ := hl
    have h48 : addrBits = 48 := rfl
    have hsize : tableLayout.size = 4096 := rfl
    rw [findInKernelMemoryInner]
    obtain ⟨bytes, hbytes⟩ | hbytes := hm.read_or tableAddr tableLayout.size (by omega)
    · have hindex : ((base >>> shift) &&& mask 9).toNat
          = base.toNat / 2 ^ shift % 512 := by
        rw [toNat_and_mask _ (by decide), toNat_shiftRight]
        rfl
      have hlt : base.toNat / 2 ^ shift % 512 < 512 := Nat.mod_lt _ (by decide)
      have hbase := blockStart_add_mod shift base.toNat
      have hend : blockStart shift base.toNat 512
          = base.toNat / 2 ^ (shift + 9) * 2 ^ (shift + 9) + 2 ^ (shift + 9) := by
        unfold blockStart
        rw [pow_add]
        ring
      have hfrom : scanStart shift base.toNat (base.toNat / 2 ^ shift % 512)
          = base.toNat := max_eq_left (by omega)
      have hto : scanStart shift base.toNat 512
          = base.toNat / 2 ^ (shift + 9) * 2 ^ (shift + 9) + 2 ^ (shift + 9) := by
        rw [← hend]
        refine max_eq_right ?_
        have hle := blockStart_mono shift base.toNat
          (show base.toNat / 2 ^ shift % 512 + 1 ≤ 512 by omega)
        have hrem : base.toNat % 2 ^ shift < 2 ^ shift :=
          Nat.mod_lt _ (Nat.two_pow_pos _)
        rw [blockStart_succ] at hle
        omega
      have hscan := firstIn_findSomeM?
        (P := HitBelow desc memory needle ((shift, hasLarge) :: rest) tableAddr
          base.toNat)
        (f := fun p => if desc.isValid p.1 then searchEntry desc memory needle
          bufLen shift hasLarge rest.isEmpty
          (findInKernelMemoryInner desc memory needle bufLen rest) base p
          else .ok none)
        (scanStart_mono shift base.toNat) BitVec.toNat
        ((List.ofFn (tableLayout.dec bytes)).drop (base.toNat / 2 ^ shift % 512))
        (base.toNat / 2 ^ shift % 512) (fun j hj => by
          rw [List.length_drop, List.length_ofFn] at hj
          have hi : base.toNat / 2 ^ shift % 512 + j < 512 := by omega
          rw [List.getElem_drop, List.getElem_ofFn]
          refine visitEntry_spec hm hne htop hrest hbytes
            (fun tableAddr base ht => ih hrest (by omega) ht base) base
            (i := ⟨_, hi⟩) (Nat.le_add_right _ _) (hpages.mono (le_max_left _ _) ?_)
          exact hto ▸ scanStart_mono shift base.toNat (show _ + 1 ≤ 512 by omega))
      rw [List.length_drop, List.length_ofFn, Nat.add_sub_cancel' hlt.le, hfrom, hto]
        at hscan
      rw [hbytes]
      dsimp only
      rw [hindex, findSomeM?_filter, drop_zipIdx, Nat.zero_add]
      exact hscan
    · rw [hbytes]
      refine ⟨none, rfl, fun va _ _ hhit => ?_⟩
      obtain ⟨leaf, bs, hleaf, -⟩ := hhit
      rw [leafOf, hbytes] at hleaf
      exact absurd hleaf (by simp [Exec.fail])

end Walk

/-! ## The search finds the first hit -/

section FindRaw

variable {desc : MmuDesc} {memory : M} {needle : List UInt8}

/-- The addresses of a table of the first level. -/
theorem mem_range_iff (base va : VirtualAddress) :
    (base.toNat ≤ va.toNat
        ∧ va.toNat < base.toNat / 2 ^ 48 * 2 ^ 48 + 2 ^ 48)
      ↔ base ≤ va ∧ va >>> 48 = base >>> 48 := by
  have hshift : va >>> 48 = base >>> 48
      ↔ va.toNat / 2 ^ 48 = base.toNat / 2 ^ 48 := by
    rw [← BitVec.toNat_inj, toNat_shiftRight, toNat_shiftRight]
  rw [hshift, BitVec.le_def]
  omega

/-- A hit is read at its translation. -/
theorem readPhysical_of_hit (hm : Memory.Coherent memory)
    {mmuAddr : PhysicalAddress} {base : ℕ} {va : VirtualAddress}
    (hlo : base ≤ va.toNat)
    (h : HitBelow desc memory needle levels (rootTable mmuAddr) base va.toNat) :
    ∃ pa, virtualToPhysical desc memory mmuAddr va = .ok pa
      ∧ Memory.readPhysical memory pa needle.length = .ok needle := by
  obtain ⟨leaf, bs, hleaf, hread, hocc⟩ := h
  have h48 : addrBits = 48 := rfl
  have hshift := shift_of_leafOf levelsTo_levels hleaf
  have hframe := frame_of_leafOf levelsTo_levels le_rfl hleaf
  have hpow : 2 ^ leaf.shift < 2 ^ 48 := Nat.pow_lt_pow_right (by decide) (by omega)
  have hsplit : leaf.pageStart va.toNat + va.toNat % 2 ^ leaf.shift = va.toNat :=
    Nat.div_add_mod' _ _
  have hrem : va.toNat % 2 ^ leaf.shift < 2 ^ leaf.shift :=
    Nat.mod_lt _ (Nat.two_pow_pos _)
  refine ⟨_, virtualToPhysical_of_leaf hm hleaf, ?_⟩
  unfold Leaf.readFrom at hread
  dsimp only at hread
  generalize hoff : max (leaf.pageStart va.toNat) base - leaf.pageStart va.toNat
    = offset at hread
  have hoffset : offset ≤ va.toNat % 2 ^ leaf.shift := by omega
  have haddr : (leaf.frame + BitVec.ofNat 64 offset).toNat
      = leaf.frame.toNat + offset := toNat_add_ofNat_of_lt (by omega)
  have hlen := Memory.length_readPhysical hread
  have hlast := hocc.length_le
  rw [List.length_drop] at hlast
  have hneedle : ((bs.drop (va.toNat - max (leaf.pageStart va.toNat) base)).take
      needle.length) = needle := (List.prefix_iff_eq_take.mp hocc).symm
  have hpart := hm.read_part _ _ _
    (va.toNat - max (leaf.pageStart va.toNat) base) needle.length (by omega) hread
    (by omega)
  rw [hneedle] at hpart
  rw [← hpart]
  refine congrArg (Memory.readPhysical memory · needle.length)
    (BitVec.eq_of_toNat_eq ?_)
  rw [toNat_inFrame va hframe (by omega), toNat_add_ofNat_of_lt (by omega), haddr]
  omega

/-- **The pages that a search may come to** have a size of at most `limit`. -/
def SearchesWithin (desc : MmuDesc) (memory : M) (mmuAddr : PhysicalAddress)
    (base : VirtualAddress) (limit : ℕ) : Prop :=
  PagesWithin desc memory limit levels (rootTable mmuAddr) base.toNat
    (base.toNat / 2 ^ 48 * 2 ^ 48 + 2 ^ 48)

/-- The page of an address has at most the size of the address space. -/
theorem searchesWithin_all (desc : MmuDesc) (memory : M) (mmuAddr : PhysicalAddress)
    (base : VirtualAddress) : SearchesWithin desc memory mmuAddr base (2 ^ 48) := by
  intro va _ _ leaf hleaf
  have hshift := shift_of_leafOf levelsTo_levels hleaf
  exact Nat.pow_le_pow_right (by decide) ((Nat.le_add_right _ 9).trans hshift.2)

/-- Where no entry of the tables maps a large page, all pages are those of the last level. -/
theorem pagesWithin_of_tables {desc : MmuDesc} {limit lo hi : ℕ} {levels : List (ℕ × Bool)}
    {tables : List PhysicalAddress} {tableAddr : PhysicalAddress}
    (htables : ∀ table ∈ tables, ∀ bytes,
      Memory.readPhysical memory table tableLayout.size = .ok bytes →
      ∀ i, desc.isValid (tableLayout.dec bytes i) = true →
        desc.isLarge (tableLayout.dec bytes i) = false
          ∧ MmuEntry.takeBits (tableLayout.dec bytes i) 12 addrBits ∈ tables)
    (hlast : ∀ level ∈ levels.getLast?, 2 ^ level.1 ≤ limit) (hmem : tableAddr ∈ tables) :
    PagesWithin desc memory limit levels tableAddr lo hi := by
  intro va hlo hhi leaf hleaf
  induction levels generalizing tableAddr with
  | nil => cases hleaf
  | cons level rest ih =>
    obtain ⟨shift, hasLarge⟩ := level
    rw [leafOf] at hleaf
    cases hread : Memory.readPhysical memory tableAddr tableLayout.size with
    | error e =>
      rw [hread] at hleaf
      cases hleaf
    | ok bytes =>
      rw [hread] at hleaf
      dsimp only at hleaf
      split at hleaf
      · cases hleaf
      next hvalid =>
        obtain ⟨hlarge, hnext⟩ := htables tableAddr hmem bytes hread _ (by simpa using hvalid)
        rw [hlarge, Bool.and_false, Bool.or_false] at hleaf
        cases rest with
        | nil =>
          rw [← Option.some.inj hleaf]
          exact hlast (shift, hasLarge) rfl
        | cons level' rest' => exact ih hlast hnext hleaf

/-- The search from `base` has a result, which is the first hit. -/
theorem findInKernelMemoryRaw_eq (desc : MmuDesc) {bufLen limit : ℕ}
    (hm : Memory.SearchContract memory bufLen limit) (hne : needle ≠ [])
    (mmuAddr : PhysicalAddress) (base : VirtualAddress)
    (hpages : SearchesWithin desc memory mmuAddr base limit) :
    ∃ r, findInKernelMemoryRaw desc memory mmuAddr base needle bufLen = .ok r
      ∧ (r = none → ∀ va, ¬ SearchHit desc memory mmuAddr needle base va)
      ∧ (∀ va, r = some va → IsLeast {va | SearchHit desc memory mmuAddr needle base va} va) := by
  obtain ⟨r, hr, hfirst⟩ := findInKernelMemoryInner_spec desc hm hne levelsTo_levels le_rfl
    (frame_lt mmuAddr (show 12 ≤ addrBits by decide)) base hpages
  have hhit : ∀ va : VirtualAddress, SearchHit desc memory mmuAddr needle base va
      ↔ (base.toNat ≤ va.toNat ∧ va.toNat < base.toNat / 2 ^ 48 * 2 ^ 48 + 2 ^ 48)
        ∧ HitBelow desc memory needle levels (rootTable mmuAddr) base.toNat va.toNat := by
    intro va
    rw [mem_range_iff, and_assoc]
    rfl
  refine ⟨r, hr, ?_, ?_⟩
  · rintro rfl va hva
    obtain ⟨⟨hlo, hhi⟩, hbelow⟩ := (hhit va).mp hva
    exact hfirst va.toNat hlo hhi hbelow
  · rintro va rfl
    obtain ⟨⟨hlo, hhi, hbelow⟩, hleast⟩ := hfirst
    refine ⟨(hhit va).mpr ⟨⟨hlo, hhi⟩, hbelow⟩, fun va' hva' => ?_⟩
    obtain ⟨⟨hlo', hhi'⟩, hbelow'⟩ := (hhit va').mp hva'
    exact BitVec.le_def.mpr (hleast ⟨hlo', hhi', hbelow'⟩)

/-- **The search finds the first hit.** For every memory that keeps its
contract, `find_in_kernel_memory_raw` ends without an error and without an
overflow; what it returns is the least hit, and `none` only if there is no
hit; and the address it returns is translated to a physical address where the
pattern is read. -/
theorem findInKernelMemoryRaw_isLeast (desc : MmuDesc) (memory : M)
    (hm : Memory.Contract memory) (mmuAddr : PhysicalAddress)
    (base : VirtualAddress) (needle : List UInt8) (hne : needle ≠ [])
    (bufLen : ℕ) :
    ∃ r, findInKernelMemoryRaw desc memory mmuAddr base needle bufLen = .ok r
      ∧ (r.isSome ↔ ∃ va, SearchHit desc memory mmuAddr needle base va)
      ∧ ∀ va, r = some va →
        IsLeast {va | SearchHit desc memory mmuAddr needle base va} va
        ∧ ∃ pa, virtualToPhysical desc memory mmuAddr va = .ok pa
          ∧ Memory.readPhysical memory pa needle.length = .ok needle := by
  obtain ⟨r, hr, hnone, hsome⟩ := findInKernelMemoryRaw_eq desc (hm.within bufLen (2 ^ 48)) hne
    mmuAddr base (searchesWithin_all desc memory mmuAddr base)
  refine ⟨r, hr, ?_, fun va hva => ⟨hsome va hva, ?_⟩⟩
  · cases r with
    | none =>
      refine ⟨fun h => absurd h Bool.false_ne_true, ?_⟩
      rintro ⟨va, hva⟩
      exact absurd hva (hnone rfl va)
    | some va => exact ⟨fun _ => ⟨va, (hsome va rfl).1⟩, fun _ => rfl⟩
  · obtain ⟨⟨hlo, -, hbelow⟩, -⟩ := hsome va hva
    exact readPhysical_of_hit hm.toCoherent (BitVec.le_def.mp hlo) hbelow

/-! ### A table that leads to itself

The last entry of this table leads back to the table at every level, so the
table is also the page at the end of the address space – and the last byte of
that page, the highest of the entry, is the last byte of all. -/

/-- The entry that leads to the table at 0; its highest byte is `0xaa`. -/
def selfEntry : MmuEntry := 0xaa00_0000_0000_0001

/-- A memory of one table, whose last entry leads to itself. -/
def selfMap : RawMemory :=
  RawMemory.new (List.replicate 4088 0 ++ Layout.u64.enc selfEntry)

theorem readPhysical_selfMap :
    Memory.readPhysical selfMap 0 4096 = .ok selfMap.bytes := by
  have hlen : selfMap.bytes.length = 4096 := by
    show (List.replicate 4088 0 ++ Layout.u64.enc selfEntry).length = 4096
    rw [List.length_append, List.length_replicate]
    rfl
  refine (RawMemory.readPhysical_eq_ok_iff _ _ _ _).mpr ⟨hlen.ge, ?_⟩
  exact List.take_of_length_le hlen.le

theorem dec_selfMap : tableLayout.dec selfMap.bytes 511 = selfEntry := by
  show Layout.u64.dec ((selfMap.bytes.drop 4088).take Layout.u64.size) = selfEntry
  have hdrop : selfMap.bytes.drop 4088 = Layout.u64.enc selfEntry :=
    List.drop_left' (List.length_replicate)
  rw [hdrop, List.take_of_length_le (Layout.u64.length_enc _).le, Layout.u64.dec_enc]

/-- The last byte of the address space is in the page of that table. -/
theorem selfMap_hit : SearchHit X86_64.mmuDesc selfMap 0 [0xaa]
    (RuntimeArchitecture.kernelBase .x86_64) (BitVec.allOnes 64) := by
  have hlevel : ∀ (shift : ℕ) (hasLarge : Bool) (rest : List (ℕ × Bool)),
      tableIndex shift (BitVec.allOnes 64).toNat = 511 →
      leafOf X86_64.mmuDesc selfMap ((shift, hasLarge) :: rest) 0
          (BitVec.allOnes 64).toNat
        = if rest.isEmpty then some ⟨shift, MmuEntry.takeBits selfEntry shift addrBits⟩
          else leafOf X86_64.mmuDesc selfMap rest 0 (BitVec.allOnes 64).toNat := by
    intro shift hasLarge rest hi
    have hvalid : X86_64.mmuDesc.isValid selfEntry = true := by decide
    have hlarge : X86_64.mmuDesc.isLarge selfEntry = false := by decide
    have hnext : MmuEntry.takeBits selfEntry 12 addrBits = 0 := by decide
    rw [leafOf_cons (readPhysical_selfMap) hi, dec_selfMap, hvalid, hlarge, hnext,
      Bool.and_false, Bool.or_false]
    rfl
  refine ⟨by decide, by decide, ⟨12, 0⟩, selfMap.bytes, ?_, ?_, ?_⟩
  · have hroot : rootTable 0 = 0 := by decide
    rw [hroot, levels, hlevel 39 _ _ (by decide), hlevel 30 _ _ (by decide),
      hlevel 21 _ _ (by decide), hlevel 12 _ _ (by decide)]
    decide
  · exact readPhysical_selfMap
  · show [0xaa] <+: selfMap.bytes.drop 4095
    have hdrop : selfMap.bytes.drop 4088 = Layout.u64.enc selfEntry :=
      List.drop_left' (List.length_replicate)
    rw [show 4095 = 4088 + 7 from rfl, ← List.drop_drop, hdrop]
    decide

/-- The search of that memory finds the byte, and its translation. -/
theorem findInKernelMemoryRaw_selfMap :
    ∃ va pa, findInKernelMemoryRaw X86_64.mmuDesc selfMap 0
        (RuntimeArchitecture.kernelBase .x86_64) [0xaa] 16 = .ok (some va)
      ∧ virtualToPhysical X86_64.mmuDesc selfMap 0 va = .ok pa
      ∧ Memory.readPhysical selfMap pa 1 = .ok [0xaa] := by
  obtain ⟨r, hr, hsome, hleast⟩ := findInKernelMemoryRaw_isLeast X86_64.mmuDesc
    selfMap (RawMemory.contract selfMap) 0 (RuntimeArchitecture.kernelBase .x86_64)
    [0xaa] (by decide) 16
  obtain ⟨va, rfl⟩ := Option.isSome_iff_exists.mp (hsome.mpr ⟨_, selfMap_hit⟩)
  obtain ⟨-, pa, hpa, hread⟩ := hleast va rfl
  exact ⟨va, pa, hr, hpa, hread⟩

end FindRaw
