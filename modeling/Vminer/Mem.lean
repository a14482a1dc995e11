import Vminer.Core
import Vminer.Search

/-!
# Physical memory

The trait `Memory` and its implementations: `RawMemory`, one flat buffer;
`MemRemap`, a list of physical ranges relocated into another memory; `File`,
a section of a file. A read takes the number of bytes the caller's buffer
holds and gives the bytes written to it.

`Memory.Coherent` says what it means to read memory at all: a readable range
is read as the bytes of its addresses, so its parts are readable and read the
same. `Memory.Contract` adds what the documentation of the trait promises of
`search`, which finds the first occurrence in its range. The search by default
does so only where the buffer holds the range (`Memory.SearchContract`). Every
range they speak of ends inside the 64-bit address space.
-/

/-- `MemoryMap`: a range of physical addresses. -/
structure MemoryMap where
  start : PhysicalAddress
  stop : PhysicalAddress
deriving DecidableEq, Repr

/-- A mapping is two words. -/
def MemoryMap.layout : Layout MemoryMap :=
  (Layout.u64.pair Layout.u64).via (fun m => (m.start, m.stop))
    (fun p => ⟨p.1, p.2⟩) (fun _ => rfl)

/-! ## The trait and its default methods -/

/-- `Memory::is_valid`: whether some mapping holds the whole range. -/
def defaultIsValid :
    List MemoryMap → PhysicalAddress → ℕ → Exec MemoryAccessError Bool
  | [], _, _ => .ok false
  | mapping :: rest, addr, size =>
    if mapping.start ≤ addr then do
      let stop ← checkedAddNat addr size
      if stop ≤ mapping.stop then .ok true
      else defaultIsValid rest addr size
    else defaultIsValid rest addr size

/-- The chunked branch of `Memory::search`: successive reads of the scratch
buffer's length, at the offsets given. -/
def searchChunks
    (read : PhysicalAddress → ℕ → Exec MemoryAccessError (List UInt8))
    (addr : PhysicalAddress) (pageSize : U64) (needle : List UInt8)
    (bufLen : ℕ) (offset : ℕ) : Exec MemoryAccessError (Option U64) := do
  let addr ← checkedAddNat addr offset
  let bytes ← read addr (min bufLen (pageSize.toNat - offset))
  return (findSub needle bytes).map (BitVec.ofNat 64)

/-- `Memory::search`. The scratch buffer is passed by its length: what it
holds is overwritten before it is read. -/
def defaultSearch
    (read : PhysicalAddress → ℕ → Exec MemoryAccessError (List UInt8))
    (addr : PhysicalAddress) (pageSize : U64) (needle : List UInt8)
    (bufLen : ℕ) : Exec MemoryAccessError (Option U64) :=
  if pageSize.toNat ≤ bufLen then do
    let bytes ← read addr pageSize.toNat
    return (findSub needle bytes).map (BitVec.ofNat 64)
  else if needle.length < bufLen then
    (stepBy 0 pageSize.toNat (bufLen - needle.length)).findSomeM?
      (searchChunks read addr pageSize needle bufLen)
  else Exec.panicked

/-- The length of the buffer of `Memory::dump`. -/
def dumpChunk : ℕ := 1 <<< 16

/-- The chunks `Memory::dump` writes for one mapping. -/
def dumpMapping
    (read : PhysicalAddress → ℕ → Exec MemoryAccessError (List UInt8))
    (mapping : MemoryMap) : Exec IoError (List UInt8) := do
  let chunks ← (stepBy mapping.start.toNat mapping.stop.toNat dumpChunk).mapM
    (fun addr => Exec.mapErr MemoryAccessError.toIo
      (read (BitVec.ofNat 64 addr) dumpChunk))
  return chunks.flatten

/-- `Memory::dump`: what is written to the writer. -/
def defaultDump (mappings : List MemoryMap)
    (read : PhysicalAddress → ℕ → Exec MemoryAccessError (List UInt8)) :
    Exec IoError (List UInt8) := do
  let parts ← mappings.mapM (dumpMapping read)
  return parts.flatten

/-- **The trait `Memory`**: how to read the physical memory of a guest. A read
that succeeds fills the buffer it is given. -/
class Memory (M : Type) where
  memoryMappings : M → List MemoryMap
  readPhysical : M → PhysicalAddress → ℕ →
    Exec MemoryAccessError (List UInt8)
  length_readPhysical : ∀ {m : M} {a : PhysicalAddress} {n : ℕ}
    {bs : List UInt8}, readPhysical m a n = .ok bs → bs.length = n
  isValid : M → PhysicalAddress → ℕ → Exec MemoryAccessError Bool :=
    fun m => defaultIsValid (memoryMappings m)
  search : M → PhysicalAddress → U64 → List UInt8 → ℕ →
      Exec MemoryAccessError (Option U64) :=
    fun m => defaultSearch (readPhysical m)
  dump : M → Exec IoError (List UInt8) :=
    fun m => defaultDump (memoryMappings m) (readPhysical m)

/-- Whether a mapping holds the whole range. -/
def MemoryMap.Holds (mapping : MemoryMap) (addr : PhysicalAddress) (size : ℕ) :
    Prop :=
  mapping.start ≤ addr ∧ addr.toNat + size ≤ mapping.stop.toNat

instance (mapping : MemoryMap) (addr : PhysicalAddress) (size : ℕ) :
    Decidable (mapping.Holds addr size) :=
  inferInstanceAs (Decidable (_ ∧ _))

/-- **A range is valid where some mapping holds it.** -/
theorem defaultIsValid_eq_true_iff (mappings : List MemoryMap)
    (addr : PhysicalAddress) (size : ℕ) :
    defaultIsValid mappings addr size = .ok true
      ↔ ∃ mapping ∈ mappings, mapping.Holds addr size := by
  induction mappings with
  | nil => simp [defaultIsValid]
  | cons mapping rest ih =>
    rw [defaultIsValid]
    by_cases hstart : mapping.start ≤ addr
    · rw [if_pos hstart]
      by_cases hend : addr.toNat + size < 2 ^ 64
      · have hadd := toNat_add_ofNat_of_lt hend
        have hle : addr + BitVec.ofNat 64 size ≤ mapping.stop
            ↔ addr.toNat + size ≤ mapping.stop.toNat := by
          rw [BitVec.le_def, hadd]
        rw [checkedAddNat_eq_ok hend, Exec.ok_bind]
        by_cases hstop : addr.toNat + size ≤ mapping.stop.toNat
        · rw [if_pos (hle.mpr hstop)]
          exact ⟨fun _ => ⟨mapping, List.mem_cons_self, hstart, hstop⟩, fun _ => rfl⟩
        · rw [if_neg (fun h => hstop (hle.mp h)), ih]
          simp [MemoryMap.Holds, hstop]
      · have hnone : ∀ m : MemoryMap, ¬ m.Holds addr size := by
          intro m hm
          have hlt := m.stop.isLt
          have hm' := hm.2
          omega
        rw [checkedAddNat, if_neg hend]
        simp [hnone, Exec.panicked]
    · rw [if_neg hstart, ih]
      simp [MemoryMap.Holds, hstart]

/-! ## The contract -/

/-- **A read is of the bytes of its addresses**: a part of a readable range is
readable, with the bytes it has there. -/
structure Memory.Coherent {M : Type} [Memory M] (m : M) : Prop where
  read_part : ∀ (a : PhysicalAddress) (n : ℕ) (bs : List UInt8) (i k : ℕ),
    a.toNat + n < 2 ^ 64 → Memory.readPhysical m a n = .ok bs → i + k ≤ n →
    Memory.readPhysical m (a + BitVec.ofNat 64 i) k
      = .ok ((bs.drop i).take k)

/-- **What a memory promises of its reads**: they are coherent, and succeed or are out of
bounds. -/
structure Memory.ReadContract {M : Type} [Memory M] (m : M) : Prop
    extends Memory.Coherent m where
  /-- The only error is `OutOfBounds`. -/
  read_or : ∀ (a : PhysicalAddress) (n : ℕ), a.toNat + n < 2 ^ 64 →
    (∃ bs, Memory.readPhysical m a n = .ok bs)
      ∨ Memory.readPhysical m a n = Exec.fail .outOfBounds

/-- **What a memory promises.** Its reads are coherent, and succeed or are out of
bounds; and a search finds the first occurrence in its range. -/
structure Memory.Contract {M : Type} [Memory M] (m : M) : Prop
    extends Memory.ReadContract m where
  /-- The first occurrence in the range, `none` if there is none, and
  `OutOfBounds` if the range is not readable. -/
  search_eq : ∀ (a : PhysicalAddress) (n : U64) (needle : List UInt8)
      (bufLen : ℕ), a.toNat + n.toNat < 2 ^ 64 →
    Memory.search m a n needle bufLen
      = (do
          let bs ← Memory.readPhysical m a n.toNat
          return (findSub needle bs).map (BitVec.ofNat 64))

/-- **What a memory promises of the pages up to a size**, when it is searched with a buffer of
some length. -/
structure Memory.SearchContract {M : Type} [Memory M] (m : M) (bufLen limit : ℕ) : Prop
    extends Memory.ReadContract m where
  search_eq : ∀ (a : PhysicalAddress) (n : U64) (needle : List UInt8),
      a.toNat + n.toNat < 2 ^ 64 → n.toNat ≤ limit →
    Memory.search m a n needle bufLen
      = (do
          let bs ← Memory.readPhysical m a n.toNat
          return (findSub needle bs).map (BitVec.ofNat 64))

/-- A memory that keeps the contract keeps it for pages of any size. -/
theorem Memory.Contract.within {M : Type} [Memory M] {m : M} (h : Memory.Contract m)
    (bufLen limit : ℕ) : Memory.SearchContract m bufLen limit :=
  { h.toReadContract with search_eq := fun a n needle hlt _ => h.search_eq a n needle bufLen hlt }

/-- **The search by default keeps it for the pages that fit in the buffer.** -/
theorem Memory.ReadContract.within {M : Type} [Memory M] {m : M} (h : Memory.ReadContract m)
    (hdefault : Memory.search m = defaultSearch (Memory.readPhysical m)) {bufLen limit : ℕ}
    (hle : limit ≤ bufLen) : Memory.SearchContract m bufLen limit :=
  { h with
    search_eq := fun a n needle _ hn => by
      rw [hdefault, defaultSearch, if_pos (hn.trans hle)] }

/-! ## `RawMemory` -/

/-- `RawMemory`: a flat buffer. -/
structure RawMemory where
  mapping : MemoryMap
  bytes : List UInt8
deriving DecidableEq

namespace RawMemory

/-- `RawMemory::new` -/
def new (bytes : List UInt8) : RawMemory where
  mapping := ⟨0, BitVec.ofNat 64 bytes.length⟩
  bytes := bytes

/-- `RawMemory::read_physical` -/
def readPhysical (m : RawMemory) (addr : PhysicalAddress) (len : ℕ) :
    Exec MemoryAccessError (List UInt8) :=
  if addr.toNat ≤ m.bytes.length then
    let this := m.bytes.drop addr.toNat
    if len ≤ this.length then .ok (this.take len)
    else Exec.fail .outOfBounds
  else Exec.fail .outOfBounds

/-- `RawMemory::search` -/
def search (m : RawMemory) (addr : PhysicalAddress) (pageSize : U64)
    (needle : List UInt8) (_bufLen : ℕ) :
    Exec MemoryAccessError (Option U64) :=
  if addr.toNat + pageSize.toNat < 2 ^ 64 then
    let max := addr.toNat + pageSize.toNat
    if max ≤ m.bytes.length then
      let this := (m.bytes.take max).drop addr.toNat
      .ok ((findSub needle this).map (BitVec.ofNat 64))
    else Exec.fail .outOfBounds
  else Exec.fail .outOfBounds

/-- A read gives as many bytes as it is asked for. -/
theorem length_of_readPhysical {m : RawMemory} {addr : PhysicalAddress}
    {len : ℕ} {bs : List UInt8} (h : m.readPhysical addr len = .ok bs) :
    bs.length = len := by
  unfold readPhysical at h
  split at h
  · dsimp only at h
    split at h
    · next hle =>
      rw [← Except.ok.inj h, List.length_take, min_eq_left hle]
    · exact absurd h (by simp [Exec.fail])
  · exact absurd h (by simp [Exec.fail])

instance : Memory RawMemory where
  memoryMappings m := [m.mapping]
  readPhysical := readPhysical
  length_readPhysical := length_of_readPhysical
  search := search
  dump m := .ok m.bytes

/-- A flat buffer is read where the range fits into it. -/
theorem readPhysical_eq (m : RawMemory) (addr : PhysicalAddress) (len : ℕ) :
    Memory.readPhysical m addr len
      = if addr.toNat + len ≤ m.bytes.length
        then .ok ((m.bytes.drop addr.toNat).take len)
        else Exec.fail .outOfBounds := by
  show readPhysical m addr len = _
  unfold readPhysical
  simp only [List.length_drop]
  by_cases h : addr.toNat ≤ m.bytes.length
  · rw [if_pos h]
    by_cases h' : addr.toNat + len ≤ m.bytes.length
    · rw [if_pos h', if_pos (by omega)]
    · rw [if_neg h', if_neg (by omega)]
  · rw [if_neg h, if_neg (by omega)]

theorem readPhysical_eq_ok_iff (m : RawMemory) (addr : PhysicalAddress)
    (len : ℕ) (bs : List UInt8) :
    Memory.readPhysical m addr len = .ok bs
      ↔ addr.toNat + len ≤ m.bytes.length
        ∧ (m.bytes.drop addr.toNat).take len = bs := by
  rw [readPhysical_eq]
  by_cases h : addr.toNat + len ≤ m.bytes.length
  · simp [h]
  · simp [h, Exec.fail]

/-- **A flat buffer keeps the contract.** -/
theorem contract (m : RawMemory) : Memory.Contract m where
  read_or a n _ := by
    rw [readPhysical_eq]
    by_cases h : a.toNat + n ≤ m.bytes.length
    · exact Or.inl ⟨_, if_pos h⟩
    · exact Or.inr (if_neg h)
  read_part a n bs i k hlt h hik := by
    obtain ⟨hle, rfl⟩ := (readPhysical_eq_ok_iff m a n bs).mp h
    have hadd : (a + BitVec.ofNat 64 i).toNat = a.toNat + i :=
      toNat_add_ofNat_of_lt (by omega)
    refine (readPhysical_eq_ok_iff m _ k _).mpr ⟨by omega, ?_⟩
    rw [hadd, List.drop_take, List.take_take, List.drop_drop,
      min_eq_left (by omega)]
  search_eq a n needle bufLen hlt := by
    show search m a n needle bufLen = _
    unfold search
    rw [readPhysical_eq, if_pos hlt]
    by_cases h : a.toNat + n.toNat ≤ m.bytes.length
    · rw [if_pos h, if_pos h, Exec.ok_bind, Exec.pure_eq_ok]
      simp only [List.drop_take, Nat.add_sub_cancel_left]
    · rw [if_neg h, if_neg h]
      rfl

end RawMemory

/-! ## `MemRemap` -/

/-- `MemRemap`: ranges of physical addresses, each relocated to a place of an
inner memory. -/
structure MemRemap (M : Type) where
  mappings : List MemoryMap
  remapAt : List PhysicalAddress
  inner : M
deriving DecidableEq

namespace MemRemap

variable {M : Type}

/-- The loop of `MemRemap::read_physical`: the first mapping that holds the
range gives the address in the inner memory. -/
def remap : List (MemoryMap × PhysicalAddress) → PhysicalAddress → ℕ →
    Exec MemoryAccessError PhysicalAddress
  | [], _, _ => Exec.fail .outOfBounds
  | (mapping, remapAt) :: rest, addr, len =>
    if mapping.start ≤ addr then do
      let stop ← checkedAddNat addr len
      if stop ≤ mapping.stop then
        checkedAddSigned remapAt (addr - mapping.start)
      else remap rest addr len
    else remap rest addr len

/-- `MemRemap::read_physical` -/
def readPhysical [Memory M] (m : MemRemap M) (addr : PhysicalAddress)
    (len : ℕ) : Exec MemoryAccessError (List UInt8) :=
  if m.mappings.length = m.remapAt.length then do
    let addr ← remap (m.mappings.zip m.remapAt) addr len
    Memory.readPhysical m.inner addr len
  else Exec.panicked

/-- **A range is relocated by the first mapping that holds it.** -/
theorem remap_eq_ok_iff (l : List (MemoryMap × PhysicalAddress))
    (addr p : PhysicalAddress) (len : ℕ) :
    remap l addr len = .ok p
      ↔ ∃ x, l.find? (fun x => decide (x.1.Holds addr len)) = some x
        ∧ (checkedAddSigned x.2 (addr - x.1.start)
          : Exec MemoryAccessError PhysicalAddress) = .ok p := by
  induction l with
  | nil => simp [remap, Exec.fail]
  | cons x rest ih =>
    obtain ⟨mapping, remapAt⟩ := x
    rw [remap]
    by_cases hholds : mapping.Holds addr len
    · obtain ⟨hstart, hstop⟩ := hholds
      have hlt : addr.toNat + len < 2 ^ 64 := by
        have := mapping.stop.isLt
        omega
      have hle : addr + BitVec.ofNat 64 len ≤ mapping.stop := by
        rw [BitVec.le_def, toNat_add_ofNat_of_lt hlt]
        exact hstop
      rw [if_pos hstart, checkedAddNat_eq_ok hlt, Exec.ok_bind, if_pos hle,
        List.find?_cons_of_pos (by simpa using ⟨hstart, hstop⟩)]
      simp
    · rw [List.find?_cons_of_neg (by simpa using hholds), ← ih]
      by_cases hstart : mapping.start ≤ addr
      · rw [if_pos hstart]
        by_cases hlt : addr.toNat + len < 2 ^ 64
        · have hle : ¬ addr + BitVec.ofNat 64 len ≤ mapping.stop := by
            rw [BitVec.le_def, toNat_add_ofNat_of_lt hlt]
            exact fun hstop => hholds ⟨hstart, hstop⟩
          rw [checkedAddNat_eq_ok hlt, Exec.ok_bind, if_neg hle]
        · -- the range leaves the address space, so no mapping holds it
          have hnone : rest.find? (fun x => decide (x.1.Holds addr len)) = none := by
            refine List.find?_eq_none.mpr fun y _ => ?_
            have hstop := y.1.stop.isLt
            rw [decide_eq_true_eq]
            rintro ⟨-, hend⟩
            omega
          rw [checkedAddNat, if_neg hlt, ih, hnone]
          simp [Exec.panicked]
      · rw [if_neg hstart]

/-- A range that no mapping holds is out of bounds. -/
theorem remap_eq_fail {l : List (MemoryMap × PhysicalAddress)} {addr : PhysicalAddress}
    {len : ℕ} (hlt : addr.toNat + len < 2 ^ 64) (h : ∀ x ∈ l, ¬ x.1.Holds addr len) :
    remap l addr len = Exec.fail .outOfBounds := by
  induction l with
  | nil => rfl
  | cons x rest ih =>
    obtain ⟨mapping, remapAt⟩ := x
    have hrest := ih fun x hx => h x (List.mem_cons_of_mem _ hx)
    rw [remap]
    by_cases hstart : mapping.start ≤ addr
    · have hle : ¬ addr + BitVec.ofNat 64 len ≤ mapping.stop := by
        rw [BitVec.le_def, toNat_add_ofNat_of_lt hlt]
        exact fun hstop => h _ List.mem_cons_self ⟨hstart, hstop⟩
      rw [if_pos hstart, checkedAddNat_eq_ok hlt, Exec.ok_bind, if_neg hle, hrest]
    · rw [if_neg hstart, hrest]

theorem length_of_readPhysical [Memory M] {m : MemRemap M}
    {addr : PhysicalAddress} {len : ℕ} {bs : List UInt8}
    (h : m.readPhysical addr len = .ok bs) : bs.length = len := by
  unfold readPhysical at h
  split at h
  · obtain ⟨addr', -, h⟩ := (Exec.bind_eq_ok_iff _ _ _).mp h
    exact Memory.length_readPhysical h
  · exact absurd h (by simp [Exec.panicked])

instance [Memory M] : Memory (MemRemap M) where
  memoryMappings m := m.mappings
  readPhysical := readPhysical
  length_readPhysical := length_of_readPhysical

end MemRemap

/-! ## `File` -/

/-- `File`: the section of a file that begins at `start`. -/
structure File where
  file : List UInt8
  start : U64
  mapping : MemoryMap
deriving DecidableEq

namespace File

/-- `File::new`, with the difference of its two positions. -/
def new {ε : Type} (file : List UInt8) (start stop : U64) : Exec ε File := do
  let size ← checkedSub stop start
  return ⟨file, start, ⟨0, size⟩⟩

/-- `ReadAt::read_exact_at` on the file's bytes. -/
def readExactAt (file : List UInt8) (len : ℕ) (offset : U64) :
    Exec IoError (List UInt8) :=
  if offset.toNat + len ≤ file.length then
    .ok ((file.drop offset.toNat).take len)
  else Exec.fail .unexpectedEof

/-- `File::read_physical` -/
def readPhysical (m : File) (addr : PhysicalAddress) (len : ℕ) :
    Exec MemoryAccessError (List UInt8) := do
  let valid ← defaultIsValid [m.mapping] addr len
  if valid then
    let offset ← checkedAdd m.start addr
    Exec.mapErr MemoryAccessError.io (readExactAt m.file len offset)
  else Exec.fail .outOfBounds

/-- A file is read where the range ends inside it. -/
theorem readExactAt_eq_ok_iff (file : List UInt8) (len : ℕ) (offset : U64)
    (bs : List UInt8) :
    readExactAt file len offset = .ok bs
      ↔ offset.toNat + len ≤ file.length
        ∧ (file.drop offset.toNat).take len = bs := by
  unfold readExactAt
  by_cases h : offset.toNat + len ≤ file.length
  · simp [h]
  · simp [h, Exec.fail]

theorem length_of_readPhysical {m : File} {addr : PhysicalAddress} {len : ℕ}
    {bs : List UInt8} (h : m.readPhysical addr len = .ok bs) :
    bs.length = len := by
  unfold readPhysical at h
  obtain ⟨valid, -, h⟩ := (Exec.bind_eq_ok_iff _ _ _).mp h
  cases valid with
  | false => exact absurd h (by simp [Exec.fail])
  | true =>
    obtain ⟨offset, -, h⟩ := (Exec.bind_eq_ok_iff _ _ _).mp h
    obtain ⟨hle, rfl⟩ := (readExactAt_eq_ok_iff _ _ _ _).mp
      ((Exec.mapErr_eq_ok_iff _ _ _).mp h)
    rw [List.length_take, List.length_drop]
    omega

instance : Memory File where
  memoryMappings m := [m.mapping]
  readPhysical := readPhysical
  length_readPhysical := length_of_readPhysical

end File
