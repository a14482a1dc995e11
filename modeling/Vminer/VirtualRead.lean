import Vminer.Mmu

/-!
# Reading virtual memory

Two paths lead from a range of virtual addresses to its bytes.
`read_virtual_memory` cuts the range at the page boundaries and hands each
piece to a reader; `Backend::read_virtual_memory` translates the first
address and reads the whole range from there.

The first is right for every range: it succeeds exactly when each byte of the
range can be translated and read on its own, and then gives those bytes
(`readVirtualMemory_bytes`). The pieces it reads are the same for every
reader (`readVirtualMemory_eq_ok_iff`), and inside a page translation moves
with the address (`virtualToPhysical_add`).

The second is right only where the physical memory after the first page's
frame holds the bytes of the pages that follow
(`defaultReadVirtualMemory_agrees_iff`).
-/

/-! ## The page-splitting read -/

/-- A reader of a range: it fills the buffer it is given, and may have written
to it when it fails. -/
abbrev Reader (ε : Type) : Type :=
  VirtualAddress → List UInt8 → Exec ε Unit × List UInt8

/-- A read that gives the bytes of a range, as a reader. -/
def fill {ε : Type} (read : VirtualAddress → ℕ → Exec ε (List UInt8)) : Reader ε :=
  fun addr buf =>
    match read addr buf.length with
    | .ok bytes => (.ok (), bytes)
    | .error e => (.error e, buf)

/-- The loop of `read_virtual_memory`. -/
def readVirtualMemoryLoop {ε : Type} (readMemory : Reader ε) :
    ℕ → VirtualAddress → VirtualAddress → List UInt8 → Exec ε Unit × List UInt8
  | 0, _, _, buf => (Exec.outOfFuel, buf)
  | fuel + 1, addr, nextPage, buf =>
    let nextPage := nextPage + 0x1000
    let diff := (nextPage - addr).toNat
    if buf.length ≤ diff then readMemory addr buf
    else
      match readMemory addr (buf.take diff) with
      | (.ok (), start) =>
        let (result, rest) :=
          readVirtualMemoryLoop readMemory fuel nextPage nextPage (buf.drop diff)
        (result, start ++ rest)
      | (.error e, start) => (.error e, start ++ buf.drop diff)

/-- `read_virtual_memory`. Each piece but the last has at least one byte, so
the loop makes at most as many steps as the buffer has bytes, and one
more. -/
def readVirtualMemory {ε : Type} (addr : VirtualAddress) (buf : List UInt8)
    (readMemory : Reader ε) : Exec ε Unit × List UInt8 :=
  readVirtualMemoryLoop readMemory (buf.length + 1) addr (pageBase addr) buf

section Backend

variable {M : Type} [Memory M]

/-- `default_read_virtual_memory`: what `Backend::read_virtual_memory` does,
unless a backend overrides it. -/
def defaultReadVirtualMemory (desc : MmuDesc) (backend : M)
    (mmuAddr : PhysicalAddress) (addr : VirtualAddress) (len : ℕ) :
    Exec TranslationError (List UInt8) := do
  let addr ← virtualToPhysical desc backend mmuAddr addr
  Exec.mapErr TranslationError.memory (Memory.readPhysical backend addr len)

end Backend

/-! ## The pieces of a range -/

section Pieces

variable {ε : Type} {readMemory : VirtualAddress → ℕ → Exec ε (List UInt8)}

/-- Whether a piece begins `off` bytes after `addr`: there, or at a page
boundary. -/
def IsPiece (addr : VirtualAddress) (off : ℕ) : Prop :=
  off = 0 ∨ (addr.toNat + off) % 4096 = 0

/-- The length of the piece that begins `off` bytes into a range of `len`
bytes: up to the end of the page, or of the range. -/
def pieceLen (addr : VirtualAddress) (off len : ℕ) : ℕ :=
  min (4096 - (addr.toNat + off) % 4096) (len - off)

/-- The next page begins this many bytes after an address of the page. -/
theorem toNat_nextPage_sub (addr : VirtualAddress) :
    (pageBase addr + 0x1000 - addr).toNat = 4096 - addr.toNat % 4096 := by
  have hbase := toNat_pageBase addr
  have hlt := addr.isLt
  rw [BitVec.toNat_sub, BitVec.toNat_add, hbase,
    show (0x1000 : U64).toNat = 4096 from rfl]
  omega

/-- The next page begins at a page boundary. -/
theorem nextPage_eq (addr : VirtualAddress) :
    pageBase addr + 0x1000 = addr + BitVec.ofNat 64 (4096 - addr.toNat % 4096)
      ∧ pageBase (pageBase addr + 0x1000) = pageBase addr + 0x1000
      ∧ (pageBase addr + 0x1000).toNat % 4096 = 0 := by
  have hbase := toNat_pageBase addr
  have hlt := addr.isLt
  have h4096 : (0x1000 : U64).toNat = 4096 := rfl
  have hnext : (pageBase addr + 0x1000).toNat % 4096 = 0 := by
    rw [BitVec.toNat_add, hbase, h4096]
    omega
  refine ⟨BitVec.eq_of_toNat_eq ?_, BitVec.eq_of_toNat_eq ?_, hnext⟩
  · rw [BitVec.toNat_add, BitVec.toNat_add, hbase, h4096, BitVec.toNat_ofNat]
    omega
  · rw [toNat_pageBase]
    omega

/-- A buffer that was filled has been read as a whole. -/
theorem fill_eq_ok_iff (addr : VirtualAddress) (buf bytes : List UInt8) :
    fill readMemory addr buf = (.ok (), bytes)
      ↔ readMemory addr buf.length = .ok bytes := by
  unfold fill
  cases readMemory addr buf.length with
  | ok bs => simp
  | error e => simp

/-- A piece of the rest of a range is the piece of the range that begins as
many bytes later. -/
theorem pieceLen_nextPage (addr : VirtualAddress) (off len : ℕ) :
    pieceLen (pageBase addr + 0x1000) off (len - (4096 - addr.toNat % 4096))
      = pieceLen addr (4096 - addr.toNat % 4096 + off) len := by
  have hmod := (nextPage_eq addr).2.2
  have hmod' : (addr.toNat + (4096 - addr.toNat % 4096 + off)) % 4096
      = ((pageBase addr + 0x1000).toNat + off) % 4096 := by omega
  unfold pieceLen
  rw [hmod']
  omega

/-- A step that is not the last reads its piece, and the loop the rest. -/
theorem splitStep_eq_ok_iff
    (hlen : ∀ addr n bytes, readMemory addr n = .ok bytes → bytes.length = n)
    {addr : VirtualAddress} {diff : ℕ} {start : List UInt8}
    (hstart : start.length = diff) {loop : Exec ε Unit × List UInt8}
    {tail bytes : List UInt8} :
    (match fill readMemory addr start with
      | (.ok (), start) => (loop.1, start ++ loop.2)
      | (.error e, start) => (.error e, start ++ tail)) = (.ok (), bytes)
      ↔ readMemory addr diff = .ok (bytes.take diff)
        ∧ loop = (.ok (), bytes.drop diff) := by
  unfold fill
  rw [hstart]
  cases hread : readMemory addr diff with
  | error e => simp
  | ok first =>
    have hfirst := hlen _ _ _ hread
    obtain ⟨result, rest⟩ := loop
    simp only [Prod.mk.injEq, Except.ok.injEq]
    constructor
    · rintro ⟨rfl, rfl⟩
      rw [← hfirst, List.take_left, List.drop_left]
      exact ⟨rfl, rfl, rfl⟩
    · rintro ⟨rfl, rfl, rfl⟩
      exact ⟨rfl, List.take_append_drop _ _⟩

/-- **The pieces of a range are read** as the parts of `bytes`. -/
def ReadsPieces (readMemory : VirtualAddress → ℕ → Exec ε (List UInt8)) (addr : VirtualAddress)
    (len : ℕ) (bytes : List UInt8) : Prop :=
  bytes.length = len ∧ ∀ off < len, IsPiece addr off →
    readMemory (addr + BitVec.ofNat 64 off) (pieceLen addr off len)
      = .ok ((bytes.drop off).take (pieceLen addr off len))

/-- A range that ends in its page is its only piece. -/
theorem readsPieces_iff_of_le
    (hlen : ∀ addr n bytes, readMemory addr n = .ok bytes → bytes.length = n)
    {addr : VirtualAddress} {len : ℕ} (hpos : 0 < len) (hle : len ≤ 4096 - addr.toNat % 4096)
    (bytes : List UInt8) :
    ReadsPieces readMemory addr len bytes ↔ readMemory addr len = .ok bytes := by
  have hpiece : pieceLen addr 0 len = len := by
    unfold pieceLen
    omega
  have hzero : addr + BitVec.ofNat 64 0 = addr := BitVec.add_zero addr
  constructor
  · rintro ⟨hbytes, h⟩
    have h0 := h 0 hpos (Or.inl rfl)
    rwa [hpiece, hzero, List.drop_zero, List.take_of_length_le hbytes.le] at h0
  · intro h
    have hbytes := hlen _ _ _ h
    refine ⟨hbytes, fun off hoff his => ?_⟩
    obtain rfl : off = 0 := by
      unfold IsPiece at his
      omega
    rwa [hpiece, hzero, List.drop_zero, List.take_of_length_le hbytes.le]

/-- Of a longer one, the first piece goes up to the next page, and the others are those of the
rest. -/
theorem readsPieces_iff_of_lt
    (hlen : ∀ addr n bytes, readMemory addr n = .ok bytes → bytes.length = n)
    {addr : VirtualAddress} {len : ℕ} (hlt : 4096 - addr.toNat % 4096 < len)
    (bytes : List UInt8) :
    ReadsPieces readMemory addr len bytes
      ↔ readMemory addr (4096 - addr.toNat % 4096)
          = .ok (bytes.take (4096 - addr.toNat % 4096))
        ∧ ReadsPieces readMemory (pageBase addr + 0x1000) (len - (4096 - addr.toNat % 4096))
          (bytes.drop (4096 - addr.toNat % 4096)) := by
  have hmod : addr.toNat % 4096 < 4096 := Nat.mod_lt _ (by decide)
  obtain ⟨hnext, -, haligned⟩ := nextPage_eq addr
  have hlater := fun off => pieceLen_nextPage addr off len
  generalize hdiff : 4096 - addr.toNat % 4096 = diff at *
  have hfirst : pieceLen addr 0 len = diff := by
    unfold pieceLen
    omega
  have hzero : addr + BitVec.ofNat 64 0 = addr := BitVec.add_zero addr
  have haddr : ∀ off, pageBase addr + 0x1000 + BitVec.ofNat 64 off
      = addr + BitVec.ofNat 64 (diff + off) := by
    intro off
    rw [hnext, BitVec.add_assoc, BitVec.ofNat_add]
  have hpiece : ∀ off, IsPiece addr (diff + off) ↔ IsPiece (pageBase addr + 0x1000) off := by
    intro off
    unfold IsPiece
    omega
  simp only [ReadsPieces, hlater, haddr, List.length_drop, List.drop_drop]
  constructor
  · rintro ⟨hbytes, h⟩
    have h0 := h 0 (by omega) (Or.inl rfl)
    rw [hfirst, hzero, List.drop_zero] at h0
    exact ⟨h0, by omega, fun off hoff his => h (diff + off) (by omega) ((hpiece off).mpr his)⟩
  · rintro ⟨hstart, hrest, hpieces⟩
    have hstartLen := hlen _ _ _ hstart
    rw [List.length_take] at hstartLen
    refine ⟨by omega, fun off hoff his => ?_⟩
    by_cases hoff0 : off = 0
    · subst hoff0
      rwa [hfirst, hzero, List.drop_zero]
    · obtain ⟨off, rfl⟩ : ∃ o, off = diff + o := by
        refine ⟨off - diff, ?_⟩
        unfold IsPiece at his
        omega
      exact hpieces off (by omega) ((hpiece off).mp his)

/-- **The loop reads the pieces of the range**: it succeeds with `bytes` when
each piece is read as its part of `bytes`. -/
theorem readVirtualMemoryLoop_eq_ok_iff
    (hlen : ∀ addr n bytes, readMemory addr n = .ok bytes → bytes.length = n)
    (fuel : ℕ) (addr : VirtualAddress) (buf bytes : List UInt8)
    (hbuf : 0 < buf.length) (hfuel : buf.length < fuel) :
    readVirtualMemoryLoop (fill readMemory) fuel addr (pageBase addr) buf
        = (.ok (), bytes)
      ↔ ReadsPieces readMemory addr buf.length bytes := by
  induction fuel generalizing addr buf bytes with
  | zero => exact absurd hfuel (Nat.not_lt_zero _)
  | succ fuel ih =>
    have hmod : addr.toNat % 4096 < 4096 := Nat.mod_lt _ (by decide)
    have hpage := (nextPage_eq addr).2.1
    rw [readVirtualMemoryLoop]
    dsimp only
    rw [toNat_nextPage_sub]
    by_cases hle : buf.length ≤ 4096 - addr.toNat % 4096
    · rw [if_pos hle, fill_eq_ok_iff, readsPieces_iff_of_le hlen hbuf hle]
    · have htake : (buf.take (4096 - addr.toNat % 4096)).length = 4096 - addr.toNat % 4096 := by
        rw [List.length_take]
        omega
      have hdrop : (buf.drop (4096 - addr.toNat % 4096)).length
          = buf.length - (4096 - addr.toNat % 4096) := List.length_drop
      have hih := ih (pageBase addr + 0x1000) (buf.drop (4096 - addr.toNat % 4096))
        (bytes.drop (4096 - addr.toNat % 4096)) (by omega) (by omega)
      rw [hpage, hdrop] at hih
      rw [if_neg hle, splitStep_eq_ok_iff hlen htake, hih,
        readsPieces_iff_of_lt hlen (not_le.mp hle)]

/-- **The page-splitting read reads the pieces of the range**, whatever the
reader. -/
theorem readVirtualMemory_eq_ok_iff
    (readMemory : VirtualAddress → ℕ → Exec ε (List UInt8))
    (hlen : ∀ addr n bytes, readMemory addr n = .ok bytes → bytes.length = n)
    (addr : VirtualAddress) (buf bytes : List UInt8) (hbuf : 0 < buf.length) :
    readVirtualMemory addr buf (fill readMemory) = (.ok (), bytes)
      ↔ bytes.length = buf.length
        ∧ ∀ off < buf.length, IsPiece addr off →
          readMemory (addr + BitVec.ofNat 64 off) (pieceLen addr off buf.length)
            = .ok ((bytes.drop off).take (pieceLen addr off buf.length)) :=
  readVirtualMemoryLoop_eq_ok_iff hlen _ addr buf bytes hbuf (Nat.lt_succ_self _)

end Pieces

/-! ## Translation and reading inside a page -/

section Page

variable {M : Type} [Memory M] {desc : MmuDesc} {memory : M}
  {mmuAddr : PhysicalAddress}

/-- **Inside a page translation moves with the address**, for pages of every
size. -/
theorem virtualToPhysical_add (desc : MmuDesc) (memory : M)
    (mmuAddr : PhysicalAddress) (addr : VirtualAddress) (d : ℕ)
    (hd : addr.toNat % 4096 + d < 4096) :
    virtualToPhysical desc memory mmuAddr (addr + BitVec.ofNat 64 d)
      = (do
        let p ← virtualToPhysical desc memory mmuAddr addr
        return p + BitVec.ofNat 64 d) := by
  have hadd : (addr + BitVec.ofNat 64 d).toNat = addr.toNat + d := by
    have hlt := addr.isLt
    exact toNat_add_ofNat_of_lt (by omega)
  have hpage := pageBase_add hd
  have hoff : (addr + BitVec.ofNat 64 d) &&& mask 12
      = (addr &&& mask 12) + BitVec.ofNat 64 d := by
    have hmask := toNat_and_mask addr (show 12 ≤ 64 by decide)
    refine BitVec.eq_of_toNat_eq ?_
    rw [toNat_and_mask _ (by decide), hadd, toNat_add_ofNat_of_lt (by omega), hmask]
    omega
  unfold virtualToPhysical
  rw [walk_page desc memory (addr + BitVec.ofNat 64 d) levelsTo_levels le_rfl,
    walk_page desc memory addr levelsTo_levels le_rfl, hpage, hoff, bind_assoc]
  refine congrArg (_ >>= ·) (funext fun base => ?_)
  rw [Exec.pure_eq_ok, Exec.pure_eq_ok, Exec.ok_bind, Exec.pure_eq_ok,
    BitVec.add_assoc]

/-- **The readable bytes of a memory form whole pages**: a page is readable,
and then each range in it is read as the bytes of its addresses, or no byte
of it is. -/
def Memory.WholePages (memory : M) : Prop :=
  ∀ page : PhysicalAddress, page.toNat % 4096 = 0 →
    (∃ bytes : List UInt8, bytes.length = 4096 ∧ ∀ i n, 0 < n → i + n ≤ 4096 →
        Memory.readPhysical memory (page + BitVec.ofNat 64 i) n
          = .ok ((bytes.drop i).take n))
      ∨ ∀ i n bytes, 0 < n → i + n ≤ 4096 →
        Memory.readPhysical memory (page + BitVec.ofNat 64 i) n ≠ .ok bytes

/-- A flat buffer of whole pages. -/
theorem RawMemory.wholePages (m : RawMemory) (h : 4096 ∣ m.bytes.length) :
    Memory.WholePages m := by
  intro page hpage
  have hadd : ∀ i < 4096, (page + BitVec.ofNat 64 i).toNat = page.toNat + i := by
    intro i hi
    have hlt := page.isLt
    exact toNat_add_ofNat_of_lt (by omega)
  by_cases hle : page.toNat + 4096 ≤ m.bytes.length
  · refine Or.inl ⟨(m.bytes.drop page.toNat).take 4096, ?_, fun i n hn hin => ?_⟩
    · rw [List.length_take, List.length_drop]
      omega
    · have hi := hadd i (by omega)
      refine (RawMemory.readPhysical_eq_ok_iff _ _ _ _).mpr ⟨by omega, ?_⟩
      rw [hi, List.drop_take, List.take_take, List.drop_drop, min_eq_left (by omega)]
  · refine Or.inr fun i n bytes hn hin hread => ?_
    have hi := hadd i (by omega)
    obtain ⟨hend, -⟩ := (RawMemory.readPhysical_eq_ok_iff _ _ _ _).mp hread
    omega

/-- The byte of a list at a place. -/
theorem take_one_drop {α : Type} {l : List α} {k : ℕ} (hk : k < l.length) :
    (l.drop k).take 1 = [l[k]] := by
  rw [List.drop_eq_getElem_cons hk, List.take_succ_cons, List.take_zero]

/-- **A range in a page is read byte by byte.** -/
theorem readPhysical_eq_ok_iff_bytes (hm : Memory.WholePages memory)
    {p : PhysicalAddress} {n : ℕ} (hn : 0 < n) (hpage : p.toNat % 4096 + n ≤ 4096)
    (bytes : List UInt8) :
    Memory.readPhysical memory p n = .ok bytes
      ↔ bytes.length = n ∧ ∀ k < n,
        Memory.readPhysical memory (p + BitVec.ofNat 64 k) 1
          = .ok ((bytes.drop k).take 1) := by
  have haddr : ∀ k, p + BitVec.ofNat 64 k
      = pageBase p + BitVec.ofNat 64 (p.toNat % 4096 + k) := by
    intro k
    refine BitVec.eq_of_toNat_eq ?_
    rw [BitVec.toNat_add, BitVec.toNat_add, toNat_pageBase, BitVec.toNat_ofNat,
      BitVec.toNat_ofNat]
    omega
  have h0 := haddr 0
  rw [Nat.add_zero, show p + BitVec.ofNat 64 0 = p from BitVec.add_zero p] at h0
  have hbase : (pageBase p).toNat % 4096 = 0 := by
    rw [toNat_pageBase]
    omega
  obtain ⟨page, hlen, hread⟩ | hread := hm (pageBase p) hbase
  · rw [h0, hread _ _ hn hpage, Except.ok.injEq]
    constructor
    · rintro rfl
      refine ⟨by rw [List.length_take, List.length_drop]; omega, fun k hk => ?_⟩
      rw [← h0, haddr, hread _ _ Nat.one_pos (by omega), List.drop_take,
        List.drop_drop, List.take_take, min_eq_left (by omega)]
    · rintro ⟨hbytes, h⟩
      refine List.ext_getElem ?_ fun k hk hk' => ?_
      · rw [List.length_take, List.length_drop]
        omega
      · have hbyte := h k (by omega)
        rw [← h0, haddr, hread _ _ Nat.one_pos (by omega), take_one_drop (by omega),
          take_one_drop (by omega), Except.ok.injEq, List.singleton_inj] at hbyte
        rw [List.getElem_take, List.getElem_drop, hbyte]
  · constructor
    · rw [h0]
      intro h
      exact absurd h (hread _ _ _ hn hpage)
    · rintro ⟨-, h⟩
      have hfirst := h 0 hn
      rw [haddr] at hfirst
      exact absurd hfirst (hread _ _ _ Nat.one_pos (by omega))

/-- A translated address is in the same place of its page. -/
theorem virtualToPhysical_range {addr : VirtualAddress} {p : PhysicalAddress}
    (h : virtualToPhysical desc memory mmuAddr addr = .ok p) :
    p.toNat % 4096 = addr.toNat % 4096 ∧ p.toNat < 2 ^ 49 :=
  walk_range levelsTo_levels le_rfl h

theorem defaultReadVirtualMemory_eq_ok_iff (addr : VirtualAddress) (len : ℕ)
    (bytes : List UInt8) :
    defaultReadVirtualMemory desc memory mmuAddr addr len = .ok bytes
      ↔ ∃ p, virtualToPhysical desc memory mmuAddr addr = .ok p
        ∧ Memory.readPhysical memory p len = .ok bytes := by
  unfold defaultReadVirtualMemory
  simp only [Exec.bind_eq_ok_iff, Exec.mapErr_eq_ok_iff]

theorem length_of_defaultReadVirtualMemory (addr : VirtualAddress) (len : ℕ)
    (bytes : List UInt8)
    (h : defaultReadVirtualMemory desc memory mmuAddr addr len = .ok bytes) :
    bytes.length = len := by
  obtain ⟨p, -, hread⟩ := (defaultReadVirtualMemory_eq_ok_iff _ _ _).mp h
  exact Memory.length_readPhysical hread

/-- **A range in a page is read as its bytes are**, each through its own
translation. -/
theorem defaultReadVirtualMemory_eq_ok_iff_bytes (hm : Memory.WholePages memory)
    {addr : VirtualAddress} {n : ℕ} (hn : 0 < n)
    (hpage : addr.toNat % 4096 + n ≤ 4096) (bytes : List UInt8) :
    defaultReadVirtualMemory desc memory mmuAddr addr n = .ok bytes
      ↔ bytes.length = n ∧ ∀ k < n,
        defaultReadVirtualMemory desc memory mmuAddr (addr + BitVec.ofNat 64 k) 1
          = .ok ((bytes.drop k).take 1) := by
  have hbyte : ∀ k < n, ∀ p, virtualToPhysical desc memory mmuAddr addr = .ok p →
      (defaultReadVirtualMemory desc memory mmuAddr (addr + BitVec.ofNat 64 k) 1
          = .ok ((bytes.drop k).take 1)
        ↔ Memory.readPhysical memory (p + BitVec.ofNat 64 k) 1
          = .ok ((bytes.drop k).take 1)) := by
    intro k hk p hp
    rw [defaultReadVirtualMemory_eq_ok_iff,
      virtualToPhysical_add desc memory mmuAddr addr k (by omega), hp, Exec.ok_bind,
      Exec.pure_eq_ok]
    simp
  rw [defaultReadVirtualMemory_eq_ok_iff]
  constructor
  · rintro ⟨p, hp, hread⟩
    have hrange := (virtualToPhysical_range hp).1
    obtain ⟨hbytes, h⟩ := (readPhysical_eq_ok_iff_bytes hm hn (by omega) bytes).mp hread
    exact ⟨hbytes, fun k hk => (hbyte k hk p hp).mpr (h k hk)⟩
  · rintro ⟨hbytes, h⟩
    have h0 := h 0 hn
    rw [show addr + BitVec.ofNat 64 0 = addr from BitVec.add_zero addr,
      defaultReadVirtualMemory_eq_ok_iff] at h0
    obtain ⟨p, hp, -⟩ := h0
    have hrange := (virtualToPhysical_range hp).1
    refine ⟨p, hp, (readPhysical_eq_ok_iff_bytes hm hn (by omega) bytes).mpr ⟨hbytes, ?_⟩⟩
    exact fun k hk => (hbyte k hk p hp).mp (h k hk)

/-- Each byte of a range is in the piece that begins at the last boundary
before it. -/
theorem exists_piece (addr : VirtualAddress) {k len : ℕ} (hk : k < len) :
    ∃ off j, k = off + j ∧ off < len ∧ IsPiece addr off ∧ j < pieceLen addr off len := by
  refine ⟨k - min k ((addr.toNat + k) % 4096), min k ((addr.toNat + k) % 4096), by omega,
    by omega, ?_, ?_⟩
  · unfold IsPiece
    omega
  · unfold pieceLen
    omega

/-- A piece has bytes, and is in one page. -/
theorem pieceLen_range (addr : VirtualAddress) {off len : ℕ} (hoff : off < len) :
    0 < pieceLen addr off len ∧ off + pieceLen addr off len ≤ len
      ∧ (addr + BitVec.ofNat 64 off).toNat % 4096 + pieceLen addr off len ≤ 4096 := by
  have hadd : (addr + BitVec.ofNat 64 off).toNat % 4096 = (addr.toNat + off) % 4096 := by
    rw [BitVec.toNat_add, BitVec.toNat_ofNat]
    omega
  rw [hadd]
  unfold pieceLen
  omega

/-- **The page-splitting read reads a range byte by byte.** -/
theorem readVirtualMemory_eq_ok_iff_bytes (desc : MmuDesc)
    (mmuAddr : PhysicalAddress) (hm : Memory.WholePages memory)
    (addr : VirtualAddress) (buf bytes : List UInt8) (hbuf : 0 < buf.length) :
    readVirtualMemory addr buf (fill (defaultReadVirtualMemory desc memory mmuAddr))
        = (.ok (), bytes)
      ↔ bytes.length = buf.length ∧ ∀ k < buf.length,
        defaultReadVirtualMemory desc memory mmuAddr (addr + BitVec.ofNat 64 k) 1
          = .ok ((bytes.drop k).take 1) := by
  rw [readVirtualMemory_eq_ok_iff _ length_of_defaultReadVirtualMemory _ _ _ hbuf]
  refine and_congr_right fun hbytes => ?_
  have hpiece : ∀ off < buf.length,
      (defaultReadVirtualMemory desc memory mmuAddr (addr + BitVec.ofNat 64 off)
          (pieceLen addr off buf.length)
          = .ok ((bytes.drop off).take (pieceLen addr off buf.length))
        ↔ ∀ j < pieceLen addr off buf.length,
          defaultReadVirtualMemory desc memory mmuAddr
            (addr + BitVec.ofNat 64 (off + j)) 1
            = .ok ((bytes.drop (off + j)).take 1)) := by
    intro off hoff
    obtain ⟨hpos, hend, hpage⟩ := pieceLen_range addr hoff
    have hlen : ((bytes.drop off).take (pieceLen addr off buf.length)).length
        = pieceLen addr off buf.length := by
      rw [List.length_take, List.length_drop]
      omega
    rw [defaultReadVirtualMemory_eq_ok_iff_bytes hm hpos hpage, and_iff_right hlen]
    refine forall_congr' fun j => imp_congr_right fun hj => ?_
    rw [BitVec.add_assoc, ← BitVec.ofNat_add, List.drop_take, List.drop_drop,
      List.take_take, min_eq_left (by omega)]
  constructor
  · intro h k hk
    obtain ⟨off, j, rfl, hoff, his, hj⟩ := exists_piece addr hk
    exact (hpiece off hoff).mp (h off hoff his) j hj
  · intro h off hoff his
    obtain ⟨hpos, hend, -⟩ := pieceLen_range addr hoff
    exact (hpiece off hoff).mpr fun j hj => h (off + j) (by omega)

/-- **The page-splitting read is right for every range.** It succeeds exactly
when each byte of the range has a translation and is readable there, and then
it gives these bytes; and inside a 4 KiB page, whatever the size of the page
that holds it, translation moves with the address. -/
theorem readVirtualMemory_bytes (desc : MmuDesc) (memory : M)
    (hm : Memory.WholePages memory) (mmuAddr : PhysicalAddress)
    (addr : VirtualAddress) (buf : List UInt8) (hbuf : 0 < buf.length) :
    ((∃ bytes, readVirtualMemory addr buf
          (fill (defaultReadVirtualMemory desc memory mmuAddr)) = (.ok (), bytes))
        ↔ ∀ k < buf.length, ∃ p b,
          virtualToPhysical desc memory mmuAddr (addr + BitVec.ofNat 64 k) = .ok p
          ∧ Memory.readPhysical memory p 1 = .ok [b])
      ∧ (∀ bytes, readVirtualMemory addr buf
          (fill (defaultReadVirtualMemory desc memory mmuAddr)) = (.ok (), bytes) →
        bytes.length = buf.length ∧ ∀ (k : ℕ) (hk : k < bytes.length), ∃ p,
          virtualToPhysical desc memory mmuAddr (addr + BitVec.ofNat 64 k) = .ok p
          ∧ Memory.readPhysical memory p 1 = .ok [bytes[k]])
      ∧ ∀ (a : VirtualAddress) (d : ℕ), a.toNat % 4096 + d < 4096 →
        virtualToPhysical desc memory mmuAddr (a + BitVec.ofNat 64 d)
          = (do
            let p ← virtualToPhysical desc memory mmuAddr a
            return p + BitVec.ofNat 64 d) := by
  have hread := fun bytes => readVirtualMemory_eq_ok_iff_bytes desc
    mmuAddr hm addr buf bytes hbuf
  have hvalue : ∀ bytes, readVirtualMemory addr buf
      (fill (defaultReadVirtualMemory desc memory mmuAddr)) = (.ok (), bytes) →
      bytes.length = buf.length ∧ ∀ (k : ℕ) (hk : k < bytes.length), ∃ p,
        virtualToPhysical desc memory mmuAddr (addr + BitVec.ofNat 64 k) = .ok p
        ∧ Memory.readPhysical memory p 1 = .ok [bytes[k]] := by
    intro bytes h
    obtain ⟨hlen, hbytes⟩ := (hread bytes).mp h
    refine ⟨hlen, fun k hk => ?_⟩
    have hk' := hbytes k (hlen ▸ hk)
    rwa [take_one_drop hk, defaultReadVirtualMemory_eq_ok_iff] at hk'
  refine ⟨⟨?_, ?_⟩, hvalue, virtualToPhysical_add desc memory mmuAddr⟩
  · rintro ⟨bytes, h⟩ k hk
    obtain ⟨hlen, hbytes⟩ := hvalue bytes h
    obtain ⟨p, hp, hb⟩ := hbytes k (hlen.symm ▸ hk)
    exact ⟨p, _, hp, hb⟩
  · intro h
    choose p b hp hb using h
    -- the bytes of the range, each read on its own
    have hlen : (List.ofFn fun k : Fin buf.length => b k k.isLt).length = buf.length :=
      List.length_ofFn
    refine ⟨_, (hread _).mpr ⟨hlen, fun k hk => ?_⟩⟩
    rw [take_one_drop (hlen.symm ▸ hk), List.getElem_ofFn,
      defaultReadVirtualMemory_eq_ok_iff]
    exact ⟨p k hk, hp k hk, hb k hk⟩

/-- A memory of two pages. The first one has the tables, which map them one after the other. -/
def twoPages : RawMemory :=
  RawMemory.new (Layout.u64.enc 1 ++ Layout.u64.enc 0x1001 ++ List.replicate 4080 0
    ++ List.replicate 4096 7)

/-- Around the boundary of its pages, addresses stay what they are. -/
theorem virtualToPhysical_twoPages {k : ℕ} (hk : k < 4) :
    virtualToPhysical X86_64.mmuDesc twoPages 0 (0xffe + BitVec.ofNat 64 k)
      = .ok (0xffe + BitVec.ofNat 64 k) := by
  have hpage : ∀ {a : VirtualAddress}, virtualToPhysical X86_64.mmuDesc twoPages 0 a = .ok a →
      ∀ d, a.toNat % 4096 + d < 4096 →
        virtualToPhysical X86_64.mmuDesc twoPages 0 (a + BitVec.ofNat 64 d)
          = .ok (a + BitVec.ofNat 64 d) := by
    intro a h d hd
    rw [virtualToPhysical_add _ _ _ a d hd, h]
    rfl
  have hfirst : virtualToPhysical X86_64.mmuDesc twoPages 0 0xffe = .ok 0xffe := by decide +kernel
  have hsecond : virtualToPhysical X86_64.mmuDesc twoPages 0 0x1000 = .ok 0x1000 := by
    decide +kernel
  interval_cases k
  · exact hfirst
  · exact hpage hfirst 1 (by decide)
  · exact hsecond
  · exact hpage hsecond 1 (by decide)

/-- What is read there. -/
theorem readPhysical_twoPages {i k : ℕ} (h : i + k ≤ 4) :
    Memory.readPhysical twoPages (0xffe + BitVec.ofNat 64 i) k
      = .ok (([0, 0, 7, 7].drop i).take k) :=
  (RawMemory.contract twoPages).read_part 0xffe 4 [0, 0, 7, 7] i k (by decide) (by decide +kernel) h

/-- Four bytes, two of each page, are read where they are translated to. -/
theorem readVirtualMemory_twoPages :
    ∃ bytes, readVirtualMemory 0xffe [1, 1, 1, 1]
      (fill (defaultReadVirtualMemory X86_64.mmuDesc twoPages 0)) = (.ok (), bytes) := by
  have hlen : twoPages.bytes.length = 4096 * 2 := by
    show (Layout.u64.enc 1 ++ Layout.u64.enc 0x1001 ++ List.replicate 4080 0
      ++ List.replicate 4096 7).length = 4096 * 2
    rw [List.length_append, List.length_append, List.length_append, List.length_replicate,
      List.length_replicate]
    rfl
  refine ((readVirtualMemory_bytes X86_64.mmuDesc twoPages
    (RawMemory.wholePages twoPages ⟨2, hlen⟩) 0 0xffe [1, 1, 1, 1] (by decide)).1).mpr
    fun k hk => ?_
  have hk : k < 4 := hk
  refine ⟨_, [0, 0, 7, 7][k], virtualToPhysical_twoPages hk, ?_⟩
  rw [readPhysical_twoPages (by omega), take_one_drop hk]

/-! ## The read that translates once -/

/-- **Translating once is right where the frames go on.** Whenever
`Backend::read_virtual_memory` succeeds it gives the bytes of the
page-splitting read if and only if every page that begins inside the range is
mapped, to a frame that holds the bytes that stand at this distance from the
translation of the first address. -/
theorem defaultReadVirtualMemory_agrees_iff (desc : MmuDesc) (memory : M)
    (hm : Memory.Coherent memory) (mmuAddr : PhysicalAddress)
    (addr : VirtualAddress) (buf : List UInt8) (hbuf : buf.length < 2 ^ 63) :
    (∀ bytes, defaultReadVirtualMemory desc memory mmuAddr addr buf.length = .ok bytes →
        readVirtualMemory addr buf (fill (defaultReadVirtualMemory desc memory mmuAddr))
          = (.ok (), bytes))
      ↔ ∀ p, virtualToPhysical desc memory mmuAddr addr = .ok p →
        (∃ bytes, Memory.readPhysical memory p buf.length = .ok bytes) →
        ∀ off < buf.length, 0 < off → (addr.toNat + off) % 4096 = 0 →
          ∃ q, virtualToPhysical desc memory mmuAddr (addr + BitVec.ofNat 64 off) = .ok q
            ∧ Memory.readPhysical memory q (min 4096 (buf.length - off))
              = Memory.readPhysical memory (p + BitVec.ofNat 64 off)
                (min 4096 (buf.length - off)) := by
  obtain hzero | hpos := Nat.eq_zero_or_pos buf.length
  · -- nothing to read: both paths make the same call
    obtain rfl := List.length_eq_zero_iff.mp hzero
    refine ⟨fun _ p _ _ off hoff => absurd hoff (Nat.not_lt_zero off), fun _ bytes h => ?_⟩
    exact (fill_eq_ok_iff addr [] bytes).mpr h
  have hpart : ∀ p bytes, virtualToPhysical desc memory mmuAddr addr = .ok p →
      Memory.readPhysical memory p buf.length = .ok bytes →
      ∀ off n, off + n ≤ buf.length →
        Memory.readPhysical memory (p + BitVec.ofNat 64 off) n
          = .ok ((bytes.drop off).take n) := by
    intro p bytes hp hread off n hle
    have hrange := (virtualToPhysical_range hp).2
    exact hm.read_part p buf.length bytes off n (by omega) hread hle
  have hpiece : ∀ off, (addr.toNat + off) % 4096 = 0 →
      pieceLen addr off buf.length = min 4096 (buf.length - off) := by
    intro off hoff
    unfold pieceLen
    rw [hoff, Nat.sub_zero]
  have hsplit := fun bytes => readVirtualMemory_eq_ok_iff
    (defaultReadVirtualMemory desc memory mmuAddr) length_of_defaultReadVirtualMemory
    addr buf bytes hpos
  constructor
  · rintro h p hp ⟨bytes, hread⟩ off hoff hoffpos hboundary
    have hdefault := (defaultReadVirtualMemory_eq_ok_iff addr buf.length bytes).mpr
      ⟨p, hp, hread⟩
    obtain ⟨-, hpieces⟩ := (hsplit bytes).mp (h bytes hdefault)
    have hthis := hpieces off hoff (Or.inr hboundary)
    rw [hpiece off hboundary, defaultReadVirtualMemory_eq_ok_iff] at hthis
    obtain ⟨q, hq, hqread⟩ := hthis
    exact ⟨q, hq, hqread.trans (hpart p bytes hp hread off _ (by omega)).symm⟩
  · intro h bytes hdefault
    obtain ⟨p, hp, hread⟩ := (defaultReadVirtualMemory_eq_ok_iff _ _ _).mp hdefault
    refine (hsplit bytes).mpr ⟨Memory.length_readPhysical hread, fun off hoff his => ?_⟩
    obtain ⟨-, hend, -⟩ := pieceLen_range addr hoff
    rw [defaultReadVirtualMemory_eq_ok_iff]
    by_cases hfirst : off = 0
    · subst hfirst
      have h0 := hpart p bytes hp hread 0 _ hend
      rw [show p + BitVec.ofNat 64 0 = p from BitVec.add_zero p] at h0
      exact ⟨p, by rw [show addr + BitVec.ofNat 64 0 = addr from BitVec.add_zero addr, hp],
        h0⟩
    · have hboundary := his.resolve_left hfirst
      obtain ⟨q, hq, hqread⟩ := h p hp ⟨bytes, hread⟩ off hoff
        (Nat.pos_of_ne_zero hfirst) hboundary
      rw [← hpiece off hboundary] at hqread
      exact ⟨q, hq, hqread.trans (hpart p bytes hp hread off _ hend)⟩

/-- Across the boundary of two pages that are one after the other the two reads agree. -/
theorem defaultReadVirtualMemory_twoPages :
    readVirtualMemory 0xfff [1, 1]
      (fill (defaultReadVirtualMemory X86_64.mmuDesc twoPages 0)) = (.ok (), [0, 7]) := by
  refine (defaultReadVirtualMemory_agrees_iff X86_64.mmuDesc twoPages
    (RawMemory.contract twoPages).toCoherent 0 0xfff [1, 1] (by decide)).mpr
    (fun p hp _ off hoff hpos _ => ?_) [0, 7] ?_
  · obtain rfl := Except.ok.inj (hp.symm.trans (virtualToPhysical_twoPages (k := 1) (by decide)))
    obtain rfl : off = 1 := Nat.le_antisymm (Nat.le_of_lt_succ hoff) hpos
    exact ⟨0x1000, virtualToPhysical_twoPages (k := 2) (by decide), rfl⟩
  · exact (defaultReadVirtualMemory_eq_ok_iff _ _ _).mpr ⟨0xfff,
      virtualToPhysical_twoPages (k := 1) (by decide), readPhysical_twoPages (i := 1) (by decide)⟩

end Page

/-! ### Two pages of one frame

Both entries of this table map the frame at 0, so the second page begins with
the table again, while the physical memory after the first page is zero. -/

/-- A memory with a table of two entries at 0, and zeros around `0x1000`. -/
def sharedFrame : MemRemap RawMemory where
  mappings := [⟨0, 0x10⟩, ⟨0xff8, 0x1008⟩]
  remapAt := [0, 0x10]
  inner := RawMemory.new (Layout.u64.enc 1 ++ Layout.u64.enc 1 ++ List.replicate 16 0)

/-- Across the page boundary the two reads differ. -/
theorem defaultReadVirtualMemory_sharedFrame :
    ¬ ∀ bytes, defaultReadVirtualMemory X86_64.mmuDesc sharedFrame 0 0xfff 2 = .ok bytes →
      readVirtualMemory 0xfff [0, 0]
        (fill (defaultReadVirtualMemory X86_64.mmuDesc sharedFrame 0)) = (.ok (), bytes) := by
  intro h
  have hsplit : readVirtualMemory 0xfff [0, 0]
      (fill (defaultReadVirtualMemory X86_64.mmuDesc sharedFrame 0))
      = (.ok (), [0, 1]) := by decide
  have hagree := h [0, 0] (by decide)
  rw [hsplit] at hagree
  exact absurd hagree (by decide)
