import Vminer.DumpFormat

/-!
# Opening a file that nobody wrote

`DumbDump::read` takes any bytes for a dump. Of the table of mappings it
checks one thing: that the sum of the sizes, each a signed difference, is the
length of the memory section. Sizes of both signs can cancel, so the check
passes for tables that describe no packing of the section, and the sums
themselves can leave the range of their words, which panics.

`DumbDump.WellFormed` is what an opened dump should satisfy, and
`DumbDump.TableSound` what the table has to satisfy for it. The two agree
(`read_sound_iff`): no file without a sound table is opened well.
-/

/-! ## Sums of signed sizes -/

/-- The sizes of mappings as signed differences. -/
def signedSizes (mappings : List MemoryMap) : List ℤ := mappings.map fun m => m.diff.toInt

/-- The range of `u64`. -/
def InU64 (x : ℤ) : Prop := 0 ≤ x ∧ x < 2 ^ 64
deriving Decidable

/-- The range of `i64`. -/
def InI64 (x : ℤ) : Prop := -2 ^ 63 ≤ x ∧ x < 2 ^ 63
deriving Decidable

/-- The offsets are computed if the sums on the way are addresses. -/
theorem exists_remapTable {ε : Type} (mappings : List MemoryMap) (off : PhysicalAddress)
    (h : PartialSums InU64 off.toNat (signedSizes mappings)) :
    ∃ r, (remapTable off mappings : Exec ε _) = .ok r := by
  induction mappings generalizing off with
  | nil => exact ⟨([], off), rfl⟩
  | cons m rest ih =>
    obtain ⟨hfirst, hrest⟩ := (partialSums_cons _ _ _ _).mp h
    rw [← toNat_add_of_signed hfirst] at hrest
    obtain ⟨r, hr⟩ := ih _ hrest
    refine ⟨(off :: r.1, r.2), ?_⟩
    rw [remapTable, (checkedAddSigned_eq_ok_iff _ _ _).mpr ⟨hfirst, rfl⟩, Exec.ok_bind, hr]
    rfl

/-- Otherwise the computation panics. -/
theorem remapTable_panics {ε : Type} (mappings : List MemoryMap) (off : PhysicalAddress)
    (h : ¬ PartialSums InU64 off.toNat (signedSizes mappings)) :
    (remapTable off mappings : Exec ε _) = Exec.panicked := by
  induction mappings generalizing off with
  | nil => exact absurd (partialSums_nil _ _) h
  | cons m rest ih =>
    rw [remapTable]
    by_cases hfirst : InU64 (off.toNat + m.diff.toInt)
    · have hrest : ¬ PartialSums InU64 (off + m.diff).toNat (signedSizes rest) := by
        rw [toNat_add_of_signed hfirst]
        exact fun hrest => h ((partialSums_cons _ _ _ _).mpr ⟨hfirst, hrest⟩)
      rw [(checkedAddSigned_eq_ok_iff _ _ _).mpr ⟨hfirst, rfl⟩, Exec.ok_bind, ih _ hrest]
      rfl
    · have hpanic : (checkedAddSigned off m.diff : Exec ε _) = Exec.panicked :=
        if_neg hfirst
      rw [hpanic]
      rfl

/-- The total is computed if the sums on the way are signed words. -/
theorem exists_memSize {ε : Type} (mappings : List MemoryMap) (sum : U64)
    (h : PartialSums InI64 sum.toInt (signedSizes mappings)) :
    ∃ total, (memSize sum mappings : Exec ε _) = .ok total
      ∧ total.toInt = sum.toInt + (signedSizes mappings).sum := by
  induction mappings generalizing sum with
  | nil => exact ⟨sum, rfl, (add_zero _).symm⟩
  | cons m rest ih =>
    obtain ⟨hfirst, hrest⟩ := (partialSums_cons _ _ _ _).mp h
    have hadd := (toInt_add_eq_iff sum m.diff).mpr hfirst
    rw [hadd] at hrest
    obtain ⟨total, htotal, hval⟩ := ih _ hrest
    refine ⟨total, ?_, ?_⟩
    · rw [memSize, (checkedAddInt_eq_ok_iff _ _ _).mpr ⟨hadd, rfl⟩, Exec.ok_bind, htotal]
    · rw [hval, ← hadd, add_assoc]
      rfl

/-- Otherwise the computation panics. -/
theorem memSize_panics {ε : Type} (mappings : List MemoryMap) (sum : U64)
    (h : ¬ PartialSums InI64 sum.toInt (signedSizes mappings)) :
    (memSize sum mappings : Exec ε _) = Exec.panicked := by
  induction mappings generalizing sum with
  | nil => exact absurd (partialSums_nil _ _) h
  | cons m rest ih =>
    rw [memSize]
    by_cases hfirst : InI64 (sum.toInt + m.diff.toInt)
    · have hadd := (toInt_add_eq_iff sum m.diff).mpr hfirst
      have hrest : ¬ PartialSums InI64 (sum + m.diff).toInt (signedSizes rest) := by
        rw [← hadd]
        exact fun hrest => h ((partialSums_cons _ _ _ _).mpr ⟨hfirst, hrest⟩)
      rw [(checkedAddInt_eq_ok_iff _ _ _).mpr ⟨hadd, rfl⟩, Exec.ok_bind, ih _ hrest]
    · have hpanic : (checkedAddInt sum m.diff : Exec ε _) = Exec.panicked :=
        if_neg fun hadd => hfirst ((toInt_add_eq_iff _ _).mp hadd)
      rw [hpanic]
      rfl

/-- The signed sizes of mappings that begin before they end are their sizes,
if these are signed words. -/
theorem signedSizes_eq {mappings : List MemoryMap}
    (h : ∀ m ∈ mappings, m.start ≤ m.stop ∧ m.size < 2 ^ 63) :
    signedSizes mappings = (sizes mappings).map Nat.cast := by
  rw [signedSizes, sizes, List.map_map]
  refine List.map_congr_left fun m hm => ?_
  obtain ⟨hord, hlt⟩ := h m hm
  have hdiff := toNat_diff hord
  rw [toInt_of_lt (by omega), hdiff]
  rfl

/-! ## What an opened dump should satisfy -/

namespace DumbDump

/-- **The invariant of an opened dump**: the mappings begin before they end,
each is relocated to the sum of the sizes before it, their places partition
the section of the file from `start` to its end, and a range is valid exactly
where it is readable. -/
structure WellFormed (dump : DumbDump File) : Prop where
  ordered : ∀ m ∈ dump.mem.mappings, m.start ≤ m.stop
  length_remapAt : dump.mem.remapAt.length = dump.mem.mappings.length
  remapAt_eq : ∀ (i : ℕ) (hi : i < dump.mem.remapAt.length),
    dump.mem.remapAt[i].toNat = offsetOf dump.mem.mappings i
  section_eq : dump.mem.inner.start.toNat + (sizes dump.mem.mappings).sum
    = dump.mem.inner.file.length
  partition : ∀ x, dump.mem.inner.start.toNat + x < dump.mem.inner.file.length →
    ∃! i : Fin dump.mem.mappings.length, offsetOf dump.mem.mappings i ≤ x
      ∧ x < offsetOf dump.mem.mappings i + dump.mem.mappings[i].size
  valid_iff : ∀ addr size, Memory.isValid dump addr size = .ok true
    ↔ ∃ bytes, Memory.readPhysical dump addr size = .ok bytes
  read_or : ∀ (addr : PhysicalAddress) (size : ℕ), addr.toNat + size < 2 ^ 64 →
    (∃ bytes, Memory.readPhysical dump addr size = .ok bytes)
      ∨ Memory.readPhysical dump addr size = Exec.fail .outOfBounds

/-- A dump of a packed section satisfies it. -/
theorem wellFormed_of_packs {dump : DumbDump File} {bytes : List UInt8}
    (h : dump.mem.Packs bytes)
    (hsection : dump.mem.inner.start.toNat + (sizes dump.mem.mappings).sum
      = dump.mem.inner.file.length) : WellFormed dump where
  ordered := h.ordered
  length_remapAt := h.length_remapAt.symm
  remapAt_eq i hi := by
    have hi' : i < dump.mem.mappings.length := h.length_remapAt ▸ hi
    have hoff := offsetOf_add_size_le dump.mem.mappings ⟨i, hi'⟩
    have hlt := h.total_lt
    have hget := h.getElem_zip i (by rw [h.length_zip]; exact hi') hi'
    rw [List.getElem_zip] at hget
    rw [(Prod.mk.inj hget).2, BitVec.toNat_ofNat, Nat.mod_eq_of_lt]
    exact lt_of_le_of_lt (Nat.le_of_add_right_le hoff) (hlt.trans (by decide))
  section_eq := hsection
  partition x hx := by
    have hlt : x < 0 + (sizes dump.mem.mappings).sum := by omega
    obtain ⟨i, ⟨hlo, hhi⟩, huniq⟩ := exists_unique_offset 0 _ x (Nat.zero_le x) hlt
    have hlen := length_sizes dump.mem.mappings
    have hplace : ∀ i : Fin dump.mem.mappings.length,
        (offsetOf dump.mem.mappings i ≤ x
          ∧ x < offsetOf dump.mem.mappings i + dump.mem.mappings[i].size)
        ↔ 0 + ((sizes dump.mem.mappings).take (i.cast hlen.symm)).sum ≤ x
          ∧ x < 0 + ((sizes dump.mem.mappings).take (i.cast hlen.symm)).sum
            + (sizes dump.mem.mappings)[i.cast hlen.symm] := by
      intro i
      show _ ↔ _ ∧ _ < _ + (sizes dump.mem.mappings)[(i : ℕ)]
      rw [getElem_sizes _ _ i.isLt, Nat.zero_add]
      rfl
    refine ⟨i.cast hlen, (hplace _).mpr ⟨hlo, hhi⟩, fun j hj => ?_⟩
    rw [← huniq (j.cast hlen.symm) ((hplace j).mp hj)]
    rfl
  valid_iff := h.isValid_iff_read
  read_or _ _ := h.read_or

/-- **Opening a file is sound**: it ends with an error or with a well-formed
dump. In particular it does not panic. -/
def Sound (file : FileBytes) : Prop :=
  (∃ e, read file = Exec.fail e) ∨ ∃ dump, read file = .ok dump ∧ WellFormed dump

/-! ## What the table should satisfy -/

/-- The file begins with a header and a table of mappings; `rest` are the
bytes after them. -/
def HasTable (file : FileBytes) (header : Header) (mappings : List MemoryMap)
    (rest : List UInt8) : Prop :=
  ∃ bytes, Header.layout.read file.bytes = some (header, bytes)
    ∧ header.magic = magic
    ∧ MemoryMap.layout.readMany header.nMappings.toNat bytes = some (mappings, rest)

/-- **The table of a file is sound**, if it has one: the sums of the signed
sizes stay in the range of an address and, where the registers can be read, of
a signed word; and if the last of them is the length of the memory section,
each mapping begins before it ends and has a signed word as its size. -/
def TableSound (file : FileBytes) : Prop :=
  ∀ header mappings rest, HasTable file header mappings rest →
    PartialSums InU64 0 (signedSizes mappings)
    ∧ ∀ vcpus memory, Vcpus.read header.arch header.nVcpus rest = .ok (vcpus, memory) →
      PartialSums InI64 0 (signedSizes mappings)
      ∧ ((signedSizes mappings).sum = memory.length →
        ∀ m ∈ mappings, m.start ≤ m.stop ∧ m.size < 2 ^ 63)

/-- What follows the table is the end of the file. -/
theorem HasTable.length_le {file : FileBytes} {header : Header}
    {mappings : List MemoryMap} {rest : List UInt8}
    (h : HasTable file header mappings rest) : rest.length ≤ file.bytes.length := by
  obtain ⟨bytes, hheader, -, htable⟩ := h
  have hlen := Layout.length_of_read hheader
  have hlen' := (Layout.length_of_readMany htable).2
  omega

/-- A file without a table is refused. -/
theorem read_of_not_hasTable {file : FileBytes}
    (h : ∀ header mappings rest, ¬ HasTable file header mappings rest) :
    ∃ e, read file = Exec.fail e := by
  unfold read
  cases hheader : Header.layout.read file.bytes with
  | none => exact ⟨_, rfl⟩
  | some p =>
    obtain ⟨header, bytes⟩ := p
    show ∃ e, ite _ _ _ = Exec.fail e
    by_cases hmagic : header.magic = magic
    · rw [if_neg (not_not_intro hmagic)]
      cases htable : MemoryMap.layout.readMany header.nMappings.toNat bytes with
      | none => exact ⟨_, rfl⟩
      | some q => exact absurd ⟨bytes, hheader, hmagic, htable⟩ (h header q.1 q.2)
    · rw [if_pos hmagic]
      exact ⟨_, rfl⟩

/-- What is left to do after the table. -/
theorem read_of_hasTable {file : FileBytes} {header : Header} {mappings : List MemoryMap}
    {rest : List UInt8} (h : HasTable file header mappings rest) :
    read file = (do
      let (remapAt, _) ← remapTable 0 mappings
      let (vcpus, memory) ← Vcpus.read header.arch header.nVcpus rest
      let start := BitVec.ofNat 64 (file.bytes.length - memory.length)
      let stop := BitVec.ofNat 64 file.bytes.length
      let size ← memSize 0 mappings
      let len ← checkedSub stop start
      if len ≠ size then Exec.fail (VmError.new "invalid file size")
      else do
        let inner ← File.new file.bytes start stop
        return ⟨vcpus, ⟨mappings, remapAt, inner⟩⟩) := by
  obtain ⟨bytes, hheader, hmagic, htable⟩ := h
  unfold read
  rw [hheader]
  show ite _ _ _ = _
  rw [if_neg (not_not_intro hmagic), htable]
  rfl

end DumbDump

namespace Vcpus

/-- Reading the registers fails, or leaves the end of the bytes. -/
theorem read_cases (arch nVcpus : U32) (bytes : List UInt8) :
    (∃ e, Vcpus.read arch nVcpus bytes = Exec.fail e)
      ∨ ∃ vcpus rest, Vcpus.read arch nVcpus bytes = .ok (vcpus, rest)
        ∧ rest.length ≤ bytes.length := by
  unfold Vcpus.read
  by_cases harch : arch = 0
  · rw [if_pos harch]
    cases hread : X86_64.Vcpu.layout.readMany nVcpus.toNat bytes with
    | none => exact Or.inl ⟨_, rfl⟩
    | some p =>
      have hlen := (Layout.length_of_readMany hread).2
      exact Or.inr ⟨x86_64 p.1, p.2, rfl, by omega⟩
  · rw [if_neg harch]
    by_cases harch' : arch = 1
    · rw [if_pos harch']
      cases hread : Aarch64.Vcpu.layout.readMany nVcpus.toNat bytes with
      | none => exact Or.inl ⟨_, rfl⟩
      | some p =>
        have hlen := (Layout.length_of_readMany hread).2
        exact Or.inr ⟨aarch64 p.1, p.2, rfl, by omega⟩
    · rw [if_neg harch']
      exact Or.inl ⟨_, rfl⟩

end Vcpus

namespace DumbDump

/-- **A dump whose signed sizes add up is well formed exactly if no size is
negative.** -/
theorem wellFormed_iff {file : FileBytes} (vcpus : Vcpus) {mappings : List MemoryMap}
    {remapAt : List PhysicalAddress} {total : PhysicalAddress} {memory : List UInt8}
    (hle : memory.length ≤ file.bytes.length)
    (htable : (remapTable 0 mappings : Exec VmError _) = .ok (remapAt, total))
    (hsums : PartialSums InI64 0 (signedSizes mappings))
    (hsize : (signedSizes mappings).sum = memory.length) {stop : U64}
    (hstop : stop = BitVec.ofNat 64 memory.length) :
    WellFormed ⟨vcpus, ⟨mappings, remapAt, ⟨file.bytes,
        BitVec.ofNat 64 (file.bytes.length - memory.length), ⟨0, stop⟩⟩⟩⟩
      ↔ ∀ m ∈ mappings, m.start ≤ m.stop ∧ m.size < 2 ^ 63 := by
  have hlt := file.length_lt
  have hstart : (BitVec.ofNat 64 (file.bytes.length - memory.length)).toNat
      = file.bytes.length - memory.length := by
    rw [BitVec.toNat_ofNat, Nat.mod_eq_of_lt (by omega)]
  have hmemory : memory.length < 2 ^ 63 := by
    have hlast := (hsums.sum (show InI64 0 by decide)).2
    rw [hsize] at hlast
    omega
  constructor
  · intro h m hm
    have hsection : (BitVec.ofNat 64 (file.bytes.length - memory.length)).toNat
      + (sizes mappings).sum = file.bytes.length := h.section_eq
    have hpart : m.size ≤ (sizes mappings).sum :=
      List.single_le_sum (fun _ _ => Nat.zero_le _) _ (List.mem_map_of_mem hm)
    exact ⟨h.ordered m hm, by omega⟩
  · intro h
    have hsum : (sizes mappings).sum = memory.length := by
      rw [signedSizes_eq h, ← Nat.cast_list_sum] at hsize
      exact_mod_cast hsize
    have hzero : (0 : U64).toNat + (sizes mappings).sum < 2 ^ 63 := by
      rw [show (0 : U64).toNat = 0 from rfl, Nat.zero_add, hsum]
      exact hmemory
    rw [remapTable_eq_ok mappings (fun m hm => (h m hm).1) 0 hzero] at htable
    obtain ⟨rfl, -⟩ := Prod.mk.inj (Except.ok.inj htable)
    have hsection : (BitVec.ofNat 64 (file.bytes.length - memory.length)).toNat
        + (sizes mappings).sum = file.bytes.length := by
      rw [hstart, hsum]
      exact Nat.sub_add_cancel hle
    have hpacked : MemRemap.Packed (M := File) ⟨mappings,
        (offsets 0 (sizes mappings)).map (BitVec.ofNat 64),
        ⟨file.bytes, BitVec.ofNat 64 (file.bytes.length - memory.length), ⟨0, stop⟩⟩⟩ :=
      ⟨fun m hm => (h m hm).1, by rw [hsum]; exact hmemory, rfl⟩
    exact wellFormed_of_packs
      (hpacked.packs_file (by rw [hstop, ← hsum]) hsection hlt) hsection

/-- Where the registers are read, what is left is to compare the total with
the length of the section. -/
theorem sound_iff_of_read {file : FileBytes} {vcpus : Vcpus} {mappings : List MemoryMap}
    {remapAt : List PhysicalAddress} {total : PhysicalAddress} {memory : List UInt8}
    (hle : memory.length ≤ file.bytes.length)
    (htable : (remapTable 0 mappings : Exec VmError _) = .ok (remapAt, total))
    (hoff : PartialSums InU64 0 (signedSizes mappings))
    (hread : read file = (do
      let size ← memSize 0 mappings
      if BitVec.ofNat 64 memory.length ≠ size then Exec.fail (VmError.new "invalid file size")
      else return ⟨vcpus, ⟨mappings, remapAt, ⟨file.bytes,
        BitVec.ofNat 64 (file.bytes.length - memory.length),
        ⟨0, BitVec.ofNat 64 memory.length⟩⟩⟩⟩)) :
    Sound file ↔ PartialSums InI64 0 (signedSizes mappings)
      ∧ ((signedSizes mappings).sum = memory.length →
        ∀ m ∈ mappings, m.start ≤ m.stop ∧ m.size < 2 ^ 63) := by
  rw [Sound, hread]
  by_cases hsums : PartialSums InI64 0 (signedSizes mappings)
  · obtain ⟨size, hsize, hval⟩ : ∃ total, (memSize 0 mappings : Exec VmError _)
        = .ok total ∧ total.toInt = 0 + (signedSizes mappings).sum :=
      exists_memSize mappings 0 hsums
    have hlen : BitVec.ofNat 64 memory.length ≠ size
        ↔ ¬ (signedSizes mappings).sum = memory.length := by
      have hlt := file.length_lt
      have hpos := (hoff.sum (show InU64 0 by decide)).1
      have hnat : size.toInt = size.toNat := by
        rw [BitVec.toInt_eq_toNat_cond] at hval ⊢
        have := size.isLt
        split at hval
        · next h => rw [if_pos h]
        · omega
      rw [ne_eq, not_iff_not, ← BitVec.toNat_inj, BitVec.toNat_ofNat,
        Nat.mod_eq_of_lt (by omega)]
      omega
    rw [hsize, Exec.ok_bind]
    by_cases heq : (signedSizes mappings).sum = memory.length
    · have hdump := wellFormed_iff vcpus hle htable hsums heq rfl
      rw [if_neg (not_not_intro (by simpa using hlen.not.mpr (not_not_intro heq))), ← hdump]
      constructor
      · rintro (⟨e, h⟩ | ⟨dump, h, hwell⟩)
        · exact absurd h (by simp [Exec.fail])
        · obtain rfl := Except.ok.inj h
          exact ⟨hsums, fun _ => hwell⟩
      · exact fun h => Or.inr ⟨_, rfl, h.2 heq⟩
    · rw [if_pos (hlen.mpr heq)]
      exact ⟨fun _ => ⟨hsums, fun h => absurd h heq⟩, fun _ => Or.inl ⟨_, rfl⟩⟩
  · have hpanic : (memSize 0 mappings : Exec VmError _) = Exec.panicked :=
      memSize_panics mappings 0 hsums
    rw [hpanic]
    constructor
    · rintro (⟨e, h⟩ | ⟨dump, h, -⟩)
      · exact absurd h (by simp [Exec.panicked, Exec.fail])
      · exact absurd h (by simp [Exec.panicked])
    · exact fun h => absurd h.1 hsums

end DumbDump

/-- **Opening a file is sound exactly if its table of mappings is.** -/
theorem read_sound_iff (file : FileBytes) :
    DumbDump.Sound file ↔ DumbDump.TableSound file := by
  by_cases hex : ∃ header mappings rest, DumbDump.HasTable file header mappings rest
  · obtain ⟨header, mappings, rest, htable⟩ := hex
    -- the table of a file is determined by it
    have hsound : DumbDump.TableSound file ↔ PartialSums InU64 0 (signedSizes mappings)
        ∧ ∀ vcpus memory,
          Vcpus.read header.arch header.nVcpus rest = .ok (vcpus, memory) →
          PartialSums InI64 0 (signedSizes mappings)
          ∧ ((signedSizes mappings).sum = memory.length →
            ∀ m ∈ mappings, m.start ≤ m.stop ∧ m.size < 2 ^ 63) := by
      refine ⟨fun h => h header mappings rest htable, fun h header' mappings' rest' h' => ?_⟩
      obtain ⟨bytes, hheader, -, hread⟩ := htable
      obtain ⟨bytes', hheader', -, hread'⟩ := h'
      obtain ⟨rfl, rfl⟩ := Prod.mk.inj (Option.some.inj (hheader.symm.trans hheader'))
      obtain ⟨rfl, rfl⟩ := Prod.mk.inj (Option.some.inj (hread.symm.trans hread'))
      exact h
    rw [hsound]
    have hread := DumbDump.read_of_hasTable htable
    by_cases hoff : PartialSums InU64 0 (signedSizes mappings)
    · obtain ⟨⟨remapAt, total⟩, hremap⟩ :
          ∃ r, (remapTable 0 mappings : Exec VmError _) = .ok r :=
        exists_remapTable mappings 0 hoff
      rw [hremap, Exec.ok_bind] at hread
      obtain ⟨e, hfail⟩ | ⟨vcpus, memory, hok, hle⟩ :=
        Vcpus.read_cases header.arch header.nVcpus rest
      · simp only [hfail] at hread ⊢
        exact ⟨fun _ => ⟨hoff, fun _ _ h => absurd h (by simp [Exec.fail])⟩,
          fun _ => Or.inl ⟨e, hread⟩⟩
      · have hle' : memory.length ≤ file.bytes.length := hle.trans htable.length_le
        have hcheck : (checkedSub (BitVec.ofNat 64 file.bytes.length)
            (BitVec.ofNat 64 (file.bytes.length - memory.length)) : Exec VmError _)
            = .ok (BitVec.ofNat 64 memory.length) := checkedSub_section hle' file.length_lt
        simp only [hok, Exec.ok_bind, File.new, hcheck] at hread
        rw [DumbDump.sound_iff_of_read hle' hremap hoff hread]
        constructor
        · rintro ⟨hsums, hsizes⟩
          refine ⟨hoff, fun vcpus' memory' h => ?_⟩
          obtain ⟨rfl, rfl⟩ := Prod.mk.inj (Except.ok.inj (hok.symm.trans h))
          exact ⟨hsums, hsizes⟩
        · exact fun h => h.2 vcpus memory hok
    · have hpanic : (remapTable 0 mappings : Exec VmError _) = Exec.panicked :=
        remapTable_panics mappings 0 hoff
      rw [hpanic] at hread
      rw [DumbDump.Sound, hread]
      constructor
      · rintro (⟨e, h⟩ | ⟨dump, h, -⟩)
        · exact absurd h (by simp [Exec.panicked, Exec.fail])
        · exact absurd h (by simp [Exec.panicked])
      · exact fun h => absurd h.1 hoff
  · have hnone : ∀ header mappings rest, ¬ DumbDump.HasTable file header mappings rest :=
      fun header mappings rest h => hex ⟨header, mappings, rest, h⟩
    exact ⟨fun _ header mappings rest h => absurd h (hnone header mappings rest),
      fun _ => Or.inl (DumbDump.read_of_not_hasTable hnone)⟩

/-- A dump without virtual CPUs whose mappings have the sizes 32 and -16, over
16 bytes. -/
def cancellingSizes : FileBytes where
  bytes := fileOf (.x86_64 []) [⟨0, 32⟩, ⟨16, 0⟩] (List.replicate 16 0)
  length_lt := by decide

/-- **Sizes can cancel**: the file is opened, a mapping begins after it ends,
and a valid range is not readable. -/
theorem not_sound_cancellingSizes : ¬ DumbDump.Sound cancellingSizes
    ∧ ∃ dump, DumbDump.read cancellingSizes = .ok dump
      ∧ Memory.isValid dump 0 32 = .ok true
      ∧ Memory.readPhysical dump 0 32 = Exec.fail .outOfBounds := by
  obtain ⟨dump, hread, hmappings, hvalid, hfails⟩ :
      ∃ dump, DumbDump.read cancellingSizes = .ok dump
        ∧ dump.mem.mappings = [⟨0, 32⟩, ⟨16, 0⟩]
        ∧ Memory.isValid dump 0 32 = .ok true
        ∧ Memory.readPhysical dump 0 32 = Exec.fail .outOfBounds :=
    ⟨_, rfl, rfl, rfl, rfl⟩
  refine ⟨?_, dump, hread, hvalid, hfails⟩
  rintro (⟨e, h⟩ | ⟨dump', h, hwell⟩)
  · rw [hread] at h
    exact absurd h (by simp [Exec.fail])
  · obtain rfl := Except.ok.inj (hread.symm.trans h)
    have hord := hwell.ordered ⟨16, 0⟩ (by rw [hmappings]; decide)
    exact absurd hord (by decide)
