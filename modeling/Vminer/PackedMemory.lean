import Vminer.Dump
import Vminer.Packing

/-!
# Packed memory

What the memory section of a dump is meant to be: the mappings, each of which
begins before it ends, are relocated one after the other, the place of each
being the sum of the sizes of the mappings before it (`MemRemap.Packed`). The
two folds of the source compute these sums as long as they stay below
`2 ^ 63` (`remapTable_eq_ok`, `memSize_eq_ok`).

In packed memory a range is readable exactly where it is valid
(`isValid_iff_read`), and what is read is a stretch of the packed section,
at the place of the first mapping that holds the range
(`MemRemap.Packs.readPhysical_eq_ok_iff`). Two sections over the same mappings
are told apart by reads exactly if they differ in the place of a mapping that
no earlier one covers (`MemRemap.Packs.reads_eq_iff`).
-/

/-! ## Sizes and offsets -/

/-- The size of a mapping that begins before it ends. -/
def MemoryMap.size (mapping : MemoryMap) : ℕ := mapping.stop.toNat - mapping.start.toNat

/-- The sizes of a list of mappings. -/
def sizes (mappings : List MemoryMap) : List ℕ := mappings.map MemoryMap.size

theorem sizes_cons (mapping : MemoryMap) (rest : List MemoryMap) :
    sizes (mapping :: rest) = mapping.size :: sizes rest := rfl

@[simp] theorem length_sizes (mappings : List MemoryMap) :
    (sizes mappings).length = mappings.length := List.length_map _

theorem getElem_sizes (mappings : List MemoryMap) (i : ℕ)
    (hi : i < mappings.length) (hi' : i < (sizes mappings).length) :
    (sizes mappings)[i] = mappings[i].size := by
  simp [sizes]

theorem toNat_diff {mapping : MemoryMap} (h : mapping.start ≤ mapping.stop) :
    mapping.diff.toNat = mapping.size := toNat_sub_of_le (BitVec.le_def.mp h)

/-- A word below half of its range is not negative. -/
theorem toInt_of_lt {x : U64} (h : x.toNat < 2 ^ 63) : x.toInt = x.toNat :=
  BitVec.toInt_eq_toNat_of_lt (by omega)

/-- **The offsets of ordered mappings are the sums of the sizes before
them.** -/
theorem remapTable_eq_ok {ε : Type} (mappings : List MemoryMap)
    (hord : ∀ m ∈ mappings, m.start ≤ m.stop) (off : PhysicalAddress)
    (hlt : off.toNat + (sizes mappings).sum < 2 ^ 63) :
    (remapTable off mappings : Exec ε _)
      = .ok ((offsets off.toNat (sizes mappings)).map (BitVec.ofNat 64),
        BitVec.ofNat 64 (off.toNat + (sizes mappings).sum)) := by
  induction mappings generalizing off with
  | nil =>
    show Except.ok ([], off) = Except.ok ([], BitVec.ofNat 64 (off.toNat + 0))
    rw [Nat.add_zero, BitVec.ofNat_toNat, BitVec.setWidth_eq]
  | cons m rest ih =>
    rw [sizes_cons, List.sum_cons] at hlt
    have hdiff := toNat_diff (hord m List.mem_cons_self)
    have hint := toInt_of_lt (x := m.diff) (by omega)
    have hadd : (off + m.diff).toNat = off.toNat + m.size := by
      rw [toNat_add_of_lt (by omega), hdiff]
    have hnext : (checkedAddSigned off m.diff : Exec ε _) = .ok (off + m.diff) :=
      (checkedAddSigned_eq_ok_iff _ _ _).mpr ⟨⟨by omega, by omega⟩, rfl⟩
    have hrest := ih (fun m hm => hord m (List.mem_cons_of_mem _ hm)) (off + m.diff)
      (by omega)
    rw [remapTable, hnext, Exec.ok_bind, hrest, Exec.ok_bind, hadd, sizes_cons,
      List.sum_cons, offsets, List.map_cons, BitVec.ofNat_toNat, BitVec.setWidth_eq,
      Nat.add_assoc]
    rfl

/-- The signed total of ordered mappings is the sum of their sizes. -/
theorem memSize_eq_ok {ε : Type} (mappings : List MemoryMap)
    (hord : ∀ m ∈ mappings, m.start ≤ m.stop) (sum : U64)
    (hlt : sum.toNat + (sizes mappings).sum < 2 ^ 63) :
    (memSize sum mappings : Exec ε _)
      = .ok (BitVec.ofNat 64 (sum.toNat + (sizes mappings).sum)) := by
  induction mappings generalizing sum with
  | nil =>
    show Except.ok sum = Except.ok (BitVec.ofNat 64 (sum.toNat + 0))
    rw [Nat.add_zero, BitVec.ofNat_toNat, BitVec.setWidth_eq]
  | cons m rest ih =>
    rw [sizes_cons, List.sum_cons] at hlt
    have hdiff := toNat_diff (hord m List.mem_cons_self)
    have hadd : (sum + m.diff).toNat = sum.toNat + m.size := by
      rw [toNat_add_of_lt (by omega), hdiff]
    have hnext : (checkedAddInt sum m.diff : Exec ε _) = .ok (sum + m.diff) := by
      refine (checkedAddInt_eq_ok_iff _ _ _).mpr ⟨?_, rfl⟩
      rw [toInt_of_lt (x := sum) (by omega), toInt_of_lt (x := m.diff) (by omega),
        toInt_of_lt (x := sum + m.diff) (by omega), hadd, hdiff]
      push_cast
      rfl
    have hrest := ih (fun m hm => hord m (List.mem_cons_of_mem _ hm)) (sum + m.diff)
      (by omega)
    rw [memSize, hnext, Exec.ok_bind, hrest, hadd, sizes_cons, List.sum_cons,
      Nat.add_assoc]

/-! ## Packed mappings -/

/-- The place of the `i`-th mapping: the sum of the sizes before it. -/
def offsetOf (mappings : List MemoryMap) (i : ℕ) : ℕ := ((sizes mappings).take i).sum

/-- A mapping ends inside the section. -/
theorem offsetOf_add_size_le (mappings : List MemoryMap) (i : Fin mappings.length) :
    offsetOf mappings i + mappings[i].size ≤ (sizes mappings).sum := by
  have h := offset_add_size_le 0 (sizes mappings) i (by rw [length_sizes]; exact i.isLt)
  rw [Nat.zero_add, Nat.zero_add, getElem_sizes _ _ i.isLt] at h
  exact h

/-- The `i`-th mapping is the first that holds the range. -/
def FirstHolds (mappings : List MemoryMap) (i : Fin mappings.length)
    (addr : PhysicalAddress) (len : ℕ) : Prop :=
  mappings[i].Holds addr len ∧ ∀ j < i, ¬ mappings[j].Holds addr len

/-- A range that some mapping holds is held by a first one. -/
theorem exists_firstHolds {mappings : List MemoryMap} {m : MemoryMap}
    (hm : m ∈ mappings) {addr : PhysicalAddress} {len : ℕ} (h : m.Holds addr len) :
    ∃ i, FirstHolds mappings i addr len := by
  have hex : ∃ i : ℕ, ∃ hi : i < mappings.length, mappings[i].Holds addr len := by
    obtain ⟨i, hi, rfl⟩ := List.getElem_of_mem hm
    exact ⟨i, hi, h⟩
  classical
  obtain ⟨hi, hholds⟩ := Nat.find_spec hex
  refine ⟨⟨Nat.find hex, hi⟩, hholds, fun j hj hj' => ?_⟩
  exact Nat.find_min hex (Fin.lt_def.mp hj) ⟨j.isLt, hj'⟩

/-- **The mappings are packed**: each begins before it ends and is relocated
to the sum of the sizes of the mappings before it. -/
structure MemRemap.Packed {M : Type} (mem : MemRemap M) : Prop where
  ordered : ∀ m ∈ mem.mappings, m.start ≤ m.stop
  total_lt : (sizes mem.mappings).sum < 2 ^ 63
  remapAt_eq : mem.remapAt = (offsets 0 (sizes mem.mappings)).map (BitVec.ofNat 64)

namespace MemRemap.Packed

variable {M : Type} {mem : MemRemap M}

theorem length_remapAt (h : mem.Packed) :
    mem.mappings.length = mem.remapAt.length := by
  rw [h.remapAt_eq, List.length_map, length_offsets, length_sizes]

theorem length_zip (h : mem.Packed) :
    (mem.mappings.zip mem.remapAt).length = mem.mappings.length := by
  rw [List.length_zip, ← h.length_remapAt, min_self]

/-- A mapping stands beside its place. -/
theorem getElem_zip (h : mem.Packed) (i : ℕ)
    (hi : i < (mem.mappings.zip mem.remapAt).length) (hi' : i < mem.mappings.length) :
    (mem.mappings.zip mem.remapAt)[i]
      = (mem.mappings[i], BitVec.ofNat 64 (offsetOf mem.mappings i)) := by
  have hoff : i < (offsets 0 (sizes mem.mappings)).length := by
    rw [length_offsets, length_sizes]
    exact hi'
  rw [List.getElem_zip]
  simp only [h.remapAt_eq, List.getElem_map]
  rw [getElem_offsets 0 _ i hoff, Nat.zero_add]
  rfl

/-- An offset into the section does not overflow. -/
theorem checked_offset (h : mem.Packed) (i : Fin mem.mappings.length)
    {addr : PhysicalAddress} {len : ℕ} (hholds : mem.mappings[i].Holds addr len)
    (p : PhysicalAddress) :
    (checkedAddSigned (BitVec.ofNat 64 (offsetOf mem.mappings i))
        (addr - mem.mappings[i].start) : Exec MemoryAccessError _) = .ok p
      ↔ p.toNat
        = offsetOf mem.mappings i + (addr.toNat - mem.mappings[i].start.toNat) := by
  obtain ⟨hstart, hstop⟩ := hholds
  have hend := offsetOf_add_size_le mem.mappings i
  have hlt := h.total_lt
  have hsize : mem.mappings[i].size
      = mem.mappings[i].stop.toNat - mem.mappings[i].start.toNat := rfl
  have hdiff := toNat_sub_of_le (BitVec.le_def.mp hstart)
  have hint := toInt_of_lt (x := addr - mem.mappings[i].start) (by omega)
  have hoff : (BitVec.ofNat 64 (offsetOf mem.mappings i)).toNat
      = offsetOf mem.mappings i := by
    rw [BitVec.toNat_ofNat, Nat.mod_eq_of_lt (by omega)]
  have hsum : (BitVec.ofNat 64 (offsetOf mem.mappings i)
      + (addr - mem.mappings[i].start)).toNat
      = offsetOf mem.mappings i + (addr.toNat - mem.mappings[i].start.toNat) := by
    rw [toNat_add_of_lt (by omega), hoff, hdiff]
  rw [checkedAddSigned_eq_ok_iff]
  constructor
  · rintro ⟨-, rfl⟩
    exact hsum
  · intro hp
    exact ⟨⟨by omega, by omega⟩, BitVec.eq_of_toNat_eq (hsum.trans hp.symm)⟩

/-- **A range is relocated to its place in the first mapping that holds
it.** -/
theorem remap_eq_ok_iff (h : mem.Packed) (addr p : PhysicalAddress) (len : ℕ) :
    remap (mem.mappings.zip mem.remapAt) addr len = .ok p
      ↔ ∃ i, FirstHolds mem.mappings i addr len
        ∧ p.toNat
          = offsetOf mem.mappings i + (addr.toNat - mem.mappings[i].start.toNat) := by
  rw [MemRemap.remap_eq_ok_iff]
  have hlen := h.length_zip
  constructor
  · rintro ⟨x, hx, hp⟩
    obtain ⟨hholds, i, hi, rfl, hbefore⟩ := List.find?_eq_some_iff_getElem.mp hx
    have hi' : i < mem.mappings.length := hlen ▸ hi
    rw [h.getElem_zip i hi hi'] at hholds hp
    rw [decide_eq_true_eq] at hholds
    refine ⟨⟨i, hi'⟩, ⟨hholds, fun j hj => ?_⟩,
      (h.checked_offset ⟨i, hi'⟩ hholds p).mp hp⟩
    have hj' := hbefore j hj
    rw [h.getElem_zip j (by omega) j.isLt] at hj'
    simpa using hj'
  · rintro ⟨i, ⟨hholds, hbefore⟩, hp⟩
    refine ⟨(mem.mappings[i], BitVec.ofNat 64 (offsetOf mem.mappings i)),
      List.find?_eq_some_iff_getElem.mpr ⟨by simpa using hholds, i, by omega,
        h.getElem_zip i (by omega) i.isLt, fun j hj => ?_⟩,
      (h.checked_offset i hholds p).mpr hp⟩
    rw [h.getElem_zip j (by omega) (by omega)]
    simpa using hbefore ⟨j, by omega⟩ hj

end MemRemap.Packed

/-! ## The packed section -/

namespace MemoryMap

/-- A mapping holds its own range. -/
theorem holds_self {m : MemoryMap} (h : m.start ≤ m.stop) :
    m.Holds m.start m.size := by
  have hle := BitVec.le_def.mp h
  exact ⟨BitVec.le_def.mpr le_rfl, by unfold size; omega⟩

/-- What covers a mapping holds the ranges the mapping holds. -/
theorem Holds.trans {m m' : MemoryMap} {addr : PhysicalAddress} {len : ℕ}
    (h : m'.Holds m.start m.size) (h' : m.Holds addr len) : m'.Holds addr len := by
  obtain ⟨hstart, hstop⟩ := h
  obtain ⟨hstart', hstop'⟩ := h'
  have hsize : m.size = m.stop.toNat - m.start.toNat := rfl
  rw [BitVec.le_def] at hstart hstart'
  exact ⟨BitVec.le_def.mpr (hstart.trans hstart'), by omega⟩

end MemoryMap

/-- The first mapping that holds some range is covered by no earlier one. -/
theorem FirstHolds.whole {mappings : List MemoryMap} {i : Fin mappings.length}
    {addr : PhysicalAddress} {len : ℕ} (h : FirstHolds mappings i addr len) :
    FirstHolds mappings i mappings[i].start mappings[i].size := by
  obtain ⟨hholds, hbefore⟩ := h
  have hle : mappings[i].start ≤ mappings[i].stop := by
    obtain ⟨hstart, hstop⟩ := hholds
    rw [BitVec.le_def] at hstart ⊢
    omega
  exact ⟨MemoryMap.holds_self hle, fun j hj hcover => hbefore j hj (hcover.trans hholds)⟩

/-- **A packed section**: the mappings are packed, and the inner memory holds
exactly the bytes of the section. -/
structure MemRemap.Packs {M : Type} [Memory M] (mem : MemRemap M)
    (bytes : List UInt8) : Prop extends MemRemap.Packed mem where
  length_eq : bytes.length = (sizes mem.mappings).sum
  read_inner : ∀ (p : PhysicalAddress) (n : ℕ), p.toNat + n ≤ bytes.length →
    Memory.readPhysical mem.inner p n = .ok ((bytes.drop p.toNat).take n)

/-- The bytes of the `i`-th mapping in a packed section. -/
def sectionOf (bytes : List UInt8) (mappings : List MemoryMap)
    (i : Fin mappings.length) : List UInt8 :=
  (bytes.drop (offsetOf mappings i)).take mappings[i].size

namespace MemRemap.Packs

variable {M : Type} [Memory M] {mem : MemRemap M} {bytes : List UInt8}

/-- **A read is a stretch of the section of the first mapping that holds the
range.** -/
theorem readPhysical_eq_ok_iff (h : mem.Packs bytes) (addr : PhysicalAddress) (len : ℕ)
    (bs : List UInt8) :
    Memory.readPhysical mem addr len = .ok bs
      ↔ ∃ i, FirstHolds mem.mappings i addr len
        ∧ ((sectionOf bytes mem.mappings i).drop
            (addr.toNat - mem.mappings[i].start.toNat)).take len = bs := by
  have hread : Memory.readPhysical mem addr len
      = MemRemap.remap (mem.mappings.zip mem.remapAt) addr len
        >>= fun p => Memory.readPhysical mem.inner p len := by
    show MemRemap.readPhysical mem addr len = _
    unfold MemRemap.readPhysical
    rw [if_pos h.length_remapAt]
  -- the place of the range in the section, and that it fits there
  have hplace : ∀ i (p : PhysicalAddress), FirstHolds mem.mappings i addr len →
      p.toNat = offsetOf mem.mappings i + (addr.toNat - mem.mappings[i].start.toNat) →
      Memory.readPhysical mem.inner p len
        = .ok (((sectionOf bytes mem.mappings i).drop
            (addr.toNat - mem.mappings[i].start.toNat)).take len) := by
    intro i p hi hp
    have hend := offsetOf_add_size_le mem.mappings i
    obtain ⟨hstart, hstop⟩ := hi.1
    rw [BitVec.le_def] at hstart
    have hsize : mem.mappings[i].size
        = mem.mappings[i].stop.toNat - mem.mappings[i].start.toNat := rfl
    rw [h.read_inner p len (by rw [h.length_eq]; omega), hp, sectionOf, List.drop_take,
      List.take_take, List.drop_drop, min_eq_left (by omega)]
  rw [hread, Exec.bind_eq_ok_iff]
  constructor
  · rintro ⟨p, hp, hbs⟩
    obtain ⟨i, hi, hval⟩ := (h.remap_eq_ok_iff addr p len).mp hp
    exact ⟨i, hi, Except.ok.inj ((hplace i p hi hval).symm.trans hbs)⟩
  · rintro ⟨i, hi, rfl⟩
    have hend := offsetOf_add_size_le mem.mappings i
    have hlt := h.total_lt
    obtain ⟨hstart, hstop⟩ := hi.1
    rw [BitVec.le_def] at hstart
    have hsize : mem.mappings[i].size
        = mem.mappings[i].stop.toNat - mem.mappings[i].start.toNat := rfl
    have hval : (BitVec.ofNat 64 (offsetOf mem.mappings i
          + (addr.toNat - mem.mappings[i].start.toNat))).toNat
        = offsetOf mem.mappings i + (addr.toNat - mem.mappings[i].start.toNat) := by
      rw [BitVec.toNat_ofNat, Nat.mod_eq_of_lt (by omega)]
    exact ⟨_, (h.remap_eq_ok_iff addr _ len).mpr ⟨i, hi, hval⟩, hplace i _ hi hval⟩

/-- **A range is valid exactly where it is readable.** -/
theorem isValid_iff_read (h : mem.Packs bytes) (addr : PhysicalAddress) (len : ℕ) :
    Memory.isValid mem addr len = .ok true
      ↔ ∃ bs, Memory.readPhysical mem addr len = .ok bs := by
  show defaultIsValid mem.mappings addr len = .ok true ↔ _
  rw [defaultIsValid_eq_true_iff]
  constructor
  · rintro ⟨m, hm, hholds⟩
    obtain ⟨i, hi⟩ := exists_firstHolds hm hholds
    exact ⟨_, (h.readPhysical_eq_ok_iff addr len _).mpr ⟨i, hi, rfl⟩⟩
  · rintro ⟨bs, hbs⟩
    obtain ⟨i, hi, -⟩ := (h.readPhysical_eq_ok_iff addr len bs).mp hbs
    exact ⟨mem.mappings[i], List.getElem_mem i.isLt, hi.1⟩

/-- A read succeeds or is out of bounds. -/
theorem read_or (h : mem.Packs bytes) {addr : PhysicalAddress} {len : ℕ}
    (hlt : addr.toNat + len < 2 ^ 64) :
    (∃ bs, Memory.readPhysical mem addr len = .ok bs)
      ∨ Memory.readPhysical mem addr len = Exec.fail .outOfBounds := by
  by_cases hheld : ∃ m ∈ mem.mappings, m.Holds addr len
  · left
    exact (h.isValid_iff_read addr len).mp ((defaultIsValid_eq_true_iff _ _ _).mpr hheld)
  · right
    have hnone : ∀ x ∈ mem.mappings.zip mem.remapAt, ¬ x.1.Holds addr len :=
      fun x hx hholds => hheld ⟨x.1, (List.of_mem_zip hx).1, hholds⟩
    show MemRemap.readPhysical mem addr len = _
    unfold MemRemap.readPhysical
    rw [if_pos h.length_remapAt, MemRemap.remap_eq_fail hlt hnone]
    rfl

/-- The range of a mapping that no earlier one covers is read as its
section. -/
theorem readPhysical_whole (h : mem.Packs bytes) (i : Fin mem.mappings.length)
    (hi : FirstHolds mem.mappings i mem.mappings[i].start mem.mappings[i].size) :
    Memory.readPhysical mem mem.mappings[i].start mem.mappings[i].size
      = .ok (sectionOf bytes mem.mappings i) := by
  refine (h.readPhysical_eq_ok_iff _ _ _).mpr ⟨i, hi, ?_⟩
  rw [Nat.sub_self, List.drop_zero, sectionOf, List.take_take, min_self]

/-- A read fails in the same way whatever the section holds. -/
theorem readPhysical_eq_of_section {M' : Type} [Memory M'] {mem' : MemRemap M'}
    {bytes' : List UInt8} (h : mem.Packs bytes) (h' : mem'.Packs bytes')
    (hmappings : mem'.mappings = mem.mappings) {addr : PhysicalAddress} {len : ℕ}
    (hsame : ∀ bs, Memory.readPhysical mem addr len = .ok bs →
      Memory.readPhysical mem' addr len = .ok bs) :
    Memory.readPhysical mem' addr len = Memory.readPhysical mem addr len := by
  have hremapAt : mem'.remapAt = mem.remapAt := by
    rw [h'.remapAt_eq, h.remapAt_eq, hmappings]
  cases hremap : MemRemap.remap (mem.mappings.zip mem.remapAt) addr len with
  | ok p =>
    obtain ⟨i, hi, -⟩ := (h.remap_eq_ok_iff addr p len).mp hremap
    have hbs := (h.readPhysical_eq_ok_iff addr len _).mpr ⟨i, hi, rfl⟩
    rw [hbs, hsame _ hbs]
  | error e =>
    show MemRemap.readPhysical mem' addr len = MemRemap.readPhysical mem addr len
    unfold MemRemap.readPhysical
    rw [if_pos h.length_remapAt, if_pos h'.length_remapAt, hmappings, hremapAt, hremap,
      Exec.error_bind, Exec.error_bind]

/-- **What reads can tell of two sections**: they agree on every range exactly
if the sections agree in the place of every mapping that no earlier one
covers. -/
theorem reads_eq_iff {M' : Type} [Memory M'] {mem' : MemRemap M'} {bytes' : List UInt8}
    (h : mem.Packs bytes) (h' : mem'.Packs bytes')
    (hmappings : mem'.mappings = mem.mappings) :
    (∀ addr len, Memory.readPhysical mem' addr len = Memory.readPhysical mem addr len)
      ↔ ∀ i, FirstHolds mem.mappings i mem.mappings[i].start mem.mappings[i].size →
        sectionOf bytes' mem.mappings i = sectionOf bytes mem.mappings i := by
  obtain ⟨mappings, remapAt, inner⟩ := mem
  obtain ⟨mappings', remapAt', inner'⟩ := mem'
  obtain rfl : mappings' = mappings := hmappings
  constructor
  · intro hread i hi
    have hwhole := h.readPhysical_whole i hi
    rw [← hread, h'.readPhysical_whole i hi] at hwhole
    exact Except.ok.inj hwhole
  · intro hsection addr len
    refine h.readPhysical_eq_of_section h' rfl fun bs hbs => ?_
    obtain ⟨i, hi, rfl⟩ := (h.readPhysical_eq_ok_iff addr len bs).mp hbs
    refine (h'.readPhysical_eq_ok_iff addr len _).mpr ⟨i, hi, ?_⟩
    rw [hsection i hi.whole]

end MemRemap.Packs

/-- A flat buffer of the right length holds a packed section. -/
theorem MemRemap.Packed.packs_raw {mem : MemRemap RawMemory} (h : mem.Packed)
    (hlen : mem.inner.bytes.length = (sizes mem.mappings).sum) :
    mem.Packs mem.inner.bytes where
  toPacked := h
  length_eq := hlen
  read_inner _ _ hle := (RawMemory.readPhysical_eq_ok_iff _ _ _ _).mpr ⟨hle, rfl⟩

/-- So does a section of a file. -/
theorem MemRemap.Packed.packs_file {mem : MemRemap File} (h : mem.Packed)
    (hmapping : mem.inner.mapping = ⟨0, BitVec.ofNat 64 (sizes mem.mappings).sum⟩)
    (hend : mem.inner.start.toNat + (sizes mem.mappings).sum = mem.inner.file.length)
    (hlt : mem.inner.file.length < 2 ^ 64) :
    mem.Packs (mem.inner.file.drop mem.inner.start.toNat) where
  toPacked := h
  length_eq := by
    rw [List.length_drop]
    omega
  read_inner p n hle := by
    rw [List.length_drop] at hle
    have hvalid : defaultIsValid [mem.inner.mapping] p n = .ok true := by
      refine (defaultIsValid_eq_true_iff _ _ _).mpr ⟨_, List.mem_singleton_self _, ?_⟩
      rw [hmapping]
      refine ⟨BitVec.le_def.mpr (Nat.zero_le _), ?_⟩
      show p.toNat + n ≤ (BitVec.ofNat 64 _).toNat
      rw [BitVec.toNat_ofNat, Nat.mod_eq_of_lt (by omega)]
      omega
    have hoff : mem.inner.start.toNat + p.toNat < 2 ^ 64 := by omega
    show File.readPhysical mem.inner p n = _
    unfold File.readPhysical
    rw [hvalid, Exec.ok_bind, if_pos rfl, checkedAdd_eq_ok hoff, Exec.ok_bind,
      Exec.mapErr_eq_ok_iff, File.readExactAt_eq_ok_iff, toNat_add_of_lt hoff,
      List.drop_drop]
    exact ⟨by omega, rfl⟩

/-- What stands in the places of the mappings are the parts that are laid out
there. -/
theorem sectionOf_flatten {mappings : List MemoryMap} {parts : List (List UInt8)}
    (h : parts.map List.length = sizes mappings) (i : Fin mappings.length)
    (hi : (i : ℕ) < parts.length) :
    sectionOf parts.flatten mappings i = parts[(i : ℕ)] := by
  have hsize : parts[(i : ℕ)].length = mappings[i].size := by
    have hget := List.getElem_of_eq h (i := i) (by rw [List.length_map]; exact hi)
    rw [List.getElem_map, getElem_sizes _ _ i.isLt] at hget
    exact hget
  have hpart := take_drop_flatMap id List.length parts (fun _ _ => rfl) i hi
  rw [List.flatMap_id, h, hsize] at hpart
  exact hpart
