import Vminer.Snapshot

/-!
# Writing a dump and opening it again

`DumbDump::write` and `DumbDump::read` agree on the header, the table of
mappings and the register files: what is written there is read back
(`read_fileOf`). They do not agree on the memory section. `write` leaves it to
the generic `Memory::dump`, which cuts each mapping into chunks of 64 KiB and
reads and writes whole chunks only, so a mapping takes a multiple of 64 KiB in
the file; `read` expects it to take its size. A snapshot comes back from its
file exactly if its mappings are multiples of 64 KiB, and if the chunks read
as parts of the mappings they are cut from (`roundTrips_iff`). The second half
holds of every memory that has contents (`readsInChunks_of_hasContent`), and
can fail only where mappings overlap with different bytes.
-/

/-! ## What `Memory::dump` writes -/

/-- How many chunks `Memory::dump` cuts a mapping into. -/
def chunkCount (mapping : MemoryMap) : ℕ := (mapping.size + dumpChunk - 1) / dumpChunk

/-- The last chunk reaches the end of the mapping. -/
theorem size_le_chunks (mapping : MemoryMap) :
    mapping.size ≤ chunkCount mapping * dumpChunk := by
  have h := Nat.div_add_mod (mapping.size + dumpChunk - 1) dumpChunk
  have hmod := Nat.mod_lt (mapping.size + dumpChunk - 1) (show 0 < dumpChunk by decide)
  rw [chunkCount, Nat.mul_comm]
  omega

/-- **The chunks end where the mapping ends** exactly if it is a multiple of
the chunk. -/
theorem chunks_eq_size_iff (mapping : MemoryMap) :
    chunkCount mapping * dumpChunk = mapping.size ↔ dumpChunk ∣ mapping.size := by
  constructor
  · intro h
    exact ⟨chunkCount mapping, by rw [← h, Nat.mul_comm]⟩
  · rintro ⟨k, hk⟩
    have hdiv : (dumpChunk * k + dumpChunk - 1) / dumpChunk = k := by
      rw [Nat.add_sub_assoc (show 1 ≤ dumpChunk by decide),
        Nat.mul_add_div (show 0 < dumpChunk by decide),
        Nat.div_eq_of_lt (by decide), Nat.add_zero]
    rw [chunkCount, hk, hdiv, Nat.mul_comm]

/-- The chunks of all mappings take the size of the mappings exactly if each
is a multiple of the chunk. -/
theorem sum_chunks_eq_iff (mappings : List MemoryMap) :
    (mappings.map fun m => chunkCount m * dumpChunk).sum = (sizes mappings).sum
      ↔ ∀ m ∈ mappings, dumpChunk ∣ m.size := by
  constructor
  · intro h m hm
    rw [← chunks_eq_size_iff]
    refine le_antisymm (Nat.not_lt.mp fun hlt => ?_) (size_le_chunks m)
    have hsum := List.sum_lt_sum MemoryMap.size (fun m => chunkCount m * dumpChunk)
      (fun m _ => size_le_chunks m) ⟨m, hm, hlt⟩
    exact hsum.ne h.symm
  · intro h
    exact congrArg List.sum (List.map_congr_left fun m hm =>
      (chunks_eq_size_iff m).mpr (h m hm))

section Dump

variable {read : PhysicalAddress → ℕ → Exec MemoryAccessError (List UInt8)}

/-- **What `Memory::dump` writes for a mapping**: as many chunks as it takes to
cover it, each as it is read. -/
theorem dumpMapping_eq_ok_iff
    (hread : ∀ addr n bytes, read addr n = .ok bytes → bytes.length = n)
    (mapping : MemoryMap) (part : List UInt8) :
    dumpMapping read mapping = .ok part
      ↔ part.length = chunkCount mapping * dumpChunk
        ∧ ∀ c < chunkCount mapping,
          read (mapping.start + BitVec.ofNat 64 (c * dumpChunk)) dumpChunk
            = .ok (block part dumpChunk c) := by
  have hlen : (stepBy mapping.start.toNat mapping.stop.toNat dumpChunk).length
      = chunkCount mapping := length_stepBy _ _ _
  have hget : ∀ (c : ℕ)
      (hc : c < (stepBy mapping.start.toNat mapping.stop.toNat dumpChunk).length),
      BitVec.ofNat 64 (stepBy mapping.start.toNat mapping.stop.toNat dumpChunk)[c]
        = mapping.start + BitVec.ofNat 64 (c * dumpChunk) := by
    intro c hc
    rw [getElem_stepBy, BitVec.ofNat_add, BitVec.ofNat_toNat, BitVec.setWidth_eq, Nat.mul_comm]
  have hblocks := forall₂_flatten_iff
    (fun addr bytes => read (BitVec.ofNat 64 addr) dumpChunk = .ok bytes) dumpChunk
    (stepBy mapping.start.toNat mapping.stop.toNat dumpChunk) part
  have hdump : dumpMapping read mapping = .ok part
      ↔ ∃ parts, List.Forall₂
          (fun addr bytes => read (BitVec.ofNat 64 addr) dumpChunk = .ok bytes
            ∧ bytes.length = dumpChunk)
          (stepBy mapping.start.toNat mapping.stop.toNat dumpChunk) parts
        ∧ parts.flatten = part := by
    unfold dumpMapping
    rw [Exec.bind_eq_ok_iff]
    refine exists_congr fun parts => and_congr ?_ ?_
    · rw [Exec.mapM_eq_ok_iff]
      refine ⟨fun h => h.imp fun addr bytes hb => ?_, fun h => h.imp fun addr bytes hb => ?_⟩
      · have hb' := (Exec.mapErr_eq_ok_iff _ _ _).mp hb
        exact ⟨hb', hread _ _ _ hb'⟩
      · exact (Exec.mapErr_eq_ok_iff _ _ _).mpr hb.1
    · rw [Exec.pure_eq_ok, Except.ok.injEq]
  rw [hdump, hblocks]
  constructor
  · rintro ⟨hpart, h⟩
    refine ⟨by rw [hpart, hlen], fun c hc => ?_⟩
    have hc' : c < (stepBy mapping.start.toNat mapping.stop.toNat dumpChunk).length := by
      rw [hlen]
      exact hc
    rw [← hget c hc']
    exact h c hc'
  · rintro ⟨hpart, h⟩
    refine ⟨by rw [hpart, hlen], fun c hc => ?_⟩
    rw [hget c hc]
    exact h c (by rw [← hlen]; exact hc)

/-- What it writes for all of them. -/
theorem defaultDump_eq_ok_iff (mappings : List MemoryMap) (bytes : List UInt8) :
    defaultDump mappings read = .ok bytes
      ↔ ∃ parts, List.Forall₂ (fun m part => dumpMapping read m = .ok part) mappings parts
        ∧ parts.flatten = bytes := by
  unfold defaultDump
  rw [Exec.bind_eq_ok_iff]
  refine exists_congr fun parts => and_congr (Exec.mapM_eq_ok_iff _ _ _) ?_
  rw [Exec.pure_eq_ok, Except.ok.injEq]

end Dump

/-! ## The file -/

/-- The bytes `DumbDump::write` lays out before and after the registers, for a
given memory section. -/
def fileOf (vcpus : Vcpus) (mappings : List MemoryMap) (memory : List UInt8) :
    List UInt8 :=
  Header.layout.enc {
      magic := magic
      arch := vcpus.archCode
      nMappings := BitVec.ofNat 32 mappings.length
      nVcpus := BitVec.ofNat 32 vcpus.count }
    ++ MemoryMap.layout.encList mappings ++ vcpus.enc ++ memory

namespace Vcpus

/-- **The register files come back** from their bytes. -/
theorem read_enc_append (vcpus : Vcpus) (hlt : vcpus.count < 2 ^ 32)
    (rest : List UInt8) :
    Vcpus.read vcpus.archCode (BitVec.ofNat 32 vcpus.count) (vcpus.enc ++ rest)
      = .ok (vcpus, rest) := by
  have hcount : (BitVec.ofNat 32 vcpus.count).toNat = vcpus.count := by
    rw [BitVec.toNat_ofNat, Nat.mod_eq_of_lt hlt]
  unfold Vcpus.read
  rw [hcount]
  cases vcpus with
  | x86_64 vcpus =>
    rw [if_pos (show (x86_64 vcpus).archCode = 0 from rfl)]
    show (Exec.okOr (X86_64.Vcpu.layout.readMany vcpus.length
      (X86_64.Vcpu.layout.encList vcpus ++ rest)) _ >>= _) = _
    rw [Layout.readMany_encList_append]
    rfl
  | aarch64 vcpus =>
    rw [if_neg (show ¬ (aarch64 vcpus).archCode = 0 from show ¬ (1 : U32) = 0 by decide),
      if_pos (show (aarch64 vcpus).archCode = 1 from rfl)]
    show (Exec.okOr (Aarch64.Vcpu.layout.readMany vcpus.length
      (Aarch64.Vcpu.layout.encList vcpus ++ rest)) _ >>= _) = _
    rw [Layout.readMany_encList_append]
    rfl

/-- A register file takes less than a kilobyte. -/
theorem length_enc_le (vcpus : Vcpus) : vcpus.enc.length ≤ vcpus.count * 1024 := by
  cases vcpus with
  | x86_64 vcpus =>
    show (X86_64.Vcpu.layout.encList vcpus).length ≤ vcpus.length * 1024
    rw [Layout.length_encList]
    exact Nat.mul_le_mul_left _ (by decide)
  | aarch64 vcpus =>
    show (Aarch64.Vcpu.layout.encList vcpus).length ≤ vcpus.length * 1024
    rw [Layout.length_encList]
    exact Nat.mul_le_mul_left _ (by decide)

end Vcpus

/-- The memory section is what the file has after the rest. -/
theorem length_fileOf (vcpus : Vcpus) (mappings : List MemoryMap)
    (memory : List UInt8) :
    (fileOf vcpus mappings memory).length
      = 16 + mappings.length * 16 + vcpus.enc.length + memory.length := by
  rw [fileOf, List.length_append, List.length_append, List.length_append,
    Header.layout.length_enc, Layout.length_encList]
  rfl

/-- The length of the section between two positions in a file. -/
theorem checkedSub_section {ε : Type} {len n : ℕ} (hle : n ≤ len) (hlt : len < 2 ^ 64) :
    (checkedSub (BitVec.ofNat 64 len) (BitVec.ofNat 64 (len - n)) : Exec ε U64)
      = .ok (BitVec.ofNat 64 n) := by
  have hlen : (BitVec.ofNat 64 len).toNat = len := by
    rw [BitVec.toNat_ofNat, Nat.mod_eq_of_lt hlt]
  have hstart : (BitVec.ofNat 64 (len - n)).toNat = len - n := by
    rw [BitVec.toNat_ofNat, Nat.mod_eq_of_lt (by omega)]
  refine (checkedSub_eq_ok_iff _ _ _).mpr ⟨by omega, BitVec.eq_of_toNat_eq ?_⟩
  rw [toNat_sub_of_le (by omega), hlen, hstart, BitVec.toNat_ofNat,
    Nat.mod_eq_of_lt (by omega)]
  omega

namespace DumbDump

/-- The dump that `DumbDump::read` finds in a file with this memory
section. -/
def opened (vcpus : Vcpus) (mappings : List MemoryMap) (memory : List UInt8) :
    DumbDump File where
  vcpus := vcpus
  mem := {
    mappings := mappings
    remapAt := (offsets 0 (sizes mappings)).map (BitVec.ofNat 64)
    inner := {
      file := fileOf vcpus mappings memory
      start := BitVec.ofNat 64 ((fileOf vcpus mappings memory).length - memory.length)
      mapping := ⟨0, BitVec.ofNat 64 memory.length⟩ } }

section Read

variable {vcpus : Vcpus} {mappings : List MemoryMap} {memory : List UInt8}

/-- **What `DumbDump::read` makes of a file**: the dump it was written from,
provided the memory section has the size of the mappings. -/
theorem read_fileOf (hvcpus : vcpus.count < 2 ^ 32) (hmappings : mappings.length < 2 ^ 32)
    (hord : ∀ m ∈ mappings, m.start ≤ m.stop) (htotal : (sizes mappings).sum < 2 ^ 63)
    (file : FileBytes) (hfile : file.bytes = fileOf vcpus mappings memory) :
    read file = if memory.length = (sizes mappings).sum
      then .ok (opened vcpus mappings memory)
      else Exec.fail (VmError.new "invalid file size") := by
  have hcount : (BitVec.ofNat 32 mappings.length).toNat = mappings.length := by
    rw [BitVec.toNat_ofNat, Nat.mod_eq_of_lt hmappings]
  have hlen := length_fileOf vcpus mappings memory
  have hlt := file.length_lt
  rw [hfile] at hlt
  have hcheck : (checkedSub (BitVec.ofNat 64 (fileOf vcpus mappings memory).length)
      (BitVec.ofNat 64 ((fileOf vcpus mappings memory).length - memory.length)) :
        Exec VmError U64) = .ok (BitVec.ofNat 64 memory.length) :=
    checkedSub_section (by omega) hlt
  have hsize : BitVec.ofNat 64 memory.length ≠ BitVec.ofNat 64 (sizes mappings).sum
      ↔ ¬ memory.length = (sizes mappings).sum := by
    rw [ne_eq, not_iff_not, ← BitVec.toNat_inj, BitVec.toNat_ofNat, BitVec.toNat_ofNat,
      Nat.mod_eq_of_lt (by omega), Nat.mod_eq_of_lt (by omega)]
  have hassoc : fileOf vcpus mappings memory = Header.layout.enc {
        magic := magic
        arch := vcpus.archCode
        nMappings := BitVec.ofNat 32 mappings.length
        nVcpus := BitVec.ofNat 32 vcpus.count }
      ++ (MemoryMap.layout.encList mappings ++ (vcpus.enc ++ memory)) := by
    simp only [fileOf, List.append_assoc]
  have hzero : (0 : U64).toNat + (sizes mappings).sum = (sizes mappings).sum :=
    Nat.zero_add _
  have hheader := Layout.read_enc_append Header.layout {
        magic := magic
        arch := vcpus.archCode
        nMappings := BitVec.ofNat 32 mappings.length
        nVcpus := BitVec.ofNat 32 vcpus.count }
      (MemoryMap.layout.encList mappings ++ (vcpus.enc ++ memory))
  rw [← hassoc] at hheader
  unfold read
  rw [hfile, hheader]
  simp only [Exec.okOr, Exec.ok_bind, ne_eq, not_true_eq_false, if_false, hcount,
    Layout.readMany_encList_append, Vcpus.read_enc_append vcpus hvcpus]
  have hlt' : (0 : U64).toNat + (sizes mappings).sum < 2 ^ 63 := by
    rw [hzero]
    exact htotal
  rw [remapTable_eq_ok mappings hord 0 hlt', memSize_eq_ok mappings hord 0 hlt', hzero]
  simp only [Exec.ok_bind, hcheck, ← ne_eq, hsize, File.new]
  by_cases hmemory : memory.length = (sizes mappings).sum
  · rw [if_neg (not_not_intro hmemory), if_pos hmemory]
    rfl
  · rw [if_pos hmemory, if_neg hmemory]

/-- The memory of an opened dump is its memory section, packed. -/
theorem opened_packs (hord : ∀ m ∈ mappings, m.start ≤ m.stop)
    (htotal : (sizes mappings).sum < 2 ^ 63) (hmemory : memory.length = (sizes mappings).sum)
    (hlt : (fileOf vcpus mappings memory).length < 2 ^ 64) :
    (opened vcpus mappings memory).mem.Packs memory := by
  have hlen := length_fileOf vcpus mappings memory
  have hstart : (BitVec.ofNat 64 ((fileOf vcpus mappings memory).length
      - memory.length)).toNat = (fileOf vcpus mappings memory).length - memory.length := by
    rw [BitVec.toNat_ofNat, Nat.mod_eq_of_lt (by omega)]
  have hpacked : (opened vcpus mappings memory).mem.Packed := ⟨hord, htotal, rfl⟩
  have hmapping : (opened vcpus mappings memory).mem.inner.mapping
      = ⟨0, BitVec.ofNat 64 (sizes mappings).sum⟩ := by
    rw [← hmemory]
    rfl
  have hend : (BitVec.ofNat 64 ((fileOf vcpus mappings memory).length
      - memory.length)).toNat + (sizes mappings).sum = (fileOf vcpus mappings memory).length := by
    rw [hstart, ← hmemory]
    exact Nat.sub_add_cancel (by omega)
  have hdrop : (fileOf vcpus mappings memory).drop (BitVec.ofNat 64
      ((fileOf vcpus mappings memory).length - memory.length)).toNat = memory := by
    rw [hstart, fileOf]
    exact List.drop_left' (Nat.eq_sub_of_add_eq List.length_append.symm)
  have hpacks : (opened vcpus mappings memory).mem.Packs ((fileOf vcpus mappings memory).drop
      (BitVec.ofNat 64 ((fileOf vcpus mappings memory).length - memory.length)).toNat) :=
    hpacked.packs_file hmapping hend hlt
  rwa [hdrop] at hpacks

end Read

/-- `DumbDump::write` writes the file of what `Memory::dump` writes. -/
theorem write_eq_ok_iff {M : Type} [Memory M] (dump : DumbDump M) (bytes : List UInt8) :
    write dump = .ok bytes
      ↔ ∃ memory, Memory.dump dump.mem = .ok memory
        ∧ fileOf dump.vcpus dump.mem.mappings memory = bytes := by
  unfold write
  rw [Exec.bind_eq_ok_iff]
  refine exists_congr fun memory => and_congr_right fun _ => ?_
  rw [Exec.pure_eq_ok, Except.ok.injEq]
  rfl

/-! ## The round trip -/

/-- **A dump comes back from its file**: it can be written and opened, with
the same virtual CPUs – hence the same architecture –, the same mappings, and
the same result of every read. -/
def RoundTrips (dump : DumbDump RawMemory) : Prop :=
  ∃ file : FileBytes, write dump = .ok file.bytes
    ∧ ∃ dump', read file = .ok dump'
      ∧ dump'.vcpus = dump.vcpus
      ∧ dump'.mem.mappings = dump.mem.mappings
      ∧ ∀ addr len, Memory.readPhysical dump' addr len = Memory.readPhysical dump addr len

/-- **The chunks of a mapping read as its parts**, for the mappings that no
earlier one covers. -/
def ReadsInChunks (dump : DumbDump RawMemory) : Prop :=
  ∀ i, FirstHolds dump.mem.mappings i dump.mem.mappings[i].start dump.mem.mappings[i].size →
    ∀ c, (c + 1) * dumpChunk ≤ dump.mem.mappings[i].size →
      Memory.readPhysical dump
          (dump.mem.mappings[i].start + BitVec.ofNat 64 (c * dumpChunk)) dumpChunk
        = (fun bytes => block bytes dumpChunk c) <$>
          Memory.readPhysical dump dump.mem.mappings[i].start dump.mem.mappings[i].size

section RoundTrip

variable {dump : DumbDump RawMemory} {bytes : List UInt8}

/-- Memory with contents reads the same in chunks. -/
theorem readsInChunks_of_hasContent {content : PhysicalAddress → UInt8}
    (h : dump.mem.Packs (packedBytes content dump.mem.mappings)) : ReadsInChunks dump := by
  intro i hi c hc
  have hlt := dump.mem.mappings[i].stop.isLt
  have hsize : dump.mem.mappings[i].size
      = dump.mem.mappings[i].stop.toNat - dump.mem.mappings[i].start.toNat := rfl
  have hend := hi.1.2
  rw [Nat.add_one_mul] at hc
  have hadd : (dump.mem.mappings[i].start + BitVec.ofNat 64 (c * dumpChunk)).toNat
      = dump.mem.mappings[i].start.toNat + c * dumpChunk :=
    toNat_add_ofNat_of_lt (by omega)
  have hchunk : dump.mem.mappings[i].Holds
      (dump.mem.mappings[i].start + BitVec.ofNat 64 (c * dumpChunk)) dumpChunk := by
    refine ⟨BitVec.le_def.mpr (by omega), by omega⟩
  have hmem : dump.mem.mappings[i] ∈ dump.mem.mappings := List.getElem_mem i.isLt
  have hwhole : Memory.readPhysical dump dump.mem.mappings[i].start
      dump.mem.mappings[i].size = .ok _ := readPhysical_of_packs h hmem hi.1
  rw [hwhole]
  refine (readPhysical_of_packs h hmem hchunk).trans (congrArg Except.ok ?_)
  exact (take_drop_bytesAt content _ hc).symm

/-- A mapping that is a multiple of the chunk can be dumped. -/
theorem exists_dumpMapping (h : dump.mem.Packs bytes) {m : MemoryMap}
    (hm : m ∈ dump.mem.mappings) (hdvd : dumpChunk ∣ m.size) :
    ∃ part, dumpMapping (Memory.readPhysical dump.mem) m = .ok part := by
  have hchunks := (chunks_eq_size_iff m).mpr hdvd
  have hread : ∀ addr ∈ stepBy m.start.toNat m.stop.toNat dumpChunk,
      ∃ bytes, Exec.mapErr MemoryAccessError.toIo
        (Memory.readPhysical dump.mem (BitVec.ofNat 64 addr) dumpChunk) = .ok bytes := by
    intro addr haddr
    obtain ⟨c, hc, rfl⟩ := List.mem_range'.mp haddr
    have hend : (c + 1) * dumpChunk ≤ m.size := by
      rw [← hchunks]
      exact Nat.mul_le_mul_right _ hc
    have hlt := m.stop.isLt
    have hsize : m.size = m.stop.toNat - m.start.toNat := rfl
    have hord := BitVec.le_def.mp (h.ordered m hm)
    rw [Nat.add_one_mul, Nat.mul_comm] at hend
    have haddr : (BitVec.ofNat 64 (m.start.toNat + dumpChunk * c)).toNat
        = m.start.toNat + dumpChunk * c := by
      rw [BitVec.toNat_ofNat, Nat.mod_eq_of_lt]
      have hpos : 0 < dumpChunk := by decide
      omega
    have hholds : m.Holds (BitVec.ofNat 64 (m.start.toNat + dumpChunk * c)) dumpChunk :=
      ⟨BitVec.le_def.mpr (by omega), by omega⟩
    obtain ⟨bytes, hbytes⟩ := (h.isValid_iff_read _ _).mp
      ((defaultIsValid_eq_true_iff _ _ _).mpr ⟨m, hm, hholds⟩)
    exact ⟨bytes, (Exec.mapErr_eq_ok_iff _ _ _).mpr hbytes⟩
  obtain ⟨chunks, hchunks⟩ := Exec.exists_mapM_eq_ok _ _ hread
  exact ⟨chunks.flatten, (Exec.bind_eq_ok_iff _ _ _).mpr ⟨chunks, hchunks, rfl⟩⟩

/-- The parts that are written for the mappings have the size of their
chunks. -/
theorem length_dumped {parts : List (List UInt8)}
    (h : List.Forall₂ (fun m part => dumpMapping (Memory.readPhysical dump.mem) m = .ok part)
      dump.mem.mappings parts) :
    parts.map List.length = dump.mem.mappings.map fun m => chunkCount m * dumpChunk := by
  have hlen := h.imp fun m part hpart =>
    ((dumpMapping_eq_ok_iff (fun _ _ _ => Memory.length_readPhysical) m part).mp hpart).1
  rw [← List.forall₂_eq_eq_eq, List.forall₂_map_left_iff, List.forall₂_map_right_iff]
  exact hlen.flip

/-- **What is written for a mapping is the mapping**, if it reads the same in
chunks. -/
theorem sectionOf_dumped (h : dump.mem.Packs bytes) {parts : List (List UInt8)}
    (hparts : List.Forall₂
      (fun m part => dumpMapping (Memory.readPhysical dump.mem) m = .ok part)
      dump.mem.mappings parts)
    (hdvd : ∀ m ∈ dump.mem.mappings, dumpChunk ∣ m.size) :
    (∀ i, FirstHolds dump.mem.mappings i dump.mem.mappings[i].start
          dump.mem.mappings[i].size →
        sectionOf parts.flatten dump.mem.mappings i = sectionOf bytes dump.mem.mappings i)
      ↔ ReadsInChunks dump := by
  have hsizes : parts.map List.length = sizes dump.mem.mappings := by
    rw [length_dumped hparts]
    exact List.map_congr_left fun m hm => (chunks_eq_size_iff m).mpr (hdvd m hm)
  refine forall_congr' fun i => imp_congr_right fun hi => ?_
  have hlen : (i : ℕ) < parts.length := hparts.length_eq ▸ i.isLt
  have hpart := (List.forall₂_iff_get.mp hparts).2 i i.isLt hlen
  obtain ⟨hsize, hchunks⟩ := (dumpMapping_eq_ok_iff
    (fun _ _ _ => Memory.length_readPhysical) _ _).mp hpart
  have hcount := (chunks_eq_size_iff dump.mem.mappings[i]).mpr
    (hdvd _ (List.getElem_mem i.isLt))
  have hwhole : Memory.readPhysical dump dump.mem.mappings[i].start
      dump.mem.mappings[i].size = .ok (sectionOf bytes dump.mem.mappings i) :=
    h.readPhysical_whole i hi
  have hchunk : ∀ c, (c + 1) * dumpChunk ≤ dump.mem.mappings[i].size
      ↔ c < chunkCount dump.mem.mappings[i] := by
    intro c
    rw [← hcount]
    exact Nat.mul_le_mul_right_iff (by decide)
  rw [sectionOf_flatten hsizes i hlen]
  constructor
  · intro heq c hc
    rw [hwhole, ← heq]
    exact hchunks c ((hchunk c).mp hc)
  · intro hread
    refine eq_of_block_eq hsize ?_ fun c hc => ?_
    · rw [Memory.length_readPhysical hwhole]
      exact hcount.symm
    · have hc' := hread c ((hchunk c).mpr hc)
      rw [hwhole] at hc'
      exact Except.ok.inj ((hchunks c hc).symm.trans hc')

end RoundTrip

end DumbDump

/-- **A snapshot comes back from its file exactly if its mappings are
multiples of 64 KiB that read the same in chunks.** -/
theorem roundTrips_iff {B : Type} [Memory B] [HasVcpus B] (backend : B)
    (hord : ∀ m ∈ Memory.memoryMappings backend, m.start ≤ m.stop)
    (hmappings : (Memory.memoryMappings backend).length < 2 ^ 32)
    (hvcpus : HasVcpus.vcpusCount backend < 2 ^ 32)
    (dump : DumbDump RawMemory) (h : DumbDump.dumpVm backend = .ok dump) :
    DumbDump.RoundTrips dump
      ↔ (∀ m ∈ Memory.memoryMappings backend, dumpChunk ∣ m.size)
        ∧ DumbDump.ReadsInChunks dump := by
  obtain ⟨heq, hpacks, -⟩ := DumbDump.dumpVm_mem hord h
  have hcount : dump.vcpus.count < 2 ^ 32 := by
    rw [show dump.vcpus.count = _ from (DumbDump.dumpVm_vcpus h).count_eq]
    exact hvcpus
  rw [← heq] at hord hmappings ⊢
  have hopen : ∀ (memory : List UInt8) (file : FileBytes),
      file.bytes = fileOf dump.vcpus dump.mem.mappings memory →
      DumbDump.read file = if memory.length = (sizes dump.mem.mappings).sum
        then .ok (DumbDump.opened dump.vcpus dump.mem.mappings memory)
        else Exec.fail (VmError.new "invalid file size") := fun _ =>
    DumbDump.read_fileOf hcount hmappings hord hpacks.total_lt
  constructor
  · rintro ⟨file, hwrite, dump', hread, -, -, hreads⟩
    obtain ⟨memory, hmemory, hfile⟩ := (DumbDump.write_eq_ok_iff dump _).mp hwrite
    obtain ⟨parts, hparts, rfl⟩ := (defaultDump_eq_ok_iff _ _).mp hmemory
    have hlt := file.length_lt
    rw [← hfile] at hlt
    rw [hopen _ file hfile.symm] at hread
    -- the section that was written has the size of the mappings
    have hsize : parts.flatten.length = (sizes dump.mem.mappings).sum := by
      by_contra hne
      rw [if_neg hne] at hread
      exact absurd hread (by simp [Exec.fail])
    rw [if_pos hsize] at hread
    obtain rfl := Except.ok.inj hread
    have hdvd : ∀ m ∈ dump.mem.mappings, dumpChunk ∣ m.size := by
      rw [← sum_chunks_eq_iff, ← DumbDump.length_dumped hparts, ← List.length_flatten]
      exact hsize
    refine ⟨hdvd, (DumbDump.sectionOf_dumped hpacks hparts hdvd).mp ?_⟩
    exact (hpacks.reads_eq_iff (DumbDump.opened_packs hord hpacks.total_lt hsize hlt)
      rfl).mp hreads
  · rintro ⟨hdvd, hchunks⟩
    obtain ⟨parts, hparts⟩ := Exec.exists_mapM_eq_ok _ _ fun m hm =>
      DumbDump.exists_dumpMapping hpacks hm (hdvd m hm)
    rw [Exec.mapM_eq_ok_iff] at hparts
    have hsize : parts.flatten.length = (sizes dump.mem.mappings).sum := by
      rw [List.length_flatten, DumbDump.length_dumped hparts]
      exact (sum_chunks_eq_iff _).mpr hdvd
    have hlt : (fileOf dump.vcpus dump.mem.mappings parts.flatten).length < 2 ^ 64 := by
      have henc := dump.vcpus.length_enc_le
      have htotal := hpacks.total_lt
      rw [length_fileOf]
      omega
    refine ⟨⟨_, hlt⟩, (DumbDump.write_eq_ok_iff dump _).mpr ⟨parts.flatten, ?_, rfl⟩,
      DumbDump.opened dump.vcpus dump.mem.mappings parts.flatten, ?_, rfl, rfl, ?_⟩
    · exact (defaultDump_eq_ok_iff _ _).mpr ⟨parts, hparts, rfl⟩
    · rw [hopen _ ⟨_, hlt⟩ rfl, if_pos hsize]
    · exact (hpacks.reads_eq_iff (DumbDump.opened_packs hord hpacks.total_lt hsize hlt)
        rfl).mpr ((DumbDump.sectionOf_dumped hpacks hparts hdvd).mpr hchunks)

/-- A backend with one virtual CPU and one mapping of 64 KiB. -/
def oneMapping : DumbDump RawMemory where
  vcpus := twoBytes.vcpus
  mem := ⟨[⟨16, 0x10010⟩], [0], RawMemory.new (List.replicate 0x10000 7)⟩

/-- Its snapshot comes back with all its bytes. -/
theorem roundTrips_oneMapping :
    ∃ dump, DumbDump.dumpVm oneMapping = .ok dump ∧ DumbDump.RoundTrips dump := by
  have hord : ∀ m ∈ Memory.memoryMappings oneMapping, m.start ≤ m.stop := by decide
  have hbytes : packedBytes (fun _ => 7) oneMapping.mem.mappings
      = List.replicate 0x10000 (7 : UInt8) := by
    refine List.eq_replicate_iff.mpr ⟨length_packedBytes _ _, fun b hb => ?_⟩
    obtain ⟨m, -, hb⟩ := List.mem_flatMap.mp hb
    obtain ⟨k, -, rfl⟩ := List.mem_map.mp hb
    rfl
  have hpacks : oneMapping.mem.Packs (packedBytes (fun _ => 7) oneMapping.mem.mappings) := by
    rw [hbytes]
    exact MemRemap.Packed.packs_raw ⟨by decide, by decide, by decide⟩ (List.length_replicate ..)
  have hcontent : Memory.HasContent oneMapping fun _ => 7 := hasContent_of_packs hpacks
  obtain ⟨dump, hdump⟩ := DumbDump.exists_dumpVm hord (by decide)
    (fun m hm => ⟨_, readPhysical_of_packs hpacks hm (MemoryMap.holds_self (hord m hm))⟩)
    (show ∃ vcpus, DumbDump.aarch64Vcpus oneMapping = .ok vcpus from ⟨_, rfl⟩)
  have hreads := DumbDump.readsInChunks_of_hasContent (DumbDump.dumpVm_packs hcontent hord hdump)
  exact ⟨dump, hdump, (roundTrips_iff oneMapping hord (by decide) (by decide) dump hdump).mpr
    ⟨by decide, hreads⟩⟩

/-- **A snapshot that cannot be written**: two bytes of memory. -/
theorem not_roundTrips_twoBytes :
    DumbDump.dumpVm twoBytes = .ok twoBytes ∧ ¬ DumbDump.RoundTrips twoBytes := by
  refine ⟨rfl, ?_⟩
  rintro ⟨file, hwrite, -⟩
  have hfails : DumbDump.write twoBytes = Exec.fail .unexpectedEof := rfl
  rw [hfails] at hwrite
  exact absurd hwrite (by simp [Exec.fail])
