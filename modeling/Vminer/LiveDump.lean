import Vminer.Kvm

/-!
# Dumping a running guest

The memory of a guest is laid out at its physical addresses: pieces of the memory of
the process, one after the other, at ranges of addresses that are apart
(`Kvm.LaidOut`). So it is for both layouts that the program knows.

What is written of such a guest can be opened again, and answers as the guest does in
every method of a backend, exactly if the pieces are multiples of 64 KiB and all of the
memory is mapped (`Kvm.comesBack_iff`). For the layout of `kvm_dump_live` this is a
condition on the memory that was found in the process (`dumpLive_iff`).
-/

open Remote (Mem bytesOf window)

/-! ## Mappings that are apart -/

/-- Mappings in the order of their addresses, none of which reaches into the next. -/
def Apart (mappings : List MemoryMap) : Prop :=
  mappings.Pairwise fun m m' => m.stop ≤ m'.start

/-- Only one of them holds a range that is not empty. -/
theorem Apart.firstHolds {mappings : List MemoryMap} (h : Apart mappings)
    {i : Fin mappings.length} {addr : PhysicalAddress} {len : ℕ} (hlen : 0 < len)
    (hholds : mappings[i].Holds addr len) : FirstHolds mappings i addr len := by
  refine ⟨hholds, fun j hj hj' => ?_⟩
  have hle := BitVec.le_def.mp (List.pairwise_iff_getElem.mp h j i j.isLt i.isLt hj)
  have hstart := BitVec.le_def.mp hholds.1
  have hstop : addr.toNat + len ≤ mappings[(j : ℕ)].stop.toNat := hj'.2
  have hi : mappings[i].start.toNat = mappings[(i : ℕ)].start.toNat := rfl
  omega

/-- Every place in packed mappings is in one of them. -/
theorem existsUnique_offsetOf {mappings : List MemoryMap} {x : ℕ}
    (hx : x < (sizes mappings).sum) :
    ∃! i : Fin mappings.length,
      offsetOf mappings i ≤ x ∧ x < offsetOf mappings i + mappings[i].size := by
  obtain ⟨i, ⟨hlo, hhi⟩, hunique⟩ := exists_unique_offset 0 (sizes mappings) x (Nat.zero_le x)
    (by rwa [Nat.zero_add])
  have hi : (i : ℕ) < mappings.length := length_sizes mappings ▸ i.isLt
  rw [Nat.zero_add] at hlo hhi
  rw [Fin.getElem_fin, getElem_sizes _ _ hi] at hhi
  refine ⟨⟨i, hi⟩, ⟨hlo, hhi⟩, fun j hj => ?_⟩
  have hj' : (j : ℕ) < (sizes mappings).length := (length_sizes mappings).symm ▸ j.isLt
  have heq : (⟨j, hj'⟩ : Fin (sizes mappings).length) = i := by
    refine hunique ⟨j, hj'⟩ ⟨?_, ?_⟩
    · rw [Nat.zero_add]
      exact hj.1
    · rw [Nat.zero_add, Fin.getElem_fin, getElem_sizes _ _ j.isLt]
      exact hj.2
  have hval : (j : ℕ) = i := congrArg Fin.val heq
  exact Fin.ext hval

section Packed

variable {M : Type} [Memory M] {mem : MemRemap M} {bytes : List UInt8}

/-- **Memory that is packed and apart is coherent.** -/
theorem MemRemap.Packs.coherent (h : mem.Packs bytes) (hapart : Apart mem.mappings) :
    Memory.Coherent mem where
  read_part a n bs i k hlt hread hle := by
    obtain ⟨j, hj, rfl⟩ := (h.readPhysical_eq_ok_iff a n bs).mp hread
    obtain ⟨hstart, hstop⟩ := hj.1
    rw [BitVec.le_def] at hstart
    have hadd : (a + BitVec.ofNat 64 i).toNat = a.toNat + i := toNat_add_ofNat_of_lt (by omega)
    have hholds : mem.mappings[j].Holds (a + BitVec.ofNat 64 i) k :=
      ⟨BitVec.le_def.mpr (by omega), by omega⟩
    refine (h.readPhysical_eq_ok_iff _ _ _).mpr ?_
    rcases Nat.eq_zero_or_pos k with rfl | hk
    · obtain ⟨j', hj'⟩ := exists_firstHolds (List.getElem_mem j.isLt) hholds
      exact ⟨j', hj', by rw [List.take_zero, List.take_zero]⟩
    · refine ⟨j, hapart.firstHolds hk hholds, ?_⟩
      rw [List.drop_take, List.take_take, List.drop_drop, min_eq_left (by omega), hadd]
      congr 2
      omega

/-- **Memory that is packed and apart promises its reads.** -/
theorem MemRemap.Packs.readContract (h : mem.Packs bytes) (hapart : Apart mem.mappings) :
    Memory.ReadContract mem :=
  { h.coherent hapart with read_or := fun _ _ hlt => h.read_or hlt }

end Packed

/-- **Coherent memory has contents**, where its reads stay in the address space. -/
theorem Memory.Coherent.exists_hasContent {M : Type} [Memory M] {m : M}
    (h : Memory.Coherent m)
    (hlt : ∀ addr n bytes, Memory.readPhysical m addr n = .ok bytes → addr.toNat + n < 2 ^ 64) :
    ∃ content, Memory.HasContent m content := by
  let content : PhysicalAddress → UInt8 := fun addr =>
    ((Memory.readPhysical m addr 1).toOption.getD []).headD 0
  refine ⟨content, fun addr n bytes hread => ?_⟩
  have hlen := Memory.length_readPhysical hread
  refine List.ext_getElem (by rw [hlen, length_bytesAt]) fun k hk _ => ?_
  have hbyte := h.read_part addr n bytes k 1 (hlt addr n bytes hread) hread (by omega)
  have hcontent : content (addr + BitVec.ofNat 64 k) = bytes[k] := by
    show ((Memory.readPhysical m (addr + BitVec.ofNat 64 k) 1).toOption.getD []).headD 0 = _
    rw [hbyte, List.drop_eq_getElem_cons hk]
    rfl
  rw [getElem_bytesAt, hcontent]

/-! ## Taking a dump -/

namespace DumbDump

variable {M : Type} (dump : DumbDump M)

/-- There are no registers after those of the last virtual CPU. -/
theorem registers_of_le {i : ℕ} (h : HasVcpus.vcpusCount dump ≤ i) :
    HasVcpus.runtimeRegisters dump i = Exec.fail .invalidId
      ∧ HasVcpus.runtimeSpecialRegisters dump i = Exec.fail .invalidId
      ∧ HasVcpus.runtimeOtherRegisters dump i = Exec.fail .invalidId := by
  obtain ⟨vcpus, mem⟩ := dump
  cases vcpus with
  | x86_64 vcpus =>
    have hnone : vcpus[i]? = none := List.getElem?_eq_none h
    refine ⟨?_, ?_, ?_⟩
    all_goals
      simp only [HasVcpus.runtimeRegisters, HasVcpus.runtimeSpecialRegisters,
        HasVcpus.runtimeOtherRegisters, HasVcpus.registers, HasVcpus.specialRegisters,
        HasVcpus.otherRegisters, hnone]
      rfl
  | aarch64 vcpus =>
    have hnone : vcpus[i]? = none := List.getElem?_eq_none h
    refine ⟨?_, ?_, ?_⟩
    all_goals
      simp only [HasVcpus.runtimeRegisters, HasVcpus.runtimeSpecialRegisters,
        HasVcpus.runtimeOtherRegisters, HasVcpus.registers, HasVcpus.specialRegisters,
        HasVcpus.otherRegisters, hnone]
      rfl

/-- The registers of a dump are in its virtual CPUs alone. -/
theorem registers_of_vcpus {M N : Type} {dump : DumbDump M} {dump' : DumbDump N}
    (h : dump.vcpus = dump'.vcpus) :
    HasVcpus.runtimeRegisters dump = HasVcpus.runtimeRegisters dump'
      ∧ HasVcpus.runtimeSpecialRegisters dump = HasVcpus.runtimeSpecialRegisters dump'
      ∧ HasVcpus.runtimeOtherRegisters dump = HasVcpus.runtimeOtherRegisters dump' := by
  obtain ⟨vcpus, mem⟩ := dump
  obtain ⟨vcpus', mem'⟩ := dump'
  obtain rfl : vcpus = vcpus' := h
  exact ⟨rfl, rfl, rfl⟩

end DumbDump

namespace Kvm

variable {V : Type} [KvmArch V] (kvm : Kvm V)

theorem registers_of_le {i : ℕ} (h : HasVcpus.vcpusCount kvm ≤ i) :
    HasVcpus.runtimeRegisters kvm i = Exec.fail .invalidId
      ∧ HasVcpus.runtimeSpecialRegisters kvm i = Exec.fail .invalidId
      ∧ HasVcpus.runtimeOtherRegisters kvm i = Exec.fail .invalidId := by
  have hnone : kvm.vcpus[i]? = none := List.getElem?_eq_none h
  refine ⟨?_, ?_, ?_⟩
  all_goals
    simp only [HasVcpus.runtimeRegisters, HasVcpus.runtimeSpecialRegisters,
      HasVcpus.runtimeOtherRegisters, HasVcpus.registers, HasVcpus.specialRegisters,
      HasVcpus.otherRegisters, hnone]
    rfl

/-- The registers of a virtual CPU are those that `get_regs` returned for it. -/
theorem registers_of_lt {i : ℕ} (h : i < kvm.vcpus.length) :
    HasVcpus.runtimeRegisters kvm i
        = .ok (Architecture.registersInto (KvmArch.registers kvm.vcpus[i]))
      ∧ HasVcpus.runtimeSpecialRegisters kvm i
        = .ok (Architecture.specialRegistersInto (KvmArch.specialRegisters kvm.vcpus[i]))
      ∧ HasVcpus.runtimeOtherRegisters kvm i
        = .ok (Architecture.otherRegistersInto (KvmArch.otherRegisters kvm.vcpus[i])) := by
  have hsome : kvm.vcpus[i]? = some kvm.vcpus[i] := List.getElem?_eq_getElem h
  refine ⟨?_, ?_, ?_⟩
  all_goals
    simp only [HasVcpus.runtimeRegisters, HasVcpus.runtimeSpecialRegisters,
      HasVcpus.runtimeOtherRegisters, HasVcpus.registers, HasVcpus.specialRegisters,
      HasVcpus.otherRegisters, hsome]
    rfl

/-- They are registers of the architecture. -/
theorem isArch_of_lt {i : ℕ} (h : i < kvm.vcpus.length) :
    (∃ r, HasVcpus.runtimeRegisters kvm i = .ok r
        ∧ r.architecture = Architecture.intoRuntime (HasVcpus.arch kvm))
      ∧ (∃ r, HasVcpus.runtimeSpecialRegisters kvm i = .ok r
        ∧ r.architecture = Architecture.intoRuntime (HasVcpus.arch kvm))
      ∧ ∃ r, HasVcpus.runtimeOtherRegisters kvm i = .ok r
        ∧ r.architecture = Architecture.intoRuntime (HasVcpus.arch kvm) := by
  obtain ⟨hregisters, hspecial, hother⟩ := kvm.registers_of_lt h
  exact ⟨⟨_, hregisters, KvmArch.registers_arch _⟩,
    ⟨_, hspecial, KvmArch.specialRegisters_arch _⟩, ⟨_, hother, KvmArch.otherRegisters_arch _⟩⟩

/-- **The registers of all virtual CPUs can be dumped**, on either architecture. -/
theorem exists_vcpus :
    match Architecture.intoRuntime (HasVcpus.arch kvm) with
    | .x86_64 => ∃ vcpus, DumbDump.x86Vcpus kvm = .ok vcpus
    | .aarch64 => ∃ vcpus, DumbDump.aarch64Vcpus kvm = .ok vcpus := by
  cases harch : Architecture.intoRuntime (HasVcpus.arch kvm)
  all_goals
    refine Exec.exists_mapM_eq_ok _ _ fun i hi => ?_
    obtain ⟨⟨r, hr, hr'⟩, ⟨s, hs, hs'⟩, ⟨o, ho, ho'⟩⟩ := kvm.isArch_of_lt (List.mem_range.mp hi)
    rw [harch] at hr' hs' ho'
    -- only values of this architecture are left
    cases r <;> cases hr'
    cases s <;> cases hs'
    cases o <;> cases ho'
    rename_i r s o
    refine ⟨⟨r, s, o⟩, ?_⟩
    show (HasVcpus.runtimeRegisters kvm i >>= _) >>= _ = _
    rw [hr]
    show (HasVcpus.runtimeSpecialRegisters kvm i >>= _) >>= _ = _
    rw [hs]
    show (HasVcpus.runtimeOtherRegisters kvm i >>= _) >>= _ = _
    rw [ho]
    rfl

end Kvm

/-! ## Guests that come back -/

/-- **A backend comes back from its dump**: it can be dumped, the dump written and opened
again, and what is opened answers as the backend in every method. -/
def ComesBack {B : Type} [Backend.Methods B] (backend : B) : Prop :=
  ∃ dump, DumbDump.dumpVm backend = .ok dump
    ∧ ∃ file : FileBytes, DumbDump.write dump = .ok file.bytes
      ∧ ∃ opened, DumbDump.read file = .ok opened ∧ Transparent opened backend

/-- **The memory of a process, laid out**: pieces of it, one after the other, at ranges
of addresses that are apart. -/
structure Kvm.LaidOut {V : Type} (kvm : Kvm V) : Prop where
  ordered : ∀ m ∈ kvm.mem.mappings, m.start ≤ m.stop
  apart : Apart kvm.mem.mappings
  length_lt : kvm.mem.mappings.length < 2 ^ 32
  remapAt_eq : kvm.mem.remapAt = (offsets 0 (sizes kvm.mem.mappings)).map (BitVec.ofNat 64)
  start_eq : kvm.mem.inner.mapping.start = 0
  size_eq : (sizes kvm.mem.mappings).sum = kvm.mem.inner.size.toNat
  fits : kvm.mem.inner.start.toNat + kvm.mem.inner.size.toNat < 2 ^ 64

namespace Kvm.LaidOut

variable {V : Type} {kvm : Kvm V}

theorem packed (h : kvm.LaidOut) (hsize : kvm.mem.inner.size.toNat < 2 ^ 63) :
    kvm.mem.Packed := ⟨h.ordered, h.size_eq.trans_lt hsize, h.remapAt_eq⟩

/-- Mapped memory is packed. -/
theorem exists_packs (h : kvm.LaidOut) (hsize : kvm.mem.inner.size.toNat < 2 ^ 63)
    (hmapped : ∀ a ∈ window kvm.mem.inner.start kvm.mem.inner.size.toNat,
      (kvm.mem.inner.mem a).isSome) : ∃ bytes, kvm.mem.Packs bytes := by
  obtain ⟨bytes, hbytes⟩ := ProcessFile.exists_bytesOf hmapped
  have hlen := (Remote.isSome_of_bytesOf hbytes).1
  rw [← hlen] at hbytes
  refine ⟨bytes, h.packed hsize, hlen.trans h.size_eq.symm, fun p n hle => ?_⟩
  have hpart := ProcessFile.bytesOf_part hbytes hle
  rw [BitVec.ofNat_toNat, BitVec.setWidth_eq] at hpart
  exact (ProcessFile.readPhysical_eq_ok_iff h.start_eq h.fits p n _).mpr ⟨hlen ▸ hle, hpart⟩

/-- **What is read of the guest**: the bytes of the process at the place of the range. -/
theorem readPhysical_eq_ok_iff (h : kvm.LaidOut) (hsize : kvm.mem.inner.size.toNat < 2 ^ 63)
    (addr : PhysicalAddress) {len : ℕ} (hlen : 0 < len) (bs : List UInt8) :
    Memory.readPhysical kvm addr len = .ok bs
      ↔ ∃ i : Fin kvm.mem.mappings.length, kvm.mem.mappings[i].Holds addr len
        ∧ bytesOf kvm.mem.inner.mem (kvm.mem.inner.start + BitVec.ofNat 64
          (offsetOf kvm.mem.mappings i + (addr.toNat - kvm.mem.mappings[i].start.toNat))) len
            = some bs := by
  have hpacked := h.packed hsize
  have hend := fun i => offsetOf_add_size_le kvm.mem.mappings i
  have hsum := h.size_eq
  show MemRemap.readPhysical kvm.mem addr len = .ok bs ↔ _
  unfold MemRemap.readPhysical
  rw [if_pos hpacked.length_remapAt, Exec.bind_eq_ok_iff]
  constructor
  · rintro ⟨p, hp, hread⟩
    obtain ⟨i, hi, hval⟩ := (hpacked.remap_eq_ok_iff addr p len).mp hp
    obtain ⟨-, hbytes⟩ := (ProcessFile.readPhysical_eq_ok_iff h.start_eq h.fits p len bs).mp hread
    refine ⟨i, hi.1, ?_⟩
    rw [← hval, BitVec.ofNat_toNat, BitVec.setWidth_eq]
    exact hbytes
  · rintro ⟨i, hi, hbytes⟩
    obtain ⟨hstart, hstop⟩ := hi
    have hle := BitVec.le_def.mp hstart
    have hi := hend i
    have hmapping : kvm.mem.mappings[i].size
        = kvm.mem.mappings[i].stop.toNat - kvm.mem.mappings[i].start.toNat := rfl
    have hval : (BitVec.ofNat 64 (offsetOf kvm.mem.mappings i
          + (addr.toNat - kvm.mem.mappings[i].start.toNat))).toNat
        = offsetOf kvm.mem.mappings i + (addr.toNat - kvm.mem.mappings[i].start.toNat) := by
      rw [BitVec.toNat_ofNat, Nat.mod_eq_of_lt (by omega)]
    exact ⟨_, (hpacked.remap_eq_ok_iff addr _ len).mpr
        ⟨i, h.apart.firstHolds hlen ⟨hstart, hstop⟩, hval⟩,
      (ProcessFile.readPhysical_eq_ok_iff h.start_eq h.fits _ len bs).mpr ⟨by omega, hbytes⟩⟩

/-- **Every byte of the memory is at one address of the guest.** -/
theorem existsUnique_address (h : kvm.LaidOut) {x : ℕ} (hx : x < kvm.mem.inner.size.toNat) :
    ∃! addr : PhysicalAddress, ∃ i : Fin kvm.mem.mappings.length,
      kvm.mem.mappings[i].Holds addr 1
        ∧ offsetOf kvm.mem.mappings i + (addr.toNat - kvm.mem.mappings[i].start.toNat) = x := by
  obtain ⟨i, ⟨hlo, hhi⟩, hunique⟩ := existsUnique_offsetOf (h.size_eq ▸ hx)
  have hlt := kvm.mem.mappings[i].stop.isLt
  have hsize : kvm.mem.mappings[i].size
    = kvm.mem.mappings[i].stop.toNat - kvm.mem.mappings[i].start.toNat := rfl
  have hadd : (kvm.mem.mappings[i].start
      + BitVec.ofNat 64 (x - offsetOf kvm.mem.mappings i)).toNat
      = kvm.mem.mappings[i].start.toNat + (x - offsetOf kvm.mem.mappings i) :=
    toNat_add_ofNat_of_lt (by omega)
  refine ⟨kvm.mem.mappings[i].start + BitVec.ofNat 64 (x - offsetOf kvm.mem.mappings i),
    ⟨i, ⟨BitVec.le_def.mpr (by omega), by omega⟩, by omega⟩, ?_⟩
  -- an address at the same place is in the same piece
  rintro addr ⟨j, ⟨hstart, hstop⟩, hplace⟩
  have hle := BitVec.le_def.mp hstart
  have hsizej : kvm.mem.mappings[j].size
    = kvm.mem.mappings[j].stop.toNat - kvm.mem.mappings[j].start.toNat := rfl
  obtain rfl := hunique j ⟨by omega, by omega⟩
  refine BitVec.eq_of_toNat_eq ?_
  omega

/-- A mapping that can be read is mapped in the process. -/
theorem isSome_of_read (h : kvm.LaidOut) (hsize : kvm.mem.inner.size.toNat < 2 ^ 63)
    (i : Fin kvm.mem.mappings.length) {part : List UInt8}
    (hread : Memory.readPhysical kvm kvm.mem.mappings[i].start kvm.mem.mappings[i].size
      = .ok part) {x : ℕ} (hlo : offsetOf kvm.mem.mappings i ≤ x)
    (hhi : x < offsetOf kvm.mem.mappings i + kvm.mem.mappings[i].size) :
    (kvm.mem.inner.mem (kvm.mem.inner.start + BitVec.ofNat 64 x)).isSome := by
  have hpos : 0 < kvm.mem.mappings[i].size := by omega
  obtain ⟨j, hj, hbytes⟩ := (h.readPhysical_eq_ok_iff hsize _ hpos _).mp hread
  -- the mapping is not empty, so it is the only one that holds its range
  have hself := h.apart.firstHolds hpos
    (MemoryMap.holds_self (h.ordered _ (List.getElem_mem i.isLt)))
  have hother := h.apart.firstHolds hpos hj
  obtain rfl : j = i := Fin.le_antisymm (not_lt.mp fun hlt => hother.2 i hlt hself.1)
    (not_lt.mp fun hlt => hself.2 j hlt hj)
  rw [Nat.sub_self, Nat.add_zero] at hbytes
  refine (Remote.isSome_of_bytesOf hbytes).2 _ ⟨x - offsetOf kvm.mem.mappings j, by omega, ?_⟩
  rw [BitVec.add_assoc, ← BitVec.ofNat_add, Nat.add_sub_cancel' hlo]

end Kvm.LaidOut

namespace Kvm

variable {V : Type} [KvmArch V] {kvm : Kvm V}

/-- **Such a guest can be dumped.** -/
theorem LaidOut.exists_dumpVm (h : kvm.LaidOut) {bytes : List UInt8}
    (hpacks : kvm.mem.Packs bytes) : ∃ dump, DumbDump.dumpVm kvm = .ok dump := by
  have hread : ∀ m ∈ kvm.mem.mappings,
      ∃ part, Memory.readPhysical kvm m.start m.size = .ok part := fun m hm =>
    (hpacks.isValid_iff_read m.start m.size).mp
      ((defaultIsValid_eq_true_iff _ _ _).mpr ⟨m, hm, MemoryMap.holds_self (h.ordered m hm)⟩)
  exact DumbDump.exists_dumpVm h.ordered hpacks.total_lt hread kvm.exists_vcpus

section Dumped

variable {bytes : List UInt8} {dump : DumbDump RawMemory}

/-- **The dump reads as the guest**, whatever is read. -/
theorem LaidOut.dump_reads (h : kvm.LaidOut) (hpacks : kvm.mem.Packs bytes)
    (hdump : DumbDump.dumpVm kvm = .ok dump) :
    DumbDump.ReadsInChunks dump
      ∧ Memory.readPhysical dump = Memory.readPhysical kvm := by
  have hlt : ∀ addr n bs, Memory.readPhysical kvm addr n = .ok bs → addr.toNat + n < 2 ^ 64 := by
    intro addr n bs hread
    obtain ⟨i, hi, -⟩ := (hpacks.readPhysical_eq_ok_iff addr n bs).mp hread
    exact hi.1.2.trans_lt (BitVec.isLt _)
  have hcoherent : Memory.Coherent kvm := ⟨(hpacks.coherent h.apart).read_part⟩
  obtain ⟨content, hcontent⟩ := hcoherent.exists_hasContent hlt
  have hmappings := (DumbDump.dumpVm_mem h.ordered hdump).1
  have hdumped := DumbDump.dumpVm_packs hcontent h.ordered hdump
  refine ⟨DumbDump.readsInChunks_of_hasContent hdumped, ?_⟩
  funext addr len
  refine hpacks.readPhysical_eq_of_section hdumped hmappings fun bs hread => ?_
  obtain ⟨i, hi, -⟩ := (hpacks.readPhysical_eq_ok_iff addr len bs).mp hread
  have hmem : kvm.mem.mappings[i] ∈ dump.mem.mappings := by
    rw [hmappings]
    exact List.getElem_mem i.isLt
  rw [readPhysical_of_packs hdumped hmem hi.1, hcontent addr len bs hread]

/-- **A dump that is opened agrees with the guest.** -/
theorem LaidOut.agree (h : kvm.LaidOut) (hpacks : kvm.mem.Packs bytes)
    (hdump : DumbDump.dumpVm kvm = .ok dump) {opened : DumbDump File}
    (hvcpus : opened.vcpus = dump.vcpus) (hmappings : opened.mem.mappings = dump.mem.mappings)
    (hreads : Memory.readPhysical opened = Memory.readPhysical dump) :
    Backend.Agree opened kvm := by
  have hsame := DumbDump.dumpVm_vcpus hdump
  obtain ⟨hregisters, hspecial, hother⟩ := DumbDump.registers_of_vcpus hvcpus
  have hcases : ∀ i, HasVcpus.runtimeRegisters dump i = HasVcpus.runtimeRegisters kvm i
      ∧ HasVcpus.runtimeSpecialRegisters dump i = HasVcpus.runtimeSpecialRegisters kvm i
      ∧ HasVcpus.runtimeOtherRegisters dump i = HasVcpus.runtimeOtherRegisters kvm i := by
    intro i
    rcases lt_or_ge i (HasVcpus.vcpusCount dump) with hlt | hge
    · exact hsame.registers_eq i hlt
    · obtain ⟨hr, hs, ho⟩ := dump.registers_of_le hge
      obtain ⟨hr', hs', ho'⟩ := kvm.registers_of_le (hsame.count_eq ▸ hge)
      exact ⟨hr.trans hr'.symm, hs.trans hs'.symm, ho.trans ho'.symm⟩
  exact
    { memoryMappings := hmappings.trans (DumbDump.dumpVm_mem h.ordered hdump).1
      readPhysical := hreads.trans (h.dump_reads hpacks hdump).2
      arch := (congrArg Vcpus.arch hvcpus).trans hsame.arch_eq
      vcpusCount := (congrArg Vcpus.count hvcpus).trans hsame.count_eq
      registers := hregisters.trans (funext fun i => (hcases i).1)
      specialRegisters := hspecial.trans (funext fun i => (hcases i).2.1)
      otherRegisters := hother.trans (funext fun i => (hcases i).2.2) }

/-- A dump of a guest that comes back is one that round trips. -/
theorem LaidOut.roundTrips (h : kvm.LaidOut) (hvcpus : kvm.vcpus.length < 2 ^ 32)
    (hpacks : kvm.mem.Packs bytes) (hdump : DumbDump.dumpVm kvm = .ok dump) {file : FileBytes}
    (hwrite : DumbDump.write dump = .ok file.bytes) {opened : DumbDump File}
    (hread : DumbDump.read file = .ok opened) (htransparent : Transparent opened kvm) :
    DumbDump.RoundTrips dump := by
  obtain ⟨hmappings, hdumped, -⟩ := DumbDump.dumpVm_mem h.ordered hdump
  obtain ⟨memory, -, hfile⟩ := (DumbDump.write_eq_ok_iff dump _).mp hwrite
  have hcount : dump.vcpus.count < 2 ^ 32 := by
    rw [show dump.vcpus.count = _ from (DumbDump.dumpVm_vcpus hdump).count_eq]
    exact hvcpus
  have hlength : dump.mem.mappings.length < 2 ^ 32 := hmappings ▸ h.length_lt
  have hopened := DumbDump.read_fileOf hcount hlength hdumped.ordered hdumped.total_lt file
    hfile.symm
  rw [hread] at hopened
  split at hopened
  · obtain rfl := Except.ok.inj hopened
    refine ⟨file, hwrite, _, hread, rfl, rfl, fun addr len => ?_⟩
    rw [htransparent.readPhysical, (h.dump_reads hpacks hdump).2]
  · cases hopened

end Dumped

/-- **A guest comes back from its dump** exactly if the pieces of its memory are
multiples of 64 KiB and all of it is mapped. -/
theorem comesBack_iff (h : kvm.LaidOut) (hvcpus : kvm.vcpus.length < 2 ^ 32) :
    ComesBack kvm ↔ kvm.mem.inner.size.toNat < 2 ^ 63
      ∧ (∀ m ∈ kvm.mem.mappings, dumpChunk ∣ m.size)
      ∧ ∀ a ∈ window kvm.mem.inner.start kvm.mem.inner.size.toNat,
        (kvm.mem.inner.mem a).isSome := by
  constructor
  · rintro ⟨dump, hdump, file, hwrite, opened, hread, htransparent⟩
    obtain ⟨hmappings, hdumped, parts, hparts, -⟩ := DumbDump.dumpVm_mem h.ordered hdump
    have hmappings' : dump.mem.mappings = kvm.mem.mappings := hmappings
    have htotal := hdumped.total_lt
    rw [hmappings', h.size_eq] at htotal
    rw [hmappings'] at hparts
    have hmapped : ∀ a ∈ window kvm.mem.inner.start kvm.mem.inner.size.toNat,
        (kvm.mem.inner.mem a).isSome := by
      rintro a ⟨x, hx, rfl⟩
      obtain ⟨i, ⟨hlo, hhi⟩, -⟩ := existsUnique_offsetOf (h.size_eq ▸ hx)
      have hpart := (List.forall₂_iff_get.mp hparts).2 i i.isLt (hparts.length_eq ▸ i.isLt)
      exact h.isSome_of_read htotal i hpart hlo hhi
    obtain ⟨bytes, hpacks⟩ := h.exists_packs htotal hmapped
    have hround := h.roundTrips hvcpus hpacks hdump hwrite hread htransparent
    exact ⟨htotal, ((roundTrips_iff kvm h.ordered h.length_lt hvcpus dump hdump).mp hround).1,
      hmapped⟩
  · rintro ⟨htotal, hdvd, hmapped⟩
    obtain ⟨bytes, hpacks⟩ := h.exists_packs htotal hmapped
    obtain ⟨dump, hdump⟩ := h.exists_dumpVm hpacks
    obtain ⟨file, hwrite, opened, hread, hsame, hmappings, hreads⟩ :=
      (roundTrips_iff kvm h.ordered h.length_lt hvcpus dump hdump).mpr
        ⟨hdvd, (h.dump_reads hpacks hdump).1⟩
    have hagree := h.agree hpacks hdump hsame hmappings
      (funext fun addr => funext fun len => hreads addr len)
    exact ⟨dump, hdump, file, hwrite, opened, hread,
      Transparent.of_byDefault opened.byDefault kvm.byDefault hagree⟩

end Kvm

/-! ## The layouts of the program -/

namespace Kvm

variable {V : Type} {hypervisor : Hypervisor V} {kvm : Kvm V}

/-- What `create` makes of the process. -/
theorem create_eq_ok
    {makeMappings : U64 → Exec VmError (List MemoryMap × List PhysicalAddress)}
    (h : create hypervisor makeMappings = .ok kvm) :
    kvm.mem.inner.mapping.start = 0
      ∧ kvm.mem.inner.start.toNat + kvm.mem.inner.size.toNat < 2 ^ 64
      ∧ makeMappings kvm.mem.inner.size = .ok (kvm.mem.mappings, kvm.mem.remapAt) := by
  obtain ⟨mem, hmem, h⟩ := (Exec.bind_eq_ok_iff _ _ _).mp h
  obtain ⟨vcpus, -, h⟩ := (Exec.bind_eq_ok_iff _ _ _).mp h
  obtain ⟨⟨mappings, remapAt⟩, hmappings, h⟩ := (Exec.bind_eq_ok_iff _ _ _).mp h
  obtain rfl := Except.ok.inj h
  obtain ⟨⟨start, stop⟩, -, hmem⟩ := (Exec.bind_eq_ok_iff _ _ _).mp hmem
  obtain ⟨-, -, hmem⟩ := (Exec.bind_eq_ok_iff _ _ _).mp hmem
  obtain ⟨size, hsize, hmem⟩ := (Exec.bind_eq_ok_iff _ _ _).mp hmem
  obtain rfl := Except.ok.inj hmem
  obtain ⟨hle, rfl⟩ := (checkedSub_eq_ok_iff _ _ _).mp hsize
  refine ⟨rfl, ?_, hmappings⟩
  show start.toNat + (stop - start).toNat < 2 ^ 64
  rw [toNat_sub_of_le hle, Nat.add_sub_cancel' hle]
  exact stop.isLt

/-- A layout in one piece. -/
theorem laidOut_of_singleton {m : MemoryMap} (hstart : kvm.mem.inner.mapping.start = 0)
    (hfits : kvm.mem.inner.start.toNat + kvm.mem.inner.size.toNat < 2 ^ 64)
    (hmappings : kvm.mem.mappings = [m]) (hremapAt : kvm.mem.remapAt = [0])
    (hsize : m.start.toNat + kvm.mem.inner.size.toNat = m.stop.toNat) : kvm.LaidOut where
  ordered m' hm' := by
    rw [hmappings, List.mem_singleton] at hm'
    rw [hm', BitVec.le_def]
    omega
  apart := by
    rw [hmappings]
    exact List.pairwise_singleton _ _
  length_lt := by
    rw [hmappings, List.length_singleton]
    decide
  remapAt_eq := by
    rw [hremapAt, hmappings]
    rfl
  start_eq := hstart
  size_eq := by
    rw [hmappings]
    show m.stop.toNat - m.start.toNat + 0 = _
    omega
  fits := hfits

/-- **`connect` lays the memory out** from the address zero on. -/
theorem laidOut_of_connect (h : connect hypervisor = .ok kvm) : kvm.LaidOut := by
  obtain ⟨hstart, hfits, hmappings⟩ := create_eq_ok h
  obtain ⟨hmappings, hremapAt⟩ := Prod.mk.inj (Except.ok.inj hmappings)
  exact laidOut_of_singleton hstart hfits hmappings.symm hremapAt.symm (Nat.zero_add _)

/-- **So does `with_default_qemu_mappings`**, in one or two pieces that are multiples of
64 KiB if the memory is one. -/
theorem laidOut_of_default [KvmArch V] (h : withDefaultQemuMappings hypervisor = .ok kvm) :
    kvm.LaidOut ∧ ((∀ m ∈ kvm.mem.mappings, dumpChunk ∣ m.size)
      ↔ dumpChunk ∣ kvm.mem.inner.size.toNat) := by
  obtain ⟨hstart, hfits, hmappings⟩ := create_eq_ok h
  have hone : ∀ m : MemoryMap, kvm.mem.mappings = [m] → kvm.mem.remapAt = [0] →
      m.start.toNat + kvm.mem.inner.size.toNat = m.stop.toNat →
      kvm.LaidOut ∧ ((∀ m ∈ kvm.mem.mappings, dumpChunk ∣ m.size)
        ↔ dumpChunk ∣ kvm.mem.inner.size.toNat) := by
    intro m hm hremapAt hsize
    refine ⟨laidOut_of_singleton hstart hfits hm hremapAt hsize, ?_⟩
    rw [hm, List.forall_mem_singleton, MemoryMap.size, ← hsize, Nat.add_sub_cancel_left]
  have h1g : (gib 1).toNat = 2 ^ 30 := rfl
  have h2g : (gib 2).toNat = 2 ^ 31 := rfl
  have h4g : (gib 4).toNat = 2 ^ 32 := rfl
  cases harch : Architecture.intoRuntime (KvmArch.arch : KvmArch.Arch V) with
  | x86_64 =>
    rw [harch, defaultQemuMappings] at hmappings
    split at hmappings
    · obtain ⟨hmappings, hremapAt⟩ := Prod.mk.inj (Except.ok.inj hmappings)
      exact hone _ hmappings.symm hremapAt.symm (Nat.zero_add _)
    · next hlarge =>
      rw [BitVec.le_def, h2g] at hlarge
      obtain ⟨stop, hstop, hmappings⟩ := (Exec.bind_eq_ok_iff _ _ _).mp hmappings
      obtain ⟨hlt, rfl⟩ := (checkedAdd_eq_ok_iff _ _ _).mp hstop
      obtain ⟨hmappings, hremapAt⟩ := Prod.mk.inj (Except.ok.inj hmappings)
      have hadd : (kvm.mem.inner.size + gib 2).toNat = kvm.mem.inner.size.toNat + 2 ^ 31 := by
        rw [toNat_add_of_lt hlt, h2g]
      have hsizes : sizes kvm.mem.mappings = [2 ^ 31, kvm.mem.inner.size.toNat - 2 ^ 31] := by
        rw [← hmappings]
        have h0 : (0 : PhysicalAddress).toNat = 0 := rfl
        simp only [sizes, List.map_cons, List.map_nil, MemoryMap.size, hadd, h0, h2g, h4g,
          Nat.sub_zero, List.cons.injEq, and_true, true_and]
        omega
      refine ⟨⟨?_, ?_, ?_, ?_, hstart, ?_, hfits⟩, ?_⟩
      · rw [← hmappings]
        intro m hm
        rcases List.mem_pair.mp hm with rfl | rfl
        · exact BitVec.le_def.mpr (Nat.zero_le _)
        · rw [BitVec.le_def, hadd, h4g]
          omega
      · rw [← hmappings]
        refine List.pairwise_pair.mpr (BitVec.le_def.mpr ?_)
        rw [h2g, h4g]
        decide
      · rw [← hmappings, List.length_cons, List.length_singleton]
        decide
      · have hofNat : BitVec.ofNat 64 (2 ^ 31) = gib 2 := by decide
        rw [hsizes, ← hremapAt]
        simp only [offsets, List.map_cons, List.map_nil, Nat.zero_add, hofNat]
        rfl
      · rw [hsizes, List.sum_cons, List.sum_singleton]
        omega
      · have hall : (∀ m ∈ kvm.mem.mappings, dumpChunk ∣ m.size)
            ↔ ∀ n ∈ sizes kvm.mem.mappings, dumpChunk ∣ n := List.forall_mem_map.symm
        have hchunk : dumpChunk = 2 ^ 16 := rfl
        rw [hall, hsizes, List.forall_mem_cons, List.forall_mem_singleton, hchunk]
        omega
  | aarch64 =>
    rw [harch, defaultQemuMappings] at hmappings
    obtain ⟨stop, hstop, hmappings⟩ := (Exec.bind_eq_ok_iff _ _ _).mp hmappings
    obtain ⟨hlt, rfl⟩ := (checkedAdd_eq_ok_iff _ _ _).mp hstop
    obtain ⟨hmappings, hremapAt⟩ := Prod.mk.inj (Except.ok.inj hmappings)
    refine hone _ hmappings.symm hremapAt.symm ?_
    show (gib 1).toNat + _ = (kvm.mem.inner.size + gib 1).toNat
    rw [toNat_add_of_lt hlt, h1g, Nat.add_comm]

end Kvm

/-- A guest with 64 KiB of memory. -/
def oneChunk : Hypervisor Aarch64.Vcpu where
  maps := .ok (textBytes "1000-2000 r-xp /usr/bin/qemu\n40000-50000 rw-p\n")
  openMem := .ok ()
  mem := fun _ => some 0
  getRegs := .ok [⟨⟨fun _ => 7, 1, 2, 3⟩, ⟨4, 5, 6, 7⟩, ⟨⟩⟩]

/-- The backend of it. -/
def oneChunkKvm : Kvm Aarch64.Vcpu where
  mem := ⟨[⟨0x40000000, 0x40010000⟩], [0], ⟨fun _ => some 0, 0x40000, ⟨0, 0x10000⟩⟩⟩
  vcpus := [⟨⟨fun _ => 7, 1, 2, 3⟩, ⟨4, 5, 6, 7⟩, ⟨⟩⟩]

theorem withDefaultQemuMappings_oneChunk :
    Kvm.withDefaultQemuMappings oneChunk = .ok oneChunkKvm := by
  have hfind : findMemory oneChunk.maps = .ok (0x40000, 0x50000) := by
    decide +kernel
  show Kvm.create oneChunk _ = _
  unfold Kvm.create Kvm.openMemory
  rw [hfind]
  rfl

/-- **Every byte of the memory that was found is at one address of the guest**, and what is
read of the guest are the bytes at the places of its addresses, with both layouts. -/
theorem Kvm.guest_memory {V : Type} [KvmArch V] (hypervisor : Hypervisor V) (kvm : Kvm V)
    (h : Kvm.connect hypervisor = .ok kvm ∨ Kvm.withDefaultQemuMappings hypervisor = .ok kvm)
    (hsize : kvm.mem.inner.size.toNat < 2 ^ 63) :
    (∀ x < kvm.mem.inner.size.toNat,
        ∃! addr : PhysicalAddress, ∃ i : Fin kvm.mem.mappings.length,
          kvm.mem.mappings[i].Holds addr 1
            ∧ offsetOf kvm.mem.mappings i + (addr.toNat - kvm.mem.mappings[i].start.toNat) = x)
      ∧ ∀ addr len bs, 0 < len → (Memory.readPhysical kvm addr len = .ok bs
        ↔ ∃ i : Fin kvm.mem.mappings.length, kvm.mem.mappings[i].Holds addr len
          ∧ bytesOf kvm.mem.inner.mem (kvm.mem.inner.start + BitVec.ofNat 64
            (offsetOf kvm.mem.mappings i + (addr.toNat - kvm.mem.mappings[i].start.toNat))) len
              = some bs) := by
  have hlaidOut : kvm.LaidOut := h.elim Kvm.laidOut_of_connect fun h =>
    (Kvm.laidOut_of_default h).1
  exact ⟨fun x hx => hlaidOut.existsUnique_address hx,
    fun addr len bs hlen => hlaidOut.readPhysical_eq_ok_iff hsize addr hlen bs⟩

/-- A guest with 3 GiB of memory, in each byte of which is its gibibyte. -/
def threeGib : Hypervisor X86_64.Vcpu where
  maps := .ok (textBytes "1000-2000 r-xp /usr/bin/qemu\n40000000-100000000 rw-p\n")
  openMem := .ok ()
  mem a := some (UInt8.ofNat (a.toNat >>> 30))
  getRegs := .ok []

/-- The backend of it: the third gibibyte is above the devices. -/
def threeGibKvm : Kvm X86_64.Vcpu where
  mem :=
    { mappings := [⟨0, 0x80000000⟩, ⟨0x100000000, 0x140000000⟩]
      remapAt := [0, 0x80000000]
      inner := ⟨threeGib.mem, 0x40000000, ⟨0, 0xc0000000⟩⟩ }
  vcpus := []

theorem withDefaultQemuMappings_threeGib :
    Kvm.withDefaultQemuMappings threeGib = .ok threeGibKvm := by
  have hfind : findMemory threeGib.maps = .ok (0x40000000, 0x100000000) := by
    decide +kernel
  show Kvm.create threeGib _ = _
  unfold Kvm.create Kvm.openMemory
  rw [hfind]
  rfl

/-- Its second and its third gibibyte are in two pieces. -/
theorem guest_memory_threeGib :
    Memory.readPhysical threeGibKvm 0x7ffffff0 1 = .ok [2]
      ∧ Memory.readPhysical threeGibKvm 0x100000010 2 = .ok [3, 3] := by
  have hguest := (Kvm.guest_memory threeGib threeGibKvm (.inr withDefaultQemuMappings_threeGib)
    (by decide)).2
  constructor
  · exact (hguest _ 1 _ (by decide)).mpr ⟨⟨0, by decide⟩, by decide, rfl⟩
  · exact (hguest _ 2 _ (by decide)).mpr ⟨⟨1, by decide⟩, by decide, rfl⟩

/-- **What `kvm_dump_live` writes comes back** exactly if the memory that was found in the
process is a multiple of 64 KiB and all of it is mapped. -/
theorem dumpLive_iff {V : Type} [KvmArch V] (hypervisor : Hypervisor V) (kvm : Kvm V)
    (h : Kvm.withDefaultQemuMappings hypervisor = .ok kvm) (hvcpus : kvm.vcpus.length < 2 ^ 32) :
    (∃ file : FileBytes, dumpLive hypervisor = .ok file.bytes
        ∧ ∃ dump, DumbDump.read file = .ok dump ∧ Transparent dump kvm)
      ↔ kvm.mem.inner.size.toNat < 2 ^ 63
        ∧ dumpChunk ∣ kvm.mem.inner.size.toNat
        ∧ ∀ a ∈ window kvm.mem.inner.start kvm.mem.inner.size.toNat,
          (kvm.mem.inner.mem a).isSome := by
  obtain ⟨hlaidOut, hdvd⟩ := Kvm.laidOut_of_default h
  rw [← hdvd, ← Kvm.comesBack_iff hlaidOut hvcpus]
  have hlive : ∀ bytes, dumpLive hypervisor = .ok bytes
      ↔ ∃ dump, DumbDump.dumpVm kvm = .ok dump ∧ DumbDump.write dump = .ok bytes := by
    intro bytes
    unfold dumpLive
    rw [h]
    simp only [Exec.mapErr_ok, Exec.ok_bind, Exec.bind_eq_ok_iff, Exec.mapErr_eq_ok_iff]
  constructor
  · rintro ⟨file, hfile, opened, hread, htransparent⟩
    obtain ⟨dump, hdump, hwrite⟩ := (hlive _).mp hfile
    exact ⟨dump, hdump, file, hwrite, opened, hread, htransparent⟩
  · rintro ⟨dump, hdump, file, hwrite, opened, hread, htransparent⟩
    exact ⟨file, (hlive _).mpr ⟨dump, hdump, hwrite⟩, opened, hread, htransparent⟩

theorem dumpLive_oneChunk :
    ∃ file : FileBytes, dumpLive oneChunk = .ok file.bytes
      ∧ ∃ dump, DumbDump.read file = .ok dump ∧ Transparent dump oneChunkKvm :=
  (dumpLive_iff oneChunk oneChunkKvm withDefaultQemuMappings_oneChunk (by decide)).mpr
    ⟨by decide, by decide, fun _ _ => rfl⟩
