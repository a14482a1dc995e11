import Vminer.PackedMemory

/-!
# Snapshots are faithful

What `DumbDump::dump_vm` takes of a backend can be read back as the backend:
the same registers of the same virtual CPUs, and in every mapping the same
bytes (`dumpVm_faithful`).

A memory has contents if what is read of it are the bytes of its addresses
(`Memory.HasContent`). `dump_vm` packs what it reads of the mappings
(`dumpVm_mem`), so over a backend with contents the packed section holds the
bytes of the mappings, one after the other (`dumpVm_packs`), and is read as
the contents (`readPhysical_of_packs`).
-/

/-! ## Contents -/

/-- The bytes of `n` addresses from `addr` on. -/
def bytesAt (content : PhysicalAddress → UInt8) (addr : PhysicalAddress) (n : ℕ) :
    List UInt8 :=
  (List.range n).map fun k => content (addr + BitVec.ofNat 64 k)

@[simp] theorem length_bytesAt (content : PhysicalAddress → UInt8)
    (addr : PhysicalAddress) (n : ℕ) : (bytesAt content addr n).length = n := by
  rw [bytesAt, List.length_map, List.length_range]

theorem getElem_bytesAt (content : PhysicalAddress → UInt8)
    (addr : PhysicalAddress) (n k : ℕ) (hk : k < (bytesAt content addr n).length) :
    (bytesAt content addr n)[k] = content (addr + BitVec.ofNat 64 k) := by
  simp [bytesAt]

/-- A part of the bytes of a range are the bytes of a part of it. -/
theorem take_drop_bytesAt (content : PhysicalAddress → UInt8)
    (addr : PhysicalAddress) {n i k : ℕ} (h : i + k ≤ n) :
    ((bytesAt content addr n).drop i).take k
      = bytesAt content (addr + BitVec.ofNat 64 i) k := by
  refine List.ext_getElem ?_ fun j hj hj' => ?_
  · rw [List.length_take, List.length_drop, length_bytesAt, length_bytesAt]
    omega
  · rw [List.getElem_take, List.getElem_drop, getElem_bytesAt, getElem_bytesAt,
      BitVec.add_assoc, ← BitVec.ofNat_add]

/-- **What is read of the memory are the bytes of its addresses.** -/
def Memory.HasContent {M : Type} [Memory M] (memory : M)
    (content : PhysicalAddress → UInt8) : Prop :=
  ∀ addr n bytes, Memory.readPhysical memory addr n = .ok bytes →
    bytes = bytesAt content addr n

/-! ## Reading a packed section -/

/-- The section of a list of mappings: their bytes, one after the other. -/
def packedBytes (content : PhysicalAddress → UInt8) (mappings : List MemoryMap) :
    List UInt8 :=
  mappings.flatMap fun m => bytesAt content m.start m.size

@[simp] theorem length_packedBytes (content : PhysicalAddress → UInt8)
    (mappings : List MemoryMap) :
    (packedBytes content mappings).length = (sizes mappings).sum :=
  length_flatMap_eq_sum _ _ _ fun _ _ => length_bytesAt _ _ _

/-- The section of a mapping are its bytes. -/
theorem sectionOf_packedBytes (content : PhysicalAddress → UInt8)
    (mappings : List MemoryMap) (i : Fin mappings.length) :
    sectionOf (packedBytes content mappings) mappings i
      = bytesAt content (mappings.get i).start (mappings.get i).size :=
  take_drop_flatMap (fun m : MemoryMap => bytesAt content m.start m.size) MemoryMap.size mappings
    (fun _ _ => length_bytesAt _ _ _) i i.isLt

section Contents

variable {M : Type} [Memory M] {mem : MemRemap M} {content : PhysicalAddress → UInt8}

/-- **What is read of packed contents are the contents.** -/
theorem hasContent_of_packs (h : mem.Packs (packedBytes content mem.mappings)) :
    Memory.HasContent mem content := by
  intro addr n bytes hread
  obtain ⟨i, ⟨⟨hstart, hstop⟩, -⟩, rfl⟩ := (h.readPhysical_eq_ok_iff addr n bytes).mp hread
  rw [BitVec.le_def] at hstart
  have hsize : mem.mappings[i].size
      = mem.mappings[i].stop.toNat - mem.mappings[i].start.toNat := rfl
  have haddr : mem.mappings[i].start
      + BitVec.ofNat 64 (addr.toNat - mem.mappings[i].start.toNat) = addr := by
    refine BitVec.eq_of_toNat_eq ?_
    rw [toNat_add_ofNat_of_lt (by omega)]
    omega
  have hsection : sectionOf (packedBytes content mem.mappings) mem.mappings i
      = bytesAt content mem.mappings[i].start mem.mappings[i].size :=
    sectionOf_packedBytes content mem.mappings i
  rw [hsection, take_drop_bytesAt content _ (by omega), haddr]

/-- **A range that some mapping holds is read as its contents.** -/
theorem readPhysical_of_packs (h : mem.Packs (packedBytes content mem.mappings))
    {m : MemoryMap} (hm : m ∈ mem.mappings) {addr : PhysicalAddress} {len : ℕ}
    (hholds : m.Holds addr len) :
    Memory.readPhysical mem addr len = .ok (bytesAt content addr len) := by
  obtain ⟨i, hi⟩ := exists_firstHolds hm hholds
  have hread := (h.readPhysical_eq_ok_iff addr len _).mpr ⟨i, hi, rfl⟩
  rw [hread, hasContent_of_packs h _ _ _ hread]

end Contents

/-! ## Virtual CPUs -/

/-- **The same virtual CPUs**: as many, of the same architecture, and with the
same registers. -/
structure SameVcpus {V W : Type} [HasVcpus V] [HasVcpus W] (v : V) (w : W) : Prop where
  arch_eq : Architecture.intoRuntime (HasVcpus.arch v)
    = Architecture.intoRuntime (HasVcpus.arch w)
  count_eq : HasVcpus.vcpusCount v = HasVcpus.vcpusCount w
  registers_eq : ∀ i < HasVcpus.vcpusCount v,
    HasVcpus.runtimeRegisters v i = HasVcpus.runtimeRegisters w i
    ∧ HasVcpus.runtimeSpecialRegisters v i = HasVcpus.runtimeSpecialRegisters w i
    ∧ HasVcpus.runtimeOtherRegisters v i = HasVcpus.runtimeOtherRegisters w i

namespace DumbDump

variable {M : Type}

/-- The registers of a virtual CPU, as the `runtime` values they are of either architecture. -/
def runtimeVcpu (vcpus : Vcpus) (i : ℕ) :
    Option (Runtime.Registers × Runtime.SpecialRegisters × Runtime.OtherRegisters) :=
  match vcpus with
  | .x86_64 vcpus => vcpus[i]?.map fun v =>
    (.x86_64 v.registers, .x86_64 v.specialRegisters, .x86_64 v.otherRegisters)
  | .aarch64 vcpus => vcpus[i]?.map fun v =>
    (.aarch64 v.registers, .aarch64 v.specialRegisters, .aarch64 v.otherRegisters)

/-- The registers a dump of virtual CPUs gives. -/
theorem sameRegisters_dump (mem : MemRemap M) {vcpus : Vcpus} {i : ℕ} {r : Runtime.Registers}
    {s : Runtime.SpecialRegisters} {o : Runtime.OtherRegisters}
    (h : runtimeVcpu vcpus i = some (r, s, o)) :
    HasVcpus.runtimeRegisters (DumbDump.mk vcpus mem) i = .ok r
      ∧ HasVcpus.runtimeSpecialRegisters (DumbDump.mk vcpus mem) i = .ok s
      ∧ HasVcpus.runtimeOtherRegisters (DumbDump.mk vcpus mem) i = .ok o := by
  cases vcpus
  all_goals
    obtain ⟨v, hv, heq⟩ := Option.map_eq_some_iff.mp h
    obtain ⟨rfl, rfl, rfl⟩ := heq
    refine ⟨?_, ?_, ?_⟩
    all_goals
      simp only [HasVcpus.runtimeRegisters, HasVcpus.runtimeSpecialRegisters,
        HasVcpus.runtimeOtherRegisters, HasVcpus.registers, HasVcpus.specialRegisters,
        HasVcpus.otherRegisters, hv]
      rfl

end DumbDump

/-! ## Taking a snapshot -/

namespace DumbDump

section

variable {B : Type} [HasVcpus B] {backend : B}

/-- **The virtual CPUs of a snapshot** are read one after the other, of either architecture. -/
theorem mapM_vcpus_eq_ok {V : Type}
    {mk : Architecture.Registers (HasVcpus.Arch B) → Architecture.SpecialRegisters (HasVcpus.Arch B)
      → Architecture.OtherRegisters (HasVcpus.Arch B) → V} {vcpus : List V}
    (h : ((HasVcpus.iterVcpus backend).mapM fun vcpu => do
        let registers ← HasVcpus.registers backend vcpu
        let specialRegisters ← HasVcpus.specialRegisters backend vcpu
        let otherRegisters ← HasVcpus.otherRegisters backend vcpu
        return mk registers specialRegisters otherRegisters) = .ok vcpus) :
    vcpus.length = HasVcpus.vcpusCount backend
      ∧ ∀ i < HasVcpus.vcpusCount backend, ∃ registers specialRegisters otherRegisters,
        HasVcpus.registers backend i = .ok registers
          ∧ HasVcpus.specialRegisters backend i = .ok specialRegisters
          ∧ HasVcpus.otherRegisters backend i = .ok otherRegisters
          ∧ vcpus[i]? = some (mk registers specialRegisters otherRegisters) := by
  obtain ⟨hlen, hall⟩ := List.forall₂_iff_get.mp ((Exec.mapM_eq_ok_iff _ _ _).mp h)
  have hcount : vcpus.length = HasVcpus.vcpusCount backend := by
    rw [← hlen]
    exact List.length_range
  refine ⟨hcount, fun i hi => ?_⟩
  rw [← hcount] at hi
  have hi' : i < (HasVcpus.iterVcpus backend).length := hlen ▸ hi
  have hvcpu := hall i hi' hi
  rw [List.get_eq_getElem, List.get_eq_getElem, HasVcpus.getElem_iterVcpus] at hvcpu
  obtain ⟨registers, hregisters, hvcpu⟩ := (Exec.bind_eq_ok_iff _ _ _).mp hvcpu
  obtain ⟨special, hspecial, hvcpu⟩ := (Exec.bind_eq_ok_iff _ _ _).mp hvcpu
  obtain ⟨other, hother, hvcpu⟩ := (Exec.bind_eq_ok_iff _ _ _).mp hvcpu
  refine ⟨registers, special, other, hregisters, hspecial, hother, ?_⟩
  rw [List.getElem?_eq_getElem hi, ← Except.ok.inj hvcpu]

end

variable {B : Type} [Memory B] {backend : B} {content : PhysicalAddress → UInt8}

/-- The loop reads the mappings one after the other, from its offset on. -/
theorem readMappings_eq_ok {mappings : List MemoryMap}
    (hord : ∀ m ∈ mappings, m.start ≤ m.stop) {mem mem' : List UInt8} {offset : U64}
    (hoff : offset.toNat ≤ mem.length)
    (h : readMappings backend mappings mem offset = .ok mem') :
    ∃ parts, List.Forall₂
        (fun m part => Memory.readPhysical backend m.start m.size = .ok part) mappings parts
      ∧ offset.toNat + (sizes mappings).sum ≤ mem.length
      ∧ mem' = mem.take offset.toNat ++ parts.flatten
        ++ mem.drop (offset.toNat + (sizes mappings).sum) := by
  induction mappings generalizing mem offset with
  | nil =>
    obtain rfl := Except.ok.inj h
    refine ⟨[], .nil, hoff, ?_⟩
    show mem = mem.take offset.toNat ++ [] ++ mem.drop (offset.toNat + 0)
    rw [List.append_nil, Nat.add_zero, List.take_append_drop]
  | cons m rest ih =>
    rw [readMappings] at h
    obtain ⟨next, hnext, h⟩ := (Exec.bind_eq_ok_iff _ _ _).mp h
    obtain ⟨hlt, rfl⟩ := (checkedAdd_eq_ok_iff _ _ _).mp hnext
    have hdiff := toNat_diff (hord m List.mem_cons_self)
    have hadd := toNat_add_of_lt hlt
    rw [hdiff] at hadd
    split at h
    · next hslice =>
      obtain ⟨part, hpart, h⟩ := (Exec.bind_eq_ok_iff _ _ _).mp h
      have hread := (Exec.mapErr_eq_ok_iff _ _ _).mp hpart
      rw [show (offset + m.diff).toNat - offset.toNat = m.size by omega] at hread
      have hlen := Memory.length_readPhysical hread
      -- the buffer as it is after this round
      have hfirst : (mem.take offset.toNat ++ part).length
          = (offset + m.diff).toNat := by
        rw [List.length_append, List.length_take, hlen]
        omega
      have hmem : (mem.take offset.toNat ++ part
          ++ mem.drop (offset + m.diff).toNat).length = mem.length := by
        rw [List.length_append, hfirst, List.length_drop]
        omega
      obtain ⟨parts, hparts, hend, rfl⟩ :=
        ih (fun m hm => hord m (List.mem_cons_of_mem _ hm)) (by omega) h
      rw [hmem] at hend
      rw [sizes_cons, List.sum_cons]
      refine ⟨part :: parts, .cons hread hparts, by omega, ?_⟩
      rw [List.take_left' hfirst, ← List.drop_drop, List.drop_left' hfirst,
        List.drop_drop, hadd, Nat.add_assoc]
      simp only [List.flatten_cons, List.append_assoc]
    · exact absurd h (by simp [Exec.panicked])

/-- The mappings can be read if each of them can. -/
theorem exists_readMappings {mappings : List MemoryMap}
    (hord : ∀ m ∈ mappings, m.start ≤ m.stop)
    (hread : ∀ m ∈ mappings, ∃ part, Memory.readPhysical backend m.start m.size = .ok part)
    {mem : List UInt8} {offset : U64} (hle : offset.toNat + (sizes mappings).sum ≤ mem.length)
    (hlt : mem.length < 2 ^ 64) : ∃ mem', readMappings backend mappings mem offset = .ok mem' := by
  induction mappings generalizing mem offset with
  | nil => exact ⟨mem, rfl⟩
  | cons m rest ih =>
    rw [sizes_cons, List.sum_cons] at hle
    have hdiff := toNat_diff (hord m List.mem_cons_self)
    obtain ⟨part, hpart⟩ := hread m List.mem_cons_self
    have hadd : (offset + m.diff).toNat = offset.toNat + m.size := by
      rw [toNat_add_of_lt (by omega), hdiff]
    have hlen := Memory.length_readPhysical hpart
    have hmem : (mem.take offset.toNat ++ part ++ mem.drop (offset + m.diff).toNat).length
        = mem.length := by
      rw [List.length_append, List.length_append, List.length_take, List.length_drop, hlen]
      omega
    have hle' : (offset + m.diff).toNat + (sizes rest).sum
        ≤ (mem.take offset.toNat ++ part ++ mem.drop (offset + m.diff).toNat).length := by
      omega
    obtain ⟨mem', hmem'⟩ := ih (fun m hm => hord m (List.mem_cons_of_mem _ hm))
      (fun m hm => hread m (List.mem_cons_of_mem _ hm)) hle' (hmem ▸ hlt)
    refine ⟨mem', ?_⟩
    rw [readMappings, checkedAdd_eq_ok (by omega), Exec.ok_bind,
      if_pos ⟨BitVec.le_def.mpr (by omega), by omega⟩,
      show (offset + m.diff).toNat - offset.toNat = m.size by omega, hpart]
    exact hmem'

variable [HasVcpus B]

/-- What `dump_vm` gives comes from its three parts. -/
theorem dumpVm_cases {dump : DumbDump RawMemory} (h : dumpVm backend = .ok dump) :
    ∃ remapAt total mem, remapTable 0 (Memory.memoryMappings backend)
          = (.ok (remapAt, total) : Exec VmError _)
      ∧ total.toNat < 2 ^ 63
      ∧ readMappings backend (Memory.memoryMappings backend)
          (List.replicate total.toNat 0) 0 = .ok mem
      ∧ dump.mem = ⟨Memory.memoryMappings backend, remapAt, RawMemory.new mem⟩
      ∧ match Architecture.intoRuntime (HasVcpus.arch backend) with
        | .x86_64 => ∃ vcpus, x86Vcpus backend = .ok vcpus ∧ dump.vcpus = .x86_64 vcpus
        | .aarch64 => ∃ vcpus, aarch64Vcpus backend = .ok vcpus
          ∧ dump.vcpus = .aarch64 vcpus := by
  unfold dumpVm at h
  obtain ⟨⟨remapAt, total⟩, htable, h⟩ := (Exec.bind_eq_ok_iff _ _ _).mp h
  dsimp only at h
  split at h
  · next htotal =>
    obtain ⟨mem, hmem, h⟩ := (Exec.bind_eq_ok_iff _ _ _).mp h
    cases hruntime : Architecture.intoRuntime (HasVcpus.arch backend) with
    | x86_64 =>
      rw [hruntime] at h
      obtain ⟨vcpus, hvcpus, h⟩ := (Exec.bind_eq_ok_iff _ _ _).mp h
      obtain rfl := Except.ok.inj h
      exact ⟨remapAt, total, mem, htable, htotal, hmem, rfl,
        vcpus, (Exec.mapErr_eq_ok_iff _ _ _).mp hvcpus, rfl⟩
    | aarch64 =>
      rw [hruntime] at h
      obtain ⟨vcpus, hvcpus, h⟩ := (Exec.bind_eq_ok_iff _ _ _).mp h
      obtain rfl := Except.ok.inj h
      exact ⟨remapAt, total, mem, htable, htotal, hmem, rfl,
        vcpus, (Exec.mapErr_eq_ok_iff _ _ _).mp hvcpus, rfl⟩
  · exact absurd h (by simp [Exec.panicked])

/-- **The memory of a snapshot is packed**, over what was read of the
mappings. -/
theorem dumpVm_mem (hord : ∀ m ∈ Memory.memoryMappings backend, m.start ≤ m.stop)
    {dump : DumbDump RawMemory} (h : dumpVm backend = .ok dump) :
    dump.mem.mappings = Memory.memoryMappings backend
      ∧ dump.mem.Packs dump.mem.inner.bytes
      ∧ ∃ parts, List.Forall₂
          (fun m part => Memory.readPhysical backend m.start m.size = .ok part)
          dump.mem.mappings parts
        ∧ dump.mem.inner.bytes = parts.flatten := by
  obtain ⟨remapAt, total, mem, htable, htotal, hmem, hdump, -⟩ := dumpVm_cases h
  obtain ⟨parts, hparts, hend, hbytes⟩ := readMappings_eq_ok hord (Nat.zero_le _) hmem
  rw [List.length_replicate, show (0 : U64).toNat = 0 from rfl, Nat.zero_add] at hend
  rw [remapTable_eq_ok _ hord 0 (by
    rw [show (0 : U64).toNat = 0 from rfl]
    omega)] at htable
  obtain ⟨rfl, rfl⟩ := Prod.mk.inj (Except.ok.inj htable)
  have hsum : (sizes (Memory.memoryMappings backend)).sum < 2 ^ 63 := by omega
  rw [show (0 : U64).toNat = 0 from rfl, Nat.zero_add, List.take_zero, List.nil_append,
    List.drop_eq_nil_of_le (by
      rw [List.length_replicate, BitVec.toNat_ofNat, Nat.mod_eq_of_lt (by omega)]),
    List.append_nil] at hbytes
  have hsizes : parts.map List.length = sizes (Memory.memoryMappings backend) := by
    have hlen := hparts.imp fun m part hread => Memory.length_readPhysical hread
    rw [← List.forall₂_eq_eq_eq, sizes, List.forall₂_map_left_iff,
      List.forall₂_map_right_iff]
    exact hlen.flip
  rw [hdump]
  refine ⟨rfl, MemRemap.Packed.packs_raw ⟨hord, hsum, rfl⟩ ?_, parts, hparts, hbytes⟩
  show mem.length = (sizes (Memory.memoryMappings backend)).sum
  rw [hbytes, List.length_flatten, hsizes]

/-- Over a backend with contents they are packed. -/
theorem dumpVm_packs (hc : Memory.HasContent backend content)
    (hord : ∀ m ∈ Memory.memoryMappings backend, m.start ≤ m.stop)
    {dump : DumbDump RawMemory} (h : dumpVm backend = .ok dump) :
    dump.mem.Packs (packedBytes content dump.mem.mappings) := by
  obtain ⟨-, hpacks, parts, hparts, hbytes⟩ := dumpVm_mem hord h
  have hread : List.Forall₂ (fun (m : MemoryMap) part => bytesAt content m.start m.size = part)
      dump.mem.mappings parts :=
    hparts.imp fun m part hread => (hc _ _ _ hread).symm
  rw [← List.forall₂_map_left_iff, List.forall₂_eq_eq_eq] at hread
  rw [hbytes, ← hread] at hpacks
  exact hpacks

/-- **A snapshot can be taken** of a backend whose mappings and virtual CPUs can be read. -/
theorem exists_dumpVm (hord : ∀ m ∈ Memory.memoryMappings backend, m.start ≤ m.stop)
    (hsum : (sizes (Memory.memoryMappings backend)).sum < 2 ^ 63)
    (hread : ∀ m ∈ Memory.memoryMappings backend,
      ∃ part, Memory.readPhysical backend m.start m.size = .ok part)
    (hvcpus : match Architecture.intoRuntime (HasVcpus.arch backend) with
      | .x86_64 => ∃ vcpus, x86Vcpus backend = .ok vcpus
      | .aarch64 => ∃ vcpus, aarch64Vcpus backend = .ok vcpus) :
    ∃ dump, dumpVm backend = .ok dump := by
  have hzero : (0 : U64).toNat + (sizes (Memory.memoryMappings backend)).sum
      = (sizes (Memory.memoryMappings backend)).sum := Nat.zero_add _
  have htable : (remapTable 0 (Memory.memoryMappings backend) : Exec VmError _) = _ :=
    remapTable_eq_ok _ hord 0 (by rw [hzero]; exact hsum)
  rw [hzero] at htable
  have htotal : (BitVec.ofNat 64 (sizes (Memory.memoryMappings backend)).sum).toNat
      = (sizes (Memory.memoryMappings backend)).sum := by
    rw [BitVec.toNat_ofNat, Nat.mod_eq_of_lt (by omega)]
  have hle : (0 : U64).toNat + (sizes (Memory.memoryMappings backend)).sum
      ≤ (List.replicate (sizes (Memory.memoryMappings backend)).sum (0 : UInt8)).length := by
    rw [hzero, List.length_replicate]
  obtain ⟨mem, hmem⟩ := exists_readMappings hord hread hle
    (by rw [List.length_replicate]; omega)
  unfold dumpVm
  dsimp only
  rw [htable, Exec.ok_bind]
  dsimp only
  rw [htotal, if_pos hsum, hmem, Exec.ok_bind]
  cases harch : Architecture.intoRuntime (HasVcpus.arch backend)
  all_goals
    rw [harch] at hvcpus
    obtain ⟨vcpus, hvcpus⟩ := hvcpus
    exact ⟨_, by rw [hvcpus]; rfl⟩

/-- **A snapshot has the virtual CPUs of the backend.** -/
theorem dumpVm_vcpus {dump : DumbDump RawMemory} (h : dumpVm backend = .ok dump) :
    SameVcpus dump backend := by
  obtain ⟨-, -, -, -, -, -, -, hvcpus⟩ := dumpVm_cases h
  cases hruntime : Architecture.intoRuntime (HasVcpus.arch backend) with
  | x86_64 =>
    rw [hruntime] at hvcpus
    obtain ⟨vcpus, hvcpus, hdump⟩ := hvcpus
    obtain ⟨hcount, hregs⟩ := mapM_vcpus_eq_ok hvcpus
    obtain ⟨_, mem⟩ := dump
    obtain rfl : _ = Vcpus.x86_64 vcpus := hdump
    refine ⟨hruntime.symm, hcount, fun i hi => ?_⟩
    obtain ⟨registers, special, other, hregisters, hspecial, hother, hget⟩ :=
      hregs i (hcount ▸ hi)
    rw [AssumeX86_64.registers_eq_ok hregisters, AssumeX86_64.specialRegisters_eq_ok hspecial,
      AssumeX86_64.otherRegisters_eq_ok hother]
    exact sameRegisters_dump mem (Option.map_eq_some_iff.mpr ⟨_, hget, rfl⟩)
  | aarch64 =>
    rw [hruntime] at hvcpus
    obtain ⟨vcpus, hvcpus, hdump⟩ := hvcpus
    obtain ⟨hcount, hregs⟩ := mapM_vcpus_eq_ok hvcpus
    obtain ⟨_, mem⟩ := dump
    obtain rfl : _ = Vcpus.aarch64 vcpus := hdump
    refine ⟨hruntime.symm, hcount, fun i hi => ?_⟩
    obtain ⟨registers, special, other, hregisters, hspecial, hother, hget⟩ :=
      hregs i (hcount ▸ hi)
    rw [AssumeAarch64.registers_eq_ok hregisters, AssumeAarch64.specialRegisters_eq_ok hspecial,
      AssumeAarch64.otherRegisters_eq_ok hother]
    exact sameRegisters_dump mem (Option.map_eq_some_iff.mpr ⟨_, hget, rfl⟩)

end DumbDump

/-- **Snapshot fidelity**: a snapshot has the mappings of the backend, its
virtual CPUs with their registers, and in every mapping its bytes. -/
theorem dumpVm_faithful {B : Type} [Memory B] [HasVcpus B] (backend : B)
    (content : PhysicalAddress → UInt8) (hc : Memory.HasContent backend content)
    (hord : ∀ m ∈ Memory.memoryMappings backend, m.start ≤ m.stop)
    (dump : DumbDump RawMemory) (h : DumbDump.dumpVm backend = .ok dump) :
    Memory.memoryMappings dump = Memory.memoryMappings backend
      ∧ SameVcpus dump backend
      ∧ ∀ m ∈ Memory.memoryMappings backend, ∀ addr len, m.Holds addr len →
        Memory.readPhysical dump addr len = .ok (bytesAt content addr len) := by
  obtain ⟨hmappings, -⟩ := DumbDump.dumpVm_mem hord h
  refine ⟨hmappings, DumbDump.dumpVm_vcpus h, fun m hm addr len hholds => ?_⟩
  exact readPhysical_of_packs (DumbDump.dumpVm_packs hc hord h) (hmappings ▸ hm) hholds

/-- A backend with one virtual CPU and two bytes of memory, at 16 and behind a gap. -/
def twoBytes : DumbDump RawMemory where
  vcpus := .aarch64 [⟨⟨fun _ => 7, 1, 2, 3⟩, ⟨4, 5, 6, 7⟩, ⟨⟩⟩]
  mem := ⟨[⟨16, 17⟩, ⟨32, 33⟩], [0, 1], RawMemory.new [0xaa, 0xbb]⟩

/-- The contents of `twoBytes`. -/
def twoBytesContent (addr : PhysicalAddress) : UInt8 :=
  if addr = 16 then 0xaa else 0xbb

theorem twoBytes_hasContent : Memory.HasContent twoBytes twoBytesContent :=
  have hpacks : twoBytes.mem.Packs twoBytes.mem.inner.bytes :=
    MemRemap.Packed.packs_raw ⟨by decide, by decide, by decide⟩ (by decide)
  have hbytes : twoBytes.mem.inner.bytes = packedBytes twoBytesContent twoBytes.mem.mappings := by
    decide
  hasContent_of_packs (hbytes ▸ hpacks)

theorem dumpVm_twoBytes :
    Memory.memoryMappings twoBytes = [⟨16, 17⟩, ⟨32, 33⟩]
      ∧ SameVcpus twoBytes twoBytes
      ∧ ∀ m ∈ Memory.memoryMappings twoBytes, ∀ addr len, m.Holds addr len →
        Memory.readPhysical twoBytes addr len
          = .ok (bytesAt twoBytesContent addr len) :=
  dumpVm_faithful twoBytes twoBytesContent twoBytes_hasContent (by decide) twoBytes rfl
