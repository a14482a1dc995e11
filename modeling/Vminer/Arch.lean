import Vminer.Mmu

/-!
# Register files and virtual CPUs

The register files of both architectures with their layouts in memory, the
`runtime` enums that hold the registers of either, and the trait `HasVcpus`
through which a backend gives access to the registers of its virtual CPUs.

The registers of a backend have types of their own – those of its
architecture – and every architecture says how to convert them into the
`runtime` enums. `AssumeX86_64` and `AssumeAarch64` go the other way: they see
a backend as one of a fixed architecture and fail where its registers turn
out to be of the other.
-/

/-! ## `x86_64` -/

/-- `X86_64` -/
structure X86_64 where
deriving DecidableEq, Repr

namespace X86_64

/-- `x86_64::Registers` -/
structure Registers where
  rax : U64
  rbx : U64
  rcx : U64
  rdx : U64
  rsi : U64
  rdi : U64
  rsp : U64
  rbp : U64
  r8 : U64
  r9 : U64
  r10 : U64
  r11 : U64
  r12 : U64
  r13 : U64
  r14 : U64
  r15 : U64
  rip : U64
  rflags : U64
deriving DecidableEq, Repr

/-- Eighteen words. -/
def Registers.layout : Layout Registers :=
  (Layout.array Layout.u64 18).via
    (fun r => ![r.rax, r.rbx, r.rcx, r.rdx, r.rsi, r.rdi, r.rsp, r.rbp, r.r8,
      r.r9, r.r10, r.r11, r.r12, r.r13, r.r14, r.r15, r.rip, r.rflags])
    (fun f => ⟨f 0, f 1, f 2, f 3, f 4, f 5, f 6, f 7, f 8, f 9, f 10, f 11,
      f 12, f 13, f 14, f 15, f 16, f 17⟩)
    (fun _ => rfl)

/-- `x86_64::Segment` -/
structure Segment where
  base : U64
  limit : U32
  selector : BitVec 16
  type_ : BitVec 8
  present : BitVec 8
  dpl : BitVec 8
  db : BitVec 8
  s : BitVec 8
  l : BitVec 8
  g : BitVec 8
  avl : BitVec 8
  unusable : BitVec 8
  padding : BitVec 8
deriving DecidableEq, Repr

/-- The base, the limit, the selector and ten bytes. -/
def Segment.layout : Layout Segment :=
  (Layout.u64.pair (Layout.u32.pair (Layout.u16.pair
      (Layout.array Layout.u8 10)))).via
    (fun s => (s.base, s.limit, s.selector, ![s.type_, s.present, s.dpl, s.db,
      s.s, s.l, s.g, s.avl, s.unusable, s.padding]))
    (fun p => ⟨p.1, p.2.1, p.2.2.1, p.2.2.2 0, p.2.2.2 1, p.2.2.2 2, p.2.2.2 3,
      p.2.2.2 4, p.2.2.2 5, p.2.2.2 6, p.2.2.2 7, p.2.2.2 8, p.2.2.2 9⟩)
    (fun _ => rfl)

/-- `x86_64::Dtable` -/
structure Dtable where
  base : U64
  limit : BitVec 16
  padding : Fin 3 → BitVec 16
deriving DecidableEq, Repr

def Dtable.layout : Layout Dtable :=
  (Layout.u64.pair (Layout.u16.pair (Layout.array Layout.u16 3))).via
    (fun t => (t.base, t.limit, t.padding)) (fun p => ⟨p.1, p.2.1, p.2.2⟩)
    (fun _ => rfl)

/-- `x86_64::SpecialRegisters` -/
structure SpecialRegisters where
  cs : Segment
  ds : Segment
  es : Segment
  fs : Segment
  gs : Segment
  ss : Segment
  tr : Segment
  ldt : Segment
  gdt : Dtable
  idt : Dtable
  cr0 : U64
  cr2 : U64
  cr3 : U64
  cr4 : U64
  cr8 : U64
  efer : U64
  apicBase : U64
  interruptBitmap : Fin 4 → U64
deriving DecidableEq, Repr

/-- Eight segments, two tables, seven words and the interrupt bitmap. -/
def SpecialRegisters.layout : Layout SpecialRegisters :=
  ((Layout.array Segment.layout 8).pair ((Layout.array Dtable.layout 2).pair
      ((Layout.array Layout.u64 7).pair (Layout.array Layout.u64 4)))).via
    (fun r => (![r.cs, r.ds, r.es, r.fs, r.gs, r.ss, r.tr, r.ldt],
      ![r.gdt, r.idt], ![r.cr0, r.cr2, r.cr3, r.cr4, r.cr8, r.efer, r.apicBase],
      r.interruptBitmap))
    (fun p => ⟨p.1 0, p.1 1, p.1 2, p.1 3, p.1 4, p.1 5, p.1 6, p.1 7,
      p.2.1 0, p.2.1 1, p.2.2.1 0, p.2.2.1 1, p.2.2.1 2, p.2.2.1 3, p.2.2.1 4,
      p.2.2.1 5, p.2.2.1 6, p.2.2.2⟩)
    (fun _ => rfl)

/-- `x86_64::OtherRegisters` -/
structure OtherRegisters where
  lstar : U64
  gsKernelBase : U64
deriving DecidableEq, Repr

def OtherRegisters.layout : Layout OtherRegisters :=
  (Layout.u64.pair Layout.u64).via (fun r => (r.lstar, r.gsKernelBase))
    (fun p => ⟨p.1, p.2⟩) (fun _ => rfl)

/-- `x86_64::Vcpu` -/
structure Vcpu where
  registers : Registers
  specialRegisters : SpecialRegisters
  otherRegisters : OtherRegisters
deriving DecidableEq, Repr

/-- The three register files, one after the other. -/
def Vcpu.layout : Layout Vcpu :=
  (Registers.layout.pair (SpecialRegisters.layout.pair OtherRegisters.layout)).via
    (fun v => (v.registers, v.specialRegisters, v.otherRegisters))
    (fun p => ⟨p.1, p.2.1, p.2.2⟩) (fun _ => rfl)

end X86_64

/-! ## `aarch64` -/

/-- `Aarch64` -/
structure Aarch64 where
deriving DecidableEq, Repr

namespace Aarch64

/-- `aarch64::Registers` -/
structure Registers where
  regs : Fin 31 → U64
  sp : U64
  pc : U64
  pstate : U64
deriving DecidableEq, Repr

def Registers.layout : Layout Registers :=
  ((Layout.array Layout.u64 31).pair (Layout.array Layout.u64 3)).via
    (fun r => (r.regs, ![r.sp, r.pc, r.pstate]))
    (fun p => ⟨p.1, p.2 0, p.2 1, p.2 2⟩) (fun _ => rfl)

/-- `aarch64::SpecialRegisters` -/
structure SpecialRegisters where
  spEl1 : U64
  ttbr0El1 : U64
  ttbr1El1 : U64
  vbarEl1 : U64
deriving DecidableEq, Repr

def SpecialRegisters.layout : Layout SpecialRegisters :=
  (Layout.array Layout.u64 4).via
    (fun r => ![r.spEl1, r.ttbr0El1, r.ttbr1El1, r.vbarEl1])
    (fun f => ⟨f 0, f 1, f 2, f 3⟩) (fun _ => rfl)

/-- `aarch64::OtherRegisters` -/
structure OtherRegisters where
deriving DecidableEq, Repr

def OtherRegisters.layout : Layout OtherRegisters :=
  Layout.unit.via (fun _ => ()) (fun _ => ⟨⟩) (fun _ => rfl)

/-- `aarch64::Vcpu` -/
structure Vcpu where
  registers : Registers
  specialRegisters : SpecialRegisters
  otherRegisters : OtherRegisters
deriving DecidableEq, Repr

def Vcpu.layout : Layout Vcpu :=
  (Registers.layout.pair (SpecialRegisters.layout.pair OtherRegisters.layout)).via
    (fun v => (v.registers, v.specialRegisters, v.otherRegisters))
    (fun p => ⟨p.1, p.2.1, p.2.2⟩) (fun _ => rfl)

end Aarch64

/-! ## Registers of either architecture -/

namespace Runtime

/-- `runtime::Registers` -/
inductive Registers where
  | x86_64 (regs : X86_64.Registers)
  | aarch64 (regs : Aarch64.Registers)
deriving DecidableEq, Repr

/-- `runtime::SpecialRegisters` -/
inductive SpecialRegisters where
  | x86_64 (regs : X86_64.SpecialRegisters)
  | aarch64 (regs : Aarch64.SpecialRegisters)
deriving DecidableEq, Repr

/-- `runtime::OtherRegisters` -/
inductive OtherRegisters where
  | x86_64 (regs : X86_64.OtherRegisters)
  | aarch64 (regs : Aarch64.OtherRegisters)
deriving DecidableEq, Repr

end Runtime

/-- **The trait `Architecture`**, as far as registers go: the types of the
registers and their conversion into the `runtime` enums. -/
class Architecture (A : Type) where
  Registers : Type
  SpecialRegisters : Type
  OtherRegisters : Type
  registersInto : Registers → Runtime.Registers
  specialRegistersInto : SpecialRegisters → Runtime.SpecialRegisters
  otherRegistersInto : OtherRegisters → Runtime.OtherRegisters
  intoRuntime : A → RuntimeArchitecture

instance : Architecture X86_64 where
  Registers := X86_64.Registers
  SpecialRegisters := X86_64.SpecialRegisters
  OtherRegisters := X86_64.OtherRegisters
  registersInto := .x86_64
  specialRegistersInto := .x86_64
  otherRegistersInto := .x86_64
  intoRuntime _ := .x86_64

instance : Architecture Aarch64 where
  Registers := Aarch64.Registers
  SpecialRegisters := Aarch64.SpecialRegisters
  OtherRegisters := Aarch64.OtherRegisters
  registersInto := .aarch64
  specialRegistersInto := .aarch64
  otherRegistersInto := .aarch64
  intoRuntime _ := .aarch64

instance : Architecture RuntimeArchitecture where
  Registers := Runtime.Registers
  SpecialRegisters := Runtime.SpecialRegisters
  OtherRegisters := Runtime.OtherRegisters
  registersInto := id
  specialRegistersInto := id
  otherRegistersInto := id
  intoRuntime := id

/-! ## Virtual CPUs -/

/-- `VcpuId` -/
abbrev VcpuId : Type := ℕ

/-- **The trait `HasVcpus`**: its required methods. -/
class HasVcpus (V : Type) where
  Arch : Type
  [archInst : Architecture Arch]
  arch : V → Arch
  vcpusCount : V → ℕ
  registers : V → VcpuId → Exec VcpuError (Architecture.Registers Arch)
  specialRegisters : V → VcpuId → Exec VcpuError (Architecture.SpecialRegisters Arch)
  otherRegisters : V → VcpuId → Exec VcpuError (Architecture.OtherRegisters Arch)

namespace HasVcpus

variable {V : Type} [HasVcpus V]

instance : Architecture (Arch V) := archInst

/-- `HasVcpus::iter_vcpus` -/
def iterVcpus (vcpus : V) : List VcpuId := List.range (vcpusCount vcpus)

theorem getElem_iterVcpus (vcpus : V) (i : ℕ) (hi : i < (iterVcpus vcpus).length) :
    (iterVcpus vcpus)[i] = i := List.getElem_range hi

/-- The registers of a virtual CPU as a `runtime` value, as `into` gives
them. -/
def runtimeRegisters (vcpus : V) (vcpu : VcpuId) : Exec VcpuError Runtime.Registers := do
  let regs ← registers vcpus vcpu
  return Architecture.registersInto regs

def runtimeSpecialRegisters (vcpus : V) (vcpu : VcpuId) :
    Exec VcpuError Runtime.SpecialRegisters := do
  let regs ← specialRegisters vcpus vcpu
  return Architecture.specialRegistersInto regs

def runtimeOtherRegisters (vcpus : V) (vcpu : VcpuId) :
    Exec VcpuError Runtime.OtherRegisters := do
  let regs ← otherRegisters vcpus vcpu
  return Architecture.otherRegistersInto regs

end HasVcpus

/-- `AssumeX86_64` -/
structure AssumeX86_64 (V : Type) where
  inner : V

instance {V : Type} [HasVcpus V] : HasVcpus (AssumeX86_64 V) where
  Arch := X86_64
  arch _ := {}
  vcpusCount vcpus := HasVcpus.vcpusCount vcpus.inner
  registers vcpus vcpu := do
    match ← HasVcpus.runtimeRegisters vcpus.inner vcpu with
    | .x86_64 regs => return regs
    | .aarch64 _ => Exec.fail .badArchitecture
  specialRegisters vcpus vcpu := do
    match ← HasVcpus.runtimeSpecialRegisters vcpus.inner vcpu with
    | .x86_64 regs => return regs
    | .aarch64 _ => Exec.fail .badArchitecture
  otherRegisters vcpus vcpu := do
    match ← HasVcpus.runtimeOtherRegisters vcpus.inner vcpu with
    | .x86_64 regs => return regs
    | .aarch64 _ => Exec.fail .badArchitecture

/-- `AssumeAarch64` -/
structure AssumeAarch64 (V : Type) where
  inner : V

instance {V : Type} [HasVcpus V] : HasVcpus (AssumeAarch64 V) where
  Arch := Aarch64
  arch _ := {}
  vcpusCount vcpus := HasVcpus.vcpusCount vcpus.inner
  registers vcpus vcpu := do
    match ← HasVcpus.runtimeRegisters vcpus.inner vcpu with
    | .aarch64 regs => return regs
    | .x86_64 _ => Exec.fail .badArchitecture
  specialRegisters vcpus vcpu := do
    match ← HasVcpus.runtimeSpecialRegisters vcpus.inner vcpu with
    | .aarch64 regs => return regs
    | .x86_64 _ => Exec.fail .badArchitecture
  otherRegisters vcpus vcpu := do
    match ← HasVcpus.runtimeOtherRegisters vcpus.inner vcpu with
    | .aarch64 regs => return regs
    | .x86_64 _ => Exec.fail .badArchitecture

/-! ## Registers of the assumed architecture -/

section Assume

variable {V : Type} [HasVcpus V] {vcpus : V} {vcpu : VcpuId}

/-- A value that was narrowed comes from its wide form. -/
theorem eq_ok_of_narrow {ε R S : Type} {x : Exec ε R} {narrow : R → Exec ε S}
    {into : S → R} (hinto : ∀ r s, narrow r = .ok s → r = into s) {s : S}
    (h : (x >>= narrow) = .ok s) : x = .ok (into s) := by
  obtain ⟨r, hr, hs⟩ := (Exec.bind_eq_ok_iff _ _ _).mp h
  rw [hr, hinto r s hs]

theorem AssumeX86_64.registers_eq_ok {regs : X86_64.Registers}
    (h : HasVcpus.registers (AssumeX86_64.mk vcpus) vcpu = .ok regs) :
    HasVcpus.runtimeRegisters vcpus vcpu = .ok (.x86_64 regs) := by
  refine eq_ok_of_narrow (fun r s hs => ?_) h
  cases r with
  | x86_64 r => exact congrArg _ (Except.ok.inj hs)
  | aarch64 _ => exact absurd hs (by simp [Exec.fail])

theorem AssumeX86_64.specialRegisters_eq_ok {regs : X86_64.SpecialRegisters}
    (h : HasVcpus.specialRegisters (AssumeX86_64.mk vcpus) vcpu = .ok regs) :
    HasVcpus.runtimeSpecialRegisters vcpus vcpu = .ok (.x86_64 regs) := by
  refine eq_ok_of_narrow (fun r s hs => ?_) h
  cases r with
  | x86_64 r => exact congrArg _ (Except.ok.inj hs)
  | aarch64 _ => exact absurd hs (by simp [Exec.fail])

theorem AssumeX86_64.otherRegisters_eq_ok {regs : X86_64.OtherRegisters}
    (h : HasVcpus.otherRegisters (AssumeX86_64.mk vcpus) vcpu = .ok regs) :
    HasVcpus.runtimeOtherRegisters vcpus vcpu = .ok (.x86_64 regs) := by
  refine eq_ok_of_narrow (fun r s hs => ?_) h
  cases r with
  | x86_64 r => exact congrArg _ (Except.ok.inj hs)
  | aarch64 _ => exact absurd hs (by simp [Exec.fail])

theorem AssumeAarch64.registers_eq_ok {regs : Aarch64.Registers}
    (h : HasVcpus.registers (AssumeAarch64.mk vcpus) vcpu = .ok regs) :
    HasVcpus.runtimeRegisters vcpus vcpu = .ok (.aarch64 regs) := by
  refine eq_ok_of_narrow (fun r s hs => ?_) h
  cases r with
  | x86_64 _ => exact absurd hs (by simp [Exec.fail])
  | aarch64 r => exact congrArg _ (Except.ok.inj hs)

theorem AssumeAarch64.specialRegisters_eq_ok {regs : Aarch64.SpecialRegisters}
    (h : HasVcpus.specialRegisters (AssumeAarch64.mk vcpus) vcpu = .ok regs) :
    HasVcpus.runtimeSpecialRegisters vcpus vcpu = .ok (.aarch64 regs) := by
  refine eq_ok_of_narrow (fun r s hs => ?_) h
  cases r with
  | x86_64 _ => exact absurd hs (by simp [Exec.fail])
  | aarch64 r => exact congrArg _ (Except.ok.inj hs)

theorem AssumeAarch64.otherRegisters_eq_ok {regs : Aarch64.OtherRegisters}
    (h : HasVcpus.otherRegisters (AssumeAarch64.mk vcpus) vcpu = .ok regs) :
    HasVcpus.runtimeOtherRegisters vcpus vcpu = .ok (.aarch64 regs) := by
  refine eq_ok_of_narrow (fun r s hs => ?_) h
  cases r with
  | x86_64 _ => exact absurd hs (by simp [Exec.fail])
  | aarch64 r => exact congrArg _ (Except.ok.inj hs)

end Assume
