import Vminer.Arch
import Vminer.Transfer

/-!
# The payload inside the hypervisor

`vminer_payload` runs in the process of the hypervisor: it asks KVM for the
registers of each virtual CPU and writes them to a socket, on whose other end
`start_listener` reads the register files of the architecture. The two are
parts of different libraries. The payload declares the structures it writes
for itself, the listener reads `Registers`, `SpecialRegisters` and
`OtherRegisters`, and nothing but their layouts makes them agree: on `x86_64`
there are three of each, on `aarch64` the payload writes two and the third
file has no bytes.

`Payload` packs the two ends with the proof that they do agree
(`X86_64.payload`, `Aarch64.payload`).
-/

/-- A file descriptor. -/
abbrev Fd : Type := BitVec 32

/-- `start_listener`: the register files the listener reads of a virtual CPU. -/
def registerFiles {R S O V : Type} (registers : Layout R) (special : Layout S) (other : Layout O)
    (vcpu : R → S → O → V) (bytes : List (List UInt8)) : V :=
  vcpu (registers.dec (bytes.getD 0 [])) (special.dec (bytes.getD 1 []))
    (other.dec (bytes.getD 2 []))

/-- **The two ends of the socket**: what is read from KVM of a virtual CPU, how
it travels, and the virtual CPU it is meant to be. -/
structure Payload (ρ ν : Type) where
  readVcpu : Fd → Except IoError ρ
  format : Transfer.Format ρ UInt8 ν
  decode : ρ → ν
  carries : format.Carries decode

/-- Three files written as one chunk each, or as none where they have no bytes,
are the files that are read. -/
theorem registerFiles_carries {ρ R S O V : Type} {registers : Layout R} {special : Layout S}
    {other : Layout O} {vcpu : R → S → O → V} {chunks : ρ → List (List UInt8)} {r : ρ → R}
    {s : ρ → S} {o : ρ → O} (hpos : 0 < registers.size)
    (hchunks : ∀ x, (chunks x).flatten
      = registers.enc (r x) ++ (special.enc (s x) ++ other.enc (o x))) :
    (Transfer.Format.mk chunks [registers.size, special.size, other.size]
      (registerFiles registers special other vcpu)).Carries
      fun x => vcpu (r x) (s x) (o x) where
  sum_pos := by
    simp only [List.sum_cons]
    omega
  length_elements x := by
    show ((chunks x).flatten).length = _
    rw [hchunks, List.length_append, List.length_append, Layout.length_enc, Layout.length_enc,
      Layout.length_enc]
    simp
  value_eq x := by
    show registerFiles registers special other vcpu
      (List.splitLengths _ ((chunks x).flatten)) = _
    rw [hchunks, List.splitLengths_cons, List.splitLengths_cons, List.splitLengths_cons,
      List.take_left' (registers.length_enc _), List.drop_left' (registers.length_enc _),
      List.take_left' (special.length_enc _), List.drop_left' (special.length_enc _),
      List.take_of_length_le (other.length_enc _).le]
    simp [registerFiles, Layout.dec_enc]

/-! ## `x86_64` -/

namespace KvmPatch

/-- The literals of the index types of the structures below. -/
local instance neZero_two : NeZero 2 := ⟨by decide⟩

local instance neZero_three : NeZero 3 := ⟨by decide⟩

local instance neZero_seven : NeZero 7 := ⟨by decide⟩

local instance neZero_eight : NeZero 8 := ⟨by decide⟩

local instance neZero_ten : NeZero 10 := ⟨by decide⟩

local instance neZero_eighteen : NeZero 18 := ⟨by decide⟩

namespace X86_64

/-- `kvm_regs` -/
structure KvmRegs where
  rax : U64
  rbx : U64
  rcx : U64
  rdx : U64
  rsi : U64
  rdi : U64
  rsp : U64
  rbp : U64
  r8 : U64
  r9 : U64
  r10 : U64
  r11 : U64
  r12 : U64
  r13 : U64
  r14 : U64
  r15 : U64
  rip : U64
  rflags : U64
deriving DecidableEq, Repr

def KvmRegs.layout : Layout KvmRegs :=
  (Layout.array Layout.u64 18).via
    (fun r => ![r.rax, r.rbx, r.rcx, r.rdx, r.rsi, r.rdi, r.rsp, r.rbp, r.r8,
      r.r9, r.r10, r.r11, r.r12, r.r13, r.r14, r.r15, r.rip, r.rflags])
    (fun f => ⟨f 0, f 1, f 2, f 3, f 4, f 5, f 6, f 7, f 8, f 9, f 10, f 11,
      f 12, f 13, f 14, f 15, f 16, f 17⟩)
    (fun _ => rfl)

/-- `kvm_segment` -/
structure KvmSegment where
  base : U64
  limit : U32
  selector : BitVec 16
  type_ : BitVec 8
  present : BitVec 8
  dpl : BitVec 8
  db : BitVec 8
  s : BitVec 8
  l : BitVec 8
  g : BitVec 8
  avl : BitVec 8
  unusable : BitVec 8
  padding : BitVec 8
deriving DecidableEq, Repr

def KvmSegment.layout : Layout KvmSegment :=
  (Layout.u64.pair (Layout.u32.pair (Layout.u16.pair
      (Layout.array Layout.u8 10)))).via
    (fun s => (s.base, s.limit, s.selector, ![s.type_, s.present, s.dpl, s.db,
      s.s, s.l, s.g, s.avl, s.unusable, s.padding]))
    (fun p => ⟨p.1, p.2.1, p.2.2.1, p.2.2.2 0, p.2.2.2 1, p.2.2.2 2, p.2.2.2 3,
      p.2.2.2 4, p.2.2.2 5, p.2.2.2 6, p.2.2.2 7, p.2.2.2 8, p.2.2.2 9⟩)
    (fun _ => rfl)

/-- `kvm_dtable` -/
structure KvmDtable where
  base : U64
  limit : BitVec 16
  padding : Fin 3 → BitVec 16
deriving DecidableEq, Repr

def KvmDtable.layout : Layout KvmDtable :=
  (Layout.u64.pair (Layout.u16.pair (Layout.array Layout.u16 3))).via
    (fun t => (t.base, t.limit, t.padding)) (fun p => ⟨p.1, p.2.1, p.2.2⟩)
    (fun _ => rfl)

/-- `kvm_sregs` -/
structure KvmSregs where
  cs : KvmSegment
  ds : KvmSegment
  es : KvmSegment
  fs : KvmSegment
  gs : KvmSegment
  ss : KvmSegment
  tr : KvmSegment
  ldt : KvmSegment
  gdt : KvmDtable
  idt : KvmDtable
  cr0 : U64
  cr2 : U64
  cr3 : U64
  cr4 : U64
  cr8 : U64
  efer : U64
  apicBase : U64
  interruptBitmap : Fin 4 → U64
deriving DecidableEq, Repr

def KvmSregs.layout : Layout KvmSregs :=
  ((Layout.array KvmSegment.layout 8).pair ((Layout.array KvmDtable.layout 2).pair
      ((Layout.array Layout.u64 7).pair (Layout.array Layout.u64 4)))).via
    (fun r => (![r.cs, r.ds, r.es, r.fs, r.gs, r.ss, r.tr, r.ldt],
      ![r.gdt, r.idt], ![r.cr0, r.cr2, r.cr3, r.cr4, r.cr8, r.efer, r.apicBase],
      r.interruptBitmap))
    (fun p => ⟨p.1 0, p.1 1, p.1 2, p.1 3, p.1 4, p.1 5, p.1 6, p.1 7,
      p.2.1 0, p.2.1 1, p.2.2.1 0, p.2.2.1 1, p.2.2.1 2, p.2.2.1 3, p.2.2.1 4,
      p.2.2.1 5, p.2.2.1 6, p.2.2.2⟩)
    (fun _ => rfl)

/-- `kvm_msr_entry` -/
structure KvmMsrEntry where
  index : U32
  reserved : U32
  data : U64
deriving DecidableEq, Repr

/-- `kvm_msrs` -/
structure KvmMsrs where
  nmsrs : U32
  pad : U32
  entries : Fin 2 → KvmMsrEntry
deriving DecidableEq, Repr

/-- `msrs` -/
structure Msrs where
  lstar : U64
  kernelGsBase : U64
deriving DecidableEq, Repr

def Msrs.layout : Layout Msrs :=
  (Layout.u64.pair Layout.u64).via (fun r => (r.lstar, r.kernelGsBase))
    (fun p => ⟨p.1, p.2⟩) (fun _ => rfl)

/-- The requests to KVM, `KVM_GET_REGS`, `KVM_GET_SREGS` and `KVM_GET_MSRS`. The
last is given the entries to fill. -/
structure Ioctls where
  kvmGetRegs : Fd → Except IoError KvmRegs
  kvmGetSregs : Fd → Except IoError KvmSregs
  kvmGetMsrs : Fd → KvmMsrs → Except IoError KvmMsrs

/-- `get_regs` -/
def getRegs (kvm : Ioctls) (vcpuFd : Fd) : Except IoError KvmRegs := kvm.kvmGetRegs vcpuFd

/-- `get_sregs` -/
def getSregs (kvm : Ioctls) (vcpuFd : Fd) : Except IoError KvmSregs := kvm.kvmGetSregs vcpuFd

/-- The entries `get_msrs` asks for, `lstar` and `kernel_gs_base`. -/
def requestedMsrs : KvmMsrs where
  nmsrs := 2
  pad := 0
  entries := ![⟨0xc0000082, 0, 0⟩, ⟨0xc0000102, 0, 0⟩]

/-- `get_msrs` -/
def getMsrs (kvm : Ioctls) (vcpuFd : Fd) : Except IoError Msrs := do
  let msrs ← kvm.kvmGetMsrs vcpuFd requestedMsrs
  return ⟨(msrs.entries 0).data, (msrs.entries 1).data⟩

/-- What `send_fds` obtains of a virtual CPU before it writes it. -/
def readVcpu (kvm : Ioctls) (vcpu : Fd) : Except IoError (KvmRegs × KvmSregs × Msrs) := do
  let regs ← getRegs kvm vcpu
  let sregs ← getSregs kvm vcpu
  let msrs ← getMsrs kvm vcpu
  return (regs, sregs, msrs)

/-- The three `write_all` of `send_fds`. -/
def chunks (vcpu : KvmRegs × KvmSregs × Msrs) : List (List UInt8) :=
  [KvmRegs.layout.enc vcpu.1, KvmSregs.layout.enc vcpu.2.1, Msrs.layout.enc vcpu.2.2]

/-- The registers of the tool that a `kvm_regs` stands for. -/
def KvmRegs.toRegisters (r : KvmRegs) : X86_64.Registers :=
  ⟨r.rax, r.rbx, r.rcx, r.rdx, r.rsi, r.rdi, r.rsp, r.rbp, r.r8, r.r9, r.r10, r.r11, r.r12,
    r.r13, r.r14, r.r15, r.rip, r.rflags⟩

def KvmSegment.toSegment (s : KvmSegment) : X86_64.Segment :=
  ⟨s.base, s.limit, s.selector, s.type_, s.present, s.dpl, s.db, s.s, s.l, s.g, s.avl,
    s.unusable, s.padding⟩

def KvmDtable.toDtable (t : KvmDtable) : X86_64.Dtable := ⟨t.base, t.limit, t.padding⟩

def KvmSregs.toSpecialRegisters (r : KvmSregs) : X86_64.SpecialRegisters :=
  ⟨r.cs.toSegment, r.ds.toSegment, r.es.toSegment, r.fs.toSegment, r.gs.toSegment,
    r.ss.toSegment, r.tr.toSegment, r.ldt.toSegment, r.gdt.toDtable, r.idt.toDtable, r.cr0,
    r.cr2, r.cr3, r.cr4, r.cr8, r.efer, r.apicBase, r.interruptBitmap⟩

def Msrs.toOtherRegisters (r : Msrs) : X86_64.OtherRegisters := ⟨r.lstar, r.kernelGsBase⟩

theorem enc_kvmRegs (r : KvmRegs) :
    KvmRegs.layout.enc r = X86_64.Registers.layout.enc r.toRegisters := rfl

theorem enc_kvmSregs (r : KvmSregs) :
    KvmSregs.layout.enc r = X86_64.SpecialRegisters.layout.enc r.toSpecialRegisters := rfl

theorem enc_msrs (r : Msrs) :
    Msrs.layout.enc r = X86_64.OtherRegisters.layout.enc r.toOtherRegisters := rfl

/-- **The payload and the listener on `x86_64`.** -/
def payload (kvm : Ioctls) : Payload (KvmRegs × KvmSregs × Msrs) X86_64.Vcpu where
  readVcpu := readVcpu kvm
  format := {
    chunks := chunks
    sizes := [X86_64.Registers.layout.size, X86_64.SpecialRegisters.layout.size,
      X86_64.OtherRegisters.layout.size]
    value := registerFiles X86_64.Registers.layout X86_64.SpecialRegisters.layout
      X86_64.OtherRegisters.layout X86_64.Vcpu.mk }
  decode vcpu := ⟨vcpu.1.toRegisters, vcpu.2.1.toSpecialRegisters, vcpu.2.2.toOtherRegisters⟩
  carries := registerFiles_carries (by decide) fun vcpu => by
    rw [chunks, enc_kvmRegs, enc_kvmSregs, enc_msrs]
    simp

end X86_64

/-! ## `aarch64` -/

namespace Aarch64

/-- `user_pt_regs` -/
structure UserPtRegs where
  regs : Fin 31 → U64
  sp : U64
  pc : U64
  pstate : U64
deriving DecidableEq, Repr

def UserPtRegs.layout : Layout UserPtRegs :=
  ((Layout.array Layout.u64 31).pair (Layout.array Layout.u64 3)).via
    (fun r => (r.regs, ![r.sp, r.pc, r.pstate]))
    (fun p => ⟨p.1, p.2 0, p.2 1, p.2 2⟩) (fun _ => rfl)

/-- `special_regs` -/
structure SpecialRegs where
  spEl1 : U64
  ttbr0El1 : U64
  ttbr1El1 : U64
  vbarEl1 : U64
deriving DecidableEq, Repr

def SpecialRegs.layout : Layout SpecialRegs :=
  (Layout.array Layout.u64 4).via
    (fun r => ![r.spEl1, r.ttbr0El1, r.ttbr1El1, r.vbarEl1])
    (fun f => ⟨f 0, f 1, f 2, f 3⟩) (fun _ => rfl)

/-- The request to KVM, `KVM_GET_ONE_REG` with the identifier of a register. -/
structure Ioctls where
  kvmGetOneReg : Fd → U64 → Except IoError U64

/-- `get_one_reg` -/
def getOneReg (kvm : Ioctls) (vcpuFd : Fd) (id : U64) : Except IoError U64 :=
  kvm.kvmGetOneReg vcpuFd id

/-- The identifier of the `i`-th word of `user_pt_regs`. -/
def coreRegId (i : ℕ) : U64 := 0x6030000000100000 + 2 * BitVec.ofNat 64 i

/-- `get_regs`: the words of the structure one after the other. -/
def getRegs (kvm : Ioctls) (vcpuFd : Fd) : Except IoError UserPtRegs := do
  let words ← (List.range 34).mapM fun i => getOneReg kvm vcpuFd (coreRegId i)
  return UserPtRegs.layout.dec (Layout.u64.encList words)

/-- `get_special_regs` -/
def getSpecialRegs (kvm : Ioctls) (vcpuFd : Fd) : Except IoError SpecialRegs := do
  let spEl1 ← getOneReg kvm vcpuFd 0x6030000000100044
  let ttbr0El1 ← getOneReg kvm vcpuFd 0x603000000013c100
  let ttbr1El1 ← getOneReg kvm vcpuFd 0x603000000013c101
  let vbarEl1 ← getOneReg kvm vcpuFd 0x603000000013c600
  return ⟨spEl1, ttbr0El1, ttbr1El1, vbarEl1⟩

/-- What `send_fds` obtains of a virtual CPU before it writes it. -/
def readVcpu (kvm : Ioctls) (vcpu : Fd) : Except IoError (UserPtRegs × SpecialRegs) := do
  let regs ← getRegs kvm vcpu
  let sregs ← getSpecialRegs kvm vcpu
  return (regs, sregs)

/-- The two `write_all` of `send_fds`. -/
def chunks (vcpu : UserPtRegs × SpecialRegs) : List (List UInt8) :=
  [UserPtRegs.layout.enc vcpu.1, SpecialRegs.layout.enc vcpu.2]

def UserPtRegs.toRegisters (r : UserPtRegs) : Aarch64.Registers := ⟨r.regs, r.sp, r.pc, r.pstate⟩

def SpecialRegs.toSpecialRegisters (r : SpecialRegs) : Aarch64.SpecialRegisters :=
  ⟨r.spEl1, r.ttbr0El1, r.ttbr1El1, r.vbarEl1⟩

/-- A loop that collects values has the value of each round. -/
theorem forall_of_mapM {ε α β : Type} {f : α → Except ε β} {l : List α} {r : List β}
    (h : l.mapM f = .ok r) : List.Forall₂ (fun a b => f a = .ok b) l r := by
  induction l generalizing r with
  | nil =>
    obtain rfl := Except.ok.inj h
    exact .nil
  | cons a l ih =>
    rw [List.mapM_cons] at h
    cases ha : f a with
    | error e =>
      rw [ha] at h
      cases h
    | ok b =>
      rw [ha] at h
      cases hl : l.mapM f with
      | error e =>
        rw [hl] at h
        cases h
      | ok bs =>
        rw [hl] at h
        obtain rfl : b :: bs = r := Except.ok.inj h
        exact .cons ha (ih hl)

/-- Words in the place of the structure are its fields. -/
theorem dec_words (f : Fin 34 → U64) :
    UserPtRegs.layout.dec (Layout.u64.encList (List.ofFn f))
      = ⟨fun i => f (Fin.castAdd 3 i), f 31, f 32, f 33⟩ := by
  have hlast : (fun i : Fin 3 => f (Fin.natAdd 31 i)) = ![f 31, f 32, f 33] := by
    funext i
    fin_cases i <;> rfl
  have hwords : Layout.u64.encList (List.ofFn f)
      = UserPtRegs.layout.enc ⟨fun i => f (Fin.castAdd 3 i), f 31, f 32, f 33⟩ := by
    rw [Layout.encList, List.ofFn_add (n := 31) (m := 3) (f := f), hlast, List.flatMap_append]
    rfl
  rw [hwords, Layout.dec_enc]

/-- **Every register is read under its identifier.** -/
theorem getRegs_eq_ok {kvm : Ioctls} {fd : Fd} {r : UserPtRegs} (h : getRegs kvm fd = .ok r) :
    (∀ i : Fin 31, getOneReg kvm fd (coreRegId i) = .ok (r.regs i))
      ∧ getOneReg kvm fd (coreRegId 31) = .ok r.sp
      ∧ getOneReg kvm fd (coreRegId 32) = .ok r.pc
      ∧ getOneReg kvm fd (coreRegId 33) = .ok r.pstate := by
  rw [getRegs] at h
  cases hwords : (List.range 34).mapM fun i => getOneReg kvm fd (coreRegId i) with
  | error e =>
    rw [hwords] at h
    cases h
  | ok words =>
    rw [hwords] at h
    obtain rfl := Except.ok.inj h
    have hall := forall_of_mapM hwords
    have hlength : words.length = 34 := hall.length_eq.symm.trans (List.length_range)
    obtain ⟨n, f, rfl⟩ : ∃ n, ∃ f : Fin n → U64, words = List.ofFn f :=
      ⟨_, words.get, (List.ofFn_get words).symm⟩
    rw [List.length_ofFn] at hlength
    subst hlength
    have hreg : ∀ i : Fin 34, getOneReg kvm fd (coreRegId i) = .ok (f i) := fun i => by
      have hget := hall.get (i := i) (by simp) (by rw [List.length_ofFn]; exact i.isLt)
      simpa only [List.get_eq_getElem, List.getElem_range, List.getElem_ofFn] using hget
    rw [dec_words]
    exact ⟨fun i => hreg (Fin.castAdd 3 i), hreg 31, hreg 32, hreg 33⟩

theorem enc_userPtRegs (r : UserPtRegs) :
    UserPtRegs.layout.enc r = Aarch64.Registers.layout.enc r.toRegisters := rfl

theorem enc_specialRegs (r : SpecialRegs) :
    SpecialRegs.layout.enc r = Aarch64.SpecialRegisters.layout.enc r.toSpecialRegisters := rfl

/-- **The payload and the listener on `aarch64`.** -/
def payload (kvm : Ioctls) : Payload (UserPtRegs × SpecialRegs) Aarch64.Vcpu where
  readVcpu := readVcpu kvm
  format := {
    chunks := chunks
    sizes := [Aarch64.Registers.layout.size, Aarch64.SpecialRegisters.layout.size,
      Aarch64.OtherRegisters.layout.size]
    value := registerFiles Aarch64.Registers.layout Aarch64.SpecialRegisters.layout
      Aarch64.OtherRegisters.layout Aarch64.Vcpu.mk }
  decode vcpu := ⟨vcpu.1.toRegisters, vcpu.2.toSpecialRegisters, ⟨⟩⟩
  carries := registerFiles_carries (by decide) fun vcpu => by
    rw [chunks, enc_userPtRegs, enc_specialRegs]
    -- the third file has no bytes
    show _ = _ ++ (_ ++ [])
    simp

end Aarch64

end KvmPatch
