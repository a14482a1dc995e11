import Vminer.Dump
import Vminer.Vcpus

/-!
# Registers of `aarch64` by their names

The general registers of `aarch64` are named `x0` to `x30`. `register_by_name` takes the
number for one that counts from 1, with a register before the first that is always 0: a
name stands for the register before its own. It also takes every number that the standard
library reads, with a sign or leading zeros, and `x31`.

A name is right where none of this is seen (`registerByName_right_iff`).
-/

namespace Aarch64

/-- **The registers by their names.** -/
inductive IsRegister (regs : Registers) : String → U64 → Prop
  | x (i : Fin 31) : IsRegister regs (.ofList ('x' :: Nat.toDigits 10 i)) (regs.regs i)
  | pc : IsRegister regs "pc" regs.pc
  | sp : IsRegister regs "sp" regs.sp
  | pstate : IsRegister regs "pstate" regs.pstate

/-- **A register is read by its name**, and any other name is unknown. -/
def ReadsByName (read : Exec VcpuError U64) (regs : Registers) (name : String) : Prop :=
  (∀ v, read = .ok v ↔ IsRegister regs name v)
    ∧ ((∀ v, ¬ IsRegister regs name v) → read = Exec.fail .unknownRegister)

/-- **The names that are right**: a number up to 31 is read from none but the digits of
the number of a register that holds what the one before it does, and 0 for the first. -/
def NameIsRight (regs : Registers) (name : String) : Prop :=
  ∀ n k, name.toList = 'x' :: n → parseUsize n = some k → k ≤ 31 →
    ∃ i : Fin 31, n = Nat.toDigits 10 i ∧ (i = 0 → regs.regs i = 0)
      ∧ ∀ j : Fin 31, j.val + 1 = i.val → regs.regs i = regs.regs j

section Names

variable {regs : Registers} {name : String}

/-- The digits of a register are read as its number. -/
theorem parseUsize_toDigits : ∀ i : Fin 31, parseUsize (Nat.toDigits 10 i) = some i.val := by
  decide

/-- A name with a number is that of a general register. -/
theorem isRegister_x_iff {n : List Char} {v : U64} (hname : name.toList = 'x' :: n) :
    IsRegister regs name v ↔ ∃ i : Fin 31, n = Nat.toDigits 10 i ∧ regs.regs i = v := by
  obtain rfl : name = .ofList ('x' :: n) := by rw [← hname, String.ofList_toList]
  constructor
  · intro h
    generalize hs : String.ofList ('x' :: n) = s at h
    cases h with
    | x i =>
      obtain ⟨-, rfl⟩ := List.cons.inj (String.ofList_injective hs)
      exact ⟨i, rfl, rfl⟩
    | pc => exact absurd (congrArg String.toList hs) (by simp)
    | sp => exact absurd (congrArg String.toList hs) (by simp)
    | pstate => exact absurd (congrArg String.toList hs) (by simp)
  · rintro ⟨i, rfl, rfl⟩
    exact .x i

/-- The register before one, from 1 on. -/
def registerBefore (regs : Registers) (k : ℕ) : Option U64 :=
  if k = 0 then some 0
  else if h : k - 1 < 31 then some (regs.regs ⟨k - 1, h⟩) else none

theorem registerBefore_isSome_iff (regs : Registers) (k : ℕ) :
    (registerBefore regs k).isSome = true ↔ k ≤ 31 := by
  unfold registerBefore
  split
  · simp [*]
  · split <;> simp <;> omega

/-- What is before a general register: 0, or another one. -/
theorem registerBefore_eq_iff (i : Fin 31) :
    registerBefore regs i = some (regs.regs i) ↔ (i = 0 → regs.regs i = 0)
      ∧ ∀ j : Fin 31, j.val + 1 = i.val → regs.regs i = regs.regs j := by
  unfold registerBefore
  by_cases hi : i = 0
  · subst hi
    simp [eq_comm]
  · have hval : i.val ≠ 0 := fun h => hi (Fin.ext h)
    have hlt : i.val - 1 < 31 := by omega
    rw [if_neg hval, dif_pos hlt, Option.some.injEq]
    refine ⟨fun h => ⟨fun h0 => absurd h0 hi, fun j hj => ?_⟩,
      fun h => (h.2 ⟨i.val - 1, hlt⟩ ?_).symm⟩
    · rw [← h]
      exact congrArg regs.regs (Fin.ext (by simp; omega))
    · show i.val - 1 + 1 = i.val
      omega

/-- A name is read right if the registers are, as an option. -/
theorem readsByName_okOr_iff (found : Option U64) :
    ReadsByName (Exec.okOr found .unknownRegister) regs name
      ↔ ∀ v, found = some v ↔ IsRegister regs name v := by
  cases found with
  | none =>
    refine ⟨fun h v => ?_, fun h => ⟨fun v => ?_, fun _ => rfl⟩⟩
    · rw [← h.1 v]
      exact iff_of_false (fun h => nomatch h) (fun h => nomatch h)
    · rw [← h v]
      exact iff_of_false (fun h => nomatch h) (fun h => nomatch h)
  | some w =>
    have hok : ∀ v, (Exec.okOr (some w) VcpuError.unknownRegister : Exec VcpuError U64) = .ok v
        ↔ some w = some v :=
      fun v => ⟨fun h => congrArg some (Except.ok.inj h),
        fun h => congrArg Except.ok (Option.some.inj h)⟩
    refine ⟨fun h v => (hok v).symm.trans (h.1 v), fun h => ⟨fun v => (hok v).trans (h v), ?_⟩⟩
    exact fun hnone => absurd ((h w).mp rfl) (hnone w)

end Names

variable {V : Type} [HasVcpus V]

/-- **A name with a number** stands for what is before its register. -/
theorem registerByName_x {vcpus : V} {vcpu : VcpuId} {regs : Registers}
    (hregs : registers vcpus vcpu = .ok regs) {name : String} {n : List Char}
    (hname : name.toList = 'x' :: n) :
    registerByName vcpus vcpu name
      = Exec.okOr ((parseUsize n).bind (registerBefore regs)) .unknownRegister := by
  rw [registerByName, hregs, Exec.ok_bind, hname]
  rfl

/-- The other names. -/
def namedRegister (regs : Registers) (name : String) : Option U64 :=
  match name with
  | "pc" => some regs.pc
  | "sp" => some regs.sp
  | "pstate" => some regs.pstate
  | _ => none

/-- They are read from their own fields. -/
theorem registerByName_of_not_x {vcpus : V} {vcpu : VcpuId} {regs : Registers}
    (hregs : registers vcpus vcpu = .ok regs) {name : String}
    (hname : ∀ n, name.toList ≠ 'x' :: n) :
    registerByName vcpus vcpu name = Exec.okOr (namedRegister regs name) .unknownRegister := by
  rw [registerByName, hregs, Exec.ok_bind]
  refine congrArg (fun found => Exec.okOr found VcpuError.unknownRegister) ?_
  split
  · next n hn => exact absurd hn (hname n)
  · rfl

/-- And are right. -/
theorem namedRegister_eq_some_iff {regs : Registers} {name : String}
    (hname : ∀ n, name.toList ≠ 'x' :: n) (v : U64) :
    namedRegister regs name = some v ↔ IsRegister regs name v := by
  unfold namedRegister
  constructor
  · intro h
    split at h
    · exact Option.some.inj h ▸ .pc
    · exact Option.some.inj h ▸ .sp
    · exact Option.some.inj h ▸ .pstate
    · cases h
  · intro h
    cases h with
    | x i => exact absurd String.toList_ofList (hname _)
    | pc => rfl
    | sp => rfl
    | pstate => rfl

/-- **A register is read by its name** if and only if the name is right: for every name,
and every content of the registers, of which the pointers of a frame are `x29` and
`pc`. -/
theorem registerByName_right_iff (vcpus : V) (vcpu : VcpuId) (regs : Registers) (name : String)
    (hregs : registers vcpus vcpu = .ok regs) :
    (ReadsByName (registerByName vcpus vcpu name) regs name ↔ NameIsRight regs name)
      ∧ (∀ v, IsRegister regs "x29" v ↔ basePointer vcpus vcpu = .ok (some v))
      ∧ ∀ v, IsRegister regs "pc" v ↔ instructionPointer vcpus vcpu = .ok v := by
  have hx29 : ∀ v, IsRegister regs "x29" v ↔ basePointer vcpus vcpu = .ok (some v) := by
    intro v
    have hdigits : ∀ i : Fin 31, ['2', '9'] = Nat.toDigits 10 i ↔ i = 29 := by decide
    have hbase : basePointer vcpus vcpu = .ok (some (regs.regs 29)) := by
      rw [basePointer, hregs]
      rfl
    rw [isRegister_x_iff (n := ['2', '9']) (by simp), hbase]
    simp only [hdigits, exists_eq_left, Except.ok.injEq, Option.some.injEq]
  have hpc : ∀ v, IsRegister regs "pc" v ↔ instructionPointer vcpus vcpu = .ok v := by
    intro v
    rw [← namedRegister_eq_some_iff (by simp), instructionPointer, hregs]
    exact ⟨fun h => congrArg Except.ok (Option.some.inj h),
      fun h => congrArg some (Except.ok.inj h)⟩
  refine ⟨?_, hx29, hpc⟩
  by_cases hx : ∃ n, name.toList = 'x' :: n
  · obtain ⟨n, hname⟩ := hx
    rw [registerByName_x hregs hname, readsByName_okOr_iff]
    constructor
    · intro h n' k hname' hparse hle
      obtain rfl := (List.cons.inj (hname.symm.trans hname')).2
      obtain ⟨v, hv⟩ := Option.isSome_iff_exists.mp ((registerBefore_isSome_iff regs k).mpr hle)
      have hfound : (parseUsize n).bind (registerBefore regs) = some v := by rw [hparse]; exact hv
      obtain ⟨i, rfl, rfl⟩ := (isRegister_x_iff hname).mp ((h v).mp hfound)
      obtain rfl := Option.some.inj ((parseUsize_toDigits i).symm.trans hparse)
      exact ⟨i, rfl, (registerBefore_eq_iff i).mp hv⟩
    · intro h v
      rw [isRegister_x_iff hname, Option.bind_eq_some_iff]
      constructor
      · rintro ⟨k, hparse, hv⟩
        have hle := (registerBefore_isSome_iff regs k).mp (Option.isSome_of_mem hv)
        obtain ⟨i, rfl, hright⟩ := h n k hname hparse hle
        obtain rfl := Option.some.inj ((parseUsize_toDigits i).symm.trans hparse)
        rw [(registerBefore_eq_iff i).mpr hright] at hv
        exact ⟨i, rfl, Option.some.inj hv⟩
      · rintro ⟨i, rfl, rfl⟩
        refine ⟨i, parseUsize_toDigits i, ?_⟩
        obtain ⟨j, hj, hright⟩ := h _ i.val hname (parseUsize_toDigits i) (by omega)
        obtain rfl : i = j := Fin.ext (Option.some.inj
          ((parseUsize_toDigits i).symm.trans (hj ▸ parseUsize_toDigits j)))
        exact (registerBefore_eq_iff i).mpr hright
  · have hname : ∀ n, name.toList ≠ 'x' :: n := fun n hn => hx ⟨n, hn⟩
    rw [registerByName_of_not_x hregs hname, readsByName_okOr_iff]
    exact iff_of_true (namedRegister_eq_some_iff hname) fun n k hn => absurd hn (hname n)

/-! ## A register file -/

section Example

/-- A guest whose general registers hold their numbers. -/
def numbered : DumbDump RawMemory where
  vcpus := .aarch64 [⟨⟨fun i => BitVec.ofNat 64 i.val, 0x5000, 0x6000, 0⟩, ⟨0, 0, 0, 0⟩, ⟨⟩⟩]
  mem := ⟨[], [], RawMemory.new []⟩

/-- A guest in which two general registers each hold the same. -/
def paired : DumbDump RawMemory where
  vcpus := .aarch64 [⟨⟨fun i => BitVec.ofNat 64 (i.val / 2), 0x5000, 0x6000, 0⟩, ⟨0, 0, 0, 0⟩,
    ⟨⟩⟩]
  mem := ⟨[], [], RawMemory.new []⟩

/-- **The instruction pointer** is read by its name, and so is a general register that holds
what the one before it does. -/
theorem registerByName_right_pc_x7 :
    ReadsByName (registerByName numbered 0 "pc")
        ⟨fun i => BitVec.ofNat 64 i.val, 0x5000, 0x6000, 0⟩ "pc"
      ∧ ReadsByName (registerByName paired 0 "x7")
        ⟨fun i => BitVec.ofNat 64 (i.val / 2), 0x5000, 0x6000, 0⟩ "x7" := by
  constructor
  · refine (registerByName_right_iff numbered 0 _ "pc" rfl).1.mpr ?_
    intro n k hname
    exact absurd hname (by simp)
  · refine (registerByName_right_iff paired 0 _ "x7" rfl).1.mpr ?_
    intro n k hname _ _
    obtain rfl : n = ['7'] := (List.cons.inj hname).2.symm
    exact ⟨7, by decide, by decide, by decide⟩

/-- **`x29` is not the base pointer**, and `x31` and `x+5` are taken for
names. -/
theorem not_registerByName_right :
    registerByName numbered 0 "x29" = .ok 28 ∧ basePointer numbered 0 = .ok (some 29)
      ∧ registerByName numbered 0 "x31" = .ok 30 ∧ registerByName numbered 0 "x+5" = .ok 4
      ∧ ¬ ReadsByName (registerByName numbered 0 "x29")
        ⟨fun i => BitVec.ofNat 64 i.val, 0x5000, 0x6000, 0⟩ "x29" := by
  have hx29 : registerByName numbered 0 "x29" = .ok 28 := by decide +kernel
  refine ⟨hx29, by decide +kernel, by decide +kernel, by decide +kernel, fun h => ?_⟩
  have h28 := (h.1 28).mp hx29
  have hdigits : ∀ i : Fin 31, ['2', '9'] = Nat.toDigits 10 i → BitVec.ofNat 64 i.val ≠ 28 := by
    decide
  obtain ⟨i, hi, heq⟩ := (isRegister_x_iff (n := ['2', '9']) (by simp)).mp h28
  exact hdigits i hi heq

end Example

end Aarch64
