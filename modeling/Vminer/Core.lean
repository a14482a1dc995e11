import Vminer.Exec
import Vminer.Layout

/-!
# Addresses, masks and errors

The types every other part of the tool is written in: 64-bit physical and
virtual addresses and MMU entries, the bit masks that cut them into fields,
and the errors of each layer with the conversions between them.

An address is a 64-bit word. The lemmas of this file say what the masks and
the shifts of the source do to the number the word stands for – a mask is a
remainder, a shift a division, a bit range the part of the number between
two powers of two – and everything that reasons about addresses afterwards
does so with these numbers.
-/

/-! ## Words -/

/-- The literals of the small index types: four words of a table, sixteen registers of
the one architecture and thirty-one of the other. -/
instance neZero_four : NeZero 4 := ⟨by decide⟩

instance neZero_sixteen : NeZero 16 := ⟨by decide⟩

instance neZero_thirtyOne : NeZero 31 := ⟨by decide⟩

/-- A 64-bit machine word. -/
abbrev U64 : Type := BitVec 64

/-- A 32-bit machine word. -/
abbrev U32 : Type := BitVec 32

/-- `PhysicalAddress` -/
abbrev PhysicalAddress : Type := U64

/-- `VirtualAddress` -/
abbrev VirtualAddress : Type := U64

/-- `MmuEntry`: one entry of a translation table. -/
abbrev MmuEntry : Type := U64

/-- The layout of a 64-bit word. -/
def Layout.u64 : Layout U64 := Layout.word 64 8 (by norm_num)

/-- The layout of a 32-bit word. -/
def Layout.u32 : Layout U32 := Layout.word 32 4 (by norm_num)

/-- The layout of a 16-bit word. -/
def Layout.u16 : Layout (BitVec 16) := Layout.word 16 2 (by norm_num)

/-- The layout of a byte read as a word. -/
def Layout.u8 : Layout (BitVec 8) := Layout.word 8 1 (by norm_num)

/-! ## Masks -/

/-- `mask`: the `size` low bits. -/
def mask (size : ℕ) : U64 := ~~~(~~~(0 : U64) <<< size)

/-- `mask_range`: the bits from `lo` up to `hi`. -/
def maskRange (lo hi : ℕ) : U64 := mask (hi - lo) <<< lo

/-- `MmuEntry::take_bits` -/
def MmuEntry.takeBits (entry : MmuEntry) (lo hi : ℕ) : PhysicalAddress :=
  entry &&& maskRange lo hi

/-- `VirtualAddress::is_kernel`: the address is negative as a signed
number. -/
def VirtualAddress.isKernel (addr : VirtualAddress) : Bool := addr.msb

/-- `VirtualAddress::is_null` -/
def VirtualAddress.isNull (addr : VirtualAddress) : Bool := addr == 0

/-- The bits of a mask are the low ones. -/
theorem getLsbD_mask (n i : ℕ) :
    (mask n).getLsbD i = (decide (i < 64) && decide (i < n)) := by
  unfold mask
  simp only [BitVec.getLsbD_not, BitVec.getLsbD_shiftLeft]
  by_cases h : i < 64
  · have hsub : i - n < 64 := by omega
    simp [h, hsub]
  · simp [h]

/-- Masking with the low bits is a remainder. -/
theorem toNat_and_mask (a : U64) {n : ℕ} (hn : n ≤ 64) :
    (a &&& mask n).toNat = a.toNat % 2 ^ n := by
  have hmask : (mask n).toNat = 2 ^ n - 1 := by
    refine Nat.eq_of_testBit_eq (fun i => ?_)
    rw [← BitVec.getLsbD, getLsbD_mask, Nat.testBit_two_pow_sub_one]
    by_cases h : i < n
    · have h64 : i < 64 := lt_of_lt_of_le h hn
      simp [h, h64]
    · simp [h]
  rw [BitVec.toNat_and, hmask, Nat.and_two_pow_sub_one_eq_mod]

/-- A right shift is a division. -/
theorem toNat_shiftRight (a : U64) (n : ℕ) :
    (a >>> n).toNat = a.toNat / 2 ^ n := by
  rw [BitVec.toNat_ushiftRight, Nat.shiftRight_eq_div_pow]

/-- A single bit is a power of two. -/
theorem toNat_one_shiftLeft {n : ℕ} (hn : n < 64) :
    ((1 : U64) <<< n).toNat = 2 ^ n := by
  rw [BitVec.toNat_shiftLeft, Nat.shiftLeft_eq]
  exact (congrArg (· % 2 ^ 64) (Nat.one_mul _)).trans
    (Nat.mod_eq_of_lt (Nat.pow_lt_pow_right (by decide) hn))

/-- Clearing the low bits keeps the multiple of their range. -/
theorem toNat_and_not_mask (a : U64) {n : ℕ} (hn : n ≤ 64) :
    (a &&& ~~~ mask n).toNat = a.toNat / 2 ^ n * 2 ^ n := by
  have hdisj : (a &&& ~~~ mask n) &&& (a &&& mask n) = 0 := by
    refine BitVec.eq_of_getLsbD_eq (fun i hi => ?_)
    simp only [BitVec.getLsbD_and, BitVec.getLsbD_not, hi]
    cases a.getLsbD i <;> cases (mask n).getLsbD i <;> simp
  have hor : (a &&& ~~~ mask n) ||| (a &&& mask n) = a := by
    refine BitVec.eq_of_getLsbD_eq (fun i hi => ?_)
    simp only [BitVec.getLsbD_or, BitVec.getLsbD_and, BitVec.getLsbD_not, hi]
    cases a.getLsbD i <;> cases (mask n).getLsbD i <;> rfl
  have hsum : (a &&& ~~~ mask n).toNat + (a &&& mask n).toNat = a.toNat := by
    rw [← BitVec.toNat_add_of_and_eq_zero hdisj,
      BitVec.add_eq_or_of_and_eq_zero _ _ hdisj, hor]
  rw [toNat_and_mask a hn] at hsum
  have hdiv := Nat.div_add_mod' a.toNat (2 ^ n)
  omega

/-- A range of bits is the part of the number between two powers of two. -/
theorem toNat_takeBits (e : MmuEntry) {lo hi : ℕ} (hlo : lo ≤ hi)
    (hhi : hi ≤ 64) :
    (MmuEntry.takeBits e lo hi).toNat
      = e.toNat % 2 ^ hi / 2 ^ lo * 2 ^ lo := by
  have heq : MmuEntry.takeBits e lo hi = (e &&& mask hi) &&& ~~~ mask lo := by
    refine BitVec.eq_of_getLsbD_eq (fun i hi' => ?_)
    unfold MmuEntry.takeBits maskRange
    simp only [BitVec.getLsbD_and, BitVec.getLsbD_not, BitVec.getLsbD_shiftLeft,
      getLsbD_mask, hi', decide_true, Bool.true_and]
    by_cases h₁ : i < lo
    · simp [h₁]
    · have h₂ : i - lo < 64 := by omega
      have h₃ : (i - lo < hi - lo) ↔ i < hi := by omega
      simp [h₁, h₂, h₃]
  rw [heq, toNat_and_not_mask _ (hlo.trans hhi), toNat_and_mask _ hhi]

/-- A range of bits ends below its upper bound. -/
theorem takeBits_lt (e : MmuEntry) {lo hi : ℕ} (hlo : lo ≤ hi)
    (hhi : hi ≤ 64) : (MmuEntry.takeBits e lo hi).toNat < 2 ^ hi := by
  rw [toNat_takeBits e hlo hhi]
  exact lt_of_le_of_lt (Nat.div_mul_le_self _ _)
    (Nat.mod_lt _ (Nat.two_pow_pos hi))

/-- A range of bits is aligned to its lower bound. -/
theorem dvd_takeBits (e : MmuEntry) {lo hi : ℕ} (hlo : lo ≤ hi)
    (hhi : hi ≤ 64) : 2 ^ lo ∣ (MmuEntry.takeBits e lo hi).toNat := by
  rw [toNat_takeBits e hlo hhi]
  exact Dvd.intro_left _ rfl

/-! ## Pages

A page begins where the address has no part below the page size; both the
start of the page and the place in it can be taken of an address that has
been rounded down to a smaller page already. -/

/-- The first address of the 4 KiB page of an address. -/
def pageBase (addr : U64) : U64 := addr &&& ~~~ mask 12

theorem toNat_pageBase (addr : U64) :
    (pageBase addr).toNat = addr.toNat / 4096 * 4096 :=
  toNat_and_not_mask addr (by decide)

/-- Inside a page all addresses have the same one. -/
theorem pageBase_add {addr : U64} {i : ℕ} (hi : addr.toNat % 4096 + i < 4096) :
    pageBase (addr + BitVec.ofNat 64 i) = pageBase addr := by
  have hlt := addr.isLt
  have hadd : (addr + BitVec.ofNat 64 i).toNat = addr.toNat + i :=
    toNat_add_ofNat_of_lt (by omega)
  refine BitVec.eq_of_toNat_eq ?_
  rw [toNat_pageBase, toNat_pageBase, hadd]
  omega

/-- Rounding down to a smaller page first does not change the page. -/
theorem div_mul_div_of_dvd {d n : ℕ} (hd : 0 < d) (h : d ∣ n) (a : ℕ) :
    a / d * d / n = a / n := by
  obtain ⟨k, rfl⟩ := h
  rw [← Nat.div_div_eq_div_mul, Nat.mul_div_cancel _ hd,
    Nat.div_div_eq_div_mul]

/-- The place in a page is that of the smaller page plus the place in it. -/
theorem mod_eq_add_of_dvd {d n : ℕ} (h : d ∣ n) (a : ℕ) :
    a % n = a / d * d % n + a % d := by
  obtain ⟨k, rfl⟩ := h
  rw [Nat.mul_comm (a / d) d, Nat.mul_mod_mul_left, Nat.mod_mul, Nat.add_comm]

/-! ## Errors -/

/-- `std::io::Error`, as far as the tool tells its kinds apart. -/
inductive IoError where
  /-- The file or stream ended too early. -/
  | unexpectedEof
  | unsupported
  /-- What was read is not a string. -/
  | invalidData
  /-- An error code of the operating system. -/
  | os (code : ℕ)
deriving DecidableEq, Repr

/-- `MemoryAccessError` -/
inductive MemoryAccessError where
  | outOfBounds
  | unsupported
  | io (e : IoError)
deriving DecidableEq, Repr

/-- `From<MemoryAccessError> for std::io::Error` -/
def MemoryAccessError.toIo : MemoryAccessError → IoError
  | .outOfBounds => .unexpectedEof
  | .unsupported => .unsupported
  | .io e => e

/-- `TranslationError` -/
inductive TranslationError where
  | memory (e : MemoryAccessError)
  /-- The walk met an entry that is not valid. -/
  | invalid (entry : U64)
deriving DecidableEq, Repr

/-- `VcpuError` -/
inductive VcpuError where
  | unsupported
  | invalidId
  | badArchitecture
  | unknownRegister
  | io (e : IoError)
deriving DecidableEq, Repr

/-- `VmError`, through its private `Repr`. -/
inductive VmError where
  | memory (e : MemoryAccessError)
  | vcpu (e : VcpuError)
  | invalidPage (entry : U64)
  | unsupportedArchitecture
  | unsupported
  | unimplemented
  | missingModule (name : String)
  | missingSymbol (sym : String)
  | missingField (field typ : String)
  | nullPtr
  | io (e : IoError)
  /-- An error of other code: what it says, and what its causes say. -/
  | other (msg : String) (sources : List String)
  | context (msg : String) (cause : Option VmError)
deriving Repr

/-- `VmError::new` of a string, which is also how an option gets a `context`. -/
def VmError.new (msg : String) : VmError := .other msg []

/-- `From<&str> for VmError` -/
def VmError.ofStr (msg : String) : VmError := .context msg none

/-- `From<TranslationError> for VmError` -/
def TranslationError.toVm : TranslationError → VmError
  | .memory e => .memory e
  | .invalid entry => .invalidPage entry

/-- `ResultExt::context` on a result. -/
def withContext {α : Type} (msg : String) (x : Exec VmError α) :
    Exec VmError α :=
  Exec.mapErr (fun e => VmError.context msg (some e)) x
