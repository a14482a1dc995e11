import Vminer.RuntimeBackend
import Vminer.WindowsMemory

/-!
# Pages in transition

An entry in transition still designates the frame of its page. Newer kernels
store it *swizzled*: unless a bit of the entry says otherwise, the highest
physical bit the machine implements may be set without being part of the frame,
and `unswizzle` clears it.

A valid entry has its frame in the bits 12 to 47, while `transition_page` keeps
the bits 12 to 39 only. What an entry in transition carries is read back exactly
for the frames below 2^40 (`namesFrame_iff`).
-/

/-- The unswizzle mask of `Windows::build`, from the number of physical bits that
the machine implements. -/
def Windows.unswizzleMaskOf (bits : U64) : Exec VmError U64 :=
  if bits = 0 then return ~~~ 0
  else if bits.toNat - 1 < 64 then return ~~~ ((1 : U64) <<< (bits.toNat - 1))
  else Exec.panicked

/-- **An entry in transition that carries a frame**, for a machine of `bits`
physical bits. -/
structure CarriesFrame (bits : ℕ) (frame : PhysicalAddress) (entry : MmPte) : Prop where
  /-- The entry is not valid. -/
  not_valid : entry.isValid = false
  /-- It is not an entry of the software. -/
  not_software : entry &&& MmPte.softwareBit = 0
  /-- It is in transition. -/
  transition : entry &&& MmPte.transitionBit ≠ 0
  /-- The frame is stored as it is, or without its highest bit, which is then
  zero and may be anything in the entry. -/
  frame : (entry &&& MmPte.swizzleBit ≠ 0 ∧ entry &&& maskRange 12 48 = frame)
    ∨ (entry &&& MmPte.swizzleBit = 0 ∧ frame &&& ((1 : U64) <<< (bits - 1)) = 0
      ∧ (entry &&& maskRange 12 48 = frame
        ∨ entry &&& maskRange 12 48 = frame ||| ((1 : U64) <<< (bits - 1))))

/-! ## Masks -/

/-- Clearing a bit keeps the others. -/
theorem not_one_shiftLeft_and_one_shiftLeft {i k : ℕ} (h : i ≠ k) :
    ~~~ ((1 : U64) <<< k) &&& ((1 : U64) <<< i) = (1 : U64) <<< i := by
  ext j hj
  simp only [BitVec.getElem_and, BitVec.getElem_not, BitVec.getElem_shiftLeft]
  by_cases hji : j = i
  · subst hji
    have : j < k ∨ ¬ j - k = 0 := by omega
    rcases this with hlt | hne
    · simp [hlt]
    · simp [hne]
  · have : j < i ∨ ¬ j - i = 0 := by omega
    rcases this with hlt | hne
    · simp [hlt]
    · simp [hne]

/-- A word without a bit does not change when the bit is cleared. -/
theorem and_not_of_and_eq_zero {w : ℕ} {a b : BitVec w} (h : a &&& b = 0) : a &&& ~~~ b = a := by
  ext i hi
  have hbit : (a &&& b)[i] = (0 : BitVec w)[i] := by rw [h]
  simp only [BitVec.getElem_and, BitVec.getElem_not]
  cases ha : a[i] with
  | false => simp
  | true => simpa [ha] using hbit

/-- Nor when it is set before. -/
theorem or_and_not_of_and_eq_zero {w : ℕ} {a b : BitVec w} (h : a &&& b = 0) :
    (a ||| b) &&& ~~~ b = a := by
  rw [BitVec.and_or_distrib_right, and_not_of_and_eq_zero h]
  ext i hi
  simp

/-- A frame has its bits in every range that is wider. -/
theorem and_maskRange_of_le {frame : PhysicalAddress} {bits hi : ℕ} (h12 : 12 ≤ bits)
    (h : frame &&& maskRange 12 bits = frame) (hle : bits ≤ hi) (hhi : hi ≤ 64) :
    frame &&& maskRange 12 hi = frame := by
  have hlt : frame.toNat < 2 ^ hi := by
    have := takeBits_lt frame h12 (hle.trans hhi)
    rw [MmuEntry.takeBits, h] at this
    exact this.trans_le (Nat.pow_le_pow_right (by decide) hle)
  have hdvd : 2 ^ 12 ∣ frame.toNat := by
    have := dvd_takeBits frame h12 (hle.trans hhi)
    rwa [MmuEntry.takeBits, h] at this
  have hnat := toNat_takeBits frame (h12.trans hle) hhi
  rw [Nat.mod_eq_of_lt hlt, Nat.div_mul_cancel hdvd] at hnat
  exact BitVec.toNat_inj.mp hnat

/-- **The frame that `transition_page` keeps** is the whole one exactly below
2^40. -/
theorem and_maskRange_eq_iff {frame : PhysicalAddress} (h : frame &&& maskRange 12 48 = frame) :
    frame &&& maskRange 12 40 = frame ↔ frame.toNat < 2 ^ 40 := by
  have h48 : frame.toNat = frame.toNat % 2 ^ 48 / 2 ^ 12 * 2 ^ 12 := by
    have := toNat_takeBits frame (show 12 ≤ 48 by decide) (by decide)
    rwa [MmuEntry.takeBits, h] at this
  have h40 := toNat_takeBits frame (show 12 ≤ 40 by decide) (by decide)
  rw [← BitVec.toNat_inj, show (frame &&& maskRange 12 40).toNat = _ from h40]
  omega

/-! ## What an entry in transition is read as -/

section Unswizzle

variable {bits : ℕ} {frame : PhysicalAddress} {entry : MmPte}

/-- The mask clears the highest physical bit. -/
theorem Windows.unswizzleMaskOf_eq (h13 : 13 ≤ bits) (h48 : bits ≤ 48) :
    Windows.unswizzleMaskOf (BitVec.ofNat 64 bits) = .ok (~~~ ((1 : U64) <<< (bits - 1))) := by
  have hnat : (BitVec.ofNat 64 bits).toNat = bits := by
    rw [BitVec.toNat_ofNat]
    exact Nat.mod_eq_of_lt (by omega)
  have hne : ¬ BitVec.ofNat 64 bits = 0 := by
    intro h0
    rw [h0] at hnat
    simp at hnat
    omega
  rw [unswizzleMaskOf, if_neg hne, hnat, if_pos (by omega)]
  rfl

/-- The flags of an entry lie below the frame, so that no mask of `unswizzle`
touches them. -/
theorem flag_and_not (h13 : 13 ≤ bits) {i : ℕ} (hi : i < 12) :
    entry &&& ~~~ ((1 : U64) <<< (bits - 1)) &&& ((1 : U64) <<< i)
      = entry &&& ((1 : U64) <<< i) := by
  rw [BitVec.and_assoc, not_one_shiftLeft_and_one_shiftLeft (by omega)]

variable {B : Type} {windows : Windows B}

/-- **Unswizzling recovers the frame.** -/
theorem CarriesFrame.unswizzle (h : CarriesFrame bits frame entry)
    (hmask : windows.unswizzleMask = ~~~ ((1 : U64) <<< (bits - 1))) :
    windows.unswizzle entry &&& maskRange 12 48 = frame := by
  unfold Windows.unswizzle
  rcases h.frame with ⟨hswizzle, hframe⟩ | ⟨hswizzle, hbit, hframe⟩
  · rw [if_neg hswizzle, hframe]
  · rw [if_pos hswizzle, hmask, BitVec.and_assoc, BitVec.and_comm (~~~ _), ← BitVec.and_assoc]
    rcases hframe with hframe | hframe
    · rw [hframe, and_not_of_and_eq_zero hbit]
    · rw [hframe, or_and_not_of_and_eq_zero hbit]

/-- So `transition_page` keeps the low bits of the frame. -/
theorem CarriesFrame.transitionPage (h : CarriesFrame bits frame entry)
    (hmask : windows.unswizzleMask = ~~~ ((1 : U64) <<< (bits - 1))) :
    MmPte.transitionPage (windows.unswizzle entry) = frame &&& maskRange 12 40 := by
  rw [← h.unswizzle hmask, BitVec.and_assoc]
  rfl

/-- **It is still in transition.** -/
theorem CarriesFrame.classify (h : CarriesFrame bits frame entry) (h13 : 13 ≤ bits)
    (hmask : windows.unswizzleMask = ~~~ ((1 : U64) <<< (bits - 1))) :
    MmPte.classify (windows.unswizzle entry) = .Transition := by
  have hflag : ∀ i < 12, windows.unswizzle entry &&& ((1 : U64) <<< i)
      = entry &&& ((1 : U64) <<< i) := by
    intro i hi
    unfold Windows.unswizzle
    split
    · rw [hmask, flag_and_not h13 hi]
    · rfl
  have hsoftware : windows.unswizzle entry &&& MmPte.softwareBit = 0 :=
    (hflag 10 (by decide)).trans h.not_software
  have htransition : windows.unswizzle entry &&& MmPte.transitionBit ≠ 0 := by
    rw [show windows.unswizzle entry &&& MmPte.transitionBit = _ from hflag 11 (by decide)]
    exact h.transition
  have hne : windows.unswizzle entry ≠ 0 := by
    intro h0
    rw [h0] at htransition
    exact htransition (BitVec.zero_and)
  unfold MmPte.classify
  rw [if_neg (not_not.mpr hsoftware), if_neg hne, if_pos htransition]

end Unswizzle

section Read

variable {B : Type} [Memory B] (windows : Windows B) (frame : PhysicalAddress)
  (addr : VirtualAddress) (len : ℕ)

/-- **The bytes of an address in a frame.** -/
def Windows.readFrame : Exec TranslationError (List UInt8) :=
  Exec.mapErr TranslationError.memory
    (Memory.readPhysical windows.backend (frame + (addr &&& mask 12)) len)

/-- They are what a valid entry is read as. -/
theorem Windows.readPrototypePte_of_valid {entry : MmPte} (hvalid : entry.isValid = true)
    (hframe : entry &&& maskRange 12 48 = frame) :
    windows.readPrototypePte addr len entry = windows.readFrame frame addr len := by
  unfold readPrototypePte
  dsimp only
  rw [if_pos hvalid, checked_pageOffset entry (by decide) (show 48 ≤ addrBits from le_rfl),
    Exec.ok_bind, hframe]
  rfl

variable [HasVcpus B] {windows frame addr len} {bits : ℕ} {entry : MmPte}

omit [HasVcpus B] in
/-- **A prototype entry in transition** is read in the frame that
`transition_page` keeps. -/
theorem CarriesFrame.readPrototypePte (h : CarriesFrame bits frame entry) (h13 : 13 ≤ bits)
    (hmask : windows.unswizzleMask = ~~~ ((1 : U64) <<< (bits - 1))) :
    windows.readPrototypePte addr len entry
      = windows.readFrame (frame &&& maskRange 12 40) addr len := by
  unfold Windows.readPrototypePte
  dsimp only
  rw [if_neg (by rw [h.not_valid]; decide), h.classify h13 hmask]
  dsimp only
  rw [MmPte.transitionPage, checked_pageOffset _ (by decide) (show 40 ≤ addrBits by decide),
    Exec.ok_bind, ← MmPte.transitionPage, h.transitionPage hmask]
  rfl

/-- **So is an entry in transition that the walk stops at.** -/
theorem CarriesFrame.readVirtualMemoryRaw (h : CarriesFrame bits frame entry) (h13 : 13 ≤ bits)
    (hmask : windows.unswizzleMask = ~~~ ((1 : U64) <<< (bits - 1)))
    {mmuAddr : PhysicalAddress} {shift : ℕ}
    (hstop : Backend.stopsAt windows.backend mmuAddr addr = some (shift, entry)) (fuel : ℕ)
    (proc : Option Os.Process) :
    windows.readVirtualMemoryRaw fuel mmuAddr addr len proc
      = windows.readFrame (frame &&& maskRange 12 40) addr len := by
  unfold Windows.readVirtualMemoryRaw Windows.readVirtualMemoryRawWith
  rw [Backend.readVirtualMemory_of_stop hstop]
  simp only [Exec.fail]
  rw [h.classify h13 hmask]
  dsimp only
  rw [MmPte.transitionPage, checked_pageOffset _ (by decide) (show 40 ≤ addrBits by decide),
    Exec.ok_bind, ← MmPte.transitionPage, h.transitionPage hmask]
  rfl

end Read

/-! ## Which frames are read back -/

/-- **An entry names its frame**: in any guest on a machine of `bits` physical bits,
the bytes of an address are read in the frame, through a prototype entry and where
the walk of the tables stops at the last level. -/
def NamesFrame (bits : ℕ) (frame : PhysicalAddress) (entry : MmPte) (addr : VirtualAddress)
    (len : ℕ) : Prop :=
  ∀ (B : Type) [Memory B] [HasVcpus B] (windows : Windows B),
    Windows.unswizzleMaskOf (BitVec.ofNat 64 bits) = .ok windows.unswizzleMask →
    windows.readPrototypePte addr len entry = windows.readFrame frame addr len
    ∧ ∀ mmuAddr, Backend.stopsAt windows.backend mmuAddr addr = some (12, entry) →
      ∀ fuel proc,
        windows.readVirtualMemoryRaw fuel mmuAddr addr len proc
          = windows.readFrame frame addr len

/-- A guest whose memory can only be read at one address. -/
def Windows.readableAt (unswizzleMask : U64) (page : PhysicalAddress) :
    Windows X86_64Backend where
  backend :=
    { X86_64Backend.namedOnly with
      readPhysicalMemory := some fun addr size =>
        (if addr = page then 0 else -1, Vector.replicate size 0) }
  kpgd := 0
  baseAddr := 0
  layouts := fun _ => none
  psLoadedModuleList := 0
  unswizzleMask := unswizzleMask

/-- It is read there and nowhere else. -/
theorem Windows.readFrame_readableAt_eq_iff (unswizzleMask : U64) (frame frame' : PhysicalAddress)
    (addr : VirtualAddress) (len : ℕ) :
    (readableAt unswizzleMask (frame + (addr &&& mask 12))).readFrame frame' addr len
        = (readableAt unswizzleMask (frame + (addr &&& mask 12))).readFrame frame addr len
      ↔ frame' = frame := by
  constructor
  · intro h
    by_contra hne
    have hpage : ¬ frame' + (addr &&& mask 12) = frame + (addr &&& mask 12) :=
      fun heq => hne (add_right_cancel heq)
    unfold readFrame at h
    simp only [Memory.readPhysical, X86_64Backend.readPhysical, readableAt, hpage,
      X86_64Backend.filled] at h
    cases h
  · rintro rfl
    rfl

/-- **Entries in transition name their frames exactly below 2^40.** -/
theorem namesFrame_iff {bits : ℕ} (h13 : 13 ≤ bits) (h48 : bits ≤ 48) {frame : PhysicalAddress}
    (hframe : frame &&& maskRange 12 bits = frame) {entry : MmPte}
    (hentry : CarriesFrame bits frame entry) (addr : VirtualAddress) (len : ℕ) :
    NamesFrame bits frame entry addr len ↔ frame.toNat < 2 ^ 40 := by
  rw [← and_maskRange_eq_iff (and_maskRange_of_le (by omega) hframe h48 (by decide))]
  constructor
  · intro h
    -- in a memory that only holds the page of the frame
    have hmask := Windows.unswizzleMaskOf_eq h13 h48
    obtain ⟨hread, -⟩ := h X86_64Backend
      (Windows.readableAt (~~~ ((1 : U64) <<< (bits - 1))) (frame + (addr &&& mask 12))) hmask
    rw [hentry.readPrototypePte h13 rfl] at hread
    exact (Windows.readFrame_readableAt_eq_iff _ _ _ _ _).mp hread
  · intro hkept B _ _ windows hmask
    rw [Windows.unswizzleMaskOf_eq h13 h48] at hmask
    have hmask := (Except.ok.inj hmask).symm
    refine ⟨?_, fun mmuAddr hstop fuel proc => ?_⟩
    · rw [hentry.readPrototypePte h13 hmask, hkept]
    · rw [hentry.readVirtualMemoryRaw h13 hmask hstop, hkept]

/-- A frame below 2^40, stored with the highest physical bit set. -/
theorem namesFrame_swizzled : NamesFrame 40 0x1000 0x8000001800 0 2 := by
  refine (namesFrame_iff (by decide) (by decide) (by decide) ?_ 0 2).mpr (by decide)
  exact
    { not_valid := by decide
      not_software := by decide
      transition := by decide
      frame := Or.inr ⟨by decide, by decide, Or.inr (by decide)⟩ }

/-- A guest of four entries, each a level of the tables: the last one is in transition,
with the frame 2^40. -/
def highFrameTable : Windows (DumbDump RawMemory) where
  backend := {
    vcpus := .x86_64 []
    mem := ⟨[⟨0, 32⟩], [0],
      RawMemory.new [1, 0, 0, 0, 0, 0, 0, 0, 1, 0, 0, 0, 0, 0, 0, 0,
        1, 0, 0, 0, 0, 0, 0, 0, 0x10, 8, 0, 0, 0, 1, 0, 0]⟩ }
  kpgd := 0
  baseAddr := 0
  layouts := fun _ => none
  psLoadedModuleList := 0
  unswizzleMask := ~~~ ((1 : U64) <<< 47)

/-- **The frame 2^40 is read as the frame 0**, on both ways. -/
theorem not_namesFrame_highFrame :
    CarriesFrame 48 0x10000000000 0x10000000810
      ∧ Backend.stopsAt highFrameTable.backend 0 0x40403000 = some (12, 0x10000000810)
      ∧ highFrameTable.readVirtualMemoryRaw 0 0 0x40403000 2 none = .ok [1, 0]
      ∧ highFrameTable.readPrototypePte 0x40403000 2 0x10000000810 = .ok [1, 0]
      ∧ highFrameTable.readFrame 0x10000000000 0x40403000 2
        = Exec.fail (.memory .outOfBounds)
      ∧ ¬ NamesFrame 48 0x10000000000 0x10000000810 0x40403000 2 := by
  have hproto : highFrameTable.readPrototypePte 0x40403000 2 0x10000000810 = .ok [1, 0] := by
    decide
  have hframe : highFrameTable.readFrame 0x10000000000 0x40403000 2
      = Exec.fail (.memory .outOfBounds) := by
    decide
  refine ⟨?_, by decide, by decide, hproto, hframe, fun h => ?_⟩
  · exact
      { not_valid := by decide
        not_software := by decide
        transition := by decide
        frame := Or.inl ⟨by decide, by decide⟩ }
  · obtain ⟨hread, -⟩ := h _ highFrameTable (by decide)
    rw [hproto, hframe] at hread
    cases hread
