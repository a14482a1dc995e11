import Vminer.PrologMachine
import Vminer.UnwindParents

/-!
# The entries of a prolog

An entry of the exception directory points to a header, the unwind codes of the function and, if
its parent describes the rest of the prolog, the entry of the parent behind them. `UnwindInfo` is
this record with the unwind codes as the format has them, and `UnwindInfo.bytes` its bytes.

The format pads an odd number of slots with one more. `parse_function` does not skip it, so it
reads back what has been written but the parent of such an entry, which it reads two bytes before
its place (`UnwindData.parseFunction_of_holds`, `UnwindInfo.readMother_of_odd`). Going through the
codes gives each of them in turn (`UnwindInfo.items_iterCodes`).
-/

/-! ## The format -/

namespace UnwindCode

/-- The number of 16-bit slots of a code. -/
def slots : UnwindCode → ℕ
  | pushNonvol _ => 1
  | allocLarge _ => 2
  | allocHuge _ => 3
  | allocSmall _ => 1
  | setFpReg _ => 1
  | saveNonvol _ _ => 2
  | saveNonvolFar _ _ => 3
  | epilog _ _ => 2
  | saveXmm128 _ _ => 2
  | saveXmm128Far _ _ => 3
  | pushMachFrame _ => 1

/-- A slot is two bytes. -/
theorem length_bytes (offset : BitVec 8) (code : UnwindCode) :
    (code.bytes offset).length = 2 * code.slots := by
  have h8 : ∀ x, (Layout.u8.enc x).length = 1 := Layout.u8.length_enc
  have h16 : ∀ x, (Layout.u16.enc x).length = 2 := Layout.u16.length_enc
  have h32 : ∀ x, (Layout.u32.enc x).length = 4 := Layout.u32.length_enc
  rw [bytes, List.length_append, h8]
  cases code <;> simp only [tail, slots, List.length_append, h8, h16, h32]

end UnwindCode

/-- **Codes come back one by one** from their bytes, and then whatever is behind them. -/
theorem UnwindOpIterator.items_append {version : BitVec 8} {codes : List (BitVec 8 × UnwindCode)}
    (h : ∀ code ∈ codes, code.2.InVersion version) (rest : List UInt8) :
    (UnwindOpIterator.mk version ((codes.flatMap fun code => code.2.bytes code.1) ++ rest)).items
      = (codes.map fun code => some (code.1, code.2.op))
        ++ (UnwindOpIterator.mk version rest).items := by
  induction codes with
  | nil => rfl
  | cons code codes ih =>
    have hnext := next_bytes (h code List.mem_cons_self) code.1
      ((codes.flatMap fun code => code.2.bytes code.1) ++ rest)
    rw [List.flatMap_cons, List.append_assoc, items_of_next_some hnext, List.map_cons,
      ih fun code hcode => h code (List.mem_cons_of_mem _ hcode)]
    rfl

/-- If nothing is, these are all. -/
theorem UnwindOpIterator.items_bytes {version : BitVec 8} {codes : List (BitVec 8 × UnwindCode)}
    (h : ∀ code ∈ codes, code.2.InVersion version) :
    (UnwindOpIterator.mk version (codes.flatMap fun code => code.2.bytes code.1)).items
      = codes.map fun code => some (code.1, code.2.op) := by
  have happend := items_append h []
  rwa [List.append_nil, items_of_next_none (next_nil version), List.append_nil] at happend

/-- The bytes of a word are those of its halves. -/
theorem leBytes_halves (x : ℕ) : leBytes 4 x = leBytes 2 x ++ leBytes 2 (x / 2 ^ 16) := by
  simp [leBytes, Nat.div_div_eq_div_mul]

/-- A word of two halves, the low one first. -/
theorem leWord_halves (lo hi : ℕ) :
    leWord 32 (leBytes 2 lo ++ leBytes 2 hi) = BitVec.ofNat 16 hi ++ BitVec.ofNat 16 lo := by
  apply BitVec.eq_of_toNat_eq
  have hlo : lo % 2 ^ 16 < 2 ^ 16 := Nat.mod_lt _ (by decide)
  rw [BitVec.toNat_append, BitVec.toNat_ofNat, BitVec.toNat_ofNat, leWord, BitVec.toNat_ofNat,
    ← Nat.shiftLeft_add_eq_or_of_lt hlo, leNat, List.map_append, Nat.ofDigits_append,
    ← leNat, ← leNat, leNat_leBytes, leNat_leBytes, List.length_map, length_leBytes,
    Nat.shiftLeft_eq]
  omega

/-- **What an entry points to**: a part of a prolog, its last instruction first, each with the
offset behind it. If a frame register is declared, it is `rbp`, at an offset in units of 16.
Behind an odd number of slots there is one that is not used. -/
structure UnwindInfo where
  versionFlags : BitVec 8
  prologSize : BitVec 8
  frame : Option (Fin 16)
  codes : List (BitVec 8 × UnwindCode)
  unused : BitVec 16
  mother : Option RuntimeFunction
  isVersion : 1 ≤ versionFlags &&& 0x7 ∧ versionFlags &&& 0x7 ≤ 2
  isChained : versionFlags &&& 0x20 ≠ 0 ↔ mother.isSome = true
  inVersion : ∀ code ∈ codes, code.2.InVersion (versionFlags &&& 0x7)
  slots_lt : (codes.map fun code => code.2.slots).sum < 2 ^ 8

namespace UnwindInfo

variable (info : UnwindInfo)

/-- The number of slots of the codes. -/
def slots : ℕ := (info.codes.map fun code => code.2.slots).sum

/-- The frame register and its offset. -/
def frameInfos : BitVec 8 :=
  match info.frame with
  | none => 0
  | some offset => UnwindCode.nibbles 5 offset

/-- The frame offset, in bytes. -/
def frameRegisterOffset : Option (BitVec 8) :=
  info.frame.map fun offset => BitVec.ofNat 8 (16 * offset)

/-- The bytes of the codes. -/
def codeBytes : List UInt8 := info.codes.flatMap fun code => code.2.bytes code.1

/-- Whether the codes fill an even number of slots. -/
def IsEven : Prop := info.slots % 2 = 0

instance : Decidable info.IsEven := inferInstanceAs (Decidable (_ = _))

/-- The bytes of the slot that an odd number is padded with. -/
def padding : List UInt8 := if info.IsEven then [] else Layout.u16.enc info.unused

/-- What is behind the codes: the padding, and the parent. -/
def behind : List UInt8 := info.padding ++ info.mother.toList.flatMap RuntimeFunction.layout.enc

/-- **The bytes of an entry.** -/
def bytes : List UInt8 :=
  Layout.u8.enc info.versionFlags ++ (Layout.u8.enc info.prologSize
    ++ (Layout.u8.enc (BitVec.ofNat 8 info.slots) ++ (Layout.u8.enc info.frameInfos
    ++ (info.codeBytes ++ info.behind))))

/-- **The parent that is read**: what is directly behind the codes. -/
def readMother : Option RuntimeFunction :=
  info.mother.map fun mother => RuntimeFunction.layout.dec
    ((info.padding ++ RuntimeFunction.layout.enc mother).take RuntimeFunction.layout.size)

/-- What is parsed. -/
def entry : FunctionEntry where
  mother := info.readMother
  version := info.versionFlags &&& 0x7
  frameRegisterOffset := info.frameRegisterOffset
  unwindCodes := info.codeBytes

/-- The operations of the part, the last one first. -/
def ops : List UnwindOp := info.codes.map fun code => code.2.op

theorem length_codeBytes : info.codeBytes.length = 2 * info.slots := by
  unfold codeBytes slots
  induction info.codes with
  | nil => rfl
  | cons code codes ih =>
    rw [List.flatMap_cons, List.length_append, ih, UnwindCode.length_bytes, List.map_cons,
      List.sum_cons, Nat.mul_add]

/-- The register is `rbp`, if there is one, and its offset the high nibble. -/
theorem frameInfos_spec :
    (if info.frameInfos &&& 0x0f ≠ 0 then some (info.frameInfos &&& 0xf0) else none)
      = info.frameRegisterOffset := by
  unfold frameInfos frameRegisterOffset
  cases info.frame with
  | none => rfl
  | some offset =>
    revert offset
    decide

/-- **Behind an even number of slots the parent is read** as it is. -/
theorem readMother_of_even (h : info.IsEven) : info.readMother = info.mother := by
  unfold readMother padding
  rw [if_pos h]
  cases info.mother with
  | none => rfl
  | some mother =>
    have hlen : (RuntimeFunction.layout.enc mother).length = RuntimeFunction.layout.size :=
      RuntimeFunction.layout.length_enc mother
    rw [Option.map_some, List.nil_append, ← hlen, List.take_length, RuntimeFunction.layout.dec_enc]

/-- What is two bytes before a parent's record: each of the fields begins with the end of what is
before it. -/
def misread (mother : RuntimeFunction) : RuntimeFunction where
  start := mother.start.extractLsb' 0 16 ++ info.unused
  stop := mother.stop.extractLsb' 0 16 ++ mother.start.extractLsb' 16 16
  ptr := mother.ptr.extractLsb' 0 16 ++ mother.stop.extractLsb' 16 16

/-- **Behind an odd number of slots the parent is read two bytes early.** -/
theorem readMother_of_odd (h : ¬ info.IsEven) :
    info.readMother = info.mother.map info.misread := by
  unfold readMother padding
  rw [if_neg h]
  refine congrArg (Option.map · info.mother) (funext fun mother => ?_)
  have hbytes : (Layout.u16.enc info.unused ++ RuntimeFunction.layout.enc mother).take
        RuntimeFunction.layout.size
      = (leBytes 2 info.unused.toNat ++ leBytes 2 mother.start.toNat)
        ++ ((leBytes 2 (mother.start.toNat / 2 ^ 16) ++ leBytes 2 mother.stop.toNat)
        ++ (leBytes 2 (mother.stop.toNat / 2 ^ 16) ++ leBytes 2 mother.ptr.toNat)) := by
    show (leBytes 2 info.unused.toNat ++ (leBytes 4 mother.start.toNat
      ++ (leBytes 4 mother.stop.toNat ++ leBytes 4 mother.ptr.toNat))).take 12 = _
    rw [leBytes_halves, leBytes_halves, leBytes_halves]
    rfl
  rw [hbytes]
  show RuntimeFunction.mk (leWord 32 (leBytes 2 info.unused.toNat ++ leBytes 2 mother.start.toNat))
    (leWord 32 (leBytes 2 (mother.start.toNat / 2 ^ 16) ++ leBytes 2 mother.stop.toNat))
    (leWord 32 (leBytes 2 (mother.stop.toNat / 2 ^ 16) ++ leBytes 2 mother.ptr.toNat)) = _
  rw [leWord_halves, leWord_halves, leWord_halves]
  simp [misread, BitVec.extractLsb', Nat.shiftRight_eq_div_pow]

/-- Going through the codes gives their operations. -/
theorem items_iterCodes :
    info.entry.iterCodes.items = info.codes.map fun code => some (code.1, code.2.op) :=
  UnwindOpIterator.items_bytes info.inVersion

end UnwindInfo

/-! ## Entries in an image -/

namespace UnwindData

/-- **An entry in an image**: what it points to is there, and its function is in the image. -/
structure Holds (data : UnwindData) (rt : RuntimeFunction) (info : UnwindInfo) : Prop where
  bytes : ∃ rest, data.content.drop rt.ptr.toNat = info.bytes ++ rest
  nonempty : rt.start.toNat < rt.stop.toNat
  inside : rt.stop.toNat ≤ data.content.length

/-- **`parse_function` reads an entry back**, with what is directly behind its codes as the
parent. -/
theorem parseFunction_of_holds {data : UnwindData} {rt : RuntimeFunction} {info : UnwindInfo}
    (h : data.Holds rt info) : data.parseFunction rt = some info.entry := by
  obtain ⟨rest, hrest⟩ := h.bytes
  have hptr : rt.ptr.toNat ≤ data.content.length := by
    by_contra hgt
    rw [List.drop_eq_nil_of_le (not_le.mp hgt).le] at hrest
    exact nomatch hrest
  have hslice : readSlice data.content rt.ptr.toNat
      = some (data.content.take rt.ptr.toNat, info.bytes ++ rest) := by
    rw [readSlice, if_pos hptr, List.splitAt_eq, hrest]
  have hcount : 2 * (BitVec.ofNat 8 info.slots).toNat = info.codeBytes.length := by
    have hlt : info.slots < 2 ^ 8 := info.slots_lt
    rw [BitVec.toNat_ofNat, Nat.mod_eq_of_lt hlt, info.length_codeBytes]
  have hcodes : ∀ tail : List UInt8, readSlice (info.codeBytes ++ tail) info.codeBytes.length
      = some (info.codeBytes, tail) := by
    intro tail
    rw [readSlice, if_pos (by rw [List.length_append]; exact Nat.le_add_right _ _),
      List.splitAt_eq, List.take_left, List.drop_left]
  rw [parseFunction, hslice]
  simp only [UnwindInfo.bytes, List.append_assoc, Option.bind_eq_bind, Option.bind_some,
    Layout.read_enc_append, hcount, hcodes, info.frameInfos_spec]
  rw [if_neg (not_not.mpr info.isVersion), UnwindInfo.entry]
  cases hm : info.mother with
  | none =>
    have hnot : ¬ info.versionFlags &&& 0x20 ≠ 0 := fun hflag => by
      have hsome := info.isChained.mp hflag
      rw [hm] at hsome
      cases hsome
    rw [if_neg hnot, UnwindInfo.readMother, hm]
    rfl
  | some mother =>
    have hflag : info.versionFlags &&& 0x20 ≠ 0 := info.isChained.mpr (by rw [hm]; rfl)
    have hbehind : info.behind = info.padding ++ RuntimeFunction.layout.enc mother := by
      rw [UnwindInfo.behind, hm, Option.toList_some, List.flatMap_singleton]
    have hlen : RuntimeFunction.layout.size
        ≤ (info.padding ++ RuntimeFunction.layout.enc mother).length := by
      rw [List.length_append, RuntimeFunction.layout.length_enc]
      exact Nat.le_add_left _ _
    have hread : RuntimeFunction.layout.read (info.behind ++ rest)
        = some (RuntimeFunction.layout.dec
            ((info.padding ++ RuntimeFunction.layout.enc mother).take RuntimeFunction.layout.size),
          (info.behind ++ rest).drop RuntimeFunction.layout.size) := by
      rw [Layout.read, hbehind, if_pos (by rw [List.length_append]; omega),
        List.take_append_of_le_length hlen]
    rw [if_pos hflag, hread, UnwindInfo.readMother, hm]
    rfl

end UnwindData
