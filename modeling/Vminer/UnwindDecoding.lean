import Vminer.UnwindInfo

/-!
# Decoding the codes of an entry

A code takes one, two or three slots, by its number, its info nibble and the version, so
one that is read with the wrong number of slots would misalign all that follow. They are
not: what the iterator takes for an operation is the bytes of a code of the format
(`UnwindCode.exists_of_run_nextOp`), and bytes that begin with none of them, because
they end within a code or the version has no such code, are an item that is not valid.

`read_unwind_codes` goes on to such an item unless it stops before it, and returns an
error. But on its way it adds up in 32 bits what the operations took from the stack, and
panics where that does not fit, so it does so only where it does
(`unwindCodes_decode_iff`).
-/

/-! ## What is decoded -/

/-- **What has been read is laid out at the front.** -/
theorem Cursor.exists_of_run_read_bind {α β : Type} {L : Layout α}
    (hL : ∀ {bs : List UInt8}, bs.length = L.size → L.enc (L.dec bs) = bs) {f : α → Cursor β}
    {codes rest : List UInt8} {b : β} (h : (read L >>= f).run.run codes = (some b, rest)) :
    ∃ a codes', codes = L.enc a ++ codes' ∧ (f a).run.run codes' = (some b, rest) := by
  rw [OptionT.run_bind, Option.elimM, StateT.run_bind, run_read] at h
  cases hread : L.read codes with
  | none =>
    rw [hread] at h
    cases (Prod.mk.inj h).1
  | some p =>
    obtain ⟨a, codes'⟩ := p
    rw [hread] at h
    exact ⟨a, codes', Layout.eq_append_of_read hL hread, h⟩

/-- An operand that is read is the last thing of its code. -/
theorem Cursor.exists_of_run_read_pure {α β : Type} {L : Layout α}
    (hL : ∀ {bs : List UInt8}, bs.length = L.size → L.enc (L.dec bs) = bs) (g : α → β)
    {codes rest : List UInt8} {b : β}
    (h : (read L >>= fun a => pure (g a)).run.run codes = (some b, rest)) :
    ∃ a, g a = b ∧ codes = L.enc a ++ rest := by
  obtain ⟨a, codes', rfl, hrun⟩ := exists_of_run_read_bind hL h
  obtain ⟨hb, rfl⟩ := Prod.mk.inj hrun
  exact ⟨a, Option.some.inj hb, rfl⟩

namespace UnwindCode

/-- Every byte is two nibbles. -/
theorem exists_nibbles (b : BitVec 8) : ∃ opCode info, b = nibbles opCode info := by
  have hb := b.isLt
  refine ⟨⟨b.toNat % 16, by omega⟩, ⟨b.toNat / 16, by omega⟩, BitVec.eq_of_toNat_eq ?_⟩
  show b.toNat = (16 * (b.toNat / 16) + b.toNat % 16) % 2 ^ 8
  omega

/-- The info nibble as a number. -/
theorem toNat_reg (info : Fin 16) : (reg info).toNat = info := by
  revert info
  decide

/-- **What is taken for an operation is a code** of the format. -/
theorem exists_of_run_nextOp {version : BitVec 8} {codes rest : List UInt8} {o : UnwindOp}
    (h : (UnwindOpIterator.nextOp version).run.run codes = (some o, rest)) :
    ∃ code : UnwindCode, code.InVersion version ∧ code.op = o ∧ codes = code.tail ++ rest := by
  have h16 : ∀ {bs : List UInt8}, bs.length = Layout.u16.size →
      Layout.u16.enc (Layout.u16.dec bs) = bs := Layout.word_enc_dec _
  have h32 : ∀ {bs : List UInt8}, bs.length = Layout.u32.size →
      Layout.u32.enc (Layout.u32.dec bs) = bs := Layout.word_enc_dec _
  obtain ⟨b, codes, rfl, -⟩ := Cursor.exists_of_run_read_bind (Layout.word_enc_dec _) h
  obtain ⟨opCode, info, rfl⟩ := exists_nibbles b
  rw [run_nextOp_nibbles] at h
  unfold UnwindOpIterator.opOf at h
  have hfin : ∀ {x y : Fin 16}, (x : ℕ) = (y : ℕ) → x = y := Fin.ext
  -- the code whose number and info these are
  split at h
  · next hop =>
    obtain rfl : opCode = 0 := hfin hop
    obtain ⟨ho, rfl⟩ := Prod.mk.inj h
    exact ⟨.pushNonvol info, trivial, Option.some.inj ho, rfl⟩
  · next hop =>
    obtain rfl : opCode = 1 := hfin hop
    rw [toNat_reg] at h
    split at h
    · next hinfo =>
      obtain rfl : info = 0 := hfin hinfo
      obtain ⟨slots, ho, rfl⟩ := Cursor.exists_of_run_read_pure h16
        (fun slots => UnwindOp.Alloc (slots.setWidth 32 * 8)) h
      exact ⟨.allocLarge slots, trivial, ho, (List.append_assoc _ _ _).symm⟩
    · next hinfo =>
      obtain rfl : info = 1 := hfin hinfo
      obtain ⟨size, ho, rfl⟩ := Cursor.exists_of_run_read_pure h32
        (fun size => UnwindOp.Alloc size) h
      exact ⟨.allocHuge size, trivial, ho, (List.append_assoc _ _ _).symm⟩
    · cases (Prod.mk.inj h).1
  · next hop =>
    obtain rfl : opCode = 2 := hfin hop
    obtain ⟨ho, rfl⟩ := Prod.mk.inj h
    refine ⟨.allocSmall info, trivial, ?_, rfl⟩
    rw [op, ← setWidth_reg]
    exact Option.some.inj ho
  · next hop =>
    obtain rfl : opCode = 3 := hfin hop
    obtain ⟨ho, rfl⟩ := Prod.mk.inj h
    exact ⟨.setFpReg info, trivial, Option.some.inj ho, rfl⟩
  · next hop =>
    obtain rfl : opCode = 4 := hfin hop
    obtain ⟨slots, ho, rfl⟩ := Cursor.exists_of_run_read_pure h16
      (fun slots => UnwindOp.Save (reg info) (slots.setWidth 32 * 8)) h
    exact ⟨.saveNonvol info slots, trivial, ho, (List.append_assoc _ _ _).symm⟩
  · next hop =>
    obtain rfl : opCode = 5 := hfin hop
    obtain ⟨offset, ho, rfl⟩ := Cursor.exists_of_run_read_pure h32
      (fun offset => UnwindOp.Save (reg info) offset) h
    exact ⟨.saveNonvolFar info offset, trivial, ho, (List.append_assoc _ _ _).symm⟩
  · next hop =>
    obtain rfl : opCode = 6 := hfin hop
    by_cases hversion : version = 2
    · rw [if_pos hversion] at h
      obtain ⟨slot, ho, rfl⟩ := Cursor.exists_of_run_read_pure h16
        (fun _ => UnwindOp.Epilog) h
      exact ⟨.epilog info slot, hversion, ho, (List.append_assoc _ _ _).symm⟩
    · rw [if_neg hversion] at h
      cases (Prod.mk.inj h).1
  · next hop =>
    obtain rfl : opCode = 8 := hfin hop
    obtain ⟨slots, ho, rfl⟩ := Cursor.exists_of_run_read_pure h16
      (fun slots => UnwindOp.SaveXmm128 (reg info) (slots.setWidth 32 * 16)) h
    exact ⟨.saveXmm128 info slots, trivial, ho, (List.append_assoc _ _ _).symm⟩
  · next hop =>
    obtain rfl : opCode = 9 := hfin hop
    obtain ⟨offset, ho, rfl⟩ := Cursor.exists_of_run_read_pure h32
      (fun offset => UnwindOp.SaveXmm128 (reg info) offset) h
    exact ⟨.saveXmm128Far info offset, trivial, ho, (List.append_assoc _ _ _).symm⟩
  · next hop =>
    obtain rfl : opCode = 10 := hfin hop
    rw [toNat_reg] at h
    split at h
    · next hinfo =>
      obtain rfl : info = 0 := hfin hinfo
      obtain ⟨ho, rfl⟩ := Prod.mk.inj h
      exact ⟨.pushMachFrame false, trivial, Option.some.inj ho, rfl⟩
    · next hinfo =>
      obtain rfl : info = 1 := hfin hinfo
      obtain ⟨ho, rfl⟩ := Prod.mk.inj h
      exact ⟨.pushMachFrame true, trivial, Option.some.inj ho, rfl⟩
    · cases (Prod.mk.inj h).1
  · cases (Prod.mk.inj h).1

/-- No code begins another one. -/
theorem tail_eq_of_isPrefix {version : BitVec 8} {code code' : UnwindCode}
    (h : code.InVersion version) (h' : code'.InVersion version) (hle : code.tail <+: code'.tail) :
    code.tail = code'.tail := by
  obtain ⟨rest, hrest⟩ := hle
  have hrun := run_nextOp h' []
  rw [List.append_nil, ← hrest, run_nextOp h rest] at hrun
  rw [← hrest, (Prod.mk.inj hrun).2, List.append_nil]

/-- A code has a second byte. -/
theorem one_le_length_tail (code : UnwindCode) : 1 ≤ code.tail.length := by
  have h8 : ∀ x, (Layout.u8.enc x).length = 1 := Layout.u8.length_enc
  cases code <;> simp only [tail, List.length_append, h8, le_refl, Nat.le_add_right]

/-! ## What is not valid -/

/-- **Bytes that begin with no code**: they end within one, or begin with one that there
is not, or not in this version. -/
inductive IsInvalid (version : BitVec 8) : List UInt8 → Prop
  | cutShort {code : UnwindCode} {offset : BitVec 8} {front : List UInt8}
      (hversion : code.InVersion version) (hle : front <+: code.bytes offset) (hnil : front ≠ [])
      (hne : front ≠ code.bytes offset) : IsInvalid version front
  | unknown {offset : BitVec 8} {opCode info : Fin 16} {rest : List UInt8}
      (h : ∀ code : UnwindCode, code.InVersion version →
        ¬ Layout.u8.enc (nibbles opCode info) <+: code.tail) :
      IsInvalid version
        (Layout.u8.enc offset ++ (Layout.u8.enc (nibbles opCode info) ++ rest))

/-- Behind the offset there is no code. -/
theorem IsInvalid.exists_not_isPrefix {version : BitVec 8} {bad : List UInt8}
    (h : IsInvalid version bad) : ∃ (offset : BitVec 8) (codes : List UInt8),
      bad = Layout.u8.enc offset ++ codes
        ∧ ∀ code : UnwindCode, code.InVersion version → ¬ code.tail <+: codes := by
  cases h with
  | @cutShort code offset front hversion hle hnil hne =>
    obtain rfl | ⟨codes, rfl, hcodes⟩ := List.prefix_cons_iff.mp hle
    · exact absurd rfl hnil
    · refine ⟨offset, codes, rfl, fun code' hversion' hle' => hne ?_⟩
      have htail := tail_eq_of_isPrefix hversion' hversion (hle'.trans hcodes)
      rw [htail] at hle'
      exact congrArg (_ :: ·) (hcodes.eq_of_length_le hle'.length_le)
  | @unknown offset opCode info rest h =>
    refine ⟨offset, _, rfl, fun code hversion hle => h code hversion ?_⟩
    refine List.prefix_of_prefix_length_le (List.prefix_append _ _) hle ?_
    rw [Layout.length_enc]
    exact one_le_length_tail code

/-- **It is an item that is not valid.** -/
theorem IsInvalid.exists_next {version : BitVec 8} {bad : List UInt8}
    (h : IsInvalid version bad) :
    ∃ iter, UnwindOpIterator.next ⟨version, bad⟩ = some (none, iter) := by
  obtain ⟨offset, codes, rfl, hnone⟩ := h.exists_not_isPrefix
  unfold UnwindOpIterator.next
  rw [Layout.read_enc_append]
  dsimp only
  cases hrun : (UnwindOpIterator.nextOp version).run.run codes with
  | mk item rest =>
    cases item with
    | none => exact ⟨_, rfl⟩
    | some o =>
      obtain ⟨code, hversion, -, rfl⟩ := exists_of_run_nextOp hrun
      exact absurd (List.prefix_append _ _) (hnone code hversion)

end UnwindCode

/-! ## Behind the last code -/

namespace FunctionEntry

/-- An item that is not valid ends what is undone. -/
theorem undoneOf_append_none (ip : Option U32) (ops : List (BitVec 8 × UnwindOp))
    (more : List (Option (BitVec 8 × UnwindOp))) :
    undoneOf ip (ops.map some ++ none :: more) = undoneOf ip (ops.map some) := by
  induction ops with
  | nil => rfl
  | cons p ops ih =>
    obtain ⟨opOffset, op⟩ := p
    rw [List.map_cons, List.cons_append]
    by_cases hahead : isAhead ip opOffset = true
    · exact (if_pos hahead).trans (ih.trans (if_pos hahead).symm)
    · cases op with
      | PushMachFrame error => exact (if_neg hahead).trans (if_neg hahead).symm
      | _ => exact (if_neg hahead).trans ((congrArg (_ :: ·) ih).trans (if_neg hahead).symm)

/-- Nothing that is behind it is gone on with, not even a machine frame before it. -/
theorem endingOf_append_none (function : FunctionEntry) (ip : Option U32)
    (ops : List (BitVec 8 × UnwindOp)) (more : List (Option (BitVec 8 × UnwindOp))) :
    ∃ e, endingOf function ip (ops.map some ++ none :: more) = .failed e := by
  induction ops with
  | nil => exact ⟨_, rfl⟩
  | cons p ops ih =>
    obtain ⟨opOffset, op⟩ := p
    obtain ⟨e, he⟩ := ih
    rw [List.map_cons, List.cons_append]
    by_cases hahead : isAhead ip opOffset = true
    · exact ⟨e, (if_pos hahead).trans he⟩
    · cases op with
      | PushMachFrame error =>
        have hmore : (!(ops.map some ++ none :: more).isEmpty) = true := by
          cases ops <;> rfl
        exact ⟨_, (if_neg hahead).trans (if_pos hmore)⟩
      | _ => exact ⟨e, (if_neg hahead).trans he⟩

end FunctionEntry

/-! ## Decoding -/

/-- The operand of an operation, in bytes. -/
def UnwindOp.operand : UnwindOp → ℕ
  | .Alloc size => size.toNat
  | .Save _ offset => offset.toNat
  | .SaveXmm128 _ offset => offset.toNat
  | _ => 0

namespace UnwindCode

/-- **The operand of a code**, in bytes: slots of 8 bytes, or of 16 for a register of that
size, and a small size from 8 on. -/
def operand : UnwindCode → ℕ
  | allocLarge slots => 8 * slots.toNat
  | allocHuge size => size.toNat
  | allocSmall info => 8 * info + 8
  | saveNonvol _ slots => 8 * slots.toNat
  | saveNonvolFar _ offset => offset.toNat
  | saveXmm128 _ slots => 16 * slots.toNat
  | saveXmm128Far _ offset => offset.toNat
  | _ => 0

/-- Scaling it does not overflow. -/
theorem operand_op (code : UnwindCode) : code.op.operand = code.operand := by
  have hscaled : ∀ (slots : BitVec 16) (n : ℕ), n < 2 ^ 16 →
      (slots.setWidth 32 * BitVec.ofNat 32 n).toNat = n * slots.toNat := by
    intro slots n hn
    have hslots := slots.isLt
    have hmul : slots.toNat * n < 2 ^ 32 :=
      lt_of_lt_of_le (Nat.mul_lt_mul'' hslots hn) (by norm_num)
    rw [BitVec.toNat_mul, BitVec.toNat_setWidth, BitVec.toNat_ofNat,
      Nat.mod_eq_of_lt (show slots.toNat < 2 ^ 32 by omega),
      Nat.mod_eq_of_lt (show n < 2 ^ 32 by omega), Nat.mod_eq_of_lt hmul, Nat.mul_comm]
  cases code with
  | allocLarge slots => exact hscaled slots 8 (by norm_num)
  | saveNonvol info slots => exact hscaled slots 8 (by norm_num)
  | saveXmm128 info slots => exact hscaled slots 16 (by norm_num)
  | allocSmall info =>
    revert info
    decide
  | _ => rfl

/-- The bytes of some codes. -/
def bytesOf (codes : List (BitVec 8 × UnwindCode)) : List UInt8 :=
  codes.flatMap fun code => code.2.bytes code.1

/-- The operations of some codes, with their offsets. -/
def opsOf (codes : List (BitVec 8 × UnwindCode)) : List (BitVec 8 × UnwindOp) :=
  codes.map fun code => (code.1, code.2.op)

/-- **What some codes take from the stack**: those that have been executed at an offset of
the prolog, up to a machine frame. -/
def executedSize (ip : Option U32) (codes : List (BitVec 8 × UnwindCode)) : ℕ :=
  UnwindOp.totalSize (FunctionEntry.undoneOf ip ((opsOf codes).map some))

/-- **Some codes are decoded**: the iterator gives their operations, with their operands,
and then ends; and with bytes behind them that begin with no code it gives them and then an
item that is not valid, and reading them is an error. -/
structure IsDecoded (version : BitVec 8) (codes : List (BitVec 8 × UnwindCode))
    (ip : Option U32) : Prop where
  items : (UnwindOpIterator.mk version (bytesOf codes)).items = (opsOf codes).map some
  operands : ∀ code ∈ codes, code.2.op.operand = code.2.operand
  invalid : ∀ bad, IsInvalid version bad → ∃ more,
    (UnwindOpIterator.mk version (bytesOf codes ++ bad)).items
      = (opsOf codes).map some ++ none :: more
  fails : ∀ (function : FunctionEntry) (bad : List UInt8), IsInvalid version bad →
    function.version = version → function.unwindCodes = bytesOf codes ++ bad →
    ∃ e, readUnwindCodes function ip = Exec.fail e

/-- An entry that has nothing but codes. -/
def entryOf (version : BitVec 8) (unwindCodes : List UInt8) : FunctionEntry where
  mother := none
  version := version
  frameRegisterOffset := none
  unwindCodes := unwindCodes

variable {version : BitVec 8} {codes : List (BitVec 8 × UnwindCode)}

/-- The items of codes with bytes behind them that begin with none. -/
theorem IsInvalid.items_append {bad : List UInt8} (h : IsInvalid version bad)
    (hcodes : ∀ code ∈ codes, code.2.InVersion version) : ∃ more,
    (UnwindOpIterator.mk version (bytesOf codes ++ bad)).items
      = (opsOf codes).map some ++ none :: more := by
  obtain ⟨iter, hnext⟩ := h.exists_next
  refine ⟨iter.items, ?_⟩
  rw [bytesOf, UnwindOpIterator.items_append hcodes, UnwindOpIterator.items_of_next_some hnext,
    opsOf, List.map_map]
  rfl

/-- **Reading them is an error or a panic.** -/
theorem IsInvalid.readUnwindCodes_eq {bad : List UInt8} (h : IsInvalid version bad)
    (hcodes : ∀ code ∈ codes, code.2.InVersion version) {function : FunctionEntry}
    (hversion : function.version = version) (hbytes : function.unwindCodes = bytesOf codes ++ bad)
    (ip : Option U32) :
    ∃ e, readUnwindCodes function ip
      = if executedSize ip codes < 2 ^ 32 then Exec.fail e else Exec.panicked := by
  obtain ⟨more, hitems⟩ := h.items_append hcodes
  have hiter : function.iterCodes.items = (opsOf codes).map some ++ none :: more := by
    rw [FunctionEntry.iterCodes, hversion, hbytes, hitems]
  have hsize : function.stackSize ip = executedSize ip codes := by
    rw [FunctionEntry.stackSize, FunctionEntry.undone, hiter,
      FunctionEntry.undoneOf_append_none, executedSize]
  obtain ⟨e, he⟩ := FunctionEntry.endingOf_append_none function ip (opsOf codes) more
  refine ⟨e, ?_⟩
  rw [FunctionEntry.readUnwindCodes_eq, hsize, FunctionEntry.ending, hiter, he]
  rfl

/-- **Codes are decoded exactly if** what those that have been executed take from the stack
fits 32 bits. -/
theorem isDecoded_iff (hcodes : ∀ code ∈ codes, code.2.InVersion version) (ip : Option U32) :
    IsDecoded version codes ip ↔ executedSize ip codes < 2 ^ 32 := by
  constructor
  · intro h
    -- half of a code is enough to tell
    have hbad : IsInvalid version [0] :=
      .cutShort (show (pushNonvol 0).InVersion version from trivial)
        (show [0] <+: (pushNonvol 0).bytes 0 from ⟨[0], rfl⟩) (by simp) (by decide)
    let function := entryOf version (bytesOf codes ++ [0])
    obtain ⟨e, he⟩ := h.fails function [0] hbad rfl rfl
    obtain ⟨e', he'⟩ : ∃ e, readUnwindCodes function ip
        = if executedSize ip codes < 2 ^ 32 then Exec.fail e else Exec.panicked :=
      hbad.readUnwindCodes_eq hcodes rfl rfl ip
    by_contra hnot
    rw [if_neg hnot, he] at he'
    cases he'
  · intro hsize
    refine ⟨?_, fun code _ => operand_op code.2, fun bad hbad => hbad.items_append hcodes, ?_⟩
    · rw [bytesOf, UnwindOpIterator.items_bytes hcodes, opsOf, List.map_map]
      rfl
    · intro function bad hbad hversion hbytes
      obtain ⟨e, he⟩ := hbad.readUnwindCodes_eq hcodes hversion hbytes ip
      rw [if_pos hsize] at he
      exact ⟨e, he⟩

/-- A register that is pushed, and an allocation behind it. -/
theorem isDecoded_pushAlloc :
    IsDecoded 1 [(5, allocSmall 3), (1, pushNonvol 5)] none := by
  refine (isDecoded_iff ?_ none).mpr (by decide)
  simp [InVersion]

/-- Two allocations of 2 GiB. -/
def twoAllocations : List (BitVec 8 × UnwindCode) :=
  [(2, allocHuge 0x80000000), (1, allocHuge 0x80000000)]

/-- **With a code behind them that is cut short**, to add them up is a panic. -/
theorem not_isDecoded_twoAllocations :
    IsInvalid 1 [0, 1]
      ∧ readUnwindCodes (entryOf 1 (bytesOf twoAllocations ++ [0, 1])) none = Exec.panicked
      ∧ ¬ IsDecoded 1 twoAllocations none := by
  have hbad : IsInvalid 1 [0, 1] :=
    .cutShort (show (allocLarge 0).InVersion 1 from trivial)
      (show [0, 1] <+: (allocLarge 0).bytes 0 from ⟨[0, 0], rfl⟩) (by simp) (by decide)
  have hpanic : readUnwindCodes (entryOf 1 (bytesOf twoAllocations ++ [0, 1])) none
      = Exec.panicked := rfl
  refine ⟨hbad, hpanic, fun h => ?_⟩
  obtain ⟨e, he⟩ := h.fails (entryOf 1 (bytesOf twoAllocations ++ [0, 1])) [0, 1] hbad rfl rfl
  cases hpanic.symm.trans he

end UnwindCode
