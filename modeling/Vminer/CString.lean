import Vminer.Core

/-!
# Strings for C

A function of the C interface that gives a string writes it into a buffer of the caller,
through a `Formatter`. It keeps where the next byte goes and how many more there may be,
and leaves the place of the last byte for the terminator. A string that does not fit is
cut, and the writer is told so; that does not keep it from writing on.

After any writes the buffer holds the beginning of all that was written, which is
terminated both when the formatter is finished and when it is dropped
(`formatter_contract`).
-/

namespace CString

/-- The memory of the caller. -/
abbrev Memory : Type := U64 → UInt8

/-- `ptr::copy_nonoverlapping`: bytes that are copied to an address. -/
def copyTo (mem : Memory) (ptr : U64) (bytes : List UInt8) : Memory := fun addr =>
  match bytes[(addr - ptr).toNat]? with
  | some b => b
  | none => mem addr

/-- `NonNull::new` -/
def nonNull (ptr : U64) : Option U64 := if ptr = 0 then none else some ptr

/-- `Formatter` -/
structure Formatter where
  ptr : Option U64
  len : ℕ
  written : ℕ
deriving DecidableEq, Repr

/-- `fmt::Error` -/
inductive FmtError where
  | Error
deriving DecidableEq, Repr

namespace Formatter

/-- `Formatter::new` -/
def new (ptr : U64) (len : ℕ) : Formatter :=
  if len ≠ 0 then { ptr := nonNull ptr, len := len - 1, written := 0 }
  else { ptr := none, len := 0, written := 0 }

/-- The terminator, which `finish` and `drop` write. -/
def terminate (fmt : Formatter) (mem : Memory) : Memory :=
  match fmt.ptr with
  | some ptr => Function.update mem ptr 0
  | none => mem

/-- `Formatter::drop` -/
def drop (fmt : Formatter) (mem : Memory) : Memory := fmt.terminate mem

/-- `Formatter::finish`, which takes the formatter and so drops it. -/
def finish (fmt : Formatter) (mem : Memory) : ℕ × Memory :=
  (fmt.written, fmt.drop (fmt.terminate mem))

/-- `Formatter::write_str` -/
def writeStr (fmt : Formatter) (bytes : List UInt8) (mem : Memory) :
    Except FmtError Unit × Formatter × Memory :=
  match fmt.ptr with
  | none => (.ok (), fmt, mem)
  | some ptr =>
    let n := min bytes.length fmt.len
    let mem := copyTo mem ptr (bytes.take n)
    let fmt : Formatter :=
      { ptr := nonNull (ptr + BitVec.ofNat 64 n), len := fmt.len - n, written := fmt.written + n }
    (if n < bytes.length then .error .Error else .ok (), fmt, mem)

end Formatter

/-- **What writes to a formatter**: it sees whether each string could be written, and is
done with a result. -/
inductive Writer where
  | done (result : Exec VmError Unit)
  | writeStr (bytes : List UInt8) (next : Except FmtError Unit → Writer)

/-- A run of a writer: what it wrote, with what it was told each time, and its result. -/
structure Run where
  calls : List (List UInt8 × Except FmtError Unit)
  result : Exec VmError Unit
  fmt : Formatter
  mem : Memory

/-- Let a writer write. -/
def Writer.run : Writer → Formatter → Memory → Run
  | .done result, fmt, mem => ⟨[], result, fmt, mem⟩
  | .writeStr bytes next, fmt, mem =>
    let (told, fmt, mem) := fmt.writeStr bytes mem
    let rest := (next told).run fmt mem
    { rest with calls := (bytes, told) :: rest.calls }

/-- `wrap_usize`: an error or a panic is kept for later. -/
def wrapUsize : Exec VmError ℕ → ℤ
  | .ok n => n
  | .error _ => -1

/-- `with_formatter`. Where the writer fails, the formatter is dropped. -/
def withFormatter (ptr : U64) (len : ℕ) (f : Writer) (mem : Memory) : ℤ × Memory :=
  let run := f.run (Formatter.new ptr len) mem
  match run.result with
  | .ok () =>
    let (n, mem) := run.fmt.finish run.mem
    (wrapUsize (.ok n), mem)
  | .error stop => (wrapUsize (.error stop), run.fmt.drop run.mem)

/-! ## What a buffer holds -/

/-- **A buffer** of a length, which does not go around the address space. -/
structure IsBuffer (ptr : U64) (len : ℕ) : Prop where
  ptr_ne : ptr ≠ 0
  fits : ptr.toNat + len ≤ 2 ^ 64

/-- All that was written. -/
def textOf (calls : List (List UInt8 × Except FmtError Unit)) : List UInt8 :=
  (calls.map Prod.fst).flatten

/-- **A buffer holds a terminated text** of a length, and nothing behind it was
written. -/
structure HoldsText (mem mem' : Memory) (ptr : U64) (text : List UInt8) (k : ℕ) : Prop where
  text : ∀ i < k, text[i]? = some (mem' (ptr + BitVec.ofNat 64 i))
  terminator : mem' (ptr + BitVec.ofNat 64 k) = 0
  unchanged : ∀ addr, k < (addr - ptr).toNat → mem' addr = mem addr

/-- **The state of a formatter** after a text was written: the beginning of the text is in
the buffer, and the next byte goes behind it. -/
structure Formatter.HasWritten (mem : Memory) (ptr : U64) (len : ℕ) (text : List UInt8)
    (fmt : Formatter) (mem' : Memory) : Prop where
  mem_eq : mem' = copyTo mem ptr (text.take (len - 1))
  ptr_eq : fmt.ptr = some (ptr + BitVec.ofNat 64 (min text.length (len - 1)))
  len_eq : fmt.len = len - 1 - text.length
  written_eq : fmt.written = min text.length (len - 1)

section Copy

/-- The place of a byte of a buffer. -/
theorem toNat_add_ofNat_sub (ptr : U64) {i : ℕ} (hi : i < 2 ^ 64) :
    (ptr + BitVec.ofNat 64 i - ptr).toNat = i := by
  rw [BitVec.add_comm, BitVec.add_sub_cancel, BitVec.toNat_ofNat, Nat.mod_eq_of_lt hi]

/-- Nothing is copied. -/
theorem copyTo_nil (mem : Memory) (ptr : U64) : copyTo mem ptr [] = mem := rfl

/-- **Bytes are copied behind others.** -/
theorem copyTo_append (mem : Memory) (ptr : U64) {xs ys : List UInt8}
    (hlen : xs.length + ys.length < 2 ^ 64) :
    copyTo (copyTo mem ptr xs) (ptr + BitVec.ofNat 64 xs.length) ys
      = copyTo mem ptr (xs ++ ys) := by
  funext addr
  unfold copyTo
  have hsub : addr - (ptr + BitVec.ofNat 64 xs.length)
      = (addr - ptr) - BitVec.ofNat 64 xs.length := by bv_omega
  have hlt := (addr - ptr).isLt
  rw [hsub, BitVec.toNat_sub, BitVec.toNat_ofNat, Nat.mod_eq_of_lt (by omega : xs.length < 2 ^ 64)]
  by_cases hin : (addr - ptr).toNat < xs.length
  · -- a byte of the first ones is not among the others, where they end before it again
    rw [Nat.mod_eq_of_lt (by omega), List.getElem?_eq_none (by omega),
      List.getElem?_append_left hin]
  · have hidx : (2 ^ 64 - xs.length + (addr - ptr).toNat) % 2 ^ 64
        = (addr - ptr).toNat - xs.length := by omega
    rw [hidx, List.getElem?_append_right (Nat.le_of_not_lt hin),
      List.getElem?_eq_none (Nat.le_of_not_lt hin)]

/-- One byte. -/
theorem copyTo_singleton (mem : Memory) (ptr : U64) (b : UInt8) :
    copyTo mem ptr [b] = Function.update mem ptr b := by
  funext addr
  unfold copyTo Function.update
  by_cases heq : addr = ptr
  · rw [heq, dif_pos rfl, BitVec.sub_self]
    rfl
  · have hne : 0 < (addr - ptr).toNat := by
      refine Nat.pos_of_ne_zero fun h => heq ?_
      bv_omega
    rw [dif_neg heq, List.getElem?_eq_none hne]

end Copy

section Contract

variable {mem mem' : Memory} {ptr : U64} {len : ℕ} {text : List UInt8} {fmt : Formatter}

/-- A new formatter has written nothing. -/
theorem Formatter.hasWritten_new (hbuf : IsBuffer ptr len) (hlen : 1 ≤ len) (mem : Memory) :
    (Formatter.new ptr len).HasWritten mem ptr len [] mem := by
  unfold Formatter.new
  rw [if_pos (by omega), nonNull, if_neg hbuf.ptr_ne]
  exact
    { mem_eq := by rw [List.take_nil, copyTo_nil]
      ptr_eq := by simp
      len_eq := rfl
      written_eq := by simp }

/-- **A string is written**: as much of it as there is room for. -/
theorem Formatter.HasWritten.writeStr (h : fmt.HasWritten mem ptr len text mem')
    (hbuf : IsBuffer ptr len) (hlen : 1 ≤ len) (bytes : List UInt8) :
    (fmt.writeStr bytes mem').2.1.HasWritten mem ptr len (text ++ bytes)
        (fmt.writeStr bytes mem').2.2
      ∧ ((fmt.writeStr bytes mem').1 = .error .Error ↔ len - 1 - text.length < bytes.length) := by
  have hfits := hbuf.fits
  have hplace : (text.take (len - 1)).length = min text.length (len - 1) := by
    rw [List.length_take, Nat.min_comm]
  unfold Formatter.writeStr
  rw [h.ptr_eq, h.len_eq, h.mem_eq]
  dsimp only
  constructor
  · have hcopied : bytes.take (min bytes.length (len - 1 - text.length))
        = bytes.take (len - 1 - text.length) := by
      rw [Nat.min_comm, List.take_eq_take_min (i := len - 1 - text.length)]
    have hsum : min text.length (len - 1) + min bytes.length (len - 1 - text.length)
        = min (text ++ bytes).length (len - 1) := by
      rw [List.length_append]
      omega
    refine { mem_eq := ?_, ptr_eq := ?_, len_eq := ?_, written_eq := ?_ }
    · rw [hcopied, ← hplace, copyTo_append, List.take_append]
      rw [hplace, List.length_take]
      omega
    · have haddr : ptr + BitVec.ofNat 64 (min text.length (len - 1))
            + BitVec.ofNat 64 (min bytes.length (len - 1 - text.length))
          = ptr + BitVec.ofNat 64 (min (text ++ bytes).length (len - 1)) := by
        rw [BitVec.add_assoc, ← BitVec.ofNat_add, hsum]
      have hne : ptr + BitVec.ofNat 64 (min (text ++ bytes).length (len - 1)) ≠ 0 := by
        have hpos : 0 < ptr.toNat :=
          Nat.pos_of_ne_zero fun h => hbuf.ptr_ne (BitVec.eq_of_toNat_eq h)
        have hle : min (text ++ bytes).length (len - 1) ≤ len - 1 := Nat.min_le_right _ _
        intro h
        have h0 := congrArg BitVec.toNat h
        rw [BitVec.toNat_add, BitVec.toNat_ofNat, Nat.mod_eq_of_lt (by omega :
          min (text ++ bytes).length (len - 1) < 2 ^ 64), Nat.mod_eq_of_lt (by omega)] at h0
        have : (0 : U64).toNat = 0 := rfl
        omega
      rw [haddr, nonNull, if_neg hne]
    · show len - 1 - text.length - min bytes.length (len - 1 - text.length)
        = len - 1 - (text ++ bytes).length
      rw [List.length_append]
      omega
    · rw [h.written_eq, hsum]
  · split
    · next hlt => exact iff_of_true rfl (by omega)
    · next hge => exact iff_of_false (fun h => nomatch h) (by omega)

/-- **A run of a writer** leaves the formatter behind all that was written, and each call
was told whether its string fit. -/
theorem Writer.hasWritten_run (hbuf : IsBuffer ptr len) (hlen : 1 ≤ len) (f : Writer)
    (h : fmt.HasWritten mem ptr len text mem') :
    (f.run fmt mem').fmt.HasWritten mem ptr len (text ++ textOf (f.run fmt mem').calls)
        (f.run fmt mem').mem
      ∧ ∀ front bytes told rest, (f.run fmt mem').calls = front ++ (bytes, told) :: rest →
        (told = .error .Error ↔ len - 1 - (text ++ textOf front).length < bytes.length) := by
  induction f generalizing fmt text mem' with
  | done result =>
    refine ⟨by rwa [Writer.run, textOf, List.map_nil, List.flatten_nil, List.append_nil], ?_⟩
    intro front bytes told rest hcalls
    exact absurd hcalls (by simp [Writer.run])
  | writeStr bytes next ih =>
    obtain ⟨hwritten, htold⟩ := h.writeStr hbuf hlen bytes
    obtain ⟨hrun, hcalls⟩ := ih _ hwritten
    refine ⟨?_, fun front bytes' told rest heq => ?_⟩
    · rw [List.append_assoc] at hrun
      exact hrun
    · cases front with
      | nil =>
        obtain ⟨heq, -⟩ := List.cons.inj heq
        obtain ⟨rfl, rfl⟩ := Prod.mk.inj heq
        rw [textOf, List.map_nil, List.flatten_nil, List.append_nil]
        exact htold
      | cons call front =>
        obtain ⟨rfl, hrest⟩ := List.cons.inj heq
        have hfront := hcalls front bytes' told rest hrest
        rwa [List.append_assoc] at hfront

/-- Where there is no buffer, nothing is written. -/
theorem Writer.run_of_none (f : Writer) (hptr : fmt.ptr = none) :
    (f.run fmt mem').fmt = fmt ∧ (f.run fmt mem').mem = mem' := by
  induction f generalizing mem' with
  | done result => exact ⟨rfl, rfl⟩
  | writeStr bytes next ih =>
    have hwrite : fmt.writeStr bytes mem' = (.ok (), fmt, mem') := by
      rw [Formatter.writeStr, hptr]
    rw [Writer.run, hwrite]
    exact ih (.ok ())

/-- To terminate again changes nothing. -/
theorem Formatter.terminate_terminate (fmt : Formatter) (mem : Memory) :
    fmt.terminate (fmt.terminate mem) = fmt.terminate mem := by
  unfold Formatter.terminate
  cases fmt.ptr with
  | none => rfl
  | some ptr => exact Function.update_idem _ _ _

/-- **The terminator goes behind the text.** -/
theorem Formatter.HasWritten.terminate_eq (h : fmt.HasWritten mem ptr len text mem')
    (hbuf : IsBuffer ptr len) (hlen : 1 ≤ len) :
    fmt.terminate mem' = copyTo mem ptr (text.take (len - 1) ++ [0]) := by
  have hpos : 0 < ptr.toNat := Nat.pos_of_ne_zero fun h => hbuf.ptr_ne (BitVec.eq_of_toNat_eq h)
  have hfits := hbuf.fits
  have hplace : min text.length (len - 1) = (text.take (len - 1)).length := by
    rw [List.length_take, Nat.min_comm]
  rw [Formatter.terminate, h.ptr_eq, h.mem_eq]
  dsimp only
  rw [← copyTo_singleton, hplace, copyTo_append]
  rw [List.length_take, List.length_singleton]
  omega

/-- **What is in the buffer then.** -/
theorem Formatter.HasWritten.holdsText (h : fmt.HasWritten mem ptr len text mem')
    (hbuf : IsBuffer ptr len) (hlen : 1 ≤ len) :
    HoldsText mem (fmt.terminate mem') ptr text (min text.length (len - 1)) := by
  have hfits := hbuf.fits
  have hplace : min text.length (len - 1) = (text.take (len - 1)).length := by
    rw [List.length_take, Nat.min_comm]
  rw [h.terminate_eq hbuf hlen, hplace]
  have hle : (text.take (len - 1)).length ≤ len - 1 := hplace ▸ Nat.min_le_right _ _
  constructor
  · intro i hi
    unfold copyTo
    rw [toNat_add_ofNat_sub ptr (by omega), List.getElem?_append_left hi, List.getElem?_take,
      if_pos (by omega)]
    have hi' : i < text.length := by
      rw [List.length_take] at hi
      omega
    rw [List.getElem?_eq_getElem hi']
  · unfold copyTo
    rw [toNat_add_ofNat_sub ptr (by omega), List.getElem?_concat_length]
  · intro addr haddr
    unfold copyTo
    rw [List.getElem?_eq_none]
    rw [List.length_append, List.length_singleton]
    omega

end Contract

/-! ## The formatter -/

/-- **Strings for C are terminated**: whatever is written to a formatter, and however it
ends, a buffer of at least one byte holds the beginning of it and a terminator, and
nothing behind that is written; each call is told whether its string fit. Without a
buffer nothing is written. -/
theorem formatter_contract (ptr : U64) (len : ℕ) (mem : Memory) (f : Writer) (run : Run)
    (hrun : f.run (Formatter.new ptr len) mem = run) :
    (IsBuffer ptr len → 1 ≤ len →
      (run.fmt.finish run.mem).1 = min (textOf run.calls).length (len - 1)
        ∧ HoldsText mem (run.fmt.finish run.mem).2 ptr (textOf run.calls)
          (min (textOf run.calls).length (len - 1))
        ∧ HoldsText mem (withFormatter ptr len f mem).2 ptr (textOf run.calls)
          (min (textOf run.calls).length (len - 1))
        ∧ ∀ front bytes told rest, run.calls = front ++ (bytes, told) :: rest →
          (told = .error .Error ↔ len - 1 - (textOf front).length < bytes.length))
    ∧ (len = 0 → run.fmt.finish run.mem = (0, mem) ∧ (withFormatter ptr len f mem).2 = mem) := by
  subst hrun
  have hfinish : ∀ (fmt : Formatter) (mem : Memory),
      fmt.finish mem = (fmt.written, fmt.terminate mem) :=
    fun fmt mem => congrArg (Prod.mk _) (fmt.terminate_terminate mem)
  have hwith : (withFormatter ptr len f mem).2
      = (f.run (Formatter.new ptr len) mem).fmt.terminate
        (f.run (Formatter.new ptr len) mem).mem := by
    unfold withFormatter
    dsimp only
    split
    · rw [hfinish]
    · rfl
  rw [hwith]
  constructor
  · intro hbuf hlen
    obtain ⟨hwritten, hcalls⟩ := f.hasWritten_run hbuf hlen (Formatter.hasWritten_new hbuf hlen mem)
    rw [List.nil_append] at hwritten
    have htext := hwritten.holdsText hbuf hlen
    refine ⟨?_, ?_, htext, fun front bytes told rest heq => ?_⟩
    · rw [hfinish]
      exact hwritten.written_eq
    · rw [hfinish]
      exact htext
    · have htold := hcalls front bytes told rest heq
      rwa [List.nil_append] at htold
  · rintro rfl
    have hnone : (Formatter.new ptr 0).ptr = none := rfl
    obtain ⟨hfmt, hmem⟩ : (f.run (Formatter.new ptr 0) mem).fmt = Formatter.new ptr 0
        ∧ (f.run (Formatter.new ptr 0) mem).mem = mem := Writer.run_of_none f hnone
    rw [hfinish, hfmt, hmem]
    exact ⟨rfl, rfl⟩

/-- Two strings are written, of which the second does not fit, and then it fails. -/
def failingWriter : Writer :=
  .writeStr [97, 98] fun _ => .writeStr [99, 100, 101] fun _ => .done (Exec.fail .unsupported)

/-- **A buffer of four bytes** holds three of the five, and a terminator. -/
theorem formatter_contract_failingWriter :
    HoldsText (fun _ => 7) (withFormatter 0x1000 4 failingWriter fun _ => 7).2 0x1000
      [97, 98, 99, 100, 101] 3 :=
  ((formatter_contract 0x1000 4 (fun _ => 7) failingWriter _ rfl).1 ⟨by decide, by decide⟩
    (by decide)).2.2.1

end CString
