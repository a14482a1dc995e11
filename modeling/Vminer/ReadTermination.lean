import Vminer.Linux
import Vminer.LinkWalk
import Vminer.WindowsModules

/-!
# Reads of guest memory end

A read goes over its pages, and the translation of each over the levels of the page tables. So it
ends if the reads of physical memory do.

The memory of a Windows process is another matter: for a page that is not there it may search the
tree of descriptors, which is the guest's. Such a read takes a step budget, and from some budget
on a larger one makes no difference to it (`Windows.settles_procSpace`).
-/

open Exec

/-! ## Reads end -/

/-- Reads of physical memory end. -/
def Memory.ReadsEnd {M : Type} [Memory M] (m : M) : Prop :=
  ∀ addr len, Memory.readPhysical m addr len ≠ Exec.outOfFuel

/-- The walk of the page tables ends. -/
theorem walk_ne_outOfFuel {M : Type} [Memory M] (desc : MmuDesc) {m : M} (h : Memory.ReadsEnd m)
    (addr : VirtualAddress) (levels : List (ℕ × Bool)) (entry : MmuEntry) :
    walk desc m addr levels entry ≠ Exec.outOfFuel := by
  induction levels generalizing entry with
  | nil => exact ite_panicked_ne_outOfFuel _ _
  | cons level rest ih =>
    refine bind_ne_outOfFuel (ite_panicked_ne_outOfFuel _ _) fun offset _ => ?_
    refine bind_ne_outOfFuel (ite_panicked_ne_outOfFuel _ _) fun entryAddr _ => ?_
    refine bind_ne_outOfFuel (mapErr_ne_outOfFuel _ (h _ _)) fun bytes _ => ?_
    dsimp only
    split
    · exact fail_ne_outOfFuel _
    split
    · exact ite_panicked_ne_outOfFuel _ _
    · exact ih _

/-- A read page by page ends. -/
theorem readVirtualMemoryLoop_ne_outOfFuel {ε : Type} {reader : Reader ε}
    (h : ∀ addr buf, (reader addr buf).1 ≠ Exec.outOfFuel) (fuel : ℕ)
    (addr nextPage : VirtualAddress) (buf : List UInt8) (hlen : buf.length < fuel)
    (hpos : addr ≠ nextPage + 0x1000) :
    (readVirtualMemoryLoop reader fuel addr nextPage buf).1 ≠ Exec.outOfFuel := by
  induction fuel generalizing addr nextPage buf with
  | zero => exact absurd hlen (Nat.not_lt_zero _)
  | succ fuel ih =>
    rw [readVirtualMemoryLoop]
    dsimp only
    split
    · exact h _ _
    · next hlong =>
      have hdiff : 0 < (nextPage + 0x1000 - addr).toNat := by
        refine Nat.pos_of_ne_zero fun hzero => hpos ?_
        exact (sub_eq_zero.mp (BitVec.eq_of_toNat_eq hzero)).symm
      have hrest := ih (nextPage + 0x1000) (nextPage + 0x1000)
        (buf.drop (nextPage + 0x1000 - addr).toNat)
        (by rw [List.length_drop]; omega) (by simp)
      have hfirst := h addr (buf.take (nextPage + 0x1000 - addr).toNat)
      split
      · exact hrest
      · next e start heq =>
        exact error_ne_outOfFuel hfirst (congrArg Prod.fst heq)

/-- The first page of a range ends after its first address. -/
theorem ne_pageBase_add (addr : VirtualAddress) : addr ≠ pageBase addr + 0x1000 := by
  intro heq
  have hbase := toNat_pageBase addr
  have hlt := addr.isLt
  have hsum := congrArg BitVec.toNat heq
  rw [BitVec.toNat_add, show BitVec.toNat (0x1000 : U64) = 4096 from rfl] at hsum
  omega

/-- A read of a range ends if the reads of its pages do. -/
theorem readPages_ne_outOfFuel {read : VirtualAddress → ℕ → Exec TranslationError (List UInt8)}
    (h : ∀ addr len, read addr len ≠ Exec.outOfFuel) (addr : VirtualAddress) (len : ℕ) :
    readPages addr len read ≠ Exec.outOfFuel := by
  have hfill : ∀ addr buf, (fill read addr buf).1 ≠ Exec.outOfFuel := by
    intro addr buf
    have hread := h addr buf.length
    rw [fill]
    split
    · exact ok_ne_outOfFuel _
    · next e heq => exact error_ne_outOfFuel hread heq
  have hloop := readVirtualMemoryLoop_ne_outOfFuel hfill _ addr (pageBase addr)
    (List.replicate len 0) (Nat.lt_succ_self _) (ne_pageBase_add addr)
  rw [readPages, readVirtualMemory]
  split
  · exact ok_ne_outOfFuel _
  · next e bytes heq =>
    exact mapErr_ne_outOfFuel _ (error_ne_outOfFuel hloop (congrArg Prod.fst heq))

section Pointer

variable {readMemory : ReadMemory} (h : ∀ addr len, readMemory addr len ≠ Exec.outOfFuel)
  (layouts : Layouts)

include h

omit h in
theorem StructField.offset_ne_outOfFuel (field : StructField) :
    field.offset layouts ≠ Exec.outOfFuel :=
  bind_ne_outOfFuel (okOr_ne_outOfFuel _ _) fun _ _ => okOr_ne_outOfFuel _ _

omit h in
theorem Pointer.field_ne_outOfFuel (addr : VirtualAddress) (field : StructField) :
    Pointer.field layouts addr field ≠ Exec.outOfFuel := by
  rw [Pointer.field]
  split
  · exact fail_ne_outOfFuel _
  · exact bind_ne_outOfFuel (field.offset_ne_outOfFuel layouts)
      fun _ _ => ite_panicked_ne_outOfFuel _ _

/-- Reading a field ends. -/
theorem Pointer.readField_ne_outOfFuel {α : Type} (L : Layout α) (addr : VirtualAddress)
    (field : StructField) :
    Pointer.readField readMemory layouts L addr field ≠ Exec.outOfFuel :=
  bind_ne_outOfFuel (Pointer.field_ne_outOfFuel layouts addr field) fun _ _ =>
    bind_ne_outOfFuel (h _ _) fun _ _ => ok_ne_outOfFuel _

end Pointer

section Guests

variable {B : Type} [Memory B] [HasVcpus B]

theorem Backend.readVirtualMemory_ne_outOfFuel {backend : B} (h : Memory.ReadsEnd backend)
    (mmuAddr : PhysicalAddress) (addr : VirtualAddress) (len : ℕ) :
    Backend.readVirtualMemory backend mmuAddr addr len ≠ Exec.outOfFuel :=
  bind_ne_outOfFuel (walk_ne_outOfFuel _ h _ _ _) fun _ _ => mapErr_ne_outOfFuel _ (h _ _)

/-- Reads of the kernel of a Linux guest end. -/
theorem Linux.readKernelMemory_ne_outOfFuel {linux : Linux B}
    (h : Memory.ReadsEnd linux.backend) (addr : VirtualAddress) (len : ℕ) :
    linux.readKernelMemory addr len ≠ Exec.outOfFuel :=
  readPages_ne_outOfFuel (Backend.readVirtualMemory_ne_outOfFuel h _) addr len

omit [HasVcpus B] in
theorem Windows.readPrototypePte_ne_outOfFuel {windows : Windows B}
    (h : Memory.ReadsEnd windows.backend) (addr : VirtualAddress) (len : ℕ) (pte : MmPte) :
    windows.readPrototypePte addr len pte ≠ Exec.outOfFuel := by
  rw [Windows.readPrototypePte]
  dsimp only
  split
  · exact bind_ne_outOfFuel (ite_panicked_ne_outOfFuel _ _)
      fun _ _ => mapErr_ne_outOfFuel _ (h _ _)
  split
  · exact bind_ne_outOfFuel (ite_panicked_ne_outOfFuel _ _)
      fun _ _ => mapErr_ne_outOfFuel _ (h _ _)
  · exact ok_ne_outOfFuel _
  · exact fail_ne_outOfFuel _

/-- Reads of the kernel of a Windows guest end. -/
theorem Windows.readKernelMemory_ne_outOfFuel {windows : Windows B}
    (h : Memory.ReadsEnd windows.backend) (addr : VirtualAddress) (len : ℕ) :
    windows.readKernelMemory addr len ≠ Exec.outOfFuel := by
  refine readPages_ne_outOfFuel (fun addr len => ?_) addr len
  have hread := Backend.readVirtualMemory_ne_outOfFuel h windows.kpgd addr len
  rw [Windows.readVirtualMemoryRawWith]
  split
  · dsimp only
    split
    · refine bind_ne_outOfFuel (bind_ne_outOfFuel
        (Backend.readVirtualMemory_ne_outOfFuel h _ _ _) fun _ _ => ok_ne_outOfFuel _)
        fun _ _ => Windows.readPrototypePte_ne_outOfFuel h _ _ _
    · exact bind_ne_outOfFuel (ite_panicked_ne_outOfFuel _ _)
        fun _ _ => mapErr_ne_outOfFuel _ (h _ _)
    · exact fail_ne_outOfFuel _
    · exact ok_ne_outOfFuel _
    · exact fail_ne_outOfFuel _
  · exact hread

end Guests

/-! ## Reads that take a budget -/

/-- A reader with a step budget for which a larger one makes no difference. -/
def Reader.Settles {ε : Type} (reader : ℕ → Reader ε) : Prop :=
  ∀ n addr buf, (reader n addr buf).1 ≠ Exec.outOfFuel →
    ∀ m ≥ n, reader m addr buf = reader n addr buf

/-- So it does for reading page by page. -/
theorem Reader.Settles.loop {ε : Type} {reader : ℕ → Reader ε} (h : Reader.Settles reader)
    {n : ℕ} (fuel : ℕ) {addr nextPage : VirtualAddress} {buf : List UInt8}
    (hne : (readVirtualMemoryLoop (reader n) fuel addr nextPage buf).1 ≠ Exec.outOfFuel)
    {m : ℕ} (hm : n ≤ m) :
    readVirtualMemoryLoop (reader m) fuel addr nextPage buf
      = readVirtualMemoryLoop (reader n) fuel addr nextPage buf := by
  induction fuel generalizing addr nextPage buf with
  | zero => rfl
  | succ fuel ih =>
    rw [readVirtualMemoryLoop] at hne ⊢
    rw [readVirtualMemoryLoop]
    dsimp only at hne ⊢
    split
    · next hle =>
      rw [if_pos hle] at hne
      exact h n _ _ hne m hm
    · next hlong =>
      rw [if_neg hlong] at hne
      have hfirst : (reader n addr (buf.take (nextPage + 0x1000 - addr).toNat)).1
          ≠ Exec.outOfFuel := by
        intro heq
        refine hne ?_
        split
        · next hok => cases heq.symm.trans (congrArg Prod.fst hok)
        · next herr => exact (congrArg Prod.fst herr).symm.trans heq
      rw [h n _ _ hfirst m hm]
      split
      · next hok =>
        rw [hok] at hne
        rw [ih hne]
      · rfl

/-- Reads page by page settle if those of the pages do. -/
theorem settles_readPages {read : ℕ → VirtualAddress → ℕ → Exec TranslationError (List UInt8)}
    (h : ∀ addr len, Settles fun n => read n addr len) (addr : VirtualAddress) (len : ℕ) :
    Settles fun n => readPages addr len (read n) := by
  have hfill : Reader.Settles fun n => fill (read n) := by
    intro n addr buf hne m hm
    have hread : read m addr buf.length = read n addr buf.length := by
      refine h addr buf.length n (fun heq => hne ?_) m hm
      change read n addr buf.length = _ at heq
      show (fill (read n) addr buf).1 = _
      rw [fill, heq]
      rfl
    show fill (read m) addr buf = fill (read n) addr buf
    rw [fill, hread, fill]
  intro n hne m hm
  have hloop : (readVirtualMemory addr (List.replicate len 0) (fill (read n))).1
      ≠ Exec.outOfFuel := by
    intro heq
    refine hne ?_
    show readPages addr len (read n) = _
    rw [readPages]
    split
    · next hok => cases heq.symm.trans (congrArg Prod.fst hok)
    · next e bytes herr =>
      obtain rfl : e = .fuel := Except.error.inj ((congrArg Prod.fst herr).symm.trans heq)
      rfl
  show readPages addr len (read m) = readPages addr len (read n)
  rw [readPages, readPages, readVirtualMemory, readVirtualMemory, hfill.loop _ hloop hm]

namespace Windows

variable {B : Type} [Memory B] [HasVcpus B] (windows : Windows B)

/-- The search of the tree settles. -/
theorem settles_findInTree (f : VirtualAddress → Exec VmError Ordering) (p : VirtualAddress) :
    Settles fun n => windows.findInTree f n p := by
  have hchild : ∀ n m : ℕ, ∀ child : Exec VmError VirtualAddress,
      (∀ q, windows.findInTree f n q ≠ Exec.outOfFuel →
        windows.findInTree f m q = windows.findInTree f n q) →
      (child >>= fun q => if VirtualAddress.isNull q then pure none
        else windows.findInTree f n q) ≠ Exec.outOfFuel →
      (child >>= fun q => if VirtualAddress.isNull q then pure none
        else windows.findInTree f m q)
        = child >>= fun q => if VirtualAddress.isNull q then pure none
          else windows.findInTree f n q := by
    intro n m child ih hne
    cases child with
    | error e => rfl
    | ok q =>
      rw [ok_bind] at hne
      rw [ok_bind, ok_bind]
      split
      · rfl
      · next hq =>
        rw [if_neg hq] at hne
        exact ih q hne
  intro n
  induction n generalizing p with
  | zero => exact fun hne => absurd rfl hne
  | succ n ih =>
    intro hne m hm
    obtain ⟨m, rfl⟩ := Nat.exists_eq_add_one.mpr (Nat.zero_lt_of_lt hm)
    have ih := fun q hne => ih q hne m (Nat.le_of_succ_le_succ hm)
    dsimp only at hne ⊢
    rw [findInTree] at hne ⊢
    rw [findInTree]
    cases hord : f p with
    | error e => rfl
    | ok ord =>
      rw [hord, ok_bind] at hne
      rw [ok_bind, ok_bind]
      cases ord with
      | lt => exact hchild n m _ ih hne
      | eq => rfl
      | gt => exact hchild n m _ ih hne

/-- So do the reads of a process. -/
theorem settles_procSpace (proc : Os.Process) (pgd : PhysicalAddress) (addr : VirtualAddress)
    (len : ℕ) : Settles fun n => windows.procSpace n proc pgd addr len := by
  have hfind : ∀ addr, Settles fun n => windows.processFindVmaByAddress n proc addr := fun addr =>
    (Settles.const _).bind fun root => (windows.settles_findInTree _ root).bind fun _ => .const _
  have hvad : ∀ addr len, Settles fun n => windows.readVadPte n addr len proc := by
    intro addr len
    unfold readVadPte
    split
    · exact .const _
    · exact (((hfind addr).bind fun _ => .const _).map rfl).bind fun _ => .const _
  unfold procSpace
  split
  · exact .const _
  · refine settles_readPages (fun addr len => ?_) addr len
    unfold readVirtualMemoryRaw readVirtualMemoryRawWith
    split
    · dsimp only
      split
      · exact .const _
      · exact .const _
      · exact hvad addr len
      · exact .const _
      · exact .const _
    · exact .const _

end Windows
