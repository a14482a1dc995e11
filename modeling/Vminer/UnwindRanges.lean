import Vminer.Epilogs
import Vminer.FunctionTable
import Vminer.Prologs
import Vminer.WindowsCallstack

/-!
# Unwinding in the range of machine words

Everything that the unwinder adds up comes from the guest: the sizes of allocations, the
immediates of an epilog, the registers and the place of the exception directory in the image.
Nothing bounds them, so a sum may not fit.

`UnwindData.StaysInRange` says that none of the exact sums leaves its range, entry by entry
along the chain of parents and instruction by instruction of an epilog, that the directory is
aligned and that the chains end. With it the functions of the unwinder return, and without it
one of them does not (`UnwindData.unwinding_returns_iff`).
-/

namespace UnwindData

/-! ## The directory -/

/-- **An image that `init_unwind_data` accepts** for a module. -/
structure IsImageOf (data : UnwindData) (module : Callstack.Module) : Prop where
  offset : data.offset = module.start
  directory : data.directoryRange.1 ≤ data.directoryRange.2
  inside : data.directoryRange.2 ≤ data.content.length
  entries : (data.directoryRange.2 - data.directoryRange.1) % RuntimeFunction.layout.size = 0

/-- The image of a module is one that is accepted. -/
theorem isImageOf_of_initUnwindData {B : Type} [Memory B] [HasVcpus B] {windows : Windows B}
    {parsePe : PeParser} {fuel : ℕ} {ctx : Windows.Context} {module : Callstack.Module}
    {data : UnwindData} (h : windows.initUnwindData parsePe fuel ctx module = .ok data) :
    data.IsImageOf module := by
  obtain ⟨zeroes, -, h⟩ := (Exec.bind_eq_ok_iff _ _ _).mp h
  obtain ⟨content, -, h⟩ := (Exec.bind_eq_ok_iff _ _ _).mp h
  obtain ⟨pe, -, h⟩ := (Exec.bind_eq_ok_iff _ _ _).mp h
  obtain ⟨⟨start, size⟩, -, h⟩ := (Exec.bind_eq_ok_iff _ _ _).mp h
  dsimp only at h
  split at h
  · cases h
  · next hsize =>
    obtain ⟨hinside, hentries⟩ := not_or.mp hsize
    obtain rfl := Except.ok.inj h
    refine ⟨rfl, Nat.le_add_right _ _, not_lt.mp hinside, ?_⟩
    dsimp only
    rw [Nat.add_sub_cancel_left]
    exact not_not.mp hentries

/-- The entries of the directory. -/
def functions (data : UnwindData) : List RuntimeFunction :=
  ((RuntimeFunction.layout.readMany
    ((data.directoryRange.2 - data.directoryRange.1) / RuntimeFunction.layout.size)
    (data.content.drop data.directoryRange.1)).map Prod.fst).getD []

/-- **The directory of an image is searched**, unless its place is not aligned. -/
theorem findByOffset_eq {data : UnwindData} {module : Callstack.Module} (h : data.IsImageOf module)
    (offset : U32) :
    data.findByOffset offset = if data.directoryRange.1 % 4 = 0 then
      findRuntimeFunction data.functions offset else Exec.panicked := by
  unfold findByOffset functions
  have hrange : ¬ (data.directoryRange.2 < data.directoryRange.1
      ∨ data.content.length < data.directoryRange.2) :=
    not_or.mpr ⟨not_lt.mpr h.directory, not_lt.mpr h.inside⟩
  dsimp only
  rw [if_neg hrange]
  by_cases halign : data.directoryRange.1 % 4 = 0
  · rw [if_pos halign, if_neg (not_or.mpr ⟨not_not.mpr halign, not_not.mpr h.entries⟩)]
    have hlen : (data.directoryRange.2 - data.directoryRange.1) / RuntimeFunction.layout.size
        * RuntimeFunction.layout.size ≤ (data.content.drop data.directoryRange.1).length := by
      rw [List.length_drop]
      exact (Nat.div_mul_le_self _ _).trans (Nat.sub_le_sub_right h.inside _)
    obtain ⟨⟨functions, rest⟩, hread⟩ := RuntimeFunction.layout.exists_readMany hlen
    rw [hread]
    rfl
  · rw [if_neg halign, if_pos (Or.inl halign)]

open RuntimeFunction in
/-- **The search stays in the table**, and a function that it finds begins at the offset or
before it. -/
theorem findRuntimeFunction_spec (functions : List RuntimeFunction) (offset : U32) :
    Exec.Returns (findRuntimeFunction functions offset)
      ∧ ∀ rt, findRuntimeFunction functions offset = .ok (some rt) →
        rt.start.toNat ≤ offset.toNat := by
  rw [findRuntimeFunction_eq]
  rcases hsearch : (binarySearchBy (probe RuntimeFunction.isValid first offset.toNat)
      functions).run false with ⟨pos, _ | _⟩
  · have hresult := isProbeResult_binarySearchBy hsearch
    rw [afterSearch, if_neg Bool.false_ne_true]
    -- before the first entry, behind one, or at one
    rcases pos with (_ | i) | i
    · refine ⟨trivial, fun _ hrt => ?_⟩
      cases hrt
    · obtain ⟨-, hbelow, -⟩ := hresult
      obtain ⟨rt, hget, -, hkey⟩ := hbelow.resolve_left (Nat.succ_ne_zero i)
      have hget : functions[i]? = some rt := hget
      dsimp only
      rw [hget]
      refine ⟨trivial, fun rt' hrt' => ?_⟩
      obtain rfl := Option.some.inj (Option.ite_none_right_eq_some.mp (Except.ok.inj hrt')).2
      exact hkey.le
    · obtain ⟨rt, hget, -, hkey⟩ := hresult
      dsimp only
      rw [hget]
      exact ⟨trivial, fun rt' hrt' => Option.some.inj (Except.ok.inj hrt') ▸ hkey.le⟩
  · -- the search came to an entry that is not valid
    rw [afterSearch, if_pos rfl]
    have hself : List.Forall₂ ZeroedTo functions functions :=
      List.forall₂_same.mpr fun rt _ => ⟨Or.inl rfl, Or.inl rfl, Or.inl rfl⟩
    refine ⟨?_, fun rt hrt => ?_⟩
    · obtain ⟨e, herr⟩ | ⟨rt, hrt⟩ := findLinear_eq offset functions none
      · rw [herr]
        exact Exec.returns_fail e
      · rw [hrt]
        exact Exec.returns_ok rt
    · have hcontains := (findLinear_eq_some hself hrt).2
      rw [contains_eq_covers] at hcontains
      exact (covers_iff.mp hcontains).1

end UnwindData

/-! ## Epilogs -/

namespace Epilog

open X86

/-- What the emulation adds for some instructions. -/
def totalAmount (is : List Instr) : ℕ := (is.map fun i => (emulated i).toNat).sum

theorem totalAmount_cons (i : Instr) (is : List Instr) :
    totalAmount (i :: is) = (emulated i).toNat + totalAmount is := List.sum_cons

/-- Code that does not go on begins with no other instruction. -/
theorem forall_begins_of_stop {code : List UInt8}
    (h : ∀ i rest, decode code = some (i, rest) → i = .ret ∨ i = .pop rsp) (sp : VirtualAddress) :
    ∀ is, Begins code is → .pop rsp ∉ is → sp.toNat + totalAmount is < 2 ^ 64 := by
  intro is his hpop
  cases his with
  | nil => exact sp.isLt
  | cons hdecode hne _ =>
    obtain hret | hrsp := h _ _ hdecode
    · exact absurd hret hne
    · exact absurd (hrsp ▸ List.mem_cons_self) hpop

/-- **The emulation returns** exactly if the sums for what it goes through fit, up to a `ret`
or to what it does not know. -/
theorem returns_emulateEpilog_iff {rounds : ℕ} {code : List UInt8} (h : code.length ≤ rounds)
    (sp : VirtualAddress) (bp : Option VirtualAddress) :
    Exec.Returns (emulateEpilog rounds code sp bp)
      ↔ ∀ is, Begins code is → .pop rsp ∉ is → sp.toNat + totalAmount is < 2 ^ 64 := by
  induction rounds generalizing code sp bp with
  | zero =>
    obtain rfl := List.eq_nil_of_length_eq_zero (Nat.le_zero.mp h)
    exact iff_of_true trivial (forall_begins_of_stop (fun _ _ h => by cases h) sp)
  | succ rounds ih =>
    rw [emulateEpilog_succ]
    match hdecode : decode code with
    | none =>
      refine iff_of_true trivial (forall_begins_of_stop (fun i rest h => ?_) sp)
      cases hdecode.symm.trans h
    | some (i, rest) =>
      by_cases hstop : i = .ret ∨ i = .pop rsp
      · refine iff_of_true ?_ (forall_begins_of_stop (fun i' rest' h => ?_) sp)
        · obtain rfl | rfl := hstop <;> exact trivial
        · obtain ⟨rfl, -⟩ := Prod.mk.inj (Option.some.inj (hdecode.symm.trans h))
          exact hstop
      · obtain ⟨hret, hpop⟩ := not_or.mp hstop
        have hlen := length_decode hdecode
        rw [emulateStep_some _ _ _ i hret hpop, returns_checkedAdd_bind_iff,
          ih (by omega)]
        constructor
        · rintro ⟨hfits, hrest⟩ is his hnot
          cases his with
          | nil => exact sp.isLt
          | cons hi _ his =>
            obtain ⟨rfl, rfl⟩ := Prod.mk.inj (Option.some.inj (hdecode.symm.trans hi))
            have hsum := hrest _ his fun hmem => hnot (List.mem_cons_of_mem _ hmem)
            rw [toNat_add_of_lt hfits] at hsum
            rwa [totalAmount_cons, ← Nat.add_assoc]
        · intro hall
          have hcons : ∀ is, Begins rest is → .pop rsp ∉ is →
              sp.toNat + (emulated i).toNat + totalAmount is < 2 ^ 64 := by
            intro is his hnot
            rw [Nat.add_assoc, ← totalAmount_cons]
            exact hall (i :: is) (.cons hdecode hret his) fun hmem =>
              (List.mem_cons.mp hmem).elim (fun heq => hpop heq.symm) hnot
          have hfits := hcons [] (.nil rest) List.not_mem_nil
          refine ⟨hfits, fun is his hnot => ?_⟩
          rw [toNat_add_of_lt hfits]
          exact hcons is his hnot

/-- **An epilog is found** where the code is one, and the sums fit. -/
theorem emulateEpilog_eq_ok {rounds : ℕ} {code : List UInt8} (h : code.length ≤ rounds)
    {is : List Instr} (his : IsEpilog code is) (hpop : .pop rsp ∉ is) {sp : VirtualAddress}
    (hfits : sp.toNat + totalAmount is < 2 ^ 64) (bp : Option VirtualAddress) :
    ∃ found : VirtualAddress × Option VirtualAddress,
      emulateEpilog rounds code sp bp = .ok (some found)
        ∧ found.1.toNat = sp.toNat + totalAmount is := by
  induction his generalizing rounds sp bp with
  | @ret code rest hdecode =>
    obtain ⟨rounds, rfl⟩ := Nat.exists_eq_add_one.mpr
      ((Nat.zero_le _).trans_lt ((length_decode hdecode).trans_le h))
    rw [emulateEpilog_succ, hdecode]
    exact ⟨(sp, bp), rfl, rfl⟩
  | @cons code rest i is hdecode hret _ ih =>
    have hlen := (length_decode hdecode).trans_le h
    obtain ⟨rounds, rfl⟩ := Nat.exists_eq_add_one.mpr ((Nat.zero_le _).trans_lt hlen)
    obtain ⟨hne, hnot⟩ := not_or.mp (mt List.mem_cons.mpr hpop)
    rw [totalAmount_cons, ← Nat.add_assoc] at hfits ⊢
    have hfirst : sp.toNat + (emulated i).toNat < 2 ^ 64 := (Nat.le_add_right _ _).trans_lt hfits
    rw [emulateEpilog_succ, hdecode, emulateStep_some _ _ _ i hret (Ne.symm hne),
      checkedAdd_eq_ok hfirst]
    rw [← toNat_add_of_lt hfirst] at hfits ⊢
    exact ih (Nat.le_of_lt_succ hlen) hnot hfits _

end Epilog

namespace UnwindData

open X86 Epilog

/-- The code at the instruction pointer of a frame. -/
def codeOf (data : UnwindData) (frame : StackFrame) : List UInt8 :=
  data.content.drop (data.offsetOf frame.instructionPointer).toNat

/-- The entry that the directory gives for a frame. -/
def HasEntry (data : UnwindData) (frame : StackFrame) (rt : RuntimeFunction) : Prop :=
  findRuntimeFunction data.functions (data.offsetOf frame.instructionPointer) = .ok (some rt)

/-- The start of a function is an address, if it is the last parent. -/
def StartFits (data : UnwindData) (rt : RuntimeFunction) : Prop :=
  ∀ function, data.parseFunction rt = some function → function.mother = none →
    data.offset.toNat + rt.start.toNat < 2 ^ 64

/-- **The sums of `read_epilog` fit**: those for the instructions it goes through and, where
there is an epilog, for what is behind the return address and for the start of the function. -/
structure EpilogFits (data : UnwindData) (frame : StackFrame) : Prop where
  emulated : ∀ is, Begins (data.codeOf frame) is → .pop rsp ∉ is →
    frame.stackPointer.toNat + totalAmount is < 2 ^ 64
  nextSp : ∀ is, IsEpilog (data.codeOf frame) is → .pop rsp ∉ is →
    frame.stackPointer.toNat + totalAmount is + 8 < 2 ^ 64
  funStart : ∀ is rt, IsEpilog (data.codeOf frame) is → .pop rsp ∉ is → data.HasEntry frame rt →
    ¬ RunsIntoCycle data.Parent rt
      ∧ ∀ last, Relation.ReflTransGen data.Parent rt last → data.StartFits last

theorem rightUnique_parent (data : UnwindData) : Relator.RightUnique data.Parent := by
  rintro rt rt₁ rt₂ ⟨function, hparse, hm⟩ h
  exact Option.some.inj (hm.symm.trans ((parent_iff hparse rt₂).mp h))

/-- The loop of `read_epilog` panics at a start that does not fit. -/
theorem panicsAlong_motherStart (data : UnwindData) :
    PanicsAlong data.Parent data.StartFits fun n rt (_ : Unit) => motherStart data n rt where
  unique := data.rightUnique_parent
  zero _ _ := rfl
  round rt _ := by
    refine ⟨(), fun n => ?_⟩
    rw [motherStart]
    cases hparse : data.parseFunction rt with
    | none =>
      refine iff_of_true trivial ⟨fun function h => ?_, fun rt' h => ?_⟩
      · cases hparse.symm.trans h
      · exact absurd h (not_parent_of_parse_eq_none hparse rt')
    | some function =>
      dsimp only
      cases hm : function.mother with
      | none =>
        dsimp only
        rw [returns_checkedAdd_bind_iff]
        have hnot : ∀ rt', ¬ data.Parent rt rt' := fun rt' h => by
          cases hm.symm.trans ((parent_iff hparse rt').mp h)
        constructor
        · rintro ⟨hfits, -⟩
          exact ⟨fun function' _ _ => hfits, fun rt' h => absurd h (hnot rt')⟩
        · rintro ⟨hsafe, -⟩
          exact ⟨hsafe function hparse hm, trivial⟩
      | some mother =>
        constructor
        · intro hret
          refine ⟨fun function' h hnone => ?_, fun rt' h => ?_⟩
          · obtain rfl := Option.some.inj (hparse.symm.trans h)
            cases hm.symm.trans hnone
          · obtain rfl := Option.some.inj (hm.symm.trans ((parent_iff hparse rt').mp h))
            exact hret
        · exact fun h => h.2 mother ⟨function, hparse, hm⟩

/-- The emulation begins with the code at the instruction pointer. -/
theorem epilogAt_eq (data : UnwindData) (frame : StackFrame) :
    data.epilogAt frame
      = emulateEpilog (data.codeOf frame).length (data.codeOf frame) frame.stackPointer none := by
  unfold epilogAt readSlice codeOf
  by_cases hle : (data.offsetOf frame.instructionPointer).toNat ≤ data.content.length
  · rw [if_pos hle, List.splitAt_eq]
  · rw [if_neg hle, List.drop_eq_nil_of_le (not_le.mp hle).le]
    rfl

/-- The entry for a frame is what the directory gives, or none where it is damaged. -/
theorem entryAt_spec {data : UnwindData} {module : Callstack.Module} (h : data.IsImageOf module)
    (halign : data.directoryRange.1 % 4 = 0) (frame : StackFrame) :
    ∃ entry, data.entryAt (data.offsetOf frame.instructionPointer) = .ok entry
      ∧ ∀ rt, entry = some rt ↔ data.HasEntry frame rt := by
  have hreturns := (findRuntimeFunction_spec data.functions
    (data.offsetOf frame.instructionPointer)).1
  unfold entryAt HasEntry
  rw [findByOffset_eq h, if_pos halign]
  match findRuntimeFunction data.functions (data.offsetOf frame.instructionPointer), hreturns with
  | .ok entry, _ => exact ⟨entry, rfl, fun rt => ⟨congrArg _, Except.ok.inj⟩⟩
  | .error (.err e), _ => exact ⟨none, rfl, fun rt => ⟨fun h => (nomatch h), fun h => (nomatch h)⟩⟩

/-- The loop of `read_epilog` has no error of its own. -/
theorem exists_motherStart_eq_ok {data : UnwindData} {n : ℕ} {rt : RuntimeFunction}
    (h : Exec.Returns (motherStart data n rt)) : ∃ start, motherStart data n rt = .ok start := by
  induction n generalizing rt with
  | zero => exact h.elim
  | succ n ih =>
    rw [motherStart] at h ⊢
    cases hparse : data.parseFunction rt with
    | none => exact ⟨none, rfl⟩
    | some function =>
      rw [hparse] at h
      dsimp only at h ⊢
      cases hm : function.mother with
      | none =>
        rw [hm] at h
        dsimp only at h ⊢
        rw [checkedAdd_eq_ok ((returns_checkedAdd_bind_iff _ _ _).mp h).1]
        exact ⟨_, rfl⟩
      | some mother =>
        rw [hm] at h
        exact ih h

/-- What is done with an epilog, when its entry is known. -/
theorem returns_finishEpilog_iff {data : UnwindData} {frame : StackFrame}
    {entry : Option RuntimeFunction}
    (hentry : data.entryAt (data.offsetOf frame.instructionPointer) = .ok entry)
    (nextIpAddr : VirtualAddress) (nextBpAddr : Option VirtualAddress) :
    (∃ n, Exec.Returns (data.finishEpilog n frame (some (nextIpAddr, nextBpAddr))))
      ↔ nextIpAddr.toNat + 8 < 2 ^ 64 ∧ ∀ rt, entry = some rt → ¬ RunsIntoCycle data.Parent rt
        ∧ ∀ last, Relation.ReflTransGen data.Parent rt last → data.StartFits last := by
  have hfinish : ∀ n, data.finishEpilog n frame (some (nextIpAddr, nextBpAddr))
      = data.startFrom n entry >>= fun funStart => checkedAdd nextIpAddr 8 >>= fun addr =>
        .ok (some { nextSp := .Value addr, nextIpAddr, nextBpAddr, funStart }) := by
    intro n
    rw [finishEpilog, hentry]
    rfl
  simp only [hfinish]
  cases entry with
  | none =>
    simp only [startFrom, Exec.ok_bind, returns_checkedAdd_bind_iff]
    exact ⟨fun ⟨_, h, _⟩ => ⟨h, fun _ h => (nomatch h)⟩, fun h => ⟨0, h.1, trivial⟩⟩
  | some rt =>
    have hloop := data.panicsAlong_motherStart.returns_iff rt ()
    rw [acc_iff_not_runsIntoCycle] at hloop
    have hall : (∀ rt', some rt = some rt' → ¬ RunsIntoCycle data.Parent rt'
          ∧ ∀ last, Relation.ReflTransGen data.Parent rt' last → data.StartFits last)
        ↔ ∃ n, Exec.Returns (motherStart data n rt) :=
      ⟨fun h => hloop.mpr (h rt rfl), fun h _ heq => Option.some.inj heq ▸ hloop.mp h⟩
    rw [hall, ← exists_and_left]
    refine exists_congr fun n => ?_
    rw [startFrom, Exec.returns_bind_iff, and_comm]
    refine and_congr_left fun hret => ?_
    obtain ⟨start, hstart⟩ := exists_motherStart_eq_ok hret
    simp only [hstart, returns_checkedAdd_bind_iff]
    exact ⟨fun h => (h start rfl).1, fun h _ _ => ⟨h, trivial⟩⟩

/-- **`read_epilog` returns** exactly if its sums fit and, where it comes to an epilog, the
parents of the entry do not run into a cycle. -/
theorem returns_readEpilog_iff {data : UnwindData} {module : Callstack.Module}
    (h : data.IsImageOf module) (halign : data.directoryRange.1 % 4 = 0) (frame : StackFrame) :
    (∃ n, Exec.Returns (readEpilog data n frame)) ↔ data.EpilogFits frame := by
  obtain ⟨entry, hentry, hspec⟩ := entryAt_spec h halign frame
  have hfinish := returns_finishEpilog_iff hentry
  simp only [hspec] at hfinish
  simp only [readEpilog_eq, epilogAt_eq, Exec.returns_bind_iff, exists_and_left]
  rw [returns_emulateEpilog_iff le_rfl]
  constructor
  · rintro ⟨hemulated, n, hret⟩
    have hepilog : ∀ is, IsEpilog (data.codeOf frame) is → .pop rsp ∉ is →
        frame.stackPointer.toNat + totalAmount is + 8 < 2 ^ 64 ∧ ∀ rt, data.HasEntry frame rt →
          ¬ RunsIntoCycle data.Parent rt
            ∧ ∀ last, Relation.ReflTransGen data.Parent rt last → data.StartFits last := by
      intro is his hpop
      obtain ⟨⟨nextIpAddr, nextBpAddr⟩, hfound, hsum⟩ := emulateEpilog_eq_ok le_rfl his hpop
        (hemulated is his.begins hpop) none
      rw [← hsum]
      exact (hfinish nextIpAddr nextBpAddr).mp ⟨n, hret _ hfound⟩
    exact ⟨hemulated, fun is his hpop => (hepilog is his hpop).1,
      fun is rt his hpop => (hepilog is his hpop).2 rt⟩
  · rintro ⟨hemulated, hnextSp, hfunStart⟩
    refine ⟨hemulated, ?_⟩
    match hemulate : emulateEpilog (data.codeOf frame).length (data.codeOf frame)
        frame.stackPointer none with
    | .error stop => exact ⟨0, fun _ heq => (nomatch heq)⟩
    | .ok none => exact ⟨0, fun _ heq => Except.ok.inj heq ▸ trivial⟩
    | .ok (some (nextIpAddr, nextBpAddr)) =>
      obtain ⟨is, his, hpop, -, -⟩ := exists_isEpilog hemulate
      obtain ⟨found, hfound, hsum⟩ := emulateEpilog_eq_ok le_rfl his hpop
        (hemulated is his.begins hpop) none
      obtain rfl := Option.some.inj (Except.ok.inj (hemulate.symm.trans hfound))
      have hfits : nextIpAddr.toNat + 8 < 2 ^ 64 := hsum ▸ hnextSp is his hpop
      obtain ⟨n, hret⟩ := (hfinish nextIpAddr nextBpAddr).mpr
        ⟨hfits, fun rt => hfunStart is rt his hpop⟩
      exact ⟨n, fun _ heq => Except.ok.inj heq ▸ hret⟩

/-! ## Prologs -/

/-- **Where the loop of `unwind_with_infos` is**: what it knows of the instruction pointer,
its entry, and the stack pointer before what the entry undoes. -/
structure Undoing where
  ip : Option U32
  rt : RuntimeFunction
  sp : VirtualAddress
deriving DecidableEq

instance : Finite Undoing :=
  Finite.of_injective (fun u => (u.ip, u.rt, u.sp)) fun a b h => by
    cases a
    cases b
    simp_all

/-- After an entry it goes on with the parent, if what has been undone is an address. -/
def Undoing.Next (data : UnwindData) (u u' : Undoing) : Prop :=
  ∃ function, data.parseFunction u.rt = some function ∧ function.ending u.ip = .function
    ∧ function.mother = some u'.rt ∧ (data.parseFunction u'.rt).isSome ∧ u'.ip = none
    ∧ u'.sp.toNat = u.sp.toNat + function.stackSize u.ip

/-- **The sums for an entry fit**: the size of what it undoes, where `rbp` is saved, and the
stack pointer and the start of the parent after it, or the return address. -/
def FunctionFits (data : UnwindData) (function : FunctionEntry) (ip : Option U32) (sp : ℕ) :
    Prop :=
  function.stackSize ip < 2 ^ 32 ∧
    match function.ending ip with
    | .failed _ => True
    | .function =>
      (∀ n ∈ function.rbpSlot ip, sp + n < 2 ^ 64) ∧ sp + function.stackSize ip < 2 ^ 64 ∧
        match function.mother with
        | none => sp + function.stackSize ip + 8 < 2 ^ 64
        | some mother => (data.parseFunction mother).isSome →
          data.offset.toNat + mother.start.toNat < 2 ^ 64
    | .machFrame error =>
      (∀ n ∈ function.rbpSlot ip, sp + n < 2 ^ 64)
        ∧ function.stackSize ip + (if error then 8 else 0) < 2 ^ 32
        ∧ sp + (function.stackSize ip + if error then 8 else 0) + 0x18 < 2 ^ 64

/-- The sums for an entry that parses fit. -/
def Undoing.Fits (data : UnwindData) (u : Undoing) : Prop :=
  ∀ function, data.parseFunction u.rt = some function →
    data.FunctionFits function u.ip u.sp.toNat

theorem Undoing.rightUnique_next (data : UnwindData) : Relator.RightUnique (Undoing.Next data) := by
  rintro u ⟨ip₁, rt₁, sp₁⟩ ⟨ip₂, rt₂, sp₂⟩ ⟨function, hparse, -, hm₁, -, hip₁, hsp₁⟩
    ⟨function', hparse', -, hm₂, -, hip₂, hsp₂⟩
  obtain rfl := Option.some.inj (hparse.symm.trans hparse')
  obtain rfl := Option.some.inj (hm₁.symm.trans hm₂)
  obtain rfl := hip₁.trans hip₂.symm
  obtain rfl := BitVec.eq_of_toNat_eq (hsp₁.trans hsp₂.symm)
  rfl

/-- A 32-bit number at the width of an address. -/
theorem toNat_setWidth_ofNat {n : ℕ} (h : n < 2 ^ 32) :
    ((BitVec.ofNat 32 n).setWidth 64).toNat = n := by
  rw [BitVec.toNat_setWidth, BitVec.toNat_ofNat, Nat.mod_eq_of_lt h, Nat.mod_eq_of_lt (by omega)]

theorem setWidth_ofNat_of_lt {n : ℕ} (h : n < 2 ^ 32) :
    (BitVec.ofNat 32 n).setWidth 64 = BitVec.ofNat 64 n :=
  BitVec.eq_of_toNat_eq (by
    rw [toNat_setWidth_ofNat h, BitVec.toNat_ofNat, Nat.mod_eq_of_lt (by omega)])

/-- What the loop does with where `rbp` is saved. -/
theorem returns_bpAddrFrom_bind_iff {slot : Option ℕ} (hslot : ∀ n ∈ slot, n < 2 ^ 32)
    (sp : VirtualAddress) (bpAddr : Option VirtualAddress) :
    ∃ bpAddr', ∀ {α : Type} (f : Option VirtualAddress → Exec VmError α),
      Exec.Returns (bpAddrFrom sp (slot.map (BitVec.ofNat 32)) bpAddr >>= f)
        ↔ (∀ n ∈ slot, sp.toNat + n < 2 ^ 64) ∧ Exec.Returns (f bpAddr') := by
  cases slot with
  | none =>
    exact ⟨bpAddr, fun f => (and_iff_right fun _ h => (nomatch h)).symm⟩
  | some n =>
    refine ⟨some (sp + (BitVec.ofNat 32 n).setWidth 64), fun f => ?_⟩
    rw [Option.map_some, bpAddrFrom, bind_assoc, returns_checkedAdd_bind_iff,
      toNat_setWidth_ofNat (hslot n rfl), Exec.pure_eq_ok, Exec.ok_bind]
    exact and_congr_left fun _ => ⟨fun h m hm => Option.some.inj hm ▸ h, fun h => h n rfl⟩

/-- What is behind the codes of a function: its return address, or its parent. -/
theorem returns_chainStep_function_iff (data : UnwindData) (function : FunctionEntry) {size : ℕ}
    (hsize : size < 2 ^ 32) (sp : VirtualAddress) (bpAddr : Option VirtualAddress)
    (funStart : VirtualAddress) (n : ℕ) :
    Exec.Returns (data.chainStep function (.SpOffset (BitVec.ofNat 32 size)) sp bpAddr funStart
        >>= Sum.elim (fun r => .ok r) (data.chainFrom n))
      ↔ sp.toNat + size < 2 ^ 64 ∧
        match function.mother with
        | none => sp.toNat + size + 8 < 2 ^ 64
        | some mother => (data.parseFunction mother).isSome →
          data.offset.toNat + mother.start.toNat < 2 ^ 64
            ∧ Exec.Returns (data.chainFrom n (none, mother, sp + BitVec.ofNat 64 size, bpAddr,
              data.offset + mother.start.setWidth 64)) := by
  rw [chainStep, bind_assoc, returns_checkedAdd_bind_iff, toNat_setWidth_ofNat hsize]
  refine and_congr_right fun hfits => ?_
  cases function.mother with
  | none =>
    dsimp only
    rw [bind_assoc, returns_checkedAdd_bind_iff, toNat_add_of_lt (by
      rwa [toNat_setWidth_ofNat hsize]), toNat_setWidth_ofNat hsize]
    exact and_iff_left trivial
  | some mother =>
    dsimp only
    rw [bind_assoc, Exec.returns_okOr_bind_iff, setWidth_ofNat_of_lt hsize]
    cases hparse : data.parseFunction mother with
    | none => exact ⟨fun _ h => (nomatch h), fun _ _ h => (nomatch h)⟩
    | some function' =>
      have hstart : (mother.start.setWidth 64).toNat = mother.start.toNat :=
        BitVec.toNat_setWidth_of_le (by decide)
      simp only [bind_assoc, returns_checkedAdd_bind_iff, hstart]
      exact ⟨fun h _ => h function' rfl, fun h _ _ => h rfl⟩

/-- What is behind a machine frame. -/
theorem returns_chainStep_machFrame_iff (data : UnwindData) (function : FunctionEntry) {size : ℕ}
    (hsize : size < 2 ^ 32) (sp : VirtualAddress) (bpAddr : Option VirtualAddress)
    (funStart : VirtualAddress) (n : ℕ) :
    Exec.Returns (data.chainStep function (.MachInst (BitVec.ofNat 32 size)) sp bpAddr funStart
        >>= Sum.elim (fun r => .ok r) (data.chainFrom n))
      ↔ sp.toNat + size + 0x18 < 2 ^ 64 := by
  have hwidth := toNat_setWidth_ofNat hsize
  simp only [chainStep, bind_assoc, returns_checkedAdd_bind_iff, hwidth]
  constructor
  · rintro ⟨hfits, hadd, -⟩
    rwa [toNat_add_of_lt (by rwa [hwidth]), hwidth] at hadd
  · intro hadd
    have hfits : sp.toNat + size < 2 ^ 64 := (Nat.le_add_right _ _).trans_lt hadd
    refine ⟨hfits, ?_, trivial⟩
    rwa [toNat_add_of_lt (by rwa [hwidth]), hwidth]

/-- What is behind a machine frame, with the sums that are made before. -/
theorem returns_finish_machFrame_iff (data : UnwindData) {function : FunctionEntry}
    {ip : Option U32} (hsize : function.stackSize ip < 2 ^ 32) (error : Bool)
    {sp : VirtualAddress} {bpAddr bpAddr' : Option VirtualAddress}
    (hbp : ∀ {α : Type} (f : Option VirtualAddress → Exec VmError α),
      Exec.Returns (bpAddrFrom sp ((function.rbpSlot ip).map (BitVec.ofNat 32)) bpAddr >>= f)
        ↔ (∀ n ∈ function.rbpSlot ip, sp.toNat + n < 2 ^ 64) ∧ Exec.Returns (f bpAddr'))
    (funStart : VirtualAddress) (n : ℕ) :
    Exec.Returns (FunctionEntry.finish (BitVec.ofNat 32 (function.stackSize ip))
        ((function.rbpSlot ip).map (BitVec.ofNat 32)) (.machFrame error) >>= fun codes =>
        bpAddrFrom sp codes.1 bpAddr >>= fun bpAddr =>
        data.chainStep function codes.2 sp bpAddr funStart
          >>= Sum.elim (fun r => .ok r) (data.chainFrom n))
      ↔ (∀ n ∈ function.rbpSlot ip, sp.toNat + n < 2 ^ 64)
        ∧ function.stackSize ip + (if error then 8 else 0) < 2 ^ 32
        ∧ sp.toNat + (function.stackSize ip + if error then 8 else 0) + 0x18 < 2 ^ 64 := by
  have hword : (if error then 8 else 0 : U32) = BitVec.ofNat 32 (if error then 8 else 0) := by
    cases error <;> rfl
  have herror : (if error then 8 else 0) < 2 ^ 32 := by cases error <;> decide
  rw [FunctionEntry.finish, bind_assoc, returns_checkedAdd_bind_iff, hword,
    BitVec.toNat_ofNat, BitVec.toNat_ofNat, Nat.mod_eq_of_lt hsize,
    Nat.mod_eq_of_lt herror, ← BitVec.ofNat_add, Exec.pure_eq_ok, Exec.ok_bind, hbp]
  constructor
  · rintro ⟨hsum, hslot, hret⟩
    exact ⟨hslot, hsum, (returns_chainStep_machFrame_iff data function hsum sp _ _ n).mp hret⟩
  · rintro ⟨hslot, hsum, hret⟩
    exact ⟨hsum, hslot, (returns_chainStep_machFrame_iff data function hsum sp _ _ n).mpr hret⟩

/-- **A round of the loop returns** exactly if the sums for its entry fit and, where it goes on
with the parent, the rest returns. -/
theorem returns_chainFrom_succ_iff {data : UnwindData} {rt : RuntimeFunction}
    {function : FunctionEntry} (hparse : data.parseFunction rt = some function) (ip : Option U32)
    (sp : VirtualAddress) (s : Option VirtualAddress × VirtualAddress) :
    ∃ s' : Option VirtualAddress × VirtualAddress, ∀ n,
      Exec.Returns (data.chainFrom (n + 1) (ip, rt, sp, s.1, s.2))
        ↔ data.FunctionFits function ip sp.toNat
          ∧ ∀ mother, function.ending ip = .function → function.mother = some mother →
            (data.parseFunction mother).isSome → Exec.Returns (data.chainFrom n
              (none, mother, sp + BitVec.ofNat 64 (function.stackSize ip), s'.1, s'.2)) := by
  simp only [chainFrom_succ_of_parse hparse, FunctionFits]
  rw [FunctionEntry.readUnwindCodes_eq]
  by_cases hsize : function.stackSize ip < 2 ^ 32
  · obtain ⟨bpAddr', hbp⟩ := returns_bpAddrFrom_bind_iff (FunctionEntry.rbpSlot_lt hsize) sp s.1
    rw [if_pos hsize]
    cases function.ending ip with
    | failed e => exact ⟨s, fun n => iff_of_true trivial ⟨⟨hsize, trivial⟩, fun _ h => nomatch h⟩⟩
    | machFrame error =>
      refine ⟨s, fun n => (returns_finish_machFrame_iff data hsize error hbp s.2 n).trans ?_⟩
      exact ⟨fun h => ⟨⟨hsize, h⟩, fun _ h => nomatch h⟩, fun h => h.1.2⟩
    | function =>
      have hstep := returns_chainStep_function_iff data function hsize sp bpAddr' s.2
      rw [FunctionEntry.finish]
      simp only [Exec.ok_bind, hbp, hstep]
      cases function.mother with
      | none =>
        exact ⟨s, fun n => ⟨fun h => ⟨⟨hsize, h⟩, fun _ _ h => nomatch h⟩, fun h => h.1.2⟩⟩
      | some mother =>
        refine ⟨(bpAddr', data.offset + mother.start.setWidth 64), fun n => ⟨?_, ?_⟩⟩
        · rintro ⟨hslot, hfits, hmother⟩
          refine ⟨⟨hsize, hslot, hfits, fun h => (hmother h).1⟩, fun mother' _ hm h => ?_⟩
          obtain rfl := Option.some.inj hm
          exact (hmother h).2
        · rintro ⟨⟨-, hslot, hfits, hmother⟩, hrest⟩
          exact ⟨hslot, hfits, fun h => ⟨hmother h, hrest mother trivial rfl h⟩⟩
  · rw [if_neg hsize]
    exact ⟨s, fun n => iff_of_false id fun h => hsize h.1.1⟩

/-- **The loop of `unwind_with_infos`** panics at an entry whose sums do not fit. -/
theorem panicsAlong_chainFrom (data : UnwindData) :
    PanicsAlong (Undoing.Next data) (Undoing.Fits data)
      fun n u (s : Option VirtualAddress × VirtualAddress) =>
        data.chainFrom n (u.ip, u.rt, u.sp, s.1, s.2) where
  unique := Undoing.rightUnique_next data
  zero _ _ := rfl
  round u s := by
    obtain ⟨ip, rt, sp⟩ := u
    cases hparse : data.parseFunction rt with
    | none =>
      refine ⟨s, fun n => iff_of_true ?_ ⟨fun function h => ?_, fun u' h => ?_⟩⟩
      · rw [chainFrom_succ, chainRound, hparse]
        exact trivial
      · cases hparse.symm.trans h
      · obtain ⟨function, h, -⟩ := h
        cases hparse.symm.trans h
    | some function =>
      obtain ⟨s', hround⟩ := returns_chainFrom_succ_iff hparse ip sp s
      refine ⟨s', fun n => (hround n).trans ⟨?_, ?_⟩⟩
      · rintro ⟨hfits, hrest⟩
        refine ⟨fun _ heq => Option.some.inj (hparse.symm.trans heq) ▸ hfits, fun u' h => ?_⟩
        obtain ⟨function', heq, hend, hm, hsome, hip, hsp⟩ := h
        obtain rfl := Option.some.inj (hparse.symm.trans heq)
        have hadd : u'.sp = sp + BitVec.ofNat 64 (function.stackSize ip) :=
          BitVec.eq_of_toNat_eq (hsp.trans (toNat_add_ofNat_of_lt (hsp ▸ u'.sp.isLt)).symm)
        rw [hip, hadd]
        exact hrest u'.rt hend hm hsome
      · rintro ⟨hfits, hrest⟩
        have hfits : data.FunctionFits function ip sp.toNat := hfits function hparse
        refine ⟨hfits, fun mother hend hm hsome => ?_⟩
        have hsum : sp.toNat + function.stackSize ip < 2 ^ 64 := by
          have hfits := hfits.2
          rw [hend] at hfits
          exact hfits.2.1
        exact hrest ⟨none, mother, sp + BitVec.ofNat 64 (function.stackSize ip)⟩
          ⟨function, hparse, hend, hm, hsome, rfl, toNat_add_ofNat_of_lt hsum⟩

/-- Where the frame of a function is, if the frame register that it needs is known. -/
def framePosition (function : FunctionEntry) (ipOffset : U32) (stackPointer : VirtualAddress)
    (basePointer : Option VirtualAddress) : Option VirtualAddress :=
  match function.frameRegisterOffset with
  | none => some stackPointer
  | some offset =>
    if ipOffset = 0 then some stackPointer
    else basePointer.map (· - offset.setWidth 64)

theorem returns_framePointer_bind_iff {α : Type} (function : FunctionEntry) (ipOffset : U32)
    (sp : VirtualAddress) (basePointer : Option VirtualAddress)
    (f : VirtualAddress → Exec VmError α) :
    Exec.Returns (framePointer function ipOffset sp basePointer >>= f)
      ↔ (∀ offset base, function.frameRegisterOffset = some offset → ipOffset ≠ 0 →
          basePointer = some base → offset.toNat ≤ base.toNat)
        ∧ ∀ p, framePosition function ipOffset sp basePointer = some p → Exec.Returns (f p) := by
  unfold framePointer framePosition
  cases function.frameRegisterOffset with
  | none =>
    exact ⟨fun h => ⟨fun _ _ h => (nomatch h), fun _ heq => Option.some.inj heq ▸ h⟩,
      fun h => h.2 sp rfl⟩
  | some offset =>
    dsimp only
    by_cases hip : ipOffset = 0
    · rw [if_pos hip, if_pos hip]
      exact ⟨fun h => ⟨fun _ _ _ hne => absurd hip hne, fun _ heq => Option.some.inj heq ▸ h⟩,
        fun h => h.2 sp rfl⟩
    · rw [if_neg hip, if_neg hip]
      cases basePointer with
      | none => exact iff_of_true trivial ⟨fun _ _ _ _ h => (nomatch h), fun _ h => (nomatch h)⟩
      | some base =>
        have hoffset : (offset.setWidth 64).toNat = offset.toNat :=
          BitVec.toNat_setWidth_of_le (by decide)
        rw [Exec.okOr, Exec.ok_bind, checkedSub, hoffset]
        by_cases hle : offset.toNat ≤ base.toNat
        · rw [if_pos hle]
          refine ⟨fun h => ⟨fun _ _ ho _ hb => ?_, fun _ heq => Option.some.inj heq ▸ h⟩,
            fun h => h.2 _ rfl⟩
          exact Option.some.inj ho ▸ Option.some.inj hb ▸ hle
        · rw [if_neg hle]
          exact iff_of_false id fun h => hle (h.1 offset base rfl hip rfl)

/-- **The sums of `unwind_with_infos` fit**: the frame pointer is not below its offset, and
neither what an entry along the chain of parents undoes nor what follows it overflows. -/
structure PrologFits (data : UnwindData) (rt : RuntimeFunction) (frame : StackFrame)
    (basePointer : Option VirtualAddress) : Prop where
  frameOffset : ∀ function offset base, data.parseFunction rt = some function →
    function.frameRegisterOffset = some offset →
    data.offsetOf frame.instructionPointer ≠ rt.start → basePointer = some base →
    offset.toNat ≤ base.toNat
  chain : ∀ function sp, data.parseFunction rt = some function →
    framePosition function (data.offsetOf frame.instructionPointer - rt.start) frame.stackPointer
      basePointer = some sp →
    let start : Undoing := ⟨some (data.offsetOf frame.instructionPointer - rt.start), rt, sp⟩
    ¬ RunsIntoCycle (Undoing.Next data) start
      ∧ ∀ u, Relation.ReflTransGen (Undoing.Next data) start u → u.Fits data

/-- **`unwind_with_infos` returns** exactly if its sums fit and its loop does not run into a
cycle, for an entry that begins at the instruction pointer or before it. -/
theorem returns_unwindWithInfos_iff (data : UnwindData) {rt : RuntimeFunction} {frame : StackFrame}
    (hstart : rt.start.toNat ≤ (data.offsetOf frame.instructionPointer).toNat)
    (hoffset : data.offset.toNat + rt.start.toNat < 2 ^ 64)
    (basePointer : Option VirtualAddress) :
    (∃ n, Exec.Returns (unwindWithInfos data n rt frame basePointer))
      ↔ data.PrologFits rt frame basePointer := by
  have hwidth : (rt.start.setWidth 64).toNat = rt.start.toNat :=
    BitVec.toNat_setWidth_of_le (by decide)
  have hzero : data.offsetOf frame.instructionPointer - rt.start ≠ 0
      ↔ data.offsetOf frame.instructionPointer ≠ rt.start :=
    not_congr sub_eq_zero
  cases hparse : data.parseFunction rt with
  | none =>
    refine iff_of_true ⟨0, ?_⟩ ⟨fun function _ _ h => ?_, fun function _ h => ?_⟩
    · rw [unwindWithInfos, checkedSub_eq_ok hstart, hparse]
      exact trivial
    · cases hparse.symm.trans h
    · cases hparse.symm.trans h
  | some function =>
    have hrun : ∀ n, unwindWithInfos data n rt frame basePointer
        = framePointer function (data.offsetOf frame.instructionPointer - rt.start)
            frame.stackPointer basePointer >>= fun sp =>
          data.chainFrom n (some (data.offsetOf frame.instructionPointer - rt.start), rt, sp, none,
            data.offset + rt.start.setWidth 64) := by
      intro n
      rw [unwindWithInfos_eq, chainStart, checkedSub_eq_ok hstart, hparse,
        checkedAdd_eq_ok (by rwa [hwidth])]
      simp only [Exec.okOr, Exec.ok_bind, bind_assoc, Exec.pure_eq_ok]
    simp only [hrun, returns_framePointer_bind_iff, exists_and_left, hzero]
    have hloop := fun sp => data.panicsAlong_chainFrom.returns_iff
      ⟨some (data.offsetOf frame.instructionPointer - rt.start), rt, sp⟩
      (none, data.offset + rt.start.setWidth 64)
    simp only [acc_iff_not_runsIntoCycle] at hloop
    constructor
    · rintro ⟨hframe, n, hret⟩
      refine ⟨fun function' offset base h => ?_, fun function' sp h hsp => ?_⟩
      · obtain rfl := Option.some.inj (hparse.symm.trans h)
        exact hframe offset base
      · obtain rfl := Option.some.inj (hparse.symm.trans h)
        exact (hloop sp).mp ⟨n, hret sp hsp⟩
    · rintro ⟨hframe, hchain⟩
      refine ⟨fun offset base => hframe function offset base hparse, ?_⟩
      cases hsp : framePosition function (data.offsetOf frame.instructionPointer - rt.start)
          frame.stackPointer basePointer with
      | none => exact ⟨0, fun _ h => absurd h.symm (Option.some_ne_none _)⟩
      | some sp =>
        obtain ⟨n, hret⟩ := (hloop sp).mpr (hchain function sp hparse hsp)
        exact ⟨n, fun _ h => Option.some.inj h ▸ hret⟩

/-! ## The unwinder -/

/-- **Unwinding a frame does not panic**: the search of the directory, the emulation of an
epilog and, for the entry that is found, undoing its prolog and those of its parents all
return. -/
structure UnwindsWithoutPanic (data : UnwindData) (frame : StackFrame)
    (basePointer : Option VirtualAddress) : Prop where
  findByOffset : Exec.Returns (data.findByOffset (data.offsetOf frame.instructionPointer))
  readEpilog : ∃ n, Exec.Returns (readEpilog data n frame)
  unwindWithInfos : ∀ rt,
    data.findByOffset (data.offsetOf frame.instructionPointer) = .ok (some rt) →
    ∃ n, Exec.Returns (unwindWithInfos data n rt frame basePointer)

/-- **What is computed for a frame stays in range**: the directory is where its entries are
aligned, and all sums fit. -/
structure StaysInRange (data : UnwindData) (frame : StackFrame)
    (basePointer : Option VirtualAddress) : Prop where
  aligned : data.directoryRange.1 % 4 = 0
  epilog : data.EpilogFits frame
  prolog : ∀ rt, data.HasEntry frame rt → data.PrologFits rt frame basePointer

/-- **Unwinding does not panic on an image** exactly if the directory is aligned, no sum
leaves the range of its type and no chain of parents runs into a cycle. -/
theorem unwinding_returns_iff (data : UnwindData) (module : Callstack.Module)
    (himage : data.IsImageOf module) (frame : StackFrame)
    (hip : module.contains frame.instructionPointer = true)
    (basePointer : Option VirtualAddress) :
    data.UnwindsWithoutPanic frame basePointer ↔ data.StaysInRange frame basePointer := by
  have hfind := findByOffset_eq himage (data.offsetOf frame.instructionPointer)
  obtain ⟨hreturns, hstart⟩ := findRuntimeFunction_spec data.functions
    (data.offsetOf frame.instructionPointer)
  by_cases halign : data.directoryRange.1 % 4 = 0
  · rw [if_pos halign] at hfind
    -- an entry that is found begins at the instruction pointer or before it
    have hprolog : ∀ rt, data.HasEntry frame rt →
        ((∃ n, Exec.Returns (unwindWithInfos data n rt frame basePointer))
          ↔ data.PrologFits rt frame basePointer) := by
      intro rt hrt
      refine returns_unwindWithInfos_iff data (hstart rt hrt) ?_ basePointer
      have hle : data.offset ≤ frame.instructionPointer := by
        rw [himage.offset]
        exact of_decide_eq_true (Bool.and_elim_left hip)
      have hsub := toNat_sub_of_le hle
      have hmod : (data.offsetOf frame.instructionPointer).toNat
          ≤ (frame.instructionPointer - data.offset).toNat := by
        rw [offsetOf, BitVec.toNat_setWidth]
        exact Nat.mod_le _ _
      have hlt := frame.instructionPointer.isLt
      have hle' : data.offset.toNat ≤ frame.instructionPointer.toNat := hle
      have hrange := hstart rt hrt
      omega
    constructor
    · rintro ⟨-, hepilog, hunwind⟩
      refine ⟨halign, (returns_readEpilog_iff himage halign frame).mp hepilog, fun rt hrt => ?_⟩
      exact (hprolog rt hrt).mp (hunwind rt (hfind.trans hrt))
    · rintro ⟨-, hepilog, hfits⟩
      refine ⟨hfind ▸ hreturns, (returns_readEpilog_iff himage halign frame).mpr hepilog,
        fun rt hrt => ?_⟩
      have hentry : data.HasEntry frame rt := hfind.symm.trans hrt
      exact (hprolog rt hentry).mpr (hfits rt hentry)
  · rw [if_neg halign] at hfind
    refine iff_of_false (fun h => ?_) fun h => halign h.aligned
    exact Exec.not_returns_panicked (hfind ▸ h.findByOffset)

/-! ### Two images -/

/-- A function of an image that is mapped at `0x1000`, described by the first entry of its
directory: some unwind codes, and code that is no epilog. -/
def imageOf (start : U32) (codes : List UInt8) : UnwindData where
  offset := 0x1000
  content :=
    -- the directory
    RuntimeFunction.layout.enc ⟨start, 0x20, 0x0c⟩
      -- the entry
      ++ [0x01, 0x00, UInt8.ofNat (codes.length / 2), 0x00] ++ codes
      ++ List.replicate (0x10 - codes.length) 0x90
  directoryRange := (0, 12)

/-- The module of the image. -/
def imageModule : Callstack.Module := ⟨0x1000, 0x1020, ⟨0⟩⟩

/-- A frame in the last byte of the function. -/
def imageFrame : StackFrame :=
  { start := none, size := none, instructionPointer := 0x101f, stackPointer := 0x8000,
    module := none }

/-- The prolog is a `push rbp`. -/
theorem staysInRange_pushRbp :
    (imageOf 0x1c [0x01, 0x50]).StaysInRange imageFrame none := by
  refine (unwinding_returns_iff (imageOf 0x1c [0x01, 0x50]) imageModule
    ⟨rfl, by decide, by decide, by decide⟩ imageFrame (by decide) none).mp
    ⟨by decide, ⟨0, by decide⟩, fun rt hrt => ?_⟩
  have hentry : (imageOf 0x1c [0x01, 0x50]).findByOffset 0x1f
      = .ok (some ⟨0x1c, 0x20, 0x0c⟩) := by decide
  obtain rfl := Option.some.inj (Except.ok.inj (hentry.symm.trans hrt))
  exact ⟨1, by decide⟩

/-- Two allocations of two gigabytes each. -/
def twoAllocations : List UInt8 :=
  [0x02, 0x11, 0x00, 0x00, 0x00, 0x80, 0x01, 0x11, 0x00, 0x00, 0x00, 0x80]

/-- **Two allocations overflow.** -/
theorem not_returns_twoAllocations :
    ¬ ∀ (data : UnwindData) (module : Callstack.Module) (frame : StackFrame)
      (basePointer : Option VirtualAddress), data.IsImageOf module →
      module.contains frame.instructionPointer = true →
      data.UnwindsWithoutPanic frame basePointer := by
  intro h
  obtain ⟨-, -, hunwind⟩ := h (imageOf 0x1c twoAllocations) imageModule imageFrame none
    ⟨rfl, by decide, by decide, by decide⟩ (by decide)
  obtain ⟨n, hret⟩ := hunwind ⟨0x1c, 0x20, 0x0c⟩ (by decide)
  have hstart : (imageOf 0x1c twoAllocations).chainStart ⟨0x1c, 0x20, 0x0c⟩ imageFrame none
      = .ok (some 3, ⟨0x1c, 0x20, 0x0c⟩, 0x8000, none, 0x101c) := by decide
  have hround : ¬ Exec.Returns ((imageOf 0x1c twoAllocations).chainRound
      (some 3, ⟨0x1c, 0x20, 0x0c⟩, 0x8000, none, 0x101c)) := by decide
  rw [unwindWithInfos_eq, hstart, Exec.ok_bind] at hret
  cases n with
  | zero => exact hret.elim
  | succ n =>
    rw [chainFrom_succ, Exec.returns_bind_iff] at hret
    exact hround hret.1

end UnwindData
