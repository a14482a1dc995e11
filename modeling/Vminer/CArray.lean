import Vminer.CString
import Vminer.ListWalks

/-!
# Arrays for C

A function of the C interface that gives several things walks over them and pushes each into an
`Array` over the buffer of the caller. Without a buffer they are only counted. A buffer takes as
many as it has room for, and the one after them breaks the walk off: what would fail behind it
is not reached, so a walk that cannot be counted to its end may still fill a buffer
(`fill_visits`).

An error, or a panic, is kept for later, and a success forgets the one before. What a failed
call leaves in the buffer is not told.
-/

namespace CArray

open CString (Memory copyTo nonNull IsBuffer)

variable {α T : Type}

/-! ## Results for C -/

/-- `convert_panic_payload`: what a panic says, if that is a string. -/
def convertPanicPayload : Option String → VmError
  | some s => VmError.new ("panic at: " ++ s)
  | none => VmError.new "panic"

/-- `catch_unwind`, without its effect on the error that is kept. -/
def catchUnwind (payload : Option String) : Exec VmError α → Exec Empty (Except VmError α)
  | .ok a => .ok (.ok a)
  | .error (.err e) => .ok (.error e)
  | .error .panic => .ok (.error (convertPanicPayload payload))
  | .error .fuel => Exec.outOfFuel

/-- What there is after a call: what it returned, the error that is kept, and the memory of the
caller. -/
structure Called where
  code : ℤ
  lastError : Option VmError
  mem : Option Memory

/-! ## Arrays -/

/-- `Array` -/
structure Array where
  array : Option U64
  maxSize : ℕ
  cursor : ℕ
deriving DecidableEq, Repr

namespace Array

/-- `Array::new` -/
def new (ptr : U64) (maxSize : ℕ) : Array where
  array := nonNull ptr
  maxSize := maxSize
  cursor := 0

/-- `Array::push` -/
def push (L : Layout T) (val : T) (array : Array) (mem : Memory) :
    ControlFlow × Array × Memory :=
  match array.array with
  | some ptr =>
    if array.cursor < array.maxSize then
      (.Continue, { array with cursor := array.cursor + 1 },
        copyTo mem (ptr + BitVec.ofNat 64 (array.cursor * L.size)) (L.enc val))
    else (.Break, array, mem)
  | none => (.Continue, { array with cursor := array.cursor + 1 }, mem)

end Array

/-- The callback of the functions that give an array: `Ok(array.push(item.into()))`. -/
def pushInto (L : Layout T) (into : α → T) : Callback (Array × Memory) α := fun item s =>
  return s.1.push L (into item) s.2

/-- `n as isize` -/
def asIsize (n : ℕ) : ℤ := (BitVec.ofNat 64 n).toInt

/-- `fill` -/
def fill (L : Layout T) (into : α → T) (payload : Option String) (ptr : U64) (maxSize : ℕ)
    (f : Callback (Array × Memory) α → Array × Memory → Exec VmError (Array × Memory))
    (mem : Memory) : Exec Empty Called := do
  match ← catchUnwind payload (f (pushInto L into) (Array.new ptr maxSize, mem)) with
  | .ok (array, mem) => return ⟨asIsize array.cursor, none, some mem⟩
  | .error e => return ⟨-1, some e, none⟩

/-! ## The functions that give arrays -/

/-- `Process`, `Thread`, `Module` and `Vma`: an address. -/
def addrLayout : Layout VirtualAddress := Layout.u64

/-- `StackFrame` of the C interface. -/
structure CStackFrame where
  ip : VirtualAddress
  sp : VirtualAddress
deriving DecidableEq, Repr

/-- `From<&vmc::StackFrame> for StackFrame` -/
def CStackFrame.from (frame : StackFrame) : CStackFrame where
  ip := frame.instructionPointer
  sp := frame.stackPointer

/-- `StackFrame`, in memory. -/
def stackFrameLayout : Layout CStackFrame :=
  (Layout.pair Layout.u64 Layout.u64).via (fun frame => (frame.ip, frame.sp))
    (fun words => ⟨words.1, words.2⟩) fun _ => rfl

section Functions

variable (payload : Option String) (ptr : U64) (maxSize : ℕ) (mem : Memory)

/-- `os_processes` -/
def osProcesses (forEachProcess : Callback (Array × Memory) Os.Process → Array × Memory →
    Exec VmError (Array × Memory)) : Exec Empty Called :=
  fill addrLayout Os.Process.addr payload ptr maxSize forEachProcess mem

/-- `process_vmas` -/
def processVmas (processForEachVma : Callback (Array × Memory) Os.Vma → Array × Memory →
    Exec VmError (Array × Memory)) : Exec Empty Called :=
  fill addrLayout Os.Vma.addr payload ptr maxSize processForEachVma mem

/-- `process_threads` -/
def processThreads (processForEachThread : Callback (Array × Memory) Os.Thread →
    Array × Memory → Exec VmError (Array × Memory)) : Exec Empty Called :=
  fill addrLayout Os.Thread.addr payload ptr maxSize processForEachThread mem

/-- `process_children` -/
def processChildren (processForEachChild : Callback (Array × Memory) Os.Process →
    Array × Memory → Exec VmError (Array × Memory)) : Exec Empty Called :=
  fill addrLayout Os.Process.addr payload ptr maxSize processForEachChild mem

/-- `process_modules` -/
def processModules (processForEachModule : Callback (Array × Memory) Os.Module →
    Array × Memory → Exec VmError (Array × Memory)) : Exec Empty Called :=
  fill addrLayout Os.Module.addr payload ptr maxSize processForEachModule mem

/-- `process_callstack` -/
def processCallstack (processCallstack : Callback (Array × Memory) StackFrame →
    Array × Memory → Exec VmError (Array × Memory)) : Exec Empty Called :=
  fill stackFrameLayout CStackFrame.from payload ptr maxSize processCallstack mem

end Functions

/-! ## What a buffer gets -/

section Fill

variable {L : Layout T} {into : α → T} {payload : Option String} {ptr : U64} {maxSize : ℕ}
  {mem : Memory}

/-- An element of an array of the caller. -/
def element (L : Layout T) (mem : Memory) (ptr : U64) (i : ℕ) : T :=
  L.dec ((List.range L.size).map fun k => mem (ptr + BitVec.ofNat 64 (i * L.size + k)))

/-- **An array of the caller holds these values**, and nothing behind them was written. -/
structure Holds (L : Layout T) (mem mem' : Memory) (ptr : U64) (vals : List T) : Prop where
  element_eq : ∀ i (h : i < vals.length), element L mem' ptr i = vals[i]
  frame : ∀ addr, vals.length * L.size ≤ (addr - ptr).toNat → mem' addr = mem addr

/-- What there is after a walk to its end. -/
def afterWalk (broken : Option VmError) (n : ℕ) (mem : Memory) : Called :=
  match broken with
  | none => ⟨n, none, some mem⟩
  | some e => ⟨-1, some e, none⟩

/-- A number that is small enough is itself. -/
theorem asIsize_eq {n : ℕ} (h : n < 2 ^ 63) : asIsize n = n := by
  have hn : (BitVec.ofNat 64 n).toNat = n := BitVec.toNat_ofNat n 64 |>.trans
    (Nat.mod_eq_of_lt (h.trans (by norm_num)))
  rw [asIsize, BitVec.toInt_eq_toNat_of_lt (by rw [hn]; omega), hn]

/-- Without a buffer, a walk is counted. -/
theorem forEach_count (L : Layout T) (into : α → T) (items : List α) (maxSize cursor : ℕ)
    (mem : Memory) :
    forEach (pushInto L into) items (⟨none, maxSize, cursor⟩, mem)
      = .ok (.Continue, ⟨none, maxSize, cursor + items.length⟩, mem) := by
  induction items generalizing cursor with
  | nil => rfl
  | cons item items ih =>
    show forEach (pushInto L into) items (⟨none, maxSize, cursor + 1⟩, mem) = _
    rw [ih, List.length_cons, Nat.add_right_comm, Nat.add_assoc]

/-- A value is written behind others. -/
theorem copyTo_encList_concat (vals : List T) (val : T)
    (hlen : (vals.length + 1) * L.size < 2 ^ 64) :
    copyTo (copyTo mem ptr (L.encList vals)) (ptr + BitVec.ofNat 64 (vals.length * L.size))
        (L.enc val)
      = copyTo mem ptr (L.encList (vals ++ [val])) := by
  have hvals := L.length_encList vals
  have hval := L.length_enc val
  rw [← hvals, CString.copyTo_append mem ptr (by rw [hvals, hval]; linarith)]
  simp [Layout.encList]

/-- **A buffer takes what there is room for**, and the item behind breaks the walk off. The
induction is on the items that are to come, over those that were written. -/
theorem forEach_fill (into : α → T) (ptr : U64) (mem : Memory)
    (hfits : maxSize * L.size < 2 ^ 64) (items : List α) (front : List T)
    (hfront : front.length ≤ maxSize) :
    forEach (pushInto L into) items
        (⟨some ptr, maxSize, front.length⟩, copyTo mem ptr (L.encList front))
      = .ok (if front.length + items.length ≤ maxSize then .Continue else .Break,
        ⟨some ptr, maxSize, min (front.length + items.length) maxSize⟩,
        copyTo mem ptr (L.encList (front ++ (items.take (maxSize - front.length)).map into))) := by
  induction items generalizing front with
  | nil =>
    rw [List.take_nil, List.map_nil, List.append_nil, List.length_nil, Nat.add_zero,
      if_pos hfront, min_eq_left hfront]
    rfl
  | cons item items ih =>
    by_cases hlt : front.length < maxSize
    · have hroom : (front.length + 1) * L.size < 2 ^ 64 :=
        (Nat.mul_le_mul_right _ hlt).trans_lt hfits
      have hpush : pushInto L into item
          (⟨some ptr, maxSize, front.length⟩, copyTo mem ptr (L.encList front))
          = .ok (.Continue, ⟨some ptr, maxSize, front.length + 1⟩,
            copyTo mem ptr (L.encList (front ++ [into item]))) := by
        rw [← copyTo_encList_concat front (into item) hroom]
        exact congrArg Except.ok (if_pos hlt)
      have hih := ih (front ++ [into item]) (by simpa using hlt)
      rw [List.length_append, List.length_singleton] at hih
      have htake : (item :: items).take (maxSize - front.length)
          = item :: items.take (maxSize - (front.length + 1)) := by
        rw [← List.take_succ_cons]
        congr 1
        omega
      rw [forEach, hpush]
      show forEach (pushInto L into) items _ = _
      rw [hih, htake, List.length_cons, List.append_assoc]
      simp only [Nat.add_assoc, Nat.add_comm 1, List.map_cons, List.cons_append, List.nil_append]
    · have heq : front.length = maxSize := le_antisymm hfront (not_lt.mp hlt)
      have hpush : pushInto L into item
          (⟨some ptr, maxSize, front.length⟩, copyTo mem ptr (L.encList front))
          = .ok (.Break, ⟨some ptr, maxSize, front.length⟩,
            copyTo mem ptr (L.encList front)) :=
        congrArg Except.ok (if_neg hlt)
      rw [forEach, hpush, heq, Nat.sub_self, List.take_zero, List.map_nil, List.append_nil,
        List.length_cons, if_neg (by omega), min_eq_right (by omega)]
      rfl

/-- The values can be read where they were written. -/
theorem holds_encList (vals : List T) (hlen : vals.length * L.size < 2 ^ 64) :
    Holds L mem (copyTo mem ptr (L.encList vals)) ptr vals := by
  have hvals := L.length_encList vals
  constructor
  · intro i hi
    have hbytes : ((List.range L.size).map fun k =>
        copyTo mem ptr (L.encList vals) (ptr + BitVec.ofNat 64 (i * L.size + k)))
        = ((L.encList vals).drop (i * L.size)).take L.size := by
      have hend : i * L.size + L.size ≤ vals.length * L.size := by
        rw [← Nat.succ_mul]
        exact Nat.mul_le_mul_right _ hi
      refine List.ext_getElem ?_ fun k hk _ => ?_
      · simp only [List.length_map, List.length_range, List.length_take, List.length_drop, hvals]
        omega
      · rw [List.length_map, List.length_range] at hk
        rw [List.getElem_map, List.getElem_range, List.getElem_take, List.getElem_drop, copyTo,
          CString.toNat_add_ofNat_sub ptr (by omega),
          List.getElem?_eq_getElem (by rw [hvals]; omega)]
    rw [element, hbytes, L.take_drop_encList vals i hi, L.dec_enc]
  · intro addr haddr
    rw [copyTo, List.getElem?_eq_none (by rwa [hvals])]

/-- What `fill` gives, where the walk is known. -/
theorem fill_of_visits {walk : (σ : Type) → Callback σ α → σ → Exec VmError σ} {items : List α}
    {broken : Option VmError} (h : Visits walk items broken) {flow : ControlFlow}
    {array : Array} {mem' : Memory}
    (hwalk : forEach (pushInto L into) items (Array.new ptr maxSize, mem)
      = .ok (flow, array, mem')) (hsmall : array.cursor < 2 ^ 63) :
    fill L into payload ptr maxSize (walk _) mem
      = .ok (afterWalk (if flow = .Break then none else broken) array.cursor mem') := by
  rw [fill, h, handOut, hwalk]
  cases flow with
  | Break => simp [afterWalk, catchUnwind, asIsize_eq hsmall, Exec.ok_bind]
  | Continue =>
    cases broken with
    | none => simp [afterWalk, catchUnwind, asIsize_eq hsmall]
    | some e => rfl

variable {walk : (σ : Type) → Callback σ α → σ → Exec VmError σ} {items : List α}
  {broken : Option VmError}

/-- Without a buffer `fill` counts. -/
theorem fill_count (h : Visits walk items broken) (hlen : items.length < 2 ^ 63) :
    fill L into payload 0 maxSize (walk _) mem = .ok (afterWalk broken items.length mem) := by
  have hwalk := forEach_count L into items maxSize 0 mem
  have hnew : Array.new 0 maxSize = ⟨none, maxSize, 0⟩ := rfl
  rw [Nat.zero_add, ← hnew] at hwalk
  exact fill_of_visits h hwalk hlen

/-- With a buffer it takes as many as there is room for. -/
theorem fill_buffer (h : Visits walk items broken) (hbuf : IsBuffer ptr (maxSize * L.size))
    (hmax : maxSize < 2 ^ 63) :
    ∃ mem', Holds L mem mem' ptr ((items.take maxSize).map into)
      ∧ fill L into payload ptr maxSize (walk _) mem
        = .ok (afterWalk (if items.length ≤ maxSize then broken else none)
          (min items.length maxSize) mem') := by
  have hpos : 0 < ptr.toNat := Nat.pos_of_ne_zero fun h => hbuf.ptr_ne (BitVec.eq_of_toNat_eq h)
  have hfits := hbuf.fits
  have hwalk := forEach_fill into ptr mem (show maxSize * L.size < 2 ^ 64 by omega) items []
    (Nat.zero_le maxSize)
  rw [L.encList_nil, CString.copyTo_nil, List.length_nil, Nat.zero_add, Nat.sub_zero,
    List.nil_append] at hwalk
  have hlen : ((items.take maxSize).map into).length ≤ maxSize := by simp
  refine ⟨_, holds_encList _ ((Nat.mul_le_mul_right _ hlen).trans_lt (by omega)), ?_⟩
  have hnew : Array.new ptr maxSize = ⟨some ptr, maxSize, 0⟩ := by
    rw [Array.new, nonNull, if_neg hbuf.ptr_ne]
  rw [fill_of_visits h (by rw [hnew]; exact hwalk) ((min_le_right _ _).trans_lt hmax)]
  by_cases hle : items.length ≤ maxSize
  · simp [hle]
  · simp [hle]

/-- **What a client gets of a walk.** Without a buffer the items are counted, and an error behind
them is all there is. A buffer holds as many of them as it has room for; only where it has room
for all of them an error behind them is met. So who counts them first, and comes again with a
buffer for that many, has each of them, in order, and nothing else was written. -/
theorem fill_visits (h : Visits walk items broken) (hlen : items.length < 2 ^ 63) :
    fill L into payload 0 maxSize (walk _) mem = .ok (afterWalk broken items.length mem)
      ∧ (IsBuffer ptr (maxSize * L.size) → maxSize < 2 ^ 63 →
        ∃ mem', Holds L mem mem' ptr ((items.take maxSize).map into)
          ∧ fill L into payload ptr maxSize (walk _) mem
            = .ok (afterWalk (if items.length ≤ maxSize then broken else none)
              (min items.length maxSize) mem'))
      ∧ ∀ {n : ℕ} {counted : Called},
        fill L into payload 0 maxSize (walk _) mem = .ok counted → counted.code = n →
        IsBuffer ptr (n * L.size) →
        ∃ mem', Holds L mem mem' ptr (items.map into)
          ∧ fill L into payload ptr n (walk _) mem = .ok ⟨n, none, some mem'⟩ := by
  refine ⟨fill_count h hlen, fun hbuf hmax => fill_buffer h hbuf hmax,
    fun {n counted} hcount hcode hbuf => ?_⟩
  rw [fill_count h hlen] at hcount
  have hcounted : afterWalk broken items.length mem = counted := Except.ok.inj hcount
  cases broken with
  | some e =>
    have hcode' : (-1 : ℤ) = n := by rw [← hcode, ← hcounted]; rfl
    omega
  | none =>
    have hcode' : (items.length : ℤ) = n := by rw [← hcode, ← hcounted]; rfl
    have hn : items.length = n := Int.ofNat.inj hcode'
    have hbuffer : ∃ mem', Holds L mem mem' ptr ((items.take n).map into)
        ∧ fill L into payload ptr n (walk _) mem
          = .ok (afterWalk (if items.length ≤ n then none else none) (min items.length n) mem') :=
      fill_buffer h hbuf (hn ▸ hlen)
    rw [List.take_of_length_le hn.le, ite_self, hn, min_self] at hbuffer
    exact hbuffer

end Fill

/-- Two processes of a guest are counted, and then put into a buffer for both, or the first of
them into one for one address. -/
theorem fill_visits_twoProcesses :
    osProcesses none 0 1 (fun _ => 0) (WindowsProcesses.twoProcesses.forEachProcess 3)
        = .ok ⟨2, none, some fun _ => 0⟩
      ∧ (∃ mem', Holds addrLayout (fun _ => 0) mem' 0x1000 [16, 40]
        ∧ osProcesses none 0x1000 2 (fun _ => 0) (WindowsProcesses.twoProcesses.forEachProcess 3)
          = .ok ⟨2, none, some mem'⟩)
      ∧ ∃ mem', Holds addrLayout (fun _ => 0) mem' 0x1000 [16]
        ∧ osProcesses none 0x1000 1 (fun _ => 0) (WindowsProcesses.twoProcesses.forEachProcess 3)
          = .ok ⟨1, none, some mem'⟩ := by
  have hvisits : Visits (fun _ f s => WindowsProcesses.twoProcesses.forEachProcess 3 f s)
      [⟨16⟩, ⟨40⟩] none := by
    intro σ f s
    exact WindowsProcesses.isList_twoProcesses.visits_processes (by decide) σ f s
  obtain ⟨hcount, hfirst, hfill⟩ := fill_visits hvisits (by decide) (L := addrLayout)
  have hcounted : osProcesses none 0 1 (fun _ => 0)
      (WindowsProcesses.twoProcesses.forEachProcess 3) = .ok ⟨2, none, some fun _ => 0⟩ := hcount
  have hboth : IsBuffer 0x1000 (2 * addrLayout.size) := ⟨by decide, by decide⟩
  have hone : IsBuffer 0x1000 (1 * addrLayout.size) := ⟨by decide, by decide⟩
  exact ⟨hcounted, hfill hcounted rfl hboth, hfirst hone (by decide)⟩

end CArray
