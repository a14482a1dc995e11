import Vminer.Arch
import Vminer.VirtualRead

/-!
# Reading the structures of a guest

What the two guest systems share: the handles to their objects, and pointers
to structures of the guest whose fields are found by name in its debugging
information.

A structure or a field that the debugging information does not have is an
error when it is used, not before; whether a field exists is how the tool
tells versions of a system apart (`StructField.present`).
-/

/-! ## Handles -/

/-- `Module` -/
structure Os.Module where
  addr : VirtualAddress
deriving DecidableEq, Repr

/-- `Process` -/
structure Os.Process where
  addr : VirtualAddress
deriving DecidableEq, Repr

/-- `Vma` -/
structure Os.Vma where
  addr : VirtualAddress
deriving DecidableEq, Repr

/-- `ControlFlow<()>` -/
inductive ControlFlow where
  | Continue
  | Break
deriving DecidableEq, Repr

/-- `FnMut(T) -> VmResult<ControlFlow<()>>`, with the state it captures. -/
abbrev Callback (σ α : Type) : Type := α → σ → Exec VmError (ControlFlow × σ)

/-- A callback that never breaks a walk off. -/
def Continues {σ α : Type} (f : Callback σ α) : Prop := ∀ a s, ∃ s', f a s = .ok (.Continue, s')

/-- `StackFrame` -/
structure StackFrame where
  start : Option VirtualAddress
  size : Option U64
  stackPointer : VirtualAddress
  instructionPointer : VirtualAddress
  module : Option Os.Module
deriving DecidableEq, Repr

/-! ## Memory page by page -/

section Pagewise

variable {B : Type} [Memory B] [HasVcpus B]

/-- The MMU of a backend. -/
def Backend.mmuDesc (backend : B) : MmuDesc :=
  (Architecture.intoRuntime (HasVcpus.arch backend)).mmuDesc

/-- `Backend::read_virtual_memory` -/
def Backend.readVirtualMemory (backend : B) (mmuAddr : PhysicalAddress)
    (addr : VirtualAddress) (len : ℕ) : Exec TranslationError (List UInt8) :=
  defaultReadVirtualMemory (Backend.mmuDesc backend) backend mmuAddr addr len

/-- `Backend::read_value_virtual` -/
def Backend.readValueVirtual {α : Type} (backend : B) (L : Layout α)
    (mmuAddr : PhysicalAddress) (addr : VirtualAddress) : Exec TranslationError α := do
  let bytes ← Backend.readVirtualMemory backend mmuAddr addr L.size
  return L.dec bytes

/-- `vmc::read_virtual_memory` into a fresh buffer, with the error of the guest
system: how its `Os::read_virtual_memory` reads a value. -/
def readPages (addr : VirtualAddress) (len : ℕ)
    (read : VirtualAddress → ℕ → Exec TranslationError (List UInt8)) :
    Exec VmError (List UInt8) :=
  match readVirtualMemory addr (List.replicate len 0) (fill read) with
  | (.ok (), bytes) => .ok bytes
  | (.error e, _) => Exec.mapErr TranslationError.toVm (.error e)

end Pagewise

/-! ## Pointers -/

/-- `StructRef`: where the fields of a structure are, by name. -/
abbrev StructRef : Type := String → Option U64

/-- The structures of the debugging information, by name. -/
abbrev Layouts : Type := String → Option StructRef

/-- A field of a structure of the guest: the tool's name for the structure,
the guest's, and the name of the field. -/
structure StructField where
  structName : String
  kernelName : String
  name : String
deriving DecidableEq, Repr

namespace StructField

/-- `HasLayout::get_layout`, then `HasOffset::offset` -/
def offset (field : StructField) (layouts : Layouts) : Exec VmError U64 := do
  let layout ← Exec.okOr (layouts field.kernelName) (.missingSymbol field.structName)
  Exec.okOr (layout field.name) (.missingField field.name field.kernelName)

/-- `has_field` -/
def present (field : StructField) (layouts : Layouts) : Bool :=
  match field.offset layouts with
  | .ok _ => true
  | .error _ => false

end StructField

/-- How a pointer reads: its `Context`. -/
abbrev ReadMemory : Type := VirtualAddress → ℕ → Exec VmError (List UInt8)

namespace Pointer

variable {α : Type}

/-- `Pointer::read` -/
def read (readMemory : ReadMemory) (L : Layout α) (addr : VirtualAddress) :
    Exec VmError α := do
  let bytes ← readMemory addr L.size
  return L.dec bytes

/-- `Pointer::field` -/
def field (layouts : Layouts) (addr : VirtualAddress) (field : StructField) :
    Exec VmError VirtualAddress :=
  if VirtualAddress.isNull addr then Exec.fail .nullPtr
  else do
    let offset ← field.offset layouts
    checkedAdd addr offset

/-- `Pointer::read_field` -/
def readField (readMemory : ReadMemory) (layouts : Layouts) (L : Layout α)
    (addr : VirtualAddress) (field : StructField) : Exec VmError α := do
  let addr ← Pointer.field layouts addr field
  Pointer.read readMemory L addr

/-- `Pointer::read_pointer_field` -/
def readPointerField (readMemory : ReadMemory) (layouts : Layouts)
    (addr : VirtualAddress) (field : StructField) : Exec VmError VirtualAddress :=
  readField readMemory layouts Layout.u64 addr field

/-- `Pointer::map_non_null` -/
def mapNonNull (addr : VirtualAddress) (f : VirtualAddress → Exec VmError α) :
    Exec VmError (Option α) :=
  if VirtualAddress.isNull addr then return none else some <$> f addr

end Pointer

/-! ## Walks

A walk over the objects of a guest hands each of them to a callback until one
breaks it off. -/

section Walks

variable {σ α : Type}

/-- What a walk does after a part of it, unless that broke it off. -/
def ControlFlow.andThen (part : Exec VmError (ControlFlow × σ))
    (rest : σ → Exec VmError (ControlFlow × σ)) : Exec VmError (ControlFlow × σ) := do
  match ← part with
  | (.Break, s) => return (.Break, s)
  | (.Continue, s) => rest s

/-- Hand the items of a list to a callback. -/
def forEach (f : Callback σ α) : List α → σ → Exec VmError (ControlFlow × σ)
  | [], s => return (.Continue, s)
  | a :: items, s => ControlFlow.andThen (f a s) (forEach f items)

/-- The loop of `iterate_list`, from a position on: `next` is the field that
links the positions, and an element begins `offset` bytes before its own. -/
def Pointer.iterateListFrom (readMemory : ReadMemory) (layouts : Layouts) (next : StructField)
    (head : VirtualAddress) (offset : U64) (f : Callback σ VirtualAddress) :
    ℕ → VirtualAddress → σ → Exec VmError σ
  | 0, _, _ => Exec.outOfFuel
  | fuel + 1, pos, s => do
    let pos ← Pointer.readPointerField readMemory layouts pos next
    if pos = head then return s
    else do
      let item ← checkedSub pos offset
      match ← f item s with
      | (.Break, s) => return s
      | (.Continue, s) => Pointer.iterateListFrom readMemory layouts next head offset f fuel pos s

/-- `iterate_list`, for the elements that are linked by their field `link`. -/
def Pointer.iterateList (readMemory : ReadMemory) (layouts : Layouts) (next link : StructField)
    (fuel : ℕ) (head : VirtualAddress) (f : Callback σ VirtualAddress) (s : σ) :
    Exec VmError σ := do
  let offset ← link.offset layouts
  Pointer.iterateListFrom readMemory layouts next head offset f fuel head s

theorem ControlFlow.andThen_assoc (part : Exec VmError (ControlFlow × σ))
    (rest rest' : σ → Exec VmError (ControlFlow × σ)) :
    andThen (andThen part rest) rest' = andThen part fun s => andThen (rest s) rest' := by
  match part with
  | .error e => rfl
  | .ok (.Break, s) => rfl
  | .ok (.Continue, s) => rfl

/-- Two lists are walked one after the other. -/
theorem forEach_append (f : Callback σ α) (items items' : List α) (s : σ) :
    forEach f (items ++ items') s
      = ControlFlow.andThen (forEach f items s) (forEach f items') := by
  induction items generalizing s with
  | nil => rfl
  | cons a items ih =>
    rw [List.cons_append, forEach, forEach, ControlFlow.andThen_assoc]
    exact congrArg _ (funext ih)

/-- `find`: the callback that looks for an item. -/
def find (predicate : α → Exec VmError Bool) : Callback (Option α) α := fun item result => do
  if ← predicate item then return (.Break, some item) else return (.Continue, result)

/-- **Looking for an item** finds the first one. -/
theorem forEach_find {β : Type} (predicate : α → Exec VmError Bool) (item : β → α) {p : β → Bool}
    (items : List β) (h : ∀ b ∈ items, predicate (item b) = .ok (p b)) (result : Option α) :
    forEach (find predicate) (items.map item) result
      = .ok (match items.find? p with
        | some b => (.Break, some (item b))
        | none => (.Continue, result)) := by
  induction items with
  | nil => rfl
  | cons b items ih =>
    have hb : find predicate (item b) result
        = .ok (if p b then (.Break, some (item b)) else (.Continue, result)) := by
      rw [find, h b List.mem_cons_self, Exec.ok_bind]
      cases p b <;> rfl
    rw [List.map_cons, forEach, hb, List.find?_cons]
    cases hp : p b with
    | true => rfl
    | false => exact ih fun b hb => h b (List.mem_cons_of_mem _ hb)

/-- A callback that looks at a part of the items. -/
theorem forEach_map {β : Type} (f : Callback σ α) (item : β → α) (items : List β) (s : σ) :
    forEach f (items.map item) s = forEach (fun b => f (item b)) items s := by
  induction items generalizing s with
  | nil => rfl
  | cons b items ih =>
    rw [List.map_cons, forEach, forEach]
    exact congrArg _ (funext ih)

/-- A callback that passes over the items that are of no interest to it. -/
theorem forEach_filter {β : Type} {f : Callback σ α} (item : β → α) {p : β → Bool}
    {g : Callback σ β} {items : List β}
    (hg : ∀ b ∈ items, ∀ s, g b s = if p b then f (item b) s else .ok (.Continue, s)) (s : σ) :
    forEach g items s = forEach f ((items.filter p).map item) s := by
  induction items generalizing s with
  | nil => rfl
  | cons b items ih =>
    have hrest := fun s => ih (fun b hb => hg b (List.mem_cons_of_mem _ hb)) s
    rw [forEach, hg b List.mem_cons_self]
    cases hp : p b with
    | true =>
      rw [List.filter_cons_of_pos hp, List.map_cons, forEach, if_pos rfl]
      exact congrArg _ (funext hrest)
    | false =>
      rw [List.filter_cons_of_neg (ne_true_of_eq_false hp), if_neg Bool.false_ne_true]
      exact hrest s

/-- A callback that collects something of each item. -/
theorem forEach_push {β γ : Type} {f : Callback (List γ) α} (item : β → α) (g : β → γ)
    {items : List β} (hf : ∀ b ∈ items, ∀ l, f (item b) l = .ok (.Continue, l ++ [g b]))
    (l : List γ) : forEach f (items.map item) l = .ok (.Continue, l ++ items.map g) := by
  induction items generalizing l with
  | nil => exact congrArg (fun l => Except.ok (ControlFlow.Continue, l)) (List.append_nil l).symm
  | cons b items ih =>
    rw [List.map_cons, forEach, hf b List.mem_cons_self]
    show forEach f (items.map item) (l ++ [g b]) = _
    rw [ih (fun b hb => hf b (List.mem_cons_of_mem _ hb)), List.append_assoc]
    rfl

/-- **A circular list in memory**, from a position on: the elements that are
linked by the field `next` up to the head. -/
def Pointer.HoldsList (readMemory : ReadMemory) (layouts : Layouts) (next : StructField)
    (head : VirtualAddress) (offset : U64) : List VirtualAddress → VirtualAddress → Prop
  | [], pos => Pointer.readPointerField readMemory layouts pos next = .ok head
  | item :: items, pos => ∃ pos' ≠ head,
      Pointer.readPointerField readMemory layouts pos next = .ok pos'
        ∧ checkedSub (ε := VmError) pos' offset = .ok item
        ∧ Pointer.HoldsList readMemory layouts next head offset items pos'

/-- **The walk of a list** hands its elements to the callback. -/
theorem Pointer.iterateListFrom_eq {readMemory : ReadMemory} {layouts : Layouts}
    {next : StructField} {head : VirtualAddress} {offset : U64} (f : Callback σ VirtualAddress)
    {items : List VirtualAddress} {pos : VirtualAddress}
    (h : HoldsList readMemory layouts next head offset items pos) {fuel : ℕ}
    (hfuel : items.length < fuel) (s : σ) :
    iterateListFrom readMemory layouts next head offset f fuel pos s
      = Prod.snd <$> forEach f items s := by
  induction items generalizing pos fuel s with
  | nil =>
    obtain ⟨fuel, rfl⟩ := Nat.exists_eq_add_one.mpr hfuel
    rw [iterateListFrom,
      show Pointer.readPointerField readMemory layouts pos next = .ok head from h, Exec.ok_bind,
      if_pos rfl]
    rfl
  | cons item items ih =>
    obtain ⟨fuel, rfl⟩ := Nat.exists_eq_add_one.mpr (Nat.zero_lt_of_lt hfuel)
    obtain ⟨pos', hne, hread, hsub, hrest⟩ := h
    rw [iterateListFrom, hread, Exec.ok_bind, if_neg hne, hsub, Exec.ok_bind, forEach,
      ControlFlow.andThen]
    match f item s with
    | .error e => rfl
    | .ok (.Break, s') => rfl
    | .ok (.Continue, s') => exact ih hrest (Nat.lt_of_succ_lt_succ hfuel) s'

/-- `Os::vma_contains` -/
def Os.vmaContains (vmaStart vmaEnd : Os.Vma → Exec VmError VirtualAddress) (vma : Os.Vma)
    (addr : VirtualAddress) : Exec VmError Bool := do
  let start ← vmaStart vma
  if start ≤ addr then do
    let stop ← vmaEnd vma
    return addr < stop
  else return false

/-- `Os::process_find_vma_by_address`, where a guest system does not have its
own. -/
def Os.processFindVmaByAddress
    (processForEachVma : Callback (Option Os.Vma) Os.Vma → Option Os.Vma →
      Exec VmError (Option Os.Vma))
    (vmaContains : Os.Vma → VirtualAddress → Exec VmError Bool) (addr : VirtualAddress) :
    Exec VmError (Option Os.Vma) :=
  processForEachVma (find fun v => vmaContains v addr) none

/-- `Os::module_contains` -/
def Os.moduleContains
    (moduleSpan : Os.Module → Exec VmError (VirtualAddress × VirtualAddress))
    (module : Os.Module) (addr : VirtualAddress) : Exec VmError Bool := do
  let (start, stop) ← moduleSpan module
  return start ≤ addr && addr < stop

/-- `Os::find_module_by_address` -/
def Os.findModuleByAddress
    (forEachKernelModule processForEachModule : Callback (Option Os.Module) Os.Module →
      Option Os.Module → Exec VmError (Option Os.Module))
    (moduleContains : Os.Module → VirtualAddress → Exec VmError Bool) (addr : VirtualAddress) :
    Exec VmError (Option Os.Module) :=
  let find := find fun m => moduleContains m addr
  if VirtualAddress.isKernel addr then forEachKernelModule find none
  else processForEachModule find none

end Walks
