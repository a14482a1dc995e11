import Vminer.CArray
import Vminer.Clients

/-!
# Errors for C

The interface keeps the error of the last call that failed, and a call that succeeds forgets it.
It can be taken, and is then a pointer of the client, which may put a context around it, print it
and free it. An error that is printed stays where it is.

Every error that there is has one owner: it is the one that is kept, or the client has a pointer
to it that it did not give back. A client that only passes pointers it has does nothing that is
undefined, whatever the allocator does, and each error says what was put into it
(`errors_ledger`). What is printed is the beginning of what the error and its causes say, though
the formatter is only told piece by piece whether they fit (`holdsText_printError`).
-/

namespace CErrors

open CString (Memory Writer Formatter FmtError IsBuffer HoldsText textOf)

/-! ## What an error says -/

/-- What an I/O error says, and what its causes say. -/
structure IoTexts where
  text : IoError → String
  sources : IoError → List String

section Text

variable (ioTexts : IoTexts)

/-- `Display for MemoryAccessError` -/
def memoryText : MemoryAccessError → String
  | .outOfBounds => "out of bounds memory access"
  | .unsupported => "unsupported operation"
  | .io err => ioTexts.text err

/-- `Display for VcpuError` -/
def vcpuText : VcpuError → String
  | .unsupported => "unsupported operation"
  | .invalidId => "invalid vCPU ID"
  | .badArchitecture => "wrong architecture"
  | .unknownRegister => "unknown register"
  | .io err => ioTexts.text err

/-- `Display for Repr`, piece by piece. -/
def display : VmError → List String
  | .memory _ => ["failed to access physical memory"]
  | .vcpu _ => ["failed to access registers"]
  | .invalidPage _ => ["encountered invalid page"]
  | .unsupportedArchitecture => ["operation unsupported by the architecture"]
  | .unsupported => ["unsupported operation"]
  | .unimplemented => ["unimplemented"]
  | .missingModule name => ["missing required module \"", name, "\""]
  | .missingSymbol sym => ["missing required symbol \"", sym, "\""]
  | .missingField field typ =>
    ["missing required field \"", field, "\" in type \"", typ, "\""]
  | .nullPtr => ["attempted to deref NULL pointer"]
  | .io _ => ["I/O error"]
  | .other msg _ => [msg]
  | .context msg _ => [msg]

/-- `Error::source` of `MemoryAccessError`, again and again. -/
def memorySources : MemoryAccessError → List String
  | .io err => ioTexts.sources err
  | _ => []

/-- `Error::source` of `VcpuError`, again and again. -/
def vcpuSources : VcpuError → List String
  | .io err => ioTexts.sources err
  | _ => []

/-- `Error::source`, again and again: what each of the causes says. -/
def sources : VmError → List (List String)
  | .memory err => (memoryText ioTexts err :: memorySources ioTexts err).map fun text => [text]
  | .vcpu err => (vcpuText ioTexts err :: vcpuSources ioTexts err).map fun text => [text]
  | .io err => (ioTexts.text err :: ioTexts.sources err).map fun text => [text]
  | .other _ causes => causes.map fun text => [text]
  | .context _ (some cause) => display cause :: sources cause
  | _ => []

/-- `Display for VmError`, with `{:#}`. -/
def displayAlternate (err : VmError) : List String :=
  display err ++ match sources ioTexts err with
    | [] => []
    | causes => "\n\nCaused by:" :: causes.flatMap fun cause => "\n    " :: cause

end Text

/-- The bytes of a string. -/
def bytesOf (s : String) : List UInt8 := s.toByteArray.data.toList

/-- `fmt::write`: the first piece that is refused ends it. Its result is not looked at. -/
def write : List String → Writer
  | [] => .done (return ())
  | piece :: pieces => .writeStr (bytesOf piece) fun
    | .ok () => write pieces
    | .error .Error => .done (return ())

/-- What `print_last_error` and `error_print` write. -/
def printed (ioTexts : IoTexts) : Option VmError → List String
  | some err => displayAlternate ioTexts err
  | none => ["success"]

/-- What `print_last_error` and `error_print` do with the buffer. -/
def printError (ioTexts : IoTexts) (err : Option VmError) (str : U64) (maxLen : ℕ)
    (mem : Memory) : ℕ × Memory :=
  let run := (write (printed ioTexts err)).run (Formatter.new str maxLen) mem
  run.fmt.finish run.mem

/-! ## The errors that there are -/

/-- How a call may end the client. -/
inductive Fault where
  /-- There was no memory left. -/
  | aborted
  /-- There is no error where a pointer points to. -/
  | undefined
deriving DecidableEq, Repr

/-- The boxes with errors, and `ERROR`. -/
structure Errors where
  boxes : U64 → Option VmError
  lastError : Option U64
  mem : Memory

/-- **The allocator**: a place for one more box, if there is one. -/
abbrev Allocator : Type := (U64 → Option VmError) → Option U64

namespace Errors

/-- No error. -/
def start (mem : Memory) : Errors := ⟨fun _ => none, none, mem⟩

/-- `Box::new` -/
def box (alloc : Allocator) (err : VmError) (s : Errors) : Except Fault (U64 × Errors) :=
  match alloc s.boxes with
  | some p => return (p, { s with boxes := Function.update s.boxes p (some err) })
  | none => throw .aborted

/-- `error_ref` -/
def errorRef (p : U64) (s : Errors) : Except Fault VmError :=
  match s.boxes p with
  | some err => return err
  | none => throw .undefined

/-- `drop`, of a box. -/
def free (p : U64) (s : Errors) : Except Fault Errors := do
  let _ ← s.errorRef p
  return { s with boxes := Function.update s.boxes p none }

/-- `Cell::set`, which drops what was there. -/
def set (err : Option U64) (s : Errors) : Except Fault Errors :=
  match s.lastError with
  | some p => { s with lastError := err }.free p
  | none => return { s with lastError := err }

/-- `set_error` -/
def setError (alloc : Allocator) (err : VmError) (s : Errors) : Except Fault Errors := do
  let (p, s) ← s.box alloc err
  s.set (some p)

/-- `clear_error` -/
def clearError (s : Errors) : Except Fault Errors := s.set none

/-- `catch_unwind`, of a call with a result. -/
def catchUnwind (alloc : Allocator) (res : Except VmError Unit) (s : Errors) :
    Except Fault Errors :=
  match res with
  | .ok () => s.clearError
  | .error err => s.setError alloc err

/-- `take_last_error` -/
def takeLastError (s : Errors) : U64 × Errors :=
  match s.lastError with
  | some p => (p, { s with lastError := none })
  | none => (0, s)

/-- `print_last_error` -/
def printLastError (ioTexts : IoTexts) (str : U64) (maxLen : ℕ) (s : Errors) :
    Except Fault (ℕ × Errors) := do
  let err ← match s.lastError with
    | some p => some <$> s.errorRef p
    | none => pure none
  let (n, mem) := printError ioTexts err str maxLen s.mem
  return (n, { s with mem })

/-- `error_with_message`. The box of the error is in the other one then. -/
def errorWithMessage (alloc : Allocator) (p : U64) (context : String) (s : Errors) :
    Except Fault (U64 × Errors) := do
  let err ← s.errorRef p
  let (q, s) ← s.box alloc (VmError.context context (some err))
  return (q, { s with boxes := Function.update s.boxes p none })

/-- `error_missing_symbol` -/
def errorMissingSymbol (alloc : Allocator) (sym : String) (s : Errors) :
    Except Fault (U64 × Errors) :=
  s.box alloc (VmError.missingSymbol sym)

/-- `error_print` -/
def errorPrint (ioTexts : IoTexts) (p str : U64) (maxLen : ℕ) (s : Errors) :
    Except Fault (ℕ × Errors) := do
  let err ← if p = 0 then pure none else some <$> s.errorRef p
  let (n, mem) := printError ioTexts err str maxLen s.mem
  return (n, { s with mem })

/-- `error_free` -/
def errorFree (p : U64) (s : Errors) : Except Fault Errors := s.free p

end Errors

/-! ## What is printed -/

section Printed

variable {mem mem' : Memory} {ptr : U64} {len : ℕ} {text : List UInt8} {fmt : Formatter}

/-- All the bytes of some pieces. -/
def bytesOfAll (pieces : List String) : List UInt8 := pieces.flatMap bytesOf

/-- A formatter is told of what it did not take by nothing but the length. -/
theorem hasWritten_of_take_eq {text' : List UInt8} (h : fmt.HasWritten mem ptr len text mem')
    (htake : text.take (len - 1) = text'.take (len - 1)) :
    fmt.HasWritten mem ptr len text' mem' := by
  have hlen : min text.length (len - 1) = min text'.length (len - 1) := by
    rw [Nat.min_comm, ← List.length_take, htake, List.length_take, Nat.min_comm]
  exact
    { mem_eq := by rw [h.mem_eq, htake]
      ptr_eq := by rw [h.ptr_eq, hlen]
      len_eq := by rw [h.len_eq]; omega
      written_eq := by rw [h.written_eq, hlen] }

/-- **Writing pieces until one is refused** is writing all of them: what comes behind the refused
one would not have fit. -/
theorem hasWritten_write (hbuf : IsBuffer ptr len) (hlen : 1 ≤ len) (pieces : List String)
    (h : fmt.HasWritten mem ptr len text mem') :
    ((write pieces).run fmt mem').fmt.HasWritten mem ptr len (text ++ bytesOfAll pieces)
      ((write pieces).run fmt mem').mem := by
  induction pieces generalizing fmt text mem' with
  | nil =>
    show fmt.HasWritten mem ptr len (text ++ []) mem'
    rwa [List.append_nil]
  | cons piece pieces ih =>
    obtain ⟨hwritten, htold⟩ := h.writeStr hbuf hlen (bytesOf piece)
    have hall : text ++ bytesOfAll (piece :: pieces)
        = text ++ bytesOf piece ++ bytesOfAll pieces :=
      (List.append_assoc ..).symm
    rw [hall, write, Writer.run]
    generalize fmt.writeStr (bytesOf piece) mem' = res at hwritten htold ⊢
    obtain ⟨told, fmt', mem''⟩ := res
    cases told with
    | ok _ => exact ih hwritten
    | error e =>
      have hlong : len - 1 ≤ (text ++ bytesOf piece).length := by
        have hlt := htold.mp rfl
        rw [List.length_append]
        omega
      refine hasWritten_of_take_eq hwritten ?_
      rw [List.take_append_of_le_length hlong]

/-- **The beginning of a text is printed**, with a terminator. -/
theorem holdsText_printError (ioTexts : IoTexts) (err : Option VmError)
    (hbuf : IsBuffer ptr len) (hlen : 1 ≤ len) :
    (printError ioTexts err ptr len mem).1
        = min (bytesOfAll (printed ioTexts err)).length (len - 1)
      ∧ HoldsText mem (printError ioTexts err ptr len mem).2 ptr
        (bytesOfAll (printed ioTexts err))
        (min (bytesOfAll (printed ioTexts err)).length (len - 1)) := by
  have hwritten := hasWritten_write hbuf hlen (printed ioTexts err)
    (Formatter.hasWritten_new hbuf hlen mem)
  rw [List.nil_append] at hwritten
  refine ⟨hwritten.written_eq, ?_⟩
  show HoldsText mem (Formatter.terminate _ (Formatter.terminate _ _)) ptr _ _
  rw [Formatter.terminate_terminate]
  exact hwritten.holdsText hbuf hlen

end Printed

/-- An error with a chain of causes. -/
def sectionError : VmError := .context "cannot read" (some (.other "bad section" ["too short"]))

/-- Of what it says, a buffer of thirty-two bytes holds thirty-one. -/
theorem holdsText_printError_sectionError :
    (printError ⟨fun _ => "", fun _ => []⟩ (some sectionError) 0x1000 32 fun _ => 7).1 = 31
      ∧ HoldsText (fun _ => 7)
        (printError ⟨fun _ => "", fun _ => []⟩ (some sectionError) 0x1000 32 fun _ => 7).2 0x1000
        (bytesOfAll ["cannot read", "\n\nCaused by:", "\n    ", "bad section", "\n    ",
          "too short"]) 31 :=
  holdsText_printError ⟨fun _ => "", fun _ => []⟩ (some sectionError) ⟨by decide, by decide⟩
    (by decide)

/-! ## The clients of the interface -/

/-- The calls of the interface, as far as they have to do with errors: `call` is one that returns
this, and has an error kept or forgotten. -/
inductive Call where
  | call (res : Except VmError Unit)
  | takeLastError
  | printLastError (str : U64) (maxLen : ℕ)
  | errorWithMessage (err : U64) (context : String)
  | errorMissingSymbol (sym : String)
  | errorPrint (err str : U64) (maxLen : ℕ)
  | errorFree (err : U64)

/-- What they answer. -/
inductive Answer where
  | unit
  | pointer (p : U64)
  | size (n : ℕ)
deriving DecidableEq, Repr

/-- A call, in a process that has not ended. -/
def Errors.exec (alloc : Allocator) (ioTexts : IoTexts) (s : Errors) :
    Call → Except Fault (Answer × Errors)
  | .call res => Prod.mk .unit <$> s.catchUnwind alloc res
  | .takeLastError => return (.pointer s.takeLastError.1, s.takeLastError.2)
  | .printLastError str maxLen =>
    (fun r => (.size r.1, r.2)) <$> s.printLastError ioTexts str maxLen
  | .errorWithMessage err context =>
    (fun r => (.pointer r.1, r.2)) <$> s.errorWithMessage alloc err context
  | .errorMissingSymbol sym => (fun r => (.pointer r.1, r.2)) <$> s.errorMissingSymbol alloc sym
  | .errorPrint err str maxLen =>
    (fun r => (.size r.1, r.2)) <$> s.errorPrint ioTexts err str maxLen
  | .errorFree err => Prod.mk .unit <$> s.errorFree err

/-- **What a client knows**: which error is kept, and which it has at a pointer. -/
structure Ledger where
  kept : Option VmError
  held : U64 → Option VmError

namespace Ledger

/-- Nothing is kept, and the client has nothing. -/
def empty : Ledger := ⟨none, fun _ => none⟩

/-- A pointer that is handed out. -/
def grant (p : U64) (err : VmError) (l : Ledger) : Ledger :=
  { l with held := Function.update l.held p (some err) }

/-- A pointer that is given back. -/
def revoke (p : U64) (l : Ledger) : Ledger := { l with held := Function.update l.held p none }

/-- What a client knows after a call, from its answer. -/
def after (l : Ledger) : Call → Answer → Ledger
  | .call (.ok ()), _ => { l with kept := none }
  | .call (.error err), _ => { l with kept := some err }
  | .takeLastError, .pointer p =>
    match l.kept with
    | some err => { l with kept := none }.grant p err
    | none => l
  | .errorWithMessage err context, .pointer p =>
    match l.held err with
    | some e => (l.revoke err).grant p (VmError.context context (some e))
    | none => l
  | .errorMissingSymbol sym, .pointer p => l.grant p (VmError.missingSymbol sym)
  | .errorFree err, _ => l.revoke err
  | _, _ => l

/-- **The rules**: a client passes pointers that it has. A null pointer can be printed. -/
def Allows (l : Ledger) : Call → Prop
  | .errorWithMessage err _ => l.held err ≠ none
  | .errorPrint err _ _ => err = 0 ∨ l.held err ≠ none
  | .errorFree err => l.held err ≠ none
  | _ => True

end Ledger

/-- The state of the process, and what the client knows. -/
abbrev Known : Type := Except Fault Errors × Ledger

/-- The interface, with the ledger of its client. A process that has ended answers nothing. -/
def handler (alloc : Allocator) (ioTexts : IoTexts) : Handler Call Answer Known :=
  fun call s =>
    match s.1 with
    | .ok errors =>
      match errors.exec alloc ioTexts call with
      | .ok (answer, errors) => (answer, .ok errors, s.2.after call answer)
      | .error fault => (.unit, .error fault, s.2)
    | .error fault => (.unit, .error fault, s.2)

/-- A client keeps the rules as long as its process has not ended. -/
def Allowed (call : Call) (s : Known) : Prop := s.1.isOk → s.2.Allows call

/-! ## Who owns an error -/

/-- **The documented behaviour of an allocator**: a box is where none is, and not at null. -/
def Allocator.Fresh (alloc : Allocator) : Prop :=
  ∀ boxes p, alloc boxes = some p → p ≠ 0 ∧ boxes p = none

/-- **Each error has one owner.** -/
structure Owned (s : Errors) (l : Ledger) : Prop where
  /-- What a pointer points to, is what it stands for. -/
  boxes_eq : ∀ p, s.lastError ≠ some p → s.boxes p = l.held p
  kept_eq : s.lastError.bind s.boxes = l.kept
  isSome_kept : ∀ p, s.lastError = some p → l.kept ≠ none
  /-- The client has no pointer to the error that is kept. -/
  held_last : ∀ p, s.lastError = some p → l.held p = none
  boxes_zero : s.boxes 0 = none

section Owned

variable {alloc : Allocator} {ioTexts : IoTexts} {s : Errors} {l : Ledger} {p : U64}
  {err : VmError}

/-- There is no error to begin with. -/
theorem owned_start (mem : Memory) : Owned (Errors.start mem) Ledger.empty where
  boxes_eq _ _ := rfl
  kept_eq := rfl
  isSome_kept _ h := absurd h (Option.some_ne_none _).symm
  held_last _ _ := rfl
  boxes_zero := rfl

namespace Owned

/-- What a client holds is in its box. -/
theorem boxes_of_held (h : Owned s l) (hp : l.held p = some err) :
    s.boxes p = some err ∧ s.lastError ≠ some p := by
  have hne : s.lastError ≠ some p := fun hlast => by
    rw [h.held_last p hlast] at hp
    cases hp
  exact ⟨(h.boxes_eq p hne).trans hp, hne⟩

/-- What is kept is in its box. -/
theorem boxes_of_lastError (h : Owned s l) (hp : s.lastError = some p) :
    ∃ err, l.kept = some err ∧ s.boxes p = some err ∧ l.held p = none := by
  have hkept := h.kept_eq
  rw [hp, Option.bind_some] at hkept
  obtain ⟨err, herr⟩ := Option.ne_none_iff_exists'.mp (h.isSome_kept p hp)
  exact ⟨err, herr, hkept.trans herr, h.held_last p hp⟩

/-- Nothing is kept where nothing is. -/
theorem kept_of_lastError (h : Owned s l) (hp : s.lastError = none) : l.kept = none := by
  rw [← h.kept_eq, hp, Option.bind_none]

/-- **A box is handed out.** -/
theorem grant (h : Owned s l) (hp : s.boxes p = none) (hzero : p ≠ 0) :
    Owned { s with boxes := Function.update s.boxes p (some err) } (l.grant p err) := by
  have hlast : ∀ q, s.lastError = some q → q ≠ p := by
    rintro q hq rfl
    obtain ⟨e, -, he, -⟩ := h.boxes_of_lastError hq
    rw [hp] at he
    cases he
  refine ⟨fun q hq => ?_, ?_, h.isSome_kept, fun q hq => ?_, ?_⟩
  · rw [Ledger.grant]
    by_cases heq : q = p
    · subst heq
      simp
    · simpa [heq] using h.boxes_eq q hq
  · show s.lastError.bind _ = l.kept
    rw [← h.kept_eq]
    cases hs : s.lastError with
    | none => rfl
    | some q => simp [hlast q hs]
  · simpa [Ledger.grant, hlast q hq] using h.held_last q hq
  · show Function.update s.boxes p _ 0 = none
    rw [Function.update_of_ne hzero.symm, h.boxes_zero]

/-- **A box is given back.** -/
theorem revoke (h : Owned s l) (hp : s.lastError ≠ some p) :
    Owned { s with boxes := Function.update s.boxes p none } (l.revoke p) := by
  refine ⟨fun q hq => ?_, ?_, h.isSome_kept, fun q hq => ?_, ?_⟩
  · rw [Ledger.revoke]
    by_cases heq : q = p
    · subst heq
      simp
    · simpa [heq] using h.boxes_eq q hq
  · show s.lastError.bind _ = l.kept
    rw [← h.kept_eq]
    cases hs : s.lastError with
    | none => rfl
    | some q =>
      have hne : q ≠ p := fun heq => hp (by rw [hs, heq])
      simp [hne]
  · have hne : q ≠ p := fun heq => hp (by rw [← heq]; exact hq)
    simpa [Ledger.revoke, hne] using h.held_last q hq
  · show Function.update s.boxes p _ 0 = none
    by_cases heq : 0 = p
    · rw [← heq, Function.update_self]
    · rw [Function.update_of_ne heq, h.boxes_zero]

/-- **What is kept is taken.** -/
theorem take (h : Owned s l) (hp : s.lastError = some p) (hkept : l.kept = some err) :
    Owned { s with lastError := none } ({ l with kept := none }.grant p err) := by
  obtain ⟨e, he, hbox, -⟩ := h.boxes_of_lastError hp
  obtain rfl : e = err := Option.some.inj (he.symm.trans hkept)
  refine ⟨fun q _ => ?_, rfl, fun q hq => ?_, fun q hq => ?_, h.boxes_zero⟩
  · by_cases heq : q = p
    · subst heq
      simpa [Ledger.grant] using hbox
    · have hq : s.lastError ≠ some q := fun hq => heq (Option.some.inj (hq.symm.trans hp))
      simpa [Ledger.grant, heq] using h.boxes_eq q hq
  · cases hq
  · cases hq

/-- **What is held is kept.** -/
theorem keep (h : Owned s l) (hlast : s.lastError = none) (hp : l.held p = some err) :
    Owned { s with lastError := some p } { l.revoke p with kept := some err } := by
  obtain ⟨hbox, -⟩ := h.boxes_of_held hp
  refine ⟨fun q hq => ?_, hbox, fun q _ => Option.some_ne_none err, fun q hq => ?_, h.boxes_zero⟩
  · have hne : q ≠ p := fun heq => hq (by rw [heq])
    simpa [Ledger.revoke, hne] using
      h.boxes_eq q (by rw [hlast]; exact (Option.some_ne_none q).symm)
  · obtain rfl : p = q := Option.some.inj hq
    simp [Ledger.revoke]

end Owned

/-! ## What each call does to them -/

/-- The outcome of a call: the client knows what there is then, or there was no memory left. -/
def Sound (s : Known) : Prop :=
  match s.1 with
  | .ok errors => Owned errors s.2
  | .error fault => fault = .aborted

/-- A box is made. -/
theorem exists_box (h : Owned s l) (hfresh : alloc.Fresh) (err : VmError) :
    s.box alloc err = .error .aborted
      ∨ ∃ p, s.box alloc err
          = .ok (p, { s with boxes := Function.update s.boxes p (some err) })
        ∧ s.boxes p = none ∧ p ≠ 0
        ∧ Owned { s with boxes := Function.update s.boxes p (some err) } (l.grant p err) := by
  unfold Errors.box
  cases halloc : alloc s.boxes with
  | none => exact .inl rfl
  | some p =>
    obtain ⟨hzero, hp⟩ := hfresh _ _ halloc
    exact .inr ⟨p, rfl, hp, hzero, h.grant hp hzero⟩

/-- A box that there is can be freed. -/
theorem free_eq (hbox : s.boxes p = some err) :
    s.free p = .ok { s with boxes := Function.update s.boxes p none } := by
  simp only [Errors.free, Errors.errorRef, hbox]
  rfl

/-- **What was kept is dropped.** -/
theorem exists_clearError (h : Owned s l) :
    ∃ s', s.clearError = .ok s' ∧ s'.lastError = none ∧ Owned s' { l with kept := none } := by
  unfold Errors.clearError Errors.set
  cases hs : s.lastError with
  | none =>
    refine ⟨{ s with lastError := none }, rfl, rfl, ?_⟩
    have hkept := h.kept_of_lastError hs
    have hl : { l with kept := none } = l := by rw [← hkept]
    have hsame : { s with lastError := none } = s := by rw [← hs]
    rw [hl, hsame]
    exact h
  | some p =>
    obtain ⟨err, hkept, hbox, hheld⟩ := h.boxes_of_lastError hs
    refine ⟨_, free_eq hbox, rfl, ?_⟩
    have hrevoked := (h.take hs hkept).revoke (p := p) (Option.some_ne_none p).symm
    have hl : ({ l with kept := none }.grant p err).revoke p = { l with kept := none } := by
      simp [Ledger.grant, Ledger.revoke, hheld.symm]
    rwa [hl] at hrevoked

/-- What is kept is replaced by dropping it first. -/
theorem set_eq_map_clearError (err : Option U64) (s : Errors) :
    s.set err = (fun s => { s with lastError := err }) <$> s.clearError := by
  unfold Errors.clearError Errors.set
  cases s.lastError with
  | none => rfl
  | some p =>
    simp only [Errors.free, Errors.errorRef]
    cases s.boxes p with
    | none => rfl
    | some e => rfl

/-- **An error is kept.** -/
theorem sound_setError (h : Owned s l) (hfresh : alloc.Fresh) (err : VmError) :
    s.setError alloc err = .error .aborted
      ∨ ∃ s', s.setError alloc err = .ok s' ∧ Owned s' { l with kept := some err } := by
  unfold Errors.setError
  obtain hnone | ⟨p, hbox, hp, -, howned⟩ := exists_box h hfresh err
  · rw [hnone]
    exact .inl rfl
  · obtain ⟨s', hclear, hlast, hcleared⟩ := exists_clearError howned
    refine .inr ⟨{ s' with lastError := some p }, ?_, ?_⟩
    · rw [hbox]
      show Errors.set (some p) _ = _
      rw [set_eq_map_clearError, hclear]
      rfl
    · have hheld : l.held p = none := by
        by_cases hs : s.lastError = some p
        · exact h.held_last p hs
        · rw [← h.boxes_eq p hs, hp]
      have hl : { { l.grant p err with kept := none }.revoke p with kept := some err }
          = { l with kept := some err } := by
        simp [Ledger.grant, Ledger.revoke, hheld.symm]
      have hgranted : (l.grant p err).held p = some err := by simp [Ledger.grant]
      have hkeep := hcleared.keep hlast hgranted
      rwa [hl] at hkeep

/-- What is printed is what is kept. -/
theorem printLastError_eq (ioTexts : IoTexts) (h : Owned s l) (str : U64) (maxLen : ℕ) :
    s.printLastError ioTexts str maxLen
      = .ok ((printError ioTexts l.kept str maxLen s.mem).1,
        { s with mem := (printError ioTexts l.kept str maxLen s.mem).2 }) := by
  unfold Errors.printLastError
  cases hs : s.lastError with
  | none =>
    rw [h.kept_of_lastError hs]
    rfl
  | some p =>
    obtain ⟨err, hkept, hbox, -⟩ := h.boxes_of_lastError hs
    simp only [Errors.errorRef, hbox, hkept]
    rfl

/-- What is printed is what a pointer stands for. -/
theorem errorPrint_eq (ioTexts : IoTexts) (h : Owned s l)
    (hp : p = 0 ∨ l.held p ≠ none) (str : U64) (maxLen : ℕ) :
    s.errorPrint ioTexts p str maxLen
      = .ok ((printError ioTexts (l.held p) str maxLen s.mem).1,
        { s with mem := (printError ioTexts (l.held p) str maxLen s.mem).2 }) := by
  have hzero : l.held 0 = none := by
    by_cases hs : s.lastError = some 0
    · exact h.held_last 0 hs
    · rw [← h.boxes_eq 0 hs, h.boxes_zero]
  unfold Errors.errorPrint
  by_cases hnull : p = 0
  · rw [if_pos hnull, hnull, hzero]
    rfl
  · obtain ⟨err, hheld⟩ := Option.ne_none_iff_exists'.mp (hp.resolve_left hnull)
    rw [if_neg hnull, hheld]
    simp only [Errors.errorRef, (h.boxes_of_held hheld).1]
    rfl

/-- What the client sees of its memory is not about errors. -/
theorem Owned.withMem (h : Owned s l) (mem : Memory) : Owned { s with mem } l :=
  ⟨h.boxes_eq, h.kept_eq, h.isSome_kept, h.held_last, h.boxes_zero⟩

/-- **A context is put around an error**, whose box is given up. -/
theorem sound_errorWithMessage (h : Owned s l) (hfresh : alloc.Fresh) (hp : l.held p = some err)
    (context : String) :
    s.errorWithMessage alloc p context = .error .aborted
      ∨ ∃ r, s.errorWithMessage alloc p context = .ok r
        ∧ Owned r.2 ((l.revoke p).grant r.1 (VmError.context context (some err))) := by
  obtain ⟨hbox, hlast⟩ := h.boxes_of_held hp
  unfold Errors.errorWithMessage
  simp only [Errors.errorRef, hbox]
  obtain hnone | ⟨q, hmade, hq, -, howned⟩ :=
    exists_box h hfresh (VmError.context context (some err))
  · left
    show (Errors.box alloc _ s >>= _) = _
    rw [hnone]
    rfl
  · right
    have hne : q ≠ p := by
      rintro rfl
      rw [hq] at hbox
      cases hbox
    have hrevoked := howned.revoke hlast
    have hl : (l.grant q (VmError.context context (some err))).revoke p
        = (l.revoke p).grant q (VmError.context context (some err)) := by
      simp [Ledger.grant, Ledger.revoke, Function.update_comm hne]
    rw [hl] at hrevoked
    refine ⟨(q, _), ?_, hrevoked⟩
    show (Errors.box alloc _ s >>= _) = _
    rw [hmade]
    rfl

/-- The outcome of a call is that of the function it stands for. -/
theorem owned_map {β : Type} {answer : β → Answer × Errors} {x : Except Fault β} {call : Call}
    (hx : x = .error .aborted
      ∨ ∃ b, x = .ok b ∧ Owned (answer b).2 (l.after call (answer b).1)) :
    answer <$> x = .error .aborted
      ∨ ∃ a s', answer <$> x = .ok (a, s') ∧ Owned s' (l.after call a) := by
  obtain rfl | ⟨b, rfl, howned⟩ := hx
  · exact .inl rfl
  · exact .inr ⟨_, _, rfl, howned⟩

/-- **What a call does**, if the client may make it. -/
theorem owned_exec (ioTexts : IoTexts) (h : Owned s l) (hfresh : alloc.Fresh)
    (call : Call) (hallows : l.Allows call) :
    s.exec alloc ioTexts call = .error .aborted
      ∨ ∃ answer s', s.exec alloc ioTexts call = .ok (answer, s')
        ∧ Owned s' (l.after call answer) := by
  cases call with
  | call res =>
    refine owned_map ?_
    cases res with
    | ok value =>
      obtain ⟨s', hclear, -, howned⟩ := exists_clearError h
      exact .inr ⟨s', hclear, howned⟩
    | error err => exact sound_setError h hfresh err
  | takeLastError =>
    refine .inr ⟨_, _, rfl, ?_⟩
    unfold Errors.takeLastError
    cases hs : s.lastError with
    | none =>
      rw [Ledger.after, h.kept_of_lastError hs]
      exact h
    | some p =>
      obtain ⟨err, hkept, -⟩ := h.boxes_of_lastError hs
      rw [Ledger.after, hkept]
      exact h.take hs hkept
  | printLastError str maxLen =>
    exact owned_map (.inr ⟨_, printLastError_eq ioTexts h str maxLen, h.withMem _⟩)
  | errorWithMessage p context =>
    obtain ⟨err, hheld⟩ := Option.ne_none_iff_exists'.mp hallows
    refine owned_map ?_
    simp only [Ledger.after, hheld]
    exact sound_errorWithMessage h hfresh hheld context
  | errorMissingSymbol sym =>
    refine owned_map ((exists_box h hfresh (VmError.missingSymbol sym)).imp_right ?_)
    rintro ⟨p, hbox, -, -, howned⟩
    exact ⟨_, hbox, howned⟩
  | errorPrint p str maxLen =>
    exact owned_map (.inr ⟨_, errorPrint_eq ioTexts h hallows str maxLen, h.withMem _⟩)
  | errorFree p =>
    obtain ⟨err, hheld⟩ := Option.ne_none_iff_exists'.mp hallows
    obtain ⟨hbox, hlast⟩ := h.boxes_of_held hheld
    exact owned_map (.inr ⟨_, free_eq hbox, h.revoke hlast⟩)

/-- **What a call leaves**: a client that keeps the rules knows what there is. -/
theorem sound_handler (hfresh : alloc.Fresh) (call : Call) (s : Known) (h : Sound s)
    (hallowed : Allowed call s) : Sound (handler alloc ioTexts call s).2 := by
  obtain ⟨process, l⟩ := s
  cases process with
  | error fault => exact h
  | ok errors =>
    obtain hnone | ⟨answer, s', hexec, howned⟩ :=
      owned_exec ioTexts h hfresh call (hallowed rfl)
    · simp only [handler, hnone]
      rfl
    · simp only [handler, hexec]
      exact howned

end Owned

/-- **Each error has one owner, whatever a client does.** A client that passes only pointers it
has been given and did not give back does nothing that is undefined: nothing is used after it was
freed or freed twice. Each pointer stands for the error that was put there; the error that is
kept is that of the last call, if it failed and was not taken since; and when nothing is kept and
the client has given back all it was given, no box is left. -/
theorem errors_ledger {α : Type} (alloc : Allocator) (ioTexts : IoTexts)
    (hfresh : alloc.Fresh) (mem : Memory) (client : Client Call Answer α)
    (hkeeps : client.Keeps (handler alloc ioTexts) Allowed (.ok (Errors.start mem), Ledger.empty))
    (known : Known)
    (hrun : (client.run (handler alloc ioTexts) (.ok (Errors.start mem), Ledger.empty)).2 = known) :
    known.1 ≠ .error .undefined
      ∧ ∀ s, known.1 = .ok s →
        (∀ p err, known.2.held p = some err → s.boxes p = some err)
        ∧ (s.takeLastError.1 = 0 ↔ known.2.kept = none)
        ∧ (known.2.kept ≠ none → s.boxes s.takeLastError.1 = known.2.kept
          ∧ known.2.held s.takeLastError.1 = none)
        ∧ (∀ str maxLen, s.printLastError ioTexts str maxLen
          = .ok ((printError ioTexts known.2.kept str maxLen s.mem).1,
            { s with mem := (printError ioTexts known.2.kept str maxLen s.mem).2 }))
        ∧ (∀ p, p = 0 ∨ known.2.held p ≠ none → ∀ str maxLen, s.errorPrint ioTexts p str maxLen
          = .ok ((printError ioTexts (known.2.held p) str maxLen s.mem).1,
            { s with mem := (printError ioTexts (known.2.held p) str maxLen s.mem).2 }))
        ∧ (known.2 = Ledger.empty → s.boxes = (Errors.start mem).boxes) := by
  have hsound : Sound known := by
    rw [← hrun]
    exact client.run_invariant (sound_handler hfresh) (owned_start mem) hkeeps
  obtain ⟨process, l⟩ := known
  cases process with
  | error fault =>
    obtain rfl : fault = .aborted := hsound
    exact ⟨fun h => (by cases h), fun s hs => (by cases hs)⟩
  | ok errors =>
    have howned : Owned errors l := hsound
    refine ⟨fun h => (by cases h), fun s hs => ?_⟩
    obtain rfl : errors = s := Except.ok.inj hs
    refine ⟨fun p err hp => (howned.boxes_of_held hp).1, ?_, fun hkept => ?_,
      printLastError_eq ioTexts howned, fun p hp => errorPrint_eq ioTexts howned hp, fun hl => ?_⟩
    · unfold Errors.takeLastError
      cases hs : errors.lastError with
      | none => exact iff_of_true rfl (howned.kept_of_lastError hs)
      | some p =>
        obtain ⟨err, hkept, hbox, -⟩ := howned.boxes_of_lastError hs
        refine iff_of_false (fun hzero => ?_) (by rw [hkept]; exact Option.some_ne_none err)
        obtain rfl : p = 0 := hzero
        rw [howned.boxes_zero] at hbox
        cases hbox
    · unfold Errors.takeLastError
      cases hs : errors.lastError with
      | none => exact absurd (howned.kept_of_lastError hs) hkept
      | some p =>
        obtain ⟨err, hkept, hbox, hheld⟩ := howned.boxes_of_lastError hs
        exact ⟨hbox.trans hkept.symm, hheld⟩
    · obtain rfl : l = Ledger.empty := hl
      funext p
      refine (howned.boxes_eq p fun hs => ?_).trans rfl
      obtain ⟨err, hkept, -⟩ := howned.boxes_of_lastError hs
      cases hkept

/-- An allocator with two places. -/
def twoBoxes : Allocator := fun boxes =>
  if boxes 16 = none then some 16 else if boxes 32 = none then some 32 else none

/-- It behaves as one. -/
theorem fresh_twoBoxes : twoBoxes.Fresh := by
  intro boxes p h
  unfold twoBoxes at h
  split at h
  · obtain rfl := Option.some.inj h
    exact ⟨by decide, ‹_›⟩
  · split at h
    · obtain rfl := Option.some.inj h
      exact ⟨by decide, ‹_›⟩
    · cases h

/-- A client that takes an error, puts a context around it and frees it. -/
def freesAll : Client Call Answer Unit :=
  .call (.call (.error .unsupported)) fun _ => .call .takeLastError fun
    | .pointer p => .call (.errorWithMessage p "no guest") fun
      | .pointer q => .call (.errorFree q) fun _ => .done ()
      | _ => .done ()
    | _ => .done ()

/-- An I/O error without a cause. -/
def ioTexts : IoTexts := ⟨fun _ => "I/O error", fun _ => []⟩

/-- The client frees all it has. -/
theorem errors_ledger_freesAll :
    ∃ s, (freesAll.run (handler twoBoxes ioTexts) (.ok (Errors.start fun _ => 0),
        Ledger.empty)).2.1 = .ok s ∧ s.boxes = fun _ => none := by
  have hheld : (freesAll.run (handler twoBoxes ioTexts) (.ok (Errors.start fun _ => 0),
      Ledger.empty)).2.2 = Ledger.empty := by
    refine congrArg (Ledger.mk none) (funext fun p => ?_)
    show Function.update (Function.update (Function.update (Function.update
      (fun _ => none) 16 _) 16 _) 32 _) 32 none p = none
    simp [Function.update_apply]
  have hkeeps : freesAll.Keeps (handler twoBoxes ioTexts) Allowed
      (.ok (Errors.start fun _ => 0), Ledger.empty) :=
    ⟨fun _ => trivial, fun _ => trivial, fun _ => Option.some_ne_none _,
      fun _ => Option.some_ne_none _, trivial⟩
  exact ⟨_, rfl, ((errors_ledger twoBoxes ioTexts fresh_twoBoxes (fun _ => 0) freesAll
    hkeeps _ rfl).2 _ rfl).2.2.2.2.2 hheld⟩

end CErrors
