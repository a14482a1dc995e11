import Vminer.Core
import Vminer.Layout

/-!
# Reading an object file that is not linked

In an object file, numbers that depend on where things are loaded are not there yet: a table of
relocations tells where they are to be put. A linker would write them into the section. The
tool leaves the section as it is and has a reader that looks each number up in the table when
it is read (`Relocate`).

The readers of sections are those of a library. What is relied on is that they are windows into
their section (`Gimli.IsView`). The section that a linker would make is `RelocationMap.written`.
It differs from the one that is read only where a relocation is (`Untouched.written_eq`), and has
there what the relocation puts (`written_eq_placed`).
-/

namespace Gimli

/-! ## Readers -/

/-- `gimli::Error`, of readers. -/
inductive Error where
  | unexpectedEof (start : ℕ)
  | unsupportedAddressSize (size : ℕ)
  | unsupportedOffsetSize (size : ℕ)
deriving DecidableEq, Repr

/-- `gimli::Format` -/
inductive Format where
  | dwarf32
  | dwarf64
deriving DecidableEq, Repr

/-- `gimli::Reader`, without what is told in addresses of the host. Each call gives the reader
after it. -/
class Reader (R : Type) where
  len : R → ℕ
  empty : R → R
  truncate : R → ℕ → Exec Error Unit × R
  offsetFrom : R → R → Exec Error ℕ
  find : R → UInt8 → Exec Error ℕ
  skip : R → ℕ → Exec Error Unit × R
  split : R → ℕ → Exec Error R × R
  toSlice : R → List UInt8
  readSlice : R → ℕ → Exec Error (List UInt8) × R
  readAddress : R → ℕ → Exec Error U64 × R
  readLength : R → Format → Exec Error U64 × R
  readOffset : R → Format → Exec Error U64 × R
  readSizedOffset : R → ℕ → Exec Error U64 × R

/-- The numbers that a reader reads. -/
inductive Field where
  | address (size : ℕ)
  | length (format : Format)
  | offset (format : Format)
  | sizedOffset (size : ℕ)

/-- Reading one of them. -/
def Reader.readField {R : Type} [Reader R] (reader : R) : Field → Exec Error U64 × R
  | .address size => readAddress reader size
  | .length format => readLength reader format
  | .offset format => readOffset reader format
  | .sizedOffset size => readSizedOffset reader size

/-! ## Windows -/

/-- How many bytes a number takes in a format. -/
def Format.width : Format → ℕ
  | .dwarf32 => 4
  | .dwarf64 => 8

/-- How many bytes a number takes, or that there is none of this size. -/
def Field.width : Field → Except Error ℕ
  | .address size =>
    if size ∈ [1, 2, 4, 8] then .ok size else .error (.unsupportedAddressSize size)
  | .length format => .ok format.width
  | .offset format => .ok format.width
  | .sizedOffset size =>
    if size ∈ [1, 2, 4, 8] then .ok size else .error (.unsupportedOffsetSize size)

/-- The number that some bytes are. -/
def numberOf (bigEndian : Bool) (bytes : List UInt8) : U64 :=
  leWord 64 (if bigEndian then bytes.reverse else bytes)

/-- The bytes of a number. -/
def bytesOf (bigEndian : Bool) (width : ℕ) (n : U64) : List UInt8 :=
  if bigEndian then (leBytes width n.toNat).reverse else leBytes width n.toNat

/-- **A window into a section**: how `EndianSlice` is documented. One that was emptied is not
in the section any more. -/
structure Window where
  data : List UInt8
  start : ℕ
  len : ℕ
  inside : Bool
  bigEndian : Bool
  fits : start + len ≤ data.length

namespace Window

/-- `EndianSlice::new`: the whole section. -/
def whole (bigEndian : Bool) (data : List UInt8) : Window where
  data := data
  start := 0
  len := data.length
  inside := true
  bigEndian := bigEndian
  fits := (Nat.zero_add _).le

/-- The bytes in a window. -/
def bytes (w : Window) : List UInt8 := (w.data.drop w.start).take w.len

/-- A window that begins some bytes later. -/
def advance (w : Window) (n : ℕ) (h : n ≤ w.len) : Window where
  __ := w
  start := w.start + n
  len := w.len - n
  fits := by have := w.fits; omega

/-- A window that ends after some bytes. -/
def shorten (w : Window) (n : ℕ) (h : n ≤ w.len) : Window where
  __ := w
  len := n
  fits := by have := w.fits; omega

/-- The end of the window is too near. -/
def eof {α : Type} (w : Window) : Exec Error α := Exec.fail (.unexpectedEof w.start)

/-- Reading a number. -/
def readNumber (w : Window) (width : Except Error ℕ) : Exec Error U64 × Window :=
  match width with
  | .error e => (Exec.fail e, w)
  | .ok n =>
    if h : n ≤ w.len then (.ok (numberOf w.bigEndian (w.bytes.take n)), w.advance n h)
    else (w.eof, w)

instance : Reader Window where
  len := len
  empty w := { w with start := 0, len := 0, inside := false, fits := Nat.zero_le _ }
  truncate w n := if h : n ≤ w.len then (.ok (), w.shorten n h) else (w.eof, w)
  offsetFrom w base :=
    -- `debug_assert!`
    if w.inside ∧ base.inside ∧ base.start ≤ w.start ∧ w.start + w.len ≤ base.start + base.len
    then .ok (w.start - base.start)
    else Exec.panicked
  find w byte :=
    match w.bytes.findIdx? (· == byte) with
    | some i => .ok i
    | none => w.eof
  skip w n := if h : n ≤ w.len then (.ok (), w.advance n h) else (w.eof, w)
  split w n := if h : n ≤ w.len then (.ok (w.shorten n h), w.advance n h) else (w.eof, w)
  toSlice := bytes
  readSlice w n := if h : n ≤ w.len then (.ok (w.bytes.take n), w.advance n h) else (w.eof, w)
  readAddress w size := w.readNumber (Field.address size).width
  readLength w format := w.readNumber (Field.length format).width
  readOffset w format := w.readNumber (Field.offset format).width
  readSizedOffset w size := w.readNumber (Field.sizedOffset size).width

end Window

/-- The window of a result. -/
def viewed {R α : Type} (view : R → Window) (r : Exec Error α × R) : Exec Error α × Window :=
  (r.1, view r.2)

/-- **Readers that are windows.** -/
structure IsView {R : Type} [Reader R] (view : R → Window) : Prop where
  len : ∀ r, Reader.len r = Reader.len (view r)
  empty : ∀ r, view (Reader.empty r) = Reader.empty (view r)
  truncate : ∀ r n, viewed view (Reader.truncate r n) = Reader.truncate (view r) n
  offsetFrom : ∀ r base, Reader.offsetFrom r base = Reader.offsetFrom (view r) (view base)
  find : ∀ r byte, Reader.find r byte = Reader.find (view r) byte
  skip : ∀ r n, viewed view (Reader.skip r n) = Reader.skip (view r) n
  split : ∀ r n, (view <$> (Reader.split r n).1, view (Reader.split r n).2)
    = Reader.split (view r) n
  toSlice : ∀ r, Reader.toSlice r = Reader.toSlice (view r)
  readSlice : ∀ r n, viewed view (Reader.readSlice r n) = Reader.readSlice (view r) n
  readField : ∀ r field, viewed view (Reader.readField r field) = Reader.readField (view r) field

end Gimli

/-! ## Relocations -/

/-- `object::RelocationKind`, as far as it matters. -/
inductive RelocationKind where
  | absolute
  | other
deriving DecidableEq, Repr

/-- `object::RelocationTarget` -/
inductive RelocationTarget where
  | symbol (index : ℕ)
  | other
deriving DecidableEq, Repr

/-- `object::Relocation` -/
structure Relocation where
  kind : RelocationKind
  /-- In bits. -/
  size : ℕ
  target : RelocationTarget
  addend : U64
  implicitAddend : Bool
deriving DecidableEq, Repr

/-- `RelocationMap` -/
abbrev RelocationMap : Type := ℕ → Option Relocation

/-- **`Relocate`**: a reader of a section, and the relocations of the section. -/
structure Relocate (R : Type) where
  relocations : RelocationMap
  section_ : R
  reader : R

namespace Relocate

open Gimli

variable {R : Type}

/-- `Relocate::relocate` -/
def relocate (self : Relocate R) (offset : ℕ) (value : U64) : U64 :=
  match self.relocations offset with
  | some relocation =>
    match relocation.kind with
    | .absolute =>
      if relocation.implicitAddend then value + relocation.addend else relocation.addend
    | .other => value
  | none => value

/-- What the reader reads, relocated. -/
def relocated [Reader R] (self : Relocate R) (read : R → Exec Error U64 × R) :
    Exec Error U64 × Relocate R :=
  match Reader.offsetFrom self.reader self.section_ with
  | .error stop => (.error stop, self)
  | .ok offset =>
    let read := read self.reader
    (self.relocate offset <$> read.1, { self with reader := read.2 })

/-- What the reader does, as it is. -/
def delegated {α : Type} (self : Relocate R) (result : Exec Error α × R) :
    Exec Error α × Relocate R :=
  (result.1, { self with reader := result.2 })

/-- `Relocate::split` -/
def split [Reader R] (self : Relocate R) (len : ℕ) : Exec Error (Relocate R) × Relocate R :=
  let other := Reader.truncate self.reader len
  match other.1 with
  | .error stop => (.error stop, self)
  | .ok () =>
    let rest := Reader.skip self.reader len
    ((fun () => { self with reader := other.2 }) <$> rest.1, { self with reader := rest.2 })

instance [Reader R] : Reader (Relocate R) where
  len self := Reader.len self.reader
  empty self := { self with reader := Reader.empty self.reader }
  truncate self len := self.delegated (Reader.truncate self.reader len)
  offsetFrom self base := Reader.offsetFrom self.reader base.reader
  find self byte := Reader.find self.reader byte
  skip self len := self.delegated (Reader.skip self.reader len)
  split := split
  toSlice self := Reader.toSlice self.reader
  readSlice self len := self.delegated (Reader.readSlice self.reader len)
  readAddress self size := self.relocated (Reader.readAddress · size)
  readLength self format := self.relocated (Reader.readLength · format)
  readOffset self format := self.relocated (Reader.readOffset · format)
  readSizedOffset self size := self.relocated (Reader.readSizedOffset · size)

end Relocate

/-- `object::Section`: its relocations, and whether its data is borrowed. -/
structure ElfSection where
  relocations : List (U64 × Relocation)
  uncompressedData : Exec Unit (Bool × List UInt8)

/-- `object::File` -/
structure ElfFile where
  sectionByName : String → Option ElfSection
  /-- The address of a symbol. -/
  symbolByIndex : ℕ → Option U64

/-- The addend of a relocation, with the address of its symbol. -/
def ElfFile.withSymbol (file : ElfFile) (relocation : Relocation) : Relocation :=
  match relocation.target with
  | .symbol index =>
    match file.symbolByIndex index with
    | some address => { relocation with addend := address + relocation.addend }
    -- the error is logged
    | none => relocation
  | .other => relocation

/-- `add_relocations`. Other kinds are logged. -/
def addRelocations (file : ElfFile) (relocations : RelocationMap)
    (section_ : ElfSection) : RelocationMap :=
  section_.relocations.foldl (fun relocations entry =>
    match entry.2.kind with
    | .absolute => Function.update relocations entry.1.toNat (some (file.withSymbol entry.2))
    | .other => relocations) relocations

/-- `load_file_section` -/
def loadFileSection {R : Type} (new : List UInt8 → R) (name : String) (file : ElfFile) :
    Exec Unit (Relocate R) := do
  match file.sectionByName name with
  | some section_ => do
    let relocations := addRelocations file (fun _ => none) section_
    let (borrowed, data) ← section_.uncompressedData
    -- compressed data is not supported
    if borrowed then return ⟨relocations, new data, new data⟩ else Exec.panicked
  | none => return ⟨fun _ => none, new [], new []⟩

/-! ## The section with its relocations -/

open Gimli

namespace Relocation

/-- How many bytes of a section a relocation is about. -/
def width (relocation : Relocation) : ℕ :=
  match relocation.kind with
  | .absolute => relocation.size / 8
  | .other => 0

/-- What is to be in the place of a number. -/
def put (relocation : Relocation) (value : U64) : U64 :=
  if relocation.implicitAddend then value + relocation.addend else relocation.addend

/-- The bytes that a relocation at an offset puts into a section. -/
def placed (relocation : Relocation) (bigEndian : Bool) (data : List UInt8) (offset : ℕ) :
    List UInt8 :=
  bytesOf bigEndian relocation.width
    (relocation.put (numberOf bigEndian ((data.drop offset).take relocation.width)))

end Relocation

namespace RelocationMap

variable (relocations : RelocationMap) (bigEndian : Bool) (data : List UInt8)

/-- What a relocation that begins some bytes before puts into a place. -/
def placedAt (i d : ℕ) : Option UInt8 :=
  if i < d then none
  else
    match relocations (i - d) with
    | some relocation =>
      if d < relocation.width then (relocation.placed bigEndian data (i - d))[d]? else none
    | none => none

/-- A byte of the section with its relocations. -/
def byteAt (i : ℕ) : UInt8 :=
  ((List.range 8).findSome? (placedAt relocations bigEndian data i)).getD (data.getD i 0)

/-- **The section with all relocations written into it.** -/
def written : List UInt8 :=
  (List.range data.length).map (byteAt relocations bigEndian data)

/-- A relocation at an offset is about a byte. -/
def Covers (offset i : ℕ) : Prop :=
  ∃ relocation, relocations offset = some relocation
    ∧ offset ≤ i ∧ i < offset + relocation.width

/-- **No relocation is about a range.** -/
def Untouched (start n : ℕ) : Prop :=
  ∀ i, start ≤ i → i < start + n → ∀ offset, ¬ Covers relocations offset i

variable {relocations bigEndian data}

@[simp] theorem length_written : (written relocations bigEndian data).length = data.length := by
  rw [written, List.length_map, List.length_range]

theorem getElem_written {i : ℕ} (h : i < (written relocations bigEndian data).length) :
    (written relocations bigEndian data)[i] = byteAt relocations bigEndian data i := by
  simp [written]

/-- What is put into a place comes from a relocation about it. -/
theorem covers_of_placedAt {i d : ℕ} {b : UInt8}
    (h : placedAt relocations bigEndian data i d = some b) :
    d ≤ i ∧ Covers relocations (i - d) i := by
  unfold placedAt at h
  split at h
  · cases h
  · next hd =>
    split at h
    · next relocation hrelocation =>
      split at h
      · next hlt => exact ⟨by omega, relocation, hrelocation, by omega, by omega⟩
      · cases h
    · cases h

/-- A byte that no relocation is about stays. -/
theorem byteAt_of_not_covers {i : ℕ} (h : ∀ offset, ¬ Covers relocations offset i) :
    byteAt relocations bigEndian data i = data.getD i 0 := by
  have hnone : (List.range 8).findSome? (placedAt relocations bigEndian data i) = none := by
    refine List.findSome?_eq_none_iff.mpr fun d _ => ?_
    cases hd : placedAt relocations bigEndian data i d with
    | none => rfl
    | some b => exact absurd (covers_of_placedAt hd).2 (h _)
  rw [byteAt, hnone, Option.getD_none]

/-- **A range that no relocation is about stays.** -/
theorem Untouched.written_eq {start n : ℕ} (h : Untouched relocations start n) :
    ((written relocations bigEndian data).drop start).take n = (data.drop start).take n := by
  refine List.ext_getElem (by simp) fun i hi hi' => ?_
  have hlt : i < n := by
    rw [List.length_take] at hi'
    omega
  rw [List.getElem_take, List.getElem_drop, List.getElem_take, List.getElem_drop, getElem_written,
    byteAt_of_not_covers (h _ (by omega) (by omega)), List.getD_eq_getElem]

/-- A part of an untouched range is untouched. -/
theorem Untouched.mono {start n m : ℕ} (h : Untouched relocations start n) (hle : m ≤ n) :
    Untouched relocations start m := fun i hi hlt => h i hi (by omega)

/-- A number comes back from its bytes, if they are enough. -/
theorem numberOf_bytesOf {width : ℕ} {n : U64} (h : n.toNat < 256 ^ width) :
    numberOf bigEndian (bytesOf bigEndian width n) = n := by
  have hle : leWord 64 (leBytes width n.toNat) = n := by
    rw [leWord, leNat_leBytes, Nat.mod_eq_of_lt h]
    exact BitVec.eq_of_toNat_eq (by simp)
  cases bigEndian with
  | true => simp [numberOf, bytesOf, hle]
  | false => simp [numberOf, bytesOf, hle]

@[simp] theorem length_bytesOf (width : ℕ) (n : U64) :
    (bytesOf bigEndian width n).length = width := by
  cases bigEndian <;> simp [bytesOf]

/-- **Where a relocation is**, and no other, the section has what it puts there. -/
theorem written_eq_placed {start : ℕ} {relocation : Relocation}
    (hrelocation : relocations start = some relocation) (hwidth : relocation.width ≤ 8)
    (hother : ∀ i, start ≤ i → i < start + relocation.width →
      ∀ offset, Covers relocations offset i → offset = start)
    (hle : start + relocation.width ≤ data.length) :
    ((written relocations bigEndian data).drop start).take relocation.width
      = relocation.placed bigEndian data start := by
  have hlen : (relocation.placed bigEndian data start).length = relocation.width :=
    length_bytesOf _ _
  have hlength : (((written relocations bigEndian data).drop start).take relocation.width).length
      = relocation.width := by
    rw [List.length_take, List.length_drop, length_written]
    exact min_eq_left (Nat.le_sub_of_add_le' hle)
  refine List.ext_getElem (hlength.trans hlen.symm) fun d hd hd' => ?_
  rw [hlen] at hd'
  have hplaced : placedAt relocations bigEndian data (start + d) d
      = some (relocation.placed bigEndian data start)[d] := by
    unfold placedAt
    rw [if_neg (by omega), Nat.add_sub_cancel, hrelocation]
    dsimp only
    rw [if_pos hd', List.getElem?_eq_getElem]
  have hfind : (List.range 8).findSome? (placedAt relocations bigEndian data (start + d))
      = some (relocation.placed bigEndian data start)[d] := by
    cases hfind : (List.range 8).findSome? (placedAt relocations bigEndian data (start + d)) with
    | none =>
      have hnone := List.findSome?_eq_none_iff.mp hfind d (List.mem_range.mpr (by omega))
      rw [hplaced] at hnone
      cases hnone
    | some b =>
      -- what is found is of the same relocation
      obtain ⟨d', -, hd'⟩ := List.exists_of_findSome?_eq_some hfind
      obtain ⟨hle', hcovers⟩ := covers_of_placedAt hd'
      have heq := hother (start + d) (by omega) (by omega) _ hcovers
      obtain rfl : d = d' := by omega
      rw [← hd', hplaced]
  rw [List.getElem_take, List.getElem_drop, getElem_written, byteAt, hfind, Option.getD_some]

end RelocationMap
