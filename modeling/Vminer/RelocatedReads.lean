import Vminer.Clients
import Vminer.Relocations

/-!
# Reading with relocations

The tool reads a section that is not linked through a reader that looks up what is relocated.
For whoever reads this is the same as to read the section with all relocations written into it:
no client of the reader can tell the two apart (`loadFileSection_run`), as long as it reads what
is relocated as numbers of their size and nothing else.

A client has several readers, which it splits and copies. Related readers have the same place in
the two sections (`Window.Matches`), and each call gives the same answer and leaves the readers
related (`answer_related`).
-/

open Gimli

/-! ## Clients of readers -/

namespace Gimli

/-- What a client does with its readers, by their numbers: to split a reader and to copy it
give it one more. -/
inductive ReaderCall where
  | copy (i : ℕ)
  | len (i : ℕ)
  | empty (i : ℕ)
  | truncate (i n : ℕ)
  | offsetFrom (i base : ℕ)
  | find (i : ℕ) (byte : UInt8)
  | skip (i n : ℕ)
  | split (i n : ℕ)
  | toSlice (i : ℕ)
  | readSlice (i n : ℕ)
  | readField (i : ℕ) (field : Field)

/-- What a client gets. -/
inductive ReaderAnswer where
  | unit
  | count (n : ℕ)
  | number (n : U64)
  | bytes (bytes : List UInt8)

section Pool

variable {R : Type}

/-- A call to one of some readers. It gives the answer, what becomes of the reader and the
readers that are new. -/
def onReader (i : ℕ) (f : R → Exec Error ReaderAnswer × R × List R) (pool : List R) :
    Exec Error ReaderAnswer × List R :=
  match pool[i]? with
  | some reader =>
    let result := f reader
    (result.1, pool.set i result.2.1 ++ result.2.2)
  | none => (Exec.panicked, pool)

/-- The result of a call that may move the reader. -/
def moved {α : Type} (answer : α → ReaderAnswer) (result : Exec Error α × R) :
    Exec Error ReaderAnswer × R × List R :=
  (answer <$> result.1, result.2, [])

/-- The result of a call that does not. -/
def kept {α : Type} (answer : α → ReaderAnswer) (reader : R) (result : Exec Error α) :
    Exec Error ReaderAnswer × R × List R :=
  (answer <$> result, reader, [])

/-- What a split gives. -/
def halves (result : Exec Error R × R) : Exec Error ReaderAnswer × R × List R :=
  ((fun _ => .unit) <$> result.1, result.2, result.1.toOption.toList)

/-- **Readers answer a client.** -/
def answer [Reader R] : Handler ReaderCall (Exec Error ReaderAnswer) (List R)
  | .copy i => onReader i fun r => (.ok .unit, r, [r])
  | .len i => onReader i fun r => kept .count r (.ok (Reader.len r))
  | .empty i => onReader i fun r => (.ok .unit, Reader.empty r, [])
  | .truncate i n => onReader i fun r => moved (fun () => .unit) (Reader.truncate r n)
  | .offsetFrom i base => fun pool =>
    match pool[base]? with
    | some base => onReader i (fun r => kept .count r (Reader.offsetFrom r base)) pool
    | none => (Exec.panicked, pool)
  | .find i byte => onReader i fun r => kept .count r (Reader.find r byte)
  | .skip i n => onReader i fun r => moved (fun () => .unit) (Reader.skip r n)
  | .split i n => onReader i fun r => halves (Reader.split r n)
  | .toSlice i => onReader i fun r => kept .bytes r (.ok (Reader.toSlice r))
  | .readSlice i n => onReader i fun r => moved .bytes (Reader.readSlice r n)
  | .readField i field => onReader i fun r => moved .number (Reader.readField r field)

end Pool

/-- **How a number may be read**: where a relocation begins, as many bytes as it is about, if
what it puts there fits into them, and no other relocation is about any of them. -/
structure Window.ReadsNumber (relocations : RelocationMap) (w : Window) (width : ℕ) : Prop where
  place : ∀ relocation, relocations w.start = some relocation → relocation.kind = .absolute →
    relocation.width = width
      ∧ (relocation.put (numberOf w.bigEndian (w.bytes.take width))).toNat < 256 ^ width
  others : ∀ i, w.start ≤ i → i < w.start + width →
    ∀ offset, RelocationMap.Covers relocations offset i → offset = w.start

/-- **What a client may do with a reader.** Numbers are read as they may be, from readers that
are in the section, and other bytes are not relocated. -/
def Window.Allows (relocations : RelocationMap) (w : Window) : ReaderCall → Prop
  | .find _ byte => RelocationMap.Untouched relocations w.start
      (match w.bytes.findIdx? (· == byte) with
        | some i => i + 1
        | none => w.len)
  | .toSlice _ => RelocationMap.Untouched relocations w.start w.len
  | .readSlice _ n => n ≤ w.len → RelocationMap.Untouched relocations w.start n
  | .readField _ field => w.inside = true
      ∧ ∀ width, field.width = .ok width → width ≤ w.len → w.ReadsNumber relocations width
  | _ => True

/-- The reader that a call is made to. -/
def ReaderCall.target : ReaderCall → ℕ
  | .copy i | .len i | .empty i | .truncate i _ | .offsetFrom i _ | .find i _ | .skip i _
  | .split i _ | .toSlice i | .readSlice i _ | .readField i _ => i

/-- What a client may do with readers that are windows. -/
def Allowed {R : Type} (relocations : RelocationMap) (view : R → Window) (call : ReaderCall)
    (pool : List (Relocate R)) : Prop :=
  ∀ reader, pool[call.target]? = some reader →
    (view reader.reader).Allows relocations call

end Gimli

/-! ## Related readers -/

namespace Gimli

/-- **The same window** into a section and into the section with its relocations. -/
structure Window.Matches (relocations : RelocationMap) (bigEndian : Bool) (data : List UInt8)
    (w w' : Window) : Prop where
  data_eq : w.data = data
  data_eq' : w'.data = RelocationMap.written relocations bigEndian data
  start_eq : w'.start = w.start
  len_eq : w'.len = w.len
  inside_eq : w'.inside = w.inside
  bigEndian_eq : w.bigEndian = bigEndian
  bigEndian_eq' : w'.bigEndian = bigEndian

namespace Window.Matches

variable {relocations : RelocationMap} {bigEndian : Bool} {data : List UInt8} {w w' : Window}

/-- The first bytes of a window. -/
theorem take_bytes (w : Window) {n : ℕ} (h : n ≤ w.len) :
    w.bytes.take n = (w.data.drop w.start).take n := by
  rw [Window.bytes, List.take_take, min_eq_left h]

/-- What no relocation is about reads alike. -/
theorem take_bytes_eq (h : Matches relocations bigEndian data w w') {n : ℕ} (hn : n ≤ w.len)
    (huntouched : RelocationMap.Untouched relocations w.start n) :
    w'.bytes.take n = w.bytes.take n := by
  rw [take_bytes w hn, take_bytes w' (h.len_eq ▸ hn), h.data_eq, h.data_eq', h.start_eq,
    huntouched.written_eq]

/-- So does a whole window. -/
theorem bytes_eq (h : Matches relocations bigEndian data w w')
    (huntouched : RelocationMap.Untouched relocations w.start w.len) : w'.bytes = w.bytes := by
  have htake := h.take_bytes_eq le_rfl huntouched
  have hlen : ∀ w : Window, w.bytes.take w.len = w.bytes := fun w =>
    (take_bytes w le_rfl).trans rfl
  rwa [hlen w, ← h.len_eq, hlen w'] at htake

theorem advance (h : Matches relocations bigEndian data w w') {n : ℕ} (hn : n ≤ w.len)
    (hn' : n ≤ w'.len) :
    Matches relocations bigEndian data (w.advance n hn) (w'.advance n hn') where
  __ := h
  start_eq := congrArg (· + n) h.start_eq
  len_eq := congrArg (· - n) h.len_eq

theorem shorten (h : Matches relocations bigEndian data w w') {n : ℕ} (hn : n ≤ w.len)
    (hn' : n ≤ w'.len) :
    Matches relocations bigEndian data (w.shorten n hn) (w'.shorten n hn') where
  __ := h
  len_eq := rfl

theorem eof_eq (h : Matches relocations bigEndian data w w') {α : Type} :
    (w'.eof : Exec Error α) = w.eof := by
  rw [Window.eof, Window.eof, h.start_eq]

theorem empty (h : Matches relocations bigEndian data w w') :
    Matches relocations bigEndian data (Reader.empty w) (Reader.empty w') where
  __ := h
  start_eq := rfl
  len_eq := rfl
  inside_eq := rfl

/-- Results that are alike, with matching windows. -/
def Alike (relocations : RelocationMap) (bigEndian : Bool) (data : List UInt8) {α : Type}
    (r r' : Exec Error α × Window) : Prop :=
  r.1 = r'.1 ∧ Matches relocations bigEndian data r.2 r'.2

theorem truncate (h : Matches relocations bigEndian data w w') (n : ℕ) :
    Alike relocations bigEndian data (Reader.truncate w n) (Reader.truncate w' n) := by
  show Alike _ _ _ (dite _ _ _) (dite _ _ _)
  by_cases hn : n ≤ w.len
  · have hn' : n ≤ w'.len := h.len_eq ▸ hn
    rw [dif_pos hn, dif_pos hn']
    exact ⟨rfl, h.shorten hn hn'⟩
  · rw [dif_neg hn, dif_neg (h.len_eq ▸ hn)]
    exact ⟨h.eof_eq.symm, h⟩

theorem skip (h : Matches relocations bigEndian data w w') (n : ℕ) :
    Alike relocations bigEndian data (Reader.skip w n) (Reader.skip w' n) := by
  show Alike _ _ _ (dite _ _ _) (dite _ _ _)
  by_cases hn : n ≤ w.len
  · have hn' : n ≤ w'.len := h.len_eq ▸ hn
    rw [dif_pos hn, dif_pos hn']
    exact ⟨rfl, h.advance hn hn'⟩
  · rw [dif_neg hn, dif_neg (h.len_eq ▸ hn)]
    exact ⟨h.eof_eq.symm, h⟩

theorem readSlice (h : Matches relocations bigEndian data w w') {n : ℕ}
    (huntouched : n ≤ w.len → RelocationMap.Untouched relocations w.start n) :
    Alike relocations bigEndian data (Reader.readSlice w n) (Reader.readSlice w' n) := by
  show Alike _ _ _ (dite _ _ _) (dite _ _ _)
  by_cases hn : n ≤ w.len
  · have hn' : n ≤ w'.len := h.len_eq ▸ hn
    rw [dif_pos hn, dif_pos hn']
    exact ⟨congrArg Except.ok (h.take_bytes_eq hn (huntouched hn)).symm, h.advance hn hn'⟩
  · rw [dif_neg hn, dif_neg (h.len_eq ▸ hn)]
    exact ⟨h.eof_eq.symm, h⟩

/-- A byte is found where it was, if no relocation is about what is looked at. -/
theorem find (h : Matches relocations bigEndian data w w') {byte : UInt8}
    (huntouched : RelocationMap.Untouched relocations w.start
      (match w.bytes.findIdx? (· == byte) with
        | some i => i + 1
        | none => w.len)) : Reader.find w byte = Reader.find w' byte := by
  have hfinds : ∀ w : Window, Reader.find w byte
      = match w.bytes.findIdx? (· == byte) with
        | some i => .ok i
        | none => w.eof := fun _ => rfl
  rw [hfinds, hfinds]
  cases hfind : w.bytes.findIdx? (· == byte) with
  | none =>
    rw [hfind] at huntouched
    rw [h.bytes_eq huntouched, hfind]
    exact h.eof_eq.symm
  | some i =>
    rw [hfind] at huntouched
    obtain ⟨hi, -, -⟩ := List.findIdx?_eq_some_iff_getElem.mp hfind
    have hlen : i + 1 ≤ w.len := by
      rw [Window.bytes, List.length_take] at hi
      omega
    -- the search ends in the bytes that are the same
    have hfront : ∀ l : List UInt8, l.take (i + 1) = w.bytes.take (i + 1) →
        l.findIdx? (· == byte) = some i := by
      intro l hl
      have htake : (w.bytes.take (i + 1)).findIdx? (· == byte) = some i := by
        rw [List.findIdx?_take, hfind]
        simp
      rw [← hl, List.findIdx?_take] at htake
      cases hl' : l.findIdx? (· == byte) with
      | none =>
        rw [hl'] at htake
        cases htake
      | some j =>
        rw [hl'] at htake
        simp only [Option.bind_some, Option.guard] at htake
        split at htake
        · exact htake
        · cases htake
    rw [hfront _ (h.take_bytes_eq hlen huntouched)]

/-- A number has eight bytes at most. -/
theorem width_le {field : Field} {width : ℕ} (h : field.width = .ok width) : width ≤ 8 := by
  have hformat : ∀ format : Format, format.width ≤ 8 := by
    rintro (- | -) <;> decide
  have hsize : ∀ {size : ℕ} {e : Error},
      (if size ∈ [1, 2, 4, 8] then Except.ok size else .error e) = .ok width → width ≤ 8 := by
    intro size e h
    split at h
    · next hmem =>
      obtain rfl := Except.ok.inj h
      simp only [List.mem_cons, List.not_mem_nil, or_false] at hmem
      omega
    · cases h
  cases field with
  | address size => exact hsize h
  | length format => exact Except.ok.inj h ▸ hformat format
  | offset format => exact Except.ok.inj h ▸ hformat format
  | sizedOffset size => exact hsize h

/-- **A number that is looked up in the table is the one that is written into the section.** -/
theorem numberOf_eq {R : Type} (h : Matches relocations bigEndian data w w') {width : ℕ}
    (hwidth : width ≤ 8) (hlen : width ≤ w.len) (hreads : w.ReadsNumber relocations width)
    {self : Relocate R} (hself : self.relocations = relocations) :
    self.relocate w.start (numberOf w.bigEndian (w.bytes.take width))
      = numberOf w'.bigEndian (w'.bytes.take width) := by
  rw [h.bigEndian_eq, h.bigEndian_eq']
  -- where no relocation begins, none is about the number
  have hsame : (∀ relocation, relocations w.start = some relocation → relocation.width = 0) →
      numberOf bigEndian (w.bytes.take width) = numberOf bigEndian (w'.bytes.take width) := by
    intro hzero
    rw [h.take_bytes_eq hlen]
    rintro i hi hlt offset hcovers
    obtain rfl := hreads.others i hi hlt offset hcovers
    obtain ⟨relocation, hrelocation, -, hbound⟩ := hcovers
    rw [hzero relocation hrelocation] at hbound
    omega
  unfold Relocate.relocate
  rw [hself]
  cases hrelocation : relocations w.start with
  | none =>
    refine hsame fun relocation hsome => ?_
    rw [hrelocation] at hsome
    cases hsome
  | some relocation =>
    dsimp only
    cases hkind : relocation.kind with
    | other =>
      refine hsame fun relocation' hsome => ?_
      obtain rfl : relocation = relocation' := Option.some.inj (hrelocation ▸ hsome)
      rw [Relocation.width, hkind]
    | absolute =>
      obtain ⟨rfl, hfits⟩ := hreads.place relocation hrelocation hkind
      have hbound := w.fits
      rw [h.data_eq] at hbound
      have hplaced : ((RelocationMap.written relocations bigEndian data).drop w.start).take
          relocation.width = relocation.placed bigEndian data w.start :=
        RelocationMap.written_eq_placed hrelocation hwidth hreads.others (by omega)
      rw [h.bigEndian_eq] at hfits
      rw [take_bytes w' (h.len_eq ▸ hlen), h.data_eq', h.start_eq, hplaced,
        Relocation.placed, ← h.data_eq, ← take_bytes w hlen, RelocationMap.numberOf_bytesOf hfits]
      rfl

/-- **A relocated read** is a read of the relocated section. -/
theorem readField {R : Type} (h : Matches relocations bigEndian data w w') {field : Field}
    (hreads : ∀ width, field.width = .ok width → width ≤ w.len →
      w.ReadsNumber relocations width)
    {self : Relocate R} (hself : self.relocations = relocations) :
    Alike relocations bigEndian data
      (self.relocate w.start <$> (Reader.readField w field).1, (Reader.readField w field).2)
      (Reader.readField w' field) := by
  have hfield : ∀ w : Window, Reader.readField w field = w.readNumber field.width := by
    intro w
    cases field <;> rfl
  rw [hfield, hfield]
  unfold Window.readNumber
  cases hwidth : field.width with
  | error e => exact ⟨rfl, h⟩
  | ok width =>
    dsimp only
    by_cases hn : width ≤ w.len
    · have hn' : width ≤ w'.len := h.len_eq ▸ hn
      rw [dif_pos hn, dif_pos hn']
      exact ⟨congrArg Except.ok (h.numberOf_eq (width_le hwidth) hn (hreads width hwidth hn) hself),
        h.advance hn hn'⟩
    · have hn' : ¬ width ≤ w'.len := h.len_eq ▸ hn
      rw [dif_neg hn, dif_neg hn']
      exact ⟨h.eof_eq.symm, h⟩

end Window.Matches

/-- **Related readers**: one that relocates what it reads from a section, and one of the
section with its relocations. -/
structure Related {R : Type} (relocations : RelocationMap) (bigEndian : Bool) (data : List UInt8)
    (view : R → Window) (x : Relocate R) (y : R) : Prop where
  relocations_eq : x.relocations = relocations
  section_eq : view x.section_ = Window.whole bigEndian data
  matches_ : Window.Matches relocations bigEndian data (view x.reader) (view y)

section Related

variable {R : Type} [Reader R] {relocations : RelocationMap} {bigEndian : Bool}
  {data : List UInt8} {view : R → Window} {x : Relocate R} {y : R}

/-- Results of calls to related readers: the answers are the same, and what there is of readers
is related. -/
def RelatedResult (relocations : RelocationMap) (bigEndian : Bool) (data : List UInt8)
    (view : R → Window) (r : Exec Error ReaderAnswer × Relocate R × List (Relocate R))
    (r' : Exec Error ReaderAnswer × R × List R) : Prop :=
  r.1 = r'.1 ∧ Related relocations bigEndian data view r.2.1 r'.2.1
    ∧ List.Forall₂ (Related relocations bigEndian data view) r.2.2 r'.2.2

omit [Reader R] in
/-- A relocating reader with another place in its section. -/
theorem Related.withReader (h : Related relocations bigEndian data view x y) {reader reader' : R}
    (hmatches : Window.Matches relocations bigEndian data (view reader) (view reader')) :
    Related relocations bigEndian data view { x with reader } reader' where
  relocations_eq := h.relocations_eq
  section_eq := h.section_eq
  matches_ := hmatches

omit [Reader R] in
/-- A call that does not move the reader. -/
theorem Related.kept_alike {α : Type} (h : Related relocations bigEndian data view x y)
    (answer : α → ReaderAnswer) {result result' : Exec Error α} (heq : result = result') :
    RelatedResult relocations bigEndian data view (kept answer x result)
      (kept answer y result') :=
  ⟨congrArg (answer <$> ·) heq, h, List.Forall₂.nil⟩

omit [Reader R] in
/-- A call that moves the reader as the library does. -/
theorem Related.moved_alike {α : Type} (h : Related relocations bigEndian data view x y)
    (answer : α → ReaderAnswer) {result result' : Exec Error α × R} {answered : Exec Error α}
    (halike : Window.Matches.Alike relocations bigEndian data (answered, view result.2)
      (viewed view result')) :
    RelatedResult relocations bigEndian data view
      (moved answer (answered, { x with reader := result.2 })) (moved answer result') :=
  ⟨congrArg (answer <$> ·) halike.1, h.withReader halike.2, List.Forall₂.nil⟩

omit [Reader R] in
/-- A method that is only passed on. -/
theorem Related.delegated_alike {α : Type} (h : Related relocations bigEndian data view x y)
    (answer : α → ReaderAnswer) {result result' : Exec Error α × R} {r r' : Exec Error α × Window}
    (hr : viewed view result = r) (hr' : viewed view result' = r')
    (halike : Window.Matches.Alike relocations bigEndian data r r') :
    RelatedResult relocations bigEndian data view (moved answer (x.delegated result))
      (moved answer result') := by
  subst hr hr'
  exact h.moved_alike answer halike

/-- The place of a reader in its section. -/
theorem Related.offsetFrom_eq (h : Related relocations bigEndian data view x y)
    (hview : IsView view) (hinside : (view x.reader).inside = true) :
    Reader.offsetFrom x.reader x.section_ = .ok (view x.reader).start := by
  have hfits := (view x.reader).fits
  rw [h.matches_.data_eq] at hfits
  rw [hview.offsetFrom, h.section_eq]
  exact if_pos ⟨hinside, rfl, Nat.zero_le _, by simpa [Window.whole] using hfits⟩

/-- **Numbers are read alike.** -/
theorem Related.readField (h : Related relocations bigEndian data view x y)
    (hview : IsView view) {field : Field} (hinside : (view x.reader).inside = true)
    (hreads : ∀ width, field.width = .ok width → width ≤ (view x.reader).len →
      (view x.reader).ReadsNumber relocations width) :
    RelatedResult relocations bigEndian data view (moved .number (Reader.readField x field))
      (moved .number (Reader.readField y field)) := by
  have hread : Reader.readField x field = (x.relocate (view x.reader).start
      <$> (Reader.readField x.reader field).1,
        { x with reader := (Reader.readField x.reader field).2 }) := by
    have hrelocated : ∀ read : R → Exec Error U64 × R, x.relocated read
        = (x.relocate (view x.reader).start <$> (read x.reader).1,
          { x with reader := (read x.reader).2 }) := by
      intro read
      rw [Relocate.relocated, h.offsetFrom_eq hview hinside]
    cases field with
    | address size => exact hrelocated (Reader.readAddress · size)
    | length format => exact hrelocated (Reader.readLength · format)
    | offset format => exact hrelocated (Reader.readOffset · format)
    | sizedOffset size => exact hrelocated (Reader.readSizedOffset · size)
  rw [hread]
  refine h.moved_alike _ ?_
  have hlaw := hview.readField x.reader field
  rw [hview.readField y field]
  have halike := h.matches_.readField hreads h.relocations_eq
  rw [← hlaw] at halike
  exact halike

/-- **Splitting** gives related readers. -/
theorem Related.split (h : Related relocations bigEndian data view x y) (hview : IsView view)
    (n : ℕ) : RelatedResult relocations bigEndian data view (halves (Reader.split x n))
      (halves (Reader.split y n)) := by
  have hlen := h.matches_.len_eq
  have htruncate : viewed view (Reader.truncate x.reader n) = dite _ _ _ :=
    hview.truncate x.reader n
  have hskip : viewed view (Reader.skip x.reader n) = dite _ _ _ := hview.skip x.reader n
  have hsplit : (view <$> (Reader.split y n).1, view (Reader.split y n).2) = dite _ _ _ :=
    hview.split y n
  show RelatedResult _ _ _ _ (halves (Relocate.split x n)) _
  by_cases hn : n ≤ (view x.reader).len
  · have hn' : n ≤ (view y).len := hlen ▸ hn
    rw [dif_pos hn] at htruncate hskip
    rw [dif_pos hn'] at hsplit
    obtain ⟨htruncated, hother⟩ := Prod.mk.inj htruncate
    obtain ⟨hskipped, hrest⟩ := Prod.mk.inj hskip
    obtain ⟨hgiven, hleft⟩ := Prod.mk.inj hsplit
    have hx : Relocate.split x n = (.ok { x with reader := (Reader.truncate x.reader n).2 },
        { x with reader := (Reader.skip x.reader n).2 }) := by
      unfold Relocate.split
      dsimp only
      rw [htruncated]
      dsimp only
      rw [hskipped]
      rfl
    rcases hy : Reader.split y n with ⟨stop | other, rest⟩
    · rw [hy] at hgiven
      cases hgiven
    · rw [hy] at hgiven hleft
      have hview' : view other = (view y).shorten n hn' := Except.ok.inj hgiven
      rw [hx]
      refine ⟨rfl, h.withReader ?_, List.Forall₂.cons (h.withReader ?_) List.Forall₂.nil⟩
      · show Window.Matches _ _ _ _ (view rest)
        rw [hrest, show view rest = _ from hleft]
        exact h.matches_.advance hn hn'
      · rw [hother, hview']
        exact h.matches_.shorten hn hn'
  · have hn' : ¬ n ≤ (view y).len := hlen ▸ hn
    rw [dif_neg hn] at htruncate
    rw [dif_neg hn'] at hsplit
    obtain ⟨htruncated, -⟩ := Prod.mk.inj htruncate
    obtain ⟨hgiven, hleft⟩ := Prod.mk.inj hsplit
    have hx : Relocate.split x n = ((view x.reader).eof, x) := by
      unfold Relocate.split
      dsimp only
      rw [htruncated]
      rfl
    rcases hy : Reader.split y n with ⟨stop | other, rest⟩
    · rw [hy] at hgiven hleft
      have hstop : (.error stop : Exec Error R) = (view y).eof :=
        congrArg Except.error (Except.error.inj hgiven)
      rw [hx, hstop, h.matches_.eof_eq]
      refine ⟨rfl, ⟨h.relocations_eq, h.section_eq, ?_⟩, List.Forall₂.nil⟩
      show Window.Matches _ _ _ _ (view rest)
      rw [show view rest = _ from hleft]
      exact h.matches_
    · rw [hy] at hgiven
      cases hgiven

/-- Related readers among related ones. -/
theorem getElem?_of_forall₂ {α β : Type} {r : α → β → Prop} {l : List α} {l' : List β}
    (h : List.Forall₂ r l l') (i : ℕ) :
    (l[i]? = none ∧ l'[i]? = none) ∨ ∃ a b, l[i]? = some a ∧ l'[i]? = some b ∧ r a b := by
  induction h generalizing i with
  | nil => exact Or.inl ⟨rfl, rfl⟩
  | cons hab _ ih =>
    cases i with
    | zero => exact Or.inr ⟨_, _, rfl, rfl, hab⟩
    | succ i => exact ih i

/-- One of some related values is replaced. -/
theorem forall₂_set {α β : Type} {r : α → β → Prop} {l : List α} {l' : List β}
    (h : List.Forall₂ r l l') (i : ℕ) {a : α} {b : β} (hab : r a b) :
    List.Forall₂ r (l.set i a) (l'.set i b) := by
  induction h generalizing i with
  | nil => exact List.Forall₂.nil
  | cons hab' hrest ih =>
    cases i with
    | zero => exact List.Forall₂.cons hab hrest
    | succ i => exact List.Forall₂.cons hab' (ih i)

omit [Reader R] in
/-- What related readers answer in a pool, where the call may be made. -/
theorem onReader_related {pool : List (Relocate R)} {pool' : List R}
    (h : List.Forall₂ (Related relocations bigEndian data view) pool pool') (i : ℕ)
    {f : Relocate R → Exec Error ReaderAnswer × Relocate R × List (Relocate R)}
    {f' : R → Exec Error ReaderAnswer × R × List R}
    (hf : ∀ x y, pool[i]? = some x → Related relocations bigEndian data view x y →
      RelatedResult relocations bigEndian data view (f x) (f' y)) :
    (onReader i f pool).1 = (onReader i f' pool').1
      ∧ List.Forall₂ (Related relocations bigEndian data view) (onReader i f pool).2
        (onReader i f' pool').2 := by
  unfold onReader
  obtain ⟨hx, hy⟩ | ⟨x, y, hx, hy, hrelated⟩ := getElem?_of_forall₂ h i
  · rw [hx, hy]
    exact ⟨rfl, h⟩
  · obtain ⟨hanswer, hreader, hnew⟩ := hf x y hx hrelated
    rw [hx, hy]
    exact ⟨hanswer, List.rel_append (forall₂_set h i hreader) hnew⟩

/-- **One call.** Related readers answer alike where the call may be made, and stay
related. -/
theorem answer_related (hview : IsView view) (call : ReaderCall) (pool : List (Relocate R))
    (pool' : List R) (h : List.Forall₂ (Related relocations bigEndian data view) pool pool')
    (hallowed : Allowed relocations view call pool) :
    (answer call pool).1 = (answer call pool').1
      ∧ List.Forall₂ (Related relocations bigEndian data view) (answer call pool).2
        (answer call pool').2 := by
  cases call with
  | copy i =>
    exact onReader_related h i fun x y _ hxy =>
      ⟨rfl, hxy, List.Forall₂.cons hxy List.Forall₂.nil⟩
  | len i =>
    refine onReader_related h i fun x y _ hxy => hxy.kept_alike _ (congrArg Except.ok ?_)
    show Reader.len x.reader = _
    rw [hview.len, hview.len]
    exact hxy.matches_.len_eq.symm
  | empty i =>
    refine onReader_related h i fun x y _ hxy => ⟨rfl, hxy.withReader ?_, List.Forall₂.nil⟩
    rw [hview.empty, hview.empty]
    exact hxy.matches_.empty
  | truncate i n =>
    exact onReader_related h i fun x y _ hxy => hxy.delegated_alike _
      (hview.truncate x.reader n) (hview.truncate y n) (hxy.matches_.truncate n)
  | offsetFrom i base =>
    simp only [answer]
    obtain ⟨hx, hy⟩ | ⟨base, base', hx, hy, hbase⟩ := getElem?_of_forall₂ h base
    · rw [hx, hy]
      exact ⟨rfl, h⟩
    · rw [hx, hy]
      refine onReader_related h i fun x y _ hxy => hxy.kept_alike _ ?_
      show Reader.offsetFrom x.reader base.reader = _
      rw [hview.offsetFrom, hview.offsetFrom]
      show (if _ then _ else _) = if _ then _ else _
      rw [hxy.matches_.inside_eq, hbase.matches_.inside_eq, hxy.matches_.start_eq,
        hbase.matches_.start_eq, hxy.matches_.len_eq, hbase.matches_.len_eq]
  | find i byte =>
    refine onReader_related h i fun x y hx hxy => hxy.kept_alike _ ?_
    show Reader.find x.reader byte = _
    rw [hview.find, hview.find]
    exact hxy.matches_.find (hallowed x hx)
  | skip i n =>
    exact onReader_related h i fun x y _ hxy => hxy.delegated_alike _
      (hview.skip x.reader n) (hview.skip y n) (hxy.matches_.skip n)
  | split i n => exact onReader_related h i fun x y _ hxy => hxy.split hview n
  | toSlice i =>
    refine onReader_related h i fun x y hx hxy => hxy.kept_alike _ (congrArg Except.ok ?_)
    show Reader.toSlice x.reader = _
    rw [hview.toSlice, hview.toSlice]
    exact (hxy.matches_.bytes_eq (hallowed x hx)).symm
  | readSlice i n =>
    exact onReader_related h i fun x y hx hxy => hxy.delegated_alike _
      (hview.readSlice x.reader n) (hview.readSlice y n) (hxy.matches_.readSlice (hallowed x hx))
  | readField i field =>
    exact onReader_related h i fun x y hx hxy =>
      hxy.readField hview (hallowed x hx).1 (hallowed x hx).2

end Related

/-- A window is a view of itself. -/
theorem isView_id : IsView (id : Window → Window) where
  len _ := rfl
  empty _ := rfl
  truncate _ _ := rfl
  offsetFrom _ _ := rfl
  find _ _ := rfl
  skip _ _ := rfl
  split _ _ := Prod.ext (id_map _) rfl
  toSlice _ := rfl
  readSlice _ _ := rfl
  readField _ _ := rfl

end Gimli

/-! ## Loading a section -/

/-- The data of a section, if there is one. -/
def ElfFile.sectionData (file : ElfFile) (name : String) : List UInt8 :=
  match (file.sectionByName name).map ElfSection.uncompressedData with
  | some (.ok (_, data)) => data
  | _ => []

/-- **The last relocation of a place counts**, with the address of its symbol. -/
theorem addRelocations_eq (file : ElfFile) (section_ : ElfSection) (offset : ℕ) :
    addRelocations file (fun _ => none) section_ offset
      = (section_.relocations.filter fun entry =>
          entry.2.kind = .absolute ∧ entry.1.toNat = offset).getLast?.map
        fun entry => file.withSymbol entry.2 := by
  unfold addRelocations
  induction section_.relocations using List.reverseRecOn with
  | nil => rfl
  | append_singleton entries entry ih =>
    rw [List.foldl_append, List.foldl_cons, List.foldl_nil, List.filter_append]
    cases hkind : entry.2.kind with
    | other =>
      dsimp only
      rw [ih, List.filter_cons_of_neg (by simp [hkind]), List.filter_nil, List.append_nil]
    | absolute =>
      dsimp only
      by_cases hoffset : entry.1.toNat = offset
      · rw [hoffset, Function.update_self, List.filter_cons_of_pos (by simp [hkind, hoffset]),
          List.filter_nil, List.getLast?_concat]
        rfl
      · rw [Function.update_of_ne (Ne.symm hoffset), ih,
          List.filter_cons_of_neg (by simp [hoffset]), List.filter_nil, List.append_nil]

/-- A section that is loaded. -/
theorem loadFileSection_eq_ok {R : Type} {new : List UInt8 → R} {name : String} {file : ElfFile}
    {self : Relocate R} (h : loadFileSection new name file = .ok self) :
    self.section_ = new (file.sectionData name) ∧ self.reader = new (file.sectionData name)
      ∧ ∀ section_, file.sectionByName name = some section_ →
        self.relocations = addRelocations file (fun _ => none) section_ := by
  unfold loadFileSection at h
  unfold ElfFile.sectionData
  cases hsection : file.sectionByName name with
  | none =>
    rw [hsection] at h
    obtain rfl := Except.ok.inj h
    refine ⟨rfl, rfl, fun _ hsome => ?_⟩
    cases hsome
  | some section_ =>
    rw [hsection] at h
    obtain ⟨⟨borrowed, data⟩, hdata, h⟩ := (Exec.bind_eq_ok_iff _ _ _).mp h
    rw [Option.map_some, hdata]
    cases borrowed with
    | false => cases h
    | true =>
      obtain rfl := Except.ok.inj h
      refine ⟨rfl, rfl, fun section' hsome => ?_⟩
      rw [Option.some.inj hsome]

/-- **Relocating what is read is reading what is relocated.** A client of a loaded section gets
from it what it gets from the section with its relocations written into it, where the last one
of each place counts. It has to read relocated bytes as numbers of the size of the
relocation, which have to hold what is put there. -/
theorem loadFileSection_run {R α : Type} [Gimli.Reader R] (view : R → Gimli.Window)
    (hview : Gimli.IsView view) (bigEndian : Bool) (new : List UInt8 → R)
    (hnew : ∀ data, view (new data) = Gimli.Window.whole bigEndian data) (name : String)
    (file : ElfFile) (self : Relocate R) (h : loadFileSection new name file = .ok self)
    (client : Client Gimli.ReaderCall (Exec Gimli.Error Gimli.ReaderAnswer) α)
    (hkeeps : client.Keeps Gimli.answer (Gimli.Allowed self.relocations view) [self]) :
    (client.run Gimli.answer [self]).1
        = (client.run Gimli.answer
          [new (RelocationMap.written self.relocations bigEndian (file.sectionData name))]).1
      ∧ ∀ section_, file.sectionByName name = some section_ → ∀ offset,
        self.relocations offset
          = (section_.relocations.filter fun entry =>
              entry.2.kind = .absolute ∧ entry.1.toNat = offset).getLast?.map
            fun entry => file.withSymbol entry.2 := by
  obtain ⟨hsection, hreader, htable⟩ := loadFileSection_eq_ok h
  refine ⟨?_, fun section_ hsome offset => ?_⟩
  · have hrelated : Gimli.Related self.relocations bigEndian (file.sectionData name) view self
        (new (RelocationMap.written self.relocations bigEndian (file.sectionData name))) := {
      relocations_eq := rfl
      section_eq := (congrArg view hsection).trans (hnew _)
      matches_ := by
        rw [hreader, hnew, hnew]
        exact {
          data_eq := rfl
          data_eq' := rfl
          start_eq := rfl
          len_eq := RelocationMap.length_written
          inside_eq := rfl
          bigEndian_eq := rfl
          bigEndian_eq' := rfl } }
    exact (Client.run_simulation (Gimli.answer_related hview) client
      (List.Forall₂.cons hrelated List.Forall₂.nil) hkeeps).1
  · rw [htable section_ hsome, addRelocations_eq]

/-- A section of two numbers, the second of which is where a symbol is. -/
def twoNumbers : ElfFile where
  sectionByName _ := some
    { relocations := [(4, ⟨.absolute, 32, .symbol 0, 4, false⟩)]
      uncompressedData := .ok (true, [1, 0, 0, 0, 0, 0, 0, 0]) }
  symbolByIndex _ := some 0x1000

/-- A client that reads both. -/
def readsBoth : Client Gimli.ReaderCall (Exec Gimli.Error Gimli.ReaderAnswer)
    (Exec Gimli.Error Gimli.ReaderAnswer) :=
  .call (.readSlice 0 4) fun _ => .call (.readField 0 (.offset .dwarf32)) .done

/-- It gets the address. -/
theorem loadFileSection_run_twoNumbers :
    ∃ self, loadFileSection (Gimli.Window.whole false) ".debug_info" twoNumbers = .ok self
      ∧ (readsBoth.run Gimli.answer [self]).1
        = (readsBoth.run Gimli.answer [Gimli.Window.whole false
          (RelocationMap.written self.relocations false
            (twoNumbers.sectionData ".debug_info"))]).1 := by
  refine ⟨_, rfl, (loadFileSection_run id Gimli.isView_id false (Gimli.Window.whole false)
    (fun _ => rfl) ".debug_info" twoNumbers _ rfl readsBoth ?_).1⟩
  -- the only relocation is the one at the second number
  have htable : addRelocations twoNumbers (fun _ => none)
      { relocations := [(4, ⟨.absolute, 32, .symbol 0, 4, false⟩)]
        uncompressedData := .ok (true, [1, 0, 0, 0, 0, 0, 0, 0]) }
      = Function.update (fun _ => none) 4
        (some ⟨.absolute, 32, .symbol 0, 0x1004, false⟩) := rfl
  have hcovers : ∀ offset i, RelocationMap.Covers (Function.update (fun _ => none) 4
      (some ⟨.absolute, 32, .symbol 0, 0x1004, false⟩)) offset i → offset = 4 ∧ 4 ≤ i := by
    rintro offset i ⟨relocation, hrelocation, hle, -⟩
    by_cases hoffset : offset = 4
    · exact ⟨hoffset, hoffset ▸ hle⟩
    · rw [Function.update_of_ne hoffset] at hrelocation
      cases hrelocation
  refine ⟨?_, ?_, trivial⟩
  · intro reader hreader hlen
    obtain rfl := Option.some.inj hreader
    intro i hi hlt offset h
    have hle := (hcovers offset i h).2
    have hlt : i < 0 + 4 := hlt
    omega
  · intro reader hreader
    obtain rfl := Option.some.inj hreader
    refine ⟨rfl, fun width hwidth _ => ?_⟩
    obtain rfl : 4 = width := Except.ok.inj hwidth
    refine ⟨fun relocation hrelocation _ => ?_, fun i _ _ offset h => (hcovers offset i h).1⟩
    obtain rfl : (⟨.absolute, 32, .symbol 0, 0x1004, false⟩ : Relocation) = relocation :=
      Option.some.inj hrelocation
    exact ⟨by decide, by decide⟩
