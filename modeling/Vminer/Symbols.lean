import Vminer.BinarySearch
import Vminer.Core
import Vminer.Utf8

/-!
# Symbol tables

`ModuleSymbolsBuilder` collects the names of a module in one buffer and keeps,
for each symbol, its address and the range of its name. `build` sorts this table
twice, by address and by name, and the lookups of `ModuleSymbols` are binary
searches in the two.

The ranges stay valid through every call (`Represents`), so nothing panics, and
each lookup answers what was pushed (`moduleSymbols_contract`).
-/

/-- A range of positions in the buffer. -/
structure NameRange where
  start : ℕ
  stop : ℕ
deriving DecidableEq, Repr

/-- An entry of a symbol table. -/
abbrev SymbolEntry : Type := VirtualAddress × NameRange

/-- `ModuleSymbolsBuilder`, without its types. -/
structure ModuleSymbolsBuilder where
  buffer : Str
  symbols : List SymbolEntry

/-- `ModuleSymbols`, without its types. -/
structure ModuleSymbols where
  buffer : Str
  /-- Sorted by address. -/
  symbols : List SymbolEntry
  /-- Sorted by name. -/
  addresses : List SymbolEntry

/-- Strings are compared byte by byte. -/
def nameKey (name : List UInt8) : List ℕ := name.map UInt8.toNat

namespace ModuleSymbolsBuilder

/-- `ModuleSymbolsBuilder::new` -/
def new : ModuleSymbolsBuilder := ⟨Str.empty, []⟩

/-- `ModuleSymbolsBuilder::push` -/
def push (builder : ModuleSymbolsBuilder) (addr : VirtualAddress) (symbol : Str) :
    ModuleSymbolsBuilder :=
  let start := builder.buffer.bytes.length
  let buffer := builder.buffer.append symbol
  let stop := buffer.bytes.length
  { buffer, symbols := builder.symbols ++ [(addr, ⟨start, stop⟩)] }

/-- `Extend<(VirtualAddress, S)> for ModuleSymbolsBuilder` -/
def extend (builder : ModuleSymbolsBuilder) :
    List (VirtualAddress × Str) → ModuleSymbolsBuilder
  | [] => builder
  | (addr, sym) :: iter =>
    let start := builder.buffer.bytes.length
    let buffer := builder.buffer.append sym
    let stop := buffer.bytes.length
    extend { buffer, symbols := builder.symbols ++ [(addr, ⟨start, stop⟩)] } iter

/-- `ModuleSymbolsBuilder::build` -/
def build (sorts : SortUnstable) (builder : ModuleSymbolsBuilder) :
    Exec VmError ModuleSymbols := do
  let names := sorts.byKey (fun e : SymbolEntry => e.1.toNat) builder.symbols
  let keyed ← names.mapM fun e => do
    let name ← strSlice builder.buffer.bytes e.2.start e.2.stop
    return (nameKey name, e)
  let addresses := (sorts.byKey Prod.fst keyed).map Prod.snd
  return { buffer := builder.buffer, symbols := names, addresses }

end ModuleSymbolsBuilder

namespace ModuleSymbols

variable (syms : ModuleSymbols)

/-- `ModuleSymbols::symbol` -/
def symbol (range : NameRange) : Exec VmError (List UInt8) :=
  strSlice syms.buffer.bytes range.start range.stop

/-- `ModuleSymbols::get_symbol` -/
def getSymbol (addr : VirtualAddress) : Exec VmError (Option (List UInt8)) :=
  match binarySearchByKey (m := Id) (fun e : SymbolEntry => e.1.toNat) addr.toNat
      syms.symbols with
  | .error _ => return none
  | .ok index =>
    match syms.symbols[index]? with
    | none => Exec.panicked
    | some e => do
      let name ← syms.symbol e.2
      return some name

/-- `ModuleSymbols::get_symbol_inexact` -/
def getSymbolInexact (addr : VirtualAddress) :
    Exec VmError (Option (List UInt8 × U64)) :=
  match binarySearchByKey (m := Id) (fun e : SymbolEntry => e.1.toNat) addr.toNat
      syms.symbols with
  | .ok i =>
    match syms.symbols[i]? with
    | none => Exec.panicked
    | some e => do
      let name ← syms.symbol e.2
      return some (name, 0)
  | .error 0 => return none
  | .error (i + 1) =>
    match syms.symbols[i]? with
    | none => Exec.panicked
    | some e => do
      let name ← syms.symbol e.2
      return some (name, addr - e.1)

/-- `ModuleSymbols::get_address` -/
def getAddress (name : Str) : Exec VmError (Option VirtualAddress) := do
  match ← binarySearchByKey (fun e : SymbolEntry => do
      let s ← syms.symbol e.2
      return nameKey s) (nameKey name.bytes) syms.addresses with
  | .error _ => return none
  | .ok index =>
    match syms.addresses[index]? with
    | none => Exec.panicked
    | some e => return some e.1

/-- `ModuleSymbols::iter_symbols` -/
def iterSymbols : Exec VmError (List (VirtualAddress × List UInt8)) :=
  syms.symbols.mapM fun e => do
    let name ← syms.symbol e.2
    return (e.1, name)

end ModuleSymbols

/-! ## Runs of a builder -/

/-- A call on a builder. -/
inductive BuilderCall where
  | push (addr : VirtualAddress) (symbol : Str)
  | extend (iter : List (VirtualAddress × Str))

namespace BuilderCall

/-- What a call does to the builder. -/
def run (builder : ModuleSymbolsBuilder) : BuilderCall → ModuleSymbolsBuilder
  | push addr symbol => builder.push addr symbol
  | extend iter => builder.extend iter

/-- The symbols a call pushes. -/
def pushed : BuilderCall → List (VirtualAddress × List UInt8)
  | push addr symbol => [(addr, symbol.bytes)]
  | extend iter => iter.map fun p => (p.1, p.2.bytes)

end BuilderCall

namespace ModuleSymbolsBuilder

/-- The name of an entry. -/
def nameOf (buffer : Str) (e : SymbolEntry) : List UInt8 :=
  (buffer.bytes.take e.2.stop).drop e.2.start

/-- **A builder represents what was pushed**: each entry can be cut out of the
buffer, and these are the names. -/
structure Represents (builder : ModuleSymbolsBuilder)
    (pushed : List (VirtualAddress × List UInt8)) : Prop where
  slices : ∀ e ∈ builder.symbols,
    (strSlice builder.buffer.bytes e.2.start e.2.stop : Exec VmError (List UInt8))
      = .ok (nameOf builder.buffer e)
  names : builder.symbols.map (fun e => (e.1, nameOf builder.buffer e)) = pushed

theorem represents_new : Represents new [] := ⟨by simp [new], rfl⟩

/-- What can be cut out is the name. -/
theorem nameOf_eq {buffer : Str} {e : SymbolEntry} {name : List UInt8}
    (h : (strSlice buffer.bytes e.2.start e.2.stop : Exec VmError (List UInt8)) = .ok name) :
    nameOf buffer e = name := ((strSlice_eq_ok_iff _ _ _ _).mp h).2

variable {builder : ModuleSymbolsBuilder} {pushed : List (VirtualAddress × List UInt8)}

/-- **Pushing a symbol** leaves the names of the others as they are. -/
theorem Represents.push (h : Represents builder pushed) (addr : VirtualAddress) (symbol : Str) :
    Represents (builder.push addr symbol) (pushed ++ [(addr, symbol.bytes)]) := by
  have hold : ∀ e ∈ builder.symbols,
      (strSlice (builder.buffer.append symbol).bytes e.2.start e.2.stop
        : Exec VmError (List UInt8)) = .ok (nameOf builder.buffer e) :=
    fun e he => Str.strSlice_append_left _ _ (h.slices e he)
  have hnew := Str.strSlice_append_right (ε := VmError) builder.buffer symbol
  constructor
  · intro e he
    obtain he | rfl : e ∈ builder.symbols ∨ e = _ := by simpa [ModuleSymbolsBuilder.push] using he
    · exact (nameOf_eq (hold e he)).symm ▸ hold e he
    · exact (nameOf_eq (e := (addr, ⟨_, _⟩)) hnew).symm ▸ hnew
  · rw [ModuleSymbolsBuilder.push, List.map_append, ← h.names]
    refine congrArg₂ _ (List.map_congr_left fun e he => ?_) ?_
    · rw [nameOf_eq (hold e he)]
    · rw [List.map_singleton, nameOf_eq (e := (addr, ⟨_, _⟩)) hnew]

/-- Extending pushes one symbol after the other. -/
theorem Represents.extend (h : Represents builder pushed)
    (iter : List (VirtualAddress × Str)) :
    Represents (builder.extend iter) (pushed ++ iter.map fun p => (p.1, p.2.bytes)) := by
  induction iter generalizing builder pushed with
  | nil =>
    rw [List.map_nil, List.append_nil]
    exact h
  | cons p iter ih =>
    have hrest := ih (h.push p.1 p.2)
    rwa [List.append_assoc] at hrest

/-- **What a builder represents after any calls.** -/
theorem represents_foldl (calls : List BuilderCall) (h : Represents builder pushed) :
    Represents (calls.foldl BuilderCall.run builder)
      (pushed ++ calls.flatMap BuilderCall.pushed) := by
  induction calls generalizing builder pushed with
  | nil =>
    rw [List.flatMap_nil, List.append_nil]
    exact h
  | cons call calls ih =>
    rw [List.foldl_cons, List.flatMap_cons, ← List.append_assoc]
    cases call with
    | push addr symbol => exact ih (h.push addr symbol)
    | extend iter => exact ih (h.extend iter)

end ModuleSymbolsBuilder

/-! ## Lookups -/

namespace ModuleSymbols

open ModuleSymbolsBuilder (nameOf nameOf_eq)

/-- **The two tables of what was pushed**: both hold each entry, one by address
and one by name. -/
structure Tables (syms : ModuleSymbols) (pushed : List (VirtualAddress × List UInt8)) :
    Prop where
  slices : ∀ e ∈ syms.symbols, syms.symbol e.2 = .ok (nameOf syms.buffer e)
  names : (syms.symbols.map fun e => (e.1, nameOf syms.buffer e)).Perm pushed
  symbols_sorted : syms.symbols.Pairwise fun a b => a.1.toNat ≤ b.1.toNat
  perm : syms.addresses.Perm syms.symbols
  addresses_sorted : syms.addresses.Pairwise fun a b =>
    nameKey (nameOf syms.buffer a) ≤ nameKey (nameOf syms.buffer b)

/-- **Building does not panic**, and makes the two tables. -/
theorem exists_build (sorts : SortUnstable) {builder : ModuleSymbolsBuilder}
    {pushed : List (VirtualAddress × List UInt8)} (h : builder.Represents pushed) :
    ∃ syms, builder.build sorts = .ok syms ∧ syms.Tables pushed := by
  have hperm := sorts.perm_byKey (fun e : SymbolEntry => e.1.toNat) builder.symbols
  have hslices := fun e he => h.slices e (hperm.mem_iff.mp he)
  have hkeyed : (sorts.byKey (fun e : SymbolEntry => e.1.toNat) builder.symbols).mapM
      (fun e => (do
        let name ← strSlice builder.buffer.bytes e.2.start e.2.stop
        return (nameKey name, e) : Exec VmError (List ℕ × SymbolEntry)))
      = .ok ((sorts.byKey (fun e : SymbolEntry => e.1.toNat) builder.symbols).map
        fun e => (nameKey (nameOf builder.buffer e), e)) := by
    refine Exec.mapM_eq_ok_map fun e he => ?_
    rw [hslices e he]
    rfl
  have hbuild : builder.build sorts = .ok
      { buffer := builder.buffer
        symbols := sorts.byKey (fun e : SymbolEntry => e.1.toNat) builder.symbols
        addresses := (sorts.byKey Prod.fst
          ((sorts.byKey (fun e : SymbolEntry => e.1.toNat) builder.symbols).map
            fun e => (nameKey (nameOf builder.buffer e), e))).map Prod.snd } := by
    unfold ModuleSymbolsBuilder.build
    dsimp only
    rw [hkeyed, Exec.ok_bind]
    rfl
  refine ⟨_, hbuild, ?_⟩
  · have hkeys := sorts.perm_byKey Prod.fst
      ((sorts.byKey (fun e : SymbolEntry => e.1.toNat) builder.symbols).map
        fun e => (nameKey (nameOf builder.buffer e), e))
    have hsorted := sorts.pairwise_byKey Prod.fst
      ((sorts.byKey (fun e : SymbolEntry => e.1.toNat) builder.symbols).map
        fun e => (nameKey (nameOf builder.buffer e), e))
    refine ⟨hslices, ?_, sorts.pairwise_byKey _ _, ?_, ?_⟩
    · rw [← h.names]
      exact hperm.map _
    · have hmap := hkeys.map Prod.snd
      rwa [List.map_map, show Prod.snd ∘ (fun e : SymbolEntry =>
        (nameKey (nameOf builder.buffer e), e)) = id from rfl, List.map_id] at hmap
    · -- the key of a pair is that of its entry
      have hkey : ∀ p ∈ sorts.byKey Prod.fst
          ((sorts.byKey (fun e : SymbolEntry => e.1.toNat) builder.symbols).map
            fun e => (nameKey (nameOf builder.buffer e), e)),
          p.1 = nameKey (nameOf builder.buffer p.2) := by
        intro p hp
        obtain ⟨e, -, rfl⟩ := List.mem_map.mp (hkeys.mem_iff.mp hp)
        rfl
      refine List.pairwise_map.mpr (hsorted.imp_of_mem fun ha hb hle => ?_)
      rwa [hkey _ ha, hkey _ hb] at hle

variable {syms : ModuleSymbols} {pushed : List (VirtualAddress × List UInt8)}

/-- An entry of the table was pushed. -/
theorem Tables.mem_pushed (h : syms.Tables pushed) {i : ℕ} {e : SymbolEntry}
    (he : syms.symbols[i]? = some e) : (e.1, nameOf syms.buffer e) ∈ pushed :=
  h.names.mem_iff.mp (List.mem_map.mpr ⟨e, List.mem_of_getElem? he, rfl⟩)

/-- What was pushed is an entry of the table. -/
theorem Tables.exists_entry (h : syms.Tables pushed) {p : VirtualAddress × List UInt8}
    (hp : p ∈ pushed) :
    ∃ (i : ℕ) (e : SymbolEntry), syms.symbols[i]? = some e
      ∧ (e.1, nameOf syms.buffer e) = p := by
  obtain ⟨e, he, rfl⟩ := List.mem_map.mp (h.names.mem_iff.mpr hp)
  obtain ⟨i, hi⟩ := List.mem_iff_getElem?.mp he
  exact ⟨i, e, hi, rfl⟩

/-- Where the search by address ends. -/
theorem Tables.search (h : syms.Tables pushed) (addr : VirtualAddress) :
    IsSearchResult (fun e : SymbolEntry => e.1.toNat) addr.toNat syms.symbols
      (binarySearchByKey (m := Id) (fun e : SymbolEntry => e.1.toNat) addr.toNat
        syms.symbols) :=
  isSearchResult_binarySearchByKey (fun e : SymbolEntry => e.1.toNat)
    h.symbols_sorted addr.toNat

/-- **The symbols in the order of their addresses.** -/
theorem Tables.iterSymbols (h : syms.Tables pushed) :
    ∃ l, syms.iterSymbols = .ok l ∧ l.Perm pushed
      ∧ l.Pairwise fun a b => a.1.toNat ≤ b.1.toNat := by
  refine ⟨_, Exec.mapM_eq_ok_map (g := fun e => (e.1, nameOf syms.buffer e)) fun e he => ?_,
    h.names, List.pairwise_map.mpr h.symbols_sorted⟩
  rw [h.slices e he]
  rfl

/-- **The symbol at an address** was pushed there, and there is one if any
was. -/
theorem Tables.getSymbol (h : syms.Tables pushed) (addr : VirtualAddress) :
    ∃ r, syms.getSymbol addr = .ok r ∧ (∀ n, r = some n → (addr, n) ∈ pushed)
      ∧ (r = none ↔ ∀ n, (addr, n) ∉ pushed) := by
  have hsearch := h.search addr
  unfold ModuleSymbols.getSymbol
  cases hres : binarySearchByKey (m := Id) (fun e : SymbolEntry => e.1.toNat) addr.toNat
      syms.symbols with
  | ok i =>
    rw [hres] at hsearch
    obtain ⟨e, he, hkey⟩ := hsearch
    have hmem := h.mem_pushed he
    rw [BitVec.eq_of_toNat_eq hkey] at hmem
    refine ⟨some (nameOf syms.buffer e), ?_, ?_, ?_⟩
    · dsimp only
      rw [he]
      dsimp only
      rw [h.slices e (List.mem_of_getElem? he)]
      rfl
    · rintro n ⟨rfl⟩
      exact hmem
    · exact ⟨fun hnone => absurd hnone (by simp), fun hall => absurd hmem (hall _)⟩
  | error i =>
    rw [hres] at hsearch
    refine ⟨none, rfl, fun n hn => absurd hn (by simp), ⟨fun _ n hn => ?_, fun _ => rfl⟩⟩
    obtain ⟨j, e, he, heq⟩ := h.exists_entry hn
    have hkey : e.1.toNat = addr.toNat := congrArg (fun p => p.1.toNat) heq
    obtain hlt | hle := lt_or_ge j i
    · exact absurd hkey ((hsearch.2 j e he).1 hlt).ne
    · exact absurd hkey ((hsearch.2 j e he).2 hle).ne'

/-- **The symbol at or before an address** is the last one that does not come
after it, with the distance. -/
theorem Tables.getSymbolInexact (h : syms.Tables pushed) (addr : VirtualAddress) :
    ∃ r, syms.getSymbolInexact addr = .ok r
      ∧ (∀ n o, r = some (n, o) → o ≤ addr ∧ (addr - o, n) ∈ pushed
        ∧ ∀ p ∈ pushed, ¬ (addr - o < p.1 ∧ p.1 ≤ addr))
      ∧ (r = none ↔ ∀ p ∈ pushed, addr < p.1) := by
  have hsearch := h.search addr
  unfold ModuleSymbols.getSymbolInexact
  cases hres : binarySearchByKey (m := Id) (fun e : SymbolEntry => e.1.toNat) addr.toNat
      syms.symbols with
  | ok i =>
    rw [hres] at hsearch
    obtain ⟨e, he, hkey⟩ := hsearch
    have hmem := h.mem_pushed he
    rw [BitVec.eq_of_toNat_eq hkey] at hmem
    refine ⟨some (nameOf syms.buffer e, 0), ?_, ?_, ?_⟩
    · dsimp only
      rw [he]
      dsimp only
      rw [h.slices e (List.mem_of_getElem? he)]
      rfl
    · rintro n o ⟨⟩
      have hzero : addr - 0 = addr := BitVec.sub_zero addr
      rw [hzero]
      exact ⟨Nat.zero_le _, hmem, fun p _ hp => absurd hp.1 (Nat.not_lt.mpr hp.2)⟩
    · exact ⟨fun hnone => absurd hnone (by simp),
        fun hall => absurd (hall _ hmem) (Nat.lt_irrefl _)⟩
  | error i =>
    rw [hres] at hsearch
    obtain ⟨hlen, hsides⟩ := hsearch
    cases i with
    | zero =>
      refine ⟨none, rfl, fun n o hn => absurd hn (by simp), ⟨fun _ p hp => ?_, fun _ => rfl⟩⟩
      obtain ⟨j, e, he, rfl⟩ := h.exists_entry hp
      exact BitVec.lt_def.mpr ((hsides j e he).2 (Nat.zero_le j))
    | succ i =>
      have he := List.getElem?_eq_getElem (l := syms.symbols) (i := i) (by omega)
      generalize syms.symbols[i] = e at he
      have hlt : e.1.toNat < addr.toNat := (hsides i e he).1 (Nat.lt_succ_self i)
      have hback : addr - (addr - e.1) = e.1 := sub_sub_cancel addr e.1
      refine ⟨some (nameOf syms.buffer e, addr - e.1), ?_, ?_, ?_⟩
      · dsimp only
        rw [he]
        dsimp only
        rw [h.slices e (List.mem_of_getElem? he)]
        rfl
      · rintro n o ⟨⟩
        rw [hback]
        refine ⟨?_, h.mem_pushed he, ?_⟩
        · rw [BitVec.le_def, toNat_sub_of_le hlt.le]
          exact Nat.sub_le _ _
        · rintro p hp ⟨hlo, hhi⟩
          obtain ⟨j, e', he', rfl⟩ := h.exists_entry hp
          rw [BitVec.lt_def] at hlo
          rw [BitVec.le_def] at hhi
          -- an entry behind this one comes after the address
          obtain hj | hj := Nat.lt_or_ge i j
          · exact absurd ((hsides j e' he').2 hj) (not_lt.mpr hhi)
          · exact absurd (key_le_of_le h.symbols_sorted hj he' he) (not_le.mpr hlo)
      · refine ⟨fun hnone => absurd hnone (by simp), fun hall => ?_⟩
        exact absurd (BitVec.lt_def.mp (hall _ (h.mem_pushed he))) (not_lt.mpr hlt.le)

/-- Names with the same key are the same. -/
theorem nameKey_injective : Function.Injective nameKey :=
  List.map_injective_iff.mpr fun _ _ h => UInt8.toNat_inj.mp h

/-- **The address of a name** was pushed with it, and there is one if any
was. -/
theorem Tables.getAddress (h : syms.Tables pushed) (name : Str) :
    ∃ r, syms.getAddress name = .ok r ∧ (∀ a, r = some a → (a, name.bytes) ∈ pushed)
      ∧ (r = none ↔ ∀ a, (a, name.bytes) ∉ pushed) := by
  have hslices : ∀ e ∈ syms.addresses, (do
      let s ← syms.symbol e.2
      return nameKey s : Exec VmError (List ℕ)) = .ok (nameKey (nameOf syms.buffer e)) := by
    intro e he
    rw [h.slices e (h.perm.mem_iff.mp he)]
    rfl
  have hsearch := isSearchResult_binarySearchByKey
    (fun e : SymbolEntry => nameKey (nameOf syms.buffer e)) h.addresses_sorted
    (nameKey name.bytes)
  unfold ModuleSymbols.getAddress
  rw [binarySearchByKey_eq_ok hslices, Exec.ok_bind]
  cases hres : binarySearchByKey (m := Id)
      (fun e : SymbolEntry => nameKey (nameOf syms.buffer e)) (nameKey name.bytes)
      syms.addresses with
  | ok i =>
    rw [hres] at hsearch
    obtain ⟨e, he, hkey⟩ := hsearch
    have hmem : (e.1, name.bytes) ∈ pushed := by
      rw [← nameKey_injective hkey]
      exact h.names.mem_iff.mp
        (List.mem_map.mpr ⟨e, h.perm.mem_iff.mp (List.mem_of_getElem? he), rfl⟩)
    refine ⟨some e.1, ?_, ?_, ?_⟩
    · dsimp only
      rw [he]
      rfl
    · rintro a ⟨rfl⟩
      exact hmem
    · exact ⟨fun hnone => absurd hnone (by simp), fun hall => absurd hmem (hall _)⟩
  | error i =>
    rw [hres] at hsearch
    refine ⟨none, rfl, fun a ha => absurd ha (by simp), ⟨fun _ a ha => ?_, fun _ => rfl⟩⟩
    obtain ⟨e, he, heq⟩ := List.mem_map.mp (h.names.mem_iff.mpr ha)
    obtain ⟨j, hj⟩ := List.mem_iff_getElem?.mp (h.perm.mem_iff.mpr he)
    have hkey : nameKey (nameOf syms.buffer e) = nameKey name.bytes :=
      congrArg (fun p => nameKey p.2) heq
    obtain hlt | hle := lt_or_ge j i
    · exact absurd hkey ((hsearch.2 j e hj).1 hlt).ne
    · exact absurd hkey ((hsearch.2 j e hj).2 hle).ne'

end ModuleSymbols

/-- **A symbol table answers what was pushed.** After any calls on a fresh
builder, building it and every lookup succeed: the symbols are listed by
address, a lookup by address or by name gives a symbol that was pushed there
and gives one if any was, and the inexact lookup gives the last symbol that does
not come after the address. -/
theorem moduleSymbols_contract (sorts : SortUnstable) (calls : List BuilderCall) :
    ∃ syms, (calls.foldl BuilderCall.run ModuleSymbolsBuilder.new).build sorts = .ok syms
      ∧ (∃ l, syms.iterSymbols = .ok l ∧ l.Perm (calls.flatMap BuilderCall.pushed)
        ∧ l.Pairwise fun a b => a.1.toNat ≤ b.1.toNat)
      ∧ (∀ a, ∃ r, syms.getSymbol a = .ok r
        ∧ (∀ n, r = some n → (a, n) ∈ calls.flatMap BuilderCall.pushed)
        ∧ (r = none ↔ ∀ n, (a, n) ∉ calls.flatMap BuilderCall.pushed))
      ∧ (∀ a, ∃ r, syms.getSymbolInexact a = .ok r
        ∧ (∀ n o, r = some (n, o) → o ≤ a ∧ (a - o, n) ∈ calls.flatMap BuilderCall.pushed
          ∧ ∀ p ∈ calls.flatMap BuilderCall.pushed, ¬ (a - o < p.1 ∧ p.1 ≤ a))
        ∧ (r = none ↔ ∀ p ∈ calls.flatMap BuilderCall.pushed, a < p.1))
      ∧ ∀ name : Str, ∃ r, syms.getAddress name = .ok r
        ∧ (∀ a, r = some a → (a, name.bytes) ∈ calls.flatMap BuilderCall.pushed)
        ∧ (r = none ↔ ∀ a, (a, name.bytes) ∉ calls.flatMap BuilderCall.pushed) := by
  have hrep := ModuleSymbolsBuilder.represents_foldl calls ModuleSymbolsBuilder.represents_new
  rw [List.nil_append] at hrep
  obtain ⟨syms, hbuild, htables⟩ := ModuleSymbols.exists_build sorts hrep
  exact ⟨syms, hbuild, htables.iterSymbols, htables.getSymbol, htables.getSymbolInexact,
    htables.getAddress⟩
