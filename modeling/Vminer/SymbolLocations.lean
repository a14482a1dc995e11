import Vminer.Os
import Vminer.SymbolGrammar
import Vminer.Symbols

/-!
# How a location is printed

A location is printed as an offset from something that has a name: the module, or the
area of memory if there is no module, and in the module a symbol if one is known. Where
the start of the function is known, the offset in the function is printed apart.

The offsets of a location in a module add up to its address. In an area of memory, the
distance from the function to the area is printed in place of that from the area to the
function, and they do not, unless the two begin together
(`formatSymbol_denotes`).
-/

/-! ## Numbers in a text -/

/-- `!` -/
def bang : UInt8 := 33

/-- `+` -/
def plus : UInt8 := 43

/-- The hexadecimal digits of a number. -/
def hexDigits (n : ℕ) : List UInt8 := (Nat.toDigits 16 n).map fun c => c.toNat.toUInt8

/-- `{:#x}` -/
def lowerHex (v : U64) : List UInt8 := 48 :: 120 :: hexDigits v.toNat

/-- What sets the numbers of a text apart. -/
def isSeparator (b : UInt8) : Bool := b == bang || b == plus

/-- The number that a part of a text is. -/
def readHex (part : List UInt8) : U64 := BitVec.ofNat 64 (hexValue (part.drop 2))

/-- **The address that a text of numbers stands for**: their sum. -/
def addressOf (text : List UInt8) : VirtualAddress :=
  ((text.splitOnP isSeparator).map readHex).sum

section Numbers

/-- The digits are those of the number. -/
theorem hexDigits_spec (n : ℕ) :
    hexValue (hexDigits n) = n ∧ ∀ b ∈ hexDigits n, isSeparator b = false := by
  have hdigit : ∀ d < 16, hexDigit (d.digitChar.toNat.toUInt8) = some d
      ∧ isSeparator d.digitChar.toNat.toUInt8 = false := by decide
  induction n using Nat.strong_induction_on with
  | _ n ih =>
    unfold hexDigits
    rw [Nat.toDigits_eq_if (by decide)]
    split
    · next hlt =>
      obtain ⟨hvalue, hsep⟩ := hdigit n hlt
      refine ⟨?_, fun b hb => List.mem_singleton.mp hb ▸ hsep⟩
      show 0 * 16 + (hexDigit n.digitChar.toNat.toUInt8).getD 0 = n
      rw [hvalue, Option.getD_some, Nat.zero_mul, Nat.zero_add]
    · next hge =>
      obtain ⟨hvalue, hsep⟩ := hdigit (n % 16) (Nat.mod_lt _ (by decide))
      obtain ⟨ih, ihsep⟩ := ih (n / 16) (by omega)
      rw [List.map_append]
      refine ⟨?_, fun b hb => ?_⟩
      · rw [hexValue, List.foldl_append]
        show hexValue (hexDigits (n / 16)) * 16
          + (hexDigit (n % 16).digitChar.toNat.toUInt8).getD 0 = n
        rw [ih, hvalue, Option.getD_some]
        exact Nat.div_add_mod' n 16
      · obtain hb | hb := List.mem_append.mp hb
        · exact ihsep b hb
        · exact List.mem_singleton.mp hb ▸ hsep

/-- **A number that was printed reads back.** -/
@[simp] theorem readHex_lowerHex (v : U64) : readHex (lowerHex v) = v := by
  show BitVec.ofNat 64 (hexValue (hexDigits v.toNat)) = v
  rw [(hexDigits_spec _).1, BitVec.ofNat_toNat, BitVec.setWidth_eq]

/-- Nothing in it sets numbers apart. -/
theorem isSeparator_lowerHex (v : U64) : ∀ b ∈ lowerHex v, isSeparator b = false := by
  intro b hb
  obtain rfl | rfl | hb : b = 48 ∨ b = 120 ∨ b ∈ hexDigits v.toNat := by
    simpa [lowerHex] using hb
  · rfl
  · rfl
  · exact (hexDigits_spec _).2 b hb

/-- One number. -/
@[simp] theorem addressOf_lowerHex (v : U64) : addressOf (lowerHex v) = v := by
  unfold addressOf
  rw [List.splitOnP_eq_singleton (isSeparator_lowerHex v)]
  simp

/-- A number, and those behind it. -/
@[simp] theorem addressOf_lowerHex_append (v : U64) {sep : UInt8} (hsep : isSeparator sep = true)
    (rest : List UInt8) : addressOf (lowerHex v ++ sep :: rest) = v + addressOf rest := by
  unfold addressOf
  rw [List.splitOnP_append_cons_of_forall_mem (isSeparator_lowerHex v) sep hsep]
  simp

end Numbers

/-! ## The text of a location -/

/-- What the demanglers of the libraries make of a name. -/
structure Demanglers where
  rustc : List UInt8 → Option (List UInt8)
  cpp : List UInt8 → Option (List UInt8)
  msvc : List UInt8 → Option (List UInt8)

/-- `demangle` -/
def Demanglers.demangle (demanglers : Demanglers) (sym : List UInt8) : List UInt8 :=
  match demanglers.rustc sym with
  | some sym => sym
  | none =>
    match demanglers.cpp sym with
    | some sym => sym
    | none =>
      match demanglers.msvc sym with
      | some sym => sym
      | none => sym

/-- The methods of `Os` that a location is printed with. -/
structure Os.Methods where
  moduleSpan : Os.Module → Os.Process → Exec VmError (VirtualAddress × VirtualAddress)
  moduleName : Os.Module → Os.Process → Exec VmError (List UInt8)
  moduleSymbols : Os.Process → Os.Module → Exec VmError (Option ModuleSymbols)
  processFindVmaByAddress : Os.Process → VirtualAddress → Exec VmError (Option Os.Vma)
  vmaStart : Os.Vma → Exec VmError VirtualAddress

namespace Os.Methods

variable (os : Os.Methods)

/-- `Os::module_resolve_symbol_exact` -/
def moduleResolveSymbolExact (addr : VirtualAddress) (proc : Os.Process) (module : Os.Module) :
    Exec VmError (Option (List UInt8)) := do
  match ← os.moduleSymbols proc module with
  | none => return none
  | some syms => do
    let (modStart, modEnd) ← os.moduleSpan module proc
    if modStart ≤ addr ∧ addr < modEnd then syms.getSymbol (addr - modStart)
    else Exec.fail (VmError.new "address not in module")

/-- `Os::module_resolve_symbol` -/
def moduleResolveSymbol (addr : VirtualAddress) (proc : Os.Process) (module : Os.Module) :
    Exec VmError (Option (List UInt8 × U64)) := do
  match ← os.moduleSymbols proc module with
  | none => return none
  | some syms => do
    let (modStart, modEnd) ← os.moduleSpan module proc
    if modStart ≤ addr ∧ addr < modEnd then syms.getSymbolInexact (addr - modStart)
    else Exec.fail (VmError.new "address not in module")

/-- The symbol of a location, and how far behind it the location is. -/
def symbolOf (addr : VirtualAddress) (proc : Os.Process) (module : Os.Module) :
    Option VirtualAddress → Exec VmError (Option (List UInt8 × U64))
  | some funStart => do
    let symbol ← os.moduleResolveSymbolExact funStart proc module
    return symbol.map fun s => (s, addr - funStart)
  | none => os.moduleResolveSymbol addr proc module

/-- `unwrap_or_else`: an error is logged. -/
def orNone {α : Type} : Exec VmError (Option α) → Exec VmError (Option α)
  | .error (.err _) => return none
  | x => x

/-- `do_format` of `Os::format_symbol_with_module` -/
def doFormatWithModule (demanglers : Demanglers) (addr : VirtualAddress)
    (funStart : Option VirtualAddress) (symbol : Option (List UInt8 × U64))
    (modName : List UInt8) (modStart : VirtualAddress) (demangle : Bool) : List UInt8 :=
  let symbol := symbol.map fun (s, o) => (if demangle then demanglers.demangle s else s, o)
  match symbol, funStart with
  | some (symbol, offset), _ =>
    if offset = 0 then modName ++ bang :: symbol
    else modName ++ bang :: (symbol ++ plus :: lowerHex offset)
  | none, some funStart =>
    let offset := addr - funStart
    if offset = 0 then modName ++ bang :: lowerHex (funStart - modStart)
    else modName ++ bang :: (lowerHex (funStart - modStart) ++ plus :: lowerHex offset)
  | none, none => modName ++ bang :: lowerHex (addr - modStart)

/-- `Os::format_symbol_with_module` -/
def formatSymbolWithModule (demanglers : Demanglers) (proc : Os.Process) (module : Os.Module)
    (addr : VirtualAddress) (funStart : Option VirtualAddress) (demangle : Bool) :
    Exec VmError (List UInt8) := do
  let (modStart, _) ← os.moduleSpan module proc
  let modName ← os.moduleName module proc
  let symbol ← orNone (os.symbolOf addr proc module funStart)
  return doFormatWithModule demanglers addr funStart symbol modName modStart demangle

/-- `do_format` of `format_symbol_without_module` -/
def doFormatWithoutModule (addr : VirtualAddress) (funStart vmaStart : Option VirtualAddress) :
    List UInt8 :=
  let funStart := funStart.map fun start => (start, addr - start)
  match vmaStart, funStart with
  | some vmaStart, some (funStart, offset) =>
    let funOffset := vmaStart - funStart
    if offset = 0 then lowerHex vmaStart ++ bang :: lowerHex funOffset
    else lowerHex vmaStart ++ bang :: (lowerHex funOffset ++ plus :: lowerHex offset)
  | some vmaStart, none => lowerHex vmaStart ++ bang :: lowerHex (addr - vmaStart)
  | none, some (funStart, offset) =>
    if offset = 0 then lowerHex funStart
    else lowerHex funStart ++ plus :: lowerHex offset
  | none, none => lowerHex addr

/-- The start of the area that an address is in. -/
def findVmaStart (proc : Os.Process) (addr : VirtualAddress) :
    Exec VmError (Option VirtualAddress) := do
  match ← os.processFindVmaByAddress proc addr with
  | some vma => do
    let start ← os.vmaStart vma
    return some start
  | none => return none

/-- `format_symbol_without_module` -/
def formatSymbolWithoutModule (proc : Os.Process) (addr : VirtualAddress)
    (funStart : Option VirtualAddress) : Exec VmError (List UInt8) := do
  let vmaStart ← os.findVmaStart proc addr
  return doFormatWithoutModule addr funStart vmaStart

end Os.Methods

/-! ## What it denotes -/

/-- **The address that a text can stand for**, in a module that begins at a place and has
these symbols. -/
inductive Denotes (modName : List UInt8) (modStart : VirtualAddress)
    (symbols : List UInt8 → VirtualAddress → Prop) (addr : VirtualAddress) : List UInt8 → Prop
  | symbol {s : List UInt8} {a : VirtualAddress} (hs : symbols s a) (h : modStart + a = addr) :
      Denotes modName modStart symbols addr (modName ++ bang :: s)
  | symbolPlus {s : List UInt8} {a : VirtualAddress} {delta : U64} (hs : symbols s a)
      (h : modStart + a + delta = addr) :
      Denotes modName modStart symbols addr (modName ++ bang :: (s ++ plus :: lowerHex delta))
  | offset {o : U64} (h : modStart + o = addr) :
      Denotes modName modStart symbols addr (modName ++ bang :: lowerHex o)
  | offsetPlus {o delta : U64} (h : modStart + o + delta = addr) :
      Denotes modName modStart symbols addr
        (modName ++ bang :: (lowerHex o ++ plus :: lowerHex delta))

namespace Os.Methods

variable {os : Os.Methods} {demanglers : Demanglers} {proc : Os.Process} {module : Os.Module}
  {addr : VirtualAddress} {funStart : Option VirtualAddress}

/-- **The symbols of a module**, as they are printed. -/
def Symbol (os : Os.Methods) (demanglers : Demanglers) (demangle : Bool) (proc : Os.Process)
    (module : Os.Module) (s : List UInt8) (a : VirtualAddress) : Prop :=
  ∃ syms e name, os.moduleSymbols proc module = .ok (some syms) ∧ e ∈ syms.symbols ∧ e.1 = a
    ∧ syms.symbol e.2 = .ok name ∧ s = if demangle then demanglers.demangle name else name

/-- A symbol that is found is that of the address. -/
theorem exists_of_getSymbol {syms : ModuleSymbols} {a : VirtualAddress} {name : List UInt8}
    (h : syms.getSymbol a = .ok (some name)) :
    ∃ e ∈ syms.symbols, e.1 = a ∧ syms.symbol e.2 = .ok name := by
  unfold ModuleSymbols.getSymbol at h
  cases hsearch : binarySearchByKey (m := Id) (fun e : SymbolEntry => e.1.toNat) a.toNat
      syms.symbols with
  | error _ =>
    rw [hsearch] at h
    cases h
  | ok index =>
    obtain ⟨e, he, hkey⟩ := binarySearchByKey_ok hsearch
    rw [hsearch] at h
    dsimp only at h
    rw [he] at h
    obtain ⟨name', hname, h⟩ := (Exec.bind_eq_ok_iff _ _ _).mp h
    obtain rfl := Option.some.inj (Except.ok.inj h)
    exact ⟨e, List.mem_of_getElem? he, BitVec.eq_of_toNat_eq hkey, hname⟩

/-- A symbol that is found with an offset is that many bytes before the address. -/
theorem exists_of_getSymbolInexact {syms : ModuleSymbols} {a : VirtualAddress}
    {name : List UInt8} {offset : U64} (h : syms.getSymbolInexact a = .ok (some (name, offset))) :
    ∃ e ∈ syms.symbols, e.1 + offset = a ∧ syms.symbol e.2 = .ok name := by
  unfold ModuleSymbols.getSymbolInexact at h
  cases hsearch : binarySearchByKey (m := Id) (fun e : SymbolEntry => e.1.toNat) a.toNat
      syms.symbols with
  | ok i =>
    obtain ⟨e, he, hkey⟩ := binarySearchByKey_ok hsearch
    rw [hsearch] at h
    dsimp only at h
    rw [he] at h
    obtain ⟨name', hname, h⟩ := (Exec.bind_eq_ok_iff _ _ _).mp h
    obtain ⟨rfl, rfl⟩ := Prod.mk.inj (Option.some.inj (Except.ok.inj h))
    have hadd : e.1 + 0 = a := (add_zero e.1).trans (BitVec.eq_of_toNat_eq hkey)
    exact ⟨e, List.mem_of_getElem? he, hadd, hname⟩
  | error i =>
    rw [hsearch] at h
    cases i with
    | zero => cases h
    | succ i =>
      dsimp only at h
      cases he : syms.symbols[i]? with
      | none =>
        rw [he] at h
        cases h
      | some e =>
        rw [he] at h
        obtain ⟨name', hname, h⟩ := (Exec.bind_eq_ok_iff _ _ _).mp h
        obtain ⟨rfl, rfl⟩ := Prod.mk.inj (Option.some.inj (Except.ok.inj h))
        exact ⟨e, List.mem_of_getElem? he, by rw [BitVec.add_comm, BitVec.sub_add_cancel], hname⟩

/-- An address of the module is looked up by its distance from the start. -/
theorem exists_of_resolve {α : Type} {modStart modEnd : VirtualAddress}
    (hspan : os.moduleSpan module proc = .ok (modStart, modEnd))
    (get : ModuleSymbols → VirtualAddress → Exec VmError (Option α)) {addr : VirtualAddress}
    {found : α}
    (h : (do
      match ← os.moduleSymbols proc module with
      | none => return none
      | some syms => do
        let (modStart, modEnd) ← os.moduleSpan module proc
        if modStart ≤ addr ∧ addr < modEnd then get syms (addr - modStart)
        else Exec.fail (VmError.new "address not in module")) = .ok (some found)) :
    ∃ syms, os.moduleSymbols proc module = .ok (some syms)
      ∧ get syms (addr - modStart) = .ok (some found) := by
  obtain ⟨syms, hsyms, h⟩ := (Exec.bind_eq_ok_iff _ _ _).mp h
  cases syms with
  | none => cases h
  | some syms =>
    dsimp only at h
    rw [hspan, Exec.ok_bind] at h
    dsimp only at h
    split at h
    · exact ⟨syms, hsyms, h⟩
    · cases h

/-- **The symbol of a location** is that many bytes before it. -/
theorem exists_of_symbolOf {modStart modEnd : VirtualAddress}
    (hspan : os.moduleSpan module proc = .ok (modStart, modEnd)) {name : List UInt8} {offset : U64}
    (h : os.symbolOf addr proc module funStart = .ok (some (name, offset))) :
    ∃ syms e, os.moduleSymbols proc module = .ok (some syms) ∧ e ∈ syms.symbols
      ∧ syms.symbol e.2 = .ok name ∧ modStart + e.1 + offset = addr := by
  cases funStart with
  | some start =>
    obtain ⟨found, hfound, h⟩ := (Exec.bind_eq_ok_iff _ _ _).mp h
    obtain ⟨name', hname', heq⟩ := Option.map_eq_some_iff.mp (Except.ok.inj h)
    obtain ⟨rfl, rfl⟩ := Prod.mk.inj heq
    rw [hname'] at hfound
    obtain ⟨syms, hsyms, hget⟩ := exists_of_resolve hspan ModuleSymbols.getSymbol hfound
    obtain ⟨e, he, haddr, hsymbol⟩ := exists_of_getSymbol hget
    refine ⟨syms, e, hsyms, he, hsymbol, ?_⟩
    rw [haddr]
    bv_omega
  | none =>
    obtain ⟨syms, hsyms, hget⟩ := exists_of_resolve hspan ModuleSymbols.getSymbolInexact h
    obtain ⟨e, he, haddr, hsymbol⟩ := exists_of_getSymbolInexact hget
    refine ⟨syms, e, hsyms, he, hsymbol, ?_⟩
    rw [BitVec.add_assoc, haddr]
    bv_omega

/-- **A location in a module denotes its address.** -/
theorem denotes_of_formatSymbolWithModule {demangle : Bool} {text modName : List UInt8}
    {modStart modEnd : VirtualAddress}
    (hspan : os.moduleSpan module proc = .ok (modStart, modEnd))
    (hname : os.moduleName module proc = .ok modName)
    (h : os.formatSymbolWithModule demanglers proc module addr funStart demangle = .ok text) :
    Denotes modName modStart (os.Symbol demanglers demangle proc module) addr text := by
  unfold formatSymbolWithModule at h
  rw [hspan, Exec.ok_bind] at h
  dsimp only at h
  rw [hname, Exec.ok_bind] at h
  obtain ⟨symbol, hsymbol, h⟩ := (Exec.bind_eq_ok_iff _ _ _).mp h
  obtain rfl := Except.ok.inj h
  unfold doFormatWithModule
  match symbol with
  | some (s, offset) =>
    have hfound : os.symbolOf addr proc module funStart = .ok (some (s, offset)) := by
      unfold orNone at hsymbol
      split at hsymbol
      · cases hsymbol
      · exact hsymbol
    obtain ⟨syms, e, hsyms, he, hs, haddr⟩ := exists_of_symbolOf hspan hfound
    have hsym : os.Symbol demanglers demangle proc module
        (if demangle then demanglers.demangle s else s) e.1 := ⟨syms, e, s, hsyms, he, rfl, hs, rfl⟩
    dsimp only [Option.map_some]
    split
    · next hzero =>
      rw [hzero, add_zero] at haddr
      exact .symbol hsym haddr
    · exact .symbolPlus hsym haddr
  | none =>
    cases funStart with
    | none => exact .offset (by bv_omega)
    | some start =>
      dsimp only [Option.map_none]
      split
      · exact .offset (by bv_omega)
      · exact .offsetPlus (by bv_omega)

/-- **A location that is in no module** denotes its address, unless the function and the
area of memory begin at different places. -/
theorem addressOf_doFormatWithoutModule (addr : VirtualAddress)
    (funStart vmaStart : Option VirtualAddress) :
    addressOf (doFormatWithoutModule addr funStart vmaStart) = addr
      ↔ ∀ area start, vmaStart = some area → funStart = some start →
        start = area ∨ start = area + 0x8000000000000000 := by
  have hbang : isSeparator bang = true := rfl
  have hplus : isSeparator plus = true := rfl
  cases vmaStart with
  | none =>
    refine iff_of_true ?_ (by simp)
    cases funStart with
    | none => exact addressOf_lowerHex addr
    | some start =>
      dsimp only [doFormatWithoutModule, Option.map_some]
      split
      · rw [addressOf_lowerHex]
        bv_omega
      · rw [addressOf_lowerHex_append _ hplus, addressOf_lowerHex]
        bv_omega
  | some area =>
    cases funStart with
    | none =>
      refine iff_of_true ?_ (by simp)
      dsimp only [doFormatWithoutModule, Option.map_none]
      rw [addressOf_lowerHex_append _ hbang, addressOf_lowerHex]
      bv_omega
    | some start =>
      have hsum : addressOf (doFormatWithoutModule addr (some start) (some area))
          = area + (area - start) + (addr - start) := by
        dsimp only [doFormatWithoutModule, Option.map_some]
        split
        · rw [addressOf_lowerHex_append _ hbang, addressOf_lowerHex]
          bv_omega
        · rw [addressOf_lowerHex_append _ hbang, addressOf_lowerHex_append _ hplus,
            addressOf_lowerHex, BitVec.add_assoc]
      rw [hsum]
      constructor
      · intro h _ _ harea hstart
        obtain rfl := Option.some.inj harea
        obtain rfl := Option.some.inj hstart
        bv_omega
      · intro h
        have := h area start rfl rfl
        bv_omega

end Os.Methods

/-- **Printed locations denote their addresses**: in a module always; elsewhere if and
only if no area of memory or no function is known, or the two begin together (or half the
address space apart, where the two directions are the same). -/
theorem formatSymbol_denotes (os : Os.Methods) :
    (∀ (demanglers : Demanglers) (proc : Os.Process) (module : Os.Module) (addr : VirtualAddress)
      (funStart : Option VirtualAddress) (demangle : Bool) (text : List UInt8),
      os.formatSymbolWithModule demanglers proc module addr funStart demangle = .ok text →
        ∃ modStart modEnd modName, os.moduleSpan module proc = .ok (modStart, modEnd)
          ∧ os.moduleName module proc = .ok modName
          ∧ Denotes modName modStart (os.Symbol demanglers demangle proc module) addr text)
    ∧ ∀ (proc : Os.Process) (addr : VirtualAddress) (funStart : Option VirtualAddress)
      (text : List UInt8), os.formatSymbolWithoutModule proc addr funStart = .ok text →
        (addressOf text = addr
          ↔ ∀ area start, os.findVmaStart proc addr = .ok (some area) → funStart = some start →
            start = area ∨ start = area + 0x8000000000000000) := by
  constructor
  · intro demanglers proc module addr funStart demangle text h
    obtain ⟨⟨modStart, modEnd⟩, hspan, hrest⟩ := (Exec.bind_eq_ok_iff _ _ _).mp h
    obtain ⟨modName, hname, -⟩ := (Exec.bind_eq_ok_iff _ _ _).mp hrest
    exact ⟨modStart, modEnd, modName, hspan, hname,
      Os.Methods.denotes_of_formatSymbolWithModule hspan hname h⟩
  · intro proc addr funStart text h
    obtain ⟨vmaStart, hvma, h⟩ := (Exec.bind_eq_ok_iff _ _ _).mp h
    obtain rfl := Except.ok.inj h
    rw [Os.Methods.addressOf_doFormatWithoutModule]
    constructor
    · intro h area start harea hstart
      rw [hvma] at harea
      exact h area start (Except.ok.inj harea) hstart
    · intro h area start harea hstart
      rw [harea] at hvma
      exact h area start hvma hstart

section Example

/-- A guest with one module, one symbol in it, and an area of memory around 0x7000. -/
def someOs : Os.Methods where
  moduleSpan _ _ := return (0x1000, 0x3000)
  moduleName _ _ := return [109]
  moduleSymbols _ _ :=
    return some
      { buffer := Str.ofChars ['f'], symbols := [(0x40, ⟨0, 1⟩)], addresses := [(0x40, ⟨0, 1⟩)] }
  processFindVmaByAddress _ _ := return some ⟨0⟩
  vmaStart _ := return 0x7000

/-- No name is mangled. -/
def noDemanglers : Demanglers := ⟨fun _ => none, fun _ => none, fun _ => none⟩

/-- **In the module**, the location is `m!f+0x10`; in the area, where no function is known,
`0x7000!0x50`. -/
theorem formatSymbol_denotes_someOs :
    (∃ modStart modEnd modName, someOs.moduleSpan ⟨0⟩ ⟨0⟩ = .ok (modStart, modEnd)
        ∧ someOs.moduleName ⟨0⟩ ⟨0⟩ = .ok modName
        ∧ Denotes modName modStart (someOs.Symbol noDemanglers true ⟨0⟩ ⟨0⟩) 0x1050
          [109, 33, 102, 43, 48, 120, 49, 48])
      ∧ addressOf [48, 120, 55, 48, 48, 48, 33, 48, 120, 53, 48] = 0x7050 := by
  refine ⟨(formatSymbol_denotes someOs).1 noDemanglers ⟨0⟩ ⟨0⟩ 0x1050 none true _ rfl, ?_⟩
  refine ((formatSymbol_denotes someOs).2 ⟨0⟩ 0x7050 none _ rfl).mpr ?_
  exact fun _ _ _ h => nomatch h

/-- **The function at 0x7040 in the area at 0x7000** is printed as
`0x7000!0xffffffffffffffc0+0x10`: 0x7050 comes out as 0x6fd0. -/
theorem not_formatSymbol_denotes :
    ∃ text, someOs.formatSymbolWithoutModule ⟨0⟩ 0x7050 (some 0x7040) = .ok text
      ∧ addressOf text = 0x6fd0 ∧ addressOf text ≠ 0x7050 := by
  refine ⟨_, rfl, ?_⟩
  rw [show addressOf _ = (0x6fd0 : U64) by decide]
  decide

end Example
