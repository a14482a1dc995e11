import Vminer.Dump
import Vminer.OnceMap
import Vminer.Search
import Vminer.Symbols
import Vminer.TryRead
import Vminer.WindowsModules

/-!
# Symbols of Windows modules

The symbols of a module are those of the program database (PDB) that its
codeview record names. The record is looked for in the image of the module, in
the memory of the process; what it names is loaded once, and kept under the name
of the module.

The name of a module does not determine its database: two modules of one name
with different records, as two versions of a library in two processes, share what
was loaded for the one that was asked for first.
-/

/-! ## Codeview records -/

/-- `char::decode_utf16`, with a replacement character for what is not a pair of
surrogates. -/
def decodeUtf16Lossy : List (BitVec 16) → List Char
  | [] => []
  | [u] =>
    if 0xd800 ≤ u ∧ u ≤ 0xdfff then [Char.ofNat 0xfffd] else [Char.ofNat u.toNat]
  | u :: u' :: rest =>
    if 0xd800 ≤ u ∧ u ≤ 0xdfff then
      if u < 0xdc00 ∧ 0xdc00 ≤ u' ∧ u' ≤ 0xdfff then
        Char.ofNat (0x10000 + (u.toNat - 0xd800) * 0x400 + (u'.toNat - 0xdc00))
          :: decodeUtf16Lossy rest
      else Char.ofNat 0xfffd :: decodeUtf16Lossy (u' :: rest)
    else Char.ofNat u.toNat :: decodeUtf16Lossy (u' :: rest)

/-- `Guid` -/
structure Guid where
  data1 : BitVec 32
  data2 : BitVec 16
  data3 : BitVec 16
  data4 : List UInt8
deriving DecidableEq, Repr

/-- `Codeview` -/
structure Codeview where
  magic : List UInt8
  guid : Guid
  age : U32
  name : List UInt8
deriving DecidableEq, Repr

namespace Codeview

/-- `mem::size_of::<Codeview>()` -/
def size : ℕ := 48

/-- A record as it is in memory. -/
def ofBytes (bytes : List UInt8) : Codeview where
  magic := bytes.take 4
  guid :=
    { data1 := leWord 32 ((bytes.drop 4).take 4)
      data2 := leWord 16 ((bytes.drop 8).take 2)
      data3 := leWord 16 ((bytes.drop 10).take 2)
      data4 := (bytes.drop 12).take 8 }
  age := leWord 32 ((bytes.drop 20).take 4)
  name := (bytes.drop 24).take 24

/-- The digits of a number in a base, in upper case, padded to a width. -/
def digits (base width n : ℕ) : List Char :=
  let ds := (Nat.toDigits base n).map Char.toUpper
  List.replicate (width - ds.length) '0' ++ ds

/-- `Codeview::pdb_id` -/
def pdbId (codeview : Codeview) : String :=
  let guid := codeview.guid
  .ofList (digits 16 8 guid.data1.toNat ++ digits 16 4 guid.data2.toNat
    ++ digits 16 4 guid.data3.toNat ++ guid.data4.flatMap (fun x => digits 16 2 x.toNat)
    ++ digits 10 0 codeview.age.toNat)

/-- `Codeview::name`: up to the first zero byte, if it is printable. That is
ASCII, so it is a string. -/
def pdbName (codeview : Codeview) : Option String :=
  match codeview.name.findIdx? (· == 0) with
  | some i =>
    let name := codeview.name.take i
    if name.all (fun c => 0x20 ≤ c && c < 0x80) then
      some (.ofList (name.map fun c => Char.ofNat c.toNat))
    else none
  | none => none

end Codeview

/-- `b"RSDS"` -/
def rsds : List UInt8 := [0x52, 0x53, 0x44, 0x53]

/-- The records of a buffer, which begins 8 bytes before a page of the image; one
that does not end in it is read again. -/
def findCodeview (tryReadMemory : TryRead) (addr : VirtualAddress) (offset : U64)
    (buffer : List UInt8) : List ℕ → Exec VmError (Option Codeview)
  | [] => return none
  | index :: indices => do
    let bytes ←
      if index + Codeview.size ≤ buffer.length then
        pure ((buffer.drop index).take Codeview.size)
      else do
        let page ← checkedAdd addr offset
        let start ← checkedAddNat page index
        tryReadMemory start (List.replicate Codeview.size 0)
    let codeview := Codeview.ofBytes bytes
    if codeview.pdbName.isSome then return some codeview
    else findCodeview tryReadMemory addr offset buffer indices

/-- The loop of `pe_get_pdb_guid`, over the pages from an offset on. -/
def peGetPdbGuidFrom (tryReadMemory : TryRead) (addr : VirtualAddress) :
    ℕ → U64 → List UInt8 → Exec VmError (Option Codeview)
  | 0, _, _ => return none
  | pages + 1, offset, buffer => do
    match ← findCodeview tryReadMemory addr offset buffer (findIter rsds 0 0 buffer) with
    | some codeview => return some codeview
    | none => do
      -- the end of this page stays before the next one
      let start ← checkedAdd addr offset
      let page ← tryReadMemory start (buffer.drop 8)
      peGetPdbGuidFrom tryReadMemory addr pages (offset + 0x1000) (buffer.drop 0x1000 ++ page)

/-- `pe_get_pdb_guid`, for an image whose size is given. -/
def peGetPdbGuid (tryReadMemory : TryRead) (addr : VirtualAddress) (size : U64) :
    Exec VmError (Option Codeview) := do
  let page ← tryReadMemory addr (List.replicate 0x1000 0)
  peGetPdbGuidFrom tryReadMemory addr ((size.toNat + 0xfff) / 0x1000) 0
    (List.replicate 8 0 ++ page)

/-! ## The symbols of a module -/

deriving instance DecidableEq for ModuleSymbols

/-- `SymbolLoader`: the symbols of the database of a name and an identifier. -/
abbrev SymbolLoader : Type := String → String → Exec VmError (Option ModuleSymbols)

/-- `SymbolsIndexer` -/
abbrev SymbolsIndexer : Type := OnceMap String (Option ModuleSymbols)

/-- `SymbolsIndexer::load_module`, its error first. -/
def SymbolsIndexer.loadContext (f : String → Exec VmError (Option ModuleSymbols))
    (name : String) : Exec VmError (Option ModuleSymbols) :=
  withContext ("failed to load symbols for module \"" ++ name ++ "\"") (f name)

/-- `SymbolsIndexer::load_module` -/
def SymbolsIndexer.loadModule (syms : SymbolsIndexer) (name : String)
    (f : String → Exec VmError (Option ModuleSymbols)) :
    Exec VmError (Option ModuleSymbols) × SymbolsIndexer :=
  syms.tryInsert name (loadContext f)

namespace Windows

variable {B : Type} [Memory B] [HasVcpus B]

/-- Fields of `_UNICODE_STRING`. -/
def unicodeString (name : String) : StructField := ⟨"UnicodeString", "_UNICODE_STRING", name⟩

/-- `read_unicode_string` -/
def readUnicodeString (windows : Windows B) (readMemory : ReadMemory) (addr : VirtualAddress) :
    Exec VmError String := do
  let buffer ← Pointer.readField readMemory windows.layouts Layout.u64 addr (unicodeString "Buffer")
  let len ← Pointer.readField readMemory windows.layouts Layout.u16 addr (unicodeString "Length")
  let count := len.toNat / 2
  let bytes ← readMemory buffer (2 * count)
  let name := (List.range count).map fun i => leWord 16 ((bytes.drop (2 * i)).take 2)
  return .ofList (decodeUtf16Lossy name)

/-- `Windows::module_name` -/
def moduleName (windows : Windows B) (fuel : ℕ) (module : Os.Module) (proc : Os.Process) :
    Exec VmError String := do
  let pgd ← windows.processPgd proc
  let name ← Pointer.field windows.layouts module.addr (ldrDataTableEntry "BaseDllName")
  windows.readUnicodeString (windows.procSpace fuel proc pgd) name

/-- `Os::try_read_process_memory` -/
def tryReadProcessMemory (windows : Windows B) (fuel : ℕ) (proc : Os.Process)
    (mmuAddr : PhysicalAddress) : TryRead := fun addr buf =>
  match tryReadVirtualMemory addr buf (fill fun addr len =>
    windows.readVirtualMemoryRaw fuel mmuAddr addr len (some proc)) with
  | (.ok (), buf) => .ok buf
  | (.error e, _) => Exec.mapErr VmError.memory (.error e)

/-- `Windows::module_codeview` -/
def moduleCodeview (windows : Windows B) (fuel : ℕ) (proc : Os.Process) (module : Os.Module) :
    Exec VmError (Option Codeview) := do
  let (start, stop) ← windows.moduleSpan fuel module proc
  let pgd ← windows.processPgd proc
  peGetPdbGuid (windows.tryReadProcessMemory fuel proc pgd) start (stop - start)

/-- What `module_symbols` loads for a module: the symbols of the database that
its own codeview record names. -/
def loadSymbols (windows : Windows B) (loader : SymbolLoader) (fuel : ℕ) (proc : Os.Process)
    (module : Os.Module) : Exec VmError (Option ModuleSymbols) := do
  match ← windows.moduleCodeview fuel proc module with
  | some codeview =>
    match codeview.pdbName with
    | some name => loader name codeview.pdbId
    | none => Exec.panicked
  | none => return none

/-- `Windows::module_symbols` -/
def moduleSymbols (windows : Windows B) (loader : SymbolLoader) (fuel : ℕ) (proc : Os.Process)
    (module : Os.Module) (syms : SymbolsIndexer) :
    Exec VmError (Option ModuleSymbols) × SymbolsIndexer :=
  match windows.moduleName fuel module proc with
  | .ok name => syms.loadModule name fun _ => windows.loadSymbols loader fuel proc module
  | .error e => (.error e, syms)

/-! ## Queries -/

/-- What was loaded after some queries. -/
def afterQueries (windows : Windows B) (loader : SymbolLoader) (fuel : ℕ) (syms : SymbolsIndexer)
    (history : List (Os.Process × Os.Module)) : SymbolsIndexer :=
  history.foldl (fun syms query =>
    (windows.moduleSymbols loader fuel query.1 query.2 syms).2) syms

/-- The symbols that a query loads for a name of a module, if that is its
name. -/
def loadsFor (windows : Windows B) (loader : SymbolLoader) (fuel : ℕ) (name : String)
    (query : Os.Process × Os.Module) : Option (Option ModuleSymbols) :=
  match windows.moduleName fuel query.2 query.1 with
  | .ok name' =>
    if name = name' then (windows.loadSymbols loader fuel query.1 query.2).toOption else none
  | .error _ => none

/-- A query, as a request to the map. -/
def symbolsRequest (windows : Windows B) (loader : SymbolLoader) (fuel : ℕ)
    (query : Os.Process × Os.Module) :
    OnceMap.Request String VmError (Option ModuleSymbols) where
  key := windows.moduleName fuel query.2 query.1
  value := SymbolsIndexer.loadContext fun _ => windows.loadSymbols loader fuel query.1 query.2

theorem moduleSymbols_eq_run (windows : Windows B) (loader : SymbolLoader) (fuel : ℕ)
    (proc : Os.Process) (module : Os.Module) (syms : SymbolsIndexer) :
    windows.moduleSymbols loader fuel proc module syms
      = (windows.symbolsRequest loader fuel (proc, module)).run syms := by
  unfold moduleSymbols OnceMap.Request.run symbolsRequest
  cases windows.moduleName fuel module proc <;> rfl

theorem afterQueries_eq_runAll (windows : Windows B) (loader : SymbolLoader) (fuel : ℕ)
    (syms : SymbolsIndexer) (history : List (Os.Process × Os.Module)) :
    windows.afterQueries loader fuel syms history
      = syms.runAll (history.map (windows.symbolsRequest loader fuel)) := by
  rw [OnceMap.runAll, List.foldl_map, afterQueries]
  simp only [moduleSymbols_eq_run]

/-- The context of an error does not change what is loaded. -/
theorem loadContext_eq_ok_iff (f : String → Exec VmError (Option ModuleSymbols)) (name : String)
    (syms : Option ModuleSymbols) :
    SymbolsIndexer.loadContext f name = .ok syms ↔ f name = .ok syms :=
  Exec.mapErr_eq_ok_iff _ _ _

/-- What a request stores is what the query loads. -/
theorem stores_symbolsRequest (windows : Windows B) (loader : SymbolLoader) (fuel : ℕ)
    (name : String) :
    (fun query => (windows.symbolsRequest loader fuel query).stores name)
      = windows.loadsFor loader fuel name := by
  funext query
  unfold loadsFor OnceMap.Request.stores symbolsRequest
  cases windows.moduleName fuel query.2 query.1 with
  | error e => rfl
  | ok name' =>
    show (if name = name' then Except.toOption (withContext _ _) else none) = _
    cases windows.loadSymbols loader fuel query.1 query.2 with
    | ok syms => rfl
    | error e => cases e <;> rfl

end Windows

/-- **Symbols are loaded once for each name.** After any queries, a query is
answered as on a fresh indexer exactly if nothing was loaded under the name of
its module before, or if what was loaded first are the symbols of the database
that the module itself names. -/
theorem moduleSymbols_independent_iff {B : Type} [Memory B] [HasVcpus B] (windows : Windows B)
    (loader : SymbolLoader) (fuel : ℕ) (initial : SymbolsIndexer)
    (history : List (Os.Process × Os.Module)) (proc : Os.Process) (module : Os.Module) :
    (windows.moduleSymbols loader fuel proc module
        (windows.afterQueries loader fuel initial history)).1
      = (windows.moduleSymbols loader fuel proc module OnceMap.new).1
    ↔ ∀ name syms, windows.moduleName fuel module proc = .ok name →
      (initial.get name).or (history.findSome? (windows.loadsFor loader fuel name)) = some syms →
      windows.loadSymbols loader fuel proc module = .ok syms := by
  rw [Windows.moduleSymbols_eq_run, Windows.moduleSymbols_eq_run, Windows.afterQueries_eq_runAll,
    OnceMap.answer_runAll_iff]
  refine forall_congr' fun name => forall_congr' fun syms => imp_congr_right fun _ => ?_
  rw [List.findSome?_map, ← Windows.stores_symbolsRequest, Windows.symbolsRequest,
    Windows.loadContext_eq_ok_iff]
  rfl

/-- A guest with two modules of one name, whose records name two versions of a
database. What comes after their page is not mapped. -/
def Windows.twoVersions : Windows (DumbDump RawMemory) where
  backend :=
    { vcpus := .x86_64 []
      mem := ⟨[⟨0, 96⟩, ⟨0xfa0, 0x1000⟩], [0, 96], RawMemory.new (Layout.u64.encList [3, 0, 0,
        0xfa0, 48, 88, 2,
        0xfd0, 48, 88, 2,
        0x61,
        0x53445352, 0, 0x100000000, 0x6264702e61, 0, 0,
        0x53445352, 0, 0x200000000, 0x6264702e61, 0, 0])⟩ }
  kpgd := 0
  baseAddr := 0
  layouts := fun _ => some fun field =>
    if field = "VadRoot" ∨ field = "UserDirectoryTableBase" then none
    else if field = "SizeOfImage" ∨ field = "Length" then some 8
    else if field = "BaseDllName" then some 16
    else some 0
  psLoadedModuleList := 0
  unswizzleMask := ~~~ 0

/-- A loader that gives each database symbols of its own. -/
def SymbolLoader.named : SymbolLoader := fun _ id => .ok (some ⟨.ofChars id.toList, [], []⟩)

/-- **The second module gets the symbols of the first**, if that was asked for
before it. -/
theorem not_independent_twoVersions :
    (Windows.twoVersions.moduleSymbols .named 1 ⟨16⟩ ⟨56⟩
        (Windows.twoVersions.afterQueries .named 1 .new [(⟨16⟩, ⟨24⟩)])).1
      = .ok (some ⟨.ofChars (List.replicate 32 '0' ++ ['1']), [], []⟩)
    ∧ (Windows.twoVersions.moduleSymbols .named 1 ⟨16⟩ ⟨56⟩ .new).1
      = .ok (some ⟨.ofChars (List.replicate 32 '0' ++ ['2']), [], []⟩) := by
  constructor <;> decide +kernel
