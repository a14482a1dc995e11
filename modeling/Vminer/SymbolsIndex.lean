import Vminer.FieldSizes
import Vminer.OnceMap
import Vminer.Paths
import Vminer.Pdb
import Vminer.SymbolsFile

/-!
# The symbols of many modules

`SymbolsIndexer` has the symbols of modules under their names, each written once. They
come from files of three formats, which are told apart by how they begin: object files,
program databases, and lists of symbols.

A directory is loaded one file after the other, in the order in which it is listed. A file
that cannot be read is passed over, and one whose name is taken is not read at all. The
names in a directory differ, so that the order makes no difference to what is found
(`loadDir_order`).
-/

namespace Symbols

/-! ## Structures -/

/-- `StructRef::find_field` -/
def Struct.findField (s : Struct) (fieldName : String) : Option StructField :=
  s.fields.find? fun field => field.name == fieldName

/-- `StructRef::find_offset` -/
def Struct.findOffset (s : Struct) (fieldName : String) : Option U64 :=
  (s.findField fieldName).map StructField.offset

/-- `ModuleSymbolsBuilder`, with its types. -/
structure Builder extends ModuleSymbolsBuilder where
  types : String → Option Struct

/-- `ModuleSymbols`, with its types. -/
structure Module extends ModuleSymbols where
  types : String → Option Struct

namespace Builder

/-- `ModuleSymbolsBuilder::new` -/
def new : Builder := { ModuleSymbolsBuilder.new with types := fun _ => none }

/-- `ModuleSymbolsBuilder::insert_struct` -/
def insertStruct (builder : Builder) (structure_ : Struct) : Builder :=
  { builder with types := Function.update builder.types structure_.name (some structure_) }

/-- `Extend<Struct> for ModuleSymbolsBuilder` -/
def extendStructs (builder : Builder) (iter : List Struct) : Builder :=
  iter.foldl insertStruct builder

/-- `ModuleSymbolsBuilder::build` -/
def build (sorts : SortUnstable) (builder : Builder) : Exec VmError Module := do
  let syms ← builder.toModuleSymbolsBuilder.build sorts
  return { syms with types := builder.types }

end Builder

namespace Module

/-- `ModuleSymbols::require_address` -/
def requireAddress (module : Module) (name : String) : Exec VmError VirtualAddress := do
  let addr ← module.getAddress (Str.ofChars name.toList)
  Exec.okOr addr (.missingSymbol name)

/-- `ModuleSymbols::get_struct` -/
def getStruct (module : Module) (name : String) : Option Struct := module.types name

end Module

/-! ## Formats -/

/-- **How files are read**: the lines of a list of symbols, how a table of symbols is
sorted, and what others make of an object file and of a program database. -/
structure Formats where
  readOneLine : LineReader
  sorts : SortUnstable
  /-- `object::File::parse`, and the structures of `dwarf::load_types`. -/
  elfTypes : List UInt8 → Exec VmError (List Struct)
  /-- `PDB::open`, and the symbols of `pdb::load_syms`. -/
  pdbSyms : List UInt8 → Exec VmError (List (VirtualAddress × Str))
  /-- The structures of `pdb::load_types`. -/
  pdbTypes : List UInt8 → Exec VmError (List Struct)

/-- `b"\x7fELF"` -/
def elfMagic : List UInt8 := [0x7f, 0x45, 0x4c, 0x46]

/-- `b"Microsoft C/C++"` -/
def pdbMagic : List UInt8 :=
  [0x4d, 0x69, 0x63, 0x72, 0x6f, 0x73, 0x6f, 0x66, 0x74, 0x20, 0x43, 0x2f, 0x43, 0x2b, 0x2b]

/-- `ModuleSymbolsBuilder::read_bytes`. A builder is not used any more after an error. -/
def Builder.readBytes (formats : Formats) (builder : Builder) (content : List UInt8) :
    Exec VmError Builder :=
  if elfMagic <+: content then do
    let types ← formats.elfTypes content
    return builder.extendStructs types
  else if pdbMagic <+: content then do
    let syms ← formats.pdbSyms content
    let syms := syms.foldl (fun syms sym => syms.push sym.1 sym.2) builder.toModuleSymbolsBuilder
    let builder : Builder := { syms with types := builder.types }
    match formats.pdbTypes content with
    | .ok types => return builder.extendStructs types
    -- the error is logged
    | .error (.err _) => return builder
    | .error .panic => Exec.panicked
    | .error .fuel => Exec.outOfFuel
  else do
    let read := readFromBytes formats.readOneLine content builder.toModuleSymbolsBuilder
    read.1
    return { read.2 with types := builder.types }

/-- `ModuleSymbols::from_bytes` -/
def Module.fromBytes (formats : Formats) (content : List UInt8) : Exec VmError Module := do
  let module ← Builder.new.readBytes formats content
  module.build formats.sorts

/-! ## The index -/

/-- `SymbolsIndexer`, whose modules have their types. -/
abbrev Indexer : Type := OnceMap String (Option Module)

/-- **The files of the host**, as far as they are read. -/
structure Files where
  /-- `std::fs::read` -/
  read : List UInt8 → Exec VmError (List UInt8)
  /-- `std::fs::read_dir`: the names, where an entry could be read. -/
  readDir : List UInt8 → Exec VmError (List (Except IoError (List UInt8)))

/-- `Path::file_name` -/
def fileName (path : List UInt8) : Option (List UInt8) :=
  match (FilePath.components path).getLast? with
  | some (.normal name) => some name
  | _ => none

namespace Indexer

/-- `SymbolsIndexer::get_module` -/
def getModule (syms : Indexer) (name : String) : Option Module := (syms.get name).join

/-- `SymbolsIndexer::require_module` -/
def requireModule (syms : Indexer) (name : String) : Exec VmError Module :=
  Exec.okOr (syms.getModule name) (.missingModule name)

/-- `SymbolsIndexer::load_module` -/
def loadModule (syms : Indexer) (name : String) (f : String → Exec VmError (Option Module)) :
    Exec VmError (Option Module) × Indexer :=
  syms.tryInsert name fun name =>
    withContext ("failed to load symbols for module \"" ++ name ++ "\"") (f name)

/-- `SymbolsIndexer::load_from_bytes` -/
def loadFromBytes (syms : Indexer) (formats : Formats) (name : String) (content : List UInt8) :
    Exec VmError (Option Module) × Indexer :=
  syms.loadModule name fun _ => some <$> Module.fromBytes formats content

/-- The name under which `SymbolsIndexer::load_from_file` loads a file. -/
def nameOf (path : List UInt8) : Exec VmError String := do
  let name ← Exec.okOr (fileName path) (VmError.new "no file name")
  Exec.okOr (Pdb.fromUtf8 name) (VmError.new "non UTF-8 file name")

/-- `ModuleSymbols::from_file` -/
def fromFile (files : Files) (formats : Formats) (path : List UInt8) : Exec VmError Module := do
  let content ← files.read path
  Module.fromBytes formats content

/-- `SymbolsIndexer::load_from_file` -/
def loadFromFile (files : Files) (formats : Formats) (syms : Indexer) (path : List UInt8) :
    Exec VmError (Option Module) × Indexer :=
  match nameOf path with
  | .error e => (.error e, syms)
  | .ok name => syms.loadModule name fun _ => some <$> fromFile files formats path

/-- The loop of `SymbolsIndexer::load_dir`. Errors are logged. -/
def loadEntries (files : Files) (formats : Formats) (dir : List UInt8) :
    List (Except IoError (List UInt8)) → Indexer → Exec VmError Unit × Indexer
  | [], syms => (.ok (), syms)
  | .error _ :: entries, syms => loadEntries files formats dir entries syms
  | .ok name :: entries, syms =>
    match loadFromFile files formats syms (FilePath.push dir name) with
    | (.error .panic, syms) => (Exec.panicked, syms)
    | (.error .fuel, syms) => (Exec.outOfFuel, syms)
    | (_, syms) => loadEntries files formats dir entries syms

/-- `SymbolsIndexer::load_dir` -/
def loadDir (files : Files) (formats : Formats) (syms : Indexer) (dir : List UInt8) :
    Exec VmError Unit × Indexer :=
  match files.readDir dir with
  | .error e => (.error e, syms)
  | .ok entries => loadEntries files formats dir entries syms

/-! ## Directories -/

/-- **The name of a file in a directory**: not empty, without a separator, and neither the
directory itself nor its parent. -/
structure IsFileName (name : List UInt8) : Prop where
  no_slash : FilePath.slash ∉ name
  ne_nil : name ≠ []
  ne_dot : name ≠ [46]
  ne_dotDot : name ≠ FilePath.dotDot

/-- The names in a listing. -/
def names (entries : List (Except IoError (List UInt8))) : List (List UInt8) :=
  entries.filterMap Except.toOption

/-- The bytes of a string. -/
def bytesOf (key : String) : List UInt8 := key.toByteArray.data.toList

/-- The request to load a file. -/
def fileRequest (files : Files) (formats : Formats) (path : List UInt8) :
    OnceMap.Request String VmError (Option Module) where
  key := nameOf path
  value name := withContext ("failed to load symbols for module \"" ++ name ++ "\"")
    (some <$> fromFile files formats path)

/-- **The symbols that a directory has under a name**: those of the file of this name, if
they can be read. -/
def fileOf (files : Files) (formats : Formats) (dir : List UInt8)
    (entries : List (Except IoError (List UInt8))) (key : String) : Option (Option Module) :=
  if bytesOf key ∈ names entries then
    (some <$> fromFile files formats (FilePath.push dir (bytesOf key))).toOption
  else none

/-- **Loading a file gets to its end**: its name is taken or none, or reading it returns. -/
def LoadReturns (files : Files) (formats : Formats) (dir : List UInt8) (syms : Indexer)
    (name : List UInt8) : Prop :=
  ∀ key, Pdb.fromUtf8 name = some key → syms.get key = none →
    (fromFile files formats (FilePath.push dir name)).Returns

section Order

variable {files : Files} {formats : Formats} {dir : List UInt8} {syms : Indexer}
  {name : List UInt8} {entries : List (Except IoError (List UInt8))}

/-- A file in a directory is loaded under its name. -/
theorem nameOf_push (h : IsFileName name) :
    nameOf (FilePath.push dir name)
      = Exec.okOr (Pdb.fromUtf8 name) (VmError.new "non UTF-8 file name") := by
  have hhead : name.head? ≠ some FilePath.slash := fun hslash =>
    h.no_slash (List.mem_of_head? hslash)
  have hstart : FilePath.start name = [] := by
    rw [FilePath.start, if_neg hhead, List.splitOn_eq_singleton h.no_slash]
    exact if_neg fun hdot => h.ne_dot (Option.some.inj hdot)
  have hparts := FilePath.parts_of_not_mem h.no_slash h.ne_nil h.ne_dot h.ne_dotDot
  have hname : fileName (FilePath.push dir name) = some name := by
    rw [fileName, FilePath.components_push_of_start hstart, hparts, List.getLast?_concat]
  rw [nameOf, hname]
  rfl

/-- A string is the only one of its bytes. -/
theorem fromUtf8_eq_some_iff (bytes : List UInt8) (key : String) :
    Pdb.fromUtf8 bytes = some key ↔ bytesOf key = bytes := by
  unfold Pdb.fromUtf8 String.fromUTF8? bytesOf
  constructor
  · intro h
    split at h
    · obtain rfl := Option.some.inj h
      rfl
    · cases h
  · rintro rfl
    exact dif_pos key.isValidUTF8

theorem loadFromFile_eq_run (path : List UInt8) :
    loadFromFile files formats syms path = (fileRequest files formats path).run syms := by
  unfold loadFromFile OnceMap.Request.run
  cases h : nameOf path with
  | error e => rw [show (fileRequest files formats path).key = .error e from h]
  | ok key =>
    rw [show (fileRequest files formats path).key = .ok key from h]
    rfl

/-- The context of an error changes no value. -/
theorem toOption_withContext {α : Type} (msg : String) (x : Exec VmError α) :
    (withContext msg x).toOption = x.toOption := by
  rcases x with (e | - | -) | a
  · rfl
  · rfl
  · rfl
  · rfl

theorem returns_withContext_iff {α : Type} (msg : String) (x : Exec VmError α) :
    (withContext msg x).Returns ↔ x.Returns := by
  rcases x with (e | - | -) | a
  · exact Iff.rfl
  · exact Iff.rfl
  · exact Iff.rfl
  · exact Iff.rfl

theorem returns_map_iff {α β : Type} (f : α → β) (x : Exec VmError α) :
    (f <$> x).Returns ↔ x.Returns := by
  rcases x with (e | - | -) | a
  · exact Iff.rfl
  · exact Iff.rfl
  · exact Iff.rfl
  · exact Iff.rfl

/-- **What a file of a directory stores**: its symbols, under its own name. -/
theorem stores_fileRequest (h : IsFileName name) (key : String) :
    (fileRequest files formats (FilePath.push dir name)).stores key
      = if name = bytesOf key then
          (some <$> fromFile files formats (FilePath.push dir (bytesOf key))).toOption
        else none := by
  have hkey : (fileRequest files formats (FilePath.push dir name)).key
      = Exec.okOr (Pdb.fromUtf8 name) (VmError.new "non UTF-8 file name") := nameOf_push h
  unfold OnceMap.Request.stores
  rw [hkey]
  cases hutf8 : Pdb.fromUtf8 name with
  | none =>
    have hne : name ≠ bytesOf key := fun heq => by
      rw [(fromUtf8_eq_some_iff name key).mpr heq.symm] at hutf8
      cases hutf8
    rw [if_neg hne]
    rfl
  | some key' =>
    have hname := (fromUtf8_eq_some_iff name key').mp hutf8
    show (if key = key' then _ else none) = _
    by_cases heq : key = key'
    · rw [if_pos heq, if_pos (heq ▸ hname.symm), heq, hname]
      exact toOption_withContext _ _
    · have hne : name ≠ bytesOf key := fun habs => by
        have hsome := (fromUtf8_eq_some_iff name key).mpr habs.symm
        exact heq (Option.some.inj (hsome.symm.trans hutf8))
      rw [if_neg heq, if_neg hne]

/-- A request for a file returns where it is not read, or can be read to the end. -/
theorem returns_run_iff (h : IsFileName name) :
    ((fileRequest files formats (FilePath.push dir name)).run syms).1.Returns
      ↔ LoadReturns files formats dir syms name := by
  have hkey : (fileRequest files formats (FilePath.push dir name)).key
      = Exec.okOr (Pdb.fromUtf8 name) (VmError.new "non UTF-8 file name") := nameOf_push h
  unfold OnceMap.Request.run LoadReturns
  rw [hkey]
  cases hutf8 : Pdb.fromUtf8 name with
  | none => exact iff_of_true trivial fun key hkey => by cases hkey
  | some key =>
    show ((OnceMap.tryInsert syms key _).1.Returns) ↔ _
    unfold OnceMap.tryInsert
    cases hget : syms.get key with
    | some module =>
      refine iff_of_true trivial fun key' hkey' hnone => ?_
      obtain rfl := Option.some.inj hkey'
      rw [hget] at hnone
      cases hnone
    | none =>
      have hvalue : ((fileRequest files formats (FilePath.push dir name)).value key).Returns
          ↔ (fromFile files formats (FilePath.push dir name)).Returns :=
        (returns_withContext_iff _ _).trans (returns_map_iff _ _)
      have hall : (∀ key', some key = some key' → syms.get key' = none →
            (fromFile files formats (FilePath.push dir name)).Returns)
          ↔ (fromFile files formats (FilePath.push dir name)).Returns := by
        constructor
        · exact fun h => h key rfl hget
        · exact fun h _ _ _ => h
      rw [hall, ← hvalue]
      cases (fileRequest files formats (FilePath.push dir name)).value key with
      | error e => exact Iff.rfl
      | ok a => exact Iff.rfl

/-- Another file of the directory is read or not as before. -/
theorem loadReturns_run_iff (h : IsFileName name) {name' : List UInt8} (hne : name ≠ name') :
    LoadReturns files formats dir
        ((fileRequest files formats (FilePath.push dir name)).run syms).2 name'
      ↔ LoadReturns files formats dir syms name' := by
  refine forall_congr' fun key => forall_congr' fun hkey => ?_
  have hbytes := (fromUtf8_eq_some_iff name' key).mp hkey
  rw [OnceMap.Request.get_run, stores_fileRequest h, if_neg fun heq => hne (heq.trans hbytes),
    Option.or_none]

/-- One file after another: a file that cannot be read to its end stops the loop. -/
theorem loadEntries_cons (name : List UInt8) (entries : List (Except IoError (List UInt8))) :
    loadEntries files formats dir (.ok name :: entries) syms
      = match (fileRequest files formats (FilePath.push dir name)).run syms with
        | (.error .panic, syms) => (Exec.panicked, syms)
        | (.error .fuel, syms) => (Exec.outOfFuel, syms)
        | (_, syms) => loadEntries files formats dir entries syms := by
  rw [loadEntries, loadFromFile_eq_run]
  rfl

/-- **A whole directory**: the loop ends where each file can be loaded to the end, and
then all of them were requested, in their order. -/
theorem loadEntries_eq_ok_iff (hplain : ∀ name ∈ names entries, IsFileName name)
    (hnodup : (names entries).Nodup) :
    ((loadEntries files formats dir entries syms).1 = .ok ()
        ↔ ∀ name ∈ names entries, LoadReturns files formats dir syms name)
      ∧ ((loadEntries files formats dir entries syms).1 = .ok () →
        (loadEntries files formats dir entries syms).2
          = syms.runAll ((names entries).map fun name =>
            fileRequest files formats (FilePath.push dir name))) := by
  induction entries generalizing syms with
  | nil => exact ⟨iff_of_true rfl fun _ h => absurd h List.not_mem_nil, fun _ => rfl⟩
  | cons entry entries ih =>
    cases entry with
    | error e => exact ih hplain hnodup
    | ok name =>
      have hcons : names (.ok name :: entries) = name :: names entries := rfl
      rw [hcons] at hplain hnodup ⊢
      obtain ⟨hnot, hrest⟩ := List.nodup_cons.mp hnodup
      have hname := hplain name List.mem_cons_self
      have hothers : ∀ name' ∈ names entries, IsFileName name' :=
        fun name' h => hplain name' (List.mem_cons_of_mem _ h)
      have hreturns : ((fileRequest files formats (FilePath.push dir name)).run syms).1.Returns
          ↔ LoadReturns files formats dir syms name := returns_run_iff hname
      have hkept : (∀ name' ∈ names entries, LoadReturns files formats dir
            ((fileRequest files formats (FilePath.push dir name)).run syms).2 name')
          ↔ ∀ name' ∈ names entries, LoadReturns files formats dir syms name' :=
        forall₂_congr fun name' h => loadReturns_run_iff hname fun heq => hnot (heq ▸ h)
      rw [List.forall_mem_cons, ← hreturns, ← hkept, loadEntries_cons, List.map_cons]
      show _ ∧ (_ → _ = OnceMap.runAll
        ((fileRequest files formats (FilePath.push dir name)).run syms).2 _)
      rcases (fileRequest files formats (FilePath.push dir name)).run syms
        with ⟨(e | - | -) | module, syms'⟩
      · obtain ⟨hiff, heq⟩ := @ih syms' hothers hrest
        exact ⟨hiff.trans (and_iff_right trivial).symm, heq⟩
      · exact ⟨iff_of_false (fun h => by cases h) fun h => h.1, fun h => by cases h⟩
      · exact ⟨iff_of_false (fun h => by cases h) fun h => h.1, fun h => by cases h⟩
      · obtain ⟨hiff, heq⟩ := @ih syms' hothers hrest
        exact ⟨hiff.trans (and_iff_right trivial).symm, heq⟩

/-- What one of some values gives, if it is there. -/
theorem findSome?_eq_ite {α β : Type} [DecidableEq α] [BEq α] [LawfulBEq α] {l : List α}
    {f : α → Option β} {a : α} {r : Option β} (h : ∀ x ∈ l, f x = if x = a then r else none) :
    l.findSome? f = if a ∈ l then r else none := by
  induction l with
  | nil => rw [List.findSome?_nil, if_neg List.not_mem_nil]
  | cons x l ih =>
    rw [List.findSome?_cons, h x List.mem_cons_self,
      ih fun y hy => h y (List.mem_cons_of_mem _ hy)]
    by_cases hx : x = a
    · subst hx
      rw [if_pos rfl, if_pos List.mem_cons_self]
      cases r with
      | some b => rfl
      | none => exact ite_self _
    · have hmem : a ∈ x :: l ↔ a ∈ l := List.mem_cons.trans (or_iff_right (Ne.symm hx))
      rw [if_neg hx]
      simp only [hmem]

/-- **What the files of a directory leave in the index.** -/
theorem get_runAll_entries (hplain : ∀ name ∈ names entries, IsFileName name) (key : String) :
    (syms.runAll ((names entries).map fun name =>
        fileRequest files formats (FilePath.push dir name))).get key
      = (syms.get key).or (fileOf files formats dir entries key) := by
  rw [OnceMap.get_runAll, List.findSome?_map]
  congr 1
  exact findSome?_eq_ite fun name h => stores_fileRequest (hplain name h) key

end Order

/-- **Loading a directory does not depend on the order of its listing.** It gets to its end
in one order exactly if it does in every other, that is if each file whose name is not taken
can be read to the end. Then what is under a name is what was there, or what the file of this
name has, whatever becomes of the other files. -/
theorem loadDir_order (files files' : Files) (formats : Formats) (dir : List UInt8)
    (syms : Indexer) (entries entries' : List (Except IoError (List UInt8)))
    (hread : files'.read = files.read) (hdir : files.readDir dir = .ok entries)
    (hdir' : files'.readDir dir = .ok entries') (hperm : entries.Perm entries')
    (hplain : ∀ name ∈ names entries, IsFileName name) (hnodup : (names entries).Nodup) :
    ((loadDir files formats syms dir).1 = .ok ()
        ↔ ∀ name ∈ names entries, LoadReturns files formats dir syms name)
      ∧ ((loadDir files formats syms dir).1 = .ok () →
        loadDir files' formats syms dir = loadDir files formats syms dir
          ∧ ∀ key, (loadDir files formats syms dir).2.get key
            = (syms.get key).or (fileOf files formats dir entries key)) := by
  have hnames : (names entries).Perm (names entries') := hperm.filterMap _
  have hload : loadDir files formats syms dir = loadEntries files formats dir entries syms := by
    rw [loadDir, hdir]
  have hload' : loadDir files' formats syms dir = loadEntries files' formats dir entries' syms := by
    rw [loadDir, hdir']
  -- a file is read alike wherever it is listed
  have hfile : fromFile files' formats = fromFile files formats := by
    funext path
    rw [fromFile, fromFile, hread]
  have hreturns : LoadReturns files' formats dir syms = LoadReturns files formats dir syms := by
    funext name
    rw [LoadReturns, LoadReturns, hfile]
  have hplain' : ∀ name ∈ names entries', IsFileName name :=
    fun name h => hplain name (hnames.mem_iff.mpr h)
  obtain ⟨hends, hall⟩ :=
    @loadEntries_eq_ok_iff files formats dir syms entries hplain hnodup
  obtain ⟨hends', hall'⟩ :=
    @loadEntries_eq_ok_iff files' formats dir syms entries' hplain' (hnames.nodup_iff.mp hnodup)
  rw [hload, hload']
  refine ⟨hends, fun hok => ?_⟩
  have hok' : (loadEntries files' formats dir entries' syms).1 = .ok () := by
    rw [hends', hreturns]
    exact fun name h => hends.mp hok name (hnames.mem_iff.mpr h)
  have hget : ∀ key, (loadEntries files formats dir entries syms).2.get key
      = (syms.get key).or (fileOf files formats dir entries key) := fun key => by
    rw [hall hok, get_runAll_entries hplain]
  have hget' : ∀ key, (loadEntries files' formats dir entries' syms).2.get key
      = (syms.get key).or (fileOf files formats dir entries key) := fun key => by
    rw [hall' hok', get_runAll_entries hplain', fileOf, fileOf, hfile]
    simp only [hnames.mem_iff]
  refine ⟨Prod.ext (hok'.trans hok.symm) ?_, hget⟩
  exact congrArg OnceMap.mk (funext fun key => (hget' key).trans (hget key).symm)

/-- Formats of which only the list of symbols is told. -/
def Formats.maps : Formats where
  readOneLine := readOneLineStd
  sorts := .stable
  elfTypes _ := Exec.fail .unsupported
  pdbSyms _ := Exec.fail .unsupported
  pdbTypes _ := Exec.fail .unsupported

/-- A directory of two files. -/
def mapAndLocked : List (Except IoError (List UInt8)) := [.ok (bytesOf "System.map"), .ok [0x61]]

/-- A host with one directory. Only the first of the two files can be read. -/
def Files.listing (entries : List (Except IoError (List UInt8))) : Files where
  read path :=
    if path.getLast? = some 0x70 then .ok (symbolFile true [bannerLine])
    else Exec.fail (.io (.os 13))
  readDir _ := .ok entries

/-- It is loaded alike from both ends. -/
theorem loadDir_order_mapAndLocked :
    loadDir (Files.listing mapAndLocked.reverse) Formats.maps OnceMap.new [0x64]
        = loadDir (Files.listing mapAndLocked) Formats.maps OnceMap.new [0x64]
      ∧ ∀ key, (loadDir (Files.listing mapAndLocked) Formats.maps OnceMap.new [0x64]).2.get key
        = (OnceMap.new.get key).or
          (fileOf (Files.listing mapAndLocked) Formats.maps [0x64] mapAndLocked key) :=
  (loadDir_order (Files.listing mapAndLocked) (Files.listing mapAndLocked.reverse) Formats.maps
    [0x64] OnceMap.new mapAndLocked mapAndLocked.reverse rfl rfl rfl
    (List.reverse_perm mapAndLocked).symm
    (fun name h => by
      have hmem : name = bytesOf "System.map" ∨ name = [0x61] := by
        simpa [names, mapAndLocked, Except.toOption] using h
      rcases hmem with rfl | rfl
      · exact ⟨by decide +kernel, by decide +kernel, by decide +kernel, by decide +kernel⟩
      · exact ⟨by decide, by decide, by decide, by decide⟩)
    (by decide +kernel)).2 (by decide +kernel)

end Indexer

end Symbols
