import Vminer.Linux
import Vminer.Paths
import Vminer.WindowsSymbols

/-!
# Where symbol files are looked for

A loader looks for the symbols of a module in a directory of its own, its root, under a
path that it makes of the name and the identifier of the module. The identifier is the
loader's own; the name is what the memory of the guest says it is.

The name of a database is printable ASCII, and that of a file anything: either may have
separators, be absolute or lead back up. `StaysUnder` says which names stay under the root.
-/

open FilePath

/-- A string as a path. -/
def FilePath.ofString (s : String) : List UInt8 := s.toList.flatMap String.utf8EncodeChar

/-! ## Loaders -/

/-- What a loader does with a file. -/
inductive FileOp where
  | checkExists (path : List UInt8)
  | readFile (path : List UInt8)
  | createParent (path : List UInt8)
  | writeFile (path : List UInt8)
deriving DecidableEq, Repr

/-- The file it does it with. -/
def FileOp.path : FileOp → List UInt8
  | checkExists path => path
  | readFile path => path
  | createParent path => path
  | writeFile path => path

/-- What a loader finds outside of the guest. -/
structure FileSystem where
  /-- `Path::exists` -/
  pathExists : List UInt8 → Bool
  /-- `ModuleSymbols::from_file` -/
  fromFile : List UInt8 → Exec VmError ModuleSymbols
  /-- `std::fs::create_dir_all`, of the parent of a path. -/
  createDirAll : List UInt8 → Bool

/-- `download_pdb`, where it is built: what is behind a name and an identifier, and the
symbols that are in it. -/
structure Server where
  get : String → String → Exec VmError (List UInt8)
  /-- `ModuleSymbols::from_bytes` -/
  fromBytes : List UInt8 → Exec VmError ModuleSymbols

namespace Windows

/-- `SymbolLoader::download_pdb`, with the path that it writes to. -/
def downloadPdb (files : FileSystem) (server : Server) (path : List UInt8) (name id : String) :
    Exec VmError ModuleSymbols × List FileOp :=
  match server.get name id with
  | .error e => (.error e, [])
  | .ok pdb =>
    -- `path.parent().unwrap()`
    if (components path).getLast?.all (· == .rootDir) then (Exec.panicked, [])
    else if files.createDirAll path then
      (server.fromBytes pdb, [.createParent path, .writeFile path])
    else (server.fromBytes pdb, [.createParent path])

/-- `SymbolLoader::load` -/
def load (files : FileSystem) (server : Option Server) (root : List UInt8) (name id : String) :
    Exec VmError (Option ModuleSymbols) × List FileOp :=
  let path := collect [root, ofString name, ofString id, ofString name]
  if files.pathExists path then
    (some <$> files.fromFile path, [.checkExists path, .readFile path])
  else
    match server with
    | none => (.ok none, [.checkExists path])
    | some server =>
      let download := downloadPdb files server path name id
      match download.1 with
      | .ok module => (.ok (some module), .checkExists path :: download.2)
      -- a download that fails is logged
      | .error (.err _) => (.ok none, .checkExists path :: download.2)
      | .error s => (.error s, .checkExists path :: download.2)

end Windows

namespace Linux

/-- `SymbolLoader::load` -/
def load (files : FileSystem) (root : List UInt8) (name id : List UInt8) :
    Exec VmError (Option ModuleSymbols) × List FileOp :=
  let path := collect [root, id, name]
  if files.pathExists path then
    (some <$> files.fromFile path, [.checkExists path, .readFile path])
  else (.ok none, [.checkExists path])

/-- What `Linux::module_symbols` takes for the identifier. -/
def symbolsId (arch : RuntimeArchitecture) : List UInt8 :=
  match arch with
  | .x86_64 => ofString "x86_64"
  | .aarch64 => ofString "aarch64"

end Linux

/-! ## Identifiers -/

/-- The digits of identifiers. -/
def idDigits : List Char :=
  ['0', '1', '2', '3', '4', '5', '6', '7', '8', '9', 'A', 'B', 'C', 'D', 'E', 'F']

namespace Codeview

/-- A digit of any base up to sixteen, in upper case. -/
theorem toUpper_mem_idDigits {base n : ℕ} (hbase : 1 < base) (hle : base ≤ 16) {c : Char}
    (h : c ∈ Nat.toDigits base n) : c.toUpper ∈ idDigits := by
  have hdigit : ∀ d < 16, (Nat.digitChar d).toUpper ∈ idDigits := by decide
  induction n using Nat.strong_induction_on with
  | _ n ih =>
    by_cases hlt : n < base
    · rw [Nat.toDigits_of_lt_base hlt, List.mem_singleton] at h
      exact h ▸ hdigit n (hlt.trans_le hle)
    · rw [Nat.toDigits_of_base_le hbase (not_lt.mp hlt), List.mem_append, List.mem_singleton] at h
      obtain h | rfl := h
      · exact ih _ (Nat.div_lt_self (Nat.pos_of_ne_zero fun hz => by omega) hbase) h
      · exact hdigit _ ((Nat.mod_lt _ (Nat.zero_lt_of_lt hbase)).trans_le hle)

theorem mem_idDigits_of_mem_digits {base width n : ℕ} (hbase : 1 < base) (hle : base ≤ 16)
    {c : Char} (h : c ∈ digits base width n) : c ∈ idDigits := by
  obtain h | h := List.mem_append.mp h
  · rw [List.eq_of_mem_replicate h]
    decide
  · obtain ⟨c', hc', rfl⟩ := List.mem_map.mp h
    exact toUpper_mem_idDigits hbase hle hc'

/-- **An identifier is made of digits.** -/
theorem mem_idDigits_of_mem_pdbId (codeview : Codeview) {c : Char}
    (h : c ∈ codeview.pdbId.toList) : c ∈ idDigits := by
  rw [pdbId, String.toList_ofList] at h
  simp only [List.mem_append, List.mem_flatMap, or_assoc] at h
  obtain h | h | h | ⟨x, -, h⟩ | h := h
  · exact mem_idDigits_of_mem_digits (by decide) (by decide) h
  · exact mem_idDigits_of_mem_digits (by decide) (by decide) h
  · exact mem_idDigits_of_mem_digits (by decide) (by decide) h
  · exact mem_idDigits_of_mem_digits (by decide) (by decide) h
  · exact mem_idDigits_of_mem_digits (by decide) (by decide) h

/-- **An identifier is a name.** -/
theorem parts_pdbId (codeview : Codeview) :
    parts (ofString codeview.pdbId) = [.normal (ofString codeview.pdbId)]
      ∧ start (ofString codeview.pdbId) = [] := by
  have hall : idDigits.all fun c =>
      46 ∉ String.utf8EncodeChar c ∧ slash ∉ String.utf8EncodeChar c := by decide
  have hdigits := fun c hc => of_decide_eq_true (List.all_eq_true.mp hall c hc)
  have hdot : (46 : UInt8) ∉ ofString codeview.pdbId := by
    intro hmem
    obtain ⟨c, hc, hb⟩ := List.mem_flatMap.mp hmem
    exact (hdigits c (mem_idDigits_of_mem_pdbId codeview hc)).1 hb
  have hslash : slash ∉ ofString codeview.pdbId := by
    intro hmem
    obtain ⟨c, hc, hb⟩ := List.mem_flatMap.mp hmem
    exact (hdigits c (mem_idDigits_of_mem_pdbId codeview hc)).2 hb
  have hne : ofString codeview.pdbId ≠ [] := by
    have hage : digits 10 0 codeview.age.toNat ≠ [] :=
      List.append_ne_nil_of_right_ne_nil _ (List.map_eq_nil_iff.not.mpr Nat.toDigits_ne_nil)
    have hchars : codeview.pdbId.toList ≠ [] := by
      rw [pdbId, String.toList_ofList]
      exact List.append_ne_nil_of_right_ne_nil _ hage
    obtain ⟨c, chars, hcons⟩ := List.exists_cons_of_ne_nil hchars
    rw [ofString, hcons, List.flatMap_cons]
    exact List.append_ne_nil_of_left_ne_nil String.utf8EncodeChar_ne_nil _
  have hne' : ofString codeview.pdbId ≠ [46] := fun h => hdot (h ▸ List.mem_cons_self)
  refine ⟨parts_of_not_mem hslash hne hne' fun h => hdot (h ▸ List.mem_cons_self), ?_⟩
  rw [start, if_neg fun h => hslash (List.mem_of_head? h), List.splitOn_eq_singleton hslash]
  exact if_neg fun h => hne' (Option.some.inj h)

end Codeview

/-! ## Names that stay -/

/-- **A name that stays under a root**: none of its parts leads back up, or it is absolute
and is under the root already. -/
def StaysUnder (root name : List UInt8) : Prop :=
  (name.head? = some slash → IsUnder root name)
    ∧ (name.head? ≠ some slash → dotDot ∉ name.splitOn slash)

/-- What a relative path begins with. -/
theorem start_eq_nil_iff {path : List UInt8} (hrel : path.head? ≠ some slash) :
    start path = [] ↔ (path.splitOn slash).head? ≠ some [46] := by
  rw [start, if_neg hrel]
  split
  · next h => exact ⟨fun hnil => absurd hnil (List.cons_ne_nil _ _), fun hne => absurd h hne⟩
  · next h => exact ⟨fun _ => h, fun _ => rfl⟩

/-- **The path of a database** is under the root if its name stays there. -/
theorem Windows.isUnder_collect_iff (root name : List UInt8) {id : List UInt8}
    (hid : parts id = [.normal id]) (hstart : start id = []) :
    IsUnder root (collect [root, name, id, name])
      ↔ StaysUnder root name
        ∧ (root = [] → (name.splitOn slash).head? ≠ some [46]) := by
  have hcollect : collect [root, name, id, name] = push (push (push root name) id) name := by
    rw [collect, List.foldl_cons, push_nil]
    rfl
  have hidNe : id ≠ [] := by
    rintro rfl
    cases hid
  rw [hcollect, StaysUnder]
  by_cases habs : name.head? = some slash
  · have hfirst : (name.splitOn slash).head? ≠ some [46] := by
      obtain ⟨rest, rfl⟩ : ∃ rest, name = slash :: rest := by
        cases name with
        | nil => cases habs
        | cons b rest => exact ⟨rest, congrArg (· :: rest) (Option.some.inj habs)⟩
      have hsplit : (slash :: rest).splitOn slash = [] :: rest.splitOn slash :=
        List.splitOn_append_cons_self [] rest
      rw [hsplit]
      exact fun h => (nomatch h)
    rw [push_absolute habs]
    exact ⟨fun h => ⟨⟨fun _ => h, fun hrel => absurd habs hrel⟩, fun _ => hfirst⟩,
      fun h => h.1.1 habs⟩
  · have hlast : components (push (push (push root name) id) name)
        = components (push (push root name) id) ++ parts name :=
      components_push habs (push_ne_nil hidNe _)
    rw [components_push_of_start hstart, hid] at hlast
    have hnames : (∃ names : List (List UInt8), [Component.normal id] = names.map .normal) :=
      ⟨[id], rfl⟩
    have hiff : (∃ names : List (List UInt8), parts name ++ ([.normal id] ++ parts name)
        = names.map .normal) ↔ dotDot ∉ name.splitOn slash := by
      rw [exists_map_append_iff, exists_map_append_iff, exists_names_iff]
      exact ⟨fun h => h.1, fun h => ⟨h, hnames, h⟩⟩
    by_cases hroot : root = []
    · have hbegin : (∃ names : List (List UInt8), start name = names.map .normal)
          ↔ (name.splitOn slash).head? ≠ some [46] := by
        rw [← start_eq_nil_iff habs]
        refine ⟨?_, fun h => ⟨[], h⟩⟩
        rintro ⟨names, hnames⟩
        rw [start, if_neg habs] at hnames ⊢
        split at hnames
        · cases names with
          | nil => cases hnames
          | cons _ _ => cases (List.cons.inj hnames).1
        · next h => rw [if_neg h]
      have hfull : components (push (push (push root name) id) name)
          = components root ++ (start name ++ (parts name ++ ([.normal id] ++ parts name))) := by
        rw [hlast, hroot, push_nil, List.append_assoc]
        exact List.append_assoc (start name) (parts name) _
      rw [isUnder_iff_of_components hfull, exists_map_append_iff, hiff, hbegin]
      exact ⟨fun h => ⟨⟨fun h' => absurd h' habs, fun _ => h.2⟩, fun _ => h.1⟩,
        fun h => ⟨h.2 hroot, h.1.2 habs⟩⟩
    · rw [components_push habs hroot, List.append_assoc, List.append_assoc] at hlast
      rw [isUnder_iff_of_components hlast, hiff]
      exact ⟨fun h => ⟨⟨fun h' => absurd h' habs, fun _ => h⟩, fun h' => absurd h' hroot⟩,
        fun h => h.1.2 habs⟩

/-- **The path of a file** is under the root if its name stays there. -/
theorem Linux.isUnder_collect_iff (root name : List UInt8) {id : List UInt8}
    (hid : parts id = [.normal id]) (hstart : start id = []) :
    IsUnder root (collect [root, id, name]) ↔ StaysUnder root name := by
  have hcollect : collect [root, id, name] = push (push root id) name := by
    rw [collect, List.foldl_cons, push_nil]
    rfl
  have hidNe : id ≠ [] := by
    rintro rfl
    cases hid
  rw [hcollect, StaysUnder]
  by_cases habs : name.head? = some slash
  · rw [push_absolute habs]
    exact ⟨fun h => ⟨fun _ => h, fun hrel => absurd habs hrel⟩, fun h => h.1 habs⟩
  · have hlast := components_push habs (push_ne_nil hidNe root)
    rw [components_push_of_start hstart, hid, List.append_assoc] at hlast
    have hnames : (∃ names : List (List UInt8), [Component.normal id] = names.map .normal) :=
      ⟨[id], rfl⟩
    rw [isUnder_iff_of_components hlast, exists_map_append_iff, exists_names_iff]
    exact ⟨fun h => ⟨fun h' => absurd h' habs, fun _ => h.2⟩, fun h => ⟨hnames, h.2 habs⟩⟩

/-! ## The loaders -/

/-- **A loader does all it does with one file**, and looks whether it is there. -/
theorem Windows.path_load (files : FileSystem) (server : Option Server) (root : List UInt8)
    (name id : String) (P : List UInt8 → Prop) :
    (∀ op ∈ (Windows.load files server root name id).2, P op.path)
      ↔ P (collect [root, ofString name, ofString id, ofString name]) := by
  have hdownload : ∀ (server : Server) (path : List UInt8),
      ∀ op ∈ (downloadPdb files server path name id).2, op.path = path := by
    intro server path op hop
    unfold downloadPdb at hop
    split at hop
    · exact absurd hop List.not_mem_nil
    split at hop
    · exact absurd hop List.not_mem_nil
    split at hop
    · obtain rfl | hop := List.mem_cons.mp hop
      · rfl
      · rw [List.mem_singleton.mp hop]
        rfl
    · rw [List.mem_singleton.mp hop]
      rfl
  unfold Windows.load
  dsimp only
  generalize collect [root, ofString name, ofString id, ofString name] = path
  have hrest : ∀ ops : List FileOp, (∀ op ∈ ops, op.path = path) →
      ((∀ op ∈ FileOp.checkExists path :: ops, P op.path) ↔ P path) := by
    intro ops hops
    rw [List.forall_mem_cons]
    exact ⟨fun h => h.1, fun h => ⟨h, fun op hop => (hops op hop).symm ▸ h⟩⟩
  split
  · exact hrest _ fun op hop => List.mem_singleton.mp hop ▸ rfl
  · split
    · exact hrest _ fun op hop => absurd hop List.not_mem_nil
    · split <;> exact hrest _ (hdownload _ path)

theorem Linux.path_load (files : FileSystem) (root name id : List UInt8)
    (P : List UInt8 → Prop) :
    (∀ op ∈ (Linux.load files root name id).2, P op.path) ↔ P (collect [root, id, name]) := by
  unfold Linux.load
  dsimp only
  split
  · rw [List.forall_mem_cons, List.forall_mem_singleton]
    exact and_self_iff
  · exact List.forall_mem_singleton

/-- The identifiers of the Linux loader are names. -/
theorem Linux.parts_symbolsId (arch : RuntimeArchitecture) :
    parts (symbolsId arch) = [.normal (symbolsId arch)] ∧ start (symbolsId arch) = [] := by
  cases arch <;> decide +kernel

/-- **The files of a loader are under its root** exactly if the name stays there.

For a Windows guest this is the name of the database, and any codeview record gives an
identifier; for a Linux guest it is that of the file. A root that is empty makes a
difference for the first loader only, which puts the name right behind it. -/
theorem load_isUnder_iff (files : FileSystem) (root : List UInt8) :
    (∀ (server : Option Server) (name : String) (codeview : Codeview),
      (∀ op ∈ (Windows.load files server root name codeview.pdbId).2, IsUnder root op.path)
        ↔ StaysUnder root (ofString name)
          ∧ (root = [] → ((ofString name).splitOn slash).head? ≠ some [46]))
    ∧ ∀ (name : List UInt8) (arch : RuntimeArchitecture),
      (∀ op ∈ (Linux.load files root name (Linux.symbolsId arch)).2, IsUnder root op.path)
        ↔ StaysUnder root name := by
  refine ⟨fun server name codeview => ?_, fun name arch => ?_⟩
  · obtain ⟨hid, hstart⟩ := codeview.parts_pdbId
    rw [Windows.path_load, Windows.isUnder_collect_iff _ _ hid hstart]
  · obtain ⟨hid, hstart⟩ := Linux.parts_symbolsId arch
    rw [Linux.path_load, Linux.isUnder_collect_iff _ _ hid hstart]

/-- A record whose database is named `../a`. -/
def Codeview.leadsUp : Codeview :=
  .ofBytes (rsds ++ List.replicate 20 0 ++ [46, 46, 47, 97] ++ List.replicate 20 0)

/-- A root, `/r`. -/
def FileSystem.root : List UInt8 := [47, 114]

/-- A file system with nothing in it. -/
def FileSystem.empty : FileSystem :=
  ⟨fun _ => false, fun _ => Exec.fail (.new "no such file"), fun _ => false⟩

/-- **The name of a database leads out of the root.** -/
theorem not_isUnder_leadsUp :
    ¬ ∀ (files : FileSystem) (server : Option Server) (root : List UInt8) (codeview : Codeview)
      (name : String), codeview.pdbName = some name →
      ∀ op ∈ (Windows.load files server root name codeview.pdbId).2, IsUnder root op.path := by
  intro h
  have hname : Codeview.leadsUp.pdbName = some (.ofList ['.', '.', '/', 'a']) := by decide +kernel
  obtain ⟨hid, hstart⟩ := Codeview.leadsUp.parts_pdbId
  have hunder := (Windows.path_load _ _ _ _ _ (IsUnder FileSystem.root)).mp
    (h .empty none FileSystem.root Codeview.leadsUp _ hname)
  have hstays := (Windows.isUnder_collect_iff _ _ hid hstart).mp hunder
  exact hstays.1.2 (by decide +kernel) (by decide +kernel)
