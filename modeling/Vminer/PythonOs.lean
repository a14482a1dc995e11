import Vminer.WindowsBuilder

/-!
# A guest for Python

The constructor of Python's `Os` may be told which system it has to look for, and may be given a
directory with symbols, which is loaded when a system was recognised. Told nothing it guesses as
the C interface does; told a system it creates this one or fails, whatever else the guest looks
like. The symbols of the directory are those that the other interfaces would be given
(`newOs_creates`).
-/

namespace Python

/-- `RequestedOs` -/
inductive RequestedOs where
  | Linux
  | Windows
deriving DecidableEq, Repr

section Definitions

variable {B : Type} [Backend.Methods B] (sizeOfImage : Windows.ImageSize) (fuel : ℕ) (backend : B)
  (linuxLoader windowsLoader : Exec VmError Symbols.Loader) (files : Symbols.Files)
  (formats : Symbols.Formats)

/-- `RawOs::detect` -/
def detect (os : Option RequestedOs) : Exec VmError (Option (OsBuilder × RequestedOs)) := do
  let linux ← if os = some .Windows then pure none else Linux.quickCheck backend
  match linux with
  | some builder => return some (builder, .Linux)
  | none =>
    let windows ← if os = some .Linux then pure none
      else Windows.quickCheck sizeOfImage fuel backend
    match windows with
    | some builder => return some (builder, .Windows)
    | none => return none

/-- The symbols of `RawOs::new`. -/
def loadSymbols (path : Option (List UInt8)) (builder : OsBuilder) : Exec VmError OsBuilder :=
  match path with
  | some path => do
    let loaded := Symbols.Indexer.loadDir files formats OnceMap.new path
    let _ ← loaded.1
    return builder.withSymbols loaded.2
  | none => return builder

/-- `OsBuilder::build`, for the system that was recognised. -/
def buildOs (builder : OsBuilder) : RequestedOs → Exec VmError (Os.Guest B)
  | .Linux => Os.Guest.linux <$> Linux.build backend linuxLoader builder
  | .Windows => Os.Guest.windows <$> Windows.build sizeOfImage fuel backend windowsLoader builder

/-- `RawOs::new` -/
def rawOs (path : Option (List UInt8)) (os : Option RequestedOs) :
    Exec VmError (Os.Guest B) := do
  let detected ← detect sizeOfImage fuel backend os
  let (builder, os) ← Exec.okOr detected (VmError.new "failed to guess guest OS")
  let builder ← loadSymbols files formats path builder
  buildOs sizeOfImage fuel backend linuxLoader windowsLoader builder os

/-- The system that is asked for. -/
def requested : Option String → Exec VmError (Option RequestedOs)
  | some "linux" => return some .Linux
  | some "windows" => return some .Windows
  | some _ => Exec.fail (VmError.new "Unknown OS")
  | none => return none

/-- `Os::new` of the bindings. -/
def newOs (path : Option (List UInt8)) (kind : Option String) : Exec VmError (Os.Guest B) := do
  let request ← requested kind
  rawOs sizeOfImage fuel backend linuxLoader windowsLoader files formats path request

end Definitions

/-! ## What is created -/

/-- **The symbols of a directory**, or none. -/
def symbolsOf (files : Symbols.Files) (formats : Symbols.Formats) :
    Option (List UInt8) → Exec VmError Symbols.Indexer
  | some path => do
    let _ ← (Symbols.Indexer.loadDir files formats OnceMap.new path).1
    return (Symbols.Indexer.loadDir files formats OnceMap.new path).2
  | none => return OnceMap.new

section Created

variable {B : Type} [Backend.Methods B] {sizeOfImage : Windows.ImageSize} {fuel : ℕ} {backend : B}
  {linuxLoader windowsLoader : Exec VmError Symbols.Loader} {files : Symbols.Files}
  {formats : Symbols.Formats} {path : Option (List UInt8)} {builder : OsBuilder}

/-- Looking for one of the systems. -/
def check (sizeOfImage : Windows.ImageSize) (fuel : ℕ) (backend : B) :
    RequestedOs → Exec VmError (Option OsBuilder)
  | .Linux => Linux.quickCheck backend
  | .Windows => Windows.quickCheck sizeOfImage fuel backend

/-- The quick checks hand on no symbols. -/
theorem symbols_of_check {os : RequestedOs}
    (h : check sizeOfImage fuel backend os = .ok (some builder)) : builder.symbols = none := by
  cases os with
  | Linux =>
    obtain ⟨kpgd, -, h⟩ := (Exec.bind_eq_ok_iff _ _ _).mp h
    cases kpgd with
    | none => cases h
    | some kpgd =>
      obtain ⟨banner, -, h⟩ := (Exec.bind_eq_ok_iff _ _ _).mp h
      obtain - | - | banner := banner
      · cases h
      · cases h
      · rw [← Option.some.inj (Except.ok.inj h)]
        rfl
  | Windows =>
    obtain ⟨kpgd, -, h⟩ := (Exec.bind_eq_ok_iff _ _ _).mp h
    cases kpgd with
    | none => cases h
    | some kpgd =>
      obtain ⟨kernel, -, h⟩ := (Exec.bind_eq_ok_iff _ _ _).mp h
      obtain - | - | kernel := kernel
      · cases h
      · cases h
      · rw [← Option.some.inj (Except.ok.inj h)]
        rfl

/-- A builder without symbols builds with none. -/
theorem buildOs_withSymbols_new (h : builder.symbols = none) (os : RequestedOs) :
    buildOs sizeOfImage fuel backend linuxLoader windowsLoader builder os
      = buildOs sizeOfImage fuel backend linuxLoader windowsLoader
        (builder.withSymbols OnceMap.new) os := by
  cases os with
  | Linux =>
    unfold buildOs Linux.build
    rw [h]
    rfl
  | Windows =>
    unfold buildOs Windows.build
    rw [h]
    rfl

/-- **Building with the symbols of a directory.** -/
theorem loadSymbols_bind_buildOs (h : builder.symbols = none) (os : RequestedOs) :
    (loadSymbols files formats path builder >>= fun builder =>
        buildOs sizeOfImage fuel backend linuxLoader windowsLoader builder os)
      = symbolsOf files formats path >>= fun symbols =>
        buildOs sizeOfImage fuel backend linuxLoader windowsLoader
          (builder.withSymbols symbols) os := by
  cases path with
  | none => exact buildOs_withSymbols_new h os
  | some path =>
    unfold loadSymbols symbolsOf
    dsimp only
    cases (Symbols.Indexer.loadDir files formats OnceMap.new path).1 with
    | ok _ => rfl
    | error e => rfl

/-- **Creating one of the systems**, with some symbols. -/
def createOs (sizeOfImage : Windows.ImageSize) (fuel : ℕ) (backend : B)
    (linuxLoader windowsLoader : Exec VmError Symbols.Loader) (symbols : Symbols.Indexer) :
    RequestedOs → Exec VmError (Os.Guest B)
  | .Linux => Os.Guest.linux <$> Linux.create backend linuxLoader symbols
  | .Windows => Os.Guest.windows <$> Windows.create sizeOfImage fuel backend windowsLoader symbols

/-- A system that is asked for is looked for alone. -/
theorem detect_some (os : RequestedOs) :
    detect sizeOfImage fuel backend (some os)
      = Option.map (·, os) <$> check sizeOfImage fuel backend os := by
  cases os with
  | Linux =>
    unfold detect check
    rw [if_neg (by decide), if_pos rfl]
    rcases Linux.quickCheck backend with e | - | builder
    · rfl
    · rfl
    · rfl
  | Windows =>
    unfold detect check
    rw [if_pos rfl, if_neg (by decide)]
    show (Windows.quickCheck sizeOfImage fuel backend >>= _) = _
    rcases Windows.quickCheck sizeOfImage fuel backend with e | - | builder
    · rfl
    · rfl
    · rfl

/-- Without a wish, Windows is looked for where Linux is not. -/
theorem detect_none :
    detect sizeOfImage fuel backend none = Linux.quickCheck backend >>= fun linux =>
      match linux with
      | some builder => return some (builder, .Linux)
      | none => detect sizeOfImage fuel backend (some .Windows) := by
  unfold detect
  rw [if_neg (by decide), if_neg (by decide), if_pos rfl, if_neg (by decide)]
  rfl

variable {symbols : Symbols.Indexer} {guest : Os.Guest B} {os : RequestedOs}

/-- What was recognised is created. -/
theorem buildOs_of_check (h : check sizeOfImage fuel backend os = .ok (some builder)) :
    buildOs sizeOfImage fuel backend linuxLoader windowsLoader (builder.withSymbols symbols) os
      = createOs sizeOfImage fuel backend linuxLoader windowsLoader symbols os := by
  cases os with
  | Linux =>
    exact congrArg (Os.Guest.linux <$> ·) ((Linux.build_of_quickCheck h).1 builder rfl)
  | Windows =>
    exact congrArg (Os.Guest.windows <$> ·) ((Windows.build_of_quickCheck h).1 builder rfl)

/-- What is created was recognised. -/
theorem exists_check_of_createOs
    (h : createOs sizeOfImage fuel backend linuxLoader windowsLoader symbols os = .ok guest) :
    ∃ builder, check sizeOfImage fuel backend os = .ok (some builder) := by
  cases os with
  | Linux =>
    obtain ⟨linux, hcreate, -⟩ := (Exec.bind_eq_ok_iff _ _ _).mp h
    exact Linux.quickCheck_of_create hcreate
  | Windows =>
    obtain ⟨windows, hcreate, -⟩ := (Exec.bind_eq_ok_iff _ _ _).mp h
    exact Windows.quickCheck_of_create hcreate

/-- What is not recognised is not created. -/
theorem createOs_ne_ok
    (hnone : ∀ builder, check sizeOfImage fuel backend os ≠ .ok (some builder)) :
    createOs sizeOfImage fuel backend linuxLoader windowsLoader symbols os ≠ .ok guest := by
  intro h
  obtain ⟨builder, hbuilder⟩ := exists_check_of_createOs h
  exact hnone builder hbuilder

/-- After the detection the symbols are loaded, and the system that was found is created. -/
theorem rawOs_of_detect {request : Option RequestedOs}
    (hcheck : check sizeOfImage fuel backend os = .ok (some builder))
    (h : detect sizeOfImage fuel backend request = .ok (some (builder, os))) :
    rawOs sizeOfImage fuel backend linuxLoader windowsLoader files formats path request
      = symbolsOf files formats path >>= fun symbols =>
        createOs sizeOfImage fuel backend linuxLoader windowsLoader symbols os := by
  rw [rawOs, h]
  show (loadSymbols files formats path builder >>= fun builder =>
    buildOs sizeOfImage fuel backend linuxLoader windowsLoader builder os) = _
  rw [loadSymbols_bind_buildOs (symbols_of_check hcheck)]
  exact congrArg _ (funext fun symbols => buildOs_of_check hcheck)

/-- **A system that is asked for is created**, or nothing is. -/
theorem rawOs_some_eq_ok_iff :
    rawOs sizeOfImage fuel backend linuxLoader windowsLoader files formats path (some os)
        = .ok guest
      ↔ ∃ symbols, symbolsOf files formats path = .ok symbols
        ∧ createOs sizeOfImage fuel backend linuxLoader windowsLoader symbols os = .ok guest := by
  have hdetect : detect sizeOfImage fuel backend (some os)
      = Option.map (·, os) <$> check sizeOfImage fuel backend os := detect_some os
  rcases hcheck : check sizeOfImage fuel backend os with e | - | builder
  · rw [hcheck] at hdetect
    rw [rawOs, hdetect]
    refine iff_of_false (fun h => by cases h) ?_
    rintro ⟨symbols, -, h⟩
    exact createOs_ne_ok (fun builder hbuilder => by cases hcheck.symm.trans hbuilder) h
  · rw [hcheck] at hdetect
    rw [rawOs, hdetect]
    refine iff_of_false (fun h => by cases h) ?_
    rintro ⟨symbols, -, h⟩
    exact createOs_ne_ok (fun builder hbuilder => by cases hcheck.symm.trans hbuilder) h
  · rw [hcheck] at hdetect
    rw [rawOs_of_detect hcheck hdetect, Exec.bind_eq_ok_iff]

/-- Windows is created where it is recognised. -/
theorem createOs_windows_eq_ok_iff :
    createOs sizeOfImage fuel backend linuxLoader windowsLoader symbols .Windows = .ok guest
      ↔ (do
        match ← Windows.quickCheck sizeOfImage fuel backend with
        | some builder =>
          let windows ← Windows.build sizeOfImage fuel backend windowsLoader
            (builder.withSymbols symbols)
          return Os.Guest.windows windows
        | none => Exec.fail (VmError.ofStr "Failed to guess host OS")) = .ok guest := by
  rcases hcheck : Windows.quickCheck sizeOfImage fuel backend with e | - | builder
  · refine iff_of_false (createOs_ne_ok fun builder hbuilder => ?_) fun h => by cases h
    cases hcheck.symm.trans hbuilder
  · refine iff_of_false (createOs_ne_ok fun builder hbuilder => ?_) fun h => by cases h
    cases hcheck.symm.trans hbuilder
  · have hcheck' : check sizeOfImage fuel backend .Windows = .ok (some builder) := hcheck
    rw [← buildOs_of_check hcheck']
    rfl

/-- **The guess** is that of the C interface. -/
theorem rawOs_none_eq_ok_iff :
    rawOs sizeOfImage fuel backend linuxLoader windowsLoader files formats path none = .ok guest
      ↔ ∃ symbols, symbolsOf files formats path = .ok symbols
        ∧ Os.new sizeOfImage fuel backend linuxLoader windowsLoader symbols = .ok guest := by
  have hdetect : detect sizeOfImage fuel backend none = _ := detect_none
  unfold Os.new
  rcases hlinux : Linux.quickCheck backend with e | - | builder
  · rw [hlinux] at hdetect
    rw [rawOs, hdetect]
    refine iff_of_false (fun h => by cases h) ?_
    rintro ⟨symbols, -, h⟩
    cases h
  · rw [hlinux] at hdetect
    have hwindows : rawOs sizeOfImage fuel backend linuxLoader windowsLoader files formats path none
        = rawOs sizeOfImage fuel backend linuxLoader windowsLoader files formats path
          (some .Windows) := by
      rw [rawOs, hdetect]
      rfl
    rw [hwindows, rawOs_some_eq_ok_iff]
    exact exists_congr fun symbols => and_congr_right fun _ => createOs_windows_eq_ok_iff
  · rw [hlinux] at hdetect
    have hcheck : check sizeOfImage fuel backend .Linux = .ok (some builder) := hlinux
    rw [rawOs_of_detect hcheck hdetect, Exec.bind_eq_ok_iff]
    refine exists_congr fun symbols => and_congr_right fun _ => ?_
    rw [← buildOs_of_check hcheck]
    rfl

end Created

/-- **What Python creates.** Without a wish it is what the C interface guesses, given the symbols
of the directory; asked for Linux or for Windows it is what this system is created as, whatever
the other one would be. Where the directory cannot be loaded, or the system is not there, there
is nothing; another name is not one of a system. -/
theorem newOs_creates {B : Type} [Backend.Methods B] (sizeOfImage : Windows.ImageSize) (fuel : ℕ)
    (backend : B) (linuxLoader windowsLoader : Exec VmError Symbols.Loader)
    (files : Symbols.Files) (formats : Symbols.Formats) (path : Option (List UInt8)) :
    (∀ guest, newOs sizeOfImage fuel backend linuxLoader windowsLoader files formats path none
          = .ok guest
        ↔ ∃ symbols, symbolsOf files formats path = .ok symbols
          ∧ Os.new sizeOfImage fuel backend linuxLoader windowsLoader symbols = .ok guest)
      ∧ (∀ guest, newOs sizeOfImage fuel backend linuxLoader windowsLoader files formats path
          (some "linux") = .ok guest
        ↔ ∃ symbols, symbolsOf files formats path = .ok symbols
          ∧ Os.Guest.linux <$> Linux.create backend linuxLoader symbols = .ok guest)
      ∧ (∀ guest, newOs sizeOfImage fuel backend linuxLoader windowsLoader files formats path
          (some "windows") = .ok guest
        ↔ ∃ symbols, symbolsOf files formats path = .ok symbols
          ∧ Os.Guest.windows <$> Windows.create sizeOfImage fuel backend windowsLoader symbols
            = .ok guest)
      ∧ ∀ kind, kind ≠ "linux" → kind ≠ "windows" →
        newOs sizeOfImage fuel backend linuxLoader windowsLoader files formats path (some kind)
          = Exec.fail (VmError.new "Unknown OS") := by
  refine ⟨fun _ => rawOs_none_eq_ok_iff, fun _ => rawOs_some_eq_ok_iff,
    fun _ => rawOs_some_eq_ok_iff, fun kind hlinux hwindows => ?_⟩
  have hrequested : requested (some kind) = Exec.fail (VmError.new "Unknown OS") := by
    unfold requested
    split
    · exact absurd (Option.some.inj ‹_›) hlinux
    · exact absurd (Option.some.inj ‹_›) hwindows
    · rfl
    · cases ‹some kind = none›
  rw [newOs, hrequested]
  rfl

/-- Another system cannot be asked for. -/
theorem newOs_creates_bsd :
    newOs (fun _ => .ok 0x1000) 1 Linux.bareLinux (.ok fun _ _ => .ok none)
        (.ok fun _ _ => .ok none) (Symbols.Indexer.Files.listing []) Symbols.Indexer.Formats.maps
        none (some "bsd") = Exec.fail (VmError.new "Unknown OS") :=
  (newOs_creates (fun _ => .ok 0x1000) 1 Linux.bareLinux (.ok fun _ _ => .ok none)
    (.ok fun _ _ => .ok none) (Symbols.Indexer.Files.listing []) Symbols.Indexer.Formats.maps
    none).2.2.2 "bsd" (by decide) (by decide)

end Python
