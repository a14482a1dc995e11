import Mathlib

/-!
# Paths

A path of a Unix file system is a string of bytes, and a file is named by its components:
what is between the separators, but for empty parts and dots. Pushing one path on another
puts it behind a separator, unless it is absolute and takes the place of what was there.

A path that is pushed on a root stays under it (`IsUnder`) if none of its components leads
back up: the components of what is pushed come behind those of the root
(`components_push`), and they are names where no part is `..` (`exists_names_iff`).
-/

namespace FilePath

/-- `'/'` -/
def slash : UInt8 := 47

/-- The name of a directory's parent, `".."`. -/
def dotDot : List UInt8 := [46, 46]

/-- `std::path::Component` -/
inductive Component where
  | rootDir
  | curDir
  | parentDir
  | normal (name : List UInt8)
deriving DecidableEq, Repr

/-- What stands between two separators, if it counts. -/
def component (part : List UInt8) : Option Component :=
  if part = [] ∨ part = [46] then none
  else if part = dotDot then some .parentDir
  else some (.normal part)

/-- The components of a path after what it begins with. -/
def parts (path : List UInt8) : List Component := (path.splitOn slash).filterMap component

/-- What a path begins with: a dot counts there. -/
def start (path : List UInt8) : List Component :=
  if path.head? = some slash then [.rootDir]
  else if (path.splitOn slash).head? = some [46] then [.curDir]
  else []

/-- `Path::components` -/
def components (path : List UInt8) : List Component := start path ++ parts path

/-- `PathBuf::push` -/
def push (buf path : List UInt8) : List UInt8 :=
  if path.head? = some slash then path
  else if buf ≠ [] ∧ buf.getLast? ≠ some slash then buf ++ slash :: path
  else buf ++ path

/-- `paths.iter().collect::<PathBuf>()` -/
def collect (paths : List (List UInt8)) : List UInt8 := paths.foldl push []

/-- **A path under a root**: the root, and names of what is in it. -/
def IsUnder (root path : List UInt8) : Prop :=
  ∃ names : List (List UInt8), components path = components root ++ names.map .normal

/-! ## Components of a path that was pushed -/

theorem parts_append_slash (xs ys : List UInt8) :
    parts (xs ++ slash :: ys) = parts xs ++ parts ys := by
  rw [parts, List.splitOn_append_cons_self, List.filterMap_append]
  rfl

theorem start_append_slash (xs ys : List UInt8) :
    start (xs ++ slash :: ys) = start (xs ++ [slash]) := by
  cases xs with
  | nil => rfl
  | cons b xs =>
    have hhead : ∀ ys, ((b :: xs ++ slash :: ys).splitOn slash).head?
        = ((b :: xs).splitOn slash).head? := by
      intro ys
      rw [List.splitOn_append_cons_self,
        List.head?_append_of_ne_nil _ (List.splitOn_ne_nil _ _)]
    unfold start
    rw [hhead ys, hhead []]
    rfl

theorem start_append_singleton {buf : List UInt8} (hne : buf ≠ []) :
    start (buf ++ [slash]) = start buf := by
  have hhead : ((buf ++ [slash]).splitOn slash).head? = (buf.splitOn slash).head? := by
    rw [List.splitOn_append_cons_self, List.head?_append_of_ne_nil _ (List.splitOn_ne_nil _ _)]
  unfold start
  rw [hhead, List.head?_append_of_ne_nil _ hne]

/-- **Pushing a path that is not absolute** puts its components behind the others. -/
theorem components_push {buf path : List UInt8} (hrel : path.head? ≠ some slash)
    (hne : buf ≠ []) : components (push buf path) = components buf ++ parts path := by
  rw [push, if_neg hrel]
  by_cases hlast : buf.getLast? = some slash
  · obtain ⟨b, rfl⟩ := List.getLast?_eq_some_iff.mp hlast
    have hpath : b ++ [slash] ++ path = b ++ slash :: path := List.append_assoc b [slash] path
    rw [if_neg fun h => h.2 hlast, hpath, components, components, start_append_slash,
      parts_append_slash, parts_append_slash, List.append_assoc, List.append_assoc]
    rfl
  · rw [if_pos ⟨hne, hlast⟩, components, components, start_append_slash,
      start_append_singleton hne, parts_append_slash, List.append_assoc]

/-- A path that begins with a name is pushed on an empty path as on any other. -/
theorem components_push_of_start {path : List UInt8} (h : start path = []) (buf : List UInt8) :
    components (push buf path) = components buf ++ parts path := by
  have hrel : path.head? ≠ some slash := by
    intro habs
    rw [start, if_pos habs] at h
    cases h
  by_cases hne : buf = []
  · rw [hne, push, if_neg hrel, if_neg fun h => h.1 rfl, List.nil_append, components, h]
    rfl
  · exact components_push hrel hne

theorem push_nil (path : List UInt8) : push [] path = path := by
  unfold push
  split
  · rfl
  · rfl

theorem push_absolute {path : List UInt8} (h : path.head? = some slash) (buf : List UInt8) :
    push buf path = path := if_pos h

theorem push_ne_nil {path : List UInt8} (hne : path ≠ []) (buf : List UInt8) :
    push buf path ≠ [] := by
  unfold push
  split
  · exact hne
  split
  · exact List.append_ne_nil_of_right_ne_nil _ (List.cons_ne_nil _ _)
  · exact List.append_ne_nil_of_right_ne_nil _ hne

/-! ## Names -/

/-- **Components are names** where none leads back up. -/
theorem exists_names_iff (path : List UInt8) :
    (∃ names : List (List UInt8), parts path = names.map .normal)
      ↔ dotDot ∉ path.splitOn slash := by
  unfold parts
  induction path.splitOn slash with
  | nil => exact ⟨fun _ => List.not_mem_nil, fun _ => ⟨[], rfl⟩⟩
  | cons part ps ih =>
    rw [List.mem_cons, not_or, ← ih, List.filterMap_cons]
    by_cases hdots : part = dotDot
    · rw [hdots]
      refine ⟨?_, fun h => absurd rfl h.1⟩
      rintro ⟨names, hnames⟩
      cases names with
      | nil => cases hnames
      | cons name names => cases (List.cons.inj hnames).1
    · by_cases hempty : part = [] ∨ part = [46]
      · rw [component, if_pos hempty]
        exact (and_iff_right (Ne.symm hdots)).symm
      · rw [component, if_neg hempty, if_neg hdots]
        constructor
        · rintro ⟨names, hnames⟩
          cases names with
          | nil => cases hnames
          | cons name names => exact ⟨Ne.symm hdots, names, (List.cons.inj hnames).2⟩
        · rintro ⟨-, names, hnames⟩
          exact ⟨part :: names, congrArg (List.cons (Component.normal part)) hnames⟩

/-- A name is the only component of its path. -/
theorem parts_of_not_mem {name : List UInt8} (hslash : slash ∉ name) (hempty : name ≠ [])
    (hdot : name ≠ [46]) (hdots : name ≠ dotDot) : parts name = [.normal name] := by
  rw [parts, List.splitOn_eq_singleton hslash]
  show (component name).toList = _
  rw [component, if_neg (not_or.mpr ⟨hempty, hdot⟩), if_neg hdots]
  rfl

/-- What is put behind names is names if the result is. -/
theorem exists_map_append_iff (xs ys : List Component) :
    (∃ names : List (List UInt8), xs ++ ys = names.map .normal)
      ↔ (∃ names : List (List UInt8), xs = names.map .normal)
        ∧ ∃ names : List (List UInt8), ys = names.map .normal := by
  constructor
  · rintro ⟨names, hnames⟩
    obtain ⟨ns, ns', -, hns, hns'⟩ := List.append_eq_map_iff.mp hnames
    exact ⟨⟨ns, hns.symm⟩, ns', hns'.symm⟩
  · rintro ⟨⟨ns, rfl⟩, ns', rfl⟩
    exact ⟨ns ++ ns', List.map_append.symm⟩

/-- **A path of components behind those of a root** is under it if they are names. -/
theorem isUnder_iff_of_components {root path : List UInt8} {xs : List Component}
    (h : components path = components root ++ xs) :
    IsUnder root path ↔ ∃ names : List (List UInt8), xs = names.map .normal := by
  unfold IsUnder
  rw [h]
  exact exists_congr fun names => List.append_right_inj _

end FilePath
