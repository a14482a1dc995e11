import Vminer.Dump
import Vminer.Linux

/-!
# Paths of files

The path of a directory entry is built from the root down, in one buffer: every level
makes room for 256 more bytes, reads its name into them, after a separator if one is
needed, and cuts the buffer at the byte that ends the name.

The separator takes one of the 256 bytes. A name may have 255, so behind a separator
the byte that ends such a name is not read, and the name is taken for one that is too
long (`buildPath_eq_iff`).
-/

namespace Linux

variable {B : Type} [Memory B] [HasVcpus B] {linux : Linux B}

/-! ## Chains of directory entries -/

/-- **A name in memory**: it ends in a zero, and the bytes after it can be read. -/
def HoldsName (linux : Linux B) (d : VirtualAddress) (name : List UInt8) : Prop :=
  ∃ qstrAddr ptr rest, Pointer.field linux.layouts d (dentry "d_name") = .ok qstrAddr
    ∧ linux.readField Layout.u64 qstrAddr (qstr "name") = .ok ptr
    ∧ (name ++ 0 :: rest).length = 256
    ∧ ∀ len, 255 ≤ len → len ≤ 256 →
      linux.readKernelMemory ptr len = .ok ((name ++ 0 :: rest).take len)

/-- What may be the name of an entry other than the root. -/
structure IsName (name : List UInt8) : Prop where
  nonempty : name ≠ []
  noNul : 0 ∉ name
  noSlash : 47 ∉ name

/-- **A chain of directory entries in memory**, with the names from below the root to
the leaf. -/
inductive HoldsPath (linux : Linux B) : VirtualAddress → List (List UInt8) → Prop
  | root {d : VirtualAddress} : linux.readPointerField d (dentry "d_parent") = .ok d →
      linux.HoldsName d [47] → HoldsPath linux d []
  | child {d parent : VirtualAddress} {names : List (List UInt8)} {name : List UInt8} :
      linux.readPointerField d (dentry "d_parent") = .ok parent → parent ≠ d →
      HoldsPath linux parent names → linux.HoldsName d name → IsName name →
      HoldsPath linux d (names ++ [name])

/-- **The path of the names**: joined, behind the root. -/
def pathOf (names : List (List UInt8)) : List UInt8 := 47 :: List.intercalate [47] names

theorem pathOf_ne_nil (names : List (List UInt8)) : pathOf names ≠ [] := List.cons_ne_nil _ _

/-- One name more is joined behind a separator, unless it is the first. -/
theorem pathOf_concat (names : List (List UInt8)) (name : List UInt8) :
    pathOf (names ++ [name])
      = pathOf names ++ (if names = [] then name else 47 :: name) := by
  have hjoin : ∀ names : List (List UInt8), names ≠ [] →
      List.intercalate [47] (names ++ [name]) = List.intercalate [47] names ++ 47 :: name := by
    intro names hne
    induction names with
    | nil => exact absurd rfl hne
    | cons a names ih =>
      cases names with
      | nil => simp
      | cons b names =>
        rw [List.cons_append, List.cons_append, List.intercalate_cons_cons, ← List.cons_append,
          ih (List.cons_ne_nil b names), List.intercalate_cons_cons, List.append_assoc,
          List.append_assoc, List.append_assoc]
  unfold pathOf
  by_cases hne : names = []
  · rw [if_pos hne, hne, List.nil_append, List.intercalate_singleton]
    rfl
  · rw [if_neg hne, hjoin names hne]
    rfl

/-! ## One name -/

/-- The buffer, with a separator if one is needed. -/
def separated (buf : List UInt8) : List UInt8 :=
  if buf ≠ [] ∧ buf.getLast? ≠ some 47 then buf ++ [47] else buf

theorem separated_eq_self {buf : List UInt8} (h : buf.getLast? = some 47) :
    separated buf = buf := if_neg fun hne => hne.2 h

theorem separated_eq_concat {buf : List UInt8} (hne : buf ≠ []) (h : buf.getLast? ≠ some 47) :
    separated buf = buf ++ [47] := if_pos ⟨hne, h⟩

/-- The separator is one byte. -/
theorem length_separated (buf : List UInt8) :
    buf.length ≤ (separated buf).length ∧ (separated buf).length ≤ buf.length + 1 := by
  unfold separated
  split
  · simp
  · simp

/-- The name is read up to its end, behind what there is already. -/
theorem readFileNameTo_of_reads {d qstrAddr ptr : VirtualAddress} {buf : List UInt8}
    (hfield : Pointer.field linux.layouts d (dentry "d_name") = .ok qstrAddr)
    (hptr : linux.readField Layout.u64 qstrAddr (qstr "name") = .ok ptr) :
    linux.readFileNameTo d buf
      = linux.readKernelMemory ptr (buf.length + 256 - (separated buf).length) >>= fun bytes =>
        match bytes.findIdx? (· == 0) with
        | some i => .ok (separated buf ++ bytes.take i)
        | none => Exec.panicked := by
  unfold readFileNameTo
  rw [hfield, Exec.ok_bind, hptr, Exec.ok_bind]
  rfl

/-- **A name is appended** if its end is among the bytes that are read. -/
theorem readFileNameTo_eq {d : VirtualAddress} {name : List UInt8} (h : linux.HoldsName d name)
    (hnul : 0 ∉ name) (buf : List UInt8) :
    linux.readFileNameTo d buf
      = if name.length < buf.length + 256 - (separated buf).length then
          .ok (separated buf ++ name)
        else Exec.panicked := by
  obtain ⟨qstrAddr, ptr, rest, hfield, hptr, hlen, hread⟩ := h
  obtain ⟨hle, hle'⟩ := length_separated buf
  rw [readFileNameTo_of_reads hfield hptr, hread _ (by omega) (by omega), Exec.ok_bind]
  have hname : ∀ b ∈ name, (b == 0) = false := by
    intro b hb
    exact beq_eq_false_iff_ne.mpr fun heq => hnul (heq ▸ hb)
  by_cases hlt : name.length < buf.length + 256 - (separated buf).length
  · rw [if_pos hlt]
    obtain ⟨k, hk⟩ := Nat.exists_eq_add_of_lt hlt
    have htake : (name ++ 0 :: rest).take (buf.length + 256 - (separated buf).length)
        = name ++ 0 :: rest.take k := by
      rw [hk, Nat.add_assoc, List.take_length_add_append]
      rfl
    have hidx : (name ++ 0 :: rest.take k).findIdx? (· == 0) = some name.length := by
      rw [List.findIdx?_append, List.findIdx?_eq_none_iff.mpr hname, List.findIdx?_cons]
      simp
    rw [htake, hidx]
    simp
  · rw [if_neg hlt, List.take_append_of_le_length (not_lt.mp hlt),
      List.findIdx?_eq_none_iff.mpr fun b hb => hname b (List.mem_of_mem_take hb)]

/-! ## All names -/

/-- A path ends in its last name. -/
theorem exists_pathOf_concat (names : List (List UInt8)) (name : List UInt8) :
    ∃ l, pathOf (names ++ [name]) = l ++ name := by
  rw [pathOf_concat]
  split
  · exact ⟨pathOf names, rfl⟩
  · exact ⟨pathOf names ++ [47], (List.append_assoc _ [47] name).symm⟩

/-- A path ends in a separator only where it is that of the root. -/
theorem HoldsPath.getLast?_pathOf {d : VirtualAddress} {names : List (List UInt8)}
    (h : linux.HoldsPath d names) : (pathOf names).getLast? = some 47 ↔ names = [] := by
  cases h with
  | root _ _ => exact iff_of_true rfl rfl
  | @child d parent names name _ _ _ _ hname =>
    refine iff_of_false (fun hlast => ?_) (by simp)
    obtain ⟨l, hl⟩ := exists_pathOf_concat names name
    rw [hl, List.getLast?_append, List.getLast?_eq_some_getLast hname.nonempty] at hlast
    have hmem := List.getLast_mem hname.nonempty
    rw [Option.some.inj hlast] at hmem
    exact hname.noSlash hmem

/-- **What `build_path` does**: it appends the path, behind a separator where one is needed
before it, if no name but the first has 255 bytes. -/
theorem HoldsPath.buildPath_eq {d : VirtualAddress} {names : List (List UInt8)}
    (h : linux.HoldsPath d names) {fuel : ℕ} (hfuel : names.length < fuel) (buf : List UInt8) :
    linux.buildPath fuel d buf
      = if ∀ name ∈ names.tail, name.length < 255 then .ok (separated buf ++ pathOf names)
        else Exec.panicked := by
  induction h generalizing fuel with
  | @root d hparent hname =>
    obtain ⟨fuel, rfl⟩ := Nat.exists_eq_add_one.mpr hfuel
    obtain ⟨-, hle⟩ := length_separated buf
    rw [buildPath, hparent, Exec.ok_bind, if_neg (not_not.mpr rfl)]
    show linux.readFileNameTo d buf = _
    rw [readFileNameTo_eq hname (by decide), if_pos (by simp; omega),
      if_pos (fun _ h => nomatch h)]
    rfl
  | @child d parent names name hparent hne hpath hname hvalid ih =>
    obtain ⟨fuel, rfl⟩ := Nat.exists_eq_add_one.mpr (Nat.zero_lt_of_lt hfuel)
    have hlen : name.length < 256 := by
      obtain ⟨_, _, rest, -, -, hlen, -⟩ := hname
      simp at hlen
      omega
    rw [List.length_append, List.length_singleton] at hfuel
    rw [buildPath, hparent, Exec.ok_bind, if_pos hne, ih (Nat.lt_of_succ_lt_succ hfuel)]
    by_cases hroot : names = []
    · -- the name of the root is the separator
      have hlast : (separated buf ++ pathOf names).getLast? = some 47 := by
        rw [List.getLast?_append, hpath.getLast?_pathOf.mpr hroot]
        rfl
      subst hroot
      rw [if_pos (fun _ h => nomatch h)]
      show linux.readFileNameTo d (separated buf ++ pathOf []) = _
      rw [readFileNameTo_eq hname hvalid.noNul, separated_eq_self hlast, if_pos (by omega),
        if_pos (fun _ h => nomatch h), pathOf_concat, if_pos rfl, List.append_assoc]
    · have hlast : (separated buf ++ pathOf names).getLast? ≠ some 47 := by
        rw [List.getLast?_append, List.getLast?_eq_some_getLast (pathOf_ne_nil names)]
        intro heq
        refine hroot (hpath.getLast?_pathOf.mp ?_)
        rw [List.getLast?_eq_some_getLast (pathOf_ne_nil names)]
        exact heq
      have htail : (∀ n ∈ (names ++ [name]).tail, n.length < 255)
          ↔ (∀ n ∈ names.tail, n.length < 255) ∧ name.length < 255 := by
        rw [List.tail_append_of_ne_nil hroot, List.forall_mem_append]
        simp
      by_cases hnames : ∀ n ∈ names.tail, n.length < 255
      · rw [if_pos hnames]
        show linux.readFileNameTo d (separated buf ++ pathOf names) = _
        rw [readFileNameTo_eq hname hvalid.noNul,
          separated_eq_concat (List.append_ne_nil_of_right_ne_nil _ (pathOf_ne_nil names)) hlast,
          pathOf_concat, if_neg hroot]
        by_cases hlt : name.length < 255
        · rw [if_pos (by simp; omega), if_pos (htail.mpr ⟨hnames, hlt⟩)]
          simp
        · rw [if_neg (by simp; omega), if_neg fun hall => hlt (htail.mp hall).2]
      · rw [if_neg hnames, if_neg fun hall => hnames (htail.mp hall).1]
        rfl

/-- **The path of a chain is appended** exactly if the buffer is empty or ends in a
separator, and no name but the first has 255 bytes. -/
theorem buildPath_eq_iff {d : VirtualAddress} {names : List (List UInt8)}
    (h : linux.HoldsPath d names) (buf : List UInt8) :
    (∀ fuel, names.length < fuel → linux.buildPath fuel d buf = .ok (buf ++ pathOf names))
      ↔ (buf = [] ∨ buf.getLast? = some 47) ∧ ∀ name ∈ names.tail, name.length < 255 := by
  constructor
  · intro hall
    have hok := hall (names.length + 1) (Nat.lt_succ_self _)
    rw [h.buildPath_eq (Nat.lt_succ_self _)] at hok
    split at hok
    · next hnames =>
      refine ⟨?_, hnames⟩
      by_contra hne
      push Not at hne
      rw [separated_eq_concat hne.1 hne.2] at hok
      have hlen := congrArg List.length (Except.ok.inj hok)
      simp at hlen
    · cases hok
  · rintro ⟨hbuf, hnames⟩ fuel hfuel
    have hsep : separated buf = buf := by
      obtain rfl | hlast := hbuf
      · rfl
      · exact separated_eq_self hlast
    rw [h.buildPath_eq hfuel, if_pos hnames, hsep]

/-! ## A guest -/

/-- A guest with two files in a directory `a` of the root: one is `b`, the name of the
other has 255 bytes. -/
def twoFiles : Linux (DumbDump RawMemory) where
  backend := .ofWords ([0x83,
    8, 72,
    8, 328,
    24, 584,
    24, 840] ++ 0x2f :: List.replicate 31 0 ++ 0x61 :: List.replicate 31 0
      ++ 0x62 :: List.replicate 31 0
      ++ List.replicate 31 0x6161616161616161 ++ [0x61616161616161])
  layouts := fun _ => some fun field => if field = "d_name" then some 8 else some 0
  kpgd := 0

/-- A name that is read whole, also where one byte less is read. -/
theorem holdsName_of_reads {d : VirtualAddress} {name : List UInt8}
    (qstrAddr ptr : VirtualAddress) (rest : List UInt8)
    (hfield : Pointer.field linux.layouts d (dentry "d_name") = .ok qstrAddr)
    (hptr : linux.readField Layout.u64 qstrAddr (qstr "name") = .ok ptr)
    (hlen : (name ++ 0 :: rest).length = 256)
    (h256 : linux.readKernelMemory ptr 256 = .ok (name ++ 0 :: rest))
    (h255 : linux.readKernelMemory ptr 255 = .ok ((name ++ 0 :: rest).take 255)) :
    linux.HoldsName d name := by
  refine ⟨qstrAddr, ptr, rest, hfield, hptr, hlen, fun len hle hle' => ?_⟩
  obtain rfl | rfl : len = 255 ∨ len = 256 := by omega
  · exact h255
  · rw [h256, List.take_of_length_le hlen.le]

/-- Its directory. -/
theorem holdsPath_directory : twoFiles.HoldsPath 24 [[97]] := by
  have hroot : twoFiles.HoldsName 8 [47] :=
    holdsName_of_reads 16 72 (List.replicate 254 0) (by decide +kernel) (by decide +kernel)
      (by decide +kernel) (by decide +kernel) (by decide +kernel)
  have hdirectory : twoFiles.HoldsName 24 [97] :=
    holdsName_of_reads 32 328 (List.replicate 254 0) (by decide +kernel) (by decide +kernel)
      (by decide +kernel) (by decide +kernel) (by decide +kernel)
  exact .child (by decide +kernel) (by decide) (.root (by decide +kernel) hroot) hdirectory
    ⟨by decide, by decide, by decide⟩

/-- The path of the first file. -/
theorem buildPath_shortName : twoFiles.buildPath 3 40 [] = .ok [47, 97, 47, 98] := by
  have hname : twoFiles.HoldsName 40 [98] :=
    holdsName_of_reads 48 584 (List.replicate 254 0) (by decide +kernel) (by decide +kernel)
      (by decide +kernel) (by decide +kernel) (by decide +kernel)
  have hpath : twoFiles.HoldsPath 40 [[97], [98]] :=
    .child (by decide +kernel) (by decide) holdsPath_directory hname
      ⟨by decide, by decide, by decide⟩
  exact (buildPath_eq_iff hpath []).mpr ⟨Or.inl rfl, by decide⟩ 3 (by decide)

/-- **A name of 255 bytes** there is not read to its end. -/
theorem not_buildPath_longName :
    twoFiles.HoldsPath 56 [[97], List.replicate 255 97]
      ∧ twoFiles.buildPath 3 56 [] = Exec.panicked := by
  have hname : twoFiles.HoldsName 56 (List.replicate 255 97) :=
    holdsName_of_reads 64 840 [] (by decide +kernel) (by decide +kernel) (by decide +kernel)
      (by decide +kernel) (by decide +kernel)
  have hpath : twoFiles.HoldsPath 56 [[97], List.replicate 255 97] :=
    .child (by decide +kernel) (by decide) holdsPath_directory hname
      ⟨by decide +kernel, by decide +kernel, by decide +kernel⟩
  refine ⟨hpath, ?_⟩
  rw [hpath.buildPath_eq (by decide), if_neg (by decide +kernel)]

end Linux
