import Vminer.Dwarf

/-!
# What a type reference resolves to

`Resolves` is the resolution of a reference as it is meant, without the cells: the
entry with the offset is looked up, and where it refers to another one – a pointer, a
typedef or an array – that is resolved first. Not every reference has a resolution, as
an entry may lead back to itself.

What `get_type` returns is what the reference resolves to, and what it leaves in the
cells is as well (`getType_sound`); and where a reference has a resolution, it returns
(`exists_getType`).
-/

namespace Dwarf

/-! ## The meaning of a reference -/

/-- The entries of a unit follow each other. -/
def TypeList.Sorted (types : TypeList) : Prop :=
  types.Pairwise fun e e' => e.offset < e'.offset

namespace TypeEntry

/-- What an entry refers to, and what becomes of the type found there. A pointer to
something unknown is a pointer, while a typedef and an array of it are unknown. -/
def reference (e : TypeEntry) :
    Option (UnitOffset × (Option Symbols.TypeKind → Option Symbols.TypeKind)) :=
  match e.dwarfType with
  | .Ptr (some offset) => some (offset, fun inner => some (.Pointer (inner.getD .Unknown)))
  | .Typedef offset => some (offset, id)
  | .Array offset size => some (offset, Option.map fun inner => .Array inner size)
  | _ => none

/-- The type of an entry that refers to no other. A structure or union without a name
has none. -/
def ownType (e : TypeEntry) : Option Symbols.TypeKind :=
  match e.dwarfType with
  | .Primitive base => some base.toPrimitive
  | .Struct _ => e.name.map .Struct
  | .StructDeclaration => e.name.map .Struct
  | .Union _ => e.name.map .Union
  | .Ptr none => some (.Pointer .Unknown)
  | .Function => some .Function
  | _ => none

end TypeEntry

/-- **What a reference resolves to**. -/
inductive Resolves (types : TypeList) : UnitOffset → Option Symbols.TypeKind → Prop
  | missing {offset : UnitOffset} (h : ∀ e ∈ types, e.offset ≠ offset) :
      Resolves types offset none
  | own {e : TypeEntry} (he : e ∈ types) (href : e.reference = none) :
      Resolves types e.offset e.ownType
  | follow {e : TypeEntry} {offset : UnitOffset}
      {f : Option Symbols.TypeKind → Option Symbols.TypeKind} {r : Option Symbols.TypeKind}
      (he : e ∈ types) (href : e.reference = some (offset, f)) (h : Resolves types offset r) :
      Resolves types e.offset (f r)

/-- The cells hold what the references resolve to. -/
def Coherent (types : TypeList) (cells : Cells) : Prop :=
  ∀ i e ty, types[i]? = some e → cells i = some ty → Resolves types e.offset (some ty)

section Lookup

variable {types : TypeList} {offset : UnitOffset} {i : ℕ} {e : TypeEntry}

/-- An entry that is found is at its place in the list, and has the offset. -/
theorem getElem?_of_findByOffset (h : types.findByOffset offset = some (i, e)) :
    types[i]? = some e ∧ e.offset = offset := by
  unfold TypeList.findByOffset at h
  cases hres : binarySearchByKey (m := Id) TypeEntry.offset offset types with
  | error _ =>
    rw [hres] at h
    cases h
  | ok j =>
    obtain ⟨x, hx, hoffset⟩ := binarySearchByKey_ok hres
    rw [hres] at h
    obtain ⟨rfl, rfl⟩ : j = i ∧ x = e := by simpa [hx] using h
    exact ⟨hx, hoffset⟩

theorem mem_of_findByOffset (h : types.findByOffset offset = some (i, e)) :
    e ∈ types ∧ e.offset = offset := by
  obtain ⟨hi, hoffset⟩ := getElem?_of_findByOffset h
  exact ⟨List.mem_of_getElem? hi, hoffset⟩

/-- **An entry is found by its offset.** -/
theorem TypeList.Sorted.findByOffset_eq_some_iff (hs : types.Sorted) :
    types.findByOffset offset = some (i, e) ↔ types[i]? = some e ∧ e.offset = offset := by
  have hsearch := isSearchResult_binarySearchByKey TypeEntry.offset
    (hs.imp fun h => h.le) offset
  unfold TypeList.findByOffset
  cases hres : binarySearchByKey (m := Id) TypeEntry.offset offset types with
  | ok j =>
    rw [hres] at hsearch
    obtain ⟨x, hx, hoffset⟩ := hsearch
    simp only [hx, Option.map_some, Option.some.injEq, Prod.mk.injEq]
    constructor
    · rintro ⟨rfl, rfl⟩
      exact ⟨hx, hoffset⟩
    · rintro ⟨hi, he⟩
      -- no two entries have the same offset
      obtain ⟨hilt, hi⟩ := List.getElem?_eq_some_iff.mp hi
      obtain ⟨hjlt, hj⟩ := List.getElem?_eq_some_iff.mp hx
      obtain hlt | heq | hgt := lt_trichotomy j i
      · have := List.pairwise_iff_getElem.mp hs j i hjlt hilt hlt
        rw [hi, hj, he, hoffset] at this
        exact absurd this (lt_irrefl _)
      · subst heq
        exact ⟨rfl, hj.symm.trans hi⟩
      · have := List.pairwise_iff_getElem.mp hs i j hilt hjlt hgt
        rw [hi, hj, he, hoffset] at this
        exact absurd this (lt_irrefl _)
  | error j =>
    rw [hres] at hsearch
    obtain ⟨-, hside⟩ := hsearch
    refine iff_of_false (fun h => nomatch h) ?_
    rintro ⟨hi, rfl⟩
    obtain hlt | hle := lt_or_ge i j
    · exact absurd ((hside i e hi).1 hlt) (lt_irrefl _)
    · exact absurd ((hside i e hi).2 hle) (lt_irrefl _)

/-- **Or there is none with it.** -/
theorem TypeList.Sorted.findByOffset_eq_none_iff (hs : types.Sorted) :
    types.findByOffset offset = none ↔ ∀ e ∈ types, e.offset ≠ offset := by
  constructor
  · rintro h e he rfl
    obtain ⟨i, hi⟩ := List.mem_iff_getElem?.mp he
    rw [(hs.findByOffset_eq_some_iff (i := i)).mpr ⟨hi, rfl⟩] at h
    cases h
  · intro h
    cases hfind : types.findByOffset offset with
    | none => rfl
    | some p =>
      obtain ⟨hi, hoffset⟩ := hs.findByOffset_eq_some_iff.mp hfind
      exact absurd hoffset (h _ (List.mem_of_getElem? hi))

/-- No two entries have the same offset. -/
theorem TypeList.Sorted.eq_of_offset_eq (hs : types.Sorted) {e' : TypeEntry} (he : e ∈ types)
    (he' : e' ∈ types) (h : e'.offset = e.offset) : e' = e := by
  obtain ⟨i, hi⟩ := List.mem_iff_getElem?.mp he
  obtain ⟨j, hj⟩ := List.mem_iff_getElem?.mp he'
  have hfind := (hs.findByOffset_eq_some_iff (i := i)).mpr ⟨hi, rfl⟩
  have hfind' := (hs.findByOffset_eq_some_iff (i := j)).mpr ⟨hj, h⟩
  exact (Prod.mk.inj (Option.some.inj (hfind'.symm.trans hfind))).2

end Lookup

/-! ## What `get_type` returns -/

section GetType

variable {types : TypeList}

/-- A type is classified by what it refers to, or by itself. -/
theorem classifyType_eq
    (getType : UnitOffset → Cells → Exec Empty (Option Symbols.TypeKind × Cells))
    (e : TypeEntry) (cells : Cells) :
    TypeList.classifyType getType e cells
      = match e.reference with
        | some (offset, f) => do
          let (inner, cells) ← getType offset cells
          return (f inner, cells)
        | none => return (e.ownType, cells) := by
  unfold TypeList.classifyType TypeEntry.reference TypeEntry.ownType
  rcases e with ⟨_, name, dwarfType⟩
  cases dwarfType with
  | Ptr offset => cases offset <;> rfl
  | Typedef offset => exact (bind_pure _).symm
  | Primitive _ => rfl
  | Struct _ => rfl
  | StructDeclaration => rfl
  | Union _ => rfl
  | Array _ _ => rfl
  | Function => rfl

/-- The cells hold what some relation gives the entries. -/
def CellsHold (types : TypeList) (P : UnitOffset → Option Symbols.TypeKind → Prop)
    (cells : Cells) : Prop :=
  ∀ i e ty, types[i]? = some e → cells i = some ty → P e.offset (some ty)

/-- **A relation that follows the references**, from what they lead to back to where they
begin. -/
structure FollowsReferences (types : TypeList)
    (P : UnitOffset → Option Symbols.TypeKind → Prop) : Prop where
  missing : ∀ {offset}, types.findByOffset offset = none → P offset none
  own : ∀ {offset i e}, types.findByOffset offset = some (i, e) → e.reference = none →
    P offset e.ownType
  follow : ∀ {offset i e target f r}, types.findByOffset offset = some (i, e) →
    e.reference = some (target, f) → P target r → P offset (f r)

section CellsHold

variable {P : UnitOffset → Option Symbols.TypeKind → Prop} {cells cells' : Cells} {i : ℕ}
  {e : TypeEntry} {offset : UnitOffset} {r : Option Symbols.TypeKind}

/-- Emptying a cell changes nothing for the others. -/
theorem CellsHold.update_none (h : CellsHold types P cells) (i : ℕ) :
    CellsHold types P (Function.update cells i none) := by
  intro j e ty he hty
  by_cases hij : j = i
  · subst hij
    rw [Function.update_self] at hty
    cases hty
  · rw [Function.update_of_ne hij] at hty
    exact h j e ty he hty

/-- Nor does filling it with what the entry is given. -/
theorem CellsHold.update_some (h : CellsHold types P cells) (he : types[i]? = some e)
    {ty : Symbols.TypeKind} (hty : P e.offset (some ty)) :
    CellsHold types P (Function.update cells i (some ty)) := by
  intro j e' ty' he' hty'
  by_cases hij : j = i
  · subst hij
    rw [Function.update_self] at hty'
    obtain rfl := Option.some.inj hty'
    obtain rfl := Option.some.inj (he.symm.trans he')
    exact hty
  · rw [Function.update_of_ne hij] at hty'
    exact h j e' ty' he' hty'

/-- The type of an entry, from its cell or classified, is one that it is given. -/
theorem FollowsReferences.takeOrClassify (hP : FollowsReferences types P)
    {getType : UnitOffset → Cells → Exec Empty (Option Symbols.TypeKind × Cells)}
    (hget : ∀ {offset cells cells' r}, CellsHold types P cells →
      getType offset cells = .ok (r, cells') → P offset r ∧ CellsHold types P cells')
    (hfind : types.findByOffset offset = some (i, e)) (hcells : CellsHold types P cells)
    (h : TypeList.takeOrClassify getType i e cells = .ok (r, cells')) :
    P offset r ∧ CellsHold types P cells' := by
  obtain ⟨he, rfl⟩ := getElem?_of_findByOffset hfind
  unfold TypeList.takeOrClassify at h
  dsimp only at h
  cases hcell : cells i with
  | some ty =>
    rw [hcell] at h
    obtain ⟨rfl, rfl⟩ := Prod.mk.inj (Except.ok.inj h)
    exact ⟨hcells i e ty he hcell, hcells.update_none i⟩
  | none =>
    rw [hcell] at h
    dsimp only at h
    rw [classifyType_eq] at h
    cases href : e.reference with
    | none =>
      rw [href] at h
      obtain ⟨rfl, rfl⟩ := Prod.mk.inj (Except.ok.inj h)
      exact ⟨hP.own hfind href, hcells.update_none i⟩
    | some p =>
      obtain ⟨target, f⟩ := p
      rw [href] at h
      obtain ⟨⟨inner, cells₁⟩, hinner, h⟩ := (Exec.bind_eq_ok_iff _ _ _).mp h
      obtain ⟨rfl, rfl⟩ := Prod.mk.inj (Except.ok.inj h)
      obtain ⟨hres, hcells'⟩ := hget (hcells.update_none i) hinner
      exact ⟨hP.follow hfind href hres, hcells'⟩

/-- **What `get_type` returns is given to its offset** by every relation that follows the
references, and so is what it leaves in the cells. -/
theorem FollowsReferences.getType (hP : FollowsReferences types P) (fuel : ℕ)
    (hcells : CellsHold types P cells) (h : types.getType fuel offset cells = .ok (r, cells')) :
    P offset r ∧ CellsHold types P cells' := by
  induction fuel generalizing offset cells cells' r with
  | zero => cases h
  | succ fuel ih =>
    rw [TypeList.getType] at h
    cases hfind : types.findByOffset offset with
    | none =>
      rw [hfind] at h
      obtain ⟨rfl, rfl⟩ := Prod.mk.inj (Except.ok.inj h)
      exact ⟨hP.missing hfind, hcells⟩
    | some p =>
      obtain ⟨i, e⟩ := p
      rw [hfind] at h
      obtain ⟨⟨ty, cells₁⟩, htake, h⟩ := (Exec.bind_eq_ok_iff _ _ _).mp h
      obtain ⟨hres, hcells₁⟩ := hP.takeOrClassify ih hfind hcells htake
      obtain ⟨he, rfl⟩ := getElem?_of_findByOffset hfind
      cases ty with
      | none =>
        obtain ⟨rfl, rfl⟩ := Prod.mk.inj (Except.ok.inj h)
        exact ⟨hres, hcells₁⟩
      | some ty =>
        obtain ⟨rfl, rfl⟩ := Prod.mk.inj (Except.ok.inj h)
        exact ⟨hres, hcells₁.update_some he hres⟩

end CellsHold

/-- Emptying a cell keeps the cells coherent. -/
theorem Coherent.update_none {cells : Cells} (h : Coherent types cells) (i : ℕ) :
    Coherent types (Function.update cells i none) := CellsHold.update_none h i

/-- Resolution follows the references. -/
theorem TypeList.Sorted.followsReferences (hs : types.Sorted) :
    FollowsReferences types (Resolves types) where
  missing hfind := .missing (hs.findByOffset_eq_none_iff.mp hfind)
  own hfind href := by
    obtain ⟨he, rfl⟩ := mem_of_findByOffset hfind
    exact .own he href
  follow hfind href hr := by
    obtain ⟨he, rfl⟩ := mem_of_findByOffset hfind
    exact .follow he href hr

/-- **What `get_type` returns is what the reference resolves to**, and so is what it
leaves in the cells. -/
theorem getType_sound (hs : types.Sorted) (fuel : ℕ) {offset : UnitOffset} {cells cells' : Cells}
    {r : Option Symbols.TypeKind} (hcells : Coherent types cells)
    (h : types.getType fuel offset cells = .ok (r, cells')) :
    Resolves types offset r ∧ Coherent types cells' :=
  hs.followsReferences.getType fuel hcells h

/-- Filling a cell does not fail. -/
theorem exists_getType_of_take {fuel : ℕ} {offset : UnitOffset} {i : ℕ} {e : TypeEntry}
    (hfind : types.findByOffset offset = some (i, e)) {cells : Cells}
    (h : ∃ res, TypeList.takeOrClassify (types.getType fuel) i e cells = .ok res) :
    ∃ res, types.getType (fuel + 1) offset cells = .ok res := by
  obtain ⟨⟨ty, cells'⟩, htake⟩ := h
  rw [TypeList.getType, hfind]
  dsimp only
  rw [htake, Exec.ok_bind]
  cases ty with
  | none => exact ⟨_, rfl⟩
  | some ty => exact ⟨_, rfl⟩

/-- **A reference that resolves is resolved**, within some number of steps. -/
theorem exists_getType (hs : types.Sorted) {offset : UnitOffset} {r : Option Symbols.TypeKind}
    (h : Resolves types offset r) :
    ∃ n, ∀ fuel, n ≤ fuel → ∀ cells, ∃ res, types.getType fuel offset cells = .ok res := by
  induction h with
  | missing h =>
    refine ⟨1, fun fuel hfuel cells => ?_⟩
    obtain ⟨fuel, rfl⟩ := Nat.exists_eq_add_of_le' hfuel
    rw [TypeList.getType, hs.findByOffset_eq_none_iff.mpr h]
    exact ⟨_, rfl⟩
  | @own e he href =>
    refine ⟨1, fun fuel hfuel cells => ?_⟩
    obtain ⟨fuel, rfl⟩ := Nat.exists_eq_add_of_le' hfuel
    obtain ⟨i, hi⟩ := List.mem_iff_getElem?.mp he
    refine exists_getType_of_take (hs.findByOffset_eq_some_iff.mpr ⟨hi, rfl⟩) ?_
    unfold TypeList.takeOrClassify
    dsimp only
    cases cells i with
    | some ty => exact ⟨_, rfl⟩
    | none =>
      dsimp only
      rw [classifyType_eq, href]
      exact ⟨_, rfl⟩
  | @follow e target f r he href _ ih =>
    obtain ⟨n, hn⟩ := ih
    refine ⟨n + 1, fun fuel hfuel cells => ?_⟩
    obtain ⟨fuel, rfl⟩ := Nat.exists_eq_add_of_le' (Nat.le_of_add_left_le hfuel)
    obtain ⟨i, hi⟩ := List.mem_iff_getElem?.mp he
    refine exists_getType_of_take (hs.findByOffset_eq_some_iff.mpr ⟨hi, rfl⟩) ?_
    unfold TypeList.takeOrClassify
    dsimp only
    cases cells i with
    | some ty => exact ⟨_, rfl⟩
    | none =>
      dsimp only
      rw [classifyType_eq, href]
      obtain ⟨⟨inner, cells'⟩, hinner⟩ := hn fuel (by omega) (Function.update cells i none)
      dsimp only
      rw [hinner]
      exact ⟨_, rfl⟩

end GetType

end Dwarf
