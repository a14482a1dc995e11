import Vminer.DwarfResolution
import Vminer.LinkWalk

/-!
# The cells of the entries

`get_type` remembers the type of an entry in a cell: the cell is emptied, the type is
resolved if there was none, which goes on to the cells of other entries, and the cell is
filled. Other calls may have left anything behind that they found.

Where the references do not lead back, that makes no difference. Every call, whatever the
calls before it were, returns what a resolution without the cells comes to; and at no
moment does a cell hold anything but the type of its entry (`getType_coherent`).
-/

namespace Dwarf

/-! ## References -/

/-- **An offset refers to another one**: an entry is found there that is a pointer, a
typedef or an array. -/
def TypeList.RefersTo (types : TypeList) (offset target : UnitOffset) : Prop :=
  ∃ i e f, types.findByOffset offset = some (i, e) ∧ e.reference = some (target, f)

/-- No reference leads back. -/
def TypeList.Acyclic (types : TypeList) : Prop :=
  ∀ offset, ¬ Relation.TransGen types.RefersTo offset offset

/-- **Resolution without the cells**: an entry is classified each time it is come
to. -/
def TypeList.resolve (types : TypeList) : ℕ → UnitOffset → Exec Empty (Option Symbols.TypeKind)
  | 0, _ => Exec.outOfFuel
  | fuel + 1, offset =>
    match types.findByOffset offset with
    | none => return none
    | some (_, typ) => do
      let (ty, _) ← classifyType (fun offset cells => do
        let ty ← resolve types fuel offset
        return (ty, cells)) typ fun _ => none
      return ty

/-- What it comes to, with enough steps. -/
def TypeList.ResolvesTo (types : TypeList) (offset : UnitOffset) (r : Option Symbols.TypeKind) :
    Prop :=
  ∃ n, ∀ fuel, n ≤ fuel → types.resolve fuel offset = .ok r

section References

variable {types : TypeList} {offset : UnitOffset}

/-- Only finitely many offsets are referred to. -/
theorem finite_refersTo (types : TypeList) (offset : UnitOffset) :
    {target | Relation.ReflTransGen types.RefersTo offset target}.Finite := by
  let targets := types.filterMap fun e => e.reference.map Prod.fst
  refine (offset :: targets).finite_toSet.subset fun target h => ?_
  obtain rfl | ⟨p, -, i, e, f, hfind, href⟩ := h.cases_tail
  · exact List.mem_cons_self
  · refine List.mem_cons_of_mem _ (List.mem_filterMap.mpr ⟨e, (mem_of_findByOffset hfind).1, ?_⟩)
    rw [href]
    rfl

/-- **The references from an offset are finite** exactly if they do not run into a
cycle. -/
theorem acc_refersTo_iff :
    Acc (fun q p => types.RefersTo p q) offset ↔ ¬ RunsIntoCycle types.RefersTo offset :=
  acc_iff_of_finite_reach (finite_refersTo types offset)

theorem TypeList.Acyclic.acc (h : types.Acyclic) (offset : UnitOffset) :
    Acc (fun q p => types.RefersTo p q) offset :=
  acc_refersTo_iff.mpr fun ⟨p, _, hcycle⟩ => h p hcycle

/-- **Finite references resolve.** -/
theorem exists_resolves (hs : types.Sorted) (hacc : Acc (fun q p => types.RefersTo p q) offset) :
    ∃ r, Resolves types offset r := by
  induction hacc with
  | intro offset _ ih =>
    cases hfind : types.findByOffset offset with
    | none => exact ⟨none, .missing (hs.findByOffset_eq_none_iff.mp hfind)⟩
    | some p =>
      obtain ⟨i, e⟩ := p
      obtain ⟨he, rfl⟩ := mem_of_findByOffset hfind
      cases href : e.reference with
      | none => exact ⟨_, .own he href⟩
      | some p =>
        obtain ⟨target, f⟩ := p
        obtain ⟨r, hr⟩ := ih target ⟨i, e, f, hfind, href⟩
        exact ⟨_, .follow he href hr⟩

/-- **Resolution without the cells** comes to what the reference resolves to. -/
theorem Resolves.resolvesTo (hs : types.Sorted) {r : Option Symbols.TypeKind}
    (h : Resolves types offset r) : types.ResolvesTo offset r := by
  induction h with
  | missing h =>
    refine ⟨1, fun fuel hfuel => ?_⟩
    obtain ⟨fuel, rfl⟩ := Nat.exists_eq_add_of_le' hfuel
    rw [TypeList.resolve, hs.findByOffset_eq_none_iff.mpr h]
    rfl
  | @own e he href =>
    refine ⟨1, fun fuel hfuel => ?_⟩
    obtain ⟨fuel, rfl⟩ := Nat.exists_eq_add_of_le' hfuel
    obtain ⟨i, hi⟩ := List.mem_iff_getElem?.mp he
    rw [TypeList.resolve, hs.findByOffset_eq_some_iff.mpr ⟨hi, rfl⟩]
    dsimp only
    rw [classifyType_eq, href]
    rfl
  | @follow e target f r he href _ ih =>
    obtain ⟨n, hn⟩ := ih
    refine ⟨n + 1, fun fuel hfuel => ?_⟩
    obtain ⟨fuel, rfl⟩ := Nat.exists_eq_add_of_le' (Nat.le_of_add_left_le hfuel)
    obtain ⟨i, hi⟩ := List.mem_iff_getElem?.mp he
    rw [TypeList.resolve, hs.findByOffset_eq_some_iff.mpr ⟨hi, rfl⟩]
    dsimp only
    rw [classifyType_eq, href]
    dsimp only
    rw [hn fuel (by omega)]
    rfl

/-- It comes to one type only. -/
theorem TypeList.ResolvesTo.unique {r r' : Option Symbols.TypeKind}
    (h : types.ResolvesTo offset r) (h' : types.ResolvesTo offset r') : r = r' := by
  obtain ⟨n, hn⟩ := h
  obtain ⟨n', hn'⟩ := h'
  exact Except.ok.inj ((hn _ (le_max_left n n')).symm.trans (hn' _ (le_max_right n n')))

/-- **The resolution as it is meant is the one without the cells.** -/
theorem TypeList.Acyclic.resolvesTo_iff (hs : types.Sorted) (h : types.Acyclic)
    {r : Option Symbols.TypeKind} : types.ResolvesTo offset r ↔ Resolves types offset r := by
  refine ⟨fun hr => ?_, fun hr => hr.resolvesTo hs⟩
  obtain ⟨r', hr'⟩ := exists_resolves hs (h.acc offset)
  obtain rfl := hr.unique (hr'.resolvesTo hs)
  exact hr'

end References

/-! ## The cells on the way -/

/-- **The cells at a moment of a call** of `get_type`: at its beginning, when the cell of
the entry has been emptied, during the call for the entry that this one refers to, and
at its end. -/
inductive PassesThrough (types : TypeList) : UnitOffset → Cells → Cells → Prop
  | start {offset : UnitOffset} {cells : Cells} : PassesThrough types offset cells cells
  | taken {offset : UnitOffset} {cells : Cells} {i : ℕ} {e : TypeEntry}
      (hfind : types.findByOffset offset = some (i, e)) :
      PassesThrough types offset cells (Function.update cells i none)
  | inside {offset target : UnitOffset} {cells cells' : Cells} {i : ℕ} {e : TypeEntry}
      {f : Option Symbols.TypeKind → Option Symbols.TypeKind}
      (hfind : types.findByOffset offset = some (i, e)) (hcell : cells i = none)
      (href : e.reference = some (target, f))
      (h : PassesThrough types target (Function.update cells i none) cells') :
      PassesThrough types offset cells cells'
  | done {offset : UnitOffset} {cells cells' : Cells} {fuel : ℕ} {r : Option Symbols.TypeKind}
      (h : types.getType fuel offset cells = .ok (r, cells')) :
      PassesThrough types offset cells cells'

/-- **The cells after some calls** of `get_type`, from the empty ones on. -/
inductive AfterCalls (types : TypeList) : Cells → Prop
  | none : AfterCalls types fun _ => none
  | call {offset : UnitOffset} {cells cells' : Cells} {fuel : ℕ} {r : Option Symbols.TypeKind}
      (h : AfterCalls types cells) (hcall : types.getType fuel offset cells = .ok (r, cells')) :
      AfterCalls types cells'

section Cells

variable {types : TypeList} {cells cells' : Cells} {offset : UnitOffset}

/-- Empty cells hold nothing wrong. -/
theorem coherent_empty (types : TypeList) : Coherent types fun _ => none :=
  fun _ _ _ _ h => nomatch h

/-- **At no moment of a call** does a cell hold anything but the type of its entry. -/
theorem PassesThrough.coherent (hs : types.Sorted) (h : PassesThrough types offset cells cells')
    (hcells : Coherent types cells) : Coherent types cells' := by
  induction h with
  | start => exact hcells
  | taken hfind => exact hcells.update_none _
  | inside hfind hcell href _ ih => exact ih (hcells.update_none _)
  | @done offset cells cells' fuel r h => exact (getType_sound hs fuel hcells h).2

/-- Nor after any calls. -/
theorem AfterCalls.coherent (hs : types.Sorted) (h : AfterCalls types cells) :
    Coherent types cells := by
  induction h with
  | none => exact coherent_empty types
  | @call offset cells cells' fuel r _ hcall ih => exact (getType_sound hs fuel ih hcall).2

/-- A pointer to something unknown is a pointer, a typedef or an array of it is
unknown, and so is a structure or a union without a name. -/
def UnknownTypes (types : TypeList) : Prop :=
  ∀ e ∈ types, match e.dwarfType with
    | .Ptr (some target) => types.ResolvesTo target none →
      types.ResolvesTo e.offset (some (.Pointer .Unknown))
    | .Typedef target => types.ResolvesTo target none → types.ResolvesTo e.offset none
    | .Array target _ => types.ResolvesTo target none → types.ResolvesTo e.offset none
    | .Struct _ => e.name = none → types.ResolvesTo e.offset none
    | .Union _ => e.name = none → types.ResolvesTo e.offset none
    | _ => True

theorem TypeList.Acyclic.unknownTypes (hs : types.Sorted) (h : types.Acyclic) :
    UnknownTypes types := by
  rintro ⟨offset, name, dwarfType⟩ he
  simp only [h.resolvesTo_iff hs]
  cases dwarfType with
  | Ptr target =>
    cases target with
    | none => trivial
    | some target => exact fun h => .follow he rfl h
  | Typedef target => exact fun h => .follow he rfl h
  | Array target size => exact fun h => .follow he rfl h
  | Struct s =>
    rintro rfl
    exact .own he rfl
  | Union s =>
    rintro rfl
    exact .own he rfl
  | _ => trivial

/-- **Remembering types makes no difference.** In a list whose entries follow each other
and whose references do not lead back, each call of `get_type`, after any others, returns
what a resolution without the cells does; and at each moment of it each cell is empty or
holds the type of its entry. What that resolution returns is the type a reference is meant
to have. -/
theorem getType_coherent (types : TypeList) (hs : types.Sorted) (hacyclic : types.Acyclic) :
    (∀ cells, AfterCalls types cells → ∀ offset, ∃ r, types.ResolvesTo offset r
      ∧ ∃ n, ∀ fuel, n ≤ fuel → ∃ cells', types.getType fuel offset cells = .ok (r, cells'))
    ∧ (∀ cells offset cells', AfterCalls types cells → PassesThrough types offset cells cells' →
      ∀ i e, types[i]? = some e → cells' i = none ∨ types.ResolvesTo e.offset (cells' i))
    ∧ UnknownTypes types
    ∧ ∀ offset r, types.ResolvesTo offset r ↔ Resolves types offset r := by
  refine ⟨fun cells hcells offset => ?_, ?_, hacyclic.unknownTypes hs,
    fun _ _ => hacyclic.resolvesTo_iff hs⟩
  · obtain ⟨r, hr⟩ := exists_resolves hs (hacyclic.acc offset)
    obtain ⟨n, hn⟩ := exists_getType hs hr
    refine ⟨r, hr.resolvesTo hs, n, fun fuel hfuel => ?_⟩
    obtain ⟨⟨r', cells'⟩, hget⟩ := hn fuel hfuel cells
    have hr' := (getType_sound hs fuel (hcells.coherent hs) hget).1
    obtain rfl := (hr.resolvesTo hs).unique (hr'.resolvesTo hs)
    exact ⟨cells', hget⟩
  · intro cells offset cells' hcells hpass i e he
    have hcoherent := hpass.coherent hs (hcells.coherent hs)
    cases hcell : cells' i with
    | none => exact .inl rfl
    | some ty => exact .inr ((hcoherent i e ty he hcell).resolvesTo hs)

/-- An integer, a pointer and a typedef that share it, and an array of what is not
there. -/
def sharedTypes : TypeList :=
  [⟨1, some "int", .Primitive ⟨4, true⟩⟩, ⟨2, none, .Ptr (some 1)⟩, ⟨3, some "t", .Typedef 1⟩,
    ⟨4, none, .Array 9 3⟩]

theorem acyclic_sharedTypes : sharedTypes.Acyclic := by
  -- what is referred to refers to nothing
  have hlast : ∀ p q, sharedTypes.RefersTo p q → ∀ q', ¬ sharedTypes.RefersTo q q' := by
    rintro p q ⟨i, e, f, hfind, href⟩ q' ⟨j, e', f', hfind', href'⟩
    have hq : q = 1 ∨ q = 9 := by
      obtain rfl | rfl | rfl | rfl : _ ∨ _ ∨ _ ∨ _ := by
        simpa [sharedTypes] using (mem_of_findByOffset hfind).1
      · cases href
      · exact .inl (Prod.mk.inj (Option.some.inj href)).1.symm
      · exact .inl (Prod.mk.inj (Option.some.inj href)).1.symm
      · exact .inr (Prod.mk.inj (Option.some.inj href)).1.symm
    obtain rfl | rfl := hq
    · have hone : sharedTypes.findByOffset 1 = some (0, ⟨1, some "int", .Primitive ⟨4, true⟩⟩) :=
        rfl
      obtain ⟨rfl, rfl⟩ := Prod.mk.inj (Option.some.inj (hone.symm.trans hfind'))
      cases href'
    · have hnone : sharedTypes.findByOffset 9 = none := rfl
      cases hnone.symm.trans hfind'
  intro offset hcycle
  obtain ⟨q, hlink, hrest⟩ := Relation.TransGen.head'_iff.mp hcycle
  obtain rfl | ⟨q', hnext, -⟩ := hrest.cases_head
  · exact hlast _ _ hlink _ hlink
  · exact hlast _ _ hlink _ hnext

/-- **The pointer is resolved first, and then the typedef** from what that left. -/
theorem getType_coherent_sharedTypes :
    ∃ cells, AfterCalls sharedTypes cells ∧ cells 0 = some (.Primitive .I32)
      ∧ Resolves sharedTypes 3 (some (.Primitive .I32))
      ∧ ∃ n, ∀ fuel, n ≤ fuel → ∃ cells',
        sharedTypes.getType fuel 3 cells = .ok (some (.Primitive .I32), cells') := by
  have hpointer : ∃ r cells, sharedTypes.getType 2 2 (fun _ => none) = .ok (r, cells)
      ∧ cells 0 = some (.Primitive .I32) := ⟨_, _, rfl, rfl⟩
  obtain ⟨_, cells, hcall, hcell⟩ := hpointer
  obtain ⟨hcalls, -, -, hresolves⟩ := getType_coherent sharedTypes
    (by unfold TypeList.Sorted; decide) acyclic_sharedTypes
  have hint : Resolves sharedTypes 3 (some (.Primitive .I32)) :=
    .follow (e := ⟨3, some "t", .Typedef 1⟩) (by simp [sharedTypes]) rfl
      (.own (e := ⟨1, some "int", .Primitive ⟨4, true⟩⟩) (by simp [sharedTypes]) rfl)
  obtain ⟨r, hr, hget⟩ := hcalls cells (.call .none hcall) 3
  obtain rfl := hr.unique ((hresolves _ _).mpr hint)
  exact ⟨cells, .call .none hcall, hcell, hint, hget⟩

end Cells

end Dwarf
