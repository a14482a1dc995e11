import Vminer.DwarfCells

/-!
# The calls of the recursions

Neither of the two recursions that `fill` starts keeps track of where it has been:
`get_type` and `classify_type` follow the references, and `collect_fields_into` the
anonymous members. `Calls` says which calls a call makes. It makes one only when it has
got past the calls before it, so the members that come first have to be collected, and
the sums of their offsets to fit.

A call ends exactly if the calls that it makes do. The cells do not get in the way: a
type that is in a cell is not resolved again, but then the references of its entry end
(`Settled`). Only finitely many calls can be reached from `fill`, so they are finite in
number exactly if they do not run into a cycle.

A typedef of itself runs into a cycle, as soon as a member has its type. So does a
structure that is an anonymous member of itself at the offset zero; at another one its
members are further away in each round, and the sum that does not fit any more is a
panic (`runsIntoCycle_calls_iff`).
-/

namespace Dwarf

/-! ## The calls -/

/-- **A call** of one of the functions. -/
inductive Call where
  | fill
  | collectFieldsInto (baseOffset : U64) (s : DwarfStruct)
  | getType (offset : UnitOffset)

/-- The structure or union that an anonymous member stands for, by the offset of its
type. -/
def TypeList.structAt (types : TypeList) (offset : UnitOffset) : Option DwarfStruct :=
  (types.findByOffset offset).bind fun p => p.2.dwarfType.members

/-- **A member that is got past**: its offset fits, the references of its type do not
run into a cycle, and the members inside are got past as well. -/
inductive Passed (types : TypeList) : U64 → FieldOffset × Option String × UnitOffset → Prop
  | bits {base offset : U64} {name : Option String} {typ : UnitOffset} :
    Passed types base (.Bits offset, name, typ)
  | named {base offset : U64} {name : String} {typ : UnitOffset}
      (fits : base.toNat + offset.toNat < 2 ^ 64) (ends : ¬ RunsIntoCycle types.RefersTo typ) :
    Passed types base (.Bytes offset, some name, typ)
  | other {base offset : U64} {typ : UnitOffset} (fits : base.toNat + offset.toNat < 2 ^ 64)
      (find : types.structAt typ = none) : Passed types base (.Bytes offset, none, typ)
  | inside {base offset : U64} {typ : UnitOffset} {s : DwarfStruct}
      (fits : base.toNat + offset.toNat < 2 ^ 64) (find : types.structAt typ = some s)
      (members : ∀ field ∈ s.fields, Passed types (base + offset) field) :
    Passed types base (.Bytes offset, none, typ)

/-- A structure with a name, which `fill` collects, is got past with its members. -/
def TypeEntry.Passed (types : TypeList) (e : TypeEntry) : Prop :=
  ∀ name s, e.name = some name → e.dwarfType = .Struct s →
    ∀ field ∈ s.fields, Dwarf.Passed types 0 field

/-- **The calls that a call makes.** -/
inductive Calls (types : TypeList) : Call → Call → Prop
  | collects {front rest : TypeList} {e : TypeEntry} {name : String} {s : DwarfStruct}
      (split : types = front ++ e :: rest) (hname : e.name = some name)
      (struct : e.dwarfType = .Struct s) (passed : ∀ e' ∈ front, e'.Passed types) :
    Calls types .fill (.collectFieldsInto 0 s)
  | named {base offset : U64} {s : DwarfStruct}
      {front rest : List (FieldOffset × Option String × UnitOffset)} {name : String}
      {typ : UnitOffset} (split : s.fields = front ++ (.Bytes offset, some name, typ) :: rest)
      (passed : ∀ field ∈ front, Passed types base field)
      (fits : base.toNat + offset.toNat < 2 ^ 64) :
    Calls types (.collectFieldsInto base s) (.getType typ)
  | inside {base offset : U64} {s s' : DwarfStruct}
      {front rest : List (FieldOffset × Option String × UnitOffset)} {typ : UnitOffset}
      (split : s.fields = front ++ (.Bytes offset, none, typ) :: rest)
      (passed : ∀ field ∈ front, Passed types base field)
      (fits : base.toNat + offset.toNat < 2 ^ 64) (find : types.structAt typ = some s') :
    Calls types (.collectFieldsInto base s) (.collectFieldsInto (base + offset) s')
  | reference {offset target : UnitOffset} (h : types.RefersTo offset target) :
    Calls types (.getType offset) (.getType target)

/-! ## Resolving a type -/

/-- The entry of an offset refers to another one, and its cell is empty. -/
def TypeList.Follows (types : TypeList) (cells : Cells) (offset target : UnitOffset) : Prop :=
  ∃ i e f, types.findByOffset offset = some (i, e) ∧ cells i = none
    ∧ e.reference = some (target, f)

/-- **The references of an offset end.** -/
def TypeList.ReferencesEnd (types : TypeList) (offset : UnitOffset) : Prop :=
  Acc (fun q p => types.RefersTo p q) offset

/-- **The references of the entries with a type in their cells end.** -/
def Settled (types : TypeList) (cells : Cells) : Prop :=
  CellsHold types (fun offset _ => types.ReferencesEnd offset) cells

section GetType

variable {types : TypeList} {cells cells' : Cells} {offset target : UnitOffset} {i : ℕ}
  {e : TypeEntry} {f : Option Symbols.TypeKind → Option Symbols.TypeKind}

/-- An offset refers to one other only. -/
theorem TypeList.RefersTo.eq_of_reference (h : types.RefersTo offset target) {target' : UnitOffset}
    (hfind : types.findByOffset offset = some (i, e)) (href : e.reference = some (target', f)) :
    target = target' := by
  obtain ⟨i', e', f', hfind', href'⟩ := h
  obtain ⟨rfl, rfl⟩ := Prod.mk.inj (Option.some.inj (hfind.symm.trans hfind'))
  exact (Prod.mk.inj (Option.some.inj (href'.symm.trans href))).1

/-- That the references end is a relation that follows them. -/
theorem followsReferences_referencesEnd (types : TypeList) :
    FollowsReferences types fun offset _ => types.ReferencesEnd offset where
  missing hfind := by
    refine ⟨_, ?_⟩
    rintro q ⟨i, e, f, hfind', -⟩
    cases hfind.symm.trans hfind'
  own hfind href := by
    refine ⟨_, ?_⟩
    rintro q ⟨i, e, f, hfind', href'⟩
    obtain ⟨rfl, rfl⟩ := Prod.mk.inj (Option.some.inj (hfind.symm.trans hfind'))
    cases href.symm.trans href'
  follow hfind href hends := by
    refine ⟨_, fun q hq => ?_⟩
    rw [hq.eq_of_reference hfind href]
    exact hends

/-- Fill the cell of an entry, if it has a type. -/
def fillCell (i : ℕ) : Option Symbols.TypeKind × Cells → Option Symbols.TypeKind × Cells
  | (none, cells) => (none, cells)
  | (some ty, cells) => (some ty, Function.update cells i (some ty))

theorem getType_succ (hfind : types.findByOffset offset = some (i, e)) (cells : Cells) (n : ℕ) :
    types.getType (n + 1) offset cells
      = TypeList.takeOrClassify (types.getType n) i e cells >>= fun res =>
        .ok (fillCell i res) := by
  rw [TypeList.getType, hfind]
  dsimp only
  congr 1
  funext res
  obtain ⟨ty, cells'⟩ := res
  cases ty with
  | none => rfl
  | some ty => rfl

/-- Where nothing is followed, the type is there at once. -/
theorem exists_getType_succ (h : ∀ target, ¬ types.Follows cells offset target) :
    ∃ res, ∀ n, types.getType (n + 1) offset cells = .ok res := by
  cases hfind : types.findByOffset offset with
  | none =>
    refine ⟨(none, cells), fun n => ?_⟩
    rw [TypeList.getType, hfind]
    rfl
  | some p =>
    obtain ⟨i, e⟩ := p
    simp only [getType_succ hfind, TypeList.takeOrClassify]
    cases hcell : cells i with
    | some ty => exact ⟨_, fun n => rfl⟩
    | none =>
      cases href : e.reference with
      | some p => exact absurd ⟨i, e, p.2, hfind, hcell, href⟩ (h p.1)
      | none =>
        simp only [classifyType_eq, href]
        exact ⟨_, fun n => rfl⟩

/-- The type of another one is resolved first, with the same cells. -/
theorem getType_succ_of_reference (hfind : types.findByOffset offset = some (i, e))
    (hcell : cells i = none) (href : e.reference = some (target, f)) (n : ℕ) :
    types.getType (n + 1) offset cells
      = types.getType n target cells >>= fun res => .ok (fillCell i (f res.1, res.2)) := by
  have hsame : Function.update cells i none = cells := by
    rw [← hcell, Function.update_eq_self]
  rw [getType_succ hfind, TypeList.takeOrClassify, hcell, hsame]
  dsimp only
  rw [classifyType_eq, href]
  exact bind_assoc _ _ _

/-- **`get_type` follows the references** of the entries with empty cells. -/
theorem followsLinks_getType (types : TypeList) (cells : Cells) :
    FollowsLinks (types.Follows cells) fun n offset (_ : Unit) =>
      types.getType n offset cells where
  zero _ _ := rfl
  stop offset _ hstop := by
    obtain ⟨res, hres⟩ := exists_getType_succ hstop
    exact ⟨.ok res, Exec.ok_ne_outOfFuel res, hres⟩
  next offset _ target h := by
    obtain ⟨i, e, f, hfind, hcell, href⟩ := h
    refine ⟨(), fun r => r >>= fun res => .ok (fillCell i (f res.1, res.2)), fun r => ?_,
      getType_succ_of_reference hfind hcell href⟩
    refine ⟨fun heq => ?_, fun heq => by rw [heq]; rfl⟩
    by_contra hne
    exact Exec.bind_ne_outOfFuel hne (fun _ _ => Exec.ok_ne_outOfFuel _) heq

/-- The references that are followed end exactly if all of them do. -/
theorem Settled.acc_follows_iff (h : Settled types cells) (offset : UnitOffset) :
    Acc (fun q p => types.Follows cells p q) offset ↔ types.ReferencesEnd offset := by
  constructor
  · intro hacc
    induction hacc with
    | intro offset _ ih =>
      refine ⟨offset, ?_⟩
      rintro target ⟨i, e, f, hfind, href⟩
      cases hcell : cells i with
      | none => exact ih target ⟨i, e, f, hfind, hcell, href⟩
      | some ty =>
        obtain ⟨he, rfl⟩ := getElem?_of_findByOffset hfind
        exact (h i e ty he hcell).inv ⟨i, e, f, hfind, href⟩
  · refine Subrelation.accessible ?_
    rintro q p ⟨i, e, f, hfind, -, href⟩
    exact ⟨i, e, f, hfind, href⟩

/-- It never panics. -/
theorem exists_getType_of_ne_outOfFuel {n : ℕ}
    (hne : types.getType n offset cells ≠ Exec.outOfFuel) :
    ∃ res, types.getType n offset cells = .ok res := by
  induction n generalizing offset with
  | zero => exact absurd rfl hne
  | succ n ih =>
    by_cases hlink : ∃ target, types.Follows cells offset target
    · obtain ⟨target, i, e, f, hfind, hcell, href⟩ := hlink
      rw [getType_succ_of_reference hfind hcell href] at hne ⊢
      obtain ⟨res, hres⟩ := ih fun heq => hne (by rw [heq]; rfl)
      rw [hres]
      exact ⟨_, rfl⟩
    · obtain ⟨res, hres⟩ := exists_getType_succ (not_exists.mp hlink)
      exact ⟨res, hres n⟩

/-- **Where the references end, `get_type` does.** -/
theorem ends_getType (hcells : Settled types cells) (h : types.ReferencesEnd offset) :
    Ends fun n => types.getType n offset cells :=
  (followsLinks_getType types cells).ends_of_acc ((hcells.acc_follows_iff offset).mpr h) ()

/-- **And only there.** -/
theorem referencesEnd_of_ne_outOfFuel (hcells : Settled types cells) {n : ℕ}
    (hne : types.getType n offset cells ≠ Exec.outOfFuel) : types.ReferencesEnd offset :=
  (hcells.acc_follows_iff offset).mp
    (FollowsLinks.acc_of_ne_outOfFuel (followsLinks_getType types cells) n (s := ()) hne)

/-- Then the cells are left settled. -/
theorem Settled.getType (hcells : Settled types cells) {n : ℕ} {r : Option Symbols.TypeKind}
    (h : types.getType n offset cells = .ok (r, cells')) : Settled types cells' :=
  ((followsReferences_referencesEnd types).getType n hcells h).2

end GetType

/-! ## Collecting the members -/

section Collect

variable {types : TypeList} {base : U64} {st st' : Collected} {n : ℕ}

/-- A named member has its type resolved. -/
theorem collectField_named (into : U64 → DwarfStruct → Collected → Exec Empty Collected)
    (offset : U64) (name : String) (typ : UnitOffset) :
    collectField types n into base st (.Bytes offset, some name, typ)
      = checkedAdd base offset >>= fun offset => types.getType n typ st.2 >>= fun res =>
        .ok (st.1 ++ [⟨name, offset, res.1.getD .Unknown⟩], res.2) := rfl

/-- An anonymous one has the members inside collected. -/
theorem collectField_anonymous (into : U64 → DwarfStruct → Collected → Exec Empty Collected)
    (offset : U64) (typ : UnitOffset) :
    collectField types n into base st (.Bytes offset, none, typ)
      = checkedAdd base offset >>= fun offset =>
        match types.structAt typ with
        | some s => into offset s st
        | none => .ok st := by
  rw [TypeList.structAt]
  unfold collectField
  dsimp only
  congr 1
  funext offset
  cases types.findByOffset typ with
  | none => rfl
  | some p =>
    dsimp only [Option.bind_some]
    cases p.2.dwarfType.members with
    | none => rfl
    | some s => rfl

/-- **A member that is collected is got past**, and the cells are left settled. -/
theorem passed_of_collectField
    {into : U64 → DwarfStruct → Collected → Exec Empty Collected}
    (hinto : ∀ {base s st st'}, Settled types st.2 → into base s st = .ok st' →
      (∀ field ∈ s.fields, Passed types base field) ∧ Settled types st'.2)
    {field : FieldOffset × Option String × UnitOffset} (hcells : Settled types st.2)
    (h : collectField types n into base st field = .ok st') :
    Passed types base field ∧ Settled types st'.2 := by
  obtain ⟨offset, name, typ⟩ := field
  cases offset with
  | Bits offset =>
    obtain rfl := Except.ok.inj h
    exact ⟨.bits, hcells⟩
  | Bytes offset =>
    cases name with
    | some name =>
      rw [collectField_named] at h
      obtain ⟨sum, hsum, h⟩ := (Exec.bind_eq_ok_iff _ _ _).mp h
      obtain ⟨fits, rfl⟩ := (checkedAdd_eq_ok_iff _ _ _).mp hsum
      obtain ⟨⟨r, cells'⟩, hget, h⟩ := (Exec.bind_eq_ok_iff _ _ _).mp h
      obtain rfl := Except.ok.inj h
      have hends := referencesEnd_of_ne_outOfFuel hcells (hget ▸ Exec.ok_ne_outOfFuel _)
      exact ⟨.named fits (acc_refersTo_iff.mp hends), hcells.getType hget⟩
    | none =>
      rw [collectField_anonymous] at h
      obtain ⟨sum, hsum, h⟩ := (Exec.bind_eq_ok_iff _ _ _).mp h
      obtain ⟨fits, rfl⟩ := (checkedAdd_eq_ok_iff _ _ _).mp hsum
      cases hfind : types.structAt typ with
      | none =>
        rw [hfind] at h
        obtain rfl := Except.ok.inj h
        exact ⟨.other fits hfind, hcells⟩
      | some s =>
        rw [hfind] at h
        obtain ⟨hmembers, hcells'⟩ := hinto hcells h
        exact ⟨.inside fits hfind hmembers, hcells'⟩

/-- So are the members that come one after the other. -/
theorem passed_of_foldlM
    {collect : Collected → FieldOffset × Option String × UnitOffset → Exec Empty Collected}
    (hcollect : ∀ {st st' field}, Settled types st.2 → collect st field = .ok st' →
      Passed types base field ∧ Settled types st'.2)
    {fields : List (FieldOffset × Option String × UnitOffset)} (hcells : Settled types st.2)
    (h : fields.foldlM collect st = .ok st') :
    (∀ field ∈ fields, Passed types base field) ∧ Settled types st'.2 := by
  refine Exec.foldlM_eq_ok_induct (P := fun front st =>
    (∀ field ∈ front, Passed types base field) ∧ Settled types st.2) ?_
    ⟨List.forall_mem_nil _, hcells⟩ h
  rintro front field rest st st' - ⟨hfront, hcells⟩ hst'
  obtain ⟨hfield, hcells'⟩ := hcollect hcells hst'
  exact ⟨List.forall_mem_append.mpr ⟨hfront, List.forall_mem_singleton.mpr hfield⟩, hcells'⟩

/-- So are all members of a structure. -/
theorem passed_of_collectFieldsInto {s : DwarfStruct} (hcells : Settled types st.2)
    (h : collectFieldsInto types n base s st = .ok st') :
    (∀ field ∈ s.fields, Passed types base field) ∧ Settled types st'.2 := by
  induction n generalizing base s st st' with
  | zero => cases h
  | succ n ih => exact passed_of_foldlM (passed_of_collectField ih) hcells h

/-- Members that are all got past are collected one after the other. -/
theorem exists_foldlM
    {collect : Collected → FieldOffset × Option String × UnitOffset → Exec Empty Collected}
    {fields : List (FieldOffset × Option String × UnitOffset)}
    (hcollect : ∀ field ∈ fields, ∀ {st : Collected}, Settled types st.2 →
      collect st field ≠ Exec.outOfFuel → ∃ st', collect st field = .ok st' ∧ Settled types st'.2)
    (hcells : Settled types st.2) (hne : fields.foldlM collect st ≠ Exec.outOfFuel) :
    ∃ st', fields.foldlM collect st = .ok st' ∧ Settled types st'.2 := by
  induction fields generalizing st with
  | nil => exact ⟨st, rfl, hcells⟩
  | cons field fields ih =>
    rw [List.foldlM_cons] at hne ⊢
    obtain ⟨hfield, hfields⟩ := List.forall_mem_cons.mp hcollect
    obtain ⟨st₁, hst₁, hcells₁⟩ := hfield hcells fun heq => hne (by rw [heq]; rfl)
    rw [hst₁, Exec.ok_bind] at hne ⊢
    exact ih hfields hcells₁ hne

/-- **To get past a member** takes no panic. -/
theorem Passed.exists_collectField {field : FieldOffset × Option String × UnitOffset}
    (h : Passed types base field) (hcells : Settled types st.2)
    (hne : collectField types n (collectFieldsInto types n) base st field ≠ Exec.outOfFuel) :
    ∃ st', collectField types n (collectFieldsInto types n) base st field = .ok st'
      ∧ Settled types st'.2 := by
  suffices hok : ∃ st', collectField types n (collectFieldsInto types n) base st field = .ok st' by
    obtain ⟨st', hst'⟩ := hok
    exact ⟨st', hst', (passed_of_collectField passed_of_collectFieldsInto hcells hst').2⟩
  induction h generalizing st n with
  | bits => exact ⟨st, rfl⟩
  | named fits _ =>
    rw [collectField_named, checkedAdd_eq_ok fits, Exec.ok_bind] at hne ⊢
    obtain ⟨res, hres⟩ := exists_getType_of_ne_outOfFuel fun heq => hne (by rw [heq]; rfl)
    rw [hres]
    exact ⟨_, rfl⟩
  | other fits find =>
    rw [collectField_anonymous, checkedAdd_eq_ok fits, find]
    exact ⟨st, rfl⟩
  | @inside base offset typ s fits find members ih =>
    rw [collectField_anonymous, checkedAdd_eq_ok fits, find, Exec.ok_bind] at hne ⊢
    cases n with
    | zero => exact absurd rfl hne
    | succ n =>
      obtain ⟨st', hst', -⟩ := exists_foldlM (fun field hfield st hcells hne => by
        obtain ⟨st', hst'⟩ := ih field hfield hcells hne
        exact ⟨st', hst', (passed_of_collectField passed_of_collectFieldsInto hcells hst').2⟩)
        hcells hne
      exact ⟨st', hst'⟩

/-- So are all members of a structure. -/
theorem exists_collectFieldsInto {s : DwarfStruct}
    (h : ∀ field ∈ s.fields, Passed types base field) (hcells : Settled types st.2)
    (hne : collectFieldsInto types n base s st ≠ Exec.outOfFuel) :
    ∃ st', collectFieldsInto types n base s st = .ok st' ∧ Settled types st'.2 := by
  cases n with
  | zero => exact absurd rfl hne
  | succ n =>
    exact exists_foldlM (fun field hfield _ hcells hne =>
      (h field hfield).exists_collectField hcells hne) hcells hne

end Collect

/-! ## From the end of a call to the end of its calls -/

section Calls

variable {types : TypeList} {base : U64} {s : DwarfStruct} {st : Collected} {n : ℕ}
  {offset : UnitOffset}

/-- A call of `get_type` makes only calls of `get_type`. -/
theorem acc_calls_getType_iff :
    Acc (fun c' c => Calls types c c') (.getType offset) ↔ types.ReferencesEnd offset := by
  constructor
  · intro hacc
    have hsub := InvImage.accessible Call.getType hacc
    exact Subrelation.accessible (fun h => .reference h) hsub
  · intro hacc
    induction hacc with
    | intro offset _ ih =>
      refine ⟨_, fun c hc => ?_⟩
      cases hc with
      | reference h => exact ih _ h

/-- **The collection of a structure ends only where the calls it makes do.** -/
theorem acc_calls_of_collectFieldsInto (hcells : Settled types st.2)
    (hne : collectFieldsInto types n base s st ≠ Exec.outOfFuel) :
    Acc (fun c' c => Calls types c c') (.collectFieldsInto base s) := by
  induction n generalizing base s st with
  | zero => exact absurd rfl hne
  | succ n ih =>
    -- the member at which a call is made is come to with settled cells
    have hmember : ∀ front field rest, s.fields = front ++ field :: rest →
        (∀ field ∈ front, Passed types base field) → ∃ st : Collected, Settled types st.2
          ∧ collectField types n (collectFieldsInto types n) base st field ≠ Exec.outOfFuel := by
      intro front field rest hsplit hpassed
      rw [collectFieldsInto, hsplit, List.foldlM_append] at hne
      obtain ⟨st', hst', hcells'⟩ := exists_foldlM
        (fun field hfield _ hcells hne => (hpassed field hfield).exists_collectField hcells hne)
        hcells fun heq => hne (by rw [heq]; rfl)
      rw [hst', Exec.ok_bind, List.foldlM_cons] at hne
      exact ⟨st', hcells', fun heq => hne (by rw [heq]; rfl)⟩
    refine ⟨_, fun c hc => ?_⟩
    cases hc with
    | named split passed fits =>
      obtain ⟨st', hcells', hne'⟩ := hmember _ _ _ split passed
      rw [collectField_named, checkedAdd_eq_ok fits, Exec.ok_bind] at hne'
      exact acc_calls_getType_iff.mpr
        (referencesEnd_of_ne_outOfFuel hcells' fun heq => hne' (by rw [heq]; rfl))
    | inside split passed fits find =>
      obtain ⟨st', hcells', hne'⟩ := hmember _ _ _ split passed
      rw [collectField_anonymous, checkedAdd_eq_ok fits, find, Exec.ok_bind] at hne'
      exact ih hcells' hne'

/-- **Where they do, it does.** -/
theorem ends_collectFieldsInto
    (hgetType : ∀ offset, Calls types (.collectFieldsInto base s) (.getType offset) →
      types.ReferencesEnd offset)
    (hinside : ∀ base' s', Calls types (.collectFieldsInto base s) (.collectFieldsInto base' s') →
      ∀ st : Collected, Settled types st.2 → Ends fun n => collectFieldsInto types n base' s' st)
    (hcells : Settled types st.2) : Ends fun n => collectFieldsInto types n base s st := by
  refine Ends.of_succ ?_
  suffices hfold : ∀ rest front, s.fields = front ++ rest →
      (∀ field ∈ front, Passed types base field) → ∀ st : Collected, Settled types st.2 →
      Ends fun n => rest.foldlM (collectField types n (collectFieldsInto types n) base) st from
    hfold s.fields [] rfl (List.forall_mem_nil _) st hcells
  intro rest
  induction rest with
  | nil => exact fun _ _ _ st _ => ends_const (Exec.ok_ne_outOfFuel st)
  | cons field rest ih =>
    intro front hsplit hpassed st hcells
    simp only [List.foldlM_cons]
    refine Ends.bind ?_ fun n st' hst' => ?_
    · obtain ⟨offset, name, typ⟩ := field
      cases offset with
      | Bits offset => exact ends_const (Exec.ok_ne_outOfFuel st)
      | Bytes offset =>
        cases name with
        | some name =>
          simp only [collectField_named]
          refine (ends_bind_iff (checkedAdd_ne_outOfFuel _ _) _).mpr fun sum hsum => ?_
          obtain ⟨fits, rfl⟩ := (checkedAdd_eq_ok_iff _ _ _).mp hsum
          exact (ends_getType hcells (hgetType typ (.named hsplit hpassed fits))).bind
            fun _ _ _ => ends_const (Exec.ok_ne_outOfFuel _)
        | none =>
          simp only [collectField_anonymous]
          refine (ends_bind_iff (checkedAdd_ne_outOfFuel _ _) _).mpr fun sum hsum => ?_
          obtain ⟨fits, rfl⟩ := (checkedAdd_eq_ok_iff _ _ _).mp hsum
          cases hfind : types.structAt typ with
          | none => exact ends_const (Exec.ok_ne_outOfFuel st)
          | some s' => exact hinside _ s' (.inside hsplit hpassed fits hfind) st hcells
    · obtain ⟨hfield, hcells'⟩ := passed_of_collectField passed_of_collectFieldsInto hcells hst'
      refine ih (front ++ [field]) (by rw [hsplit, List.append_assoc]; rfl) ?_ st' hcells'
      exact List.forall_mem_append.mpr ⟨hpassed, List.forall_mem_singleton.mpr hfield⟩

/-- **Where only finitely many calls follow**, the collection of a structure ends. -/
theorem ends_collectFieldsInto_of_acc
    (hacc : Acc (fun c' c => Calls types c c') (.collectFieldsInto base s))
    (hcells : Settled types st.2) : Ends fun n => collectFieldsInto types n base s st := by
  generalize hcall : Call.collectFieldsInto base s = call at hacc
  induction hacc generalizing base s st with
  | intro call hacc ih =>
    subst hcall
    exact ends_collectFieldsInto (fun offset h => acc_calls_getType_iff.mp (hacc _ h))
      (fun base' s' h st hcells => ih _ h hcells rfl) hcells

end Calls

/-! ## The calls of `fill` -/

section Reach

/-- A call on structures and offsets of some lists. -/
def Call.IsOn (structs : List DwarfStruct) (offsets : List UnitOffset) : Call → Prop
  | .fill => True
  | .collectFieldsInto _ s => s ∈ structs
  | .getType offset => offset ∈ offsets

/-- There are only finitely many of them. -/
theorem finite_isOn (structs : List DwarfStruct) (offsets : List UnitOffset) :
    {c | Call.IsOn structs offsets c}.Finite := by
  have hcollect := (Set.finite_univ (α := U64)).prod structs.finite_toSet
  refine ((Set.finite_singleton Call.fill).union ((hcollect.image fun p =>
    Call.collectFieldsInto p.1 p.2).union (offsets.finite_toSet.image Call.getType))).subset ?_
  intro c hc
  cases c with
  | fill => exact .inl rfl
  | collectFieldsInto base s => exact .inr (.inl ⟨(base, s), ⟨trivial, hc⟩, rfl⟩)
  | getType offset => exact .inr (.inr ⟨offset, hc, rfl⟩)

/-- **Finitely many calls can be reached from `fill`.** -/
theorem finite_calls (types : TypeList) :
    {c | Relation.ReflTransGen (Calls types) .fill c}.Finite := by
  let structs := types.filterMap fun e => e.dwarfType.members
  let offsets := (types.filterMap fun e => e.reference.map Prod.fst)
    ++ structs.flatMap fun s => s.fields.map fun field => field.2.2
  refine (finite_isOn structs offsets).subset fun c hc => ?_
  induction hc with
  | refl => trivial
  | @tail call next _ hcall ih =>
    cases hcall with
    | @collects front rest e name s split hname struct passed =>
      refine List.mem_filterMap.mpr ⟨e, split ▸ List.mem_append_cons_self, ?_⟩
      rw [struct]
      rfl
    | @named base offset s front rest name typ split passed fits =>
      refine List.mem_append_right _ (List.mem_flatMap.mpr ⟨s, ih, List.mem_map.mpr ?_⟩)
      exact ⟨_, split ▸ List.mem_append_cons_self, rfl⟩
    | @inside base offset s s' front rest typ split passed fits find =>
      obtain ⟨⟨i, e⟩, hfind, hmembers⟩ := Option.bind_eq_some_iff.mp find
      exact List.mem_filterMap.mpr ⟨e, (mem_of_findByOffset hfind).1, hmembers⟩
    | @reference offset target h =>
      obtain ⟨i, e, f, hfind, href⟩ := h
      refine List.mem_append_left _ (List.mem_filterMap.mpr ⟨e, (mem_of_findByOffset hfind).1, ?_⟩)
      rw [href]
      rfl

end Reach

/-! ## What a cycle of calls is -/

section Cycles

variable {types : TypeList}

/-- Nothing calls `fill`. -/
theorem not_transGen_calls_fill {c : Call} : ¬ Relation.TransGen (Calls types) c .fill := by
  intro h
  obtain ⟨c', -, hcall⟩ := Relation.TransGen.tail'_iff.mp h
  cases hcall

/-- From a type only types are resolved. -/
theorem transGen_refersTo_of_calls {offset : UnitOffset} {c : Call}
    (h : Relation.TransGen (Calls types) (.getType offset) c) :
    ∃ target, c = .getType target ∧ Relation.TransGen types.RefersTo offset target := by
  induction h with
  | single hcall =>
    cases hcall with
    | reference h => exact ⟨_, rfl, .single h⟩
  | tail _ hcall ih =>
    obtain ⟨target, rfl, hwalk⟩ := ih
    cases hcall with
    | reference h => exact ⟨_, rfl, hwalk.tail h⟩

/-- **A structure is in another one at its beginning**: as an anonymous member at the offset
zero. -/
def BeginsWith (types : TypeList) (base : U64) (s s' : DwarfStruct) : Prop :=
  ∃ front typ rest, s.fields = front ++ (.Bytes 0, none, typ) :: rest
    ∧ (∀ field ∈ front, Passed types base field) ∧ types.structAt typ = some s'

theorem BeginsWith.calls {base : U64} {s s' : DwarfStruct} (h : BeginsWith types base s s') :
    Calls types (.collectFieldsInto base s) (.collectFieldsInto base s') := by
  obtain ⟨front, typ, rest, split, passed, find⟩ := h
  have hcall := Calls.inside split passed (show base.toNat + 0 < 2 ^ 64 from base.isLt) find
  rwa [show base + 0 = base from BitVec.add_zero base] at hcall

/-- A structure inside is further away, or at the beginning. -/
theorem beginsWith_of_calls {base base' : U64} {s s' : DwarfStruct}
    (h : Calls types (.collectFieldsInto base s) (.collectFieldsInto base' s')) :
    base.toNat ≤ base'.toNat ∧ (base = base' → BeginsWith types base s s') := by
  generalize hcall : Call.collectFieldsInto base' s' = call at h
  cases h with
  | @inside base offset s s₁ front rest typ split passed fits find =>
    obtain ⟨rfl, rfl⟩ := Call.collectFieldsInto.inj hcall
    have hsum := toNat_add_of_lt fits
    refine ⟨by omega, fun heq => ?_⟩
    obtain rfl : offset = 0 := by
      rw [← heq] at hsum
      exact BitVec.eq_of_toNat_eq (show offset.toNat = 0 by omega)
    exact ⟨front, typ, rest, split, passed, find⟩
  | _ => cases hcall

/-- So is one that is further inside. -/
theorem transGen_beginsWith_of_calls {base base' : U64} {s s' : DwarfStruct}
    (h : Relation.TransGen (Calls types) (.collectFieldsInto base s)
      (.collectFieldsInto base' s')) :
    base.toNat ≤ base'.toNat
      ∧ (base = base' → Relation.TransGen (BeginsWith types base) s s') := by
  generalize hc : Call.collectFieldsInto base' s' = c at h
  induction h generalizing base' s' with
  | single hcall =>
    subst hc
    obtain ⟨hle, hsame⟩ := beginsWith_of_calls hcall
    exact ⟨hle, fun heq => .single (hsame heq)⟩
  | @tail b c hwalk hcall ih =>
    subst hc
    cases b with
    | fill => exact absurd hwalk not_transGen_calls_fill
    | getType offset => cases hcall
    | collectFieldsInto base₁ s₁ =>
      obtain ⟨hle, hsame⟩ := ih rfl
      obtain ⟨hle', hsame'⟩ := beginsWith_of_calls hcall
      refine ⟨hle.trans hle', ?_⟩
      rintro rfl
      obtain rfl : base = base₁ := BitVec.eq_of_toNat_eq (hle.antisymm hle')
      exact (hsame rfl).tail (hsame' rfl)

/-- **The calls of `fill` run into a cycle** where it comes to a type whose references lead
back to it, or to a structure that is in itself, at its beginning. -/
theorem runsIntoCycle_calls_iff :
    RunsIntoCycle (Calls types) .fill
      ↔ (∃ offset, Relation.ReflTransGen (Calls types) .fill (.getType offset)
          ∧ Relation.TransGen types.RefersTo offset offset)
        ∨ ∃ base s, Relation.ReflTransGen (Calls types) .fill (.collectFieldsInto base s)
          ∧ Relation.TransGen (BeginsWith types base) s s := by
  constructor
  · rintro ⟨c, hreach, hcycle⟩
    cases c with
    | fill => exact absurd hcycle not_transGen_calls_fill
    | getType offset =>
      obtain ⟨target, heq, hwalk⟩ := transGen_refersTo_of_calls hcycle
      cases heq
      exact .inl ⟨offset, hreach, hwalk⟩
    | collectFieldsInto base s =>
      exact .inr ⟨base, s, hreach, (transGen_beginsWith_of_calls hcycle).2 rfl⟩
  · rintro (⟨offset, hreach, hwalk⟩ | ⟨base, s, hreach, hwalk⟩)
    · exact ⟨_, hreach, hwalk.lift Call.getType fun _ _ => .reference⟩
    · exact ⟨_, hreach, hwalk.lift (Call.collectFieldsInto base) fun _ _ => BeginsWith.calls⟩

end Cycles

end Dwarf
