import Vminer.DwarfResolution

/-!
# Flattening a structure

The members of a structure, and those of the anonymous structures and unions in it, and
in these, are the fields of the structure. A member is reached along a path: the places
of the anonymous members on the way, and its own. Its offset is the sum of those along
the path, and the order of the declarations is the lexicographic one of the paths.

`collect_fields` gives the list of all named members that are reached, in this order
(`collectFields_flattens`), where the sums fit a word and the types of the members have
a resolution. It checks neither.
-/

namespace Dwarf

/-! ## Members and their paths -/

/-- **A member that is reached** along a path, at an offset. Bitfields are none. -/
inductive Reaches (types : TypeList) :
    DwarfStruct → List ℕ → ℕ → Option String → UnitOffset → Prop
  | here {s : DwarfStruct} {i : ℕ} {offset : U64} {name : Option String} {typ : UnitOffset}
      (h : s.fields[i]? = some (.Bytes offset, name, typ)) :
      Reaches types s [i] offset.toNat name typ
  | inside {s s' : DwarfStruct} {i : ℕ} {offset : U64} {e : TypeEntry} {path : List ℕ} {o : ℕ}
      {name : Option String} {typ : UnitOffset}
      (h : s.fields[i]? = some (.Bytes offset, none, e.offset)) (he : e ∈ types)
      (hs : e.dwarfType.members = some s') (hrest : Reaches types s' path o name typ) :
      Reaches types s (i :: path) (offset.toNat + o) name typ

/-- A structure or union that an anonymous member of another one stands for. -/
def Nests (types : TypeList) (s' s : DwarfStruct) : Prop :=
  ∃ (i : ℕ) (offset : U64) (e : TypeEntry),
    s.fields[i]? = some (.Bytes offset, none, e.offset) ∧ e ∈ types
      ∧ e.dwarfType.members = some s'

/-- **A named member** of a structure, with its path. -/
structure Member where
  path : List ℕ
  offset : ℕ
  name : String
  typ : UnitOffset

/-- It is reached in the structure. -/
def Member.Of (types : TypeList) (s : DwarfStruct) (m : Member) : Prop :=
  Reaches types s m.path m.offset (some m.name) m.typ

/-- **What is collected of a member**: its name, its offset from the base, and the type
that its reference resolves to. -/
structure IsField (types : TypeList) (base : ℕ) (m : Member) (f : Symbols.StructField) :
    Prop where
  name : f.name = m.name
  offset : f.offset.toNat = base + m.offset
  typ : ∃ r, Resolves types m.typ r ∧ f.typ = r.getD .Unknown

/-- The members of a structure whose paths begin at some places, in their order. -/
structure IsListingOn (types : TypeList) (s : DwarfStruct) (places : ℕ → Prop)
    (ms : List Member) : Prop where
  sorted : ms.Pairwise fun m m' => List.Lex (· < ·) m.path m'.path
  mem_iff : ∀ m, m ∈ ms ↔ m.Of types s ∧ ∃ i, m.path.head? = some i ∧ places i

/-- **The flattened fields of a structure**: one for each named member that is reached,
in the order of the declarations. -/
def Flattens (types : TypeList) (s : DwarfStruct) (fields : List Symbols.StructField) : Prop :=
  ∃ ms : List Member,
    ms.Pairwise (fun m m' => List.Lex (· < ·) m.path m'.path)
    ∧ (∀ m, m ∈ ms ↔ m.Of types s)
    ∧ List.Forall₂ (IsField types 0) ms fields

section Listing

variable {types : TypeList} {s : DwarfStruct}

/-- The path of a member begins at a place of the structure. -/
theorem Reaches.exists_head {path : List ℕ} {o : ℕ} {name : Option String} {typ : UnitOffset}
    (h : Reaches types s path o name typ) :
    ∃ i offset name' typ', path.head? = some i
      ∧ s.fields[i]? = some (.Bytes offset, name', typ') := by
  cases h with
  | here h => exact ⟨_, _, _, _, rfl, h⟩
  | inside h _ _ _ => exact ⟨_, _, _, _, rfl, h⟩

/-- The members at a place come before those at later ones. -/
theorem IsListingOn.append {k : ℕ} {ms ms' : List Member}
    (h : IsListingOn types s (· = k) ms) (h' : IsListingOn types s (k < ·) ms') :
    IsListingOn types s (k ≤ ·) (ms ++ ms') where
  sorted := by
    refine List.pairwise_append.mpr ⟨h.sorted, h'.sorted, fun m hm m' hm' => ?_⟩
    obtain ⟨-, i, hi, rfl⟩ := (h.mem_iff m).mp hm
    obtain ⟨-, j, hj, hlt⟩ := (h'.mem_iff m').mp hm'
    obtain ⟨p, hp⟩ := List.head?_eq_some_iff.mp hi
    obtain ⟨p', hp'⟩ := List.head?_eq_some_iff.mp hj
    rw [hp, hp']
    exact .rel hlt
  mem_iff m := by
    rw [List.mem_append, h.mem_iff, h'.mem_iff, ← and_or_left]
    refine and_congr_right fun _ => ?_
    constructor
    · rintro (⟨i, hi, rfl⟩ | ⟨i, hi, hlt⟩)
      · exact ⟨i, hi, le_rfl⟩
      · exact ⟨i, hi, hlt.le⟩
    · rintro ⟨i, hi, hle⟩
      obtain rfl | hlt := hle.eq_or_lt
      · exact Or.inl ⟨k, hi, rfl⟩
      · exact Or.inr ⟨i, hi, hlt⟩

/-- No member is reached at a place that holds none. -/
theorem isListingOn_nil {k : ℕ}
    (h : ∀ offset name typ, s.fields[k]? ≠ some (.Bytes offset, name, typ)) :
    IsListingOn types s (· = k) [] where
  sorted := .nil
  mem_iff m := by
    refine iff_of_false (by simp) ?_
    rintro ⟨hm, i, hi, rfl⟩
    obtain ⟨j, offset, name, typ, hj, hget⟩ := hm.exists_head
    obtain rfl := Option.some.inj (hi.symm.trans hj)
    exact h _ _ _ hget

/-- Nor at one of an anonymous member that is no structure or union. -/
theorem isListingOn_anonymous {k : ℕ} {offset : U64} {typ : UnitOffset}
    (h : s.fields[k]? = some (.Bytes offset, none, typ))
    (hnone : ∀ e ∈ types, e.offset = typ → e.dwarfType.members = none) :
    IsListingOn types s (· = k) [] where
  sorted := .nil
  mem_iff m := by
    refine iff_of_false (by simp) ?_
    rintro ⟨hm, i, hi, rfl⟩
    unfold Member.Of at hm
    rcases m with ⟨path, o, name, typ'⟩
    cases hm with
    | here hget =>
      obtain rfl := Option.some.inj hi
      rw [h] at hget
      cases hget
    | inside hget he hs hrest =>
      obtain rfl := Option.some.inj hi
      rw [h] at hget
      obtain ⟨-, heq⟩ : _ ∧ typ = _ := by simpa using hget
      rw [hnone _ he heq.symm] at hs
      cases hs

/-- A named member is the only one at its place. -/
theorem isListingOn_named {k : ℕ} {offset : U64} {name : String} {typ : UnitOffset}
    (h : s.fields[k]? = some (.Bytes offset, some name, typ)) :
    IsListingOn types s (· = k) [⟨[k], offset.toNat, name, typ⟩] where
  sorted := List.pairwise_singleton _ _
  mem_iff m := by
    rw [List.mem_singleton]
    constructor
    · rintro rfl
      exact ⟨.here h, k, rfl, rfl⟩
    · rintro ⟨hm, i, hi, rfl⟩
      unfold Member.Of at hm
      rcases m with ⟨path, o, name', typ'⟩
      cases hm with
      | here hget =>
        obtain rfl := Option.some.inj hi
        obtain ⟨rfl, rfl, rfl⟩ : _ ∧ _ ∧ _ := by simpa using h.symm.trans hget
        rfl
      | inside hget =>
        obtain rfl := Option.some.inj hi
        rw [h] at hget
        cases hget

/-- The members of a structure inside, seen from outside. -/
def Member.inside (k : ℕ) (offset : U64) (m : Member) : Member :=
  { m with path := k :: m.path, offset := offset.toNat + m.offset }

/-- **The members at the place of an anonymous one** are those of what it stands
for. -/
theorem isListingOn_inside {k : ℕ} {offset : U64} {e : TypeEntry} {s' : DwarfStruct}
    (h : s.fields[k]? = some (.Bytes offset, none, e.offset)) (he : e ∈ types)
    (hs' : e.dwarfType.members = some s')
    (hone : ∀ e' ∈ types, e'.offset = e.offset → e' = e) {ms : List Member}
    (hms : IsListingOn types s' (fun _ => True) ms) :
    IsListingOn types s (· = k) (ms.map (Member.inside k offset)) where
  sorted := List.pairwise_map.mpr (hms.sorted.imp fun hlex => .cons hlex)
  mem_iff m := by
    rw [List.mem_map]
    constructor
    · rintro ⟨m', hm', rfl⟩
      obtain ⟨hof, -⟩ := (hms.mem_iff m').mp hm'
      exact ⟨.inside h he hs' hof, k, rfl, rfl⟩
    · rintro ⟨hm, i, hi, rfl⟩
      unfold Member.Of at hm
      rcases m with ⟨path, o, name', typ'⟩
      cases hm with
      | here hget =>
        obtain rfl := Option.some.inj hi
        rw [h] at hget
        cases hget
      | @inside _ s'' i offset' e' path' o' _ _ hget he' hs'' hrest =>
        obtain rfl := Option.some.inj hi
        rw [h] at hget
        obtain ⟨rfl, heq⟩ : offset = offset' ∧ e.offset = e'.offset := by simpa using hget
        obtain rfl := hone e' he' heq.symm
        obtain rfl := Option.some.inj (hs'.symm.trans hs'')
        obtain ⟨j, _, _, _, hj, -⟩ := hrest.exists_head
        exact ⟨⟨path', o', name', typ'⟩, (hms.mem_iff _).mpr ⟨hrest, j, hj, trivial⟩, rfl⟩

end Listing

/-! ## What is collected -/

/-- **The members at some places are collected**: a field for each of them is added to
those that were collected before. -/
def Collects (types : TypeList) (s : DwarfStruct) (places : ℕ → Prop) (base : U64)
    (st st' : Collected) : Prop :=
  ∃ ms fs, st'.1 = st.1 ++ fs ∧ IsListingOn types s places ms
    ∧ List.Forall₂ (IsField types base.toNat) ms fs ∧ Coherent types st'.2

section Collect

variable {types : TypeList} {s : DwarfStruct} {base : U64} {st st' st'' : Collected}

/-- Nothing is collected where no member is. -/
theorem collects_nil {places : ℕ → Prop} (hcells : Coherent types st.2)
    (h : IsListingOn types s places []) : Collects types s places base st st :=
  ⟨[], [], (List.append_nil _).symm, h, .nil, hcells⟩

/-- What is collected at a place and then at the later ones. -/
theorem Collects.trans {k : ℕ} (h : Collects types s (· = k) base st st')
    (h' : Collects types s (k < ·) base st' st'') : Collects types s (k ≤ ·) base st st'' := by
  obtain ⟨ms, fs, hfs, hms, hfields, -⟩ := h
  obtain ⟨ms', fs', hfs', hms', hfields', hcells⟩ := h'
  exact ⟨ms ++ ms', fs ++ fs', by rw [hfs', hfs, List.append_assoc], hms.append hms',
    List.rel_append hfields hfields', hcells⟩

/-- **What collecting a member can do**: nothing, add the field of a named one, or collect those
of the structure that an anonymous one stands for. -/
inductive CollectStep (types : TypeList) (fuel : ℕ)
    (collectFieldsInto : U64 → DwarfStruct → Collected → Exec Empty Collected) (base : U64)
    (st : Collected) : FieldOffset × Option String × UnitOffset → Collected → Prop where
  | bits {offset : U64} {name : Option String} {typ : UnitOffset} :
    CollectStep types fuel collectFieldsInto base st (.Bits offset, name, typ) st
  | named {offset : U64} {name : String} {typ : UnitOffset} {r : Option Symbols.TypeKind}
      {cells : Cells}
      (fits : base.toNat + offset.toNat < 2 ^ 64)
      (getType : types.getType fuel typ st.2 = .ok (r, cells)) :
    CollectStep types fuel collectFieldsInto base st (.Bytes offset, some name, typ)
      (st.1 ++ [⟨name, base + offset, r.getD .Unknown⟩], cells)
  | missing {offset : U64} {typ : UnitOffset} (find : types.findByOffset typ = none) :
    CollectStep types fuel collectFieldsInto base st (.Bytes offset, none, typ) st
  | plain {offset : U64} {typ : UnitOffset} {i : ℕ} {e : TypeEntry}
      (find : types.findByOffset typ = some (i, e)) (members : e.dwarfType.members = none) :
    CollectStep types fuel collectFieldsInto base st (.Bytes offset, none, typ) st
  | inside {offset : U64} {typ : UnitOffset} {i : ℕ} {e : TypeEntry} {s : DwarfStruct}
      {st' : Collected} (fits : base.toNat + offset.toNat < 2 ^ 64)
      (find : types.findByOffset typ = some (i, e)) (members : e.dwarfType.members = some s)
      (collect : collectFieldsInto (base + offset) s st = .ok st') :
    CollectStep types fuel collectFieldsInto base st (.Bytes offset, none, typ) st'

theorem collectStep_of_collectField {fuel : ℕ}
    {collectFieldsInto : U64 → DwarfStruct → Collected → Exec Empty Collected}
    {field : FieldOffset × Option String × UnitOffset}
    (h : collectField types fuel collectFieldsInto base st field = .ok st') :
    CollectStep types fuel collectFieldsInto base st field st' := by
  obtain ⟨fields, cells⟩ := st
  obtain ⟨offset, name, typ⟩ := field
  cases offset with
  | Bits offset =>
    obtain rfl := Except.ok.inj h
    exact .bits
  | Bytes offset =>
    obtain ⟨sum, hsum, h⟩ := (Exec.bind_eq_ok_iff _ _ _).mp h
    obtain ⟨hlt, rfl⟩ := (checkedAdd_eq_ok_iff _ _ _).mp hsum
    cases name with
    | some name =>
      obtain ⟨⟨r, cells'⟩, hget, h⟩ := (Exec.bind_eq_ok_iff _ _ _).mp h
      obtain rfl := Except.ok.inj h
      exact .named hlt hget
    | none =>
      dsimp only at h
      cases hfind : types.findByOffset typ with
      | none =>
        rw [hfind] at h
        obtain rfl := Except.ok.inj h
        exact .missing hfind
      | some p =>
        obtain ⟨i, e⟩ := p
        rw [hfind] at h
        dsimp only at h
        cases hmembers : e.dwarfType.members with
        | none =>
          rw [hmembers] at h
          obtain rfl := Except.ok.inj h
          exact .plain hfind hmembers
        | some s' =>
          rw [hmembers] at h
          exact .inside hlt hfind hmembers h

/-- **One member is collected**, provided that the structures inside are. -/
theorem collectField_sound (hs : types.Sorted) {fuel : ℕ}
    {collectFieldsInto : U64 → DwarfStruct → Collected → Exec Empty Collected}
    (hinto : ∀ {base s st st'}, Coherent types st.2 → collectFieldsInto base s st = .ok st' →
      Collects types s (fun _ => True) base st st')
    (hcells : Coherent types st.2) {k : ℕ} {field : FieldOffset × Option String × UnitOffset}
    (hk : s.fields[k]? = some field)
    (h : collectField types fuel collectFieldsInto base st field = .ok st') :
    Collects types s (· = k) base st st' := by
  have hone : ∀ {i e}, types.findByOffset e.offset = some (i, e) →
      ∀ e' ∈ types, e'.offset = e.offset → e' = e := fun hfind e' he' heq =>
    hs.eq_of_offset_eq (List.mem_of_getElem? (hs.findByOffset_eq_some_iff.mp hfind).1) he' heq
  cases collectStep_of_collectField h with
  | bits => exact collects_nil hcells (isListingOn_nil (by simp [hk]))
  | named fits getType =>
    obtain ⟨hres, hcoh⟩ := getType_sound hs fuel hcells getType
    refine ⟨_, _, rfl, isListingOn_named hk, .cons ?_ .nil, hcoh⟩
    exact { name := rfl, offset := toNat_add_of_lt fits, typ := ⟨_, hres, rfl⟩ }
  | missing find =>
    have hmissing := hs.findByOffset_eq_none_iff.mp find
    exact collects_nil hcells (isListingOn_anonymous hk fun e he heq =>
      absurd heq (hmissing e he))
  | plain find members =>
    obtain ⟨-, rfl⟩ := hs.findByOffset_eq_some_iff.mp find
    exact collects_nil hcells (isListingOn_anonymous hk fun e' he' heq =>
      hone find e' he' heq ▸ members)
  | inside fits find members collect =>
    obtain ⟨he, rfl⟩ := hs.findByOffset_eq_some_iff.mp find
    obtain ⟨ms, fs, hfs, hms, hfields, hcoh⟩ := hinto hcells collect
    refine ⟨_, fs, hfs, isListingOn_inside hk (List.mem_of_getElem? he) members (hone find) hms, ?_,
      hcoh⟩
    rw [List.forall₂_map_left_iff]
    refine hfields.imp fun m f hf => ?_
    exact
      { name := hf.name
        offset := by
          rw [hf.offset, toNat_add_of_lt fits, Member.inside]
          exact Nat.add_assoc _ _ _
        typ := hf.typ }

/-- The members from a place on are collected. -/
theorem foldlM_collectField_sound
    {collectField : Collected → FieldOffset × Option String × UnitOffset → Exec Empty Collected}
    (hfield : ∀ {st st' k field}, Coherent types st.2 → s.fields[k]? = some field →
      collectField st field = .ok st' → Collects types s (· = k) base st st')
    (front rest : List (FieldOffset × Option String × UnitOffset))
    (hrest : s.fields = front ++ rest) (hcells : Coherent types st.2)
    (h : rest.foldlM collectField st = .ok st') :
    Collects types s (front.length ≤ ·) base st st' := by
  induction rest generalizing front st with
  | nil =>
    obtain rfl := Except.ok.inj h
    refine collects_nil hcells { sorted := .nil, mem_iff := fun m => ?_ }
    refine iff_of_false (by simp) ?_
    rintro ⟨hm, i, hi, hle⟩
    obtain ⟨j, offset, name, typ, hj, hget⟩ := hm.exists_head
    obtain rfl := Option.some.inj (hi.symm.trans hj)
    rw [hrest, List.append_nil, List.getElem?_eq_none hle] at hget
    cases hget
  | cons field rest ih =>
    rw [List.foldlM_cons] at h
    obtain ⟨st₁, hst₁, h⟩ := (Exec.bind_eq_ok_iff _ _ _).mp h
    have hk : s.fields[front.length]? = some field := by
      rw [hrest, List.getElem?_append_right le_rfl, Nat.sub_self]
      rfl
    have hfirst := hfield hcells hk hst₁
    have hcells₁ : Coherent types st₁.2 := by
      obtain ⟨_, _, _, _, _, hcoh⟩ := hfirst
      exact hcoh
    have hlater := ih (front ++ [field]) (by rw [hrest, List.append_assoc]; rfl) hcells₁ h
    rw [List.length_append] at hlater
    exact hfirst.trans hlater

/-- **All the members of a structure are collected**, in whatever number of steps. -/
theorem collectFieldsInto_sound (hs : types.Sorted) (fuel : ℕ) (hcells : Coherent types st.2)
    (h : collectFieldsInto types fuel base s st = .ok st') :
    Collects types s (fun _ => True) base st st' := by
  induction fuel generalizing base s st st' with
  | zero => cases h
  | succ fuel ih =>
    obtain ⟨ms, fs, hfs, hms, hfields, hcoh⟩ := foldlM_collectField_sound
      (fun hcells hk hfield => collectField_sound hs ih hcells hk hfield) [] s.fields rfl hcells h
    refine ⟨ms, fs, hfs, { sorted := hms.sorted, mem_iff := fun m => ?_ }, hfields, hcoh⟩
    rw [hms.mem_iff]
    simp

end Collect

/-! ## That it is collected -/

section Returns

variable {types : TypeList} {s : DwarfStruct}

/-- The offsets of all members fit a word. -/
def Fits (types : TypeList) (s : DwarfStruct) (base : U64) : Prop :=
  ∀ path o name typ, Reaches types s path o name typ → base.toNat + o < 2 ^ 64

/-- The types of all named members have a resolution. -/
def Resolvable (types : TypeList) (s : DwarfStruct) : Prop :=
  ∀ path o name typ, Reaches types s path o (some name) typ → ∃ r, Resolves types typ r

/-- A computation returns from some budget on, wherever it is started. -/
def ReturnsFrom (types : TypeList) (s : DwarfStruct)
    (run : ℕ → U64 → Collected → Exec Empty Collected) : Prop :=
  ∃ n, ∀ fuel, n ≤ fuel → ∀ base st, Coherent types st.2 → Fits types s base →
    ∃ st', run fuel base st = .ok st'

/-- **A member is collected**, provided that the structures inside are. -/
theorem collectField_returnsFrom (hs : types.Sorted) (hres : Resolvable types s)
    (hinto : ∀ s', Nests types s' s →
      ReturnsFrom types s' fun fuel base st => collectFieldsInto types fuel base s' st)
    {k : ℕ} {field : FieldOffset × Option String × UnitOffset} (hk : s.fields[k]? = some field) :
    ReturnsFrom types s fun fuel base st =>
      collectField types fuel (collectFieldsInto types fuel) base st field := by
  obtain ⟨offset, name, typ⟩ := field
  cases offset with
  | Bits offset => exact ⟨0, fun fuel _ base st _ _ => ⟨st, rfl⟩⟩
  | Bytes offset =>
    have hsum : ∀ base, Fits types s base →
        (checkedAdd base offset : Exec Empty U64) = .ok (base + offset) := fun base hfits =>
      checkedAdd_eq_ok (hfits _ _ _ _ (.here hk))
    cases name with
    | some name =>
      obtain ⟨r, hr⟩ := hres _ _ _ _ (.here hk)
      obtain ⟨n, hn⟩ := exists_getType hs hr
      refine ⟨n, fun fuel hfuel base st _ hfits => ?_⟩
      obtain ⟨fields, cells⟩ := st
      obtain ⟨⟨r', cells'⟩, hget⟩ := hn fuel hfuel cells
      dsimp only
      rw [collectField, hsum base hfits, Exec.ok_bind]
      dsimp only
      rw [hget]
      exact ⟨_, rfl⟩
    | none =>
      -- what the member stands for, if it is a structure or union
      have hround : ∀ (run : U64 → DwarfStruct → Collected → Exec Empty Collected) fuel base st,
          Fits types s base → (∀ e ∈ types, e.offset = typ → ∀ s', e.dwarfType.members = some s' →
            ∃ st', run (base + offset) s' st = .ok st') →
          ∃ st', collectField types fuel run base st (.Bytes offset, none, typ) = .ok st' := by
        intro run fuel base st hfits hrun
        obtain ⟨fields, cells⟩ := st
        rw [collectField, hsum base hfits, Exec.ok_bind]
        dsimp only
        cases hfind : types.findByOffset typ with
        | none => exact ⟨_, rfl⟩
        | some p =>
          obtain ⟨i, e⟩ := p
          obtain ⟨he, heq⟩ := hs.findByOffset_eq_some_iff.mp hfind
          dsimp only
          cases hmembers : e.dwarfType.members with
          | none => exact ⟨_, rfl⟩
          | some s' => exact hrun e (List.mem_of_getElem? he) heq s' hmembers
      by_cases hnest : ∃ e ∈ types, e.offset = typ ∧ ∃ s', e.dwarfType.members = some s'
      · obtain ⟨e, he, rfl, s', hs'⟩ := hnest
        obtain ⟨n, hn⟩ := hinto s' ⟨k, offset, e, hk, he, hs'⟩
        refine ⟨n, fun fuel hfuel base st hcells hfits => hround _ _ _ _ hfits ?_⟩
        intro e' he' heq s'' hs''
        obtain rfl := hs.eq_of_offset_eq he he' heq
        obtain rfl := Option.some.inj (hs'.symm.trans hs'')
        have hlt := hfits _ _ _ _ (.here hk)
        refine hn fuel hfuel (base + offset) st hcells fun path o name typ hreach => ?_
        rw [toNat_add_of_lt hlt, Nat.add_assoc]
        exact hfits _ _ _ _ (.inside hk he hs' hreach)
      · refine ⟨0, fun fuel _ base st _ hfits => hround _ _ _ _ hfits ?_⟩
        intro e he heq s' hs'
        exact absurd ⟨e, he, heq, s', hs'⟩ hnest

/-- **All the members are collected**, where the nesting is finite. -/
theorem collectFieldsInto_returnsFrom (hs : types.Sorted) (hfin : Acc (Nests types) s)
    (hres : Resolvable types s) :
    ReturnsFrom types s fun fuel base st => collectFieldsInto types fuel base s st := by
  induction hfin with
  | intro s _ ih =>
    have hinto : ∀ s', Nests types s' s →
        ReturnsFrom types s' fun fuel base st => collectFieldsInto types fuel base s' st := by
      rintro s' ⟨i, offset, e, hi, he, hs'⟩
      refine ih s' ⟨i, offset, e, hi, he, hs'⟩ fun path o name typ hreach => ?_
      exact hres _ _ _ _ (.inside hi he hs' hreach)
    have hfields : ∀ front rest, s.fields = front ++ rest →
        ReturnsFrom types s fun fuel base st =>
          rest.foldlM (collectField types fuel (collectFieldsInto types fuel) base) st := by
      intro front rest hrest
      induction rest generalizing front with
      | nil => exact ⟨0, fun fuel _ base st _ _ => ⟨st, rfl⟩⟩
      | cons field rest ih =>
        have hk : s.fields[front.length]? = some field := by
          rw [hrest, List.getElem?_append_right le_rfl, Nat.sub_self]
          rfl
        obtain ⟨n, hn⟩ := collectField_returnsFrom hs hres hinto hk
        obtain ⟨n', hn'⟩ := ih (front ++ [field]) (by rw [hrest, List.append_assoc]; rfl)
        refine ⟨max n n', fun fuel hfuel base st hcells hfits => ?_⟩
        obtain ⟨st₁, hst₁⟩ := hn fuel (le_of_max_le_left hfuel) base st hcells hfits
        obtain ⟨_, _, _, _, _, hcells₁⟩ := collectField_sound hs
          (fun hcells => collectFieldsInto_sound hs fuel hcells) hcells hk hst₁
        dsimp only at hst₁ ⊢
        rw [List.foldlM_cons, hst₁, Exec.ok_bind]
        exact hn' fuel (le_of_max_le_right hfuel) base st₁ hcells₁ hfits
    obtain ⟨n, hn⟩ := hfields [] s.fields rfl
    refine ⟨n + 1, fun fuel hfuel base st hcells hfits => ?_⟩
    obtain ⟨fuel, rfl⟩ := Nat.exists_eq_add_of_le' (Nat.le_of_add_left_le hfuel)
    exact hn fuel (by omega) base st hcells hfits

end Returns

/-- What stands in one of two related lists is related to something in the other. -/
theorem exists_of_mem_forall₂ {α β : Type} {R : α → β → Prop} {l : List α} {l' : List β}
    (h : List.Forall₂ R l l') {b : β} (hb : b ∈ l') : ∃ a ∈ l, R a b := by
  induction h with
  | nil => cases hb
  | @cons a b' l l' hab _ ih =>
    obtain rfl | hb := List.mem_cons.mp hb
    · exact ⟨a, List.mem_cons_self, hab⟩
    · obtain ⟨a', ha', hab'⟩ := ih hb
      exact ⟨a', List.mem_cons_of_mem a ha', hab'⟩

/-- The members of a union are all at its beginning. -/
theorem offset_of_readUnion {G : Type} {node : DwarfNode G} {u : DwarfStruct}
    (h : node.readUnion = .ok u) : ∀ field ∈ u.fields, field.1 = .Bytes 0 := by
  obtain ⟨size, -, h⟩ := (Exec.bind_eq_ok_iff _ _ _).mp h
  obtain ⟨fields, hfields, h⟩ := (Exec.bind_eq_ok_iff _ _ _).mp h
  obtain ⟨-, -, h⟩ := (Exec.bind_eq_ok_iff _ _ _).mp h
  obtain rfl := Except.ok.inj h
  intro field hfield
  obtain ⟨child, -, hchild⟩ := exists_of_mem_forall₂ ((Exec.mapM_eq_ok_iff _ _ _).mp hfields) hfield
  obtain ⟨⟨name, ty⟩, -, hchild⟩ := (Exec.bind_eq_ok_iff _ _ _).mp hchild
  exact congrArg Prod.fst (Except.ok.inj hchild).symm

/-- **Structures are flattened**: `collect_fields` returns one field for each named
member that is reached, in the order of the declarations, at the sum of the offsets on
the way – those in a union are 0 – and with its resolved type; provided that the sums
fit a word and the types have a resolution. -/
theorem collectFields_flattens :
    (∀ (types : TypeList) (s : DwarfStruct) (cells : Cells), types.Sorted →
      Acc (Nests types) s → Coherent types cells → Fits types s 0 → Resolvable types s →
      ∃ n, ∀ fuel, n ≤ fuel → ∃ fields cells',
        collectFields types fuel s cells = .ok (fields, cells')
          ∧ Flattens types s fields ∧ Coherent types cells')
    ∧ ∀ (G : Type) (node : DwarfNode G) (u : DwarfStruct), node.readUnion = .ok u →
      ∀ field ∈ u.fields, field.1 = .Bytes 0 := by
  refine ⟨fun types s cells hs hfin hcells hfits hres => ?_, fun G node u h =>
    offset_of_readUnion h⟩
  obtain ⟨n, hn⟩ := collectFieldsInto_returnsFrom hs hfin hres
  refine ⟨n, fun fuel hfuel => ?_⟩
  obtain ⟨⟨fields, cells'⟩, hst⟩ := hn fuel hfuel 0 ([], cells) hcells hfits
  obtain ⟨ms, fs, hfs, hms, hfields, hcoh⟩ := collectFieldsInto_sound hs fuel hcells hst
  refine ⟨fields, cells', hst, ⟨ms, hms.sorted, fun m => ?_, ?_⟩, hcoh⟩
  · rw [hms.mem_iff]
    refine and_iff_left_of_imp fun hm => ?_
    obtain ⟨i, _, _, _, hi, -⟩ := hm.exists_head
    exact ⟨i, hi, trivial⟩
  · rw [show fields = fs from hfs]
    exact hfields

/-- A member is one of the structure, or one of what an anonymous member stands
for. -/
theorem Reaches.cases_mem {types : TypeList} {s : DwarfStruct} {path : List ℕ} {o : ℕ}
    {name : Option String} {typ : UnitOffset} (h : Reaches types s path o name typ) :
    (∃ offset : U64, (.Bytes offset, name, typ) ∈ s.fields ∧ o = offset.toNat)
      ∨ ∃ (offset : U64) (e : TypeEntry) (s' : DwarfStruct) (path' : List ℕ) (o' : ℕ),
        (.Bytes offset, none, e.offset) ∈ s.fields ∧ e ∈ types
          ∧ e.dwarfType.members = some s' ∧ Reaches types s' path' o' name typ
          ∧ o = offset.toNat + o' := by
  cases h with
  | here h => exact Or.inl ⟨_, List.mem_of_getElem? h, rfl⟩
  | inside h he hs hrest =>
    exact Or.inr ⟨_, _, _, _, _, List.mem_of_getElem? h, he, hs, hrest, rfl⟩

/-- A structure without anonymous members nests none. -/
theorem acc_nests_of_named {types : TypeList} {s : DwarfStruct}
    (h : ∀ field ∈ s.fields, field.2.1 ≠ none) : Acc (Nests types) s := by
  refine .intro s ?_
  rintro s' ⟨i, offset, e, hi, -⟩
  exact absurd rfl (h _ (List.mem_of_getElem? hi))

/-- An integer, and an anonymous union and structure of them. -/
def someTypes : TypeList :=
  [⟨1, some "int", .Primitive ⟨4, true⟩⟩,
    ⟨2, none, .Union ⟨4, [(.Bytes 0, some "b", 1), (.Bytes 0, some "c", 1)]⟩⟩,
    ⟨3, none, .Struct ⟨8, [(.Bytes 4, some "d", 1)]⟩⟩,
    ⟨4, some "t", .Typedef 4⟩]

/-- The nesting in a structure with one anonymous member is finite. -/
theorem acc_nests_someTypes (s : DwarfStruct) : Acc (Nests someTypes) s := by
  refine .intro s ?_
  rintro s' ⟨i, offset, e, -, he, hs'⟩
  refine acc_nests_of_named ?_
  obtain rfl | rfl | rfl | rfl : _ ∨ _ ∨ _ ∨ _ := by simpa [someTypes] using he
  · cases hs'
  · obtain rfl := Option.some.inj hs'
    simp
  · obtain rfl := Option.some.inj hs'
    simp
  · cases hs'

/-- A structure with a bitfield and an anonymous union. -/
def someStruct : DwarfStruct :=
  ⟨8, [(.Bytes 0, some "a", 1), (.Bits 40, some "bit", 1), (.Bytes 4, none, 2)]⟩

/-- **It is flattened.** -/
theorem collectFields_someStruct :
    ∃ n, ∀ fuel, n ≤ fuel → ∃ fields cells',
      collectFields someTypes fuel someStruct (fun _ => none) = .ok (fields, cells')
        ∧ Flattens someTypes someStruct fields ∧ Coherent someTypes cells' := by
  have hmem : ∀ path o name typ, Reaches someTypes someStruct path o name typ →
      o < 8 ∧ (name ≠ none → typ = 1) := by
    intro path o name typ h
    obtain ⟨offset, hfield, rfl⟩ | ⟨offset, e, s', path', o', hfield, he, hs', hrest, rfl⟩ :=
      h.cases_mem
    · obtain ⟨rfl, rfl, rfl⟩ | ⟨rfl, rfl, rfl⟩ : _ ∨ _ := by simpa [someStruct] using hfield
      · simp
      · simp
    · obtain ⟨rfl, heq⟩ : offset = 4 ∧ e.offset = 2 := by simpa [someStruct] using hfield
      obtain rfl : s' = ⟨4, [(.Bytes 0, some "b", 1), (.Bytes 0, some "c", 1)]⟩ := by
        obtain rfl | rfl | rfl | rfl : _ ∨ _ ∨ _ ∨ _ := by simpa [someTypes] using he
        · cases heq
        · exact (Option.some.inj hs').symm
        · cases heq
        · cases heq
      obtain ⟨offset, hfield, rfl⟩ | ⟨_, _, _, _, _, hfield, _⟩ := hrest.cases_mem
      · obtain ⟨rfl, rfl, rfl⟩ | ⟨rfl, rfl, rfl⟩ : _ ∨ _ := by simpa using hfield
        · simp
        · simp
      · simp at hfield
  refine collectFields_flattens.1 someTypes someStruct (fun _ => none)
    (by unfold TypeList.Sorted; decide) (acc_nests_someTypes _) (fun _ _ _ _ h => nomatch h) ?_ ?_
  · intro path o name typ h
    have := (hmem path o name typ h).1
    show 0 + o < 2 ^ 64
    omega
  · intro path o name typ h
    obtain rfl := (hmem path o (some name) typ h).2 (Option.some_ne_none name)
    have hint : (⟨1, some "int", .Primitive ⟨4, true⟩⟩ : TypeEntry) ∈ someTypes := by
      simp [someTypes]
    exact ⟨_, .own hint rfl⟩

/-- A member whose type is a typedef of itself. -/
def selfStruct : DwarfStruct := ⟨8, [(.Bytes 0, some "x", 4)]⟩

/-- A member beyond the address space. -/
def farStruct : DwarfStruct := ⟨8, [(.Bytes 0xffffffffffffffff, none, 3)]⟩

/-- **The first is never collected, the second with a panic.** -/
theorem not_collectFields_returns :
    someTypes.Sorted
      ∧ (Acc (Nests someTypes) selfStruct
        ∧ ∀ fuel, collectFields someTypes fuel selfStruct (fun _ => none) = Exec.outOfFuel)
      ∧ Acc (Nests someTypes) farStruct
        ∧ ∀ fuel, collectFields someTypes (fuel + 2) farStruct (fun _ => none)
          = Exec.panicked := by
  refine ⟨by unfold TypeList.Sorted; decide, ⟨acc_nests_someTypes _, fun fuel => ?_⟩,
    acc_nests_someTypes _, fun fuel => rfl⟩
  have hself : ∀ fuel cells, cells 3 = none →
      someTypes.getType fuel 4 cells = Exec.outOfFuel := by
    intro fuel
    induction fuel with
    | zero => exact fun _ _ => rfl
    | succ fuel ih =>
      intro cells hcell
      have hfind : someTypes.findByOffset 4 = some (3, ⟨4, some "t", .Typedef 4⟩) := rfl
      rw [TypeList.getType, hfind]
      dsimp only
      rw [TypeList.takeOrClassify, hcell]
      dsimp only
      rw [TypeList.classifyType]
      dsimp only
      rw [ih _ (Function.update_self ..)]
      rfl
  cases fuel with
  | zero => rfl
  | succ fuel =>
    show (someTypes.getType fuel 4 (fun _ => none) >>= _) >>= _ = _
    rw [hself fuel _ rfl]
    rfl

end Dwarf
