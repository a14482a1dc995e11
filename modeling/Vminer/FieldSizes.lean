import Vminer.DwarfFlattening

/-!
# Sizes of fields

`find_offset_and_size` takes a field to end where the one listed after it begins. In a
flattened structure the list does not ascend: the alternatives of a union start anew. A
field that is followed by one that begins before it has no size, and the subtraction
underflows; every other field is given a size that stays in the structure
(`findOffsetAndSize_stays_iff`).
-/

open Symbols

/-! ## The first field of a name -/

namespace Symbols

/-- **A field is the first of its name**, at a place of the list. -/
structure Struct.IsFirst (s : Struct) (name : String) (i : ℕ) (field : StructField) : Prop where
  at_place : s.fields[i]? = some field
  name_eq : field.name = name
  first : ∀ j < i, ∀ f, s.fields[j]? = some f → f.name ≠ name

/-- **The field listed after one does not begin before it**, if there is one. -/
def Struct.NextBeginsLater (s : Struct) (name : String) : Prop :=
  ∀ i field next, s.IsFirst name i field → s.fields[i + 1]? = some next →
    field.offset.toNat ≤ next.offset.toNat

section Find

variable {s : Struct} {name : String} {i : ℕ} {field : StructField}

/-- Where a field ends: where the next one begins, or with the structure. -/
def Struct.endOf (s : Struct) (i : ℕ) : U64 :=
  match s.fields[i + 1]? with
  | some f => f.offset
  | none => s.size

/-- Some field is the first. -/
theorem Struct.exists_isFirst (h : name ∈ s.fields.map StructField.name) :
    ∃ i field, s.IsFirst name i field := by
  obtain ⟨f, hf, rfl⟩ := List.mem_map.mp h
  cases hfind : s.fields.find? (fun g => g.name == f.name) with
  | none => exact absurd (beq_self_eq_true f.name) (List.find?_eq_none.mp hfind f hf)
  | some field =>
    obtain ⟨hname, i, hi, rfl, hfirst⟩ := List.find?_eq_some_iff_getElem.mp hfind
    refine ⟨i, s.fields[i], ⟨List.getElem?_eq_getElem hi, beq_iff_eq.mp hname, ?_⟩⟩
    intro j hj f' hf' heq
    obtain ⟨hlt, rfl⟩ := List.getElem?_eq_some_iff.mp hf'
    simpa [heq] using hfirst j hj

/-- There is no other. -/
theorem Struct.IsFirst.unique {j : ℕ} {field' : StructField} (h : s.IsFirst name i field)
    (h' : s.IsFirst name j field') : i = j ∧ field = field' := by
  obtain hlt | rfl | hlt := lt_trichotomy i j
  · exact absurd h.name_eq (h'.first i hlt field h.at_place)
  · exact ⟨rfl, Option.some.inj (h.at_place.symm.trans h'.at_place)⟩
  · exact absurd h'.name_eq (h.first j hlt field' h'.at_place)

theorem Struct.IsFirst.find?_zipIdx (h : s.IsFirst name i field) :
    s.fields.zipIdx.find? (fun (field, _) => field.name == name) = some (field, i) := by
  obtain ⟨hi, hget⟩ := List.getElem?_eq_some_iff.mp h.at_place
  refine List.find?_eq_some_iff_getElem.mpr ⟨beq_iff_eq.mpr h.name_eq, i, by simpa using hi,
    by simp [hget], fun j hj => ?_⟩
  simpa using h.first j hj _ (List.getElem?_eq_getElem (hj.trans hi))

/-- **The field that is found is the first**, and it ends where the next begins. -/
theorem Struct.IsFirst.findOffsetAndSize_eq (h : s.IsFirst name i field) :
    s.findOffsetAndSize name = do
      let size ← checkedSub (s.endOf i) field.offset
      return (field.offset, size) := by
  unfold Struct.findOffsetAndSize
  rw [h.find?_zipIdx]
  rfl

end Find

end Symbols

/-! ## Structures of the loader -/

namespace Dwarf

variable {types : TypeList}

/-- **A structure is made from a definition** of the list. -/
structure MadeFrom (types : TypeList) (d : DwarfStruct) (s : Symbols.Struct) : Prop where
  definition : ∃ e ∈ types, e.name = some s.name ∧ e.dwarfType = .Struct d
  size : s.size = d.size
  fields : ∃ fuel cells cells', collectFields types fuel d cells = .ok (s.fields, cells')

/-- **The members lie inside the structure**; that they begin there is enough. -/
def MembersInside (types : TypeList) (d : DwarfStruct) : Prop :=
  ∀ path o name typ, Reaches types d path o (some name) typ → o ≤ d.size.toNat

section Offsets

/-- Fields at the offsets of members that are reached, seen from a base. -/
def Reached (types : TypeList) (d : DwarfStruct) (base : U64) (fields : List StructField) : Prop :=
  ∀ f ∈ fields, ∃ path o typ, Reaches types d path o (some f.name) typ
    ∧ f.offset.toNat = base.toNat + o

/-- The fields of one member are at its offset, or inside of it. -/
theorem reached_collectField {d : DwarfStruct} {base : U64} {st st' : Collected} {fuel : ℕ}
    {collectFieldsInto : U64 → DwarfStruct → Collected → Exec Empty Collected}
    (hinto : ∀ {base d st st'}, collectFieldsInto base d st = .ok st' →
      ∃ fields, st'.1 = st.1 ++ fields ∧ Reached types d base fields)
    {field : FieldOffset × Option String × UnitOffset} (hfield : field ∈ d.fields)
    (h : collectField types fuel collectFieldsInto base st field = .ok st') :
    ∃ fields, st'.1 = st.1 ++ fields ∧ Reached types d base fields := by
  obtain ⟨k, hk⟩ := List.mem_iff_getElem?.mp hfield
  have hnone : ∃ fields, st.1 = st.1 ++ fields ∧ Reached types d base fields :=
    ⟨[], (List.append_nil _).symm, fun _ h => nomatch h⟩
  cases collectStep_of_collectField h with
  | bits => exact hnone
  | missing => exact hnone
  | plain => exact hnone
  | @named offset name typ r cells fits _ =>
    refine ⟨_, rfl, fun f hf => ?_⟩
    obtain rfl := List.mem_singleton.mp hf
    exact ⟨[k], offset.toNat, typ, .here hk, toNat_add_of_lt fits⟩
  | @inside offset typ i e d' st' fits find members collect =>
    obtain ⟨he, rfl⟩ := mem_of_findByOffset find
    have hnat := toNat_add_of_lt fits
    obtain ⟨fs, hfs, hreached⟩ := hinto collect
    refine ⟨fs, hfs, fun f hf => ?_⟩
    obtain ⟨path, o, typ, hreach, hoffset⟩ := hreached f hf
    exact ⟨k :: path, offset.toNat + o, typ, .inside hk he members hreach, by omega⟩

/-- **Every field that is collected is at the offset of a member that is reached.** -/
theorem reached_collectFieldsInto (fuel : ℕ) {d : DwarfStruct} {base : U64} {st st' : Collected}
    (h : collectFieldsInto types fuel base d st = .ok st') :
    ∃ fields, st'.1 = st.1 ++ fields ∧ Reached types d base fields := by
  induction fuel generalizing base d st st' with
  | zero => cases h
  | succ fuel ih =>
    refine Exec.foldlM_eq_ok_induct (P := fun _ st' =>
      ∃ fields, st'.1 = st.1 ++ fields ∧ Reached types d base fields) ?_
      ⟨[], (List.append_nil _).symm, fun _ h => nomatch h⟩ h
    rintro front field rest st₁ st₂ hsplit ⟨fs, hfs, hreached⟩ hst₂
    have hmem : field ∈ d.fields := hsplit ▸ List.mem_append_cons_self
    obtain ⟨fs', hfs', hreached'⟩ := reached_collectField ih hmem hst₂
    refine ⟨fs ++ fs', by rw [hfs', hfs, List.append_assoc], fun f hf => ?_⟩
    exact (List.mem_append.mp hf).elim (hreached f) (hreached' f)

/-- The fields of a structure begin in it, if the members do. -/
theorem MadeFrom.offset_le {d : DwarfStruct} {s : Symbols.Struct} (h : MadeFrom types d s)
    (hin : MembersInside types d) : ∀ f ∈ s.fields, f.offset.toNat ≤ s.size.toNat := by
  intro f hf
  obtain ⟨fuel, cells, cells', hcollect⟩ := h.fields
  obtain ⟨fields, hfields, hreached⟩ := reached_collectFieldsInto fuel hcollect
  have hf' : f ∈ fields := by
    rw [show s.fields = fields from hfields] at hf
    exact hf
  obtain ⟨path, o, typ, hreach, hoffset⟩ := hreached f hf'
  calc f.offset.toNat = 0 + o := hoffset
    _ = o := Nat.zero_add o
    _ ≤ d.size.toNat := hin _ _ _ _ hreach
    _ = s.size.toNat := congrArg BitVec.toNat h.size.symm

/-- **What the loader adds to the symbols** is made from the definitions it read. -/
theorem madeFrom_of_mem_fill {G : Type} {fuel : ℕ} {nodes : List (DwarfNode G)}
    {structs : List Symbols.Struct} (h : fill fuel nodes = .ok structs) {s : Symbols.Struct}
    (hs : s ∈ structs) : ∃ types, readTypes nodes = .ok types ∧ ∃ d, MadeFrom types d s := by
  obtain ⟨types, htypes, h⟩ := (Exec.bind_eq_ok_iff _ _ _).mp h
  rw [Exec.mapErr_eq_ok_iff] at h
  have hcollect : ∀ rest ⊆ types, ∀ cells structs,
      collectStructs types fuel rest cells = .ok structs →
        ∀ s ∈ structs, ∃ d, MadeFrom types d s := by
    intro rest
    induction rest with
    | nil =>
      intro _ cells structs h s hs
      obtain rfl := Except.ok.inj h
      cases hs
    | cons typ rest ih =>
      intro hsub cells structs h s hs
      obtain ⟨hmem, hsub⟩ := List.cons_subset.mp hsub
      unfold collectStructs at h
      split at h
      · rename_i name d hname hd
        obtain ⟨⟨fields, cells'⟩, hfields, h⟩ := (Exec.bind_eq_ok_iff _ _ _).mp h
        obtain ⟨structs', hstructs', h⟩ := (Exec.bind_eq_ok_iff _ _ _).mp h
        obtain rfl := Except.ok.inj h
        obtain rfl | hs := List.mem_cons.mp hs
        · exact ⟨d, ⟨typ, hmem, hname, hd⟩, rfl, fuel, cells, cells', hfields⟩
        · exact ih hsub _ _ hstructs' s hs
      · exact ih hsub _ _ h s hs
  exact ⟨types, htypes, hcollect types (List.Subset.refl _) _ _ h s hs⟩

end Offsets

/-! ## The size of a field -/

/-- **A field has a size, and stays in its structure with it.** -/
def FieldStays (s : Symbols.Struct) (name : String) : Prop :=
  ∃ offset size, s.findOffsetAndSize name = .ok (offset, size)
    ∧ offset.toNat + size.toNat ≤ s.size.toNat

/-- **The size of a field is right** where the next one does not begin before it: in a
structure that the loader made from a definition with its members inside, the size of a
field is found and the field stays in the structure, if and only if the field that is
listed after the first of this name, if there is one, does not begin before it. -/
theorem findOffsetAndSize_stays_iff {G : Type} {fuel : ℕ} {nodes : List (DwarfNode G)}
    {structs : List Symbols.Struct} (h : fill fuel nodes = .ok structs) {s : Symbols.Struct}
    (hs : s ∈ structs) :
    ∃ types, readTypes nodes = .ok types ∧ (∃ d, MadeFrom types d s)
      ∧ ∀ d, MadeFrom types d s → MembersInside types d →
        ∀ name ∈ s.fields.map StructField.name, FieldStays s name ↔ s.NextBeginsLater name := by
  obtain ⟨types, htypes, d, hd⟩ := madeFrom_of_mem_fill h hs
  refine ⟨types, htypes, ⟨d, hd⟩, fun d hmade hin name hname => ?_⟩
  obtain ⟨i, field, hfirst⟩ := Struct.exists_isFirst hname
  have hend : (s.endOf i).toNat ≤ s.size.toNat := by
    unfold Struct.endOf
    cases hnext : s.fields[i + 1]? with
    | none => exact le_rfl
    | some next => exact hmade.offset_le hin next (List.mem_of_getElem? hnext)
  constructor
  · rintro ⟨offset, size, hfound, -⟩ j field' next hfirst' hnext
    obtain ⟨rfl, rfl⟩ := hfirst.unique hfirst'
    rw [hfirst.findOffsetAndSize_eq] at hfound
    obtain ⟨_, hsub, -⟩ := (Exec.bind_eq_ok_iff _ _ _).mp hfound
    have hle := ((checkedSub_eq_ok_iff _ _ _).mp hsub).1
    rw [Struct.endOf, hnext] at hle
    exact hle
  · intro hlater
    have hle : field.offset.toNat ≤ (s.endOf i).toNat := by
      unfold Struct.endOf
      cases hnext : s.fields[i + 1]? with
      | none => exact hmade.offset_le hin field (List.mem_of_getElem? hfirst.at_place)
      | some next => exact hlater i field next hfirst hnext
    refine ⟨field.offset, s.endOf i - field.offset, ?_, ?_⟩
    · rw [hfirst.findOffsetAndSize_eq, checkedSub_eq_ok hle]
      rfl
    · rw [BitVec.toNat_sub_of_le (BitVec.le_def.mpr hle)]
      omega

/-! ## A union that starts anew -/

section Overlap

/-- A base type. -/
def baseTypeNode (offset : UnitOffset) (name : String) (size : U64) : DwarfNode Empty :=
  ⟨{ DwarfEntry.bare offset .baseType with
      name := .ok (some name), byteSize := .ok (some size), encoding := .ok (some .other) },
    [], none⟩

/-- A member of a structure or union. -/
def memberEntry (name : Option String) (typ : UnitOffset) (location : U64) : DwarfEntry Empty :=
  { DwarfEntry.bare 0 .other with
    name := .ok name, type := .ok (some typ), dataMemberLocation := .ok (some location) }

/-- A structure of 8 bytes. -/
def structNode (offset : UnitOffset) (tag : DwTag) (name : Option String)
    (members : List (DwarfEntry Empty)) : DwarfNode Empty :=
  ⟨{ DwarfEntry.bare offset tag with name := .ok name, byteSize := .ok (some 8) }, members, none⟩

/-- A structure with a union of a pair of words and a double word. -/
def overlapNodes : List (DwarfNode Empty) :=
  [baseTypeNode 1 "u32" 4,
    baseTypeNode 2 "u64" 8,
    structNode 3 .structureType none [memberEntry (some "a") 1 0, memberEntry (some "b") 1 4],
    structNode 4 .unionType none [memberEntry none 3 0, memberEntry (some "c") 2 0],
    structNode 5 .structureType (some "s") [memberEntry none 4 0]]

/-- Its types. -/
def overlapTypes : TypeList :=
  [⟨1, some "u32", .Primitive ⟨4, false⟩⟩,
    ⟨2, some "u64", .Primitive ⟨8, false⟩⟩,
    ⟨3, none, .Struct ⟨8, [(.Bytes 0, some "a", 1), (.Bytes 4, some "b", 1)]⟩⟩,
    ⟨4, none, .Union ⟨8, [(.Bytes 0, none, 3), (.Bytes 0, some "c", 2)]⟩⟩,
    ⟨5, some "s", .Struct ⟨8, [(.Bytes 0, none, 4)]⟩⟩]

/-- The structure around it. -/
def overlapStruct : DwarfStruct := ⟨8, [(.Bytes 0, none, 4)]⟩

/-- What the loader makes of it. -/
def overlapFields : Symbols.Struct :=
  ⟨8, "s", [⟨"a", 0, .Primitive .U32⟩, ⟨"b", 4, .Primitive .U32⟩, ⟨"c", 0, .Primitive .U64⟩]⟩

theorem madeFrom_overlap : MadeFrom overlapTypes overlapStruct overlapFields where
  definition :=
    ⟨⟨5, some "s", .Struct overlapStruct⟩, by simp [overlapTypes, overlapStruct], rfl, rfl⟩
  size := rfl
  fields := ⟨4, fun _ => none, _, rfl⟩

/-- Its members lie in it. -/
theorem membersInside_overlap : MembersInside overlapTypes overlapStruct := by
  have hpair : ∀ path o name typ, Reaches overlapTypes
      ⟨8, [(.Bytes 0, some "a", 1), (.Bytes 4, some "b", 1)]⟩ path o name typ → o ≤ 4 := by
    intro path o name typ h
    obtain ⟨offset, hfield, rfl⟩ | ⟨_, _, _, _, _, hfield, _⟩ := h.cases_mem
    · obtain ⟨rfl, -⟩ | ⟨rfl, -⟩ : _ ∨ _ := by simpa using hfield
      · decide
      · decide
    · simp at hfield
  have hunion : ∀ path o name typ, Reaches overlapTypes
      ⟨8, [(.Bytes 0, none, 3), (.Bytes 0, some "c", 2)]⟩ path o name typ → o ≤ 4 := by
    intro path o name typ h
    obtain ⟨offset, hfield, rfl⟩ | ⟨offset, e, d, path', o', hfield, he, hd, hrest, rfl⟩ :=
      h.cases_mem
    · obtain ⟨rfl, -⟩ | ⟨rfl, -⟩ : _ ∨ _ := by simpa using hfield
      · decide
      · decide
    · obtain ⟨rfl, heq⟩ : offset = 0 ∧ e.offset = 3 := by simpa using hfield
      obtain rfl | rfl | rfl | rfl | rfl : _ ∨ _ ∨ _ ∨ _ ∨ _ := by simpa [overlapTypes] using he
      all_goals cases heq
      obtain rfl := Option.some.inj hd
      show 0 + o' ≤ 4
      rw [Nat.zero_add]
      exact hpair _ _ _ _ hrest
  intro path o name typ h
  show o ≤ 8
  obtain ⟨offset, hfield, rfl⟩ | ⟨offset, e, d, path', o', hfield, he, hd, hrest, rfl⟩ :=
    h.cases_mem
  · simp [overlapStruct] at hfield
  · obtain ⟨rfl, heq⟩ : offset = 0 ∧ e.offset = 4 := by simpa [overlapStruct] using hfield
    obtain rfl | rfl | rfl | rfl | rfl : _ ∨ _ ∨ _ ∨ _ ∨ _ := by simpa [overlapTypes] using he
    all_goals cases heq
    obtain rfl := Option.some.inj hd
    show 0 + o' ≤ 8
    have hle := hunion _ _ _ _ hrest
    omega

/-- **The first word stays**, for the second does not begin before it. -/
theorem findOffsetAndSize_stays_a : FieldStays overlapFields "a" := by
  have hfill : fill 4 overlapNodes = .ok [overlapFields] := rfl
  have htypes : readTypes overlapNodes = .ok overlapTypes := rfl
  obtain ⟨types, htypes', -, h⟩ := findOffsetAndSize_stays_iff hfill (List.mem_singleton_self _)
  obtain rfl := Except.ok.inj (htypes.symm.trans htypes')
  refine (h overlapStruct madeFrom_overlap membersInside_overlap "a" (by decide)).mpr ?_
  intro i field next hfirst hnext
  have hzero : overlapFields.IsFirst "a" 0 ⟨"a", 0, .Primitive .U32⟩ :=
    ⟨rfl, rfl, fun _ h => absurd h (Nat.not_lt_zero _)⟩
  obtain ⟨rfl, rfl⟩ := hzero.unique hfirst
  obtain rfl := Option.some.inj hnext
  decide

/-- **The second has no size**: the double word, listed after it, begins before it. -/
theorem not_findOffsetAndSize_stays :
    fill 4 overlapNodes = .ok [overlapFields]
      ∧ MadeFrom overlapTypes overlapStruct overlapFields
      ∧ MembersInside overlapTypes overlapStruct
      ∧ "b" ∈ overlapFields.fields.map StructField.name
      ∧ overlapFields.findOffsetAndSize "b" = Exec.panicked
      ∧ ¬ FieldStays overlapFields "b" := by
  have hpanic : overlapFields.findOffsetAndSize "b" = Exec.panicked := rfl
  refine ⟨rfl, madeFrom_overlap, membersInside_overlap, by decide, hpanic, ?_⟩
  rintro ⟨offset, size, h, -⟩
  rw [hpanic] at h
  cases h

end Overlap

end Dwarf
