import Vminer.DwarfCalls
import Vminer.FieldSizes

/-!
# When loading types ends

`fill` reads the entries of a unit, and then collects the structures that have a name.
The first is a loop over the entries and their children, and ends if the library does.
The second ends exactly if the calls that it makes do not run into a cycle
(`fill_ends_iff`). Nothing in it keeps them from that.
-/

namespace Dwarf

/-! ## Collecting the structures -/

section Structs

variable {types : TypeList} {cells cells' : Cells} {n : ℕ}

/-- What `collectStructs` does with an entry: it collects a structure that has a name. -/
theorem collectStructs_cons (types : TypeList) (e : TypeEntry) (rest : List TypeEntry)
    (cells : Cells) :
    (∃ name s, e.name = some name ∧ e.dwarfType = .Struct s
      ∧ ∀ n, collectStructs types n (e :: rest) cells
        = collectFieldsInto types n 0 s ([], cells) >>= fun st =>
          collectStructs types n rest st.2 >>= fun structs =>
          .ok (⟨s.size, name, st.1⟩ :: structs))
    ∨ (∀ name s, e.name = some name → e.dwarfType ≠ .Struct s)
      ∧ ∀ n, collectStructs types n (e :: rest) cells = collectStructs types n rest cells := by
  obtain ⟨offset, name, dwarfType⟩ := e
  cases name with
  | none => exact .inr ⟨fun _ _ h => (nomatch h), fun _ => rfl⟩
  | some name =>
    cases dwarfType with
    | Struct s => exact .inl ⟨name, s, rfl, rfl, fun _ => rfl⟩
    | _ => exact .inr ⟨fun _ _ _ h => (nomatch h), fun _ => rfl⟩

/-- **A structure is come to with settled cells.** -/
theorem exists_collectFieldsInto_ne_outOfFuel {front rest : TypeList} {e : TypeEntry}
    {name : String} {s : DwarfStruct} (hname : e.name = some name)
    (hstruct : e.dwarfType = .Struct s) (hpassed : ∀ e' ∈ front, e'.Passed types)
    (hcells : Settled types cells)
    (hne : collectStructs types n (front ++ e :: rest) cells ≠ Exec.outOfFuel) :
    ∃ st : Collected, Settled types st.2 ∧ collectFieldsInto types n 0 s st ≠ Exec.outOfFuel := by
  induction front generalizing cells with
  | nil =>
    obtain ⟨name', s', -, hs', heq⟩ | ⟨hnot, -⟩ := collectStructs_cons types e rest cells
    · obtain rfl : s = s' := by simpa using hstruct.symm.trans hs'
      rw [List.nil_append, heq] at hne
      exact ⟨([], cells), hcells, fun h => hne (by rw [h]; rfl)⟩
    · exact absurd hstruct (hnot name s hname)
  | cons e' front ih =>
    obtain ⟨hfirst, hpassed⟩ := List.forall_mem_cons.mp hpassed
    rw [List.cons_append] at hne
    obtain ⟨name', s', hname', hs', heq⟩ | ⟨-, heq⟩ :=
      collectStructs_cons types e' (front ++ e :: rest) cells
    · rw [heq] at hne
      have hcollect : collectFieldsInto types n 0 s' ([], cells) ≠ Exec.outOfFuel :=
        fun h => hne (by rw [h]; rfl)
      obtain ⟨st', hst', hcells'⟩ :=
        exists_collectFieldsInto (hfirst name' s' hname' hs') hcells hcollect
      rw [hst', Exec.ok_bind] at hne
      exact ih hpassed hcells' fun h => hne (by rw [h]; rfl)
    · rw [heq] at hne
      exact ih hpassed hcells hne

/-- Empty cells are settled. -/
theorem settled_empty (types : TypeList) : Settled types fun _ => none :=
  fun _ _ _ _ h => nomatch h

/-- **Where `fill` ends, so do the calls it makes.** -/
theorem acc_calls_of_collectStructs
    (hne : collectStructs types n types (fun _ => none) ≠ Exec.outOfFuel) :
    Acc (fun c' c => Calls types c c') .fill := by
  refine ⟨_, fun c hc => ?_⟩
  cases hc with
  | @collects front rest e name s split hname struct passed =>
    have hne' : collectStructs types n (front ++ e :: rest) (fun _ => none) ≠ Exec.outOfFuel :=
      split ▸ hne
    obtain ⟨st, hcells, hcollect⟩ := exists_collectFieldsInto_ne_outOfFuel hname struct passed
      (settled_empty types) hne'
    exact acc_calls_of_collectFieldsInto hcells hcollect

/-- **Where they do, it does.** -/
theorem ends_collectStructs
    (hcollect : ∀ s, Calls types .fill (.collectFieldsInto 0 s) → ∀ st : Collected,
      Settled types st.2 → Ends fun n => collectFieldsInto types n 0 s st) :
    Ends fun n => collectStructs types n types fun _ => none := by
  suffices hall : ∀ rest front, types = front ++ rest → (∀ e ∈ front, e.Passed types) →
      ∀ cells, Settled types cells → Ends fun n => collectStructs types n rest cells from
    hall types [] rfl (List.forall_mem_nil _) _ (settled_empty types)
  intro rest
  induction rest with
  | nil => exact fun _ _ _ _ _ => ends_const (Exec.ok_ne_outOfFuel [])
  | cons e rest ih =>
    intro front hsplit hpassed cells hcells
    have hlater : e.Passed types → ∀ cells, Settled types cells →
        Ends fun n => collectStructs types n rest cells := fun he =>
      ih (front ++ [e]) (by rw [hsplit, List.append_assoc]; rfl)
        (List.forall_mem_append.mpr ⟨hpassed, List.forall_mem_singleton.mpr he⟩)
    obtain ⟨name, s, hname, hs, heq⟩ | ⟨hnot, heq⟩ :=
      collectStructs_cons types e rest cells
    · simp only [heq]
      refine (hcollect s (.collects hsplit hname hs hpassed) ([], cells) hcells).bind ?_
      intro n st hst
      obtain ⟨hmembers, hcells'⟩ := passed_of_collectFieldsInto hcells hst
      have he : e.Passed types := by
        intro name' s' _ hs'
        obtain rfl : s = s' := by simpa using hs.symm.trans hs'
        exact hmembers
      exact (hlater he st.2 hcells').bind fun _ _ _ => ends_const (Exec.ok_ne_outOfFuel _)
    · simp only [heq]
      exact hlater (fun name s hname hs => absurd hs (hnot name s hname)) cells hcells

/-- **`fill` ends, once the entries are read**, exactly if its calls do not run into a
cycle. -/
theorem ends_collectStructs_iff_acc :
    (Ends fun n => collectStructs types n types fun _ => none)
      ↔ Acc (fun c' c => Calls types c c') .fill := by
  constructor
  · intro hends
    obtain ⟨n, hne⟩ := hends.exists_ne_outOfFuel
    exact acc_calls_of_collectStructs hne
  · exact fun hacc => ends_collectStructs fun s hs st hcells =>
      ends_collectFieldsInto_of_acc (hacc.inv hs) hcells

end Structs

/-! ## Reading the entries -/

/-- **Reading the attributes of an entry ends**, with a value or an error. -/
structure DwarfEntry.ReadsEnd {G : Type} (entry : DwarfEntry G) : Prop where
  name : entry.name ≠ Exec.outOfFuel
  type : entry.type ≠ Exec.outOfFuel
  byteSize : entry.byteSize ≠ Exec.outOfFuel
  dataMemberLocation : entry.dataMemberLocation ≠ Exec.outOfFuel
  dataBitOffset : entry.dataBitOffset ≠ Exec.outOfFuel
  encoding : entry.encoding ≠ Exec.outOfFuel
  declaration : entry.declaration ≠ Exec.outOfFuel
  upperBound : entry.upperBound ≠ Exec.outOfFuel
  count : entry.count ≠ Exec.outOfFuel

/-- So does that of an entry and its children. -/
structure DwarfNode.ReadsEnd {G : Type} (node : DwarfNode G) : Prop where
  entry : node.entry.ReadsEnd
  children : ∀ child ∈ node.children, child.ReadsEnd

section Read

open Exec

variable {G : Type} {entry : DwarfEntry G} {node : DwarfNode G} {nodes : List (DwarfNode G)}

theorem read_ne_outOfFuel {α : Type} (attr : DwAt) {value : ResolveTypeResult G (Option α)}
    (h : value ≠ outOfFuel) : read attr value ≠ outOfFuel :=
  bind_ne_outOfFuel h fun _ _ => okOr_ne_outOfFuel _ _

namespace DwarfEntry.ReadsEnd

theorem readBaseType (h : entry.ReadsEnd) : entry.readBaseType ≠ outOfFuel := by
  refine bind_ne_outOfFuel (read_ne_outOfFuel _ h.byteSize) fun _ _ => ?_
  exact bind_ne_outOfFuel (read_ne_outOfFuel _ h.encoding) fun _ _ => ok_ne_outOfFuel _

theorem readStructMember (h : entry.ReadsEnd) : entry.readStructMember ≠ outOfFuel := by
  have hrest : ∀ offset, (do
      let name ← entry.name
      let typOffset ← read .type entry.type
      return (offset, name, typOffset)
      : ResolveTypeResult G (FieldOffset × Option String × UnitOffset)) ≠ outOfFuel := by
    intro offset
    refine bind_ne_outOfFuel h.name fun _ _ => ?_
    exact bind_ne_outOfFuel (read_ne_outOfFuel _ h.type) fun _ _ => ok_ne_outOfFuel _
  refine bind_ne_outOfFuel h.dataMemberLocation fun location _ => ?_
  cases location with
  | some offset => exact hrest (.Bytes offset)
  | none =>
    exact bind_ne_outOfFuel (read_ne_outOfFuel _ h.dataBitOffset) fun offset _ =>
      hrest (.Bits offset)

theorem readUnionMember (h : entry.ReadsEnd) : entry.readUnionMember ≠ outOfFuel := by
  refine bind_ne_outOfFuel h.name fun _ _ => ?_
  exact bind_ne_outOfFuel (read_ne_outOfFuel _ h.type) fun _ _ => ok_ne_outOfFuel _

theorem readSubrange (h : entry.ReadsEnd) : DwarfNode.readSubrange entry ≠ outOfFuel := by
  unfold DwarfNode.readSubrange
  split
  · exact fail_ne_outOfFuel _
  · refine bind_ne_outOfFuel h.upperBound fun bound _ => ?_
    cases bound with
    | some bound =>
      dsimp only
      split
      · exact ok_ne_outOfFuel _
      · exact checkedAdd_ne_outOfFuel _ _
    | none => exact bind_ne_outOfFuel h.count fun _ _ => ok_ne_outOfFuel _

end DwarfEntry.ReadsEnd

namespace DwarfNode.ReadsEnd

theorem endOfChildren (node : DwarfNode G) : node.endOfChildren ≠ outOfFuel := by
  unfold DwarfNode.endOfChildren
  cases node.stop with
  | some error => exact fail_ne_outOfFuel _
  | none => exact ok_ne_outOfFuel _

theorem readStruct (h : node.ReadsEnd) : node.readStruct ≠ outOfFuel := by
  refine bind_ne_outOfFuel h.entry.declaration fun declaration _ => ?_
  split
  · exact ok_ne_outOfFuel _
  · refine bind_ne_outOfFuel h.entry.byteSize fun _ _ => ?_
    refine bind_ne_outOfFuel (mapM_ne_outOfFuel fun child hchild =>
      (h.children child hchild).readStructMember) fun _ _ => ?_
    exact bind_ne_outOfFuel (endOfChildren node) fun _ _ => ok_ne_outOfFuel _

theorem readUnion (h : node.ReadsEnd) : node.readUnion ≠ outOfFuel := by
  refine bind_ne_outOfFuel h.entry.byteSize fun _ _ => ?_
  refine bind_ne_outOfFuel (mapM_ne_outOfFuel fun child hchild =>
    bind_ne_outOfFuel (h.children child hchild).readUnionMember fun _ _ => ok_ne_outOfFuel _)
    fun _ _ => ?_
  exact bind_ne_outOfFuel (endOfChildren node) fun _ _ => ok_ne_outOfFuel _

theorem readArray (h : node.ReadsEnd) : node.readArray ≠ outOfFuel := by
  refine bind_ne_outOfFuel (read_ne_outOfFuel _ h.entry.type) fun _ _ => ?_
  refine bind_ne_outOfFuel (foldlM_ne_outOfFuel (fun child hchild dim => ?_) _) fun _ _ => ?_
  · exact bind_ne_outOfFuel (h.children child hchild).readSubrange fun _ _ =>
      ite_panicked_ne_outOfFuel _ _
  · exact bind_ne_outOfFuel (endOfChildren node) fun _ _ => ok_ne_outOfFuel _

/-- **An entry is read to its end.** -/
theorem readType (h : node.ReadsEnd) : node.readType ≠ outOfFuel := by
  refine bind_ne_outOfFuel h.entry.name fun name _ => ?_
  cases node.entry.tag with
  | typedef =>
    exact bind_ne_outOfFuel (read_ne_outOfFuel _ h.entry.type) fun _ _ => ok_ne_outOfFuel _
  | baseType => exact bind_ne_outOfFuel h.entry.readBaseType fun _ _ => ok_ne_outOfFuel _
  | pointerType => exact bind_ne_outOfFuel h.entry.type fun _ _ => ok_ne_outOfFuel _
  | structureType =>
    refine bind_ne_outOfFuel h.readStruct fun s _ => ?_
    cases s with
    | some s => exact ok_ne_outOfFuel _
    | none => exact ok_ne_outOfFuel _
  | unionType => exact bind_ne_outOfFuel h.readUnion fun _ _ => ok_ne_outOfFuel _
  | arrayType => exact bind_ne_outOfFuel h.readArray fun _ _ => ok_ne_outOfFuel _
  | _ => exact ok_ne_outOfFuel _

end DwarfNode.ReadsEnd

/-- **So are all of them.** -/
theorem readTypes_ne_outOfFuel (h : ∀ node ∈ nodes, node.ReadsEnd) :
    readTypes nodes ≠ outOfFuel := by
  induction nodes with
  | nil => exact ok_ne_outOfFuel []
  | cons node nodes ih =>
    obtain ⟨hnode, hnodes⟩ := List.forall_mem_cons.mp h
    have hread := hnode.readType
    have hrest := ih hnodes
    unfold readTypes
    match hres : node.readType with
    | .ok (some (name, dwarfType)) => exact bind_ne_outOfFuel hrest fun _ _ => ok_ne_outOfFuel _
    | .ok none => exact hrest
    | .error (.err (.Gimli error)) => exact fail_ne_outOfFuel error
    | .error (.err (.MissingAttr attr)) => exact hrest
    | .error (.err .WrongAttrType) => exact hrest
    | .error .panic => exact panicked_ne_outOfFuel
    | .error .fuel => exact absurd hres hread

end Read

/-! ## All of it -/

section Fill

variable {G : Type}

/-- **Where loading ends, so do the calls.** -/
theorem acc_calls_of_ends_fill {nodes : List (DwarfNode G)} (h : Ends fun n => fill n nodes)
    {types : TypeList} (htypes : readTypes nodes = .ok types) :
    Acc (fun c' c => Calls types c c') .fill := by
  obtain ⟨n, hne⟩ := h.exists_ne_outOfFuel
  rw [fill, htypes, Exec.ok_bind] at hne
  exact acc_calls_of_collectStructs fun heq => hne (by rw [heq]; rfl)

/-- **Loading the types of a unit ends** exactly if the calls that `fill` makes do not run
into a cycle; and they run into one where they come to a type whose references lead back to
it, or to a structure that is in itself, at its beginning. -/
theorem fill_ends_iff (nodes : List (DwarfNode G)) (h : ∀ node ∈ nodes, node.ReadsEnd) :
    ((Ends fun n => fill n nodes)
      ↔ ∀ types, readTypes nodes = .ok types → ¬ RunsIntoCycle (Calls types) .fill)
    ∧ ∀ types, readTypes nodes = .ok types → (RunsIntoCycle (Calls types) .fill
      ↔ (∃ offset, Relation.ReflTransGen (Calls types) .fill (.getType offset)
          ∧ Relation.TransGen types.RefersTo offset offset)
        ∨ ∃ base s, Relation.ReflTransGen (Calls types) .fill (.collectFieldsInto base s)
          ∧ Relation.TransGen (BeginsWith types base) s s) := by
  refine ⟨?_, fun _ _ => runsIntoCycle_calls_iff⟩
  constructor
  · intro hends types htypes
    exact (acc_iff_of_finite_reach (finite_calls types)).mp (acc_calls_of_ends_fill hends htypes)
  · intro hcycle
    refine (ends_bind_iff (readTypes_ne_outOfFuel h) _).mpr fun types htypes => ?_
    have hacc := (acc_iff_of_finite_reach (finite_calls types)).mpr (hcycle types htypes)
    exact (ends_collectStructs_iff_acc.mpr hacc).map fun _ => Exec.mapErr_ne_outOfFuel _

/-! ### A unit that ends, and two that do not -/

/-- A typedef or a pointer. -/
def referenceNode (offset : UnitOffset) (tag : DwTag) (target : UnitOffset) : DwarfNode Empty :=
  ⟨{ DwarfEntry.bare offset tag with type := .ok (some target) }, [], none⟩

/-- Reading these entries ends. -/
theorem readsEnd_referenceNode (offset : UnitOffset) (tag : DwTag) (target : UnitOffset) :
    (referenceNode offset tag target).ReadsEnd where
  entry := by constructor <;> exact Exec.ok_ne_outOfFuel _
  children := List.forall_mem_nil _

theorem readsEnd_structNode (offset : UnitOffset) (tag : DwTag) (name memberName : Option String)
    (typ : UnitOffset) (location : U64) :
    (structNode offset tag name [memberEntry memberName typ location]).ReadsEnd where
  entry := by constructor <;> exact Exec.ok_ne_outOfFuel _
  children := by
    refine List.forall_mem_singleton.mpr ?_
    constructor <;> exact Exec.ok_ne_outOfFuel _

/-- A list: its nodes point to the next one. -/
def listNodes : List (DwarfNode Empty) :=
  [referenceNode 1 .pointerType 2,
    structNode 2 .structureType (some "node") [memberEntry (some "next") 1 0]]

/-- Its types. -/
def listTypes : TypeList :=
  [⟨1, none, .Ptr (some 2)⟩, ⟨2, some "node", .Struct ⟨8, [(.Bytes 0, some "next", 1)]⟩⟩]

theorem not_runsIntoCycle_listTypes : ¬ RunsIntoCycle (Calls listTypes) .fill := by
  have hentry : ∀ {offset i e}, listTypes.findByOffset offset = some (i, e) →
      e = ⟨1, none, .Ptr (some 2)⟩
        ∨ e = ⟨2, some "node", .Struct ⟨8, [(.Bytes 0, some "next", 1)]⟩⟩ := fun hfind => by
    simpa [listTypes] using (mem_of_findByOffset hfind).1
  rw [runsIntoCycle_calls_iff]
  rintro (⟨offset, -, hwalk⟩ | ⟨base, s, -, hwalk⟩)
  · -- the pointer refers to the structure, which refers to nothing
    have hlink : ∀ p q, listTypes.RefersTo p q → p = 1 ∧ q = 2 := by
      rintro p q ⟨i, e, f, hfind, href⟩
      obtain ⟨-, rfl⟩ := mem_of_findByOffset hfind
      obtain rfl | rfl := hentry hfind
      · exact ⟨rfl, (Prod.mk.inj (Option.some.inj href)).1.symm⟩
      · cases href
    obtain ⟨q, hfirst, -⟩ := Relation.TransGen.head'_iff.mp hwalk
    obtain ⟨p, -, hlast⟩ := Relation.TransGen.tail'_iff.mp hwalk
    exact absurd ((hlink _ _ hfirst).1.symm.trans (hlink _ _ hlast).2) (by decide)
  · -- the structure is in no other one, and none is in it
    obtain ⟨s', hfirst, -⟩ := Relation.TransGen.head'_iff.mp hwalk
    obtain ⟨s'', -, hlast⟩ := Relation.TransGen.tail'_iff.mp hwalk
    obtain ⟨-, typ, -, -, -, find⟩ := hlast
    obtain ⟨⟨i, e⟩, hfind, hmembers⟩ := Option.bind_eq_some_iff.mp find
    obtain rfl | rfl := hentry hfind
    · cases hmembers
    · obtain rfl := Option.some.inj hmembers
      obtain ⟨front, typ', rest, split, -, -⟩ := hfirst
      have hmem := split ▸ List.mem_append_cons_self
      simp at hmem

/-- **It is loaded**, as a structure is known by its name. -/
theorem fill_ends_listNodes : Ends fun n => fill n listNodes := by
  refine (fill_ends_iff listNodes ?_).1.mpr fun types htypes => ?_
  · refine List.forall_mem_cons.mpr ⟨readsEnd_referenceNode _ _ _, ?_⟩
    exact List.forall_mem_singleton.mpr (readsEnd_structNode _ _ _ _ _ _)
  · obtain rfl : listTypes = types := Except.ok.inj htypes
    exact not_runsIntoCycle_listTypes

/-- A typedef of itself, and a member that has the type. -/
def selfTypedefNodes : List (DwarfNode Empty) :=
  [referenceNode 1 .typedef 1,
    structNode 2 .structureType (some "s") [memberEntry (some "x") 1 0]]

/-- The structure. -/
def selfTypedefStruct : DwarfStruct := ⟨8, [(.Bytes 0, some "x", 1)]⟩

/-- The types. -/
def selfTypedefTypes : TypeList := [⟨1, none, .Typedef 1⟩, ⟨2, some "s", .Struct selfTypedefStruct⟩]

theorem runsIntoCycle_selfTypedefTypes : RunsIntoCycle (Calls selfTypedefTypes) .fill := by
  have htypes : selfTypedefTypes
    = [⟨1, none, .Typedef 1⟩] ++ ⟨2, some "s", .Struct selfTypedefStruct⟩ :: [] := rfl
  have hfields : selfTypedefStruct.fields = [] ++ (.Bytes 0, some "x", 1) :: [] := rfl
  have hcollects : Calls selfTypedefTypes .fill (.collectFieldsInto 0 selfTypedefStruct) :=
    .collects htypes rfl rfl (List.forall_mem_singleton.mpr fun _ _ _ h => nomatch h)
  have hnamed : Calls selfTypedefTypes (.collectFieldsInto 0 selfTypedefStruct) (.getType 1) :=
    .named hfields (List.forall_mem_nil _) (by decide)
  refine runsIntoCycle_calls_iff.mpr (.inl ⟨1, .tail (.single hcollects) hnamed, .single ?_⟩)
  exact ⟨0, _, _, rfl, rfl⟩

/-- A structure that is its own anonymous member. -/
def selfMemberNodes : List (DwarfNode Empty) :=
  [structNode 1 .structureType (some "s") [memberEntry none 1 0]]

/-- The structure. -/
def selfMemberStruct : DwarfStruct := ⟨8, [(.Bytes 0, none, 1)]⟩

/-- The types. -/
def selfMemberTypes : TypeList := [⟨1, some "s", .Struct selfMemberStruct⟩]

theorem runsIntoCycle_selfMemberTypes : RunsIntoCycle (Calls selfMemberTypes) .fill := by
  have htypes : selfMemberTypes = [] ++ ⟨1, some "s", .Struct selfMemberStruct⟩ :: [] := rfl
  have hcollects : Calls selfMemberTypes .fill (.collectFieldsInto 0 selfMemberStruct) :=
    .collects htypes rfl rfl (List.forall_mem_nil _)
  refine runsIntoCycle_calls_iff.mpr (.inr ⟨0, _, .single hcollects, .single ?_⟩)
  exact ⟨[], 1, [], rfl, List.forall_mem_nil _, rfl⟩

/-- **Neither is ever loaded.** -/
theorem not_ends_fill_selfNodes :
    ((∀ node ∈ selfTypedefNodes, node.ReadsEnd) ∧ ¬ Ends fun n => fill n selfTypedefNodes)
      ∧ (∀ node ∈ selfMemberNodes, node.ReadsEnd) ∧ ¬ Ends fun n => fill n selfMemberNodes := by
  refine ⟨⟨?_, fun hends => ?_⟩, ?_, fun hends => ?_⟩
  · refine List.forall_mem_cons.mpr ⟨readsEnd_referenceNode _ _ _, ?_⟩
    exact List.forall_mem_singleton.mpr (readsEnd_structNode _ _ _ _ _ _)
  · have hacc := acc_calls_of_ends_fill hends (rfl : _ = Except.ok selfTypedefTypes)
    exact (acc_iff_of_finite_reach (finite_calls _)).mp hacc runsIntoCycle_selfTypedefTypes
  · exact List.forall_mem_singleton.mpr (readsEnd_structNode _ _ _ _ _ _)
  · have hacc := acc_calls_of_ends_fill hends (rfl : _ = Except.ok selfMemberTypes)
    exact (acc_iff_of_finite_reach (finite_calls _)).mp hacc runsIntoCycle_selfMemberTypes

end Fill

end Dwarf
