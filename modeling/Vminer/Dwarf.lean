import Vminer.BinarySearch
import Vminer.SymbolTypes

/-!
# Types in DWARF

The entries of a unit are read one after the other into a list of types that refer to
each other by their offsets. The references are then followed: `get_type` resolves a
type and remembers what it found in a cell of the entry, and `collect_fields` flattens
a structure, in that it takes the members of the anonymous structures and unions in it
for its own.

The entries themselves are read by a library: an entry is given by what reading each of
its attributes yields. The cells are the only part of the list that changes, and are
kept apart from it. Nothing bounds the references, so each recursion takes a step
budget.
-/

namespace Dwarf

/-- `UnitOffset` -/
abbrev UnitOffset : Type := ℕ

/-- `DwAt` -/
inductive DwAt where
  | name
  | type
  | byteSize
  | dataMemberLocation
  | dataBitOffset
  | encoding
  | declaration
  | upperBound
  | count
deriving DecidableEq, Repr

/-- `DwAte` -/
inductive DwAte where
  | signed
  | signedChar
  | other
deriving DecidableEq, Repr

/-- `DwTag` -/
inductive DwTag where
  | typedef
  | baseType
  | pointerType
  | structureType
  | unionType
  | arrayType
  | subroutineType
  | subrangeType
  | subprogram
  | variable
  | other
deriving DecidableEq, Repr

/-- `ResolveTypeError`, with the errors of the library. -/
inductive ResolveTypeError (G : Type) where
  | Gimli (error : G)
  | MissingAttr (attr : DwAt)
  | WrongAttrType
deriving DecidableEq, Repr

/-- `ResolveTypeResult` -/
abbrev ResolveTypeResult (G α : Type) : Type := Exec (ResolveTypeError G) α

/-- `DwarfEntry`: what `try_read` yields for each attribute. -/
structure DwarfEntry (G : Type) where
  offset : UnitOffset
  tag : DwTag
  name : ResolveTypeResult G (Option String)
  type : ResolveTypeResult G (Option UnitOffset)
  byteSize : ResolveTypeResult G (Option U64)
  dataMemberLocation : ResolveTypeResult G (Option U64)
  dataBitOffset : ResolveTypeResult G (Option U64)
  encoding : ResolveTypeResult G (Option DwAte)
  declaration : ResolveTypeResult G (Option Bool)
  upperBound : ResolveTypeResult G (Option (BitVec 64))
  count : ResolveTypeResult G (Option U64)

/-- An entry without attributes. -/
def DwarfEntry.bare {G : Type} (offset : UnitOffset) (tag : DwTag) : DwarfEntry G where
  offset := offset
  tag := tag
  name := .ok none
  type := .ok none
  byteSize := .ok none
  dataMemberLocation := .ok none
  dataBitOffset := .ok none
  encoding := .ok none
  declaration := .ok none
  upperBound := .ok none
  count := .ok none

/-- `DwarfNode`: an entry, the entries of its children – none of them is looked into
any deeper – and the error that ends them, if one does. -/
structure DwarfNode (G : Type) where
  entry : DwarfEntry G
  children : List (DwarfEntry G)
  stop : Option G

/-- `BaseType` -/
structure BaseType where
  len : U64
  signed : Bool
deriving DecidableEq, Repr

/-- `FieldOffset` -/
inductive FieldOffset where
  | Bytes (offset : U64)
  | Bits (offset : U64)
deriving DecidableEq, Repr

/-- `DwarfStruct` -/
structure DwarfStruct where
  size : U64
  fields : List (FieldOffset × Option String × UnitOffset)
deriving DecidableEq, Repr

/-- `DwarfType` -/
inductive DwarfType where
  | Primitive (base : BaseType)
  | Struct (s : DwarfStruct)
  | StructDeclaration
  | Union (s : DwarfStruct)
  | Ptr (offset : Option UnitOffset)
  | Typedef (offset : UnitOffset)
  | Array (offset : UnitOffset) (size : BitVec 32)
  | Function
deriving DecidableEq, Repr

/-- `TypeEntry`, without its cell. -/
structure TypeEntry where
  offset : UnitOffset
  name : Option String
  dwarfType : DwarfType
deriving DecidableEq, Repr

/-- `TypeList` -/
abbrev TypeList : Type := List TypeEntry

/-! ## Reading the entries -/

section Read

variable {G : Type}

/-- `DwarfEntry::read`: an attribute that has to be there. -/
def read {α : Type} (attr : DwAt) (value : ResolveTypeResult G (Option α)) :
    ResolveTypeResult G α := do
  let value ← value
  Exec.okOr value (.MissingAttr attr)

namespace DwarfEntry

/-- `DwarfEntry::read_base_type` -/
def readBaseType (entry : DwarfEntry G) : ResolveTypeResult G BaseType := do
  let len ← read .byteSize entry.byteSize
  let ate ← read .encoding entry.encoding
  return { len, signed := ate = .signed ∨ ate = .signedChar }

/-- `DwarfEntry::read_struct_member` -/
def readStructMember (entry : DwarfEntry G) :
    ResolveTypeResult G (FieldOffset × Option String × UnitOffset) := do
  let fieldOffset ← do
    match ← entry.dataMemberLocation with
    | some offset => pure (.Bytes offset)
    | none => do
      let offset ← read .dataBitOffset entry.dataBitOffset
      pure (.Bits offset)
  let name ← entry.name
  let typOffset ← read .type entry.type
  return (fieldOffset, name, typOffset)

/-- `DwarfEntry::read_union_member` -/
def readUnionMember (entry : DwarfEntry G) :
    ResolveTypeResult G (Option String × UnitOffset) := do
  let name ← entry.name
  let typOffset ← read .type entry.type
  return (name, typOffset)

end DwarfEntry

namespace DwarfNode

/-- The end of the children. -/
def endOfChildren (node : DwarfNode G) : ResolveTypeResult G Unit :=
  match node.stop with
  | some error => Exec.fail (.Gimli error)
  | none => return ()

/-- `DwarfNode::read_struct` -/
def readStruct (node : DwarfNode G) : ResolveTypeResult G (Option DwarfStruct) := do
  let declaration ← node.entry.declaration
  if declaration = some true then return none
  else do
    let size ← node.entry.byteSize
    let fields ← node.children.mapM DwarfEntry.readStructMember
    node.endOfChildren
    return some { size := size.getD 0, fields }

/-- `DwarfNode::read_union` -/
def readUnion (node : DwarfNode G) : ResolveTypeResult G DwarfStruct := do
  let size ← node.entry.byteSize
  let fields ← node.children.mapM fun child => do
    let (name, ty) ← child.readUnionMember
    return (FieldOffset.Bytes 0, name, ty)
  node.endOfChildren
  return { size := size.getD 0, fields }

/-- The size of a subrange. -/
def readSubrange (child : DwarfEntry G) : ResolveTypeResult G U64 := do
  if child.tag ≠ .subrangeType then Exec.fail .WrongAttrType
  else do
    match ← child.upperBound with
    | some bound => if bound.slt 0 then return 0 else checkedAdd bound 1
    | none => do
      let count ← child.count
      return count.getD 0

/-- `DwarfNode::read_array` -/
def readArray (node : DwarfNode G) : ResolveTypeResult G (UnitOffset × BitVec 32) := do
  let typ ← read .type node.entry.type
  let dim ← node.children.foldlM (fun dim child => do
    let size ← readSubrange child
    checkedMul dim (size.setWidth 32)) 1
  node.endOfChildren
  return (typ, dim)

/-- `DwarfNode::read_type` -/
def readType (node : DwarfNode G) :
    ResolveTypeResult G (Option (Option String × DwarfType)) := do
  let name ← node.entry.name
  match node.entry.tag with
  | .typedef => do
    let offset ← read .type node.entry.type
    return some (name, .Typedef offset)
  | .baseType => do
    let base ← node.entry.readBaseType
    return some (name, .Primitive base)
  | .pointerType => do
    let offset ← node.entry.type
    return some (name, .Ptr offset)
  | .structureType => do
    match ← node.readStruct with
    | some s => return some (name, .Struct s)
    | none => return some (name, .StructDeclaration)
  | .unionType => do
    let s ← node.readUnion
    return some (name, .Union s)
  | .arrayType => do
    let (typ, size) ← node.readArray
    return some (name, .Array typ size)
  | .subroutineType => return some (name, .Function)
  | _ => return none

end DwarfNode

end Read

/-! ## Following the references -/

/-- `BaseType::to_primitive` -/
def BaseType.toPrimitive (base : BaseType) : Symbols.TypeKind :=
  match base.len, base.signed with
  | 1, true => .Primitive .I8
  | 1, false => .Primitive .U8
  | 2, true => .Primitive .I16
  | 2, false => .Primitive .U16
  | 4, true => .Primitive .I32
  | 4, false => .Primitive .U32
  | 8, true => .Primitive .I64
  | 8, false => .Primitive .U64
  | _, _ => .Unknown

/-- The cells of the entries, by their places in the list. -/
abbrev Cells : Type := ℕ → Option Symbols.TypeKind

namespace TypeList

/-- `TypeList::find_by_offset`, with the place of the entry. -/
def findByOffset (types : TypeList) (offset : UnitOffset) : Option (ℕ × TypeEntry) :=
  match binarySearchByKey (m := Id) TypeEntry.offset offset types with
  | .ok index => types[index]?.map fun entry => (index, entry)
  | .error _ => none

/-- `TypeList::classify_type`, given how the types it refers to are resolved. -/
def classifyType
    (getType : UnitOffset → Cells → Exec Empty (Option Symbols.TypeKind × Cells))
    (typ : TypeEntry) (cells : Cells) : Exec Empty (Option Symbols.TypeKind × Cells) :=
  match typ.dwarfType with
  | .Primitive base => return (some base.toPrimitive, cells)
  | .Struct _ => return (typ.name.map .Struct, cells)
  | .StructDeclaration => return (typ.name.map .Struct, cells)
  | .Union _ => return (typ.name.map .Union, cells)
  | .Ptr none => return (some (.Pointer .Unknown), cells)
  | .Ptr (some offset) => do
    let (inner, cells) ← getType offset cells
    return (some (.Pointer (inner.getD .Unknown)), cells)
  | .Typedef offset => getType offset cells
  | .Array offset size => do
    let (inner, cells) ← getType offset cells
    return (inner.map fun inner => .Array inner size, cells)
  | .Function => return (some .Function, cells)

/-- The type in the cell of an entry, which is emptied, or else what the entry is
classified as. -/
def takeOrClassify
    (getType : UnitOffset → Cells → Exec Empty (Option Symbols.TypeKind × Cells)) (index : ℕ)
    (typ : TypeEntry) (cells : Cells) : Exec Empty (Option Symbols.TypeKind × Cells) :=
  let taken := cells index
  let cells := Function.update cells index none
  match taken with
  | some ty => return (some ty, cells)
  | none => classifyType getType typ cells

/-- `TypeList::get_type` -/
def getType (types : TypeList) :
    ℕ → UnitOffset → Cells → Exec Empty (Option Symbols.TypeKind × Cells)
  | 0, _, _ => Exec.outOfFuel
  | fuel + 1, offset, cells =>
    match types.findByOffset offset with
    | none => return (none, cells)
    | some (index, typ) => do
      let (ty, cells) ← takeOrClassify (getType types fuel) index typ cells
      match ty with
      | none => return (none, cells)
      | some ty => return (some ty, Function.update cells index (some ty))

end TypeList

/-- The structure or union whose members an anonymous member stands for. -/
def DwarfType.members : DwarfType → Option DwarfStruct
  | .Struct s => some s
  | .Union s => some s
  | _ => none

/-- The fields that were collected, and the cells. -/
abbrev Collected : Type := List Symbols.StructField × Cells

/-- The body of the loop of `collect_fields_into`, given how a structure inside is
collected. -/
def collectField (types : TypeList) (fuel : ℕ)
    (collectFieldsInto : U64 → DwarfStruct → Collected → Exec Empty Collected)
    (baseOffset : U64) :
    Collected → FieldOffset × Option String × UnitOffset → Exec Empty Collected
  | (fields, cells), (.Bits _, _, _) => return (fields, cells)
  | (fields, cells), (.Bytes offset, name, typOffset) => do
    let offset ← checkedAdd baseOffset offset
    match name with
    | some name => do
      let (typ, cells) ← types.getType fuel typOffset cells
      return (fields ++ [⟨name, offset, typ.getD .Unknown⟩], cells)
    | none =>
      match types.findByOffset typOffset with
      | some (_, ty) =>
        match ty.dwarfType.members with
        | some s => collectFieldsInto offset s (fields, cells)
        | none => return (fields, cells)
      | none => return (fields, cells)

/-- `collect_fields_into` -/
def collectFieldsInto (types : TypeList) : ℕ → U64 → DwarfStruct → Collected → Exec Empty Collected
  | 0, _, _, _ => Exec.outOfFuel
  | fuel + 1, baseOffset, s, st =>
    s.fields.foldlM (collectField types fuel (collectFieldsInto types fuel) baseOffset) st

/-- `collect_fields` -/
def collectFields (types : TypeList) (fuel : ℕ) (s : DwarfStruct) (cells : Cells) :
    Exec Empty Collected :=
  collectFieldsInto types fuel 0 s ([], cells)

/-! ## Loading a unit -/

section Fill

variable {G : Type}

/-- The first pass of `fill`: all entries that are types. An entry that cannot be read
is left out, unless it is the library that fails. -/
def readTypes : List (DwarfNode G) → Exec G TypeList
  | [] => return []
  | node :: nodes =>
    match node.readType with
    | .ok (some (name, dwarfType)) => do
      let types ← readTypes nodes
      return ⟨node.entry.offset, name, dwarfType⟩ :: types
    | .error (.err (.Gimli error)) => Exec.fail error
    | .error .panic => Exec.panicked
    | .error .fuel => Exec.outOfFuel
    | _ => readTypes nodes

/-- The second pass of `fill`: the structures that have a name. -/
def collectStructs (types : TypeList) (fuel : ℕ) :
    List TypeEntry → Cells → Exec Empty (List Symbols.Struct)
  | [], _ => return []
  | typ :: rest, cells =>
    match typ.name, typ.dwarfType with
    | some name, .Struct s => do
      let (fields, cells) ← collectFields types fuel s cells
      let structs ← collectStructs types fuel rest cells
      return ⟨s.size, name, fields⟩ :: structs
    | _, _ => collectStructs types fuel rest cells

/-- `fill`: the structures that a unit adds to the symbols. -/
def fill (fuel : ℕ) (nodes : List (DwarfNode G)) : Exec G (List Symbols.Struct) := do
  let types ← readTypes nodes
  Exec.mapErr Empty.elim (collectStructs types fuel types fun _ => none)

end Fill

end Dwarf
