import Vminer.SymbolTypes

/-!
# Types in a program database

The records of a program database are numbered, from the first one of its stream on, and
refer to each other by these numbers; below them are those of the primitive types.
`get_type` resolves a number and remembers what it found in a cell of the record.

The records themselves are parsed by a library. An array record has the sizes in bytes of
its dimensions, each with the lower ones in it.
-/

namespace Pdb

/-- `TypeIndex` -/
abbrev TypeIndex : Type := BitVec 32

/-- `ClassKind` -/
inductive ClassKind where
  | Class
  | Struct
  | Interface
deriving DecidableEq, Repr

/-- `MemberType` -/
structure MemberType where
  fieldType : TypeIndex
  offset : U64
  name : List UInt8
deriving DecidableEq, Repr

/-- `ClassType` -/
structure ClassType where
  kind : ClassKind
  fields : Option TypeIndex
  size : U64
  name : List UInt8
deriving DecidableEq, Repr

/-- `ArrayType` -/
structure ArrayType where
  elementType : TypeIndex
  dimensions : List (BitVec 32)
deriving DecidableEq, Repr

/-- `TypeData`. Of what a field list has, only the members are looked at. -/
inductive TypeData where
  | Array (a : ArrayType)
  | Bitfield
  | Class (c : ClassType)
  | Enumeration (underlyingType : TypeIndex)
  | Modifier (underlyingType : TypeIndex)
  | Procedure
  | Pointer (underlyingType : TypeIndex)
  | Union (name : List UInt8)
  | FieldList (fields : List (Option MemberType))
  | other
deriving DecidableEq, Repr

/-- `core::str::from_utf8` -/
def fromUtf8 (bytes : List UInt8) : Option String := String.fromUTF8? ⟨bytes.toArray⟩

/-- The primitive that a number stands for. -/
def primitiveOf (ty : ℕ) : Option Symbols.Primitive :=
  if ty = 0x03 then some .Void
  else if ty = 0x10 ∨ ty = 0x68 then some .I8
  else if ty = 0x20 ∨ ty = 0x69 then some .U8
  else if ty = 0x11 ∨ ty = 0x72 then some .I16
  else if ty = 0x21 ∨ ty = 0x73 then some .U16
  else if ty = 0x12 ∨ ty = 0x74 then some .I32
  else if ty = 0x22 ∨ ty = 0x75 then some .U32
  else if ty = 0x13 ∨ ty = 0x76 then some .I64
  else if ty = 0x23 ∨ ty = 0x77 then some .U64
  else none

/-- `classify_primitive`: the pointers to the primitives have their numbers, with `0x600`
added. -/
def classifyPrimitive (ty : TypeIndex) : Exec Empty (Option Symbols.TypeKind) :=
  if ty.toNat < 0x1000 then
    match primitiveOf ty.toNat with
    | some primitive => return some (.Primitive primitive)
    | none =>
      if 0x600 ≤ ty.toNat then
        return (primitiveOf (ty.toNat - 0x600)).map fun primitive => .Pointer (.Primitive primitive)
      else return none
  else Exec.panicked

/-- `TypeList`, without the cells. -/
structure TypeList where
  offset : U64
  types : List TypeData
deriving DecidableEq, Repr

/-- The cells of the records, by their places in the list. -/
abbrev Cells : Type := ℕ → Option Symbols.TypeKind

namespace TypeList

variable (list : TypeList)

/-- The record of a number, with its place. -/
def find (index : TypeIndex) : Exec Empty (Option (ℕ × TypeData)) := do
  let i ← checkedSub (index.setWidth 64) list.offset
  return list.types[i.toNat]?.map fun data => (i.toNat, data)

/-- `TypeList::get` -/
def get (index : TypeIndex) : Exec Empty (Option TypeData) := do
  let found ← list.find index
  return found.map Prod.snd

/-- `TypeList::classify_type`, given how the types it refers to are resolved. -/
def classifyType
    (getType : TypeIndex → Cells → Exec Empty (Option Symbols.TypeKind × Cells)) :
    TypeData → Cells → Exec Empty (Option Symbols.TypeKind × Cells)
  | .Array a, cells => do
    let (typ, cells) ← getType a.elementType cells
    match typ with
    | none => return (none, cells)
    | some typ => do
      let dim ← a.dimensions.foldlM checkedMul 1
      return (some (.Array typ dim), cells)
  | .Bitfield, cells => return (some .Bitfield, cells)
  | .Class c, cells => return ((fromUtf8 c.name).map .Struct, cells)
  | .Enumeration underlyingType, cells => getType underlyingType cells
  | .Modifier underlyingType, cells => getType underlyingType cells
  | .Procedure, cells => return (some .Function, cells)
  | .Pointer underlyingType, cells => do
    let (typ, cells) ← getType underlyingType cells
    return (typ.map .Pointer, cells)
  | .Union name, cells => return ((fromUtf8 name).map .Union, cells)
  | .FieldList _, cells => return (none, cells)
  | .other, cells => return (none, cells)

/-- `TypeList::get_type` -/
def getType : ℕ → TypeIndex → Cells → Exec Empty (Option Symbols.TypeKind × Cells)
  | 0, _, _ => Exec.outOfFuel
  | fuel + 1, index, cells =>
    if index.toNat < 0x1000 then do
      let ty ← classifyPrimitive index
      return (ty, cells)
    else do
      match ← list.find index with
      | none => return (none, cells)
      | some (i, data) =>
        match cells i with
        | some typ => return (some typ, Function.update cells i (some typ))
        | none => do
          let (resolved, cells) ← classifyType (getType fuel) data (Function.update cells i none)
          return (resolved, Function.update cells i resolved)

/-- `collect_fields` -/
def collectFields (fuel : ℕ) : List (Option MemberType) → Cells →
    Exec Empty (List Symbols.StructField × Cells)
  | [], cells => return ([], cells)
  | none :: fields, cells => collectFields fuel fields cells
  | some member :: fields, cells => do
    let (typ, cells) ← list.getType fuel member.fieldType cells
    let (rest, cells) ← collectFields fuel fields cells
    match fromUtf8 member.name with
    | none => return (rest, cells)
    | some name => return (⟨name, member.offset, typ.getD .Unknown⟩ :: rest, cells)

/-- The structure that `load_types` makes of a record, if any. -/
def loadType (fuel : ℕ) : TypeData → Cells → Exec Empty (Option Symbols.Struct × Cells)
  | .Class ty, cells =>
    match fromUtf8 ty.name, ty.fields with
    | some name, some fields => do
      match ← list.get fields with
      | none => return (none, cells)
      | some members =>
        if ty.kind ≠ .Struct then return (none, cells)
        else
          match members with
          | .FieldList fields => do
            let (fields, cells) ← list.collectFields fuel fields cells
            return (some ⟨ty.size, name, fields⟩, cells)
          | _ => return (none, cells)
    | _, _ => return (none, cells)
  | _, cells => return (none, cells)

end TypeList

/-- `load_types`: the structures that the records add to the symbols. -/
def loadTypes (fuel : ℕ) (list : TypeList) :
    List TypeData → Cells → Exec Empty (List Symbols.Struct)
  | [], _ => return []
  | item :: items, cells => do
    let (s, cells) ← list.loadType fuel item cells
    let structs ← loadTypes fuel list items cells
    return s.toList ++ structs

end Pdb
