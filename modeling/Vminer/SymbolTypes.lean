import Vminer.Core

/-!
# Types of a module's symbols

The types that the debugging information of a module describes, and its structures:
their fields with the types and the places they have. `find_offset_and_size` does not
know the size of a field; it takes the field to end where the next one begins.
-/

namespace Symbols

/-- `Primitive` -/
inductive Primitive where
  | Void
  | I8
  | U8
  | I16
  | U16
  | I32
  | U32
  | I64
  | U64
deriving DecidableEq, Repr

/-- `TypeKind` -/
inductive TypeKind where
  | Primitive (primitive : Primitive)
  | Bitfield
  | Array (type : TypeKind) (dim : BitVec 32)
  | Function
  | Pointer (type : TypeKind)
  | Struct (name : String)
  | Union (name : String)
  | Unknown
deriving DecidableEq, Repr

/-- `StructField` -/
structure StructField where
  name : String
  offset : U64
  typ : TypeKind
deriving DecidableEq, Repr

/-- `Struct` -/
structure Struct where
  size : U64
  name : String
  fields : List StructField
deriving DecidableEq, Repr

/-- `StructRef::find_offset_and_size` -/
def Struct.findOffsetAndSize (s : Struct) (fieldName : String) : Exec VmError (U64 × U64) := do
  let (field, i) ← Exec.okOr (s.fields.zipIdx.find? fun (field, _) => field.name == fieldName)
    (.missingField fieldName s.name)
  let next := match s.fields[i + 1]? with
    | some f => f.offset
    | none => s.size
  let size ← checkedSub next field.offset
  return (field.offset, size)

end Symbols
