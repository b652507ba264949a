import Ice.Stream.InputStream

/-!
# Slice classes, values and instances

The types that the Slice compilers give to the decoders and encoders: what a generated class reads
and writes in each of its slices, the values of its data members, the preserved slices of an
instance and the Slice loader. References to instances occur in values as a parameter, so that one
type of values serves the sender's graph (references are instances) and the decoder (references are
the storage locations that the decoder patches).
-/

namespace Ice

/-- A type ID, as the bytes of its string. -/
abbrev TypeId := List UInt8

/-- `Value::ice_staticId()`: `::Ice::Object`. -/
def objectTypeId : TypeId := [58, 58, 73, 99, 101, 58, 58, 79, 98, 106, 101, 99, 116]

/-- `std::to_string` of a compact ID, the key under which the Slice loader knows it. -/
def compactIdString (n : Nat) : TypeId := (Nat.toDigits 10 n).map fun c => UInt8.ofNat c.toNat

/-- The types of data members: a built-in type or struct part of `n` bytes, an enumeration, a
    string, a class, a sequence, and the concatenation of the members of a struct. -/
inductive FieldType where
  | fixed (n : Nat)
  | enum (maxValue : Nat)
  | string
  | cls (typeId : TypeId)
  | seq (element : FieldType)
  | pair (first second : FieldType)
deriving DecidableEq, Repr

/-- `StreamableTraits::minWireSize`. -/
def FieldType.minWireSize : FieldType → Nat
  | .fixed n => n
  | .enum _ => 1
  | .string => 1
  | .cls _ => 1
  | .seq _ => 1
  | .pair a b => a.minWireSize + b.minWireSize

/-- The types of optional data members, by the helper that encodes them
    (`StreamHelpers.h:395-622`): a built-in of 1, 2, 4 or 8 bytes, an enumeration, a type encoded as
    it is with the `VSize` format (a string, a sequence of bytes), a fixed-size struct or a
    sequence of fixed-size elements after its size, and a type of variable size after a 32-bit
    size. Slice has no optional members of class type. -/
inductive OptionalType where
  | fixed (log2 : Fin 4)
  | enum (maxValue : Nat)
  | direct (t : FieldType)
  | vsize (t : FieldType)
  | fsize (t : FieldType)
deriving DecidableEq, Repr

/-- `StreamOptionalHelper::optionalFormat`. -/
def OptionalType.format : OptionalType → OptionalFormat
  | .fixed 0 => .F1
  | .fixed 1 => .F2
  | .fixed 2 => .F4
  | .fixed 3 => .F8
  | .enum _ => .Size
  | .direct _ => .VSize
  | .vsize _ => .VSize
  | .fsize _ => .FSize

/-- The type whose value follows the optional header and the size, if any. -/
def OptionalType.content : OptionalType → FieldType
  | .fixed log2 => .fixed (2 ^ log2.val)
  | .enum maxValue => .enum maxValue
  | .direct t => t
  | .vsize t => t
  | .fsize t => t

/-- Values of data members. `seq` holds a chain of `cons` that ends in `nil`; `ref` holds a
    reference. -/
inductive Val (ρ : Type) where
  | fixed (bytes : List UInt8)
  | enum (value : Nat)
  | string (bytes : List UInt8)
  | ref (r : ρ)
  | seq (elements : Val ρ)
  | nil
  | cons (head tail : Val ρ)
  | pair (first second : Val ρ)
deriving DecidableEq, Repr

/-- What a generated class reads and writes in one slice: the members, and the optional members
    with their tags, in the order of the tags. -/
structure SliceDef where
  typeId : TypeId
  compactId : Option Nat
  members : List FieldType
  optionals : List (Nat × OptionalType)
deriving DecidableEq, Repr

/-- A generated class or user exception: its slices, most derived first. The base class
    `Ice::Value` has none. -/
abbrev ClassDef := List SliceDef

/-- `dynamic_cast`, and `is` in Swift: whether an instance of the class has the given type. -/
def ClassDef.isA (c : ClassDef) (t : TypeId) : Bool :=
  t = objectTypeId ∨ t ∈ c.map SliceDef.typeId

/-- What a Slice loader creates for a type ID. -/
inductive Loaded where
  | cls (c : ClassDef)
  | exception (c : ClassDef)
deriving DecidableEq, Repr

/-- `SliceLoader`: a partial map from type IDs to generated classes and exceptions. -/
abbrev SliceLoader := TypeId → Option Loaded

/-- The Slice loader's class for a type ID. -/
def SliceLoader.newClassInstance (l : SliceLoader) (t : TypeId) : Option ClassDef :=
  match l t with
  | some (.cls c) => some c
  | _ => none

/-- `SliceInfo` (`cpp/include/Ice/SlicedData.h`): a preserved slice. -/
structure SliceInfo (ρ : Type) where
  typeId : TypeId
  compactId : Option Nat
  bytes : List UInt8
  instances : List ρ
  hasOptionalMembers : Bool
  isLastSlice : Bool
deriving DecidableEq, Repr

/-- The values of one slice of an instance. -/
structure SliceFields (ρ : Type) where
  members : List (Val ρ)
  optionals : List (Option (Val ρ))
deriving DecidableEq, Repr

/-- The address of a class instance. -/
abbrev ObjId := Nat

/-- A class instance in memory, or the variables of the reader (see `Decoder`). References are
    held in the list `slots`, and the values in `fields` name them by their position. -/
structure Obj where
  cls : ClassDef
  unknownTypeId : Option TypeId := none
  fields : List (SliceFields Nat) := []
  slots : List (Option ObjId) := []
  slicedData : List (SliceInfo (Option ObjId)) := []
deriving DecidableEq, Repr

end Ice
