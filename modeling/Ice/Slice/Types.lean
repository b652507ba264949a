import Ice.Classes.Decoder

/-!
# Slice types

The types of a Slice definition (`cpp/src/Slice/Parser.cpp`), with what the compilers compute from
them to generate marshaling code: the smallest number of bytes of an encoded value, whether all
values have that many bytes, and the format of an optional member. `DataType.Value` is the type of
the values that generated code reads and writes.
-/

namespace Ice.Slice

/-- The numeric built-in types. -/
inductive Numeric where
  | byte
  | short
  | int
  | long
  | float
  | double
deriving DecidableEq, Repr

/-- The number of bytes of an encoded number, `MemoryLayout<Element>.size` in Swift. -/
def Numeric.size : Numeric → Nat
  | .byte => 1
  | .short => 2
  | .int => 4
  | .long => 8
  | .float => 4
  | .double => 8

theorem Numeric.size_pos (n : Numeric) : 0 < n.size := by cases n <;> decide

/-- `Slice::Enum`: the values of its enumerators, which are 32-bit integers and not negative. -/
structure Enum where
  first : Nat
  others : List Nat
  lt : ∀ v ∈ first :: others, v < 2 ^ 31
deriving DecidableEq, Repr

namespace Enum

/-- The values of the enumerators. -/
def values (e : Enum) : List Nat := e.first :: e.others

def minValue (e : Enum) : Nat := e.others.foldl min e.first

def maxValue (e : Enum) : Nat := e.others.foldl max e.first

end Enum

mutual

/-- `Slice::Type`. The built-in type `Value` is the class `::Ice::Object`; a proxy of any interface
    has the encoding of the built-in type `Object*`. -/
inductive DataType where
  | numeric (kind : Numeric)
  | bool
  | string
  | enum (e : Enum)
  | proxy
  | cls (typeId : TypeId)
  | struct (members : Members)
  | sequence (element : DataType)
  | dictionary (key value : DataType)

/-- The types of the data members of a struct, in the order of their declaration. The grammar
    rejects a struct without members (`Grammar.y:604-609`). -/
inductive Members where
  | last (type : DataType)
  | cons (type : DataType) (rest : Members)

end

mutual

/-- `Type::minWireSize`: at least so many bytes encode a value. -/
def DataType.minWireSize : DataType → Nat
  | .numeric kind => kind.size
  | .bool => 1
  | .string => 1 -- an empty string
  | .enum _ => 1
  | .proxy => 2 -- the empty identity of a null proxy
  | .cls _ => 1 -- an index instead of an instance
  | .struct members => members.minWireSize
  | .sequence _ => 1 -- an empty sequence
  | .dictionary _ _ => 1 -- an empty dictionary

def Members.minWireSize : Members → Nat
  | .last type => type.minWireSize
  | .cons type rest => type.minWireSize + rest.minWireSize

end

mutual

/-- `Type::isVariableLength`. -/
def DataType.isVariableLength : DataType → Bool
  | .numeric _ => false
  | .bool => false
  | .string => true
  | .enum _ => true
  | .proxy => true
  | .cls _ => true
  | .struct members => members.isVariableLength
  | .sequence _ => true
  | .dictionary _ _ => true

def Members.isVariableLength : Members → Bool
  | .last type => type.isVariableLength
  | .cons type rest => type.isVariableLength || rest.isVariableLength

end

/-- `Type::isClassType`. -/
def DataType.isClassType : DataType → Bool
  | .cls _ => true
  | _ => false

mutual

/-- `Type::usesClasses`. -/
def DataType.usesClasses : DataType → Bool
  | .cls _ => true
  | .struct members => members.usesClasses
  | .sequence element => element.usesClasses
  | .dictionary _ value => value.usesClasses
  | _ => false

def Members.usesClasses : Members → Bool
  | .last type => type.usesClasses
  | .cons type rest => type.usesClasses || rest.usesClasses

end

/-- The numeric types of keys. -/
def Numeric.isLegalKeyType : Numeric → Bool
  | .float | .double => false
  | .byte | .short | .int | .long => true

mutual

/-- `Dictionary::isLegalKeyType`. -/
def DataType.isLegalKeyType : DataType → Bool
  | .numeric kind => kind.isLegalKeyType
  | .bool | .string | .enum _ => true
  | .struct members => members.areLegalKeyTypes
  | .proxy | .cls _ | .sequence _ | .dictionary _ _ => false

def Members.areLegalKeyTypes : Members → Bool
  | .last type => type.isLegalKeyType
  | .cons type rest => type.isLegalKeyType && rest.areLegalKeyTypes

end

mutual

/-- The compiler accepts the type: every dictionary in it has a legal key type. -/
def DataType.accepted : DataType → Bool
  | .numeric _ | .bool | .string | .enum _ | .proxy | .cls _ => true
  | .struct members => members.accepted
  | .sequence element => element.accepted
  | .dictionary key value => key.isLegalKeyType && value.accepted

def Members.accepted : Members → Bool
  | .last type => type.accepted
  | .cons type rest => type.accepted && rest.accepted

end

/-- `getOptionalFormat` of the numeric types. -/
def Numeric.getOptionalFormat : Numeric → OptionalFormat
  | .byte => .F1
  | .short => .F2
  | .int => .F4
  | .long => .F8
  | .float => .F4
  | .double => .F8

/-- `Type::getOptionalFormat`. -/
def DataType.getOptionalFormat : DataType → OptionalFormat
  | .numeric kind => kind.getOptionalFormat
  | .bool => .F1
  | .string => .VSize
  | .enum _ => .Size
  | .proxy => .FSize
  | .cls _ => .Class
  | .struct members => if members.isVariableLength then .FSize else .VSize
  | .sequence element => if element.isVariableLength then .FSize else .VSize
  | .dictionary key value =>
    if key.isVariableLength || value.isVariableLength then .FSize else .VSize

mutual

/-- The values of a type: a number by its bit pattern, a string by the bytes of its UTF-8 encoding,
    an enumerator by its value, a proxy as a value of `P`, a reference to an instance by the slot
    that holds it, and a dictionary by its entries in the order in which they are enumerated. -/
def DataType.Value (P : Type) : DataType → Type
  | .numeric kind => BitVec (8 * kind.size)
  | .bool => Bool
  | .string => List UInt8
  | .enum _ => Nat
  | .proxy => P
  | .cls _ => Nat
  | .struct members => members.Values P
  | .sequence element => List (element.Value P)
  | .dictionary key value => List (key.Value P × value.Value P)

def Members.Values (P : Type) : Members → Type
  | .last type => type.Value P
  | .cons type rest => type.Value P × rest.Values P

end

mutual

/-- `==` of two keys, for a normal form by which strings are compared. The other types are no key
    types. -/
def DataType.sameKey {P : Type} (normal : List UInt8 → List UInt8) :
    (t : DataType) → t.Value P → t.Value P → Bool
  | .numeric kind => fun a b : BitVec (8 * kind.size) => a == b
  | .bool => fun a b : Bool => a == b
  | .string => fun a b => normal a == normal b
  | .enum _ => fun a b : Nat => a == b
  | .struct members => members.sameKeys normal
  | .proxy | .cls _ | .sequence _ | .dictionary _ _ => fun _ _ => false

def Members.sameKeys {P : Type} (normal : List UInt8 → List UInt8) :
    (ms : Members) → ms.Values P → ms.Values P → Bool
  | .last type => type.sameKey normal
  | .cons type rest => fun a b => type.sameKey normal a.1 b.1 && rest.sameKeys normal a.2 b.2

end

mutual

/-- No value is encoded in zero bytes. -/
theorem DataType.minWireSize_pos : ∀ t : DataType, 0 < t.minWireSize
  | .numeric kind => kind.size_pos
  | .bool | .string | .enum _ | .cls _ | .sequence _ | .dictionary _ _ => Nat.one_pos
  | .proxy => Nat.two_pos
  | .struct members => by
    simpa only [DataType.minWireSize] using members.minWireSize_pos

theorem Members.minWireSize_pos : ∀ ms : Members, 0 < ms.minWireSize
  | .last type => by simpa only [Members.minWireSize] using type.minWireSize_pos
  | .cons type rest => by
    simpa only [Members.minWireSize] using Nat.add_pos_left type.minWireSize_pos _

end

end Ice.Slice
