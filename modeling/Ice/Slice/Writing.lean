import Ice.Slice.Reading
import Ice.Stream.OutputStream

/-!
# Generated writers

The code that writes a value of each type: the templates of C++
(`cpp/include/Ice/StreamHelpers.h:141-384`) and what `slice2swift` generates
(`cpp/src/slice2swift/Gen.cpp:641-977`), with the functions of `OutputStream` for sequences of
built-in types (`swift/src/Ice/OutputStream.swift`).
-/

namespace Ice.Slice

variable {P : Type}

/-- What a writer is created with: the mapping, the order in which it enumerates the entries of a
    dictionary (by key in C++, by hash in Swift), the encoding of proxies, and how the encoder
    writes a reference to an instance. -/
structure WriterConfig (P : Type) where
  mapping : Mapping
  order : (key value : DataType) → List (key.Value P × value.Value P) →
    List (key.Value P × value.Value P)
  order_perm : ∀ key value l, (order key value l).Perm l
  proxy : P → List UInt8
  writeReference : Nat → OutputM Unit

/-- An enumerator: its size depends on the largest one in the 1.0 encoding. C++ checks the range. -/
def writeEnumerator (m : Mapping) (e : Enum) (v : Nat) : OutputM Unit := do
  throwIf (m = .cpp ∧ (v < e.minValue ∨ e.maxValue < v)) (.marshal .invalidEnumerator)
  if (← get).encoding10 then
    writeBlob
      (toLittleEndian (if e.maxValue < 127 then 1 else if e.maxValue < 32767 then 2 else 4) v)
  else writeSize m v

/-- A sequence: its size and its elements. -/
def writeSequence {α : Type} (m : Mapping) (write : α → OutputM Unit) (v : List α) :
    OutputM Unit := do
  writeSize m v.length
  forEach v write

/-- A dictionary: its size and its entries, in the order in which they are enumerated. -/
def writeDictionary {α β : Type} (m : Mapping) (order : List (α × β) → List (α × β))
    (writeKey : α → OutputM Unit) (writeValue : β → OutputM Unit) (v : List (α × β)) :
    OutputM Unit := do
  writeSize m v.length
  forEach (order v) fun entry => do
    writeKey entry.1
    writeValue entry.2

/-- A string. -/
def writeString (m : Mapping) (v : List UInt8) : OutputM Unit := do
  writeSize m v.length
  writeBlob v

mutual

/-- The writer of a type. -/
def writeType (cfg : WriterConfig P) : (t : DataType) → t.Value P → OutputM Unit
  | .numeric kind => fun v => writeBlob (toLittleEndian kind.size (BitVec.toNat v))
  | .bool => fun v => writeBlob [Bool.toUInt8 v]
  | .string => writeString cfg.mapping
  | .enum e => writeEnumerator cfg.mapping e
  | .proxy => fun v => writeBlob (cfg.proxy v)
  | .cls _ => cfg.writeReference
  | .struct members => writeMembers cfg members
  | .sequence element => writeSequence cfg.mapping (writeType cfg element)
  | .dictionary key value =>
    writeDictionary cfg.mapping (cfg.order key value) (writeType cfg key) (writeType cfg value)

def writeMembers (cfg : WriterConfig P) : (ms : Members) → ms.Values P → OutputM Unit
  | .last type => writeType cfg type
  | .cons type rest => fun v => do
    writeType cfg type v.1
    writeMembers cfg rest v.2

end

end Ice.Slice
