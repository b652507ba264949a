import Ice.Misc.Wp

/-!
# Input streams

The part of `Ice::InputStream` (`cpp/src/Ice/InputStream.cpp`, `cpp/include/Ice/InputStream.h`) and
of its Swift counterpart (`swift/src/Ice/InputStream.swift`) that the class decoders use: bytes,
sizes, strings, sequence sizes, optional members and encapsulations. Both mappings run the same
algorithm; where they differ the operation takes the `Mapping` as an argument.

An operation returns, throws a `MarshalException`, or traps. A trap is a Swift precondition, forced
unwrap, forced cast or array index that fails, or a failed `assert` or invalid access in C++.
-/

namespace Ice

/-- The language mapping whose run time is modelled. -/
inductive Mapping where
  | cpp
  | swift
deriving DecidableEq, Repr

/-- What a `MarshalException` reports. -/
inductive MarshalReason where
  /-- `endOfBufferMessage`: the buffer is exhausted, or a size is out of bounds -/
  | endOfBuffer
  /-- an unknown type ID index -/
  | invalidTypeId
  /-- a string that is not UTF-8 -/
  | invalidString
  /-- an enumerator that is out of range -/
  | invalidEnumerator
  /-- an optional member with an invalid tag or an unexpected format -/
  | invalidOptional
  /-- `cannot skip optional class` -/
  | optionalClass
  /-- an encapsulation of an unsupported encoding, or with an invalid size -/
  | invalidEncapsulation
  /-- `invalid object id` and `invalid class instance index` -/
  | invalidObjectId
  /-- `invalid Object slice` -/
  | invalidObjectSlice
  /-- `cycle detected during Value unmarshaling` -/
  | cycleDetected
  /-- the Slice loader returned a class that is not the expected one -/
  | unexpectedClass
  /-- `empty indirection table` -/
  | emptyIndirectionTable
  /-- `no references to indirection table` -/
  | unusedIndirectionTable
  /-- `indirection out of range` -/
  | indirectionOutOfRange
  /-- the Slice loader found no class, and the compact format prevents slicing -/
  | compactFormat
  /-- the Slice loader did not find a class, or a user exception, for a type ID -/
  | unknownType
  /-- `maximum class graph depth reached` -/
  | maximumDepth
  /-- `index for class received, but no instance` -/
  | missingInstance
  /-- `received facet path with more than one element` -/
  | facetPath
  /-- `operation mode mismatch for operation` -/
  | operationMode
deriving DecidableEq, Repr

/-- A run-time check of the language whose failure ends the process. -/
inductive Trap where
  /-- a precondition or an `assert` -/
  | precondition
  /-- the use of an absent `_current`, of a slice header or of an encapsulation -/
  | forcedUnwrap
  /-- `as!` -/
  | forcedCast
  /-- an array index -/
  | arrayIndex
  /-- an integer that its type cannot hold -/
  | overflow
deriving DecidableEq, Repr

/-- How an operation ends when it does not return. -/
inductive Failure where
  | marshal (reason : MarshalReason)
  /-- the user exception that `throwException` has read -/
  | userException
  | trap (trap : Trap)
  /-- the bound on the recursion of the model is used up -/
  | outOfFuel
deriving DecidableEq, Repr

/-- The encapsulation being read: its start, its size and whether its encoding is 1.0. -/
structure Encaps where
  start : Nat
  sz : Nat
  encoding10 : Bool
deriving DecidableEq, Repr

/-- The buffer `b`, the position `i`, the two variables of `readAndCheckSeqSize` (`startSeq` is
    `none` where the source has `-1`), and the current encapsulation. -/
structure InputStream where
  data : List UInt8
  pos : Nat := 0
  startSeq : Option Nat := none
  minSeqSize : Nat := 0
  encaps : Option Encaps := none
deriving DecidableEq, Repr

abbrev StreamM := EStateM Failure InputStream

namespace InputStream

/-- The bytes from the position on. -/
def upcoming (s : InputStream) : List UInt8 := s.data.drop s.pos

/-- The number of bytes from the position on. -/
def remaining (s : InputStream) : Nat := s.data.length - s.pos

def advance (n : Nat) (s : InputStream) : InputStream := { s with pos := s.pos + n }

end InputStream

def endOfBuffer {σ α : Type} : EStateM Failure σ α := throw (.marshal .endOfBuffer)

/-- `read(std::uint8_t&)`. -/
def readByte : StreamM UInt8 := do
  let s ← get
  match s.upcoming with
  | [] => endOfBuffer
  | b :: _ =>
    set (s.advance 1)
    return b

/-- Reads `n` raw bytes: the bounds check is that of every fixed-size `read`. -/
def readBytes (n : Nat) : StreamM (List UInt8) := do
  let s ← get
  if s.remaining < n then endOfBuffer
  else
    set (s.advance n)
    return s.upcoming.take n

/-- The value of a list of bytes, least significant byte first. -/
def ofLittleEndian : List UInt8 → Nat
  | [] => 0
  | b :: bs => b.toNat + 256 * ofLittleEndian bs

/-- The signed value of a 32-bit pattern. -/
def toInt32 (n : Nat) : Int := if n < 2 ^ 31 then n else (n : Int) - 2 ^ 32

/-- `read(std::int32_t&)`. -/
def readInt32 : StreamM Int := do
  let bs ← readBytes 4
  return toInt32 (ofLittleEndian bs)

/-- `readSize` (`InputStream.h:251`): one byte, or 255 and a 32-bit integer that must not be
    negative. -/
def readSize : StreamM Nat := do
  let b ← readByte
  if b = 255 then
    let v ← readInt32
    if v < 0 then endOfBuffer else return v.toNat
  else return b.toNat

/-- `changePos` (`InputStream.swift:259-266`): moves the position forward, or back over what has
    been read. The C++ code moves the iterator `i` in the same way. -/
def changePos (offset : Int) : StreamM Unit := do
  let s ← get
  if (s.pos : Int) + offset < 0 then throw (.trap .precondition)
  else if (s.remaining : Int) < offset then endOfBuffer
  else set { s with pos := ((s.pos : Int) + offset).toNat }

/-- `skip`: the Swift precondition is that the count is not negative; the C++ parameter is
    unsigned. -/
def skip (count : Int) : StreamM Unit := do
  if count < 0 then throw (.trap .precondition) else changePos count

/-- `skipSize` (`InputStream.h:636`). -/
def skipSize : StreamM Unit := do
  let b ← readByte
  runIf (b = 255) (skip 4)

/-- Well-formed UTF-8, as `String(data:encoding:)` of Swift requires it. -/
def validUtf8 : List UInt8 → Bool
  | [] => true
  | b :: bs =>
    if b < 0x80 then validUtf8 bs
    else match b, bs with
      | b, c :: bs =>
        if 0xC2 ≤ b && b ≤ 0xDF then 0x80 ≤ c && c ≤ 0xBF && validUtf8 bs
        else match bs with
          | d :: bs =>
            if 0xE0 ≤ b && b ≤ 0xEF then
              (if b = 0xE0 then 0xA0 else 0x80) ≤ c && c ≤ (if b = 0xED then 0x9F else 0xBF) &&
                0x80 ≤ d && d ≤ 0xBF && validUtf8 bs
            else match bs with
              | e :: bs =>
                0xF0 ≤ b && b ≤ 0xF4 &&
                  (if b = 0xF0 then 0x90 else 0x80) ≤ c && c ≤ (if b = 0xF4 then 0x8F else 0xBF) &&
                  0x80 ≤ d && d ≤ 0xBF && 0x80 ≤ e && e ≤ 0xBF && validUtf8 bs
              | [] => false
          | [] => false
      | _, [] => false

/-- `read(std::string&)` without a string converter; Swift also checks that the bytes are
    UTF-8. -/
def readString (m : Mapping) : StreamM (List UInt8) := do
  let size ← readSize
  let bs ← readBytes size
  if m = .swift ∧ validUtf8 bs = false then throw (.marshal .invalidString)
  else return bs

/-- The start and the minimal size of the sequences being read, with one more of `size` bytes at
    least: an enclosed sequence adds to the enclosing one, unless more than the minimal size of that
    one has been read. -/
def InputStream.seqBound (s : InputStream) (size : Nat) : Nat × Nat :=
  match s.startSeq with
  | none => (s.pos, size)
  | some start =>
    if s.pos > start + s.minSeqSize then (s.pos, size) else (start, s.minSeqSize + size)

/-- `startSeq + minSeqSize`, or the position where `startSeq` is set anew, is not an `Int32`. -/
def InputStream.seqOverflows (s : InputStream) : Bool :=
  match s.startSeq with
  | none => 2 ^ 31 ≤ s.pos
  | some start => 2 ^ 31 ≤ start + s.minSeqSize ∨ s.pos > start + s.minSeqSize ∧ 2 ^ 31 ≤ s.pos

/-- `readAndCheckSeqSize` (`InputStream.cpp:408-463`, `InputStream.swift:560-606`): a sequence size
    is checked against the bytes that the sequence and the sequences around it still need at least.
    The two variables are 32-bit integers; Swift checks every conversion to them and their sum. -/
def readAndCheckSeqSize (m : Mapping) (minSize : Nat) : StreamM Nat := do
  let sz ← readSize
  if sz = 0 then return 0
  else
    let s ← get
    throwIf (m = .swift ∧ s.seqOverflows) (.trap .overflow)
    let bound := s.seqBound (sz * minSize)
    throwIf (bound.1 + bound.2 > s.data.length) (.marshal .endOfBuffer)
    throwIf (m = .swift ∧ 2 ^ 31 ≤ bound.2) (.trap .overflow)
    set { s with startSeq := some bound.1, minSeqSize := bound.2 }
    return sz

/-- A boolean: C++ takes every byte but 0 for `true`, Swift only 1. -/
def readBool (m : Mapping) : StreamM Bool := do
  let b ← readByte
  match m with
  | .cpp => return b != 0
  | .swift => return b == 1

/-- An enumerator: its size depends on the largest one in the 1.0 encoding. -/
def readEnumerator (encoding10 : Bool) (maxValue : Nat) : StreamM Nat :=
  if encoding10 then do
    let bs ← readBytes (if maxValue < 127 then 1 else if maxValue < 32767 then 2 else 4)
    return ofLittleEndian bs
  else readSize

/-- `OptionalFormat` (`cpp/include/Ice/Format.h`). -/
inductive OptionalFormat where
  | F1 | F2 | F4 | F8 | Size | VSize | FSize | Class
deriving DecidableEq, Repr

/-- `OptionalFormat(rawValue: v & 0x07)`. -/
def OptionalFormat.ofByte (v : UInt8) : Option OptionalFormat :=
  match (v &&& 7).toNat with
  | 0 => some F1
  | 1 => some F2
  | 2 => some F4
  | 3 => some F8
  | 4 => some Size
  | 5 => some VSize
  | 6 => some FSize
  | 7 => some Class
  | _ => none

/-- `OPTIONAL_END_MARKER`. -/
def optionalEndMarker : UInt8 := 0xFF

/-- The current encapsulation, which Swift unwraps and C++ dereferences. -/
def currentEncaps : StreamM Encaps := do
  match (← get).encaps with
  | some e => return e
  | none => throw (.trap .forcedUnwrap)

/-- `skipOptional` (`InputStream.cpp:1183-1234`). -/
def skipOptional (format : OptionalFormat) : StreamM Unit :=
  match format with
  | .F1 => skip 1
  | .F2 => skip 2
  | .F4 => skip 4
  | .F8 => skip 8
  | .Size => skipSize
  | .VSize => do skip (← readSize)
  | .FSize => do
    let sz ← readInt32
    if sz < 0 then endOfBuffer else skip sz
  | .Class => throw (.marshal .optionalClass)

/-- The format of an optional member; Swift requires that there is one. -/
def optionalFormat (v : UInt8) (otherwise : Failure) : StreamM OptionalFormat :=
  match OptionalFormat.ofByte v with
  | some format => return format
  | none => throw otherwise

/-- The header of a member behind its first byte, as `skipOptionals` reads it. -/
def skipHeader (v : UInt8) : StreamM OptionalFormat := do
  let format ← optionalFormat v (.trap .precondition)
  runIf (v >>> 3 = 30) skipSize
  return format

/-- The loop of `skipOptionals`; every round but the last reads a byte. -/
def skipOptionalsLoop (e : Encaps) : Nat → StreamM Unit
  | 0 => throw .outOfFuel
  | n + 1 => do
    let s ← get
    -- The end of the encapsulation also indicates the end of the optionals.
    if e.start + e.sz ≤ s.pos then return ()
    else
      let v ← readByte
      if v = optionalEndMarker then return ()
      else
        let format ← skipHeader v
        skipOptional format
        skipOptionalsLoop e n

/-- `skipOptionals` (`InputStream.cpp:1236-1263`). -/
def skipOptionals : StreamM Unit := do
  let e ← currentEncaps
  skipOptionalsLoop e ((← get).remaining + 1)

/-- The tag of an optional member: 30 stands for a tag that follows as a size. -/
def readTagOf (v : UInt8) : StreamM Nat := if v >>> 3 = 30 then readSize else return (v >>> 3).toNat

/-- The header of a member behind its first byte, as `readOptImpl` reads it. -/
def readHeader (v : UInt8) : StreamM (OptionalFormat × Nat) := do
  let format ← optionalFormat v (.marshal .invalidOptional)
  throwIf (v >>> 3 > 30) (.marshal .invalidOptional)
  let tag ← readTagOf v
  return (format, tag)

/-- The loop of `readOptImpl`; every round but the last reads a byte. -/
def readOptImplLoop (e : Encaps) (readTag : Nat) (expectedFormat : OptionalFormat) :
    Nat → StreamM Bool
  | 0 => throw .outOfFuel
  | n + 1 => do
    let s ← get
    if e.start + e.sz ≤ s.pos then return false
    else
      let v ← readByte
      if v = optionalEndMarker then
        changePos (-1)
        return false
      else
        let (format, tag) ← readHeader v
        if tag > readTag then
          changePos (if tag < 30 then -1 else if tag < 255 then -2 else -6)
          return false
        else if tag < readTag then
          skipOptional format
          readOptImplLoop e readTag expectedFormat n
        else
          throwIf (format ≠ expectedFormat) (.marshal .invalidOptional)
          return true

/-- `readOptImpl` (`InputStream.cpp:1123-1181`): looks for the optional member `readTag`; the
    members with smaller tags are skipped. -/
def readOptImpl (readTag : Nat) (expectedFormat : OptionalFormat) : StreamM Bool := do
  let e ← currentEncaps
  if e.encoding10 then return false
  else readOptImplLoop e readTag expectedFormat ((← get).remaining + 1)

/-- `startEncapsulation` (`InputStream.swift:84-113`, `InputStream.cpp:219-257`): the size counts
    its own four bytes and the two bytes of the encoding, which must be 1.0 or 1.1. Swift requires
    that no encapsulation has been started before. -/
def startEncapsulation (m : Mapping) : StreamM Unit := do
  let s ← get
  throwIf (m = .swift ∧ s.encaps.isSome) (.trap .precondition)
  let sz ← readInt32
  throwIf (sz < 6) (.marshal .endOfBuffer)
  throwIf (((← get).remaining : Int) < sz - 4) (.marshal .endOfBuffer)
  let major ← readByte
  let minor ← readByte
  throwIf (major ≠ 1 ∨ minor > 1) (.marshal .invalidEncapsulation)
  modify fun s' => { s' with encaps := some ⟨s.pos, sz.toNat, minor = 0⟩ }

end Ice
