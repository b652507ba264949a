import Ice.Slice.Types
import Ice.Classes.Decoder10

/-!
# Generated readers

The code that the Slice compilers generate to read a value of each type
(`cpp/src/slice2swift/Gen.cpp:541-977`, `cpp/include/Ice/StreamHelpers.h`), with the functions of
`InputStream` and `EncapsDecoder` that it calls (`swift/src/Ice/InputStream.swift`). Next to the
decoder, the state has the collections that were created from a size before their elements were
read.

The operations of the decoder that create no collection and read no member are those of
`Ice.Classes`; the others are repeated here with the collections they create and with the members of
all types. What is assigned to the members of an instance is not kept, since no reader looks at it.
-/

namespace Ice.Slice

open Decoder

/-- The code that creates a collection: the reader of a type, or the decoder for an indirection
    table. -/
inductive Origin where
  | reader (type : DataType)
  | indirectionTable

/-- A collection of `count` elements, created when `remaining` bytes of the buffer were left. -/
structure Creation where
  origin : Origin
  count : Nat
  remaining : Nat

/-- A decoder with the collections created so far. -/
structure Reader where
  decoder : Decoder
  creations : List Creation := []

abbrev ReaderM := EStateM Failure Reader

/-- An operation of the decoder that creates no collection. -/
def onDecoder {α : Type} (x : DecoderM α) : ReaderM α :=
  zoom Reader.decoder (fun d r => { r with decoder := d }) x

/-- An operation of the stream. -/
def fromStream {α : Type} (x : StreamM α) : ReaderM α := onDecoder (onStream x)

/-- Creates a collection of `count` elements. -/
def create (origin : Origin) (count : Nat) : ReaderM Unit :=
  modify fun r => { r with
    creations := r.creations ++ [⟨origin, count, r.decoder.stream.remaining⟩] }

/-- What a generated class reads in one slice. -/
structure GeneratedSlice where
  typeId : TypeId
  compactId : Option Nat
  members : List DataType
  optionals : List (Nat × DataType)

/-- A generated class: its slices, most derived first. -/
abbrev GeneratedClass := List GeneratedSlice

/-- The class as the decoder knows it, by its type IDs. -/
def GeneratedClass.classDef (c : GeneratedClass) : ClassDef :=
  c.map fun s => ⟨s.typeId, s.compactId, [], []⟩

/-- What a reader is created with: the mapping, the normal form of strings up to the canonical
    equivalence of Unicode, the generated classes that the Slice loader knows, the properties of the
    decoder, and how the mapping reads a proxy. -/
structure ReaderConfig (P : Type) where
  mapping : Mapping
  normalForm : List UInt8 → List UInt8
  classes : TypeId → Option GeneratedClass
  acceptClassCycles : Bool
  classGraphDepthMax : Nat
  readProxy : StreamM P

/-- What strings are compared by: their bytes in C++, their normal form in Swift. -/
def ReaderConfig.comparedBy {P : Type} (cfg : ReaderConfig P) : List UInt8 → List UInt8 :=
  match cfg.mapping with
  | .cpp => id
  | .swift => cfg.normalForm

/-- The configuration of the decoder. -/
def ReaderConfig.decoderConfig {P : Type} (cfg : ReaderConfig P) : DecoderConfig where
  mapping := cfg.mapping
  loader := fun t => (cfg.classes t).map fun c => .cls c.classDef
  acceptClassCycles := cfg.acceptClassCycles
  classGraphDepthMax := cfg.classGraphDepthMax

/-- The operations of `EncapsDecoder` that generated code calls through the stream. -/
structure ReaderOps where
  read : Target → TypeId → ReaderM Unit
  startInstance : Ice.SliceType → ReaderM Unit
  endInstance : ObjId → ReaderM Unit
  startSlice : ReaderM Unit
  endSlice : ReaderM Unit
  readOptional : Nat → OptionalFormat → ReaderM Bool

variable {P : Type} (cfg : ReaderConfig P) (ops : ReaderOps) (o : ObjId) (m : Mapping)

/-- A number, from its bytes. -/
def readNumeric (kind : Numeric) : StreamM (BitVec (8 * kind.size)) := do
  return BitVec.ofNat _ (ofLittleEndian (← readBytes kind.size))

/-- An enumerator. C++ checks that the value is in the range of the enumeration, Swift that there is
    such an enumerator. -/
def readEnumerator (e : Enum) : StreamM Nat := do
  let encaps ← currentEncaps
  let v ← Ice.readEnumerator encaps.encoding10 e.maxValue
  match m with
  | .cpp =>
    throwIf (v < e.minValue ∨ e.maxValue < v) (.marshal .invalidEnumerator)
    return v
  | .swift =>
    throwIf (v ∉ e.values) (.marshal .invalidEnumerator)
    return v

/-- A reference to an instance, for a variable of the object `o`: the variable gets a new slot,
    which the decoder fills now or later. -/
def readReference (expected : TypeId) : ReaderM Nat := do
  match (← get).decoder.heap o with
  | none => throw (.trap .forcedUnwrap)
  | some obj =>
    onDecoder (modify (setObj o { obj with slots := obj.slots ++ [none] }))
    onDecoder initEncaps
    ops.read (.slot o obj.slots.length) expected
    return obj.slots.length

/-- A sequence, which is created with its size. -/
def readSequence {α : Type} (element : DataType) (read : ReaderM α) : ReaderM (List α) := do
  let sz ← fromStream (readAndCheckSeqSize m element.minWireSize)
  create (.reader (.sequence element)) sz
  repeatM sz read

/-- `v[key] = value`: a key that is there keeps its place and gets the value. -/
def assign {α β : Type} (same : α → α → Bool) (entry : α × β) : List (α × β) → List (α × β)
  | [] => [entry]
  | e :: es => if same e.1 entry.1 then (e.1, entry.2) :: es else e :: assign same entry es

/-- A dictionary, as its entries in the order in which their keys were assigned first. Swift creates
    an array of all entries if the values are instances (`DictEntryArray`); otherwise the dictionary
    grows with its entries. -/
def readDictionary {α β : Type} (m : Mapping) (key value : DataType) (same : α → α → Bool)
    (readKey : ReaderM α) (readValue : ReaderM β) : ReaderM (List (α × β)) := do
  let sz ← fromStream readSize
  runIf (m = .swift ∧ value.isClassType = true) (create (.reader (.dictionary key value)) sz)
  let entries ← repeatM sz do
    let k ← readKey
    let v ← readValue
    return (k, v)
  return entries.foldl (fun v entry => assign same entry v) []

mutual

/-- The reader of a type, for a variable of the object `o`. -/
def readType (cfg : ReaderConfig P) (ops : ReaderOps) (o : ObjId) :
    (t : DataType) → ReaderM (t.Value P)
  | .numeric kind => fromStream (readNumeric kind)
  | .bool => fromStream (readBool cfg.mapping)
  | .string => fromStream (readString cfg.mapping)
  | .enum e => fromStream (readEnumerator cfg.mapping e)
  | .proxy => fromStream cfg.readProxy
  | .cls expected => readReference ops o expected
  | .struct members => readMembers cfg ops o members
  | .sequence element => readSequence cfg.mapping element (readType cfg ops o element)
  | .dictionary key value =>
    readDictionary cfg.mapping key value (key.sameKey cfg.comparedBy) (readType cfg ops o key)
      (readType cfg ops o value)

def readMembers (cfg : ReaderConfig P) (ops : ReaderOps) (o : ObjId) :
    (ms : Members) → ReaderM (ms.Values P)
  | .last type => readType cfg ops o type
  | .cons type rest => do
    let v ← readType cfg ops o type
    let vs ← readMembers cfg ops o rest
    return (v, vs)

end

/-- The size that the reader of an optional skips in front of the value. A sequence of one-byte
    elements has none, its own size is the size of the optional. -/
def skipOptionalSize : DataType → StreamM Unit
  | .numeric _ | .bool | .string | .enum _ | .cls _ => return ()
  | .proxy => skip 4
  | .struct members => if members.isVariableLength then skip 4 else skipSize
  | .sequence element =>
    if element.isVariableLength then skip 4
    else if element.minWireSize > 1 then skipSize
    else return ()
  | .dictionary key value =>
    if key.isVariableLength || value.isVariableLength then skip 4 else skipSize

/-- The reader of an optional member or parameter. -/
def readOptionalType (tag : Nat)
    (t : DataType) : ReaderM (Option (t.Value P)) := do
  if ← ops.readOptional tag t.getOptionalFormat then
    fromStream (skipOptionalSize t)
    let v ← readType cfg ops o t
    return some v
  else return none

/-- Reads a value for its effect on the reader. -/
def ignore {α : Type} (x : ReaderM α) : ReaderM Unit := do
  let _ ← x
  return ()

/-- One slice of a generated class: the members, then the optional members in the order of their
    tags. -/
def readSlice (s : GeneratedSlice) :
    ReaderM Unit := do
  onDecoder requireDecoder
  ops.startSlice
  forEach s.members fun t => ignore (readType cfg ops o t)
  forEach s.optionals fun e => ignore (readOptionalType cfg ops o e.1 e.2)
  onDecoder requireDecoder
  ops.endSlice

/-- `_iceRead` of a generated class. -/
def iceRead (c : GeneratedClass) :
    ReaderM Unit := do
  onDecoder requireDecoder
  ops.startInstance .valueSlice
  forEach c (readSlice cfg ops o)
  onDecoder requireDecoder
  ops.endInstance o

/-- The end of `unmarshal`: the references to the instance are patched, and `ice_postUnmarshal` is
    called once no reference is pending. -/
def endUnmarshal (cfg : DecoderConfig) (index : Nat) (o : ObjId) : DecoderM Unit := do
  modify fun d => { d with finished := o :: d.finished }
  let d ← get
  forEach (d.patchMap.filter fun e => e.1 = index) fun e =>
    patch e.2.target e.2.expected (some o) true
  modify fun d => { d with patchMap := d.patchMap.filter fun e => e.1 ≠ index }
  modify fun d =>
    if d.patchMap.isEmpty then
      { d with postUnmarshaled := d.postUnmarshaled ++ d.valueList ++ [o], valueList := [] }
    else { d with valueList := d.valueList ++ [o] }
  runIf (cfg.acceptClassCycles = false)
    (modify fun d => { d with unmarshaledMap := (index, some o) :: d.unmarshaledMap })

/-- `unmarshal` (`InputStream.swift:941-1004`). -/
def unmarshal (index : Nat) (o : ObjId) (iceRead : ReaderM Unit) :
    ReaderM Unit := do
  onDecoder (modify (registerInstance cfg.decoderConfig index o))
  iceRead
  onDecoder (endUnmarshal cfg.decoderConfig index o)

/-! ### The 1.1 decoder -/

/-- The recursive call of `readInstance`. -/
abbrev ReadInstance := Nat → Option (Target × TypeId) → ReaderM Nat

variable (rec : ReadInstance)

/-- An indirection table, which is created with its size. -/
def readIndirectionTable : ReaderM (List Nat) := do
  let sz ← fromStream (readAndCheckSeqSize m 1)
  create .indirectionTable sz
  repeatM sz do
    let index ← fromStream readSize
    rec index none

/-- The indirection table at the end of a known slice. -/
def endSliceTable (flags : UInt8) : ReaderM Unit := do
  let table ← readIndirectionTable m rec
  throwIf (table = []) (.marshal .emptyIndirectionTable)
  let c ← onDecoder currentInstance
  throwIf (c.indirectPatchList = [] ∧ hasFlag flags flagHasOptionalMembers = false)
    (.marshal .unusedIndirectionTable)
  onDecoder (forEach c.indirectPatchList (resolveIndirect table))
  onDecoder (modifyCurrent fun c => { c with indirectPatchList := [] })

/-- `endSlice` (`InputStream.swift:1420-1463`). -/
def endSlice11 : ReaderM Unit := do
  let h ← onDecoder currentHeader
  runIf (hasFlag h.sliceFlags flagHasOptionalMembers) (fromStream skipOptionals)
  runIf (hasFlag h.sliceFlags flagHasIndirectionTable) (endSliceTable m rec h.sliceFlags)

/-- The indirection table of a slice that is skipped. -/
def skippedTable (flags : UInt8) : ReaderM (List Nat) :=
  if hasFlag flags flagHasIndirectionTable then readIndirectionTable m rec else return []

/-- `skipSlice` (`InputStream.swift:1465-1531`). -/
def skipSlice11 : ReaderM Unit := do
  let c ← onDecoder currentInstance
  let h ← onDecoder currentHeader
  let bytes ← onDecoder (skipSliceBody h)
  runIf (c.sliceType = .valueSlice) (onDecoder (preserveSlice h bytes))
  let table ← skippedTable m rec h.sliceFlags
  onDecoder (modifyCurrent fun c =>
    { c with indirectionTables := c.indirectionTables ++ [table] })

/-- `read` (`InputStream.swift:1262-1291`). -/
def read11 (t : Target) (expected : TypeId) : ReaderM Unit := do
  let index ← fromStream readSize
  if index = 0 then onDecoder (patch t expected none false)
  else
    match (← get).decoder.current with
    | [] =>
      let _ ← rec index (some (t, expected))
    | _ :: _ =>
      let h ← onDecoder currentHeader
      if hasFlag h.sliceFlags flagHasIndirectionTable then
        onDecoder (modifyCurrent fun c => { c with
          indirectPatchList := c.indirectPatchList ++ [⟨index - 1, t, expected⟩] })
      else
        let _ ← rec index (some (t, expected))

def ops11 : ReaderOps where
  read := read11 rec
  startInstance := fun kind => onDecoder (startInstance11 kind)
  endInstance := fun o => onDecoder (endInstance11 m o)
  startSlice := onDecoder (startSlice11 m)
  endSlice := endSlice11 m rec
  readOptional := fun tag format => onDecoder (readOptional11 tag format)

/-- The class for the type ID of a slice; a slice of the compact format may have none. -/
def ReaderConfig.findClass (typeId : TypeId) : Option GeneratedClass :=
  if typeId = [] then none else cfg.classes typeId

/-- What is read after the last slice, if the Slice loader knows none of them: a class for
    `::Ice::Object`, or an `UnknownSlicedValue`. -/
def ReaderConfig.lastChance (mostDerivedId : TypeId) :
    GeneratedClass × Option TypeId :=
  match cfg.classes objectTypeId with
  | some c => (c, none)
  | none => ([], some mostDerivedId)

/-- The loop of `readInstance` that slices off what the Slice loader does not know. -/
def sliceLoop (cfg : ReaderConfig P) (rec : ReadInstance) (mostDerivedId : TypeId) :
    Nat → ReaderM (GeneratedClass × Option TypeId)
  | 0 => throw .outOfFuel
  | n + 1 => do
    let h ← onDecoder currentHeader
    match cfg.findClass h.typeId with
    | some c => return (c, none)
    | none =>
      skipSlice11 cfg.mapping rec
      let h ← onDecoder currentHeader
      if hasFlag h.sliceFlags flagIsLastSlice then return cfg.lastChance mostDerivedId
      else
        onDecoder (startSlice11 cfg.mapping)
        sliceLoop cfg rec mostDerivedId n

/-- The start of an inline activation: the number of the instance. -/
def startInline : DecoderM Nat := do
  push .valueSlice
  modify fun d => { d with valueIdIndex := d.valueIdIndex + 1 }
  let index := (← get).valueIdIndex
  startSlice11 m
  return index

/-- The instance of the class that was found, and one more level of the class graph. -/
def createInstance (cfg : DecoderConfig) (index : ObjId) (c : ClassDef)
    (unknownTypeId : Option TypeId) : DecoderM Unit := do
  modify (setObj index { cls := c, unknownTypeId := unknownTypeId })
  modify fun d => { d with classGraphDepth := d.classGraphDepth + 1 }
  throwIf ((← get).classGraphDepth > cfg.classGraphDepthMax) (.marshal .maximumDepth)

/-- The instance that an inline activation creates and reads. -/
def readInline : ReaderM ObjId := do
  let index ← onDecoder (startInline cfg.mapping)
  let h ← onDecoder currentHeader
  let found ← sliceLoop cfg rec h.typeId ((← get).decoder.stream.remaining + 1)
  onDecoder (createInstance cfg.decoderConfig index found.1.classDef found.2)
  unmarshal cfg index index (iceRead cfg (ops11 cfg.mapping rec) index found.1)
  onDecoder (modify fun d => { d with classGraphDepth := d.classGraphDepth - 1 })
  return index

/-- What `readInstance` does once the instance has been read. -/
def endInline (index : ObjId) (cb : Option (Target × TypeId)) : DecoderM Unit := do
  let d ← get
  throwIf (d.current = [] ∧ d.patchMap ≠ []) (.marshal .missingInstance)
  patchIfAny cb fun t expected => patch t expected (some index) false

/-- `readInstance` (`InputStream.swift:1541-1619`). -/
def readInstance11 (cfg : ReaderConfig P) : Nat → ReadInstance
  | 0, _, _ => throw .outOfFuel
  | fuel + 1, index, cb =>
    if index = 0 then throw (.marshal .invalidObjectId)
    else if index > 1 then do
      onDecoder (patchIfAny cb fun t expected => addPatchEntry index t expected)
      return index
    else do
      let index ← readInline cfg (readInstance11 cfg fuel)
      onDecoder (endInline index cb)
      return index

/-! ### The 1.0 decoder -/

def ops10 : ReaderOps where
  read := fun t expected => onDecoder (read10 t expected)
  startInstance := fun kind => onDecoder (startInstance10 kind)
  endInstance := fun _ => onDecoder (endInstance10 m)
  startSlice := onDecoder (startSlice10 m)
  endSlice := pure ()
  readOptional := fun _ _ => return false

/-- The loop of `readInstance` that slices off what the Slice loader does not know. -/
def sliceLoop10 (cfg : ReaderConfig P) : Nat → DecoderM GeneratedClass
  | 0 => throw .outOfFuel
  | n + 1 => do
    let typeId ← currentTypeId10
    throwIf (typeId = objectTypeId) (.marshal .unknownType)
    match cfg.classes typeId with
    | some c => return c
    | none =>
      skipSlice10
      startSlice10 cfg.mapping
      sliceLoop10 cfg n

/-- The index of an instance, and the class for its first slice that the Slice loader knows. -/
def startInstanceData10 : DecoderM (Nat × GeneratedClass) := do
  let index ← onStream readInt32
  throwIf (index ≤ 0) (.marshal .invalidObjectId)
  modify fun d => { d with sliceType := .valueSlice, skipFirstSlice := false }
  startSlice10 cfg.mapping
  let c ← sliceLoop10 cfg ((← get).stream.remaining + 1)
  return (index.toNat, c)

/-- The instance of the class that was found, at a depth below that of its references. -/
def createInstance10 (cfg : DecoderConfig) (index : Nat) (c : ClassDef) : DecoderM ObjId := do
  let o := (← get).valueIdIndex + 1
  modify fun d => { d.setObj o { cls := c } with valueIdIndex := o }
  modify fun d => { d with classGraphDepth := patchDepth d.patchMap index + 1 }
  throwIf ((← get).classGraphDepth > cfg.classGraphDepthMax) (.marshal .maximumDepth)
  return o

/-- `readInstance` (`InputStream.swift:1165-1236`). -/
def readInstance10 : ReaderM Unit := do
  let found ← onDecoder (startInstanceData10 cfg)
  let o ← onDecoder (createInstance10 cfg.decoderConfig found.1 found.2.classDef)
  unmarshal cfg found.1 o (iceRead cfg (ops10 cfg.mapping) o found.2)

/-- The rounds of `readPendingValues`: sequences of instances, up to an empty one. No collection is
    created for them. -/
def pendingLoop (cfg : ReaderConfig P) : Nat → ReaderM Unit
  | 0 => throw .outOfFuel
  | n + 1 => do
    let num ← fromStream readSize
    let _ ← repeatM num (readInstance10 cfg)
    runIf (num ≠ 0) (pendingLoop cfg n)

/-- `EncapsDecoder10.readPendingValues` (`InputStream.swift:1139-1163`). -/
def readPendingValues10 : ReaderM Unit := do
  pendingLoop cfg ((← get).decoder.stream.remaining + 1)
  throwIf ((← get).decoder.patchMap ≠ []) (.marshal .missingInstance)

/-! ### Parameters -/

/-- Reads variables of the given types with the 1.1 decoder. -/
def readParams11 (fuel : Nat) (types : List DataType) : ReaderM Unit :=
  forEach types fun t =>
    ignore (readType cfg (ops11 cfg.mapping (readInstance11 cfg fuel)) frameId t)

/-- Reads variables of the given types with the 1.0 decoder, then the pending instances. -/
def readParams10 (types : List DataType) : ReaderM Unit := do
  forEach types fun t => ignore (readType cfg (ops10 cfg.mapping) frameId t)
  if (← get).decoder.initialized then readPendingValues10 cfg else fromStream skipSize

/-- Reads an encapsulation with variables of the given types, with the decoder of its encoding. -/
def readParams (fuel : Nat) (types : List DataType) : ReaderM Unit := do
  fromStream (startEncapsulation cfg.mapping)
  let e ← fromStream currentEncaps
  if e.encoding10 then readParams10 cfg types else readParams11 cfg fuel types

/-- A reader at the start of a buffer. -/
def Reader.start (data : List UInt8) : Reader := { decoder := .start data }

end Ice.Slice
