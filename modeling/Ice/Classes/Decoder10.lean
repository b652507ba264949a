import Ice.Classes.Decoder11

/-!
# The 1.0 class decoder, and the entry points of both decoders

`InputStream::EncapsDecoder10` (`cpp/src/Ice/InputStream.cpp:1457-1747`,
`swift/src/Ice/InputStream.swift:1007-1237`). References are negative integers and instances follow
later, in `readPendingValues`; the decoder does not recurse.
-/

namespace Ice

open Decoder

/-- `-2^31`. -/
def int32Min : Int := -2147483648

variable (m : Mapping) (cfg : DecoderConfig)

/-- `read` (`InputStream.cpp:1457-1486`). -/
def read10 (t : Target) (expected : TypeId) : DecoderM Unit := do
  let index ← onStream readInt32
  if index > 0 ∨ index = int32Min then throw (.marshal .invalidObjectId)
  else if index = 0 then patch t expected none false
  else addPatchEntry (-index).toNat t expected

/-- The type ID of the current slice, which Swift unwraps. -/
def currentTypeId10 : DecoderM TypeId := do
  match (← get).typeId with
  | some t => return t
  | none => throw (.trap .forcedUnwrap)

/-- The type ID of a slice: for values a boolean says whether it is a string or an index. -/
def readSliceTypeId10 (sliceType : SliceType) : DecoderM TypeId :=
  if sliceType = .valueSlice then do
    let isIndex ← onStream (readBool m)
    readTypeId m isIndex
  else onStream (readString m)

/-- `startSlice` (`InputStream.cpp:1590-1629`). -/
def startSlice10 : DecoderM Unit := do
  let d ← get
  if d.skipFirstSlice then set { d with skipFirstSlice := false }
  else
    let typeId ← readSliceTypeId10 m d.sliceType
    modify fun d => { d with typeId := some typeId }
    let sliceSize ← onStream readInt32
    modify fun d => { d with sliceSize := some sliceSize }
    throwIf (sliceSize < 4) (.marshal .endOfBuffer)

/-- `skipSlice` (`InputStream.cpp:1636-1646`). -/
def skipSlice10 : DecoderM Unit := do
  match (← get).sliceSize with
  | none => throw (.trap .forcedUnwrap)
  | some sliceSize => onStream (skip (sliceSize - 4))

/-- `startInstance` (`InputStream.cpp:1561-1566`). -/
def startInstance10 (sliceType : SliceType) : DecoderM Unit := do
  throwIf ((← get).sliceType ≠ sliceType) (.trap .precondition)
  modify fun d => { d with skipFirstSlice := true }

/-- The `Ice::Object` slice at the end of an instance. -/
def readObjectSlice : DecoderM Unit := do
  startSlice10 m
  let sz ← onStream readSize
  throwIf (sz ≠ 0) (.marshal .invalidObjectSlice)

/-- `endInstance` (`InputStream.cpp:1568-1588`). -/
def endInstance10 : DecoderM Unit := do
  runIf ((← get).sliceType = .valueSlice) (readObjectSlice m)
  modify fun d => { d with sliceType := .noSlice }

/-- `endSlice` does nothing, and there are no optional members. -/
def ops10 : DecoderOps where
  read := read10
  startInstance := startInstance10
  endInstance := fun _ => endInstance10 m
  startSlice := startSlice10 m
  endSlice := pure ()
  readOptional := fun _ _ => return false

/-- The loop of `readInstance` that slices off what the Slice loader does not know. -/
def sliceLoop10 (cfg : DecoderConfig) : Nat → DecoderM ClassDef
  | 0 => throw .outOfFuel
  | n + 1 => do
    let typeId ← currentTypeId10
    -- For the 1.0 encoding, the type ID for the base Object class marks the last slice.
    throwIf (typeId = objectTypeId) (.marshal .unknownType)
    match cfg.loader.newClassInstance typeId with
    | some c => return c
    | none =>
      skipSlice10
      startSlice10 cfg.mapping
      sliceLoop10 cfg n

/-- The class graph depth of an instance: one more than that of the deepest reference to it. -/
def patchDepth (patchMap : List (Nat × PatchEntry)) (index : Nat) : Nat :=
  (patchMap.filter fun e => e.1 = index).foldl (fun n e => max n e.2.classGraphDepth) 0

/-- `readInstance` (`InputStream.cpp:1673-1747`). -/
def readInstance10 : DecoderM Unit := do
  let index ← onStream readInt32
  throwIf (index ≤ 0) (.marshal .invalidObjectId)
  let index := index.toNat
  modify fun d => { d with sliceType := .valueSlice, skipFirstSlice := false }
  startSlice10 cfg.mapping
  let c ← sliceLoop10 cfg ((← get).stream.remaining + 1)
  let o := (← get).valueIdIndex + 1
  modify fun d => { d.setObj o { cls := c } with valueIdIndex := o }
  modify fun d => { d with classGraphDepth := patchDepth d.patchMap index + 1 }
  throwIf ((← get).classGraphDepth > cfg.classGraphDepthMax) (.marshal .maximumDepth)
  unmarshal cfg index o (iceRead cfg.mapping (ops10 cfg.mapping) .valueSlice o c)

/-- The rounds of `readPendingValues`: sequences of instances, up to an empty one. -/
def pendingLoop (cfg : DecoderConfig) : Nat → DecoderM Unit
  | 0 => throw .outOfFuel
  | n + 1 => do
    let num ← onStream readSize
    let _ ← repeatM num (readInstance10 cfg)
    runIf (num ≠ 0) (pendingLoop cfg n)

/-- `EncapsDecoder10::readPendingValues` (`InputStream.cpp:1648-1671`). -/
def readPendingValues10 : DecoderM Unit := do
  pendingLoop cfg ((← get).stream.remaining + 1)
  throwIf ((← get).patchMap ≠ []) (.marshal .missingInstance)

/-- `catch (const MarshalException&)` around `startSlice`: there is no marker for the last slice of
    an exception, so any failure to read a further slice header ends the search. -/
def orUnknownType (x : DecoderM Unit) : DecoderM Unit := fun d =>
  match x d with
  | .error (.marshal _) d' => .error (.marshal .unknownType) d'
  | r => r

/-- The loop of `throwException`. -/
def exceptionLoop10 (cfg : DecoderConfig) (usesClasses : Bool) : Nat → DecoderM Unit
  | 0 => throw .outOfFuel
  | n + 1 => do
    let typeId ← currentTypeId10
    modify fun d => { d with exceptionIds := d.exceptionIds ++ [typeId] }
    match cfg.loader typeId, cfg.mapping with
    | some (.exception c), _ =>
      iceRead cfg.mapping (ops10 cfg.mapping) .exceptionSlice frameId c
      runIf usesClasses (readPendingValues10 cfg)
      throw .userException
    -- Swift: `obj as! UserException`
    | some (.cls _), .swift => throw (.trap .forcedCast)
    | _, _ =>
      skipSlice10
      orUnknownType (startSlice10 cfg.mapping)
      exceptionLoop10 cfg usesClasses n

/-- `throwException` (`InputStream.cpp:1488-1559`, without a factory of the caller's). -/
def throwException10 : DecoderM Unit := do
  throwIf ((← get).sliceType ≠ .noSlice) (.trap .precondition)
  let usesClasses ← onStream (readBool cfg.mapping)
  modify fun d => { d with sliceType := .exceptionSlice, skipFirstSlice := false }
  startSlice10 cfg.mapping
  exceptionLoop10 cfg usesClasses ((← get).stream.remaining + 1)

/-- What a caller reads from an encapsulation: variables of the given types, or a user exception. -/
inductive Payload where
  | params (types : List FieldType)
  | userException

/-- Reads a payload with the 1.1 decoder. -/
def decode11 (fuel : Nat) : Payload → DecoderM Unit
  | .params types => do
    let _ ← mapEach types (readField cfg.mapping
      (ops11 cfg.mapping (readInstance11 cfg fuel)) frameId)
    return ()
  | .userException => do
    initEncaps
    throwException11 cfg (readInstance11 cfg fuel)

/-- Reads a payload with the 1.0 decoder. `InputStream::readPendingValues`
    (`InputStream.cpp:385-406`) reads an empty sequence of instances if no class has been read. -/
def decode10 : Payload → DecoderM Unit
  | .params types => do
    let _ ← mapEach types (readField cfg.mapping (ops10 cfg.mapping) frameId)
    let d ← get
    if d.initialized then readPendingValues10 cfg else onStream skipSize
  | .userException => do
    initEncaps
    throwException10 cfg

/-- Reads an encapsulation and its payload, with the decoder of its encoding. -/
def decode (fuel : Nat) (payload : Payload) : DecoderM Unit := do
  onStream (startEncapsulation cfg.mapping)
  let e ← onStream currentEncaps
  if e.encoding10 then decode10 cfg payload else decode11 cfg fuel payload

/-- A decoder at the start of a buffer. -/
def Decoder.start (data : List UInt8) : Decoder := { stream := { data := data } }

end Ice
