import Ice.Classes.Types

/-!
# Class decoders: shared state and operations

`InputStream::EncapsDecoder` (`cpp/src/Ice/InputStream.cpp:1309-1455`,
`swift/src/Ice/InputStream.swift:892-1005`) and the reading code that the Slice compilers generate.
The two decoders `EncapsDecoder10` and `EncapsDecoder11` use one state here; the fields of the other
encoding are not used.

Instances live in `heap`. The variables that receive what a caller reads at the top level (the
parameters of an operation, the members of a user exception) are the slots of the object `frameId`,
which no reference can reach.
-/

namespace Ice

/-- The address of the caller's variables. -/
def frameId : ObjId := 0

/-- Where a reference is stored once its instance is known: a slot of an object, an entry of a
    preserved slice of an object (`&instances[j]`, C++), or the Swift closure
    `self.current.slices[n].instances.append(v!)`. -/
inductive Target where
  | slot (holder : ObjId) (k : Nat)
  | sliced (holder : ObjId) (n j : Nat)
  | slicedClosure (n : Nat)
deriving DecidableEq, Repr

/-- `PatchEntry`: the patch function is the target with the expected type. -/
structure PatchEntry where
  target : Target
  expected : TypeId
  classGraphDepth : Nat
deriving DecidableEq, Repr

/-- `IndirectPatchEntry`: the index is a position in the indirection table of the slice. -/
structure IndirectPatchEntry where
  index : Nat
  target : Target
  expected : TypeId
deriving DecidableEq, Repr

inductive SliceType where
  | noSlice
  | valueSlice
  | exceptionSlice
deriving DecidableEq, Repr

/-- The slice attributes of `InstanceData`, set by `startSlice`. -/
structure SliceHeader where
  sliceFlags : UInt8
  sliceSize : Int
  typeId : TypeId
  compactId : Option Nat
deriving DecidableEq, Repr

/-- `EncapsDecoder11::InstanceData`. -/
structure InstanceData where
  sliceType : SliceType
  skipFirstSlice : Bool
  slices : List (SliceInfo (Option ObjId)) := []
  indirectionTables : List (List Nat) := []
  header : Option SliceHeader := none
  indirectPatchList : List IndirectPatchEntry := []
deriving DecidableEq, Repr

/-- A reference that is stored from the patch map, with the memory before the store. -/
structure LateStore where
  holder : ObjId
  target : ObjId
  memory : ObjId → Option Obj

/-- What a decoder is created with: the mapping, the Slice loader, and the properties
    `Ice.AcceptClassCycles` and `Ice.ClassGraphDepthMax`. -/
structure DecoderConfig where
  mapping : Mapping
  loader : SliceLoader
  acceptClassCycles : Bool
  classGraphDepthMax : Nat

/-- The state of a decoder and of the memory it fills. `patchMap` lists the entries of all indices
    in the order of their insertion. `unmarshaledMap` holds the newest entry of an index first.
    `_current` and its predecessors are the list `current`, innermost first.

    `valueIdIndex` numbers the instances; the 1.0 decoder, whose indices are those of the sender,
    uses it as the address of the next instance only.

    The last group is bookkeeping that no operation reads: the references stored from the patch map,
    the targets that entered the patch map, the instances whose `_iceRead` has returned, the type
    IDs that `throwException` gave to the Slice loader, the number of nested inline activations of
    `readInstance` with its maximum, and the number of these that are reading the indirection table
    of a slice they skip, with its maximum over the inline activations entered. -/
structure Decoder where
  stream : InputStream
  initialized : Bool := false
  patchMap : List (Nat × PatchEntry) := []
  unmarshaledMap : List (Nat × Option ObjId) := []
  typeIdMap : List (Nat × TypeId) := []
  typeIdIndex : Nat := 0
  valueList : List ObjId := []
  classGraphDepth : Nat := 0
  heap : ObjId → Option Obj := fun o => if o = frameId then some { cls := [] } else none
  postUnmarshaled : List ObjId := []
  -- EncapsDecoder11
  current : List InstanceData := []
  valueIdIndex : Nat := 1
  -- EncapsDecoder10
  sliceType : SliceType := .noSlice
  skipFirstSlice : Bool := false
  sliceSize : Option Int := none
  typeId : Option TypeId := none
  -- bookkeeping
  lateStores : List LateStore := []
  deferred : List Target := []
  finished : List ObjId := []
  exceptionIds : List TypeId := []
  active : Nat := 0
  maxActive : Nat := 0
  skipping : Nat := 0
  maxSkipping : Nat := 0

abbrev DecoderM := EStateM Failure Decoder

namespace Decoder

/-- An operation of the stream. -/
def onStream {α : Type} (x : StreamM α) : DecoderM α :=
  zoom Decoder.stream (fun s d => { d with stream := s }) x

/-- Replaces the object at an address. -/
def setObj (o : ObjId) (obj : Obj) (d : Decoder) : Decoder :=
  { d with heap := Function.update d.heap o (some obj) }

/-- Applies a function to the object at an address. -/
def modifyObj (o : ObjId) (f : Obj → Obj) (d : Decoder) : Decoder :=
  { d with heap := Function.update d.heap o ((d.heap o).map f) }

/-- `initEncaps`: creates the decoder of the encapsulation. -/
def initEncaps : DecoderM Unit := modify fun d => { d with initialized := true }

/-- `precondition(encaps.decoder != nil)`. -/
def requireDecoder : DecoderM Unit := do
  throwIf ((← get).initialized = false) (.trap .precondition)

end Decoder

open Decoder

/-- `readTypeId` (`InputStream.cpp:1311-1331`). -/
def readTypeId (m : Mapping) (isIndex : Bool) : DecoderM TypeId := do
  if isIndex then
    let index ← onStream readSize
    match (← get).typeIdMap.lookup index with
    | some typeId => return typeId
    | none => throw (.marshal .invalidTypeId)
  else
    let typeId ← onStream (readString m)
    modify fun d => { d with
      typeIdIndex := d.typeIdIndex + 1
      typeIdMap := (d.typeIdIndex + 1, typeId) :: d.typeIdMap }
    return typeId

/-- Notes a reference that is about to be stored from the patch map. -/
def Decoder.noteStore (holder : ObjId) (v : Option ObjId) (late : Bool) (d : Decoder) : Decoder :=
  match v, late with
  | some o, true => { d with lateStores := d.lateStores ++ [⟨holder, o, d.heap⟩] }
  | _, _ => d

/-- Stores a reference, without a check of its type; `late` if it comes from the patch map. -/
def store (t : Target) (v : Option ObjId) (late : Bool) : DecoderM Unit := do
  match t with
  | .slot o k =>
    modify fun d => (d.noteStore o v late).modifyObj o fun obj =>
      { obj with slots := obj.slots.set k v }
  | .sliced o n j =>
    modify fun d => (d.noteStore o v late).modifyObj o fun obj => { obj with
      slicedData := obj.slicedData.modify n fun info =>
        { info with instances := info.instances.set j v } }
  | .slicedClosure n =>
    match (← get).current with
    | [] => throw (.trap .forcedUnwrap)
    | c :: cs =>
      if n < c.slices.length then
        match v with
        | none => throw (.trap .forcedUnwrap)
        | some o => modify fun d => { d with
            current := { c with slices := c.slices.modify n fun info =>
              { info with instances := info.instances ++ [some o] } } :: cs }
      else throw (.trap .arrayIndex)

/-- The call of a patch function: `patchValue` (`InputStream.h:37-45`) or the closure of a generated
    class; the instance must have the expected type. -/
def patch (t : Target) (expected : TypeId) (v : Option ObjId) (late : Bool) : DecoderM Unit := do
  match v with
  | none => store t none late
  | some o =>
    match (← get).heap o with
    | none => throw (.trap .forcedUnwrap)
    | some obj =>
      if obj.cls.isA expected then store t (some o) late
      else throw (.marshal .unexpectedClass)

/-- `addPatchEntry` (`InputStream.cpp:1339-1385`). -/
def addPatchEntry (index : Nat) (t : Target) (expected : TypeId) : DecoderM Unit := do
  throwIf (index = 0) (.trap .precondition)
  let d ← get
  match d.unmarshaledMap.lookup index with
  | some none => throw (.marshal .cycleDetected)
  | some (some o) => patch t expected (some o) false
  | none =>
    set { d with
      patchMap := d.patchMap ++ [(index, PatchEntry.mk t expected d.classGraphDepth)]
      deferred := d.deferred ++ [t] }

/-- The entry that `unmarshal` makes before it reads the instance: `std::map::insert` keeps an entry
    that is already there, the Swift subscript replaces it. -/
def registerInstance (cfg : DecoderConfig) (index : Nat) (o : ObjId) (d : Decoder) : Decoder :=
  let entry := if cfg.acceptClassCycles then some o else none
  if cfg.mapping = .cpp ∧ (d.unmarshaledMap.lookup index).isSome then d
  else { d with unmarshaledMap := (index, entry) :: d.unmarshaledMap }

/-- `unmarshal` (`InputStream.cpp:1387-1455`), where `iceRead` is `v->_iceRead`. -/
def unmarshal (cfg : DecoderConfig) (index : Nat) (o : ObjId) (iceRead : DecoderM Unit) :
    DecoderM Unit := do
  modify (registerInstance cfg index o)
  iceRead
  modify fun d => { d with finished := o :: d.finished }
  let d ← get
  forEach (d.patchMap.filter fun e => e.1 = index) fun e =>
    patch e.2.target e.2.expected (some o) true
  modify fun d => { d with patchMap := d.patchMap.filter fun e => e.1 ≠ index }
  -- ice_postUnmarshal is called once no reference is pending.
  modify fun d =>
    if d.patchMap.isEmpty then
      { d with postUnmarshaled := d.postUnmarshaled ++ d.valueList ++ [o], valueList := [] }
    else { d with valueList := d.valueList ++ [o] }
  runIf (cfg.acceptClassCycles = false)
    (modify fun d => { d with unmarshaledMap := (index, some o) :: d.unmarshaledMap })

/-- The virtual operations of `EncapsDecoder` that generated code calls through the stream. -/
structure DecoderOps where
  read : Target → TypeId → DecoderM Unit
  startInstance : SliceType → DecoderM Unit
  endInstance : ObjId → DecoderM Unit
  startSlice : DecoderM Unit
  endSlice : DecoderM Unit
  readOptional : Nat → OptionalFormat → DecoderM Bool

/-- `readEnum` and the range check of its callers. -/
def readEnum (maxValue : Nat) : StreamM Nat := do
  let e ← currentEncaps
  let v ← readEnumerator e.encoding10 maxValue
  throwIf (v > maxValue) (.marshal .invalidEnumerator)
  return v

/-- The elements of a sequence, read one after the other. -/
def readElements {σ ρ : Type} (read : EStateM Failure σ (Val ρ)) :
    Nat → EStateM Failure σ (Val ρ)
  | 0 => return .nil
  | n + 1 => do
    let v ← read
    let vs ← readElements read n
    return .cons v vs

/-- Reads a data member of object `o`. A class member gets a new slot, which the decoder fills now
    or later. -/
def readField (m : Mapping) (ops : DecoderOps) (o : ObjId) : FieldType → DecoderM (Val Nat)
  | .fixed n => do return .fixed (← onStream (readBytes n))
  | .enum maxValue => do return .enum (← onStream (readEnum maxValue))
  | .string => do return .string (← onStream (readString m))
  | .cls t => do
    match (← get).heap o with
    | none => throw (.trap .forcedUnwrap)
    | some obj =>
      modify (setObj o { obj with slots := obj.slots ++ [none] })
      initEncaps
      ops.read (.slot o obj.slots.length) t
      return .ref obj.slots.length
  | .seq t => do
    let sz ← onStream (readAndCheckSeqSize m t.minWireSize)
    return .seq (← readElements (readField m ops o t) sz)
  | .pair a b => do
    let va ← readField m ops o a
    let vb ← readField m ops o b
    return .pair va vb

/-- The size that the helper of an optional type skips in front of the value. -/
def skipOptionalSize : OptionalType → StreamM Unit
  | .vsize _ => skipSize
  | .fsize _ => skip 4
  | _ => return ()

/-- Reads an optional data member. -/
def readOptionalField (m : Mapping) (ops : DecoderOps) (o : ObjId) (tag : Nat)
    (t : OptionalType) : DecoderM (Option (Val Nat)) := do
  let present ← ops.readOptional tag t.format
  if present then
    onStream (skipOptionalSize t)
    let v ← readField m ops o t.content
    return some v
  else return none

/-- One slice of the generated reading code (`slice2cpp/Gen.cpp`, `slice2swift/Gen.cpp`): the
    members, then the optional members in the order of their tags. -/
def readSlice (m : Mapping) (ops : DecoderOps) (o : ObjId) (s : SliceDef) : DecoderM Unit := do
  requireDecoder
  ops.startSlice
  let members ← mapEach s.members (readField m ops o)
  let optionals ← mapEach s.optionals fun e => readOptionalField m ops o e.1 e.2
  requireDecoder
  ops.endSlice
  modify fun d => d.modifyObj o fun obj =>
    { obj with fields := obj.fields ++ [⟨members, optionals⟩] }

/-- `Value::_iceRead` and `UserException::_read` of a generated class. -/
def iceRead (m : Mapping) (ops : DecoderOps) (kind : SliceType) (o : ObjId) (c : ClassDef) :
    DecoderM Unit := do
  requireDecoder
  ops.startInstance kind
  forEach c (readSlice m ops o)
  requireDecoder
  ops.endInstance o

end Ice
