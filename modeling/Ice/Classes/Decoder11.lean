import Ice.Classes.Decoder

/-!
# The 1.1 class decoder

`InputStream::EncapsDecoder11` (`cpp/src/Ice/InputStream.cpp:1749-2221`,
`swift/src/Ice/InputStream.swift:1239-1662`). `readInstance` recurses through the members of known
slices, through their indirection tables and through those of the slices that it skips; the model
bounds the depth of the recursion by a fuel argument, and each function that can recurse takes the
recursive call as its argument `rec`.
-/

namespace Ice

open Decoder

/-- `SliceFlags` (`cpp/src/Ice/SliceFlags.h`). -/
def flagHasTypeIdString : UInt8 := 1
def flagHasTypeIdIndex : UInt8 := 2
def flagHasTypeIdCompact : UInt8 := 3
def flagHasOptionalMembers : UInt8 := 4
def flagHasIndirectionTable : UInt8 := 8
def flagHasSliceSize : UInt8 := 16
def flagIsLastSlice : UInt8 := 32

/-- `flags & flag`, as a condition. -/
def hasFlag (flags flag : UInt8) : Bool := flags &&& flag != 0

/-- The recursive call of `readInstance`: an index, and the patch function if there is one. -/
abbrev ReadInstance := Nat → Option (Target × TypeId) → DecoderM Nat

variable (m : Mapping) (cfg : DecoderConfig) (rec : ReadInstance)

/-- `_current`, which Swift unwraps and C++ dereferences. -/
def currentInstance : DecoderM InstanceData := do
  match (← get).current with
  | c :: _ => return c
  | [] => throw (.trap .forcedUnwrap)

/-- Updates `_current`. -/
def modifyCurrent (f : InstanceData → InstanceData) : DecoderM Unit := do
  match (← get).current with
  | c :: cs => modify fun d => { d with current := f c :: cs }
  | [] => throw (.trap .forcedUnwrap)

/-- The slice attributes of `_current`. -/
def currentHeader : DecoderM SliceHeader := do
  match (← currentInstance).header with
  | some h => return h
  | none => throw (.trap .forcedUnwrap)

def push (sliceType : SliceType) : DecoderM Unit :=
  modify fun d =>
    { d with current := { sliceType := sliceType, skipFirstSlice := false } :: d.current }

/-- The type ID of a slice header, and its compact ID. -/
def readSliceTypeId (sliceType : SliceType) (flags : UInt8) :
    DecoderM (TypeId × Option Nat) := do
  if sliceType = .valueSlice then
    if flags &&& flagHasTypeIdCompact = flagHasTypeIdCompact then
      let compactId ← onStream readSize
      return (compactIdString compactId, some compactId)
    else if hasFlag flags (flagHasTypeIdString ||| flagHasTypeIdIndex) then
      let typeId ← readTypeId m (hasFlag flags flagHasTypeIdIndex)
      return (typeId, none)
    else
      -- Only the most derived slice encodes the type ID for the compact format.
      return ([], none)
  else
    let typeId ← onStream (readString m)
    return (typeId, none)

/-- The size of a slice, if its header has one. -/
def readSliceSize (flags : UInt8) : StreamM Int := do
  if hasFlag flags flagHasSliceSize then
    let sliceSize ← readInt32
    throwIf (sliceSize < if hasFlag flags flagHasOptionalMembers then 5 else 4)
      (.marshal .endOfBuffer)
    return sliceSize
  else return 0

/-- `startSlice` (`InputStream.cpp:1873-1942`). -/
def startSlice11 : DecoderM Unit := do
  let c ← currentInstance
  if c.skipFirstSlice then modifyCurrent fun c => { c with skipFirstSlice := false }
  else
    let flags ← onStream readByte
    let id ← readSliceTypeId m c.sliceType flags
    let sliceSize ← onStream (readSliceSize flags)
    modifyCurrent fun c => { c with header := some ⟨flags, sliceSize, id.1, id.2⟩ }

/-- An indirection table: each entry is an instance, or the index of one. -/
def readIndirectionTable : DecoderM (List Nat) := do
  let sz ← onStream (readAndCheckSeqSize m 1)
  repeatM sz do
    let index ← onStream readSize
    rec index none

/-- The conversion of the indirect references of a slice, at the end of the slice. -/
def resolveIndirect (table : List Nat) (e : IndirectPatchEntry) : DecoderM Unit :=
  match table[e.index]? with
  | none => throw (.marshal .indirectionOutOfRange)
  | some index => addPatchEntry index e.target e.expected

/-- The indirection table at the end of a known slice. If there are optional members, it is possible
    that not all references were read. -/
def endSliceTable (flags : UInt8) : DecoderM Unit := do
  let table ← readIndirectionTable m rec
  throwIf (table = []) (.marshal .emptyIndirectionTable)
  let c ← currentInstance
  throwIf (c.indirectPatchList = [] ∧ hasFlag flags flagHasOptionalMembers = false)
    (.marshal .unusedIndirectionTable)
  forEach c.indirectPatchList (resolveIndirect table)
  modifyCurrent fun c => { c with indirectPatchList := [] }

/-- `endSlice` (`InputStream.cpp:1944-1992`). -/
def endSlice11 : DecoderM Unit := do
  let h ← currentHeader
  runIf (hasFlag h.sliceFlags flagHasOptionalMembers) (onStream skipOptionals)
  runIf (hasFlag h.sliceFlags flagHasIndirectionTable) (endSliceTable m rec h.sliceFlags)

/-- The preserved slice of a slice that is skipped. The end marker of the optional members is not
    kept, `endSlice` of the encoder writes it again. -/
def preservedSlice (h : SliceHeader) (bytes : List UInt8) : SliceInfo (Option ObjId) where
  typeId := if h.compactId.isNone then h.typeId else []
  compactId := h.compactId
  bytes := if hasFlag h.sliceFlags flagHasOptionalMembers then bytes.dropLast else bytes
  instances := []
  hasOptionalMembers := hasFlag h.sliceFlags flagHasOptionalMembers
  isLastSlice := hasFlag h.sliceFlags flagIsLastSlice

/-- The body of a slice that is skipped. A slice of the compact format has no size. -/
def skipSliceBody (h : SliceHeader) : DecoderM (List UInt8) := do
  throwIf (hasFlag h.sliceFlags flagHasSliceSize = false) (.marshal .compactFormat)
  throwIf (h.sliceSize < 4) (.trap .precondition)
  let start ← get
  onStream (skip (h.sliceSize - 4))
  return start.stream.upcoming.take (h.sliceSize - 4).toNat

/-- Keeps a value slice. The Swift code takes `subdata(in: start..<dataEnd)`, where `dataEnd`
    excludes the end marker of the optional members. -/
def preserveSlice (h : SliceHeader) (bytes : List UInt8) : DecoderM Unit := do
  throwIf (hasFlag h.sliceFlags flagHasOptionalMembers = true ∧ bytes = []) (.trap .arrayIndex)
  modifyCurrent fun c => { c with slices := c.slices ++ [preservedSlice h bytes] }

/-- The indirection table of a slice that is skipped. -/
def skippedTable (flags : UInt8) : DecoderM (List Nat) :=
  if hasFlag flags flagHasIndirectionTable then readIndirectionTable m rec else return []

/-- `skipSlice` (`InputStream.cpp:1994-2072`). -/
def skipSlice11 : DecoderM Unit := do
  let c ← currentInstance
  let h ← currentHeader
  let bytes ← skipSliceBody h
  runIf (c.sliceType = .valueSlice) (preserveSlice h bytes)
  let table ← skippedTable m rec h.sliceFlags
  modifyCurrent fun c => { c with indirectionTables := c.indirectionTables ++ [table] }

/-- `readOptional` (`InputStream.cpp:2074-2086`). -/
def readOptional11 (readTag : Nat) (expectedFormat : OptionalFormat) : DecoderM Bool := do
  match (← get).current with
  | [] => onStream (readOptImpl readTag expectedFormat)
  | _ :: _ =>
    let h ← currentHeader
    if hasFlag h.sliceFlags flagHasOptionalMembers then
      onStream (readOptImpl readTag expectedFormat)
    else return false

/-- `read` (`InputStream.cpp:1749-1788`). -/
def read11 (t : Target) (expected : TypeId) : DecoderM Unit := do
  let index ← onStream readSize
  if index = 0 then patch t expected none false
  else
    match (← get).current with
    | [] =>
      let _ ← rec index (some (t, expected))
    | _ :: _ =>
      let h ← currentHeader
      if hasFlag h.sliceFlags flagHasIndirectionTable then
        modifyCurrent fun c => { c with
          indirectPatchList := c.indirectPatchList ++ [⟨index - 1, t, expected⟩] }
      else
        let _ ← rec index (some (t, expected))

/-- `startInstance` (`InputStream.cpp:1856-1861`). -/
def startInstance11 (sliceType : SliceType) : DecoderM Unit := do
  let c ← currentInstance
  throwIf (c.sliceType ≠ sliceType) (.trap .precondition)
  modifyCurrent fun c => { c with skipFirstSlice := true }

/-- One entry of the indirection table of a preserved slice, in `readSlicedData`. The C++ entry is
    stored in the `SliceInfo`, which the instance shares; the Swift closure refers to whatever
    instance is current when it runs. -/
def patchSliced (o : ObjId) (n j index : Nat) : DecoderM Unit :=
  match m with
  | .cpp => addPatchEntry index (.sliced o n j) objectTypeId
  | .swift => addPatchEntry index (.slicedClosure n) objectTypeId

/-- The entries of the preserved slice `n`. -/
def patchSlice (o : ObjId) (n : Nat) (table : List Nat) : DecoderM Unit := do
  runIf (m = .swift) <| modifyCurrent fun c => { c with
    slices := c.slices.modify n fun info => { info with instances := [] } }
  forEach table.zipIdx fun e => patchSliced m o n e.2 e.1

/-- `SlicedData` as the instance keeps it, with a location for each entry of each table. -/
def sizedSlices (c : InstanceData) : List (SliceInfo (Option ObjId)) :=
  c.slices.zipWith (fun info table => { info with instances := table.map fun _ => none })
    c.indirectionTables

/-- The references in a list of preserved slices. -/
def slicedRefs (slices : List (SliceInfo (Option ObjId))) : List ObjId :=
  slices.flatMap fun info => info.instances.filterMap id

/-- The preserved slices of an instance of `c`. In C++ the instance shares them, so they are stored
    in it before they are patched; Swift copies them at the end. -/
def patchSlices (o : ObjId) (c : InstanceData) : DecoderM Unit :=
  match m with
  | .cpp => do
    modify fun d => d.modifyObj o fun obj => { obj with slicedData := sizedSlices c }
    forEach c.indirectionTables.zipIdx fun e => patchSlice m o e.2 e.1
  | .swift => do
    forEach c.indirectionTables.zipIdx fun e => patchSlice m o e.2 e.1
    let c ← currentInstance
    modify fun d => d.modifyObj o fun obj => { obj with slicedData := c.slices }

/-- `readSlicedData` (`InputStream.cpp:2190-2221`, `InputStream.swift:1621-1650`). -/
def readSlicedData (o : ObjId) : DecoderM Unit := do
  let c ← currentInstance
  if c.slices = [] then return ()
  else
    throwIf (c.slices.length ≠ c.indirectionTables.length) (.trap .precondition)
    patchSlices m o c

/-- `endInstance` (`InputStream.cpp:1863-1871`). -/
def endInstance11 (o : ObjId) : DecoderM Unit := do
  readSlicedData m o
  match (← get).current with
  | [] => throw (.trap .forcedUnwrap)
  | _ :: cs => modify fun d => { d with current := cs }

def ops11 : DecoderOps where
  read := read11 rec
  startInstance := startInstance11
  endInstance := endInstance11 m
  startSlice := startSlice11 m
  endSlice := endSlice11 m rec
  readOptional := readOptional11

/-- The bookkeeping around the recursive calls for a slice that is skipped. -/
def whileSkipping : ReadInstance := fun index cb => do
  modify fun d => { d with skipping := d.skipping + 1 }
  let index ← rec index cb
  modify fun d => { d with skipping := d.skipping - 1 }
  return index

/-- The class for the type ID of a slice; a slice of the compact format may have none. -/
def DecoderConfig.findClass (typeId : TypeId) : Option ClassDef :=
  if typeId = [] then none else cfg.loader.newClassInstance typeId

/-- After the last slice, the Slice loader can supply a class for `::Ice::Object`; otherwise the
    instance is an `UnknownSlicedValue`. -/
def DecoderConfig.lastChance (mostDerivedId : TypeId) :
    ClassDef × Option TypeId :=
  match cfg.loader.newClassInstance objectTypeId with
  | some c => (c, none)
  | none => ([], some mostDerivedId)

/-- The loop of `readInstance` that slices off what the Slice loader does not know. It returns the
    class, and the most derived type ID if no class was found. Each round but the last reads a
    slice header, so the number of bytes left bounds the rounds. -/
def sliceLoop (cfg : DecoderConfig) (rec : ReadInstance) (mostDerivedId : TypeId) :
    Nat → DecoderM (ClassDef × Option TypeId)
  | 0 => throw .outOfFuel
  | n + 1 => do
    let h ← currentHeader
    match cfg.findClass h.typeId with
    | some c => return (c, none)
    | none =>
      skipSlice11 cfg.mapping (whileSkipping rec)
      let h ← currentHeader
      if hasFlag h.sliceFlags flagIsLastSlice then return cfg.lastChance mostDerivedId
      else
        startSlice11 cfg.mapping
        sliceLoop cfg rec mostDerivedId n

/-- The bookkeeping at the entry of an inline activation. -/
def enterInline (d : Decoder) : Decoder :=
  { d with
    active := d.active + 1
    maxActive := max d.maxActive (d.active + 1)
    maxSkipping := max d.maxSkipping d.skipping }

/-- The instance that an inline activation creates and reads. -/
def readInline : DecoderM ObjId := do
  push .valueSlice
  modify fun d => { d with valueIdIndex := d.valueIdIndex + 1 }
  let index := (← get).valueIdIndex
  startSlice11 cfg.mapping
  let h ← currentHeader
  let found ← sliceLoop cfg rec h.typeId ((← get).stream.remaining + 1)
  modify (setObj index { cls := found.1, unknownTypeId := found.2 })
  modify fun d => { d with classGraphDepth := d.classGraphDepth + 1 }
  throwIf ((← get).classGraphDepth > cfg.classGraphDepthMax) (.marshal .maximumDepth)
  unmarshal cfg index index (iceRead cfg.mapping (ops11 cfg.mapping rec) .valueSlice index found.1)
  modify fun d => { d with classGraphDepth := d.classGraphDepth - 1 }
  return index

/-- The call of the patch function of `readInstance`, if there is one. -/
def patchIfAny (cb : Option (Target × TypeId)) (f : Target → TypeId → DecoderM Unit) :
    DecoderM Unit :=
  match cb with
  | some (t, expected) => f t expected
  | none => return ()

/-- `readInstance` (`InputStream.cpp:2088-2188`). -/
def readInstance11 (cfg : DecoderConfig) : Nat → ReadInstance
  | 0, _, _ => throw .outOfFuel
  | fuel + 1, index, cb =>
    if index = 0 then throw (.marshal .invalidObjectId)
    else if index > 1 then do
      patchIfAny cb fun t expected => addPatchEntry index t expected
      return index
    else do
      modify enterInline
      let index ← readInline cfg (readInstance11 cfg fuel)
      let d ← get
      throwIf (d.current = [] ∧ d.patchMap ≠ []) (.marshal .missingInstance)
      patchIfAny cb fun t expected => patch t expected (some index) false
      modify fun d => { d with active := d.active - 1 }
      return index

/-- The loop of `throwException`. -/
def exceptionLoop11 (cfg : DecoderConfig) (rec : ReadInstance) : Nat → DecoderM Unit
  | 0 => throw .outOfFuel
  | n + 1 => do
    let h ← currentHeader
    modify fun d => { d with exceptionIds := d.exceptionIds ++ [h.typeId] }
    match cfg.loader h.typeId, cfg.mapping with
    | some (.exception c), _ =>
      iceRead cfg.mapping (ops11 cfg.mapping rec) .exceptionSlice frameId c
      throw .userException
    -- Swift: `obj as! UserException`
    | some (.cls _), .swift => throw (.trap .forcedCast)
    | _, _ =>
      skipSlice11 cfg.mapping rec
      let h ← currentHeader
      throwIf (hasFlag h.sliceFlags flagIsLastSlice) (.marshal .unknownType)
      startSlice11 cfg.mapping
      exceptionLoop11 cfg rec n

/-- `throwException` (`InputStream.cpp:1790-1854`, without a factory of the caller's). -/
def throwException11 : DecoderM Unit := do
  throwIf ((← get).current ≠ []) (.trap .precondition)
  push .exceptionSlice
  startSlice11 cfg.mapping
  exceptionLoop11 cfg rec ((← get).stream.remaining + 1)

end Ice
