import Ice.Misc.Wp
import Ice.WebSocket.Frame

/-!
# The WebSocket transceiver

`WSTransceiver` (`cpp/src/Ice/WSTransceiver.cpp`) after the HTTP upgrade: the read path
(`567-668`, `1207-1577`, `1810-1839`) and the write path (`517-565`, `1579-1808`, `1841-1895`).
Iterators into a buffer are positions. The delegate is the stream socket below
(`StreamSocket.cpp:117-162`): it transfers as many bytes as it likes, and asks to be called again if
that is not all.
-/

namespace Ice.WebSocket

/-- `IceInternal::Buffer`. -/
structure Buffer where
  b : List UInt8 := []
  i : Nat := 0
deriving DecidableEq, Repr

namespace Buffer

/-- The bytes from the current position on. -/
def rest (buf : Buffer) : List UInt8 := buf.b.drop buf.i

/-- `buf.i == buf.b.end()`. -/
def atEnd (buf : Buffer) : Bool := buf.i == buf.b.length

/-- `b.resize(n)`. -/
def resize (n : Nat) (buf : Buffer) : Buffer :=
  { buf with b := buf.b.take n ++ List.replicate (n - buf.b.length) 0 }

/-- Stores bytes at the current position and moves it behind them. -/
def put (bytes : List UInt8) (buf : Buffer) : Buffer where
  b := buf.b.take buf.i ++ bytes ++ buf.b.drop (buf.i + bytes.length)
  i := buf.i + bytes.length

end Buffer

/-- `SocketOperation`, as the set of its flags. -/
structure SocketOperation where
  read : Bool
  write : Bool
deriving DecidableEq, Repr

namespace SocketOperation

def none : SocketOperation := ⟨false, false⟩
def readOp : SocketOperation := ⟨true, false⟩
def writeOp : SocketOperation := ⟨false, true⟩

end SocketOperation

/-- `WSTransceiver::State`. -/
inductive State where
  | initializeDelegate
  | connected
  | upgradeRequestPending
  | upgradeResponsePending
  | opened
  | pingPending
  | pongPending
  | closingRequestPending
  | closingResponsePending
  | closed
deriving DecidableEq, Repr

instance : LT State := ⟨fun s t => s.ctorIdx < t.ctorIdx⟩

instance (s t : State) : Decidable (s < t) := inferInstanceAs (Decidable (s.ctorIdx < t.ctorIdx))

inductive ReadState where
  | opcode
  | header
  | controlFrame
  | payload
deriving DecidableEq, Repr

inductive WriteState where
  | header
  | payload
  | controlFrame
deriving DecidableEq, Repr

/-- What the transceiver throws. `assertion` is a failed `assert`. -/
inductive Exception where
  | protocol (reason : String)
  | connectionLost
  | assertion
  | outOfFuel
deriving DecidableEq, Repr

/-- The transceiver of an open connection, the argument `buf` of the call in progress, and the
    delegate: the bytes of the peer that it has not delivered, how many bytes it transfers in each
    of its next calls (with whether a read asks for a write), and the bytes that it was given.
    `masks` are the next results of `generateRandom`; `ready` is what the transceiver last told the
    selector about reading. -/
structure Transceiver where
  incoming : Bool
  state : State := .opened
  nextState : State := .opened
  readState : ReadState := .opcode
  readBuffer : Buffer := {}
  readI : Nat := 0
  readLastFrame : Bool := true
  readOpCode : UInt8 := 0
  readHeaderLength : Nat := 0
  readPayloadLength : Nat := 0
  readStart : Nat := 0
  readFrameOffset : Nat := 0
  readMask : Mask := fun _ => 0
  writeState : WriteState := .header
  writeBuffer : Buffer := {}
  writeMask : Mask := fun _ => 0
  writePayloadLength : Nat := 0
  closingInitiator : Bool := false
  closingReason : UInt16 := 1000
  pingPayload : List UInt8 := []
  buf : Buffer := {}
  wire : List UInt8 := []
  readSchedule : List (Nat × Bool) := []
  sent : List UInt8 := []
  writeSchedule : List Nat := []
  masks : List Mask := []
  ready : Bool := false

abbrev M := EStateM Exception Transceiver

/-- `_readBufferSize`. -/
def readBufferSize : Nat := 1024

/-- `_writeBufferSize`: 16 KB for an outgoing connection, 1 KB for an incoming one. -/
def writeBufferSize (incoming : Bool) : Nat := if incoming then 1024 else 16 * 1024

/-- `assert`. -/
def check (c : Prop) [Decidable c] : M Unit := throwIf (¬ c) .assertion

/-- The outcome of a read of the delegate into a buffer with room for `room` bytes. -/
def delegateRead (room : Nat) : M (List UInt8 × SocketOperation) := do
  let t ← get
  let choice := t.readSchedule.headD (0, false)
  let bytes := t.wire.take (min choice.1 room)
  set { t with wire := t.wire.drop bytes.length, readSchedule := t.readSchedule.tail }
  return (bytes,
    if bytes.length = room then .none else if choice.2 then .writeOp else .readOp)

/-- `_delegate->write`: returns the number of bytes that it took. -/
def delegateWrite (bytes : List UInt8) : M (Nat × SocketOperation) := do
  let t ← get
  let n := min (t.writeSchedule.headD 0) bytes.length
  set { t with sent := t.sent ++ bytes.take n, writeSchedule := t.writeSchedule.tail }
  return (n, if n = bytes.length then .none else .writeOp)

/-! ### Reading -/

/-- The bytes of the read buffer that have not been consumed. -/
def Transceiver.buffered (t : Transceiver) : List UInt8 :=
  (t.readBuffer.b.take t.readBuffer.i).drop t.readI

/-- Makes room for `sz` bytes in the read buffer: an empty buffer starts over, and unread bytes move
    to the front if there are fewer. -/
def makeRoom (sz : Nat) (t : Transceiver) : Transceiver :=
  if t.readI = t.readBuffer.i then
    { t with readBuffer := { t.readBuffer.resize readBufferSize with i := 0 }, readI := 0 }
  else if t.readBuffer.i - t.readI < sz then
    let moved : Buffer :=
      { b := t.buffered ++ t.readBuffer.b.drop t.buffered.length, i := t.buffered.length }
    { t with readBuffer := moved.resize (max readBufferSize sz), readI := 0 }
  else t

/-- `readBuffered`: whether `sz` bytes are in the read buffer. -/
def readBuffered (sz : Nat) : M Bool := do
  modify (makeRoom sz)
  modify fun t => { t with readStart := t.readBuffer.i }
  let t ← get
  if t.readI + sz > t.readBuffer.i then return false
  else
    check (t.readBuffer.i > t.readI)
    return true

/-- The next byte of the read buffer: `*_readI++`. -/
def nextByte : M UInt8 := do
  let t ← get
  set { t with readI := t.readI + 1 }
  return t.readBuffer.b.getD t.readI 0

/-- The next `n` bytes of the read buffer. -/
def nextBytes (n : Nat) : M (List UInt8) := do
  let t ← get
  set { t with readI := t.readI + n }
  return t.buffered.take n

/-- The FIN bit must be set on the frame before a data frame, and must not be before a
    continuation frame. -/
def checkLastFrame (opCode : UInt8) (finalFrame : Bool) : M Unit := do
  let t ← get
  if opCode = opData then
    throwIf (t.readLastFrame = false) (.protocol "invalid data frame, no FIN on previous frame")
    modify fun t => { t with readLastFrame := finalFrame }
  else if opCode = opCont then
    throwIf (t.readLastFrame = true)
      (.protocol "invalid continuation frame, previous frame FIN set")
    modify fun t => { t with readLastFrame := finalFrame }
  else return ()

/-- Control frames are not fragmented, and have at most 125 bytes of payload. -/
def checkControlFrame (opCode : UInt8) (finalFrame : Bool) (length : Nat) : M Unit := do
  if opCode = opClose ∨ opCode = opPing ∨ opCode = opPong then
    throwIf (finalFrame = false)
      (.protocol "invalid WebSocket control frame: the FIN bit is not set")
    throwIf (length > 125)
      (.protocol "invalid WebSocket control frame: the payload length exceeds 125 bytes")
  else return ()

/-- The length of what follows the first two bytes of a header. -/
def extraHeaderLength (length7 : Nat) (masked : Bool) : Nat :=
  (if length7 < 126 then 0 else if length7 = 126 then 2 else 8) + if masked then 4 else 0

/-- `ReadStateOpcode`: the first two bytes of a frame, which are in the read buffer. -/
def parseOpcode : M Unit := do
  let ch ← nextByte
  let opCode := ch &&& 0xf
  modify fun t => { t with readOpCode := opCode }
  throwIf (ch &&& 0x70 ≠ 0) (.protocol "invalid WebSocket frame: RSV bits must be 0")
  let finalFrame := ch &&& flagFinal = flagFinal
  checkLastFrame opCode finalFrame
  let ch ← nextByte
  let masked := ch &&& flagMasked = flagMasked
  throwIf (decide masked ≠ (← get).incoming) (.protocol "invalid masking")
  let length := (ch &&& 0x7f).toNat
  checkControlFrame opCode finalFrame length
  modify fun t => { t with
    readPayloadLength := length
    readHeaderLength := extraHeaderLength length masked
    readState := .header }

/-- `ReadStateOpcode` of `preRead`. Returns false if the read buffer has too few bytes. -/
def readOpcode : M Bool := do
  if (← get).readState = .opcode then
    if ← readBuffered 2 then
      parseOpcode
      return true
    else return false
  else return true

/-- A 64-bit number in network order, as a signed one. -/
def toInt64 (n : Nat) : Int := if n < 2 ^ 63 then n else (n : Int) - 2 ^ 64

/-- The extended payload length. -/
def parseLength : M Unit := do
  let t ← get
  if t.readPayloadLength = 126 then
    let bs ← nextBytes 2
    modify fun t => { t with readPayloadLength := ofBigEndian bs }
  else if t.readPayloadLength = 127 then
    let bs ← nextBytes 8
    let l := toInt64 (ofBigEndian bs)
    throwIf (l < 0 ∨ l > 2147483647)
      (.protocol s!"invalid WebSocket payload length: {l}")
    modify fun t => { t with readPayloadLength := l.toNat }
  else return ()

/-- The mask, for an incoming connection. -/
def parseMask : M Unit := do
  let t ← get
  if t.incoming then
    check (t.readBuffer.i - t.readI ≥ 4)
    let bs ← nextBytes 4
    modify fun t => { t with readMask := .ofBytes bs }
  else return ()

/-- What `preRead` does after the header of a frame: `wait` returns true, `stop` returns false. -/
inductive HeaderResult where
  | wait
  | stop
  | next
deriving DecidableEq, Repr

/-- A close frame: the role changes if a close frame was about to be sent. -/
def closeFrame : M HeaderResult := do
  let t ← get
  let s := if t.nextState = .opened then t.state else t.nextState
  if s = .closingRequestPending then
    if t.state = .closingRequestPending then
      set { t with closingInitiator := true, state := .closingResponsePending }
      return .stop
    else
      set { t with closingInitiator := true, nextState := .closingResponsePending }
      return .stop
  else throw .connectionLost

/-- The header has been read: what follows depends on the opcode. -/
def dispatchOpcode : M HeaderResult := do
  let t ← get
  if t.readOpCode = opText then throw (.protocol "text frames not supported")
  else if t.readOpCode = opData ∨ t.readOpCode = opCont then
    throwIf (t.readPayloadLength = 0) (.protocol "payload length is 0")
    check (t.buf.atEnd = false)
    modify fun t => { t with readState := .payload, readFrameOffset := 0 }
    return .next
  else if t.readOpCode = opClose then closeFrame
  else if t.readOpCode = opPing ∨ t.readOpCode = opPong then
    modify fun t => { t with readState := .controlFrame }
    return .next
  else throw (.protocol s!"unsupported opcode: {t.readOpCode}")

/-- Whether `sz` bytes are in the read buffer, where none are needed for `sz = 0`. -/
def readBufferedIfAny (sz : Nat) : M Bool :=
  if sz > 0 then readBuffered sz else return true

/-- `ReadStateHeader` of `preRead`. -/
def readHeader : M HeaderResult := do
  let t ← get
  if t.readState = .header then
    if ← readBufferedIfAny t.readHeaderLength then
      parseLength
      parseMask
      dispatchOpcode
    else return .wait
  else return .next

/-- A pong is due: now, or after the control frame that is due already. -/
def pongDue (t : Transceiver) : Transceiver :=
  if t.state = .opened then { t with state := .pongPending }
  else if t.nextState < .pongPending then { t with nextState := .pongPending }
  else t

/-- The payload of a ping or pong frame, which is in the read buffer. -/
def parseControlFrame : M Unit := do
  let t ← get
  let payload ← nextBytes t.readPayloadLength
  runIf (t.readPayloadLength > 0 ∧ t.readOpCode = opPing) <| modify fun t => { t with
    pingPayload := if t.incoming then t.readMask.apply 0 payload else payload }
  modify fun t => { t with readPayloadLength := 0 }
  runIf (t.readOpCode = opPing) (modify pongDue)
  modify fun t => { t with readState := .opcode }

/-- `ReadStateControlFrame` of `preRead`. Returns false if the read buffer has too few bytes. -/
def readControlFrame : M Bool := do
  let t ← get
  if t.readState = .controlFrame then
    if ← readBufferedIfAny t.readPayloadLength then
      parseControlFrame
      return true
    else return false
  else return true

/-- `ReadStatePayload` of `preRead`: copies from the read buffer. Returns true if more is needed. -/
def readPayload : M Bool := do
  modify fun t => { t with readStart := t.buf.i }
  let t ← get
  if t.buf.b = [] ∨ t.buf.atEnd then return false
  else
    let n := min (min (t.readBuffer.i - t.readI) (t.buf.b.length - t.buf.i)) t.readPayloadLength
    let bytes ← nextBytes n
    modify fun t => { t with buf := t.buf.put bytes }
    return t.buf.i + n < t.buf.b.length ∧ n < t.readPayloadLength

/-- `preRead`. Each round but the last reads a control frame from the read buffer, which bounds
    their number. -/
def preRead : Nat → M Bool
  | 0 => throw .outOfFuel
  | n + 1 => do
    if ← readOpcode then
      match ← readHeader with
      | .wait => return true
      | .stop => return false
      | .next =>
        if ← readControlFrame then
          if (← get).readState = .payload then readPayload else preRead n
        else return true
    else return true

def postRead : M Bool := do
  let t ← get
  if t.readState ≠ .payload then return t.readStart < t.readBuffer.i
  else if t.readStart = t.buf.i then return false
  else
    check (t.readStart < t.buf.i)
    let bytes := (t.buf.b.take t.buf.i).drop t.readStart
    runIf t.incoming <| modify fun t => { t with
      buf := { t.buf with
        b := t.buf.b.take t.readStart ++ t.readMask.apply t.readFrameOffset bytes ++
          t.buf.b.drop t.buf.i }
      readFrameOffset := t.readFrameOffset + bytes.length }
    modify fun t => { t with
      readPayloadLength := t.readPayloadLength - (t.buf.i - t.readStart)
      readStart := t.buf.i }
    runIf ((← get).readPayloadLength = 0) (modify fun t => { t with readState := .opcode })
    return !t.buf.atEnd

/-- The read of the delegate after `preRead`: into the destination, but no more than the payload,
    or into the read buffer. -/
def readMore : M SocketOperation := do
  let t ← get
  if t.readState = .payload then
    let readSz := t.readPayloadLength - (t.buf.i - t.readStart)
    let r ← delegateRead (min (t.buf.b.length - t.buf.i) readSz)
    modify fun t => { t with buf := t.buf.put r.1 }
    return r.2
  else
    let r ← delegateRead (t.readBuffer.b.length - t.readBuffer.i)
    modify fun t => { t with readBuffer := t.readBuffer.put r.1 }
    return r.2

/-- Whether a control frame is due. -/
def Transceiver.controlDue (t : Transceiver) : Bool :=
  (t.state = .closingRequestPending ∧ t.closingInitiator = false) ∨
    (t.state = .closingResponsePending ∧ t.closingInitiator = true) ∨
    t.state = .pingPending ∨ t.state = .pongPending

/-- The end of `read`: the operations that the caller has to wait for. -/
def finishRead : M SocketOperation := do
  let t ← get
  if t.buf.atEnd then
    runIf (t.readI < t.readBuffer.i) (modify fun t => { t with ready := true })
    return { read := false, write := t.controlDue ∧ t.writeState = .header }
  else
    modify fun t => { t with ready := false }
    return { read := true, write := t.controlDue ∧ t.writeState = .header }

/-- The loop of `read`. -/
def readLoop : Nat → M SocketOperation
  | 0 => throw .outOfFuel
  | n + 1 => do
    if ← preRead ((← get).buffered.length + 2) then
      let s ← readMore
      if s = .writeOp then
        let _ ← postRead
        return s
      else if ← postRead then readLoop n
      else finishRead
    else if ← postRead then readLoop n
    else finishRead

/-- `read` of an open connection. Each round of the loop but the last consumes a byte. -/
def read : M SocketOperation := do
  let t ← get
  if t.buf.atEnd then
    runIf (t.readI < t.readBuffer.i) (modify fun t => { t with ready := true })
    return .none
  else readLoop (2 * (t.buffered.length + t.wire.length) + 2)

/-! ### Writing -/

/-- The payload length in a frame header. -/
def lengthBytes (flag : UInt8) (length : Nat) : List UInt8 :=
  if length ≤ 125 then [flag ||| UInt8.ofNat length]
  else if length ≤ 65535 then [flag ||| 126] ++ toBigEndian 2 length
  else [flag ||| 127] ++ toBigEndian 8 length

/-- The header of a frame with the FIN bit; the mask follows for an outgoing connection. -/
def headerBytes (incoming : Bool) (opCode : UInt8) (length : Nat) (m : Mask) : List UInt8 :=
  [opCode ||| flagFinal] ++ lengthBytes (if incoming then 0 else flagMasked) length ++
    if incoming then [] else m.bytes

def prepareWriteHeader (opCode : UInt8) (length : Nat) : M Unit := do
  runIf ((← get).incoming = false) <| modify fun t =>
    { t with writeMask := t.masks.headD (fun _ => 0), masks := t.masks.tail }
  modify fun t => { t with
    writeBuffer := Buffer.put (headerBytes t.incoming opCode length t.writeMask)
      { t.writeBuffer.resize (writeBufferSize t.incoming) with i := 0 } }

/-- The payload of a frame as it is sent: an outgoing connection masks it. -/
def Transceiver.maskOut (t : Transceiver) (n : Nat) (payload : List UInt8) : List UInt8 :=
  if t.incoming then payload else t.writeMask.apply n payload

/-- The write buffer holds what has been put into it, and is written from its start. -/
def startWriteBuffer (t : Transceiver) : Transceiver :=
  { t with writeBuffer := { b := t.writeBuffer.b.take t.writeBuffer.i, i := 0 } }

/-- A control frame. -/
def prepareControlFrame (opCode : UInt8) (payload : List UInt8) : M Unit := do
  prepareWriteHeader opCode payload.length
  modify fun t => { t with writeBuffer := t.writeBuffer.put (t.maskOut 0 payload) }
  modify fun t => { startWriteBuffer t with writeState := .controlFrame }

/-- `WriteStateHeader` of `preWrite`. Returns false if there is nothing to write. -/
def preWriteHeader : M Bool := do
  let t ← get
  if t.state = .opened then
    if t.buf.b = [] ∨ t.buf.atEnd then return false
    else
      check (t.buf.i = 0)
      prepareWriteHeader opData t.buf.b.length
      modify fun t => { t with writeState := .payload, writePayloadLength := 0 }
      return true
  else if t.state = .pingPending then
    prepareControlFrame opPing []
    modify fun t => { t with writePayloadLength := 0 }
    return true
  else if t.state = .pongPending then
    prepareControlFrame opPong t.pingPayload
    modify fun t => { t with pingPayload := [], writePayloadLength := 0 }
    return true
  else if (t.state = .closingRequestPending ∧ t.closingInitiator = false) ∨
      (t.state = .closingResponsePending ∧ t.closingInitiator = true) then
    prepareControlFrame opClose (toBigEndian 2 t.closingReason.toNat)
    modify fun t => { t with writePayloadLength := 0 }
    return true
  else
    check (t.state ≠ .closed)
    return false

/-- The next part of the message goes into the write buffer: an outgoing connection masks the whole
    message this way, an incoming one copies its start only. -/
def fillWriteBuffer (t : Transceiver) : Transceiver :=
  if t.incoming = false ∧
      (t.writePayloadLength = 0 ∨ t.writeBuffer.i = t.writeBuffer.b.length) then
    let start := if t.writeBuffer.i = t.writeBuffer.b.length then 0 else t.writeBuffer.i
    let part := t.buf.rest.take (t.writeBuffer.b.length - start)
    startWriteBuffer { t with
      writeBuffer := Buffer.put (t.writeMask.apply t.buf.i part) { t.writeBuffer with i := start }
      writePayloadLength := t.buf.i + part.length }
  else if t.writePayloadLength = 0 then
    let part := t.buf.rest.take (t.writeBuffer.b.length - t.writeBuffer.i)
    startWriteBuffer { t with
      writeBuffer := t.writeBuffer.put part
      buf := { t.buf with i := t.buf.i + part.length }
      writePayloadLength := part.length }
  else t

/-- `preWrite`. -/
def preWritePayload : M Bool := do
  let t ← get
  if t.writeState = .payload then
    modify fillWriteBuffer
    return true
  else return t.writeBuffer.i < t.writeBuffer.b.length

def preWrite : M Bool := do
  if (← get).writeState = .header then
    if ← preWriteHeader then preWritePayload else return false
  else preWritePayload

/-- What a control frame that has been written completely changes. Returns true if `postWrite`
    returns false. -/
def controlFrameSent : M Bool := do
  let t ← get
  if t.state = .closingRequestPending ∧ t.closingInitiator = false then
    set { t with writeState := .header, state := .closingResponsePending }
    return true
  else if t.state = .closingResponsePending ∧ t.closingInitiator = true then
    throw .connectionLost
  else if t.state = .closed then return true
  else
    set { t with state := t.nextState, nextState := .opened, writeState := .header }
    return false

/-- The end of `postWrite`, for the message. -/
def postWriteMessage : M Bool := do
  modify fun t =>
    if (t.incoming = false ∨ t.buf.i = 0) ∧ t.writePayloadLength > 0 ∧
        t.writeBuffer.i = t.writeBuffer.b.length then
      { t with buf := { t.buf with i := t.writePayloadLength } }
    else t
  let t ← get
  if t.buf.b = [] ∨ t.buf.atEnd then
    set { t with writeState := .header }
    return t.controlDue
  else return t.state = .opened

def postWrite : M Bool := do
  let t ← get
  if State.opened < t.state ∧ t.writeState = .controlFrame then
    if t.writeBuffer.i = t.writeBuffer.b.length then
      if ← controlFrameSent then return false else postWriteMessage
    else return true
  else postWriteMessage

/-- The write of the delegate after `preWrite`: the write buffer, or the rest of the message for an
    incoming connection. -/
def writeMore : M SocketOperation := do
  let t ← get
  if t.writeBuffer.i < t.writeBuffer.b.length then
    let r ← delegateWrite t.writeBuffer.rest
    modify fun t => { t with writeBuffer := { t.writeBuffer with i := t.writeBuffer.i + r.1 } }
    return r.2
  else if t.incoming ∧ t.buf.b ≠ [] ∧ t.writeState = .payload then
    let r ← delegateWrite t.buf.rest
    modify fun t => { t with buf := { t.buf with i := t.buf.i + r.1 } }
    return r.2
  else return .none

/-- The write of the delegate, if `preWrite` asks for it. -/
def writeIfMore (more : Bool) : M SocketOperation := if more then writeMore else return .none

/-- The loop of `write`. -/
def writeLoop : Nat → M SocketOperation
  | 0 => throw .outOfFuel
  | n + 1 => do
    let more ← preWrite
    let s ← writeIfMore more
    if s ≠ .none then return s
    else if ← postWrite then writeLoop n
    else
      let t ← get
      return if t.state = .closingResponsePending ∧ t.closingInitiator = false then
        .readOp else .none

/-- `write` of an open connection. Each round of the loop but the last writes a part of the message
    or a control frame, of which at most three are due. -/
def write : M SocketOperation := do
  writeLoop ((← get).buf.b.length + 8)

end Ice.WebSocket
