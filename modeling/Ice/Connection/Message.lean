import Ice.Connection.ConnectionI

/-!
# Receiving and dispatching

The rest of `ConnectionI`: connection establishment, `message` with `parseMessage` and
`sendNextMessages`, the upcalls, `sendResponse`, `finish` and the timers; and the events that a
connection is exposed to.
-/

namespace Ice.Connection

open Ice.WebSocket (Buffer SocketOperation)

section Code

variable {ρ : Type}

/-- What invocations answer to `sent` and `response`: whether there is a callback to invoke. -/
structure Answers (ρ : Type) where
  sent : ρ → Bool
  response : ρ → Bool

variable [Bzip2] (answers : Answers ρ) (operation : SocketOperation) (s : ConnectionI ρ)

/-! ## Establishing the connection -/

/-- `initialize` (`2511-2528`). -/
def initializeConnection : M ρ Bool := do
  let s ← get
  let op ← ofExcept s.transceiver.initializeResult
  if op ≠ .none then
    modify (ConnectionI.update operation op)
    return false
  else
    setState .notValidated
    return true

/-- The check of the header that validates a connection (`2602-2644`). -/
def checkValidation (bytes : List UInt8) : Except LocalException Unit := do
  let size ← readMessageHeader bytes
  let messageType := bytes.getD 8 0
  if messageType ≠ MessageType.validateConnection.code then
    .error (.protocol (.notValidated messageType))
  else if size ≠ headerSize then .error (.marshal (.unexpectedValidateSize size))
  else .ok ()

/-- The end of `validate` (`2657-2662`). -/
def validated : ConnectionI ρ :=
  { s with writeStream := {}, readStream := {}, readSize := headerSize, readHeader := true }

/-- Writes what is left of a buffer. -/
def writeRest (buf : Buffer) : M ρ Buffer := if buf.atEnd then pure buf else write buf

/-- `validate` on the accepting side (`2535-2571`): sends the validation message. -/
def validateIncoming : M ρ Bool := do
  let s ← get
  let buf := if s.writeStream.b = []
    then ⟨header MessageType.validateConnection.code 0 headerSize, 0⟩ else s.writeStream
  modify fun s => { s with writeStream := buf }
  let buf ← writeRest buf
  modify fun s => { s with writeStream := buf }
  if buf.atEnd then
    modify (ConnectionI.hand { message := .validateConnection })
    modify validated
    return true
  else
    modify (ConnectionI.update operation .writeOp)
    return false

/-- `validate` on the connecting side (`2572-2653`): waits for the validation message. -/
def validateOutgoing : M ρ Bool := do
  modify fun s => { s with readSize := if s.readSize = 0 then headerSize else s.readSize }
  let s ← get
  runIf (s.readStream.b.length < s.readSize) read
  let s ← get
  if s.readStream.b.length < s.readSize then
    modify (ConnectionI.update operation .readOp)
    return false
  else
    ofExcept (checkValidation s.readStream.b)
    modify fun s => { s with received := s.received ++ [(s.state, s.readStream.b)] }
    modify validated
    return true

/-- `validate` (`2530-2679`). -/
def validate : M ρ Bool := do
  let s ← get
  if s.incoming then validateIncoming operation else validateOutgoing operation

/-- `validate` if the connection is initialized. -/
def validateIf (initialized : Bool) (operation : SocketOperation) : M ρ Bool :=
  if initialized then validate operation else pure false

/-- `startAsync` (`358-416`). -/
def startAsync (callbacks : Bool) : M ρ Unit :=
  handle (do
    let initialized ← initializeConnection .none
    let validated ← validateIf initialized .none
    if validated then setState .holding
    else modify fun s => { s with connectionStartCompleted := callbacks })
    fun ex => setStateWith .closed ex

/-- `initialize` unless that was done. -/
def initializeIfNeeded : M ρ Bool := do
  let s ← get
  if s.state = .notInitialized then initializeConnection operation else return true

/-- The part of `message` for a connection that is not validated (`1331-1367`). -/
def establish (operation newOp : SocketOperation) : M ρ Unit := do
  if newOp ≠ .none then modify (ConnectionI.update operation newOp)
  else
    let initialized ← initializeIfNeeded operation
    let validated ← validateIf initialized operation
    if validated then
      modify (ConnectionI.update operation .none)
      setState .holding
      modify fun s => { s with
        upcall := { s.upcall with connectionStartCompleted := s.connectionStartCompleted }
        connectionStartCompleted := false }
    else pure ()

/-! ## Reading and parsing -/

/-- The read loop of `message` (`1217-1322`): it reads a header and the message that it announces,
    or what is left of the message. Returns `Read` if the message is not complete. -/
def messageRead : M ρ SocketOperation := do
  read
  let s ← get
  if s.readStream.b.length < s.readSize then return .readOp
  else if s.readHeader then
    modify fun s => { s with readHeader := false }
    let size ← ofExcept (do checkMessageSize s.messageSizeMax (← readMessageHeader s.readStream.b))
    modify fun s => { s with readSize := max s.readSize size }
    let s ← get
    if s.readStream.b.length < s.readSize then
      read
      let s ← get
      return if s.readStream.b.length < s.readSize then .readOp else .none
    else return .none
  else return .none

/-- Requests that have been received for dispatch (`3196-3210`, `3266-3276`). -/
def receiveRequests (requestCount : Nat) (requestId : Int) (index : Nat) (s : ConnectionI ρ) :
    ConnectionI ρ :=
  { s with
    upcall := { s.upcall with messageUpcall := .dispatch requestCount requestId index }
    inactivityTimerTaskScheduled := false
    dispatchCount := s.dispatchCount + requestCount
    requestsReceived := s.requestsReceived + requestCount }

def minBatchRequestSize : Nat := 12

/-- The number of requests of a batch (`3243-3264`). -/
def checkBatch (requestCount : Int) (rest : List UInt8) : Except LocalException Nat :=
  if requestCount < 0 then .error (.marshal (.negativeBatch requestCount))
  else if (rest.length / minBatchRequestSize : Nat) < requestCount then
    .error (.marshal (.batchTooLarge requestCount))
  else .ok requestCount.toNat

/-- The element of the map that a reply is for (`3295-3309`): the hint is tried first. -/
def ConnectionI.findReply (requestId : Int) (s : ConnectionI ρ) : Option (Int × ρ) :=
  match s.hinted.filter fun e => e.1 = requestId with
  | some e => some e
  | none => findRequest requestId s.asyncRequests

/-- The removal of the request that a reply is for, and the call of `response` (`3313-3337`). -/
def deliver (requestId : Int) (e : Int × ρ) (result : List UInt8)
    (s : ConnectionI ρ) : ConnectionI ρ :=
  { s with
    asyncRequests := eraseRequest e.1 s.asyncRequests
    asyncRequestsHint :=
      if s.asyncRequestsHint = some e.1 then nextRequest e.1 s.asyncRequests
      else s.asyncRequestsHint
    calls := s.calls ++ [.response e.2 requestId result]
    upcall := if answers.response e.2
      then { s.upcall with messageUpcall := .response e.2 } else s.upcall }

/-- The `replyMsg` case of `parseMessage` (`3288-3357`). -/
def receiveReply (requestId : Int) (result : List UInt8) : M ρ Unit := do
  let s ← get
  match s.findReply requestId with
  | none => pure ()
  | some e =>
    modify (deliver answers requestId e result)
    closeIfRequested

/-- The `closeConnectionMsg` case of `parseMessage` (`3156-3183`). -/
def receiveCloseConnection : M ρ (Option SocketOperation) := do
  setStateWith .closingPending .closeConnection
  let s ← get
  if s.closing false ≠ .none then
    modify ConnectionI.scheduleCloseTimerTask
    return some (s.closing false)
  else
    setState .closed
    return none

/-- The body of the `try` block of `parseMessage` (`3122-3373`) for the message with the given
    number. Returns the operation that `parseMessage` returns at once, if it does. -/
def parseBody (index : Nat) (stream : List UInt8) :
    M ρ (Option SocketOperation) := do
  let s ← get
  let messageType := stream.getD 8 0
  let body ← ofExcept (readBody s.messageSizeMax (stream.getD 9 0) (stream.drop headerSize))
  match MessageType.ofCode messageType with
  | some .closeConnection => receiveCloseConnection
  | some .request =>
    if .closing ≤ s.state then return none
    else
      let (requestId, _) ← ofExcept (readNumber body)
      modify (receiveRequests 1 requestId index)
      return none
  | some .requestBatch =>
    if .closing ≤ s.state then return none
    else
      let (requestCount, rest) ← ofExcept (readNumber body)
      let requestCount ← ofExcept (checkBatch requestCount rest)
      modify (receiveRequests requestCount 0 index)
      return none
  | some .reply =>
    let (requestId, result) ← ofExcept (readNumber body)
    receiveReply answers requestId result
    return none
  | some .validateConnection => return none
  | none => throw (.protocol (.unknownMessageType messageType))

/-- The start of `parseMessage` (`3116-3119`). -/
def takeMessage : ConnectionI ρ :=
  { s with
    readStream := {}, readSize := headerSize, readHeader := true
    received := s.received ++ [(s.state, s.readStream.b)] }

/-- The operation that `parseMessage` asks for at its end (`3392-3411`). -/
def resumeOp : SocketOperation :=
  if s.state = .holding then .none
  else if 0 < s.maxDispatches ∧ s.maxDispatches ≤ s.dispatchCount then .none
  else .readOp

/-- `parseMessage` (`3112-3412`). -/
def parseMessage : M ρ SocketOperation := do
  let s ← get
  modify takeMessage
  let closingOp ← handle (parseBody answers s.received.length s.readStream.b) fun ex => do
    setStateWith .closed ex
    return none
  let s ← get
  return closingOp.getD (resumeOp s)

/-! ## Sending the queue -/

/-- The message that was being sent is sent (`2707-2716`). -/
def popSent (m : OutgoingMessage ρ) (rest : List (OutgoingMessage ρ))
    (s : ConnectionI ρ) : ConnectionI ρ :=
  { s with
    sendStreams := rest
    writeStream := {}
    calls := s.calls ++ (m.outAsync.map Call.sent).toList
    upcall :=
      { s.upcall with sentCBs := s.upcall.sentCBs ++ (m.outAsync.filter answers.sent).toList } }

/-- The loop of `sendNextMessages` behind the first message (`2718-2808`). -/
def sendQueued (answers : Answers ρ) : List (OutgoingMessage ρ) → M ρ SocketOperation
  | [] => do
    let s ← get
    if s.state = .closing ∧ s.shutdownInitiated then
      setState .closingPending
      return s.closing true
    else return .none
  | m :: rest => do
    let s ← get
    if .closingPending ≤ s.state then return .none
    else
      let wire ← ofExcept (m.message.wire m.compress)
      let buf ← write ⟨wire, 0⟩
      modify fun s => { s with writeStream := buf }
      if buf.atEnd then
        modify (ConnectionI.hand m)
        modify (popSent answers m rest)
        sendQueued answers rest
      else return .writeOp

/-- `sendNextMessages` (`2681-2816`). -/
def sendNextMessages : M ρ SocketOperation := do
  let s ← get
  match s.sendStreams with
  | [] => return .none
  | m :: rest =>
    if s.state = .closingPending ∧ s.writeStream.i = 0 then
      modify fun s => { s with writeStream := {} }
      return .none
    else
      handle (do
        modify (popSent answers m rest)
        sendQueued answers rest) fun ex => do
        setStateWith .closed ex
        return .none

/-! ## `message` -/

/-- Records that the write has finished the message being sent. -/
def handFront : ConnectionI ρ :=
  { s with handed := s.handed ++ s.sendStreams.take 1 }

/-- The write of `message` (`1197-1209`). -/
def messageWrite : M ρ SocketOperation := do
  if operation.write then
    let s ← get
    let buf ← write s.writeStream
    modify fun s => { s with writeStream := buf }
    runIf (buf.atEnd ∧ s.writeStream.atEnd = false) (modify handFront)
    return if buf.atEnd then .none else .writeOp
  else return .none

/-- The start of `message`: `IOScope` checks that the handler is still interested in one of the
    operations. -/
def beginMessage : M ρ Unit := do
  let s ← get
  if meets s.registered operation = false ∨ .closed ≤ s.state then
    modify fun s => { s with phase := .idle }
  else
    handle (do
      let writeOp ← messageWrite operation
      modify fun s => { s with phase := .reading operation writeOp, upcall := {} }) fun ex => do
      setStateWith .closed ex
      modify fun s => { s with phase := .idle }

/-- Runs a program if an operation is ready. -/
def ifReady (ready : Bool) (x : M ρ SocketOperation) : M ρ SocketOperation :=
  if ready then x else pure .none

/-- The part of `message` for a validated connection (`1368-1404`). -/
def process (operation newOp : SocketOperation) : M ρ Unit := do
  let readyOp := minus operation newOp
  let readOp ← ifReady readyOp.read (parseMessage answers)
  let writeOp ← ifReady readyOp.write (sendNextMessages answers)
  let s ← get
  if s.state < .closed then
    modify (ConnectionI.update operation (union newOp (union readOp writeOp)))
  else pure ()

/-- The two cases of `message` (`1331`). -/
def establishOrProcess (operation newOp : SocketOperation) : M ρ Unit := do
  let s ← get
  if s.state ≤ .notValidated then establish operation newOp else process answers operation newOp

/-- The upcall of `message` is started if there is one (`1406-1415`). -/
def startUpcall : ConnectionI ρ :=
  if s.upcall.count = 0 then s
  else { s with upcallCount := s.upcallCount + s.upcall.count, upcalls := s.upcalls ++ [s.upcall] }

/-- `message` behind the write (`1211-1455`). -/
def endMessage (operation writeOp : SocketOperation) : M ρ Unit := do
  handle (do
    let readOp ← ifReady operation.read messageRead
    let newOp := union readOp writeOp
    establishOrProcess answers operation newOp
    modify startUpcall) fun ex => setStateWith .closed ex
  modify fun s => { s with phase := .idle }

/-! ## Upcalls and responses -/

/-- `initiateShutdown` where a `LocalException` closes the connection. -/
def shutdownOrClose : M ρ Unit := handle initiateShutdown fun ex => setStateWith .closed ex

/-- The next request of the upcall at position `i` goes to its servant (`dispatchAll`). -/
def startDispatch (i : Nat) (s : ConnectionI ρ) : ConnectionI ρ :=
  match s.upcalls[i]? with
  | some ⟨start, sentCBs, .dispatch (n + 1) requestId index⟩ =>
    { s with
      upcalls := s.upcalls.set i ⟨start, sentCBs, .dispatch n requestId index⟩
      dispatching := s.dispatching ++ [⟨requestId, index⟩]
      dispatched := s.dispatched ++ [index] }
  | _ => s

/-- `dispatchException` (`953-983`), called by `dispatchAll` if the request cannot be read. -/
def dispatchException (i : Nat) (ex : LocalException) : M ρ Unit := do
  let s ← get
  match s.upcalls[i]? with
  | some u =>
    modify fun s => { s with upcalls := s.upcalls.set i { u with messageUpcall := .none } }
    setStateWith .closed ex
    modify fun s => { s with upcallCount := s.upcallCount - u.requests }
  | none => pure ()

/-- The end of `upcall` (`1541-1579`). -/
def upcallCompleted (i : Nat) : M ρ Unit := do
  let s ← get
  match s.upcalls[i]? with
  | some u =>
    modify fun s =>
      { s with upcalls := s.upcalls.eraseIdx i, upcallCount := s.upcallCount - u.completed }
    let s ← get
    if 0 < u.completed ∧ s.upcallCount = 0 ∧ s.state = .closing then shutdownOrClose else pure ()
  | none => pure ()

/-- The response of a dispatch. A request with ID 0 has no response. -/
def Dispatch.response (d : Dispatch) (result : Payload) (compress : Bool) : OutgoingMessage ρ where
  message := .reply d.requestId result
  compress := compress
  tag := d.index

/-- Reads are resumed if the dispatch count is about to fall below the limit (`2485-2497`). -/
def dispatchDone : ConnectionI ρ :=
  { s with
    registered :=
      if s.state = .active ∧ 0 < s.maxDispatches ∧ s.dispatchCount = s.maxDispatches
      then union s.registered .readOp else s.registered
    dispatchCount := s.dispatchCount - 1 }

/-- The body of the `try` block of `sendResponse` (`2449-2503`). -/
def respond (d : Dispatch) (result : Payload) (compress : Bool) : M ρ Unit := do
  modify fun s => { s with upcallCount := s.upcallCount - 1 }
  let s ← get
  if .closed ≤ s.state then pure ()
  else
    runIf (d.requestId ≠ 0) (discard (sendMessage (d.response result compress)))
    modify dispatchDone
    let s ← get
    runIf (s.state = .closing ∧ s.upcallCount = 0) initiateShutdown

/-- `sendResponse` (`2437-2509`) for the dispatch at position `j`. -/
def sendResponse (j : Nat) (result : Payload) (compress : Bool) : M ρ Unit := do
  let s ← get
  match s.dispatching[j]? with
  | some d =>
    modify fun s =>
      { s with dispatching := s.dispatching.eraseIdx j, requestsAnswered := s.requestsAnswered + 1 }
    handle (respond d result compress) fun ex => setStateWith .closed ex
  | none => pure ()

/-! ## Finishing -/

/-- The requests that are left in the map once the messages of the queue are completed
    (`1726-1733`). -/
def remainingRequests (queue : List (OutgoingMessage ρ)) (requests : List (Int × ρ)) :
    List (Int × ρ) :=
  queue.foldl (fun es m => if m.requestId = 0 then es else eraseRequest m.requestId es) requests

/-- `finish` (`1643-1841`), up to its last `setState`. -/
def completeAll : ConnectionI ρ :=
  let ex := s.exception.getD .socket
  { s with
    connectionStartCompleted := false
    calls := s.calls ++
      s.sendStreams.filterMap (fun m => m.outAsync.map (Call.exception · m.requestId ex)) ++
      (remainingRequests s.sendStreams s.asyncRequests).map fun e => Call.exception e.2 e.1 ex
    sendStreams := []
    asyncRequests := []
    writeStream := {}
    readStream := {}
    readSize := 0 }

def finish : M ρ Unit := do
  modify completeAll
  setState .finished

/-! ## Timers -/

/-- `idleCheck` (`2312-2327`). -/
def idleCheck : M ρ Unit := do
  let s ← get
  if s.state = .active then setStateWith .closed (.connectionAborted false) else pure ()

/-- `inactivityCheck` (`2330-2352`). -/
def inactivityCheck : M ρ Unit := do
  let s ← get
  set { s with inactivityTimerTaskScheduled := false }
  if s.state = .active then setStateWith .closing (.connectionClosed false) else pure ()

/-- `connectTimedOut` (`2355-2363`). -/
def connectTimedOut : M ρ Unit := do
  let s ← get
  if s.state < .active then setStateWith .closed .connectTimeout else pure ()

/-- `closeTimedOut` (`2366-2377`). -/
def closeTimedOut : M ρ Unit := do
  let s ← get
  if s.state < .closed then
    set { s with exception := some .closeTimeout }
    setState .closed
  else pure ()

/-- Whether `sendHeartbeat` schedules the inactivity timer task (`2389-2406`). -/
def isInactive (s : ConnectionI ρ) : Prop :=
  s.inactivityTimerTask ∧ s.inactivityTimerTaskScheduled = false ∧ s.state = .active ∧
    s.dispatchCount = 0 ∧ s.asyncRequests = [] ∧ s.readHeader ∧ s.sendStreams.length ≤ 1 ∧
    (s.sendStreams = [] ∨ s.writeStream.b.getD 8 0 = MessageType.validateConnection.code)

instance (s : ConnectionI ρ) [Decidable (s.asyncRequests = [])] [Decidable (s.sendStreams = [])] :
    Decidable (isInactive s) :=
  inferInstanceAs (Decidable (_ ∧ _))

/-- `sendHeartbeat` (`2380-2434`). -/
def sendHeartbeat : M ρ Unit := do
  let s ← get
  if s.state = .active ∨ s.state = .holding ∨ s.state = .closing then
    runIf (isInactive s) (modify fun s => { s with inactivityTimerTaskScheduled := true })
    runIf (s.sendStreams = []) <|
      handle (discard (sendMessage { message := .validateConnection })) fun ex =>
        setStateWith .closed ex
  else pure ()

end Code

end Ice.Connection
