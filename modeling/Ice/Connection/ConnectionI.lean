import Ice.Connection.Protocol
import Ice.WebSocket.Transceiver

/-!
# Connections

The state machine of `Ice::ConnectionI` (`cpp/src/Ice/ConnectionI.cpp`) over a stream transport, in
a build without `ICE_USE_IOCP`. The functions keep the order of the source. A function that runs
under the connection's mutex is one program; `message` is two, because the peer goes on while it
holds the mutex between its write and its read.

`ρ` is the type of pointers to outgoing invocations (`OutgoingAsyncBasePtr`).
-/

namespace Ice.Connection

open Ice.WebSocket (Buffer SocketOperation)

/-- `ConnectionI::State` (`ConnectionI.h:283-293`). -/
inductive State where
  | notInitialized
  | notValidated
  | active
  | holding
  | closing
  | closingPending
  | closed
  | finished
deriving DecidableEq, Repr

namespace State

/-- The value of the enumerator. -/
def rank : State → Nat
  | notInitialized => 0
  | notValidated => 1
  | active => 2
  | holding => 3
  | closing => 4
  | closingPending => 5
  | closed => 6
  | finished => 7

theorem rank_injective : Function.Injective rank := by
  intro a b h
  cases a <;> cases b <;> first | rfl | cases h

instance : LinearOrder State := LinearOrder.lift' rank rank_injective

end State

/-- The union of two sets of socket operations. -/
def union (a b : SocketOperation) : SocketOperation := ⟨a.read || b.read, a.write || b.write⟩

/-- `a & ~b`. -/
def minus (a b : SocketOperation) : SocketOperation := ⟨a.read && !b.read, a.write && !b.write⟩

/-- `a & b` is not empty. -/
def meets (a b : SocketOperation) : Bool := a.read && b.read || a.write && b.write

/-- The transport below the connection, a `StreamSocket`: what it answers to `initialize`, the bytes
    that have arrived and are not read, the room for bytes to send, and the failures that it reports
    once the one or the other is used up. `arrived` and `written` are all the bytes that ever came
    and went. -/
structure Transceiver where
  initializeResult : Except LocalException SocketOperation := .ok .none
  incoming : List UInt8 := []
  readFailure : Option LocalException := none
  room : Nat := 0
  writeFailure : Option LocalException := none
  arrived : List UInt8 := []
  written : List UInt8 := []

/-- `ConnectionI::OutgoingMessage`. The stream is the message that it holds; `tag` is a label that
    no function looks at. -/
structure OutgoingMessage (ρ : Type) where
  message : Message
  outAsync : Option ρ := none
  compress : Bool := false
  requestId : Int := 0
  tag : Nat := 0

/-- The upcall that `parseMessage` returns: `requestCount` requests to dispatch, which came in the
    message number `index`, or a response to hand to its invocation. -/
inductive MessageUpcall (ρ : Type) where
  | none
  | dispatch (requestCount : Nat) (requestId : Int) (index : Nat)
  | response (outAsync : ρ)

/-- What `message` leaves to `upcall`. -/
structure Upcall (ρ : Type) where
  connectionStartCompleted : Bool := false
  sentCBs : List ρ := []
  messageUpcall : MessageUpcall ρ := .none

namespace Upcall

variable {ρ : Type}

/-- The requests that are still to be dispatched. -/
def requests (u : Upcall ρ) : Nat :=
  match u.messageUpcall with
  | .dispatch requestCount _ _ => requestCount
  | _ => 0

/-- `completedUpcallCount` at the end of `upcall`. -/
def completed (u : Upcall ρ) : Nat :=
  (if u.connectionStartCompleted then 1 else 0) + (if u.sentCBs.isEmpty then 0 else 1) +
    match u.messageUpcall with
    | .response _ => 1
    | _ => 0

/-- `upcallCount` at the end of `message`. -/
def count (u : Upcall ρ) : Nat := u.completed + u.requests

end Upcall

/-- A call that the connection makes on an outgoing invocation. The ID of the request, 0 if no
    response is expected, is part of the record only. -/
inductive Call (ρ : Type) where
  | sent (outAsync : ρ)
  | response (outAsync : ρ) (requestId : Int) (result : List UInt8)
  | exception (outAsync : ρ) (requestId : Int) (ex : LocalException)
deriving DecidableEq

/-- A request being dispatched: its ID and the number of the message that it came in. -/
structure Dispatch where
  requestId : Int
  index : Nat
deriving DecidableEq, Repr

/-- Where the thread pool is with the connection: not called, about to call `message` for the
    operations the selector has reported, or in `message` behind the write. -/
inductive Phase where
  | idle
  | selected (operation : SocketOperation)
  | reading (operation writeOp : SocketOperation)
deriving DecidableEq, Repr

/-- The data members of `ConnectionI`. The fields from `upcalls` on record what other threads have
    to do or what has happened; the connection itself does not look at them. -/
structure ConnectionI (ρ : Type) where
  /-- `!_connector`: the connection was accepted -/
  incoming : Bool
  messageSizeMax : Nat
  maxDispatches : Int
  /-- `_closeTimeout > 0` -/
  closeTimeout : Bool
  /-- `_inactivityTimerTask != nullptr` -/
  inactivityTimerTask : Bool
  /-- the answer of `Transceiver::closing` -/
  closing : Bool → SocketOperation
  transceiver : Transceiver := {}
  /-- `EventHandler::_registered` -/
  registered : SocketOperation := .none
  phase : Phase := .idle
  state : State := .notInitialized
  exception : Option LocalException := none
  /-- `_connectionStartCompleted` is set -/
  connectionStartCompleted : Bool := false
  nextRequestId : Int := 1
  /-- ordered by request ID -/
  asyncRequests : List (Int × ρ) := []
  /-- the key of the element that the iterator points at; `none` is `end()` -/
  asyncRequestsHint : Option Int := none
  sendStreams : List (OutgoingMessage ρ) := []
  /-- the bytes of the message that is being sent -/
  writeStream : Buffer := {}
  readStream : Buffer := {}
  /-- the size of the buffer of `readStream` -/
  readSize : Nat := 0
  readHeader : Bool := false
  upcallCount : Int := 0
  dispatchCount : Int := 0
  shutdownInitiated : Bool := false
  closeRequested : Bool := false
  inactivityTimerTaskScheduled : Bool := false
  /-- a close timer task was scheduled -/
  closeTimerTaskScheduled : Bool := false
  /-- the upcall that `message` is collecting -/
  upcall : Upcall ρ := {}
  upcalls : List (Upcall ρ) := []
  dispatching : List Dispatch := []
  /-- the twoway requests that were accepted, with the IDs written in their messages -/
  accepted : List (ρ × Int) := []
  calls : List (Call ρ) := []
  /-- the messages whose bytes have all been handed to the transport -/
  handed : List (OutgoingMessage ρ) := []
  /-- the messages that were parsed, each with the state at that time -/
  received : List (State × List UInt8) := []
  /-- the numbers of the messages whose dispatch was started -/
  dispatched : List Nat := []
  requestsReceived : Int := 0
  requestsAnswered : Int := 0

abbrev M (ρ : Type) := EStateM LocalException (ConnectionI ρ)

section Code

variable {ρ : Type}

/-! ## The map of outstanding requests -/

/-- `_asyncRequests.insert(_asyncRequests.end(), ...)`: nothing is changed if there is an element
    with the key. -/
def insertRequest (requestId : Int) (out : ρ) : List (Int × ρ) → List (Int × ρ)
  | [] => [(requestId, out)]
  | e :: es =>
    if requestId < e.1 then (requestId, out) :: e :: es
    else if requestId = e.1 then e :: es
    else e :: insertRequest requestId out es

/-- `_asyncRequests.find(requestId)`. -/
def findRequest (requestId : Int) (requests : List (Int × ρ)) : Option (Int × ρ) :=
  requests.find? fun e => e.1 = requestId

/-- `_asyncRequests.erase(requestId)`. -/
def eraseRequest (requestId : Int) (requests : List (Int × ρ)) : List (Int × ρ) :=
  requests.filter fun e => e.1 ≠ requestId

/-- The key of the element behind the one with the given key. -/
def nextRequest (requestId : Int) (requests : List (Int × ρ)) : Option Int :=
  (requests.find? fun e => requestId < e.1).map (·.1)

namespace ConnectionI

variable (m : OutgoingMessage ρ) (s : ConnectionI ρ)

/-- The element that `_asyncRequestsHint` points at. An iterator whose element was erased must not
    be dereferenced; here it is like `end()`. -/
def hinted : Option (Int × ρ) :=
  s.asyncRequestsHint.bind fun requestId => findRequest requestId s.asyncRequests

/-! ## The thread pool, the timers and the transport -/

/-- `ThreadPool::update`. -/
def update (remove add : SocketOperation) (s : ConnectionI ρ) : ConnectionI ρ :=
  { s with registered := union (minus s.registered (minus remove add)) add }

def cancelInactivityTimerTask : ConnectionI ρ :=
  { s with inactivityTimerTaskScheduled := false }

def scheduleCloseTimerTask : ConnectionI ρ :=
  { s with closeTimerTaskScheduled := s.closeTimerTaskScheduled || s.closeTimeout }

/-- Records a call on an invocation. -/
def call (c : Call ρ) (s : ConnectionI ρ) : ConnectionI ρ := { s with calls := s.calls ++ [c] }

/-- Records that all the bytes of a message have been handed to the transport. -/
def hand : ConnectionI ρ :=
  { s with handed := s.handed ++ [m] }

/-- `_exception = ex`, unless it is set. -/
def except (ex : LocalException) (s : ConnectionI ρ) : ConnectionI ρ :=
  { s with exception := s.exception.or (some ex) }

/-- `_sendStreams.push_back(message)`. -/
def enqueue : ConnectionI ρ :=
  { s with sendStreams := s.sendStreams ++ [m] }

/-- The first `n` of the given bytes are handed to the transport. -/
def transmit (bytes : List UInt8) (n : Nat) (s : ConnectionI ρ) : ConnectionI ρ :=
  { s with transceiver := { s.transceiver with
      room := s.transceiver.room - n
      written := s.transceiver.written ++ bytes.take n } }

/-- The next `n` bytes that have arrived are appended to the read buffer. -/
def take (n : Nat) (s : ConnectionI ρ) : ConnectionI ρ :=
  let b := s.readStream.b ++ s.transceiver.incoming.take n
  { s with
    transceiver := { s.transceiver with incoming := s.transceiver.incoming.drop n }
    readStream := ⟨b, b.length⟩ }

end ConnectionI

/-- `write`: hands bytes to the transport until it has no room left, or until all are written. The
    socket operation that `Transceiver::write` returns is `Write` unless the buffer is at its
    end. -/
def write (buf : Buffer) : M ρ Buffer := do
  let s ← get
  let n := min s.transceiver.room buf.rest.length
  modify (ConnectionI.transmit buf.rest n)
  runIf (n < buf.rest.length) (throwSome s.transceiver.writeFailure)
  return { buf with i := buf.i + n }

/-- `read(_readStream)`: takes the bytes that have arrived until the buffer is full. -/
def read : M ρ Unit := do
  let s ← get
  let n := min s.transceiver.incoming.length (s.readSize - s.readStream.b.length)
  modify (ConnectionI.take n)
  runIf (s.readStream.b.length + n < s.readSize) (throwSome s.transceiver.readFailure)

/-! ## Sending -/

def OutgoingMessage.sent (m : OutgoingMessage ρ) (s : ConnectionI ρ) : ConnectionI ρ :=
  { s with calls := s.calls ++ (m.outAsync.map Call.sent).toList }

/-- `AsyncStatus`, without the flag for the sent callback. -/
inductive AsyncStatus where
  | queued
  | sent
deriving DecidableEq, Repr

variable [Bzip2]

/-- `sendMessage` (`2819-2929`). -/
def sendMessage (m : OutgoingMessage ρ) : M ρ AsyncStatus := do
  let s ← get
  if s.sendStreams ≠ [] then
    modify (ConnectionI.enqueue m)
    return .queued
  else
    let wire ← ofExcept (m.message.wire m.compress)
    let buf ← write ⟨wire, 0⟩
    if buf.atEnd then
      modify fun s => m.sent (s.hand m)
      return .sent
    else
      modify fun s => { s with sendStreams := [m], writeStream := buf }
      modify (ConnectionI.update .none .writeOp)
      return .queued

/-! ## Changing the state -/

/-- The state that `setState` switches to (`2083-2093`): a connection that is not validated is not
    shut down gracefully. -/
def State.target (current state : State) : State :=
  if current ≤ .notValidated ∧ state = .closing then .closed else state

/-- Whether `setState` switches to the target state (`2095-2185`). -/
def State.canSwitch (current target : State) : Bool :=
  if current = target then false
  else match target with
    | .notInitialized => false
    | .notValidated => current = .notInitialized
    | .active => current = .holding ∨ current = .notValidated
    | .holding => current = .active ∨ current = .notValidated
    | .closing | .closingPending => current < .closingPending
    | .closed => current ≠ .finished
    | .finished => current = .closed

/-- Whether reads are not suspended by the limit on concurrent dispatches. -/
def ConnectionI.canDispatch (s : ConnectionI ρ) : Prop :=
  s.maxDispatches ≤ 0 ∨ s.dispatchCount < s.maxDispatches

instance (s : ConnectionI ρ) : Decidable s.canDispatch :=
  inferInstanceAs (Decidable (_ ∨ _))

/-- The operations that stay registered when `setState` switches the state (`2127-2178`). -/
def switchedOps (state : State) (s : ConnectionI ρ) : SocketOperation :=
  match state with
  | .active => if s.canDispatch then union s.registered .readOp else s.registered
  | .holding =>
    if s.state = .active ∧ s.canDispatch then minus s.registered .readOp else s.registered
  | .closed => .none
  | _ => s.registered

/-- The changes that `setState` makes when it switches the state (`2105-2250`). -/
def switchState (state : State) (s : ConnectionI ρ) : ConnectionI ρ :=
  { s with
    inactivityTimerTaskScheduled := s.inactivityTimerTaskScheduled && !decide (.active < state)
    registered := switchedOps state s
    state := state }

/-- `_shutdownInitiated = true`. -/
def ConnectionI.markShutdown (s : ConnectionI ρ) : ConnectionI ρ :=
  { s with shutdownInitiated := true }

/-- `initiateShutdown` (`2268-2309`). -/
def initiateShutdown : M ρ Unit := do
  let s ← get
  if s.shutdownInitiated then pure ()
  else
    modify ConnectionI.markShutdown
    modify ConnectionI.scheduleCloseTimerTask
    let status ← sendMessage { message := .closeConnection }
    if status = .sent then
      modify (switchState .closingPending)
      modify fun s => s.update .none (s.closing true)
    else pure ()

/-- `setState(StateClosed, ex)`. -/
def closeWith (ex : LocalException) (s : ConnectionI ρ) : ConnectionI ρ :=
  if s.state = .closed then s
  else if s.state.canSwitch .closed then switchState .closed (s.except ex)
  else s.except ex

/-- `setState(state)` (`2077-2265`). The call of `initiateShutdown` at its end can only switch to
    `StateClosingPending` or `StateClosed`. -/
def setState (state : State) : M ρ Unit := do
  let s ← get
  let target := s.state.target state
  if s.state.canSwitch target then
    modify (switchState target)
    let s ← get
    if s.state = .closing ∧ s.upcallCount = 0 then
      handle initiateShutdown fun ex => modify (closeWith ex)
    else pure ()
  else pure ()

/-- `setState(state, ex)` (`2019-2074`). -/
def setStateWith (state : State) (ex : LocalException) : M ρ Unit := do
  let s ← get
  if s.state = state then pure ()
  else
    modify (ConnectionI.except ex)
    setState state

/-- `doApplicationClose` (`3564-3574`). -/
def doApplicationClose : M ρ Unit := setStateWith .closing (.connectionClosed true)

/-! ## The functions that the application and the runtime call -/

/-- The start of the close that was requested, if no request is outstanding any more. -/
def closeIfRequested : M ρ Unit := do
  let s ← get
  if s.closeRequested ∧ s.state < .closing ∧ s.asyncRequests = [] then doApplicationClose
  else pure ()

/-- `activate` and `hold` (`419-441`). -/
def activate : M ρ Unit := do
  let s ← get
  if s.state ≤ .notValidated then pure () else setState .active

@[inherit_doc activate]
def hold : M ρ Unit := do
  let s ← get
  if s.state ≤ .notValidated then pure () else setState .holding

inductive DestructionReason where
  | objectAdapterDeactivated
  | communicatorDestroyed
deriving DecidableEq, Repr

/-- `destroy` (`444-466`). -/
def destroy : DestructionReason → M ρ Unit
  | .objectAdapterDeactivated => setStateWith .closing .objectAdapterDeactivated
  | .communicatorDestroyed => setStateWith .closing .communicatorDestroyed

/-- `abort` (`469-476`). -/
def abort : M ρ Unit := setStateWith .closed (.connectionAborted true)

/-- `close` (`479-511`). -/
def close : M ρ Unit := do
  let s ← get
  if .closing ≤ s.state then pure ()
  else if s.asyncRequests = [] then doApplicationClose
  else
    modify fun s => { s with closeRequested := true }
    modify ConnectionI.scheduleCloseTimerTask

/-- The 32-bit counter `_nextRequestId++`. -/
def increment (n : Int) : Int := if n = 2 ^ 31 - 1 then -2 ^ 31 else n + 1

/-- A new request ID and the next value of the counter (`671-680`). -/
def allocateId (nextRequestId : Int) : Int × Int :=
  if nextRequestId ≤ 0 then (1, 2) else (nextRequestId, increment nextRequestId)

/-- What `sendAsyncRequest` returns, or throws: a `RetryException` or another exception. -/
inductive SendResult where
  | accepted (status : AsyncStatus)
  | retry (ex : LocalException)
  | failed (ex : LocalException)
deriving DecidableEq, Repr

/-- The request that an invocation gives to `sendAsyncRequest`. `canceled` is the exception that
    `cancelable` throws if the invocation was canceled before. -/
structure OutgoingRequest (ρ : Type) where
  out : ρ
  params : Payload := .empty
  compress : Bool := false
  response : Bool := true
  batchRequestCount : Int := 0
  canceled : Option LocalException := none
  tag : Nat := 0

/-- The message of a request. -/
def OutgoingRequest.outgoing (r : OutgoingRequest ρ) (requestId : Int) : OutgoingMessage ρ where
  message :=
    if r.response then .request requestId r.params
    else if 0 < r.batchRequestCount then .requestBatch r.batchRequestCount r.params
    else .request 0 r.params
  outAsync := some r.out
  compress := r.compress
  requestId := requestId
  tag := r.tag

/-- The ID that stands in a request message. -/
def Message.requestId : Message → Int
  | .request requestId _ => requestId
  | .reply requestId _ => requestId
  | _ => 0

/-- The registration of a twoway request (`726-730`). -/
def register (m : OutgoingMessage ρ) (out : ρ) (s : ConnectionI ρ) : ConnectionI ρ :=
  { s with
    asyncRequests := insertRequest m.requestId out s.asyncRequests
    asyncRequestsHint := some m.requestId
    accepted := s.accepted ++ [(out, m.message.requestId)] }

/-- The ID of a request, 0 if no response is expected, and the next value of the counter. -/
def OutgoingRequest.ids (r : OutgoingRequest ρ) (s : ConnectionI ρ) : Int × Int :=
  if r.response then allocateId s.nextRequestId else (0, s.nextRequestId)

/-- `sendAsyncRequest` (`639-731`). -/
def sendAsyncRequest (r : OutgoingRequest ρ) : M ρ SendResult := do
  let s ← get
  match s.exception, r.canceled with
  | some ex, _ => return .retry ex
  | none, some ex => return .failed ex
  | none, none =>
    let (requestId, nextRequestId) := r.ids s
    modify fun s => { s with nextRequestId := nextRequestId }
    modify ConnectionI.cancelInactivityTimerTask
    let m := r.outgoing requestId
    let result ← handle (SendResult.accepted <$> sendMessage m) fun ex => do
      setStateWith .closed ex
      return .failed ((← get).exception.getD ex)
    match result with
    | .accepted status =>
      runIf r.response (modify (register m r.out))
      return .accepted status
    | _ => return result

/-! ## Cancellation -/

def LocalException.isConnectionAborted : LocalException → Bool
  | .connectionAborted _ => true
  | _ => false

/-- A canceled message is not sent, unless it is already being sent. -/
def unqueue (i : Nat) (s : ConnectionI ρ) : ConnectionI ρ :=
  { s with
    sendStreams :=
      if i = 0 then s.sendStreams.modify 0 fun m => { m with outAsync := none }
      else s.sendStreams.eraseIdx i }

/-- The removal of the element that the hint points at (`907-908`). -/
def forgetHinted (requestId : Int) (s : ConnectionI ρ) : ConnectionI ρ :=
  { s with asyncRequests := eraseRequest requestId s.asyncRequests, asyncRequestsHint := none }

/-- The removal of an element that the search has found (`939`). -/
def forgetFound (requestId : Int) (s : ConnectionI ρ) : ConnectionI ρ :=
  { s with asyncRequests := eraseRequest requestId s.asyncRequests }

/-- A cancellation with a `ConnectionAbortedException` closes the connection. -/
def abortOr (ex : LocalException) (x : M ρ Unit) : M ρ Unit :=
  if ex.isConnectionAborted then setStateWith .closed ex else x

variable [DecidableEq ρ]

/-- The key of the element that the hint points at, if it is the given invocation. -/
def ConnectionI.hintFor (out : ρ) (s : ConnectionI ρ) : Option Int :=
  (s.hinted.filter fun e => e.2 = out).map (·.1)

/-- The removal of a queued request from the map (`841-852`). -/
def forgetQueued (out : ρ) (requestId : Int) (s : ConnectionI ρ) : ConnectionI ρ :=
  if requestId = 0 then s
  else
    { s with
      asyncRequests := eraseRequest ((s.hintFor out).getD requestId) s.asyncRequests
      asyncRequestsHint := if (s.hintFor out).isSome then none else s.asyncRequestsHint }

/-- The cancellation of the request at position `i` of the send queue (`837-889`). -/
def cancelQueued (i : Nat) (requestId : Int) (out : ρ) (ex : LocalException) : M ρ Unit := do
  modify (forgetQueued out requestId)
  abortOr ex (modify fun s => (unqueue i s).call (.exception out requestId ex))
  closeIfRequested

/-- The cancellation of the request that the hint points at (`893-922`). -/
def cancelHinted (requestId : Int) (out : ρ) (ex : LocalException) : M ρ Unit := do
  abortOr ex (modify fun s => forgetHinted requestId (s.call (.exception out requestId ex)))
  closeIfRequested

/-- The cancellation of a request found by a search through the map (`924-948`). -/
def cancelFound (requestId : Int) (out : ρ) (ex : LocalException) : M ρ Unit :=
  abortOr ex (modify fun s => forgetFound requestId (s.call (.exception out requestId ex)))

/-- How `asyncRequestCanceled` finds the request. -/
inductive Located where
  | queued (i : Nat) (requestId : Int)
  | hinted (requestId : Int)
  | found (requestId : Int)
  | absent
deriving DecidableEq, Repr

/-- The three searches of `asyncRequestCanceled`: the send queue, the hint, the map. -/
def locate (out : ρ) (s : ConnectionI ρ) : Located :=
  match s.sendStreams.findIdx? fun m => m.outAsync = some out with
  | some i => .queued i ((s.sendStreams[i]?.map (·.requestId)).getD 0)
  | none =>
    match s.hintFor out with
    | some requestId => .hinted requestId
    | none =>
      match s.asyncRequests.find? fun e => e.2 = out with
      | some e => .found e.1
      | none => .absent

/-- `asyncRequestCanceled` (`824-951`). -/
def asyncRequestCanceled (out : ρ) (ex : LocalException) : M ρ Unit := do
  let s ← get
  if .closed ≤ s.state then pure ()
  else match locate out s with
    | .queued i requestId => cancelQueued i requestId out ex
    | .hinted requestId => cancelHinted requestId out ex
    | .found requestId => cancelFound requestId out ex
    | .absent => pure ()

end Code

end Ice.Connection
