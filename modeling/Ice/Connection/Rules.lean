import Ice.Connection.Run

/-!
# Rules for the programs of a connection

How the programs that every other program of `ConnectionI` uses can end: `write`, `sendMessage`,
`setState`, `initiateShutdown` and the handlers that close the connection; and what has to hold for
the longer programs `sendAsyncRequest`, `parseBody` and `endMessage`. The rules execute a program
once and for all, so that the proofs about a property only look at the resulting states.
-/

namespace Ice.Connection

open Ice.WebSocket (Buffer SocketOperation)

variable {ρ : Type}

section Transport

variable {buf : Buffer} {s : ConnectionI ρ} {E : LocalException → ConnectionI ρ → Prop}

/-- A write hands over all the bytes, or it uses up the room and then blocks or fails. -/
theorem wp_write {Q : Buffer → ConnectionI ρ → Prop} (hbuf : buf.i ≤ buf.b.length)
    (all : buf.rest.length ≤ s.transceiver.room →
      Q ⟨buf.b, buf.b.length⟩ (s.transmit buf.rest buf.rest.length))
    (blocked : s.transceiver.room < buf.rest.length → s.transceiver.writeFailure = none →
      Q ⟨buf.b, buf.i + s.transceiver.room⟩ (s.transmit buf.rest s.transceiver.room))
    (failed : ∀ ex, s.transceiver.room < buf.rest.length → s.transceiver.writeFailure = some ex →
      E ex (s.transmit buf.rest s.transceiver.room)) : wp (write buf) Q E s := by
  have hlen : buf.rest.length = buf.b.length - buf.i := by simp [Buffer.rest]
  simp only [write, wp_bind, wp_get, wp_modify, wp_pure, wp_runIf, wp_throwSome]
  by_cases hroom : buf.rest.length ≤ s.transceiver.room
  · rw [Nat.min_eq_right hroom, show buf.i + buf.rest.length = buf.b.length by omega]
    exact ⟨fun h => absurd h (Nat.lt_irrefl _), fun _ => all hroom⟩
  · have hroom' : s.transceiver.room < buf.rest.length := Nat.lt_of_not_le hroom
    rw [Nat.min_eq_left (Nat.le_of_lt hroom')]
    exact ⟨fun _ => ⟨blocked hroom', fun ex => failed ex hroom'⟩, fun h => absurd hroom' h⟩

end Transport

section Sending

variable [Bzip2] {m : OutgoingMessage ρ} {s : ConnectionI ρ}

/-- A message that could not be sent at once becomes the one that is being sent. -/
def startSending (m : OutgoingMessage ρ) (wire : List UInt8) (s : ConnectionI ρ) :
    ConnectionI ρ :=
  let n := s.transceiver.room
  { s.transmit wire n with
    sendStreams := [m]
    writeStream := ⟨wire, n⟩
    registered := union (minus s.registered (minus .none .writeOp)) .writeOp }

/-- `sendMessage` queues the message behind others; or it sends it at once, starts to send it, or
    fails. -/
theorem wp_sendMessage {Q : AsyncStatus → ConnectionI ρ → Prop}
    (queued : s.sendStreams ≠ [] → Q .queued (s.enqueue m))
    (uncompressible : ∀ ex, s.sendStreams = [] → m.message.wire m.compress = .error ex → E ex s)
    (sent : ∀ wire, s.sendStreams = [] → m.message.wire m.compress = .ok wire →
      wire.length ≤ s.transceiver.room →
      Q .sent (m.sent ((s.transmit wire wire.length).hand m)))
    (started : ∀ wire, s.sendStreams = [] → m.message.wire m.compress = .ok wire →
      s.transceiver.room < wire.length → s.transceiver.writeFailure = none →
      Q .queued (startSending m wire s))
    (failed : ∀ wire ex, s.sendStreams = [] → m.message.wire m.compress = .ok wire →
      s.transceiver.room < wire.length → s.transceiver.writeFailure = some ex →
      E ex (s.transmit wire s.transceiver.room)) : wp (sendMessage m) Q E s := by
  simp only [sendMessage, wp_bind, wp_get]
  by_cases hempty : s.sendStreams = []
  · rw [if_neg (not_not.mpr hempty), wp_bind]
    refine wp_ofExcept.mpr ⟨fun wire hwire => ?_, fun ex hex => uncompressible ex hempty hex⟩
    rw [wp_bind]
    refine wp_write (Nat.zero_le _) (fun hroom => ?_) (fun hroom hf => ?_) fun ex hroom hf => ?_
    · simp only [Buffer.atEnd, beq_self_eq_true, if_true]
      exact sent wire hempty hwire hroom
    · have hne : (0 + s.transceiver.room == wire.length) = false := by
        have hroom' : s.transceiver.room < wire.length := hroom
        rw [beq_eq_false_iff_ne]
        omega
      simp only [Buffer.atEnd, hne]
      rw [Nat.zero_add]
      exact started wire hempty hwire hroom hf
    · exact failed wire ex hempty hwire hroom hf
  · rw [if_pos hempty]
    exact queued hempty

end Sending

section Closing

variable [Bzip2] {s : ConnectionI ρ}

/-- `setState(StateClosed)`. -/
def closeNow (s : ConnectionI ρ) : ConnectionI ρ :=
  if s.state.canSwitch .closed then switchState .closed s else s

theorem setState_closed : (setState .closed : M ρ Unit) = modify closeNow := by
  funext s
  simp only [setState, bind, EStateM.bind, get, getThe, MonadStateOf.get, EStateM.get, modify,
    modifyGet, MonadStateOf.modifyGet, EStateM.modifyGet, State.target, closeNow]
  by_cases h : s.state.canSwitch .closed
  · simp [h, switchState]
    rfl
  · simp [h]
    rfl

theorem setStateWith_closed (ex : LocalException) :
    (setStateWith .closed ex : M ρ Unit) = modify (closeWith ex) := by
  funext s
  simp only [setStateWith, setState_closed, bind, EStateM.bind, get, getThe, MonadStateOf.get,
    EStateM.get, modify, modifyGet, MonadStateOf.modifyGet, EStateM.modifyGet, closeWith, closeNow]
  by_cases h : s.state = .closed
  · simp [h]
    rfl
  · simp only [if_neg h]
    rfl

end Closing

/-! ## The longer programs -/

section Programs

variable [Bzip2] {s : ConnectionI ρ} {E : LocalException → ConnectionI ρ → Prop}

/-- `sendAsyncRequest` gives the message to `sendMessage`, or fails before. A request that expects a
    response is registered once that has succeeded. -/
theorem wp_sendAsyncRequest {r : OutgoingRequest ρ} {Q : SendResult → ConnectionI ρ → Prop}
    (hsame : ∀ result, Q result s)
    (hsend : s.exception = none → wp (sendMessage (r.outgoing (r.ids s).1))
      (fun status s' => Q (.accepted status)
        (if r.response then register (r.outgoing (r.ids s).1) r.out s' else s'))
      (fun ex s' => ∀ result, Q result (closeWith ex s'))
      (ConnectionI.cancelInactivityTimerTask { s with nextRequestId := (r.ids s).2 })) :
    wp (sendAsyncRequest r) Q E s := by
  rw [sendAsyncRequest, wp_bind, wp_get]
  cases hexception : s.exception with
  | some ex => exact hsame _
  | none =>
    cases r.canceled with
    | some ex => exact hsame _
    | none =>
      simp only [wp_bind, wp_modify, wp_handle, wp_map, setStateWith_closed]
      refine wp_mono (hsend hexception) (fun status s' h => ?_) fun ex s' h => h _
      rw [wp_runIf]
      refine ⟨fun hresponse => ?_, fun hresponse => ?_⟩
      · rwa [if_pos hresponse] at h
      · rwa [if_neg hresponse] at h

/-- The request ID of the reply in a stream, if there is a reply that can be read. -/
def replyId (messageSizeMax : Nat) (stream : List UInt8) : Option Int :=
  if MessageType.ofCode (stream.getD 8 0) = some .reply then
    match readBody messageSizeMax (stream.getD 9 0) (stream.drop headerSize) with
    | .ok body =>
      match readNumber body with
      | .ok (requestId, _) => some requestId
      | .error _ => none
    | .error _ => none
  else none

/-- A message is ignored, closes the connection, gives requests to the upcall or is a reply; or it
    cannot be read. -/
theorem wp_parseBody {answers : Answers ρ} {index : Nat} {stream : List UInt8}
    {Q : Option SocketOperation → ConnectionI ρ → Prop} (hthrow : ∀ ex, E ex s) (hsame : Q none s)
    (hclose : wp receiveCloseConnection Q E s)
    (hreceive : ∀ requestCount requestId, s.state < .closing →
      Q none (receiveRequests requestCount requestId index s))
    (hreply : ∀ requestId result, replyId s.messageSizeMax stream = some requestId →
      wp (receiveReply answers requestId result) (fun _ => Q none) E s) :
    wp (parseBody answers index stream) Q E s := by
  simp only [parseBody, wp_bind, wp_get]
  refine wp_ofExcept.mpr ⟨fun body hbody => ?_, fun ex _ => hthrow ex⟩
  split
  · exact hclose
  · split
    · exact hsame
    · next hstate =>
      rw [wp_bind]
      exact wp_ofExcept.mpr ⟨fun _ _ => hreceive _ _ (lt_of_not_ge hstate), fun ex _ => hthrow ex⟩
  · split
    · exact hsame
    · next hstate =>
      rw [wp_bind]
      refine wp_ofExcept.mpr ⟨fun _ _ => ?_, fun ex _ => hthrow ex⟩
      rw [wp_bind]
      exact wp_ofExcept.mpr ⟨fun _ _ => hreceive _ _ (lt_of_not_ge hstate), fun ex _ => hthrow ex⟩
  · next htype =>
    rw [wp_bind]
    refine wp_ofExcept.mpr ⟨fun ⟨requestId, result⟩ hnumber => ?_, fun ex _ => hthrow ex⟩
    rw [wp_bind]
    refine hreply requestId result ?_
    simp only [replyId, htype, hbody, hnumber, if_true]
  · exact hsame
  · exact hthrow _

/-- `message` reads, opens the connection or processes what it has read, and starts the upcall. -/
theorem wp_endMessage {answers : Answers ρ} {operation writeOp : SocketOperation}
    {Q : ConnectionI ρ → Prop} (h : wp (ifReady operation.read messageRead) (fun readOp =>
        wp (establishOrProcess answers operation (union readOp writeOp))
          (fun _ s' => Q { startUpcall s' with phase := .idle })
          (fun ex s' => Q { closeWith ex s' with phase := .idle }))
      (fun ex s' => Q { closeWith ex s' with phase := .idle }) s) :
    wp (endMessage answers operation writeOp) (fun _ => Q) E s := by
  simp only [endMessage, wp_bind, wp_handle, setStateWith_closed, wp_modify]
  exact h

end Programs

/-! ## Relations that programs keep -/

section Keeps

variable {α β : Type} {R : ConnectionI ρ → ConnectionI ρ → Prop}

/-- `x` leads from `s` to states that `R` relates to `s`. If it throws, that is so once the
    connection is closed with the exception, which is what every handler does. -/
def Keeps (R : ConnectionI ρ → ConnectionI ρ → Prop) (x : M ρ α) (s : ConnectionI ρ) : Prop :=
  wp x (fun _ s' => R s s') (fun ex s' => R s (closeWith ex s')) s

/-- The message of one of the connection's own: no request, sent while the connection is open, and
    `CloseConnection` only when the connection shuts down. -/
structure Own (s : ConnectionI ρ) (m : OutgoingMessage ρ) : Prop where
  outAsync : m.outAsync = none
  requestId : m.requestId = 0
  validated : .notValidated < s.state
  notClosed : s.state < .closed
  shutdown : m.message = .closeConnection →
    s.state = .closing ∧ s.upcallCount = 0 ∧ s.shutdownInitiated = true

/-- The data members that requests, dispatches and messages are about. -/
structure Essence (ρ : Type) where
  asyncRequests : List (Int × ρ)
  asyncRequestsHint : Option Int
  nextRequestId : Int
  accepted : List (ρ × Int)
  closeRequested : Bool
  state : State
  exception : Option LocalException
  calls : List (Call ρ)
  sendStreams : List (OutgoingMessage ρ)
  writeStream : Buffer
  written : List UInt8
  handed : List (OutgoingMessage ρ)
  upcallCount : Int
  shutdownInitiated : Bool
  upcalls : List (Upcall ρ)
  dispatching : List Dispatch
  dispatched : List Nat

def ConnectionI.essence (s : ConnectionI ρ) : Essence ρ where
  asyncRequests := s.asyncRequests
  asyncRequestsHint := s.asyncRequestsHint
  nextRequestId := s.nextRequestId
  accepted := s.accepted
  closeRequested := s.closeRequested
  state := s.state
  exception := s.exception
  calls := s.calls
  sendStreams := s.sendStreams
  writeStream := s.writeStream
  written := s.transceiver.written
  handed := s.handed
  upcallCount := s.upcallCount
  shutdownInitiated := s.shutdownInitiated
  upcalls := s.upcalls
  dispatching := s.dispatching
  dispatched := s.dispatched

/-- The data members that only `message`, the changes of the state and the responses are about. -/
structure Flow (ρ : Type) where
  incoming : Bool
  maxDispatches : Int
  registered : SocketOperation
  phase : Phase
  initializeResult : Except LocalException SocketOperation
  arrived : List UInt8
  unread : List UInt8
  readStream : Buffer
  readSize : Nat
  readHeader : Bool
  upcall : Upcall ρ
  received : List (State × List UInt8)
  dispatchCount : Int
  requestsReceived : Int
  requestsAnswered : Int

def ConnectionI.flow (s : ConnectionI ρ) : Flow ρ where
  incoming := s.incoming
  maxDispatches := s.maxDispatches
  registered := s.registered
  phase := s.phase
  initializeResult := s.transceiver.initializeResult
  arrived := s.transceiver.arrived
  unread := s.transceiver.incoming
  readStream := s.readStream
  readSize := s.readSize
  readHeader := s.readHeader
  upcall := s.upcall
  received := s.received
  dispatchCount := s.dispatchCount
  requestsReceived := s.requestsReceived
  requestsAnswered := s.requestsAnswered

/-- A relation that what a connection does of itself keeps: closing, shutting down, and sending its
    own messages. -/
class Frame [Bzip2] (R : ConnectionI ρ → ConnectionI ρ → Prop) : Prop where
  quiet : ∀ {s s'}, s'.essence = s.essence → s'.flow = s.flow → R s s'
  trans : ∀ {s s' s''}, R s s' → R s' s'' → R s s''
  except : ∀ s ex, R s (s.except ex)
  /-- `closeTimedOut` replaces the exception -/
  replace : ∀ {s}, s.state < .closed → R s { s with exception := some .closeTimeout }
  close : ∀ {s state}, s.state.canSwitch state → .closing ≤ state ∧ state ≠ .finished →
    s.exception.isSome ∨ .closing ≤ s.state → R s (switchState state s)
  shutdown : ∀ {s}, s.state = .closing → s.upcallCount = 0 → R s s.markShutdown
  waits : ∀ {s op}, s.state = .closingPending → R s (s.update .none op)
  queued : ∀ {s m}, Own s m → s.sendStreams ≠ [] → R s (s.enqueue m)
  sent : ∀ {s m wire}, Own s m → s.sendStreams = [] → m.message.wire m.compress = .ok wire →
    wire.length ≤ s.transceiver.room → R s (m.sent ((s.transmit wire wire.length).hand m))
  started : ∀ {s m wire}, Own s m → s.sendStreams = [] → m.message.wire m.compress = .ok wire →
    s.transceiver.room < wire.length → R s (startSending m wire s)
  failed : ∀ {s m wire} ex, Own s m → s.sendStreams = [] → m.message.wire m.compress = .ok wire →
    s.transceiver.room < wire.length → R s (closeWith ex (s.transmit wire s.transceiver.room))

/-- A frame that does not depend on the data members of `Flow`: it is also kept by what opens the
    connection and reads from the transport. -/
class CoarseFrame [Bzip2] (R : ConnectionI ρ → ConnectionI ρ → Prop) : Prop extends Frame R where
  coarse : ∀ {s s'}, s'.essence = s.essence → R s s'
  opens : ∀ {s state}, s.state.canSwitch state → state < .closing → R s (switchState state s)

variable {s : ConnectionI ρ}

theorem Keeps.get_bind {f : ConnectionI ρ → M ρ α} (hf : Keeps R (f s) s) :
    Keeps R (get >>= f) s := hf

theorem Keeps.modify {f : ConnectionI ρ → ConnectionI ρ} (h : R s (f s)) :
    Keeps R (modify f : M ρ Unit) s := h

theorem Keeps.ite {c : Prop} [Decidable c] {x y : M ρ α} (hx : c → Keeps R x s)
    (hy : ¬ c → Keeps R y s) : Keeps R (if c then x else y) s := by
  by_cases h : c
  · rw [if_pos h]
    exact hx h
  · rw [if_neg h]
    exact hy h

theorem Keeps.map {x : M ρ β} {f : β → α} (hx : Keeps R x s) : Keeps R (f <$> x) s := by
  rw [Keeps, wp_map]
  exact hx

/-- A handler that only closes the connection. -/
theorem Keeps.orCloses [Bzip2] {x : M ρ Unit} (hx : Keeps R x s) :
    Keeps R (handle x fun ex => setStateWith .closed ex) s := by
  rw [Keeps, wp_handle]
  refine wp_mono hx (fun _ _ h => h) fun ex s' h => ?_
  rw [setStateWith_closed]
  exact h

variable [Bzip2] [Frame R]

namespace Frame

theorem refl (s : ConnectionI ρ) : R s s := quiet rfl rfl

theorem closeWith (ex : LocalException) (s : ConnectionI ρ) : R s (closeWith ex s) := by
  unfold Connection.closeWith
  split
  · exact refl s
  · split
    · next hcan =>
      refine trans (except s ex) (close hcan (by decide) (.inl ?_))
      cases hex : s.exception <;> simp [ConnectionI.except, hex]
    · exact except s ex

end Frame

namespace Keeps

theorem pure (a : α) : Keeps R (pure a : M ρ α) s := Frame.refl s

theorem ofExcept (x : Except LocalException α) : Keeps R (ofExcept x : M ρ α) s :=
  wp_ofExcept.mpr ⟨fun _ _ => Frame.refl s, fun ex _ => Frame.closeWith ex s⟩

theorem throwSome (x : Option LocalException) : Keeps R (throwSome x : M ρ Unit) s :=
  wp_throwSome.mpr ⟨fun _ => Frame.refl s, fun ex _ => Frame.closeWith ex s⟩

/-- From a later state on, what holds there holds from the first state on. -/
theorem after {s' : ConnectionI ρ} {x : M ρ α} (h : R s s') (hx : Keeps R x s') :
    wp x (fun _ s'' => R s s'') (fun ex s'' => R s (closeWith ex s'')) s' :=
  wp_mono hx (fun _ _ h' => Frame.trans h h') fun _ _ h' => Frame.trans h h'

theorem bind {x : M ρ β} {f : β → M ρ α} (hx : Keeps R x s) (hf : ∀ b s', Keeps R (f b) s') :
    Keeps R (x >>= f) s := by
  rw [Keeps, wp_bind]
  exact wp_post hx fun b s' h => after h (hf b s')

theorem runIf {c : Prop} [Decidable c] {x : M ρ Unit} (hx : c → Keeps R x s) :
    Keeps R (runIf c x) s := ite hx fun _ => pure ()

/-- A handler that closes the connection and goes on. -/
theorem orClose {x after : M ρ α} (hx : Keeps R x s) (hafter : ∀ s', Keeps R after s') :
    Keeps R (handle x fun ex => do setStateWith .closed ex; after) s := by
  rw [Keeps, wp_handle]
  refine wp_mono hx (fun _ _ h => h) fun ex s' h => ?_
  rw [wp_bind, setStateWith_closed, wp_modify]
  exact Keeps.after h (hafter _)

end Keeps

end Keeps

end Ice.Connection
