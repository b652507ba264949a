import Ice.Connection.Message

/-!
# Runs of a connection

The events that a connection is exposed to, in any order that its mutex and its callers allow, and
the states that are reached. A run can be restricted to the events that a predicate allows.
-/

namespace Ice.Connection

open Ice.WebSocket (SocketOperation)

variable {ρ : Type}

/-- The configuration with which `ConnectionI::create` makes a connection. -/
structure Options where
  incoming : Bool := false
  messageSizeMax : Nat := 1048576
  maxDispatches : Int := 100
  closeTimeout : Bool := true
  inactivityTimerTask : Bool := true
  /-- `TcpTransceiver::closing`, unless another transceiver is used -/
  closing : Bool → SocketOperation := fun initiator => if initiator then .readOp else .none

def ConnectionI.create (o : Options) : ConnectionI ρ where
  incoming := o.incoming
  messageSizeMax := o.messageSizeMax
  maxDispatches := o.maxDispatches
  closeTimeout := o.closeTimeout
  inactivityTimerTask := o.inactivityTimerTask
  closing := o.closing

/-- An event of a connection. -/
inductive Event (ρ : Type) where
  /-- bytes arrive, and the transport gets new answers for `initialize`, `read` and `write` -/
  | network (bytes : List UInt8) (room : Nat) (readFailure writeFailure : Option LocalException)
      (initializeResult : Except LocalException SocketOperation)
  | startAsync (callbacks : Bool)
  | activate
  | hold
  | destroy (reason : DestructionReason)
  | abort
  | close
  | sendAsyncRequest (request : OutgoingRequest ρ)
  | asyncRequestCanceled (out : ρ) (ex : LocalException)
  /-- the selector reports operations as ready -/
  | select (operation : SocketOperation)
  | beginMessage
  | endMessage (answers : Answers ρ)
  | dispatch (i : Nat)
  | dispatchException (i : Nat) (ex : LocalException)
  | upcallCompleted (i : Nat)
  | sendResponse (j : Nat) (result : Payload) (compress : Bool)
  | finish
  | idleCheck
  | inactivityCheck
  | connectTimedOut
  | closeTimedOut
  | sendHeartbeat

/-- What the selector reports for a handler (`Selector.cpp:497-502`): operations that it is
    registered for, or both in case of an error. -/
def Selectable (registered operation : SocketOperation) : Prop :=
  meets registered operation = true ∧
    (minus operation registered = .none ∨ operation = union .readOp .writeOp)

instance (registered operation : SocketOperation) : Decidable (Selectable registered operation) :=
  inferInstanceAs (Decidable (_ ∧ _))

/-- The new state of the transport. -/
def arrive (bytes : List UInt8) (room : Nat) (readFailure writeFailure : Option LocalException)
    (initializeResult : Except LocalException SocketOperation) (s : ConnectionI ρ) :
    ConnectionI ρ :=
  { s with transceiver := { s.transceiver with
      incoming := s.transceiver.incoming ++ bytes
      arrived := s.transceiver.arrived ++ bytes
      room := room
      readFailure := readFailure
      writeFailure := writeFailure
      initializeResult := initializeResult } }

/-- `message` holds the connection's mutex. -/
def ConnectionI.isReading (s : ConnectionI ρ) : Bool :=
  match s.phase with
  | .reading _ _ => true
  | _ => false

/-- Whether the operations have been selected for `message`. -/
def ConnectionI.isSelected (s : ConnectionI ρ) : Bool :=
  match s.phase with
  | .selected _ => true
  | _ => false

/-- The requests that the upcall at position `i` has still to dispatch. -/
def ConnectionI.requestsOf (s : ConnectionI ρ) (i : Nat) : Nat :=
  (s.upcalls[i]?.map Upcall.requests).getD 0

/-- `Transceiver::initialize` waits for one operation, if for any. -/
def SingleOperation : Except LocalException SocketOperation → Prop
  | .ok op => (op.read && op.write) = false
  | .error _ => True

instance (result : Except LocalException SocketOperation) : Decidable (SingleOperation result) :=
  match result with
  | .ok _ => inferInstanceAs (Decidable (_ = _))
  | .error _ => .isTrue trivial

/-- The events that can happen in a state. The dispatch of a request and the network do not need
    the mutex. -/
def Enabled (s : ConnectionI ρ) : Event ρ → Prop
  | .network _ _ _ _ initializeResult => SingleOperation initializeResult
  | .dispatch i => 0 < s.requestsOf i
  | .endMessage _ => s.isReading = true
  | .startAsync _ =>
    s.isReading = false ∧ s.state = .notInitialized ∧ s.registered = .none
  | .sendAsyncRequest _ => s.isReading = false ∧ .notValidated < s.state
  | .select operation => s.phase = .idle ∧ Selectable s.registered operation
  | .beginMessage => s.isSelected = true
  | .dispatchException i _ => s.isReading = false ∧ 0 < s.requestsOf i
  | .upcallCompleted i => s.isReading = false ∧ i < s.upcalls.length ∧ s.requestsOf i = 0
  | .sendResponse j _ _ => s.isReading = false ∧ j < s.dispatching.length
  | .finish => s.isReading = false ∧ s.state = .closed
  | .inactivityCheck => s.isReading = false ∧ s.inactivityTimerTaskScheduled = true
  | .closeTimedOut => s.isReading = false ∧ s.closeTimerTaskScheduled = true
  | _ => s.isReading = false

instance (s : ConnectionI ρ) (e : Event ρ) : Decidable (Enabled s e) :=
  match e with
  | .network _ _ _ _ initializeResult =>
    inferInstanceAs (Decidable (SingleOperation initializeResult))
  | .dispatch _ => inferInstanceAs (Decidable (_ < _))
  | .endMessage _ => inferInstanceAs (Decidable (_ = _))
  | .select _ | .startAsync _ | .sendAsyncRequest _ | .dispatchException .. | .upcallCompleted _
  | .sendResponse .. | .finish | .inactivityCheck | .closeTimedOut =>
    inferInstanceAs (Decidable (_ ∧ _))
  | .beginMessage | .activate | .hold | .destroy _ | .abort | .close | .asyncRequestCanceled ..
  | .idleCheck | .connectTimedOut | .sendHeartbeat => inferInstanceAs (Decidable (_ = _))

variable [Bzip2] [DecidableEq ρ]

/-- The program that an event runs in a state. -/
def Event.program (s : ConnectionI ρ) : Event ρ → M ρ Unit
  | .network bytes room readFailure writeFailure initializeResult =>
    modify (arrive bytes room readFailure writeFailure initializeResult)
  | .startAsync callbacks => Connection.startAsync callbacks
  | .activate => Connection.activate
  | .hold => Connection.hold
  | .destroy reason => Connection.destroy reason
  | .abort => Connection.abort
  | .close => Connection.close
  | .sendAsyncRequest request => discard (Connection.sendAsyncRequest request)
  | .asyncRequestCanceled out ex => Connection.asyncRequestCanceled out ex
  | .select operation => modify fun s => { s with phase := .selected operation }
  | .beginMessage =>
    match s.phase with
    | .selected operation => Connection.beginMessage operation
    | _ => pure ()
  | .endMessage answers =>
    match s.phase with
    | .reading operation writeOp => Connection.endMessage answers operation writeOp
    | _ => pure ()
  | .dispatch i => modify (startDispatch i)
  | .dispatchException i ex => Connection.dispatchException i ex
  | .upcallCompleted i => Connection.upcallCompleted i
  | .sendResponse j result compress => Connection.sendResponse j result compress
  | .finish => Connection.finish
  | .idleCheck => Connection.idleCheck
  | .inactivityCheck => Connection.inactivityCheck
  | .connectTimedOut => Connection.connectTimedOut
  | .closeTimedOut => Connection.closeTimedOut
  | .sendHeartbeat => Connection.sendHeartbeat

/-- The state behind an event. -/
def Event.after (e : Event ρ) (s : ConnectionI ρ) : ConnectionI ρ := finalState (e.program s s)

/-- A step of a connection: an event that can happen and that is allowed. -/
inductive Step (allowed : ConnectionI ρ → Event ρ → Prop) : ConnectionI ρ → ConnectionI ρ → Prop
  | event {s : ConnectionI ρ} (e : Event ρ) (enabled : Enabled s e) (ok : allowed s e) :
    Step allowed s (e.after s)

/-- The states that a connection reaches by events that are allowed. -/
def Reachable (allowed : ConnectionI ρ → Event ρ → Prop) (s : ConnectionI ρ) : Prop :=
  ∃ o, Relation.ReflTransGen (Step allowed) (ConnectionI.create o) s

/-- A property of a new connection that every allowed step keeps holds in every reachable state. -/
theorem Reachable.induct {allowed : ConnectionI ρ → Event ρ → Prop} {I : ConnectionI ρ → Prop}
    (init : ∀ o, I (.create o))
    (step : ∀ s e, Enabled s e → allowed s e → I s → I (e.after s)) {s : ConnectionI ρ}
    (h : Reachable allowed s) : I s := by
  obtain ⟨o, hrun⟩ := h
  induction hrun with
  | refl => exact init o
  | tail _ hstep ih =>
    obtain ⟨e, henabled, hok⟩ := hstep
    exact step _ e henabled hok ih

section Lists

variable (allowed : ConnectionI ρ → Event ρ → Prop) [∀ s e, Decidable (allowed s e)]

/-- The state behind a list of events, if each of them can happen and is allowed. -/
def runEvents : List (Event ρ) → ConnectionI ρ → Option (ConnectionI ρ)
  | [], s => some s
  | e :: es, s => if Enabled s e ∧ allowed s e then runEvents es (e.after s) else none

theorem reflTransGen_of_runEvents {es : List (Event ρ)} {s s' : ConnectionI ρ}
    (h : runEvents allowed es s = some s') : Relation.ReflTransGen (Step allowed) s s' := by
  induction es generalizing s with
  | nil =>
    cases h
    exact .refl
  | cons e es ih =>
    rw [runEvents] at h
    split at h
    · next hstep => exact .head (.event e hstep.1 hstep.2) (ih h)
    · cases h

/-- Whatever a list of events leads to is reachable. -/
theorem reachable_of_runEvents (o : Options) (es : List (Event ρ)) {P : ConnectionI ρ → Prop}
    [DecidablePred P] (h : (runEvents allowed es (.create o)).any (P ·) = true) :
    ∃ s, Reachable allowed s ∧ P s := by
  obtain ⟨s, hs, hP⟩ := (Option.any_eq_true _ _).mp h
  exact ⟨s, ⟨o, reflTransGen_of_runEvents allowed hs⟩, of_decide_eq_true hP⟩

end Lists

end Ice.Connection
