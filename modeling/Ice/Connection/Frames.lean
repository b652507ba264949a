import Ice.Connection.Rules

/-!
# What a connection does of itself

The programs of `ConnectionI` that neither accept nor complete a request keep every relation that is
a `Frame`, and the programs of the events do not throw.
-/

namespace Ice.Connection

open CoarseFrame

open Ice.WebSocket (Buffer SocketOperation)

variable {ρ : Type} {s : ConnectionI ρ}

theorem canSwitch_closingPending (h : s.state = .closing) : s.state.canSwitch .closingPending := by
  rw [h]
  decide

variable (ex : LocalException)

theorem isSome_except (s : ConnectionI ρ) : (s.except ex).exception.isSome := by
  cases h : s.exception <;> simp [ConnectionI.except, h]

theorem closed_le_closeWith (s : ConnectionI ρ) : .closed ≤ (closeWith ex s).state := by
  unfold closeWith
  split
  · next h => exact h.ge
  · split
    · exact le_rfl
    · next hcan =>
      revert hcan
      rw [show (s.except ex).state = s.state from rfl]
      cases s.state <;> decide

@[simp] theorem sendStreams_closeWith (s : ConnectionI ρ) :
    (closeWith ex s).sendStreams = s.sendStreams := by
  unfold closeWith
  split
  · rfl
  · split <;> rfl

theorem isSome_closeWith (h : s.state ≠ .closed) :
    (closeWith ex s).exception.isSome := by
  unfold closeWith
  rw [if_neg h]
  split <;> exact isSome_except ex s

/-! ## Programs that do not throw -/

/-- Every run returns. -/
def Returns {α : Type} (x : M ρ α) : Prop := ∀ s, wp x (fun _ _ => True) (fun _ _ => False) s

namespace Returns

variable {α β : Type} {f : ConnectionI ρ → ConnectionI ρ}

theorem modify : Returns (modify f : M ρ Unit) :=
  fun _ => trivial

theorem bind {x : M ρ β} {f : β → M ρ α} (hx : Returns x) (hf : ∀ b, Returns (f b)) :
    Returns (x >>= f) := by
  intro s
  rw [wp_bind]
  exact wp_post (hx s) fun b s' _ => hf b s'

theorem get_bind {f : ConnectionI ρ → M ρ α} (hf : ∀ s, Returns (f s)) :
    Returns (get >>= f) := fun s => hf s s

theorem ite {c : Prop} [Decidable c] {x y : M ρ α} (hx : Returns x) (hy : Returns y) :
    Returns (if c then x else y) := by
  split
  · exact hx
  · exact hy

theorem handle {x : M ρ α} {handler : LocalException → M ρ α} (h : ∀ ex, Returns (handler ex)) :
    Returns (handle x handler) := by
  intro s
  rw [wp_handle]
  unfold wp
  cases x s with
  | ok a s' => trivial
  | error ex s' => exact h ex s'

end Returns

theorem returns_pure {α : Type} (a : α) : Returns (pure a : M ρ α) := fun _ => trivial

variable [Bzip2]

section

variable {R : ConnectionI ρ → ConnectionI ρ → Prop} [Frame R]

/-! ## Sending and changing the state -/

theorem keeps_sendMessage {m : OutgoingMessage ρ} (hm : Own s m) : Keeps R (sendMessage m) s :=
  wp_sendMessage (fun hq => Frame.queued hm hq) (fun ex _ _ => Frame.closeWith ex s)
    (fun _ hq hw hroom => Frame.sent hm hq hw hroom)
    (fun _ hq hw hroom _ => Frame.started hm hq hw hroom)
    (fun _ ex hq hw hroom _ => Frame.failed ex hm hq hw hroom)

theorem keeps_initiateShutdown (hstate : s.state = .closing) (hcount : s.upcallCount = 0) :
    Keeps R initiateShutdown s := by
  refine .get_bind (.ite (fun _ => .pure ()) fun _ => ?_)
  simp only [Keeps, wp_bind, wp_modify]
  have hmark : R s s.markShutdown.scheduleCloseTimerTask :=
    Frame.trans (Frame.shutdown hstate hcount) (Frame.quiet rfl rfl)
  have hown : Own s.markShutdown.scheduleCloseTimerTask
      ({ message := .closeConnection } : OutgoingMessage ρ) :=
    ⟨rfl, rfl, lt_of_lt_of_eq (by decide) hstate.symm, lt_of_eq_of_lt hstate (by decide),
      fun _ => ⟨hstate, hcount, rfl⟩⟩
  refine wp_sendMessage (fun hq => ?_) (fun ex _ _ => ?_) (fun wire hq hw hroom => ?_)
    (fun wire hq hw hroom _ => ?_) (fun wire ex hq hw hroom _ => ?_)
  · exact Frame.trans hmark (Frame.queued hown hq)
  · exact Frame.trans hmark (Frame.closeWith ex _)
  · -- the message is sent at once: the connection waits for the peer to close
    refine Frame.trans hmark (Frame.trans (Frame.sent hown hq hw hroom) ?_)
    refine Frame.trans (Frame.close (canSwitch_closingPending hstate) (by decide) (.inr ?_))
      (Frame.waits rfl)
    exact le_of_eq hstate.symm
  · exact Frame.trans hmark (Frame.started hown hq hw hroom)
  · exact Frame.trans hmark (Frame.failed ex hown hq hw hroom)

omit [Bzip2] [Frame R] in
theorem closing_target {current state : State} (h : .closing ≤ state ∧ state ≠ .finished) :
    .closing ≤ current.target state ∧ current.target state ≠ .finished := by
  unfold State.target
  split
  · decide
  · exact h

variable {state : State}

/-- `setState`: a connection that starts to close has its exception. -/
theorem keeps_setState (hle : .closing ≤ state ∧ state ≠ .finished)
    (hex : s.exception.isSome ∨ .closing ≤ s.state) : Keeps R (setState state) s := by
  refine .get_bind (.ite (fun hcan => ?_) fun _ => .pure ())
  have hswitch : R s (switchState (s.state.target state) s) :=
    Frame.close hcan (closing_target hle) hex
  simp only [Keeps, wp_bind, wp_modify, wp_get]
  refine Keeps.after hswitch (.ite (fun h => ?_) fun _ => .pure ())
  rw [Keeps, wp_handle]
  exact wp_mono (keeps_initiateShutdown h.1 h.2) (fun _ _ h => h) fun ex s' h => h

theorem keeps_setStateWith (hle : .closing ≤ state ∧ state ≠ .finished) (ex : LocalException) :
    Keeps R (setStateWith state ex) s := by
  refine .get_bind (.ite (fun _ => .pure ()) fun _ => ?_)
  rw [Keeps, wp_bind, wp_modify]
  exact Keeps.after (Frame.except s ex) (keeps_setState hle (.inl (isSome_except ex s)))

theorem keeps_closeIfRequested : Keeps R closeIfRequested s :=
  .get_bind (.ite (fun _ => keeps_setStateWith (by decide) _) fun _ => .pure ())

theorem keeps_shutdownOrClose (hstate : s.state = .closing) (hcount : s.upcallCount = 0) :
    Keeps R shutdownOrClose s := .orCloses (keeps_initiateShutdown hstate hcount)

/-! ## The functions that the application and the timers call -/

theorem keeps_destroy (reason : DestructionReason) : Keeps R (destroy reason) s := by
  cases reason <;> exact keeps_setStateWith (by decide) _

theorem keeps_idleCheck : Keeps R idleCheck s :=
  .get_bind (.ite (fun _ => keeps_setStateWith (by decide) _) fun _ => .pure ())

theorem keeps_inactivityCheck : Keeps R inactivityCheck s := by
  refine .get_bind ?_
  simp only [Keeps, wp_bind, wp_set]
  exact Keeps.after (Frame.quiet rfl rfl)
    (.ite (fun _ => keeps_setStateWith (by decide) _) fun _ => .pure ())

theorem keeps_connectTimedOut : Keeps R connectTimedOut s :=
  .get_bind (.ite (fun _ => keeps_setStateWith (by decide) _) fun _ => .pure ())

theorem keeps_sendHeartbeat : Keeps R sendHeartbeat s := by
  refine .get_bind (.ite (fun hstate => ?_) fun _ => .pure ())
  have hopen : .notValidated < s.state ∧ s.state < .closed := by
    rcases hstate with h | h | h <;> rw [h] <;> decide
  simp only [Keeps, wp_bind, wp_runIf, wp_modify]
  have hsend {s' : ConnectionI ρ} (hs' : s'.state = s.state) :
      Keeps R (handle (discard (sendMessage { message := .validateConnection })) fun ex =>
        setStateWith .closed ex) s' :=
    .orCloses (.map (keeps_sendMessage
      ⟨rfl, rfl, hs' ▸ hopen.1, hs' ▸ hopen.2, fun h => by cases h⟩))
  refine ⟨fun _ => ⟨fun _ => ?_, fun _ => ?_⟩, fun _ => ⟨fun _ => ?_, fun _ => ?_⟩⟩
  · exact Keeps.after (Frame.quiet rfl rfl) (hsend rfl)
  · exact Frame.quiet rfl rfl
  · exact hsend rfl
  · exact Frame.refl s

end

/-! ## Reading and opening -/

section

variable {R : ConnectionI ρ → ConnectionI ρ → Prop} [CoarseFrame R]

omit [CoarseFrame R] in
/-- Without closing, `setState` only switches the state. -/
theorem wp_setState_open (h : state < .closing) {Q : Unit → ConnectionI ρ → Prop}
    {E : LocalException → ConnectionI ρ → Prop}
    (hswitch : s.state.canSwitch state → Q () (switchState state s))
    (hstay : s.state.canSwitch state = false → Q () s) : wp (setState state) Q E s := by
  have htarget : s.state.target state = state := by
    unfold State.target
    rw [if_neg fun h' => absurd h (by rw [h'.2]; exact lt_irrefl _)]
  simp only [setState, wp_bind, wp_get, htarget]
  split
  · next hcan =>
    rw [wp_bind, wp_modify, wp_bind, wp_get, if_neg]
    · exact hswitch hcan
    · exact fun h' => absurd h (by rw [show state = .closing from h'.1]; exact lt_irrefl _)
  · next hcan => exact hstay (Bool.eq_false_of_not_eq_true hcan)

theorem keeps_setState_open (h : state < .closing) : Keeps R (setState state) s :=
  wp_setState_open h (fun hcan => opens hcan h) fun _ => Frame.refl s

theorem keeps_activate : Keeps R activate s :=
  .get_bind (.ite (fun _ => .pure ()) fun _ => keeps_setState_open (by decide))

theorem keeps_hold : Keeps R hold s :=
  .get_bind (.ite (fun _ => .pure ()) fun _ => keeps_setState_open (by decide))

theorem keeps_read : Keeps R read s := by
  refine .get_bind ?_
  simp only [Keeps, wp_bind, wp_modify]
  exact Keeps.after (coarse rfl) (.runIf fun _ => .throwSome _)

theorem keeps_messageRead : Keeps R messageRead s := by
  refine .bind keeps_read fun _ s1 => .get_bind (.ite (fun _ => .pure _) fun _ => ?_)
  refine .ite (fun _ => ?_) fun _ => .pure _
  refine .bind (.modify (coarse rfl)) fun _ s2 => .bind (.ofExcept _) fun size s3 => ?_
  refine .bind (.modify (coarse rfl)) fun _ s4 => .get_bind (.ite (fun _ => ?_) fun _ => .pure _)
  exact .bind keeps_read fun _ s5 => .get_bind (.pure _)

theorem keeps_initializeConnection (operation : SocketOperation) :
    Keeps R (initializeConnection operation) s := by
  refine .get_bind (.bind (.ofExcept _) fun op s' => .ite (fun _ => ?_) fun _ => ?_)
  · exact .bind (.modify (coarse rfl)) fun _ _ => .pure _
  · exact .bind (keeps_setState_open (by decide)) fun _ _ => .pure _

theorem keeps_initializeIfNeeded (operation : SocketOperation) :
    Keeps R (initializeIfNeeded operation) s :=
  .get_bind (.ite (fun _ => keeps_initializeConnection operation) fun _ => .pure _)

end

/-- An exception that is set stays so. -/
def KeepsException (s s' : ConnectionI ρ) : Prop := s.exception.isSome → s'.exception.isSome

instance : Frame (KeepsException (ρ := ρ)) where
  quiet h _ hs := (congrArg (fun c => c.exception.isSome) h).trans hs
  trans h h' hs := h' (h hs)
  except s ex _ := isSome_except ex s
  replace _ _ := rfl
  close _ _ _ hs := hs
  shutdown _ _ hs := hs
  waits _ hs := hs
  queued _ _ hs := hs
  sent _ _ _ _ hs := hs
  started _ _ _ _ hs := hs
  failed ex _ _ _ _ hs := by
    unfold closeWith
    split
    · exact hs
    · split <;> exact isSome_except ex _

/-- Behind `setState(state, ex)` with a closing state, the connection has its exception. -/
theorem setStateWith_exception (hstate : .closing ≤ state ∧ state ≠ .finished)
    (ex : LocalException) :
    wp (setStateWith state ex) (fun _ s' => s'.exception.isSome ∨ .closing ≤ s'.state)
      (fun _ _ => True) s := by
  simp only [setStateWith, wp_bind, wp_get]
  split
  · next h => exact .inr (hstate.1.trans (le_of_eq h.symm))
  · rw [wp_bind, wp_modify]
    have hkeeps : Keeps KeepsException (setState state) (s.except ex) :=
      keeps_setState hstate (.inl (isSome_except ex s))
    exact wp_mono hkeeps (fun _ _ h => .inl (h (isSome_except ex s))) fun _ _ _ => trivial

section

variable {R : ConnectionI ρ → ConnectionI ρ → Prop} [Frame R]

theorem keeps_receiveCloseConnection : Keeps R receiveCloseConnection s := by
  rw [receiveCloseConnection, Keeps, wp_bind]
  have hclosing : State.closing ≤ .closingPending ∧ State.closingPending ≠ .finished := by decide
  refine wp_mono (wp_and (keeps_setStateWith (R := R) hclosing .closeConnection)
    (setStateWith_exception hclosing .closeConnection)) (fun _ s' h => ?_) fun _ _ h => h.1
  refine Keeps.after h.1 (.get_bind (.ite (fun _ => ?_) fun _ => ?_))
  · exact .bind (.modify (Frame.quiet rfl rfl)) fun _ _ => .pure _
  · exact .bind (keeps_setState (by decide) h.2) fun _ _ => .pure _

theorem keeps_closeTimedOut : Keeps R closeTimedOut s := by
  refine .get_bind (.ite (fun h => ?_) fun _ => .pure ())
  rw [Keeps, wp_bind, wp_set]
  exact Keeps.after (Frame.replace h) (keeps_setState (by decide) (.inl rfl))

/-- The response is sent, the dispatch is done, and the last one shuts the connection down. -/
theorem keeps_respond (hvalidated : .notValidated < s.state) (d : Dispatch) (result : Payload)
    (compress : Bool) (hcount : R s { s with upcallCount := s.upcallCount - 1 })
    (hdone : ∀ s : ConnectionI ρ, R s (dispatchDone s)) :
    Keeps R (respond d result compress) s := by
  rw [respond, Keeps, wp_bind, wp_modify, wp_bind, wp_get]
  refine Keeps.after hcount (.ite (fun _ => .pure ()) fun hclosed => ?_)
  have hown : Own { s with upcallCount := s.upcallCount - 1 } (d.response result compress) :=
    ⟨rfl, rfl, hvalidated, lt_of_not_ge hclosed, fun h => by cases h⟩
  refine .bind (.runIf fun _ => .map (keeps_sendMessage hown)) fun _ s1 => ?_
  refine .bind (.modify (hdone s1)) fun _ s2 => .get_bind (.runIf fun h => ?_)
  exact keeps_initiateShutdown h.1 h.2

/-! ## Received messages -/

/-- A received message delivers a reply, gives requests to the upcall, or closes the connection. -/
theorem keeps_parseMessage (deliver : ∀ {s : ConnectionI ρ} {requestId e} answers result,
      s.findReply requestId = some e → R s (deliver answers requestId e result s))
    (receive : ∀ {s : ConnectionI ρ} requestCount requestId index, s.state < .closing →
      R s (receiveRequests requestCount requestId index s))
    (take : ∀ s : ConnectionI ρ, R s (takeMessage s)) (answers : Answers ρ) :
    Keeps R (parseMessage answers) s := by
  have parse (index : Nat) (stream : List UInt8) (s : ConnectionI ρ) :
      Keeps R (parseBody answers index stream) s := by
    refine wp_parseBody (fun ex => Frame.closeWith ex s) (Frame.refl s) keeps_receiveCloseConnection
      (fun requestCount requestId hstate => receive _ _ _ hstate) fun requestId result _ => ?_
    refine Keeps.get_bind ?_
    cases hfind : s.findReply requestId with
    | none => exact .pure _
    | some e => exact .bind (.modify (deliver answers _ hfind)) fun _ _ => keeps_closeIfRequested
  refine .get_bind (.bind (.modify (take s)) fun _ s₁ => .bind ?_ fun _ _ => .get_bind (.pure _))
  exact .orClose (parse _ _ s₁) fun _ => .pure _

/-! ## The programs that move the send queue on -/

/-- The state behind the write of the next message of the queue. -/
def writeNext (wire : List UInt8) (n : Nat) (s : ConnectionI ρ) : ConnectionI ρ :=
  { s.transmit wire n with writeStream := ⟨wire, n⟩ }

/-- The messages behind the first one are sent one by one. Where the queue is `m :: rest`, `m` is
    sent and taken off the queue, or it is written in part, or the write fails. -/
theorem keeps_sendQueued {answers : Answers ρ}
    (sent : ∀ {s : ConnectionI ρ} {m rest wire}, s.sendStreams = m :: rest →
      s.state < .closingPending → s.writeStream = {} → m.message.wire m.compress = .ok wire →
      R s (popSent answers m rest ((writeNext wire wire.length s).hand m)))
    (started : ∀ {s : ConnectionI ρ} {m rest wire n}, s.sendStreams = m :: rest →
      s.state < .closingPending → s.writeStream = {} → m.message.wire m.compress = .ok wire →
      n < wire.length → R s (writeNext wire n s))
    (failed : ∀ {s : ConnectionI ρ} {m rest wire n} ex, s.sendStreams = m :: rest →
      s.state < .closingPending → s.writeStream = {} → m.message.wire m.compress = .ok wire →
      n < wire.length → R s (closeWith ex (s.transmit wire n)))
    (queue : List (OutgoingMessage ρ)) (hqueue : s.sendStreams = queue)
    (hwrite : s.writeStream = {}) : Keeps R (sendQueued answers queue) s := by
  induction queue generalizing s with
  | nil =>
    refine .get_bind (.ite (fun h => ?_) fun _ => .pure _)
    exact .bind (keeps_setState (by decide) (.inr (le_of_eq h.1.symm))) fun _ _ => .pure _
  | cons m rest ih =>
    refine .get_bind (.ite (fun _ => .pure _) fun hstate => ?_)
    have hstate' : s.state < .closingPending := lt_of_not_ge hstate
    rw [Keeps, wp_bind]
    refine wp_ofExcept.mpr ⟨fun wire hwire => ?_, fun ex _ => Frame.closeWith ex s⟩
    rw [wp_bind]
    refine wp_write (Nat.zero_le _) (fun hroom => ?_) (fun hroom _ => ?_) fun ex hroom _ => ?_
    · -- the message is sent: on with the rest of the queue
      simp only [wp_bind, wp_modify, Buffer.atEnd, beq_self_eq_true, if_true]
      exact Keeps.after (sent hqueue hstate' hwrite hwire) (ih rfl rfl)
    · have hne : ((0 + s.transceiver.room == wire.length) = true) = False := by
        have hroom' : s.transceiver.room < wire.length := hroom
        simp
        omega
      simp only [wp_bind, wp_modify, Buffer.atEnd, hne, if_false]
      have := started hqueue hstate' hwrite hwire hroom
      rw [wp_pure, Nat.zero_add]
      exact this
    · exact failed ex hqueue hstate' hwrite hwire hroom

/-- A frame that is also kept by the programs that write what is queued. -/
class IoFrame (R : ConnectionI ρ → ConnectionI ρ → Prop) : Prop extends CoarseFrame R where
  validate : ∀ operation s, Keeps R (validate operation) s
  sendNextMessages : ∀ answers s, Keeps R (sendNextMessages answers) s
  messageWrite : ∀ operation s, Keeps R (messageWrite operation) s

end

section

variable {R : ConnectionI ρ → ConnectionI ρ → Prop} [IoFrame R]

theorem keeps_validateIf (initialized : Bool) (operation : SocketOperation) :
    Keeps R (validateIf initialized operation) s :=
  .ite (fun _ => IoFrame.validate operation s) fun _ => .pure _

theorem keeps_startAsync (callbacks : Bool) : Keeps R (startAsync callbacks) s := by
  refine .orCloses (.bind (keeps_initializeConnection _) fun initialized s1 => ?_)
  refine .bind (keeps_validateIf initialized _) fun validated s2 => .ite (fun _ => ?_) fun _ => ?_
  · exact keeps_setState_open (by decide)
  · exact .modify (coarse rfl)

theorem keeps_establish (operation newOp : SocketOperation) :
    Keeps R (establish operation newOp) s := by
  refine .ite (fun _ => .modify (coarse rfl)) fun _ => ?_
  refine .bind (keeps_initializeIfNeeded operation) fun initialized s1 => ?_
  refine .bind (keeps_validateIf initialized operation) fun validated s2 => ?_
  refine .ite (fun _ => ?_) fun _ => .pure _
  refine .bind (.modify (coarse rfl)) fun _ s3 => ?_
  exact .bind (keeps_setState_open (by decide)) fun _ s4 => .modify (coarse rfl)

theorem keeps_beginMessage (operation : SocketOperation) : Keeps R (beginMessage operation) s := by
  refine .get_bind (.ite (fun _ => .modify (coarse rfl)) fun _ => ?_)
  refine .orClose ?_ fun s' => .modify (coarse rfl)
  exact .bind (IoFrame.messageWrite operation s) fun writeOp s1 => .modify (coarse rfl)

end

/-! ## The events do not throw -/

theorem returns_setState (state : State) : Returns (setState (ρ := ρ) state) :=
  .get_bind fun _ => .ite (.bind .modify fun _ => .get_bind fun _ =>
    .ite (.handle fun _ => .modify) (returns_pure _)) (returns_pure _)

theorem returns_setStateWith (state : State) (ex : LocalException) :
    Returns (setStateWith (ρ := ρ) state ex) :=
  .get_bind fun _ => .ite (returns_pure _) (.bind .modify fun _ => returns_setState state)

theorem returns_closeIfRequested : Returns (closeIfRequested (ρ := ρ)) :=
  .get_bind fun _ => .ite (returns_setStateWith _ _) (returns_pure _)

theorem returns_orCloses {x : M ρ Unit} : Returns (handle x fun ex => setStateWith .closed ex) :=
  .handle fun _ => returns_setStateWith _ _

theorem returns_sendAsyncRequest (r : OutgoingRequest ρ) : Returns (sendAsyncRequest r) := by
  refine .get_bind fun s => ?_
  cases s.exception with
  | some ex => exact returns_pure _
  | none =>
    cases r.canceled with
    | some ex => exact returns_pure _
    | none =>
      refine .bind .modify fun _ => .bind .modify fun _ => .bind (.handle fun ex =>
        .bind (returns_setStateWith _ _) fun _ => .get_bind fun _ => returns_pure _)
        fun result => ?_
      cases result with
      | accepted status => exact .bind (.ite .modify (returns_pure _)) fun _ => returns_pure _
      | retry ex | failed ex => exact returns_pure _

theorem returns_abortOr :
    Returns (abortOr ex (modify f)) := .ite (returns_setStateWith _ _) .modify

variable [DecidableEq ρ]

theorem returns_asyncRequestCanceled (out : ρ) (ex : LocalException) :
    Returns (asyncRequestCanceled out ex) := by
  refine .get_bind fun s => .ite (returns_pure _) ?_
  cases locate out s with
  | queued i requestId =>
    exact .bind .modify fun _ => .bind (returns_abortOr ex) fun _ => returns_closeIfRequested
  | hinted requestId => exact .bind (returns_abortOr ex) fun _ => returns_closeIfRequested
  | found requestId => exact returns_abortOr ex
  | absent => exact returns_pure _

theorem returns_program (s : ConnectionI ρ) (e : Event ρ) : Returns (e.program s) := by
  cases e with
  | startAsync callbacks => exact returns_orCloses
  | activate | hold => exact .get_bind fun _ => .ite (returns_pure _) (returns_setState _)
  | destroy reason => cases reason <;> exact returns_setStateWith _ _
  | abort => exact returns_setStateWith _ _
  | close =>
    exact .get_bind fun _ => .ite (returns_pure _) (.ite (returns_setStateWith _ _)
      (.bind .modify fun _ => .modify))
  | sendAsyncRequest request =>
    exact .bind (returns_sendAsyncRequest request) fun _ => returns_pure _
  | asyncRequestCanceled out ex => exact returns_asyncRequestCanceled out ex
  | beginMessage =>
    simp only [Event.program]
    split
    · exact .get_bind fun _ => .ite .modify (.handle fun _ =>
        .bind (returns_setStateWith _ _) fun _ => .modify)
    · exact returns_pure _
  | endMessage answers =>
    simp only [Event.program]
    split
    · exact .bind returns_orCloses fun _ => .modify
    · exact returns_pure _
  | network | select | dispatch => exact .modify
  | dispatchException i ex =>
    refine .get_bind fun s => ?_
    cases s.upcalls[i]? with
    | none => exact returns_pure _
    | some u => exact .bind .modify fun _ => .bind (returns_setStateWith _ _) fun _ => .modify
  | upcallCompleted i =>
    refine .get_bind fun s => ?_
    cases s.upcalls[i]? with
    | none => exact returns_pure _
    | some u =>
      exact .bind .modify fun _ => .get_bind fun _ => .ite returns_orCloses (returns_pure _)
  | sendResponse j result compress =>
    refine .get_bind fun s => ?_
    cases s.dispatching[j]? with
    | none => exact returns_pure _
    | some d => exact .bind .modify fun _ => returns_orCloses
  | finish => exact .bind .modify fun _ => returns_setState _
  | inactivityCheck =>
    exact .get_bind fun _ => .bind (fun _ => trivial) fun _ =>
      .ite (returns_setStateWith _ _) (returns_pure _)
  | idleCheck | connectTimedOut =>
    exact .get_bind fun _ => .ite (returns_setStateWith _ _) (returns_pure _)
  | closeTimedOut =>
    exact .get_bind fun _ => .ite (.bind (fun _ => trivial) fun _ => returns_setState _)
      (returns_pure _)
  | sendHeartbeat =>
    exact .get_bind fun _ => .ite (.bind (.ite .modify (returns_pure _)) fun _ =>
      .ite returns_orCloses (returns_pure _)) (returns_pure _)

variable {P : ConnectionI ρ → Prop} {E : LocalException → ConnectionI ρ → Prop}

/-- What holds of the run of an event's program holds behind the event. -/
theorem after_of_wp {e : Event ρ} (h : wp (e.program s) (fun _ => P) E s) : P (e.after s) := by
  have hret := returns_program s e s
  unfold Event.after
  unfold wp at h hret
  cases hx : e.program s s with
  | ok a s' =>
    rw [hx] at h
    exact h
  | error ex s' =>
    rw [hx] at hret
    exact hret.elim

theorem after_beginMessage (henabled : Enabled s .beginMessage)
    (h : ∀ {operation}, s.phase = .selected operation →
      wp (beginMessage operation) (fun _ => P) E s) :
    P (Event.beginMessage.after s) := by
  have hselected : s.isSelected = true := henabled
  cases hphase : s.phase with
  | selected operation =>
    refine after_of_wp (e := .beginMessage) (E := E) ?_
    simp only [Event.program, hphase]
    exact h hphase
  | idle | reading => simp [ConnectionI.isSelected, hphase] at hselected

theorem after_endMessage {answers : Answers ρ} (henabled : Enabled s (.endMessage answers))
    (h : ∀ {operation writeOp}, s.phase = .reading operation writeOp →
      wp (endMessage answers operation writeOp) (fun _ => P) E s) :
      P ((Event.endMessage answers).after s) := by
  have hreading : s.isReading = true := henabled
  cases hphase : s.phase with
  | reading operation writeOp =>
    refine after_of_wp (e := .endMessage answers) (E := E) ?_
    simp only [Event.program, hphase]
    exact h hphase
  | idle | selected => simp [ConnectionI.isReading, hphase] at hreading

/-! ## Cancellation -/

omit [DecidableEq ρ] in
theorem abortOr_spec {ex : LocalException}
    {Q : Unit → ConnectionI ρ → Prop} {E : LocalException → ConnectionI ρ → Prop}
    (haborted : Q () (closeWith ex s)) (hnot : ex.isConnectionAborted = false → Q () (f s)) :
    wp (abortOr ex (modify f)) Q E s := by
  unfold abortOr
  split
  · rw [setStateWith_closed]
    exact haborted
  · next h => exact hnot (Bool.eq_false_of_not_eq_true h)

omit [Bzip2] in
theorem locate_queued {out : ρ} {i : Nat} {requestId : Int}
    (h : locate out s = .queued i requestId) :
    ∃ m, s.sendStreams[i]? = some m ∧ m.outAsync = some out ∧ m.requestId = requestId := by
  unfold locate at h
  split at h
  · next j hfind =>
    obtain ⟨hlt, hout, -⟩ := List.findIdx?_eq_some_iff_getElem.mp hfind
    simp only [Located.queued.injEq] at h
    obtain ⟨rfl, rfl⟩ := h
    refine ⟨s.sendStreams[j], List.getElem?_eq_getElem hlt, of_decide_eq_true hout, ?_⟩
    simp [List.getElem?_eq_getElem hlt]
  · split at h
    · cases h
    · split at h <;> cases h

omit [Bzip2] in
theorem locate_hinted {out : ρ} {requestId : Int} (h : locate out s = .hinted requestId) :
    (∀ m ∈ s.sendStreams, m.outAsync ≠ some out) ∧ s.hintFor out = some requestId := by
  unfold locate at h
  split at h
  · cases h
  · next hfind =>
    split at h
    · next id hhint =>
      cases h
      refine ⟨fun m hm => ?_, hhint⟩
      simpa using List.findIdx?_eq_none_iff.mp hfind m hm
    · split at h <;> cases h

omit [Bzip2] in
theorem locate_found {out : ρ} {requestId : Int} (h : locate out s = .found requestId) :
    (∀ m ∈ s.sendStreams, m.outAsync ≠ some out) ∧ s.hintFor out = none ∧
      (requestId, out) ∈ s.asyncRequests := by
  unfold locate at h
  split at h
  · cases h
  · next hfind =>
    split at h
    · cases h
    · next hhint =>
      split at h
      · next e he =>
        cases h
        refine ⟨fun m hm => ?_, hhint, ?_⟩
        · simpa using List.findIdx?_eq_none_iff.mp hfind m hm
        · have hout := List.find?_some he
          have hmem := List.mem_of_find?_eq_some he
          rw [← of_decide_eq_true hout]
          exact hmem
      · cases h

/-! ## The events that only concern the connection itself -/

theorem after_finish (h : s.state = .closed) :
    Event.finish.after s = switchState .finished (completeAll s) := by
  have hstate : (completeAll s).state = .closed := h
  refine after_of_wp (P := (· = _)) (E := fun _ _ => True) ?_
  simp only [Event.program, finish, wp_bind, wp_modify, setState, wp_get, hstate]
  rfl

/-- The connection is closed, its timers run out, or it sends a heartbeat. -/
def Event.isOwn : Event ρ → Prop
  | .destroy _ | .abort | .idleCheck | .inactivityCheck | .connectTimedOut | .closeTimedOut
  | .sendHeartbeat => True
  | _ => False

theorem keeps_isOwn {R : ConnectionI ρ → ConnectionI ρ → Prop} [Frame R] {e : Event ρ}
    (h : e.isOwn) : R s (e.after s) := by
  refine after_of_wp (E := fun ex s' => R s (closeWith ex s')) ?_
  cases e with
  | destroy reason => exact keeps_destroy reason
  | abort => exact keeps_setStateWith (by decide) _
  | idleCheck => exact keeps_idleCheck
  | inactivityCheck => exact keeps_inactivityCheck
  | connectTimedOut => exact keeps_connectTimedOut
  | closeTimedOut => exact keeps_closeTimedOut
  | sendHeartbeat => exact keeps_sendHeartbeat
  | network | startAsync | activate | hold | close | sendAsyncRequest | asyncRequestCanceled
  | select | beginMessage | endMessage | dispatch | dispatchException | upcallCompleted
  | sendResponse | finish => exact h.elim

end Ice.Connection
