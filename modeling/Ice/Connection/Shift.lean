import Ice.Connection.Opening

/-!
# What an event does to the flow of messages

`Shift` lists what an event can do to the operations that a connection is registered for, to the
phase of `message`, and to the counters of dispatches. It is about the states in which `Based`
holds, which are all the states that are reached.
-/

namespace Ice.Connection

open ConnectionI

open Ice.WebSocket (Buffer SocketOperation)

variable {ρ : Type} {s s' : ConnectionI ρ}

/-- What holds in every state that is reached. -/
structure Based (s : ConnectionI ρ) : Prop where
  early : s.state ≤ .notValidated → Early s
  /-- a connection closes with an exception -/
  exception : .closing ≤ s.state → s.exception.isSome
  /-- `message` is not called for a closed connection -/
  notClosed : ∀ {operation writeOp}, s.phase = .reading operation writeOp → s.state < .closed
  writeOp : ∀ {operation writeOp}, s.phase = .reading operation writeOp → writeOp.read = false
  opening : ∀ {operation writeOp}, s.phase = .reading operation writeOp →
    s.state ≤ .notValidated →
    Covers operation s ∧ (s.incoming = false → writeOp.write = false)

theorem Based.validated (h : Based s) (hne : s.upcalls ≠ [] ∨ s.dispatching ≠ [] ∨
    s.sendStreams ≠ []) : .notValidated < s.state := by
  by_contra hle
  have hearly := h.early (not_lt.mp hle)
  rcases hne with hne | hne | hne
  · exact hne hearly.upcalls
  · exact hne hearly.dispatching
  · exact hne hearly.sendStreams

theorem based_create (o : Options) : Based (.create o : ConnectionI ρ) where
  early _ := ⟨rfl, rfl, rfl, rfl, rfl, rfl, fun _ => ⟨rfl, rfl⟩, fun _ => rfl⟩
  exception (h : _ ≤ State.notInitialized) := absurd h (by decide)
  notClosed h := by cases h
  writeOp h := by cases h
  opening h := by cases h

theorem Based.of_not_reading (hphase : s.isReading = false)
    (early : s.state ≤ .notValidated → Early s)
    (exception : .closing ≤ s.state → s.exception.isSome) : Based s := by
  have hnot {operation writeOp} (h : s.phase = .reading operation writeOp) : False := by
    simp [isReading, h] at hphase
  exact ⟨early, exception, fun h => (hnot h).elim, fun h => (hnot h).elim, fun h => (hnot h).elim⟩

theorem Early.of_early (h : Early s) (hincoming : s'.incoming = s.incoming)
    (hearly : s'.early = s.early) : Early s' := by
  simp only [early, Prod.mk.injEq] at hearly
  obtain ⟨hregistered, hupcalls, hdispatching, hqueue, hwrite, hsize, hheader, hinit, hupcall⟩ :=
    hearly
  constructor
  · rw [hupcall, h.upcall]
  · rw [hupcalls, h.upcalls]
  · rw [hdispatching, h.dispatching]
  · rw [hqueue, h.sendStreams]
  · rw [hregistered, h.registered]
  · rw [hinit]
    exact h.initializeResult
  · rw [hincoming, hsize, hheader]
    exact h.accepting
  · rw [hincoming, hwrite]
    exact h.connecting

theorem Calm.early (h : Calm s s') (hs : s.state ≤ .notValidated → Early s)
    (hstate : s'.state ≤ .notValidated) : s'.state = s.state ∧ s'.early = s.early ∧ Early s' := by
  rcases h.state with ⟨heq, -, hearly⟩ | ⟨hclosing, -⟩
  · rw [heq] at hstate
    exact ⟨heq, hearly hstate, (hs hstate).of_early h.incoming (hearly hstate)⟩
  · exact absurd (hclosing.trans hstate) (by decide)

theorem Based.calm (hs : Based s) (h : Calm s s')
    (hsame : s.isReading = false ∨ s'.state = s.state) : Based s' := by
  have hreading {operation writeOp} (hphase : s'.phase = .reading operation writeOp) :
      s.phase = .reading operation writeOp ∧ s'.state = s.state := by
    rw [h.phase] at hphase
    refine ⟨hphase, hsame.resolve_left ?_⟩
    simp [isReading, hphase]
  refine ⟨fun hle => (h.early hs.early hle).2.2, h.exception hs.exception, fun hphase => ?_,
    fun hphase => hs.writeOp (hreading hphase).1, fun hphase hle => ?_⟩
  · rw [(hreading hphase).2]
    exact hs.notClosed (hreading hphase).1
  · obtain ⟨hphase, -⟩ := hreading hphase
    obtain ⟨heq, hearly, -⟩ := h.early hs.early hle
    have hregistered : s'.registered = s.registered := congrArg Prod.fst hearly
    rw [heq] at hle
    rw [Covers, hregistered, h.incoming]
    exact hs.opening hphase hle

theorem Opening.based (h : Opening s s') (hphase : s'.isReading = false) : Based s' := by
  refine .of_not_reading hphase (fun hle => ?_) fun hge => ?_
  · rcases h.outcome with ⟨-, hearly⟩ | ⟨hstate, -⟩ | ⟨hclosing, -⟩
    · exact hearly
    · rw [hstate] at hle
      exact absurd hle (by decide)
    · exact absurd (hclosing.trans hle) (by decide)
  · rcases h.outcome with ⟨hstate, -⟩ | ⟨hstate, -⟩ | ⟨-, hex⟩
    · exact absurd (hge.trans hstate) (by decide)
    · rw [hstate] at hge
      exact absurd hge (by decide)
    · exact hex

theorem Calm.refl (s : ConnectionI ρ) : Calm s s := .of_eq rfl

section

variable {s₁ s₂ : ConnectionI ρ} {operation : SocketOperation}

/-! ## The start of `message` -/

/-- `s'` differs from `s` by bytes that were written. -/
def Writes (s s' : ConnectionI ρ) : Prop :=
  ∃ room written writeStream handed,
    s' = { s with
      transceiver := { s.transceiver with room := room, written := written }
      writeStream := writeStream, handed := handed } ∧
    (s.writeStream = {} → writeStream = {})

theorem messageWrite_writes (operation : SocketOperation) :
    wp (messageWrite operation) (fun writeOp s' => Writes s s' ∧ writeOp.read = false ∧
      (s.writeStream = {} → writeOp = .none)) (fun _ s' => Writes s s') s := by
  unfold messageWrite
  split
  · simp only [write, wp_bind, wp_get, wp_modify, wp_runIf, wp_throwSome, wp_pure]
    have hempty (h : s.writeStream = {}) :
        ({ s.writeStream with
          i := s.writeStream.i + min s.transceiver.room s.writeStream.rest.length } : Buffer) =
        {} := by
      rw [h]
      simp [Buffer.rest]
    generalize
      ({ s.writeStream with
        i := s.writeStream.i + min s.transceiver.room s.writeStream.rest.length } : Buffer) =
      left at hempty ⊢
    have hop : (if left.atEnd then SocketOperation.none else .writeOp).read = false ∧
        (s.writeStream = {} → (if left.atEnd then SocketOperation.none else .writeOp) = .none) := by
      refine ⟨?_, fun h => ?_⟩
      · split <;> rfl
      · rw [hempty h]
        rfl
    refine ⟨fun _ => ⟨fun _ => ⟨fun _ => ?_, fun _ => ?_⟩, fun _ _ => ⟨_, _, _, _, rfl, id⟩⟩,
      fun _ => ⟨fun _ => ?_, fun _ => ?_⟩⟩ <;> exact ⟨⟨_, _, _, _, rfl, hempty⟩, hop⟩
  · exact ⟨⟨_, _, _, _, rfl, id⟩, rfl, fun _ => rfl⟩

/-- The start of `message`: it is not called, or it fails, or it has written and goes on to read. -/
inductive Began (operation : SocketOperation) (s s' : ConnectionI ρ) : Prop
  | idle : Calm { s with phase := .idle } s' → Frozen s s' → Began operation s s'
  | reading (writeOp : SocketOperation) (s₁ : ConnectionI ρ) : Writes s s₁ → s.state < .closed →
    meets s.registered operation = true → writeOp.read = false →
    (s.writeStream = {} → writeOp = .none) →
    s' = { s₁ with phase := .reading operation writeOp, upcall := {} } → Began operation s s'

theorem beginMessage_spec [Bzip2] (operation : SocketOperation) :
    wp (beginMessage operation) (fun _ s' => Began operation s s') (fun _ _ => False) s := by
  simp only [beginMessage, wp_bind, wp_get]
  split
  · exact .idle (.of_eq rfl) fun h => ⟨h, rfl⟩
  · next hguard =>
    rw [not_or, Bool.not_eq_false, not_le] at hguard
    obtain ⟨hmeets, hstate⟩ := hguard
    rw [wp_handle, wp_bind]
    refine wp_mono (messageWrite_writes operation) (fun writeOp s₁ h => ?_) fun ex s₁ h => ?_
    · exact .reading writeOp s₁ h.1 hstate hmeets h.2.1 h.2.2 rfl
    · rw [wp_bind, setStateWith_closed, wp_modify, wp_modify]
      have hle := closed_le_closeWith ex s₁
      have hrest := Calm.rest_closeWith ex s₁
      obtain ⟨room, written, writeStream, handed, rfl, -⟩ := h
      refine .idle (.of_closing ?_ (le_trans (by decide) hle) (hstate.le.trans hle) ?_) fun h => ?_
      · simp only [Calm.rest, Prod.mk.injEq] at hrest ⊢
        exact ⟨trivial, hrest.2⟩
      · exact isSome_closeWith ex (ne_of_lt hstate)
      · exact absurd hstate (not_lt_of_ge h)

theorem Began.based (hs : Based s) (h : Began operation s s') : Based s' := by
  cases h with
  | idle h =>
    have hidle : Based { s with phase := .idle } :=
      .of_not_reading rfl (fun hle => { hs.early hle with }) hs.exception
    exact hidle.calm h (.inl rfl)
  | reading writeOp s₁ h hclosed hmeets hread hnone heq =>
    obtain ⟨room, written, writeStream, handed, rfl, hkeep⟩ := h
    subst heq
    refine ⟨fun hle => ?_, hs.exception, fun _ => hclosed, fun h => ?_, fun h hle => ?_⟩
    · have hearly := hs.early hle
      exact { hearly with upcall := rfl, connecting := fun hinc => hkeep (hearly.connecting hinc) }
    · cases h
      exact hread
    · cases h
      refine ⟨(hs.early hle).covers hmeets, fun hinc => ?_⟩
      rw [hnone ((hs.early hle).connecting hinc)]
      rfl

/-! ## The rest of `message` -/

/-- What `message` has done to a validated connection that it was called for with the given
    operations. -/
structure Processed (operation : SocketOperation) (s s' : ConnectionI ρ) : Prop where
  incoming : s'.incoming = s.incoming
  maxDispatches : s'.maxDispatches = s.maxDispatches
  requestsAnswered : s'.requestsAnswered = s.requestsAnswered
  counts : s'.dispatchCount - s.dispatchCount = s'.requestsReceived - s.requestsReceived
  exception : (.closing ≤ s.state → s.exception.isSome) → .closing ≤ s'.state → s'.exception.isSome
  outcome : .closing ≤ s'.state ∧ s.state ≤ s'.state ∨
    s'.state = s.state ∧
      ((operation.read = false ∨ s'.registered.read = true) ∧
          s'.dispatchCount = s.dispatchCount ∧
          (operation.read = false → s'.registered.read = s.registered.read) ∨
        operation.read = true ∧ s'.registered.read = (resumeOp s').read)

/-- How `message` ends: the connection is being opened, or it has processed a message. -/
inductive Ended (operation : SocketOperation) (s s' : ConnectionI ρ) : Prop
  | opening : s.state ≤ .notValidated → Opening s s' → Ended operation s s'
  | processed : .notValidated < s.state → Processed operation s s' → Ended operation s s'

theorem Reads.early (h : Reads s s') (hs : Early s) : Early s' := by
  obtain ⟨unread, readStream, readSize, readHeader, rfl, hsame⟩ := h
  refine { hs with accepting := fun hinc => ?_ }
  obtain ⟨hsize, hheader⟩ := hs.accepting hinc
  obtain ⟨h1, h2⟩ := hsame hheader
  exact ⟨h1.trans hsize, h2⟩

/-- Bytes that were read before do not matter. -/
theorem Processed.of_reads (h : Reads s s₁) (hp : Processed operation s₁ s') :
    Processed operation s s' := by
  obtain ⟨unread, readStream, readSize, readHeader, rfl, -⟩ := h
  exact { hp with }

theorem Opening.of_reads (h : Reads s s₁) (hp : Opening s₁ s') : Opening s s' := by
  obtain ⟨unread, readStream, readSize, readHeader, rfl, -⟩ := h
  exact { hp with }

theorem Ended.idle (h : Ended operation s s') : Ended operation s { s' with phase := .idle } := by
  cases h with
  | opening hstate h =>
    refine .opening hstate { h with outcome := ?_ }
    exact h.outcome.imp_left fun h => ⟨h.1, { h.2 with }⟩
  | processed hstate h => exact .processed hstate { h with }

theorem Ended.startUpcall (h : Ended operation s s') : Ended operation s (startUpcall s') := by
  unfold Connection.startUpcall
  split
  · exact h
  · next hcount =>
    cases h with
    | opening hstate h =>
      refine .opening hstate { h with outcome := ?_ }
      refine h.outcome.imp_left fun hwaits => absurd ?_ hcount
      rw [hwaits.2.upcall]
      rfl
    | processed hstate h => exact .processed hstate { h with }

theorem Ended.failed (h : Reads s s₁) (hclosed : s.state < .closed) (ex : LocalException) :
    Ended operation s (closeWith ex s₁) := by
  have hle := closed_le_closeWith ex s₁
  have hrest := Calm.rest_closeWith ex s₁
  obtain ⟨unread, readStream, readSize, readHeader, rfl, -⟩ := h
  by_cases hstate : s.state ≤ .notValidated
  · refine .opening hstate (Opening.failed ?_ ?_ ex)
    · rfl
    · exact hstate
  · refine .processed (lt_of_not_ge hstate) ?_
    simp only [Calm.rest, Prod.mk.injEq] at hrest
    obtain ⟨-, h2, h3, h4, h5, h6⟩ := hrest
    refine ⟨h2, h3, h6, by rw [h4, h5]; omega, fun _ _ => ?_, .inl ⟨?_, hclosed.le.trans hle⟩⟩
    · exact isSome_closeWith ex (ne_of_lt hclosed)
    · exact le_trans (by decide) hle

theorem Ended.based (hs : Based s) (hphase : s'.phase = .idle) (h : Ended operation s s') :
    Based s' := by
  have hreading : s'.isReading = false := by rw [isReading, hphase]
  cases h with
  | opening hle h => exact h.based hreading
  | processed hvalidated h =>
    refine .of_not_reading hreading (fun hle => absurd hvalidated (not_lt_of_ge ?_))
      (h.exception hs.exception)
    rcases h.outcome with ⟨-, hge⟩ | ⟨heq, -⟩
    · exact hge.trans hle
    · exact heq.ge.trans hle

/-- A message was parsed: requests are received for dispatch, or the flow is not concerned. -/
def Parses (s s' : ConnectionI ρ) : Prop :=
  Calm s s' ∨ s.state < .closing ∧
    ∃ requestCount requestId index, s' = receiveRequests requestCount requestId index s

/-- The flow behind the parsing of a message and what `sendNextMessages` does. -/
theorem Parses.counts (h : Parses (takeMessage s) s₁) (h₂ : Calm s₁ s₂) :
    (s₂.incoming = s.incoming ∧ s₂.maxDispatches = s.maxDispatches ∧
      s₂.requestsAnswered = s.requestsAnswered ∧
      s₂.dispatchCount - s.dispatchCount = s₂.requestsReceived - s.requestsReceived ∧
      ((.closing ≤ s.state → s.exception.isSome) → .closing ≤ s₂.state → s₂.exception.isSome)) ∧
      s.state ≤ s₁.state ∧ (s₁.state = s.state ∨ .closing ≤ s₁.state) := by
  rcases h with h | ⟨-, n, requestId, index, rfl⟩
  · have h12 : Calm (takeMessage s) s₂ := h.trans h₂
    refine ⟨⟨h12.incoming, h12.maxDispatches, h12.requestsAnswered, ?_, h12.exception⟩, h.le, ?_⟩
    · rw [h12.dispatchCount, h12.requestsReceived]
      simp [takeMessage]
    · exact h.state.imp (·.1) (·.1)
  · refine ⟨⟨h₂.incoming, h₂.maxDispatches, h₂.requestsAnswered, ?_, h₂.exception⟩,
      le_rfl, .inl rfl⟩
    rw [h₂.dispatchCount, h₂.requestsReceived]
    simp only [receiveRequests, takeMessage]
    omega

variable [Bzip2]

/-- Behind `setState` with a closing state the connection is closing. -/
theorem setState_closing {state : State} (hclosing : .closing ≤ state ∧ state ≠ .finished) :
    wp (setState state) (fun _ s' => .closing ≤ s'.state) (fun _ _ => False) s := by
  simp only [setState, wp_bind, wp_get]
  split
  · rw [wp_bind, wp_modify, wp_bind, wp_get]
    have htarget : .closing ≤ (switchState (s.state.target state) s).state :=
      (closing_target hclosing).1
    split
    · next h =>
      rw [wp_handle]
      refine wp_mono (keeps_initiateShutdown (R := Calm) h.1 h.2)
        (fun _ s₁ h₁ => ?_) fun ex s₁ h₁ => ?_
      all_goals exact htarget.trans h₁.le
    · exact htarget
  · next hcan =>
    rw [wp_pure]
    revert hcan hclosing
    cases state <;> cases s.state <;> decide

theorem setStateWith_closing {state : State} (hclosing : .closing ≤ state ∧ state ≠ .finished)
    (ex : LocalException) :
    wp (setStateWith state ex) (fun _ s' => .closing ≤ s'.state) (fun _ _ => False) s := by
  simp only [setStateWith, wp_bind, wp_get]
  split
  · next h => exact hclosing.1.trans_eq h.symm
  · rw [wp_bind, wp_modify]
    exact setState_closing hclosing

/-- `Calm`, for a validated connection. -/
def CalmOpen (s s' : ConnectionI ρ) : Prop := .notValidated < s.state → Calm s s'

instance : Frame (CalmOpen (ρ := ρ)) :=
  have calm : Frame (Calm (ρ := ρ)) := inferInstance
  { quiet := fun h h' _ => calm.quiet h h'
    trans := fun h h' hs => (h hs).trans (h' (lt_of_lt_of_le hs (h hs).le))
    except := fun s ex _ => calm.except s ex
    replace := fun h _ => calm.replace h
    close := fun h h' h'' _ => calm.close h h' h''
    shutdown := fun h h' _ => calm.shutdown h h'
    waits := fun h _ => calm.waits h
    queued := fun h h' _ => calm.queued h h'
    sent := fun h h' h'' hr _ => calm.sent h h' h'' hr
    started := fun h h' h'' hr _ => calm.started h h' h'' hr
    failed := fun ex h h' h'' hr _ => calm.failed ex h h' h'' hr }

variable (answers : Answers ρ)

theorem calm_sendNextMessages : Keeps CalmOpen (sendNextMessages answers) s := by
  refine .get_bind ?_
  cases hqueue : s.sendStreams with
  | nil => exact .pure _
  | cons m rest =>
    refine .ite (fun _ => ?_) fun _ => .orClose ?_ fun _ => .pure _
    · exact .bind (.modify fun hs => .of_validated hs rfl) fun _ _ => .pure _
    · rw [Keeps, wp_bind, wp_modify]
      refine Keeps.after (fun hs => .of_validated hs rfl)
        (keeps_sendQueued ?_ ?_ ?_ rest rfl rfl)
      · intro s m rest wire _ _ _ _ hs
        exact .of_validated hs rfl
      · intro s m rest wire n _ _ _ _ _ hs
        exact .of_validated hs rfl
      · intro s m rest wire n ex _ _ _ _ _ hs
        have h : Calm s (s.transmit wire n) := .of_validated hs rfl
        exact h.trans (.closeWith ex _)

/-- While the connection is not closing, `sendNextMessages` does not ask for reads. -/
theorem sendQueued_op (queue : List (OutgoingMessage ρ)) :
    wp (sendQueued answers queue) (fun op s' => s'.state < .closing → op.read = false)
      (fun _ _ => True) s := by
  induction queue generalizing s with
  | nil =>
    simp only [sendQueued, wp_bind, wp_get]
    split
    · rw [wp_bind]
      refine wp_mono (setState_closing (by decide)) (fun _ s' h => ?_) fun _ _ _ => trivial
      exact fun hlt => absurd h (not_le_of_gt hlt)
    · exact fun _ => rfl
  | cons m rest ih =>
    simp only [sendQueued, wp_bind, wp_get]
    split
    · exact fun _ => rfl
    · rw [wp_bind]
      refine wp_ofExcept.mpr ⟨fun wire _ => ?_, fun _ _ => trivial⟩
      rw [wp_bind]
      refine write_transmits (fun buf n => ?_) fun _ _ => trivial
      split
      · exact ih
      · exact fun _ => rfl

theorem sendNextMessages_op :
    wp (sendNextMessages answers) (fun op s' => s'.state < .closing → op.read = false)
      (fun _ _ => False) s := by
  simp only [sendNextMessages, wp_bind, wp_get]
  split
  · exact fun _ => rfl
  · split
    · exact fun _ => rfl
    · rw [wp_handle, wp_bind, wp_modify]
      refine wp_mono (sendQueued_op answers _) (fun _ _ h => h) fun ex s' _ => ?_
      rw [wp_bind, setStateWith_closed, wp_modify]
      exact fun _ => rfl

theorem receiveCloseConnection_closing :
    wp receiveCloseConnection (fun _ s' => .closing ≤ s'.state) (fun _ _ => False) s := by
  refine wp_seq (setStateWith_closing (by decide) _) fun _ s₁ h => ?_
  rw [wp_bind, wp_get]
  split
  · exact h
  · rw [wp_bind]
    exact setState_closing (by decide)

theorem calm_receiveReply (hvalidated : .notValidated < s.state) (answers : Answers ρ)
    (requestId : Int) (result : List UInt8) :
    Keeps Calm (receiveReply answers requestId result) s := by
  refine .get_bind ?_
  cases s.findReply requestId with
  | none => exact .pure _
  | some e =>
    refine .bind (.modify (.of_validated hvalidated rfl)) fun _ _ => ?_
    exact keeps_closeIfRequested

theorem parseBody_parses (hvalidated : .notValidated < s.state) (answers : Answers ρ) (index : Nat)
    (stream : List UInt8) : wp (parseBody answers index stream)
      (fun op s' => Parses s s' ∧ (op ≠ none → .closing ≤ s'.state))
      (fun ex s' => Calm s (closeWith ex s')) s := by
  have hsame : Parses s s := .inl (.of_eq rfl)
  refine wp_parseBody (fun ex => .closeWith ex s) ⟨hsame, fun h => absurd rfl h⟩ ?_
    (fun requestCount requestId hstate => ?_) fun requestId result _ => ?_
  · exact wp_mono (wp_and keeps_receiveCloseConnection receiveCloseConnection_closing)
      (fun _ _ h => ⟨.inl h.1, fun _ => h.2⟩) fun _ _ h => h.1
  · exact ⟨.inr ⟨hstate, _, _, _, rfl⟩, fun h => absurd rfl h⟩
  · exact wp_post (calm_receiveReply hvalidated answers _ _)
      fun _ _ h => ⟨.inl h, fun h => absurd rfl h⟩

theorem parseMessage_parses (hvalidated : .notValidated < s.state) (answers : Answers ρ) :
    wp (parseMessage answers)
      (fun op s' => Parses (takeMessage s) s' ∧ (s'.state < .closing → op = resumeOp s'))
      (fun _ _ => False) s := by
  simp only [parseMessage, wp_bind, wp_get, wp_modify, wp_handle]
  have hvalidated' : .notValidated < (takeMessage s).state := hvalidated
  refine wp_mono (parseBody_parses hvalidated' answers _ _) (fun op s' h => ⟨h.1, fun hlt => ?_⟩)
    fun ex s' h => ?_
  · cases op with
    | none => rfl
    | some op => exact absurd (h.2 (by simp)) (not_le_of_gt hlt)
  · rw [setStateWith_closed, wp_modify]
    exact ⟨.inl h, fun _ => rfl⟩

theorem process_end {newOp readOp : SocketOperation} (hvalidated : .notValidated < s₁.state)
    (hle : s.state ≤ s₁.state)
    (hdone : ∀ s₂ op, Calm s₁ s₂ → (s₂.state < .closing → op.read = (newOp.read || readOp.read)) →
      Processed operation s (s₂.update operation op)) : wp (do
      let writeOp ← ifReady (minus operation newOp).write (sendNextMessages answers)
      let s ← get
      if s.state < .closed then
        modify (update operation (union newOp (union readOp writeOp)))
      else pure ())
      (fun _ s' => Processed operation s s')
      (fun ex s' => Processed operation s (closeWith ex s')) s₁ := by
  have hwrite : wp (ifReady (minus operation newOp).write (sendNextMessages answers))
      (fun writeOp s₂ => Calm s₁ s₂ ∧ (s₂.state < .closing → writeOp.read = false))
        (fun _ _ => False) s₁ := by
    cases (minus operation newOp).write with
    | false => exact ⟨.of_eq rfl, fun _ => rfl⟩
    | true =>
      exact wp_mono (wp_and (calm_sendNextMessages answers) (sendNextMessages_op answers))
        (fun _ _ h => ⟨h.1 hvalidated, h.2⟩) fun _ _ h => h.2
  rw [wp_bind]
  refine wp_mono hwrite (fun writeOp s₂ h => ?_) fun _ _ h => h.elim
  have hupdate := hdone s₂ (union newOp (union readOp writeOp)) h.1 fun hlt => by
    simp [union, h.2 hlt]
  rw [wp_bind, wp_get]
  split
  · exact hupdate
  · next hclosed =>
    refine { hupdate with outcome := .inl ⟨?_, hle.trans h.1.le⟩ }
    exact le_trans (by decide) (not_lt.mp hclosed)

theorem process_processed {newOp : SocketOperation} (hvalidated : .notValidated < s.state)
    (hnew : newOp.read = true → operation.read = true) (answers : Answers ρ) :
    wp (process answers operation newOp) (fun _ s' => Processed operation s s')
      (fun ex s' => Processed operation s (closeWith ex s')) s := by
  rw [process, wp_bind]
  cases hready : (minus operation newOp).read with
  | true =>
    simp only [minus, Bool.and_eq_true, Bool.not_eq_true'] at hready
    refine wp_mono (parseMessage_parses hvalidated answers) (fun readOp s₁ h => ?_)
      fun _ _ h => h.elim
    obtain ⟨hparses, hop⟩ := h
    have hcounts {s₂ : ConnectionI ρ} (h₂ : Calm s₁ s₂) := hparses.counts h₂
    have hself := hcounts (.of_eq rfl)
    refine process_end answers (lt_of_lt_of_le hvalidated hself.2.1) hself.2.1 fun s₂ op h₂ hop2 =>
      ?_
    obtain ⟨⟨h1, h2, h3, h4, h5⟩, hle, hstate1⟩ := hcounts h₂
    refine ⟨h1, h2, h3, h4, h5, ?_⟩
    by_cases hclosing : .closing ≤ s₂.state
    · exact .inl ⟨hclosing, hle.trans h₂.le⟩
    · -- a connection that does not close asks for what `parseMessage` has returned
      have hlt := lt_of_not_ge hclosing
      have hlt1 : s₁.state < .closing := lt_of_le_of_lt h₂.le hlt
      have hstate2 := (h₂.state.resolve_right fun h => hclosing h.1).1
      refine .inr ⟨hstate2.trans (hstate1.resolve_right (not_le_of_gt hlt1)), .inr ⟨hready.1, ?_⟩⟩
      have hresume : resumeOp (s₂.update operation op) = resumeOp s₁ := by
        simp only [resumeOp, update, hstate2, h₂.maxDispatches, h₂.dispatchCount]
      rw [hresume, ← hop hlt1]
      simp [update, union, minus, hready, hop2 hlt]
  | false =>
    refine process_end answers hvalidated le_rfl fun s₂ op h₂ hop2 => ?_
    refine { h₂ with counts := ?_, outcome := ?_ }
    · rw [show (s₂.update operation op).dispatchCount = s₂.dispatchCount from rfl, h₂.dispatchCount,
        show (s₂.update operation op).requestsReceived = s₂.requestsReceived from rfl,
        h₂.requestsReceived]
      omega
    · rcases h₂.state with ⟨hstate2, hregistered, -⟩ | ⟨hclosing, hle⟩
      · by_cases hclosing : .closing ≤ s₂.state
        · exact .inl ⟨hclosing, h₂.le⟩
        · have hop := hop2 (lt_of_not_ge hclosing)
          refine .inr ⟨hstate2, .inl ?_⟩
          cases hread : operation.read with
          | false =>
            have hnone : newOp.read = false := by
              by_contra hne
              rw [hnew (Bool.eq_true_of_not_eq_false hne)] at hread
              cases hread
            refine ⟨.inl rfl, h₂.dispatchCount, fun _ => ?_⟩
            simp [update, union, minus, hread, hop, hnone, SocketOperation.none, hregistered]
          | true =>
            have hsome : newOp.read = true := by simpa [minus, hread] using hready
            refine ⟨.inr ?_, h₂.dispatchCount, fun hf => by cases hf⟩
            simp [update, union, hop, hsome]
      · exact .inl ⟨hclosing, hle⟩

theorem establishOrProcess_ended {answers : Answers ρ} {readOp writeOp : SocketOperation}
    (hbased : Based s) (hphase : s.phase = .reading operation writeOp) (hreads : Reads s s₁)
    (hread : readOp.read = true → operation.read = true) (hwrite : readOp.write = false)
    (hnone : s.readSize = 0 → s.readHeader = false → readOp = .none) :
    wp (establishOrProcess answers operation (union readOp writeOp))
      (fun _ s' => Ended operation s s') (fun ex s' => Ended operation s (closeWith ex s')) s₁ := by
  obtain ⟨hstate1, hregistered1⟩ : s₁.state = s.state ∧ s₁.registered = s.registered := by
    obtain ⟨_, _, _, _, rfl, -⟩ := hreads
    exact ⟨rfl, rfl⟩
  rw [establishOrProcess, wp_bind, wp_get]
  split
  · next hle =>
    have hstate : s.state ≤ .notValidated := hstate1 ▸ hle
    obtain ⟨hcovers, hconnecting⟩ := hbased.opening hphase hstate
    have hearly := hbased.early hstate
    -- the accepting side has nothing to read, the connecting side nothing to write
    have hsingle : ((union readOp writeOp).read && (union readOp writeOp).write) = false := by
      cases hincoming : s.incoming with
      | true =>
        obtain ⟨hsize, hheader⟩ := hearly.accepting hincoming
        simp [union, hnone hsize hheader, SocketOperation.none, hbased.writeOp hphase]
      | false => simp [union, hwrite, hconnecting hincoming]
    refine wp_mono (establish_spec (hreads.early hearly) hle
      (by rwa [Covers, hregistered1]) hsingle) (fun _ s' h => ?_) fun ex s' h => ?_
    all_goals exact .opening hstate (.of_reads hreads h)
  · next hle =>
    have hstate : .notValidated < s.state := hstate1 ▸ lt_of_not_ge hle
    have hnew : (union readOp writeOp).read = true → operation.read = true := by
      simpa [union, hbased.writeOp hphase] using hread
    refine wp_mono (process_processed (lt_of_not_ge hle) hnew answers) (fun _ s' h => ?_)
      fun ex s' h => ?_
    all_goals exact .processed hstate (.of_reads hreads h)

theorem endMessage_ended {answers : Answers ρ} {writeOp : SocketOperation} (hbased : Based s)
    (hphase : s.phase = .reading operation writeOp) : wp (endMessage answers operation writeOp)
      (fun _ s' => s'.phase = .idle ∧ Ended operation s s') (fun _ _ => False) s := by
  have hread : wp (ifReady operation.read messageRead)
      (fun readOp s₁ => Reads s s₁ ∧ (readOp.read = true → operation.read = true) ∧
        readOp.write = false ∧ (s.readSize = 0 → s.readHeader = false → readOp = .none))
      (fun ex s₁ => Ended operation s (closeWith ex s₁)) s := by
    unfold ifReady
    split
    · next hop =>
      refine wp_mono messageRead_reads (fun readOp s₁ h => ?_) fun ex s₁ h => ?_
      · obtain ⟨hreads, hreadOp, hnone⟩ := h
        refine ⟨hreads, fun _ => hop, ?_, hnone⟩
        rcases hreadOp with rfl | rfl <;> rfl
      · exact .failed h (hbased.notClosed hphase) ex
    · exact ⟨⟨_, _, _, _, rfl, fun h => ⟨rfl, h⟩⟩, nofun, rfl, fun _ _ => rfl⟩
  refine wp_endMessage (Q := fun s' => s'.phase = .idle ∧ Ended operation s s')
    (wp_mono hread (fun readOp s₁ h => ?_) fun ex s₁ h => ⟨rfl, h.idle⟩)
  obtain ⟨hreads, hop, hwrite, hnone⟩ := h
  exact wp_mono (establishOrProcess_ended hbased hphase hreads hop hwrite hnone)
    (fun _ s' h => ⟨rfl, h.startUpcall.idle⟩) fun ex s' h => ⟨rfl, h.idle⟩

/-! ## Responses -/

/-- A message cannot be sent: it cannot be compressed, or the transport fails. -/
def Transceiver.Fails (t : Transceiver) : Except LocalException (List UInt8) → Prop
  | .error _ => True
  | .ok wire => t.room < wire.length ∧ t.writeFailure ≠ none

instance (t : Transceiver) (wire : Except LocalException (List UInt8)) : Decidable (t.Fails wire) :=
  match wire with
  | .error _ => .isTrue trivial
  | .ok _ => inferInstanceAs (Decidable (_ ∧ _))

/-- The response of a dispatch is sent at once, and that fails. -/
def ResponseFails (d : Dispatch) (result : Payload) (compress : Bool) (s : ConnectionI ρ) : Prop :=
  d.requestId ≠ 0 ∧ s.sendStreams = [] ∧
    s.transceiver.Fails ((Message.reply d.requestId result).wire compress)

instance (d : Dispatch) (result : Payload) (compress : Bool) (s : ConnectionI ρ) :
    Decidable (ResponseFails d result compress s) :=
  inferInstanceAs (Decidable (_ ∧ _ ∧ _))

/-- What the response to a dispatch does. -/
structure Answered (d : Dispatch) (result : Payload) (compress : Bool) (s s' : ConnectionI ρ) :
    Prop where
  phase : s'.phase = s.phase
  incoming : s'.incoming = s.incoming
  maxDispatches : s'.maxDispatches = s.maxDispatches
  requestsReceived : s'.requestsReceived = s.requestsReceived
  requestsAnswered : s'.requestsAnswered = s.requestsAnswered + 1
  exception : (.closing ≤ s.state → s.exception.isSome) → .closing ≤ s'.state → s'.exception.isSome
  frozen : Frozen s s'
  le : s.state ≤ s'.state
  outcome : .closed ≤ s.state ∨ ResponseFails d result compress s ∧ .closing ≤ s'.state ∨
    s'.dispatchCount = s.dispatchCount - 1 ∧ (.closing ≤ s'.state ∨
      s'.state = s.state ∧ s'.registered.read = (dispatchDone s).registered.read)

/-- The state in which `sendResponse` runs for the dispatch at position `j`. -/
def answering (j : Nat) (s : ConnectionI ρ) : ConnectionI ρ :=
  { s with
    dispatching := s.dispatching.eraseIdx j
    requestsAnswered := s.requestsAnswered + 1
    upcallCount := s.upcallCount - 1 }

variable {result : Payload} {compress : Bool}

/-- The response was given to `sendMessage`, or there is none. -/
theorem Answered.of_sent {d : Dispatch} {j : Nat} (hclosed : s.state < .closed)
    (h : Calm (answering j s) s₂) (hstate : s₂.state = s.state) (h' : Calm (dispatchDone s₂) s') :
    Answered d result compress s s' := by
  have hclosed' : Frozen s s' := fun hge => absurd hclosed (not_lt_of_ge hge)
  have hle : s.state ≤ s'.state := hstate.ge.trans h'.le
  refine ⟨h'.phase.trans h.phase, h'.incoming.trans h.incoming,
    h'.maxDispatches.trans h.maxDispatches, h'.requestsReceived.trans h.requestsReceived,
    h'.requestsAnswered.trans h.requestsAnswered, fun hs => h'.exception (h.exception hs), hclosed',
    hle, .inr (.inr ⟨?_, ?_⟩)⟩
  · have hcount : s₂.dispatchCount = s.dispatchCount := h.dispatchCount
    rw [h'.dispatchCount]
    simp only [dispatchDone, hcount]
  · rcases h'.state with ⟨hstate', hregistered, -⟩ | ⟨hclosing, -⟩
    · by_cases hclosing : .closing ≤ s'.state
      · exact .inl hclosing
      · refine .inr ⟨hstate'.trans hstate, hregistered.trans ?_⟩
        have hreg2 : s₂.registered.read = s.registered.read := by
          rcases h.state with ⟨-, hreg, -⟩ | ⟨hge, -⟩
          · exact hreg
          · exact absurd (hge.trans h'.le) hclosing
        have hmax : s₂.maxDispatches = s.maxDispatches := h.maxDispatches
        have hcount : s₂.dispatchCount = s.dispatchCount := h.dispatchCount
        simp only [dispatchDone, hstate, hmax, hcount]
        split
        · simp [union, hreg2]
        · exact hreg2
    · exact .inl hclosing

/-- The end of `respond`: the last response shuts the connection down. -/
theorem respond_end {d : Dispatch} {j : Nat} (hclosed : s.state < .closed)
    (h : Calm (answering j s) s₂) (hstate : s₂.state = s.state) : wp (do
      modify dispatchDone
      let s ← get
      runIf (s.state = .closing ∧ s.upcallCount = 0) initiateShutdown : M ρ Unit)
      (fun _ s' => Answered d result compress s s')
      (fun ex s' => Answered d result compress s (closeWith ex s')) s₂ := by
  rw [wp_bind, wp_modify, wp_bind, wp_get, wp_runIf]
  constructor
  · intro hshut
    exact wp_mono (keeps_initiateShutdown (R := Calm) hshut.1 hshut.2)
      (fun _ _ h' => .of_sent hclosed h hstate h') fun _ _ h' => .of_sent hclosed h hstate h'
  · intro _
    exact .of_sent hclosed h hstate (.of_eq rfl)

theorem Answered.of_failed {d : Dispatch} {j : Nat} (hclosed : s.state < .closed)
    (h : Calm (answering j s) s₂) (hfails : ResponseFails d result compress s)
    (ex : LocalException) :
    Answered d result compress s (closeWith ex s₂) := by
  have h' : Calm (answering j s) (closeWith ex s₂) := h.trans (.closeWith ex s₂)
  refine ⟨h'.phase, h'.incoming, h'.maxDispatches, h'.requestsReceived, h'.requestsAnswered,
    h'.exception, fun hge => absurd hclosed (not_lt_of_ge hge), h'.le, .inr (.inl ⟨hfails, ?_⟩)⟩
  exact le_trans (by decide) (closed_le_closeWith ex s₂)

theorem sendResponse_answered {j : Nat} {d : Dispatch} (hvalidated : .notValidated < s.state)
    (hd : s.dispatching[j]? = some d) :
    wp (sendResponse j result compress) (fun _ s' => Answered d result compress s s')
      (fun _ _ => False) s := by
  rw [sendResponse, wp_bind, wp_get, hd]
  simp only [wp_bind, wp_modify, wp_handle, setStateWith_closed]
  rw [respond, wp_bind, wp_modify, wp_bind, wp_get]
  change wp _ _ _ (answering j s)
  split
  · next hge => exact ⟨rfl, rfl, rfl, rfl, rfl, id, fun h => ⟨h, rfl⟩, le_rfl, .inl hge⟩
  · next hge =>
    have hclosed : s.state < .closed := lt_of_not_ge hge
    have hvalidated' : .notValidated < (answering j s).state := hvalidated
    rw [wp_bind, wp_runIf]
    constructor
    · intro hid
      refine wp_map.mpr (wp_sendMessage (fun _ => ?_) (fun ex hempty herror => ?_)
        (fun wire _ _ _ => ?_) (fun wire _ _ _ _ => ?_)
        fun wire ex hempty hwire hroom hfailure => ?_)
      · exact respond_end hclosed (.of_validated hvalidated' rfl) rfl
      · refine .of_failed hclosed (.of_eq rfl) ⟨hid, hempty, ?_⟩ ex
        rw [show (Message.reply d.requestId result).wire compress = _ from herror]
        trivial
      · exact respond_end hclosed (.of_validated hvalidated' rfl) rfl
      · refine respond_end hclosed (.of_validated hvalidated' (congrArg (·, _) ?_)) rfl
        simp [startSending, union, minus, SocketOperation.writeOp, SocketOperation.none]
      · have hcalm : Calm (answering j s)
            ((answering j s).transmit wire (answering j s).transceiver.room) :=
          .of_validated hvalidated' rfl
        refine .of_failed hclosed hcalm ⟨hid, hempty, ?_⟩ ex
        rw [show (Message.reply d.requestId result).wire compress = _ from hwire]
        exact ⟨hroom, by rw [show s.transceiver.writeFailure = _ from hfailure]; simp⟩
    · intro _
      exact respond_end hclosed (.of_eq rfl) rfl

theorem calm_sendAsyncRequest (hvalidated : .notValidated < s.state) (r : OutgoingRequest ρ) :
    wp (sendAsyncRequest r) (fun _ s' => Calm s s') (fun _ _ => True) s := by
  have hregister {s₁ : ConnectionI ρ} {m : OutgoingMessage ρ} (h : Calm s s₁) :
      Calm s (if r.response then register m r.out s₁ else s₁) := by
    split
    · exact h.trans (.of_eq rfl)
    · exact h
  refine wp_sendAsyncRequest (fun _ => .refl s) fun _ => ?_
  refine wp_sendMessage (fun _ => ?_) (fun ex _ _ _ => ?_) (fun wire _ _ _ => ?_)
    (fun wire _ _ _ _ => ?_) fun wire ex _ _ _ _ _ => ?_
  · exact hregister (.of_validated hvalidated rfl)
  · have hsame : Calm s (cancelInactivityTimerTask
        { s with nextRequestId := (r.ids s).2 }) := .of_eq rfl
    exact hsame.trans (.closeWith ex _)
  · exact hregister (.of_validated hvalidated rfl)
  · refine hregister (.of_validated hvalidated (congrArg (·, _) ?_))
    simp [startSending, union, minus, SocketOperation.writeOp, SocketOperation.none,
      cancelInactivityTimerTask]
  · have hsame : Calm s (transmit wire s.transceiver.room
        (cancelInactivityTimerTask { s with nextRequestId := (r.ids s).2 })) :=
      .of_eq rfl
    exact hsame.trans (.closeWith ex _)

end

/-! ## Every event -/

variable [Bzip2] [DecidableEq ρ]

/-- What an event can do to the flow of messages. -/
inductive Shift : Event ρ → ConnectionI ρ → ConnectionI ρ → Prop
  | calm {e : Event ρ} {s s' : ConnectionI ρ} : Calm s s' →
    s.isReading = false ∨ s'.state = s.state → Shift e s s'
  | network {bytes room readFailure writeFailure initializeResult} {s : ConnectionI ρ} :
    SingleOperation initializeResult →
    Shift (.network bytes room readFailure writeFailure initializeResult) s
      (arrive bytes room readFailure writeFailure initializeResult s)
  | startAsync {callbacks} {s s' : ConnectionI ρ} : s.isReading = false →
    s.state ≤ .notValidated → Opening s s' → s'.phase = s.phase →
    Shift (.startAsync callbacks) s s'
  | activate {s : ConnectionI ρ} : s.isReading = false → s.state = .holding →
    Shift .activate s (switchState .active s)
  | hold {s : ConnectionI ρ} : s.isReading = false → s.state = .active →
    Shift .hold s (switchState .holding s)
  | select {operation} {s : ConnectionI ρ} : s.phase = .idle → Selectable s.registered operation →
    Shift (.select operation) s { s with phase := .selected operation }
  | beginMessage {operation} {s s' : ConnectionI ρ} : s.phase = .selected operation →
    Began operation s s' → Shift .beginMessage s s'
  | endMessage {answers operation writeOp} {s s' : ConnectionI ρ} :
    s.phase = .reading operation writeOp → s'.phase = .idle → Ended operation s s' →
    Shift (.endMessage answers) s s'
  | sendResponse {j d result compress} {s s' : ConnectionI ρ} : s.isReading = false →
    s.dispatching[j]? = some d → Answered d result compress s s' →
    Shift (.sendResponse j result compress) s s'
  | finish {s : ConnectionI ρ} : s.isReading = false → s.state = .closed →
    Shift .finish s (switchState .finished (completeAll s))

theorem calm_asyncRequestCanceled (hbased : Based s) (out : ρ) (ex : LocalException) :
    wp (asyncRequestCanceled out ex) (fun _ s' => Calm s s') (fun _ _ => True) s := by
  rw [asyncRequestCanceled, wp_bind, wp_get]
  split
  · exact .refl s
  · have hclose {s₁ : ConnectionI ρ} (h : Calm s s₁) :
        wp closeIfRequested (fun _ s' => Calm s s') (fun _ _ => True) s₁ :=
      wp_mono (keeps_closeIfRequested (R := Calm)) (fun _ _ h' => h.trans h') fun _ _ _ => trivial
    cases hlocate : locate out s with
    | queued i requestId =>
      obtain ⟨m, hm, -, -⟩ := locate_queued hlocate
      have hvalidated : .notValidated < s.state :=
        hbased.validated (.inr (.inr (List.ne_nil_of_mem (List.mem_of_getElem? hm))))
      have hforget : Calm s (forgetQueued out requestId s) := by
        unfold forgetQueued
        split
        · exact .refl s
        · exact .of_validated hvalidated rfl
      have hvalidated' := lt_of_lt_of_le hvalidated hforget.le
      simp only [cancelQueued, wp_bind, wp_modify]
      refine abortOr_spec (hclose (hforget.trans (.closeWith ex _))) fun _ => hclose ?_
      exact hforget.trans (.of_validated hvalidated' rfl)
    | hinted requestId =>
      simp only [cancelHinted, wp_bind]
      refine abortOr_spec (hclose (.closeWith ex s)) fun _ => hclose ?_
      exact .of_eq rfl
    | found requestId =>
      refine abortOr_spec (.closeWith ex s) fun _ => ?_
      exact .of_eq rfl
    | absent => exact .refl s

/-- Every event does one of the things that `Shift` lists. -/
theorem shift_of_event {e : Event ρ} (hbased : Based s) (henabled : Enabled s e) :
    Shift e s (e.after s) := by
  have upcall {i : Nat} (h : 0 < s.requestsOf i) : .notValidated < s.state := by
    refine hbased.validated (.inl fun hnil => ?_)
    simp [requestsOf, hnil] at h
  have calm {e : Event ρ} {E : LocalException → ConnectionI ρ → Prop}
      (hreading : s.isReading = false)
      (h : wp (e.program s) (fun _ s' => Calm s s') E s) : Shift e s (e.after s) :=
    .calm (after_of_wp h) (.inl hreading)
  have stays {e : Event ρ} : Shift e s s := .calm (.refl s) (.inr rfl)
  cases e with
  | network bytes room rf wf init => exact .network henabled
  | startAsync callbacks =>
    obtain ⟨hreading, hstate, hregistered⟩ := henabled
    have hle : s.state ≤ .notValidated := hstate.trans_le (by decide)
    have h := after_of_wp (e := .startAsync callbacks)
      (startAsync_spec (hbased.early hle) hstate hregistered)
    exact .startAsync hreading hle h.1 h.2
  | activate =>
    refine after_of_wp (e := .activate) (P := Shift .activate s) (E := fun _ _ => True) ?_
    simp only [Event.program, activate, wp_bind, wp_get]
    split
    · exact stays
    · next hvalidated =>
      refine wp_setState_open (by decide) (fun hcan => .activate henabled ?_) fun _ => stays
      revert hcan hvalidated
      cases s.state <;> decide
  | hold =>
    refine after_of_wp (e := .hold) (P := Shift .hold s) (E := fun _ _ => True) ?_
    simp only [Event.program, hold, wp_bind, wp_get]
    split
    · exact stays
    · next hvalidated =>
      refine wp_setState_open (by decide) (fun hcan => .hold henabled ?_) fun _ => stays
      revert hcan hvalidated
      cases s.state <;> decide
  | destroy | abort | idleCheck | connectTimedOut | sendHeartbeat =>
    exact .calm (keeps_isOwn trivial) (.inl henabled)
  | inactivityCheck | closeTimedOut => exact .calm (keeps_isOwn trivial) (.inl henabled.1)
  | close =>
    refine calm (E := fun _ _ => True) henabled ?_
    simp only [Event.program, close, wp_bind, wp_get]
    split
    · exact .refl s
    · split
      · exact wp_mono (keeps_setStateWith (R := Calm) (by decide) _)
          (fun _ _ h => h) fun _ _ _ => trivial
      · exact .of_eq rfl
  | sendAsyncRequest r =>
    exact calm henabled.1 (wp_map.mpr (calm_sendAsyncRequest henabled.2 r))
  | asyncRequestCanceled out ex => exact calm henabled (calm_asyncRequestCanceled hbased out ex)
  | select operation => exact .select henabled.1 henabled.2
  | beginMessage =>
    refine after_beginMessage (E := fun _ _ => False) henabled fun hphase => ?_
    exact wp_post (beginMessage_spec _) fun _ _ h => .beginMessage hphase h
  | endMessage answers =>
    refine after_endMessage (E := fun _ _ => False) henabled fun hphase => ?_
    exact wp_post (endMessage_ended hbased hphase) fun _ _ h => .endMessage hphase h.1 h.2
  | dispatch i =>
    have hvalidated := upcall henabled
    change Shift _ s (startDispatch i s)
    unfold startDispatch
    split
    · exact .calm (.of_validated hvalidated rfl) (.inr rfl)
    · exact stays
  | dispatchException i ex =>
    have hvalidated := upcall henabled.2
    refine calm henabled.1 (Keeps.get_bind ?_)
    cases s.upcalls[i]? with
    | none => exact .pure _
    | some u =>
      let s₁ := { s with upcalls := s.upcalls.set i { u with messageUpcall := .none } }
      let s₂ := closeWith ex s₁
      have h₁ : Calm s s₁ := .of_validated hvalidated rfl
      have h₂ : Calm s s₂ := h₁.trans (.closeWith ex s₁)
      have h₃ : Calm s₂ { s₂ with upcallCount := s₂.upcallCount - u.requests } :=
        .of_validated (hvalidated.trans_le h₂.le) rfl
      rw [Keeps, wp_bind, wp_modify, setStateWith_closed, wp_bind, wp_modify, wp_modify]
      exact h₂.trans h₃
  | upcallCompleted i =>
    obtain ⟨hreading, hlength, -⟩ := henabled
    have hvalidated := hbased.validated (.inl (List.ne_nil_of_length_pos (by omega)))
    refine calm hreading (Keeps.get_bind ?_)
    rw [List.getElem?_eq_getElem hlength, Keeps, wp_bind, wp_modify]
    refine Keeps.after (.of_validated hvalidated rfl) (.get_bind ?_)
    exact .ite (fun h => keeps_shutdownOrClose h.2.2 h.2.1) fun _ => .pure _
  | sendResponse j result compress =>
    obtain ⟨hreading, hlength⟩ := henabled
    have hvalidated := hbased.validated (.inr (.inl (List.ne_nil_of_length_pos (by omega))))
    have hd := List.getElem?_eq_getElem hlength
    exact .sendResponse hreading hd
      (after_of_wp (e := .sendResponse j result compress) (sendResponse_answered hvalidated hd))
  | finish =>
    rw [after_finish henabled.2]
    exact .finish henabled.1 henabled.2

/-! ## The states that are reached -/

omit [DecidableEq ρ] in
theorem based_of_shift {e : Event ρ} (hs : Based s) (h : Shift e s s') : Based s' := by
  cases h with
  | calm h hsame => exact hs.calm h hsame
  | network hinit =>
    exact { hs with early := fun hle => { hs.early hle with initializeResult := hinit } }
  | startAsync hreading hle h hphase =>
    refine h.based ?_
    rw [isReading, hphase]
    exact hreading
  | activate hreading hstate =>
    exact .of_not_reading hreading (fun hle : State.active ≤ _ => absurd hle (by decide))
      fun hge : _ ≤ State.active => absurd hge (by decide)
  | hold hreading hstate =>
    exact .of_not_reading hreading (fun hle : State.holding ≤ _ => absurd hle (by decide))
      fun hge : _ ≤ State.holding => absurd hge (by decide)
  | select hidle hselectable =>
    exact .of_not_reading rfl (fun hle => { hs.early hle with }) hs.exception
  | beginMessage hphase h => exact h.based hs
  | endMessage hphase hidle h => exact h.based hs hidle
  | sendResponse hreading hd h =>
    have hvalidated := hs.validated (.inr (.inl (List.ne_nil_of_mem (List.mem_of_getElem? hd))))
    refine .of_not_reading ?_ (fun hle => absurd (hvalidated.trans_le h.le) (not_lt_of_ge hle))
      (h.exception hs.exception)
    rw [isReading, h.phase]
    exact hreading
  | finish hreading hstate =>
    have hex := hs.exception (hstate.ge.trans' (by decide))
    exact .of_not_reading hreading (fun hle : State.finished ≤ _ => absurd hle (by decide)) fun _ =>
      hex

/-- A property of a new connection that every shift keeps holds in every reachable state. -/
theorem Reachable.induct_shift {allowed : ConnectionI ρ → Event ρ → Prop}
    {I : ConnectionI ρ → Prop} (init : ∀ o, I (.create o))
    (step : ∀ {s e}, Based s → Enabled s e → allowed s e → Shift e s (e.after s) → I s →
      I (e.after s)) (h : Reachable allowed s) : Based s ∧ I s := by
  refine h.induct (I := fun s => Based s ∧ I s) (fun o => ⟨based_create o, init o⟩) ?_
  intro s e henabled hok hs
  have hshift := shift_of_event hs.1 henabled
  exact ⟨based_of_shift hs.1 hshift, step hs.1 henabled hok hshift hs.2⟩

end Ice.Connection
