import Ice.Connection.Proceeds
import Ice.Connection.Shift

/-!
# What an event can do to the outstanding requests

Each event of a connection accepts a request, completes one with the reply that it has received,
cancels one, requests the close, finishes the connection, or leaves the requests alone.
-/

namespace Ice.Connection

open Ice.WebSocket (Buffer SocketOperation)

variable {ρ : Type}

/-- The connection was asked to close and has nothing left to wait for. -/
def CloseDue (s : ConnectionI ρ) : Prop :=
  s.closeRequested = true ∧ s.state < .closing ∧ s.asyncRequests = []

theorem Proceeds.not_closeDue {s s' : ConnectionI ρ} (h : Proceeds s s') (hs : ¬ CloseDue s) :
    ¬ CloseDue s' := by
  rintro ⟨hreq, hstate, hempty⟩
  refine hs ⟨h.closeRequested ▸ hreq, ?_, h.asyncRequests ▸ hempty⟩
  by_contra hge
  exact absurd (h.state .closing le_rfl (le_of_not_gt hge)) (not_le_of_gt hstate)

/-- `sendAsyncRequest` has accepted a request. -/
structure Accepted (r : OutgoingRequest ρ) (s s' : ConnectionI ρ) : Prop where
  exception : s.exception = none
  asyncRequests : s'.asyncRequests =
    if r.response then insertRequest (r.ids s).1 r.out s.asyncRequests else s.asyncRequests
  hint : s'.asyncRequestsHint = if r.response then some (r.ids s).1 else s.asyncRequestsHint
  nextRequestId : s'.nextRequestId = (r.ids s).2
  accepted : s'.accepted = if r.response then s.accepted ++ [(r.out, (r.ids s).1)] else s.accepted
  closeRequested : s'.closeRequested = s.closeRequested
  state : s'.state = s.state
  exception' : s'.exception = s.exception
  /-- its message is in the queue, or has been sent -/
  queue : s'.sendStreams = s.sendStreams ++ [r.outgoing (r.ids s).1] ∧ s'.calls = s.calls ∨
    s'.sendStreams = s.sendStreams ∧ s'.calls = s.calls ++ [.sent r.out]

variable [Bzip2]

/-- The request ID of the reply that `message` is about to complete, if it is. -/
def ConnectionI.completesReply (s : ConnectionI ρ) : Option Int :=
  match s.phase with
  | .reading operation _ =>
    if operation.read then
      match messageRead s with
      | .ok op s' => if op = .none then replyId s'.messageSizeMax s'.readStream.b else none
      | .error _ _ => none
    else none
  | _ => none

theorem reads_of_completesReply {s : ConnectionI ρ} {requestId : Int}
    (h : s.completesReply = some requestId) :
    ∃ operation writeOp s', s.phase = .reading operation writeOp ∧ operation.read = true ∧
      messageRead s = .ok .none s' := by
  unfold ConnectionI.completesReply at h
  split at h
  · next operation writeOp hphase =>
    split at h
    · next hread =>
      split at h
      · next op s' hmessage =>
        split at h
        · next hop =>
          subst hop
          exact ⟨operation, writeOp, s', hphase, hread, hmessage⟩
        · cases h
      · cases h
    · cases h
  · cases h

/-- From `s` to `s'` a reply to the request with the given ID was delivered to the invocation that
    the element `e` of the map points at. -/
def Delivered (answers : Answers ρ) (requestId : Int) (e : Int × ρ) (s s' : ConnectionI ρ) : Prop :=
  ∃ result, s.findReply requestId = some e ∧ Proceeds (deliver answers requestId e result s) s' ∧
    ¬ CloseDue s'

/-- `message` has delivered a reply. -/
structure Replied (answers : Answers ρ) (s s' : ConnectionI ρ) (requestId : Int) (e : Int × ρ) :
    Prop where
  completes : s.completesReply = some requestId
  delivered : ∃ s₁, Proceeds s s₁ ∧ Delivered answers requestId e s₁ s'

variable [DecidableEq ρ]

/-- What an event can do to the requests. -/
inductive Change : Event ρ → ConnectionI ρ → ConnectionI ρ → Prop
  | proceeds {e s s'} : Proceeds s s' → Change e s s'
  | closeRequested {s s'} : s.state < .closing → s.asyncRequests ≠ [] →
    Proceeds { s with closeRequested := true } s' → Change .close s s'
  | accepted {r s s'} : Accepted r s s' → Change (.sendAsyncRequest r) s s'
  | rejected {r s s'} : Proceeds { s with nextRequestId := (r.ids s).2 } s' →
    .closed ≤ s'.state → Change (.sendAsyncRequest r) s s'
  | replied {answers s s' requestId e} : Replied answers s s' requestId e →
    Change (.endMessage answers) s s'
  | canceledQueued {out ex} {s s' : ConnectionI ρ} {i : Nat} {m : OutgoingMessage ρ} :
    s.state < .closed → s.sendStreams[i]? = some m → m.outAsync = some out →
    Proceeds
      ((unqueue i (forgetQueued out m.requestId s)).call (.exception out m.requestId ex)) s' →
    ¬ CloseDue s' → Change (.asyncRequestCanceled out ex) s s'
  | abortedQueued {out ex} {s s' : ConnectionI ρ} {i : Nat} {m : OutgoingMessage ρ} :
    s.state < .closed → s.sendStreams[i]? = some m → m.outAsync = some out →
    Proceeds (forgetQueued out m.requestId s) s' → .closed ≤ s'.state →
    s'.sendStreams = s.sendStreams → Change (.asyncRequestCanceled out ex) s s'
  | canceledHinted {out ex s s' requestId} : s.state < .closed →
    (∀ m ∈ s.sendStreams, m.outAsync ≠ some out) → s.hintFor out = some requestId →
    Proceeds (forgetHinted requestId (s.call (.exception out requestId ex))) s' → ¬ CloseDue s' →
    Change (.asyncRequestCanceled out ex) s s'
  | canceledFound {out ex s requestId} : s.state < .closed → ex.isConnectionAborted = false →
    locate out s = .found requestId →
    Change (.asyncRequestCanceled out ex) s
    (forgetFound requestId (s.call (.exception out requestId ex)))
  | finished {s} : s.state = .closed → Change .finish s (switchState .finished (completeAll s))

variable {s : ConnectionI ρ}

section Closing

omit [DecidableEq ρ]

omit [Bzip2] in
theorem not_closeDue_of_closing (h : .closing ≤ s.state) : ¬ CloseDue s := by
  rintro ⟨-, hlt, -⟩
  exact absurd h (not_le_of_gt hlt)

theorem closeIfRequested_spec :
    wp closeIfRequested (fun _ s' => Proceeds s s' ∧ ¬ CloseDue s') (fun _ _ => False) s := by
  simp only [closeIfRequested, wp_bind, wp_get]
  split
  · next h =>
    exact wp_mono (wp_and (keeps_setStateWith (R := Proceeds) (by decide) (.connectionClosed true))
      (setStateWith_closing (by decide) (.connectionClosed true)))
      (fun _ s' h' => ⟨h'.1, not_closeDue_of_closing h'.2⟩) fun _ _ h' => h'.2
  · next h => exact ⟨.of_eq rfl, h⟩

end Closing

section Messages

omit [DecidableEq ρ]

/-- A program has delivered the reply in the stream, or nothing. -/
def Parsed (answers : Answers ρ) (stream : List UInt8) (s s' : ConnectionI ρ) : Prop :=
  Proceeds s s' ∨ ∃ requestId e, replyId s.messageSizeMax stream = some requestId ∧
    Delivered answers requestId e s s'

omit [Bzip2] in
theorem Delivered.trans {answers : Answers ρ} {requestId : Int} {e : Int × ρ}
    {s s' s'' : ConnectionI ρ} (h : Delivered answers requestId e s s') (h' : Proceeds s' s'') :
    Delivered answers requestId e s s'' := by
  obtain ⟨result, hfind, hproceeds, hdue⟩ := h
  exact ⟨result, hfind, hproceeds.trans h', h'.not_closeDue hdue⟩

theorem receiveReply_spec (answers : Answers ρ) (requestId : Int) (result : List UInt8) :
    wp (receiveReply answers requestId result)
      (fun _ s' => Proceeds s s' ∨ ∃ e, Delivered answers requestId e s s')
      (fun _ _ => False) s := by
  simp only [receiveReply, wp_bind, wp_get]
  cases hfind : s.findReply requestId with
  | none => exact .inl (.of_eq rfl)
  | some e =>
    exact wp_post closeIfRequested_spec fun _ s' h => .inr ⟨e, result, hfind, h⟩

theorem parseBody_spec (answers : Answers ρ) (index : Nat) (stream : List UInt8) :
    wp (parseBody answers index stream) (fun _ s' => Parsed answers stream s s')
      (fun ex s' => Proceeds s (closeWith ex s')) s := by
  have hsame : Proceeds s s := .of_eq rfl
  refine wp_parseBody (fun ex => .closeWith ex s) (.inl hsame) ?_
    (fun requestCount requestId hstate => .inl (.of_eq rfl))
    fun requestId result hreply => ?_
  · exact wp_post keeps_receiveCloseConnection fun _ _ h => .inl h
  · exact wp_mono (receiveReply_spec answers requestId result)
      (fun _ s' h => h.imp_right fun ⟨e, he⟩ => ⟨requestId, e, hreply, he⟩) fun _ _ h => h.elim

theorem parseMessage_spec (answers : Answers ρ) :
    wp (parseMessage answers) (fun _ s' => Parsed answers s.readStream.b (takeMessage s) s')
      (fun _ _ => False) s := by
  simp only [parseMessage, wp_bind, wp_get, wp_modify, wp_handle]
  refine wp_mono (parseBody_spec answers _ _) (fun _ _ h => h) fun ex s' h => ?_
  rw [setStateWith_closed, wp_modify]
  exact .inl h

/-- The state behind `message` or a part of it. -/
def Outcome (answers : Answers ρ) (s s' : ConnectionI ρ) : Prop :=
  Proceeds s s' ∨ ∃ requestId e, Replied answers s s' requestId e

variable {answers : Answers ρ}

theorem Outcome.trans {s s' s'' : ConnectionI ρ} (h : Outcome answers s s') (h' : Proceeds s' s'') :
    Outcome answers s s'' := by
  rcases h with h | ⟨requestId, e, hreceives, s₁, h1, hdelivered⟩
  · exact .inl (h.trans h')
  · exact .inr ⟨requestId, e, hreceives, s₁, h1, hdelivered.trans h'⟩

/-- A program that proceeds goes on from an outcome to an outcome. -/
theorem Outcome.after {α : Type} {s s' : ConnectionI ρ} {x : M ρ α} (h : Outcome answers s s')
    (hx : Keeps Proceeds x s') :
    wp x (fun _ s'' => Outcome answers s s'') (fun ex s'' => Outcome answers s (closeWith ex s''))
      s' :=
  wp_mono hx (fun _ _ h' => h.trans h') fun _ _ h' => h.trans h'

variable {operation : SocketOperation}

/-- What the read of `message` has left behind is parsed. -/
theorem Outcome.of_parsed {s s₁ s' : ConnectionI ρ} {writeOp : SocketOperation}
    (hphase : s.phase = .reading operation writeOp) (hread : operation.read = true)
    (hmessage : messageRead s = .ok .none s₁) (h1 : Proceeds s s₁)
    (h : Parsed answers s₁.readStream.b (takeMessage s₁) s') : Outcome answers s s' := by
  have htake : Proceeds s (takeMessage s₁) := h1.trans (.of_eq rfl)
  rcases h with h | ⟨requestId, e, hreply, hdelivered⟩
  · exact .inl (htake.trans h)
  · have hcompletes : s.completesReply = some requestId := by
      simp only [ConnectionI.completesReply, hphase, hread, hmessage, if_true]
      exact hreply
    exact .inr ⟨requestId, e, hcompletes, takeMessage s₁, htake, hdelivered⟩

/-- `process` parses a message that has been read completely, and proceeds. -/
theorem process_spec {newOp : SocketOperation} {s0 : ConnectionI ρ} (hproceeds : Proceeds s0 s)
    (hparsed : operation.read = true → newOp.read = false → ∀ s',
      Parsed answers s.readStream.b (takeMessage s) s' → Outcome answers s0 s') :
    wp (process answers operation newOp) (fun _ s' => Outcome answers s0 s')
      (fun ex s' => Outcome answers s0 (closeWith ex s')) s := by
  have goOn {readOp : SocketOperation} {s' : ConnectionI ρ} (h : Outcome answers s0 s') :
      wp (do
        let writeOp ← ifReady (minus operation newOp).write (sendNextMessages answers)
        let s ← get
        if s.state < .closed then
          modify (ConnectionI.update operation (union newOp (union readOp writeOp)))
        else pure ()) (fun _ s' => Outcome answers s0 s')
        (fun ex s' => Outcome answers s0 (closeWith ex s')) s' := by
    refine h.after (.bind (.ite (fun _ => proceeds_sendNextMessages answers) fun _ => .pure _) ?_)
    intro writeOp s2
    exact .get_bind (.ite (fun _ => proceeds_modify rfl) fun _ => .pure _)
  rw [process, wp_bind, ifReady]
  by_cases hready : (minus operation newOp).read = true
  · simp only [hready, if_true]
    simp only [minus, Bool.and_eq_true, Bool.not_eq_true'] at hready
    refine wp_mono (parseMessage_spec answers) (fun readOp s' h => ?_) fun _ _ h => h.elim
    exact goOn (hparsed hready.1 hready.2 s' h)
  · simp only [hready]
    exact goOn (.inl hproceeds)

theorem endMessage_spec {writeOp : SocketOperation}
    (hphase : s.phase = .reading operation writeOp) :
    wp (endMessage answers operation writeOp) (fun _ s' => Outcome answers s s')
      (fun _ _ => False) s := by
  have hstart (s' : ConnectionI ρ) : Proceeds s' (startUpcall s') := by
    unfold startUpcall
    split <;> exact .of_eq rfl
  have hidle {s' : ConnectionI ρ} (h : Outcome answers s s') :
      Outcome answers s { s' with phase := .idle } := h.trans (.of_eq rfl)
  -- the rest of `message`, once `messageRead` has returned
  have hrest {readOp : SocketOperation} {s₁ : ConnectionI ρ} (h1 : Proceeds s s₁)
      (hread : operation.read = true → readOp.read = false → messageRead s = .ok .none s₁) :
      wp (establishOrProcess answers operation (union readOp writeOp))
        (fun _ s' => Outcome answers s { startUpcall s' with phase := .idle })
        (fun ex s' => Outcome answers s { closeWith ex s' with phase := .idle }) s₁ := by
    refine wp_mono (Q := fun _ s' => Outcome answers s s')
      (E := fun ex s' => Outcome answers s (closeWith ex s')) ?_
      (fun _ s' h => hidle (h.trans (hstart s'))) fun ex s' h => hidle h
    rw [establishOrProcess, wp_bind, wp_get]
    split
    · exact Outcome.after (.inl h1) (keeps_establish operation _)
    · refine process_spec h1 fun hop hnew s' hp => ?_
      have hreadOp : readOp.read = false := by
        simp only [union, Bool.or_eq_false_iff] at hnew
        exact hnew.1
      exact .of_parsed hphase hop (hread hop hreadOp) h1 hp
  refine wp_endMessage (Q := Outcome answers s) ?_
  cases hop : operation.read with
  | false => exact hrest (.of_eq rfl) (by simp [hop])
  | true =>
    refine wp_mono (wp_and (wp_run messageRead s) (wp_and keeps_messageRead messageRead_reads))
      (fun readOp s₁ h => ?_) fun ex s₁ h => hidle (.inl h.2.1)
    obtain ⟨hrun, h1, -, hop', -⟩ := h
    refine hrest h1 fun _ hnone => ?_
    rcases hop' with rfl | rfl
    · exact hrun
    · cases hnone

end Messages

section Sending

omit [DecidableEq ρ]

/-- The states that `sendAsyncRequest` can leave behind. -/
def SendOutcome (r : OutgoingRequest ρ) (s s' : ConnectionI ρ) : Prop :=
  Proceeds s s' ∨ Accepted r s s' ∨
    Proceeds { s with nextRequestId := (r.ids s).2 } s' ∧ .closed ≤ s'.state

omit [Bzip2] in
/-- The message was queued, or sent, and a request that expects a response is registered. -/
theorem accepted_of_sent {r : OutgoingRequest ρ} {s s₁ : ConnectionI ρ}
    (hexception : s.exception = none)
    (hrest : Proceeds.rest s₁ = Proceeds.rest { s with nextRequestId := (r.ids s).2 })
    (hstate : s₁.state = s.state) (hexception' : s₁.exception = s.exception)
    (hqueue : s₁.sendStreams = s.sendStreams ++ [r.outgoing (r.ids s).1] ∧ s₁.calls = s.calls ∨
      s₁.sendStreams = s.sendStreams ∧ s₁.calls = s.calls ++ [.sent r.out]) :
    Accepted r s (if r.response then register (r.outgoing (r.ids s).1) r.out s₁ else s₁) := by
  simp only [Proceeds.rest, Prod.mk.injEq] at hrest
  obtain ⟨hreq, hhint, hnext, haccepted, hclose⟩ := hrest
  cases hresponse : r.response with
  | true =>
    refine ⟨hexception, ?_, ?_, hnext, ?_, hclose, hstate, hexception', hqueue⟩
    · simp [register, OutgoingRequest.outgoing, hreq, hresponse]
    · simp [register, OutgoingRequest.outgoing, hresponse]
    · simp [register, OutgoingRequest.outgoing, haccepted, hresponse, Message.requestId]
  | false =>
    refine ⟨hexception, ?_, ?_, hnext, ?_, hclose, hstate, hexception', hqueue⟩
    · simp [hreq, hresponse]
    · simp [hhint, hresponse]
    · simp [haccepted, hresponse]

theorem sendAsyncRequest_spec (r : OutgoingRequest ρ) :
    wp (sendAsyncRequest r) (fun _ s' => SendOutcome r s s') (fun _ _ => True) s := by
  have hclose (ex : LocalException) {s₁ : ConnectionI ρ}
      (h : Proceeds { s with nextRequestId := (r.ids s).2 } s₁) :
      SendOutcome r s (closeWith ex s₁) :=
    .inr (.inr ⟨h.trans (.closeWith ex s₁), closed_le_closeWith ex s₁⟩)
  refine wp_sendAsyncRequest (fun _ => .inl (.of_eq rfl)) fun hexception => ?_
  refine wp_sendMessage (fun _ => ?_) (fun ex _ _ _ => ?_) (fun wire _ _ _ => ?_)
    (fun wire hempty _ _ _ => ?_) fun wire ex _ _ _ _ _ => ?_
  · exact .inr (.inl (accepted_of_sent hexception rfl rfl rfl (.inl ⟨rfl, rfl⟩)))
  · exact hclose ex (.of_eq rfl)
  · exact .inr (.inl (accepted_of_sent hexception rfl rfl rfl (.inr ⟨rfl, rfl⟩)))
  · refine .inr (.inl (accepted_of_sent hexception rfl rfl rfl (.inl ⟨?_, rfl⟩)))
    simp only [ConnectionI.cancelInactivityTimerTask] at hempty
    simp [startSending, hempty]
  · exact hclose ex (.of_eq rfl)

end Sending

section Cancellation

omit [Bzip2] in
@[simp] theorem sendStreams_forgetQueued (out : ρ) (requestId : Int) :
    (forgetQueued out requestId s).sendStreams = s.sendStreams := by
  unfold forgetQueued
  split <;> rfl

omit [Bzip2] in
@[simp] theorem state_forgetQueued (out : ρ) (requestId : Int) :
    (forgetQueued out requestId s).state = s.state := by
  unfold forgetQueued
  split <;> rfl

theorem asyncRequestCanceled_spec (out : ρ) (ex : LocalException) : wp (asyncRequestCanceled out ex)
      (fun _ s' => Change (.asyncRequestCanceled out ex) s s') (fun _ _ => False) s := by
  rw [asyncRequestCanceled, wp_bind, wp_get]
  split
  · exact .proceeds (.of_eq rfl)
  · next hstate =>
    have hstate : s.state < .closed := lt_of_not_ge hstate
    cases hlocate : locate out s with
    | queued i requestId =>
      obtain ⟨m, hm, hout, rfl⟩ := locate_queued hlocate
      simp only [cancelQueued, wp_bind, wp_modify]
      refine abortOr_spec ?_ fun _ => ?_
      · refine wp_mono (wp_and closeIfRequested_spec (keeps_closeIfRequested (R := Frozen)))
          (fun _ s' h => ?_) fun _ _ h => h.1
        obtain ⟨⟨hproceeds, -⟩, hfrozen⟩ := h
        obtain ⟨hclosed, hqueue⟩ := hfrozen (closed_le_closeWith ex _)
        refine .abortedQueued hstate hm hout ((Proceeds.closeWith ex _).trans hproceeds) hclosed ?_
        rw [hqueue, sendStreams_closeWith, sendStreams_forgetQueued]
      · refine wp_post closeIfRequested_spec fun _ s' h => ?_
        exact .canceledQueued hstate hm hout h.1 h.2
    | hinted requestId =>
      obtain ⟨hqueue, hhint⟩ := locate_hinted hlocate
      simp only [cancelHinted, wp_bind]
      refine abortOr_spec ?_ fun _ => ?_
      · refine wp_post closeIfRequested_spec fun _ s' h => ?_
        exact .proceeds ((Proceeds.closeWith ex _).trans h.1)
      · refine wp_post closeIfRequested_spec fun _ s' h => ?_
        exact .canceledHinted hstate hqueue hhint h.1 h.2
    | found requestId =>
      exact abortOr_spec (.proceeds (.closeWith ex s)) fun hex => .canceledFound hstate hex hlocate
    | absent => exact .proceeds (.of_eq rfl)

end Cancellation

section Events

theorem close_spec : wp close (fun _ s' => Change (Event.close (ρ := ρ)) s s')
    (fun _ _ => True) s := by
  rw [close, wp_bind, wp_get]
  split
  · exact .proceeds (.of_eq rfl)
  · next hstate =>
    split
    · exact wp_mono (keeps_setStateWith (R := Proceeds) (by decide) _) (fun _ _ h => .proceeds h)
        fun _ _ _ => trivial
    · next hne => exact .closeRequested (lt_of_not_ge hstate) hne (.of_eq rfl)

/-- Every event does one of the things that `Change` lists. -/
theorem change_of_event {e : Event ρ} (hbased : Based s) (henabled : Enabled s e) :
    Change e s (e.after s) := by
  have proceeds {e : Event ρ} (h : Keeps Proceeds (e.program s) s) : Change e s (e.after s) :=
    .proceeds (after_of_wp h)
  cases e with
  | network | select => exact proceeds (proceeds_modify rfl)
  | startAsync callbacks => exact proceeds (keeps_startAsync callbacks)
  | activate => exact proceeds keeps_activate
  | hold => exact proceeds keeps_hold
  | destroy | abort | idleCheck | inactivityCheck | connectTimedOut | closeTimedOut
  | sendHeartbeat => exact .proceeds (keeps_isOwn trivial)
  | close => exact after_of_wp (e := .close) close_spec
  | sendAsyncRequest r =>
    have h : SendOutcome r s ((Event.sendAsyncRequest r).after s) := by
      refine after_of_wp (e := .sendAsyncRequest r) (E := fun _ _ => True) ?_
      exact wp_map.mpr (sendAsyncRequest_spec r)
    rcases h with h | h | ⟨h, hclosed⟩
    · exact .proceeds h
    · exact .accepted h
    · exact .rejected h hclosed
  | asyncRequestCanceled out ex =>
    exact after_of_wp (e := .asyncRequestCanceled out ex) (asyncRequestCanceled_spec out ex)
  | beginMessage =>
    exact .proceeds (after_beginMessage henabled fun _ => keeps_beginMessage _)
  | endMessage answers =>
    rcases after_endMessage henabled endMessage_spec with h | ⟨requestId, e, h⟩
    · exact .proceeds h
    · exact .replied h
  | dispatch i =>
    refine proceeds (.modify ?_)
    unfold startDispatch
    split <;> exact .of_eq rfl
  | dispatchException i ex =>
    refine proceeds (.get_bind ?_)
    cases s.upcalls[i]? with
    | none => exact .pure _
    | some u =>
      refine .bind (proceeds_modify rfl) fun _ _ => ?_
      exact .bind (keeps_setStateWith (by decide) _) fun _ _ => proceeds_modify rfl
  | upcallCompleted i =>
    refine proceeds (.get_bind ?_)
    cases s.upcalls[i]? with
    | none => exact .pure _
    | some u =>
      refine .bind (proceeds_modify rfl) fun _ s₁ => .get_bind ?_
      exact .ite (fun h => keeps_shutdownOrClose h.2.2 h.2.1) fun _ => .pure _
  | sendResponse j result compress =>
    obtain ⟨-, hlength⟩ := henabled
    have hvalidated := hbased.validated (.inr (.inl (List.ne_nil_of_length_pos (by omega))))
    refine proceeds (.get_bind ?_)
    rw [List.getElem?_eq_getElem hlength, Keeps, wp_bind, wp_modify]
    refine Keeps.after (.of_eq rfl) (.orCloses ?_)
    refine keeps_respond ?_ _ result compress (.of_eq rfl) fun _ =>
      .of_eq rfl
    exact hvalidated
  | finish =>
    rw [after_finish henabled.2]
    exact .finished henabled.2

/-- A property of a new connection that every change keeps holds in every reachable state. -/
theorem Reachable.induct_change {allowed : ConnectionI ρ → Event ρ → Prop}
    {I : ConnectionI ρ → Prop}
    (init : ∀ o, I (.create o)) (step : ∀ {s e s'}, allowed s e → Change e s s' → I s → I s')
    (h : Reachable allowed s) : I s :=
  (h.induct_shift init fun hbased henabled hok _ => step hok (change_of_event hbased henabled)).2

end Events

end Ice.Connection
