import Ice.Connection.Outstanding

/-!
# The inactivity timeout

`sendHeartbeat` schedules the inactivity timer task of a connection that is not used. Whatever makes
the connection busy cancels it: the task is never scheduled while an invocation or a dispatch is
outstanding.
-/

namespace Ice.Connection

open List ConnectionI Maintains

open Ice.WebSocket (Buffer SocketOperation)

variable {ρ : Type} {s s' : ConnectionI ρ}

/-- `x` keeps `P`, whether it returns or throws. -/
abbrev Steady {α : Type} (P : ConnectionI ρ → Prop) (x : M ρ α) : Prop := Maintains P (fun _ => P) x

/-! ## The invariant -/

/-- The requests that have been received and not answered, as the upcalls and servants hold them. -/
def ConnectionI.undone (s : ConnectionI ρ) : Int :=
  (s.upcalls.map fun u => (u.requests : Int)).sum + s.dispatching.length

/-- The timer task is scheduled only if that is allowed and nothing is outstanding; and until the
    connection is closed, `_dispatchCount` exceeds the number of the requests that are held by what
    is owed, given the phase of `message` and the requests that it has collected. -/
def Restful (allowed : Prop) (owed : Phase → Nat → Int → Prop) (s : ConnectionI ρ) : Prop :=
  (s.inactivityTimerTaskScheduled = true →
    allowed ∧ s.state < .closed ∧ s.dispatchCount = 0 ∧ s.asyncRequests = []) ∧
  (s.state < .closed → owed s.phase s.upcall.requests (s.dispatchCount - s.undone))

/-- Between events, the requests that are counted are held; `message` has not collected any yet. -/
def Settled (phase : Phase) (collected : Nat) (excess : Int) : Prop :=
  excess = 0 ∧ ∀ operation writeOp, phase = .reading operation writeOp → collected = 0

variable {allowed : Prop} {owed owed' : Phase → Nat → Int → Prop}

section

variable (h : Restful allowed owed s)
include h

theorem Restful.of_closed (hclosed : .closed ≤ s.state) : Restful allowed owed' s :=
  ⟨h.1, fun hopen => absurd hopen (not_lt_of_ge hclosed)⟩

theorem Restful.imp
    (himp : ∀ {phase collected excess}, owed phase collected excess →
      owed' phase collected excess) :
    Restful allowed owed' s :=
  ⟨h.1, fun hopen => himp (h.2 hopen)⟩

theorem Restful.switchState {state : State}
    (hcan : s.state.canSwitch state) : Restful allowed owed (switchState state s) := by
  constructor
  · intro hscheduled
    obtain ⟨hscheduled, hactive⟩ := Bool.and_eq_true_iff.mp hscheduled
    have hle : state ≤ .active := by simpa using hactive
    exact ⟨(h.1 hscheduled).1, lt_of_le_of_lt hle (by decide), (h.1 hscheduled).2.2⟩
  · intro hopen
    refine h.2 ?_
    change state < .closed at hopen
    revert hopen hcan
    cases s.state <;> cases state <;> decide

theorem Restful.closeWith (ex : LocalException) : Restful allowed owed' (closeWith ex s) := by
  have hkept : Restful allowed owed (Connection.closeWith ex s) := by
    unfold Connection.closeWith
    split
    · exact h
    · split
      · next hcan => exact Restful.switchState (s := s.except ex) h hcan
      · exact h
  exact hkept.of_closed (closed_le_closeWith ex s)

theorem Restful.of_sublist {asyncRequests : List (Int × ρ)}
    (hsub : asyncRequests.Sublist s.asyncRequests) :
    Restful allowed owed { s with asyncRequests := asyncRequests } := by
  refine ⟨fun hscheduled => ?_, h.2⟩
  obtain ⟨hallowed, hstate, hcount, hnone⟩ := h.1 hscheduled
  exact ⟨hallowed, hstate, hcount, sublist_nil.mp (hnone ▸ hsub)⟩

end

/-! ## Receiving requests and replies -/

/-- `message` has not collected any requests. -/
def Collecting (_ : Phase) (collected : Nat) (excess : Int) : Prop := collected = 0 ∧ excess = 0

/-- The requests that `message` has collected are counted. -/
def Collected (_ : Phase) (collected : Nat) (excess : Int) : Prop := excess = collected

theorem Restful.collected (h : Restful allowed Collecting s) : Restful allowed Collected s :=
  h.imp fun hc => by rw [Collected, hc.1, hc.2]; rfl

theorem Restful.receiveRequests (h : Restful allowed Collecting s) (requestCount : Nat)
    (requestId : Int) (index : Nat) :
    Restful allowed Collected (receiveRequests requestCount requestId index s) := by
  refine ⟨nofun, fun hopen => ?_⟩
  have hexcess : s.dispatchCount - s.undone = 0 := (h.2 hopen).2
  change s.dispatchCount + requestCount - s.undone = requestCount
  omega

theorem Restful.deliver (h : Restful allowed Collecting s) (answers : Answers ρ) (requestId : Int)
    (e : Int × ρ) (result : List UInt8) :
    Restful allowed Collected (deliver answers requestId e result s) := by
  have hsub : (eraseRequest e.1 s.asyncRequests).Sublist s.asyncRequests := eraseRequest_sublist
  obtain ⟨hidle, hcounts⟩ := h.of_sublist hsub
  refine ⟨hidle, fun hopen => ?_⟩
  obtain ⟨hcollected, hexcess⟩ := hcounts hopen
  have hnone : (Connection.deliver answers requestId e result s).upcall.requests = 0 := by
    cases hanswer : answers.response e.2 with
    | true => simp [Connection.deliver, hanswer, Upcall.requests]
    | false => simpa [Connection.deliver, hanswer] using hcollected
  rw [hnone]
  exact hexcess

theorem Restful.startUpcall (h : Restful allowed Collected s) :
    Restful allowed (fun _ _ excess => excess = 0) (startUpcall s) := by
  unfold Connection.startUpcall
  split
  · next hnone =>
    refine ⟨h.1, fun hopen => ?_⟩
    have hexcess : s.dispatchCount - s.undone = s.upcall.requests := h.2 hopen
    have hcount : s.upcall.completed + s.upcall.requests = 0 := hnone
    omega
  · refine ⟨h.1, fun hopen => ?_⟩
    have hexcess : s.dispatchCount - s.undone = s.upcall.requests := h.2 hopen
    simp only [undone, map_append, sum_append, map_cons, map_nil, sum_cons, sum_nil] at hexcess ⊢
    omega

/-! ## The programs -/

section Programs

theorem steady_write (buf : Buffer) : Steady (Restful allowed owed) (write (ρ := ρ) buf) :=
  .bind .get fun _ => .bind (.modify fun _ => id) fun _ =>
    .bind (.runIf (.throwSome _)) fun _ => .pure _

theorem steady_read : Steady (Restful allowed owed) (read (ρ := ρ)) :=
  .bind .get fun _ => .bind (.modify fun _ => id) fun _ => .runIf (.throwSome _)

theorem steady_validateIf (initialized : Bool) (operation : SocketOperation) :
    Steady (Restful allowed owed) (validateIf (ρ := ρ) initialized operation) := by
  refine .ite (.bind .get fun _ => .ite (.bind .get fun _ => ?_) ?_) (.pure _)
  · refine .bind (.modify fun _ => id) fun _ =>
      .bind (.ite (.pure _) (steady_write _)) fun buf => ?_
    refine .bind (.modify fun _ => id) fun _ =>
      .ite ?_ (.bind (.modify fun _ => id) fun _ => .pure _)
    exact .bind (.modify fun _ => id) fun _ => .bind (.modify fun _ => id) fun _ => .pure _
  · refine .bind (.modify fun _ => id) fun _ => .bind .get fun _ =>
      .bind (.runIf steady_read) fun _ => ?_
    refine .bind .get fun _ => .ite (.bind (.modify fun _ => id) fun _ => .pure _) ?_
    exact .bind (.ofExcept _) fun _ => .bind (.modify fun _ => id) fun _ =>
      .bind (.modify fun _ => id) fun _ => .pure _

theorem steady_messageRead : Steady (Restful allowed owed) (messageRead (ρ := ρ)) := by
  refine .bind steady_read fun _ => .bind .get fun s => .ite (.pure _) (.ite ?_ (.pure _))
  refine .bind (.modify fun _ => id) fun _ => .bind (.ofExcept _) fun _ =>
    .bind (.modify fun _ => id) fun _ => ?_
  refine .bind .get fun _ => .ite ?_ (.pure _)
  exact .bind steady_read fun _ => .bind .get fun _ => .pure _

theorem steady_messageWrite (operation : SocketOperation) :
    Steady (Restful allowed owed) (messageWrite (ρ := ρ) operation) := by
  refine .ite (.bind .get fun _ => .bind (steady_write _) fun _ => ?_) (.pure _)
  exact .bind (.modify fun _ => id) fun _ => .bind (.runIf (.modify fun _ => id)) fun _ => .pure _

variable [Bzip2]

theorem steady_sendMessage (m : OutgoingMessage ρ) :
    Steady (Restful allowed owed) (sendMessage m) := by
  refine .bind .get fun s => .ite (.bind (.modify fun _ => id) fun _ => .pure _) ?_
  refine .bind (.ofExcept _) fun wire => .bind (steady_write _) fun buf => .ite ?_ ?_
  · exact .bind (.modify fun _ => id) fun _ => .pure _
  · exact .bind (.modify fun _ => id) fun _ => .bind (.modify fun _ => id) fun _ => .pure _

theorem restful_initiateShutdown (h : Restful allowed owed s) (hstate : s.state = .closing) :
    wp initiateShutdown (fun _ => Restful allowed owed) (fun _ => Restful allowed owed) s := by
  simp only [initiateShutdown, wp_bind, wp_get]
  split
  · exact h
  · simp only [wp_bind, wp_modify]
    have hmarked : Restful allowed owed s.markShutdown.scheduleCloseTimerTask := h
    have hclosing : s.markShutdown.scheduleCloseTimerTask.state = .closing := hstate
    generalize s.markShutdown.scheduleCloseTimerTask = s1 at hmarked hclosing
    refine wp_sendMessage (fun _ => hmarked) (fun _ _ _ => hmarked) (fun wire _ _ _ => ?_)
      (fun _ _ _ _ _ => hmarked) fun _ _ _ _ _ _ => hmarked
    have hsent : Restful allowed owed
        (OutgoingMessage.sent { message := .closeConnection } (s1.transmit wire wire.length)) :=
          hmarked
    exact hsent.switchState (canSwitch_closingPending hclosing)

theorem steady_setState (state : State) :
    Steady (Restful allowed owed) (setState (ρ := ρ) state) := by
  intro s hs
  simp only [setState, wp_bind, wp_get]
  split
  · next hcan =>
    have hswitched := hs.switchState hcan
    rw [wp_bind, wp_modify, wp_bind, wp_get]
    split
    · next hclosing =>
      rw [wp_handle]
      exact wp_mono (restful_initiateShutdown hswitched hclosing.1) (fun _ _ h => h)
        fun ex _ h => h.closeWith ex
    · exact hswitched
  · exact hs

theorem steady_setStateWith (state : State) (ex : LocalException) :
    Steady (Restful allowed owed) (setStateWith (ρ := ρ) state ex) :=
  .bind .get fun _ => .ite (.pure _) (.bind (.modify fun _ => id) fun _ => steady_setState state)

theorem steady_closeIfRequested : Steady (Restful allowed owed) (closeIfRequested (ρ := ρ)) :=
  .bind .get fun _ => .ite (steady_setStateWith _ _) (.pure _)

theorem steady_orCloses {x : M ρ Unit} (hx : Steady (Restful allowed owed) x) :
    Steady (Restful allowed owed) (handle x fun ex => setStateWith .closed ex) :=
  .handle hx fun _ => steady_setStateWith _ _

theorem steady_initializeConnection (operation : SocketOperation) :
    Steady (Restful allowed owed) (initializeConnection (ρ := ρ) operation) :=
  .bind .get fun _ => .bind (.ofExcept _) fun _ =>
    .ite (.bind (.modify fun _ => id) fun _ => .pure _)
    (.bind (steady_setState _) fun _ => .pure _)

theorem steady_startAsync (callbacks : Bool) :
    Steady (Restful allowed owed) (startAsync (ρ := ρ) callbacks) :=
  steady_orCloses (.bind (steady_initializeConnection _) fun _ =>
    .bind (steady_validateIf _ _) fun _ =>
    .ite (steady_setState _) (.modify fun _ => id))

theorem steady_establish (operation newOp : SocketOperation) :
    Steady (Restful allowed owed) (establish (ρ := ρ) operation newOp) := by
  refine .ite (.modify fun _ => id) (.bind (.bind .get fun _ => .ite ?_ (.pure _)) fun _ => ?_)
  · exact steady_initializeConnection _
  · refine .bind (steady_validateIf _ _) fun _ => .ite ?_ (.pure _)
    exact .bind (.modify fun _ => id) fun _ => .bind (steady_setState _) fun _ =>
      .modify fun _ => id

theorem steady_sendQueued (answers : Answers ρ) (queue : List (OutgoingMessage ρ)) :
    Steady (Restful allowed owed) (sendQueued answers queue) := by
  induction queue with
  | nil => exact .bind .get fun _ => .ite (.bind (steady_setState _) fun _ => .pure _) (.pure _)
  | cons m rest ih =>
    refine .bind .get fun _ => .ite (.pure _) (.bind (.ofExcept _) fun _ => ?_)
    refine .bind (steady_write _) fun _ => .bind (.modify fun _ => id) fun _ => .ite ?_ (.pure _)
    exact .bind (.modify fun _ => id) fun _ => .bind (.modify fun _ => id) fun _ => ih

theorem steady_sendNextMessages (answers : Answers ρ) :
    Steady (Restful allowed owed) (sendNextMessages answers) := by
  refine .bind .get fun s => ?_
  cases s.sendStreams with
  | nil => exact .pure _
  | cons m rest =>
    refine .ite (.bind (.modify fun _ => id) fun _ => .pure _) (.handle ?_ fun _ => ?_)
    · exact .bind (.modify fun _ => id) fun _ => steady_sendQueued answers rest
    · exact .bind (steady_setStateWith _ _) fun _ => .pure _

theorem restful_parseMessage (h : Restful allowed Collecting s) (answers : Answers ρ) :
    wp (parseMessage answers) (fun _ => Restful allowed Collected)
      (fun _ => Restful allowed Collected) s := by
  have hparse (index : Nat) (stream : List UInt8) {s : ConnectionI ρ}
      (h : Restful allowed Collecting s) : wp (parseBody answers index stream)
        (fun _ => Restful allowed Collected) (fun _ => Restful allowed Collected) s := by
    refine wp_parseBody (fun _ => h.collected) h.collected ?_
      (fun requestCount requestId _ => h.receiveRequests _ _ _) fun requestId result _ => ?_
    · refine (bind (steady_setStateWith _ _) fun _ => .bind .get fun _ => ?_) s h.collected
      exact .ite (.bind (.modify fun _ => id) fun _ => .pure _)
        (.bind (steady_setState _) fun _ => .pure _)
    · simp only [receiveReply, wp_bind, wp_get]
      cases s.findReply requestId with
      | none => exact h.collected
      | some e => exact steady_closeIfRequested _ (h.deliver answers requestId e result)
  simp only [parseMessage, wp_bind, wp_get, wp_modify, wp_handle]
  refine wp_mono (hparse _ _ (s := takeMessage s) h) (fun _ _ h => h) fun ex s' h => ?_
  exact steady_setStateWith .closed ex s' h

theorem restful_establishOrProcess (h : Restful allowed Collecting s) (answers : Answers ρ)
    (operation newOp : SocketOperation) :
    wp (establishOrProcess answers operation newOp) (fun _ => Restful allowed Collected)
      (fun _ => Restful allowed Collected) s := by
  simp only [establishOrProcess, wp_bind, wp_get]
  split
  · exact wp_mono (steady_establish operation newOp s h) (fun _ _ h => h.collected)
      fun _ _ h => h.collected
  · have hparse : wp (ifReady (minus operation newOp).read (parseMessage answers))
        (fun _ => Restful allowed Collected) (fun _ => Restful allowed Collected) s := by
      unfold ifReady
      split
      · exact restful_parseMessage h answers
      · exact h.collected
    refine wp_seq hparse fun readOp s1 h1 => ?_
    refine bind (I := Restful allowed Collected) ?_ (fun _ => .bind .get fun _ => ?_) s1 h1
    · exact .ite (steady_sendNextMessages answers) (.pure _)
    · exact .ite (.modify fun _ => id) (.pure _)

/-- `message` behind the write: what it has collected goes to the upcall. -/
theorem restful_endMessage (h : Restful allowed Settled s) {operation writeOp : SocketOperation}
    (hphase : s.phase = .reading operation writeOp) (answers : Answers ρ)
    {E : LocalException → ConnectionI ρ → Prop} :
    wp (endMessage answers operation writeOp) (fun _ => Restful allowed Settled) E s := by
  have hstart : Restful allowed Collecting s :=
    ⟨h.1, fun hopen => ⟨(h.2 hopen).2 _ _ hphase, (h.2 hopen).1⟩⟩
  have hidle {s : ConnectionI ρ} (h : Restful allowed (fun _ _ excess => excess = 0) s) :
      Restful allowed Settled { s with phase := .idle } := ⟨h.1, fun hopen => ⟨h.2 hopen, nofun⟩⟩
  refine wp_endMessage (wp_mono ((ite steady_messageRead (.pure _)) s hstart)
    (fun readOp s1 h1 => ?_) fun ex _ h => hidle (h.closeWith ex))
  exact wp_mono (restful_establishOrProcess h1 answers _ _) (fun _ s2 h2 => hidle h2.startUpcall)
    fun ex _ h => hidle (h.closeWith ex)

/-! ## Upcalls and responses -/

omit [Bzip2] in
/-- The number of the requests that are held, with an upcall taken out. -/
theorem undone_eq {i : Nat} {u : Upcall ρ} (hu : s.upcalls[i]? = some u) :
    s.undone = u.requests + ((s.upcalls.eraseIdx i).map fun u => (u.requests : Int)).sum +
      s.dispatching.length := by
  obtain ⟨hi, rfl⟩ := List.getElem?_eq_some_iff.mp hu
  have hsum := ((getElem_cons_eraseIdx_perm hi).map fun u : Upcall ρ => (u.requests : Int)).sum_eq
  rw [map_cons, sum_cons] at hsum
  rw [undone, hsum]

omit [Bzip2] in
/-- A request goes from an upcall to its servant. -/
theorem undone_startDispatch (i : Nat) : (startDispatch i s).undone = s.undone := by
  unfold startDispatch
  split
  · next start sentCBs n requestId index hu =>
    obtain ⟨hi, -⟩ := List.getElem?_eq_some_iff.mp hu
    have hset := ((set_perm_cons_eraseIdx hi ⟨start, sentCBs, .dispatch n requestId index⟩).map
      fun u : Upcall ρ => (u.requests : Int)).sum_eq
    rw [undone_eq hu, undone, hset]
    simp only [map_cons, sum_cons, length_append, length_singleton, Upcall.requests]
    push_cast
    omega
  · rfl

omit [Bzip2] in
theorem Restful.startDispatch (h : Restful allowed owed s) (i : Nat) :
    Restful allowed owed (startDispatch i s) := by
  have hundone := undone_startDispatch (s := s) i
  unfold Connection.startDispatch at hundone ⊢
  split
  · next hu =>
    simp only [hu] at hundone
    refine ⟨h.1, fun hopen => ?_⟩
    rw [hundone]
    exact h.2 hopen
  · exact h

theorem restful_dispatchException (h : Restful allowed Settled s) (i : Nat) (ex : LocalException)
    {E : LocalException → ConnectionI ρ → Prop} :
    wp (dispatchException i ex) (fun _ => Restful allowed Settled) E s := by
  simp only [dispatchException, wp_bind, wp_get]
  cases s.upcalls[i]? with
  | none => exact h
  | some u =>
    -- the requests are dropped and the connection is closed
    simp only [wp_bind, wp_modify, setStateWith_closed]
    have hfree : Restful allowed (fun _ _ _ => True)
        { s with upcalls := s.upcalls.set i { u with messageUpcall := .none } } :=
      ⟨h.1, fun _ => trivial⟩
    have hclosed : Restful allowed Settled _ := hfree.closeWith ex
    exact hclosed

theorem restful_upcallCompleted (h : Restful allowed owed s) (i : Nat)
    (hnone : s.requestsOf i = 0) :
    wp (upcallCompleted i) (fun _ => Restful allowed owed) (fun _ => Restful allowed owed) s := by
  simp only [upcallCompleted, wp_bind, wp_get]
  cases hu : s.upcalls[i]? with
  | none => exact h
  | some u =>
    have hrequests : u.requests = 0 := by simpa [requestsOf, hu] using hnone
    have herased : Restful allowed owed
        { s with upcalls := s.upcalls.eraseIdx i, upcallCount := s.upcallCount - u.completed } := by
      refine ⟨h.1, fun hopen => ?_⟩
      have hundone := undone_eq hu
      rw [hrequests, Nat.cast_zero, zero_add] at hundone
      rw [undone, ← hundone]
      exact h.2 hopen
    simp only [wp_bind, wp_modify, wp_get]
    split
    · next hclosing =>
      rw [shutdownOrClose, wp_handle]
      refine wp_mono (restful_initiateShutdown herased hclosing.2.2) (fun _ _ h => h) ?_
      exact fun ex s' h => steady_setStateWith .closed ex s' h
    · exact herased

omit [Bzip2] in
theorem requests_nonneg (upcalls : List (Upcall ρ)) :
    ∀ n ∈ upcalls.map (fun u => (u.requests : Int)), 0 ≤ n := by
  intro n hn
  obtain ⟨u, -, rfl⟩ := mem_map.mp hn
  exact Int.natCast_nonneg _

omit [Bzip2] in
theorem Restful.dispatchDone
    (h : Restful allowed (fun phase collected excess => Settled phase collected (excess - 1)) s) :
    Restful allowed Settled (dispatchDone s) := by
  have hheld : 0 ≤ s.undone :=
    add_nonneg (sum_nonneg (requests_nonneg s.upcalls)) (Int.natCast_nonneg _)
  refine ⟨fun hscheduled => ?_, fun hopen => ?_⟩
  · -- a request that is counted keeps the task from being scheduled
    obtain ⟨-, hopen, hcount, -⟩ := h.1 hscheduled
    have hexcess := (h.2 hopen).1
    omega
  · obtain ⟨hexcess, hcollected⟩ := h.2 hopen
    refine ⟨?_, hcollected⟩
    change s.dispatchCount - 1 - s.undone = 0
    omega

/-- A response takes its request off the count. -/
theorem restful_sendResponse (h : Restful allowed Settled s) (j : Nat) (result : Payload)
    (compress : Bool) : wp (sendResponse j result compress) (fun _ => Restful allowed Settled)
      (fun _ => Restful allowed Settled) s := by
  simp only [sendResponse, wp_bind, wp_get]
  cases hd : s.dispatching[j]? with
  | none => exact h
  | some d =>
    obtain ⟨hj, -⟩ := List.getElem?_eq_some_iff.mp hd
    have herased :
        Restful allowed (fun phase collected excess => Settled phase collected (excess - 1))
        { s with
          dispatching := s.dispatching.eraseIdx j, requestsAnswered := s.requestsAnswered + 1
          upcallCount := s.upcallCount - 1 } := by
      refine ⟨h.1, fun hopen => ?_⟩
      obtain ⟨hexcess, hcollected⟩ := h.2 hopen
      refine ⟨?_, hcollected⟩
      simp only [undone, length_eraseIdx_of_lt hj] at hexcess ⊢
      omega
    have hclose {owed : Phase → Nat → Int → Prop} (ex : LocalException) (s : ConnectionI ρ)
        (h : Restful allowed owed s) : wp (setStateWith .closed ex)
          (fun _ => Restful allowed Settled) (fun _ => Restful allowed Settled) s := by
      rw [setStateWith_closed]
      exact h.closeWith ex
    simp only [respond, wp_bind, wp_modify, wp_get, wp_handle]
    split
    · next hclosed => exact herased.of_closed hclosed
    · rw [wp_bind]
      refine wp_mono ((Maintains.runIf (Maintains.map (steady_sendMessage _))) _ herased)
        (fun _ s1 h1 => ?_) hclose
      rw [wp_bind, wp_modify, wp_bind, wp_get, wp_runIf]
      refine ⟨fun hclosing => ?_, fun _ => h1.dispatchDone⟩
      exact wp_mono (restful_initiateShutdown h1.dispatchDone hclosing.1) (fun _ _ h => h) hclose

end Programs

/-! ## Runs -/

variable [Bzip2]

/-- The task is scheduled by a heartbeat of a connection that is not used. -/
theorem restful_sendHeartbeat (h : Restful True owed s) :
    wp sendHeartbeat (fun _ => Restful True owed) (fun _ => Restful True owed) s := by
  simp only [sendHeartbeat, wp_bind, wp_get]
  split
  · have hsend : Steady (Restful (ρ := ρ) True owed) (runIf (s.sendStreams = []) <|
        handle (discard (sendMessage { message := .validateConnection })) fun ex =>
          setStateWith .closed ex) :=
      .runIf (steady_orCloses (.map (steady_sendMessage _)))
    rw [wp_bind, wp_runIf]
    refine ⟨fun hinactive => ?_, fun _ => hsend s h⟩
    obtain ⟨-, -, hstate, hcount, hnone, -⟩ := hinactive
    refine hsend _ ⟨fun _ => ⟨trivial, ?_, hcount, hnone⟩, h.2⟩
    exact lt_of_eq_of_lt hstate (by decide)
  · exact h

/-- A request is registered after the task was canceled. -/
theorem restful_sendAsyncRequest (h : Restful True owed s) (r : OutgoingRequest ρ) :
    wp (sendAsyncRequest r) (fun _ => Restful True owed) (fun _ => Restful True owed) s := by
  have himp {s : ConnectionI ρ} (h : Restful False owed s) : Restful True owed s :=
    ⟨fun hscheduled => (h.1 hscheduled).1.elim, h.2⟩
  refine wp_sendAsyncRequest (fun _ => h) fun _ => ?_
  have hsend : Steady (Restful False owed) (sendMessage (r.outgoing (r.ids s).1)) :=
    steady_sendMessage _
  refine wp_mono (hsend _ ⟨nofun, h.2⟩) (fun status s1 h1 => ?_)
    fun ex s1 h1 _ => (himp h1).closeWith ex
  split
  · exact ⟨fun hscheduled => (h1.1 hscheduled).1.elim, h1.2⟩
  · exact himp h1

variable [DecidableEq ρ]

theorem steady_asyncRequestCanceled (out : ρ) (ex : LocalException) :
    Steady (Restful allowed owed) (asyncRequestCanceled out ex) := by
  have habort {f : ConnectionI ρ → ConnectionI ρ}
      (hf : ∀ {s}, Restful allowed owed s → Restful allowed owed (f s)) :
      Steady (Restful allowed owed) (abortOr ex (modify f)) :=
    .ite (steady_setStateWith _ _) (.modify fun _ => hf)
  refine .bind .get fun s => .ite (.pure _) ?_
  cases locate out s with
  | queued i requestId =>
    refine .bind (.modify fun _ h => ?_) fun _ => .bind (habort id) fun _ => steady_closeIfRequested
    unfold forgetQueued
    split
    · exact h
    · exact h.of_sublist eraseRequest_sublist
  | hinted requestId =>
    exact .bind (habort fun h => h.of_sublist eraseRequest_sublist) fun _ => steady_closeIfRequested
  | found requestId => exact habort fun h => h.of_sublist eraseRequest_sublist
  | absent => exact .pure _

theorem Restful.after (h : Restful True Settled s) {e : Event ρ} (henabled : Enabled s e) :
    Restful True Settled (e.after s) := by
  refine after_of_wp (E := fun _ => Restful True Settled) ?_
  have hidle {s : ConnectionI ρ} (h : Restful True Settled s) :
      Restful True Settled { s with phase := .idle } := ⟨h.1, fun hopen => ⟨(h.2 hopen).1, by simp⟩⟩
  cases e with
  | network bytes room readFailure writeFailure initializeResult => exact h
  | startAsync callbacks => exact steady_startAsync callbacks s h
  | activate | hold => exact (bind .get fun _ => .ite (.pure _) (steady_setState _)) s h
  | destroy reason => cases reason <;> exact steady_setStateWith _ _ s h
  | abort => exact steady_setStateWith _ _ s h
  | close =>
    refine (bind .get fun _ => .ite (.pure _) (.ite (steady_setStateWith _ _) ?_)) s h
    exact .bind (.modify fun _ => id) fun _ => .modify fun _ => id
  | sendAsyncRequest r => exact wp_map.mpr (restful_sendAsyncRequest h r)
  | asyncRequestCanceled out ex => exact steady_asyncRequestCanceled out ex s h
  | select operation => exact ⟨h.1, fun hopen => ⟨(h.2 hopen).1, by simp⟩⟩
  | beginMessage =>
    simp only [Event.program]
    split
    · refine (bind .get fun _ => .ite (.modify fun _ => hidle) (.handle ?_ fun _ => ?_)) s h
      · refine .bind (steady_messageWrite _) fun _ => .modify fun _ h => ?_
        exact ⟨h.1, fun hopen => ⟨(h.2 hopen).1, fun _ _ _ => rfl⟩⟩
      · exact .bind (steady_setStateWith _ _) fun _ => .modify fun _ => hidle
    · exact h
  | endMessage answers =>
    simp only [Event.program]
    split
    · next hphase => exact restful_endMessage h hphase answers
    · exact h
  | dispatch i => exact h.startDispatch i
  | dispatchException i ex => exact restful_dispatchException h i ex
  | upcallCompleted i => exact restful_upcallCompleted h i henabled.2.2
  | sendResponse j result compress => exact restful_sendResponse h j result compress
  | finish => exact steady_setState .finished (completeAll s) (h.of_sublist (nil_sublist _))
  | idleCheck | connectTimedOut =>
    exact (bind .get fun _ => .ite (steady_setStateWith _ _) (.pure _)) s h
  | inactivityCheck =>
    exact ite (steady_setStateWith _ _) (.pure _) { s with inactivityTimerTaskScheduled := false }
      ⟨by simp, h.2⟩
  | closeTimedOut =>
    simp only [Event.program, closeTimedOut, wp_bind, wp_get]
    split
    · exact steady_setState .closed { s with exception := some .closeTimeout } h
    · exact h
  | sendHeartbeat => exact restful_sendHeartbeat h

/-- The inactivity timer task is scheduled only while no invocation and no dispatch is outstanding,
    so that the inactivity check never closes a connection that is used. -/
theorem inactivityCheck_spares_busy (h : Reachable (fun _ _ => True) s) :
    (s.inactivityTimerTaskScheduled = true → s.dispatchCount = 0 ∧ s.asyncRequests = []) ∧
      (Enabled s .inactivityCheck → (Event.inactivityCheck.after s).state ≠ s.state →
        s.asyncRequests = [] ∧ s.dispatchCount = 0 ∧ s.dispatching = [] ∧
          ∀ u ∈ s.upcalls, u.requests = 0) := by
  have hinv : Restful True Settled s :=
    h.induct (fun o => ⟨nofun, fun _ => ⟨rfl, nofun⟩⟩) fun s e henabled _ hs => hs.after henabled
  refine ⟨fun hscheduled => (hinv.1 hscheduled).2.2, fun henabled _ => ?_⟩
  obtain ⟨-, hopen, hcount, hnone⟩ := hinv.1 henabled.2
  have hexcess : s.dispatchCount - s.undone = 0 := (hinv.2 hopen).1
  have hheld : (s.upcalls.map fun u => (u.requests : Int)).sum + s.dispatching.length = 0 := by
    rw [undone] at hexcess
    omega
  have hsum := sum_nonneg (requests_nonneg s.upcalls)
  refine ⟨hnone, hcount, length_eq_zero_iff.mp (by omega), fun u hu => ?_⟩
  have hle := single_le_sum (requests_nonneg s.upcalls) _ (mem_map_of_mem hu)
  omega

omit [Bzip2] [DecidableEq ρ] in
/-- A connection that is only opened is closed by the inactivity check. -/
theorem inactivityCheck_spares_busy_opened :
    ∃ (_ : Bzip2) (s : ConnectionI Nat), Reachable (fun _ _ => True) s ∧
      s.inactivityTimerTaskScheduled = true ∧ s.dispatchCount = 0 ∧ s.asyncRequests = [] ∧
      (Event.inactivityCheck.after s).state ≠ s.state ∧ s.dispatching = [] := by
  let _ : Bzip2 := .absent
  obtain ⟨s, hs, hscheduled, henabled, hmoves⟩ := reachable_of_runEvents (fun _ _ => True) {}
    (opening ++ [.sendHeartbeat])
    (P := fun s => s.inactivityTimerTaskScheduled = true ∧ Enabled s .inactivityCheck ∧
      (Event.inactivityCheck.after s).state ≠ s.state) (by decide +kernel)
  obtain ⟨hidle, hspares⟩ := inactivityCheck_spares_busy hs
  obtain ⟨hcount, hnone⟩ := hidle hscheduled
  exact ⟨.absent, s, hs, hscheduled, hcount, hnone, hmoves, (hspares henabled hmoves).2.2.1⟩

end Ice.Connection
