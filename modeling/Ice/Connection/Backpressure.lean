import Ice.Connection.Outstanding

/-!
# Dispatch back-pressure

With `_maxDispatches` set, an active connection reads only while fewer requests are being dispatched
than the limit, and a connection that is held does not read. The reads are switched on and off by
`setState`, `parseMessage` and `sendResponse`.
-/

namespace Ice.Connection

open ConnectionI

open Ice.WebSocket (SocketOperation)

section Throttled

variable {ρ : Type} {s s' : ConnectionI ρ}

/-- Reads are registered as the limit on the dispatches asks for. -/
structure Throttled (s : ConnectionI ρ) : Prop where
  active : s.state = .active → (s.registered.read = true ↔ s.canDispatch)
  holding : s.state = .holding → s.registered.read = false
  /-- `message` reads only if it was called for a registered read -/
  reading : s.state < .closing → ∀ {operation writeOp}, s.phase = .reading operation writeOp →
    operation.read = true → s.registered.read = true

/-- `_dispatchCount` counts the requests that were received and not answered. -/
def Counted (s : ConnectionI ρ) : Prop :=
  s.dispatchCount = s.requestsReceived - s.requestsAnswered

namespace Throttled

theorem of_closing (hstate : .closing ≤ s.state) : Throttled s := by
  refine ⟨fun heq => ?_, fun heq => ?_, fun hlt => absurd hlt (not_lt_of_ge hstate)⟩
  all_goals
    rw [heq] at hstate
    exact absurd hstate (by decide)

theorem of_not_reading (hreading : s.isReading = false)
    (active : s.state = .active → (s.registered.read = true ↔ s.canDispatch))
    (holding : s.state = .holding → s.registered.read = false) : Throttled s := by
  refine ⟨active, holding, fun _ operation writeOp hphase => ?_⟩
  simp [isReading, hphase] at hreading

/-- Before the connection is validated, `message` may read only what it waits for. -/
theorem of_opening (hstate : s.state ≤ .notValidated) (hreading : s.isReading = false) :
    Throttled s := by
  refine .of_not_reading hreading (fun heq => ?_) fun heq => ?_
  all_goals
    rw [heq] at hstate
    exact absurd hstate (by decide)

/-- Where nothing changes that the limit depends on, reads are registered as before. -/
theorem of_eq (h : Throttled s) (hstate : s'.state = s.state)
    (hregistered : s'.registered.read = s.registered.read)
    (hmax : s'.maxDispatches = s.maxDispatches) (hcount : s'.dispatchCount = s.dispatchCount)
    (hreading : s.state < .closing → ∀ {operation writeOp}, s'.phase = .reading operation writeOp →
      operation.read = true → s.registered.read = true) : Throttled s' := by
  constructor
  · rw [hstate, hregistered, canDispatch, hmax, hcount]
    exact h.active
  · rw [hstate, hregistered]
    exact h.holding
  · rw [hstate, hregistered]
    exact hreading

theorem calm (h : Throttled s) (hcalm : Calm s s') : Throttled s' := by
  rcases hcalm.state with ⟨hstate, hregistered, -⟩ | ⟨hclosing, -⟩
  · apply h.of_eq hstate hregistered hcalm.maxDispatches hcalm.dispatchCount
    rw [hcalm.phase]
    exact h.reading
  · exact .of_closing hclosing

theorem opening (h : Opening s s') (hreading : s'.isReading = false) : Throttled s' := by
  rcases h.outcome with ⟨hstate, -⟩ | ⟨hstate, hregistered⟩ | ⟨hclosing, -⟩
  · exact .of_opening hstate hreading
  · refine .of_not_reading hreading (fun hactive => ?_) fun _ => hregistered
    rw [hactive] at hstate
    cases hstate
  · exact .of_closing hclosing

section

variable (h : Throttled s)
include h

theorem activate (hstate : s.state = .holding) (hreading : s.isReading = false) :
    Throttled (switchState .active s) := by
  have hread := h.holding hstate
  refine .of_not_reading hreading (fun _ => ?_) nofun
  change (switchedOps .active s).read = true ↔ s.canDispatch
  by_cases hcan : s.canDispatch <;> simp [switchedOps, hcan, hread, union, SocketOperation.readOp]

theorem hold (hstate : s.state = .active) (hreading : s.isReading = false) :
    Throttled (switchState .holding s) := by
  have hactive := h.active hstate
  refine .of_not_reading hreading nofun fun _ => ?_
  change (switchedOps .holding s).read = false
  by_cases hcan : s.canDispatch
  · simp [switchedOps, hstate, hcan, minus, SocketOperation.readOp]
  · simpa [switchedOps, hcan] using hactive

theorem beginMessage {operation : SocketOperation} (hbegan : Began operation s s')
    (hread : operation.read = true → s.registered.read = true) : Throttled s' := by
  cases hbegan with
  | idle hcalm hfrozen =>
    have hidle : Throttled { s with phase := .idle } := .of_not_reading rfl h.active h.holding
    exact hidle.calm hcalm
  | reading writeOp s1 hwrites hclosed hmeets hop hnone heq =>
    obtain ⟨room, written, writeStream, handed, rfl, -⟩ := hwrites
    subst heq
    refine { h with reading := ?_ }
    intro _ operation writeOp hphase
    cases hphase
    exact hread

/-- `message` registers the read again unless the limit is reached or the connection is held. -/
theorem processed {operation writeOp : SocketOperation}
    (hphase : s.phase = .reading operation writeOp) (hidle : s'.phase = .idle)
    (hp : Processed operation s s') : Throttled s' := by
  rcases hp.outcome with ⟨hclosing, -⟩ | ⟨hstate, hop⟩
  · exact .of_closing hclosing
  have hreading (hlt : s.state < .closing) := h.reading hlt hphase
  have hidle' : s'.isReading = false := by rw [isReading, hidle]
  rcases hop with ⟨hread, hcount, hsame⟩ | ⟨hread, hresume⟩
  · -- no message was complete: the read goes on, if there was one
    by_cases hoperation : operation.read = true
    · have hread' : s'.registered.read = true := hread.resolve_left (by simp [hoperation])
      refine .of_not_reading hidle' ?_ ?_
      · intro hactive
        rw [hstate] at hactive
        have hregistered := hreading (by rw [hactive]; decide) hoperation
        rw [hread', canDispatch, hp.maxDispatches, hcount]
        exact iff_of_true rfl ((h.active hactive).mp hregistered)
      · intro hholding
        rw [hstate] at hholding
        have hregistered := hreading (by rw [hholding]; decide) hoperation
        rw [h.holding hholding] at hregistered
        cases hregistered
    · have hoperation : operation.read = false := by simpa using hoperation
      apply h.of_eq hstate (hsame hoperation) hp.maxDispatches hcount
      intro _ operation writeOp hphase'
      rw [hidle] at hphase'
      cases hphase'
  · refine .of_not_reading hidle' ?_ ?_
    · intro hactive
      rw [hresume, resumeOp, if_neg (by rw [hactive]; decide), canDispatch]
      split
      · next hlimit =>
        have hnot : ¬ (s'.maxDispatches ≤ 0 ∨ s'.dispatchCount < s'.maxDispatches) := by omega
        simp [SocketOperation.none, hnot]
      · next hlimit =>
        have hcan : s'.maxDispatches ≤ 0 ∨ s'.dispatchCount < s'.maxDispatches := by omega
        simp [SocketOperation.readOp, hcan]
    · intro hholding
      rw [hresume, resumeOp, if_pos hholding]
      rfl

/-- The response that brings the count below the limit registers the read again. -/
theorem dispatchDone : Throttled (Connection.dispatchDone s) := by
  constructor
  · intro hactive
    change s.state = .active at hactive
    have hcan : (Connection.dispatchDone s).canDispatch ↔
        s.maxDispatches ≤ 0 ∨ s.dispatchCount - 1 < s.maxDispatches := Iff.rfl
    rw [hcan]
    have hregistered := h.active hactive
    simp only [canDispatch] at hregistered
    by_cases hlimit : 0 < s.maxDispatches ∧ s.dispatchCount = s.maxDispatches
    · simp [Connection.dispatchDone, hactive, hlimit, union, SocketOperation.readOp]
    · have hsame : (Connection.dispatchDone s).registered = s.registered := by
        simp [Connection.dispatchDone, hlimit]
      rw [hsame, hregistered]
      omega
  · intro hholding
    change s.state = .holding at hholding
    simpa [Connection.dispatchDone, hholding] using h.holding hholding
  · intro hlt operation writeOp hphase hread
    have hregistered := h.reading hlt hphase hread
    by_cases hlimit : s.state = .active ∧ 0 < s.maxDispatches ∧ s.dispatchCount = s.maxDispatches
    · simp [Connection.dispatchDone, hlimit, union, hregistered]
    · simp only [Connection.dispatchDone, hlimit, if_false]
      exact hregistered

theorem answered [Bzip2] {d : Dispatch} {result : Payload} {compress : Bool}
    (hclosed : s.state < .closed) (hsent : ¬ ResponseFails d result compress s)
    (ha : Answered d result compress s s') : Throttled s' := by
  rcases ha.outcome with hge | ⟨hfails, -⟩ | ⟨hcount, hclosing | ⟨hstate, hregistered⟩⟩
  · exact absurd hclosed (not_lt_of_ge hge)
  · exact absurd hfails hsent
  · exact .of_closing hclosing
  · apply h.dispatchDone.of_eq hstate hregistered ha.maxDispatches hcount
    rw [ha.phase]
    exact h.dispatchDone.reading

end

end Throttled

end Throttled

section Runs

variable {ρ : Type} {s s' : ConnectionI ρ} [Bzip2]

/-- The event handler was selected for a read. -/
def ConnectionI.selectsRead (s : ConnectionI ρ) : Bool :=
  match s.phase with
  | .selected operation => operation.read
  | _ => false

/-- `message` is called for a read only while the connection is registered for it, and each response
    is sent before the connection is closed. -/
def Undisturbed (s : ConnectionI ρ) : Event ρ → Prop
  | .beginMessage => s.selectsRead = true → s.registered.read = true
  | .sendResponse j result compress =>
    s.state < .closed ∧ ∀ d ∈ s.dispatching[j]?, ¬ ResponseFails d result compress s
  | _ => True

instance (s : ConnectionI ρ) (e : Event ρ) : Decidable (Undisturbed s e) :=
  match e with
  | .beginMessage => inferInstanceAs (Decidable (_ → _))
  | .sendResponse .. => inferInstanceAs (Decidable (_ ∧ _))
  | .network .. | .startAsync _ | .activate | .hold | .destroy _ | .abort | .close
  | .sendAsyncRequest _ | .asyncRequestCanceled .. | .select _ | .endMessage _ | .dispatch _
  | .dispatchException .. | .upcallCompleted _ | .finish | .idleCheck | .inactivityCheck
  | .connectTimedOut | .closeTimedOut | .sendHeartbeat => .isTrue trivial

theorem Shift.throttled {e : Event ρ} (hshift : Shift e s s') (hok : Undisturbed s e)
    (h : Throttled s) : Throttled s' := by
  cases hshift with
  | calm hcalm hsame => exact h.calm hcalm
  | network hinit => exact { h with }
  | startAsync hreading hle hopening hphase =>
    refine .opening hopening ?_
    rw [isReading, hphase]
    exact hreading
  | activate hreading hstate => exact h.activate hstate hreading
  | hold hreading hstate => exact h.hold hstate hreading
  | select hidle hselectable => exact .of_not_reading rfl h.active h.holding
  | beginMessage hphase hbegan =>
    refine h.beginMessage hbegan ?_
    simpa only [Undisturbed, selectsRead, hphase] using hok
  | endMessage hphase hidle hended =>
    cases hended with
    | opening hle hopening =>
      refine .opening hopening ?_
      rw [isReading, hidle]
    | processed hvalidated hp => exact h.processed hphase hidle hp
  | sendResponse hreading hd ha =>
    exact h.answered hok.1 (hok.2 _ hd) ha
  | finish hreading hstate => exact .of_closing (show State.closing ≤ .finished by decide)

theorem Shift.counted {e : Event ρ} (hshift : Shift e s s') (hok : Undisturbed s e)
    (h : Counted s) : Counted s' := by
  have same {s s' : ConnectionI ρ} (h : Counted s) (hcount : s'.dispatchCount = s.dispatchCount)
      (hreceived : s'.requestsReceived = s.requestsReceived)
      (hanswered : s'.requestsAnswered = s.requestsAnswered) : Counted s' := by
    rw [Counted, hcount, hreceived, hanswered]
    exact h
  cases hshift with
  | calm hcalm hsame =>
    exact same h hcalm.dispatchCount hcalm.requestsReceived hcalm.requestsAnswered
  | network | activate | hold | select | finish => exact h
  | startAsync hreading hle ho hphase =>
    exact same h ho.dispatchCount ho.requestsReceived ho.requestsAnswered
  | beginMessage hphase hbegan =>
    cases hbegan with
    | idle hcalm hfrozen =>
      exact same h hcalm.dispatchCount hcalm.requestsReceived hcalm.requestsAnswered
    | reading writeOp s1 hwrites hclosed hmeets hop hnone heq =>
      obtain ⟨room, written, writeStream, handed, rfl, -⟩ := hwrites
      subst heq
      exact h
  | endMessage hphase hidle hended =>
    cases hended with
    | opening hle ho => exact same h ho.dispatchCount ho.requestsReceived ho.requestsAnswered
    | processed hvalidated hp =>
      have hcounts := hp.counts
      have hanswered := hp.requestsAnswered
      simp only [Counted] at h ⊢
      omega
  | sendResponse hreading hd ha =>
    have hanswered := ha.requestsAnswered
    have hreceived := ha.requestsReceived
    rcases ha.outcome with hge | ⟨hfails, -⟩ | ⟨hcount, -⟩
    · exact absurd hok.1 (not_lt_of_ge hge)
    · exact absurd hfails (hok.2 _ hd)
    · simp only [Counted] at h ⊢
      omega

/-- The reads of a connection follow the limit on the dispatches. -/
theorem reads_throttled [DecidableEq ρ] (h : Reachable Undisturbed s) (hmax : 0 < s.maxDispatches) :
    (s.state = .active → (s.registered.read = true ↔ s.dispatchCount < s.maxDispatches)) ∧
      (s.state = .holding → s.registered.read = false) ∧
      s.dispatchCount = s.requestsReceived - s.requestsAnswered := by
  have hinv : Based s ∧ Throttled s ∧ Counted s := by
    refine h.induct_shift (I := fun s => Throttled s ∧ Counted s) ?_ ?_
    · intro o
      exact ⟨.of_opening (show State.notInitialized ≤ .notValidated by decide) rfl, rfl⟩
    · intro s e _ _ hok hshift hs
      exact ⟨hshift.throttled hok hs.1, hshift.counted hok hs.2⟩
  obtain ⟨-, hthrottled, hcounted⟩ := hinv
  refine ⟨fun hactive => ?_, hthrottled.holding, hcounted⟩
  rw [hthrottled.active hactive, canDispatch]
  omega

omit [Bzip2] in
/-- With a limit of one dispatch, the read is suspended by the first request. -/
theorem reads_throttled_oneRequest :
    ∃ (_ : Bzip2) (s : ConnectionI Nat), Reachable Undisturbed s ∧ s.state = .active ∧
      s.maxDispatches = 1 ∧ s.requestsReceived = 1 ∧ s.registered.read = false := by
  let _ : Bzip2 := .absent
  let request := header MessageType.request.code 0 18 ++ encodeInt32 1
  obtain ⟨s, hs, hactive, hmax, hreceived, hanswered⟩ := reachable_of_runEvents Undisturbed
    { incoming := true, maxDispatches := 1 }
    [.network request 1000 none none (.ok .none), .startAsync false, .activate, .select .readOp,
      .beginMessage, .endMessage ⟨fun _ => false, fun _ => false⟩]
    (P := fun s : ConnectionI Nat => s.state = .active ∧ s.maxDispatches = 1 ∧
      s.requestsReceived = 1 ∧ s.requestsAnswered = 0) (by decide +kernel)
  obtain ⟨hread, -, hcount⟩ := reads_throttled hs (by omega)
  refine ⟨.absent, s, hs, hactive, hmax, hreceived, ?_⟩
  rw [← Bool.not_eq_true, hread hactive]
  omega

omit [Bzip2] in
/-- `hold` is called between the selection of an incoming connection for reading and writing and the
    call of `message`, which then reads a part of a message and registers the read again. -/
theorem reads_while_holding :
    ∃ (_ : Bzip2) (s : ConnectionI Nat), Reachable (fun _ _ => True) s ∧ 0 < s.maxDispatches ∧
      s.state = .holding ∧ s.phase = .idle ∧ s.registered.read = true := by
  let _ : Bzip2 := .absent
  obtain ⟨s, hs, hP⟩ := reachable_of_runEvents (fun _ _ => True) { incoming := true }
    [.network [] 1000 none none (.ok .none), .startAsync false, .activate,
      .network [] 5 none none (.ok .none), .sendAsyncRequest { out := 1 }, .select ⟨true, true⟩,
      .hold, .network [0x49] 5 none none (.ok .none), .beginMessage,
      .endMessage ⟨fun _ => false, fun _ => false⟩]
    (P := fun s => 0 < s.maxDispatches ∧ s.state = .holding ∧ s.phase = .idle ∧
      s.registered.read = true) (by decide +kernel)
  exact ⟨.absent, s, hs, hP⟩

end Runs

end Ice.Connection
