import Ice.Connection.Frames

/-!
# What leaves the outstanding requests alone

Most of what a connection does concerns neither the map of outstanding requests nor the invocations
in the send queue: it moves the queue on, queues messages of its own, and never leaves a closing
state. `Proceeds` says so. `Change` lists everything that an event can do to the requests besides.
-/

namespace Ice.Connection

open Ice.WebSocket (Buffer SocketOperation)

variable {ρ : Type}

/-- Messages leave the queue at its front, and only messages that are no requests enter it. -/
def Shrinks (queue queue' : List (OutgoingMessage ρ)) : Prop :=
  ∃ k extra, queue' = queue.drop k ++ extra ∧ ∀ m ∈ extra, m.outAsync = none ∧ m.requestId = 0

namespace Shrinks

variable {queue queue' queue'' : List (OutgoingMessage ρ)}

theorem refl (queue : List (OutgoingMessage ρ)) : Shrinks queue queue :=
  ⟨0, [], by simp⟩

theorem trans (h : Shrinks queue queue') (h' : Shrinks queue' queue'') : Shrinks queue queue'' := by
  obtain ⟨k, extra, rfl, hextra⟩ := h
  obtain ⟨k', extra', rfl, hextra'⟩ := h'
  refine ⟨k + k', extra.drop (k' - (queue.drop k).length) ++ extra', ?_, ?_⟩
  · rw [List.drop_append, List.drop_drop, List.append_assoc]
  · intro m hm
    rcases List.mem_append.mp hm with hm | hm
    · exact hextra m (List.mem_of_mem_drop hm)
    · exact hextra' m hm

variable {m : OutgoingMessage ρ}

theorem append (queue : List (OutgoingMessage ρ)) (hm : m.outAsync = none)
    (hid : m.requestId = 0) : Shrinks queue (queue ++ [m]) := by
  refine ⟨0, [m], rfl, ?_⟩
  intro m' hm'
  rw [List.mem_singleton.mp hm']
  exact ⟨hm, hid⟩

theorem tail (m : OutgoingMessage ρ) (queue : List (OutgoingMessage ρ)) :
    Shrinks (m :: queue) queue := ⟨1, [], by simp⟩

/-- A message that is still queued was so before, or is no request. -/
theorem mem (h : Shrinks queue queue') (hm : m ∈ queue') :
    m ∈ queue ∨ m.outAsync = none ∧ m.requestId = 0 := by
  obtain ⟨k, extra, rfl, hextra⟩ := h
  rcases List.mem_append.mp hm with hm | hm
  · exact .inl (List.mem_of_mem_drop hm)
  · exact .inr (hextra m hm)

end Shrinks

/-- From `s` to `s'` no request is accepted, completed or canceled. -/
structure Proceeds (s s' : ConnectionI ρ) : Prop where
  asyncRequests : s'.asyncRequests = s.asyncRequests
  hint : s'.asyncRequestsHint = s.asyncRequestsHint
  nextRequestId : s'.nextRequestId = s.nextRequestId
  accepted : s'.accepted = s.accepted
  closeRequested : s'.closeRequested = s.closeRequested
  /-- a connection that is closing, or closed, stays so -/
  state : ∀ t, .closing ≤ t → t ≤ s.state → t ≤ s'.state
  /-- only `finish` finishes a connection -/
  finished : s'.state = .finished → s.state = .finished
  /-- a connection closes with an exception -/
  exception : (.closing ≤ s.state → s.exception.isSome) → .closing ≤ s'.state → s'.exception.isSome
  /-- the only calls are those of `sent` -/
  calls : ∃ l : List ρ, s'.calls = s.calls ++ l.map Call.sent
  queue : Shrinks s.sendStreams s'.sendStreams

namespace Proceeds

variable {s s' s'' : ConnectionI ρ}

/-- The parts that do not change at all. -/
def rest (s : ConnectionI ρ) :=
  (s.asyncRequests, s.asyncRequestsHint, s.nextRequestId, s.accepted, s.closeRequested)

theorem of_eq (h : (s'.calls, s'.sendStreams, rest s', s'.state, s'.exception) =
    (s.calls, s.sendStreams, rest s, s.state, s.exception)) : Proceeds s s' := by
  simp only [rest, Prod.mk.injEq] at h
  obtain ⟨hcalls, hqueue, ⟨h1, h2, h3, h4, h5⟩, hstate, hex⟩ := h
  refine ⟨h1, h2, h3, h4, h5, ?_, hstate ▸ id, ?_, ⟨[], by simp [hcalls]⟩, hqueue ▸ .refl _⟩
  · intro t _ ht
    rwa [hstate]
  · rw [hstate, hex]
    exact id

theorem of_essence (h : s'.essence = s.essence) : Proceeds s s' :=
  of_eq (congrArg (fun c => (c.calls, c.sendStreams, (c.asyncRequests, c.asyncRequestsHint,
    c.nextRequestId, c.accepted, c.closeRequested), c.state, c.exception)) h)

theorem trans (h : Proceeds s s') (h' : Proceeds s' s'') : Proceeds s s'' := by
  obtain ⟨l, hl⟩ := h.calls
  obtain ⟨l', hl'⟩ := h'.calls
  refine ⟨h'.asyncRequests.trans h.asyncRequests, h'.hint.trans h.hint,
    h'.nextRequestId.trans h.nextRequestId, h'.accepted.trans h.accepted,
    h'.closeRequested.trans h.closeRequested, ?_, fun hf => h.finished (h'.finished hf), ?_,
    ⟨l ++ l', by simp [hl, hl']⟩,
    h.queue.trans h'.queue⟩
  · intro t ht hs
    exact h'.state t ht (h.state t ht hs)
  · intro hs
    exact h'.exception (h.exception hs)

theorem enqueue (hm : m.outAsync = none) (hid : m.requestId = 0) : Proceeds s (s.enqueue m) := by
  refine ⟨rfl, rfl, rfl, rfl, rfl, fun _ _ h => h, id, id, ⟨[], ?_⟩, .append _ hm hid⟩
  simp [ConnectionI.enqueue]

theorem popSent (answers : Answers ρ) {rest : List (OutgoingMessage ρ)}
    (h : s.sendStreams = m :: rest) : Proceeds s (popSent answers m rest s) := by
  refine ⟨rfl, rfl, rfl, rfl, rfl, fun _ _ h => h, id, id, ⟨m.outAsync.toList, ?_⟩,
    h ▸ .tail m rest⟩
  cases hout : m.outAsync <;> simp [Connection.popSent, hout]

theorem le_of_canSwitch {t current state : State} (h : current.canSwitch state) (ht : .closing ≤ t)
    (hs : t ≤ current) : t ≤ state := by
  revert h ht hs
  cases state <;> cases current <;> cases t <;> decide

theorem switchState {state : State} (h : s.state.canSwitch state) (hne : state ≠ .finished)
    (hex : .closing ≤ state → s.exception.isSome ∨ .closing ≤ s.state) :
    Proceeds s (switchState state s) := by
  refine ⟨rfl, rfl, rfl, rfl, rfl, fun _ ht hs => le_of_canSwitch h ht hs, fun hf => absurd hf hne,
    ?_, ⟨[], ?_⟩, .refl _⟩
  · intro hs hstate
    exact (hex hstate).elim id hs
  · simp [Connection.switchState]

theorem except (s : ConnectionI ρ) (ex : LocalException) : Proceeds s (s.except ex) := by
  refine ⟨rfl, rfl, rfl, rfl, rfl, fun _ _ h => h, id, fun _ _ => isSome_except ex s,
    ⟨[], ?_⟩, .refl _⟩
  simp [ConnectionI.except]

theorem closeWith (ex : LocalException) (s : ConnectionI ρ) : Proceeds s (closeWith ex s) := by
  unfold Connection.closeWith
  split
  · exact of_eq rfl
  · split
    · next hcan => 
      exact (except s ex).trans
        (switchState hcan (by decide) fun _ => .inl (isSome_except ex s))
    · exact except s ex

theorem transmit (bytes : List UInt8) (n : Nat) : Proceeds s (s.transmit bytes n) :=
  of_eq rfl

end Proceeds

/-- An update of nothing that `Proceeds` speaks about. -/
theorem proceeds_modify {s : ConnectionI ρ} {f : ConnectionI ρ → ConnectionI ρ}
    (h : ((f s).calls, (f s).sendStreams, Proceeds.rest (f s), (f s).state, (f s).exception) =
      (s.calls, s.sendStreams, Proceeds.rest s, s.state, s.exception)) : Keeps Proceeds (modify f :
      M ρ Unit) s :=
  .modify (.of_eq h)

variable [Bzip2]

instance : CoarseFrame (Proceeds (ρ := ρ)) where
  quiet h _ := .of_essence h
  coarse := .of_essence
  trans := Proceeds.trans
  except := Proceeds.except
  replace _ := ⟨rfl, rfl, rfl, rfl, rfl, fun _ _ h => h, id, fun _ _ => rfl, ⟨[], by simp⟩, .refl _⟩
  close hcan hclosing hex := .switchState hcan hclosing.2 fun _ => hex
  opens hcan hlt := .switchState hcan (ne_of_lt (hlt.trans (by decide))) fun hle =>
    absurd hlt (not_lt_of_ge hle)
  shutdown _ _ := .of_eq rfl
  waits _ := .of_eq rfl
  queued hm _ := .enqueue hm.outAsync hm.requestId
  sent hm _ _ _ := .of_eq (congrArg (·, _) (by simp [OutgoingMessage.sent, hm.outAsync]; rfl))
  started {s m wire} hm hq _ _ := by
    have h : Proceeds s (s.enqueue m) := .enqueue hm.outAsync hm.requestId
    refine h.trans (.of_eq (Prod.ext rfl (Prod.ext ?_ rfl)))
    simp [startSending, ConnectionI.enqueue, hq]
  failed ex _ _ _ _ := (Proceeds.transmit _ _).trans (.closeWith ex _)

/-! ## The programs that move the send queue on -/

section

variable {s : ConnectionI ρ}

theorem proceeds_write (buf : Buffer) : Keeps Proceeds (write buf) s := by
  rw [write, Keeps, wp_bind, wp_get, wp_bind, wp_modify]
  exact Keeps.after (.transmit _ _) (.bind (.runIf fun _ => .throwSome _) fun _ _ => .pure _)

theorem proceeds_validate (operation : SocketOperation) :
    Keeps Proceeds (validate operation) s := by
  refine .get_bind (.ite (fun _ => ?_) fun _ => ?_)
  · refine .get_bind (.bind (proceeds_modify rfl) fun _ s1 => ?_)
    refine .bind (.ite (fun _ => .pure _) fun _ => proceeds_write _) fun buf s2 => ?_
    refine .bind (proceeds_modify rfl) fun _ s3 => .ite (fun _ => ?_) fun _ => ?_
    · refine .bind (proceeds_modify rfl) fun _ s4 => ?_
      exact .bind (proceeds_modify rfl) fun _ _ => .pure _
    · exact .bind (proceeds_modify rfl) fun _ _ => .pure _
  · refine .bind (proceeds_modify rfl) fun _ s1 => .get_bind ?_
    refine .bind (.runIf fun _ => keeps_read) fun _ s2 => .get_bind (.ite (fun _ => ?_) fun _ => ?_)
    · exact .bind (proceeds_modify rfl) fun _ _ => .pure _
    · refine .bind (.ofExcept _) fun _ s3 => .bind (proceeds_modify rfl) fun _ s4 => ?_
      exact .bind (proceeds_modify rfl) fun _ _ => .pure _

theorem proceeds_messageWrite (operation : SocketOperation) :
    Keeps Proceeds (messageWrite operation) s := by
  refine .ite (fun _ => .get_bind ?_) fun _ => .pure _
  refine .bind (proceeds_write _) fun buf s1 => ?_
  refine .bind (proceeds_modify rfl) fun _ s2 => ?_
  exact .bind (.runIf fun _ => proceeds_modify rfl) fun _ _ => .pure _

theorem proceeds_sendQueued (answers : Answers ρ) {queue : List (OutgoingMessage ρ)}
    (hqueue : s.sendStreams = queue) (hwrite : s.writeStream = {}) :
    Keeps Proceeds (sendQueued answers queue) s := by
  refine keeps_sendQueued ?_ ?_ ?_ queue hqueue hwrite
  · intro s m rest wire hqueue _ _ _
    have h : Proceeds s ((writeNext wire wire.length s).hand m) := .of_eq rfl
    exact h.trans (.popSent answers hqueue)
  · intro s m rest wire n _ _ _ _ _
    exact .of_eq rfl
  · intro s m rest wire n ex _ _ _ _ _
    exact (Proceeds.transmit _ _).trans (.closeWith ex _)

theorem proceeds_sendNextMessages (answers : Answers ρ) :
    Keeps Proceeds (sendNextMessages answers) s := by
  refine .get_bind ?_
  cases hqueue : s.sendStreams with
  | nil => exact .pure _
  | cons m rest =>
    refine .ite (fun _ => ?_) fun _ => .orClose ?_ fun _ => .pure _
    · exact .bind (proceeds_modify rfl) fun _ _ => .pure _
    · rw [Keeps, wp_bind, wp_modify]
      exact Keeps.after (.popSent answers hqueue) (proceeds_sendQueued answers rfl rfl)

end

instance : IoFrame (Proceeds (ρ := ρ)) where
  validate operation _ := proceeds_validate operation
  sendNextMessages answers _ := proceeds_sendNextMessages answers
  messageWrite operation _ := proceeds_messageWrite operation

end Ice.Connection
