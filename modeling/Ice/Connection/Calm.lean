import Ice.Connection.Frames

/-!
# What leaves the flow of messages alone

Most of what a connection does changes neither the operations that it is registered for nor its
counters of dispatches. `Calm` says so, up to the closing of the connection, and `Frozen` says that
the send queue of a closed connection does not change.
-/

namespace Ice.Connection

open Ice.WebSocket (Buffer SocketOperation)

variable {ρ : Type} {s s' s'' : ConnectionI ρ}

/-- The data members that matter before the connection is validated. -/
def ConnectionI.early (s : ConnectionI ρ) :=
  (s.registered, s.upcalls, s.dispatching, s.sendStreams, s.writeStream, s.readSize, s.readHeader,
    s.transceiver.initializeResult, s.upcall)

/-- From `s` to `s'` nothing is read, dispatched or answered, and the connection does not open. -/
structure Calm (s s' : ConnectionI ρ) : Prop where
  phase : s'.phase = s.phase
  incoming : s'.incoming = s.incoming
  maxDispatches : s'.maxDispatches = s.maxDispatches
  dispatchCount : s'.dispatchCount = s.dispatchCount
  requestsReceived : s'.requestsReceived = s.requestsReceived
  requestsAnswered : s'.requestsAnswered = s.requestsAnswered
  state : s'.state = s.state ∧ s'.registered.read = s.registered.read ∧
      (s.state ≤ .notValidated → s'.early = s.early) ∨
    .closing ≤ s'.state ∧ s.state ≤ s'.state
  exception : (.closing ≤ s.state → s.exception.isSome) → .closing ≤ s'.state → s'.exception.isSome

/-- The send queue of a closed connection does not change. -/
def Frozen (s s' : ConnectionI ρ) : Prop :=
  .closed ≤ s.state → .closed ≤ s'.state ∧ s'.sendStreams = s.sendStreams

namespace Calm

/-- The parts that do not change at all. -/
def rest (s : ConnectionI ρ) :=
  (s.phase, s.incoming, s.maxDispatches, s.dispatchCount, s.requestsReceived, s.requestsAnswered)

theorem of_fields (h : (s'.registered.read, rest s', s'.state, s'.exception) =
    (s.registered.read, rest s, s.state, s.exception)) (hearly :
    s.state ≤ .notValidated → s'.early = s.early) :
    Calm s s' := by
  simp only [rest, Prod.mk.injEq] at h
  obtain ⟨hregistered, ⟨h1, h2, h3, h4, h5, h6⟩, hstate, hex⟩ := h
  refine ⟨h1, h2, h3, h4, h5, h6, .inl ⟨hstate, hregistered, hearly⟩, ?_⟩
  rw [hstate, hex]
  exact id

theorem of_eq (h : (s'.registered.read, rest s', s'.state, s'.exception, s'.early) =
    (s.registered.read, rest s, s.state, s.exception, s.early)) : Calm s s' := by
  simp only [Prod.mk.injEq] at h
  exact of_fields (by simp only [h]) fun _ => h.2.2.2.2

/-- The connection was closed, whatever else has changed. -/
theorem of_closing (h : rest s' = rest s) (hclosing : .closing ≤ s'.state)
    (hle : s.state ≤ s'.state) (hex : s'.exception.isSome) : Calm s s' := by
  simp only [rest, Prod.mk.injEq] at h
  obtain ⟨h1, h2, h3, h4, h5, h6⟩ := h
  exact ⟨h1, h2, h3, h4, h5, h6, .inr ⟨hclosing, hle⟩, fun _ _ => hex⟩

theorem rest_closeWith (ex : LocalException) (s : ConnectionI ρ) :
    rest (closeWith ex s) = rest s := by
  unfold closeWith
  split
  · rfl
  · split <;> rfl

theorem le (h : Calm s s') : s.state ≤ s'.state := by
  rcases h.state with ⟨hstate, -⟩ | ⟨-, hle⟩
  · exact hstate.ge
  · exact hle

theorem trans (h : Calm s s') (h' : Calm s' s'') : Calm s s'' := by
  refine ⟨h'.phase.trans h.phase, h'.incoming.trans h.incoming,
    h'.maxDispatches.trans h.maxDispatches, h'.dispatchCount.trans h.dispatchCount,
    h'.requestsReceived.trans h.requestsReceived, h'.requestsAnswered.trans h.requestsAnswered, ?_,
    fun hs => h'.exception (h.exception hs)⟩
  rcases h'.state with ⟨hstate', hreg', hearly'⟩ | ⟨hclosing', -⟩
  · rcases h.state with ⟨hstate, hreg, hearly⟩ | ⟨hclosing, hle⟩
    · refine .inl ⟨hstate'.trans hstate, hreg'.trans hreg, fun hs => ?_⟩
      exact (hearly' (hstate ▸ hs)).trans (hearly hs)
    · exact .inr ⟨hstate' ▸ hclosing, hstate' ▸ hle⟩
  · exact .inr ⟨hclosing', h.le.trans h'.le⟩

end Calm

theorem le_of_canSwitch_closing {current state : State} (h : current.canSwitch state)
    (hclosing : .closing ≤ state) : current ≤ state := by
  revert h hclosing
  cases state <;> cases current <;> decide

theorem Calm.close {state : State} (hcan : s.state.canSwitch state) (hclosing : .closing ≤ state)
    (hex : s.exception.isSome ∨ .closing ≤ s.state) : Calm s (switchState state s) := by
  refine ⟨rfl, rfl, rfl, rfl, rfl, rfl, .inr ⟨hclosing, le_of_canSwitch_closing hcan hclosing⟩, ?_⟩
  intro hs _
  exact hex.elim id hs

theorem Calm.except (s : ConnectionI ρ) (ex : LocalException) : Calm s (s.except ex) :=
  ⟨rfl, rfl, rfl, rfl, rfl, rfl, .inl ⟨rfl, rfl, fun _ => rfl⟩, fun _ _ => isSome_except ex s⟩

theorem Calm.closeWith (ex : LocalException) (s : ConnectionI ρ) : Calm s (closeWith ex s) := by
  unfold Connection.closeWith
  split
  · exact .of_eq rfl
  · split
    · next hcan =>
      exact (Calm.except s ex).trans (.close hcan (by decide) (.inl (isSome_except ex s)))
    · exact .except s ex

/-- An update of other data members of a validated connection. -/
theorem Calm.of_validated (hvalidated : .notValidated < s.state)
    (h : (s'.registered.read, rest s', s'.state, s'.exception) =
      (s.registered.read, rest s, s.state, s.exception)) :
    Calm s s' :=
  .of_fields h fun hle => absurd hvalidated (not_lt_of_ge hle)

variable [Bzip2]

instance : Frame (Calm (ρ := ρ)) where
  quiet {s s'} h h' := by
    exact .of_eq (congrArg (fun p : Essence ρ × Flow ρ =>
        (p.2.registered.read, (p.2.phase, p.2.incoming, p.2.maxDispatches, p.2.dispatchCount,
          p.2.requestsReceived, p.2.requestsAnswered), p.1.state, p.1.exception,
          (p.2.registered, p.1.upcalls, p.1.dispatching, p.1.sendStreams, p.1.writeStream,
            p.2.readSize, p.2.readHeader, p.2.initializeResult, p.2.upcall)))
      (Prod.ext h h' : (s'.essence, s'.flow) = (s.essence, s.flow)))
  trans := Calm.trans
  except := Calm.except
  replace _ :=
    ⟨rfl, rfl, rfl, rfl, rfl, rfl, .inl ⟨rfl, rfl, fun _ => rfl⟩, fun _ _ => rfl⟩
  close hcan hclosing := Calm.close hcan hclosing.1
  shutdown _ _ := .of_eq rfl
  waits {s op} h := by
    refine ⟨rfl, rfl, rfl, rfl, rfl, rfl, .inr ⟨?_, le_rfl⟩, id⟩
    exact le_of_le_of_eq (by decide) h.symm
  queued hm _ := .of_validated hm.validated rfl
  sent hm _ _ _ := .of_validated hm.validated rfl
  started hm _ _ _ := .of_validated hm.validated (congrArg (·, _)
    (by simp [startSending, union, minus, SocketOperation.writeOp, SocketOperation.none]))
  failed {s m wire} ex hm _ _ _ := by
    have h : Calm s (s.transmit wire s.transceiver.room) :=
      .of_validated hm.validated rfl
    exact h.trans (.closeWith ex _)

instance : Frame (Frozen (ρ := ρ)) where
  quiet h _ hs := ⟨hs.trans_eq (congrArg Essence.state h).symm, congrArg Essence.sendStreams h⟩
  trans h h' hs := by
    obtain ⟨h1, h2⟩ := h hs
    obtain ⟨h3, h4⟩ := h' h1
    exact ⟨h3, h4.trans h2⟩
  except _ _ hs := ⟨hs, rfl⟩
  replace _ hs := ⟨hs, rfl⟩
  close hcan hclosing _ hs := ⟨hs.trans (le_of_canSwitch_closing hcan hclosing.1), rfl⟩
  shutdown _ _ hs := ⟨hs, rfl⟩
  waits _ hs := ⟨hs, rfl⟩
  queued hm _ hs := absurd hm.notClosed (not_lt_of_ge hs)
  sent hm _ _ _ hs := absurd hm.notClosed (not_lt_of_ge hs)
  started hm _ _ _ hs := absurd hm.notClosed (not_lt_of_ge hs)
  failed _ hm _ _ _ hs := absurd hm.notClosed (not_lt_of_ge hs)

end Ice.Connection
