import Mathlib

/-!
# IceStorm subscribers

The state machine of a twoway subscriber of an IceStorm topic (`cpp/src/IceStorm/Subscriber.cpp`).
Events are queued by publishers, `flush` sends them to the subscriber, and a reply or a failure of
an invocation comes back through `completed` or `error`. Every operation holds the recursive mutex
of the subscriber, so that it is one step.

A subscriber with the QoS reliability `ordered` has at most one invocation outstanding.
-/

namespace Ice.IceStorm

open List

/-- `Subscriber::SubscriberState`. -/
inductive SubscriberState where
  | online
  | offline
  | error
  | reaped
deriving DecidableEq, Repr

/-- `_state >= SubscriberStateError`. -/
def SubscriberState.errored : SubscriberState → Bool
  | online | offline => false
  | error | reaped => true

/-- The exceptions that `error` tells apart. -/
inductive Failure where
  | objectNotExist
  | notRegistered
  | sendQueueSizeMaxReached
  | other
deriving DecidableEq, Repr

def Failure.hardError : Failure → Bool
  | objectNotExist | notRegistered | sendQueueSizeMaxReached => true
  | other => false

/-- `Instance::SendQueueSizeMaxPolicy`. -/
inductive SendQueueSizeMaxPolicy where
  | removeSubscriber
  | dropEvents
deriving DecidableEq, Repr

/-- What a subscriber reads of the service and of its own record. -/
structure Config where
  sendQueueSizeMax : Int
  /-- `Instance` replaces 0 by -1 -/
  sendQueueSizeMax_ne_zero : sendQueueSizeMax ≠ 0
  sendQueueSizeMaxPolicy : SendQueueSizeMaxPolicy
  discardInterval : Int
  retryCount : Int
  maxOutstanding : Int
  link : Bool := false

/-- What is seen of a subscriber from outside. -/
inductive Action (α : Type) where
  /-- the event was passed to `queue` -/
  | queued (event : α)
  /-- `ice_invokeAsync` was called with the event -/
  | sent (event : α)
  /-- an invocation was answered -/
  | answered
  /-- an invocation failed -/
  | failed
deriving DecidableEq, Repr

/-- `Subscriber`. The last two fields are not part of the program: the invocations whose callback is
    still to come, and what was done. -/
structure Subscriber (α : Type) where
  state : SubscriberState := .online
  shutdown : Bool := false
  outstanding : Int := 0
  events : List α := []
  next : Int := 0
  currentRetry : Int := 0
  inFlight : Nat := 0
  log : List (Action α) := []

variable {α : Type}

namespace Subscriber

variable (c : Config) (s : Subscriber α)

/-- `Subscriber::error` after the counter is decremented, at time `now`. -/
def takeOffline (e : Failure) (now : Int) (s : Subscriber α) : Subscriber α :=
  if s.state.errored then s
  else if !e.hardError && s.state == .offline && now < s.next then s
  else if !e.hardError && (c.retryCount == -1 || s.currentRetry < c.retryCount) then
    { s with
      next := now + c.discardInterval, currentRetry := s.currentRetry + 1, events := [],
      state := .offline }
  else { s with events := [], state := .error }

/-- `Subscriber::error`, at time `now`. -/
def error (dec : Bool) (e : Failure) (now : Int) (s : Subscriber α) : Subscriber α :=
  takeOffline c e now (if dec then { s with outstanding := s.outstanding - 1 } else s)

/-- What `ice_invokeAsync` does: the invocation is started, or the call throws at time `now`. -/
inductive Outcome where
  | started
  | threw (e : Failure) (now : Int)
deriving DecidableEq, Repr

/-- The loop of `SubscriberTwoway::flush`. The fuel bounds the number of events that are sent. -/
def flushLoop (c : Config) : Nat → List Outcome → Subscriber α → Subscriber α
  | 0, _, s => s
  | fuel + 1, outcomes, s =>
    match s.events with
    | [] => s
    | e :: events =>
      if s.outstanding < c.maxOutstanding then
        let s : Subscriber α :=
          { s with events, outstanding := s.outstanding + 1, log := s.log ++ [.sent e] }
        match outcomes.headD .started with
        | .started => flushLoop c fuel outcomes.tail { s with inFlight := s.inFlight + 1 }
        | .threw e now => error c true e now { s with log := s.log ++ [.failed] }
      else s

/-- `SubscriberTwoway::flush`. -/
def flush (outcomes : List Outcome) (s : Subscriber α) : Subscriber α :=
  if s.state != .online || s.events.isEmpty then s else flushLoop c s.events.length outcomes s

/-- The size of the queue as an `int`. -/
def queueSize : Int := Int.bmod s.events.length (2 ^ 32)

/-- The loop of `queue` over the new events. It returns `false` if the subscriber is removed. -/
def pushEvents (c : Config) (now : Int) : List α → Subscriber α → Subscriber α × Bool
  | [], s => (s, true)
  | event :: events, s =>
    if s.queueSize = c.sendQueueSizeMax then
      match c.sendQueueSizeMaxPolicy with
      | .removeSubscriber => (error c false .sendQueueSizeMaxReached now s, false)
      | .dropEvents => pushEvents c now events { s with events := s.events.tail ++ [event] }
    else pushEvents c now events { s with events := s.events ++ [event] }

/-- The part of `queue` for a subscriber that is online. -/
def pushAndFlush (events : List α) (now : Int) (outcomes : List Outcome)
    (s : Subscriber α) : Subscriber α × Bool :=
  match pushEvents c now events s with
  | (s, false) => (s, false)
  | (s, true) => (flush c outcomes s, true)

/-- `Subscriber::queue`, at time `now`. It returns `false` if the subscriber should be reaped. -/
def queue (forwarded : Bool) (events : List α) (now : Int) (outcomes : List Outcome)
    (s : Subscriber α) : Subscriber α × Bool :=
  if forwarded && c.link then (s, true)
  else
    match s.state with
    | .offline =>
      if now < s.next then (s, true)
      else pushAndFlush c events now outcomes { s with state := .online }
    | .online => pushAndFlush c events now outcomes s
    | .error => (s, false)
    | .reaped => (s, true)

def reap : Subscriber α × Bool :=
  if s.state = .error then ({ s with state := .reaped }, true) else (s, false)

def resetIfReaped : Subscriber α :=
  if s.state = .reaped then { s with state := .error } else s

def completed (outcomes : List Outcome) (s : Subscriber α) : Subscriber α :=
  let s := { s with outstanding := s.outstanding - 1, currentRetry := 0 }
  if s.events.isEmpty && s.outstanding == 0 && s.shutdown then s else flush c outcomes s

end Subscriber

/-- The operations of a subscriber, with what they meet: the time, and what becomes of the
    invocations that they start. -/
inductive Event (α : Type) where
  | queue (forwarded : Bool) (events : List α) (now : Int) (outcomes : List Subscriber.Outcome)
  /-- the reply to an invocation -/
  | answer (outcomes : List Subscriber.Outcome)
  /-- the failure of an invocation -/
  | fail (e : Failure) (now : Int)
  | reap
  | resetIfReaped
  /-- the start of `shutdown`, which then waits until nothing is queued or outstanding -/
  | shutdown
deriving DecidableEq, Repr

namespace Subscriber

/-- One operation. A reply or a failure comes only for an invocation that was started. -/
def step (c : Config) (s : Subscriber α) : Event α → Option (Subscriber α)
  | .queue forwarded events now outcomes =>
    some (queue c forwarded events now outcomes
      { s with log := s.log ++ events.map .queued }).1
  | .answer outcomes =>
    if s.inFlight = 0 then none
    else some (completed c outcomes
      { s with inFlight := s.inFlight - 1, log := s.log ++ [.answered] })
  | .fail e now =>
    if s.inFlight = 0 then none
    else some (error c true e now
      { s with inFlight := s.inFlight - 1, log := s.log ++ [.failed] })
  | .reap => some (reap s).1
  | .resetIfReaped => some (resetIfReaped s)
  | .shutdown => some { s with shutdown := true }

/-- The states of a subscriber, from its creation on. -/
inductive Reachable (c : Config) : Subscriber α → Prop where
  | create : Reachable c {}
  | step {s s' : Subscriber α} (e : Event α) : Reachable c s → s.step c e = some s' → Reachable c s'

end Subscriber

/-! ## What a log says -/

/-- The events that were queued. -/
def queuedEvents (log : List (Action α)) : List α :=
  log.filterMap fun
    | .queued e => some e
    | _ => none

/-- The events that were sent. -/
def sentEvents (log : List (Action α)) : List α :=
  log.filterMap fun
    | .sent e => some e
    | _ => none

/-- The number of invocations that were answered or failed. -/
def finished (log : List (Action α)) : Nat :=
  log.countP fun
    | .answered | .failed => true
    | _ => false

/-- Each event is sent only when all that were sent before are answered or failed. -/
def OneAtATime (log : List (Action α)) : Prop :=
  ∀ before e after, log = before ++ .sent e :: after →
    (sentEvents before).length = finished before

variable (log log' : List (Action α))

@[simp] theorem queuedEvents_append :
    queuedEvents (log ++ log') = queuedEvents log ++ queuedEvents log' :=
  filterMap_append

@[simp] theorem sentEvents_append :
    sentEvents (log ++ log') = sentEvents log ++ sentEvents log' :=
  filterMap_append

@[simp] theorem finished_append :
    finished (log ++ log') = finished log + finished log' :=
  countP_append

@[simp] theorem queuedEvents_queued (events : List α) :
    queuedEvents (events.map .queued) = events := by
  simp [queuedEvents, filterMap_map]

@[simp] theorem sentEvents_queued (events : List α) : sentEvents (events.map .queued) = [] := by
  simp [sentEvents]

@[simp] theorem finished_queued (events : List α) : finished (events.map .queued) = 0 := by
  simp [finished]

theorem oneAtATime_nil : OneAtATime ([] : List (Action α)) := by
  intro before e after h
  simp at h

/-- An action keeps the order if it is not a sending, or if nothing is outstanding. -/
theorem OneAtATime.snoc {log : List (Action α)} (h : OneAtATime log) {a : Action α}
    (ha : ∀ e, a = .sent e → (sentEvents log).length = finished log) : OneAtATime (log ++ [a]) := by
  intro before e after heq
  rcases append_eq_append_iff.mp heq with ⟨rest, hbefore, hrest⟩ | ⟨rest, hlog, hrest⟩
  · cases rest with
    | nil =>
      obtain ⟨rfl, -⟩ := cons.inj hrest
      rw [hbefore, append_nil]
      exact ha e rfl
    | cons b rest => simp at hrest
  · cases rest with
    | nil =>
      obtain ⟨rfl, -⟩ := cons.inj hrest
      rw [append_nil] at hlog
      rw [← hlog]
      exact ha e rfl
    | cons b rest =>
      obtain ⟨rfl, -⟩ := cons.inj hrest
      exact h before e rest hlog

theorem OneAtATime.queued {log : List (Action α)} (h : OneAtATime log) (events : List α) :
    OneAtATime (log ++ events.map .queued) := by
  induction events generalizing log with
  | nil => simpa using h
  | cons event events ih =>
    have hsnoc : OneAtATime (log ++ [.queued event]) := h.snoc (by intro e he; cases he)
    simpa using ih hsnoc

/-! ## Order -/

namespace Subscriber

/-- What holds of an ordered subscriber in each step. -/
structure Ordered (s : Subscriber α) : Prop where
  /-- the counter is the number of invocations whose callback is to come -/
  outstanding : s.outstanding = s.inFlight
  one : s.inFlight ≤ 1
  balance : finished s.log + s.inFlight = (sentEvents s.log).length
  alone : OneAtATime s.log
  /-- what was sent, and then what is in the queue, was queued in this order -/
  order : (sentEvents s.log ++ s.events).Sublist (queuedEvents s.log)

theorem Ordered.create : Ordered ({} : Subscriber α) where
  outstanding := rfl
  one := Nat.zero_le 1
  balance := rfl
  alone := oneAtATime_nil
  order := .slnil

variable {s : Subscriber α}

theorem Ordered.takeOffline (h : Ordered s) (c : Config) (e : Failure) (now : Int) :
    Ordered (takeOffline c e now s) := by
  have hdropped : (sentEvents s.log ++ []).Sublist (queuedEvents s.log) :=
    ((List.Sublist.refl _).append (nil_sublist _)).trans h.order
  unfold Subscriber.takeOffline
  split
  · exact { h with }
  · split
    · exact { h with }
    · split <;> exact { h with order := hdropped }

/-- An invocation has ended, and the counter is about to be decremented. -/
structure Ending (s : Subscriber α) : Prop where
  outstanding : s.outstanding = s.inFlight + 1
  idle : s.inFlight = 0
  balance : finished s.log = (sentEvents s.log).length
  alone : OneAtATime s.log
  order : (sentEvents s.log ++ s.events).Sublist (queuedEvents s.log)

theorem Ending.decrement (h : Ending s) : Ordered { s with outstanding := s.outstanding - 1 } where
  outstanding := by simp [h.outstanding]
  one := by simp [h.idle]
  balance := by simpa [h.idle] using h.balance
  alone := h.alone
  order := h.order

theorem Ending.error (h : Ending s) (c : Config) (e : Failure) (now : Int) :
    Ordered (s.error c true e now) :=
  h.decrement.takeOffline c e now

variable {events : List α}

/-- The state in which an event has been handed to `ice_invokeAsync`. -/
theorem Ordered.send (h : Ordered s) {e : α} (hevents : s.events = e :: events)
    (hidle : s.inFlight = 0) :
    OneAtATime (s.log ++ [Action.sent e]) ∧
    finished (s.log ++ [Action.sent e]) + 1 = (sentEvents (s.log ++ [Action.sent e])).length ∧
    (sentEvents (s.log ++ [Action.sent e]) ++ events).Sublist
      (queuedEvents (s.log ++ [Action.sent e])) := by
  have hbalance := h.balance
  have horder := h.order
  rw [hevents] at horder
  refine ⟨h.alone.snoc fun _ _ => by omega, ?_, ?_⟩
  · simp [finished, sentEvents] at hbalance ⊢
    omega
  · simpa [sentEvents, queuedEvents] using horder

variable {c : Config}

theorem Ordered.flushLoop (hc : c.maxOutstanding = 1) (h : Ordered s) (fuel : Nat)
    (outcomes : List Outcome) :
    Ordered (flushLoop c fuel outcomes s) := by
  induction fuel generalizing s outcomes with
  | zero => exact h
  | succ fuel ih =>
    rw [Subscriber.flushLoop]
    split
    · exact h
    · next e events hevents =>
      split
      · next hlt =>
        rw [hc, h.outstanding] at hlt
        have hidle : s.inFlight = 0 := by omega
        obtain ⟨halone, hbalance, horder⟩ := h.send hevents hidle
        have houtstanding := h.outstanding
        split
        · apply ih
          exact ⟨by simp [houtstanding],
            by simp [hidle], by simpa [hidle] using hbalance, halone, horder⟩
        · apply Ending.error
          refine ⟨by simp [houtstanding], hidle, ?_, ?_, ?_⟩
          · simpa [finished, sentEvents] using hbalance
          · exact halone.snoc (by intro e he; cases he)
          · simpa [sentEvents, queuedEvents] using horder
      · exact h

theorem Ordered.flush (hc : c.maxOutstanding = 1) (h : Ordered s) (outcomes : List Outcome) :
    Ordered (flush c outcomes s) := by
  unfold Subscriber.flush
  split
  · exact h
  · exact h.flushLoop hc _ _

/-- The state of a subscriber while `queue` pushes events: those that are left were queued last. -/
structure Pushing (left : List α) (s : Subscriber α) : Prop where
  outstanding : s.outstanding = s.inFlight
  one : s.inFlight ≤ 1
  balance : finished s.log + s.inFlight = (sentEvents s.log).length
  alone : OneAtATime s.log
  order : (sentEvents s.log ++ s.events ++ left).Sublist (queuedEvents s.log)

theorem Pushing.ordered {left : List α} (h : Pushing left s) : Ordered s where
  __ := h
  order := (sublist_append_left _ left).trans h.order

/-- An event goes to the end of the queue, from which others may be dropped. -/
theorem Pushing.push {event : α} {left : List α} (h : Pushing (event :: left) s)
    (hevents : events.Sublist s.events) :
    Pushing left { s with events := events ++ [event] } where
  __ := h
  order := by
    have hsub : (sentEvents s.log ++ events ++ event :: left).Sublist (queuedEvents s.log) :=
      (((List.Sublist.refl _).append hevents).append (List.Sublist.refl _)).trans h.order
    simpa using hsub

theorem Pushing.pushEvents (h : Pushing events s) (c : Config) (now : Int) :
    Ordered (pushEvents c now events s).1 := by
  induction events generalizing s with
  | nil => exact h.ordered
  | cons event events ih =>
    rw [Subscriber.pushEvents]
    split
    · split
      · exact h.ordered.takeOffline c .sendQueueSizeMaxReached now
      · exact ih (h.push (tail_sublist _))
    · exact ih (h.push (List.Sublist.refl _))

theorem Pushing.pushAndFlush (hc : c.maxOutstanding = 1) {now : Int} (h : Pushing events s)
    (outcomes : List Outcome) :
    Ordered (pushAndFlush c events now outcomes s).1 := by
  have hpushed := h.pushEvents c now
  unfold Subscriber.pushAndFlush
  split
  · next heq => rwa [heq] at hpushed
  · next heq =>
    rw [heq] at hpushed
    exact hpushed.flush hc outcomes

theorem Ordered.queue (hc : c.maxOutstanding = 1) (h : Ordered s) (forwarded : Bool)
    (events : List α) (now : Int)
    (outcomes : List Outcome) : Ordered (queue c forwarded events now outcomes
      { s with log := s.log ++ events.map .queued }).1 := by
  have hpushing : Pushing events { s with log := s.log ++ events.map .queued } := by
    refine ⟨h.outstanding, h.one, by simpa using h.balance, h.alone.queued events, ?_⟩
    simpa using h.order.append (List.Sublist.refl events)
  unfold Subscriber.queue
  split
  · exact hpushing.ordered
  · split
    · split
      · exact hpushing.ordered
      · apply Pushing.pushAndFlush hc
        exact { hpushing with }
    · exact hpushing.pushAndFlush hc _
    · exact hpushing.ordered
    · exact hpushing.ordered

/-- A callback comes for the one invocation that is outstanding. -/
theorem Ordered.callback (h : Ordered s) (hne : s.inFlight ≠ 0) {a : Action α}
    (ha : a = .answered ∨ a = .failed) :
    Ending { s with inFlight := s.inFlight - 1, log := s.log ++ [a] } := by
  have hone := h.one
  have houtstanding := h.outstanding
  have hbalance := h.balance
  refine ⟨by simp only; omega, by simp only; omega, ?_, ?_, ?_⟩
  · rcases ha with rfl | rfl <;> simp [finished, sentEvents] at hbalance ⊢ <;> omega
  · exact h.alone.snoc (by rintro e rfl; simp at ha)
  · rcases ha with rfl | rfl <;> simpa [sentEvents, queuedEvents] using h.order

theorem Ending.completed (hc : c.maxOutstanding = 1) (h : Ending s) (outcomes : List Outcome) :
    Ordered (completed c outcomes s) := by
  have hdone : Ordered { s with outstanding := s.outstanding - 1, currentRetry := 0 } :=
    { h.decrement with }
  unfold Subscriber.completed
  dsimp only
  split
  · exact hdone
  · exact hdone.flush hc outcomes

theorem Ordered.step (hc : c.maxOutstanding = 1) {s' : Subscriber α} (h : Ordered s) {e : Event α}
    (hstep : s.step c e = some s') : Ordered s' := by
  cases e with
  | queue forwarded events now outcomes =>
    cases hstep
    exact h.queue hc forwarded events now outcomes
  | answer outcomes =>
    obtain ⟨hidle, ⟨⟩⟩ := Option.ite_none_left_eq_some.mp hstep
    exact (h.callback hidle (Or.inl rfl)).completed hc outcomes
  | fail e now =>
    obtain ⟨hidle, ⟨⟩⟩ := Option.ite_none_left_eq_some.mp hstep
    exact (h.callback hidle (Or.inr rfl)).error c e now
  | reap =>
    cases hstep
    unfold Subscriber.reap
    split
    · exact { h with }
    · exact h
  | resetIfReaped =>
    cases hstep
    unfold Subscriber.resetIfReaped
    split
    · exact { h with }
    · exact h
  | shutdown =>
    cases hstep
    exact { h with }

theorem Reachable.ordered (hc : c.maxOutstanding = 1) (h : Reachable c s) : Ordered s := by
  induction h with
  | create => exact Ordered.create
  | step e _ hstep ih => exact ih.step hc hstep

/-- An ordered subscriber gets events in the order in which they were queued, none of them twice,
    and each only when the one before was answered or failed. The counter of outstanding invocations
    stays between 0 and 1. -/
theorem ordered_delivery {c : Config} (hc : c.maxOutstanding = 1) {s : Subscriber α}
    (h : Reachable c s) : (sentEvents s.log).Sublist (queuedEvents s.log) ∧
    ((queuedEvents s.log).Nodup → (sentEvents s.log).Nodup) ∧ OneAtATime s.log ∧
    0 ≤ s.outstanding ∧ s.outstanding ≤ 1 := by
  have hordered := h.ordered hc
  have horder : (sentEvents s.log).Sublist (queuedEvents s.log) :=
    (sublist_append_left _ _).trans hordered.order
  have houtstanding := hordered.outstanding
  have hone := hordered.one
  exact ⟨horder, fun hnodup => hnodup.sublist horder, hordered.alone, by omega, by omega⟩

/-- An ordered subscriber whose queue holds two events at most. -/
def orderedConfig : Config where
  sendQueueSizeMax := 2
  sendQueueSizeMax_ne_zero := by decide
  sendQueueSizeMaxPolicy := .dropEvents
  discardInterval := 60
  retryCount := 0
  maxOutstanding := 1

/-- Four events are queued, the second is dropped, and the third is sent once the first is
    answered. -/
theorem ordered_delivery_twoSent : ∃ s : Subscriber Nat, Reachable orderedConfig s ∧
      s.log = [.queued 1, .sent 1, .queued 2, .queued 3, .queued 4, .answered, .sent 3] ∧
      OneAtATime s.log := by
  have h : ∃ s : Subscriber Nat, Reachable orderedConfig s ∧
      s.log = [.queued 1, .sent 1, .queued 2, .queued 3, .queued 4, .answered, .sent 3] := by
    refine ⟨_, .step (.answer []) (.step (.queue false [2, 3, 4] 0 [])
      (.step (.queue false [1] 0 []) .create rfl) rfl) rfl, ?_⟩
    decide
  obtain ⟨s, hs, hlog⟩ := h
  exact ⟨s, hs, hlog, (ordered_delivery rfl hs).2.2.1⟩

end Subscriber

end Ice.IceStorm
