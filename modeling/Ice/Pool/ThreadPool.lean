import Mathlib

/-!
# The thread pool

The threads of a thread pool without I/O completion ports
(`cpp/src/Ice/ThreadPool.cpp:471-603,729-803,902-959`). One thread at a time is the leader. It
selects the handlers that are ready, takes them one by one and may promote a follower before it runs
one. A handler may call `ioCompleted` when it is done with the socket.

A step is one critical section. What the threads do without the mutex, running a handler and
selecting, is a phase of a thread.
-/

namespace Ice.Pool

variable {η : Type}

/-- The size of a thread pool, as `initialize` sets it. -/
structure Config where
  size : Nat
  sizeMax : Nat
  sizeIO : Nat
  size_pos : 1 ≤ size
  size_le : size ≤ sizeMax
  sizeIO_pos : 1 ≤ sizeIO
  sizeIO_le : sizeIO ≤ sizeMax

/-- What a thread is doing. -/
inductive Phase where
  /-- it has no handler and is about to lock the mutex -/
  | entering
  /-- it runs a handler, or has run it and is about to lock the mutex -/
  | running (ioCompleted : Bool)
  | selecting
  /-- it waits for the condition variable in `followerWait` -/
  | sleeping (notified : Bool)
deriving DecidableEq, Repr

/-- `ThreadPoolCurrent`. -/
structure PoolThread where
  phase : Phase := .entering
  leader : Bool := false
deriving DecidableEq, Repr

/-- `ThreadPool`. `handlers` are the selected handlers from `_nextHandler` on. -/
structure ThreadPool (η : Type) where
  threads : List PoolThread
  promote : Bool := true
  inUse : Int := 0
  inUseIO : Int := 0
  handlers : List η := []
  /-- an assertion failed -/
  failed : Bool := false
  /-- the last attempt to create a thread has failed -/
  creationFailed : Bool := false
deriving DecidableEq, Repr

/-- `notify_one` when the thread at a position is not waiting: the first one that is waiting. -/
def notifyFirst : List PoolThread → List PoolThread
  | [] => []
  | thread :: threads =>
    if thread.phase = .sleeping false then { thread with phase := .sleeping true } :: threads
    else thread :: notifyFirst threads

/-- `notify_one`, which may wake any of the threads that wait. -/
def notifyOne (choice : Nat) (threads : List PoolThread) : List PoolThread :=
  match threads[choice]? with
  | some ⟨.sleeping false, leader⟩ => threads.set choice ⟨.sleeping true, leader⟩
  | _ => notifyFirst threads

namespace ThreadPool

variable (cfg : Config) (ready : η → Bool) (choice t : Nat) (leader : Bool) (s : ThreadPool η)

def assert (c : Bool) (s : ThreadPool η) : ThreadPool η := { s with failed := s.failed || !c }

/-- What a thread does next. -/
def set (t : Nat) (phase : Phase) (leader : Bool) (s : ThreadPool η) : ThreadPool η :=
  { s with threads := s.threads.set t ⟨phase, leader⟩ }

/-- `notify_one`. -/
def notify (choice : Nat) (s : ThreadPool η) : ThreadPool η :=
  { s with threads := notifyOne choice s.threads }

/-- `promoteFollower`, called by the thread at a position, which goes on to a phase. -/
def promoteFollower (phase : Phase) (leader : Bool) (s : ThreadPool η) : ThreadPool η :=
  let s := { s.assert (!s.promote && leader) with promote := true }.set t phase false
  if s.inUseIO < (cfg.sizeIO : Int) ∧ (s.handlers ≠ [] ∨ s.inUseIO = 0) then s.notify choice else s

/-- The rest of the section in `run`: the next handler that is ready is taken. `ready` says which
    handlers are registered for what is ready and are not disabled. -/
def nextHandler : ThreadPool η :=
  match s.handlers.dropWhile fun h => !ready h with
  | [] =>
    let s := { s with handlers := [] }
    if (0 : Int) < s.inUseIO then s.promoteFollower cfg choice t .entering leader
    else s.set t .selecting leader
  | _ :: handlers =>
    let s := { s with handlers }
    if 1 < cfg.sizeMax then
      let s := { s with inUseIO := s.inUseIO + 1 }
      if handlers ≠ [] ∧ s.inUseIO < (cfg.sizeIO : Int) then
        s.promoteFollower cfg choice t (.running false) leader
      else s.set t (.running false) leader
    else s.set t (.running false) leader

/-- The condition under which a follower waits. -/
def waits : Bool :=
  !s.promote || s.inUseIO = (cfg.sizeIO : Int) || s.handlers.isEmpty && (0 : Int) < s.inUseIO

/-- `followerWait`, up to the next wait or to the next handler. -/
def followerWait : ThreadPool η :=
  if s.waits cfg then s.set t (.sleeping false) false
  else { s with promote := false }.nextHandler cfg ready choice t true

/-- `followerWait`, unless the thread is the leader. -/
def lead : ThreadPool η :=
  if leader then s.nextHandler cfg ready choice t true else s.followerWait cfg ready choice t

/-- The numbers of threads after a handler has run. -/
def release (ioCompleted : Bool) (s : ThreadPool η) : ThreadPool η :=
  if ioCompleted then { s.assert ((0 : Int) < s.inUse) with inUse := s.inUse - 1 }
  else { s with inUseIO := s.inUseIO - 1 }

/-- The section in `run`. -/
def runSection (selected : List η) (choice t : Nat) (thread : PoolThread) (s : ThreadPool η) :
    Option (ThreadPool η) :=
  match thread.phase with
  | .entering => some (s.lead cfg ready choice t thread.leader)
  | .running ioCompleted =>
    some (if 1 < cfg.sizeMax then (s.release ioCompleted).lead cfg ready choice t thread.leader
      else s.nextHandler cfg ready choice t thread.leader)
  | .selecting =>
    some ({ s with handlers := selected }.nextHandler cfg ready choice t thread.leader)
  | .sleeping _ => none

/-- A thread is created if all are in use. -/
def grow (created : Bool) (s : ThreadPool η) : ThreadPool η :=
  if s.inUse < (cfg.sizeMax : Int) ∧ s.inUse = s.threads.length then
    { s with
      threads := if created then s.threads ++ [{}] else s.threads
      creationFailed := !created }
  else s

def ioCompleted (created : Bool) (choice t : Nat) (leader : Bool) (s : ThreadPool η) :
    ThreadPool η :=
  if 1 < cfg.sizeMax then
    let s := { s with inUseIO := s.inUseIO - 1 }
    let s :=
      if leader then s.promoteFollower cfg choice t (.running true) true
      else if s.promote ∧ (s.handlers ≠ [] ∨ s.inUseIO = 0) then
        (s.set t (.running true) false).notify choice
      else s.set t (.running true) false
    let s := { s.assert ((0 : Int) ≤ s.inUse) with inUse := s.inUse + 1 }
    (s.assert (s.inUse ≤ s.threads.length)).grow cfg created
  else s.set t (.running true) leader

/-- The time-out of a follower: the thread leaves the pool if it would wait again. -/
def timeOut : ThreadPool η :=
  if s.waits cfg then { s.assert (1 < s.threads.length) with threads := s.threads.eraseIdx t }
  else s.followerWait cfg ready choice t

end ThreadPool

/-- One critical section of the thread at a position. -/
inductive PoolEvent (η : Type) where
  /-- the section in `run`; `selected` are the handlers that `select` has found -/
  | run (t : Nat) (ready : η → Bool) (selected : List η) (choice : Nat)
  /-- a follower is woken, because it was notified or not -/
  | wake (t : Nat) (ready : η → Bool) (choice : Nat)
  | timeOut (t : Nat) (ready : η → Bool) (choice : Nat)
  | ioCompleted (t : Nat) (created : Bool) (choice : Nat)

namespace ThreadPool

variable (cfg : Config)

def step (e : PoolEvent η) (s : ThreadPool η) : Option (ThreadPool η) :=
  match e with
  | .run t ready selected choice =>
    match s.threads[t]? with
    | some thread => s.runSection cfg ready selected choice t thread
    | none => none
  | .wake t ready choice =>
    match s.threads[t]? with
    | some ⟨.sleeping _, _⟩ => some (s.followerWait cfg ready choice t)
    | _ => none
  | .timeOut t ready choice =>
    match s.threads[t]? with
    | some ⟨.sleeping _, _⟩ => some (s.timeOut cfg ready choice t)
    | _ => none
  | .ioCompleted t created choice =>
    match s.threads[t]? with
    | some ⟨.running false, leader⟩ => some (s.ioCompleted cfg created choice t leader)
    | _ => none

def run : List (PoolEvent η) → ThreadPool η → Option (ThreadPool η)
  | [], s => some s
  | e :: events, s => (step cfg e s).bind (run events)

/-- A thread pool that was just created. -/
def initial : ThreadPool η := { threads := List.replicate cfg.size {} }

end ThreadPool

end Ice.Pool
