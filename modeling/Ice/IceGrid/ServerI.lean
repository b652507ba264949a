import Ice.Misc.Threads

/-!
# The node's servant of a server

`ServerI` (`cpp/src/IceGrid/ServerI.cpp`) loads, starts, stops and destroys one server. Requests put
a command into one of four slots. At the end of every critical section `nextCommand` picks the first
command that can be executed in the current state and sets the state that it stands for; the thread
then executes the command without the mutex.

The activator (`cpp/src/IceGrid/Activator.cpp:991-1146`) knows the process of a server by the id of
the server. The processes that are started for the server are numbered.
-/

namespace Ice.IceGrid

open Misc

variable {ρ φ κ : Type}

/-- `ServerI::InternalServerState`. -/
inductive InternalServerState where
  | loading
  | inactive
  | activating
  | waitForActivation
  | activationTimeout
  | active
  | deactivating
  | deactivatingWaitForProcess
  | destroying
  | destroyed
deriving DecidableEq, Repr

/-- `ServerI::ServerActivation`. -/
inductive ServerActivation where
  | always
  | session
  | onDemand
  | manual
  | disabled
deriving DecidableEq, Repr

/-- `InternalServerDescriptor`. An adapter has an id and says whether it lives as long as the
    server. The properties are those of the server, under "config", and those of its services.
    `others` are the members that are only compared. -/
structure InternalServerDescriptor (ρ φ : Type) where
  uuid : String
  revision : Int
  sessionId : String
  activation : String
  processRegistered : Bool
  adapters : List (String × Bool)
  properties : List (String × List φ)
  others : ρ
deriving DecidableEq, Repr

/-- A shared pointer: the number of the object that it points to, and what the object holds. -/
structure Shared (α : Type) where
  ref : Nat
  value : α
deriving DecidableEq, Repr

def toServerActivation (activation : String) : ServerActivation :=
  if activation = "on-demand" then .onDemand
  else if activation = "session" then .session
  else if activation = "always" then .always
  else .manual

def descriptorUpdated [DecidableEq ρ] [DecidableEq φ] (lhs rhs : InternalServerDescriptor ρ φ)
    (noProps : Bool := false) : Bool :=
  if lhs.uuid = rhs.uuid ∧ lhs.revision = rhs.revision then false
  else if lhs.others ≠ rhs.others ∨ lhs.uuid ≠ rhs.uuid ∨ lhs.sessionId ≠ rhs.sessionId ∨
      lhs.activation ≠ rhs.activation ∨ lhs.processRegistered ≠ rhs.processRegistered then true
  else if lhs.adapters ≠ rhs.adapters then true
  else !noProps && lhs.properties ≠ rhs.properties

/-- What the servant reads of its node: the time for which a server that failed is disabled, and
    what the node adds to a set of properties. -/
structure Node (φ : Type) where
  disableOnFailure : Int := 0
  addProperties : String → List φ → List φ := fun _ properties => properties

def Node.getProperties (node : Node φ) (desc : InternalServerDescriptor ρ φ) :
    List (String × List φ) :=
  let properties :=
    if desc.properties.any (·.1 = "config") then desc.properties
    else ("config", []) :: desc.properties
  properties.map fun (name, values) => (name, node.addProperties name values)

/-- `ResetPropertiesCB`: the sets of properties that are still to be compared with the old ones. -/
structure ResetProperties (ρ φ : Type) where
  desc : Shared (InternalServerDescriptor ρ φ)
  oldProperties : List (String × List φ)
  rest : List (String × List φ)
deriving DecidableEq, Repr

/-- `ResetPropertiesCB::next`: the first set that differs is sent; `none` if there is none. -/
def ResetProperties.next [DecidableEq φ] (cb : ResetProperties ρ φ) :
    Option (ResetProperties ρ φ) :=
  match cb.rest.dropWhile fun p => p.2 = (cb.oldProperties.lookup p.1).getD [] with
  | [] => none
  | _ :: rest => some { cb with rest }

structure LoadCommand (ρ φ κ : Type) where
  desc : Shared (InternalServerDescriptor ρ φ)
  runtime : Option (Shared (InternalServerDescriptor ρ φ))
  clearDir : Bool := false
  updating : Bool := false
  callbacks : List κ := []
deriving DecidableEq, Repr

/-- The `ResetPropertiesCB` that a load command creates. -/
def LoadCommand.resetProperties (node : Node φ) (l : LoadCommand ρ φ κ) : ResetProperties ρ φ :=
  { desc := l.desc
    oldProperties := (l.runtime.map fun runtime => node.getProperties runtime.value).getD []
    rest := node.getProperties l.desc.value }

structure StartCommand (κ : Type) where
  id : Nat
  callbacks : List κ := []
deriving DecidableEq, Repr

/-- `StopCommand`. `target` is not part of the program: the process that was running when the
    command set the state to deactivating. -/
structure StopCommand (κ : Type) where
  id : Nat
  deactivate : Bool := true
  callbacks : List κ := []
  target : Option Nat := none
deriving DecidableEq, Repr

structure DestroyCommand (κ : Type) where
  loadFailure : Bool := false
  clearDir : Bool := true
  callbacks : List κ := []
deriving DecidableEq, Repr

/-- The timer of a command. -/
inductive CommandTimer where
  | activation (id : Nat)
  | deactivation (id : Nat) (target : Option Nat)
deriving DecidableEq, Repr

def CommandTimer.id : CommandTimer → Nat
  | .activation id => id
  | .deactivation id _ => id

/-- What the world outside answers at present: whether operations on files and the start of a
    process fail, whether a signal cannot be sent, the time, whether there is a session with the
    master registry, and the uuid and the revision in the revision file. -/
structure Environment where
  fails : Bool := false
  signalFails : Bool := false
  now : Int := 0
  session : Bool := false
  revision : Option (String × Int) := none
deriving DecidableEq, Repr

/-- What is recorded of a run. -/
inductive ServerMark where
  /-- a shutdown request or a signal for a stop command has reached a process; which one was running
      when the command set the state to deactivating -/
  | signal (target : Option Nat) (reached : Nat)
  /-- the timer of a start command has changed the state; the start command of the process at that
      time -/
  | timedOut (command : Nat) (current : Nat)
  /-- the state was set to inactive because a process could not be killed; the target of the stop
      command and the process that was started last -/
  | abandoned (target : Option Nat) (current : Nat)
deriving DecidableEq, Repr

/-- Who sends a signal. -/
inductive Signaller where
  /-- `deactivate`, when there is no process proxy -/
  | deactivate
  /-- `kill`, also when `deactivate` has failed -/
  | kill
  /-- the callback of a shutdown request that has failed -/
  | callback
deriving DecidableEq, Repr

/-- `ServerI`. The fields from `environment` on are not members of the servant: the world outside,
    the requests and timers that are under way, and what is recorded. -/
structure ServerI (ρ φ κ : Type) where
  desc : Option (Shared (InternalServerDescriptor ρ φ)) := none
  state : InternalServerState := .inactive
  activation : ServerActivation := .disabled
  previousActivation : ServerActivation := .disabled
  adapters : List (String × Bool) := []
  process : Option Nat := none
  activatedAdapters : List String := []
  failureTime : Option Int := some 0
  waitForReplication : Bool := false
  destroy : Option (DestroyCommand κ) := none
  stop : Option (StopCommand κ) := none
  load : Option (LoadCommand ρ φ κ) := none
  start : Option (StartCommand κ) := none
  environment : Environment := {}
  /-- the process that the activator has for the server -/
  running : Option Nat := none
  /-- the number of processes that were started -/
  started : Nat := 0
  /-- the start command of the process that was started last -/
  startedBy : Nat := 0
  timers : List CommandTimer := []
  /-- the requests to wait for the replication of the application that are not answered -/
  replications : Nat := 0
  /-- the updates of runtime properties that are not answered -/
  inFlight : List (ResetProperties ρ φ) := []
  /-- the shutdown requests that are not answered, with the target of their stop command -/
  shutdowns : List (Option Nat) := []
  /-- the target of the stop command that waits for the process to register -/
  awaited : Option Nat := none
  /-- the number of descriptors and of commands that were created -/
  created : Nat := 0
  /-- an assertion failed -/
  failed : Bool := false
  /-- a thread has locked the mutex that it holds -/
  relocked : Bool := false
  accepted : List κ := []
  answered : List κ := []
  history : List ServerMark := []
deriving DecidableEq, Repr

/-- What a thread has still to do. -/
inductive ServerCall where
  | update
  | destroy
  /-- the end of `destroy` -/
  | destroyed
  | activate
  /-- `Activator::activate` -/
  | startProcess
  /-- the end of `activate` when the process is started, and when it is not -/
  | activated
  | activationFailed
  | setInactive
  | deactivate (target : Option Nat)
  /-- `Activator::deactivate` -/
  | shutdown (target process : Option Nat)
  | kill (target : Option Nat)
  | sendSignal (target : Option Nat) (signaller : Signaller)
  /-- the end of `kill` and of `deactivate` when the process cannot be killed -/
  | signalFailed (target : Option Nat)
  | activationTimedOut (command : Nat)
  | terminated (failed : Bool)
  | adapterDeactivated (id : String)
  /-- the second section of `terminated` -/
  | setTerminated
deriving DecidableEq, Repr

/-- What the timer of a command does. -/
def CommandTimer.call : CommandTimer → ServerCall
  | .activation id => .activationTimedOut id
  | .deactivation _ target => .kill target

inductive ServerEvent (ρ φ κ : Type) where
  | environment (environment : Environment)
  | load (desc : InternalServerDescriptor ρ φ) (replicaName : String) (noRestart : Bool)
      (response : κ)
  | start (activation : ServerActivation) (response : Option κ)
  | stop (response : Option κ)
  | destroy (uuid : String) (revision : Int) (replicaName : String) (noRestart : Bool)
      (response : Option κ)
  | setProcess (process : Nat)
  | setEnabled (enabled : Bool)
  | adapterActivated (id : String)
  | adapterDeactivated (id : String)
  | timer (timer : CommandTimer)
  | terminated (failed : Bool)
  | applicationUpdated
  | properties (cb : ResetProperties ρ φ) (succeeded : Bool)
  | shutdown (target : Option Nat) (succeeded : Bool)
deriving DecidableEq, Repr

/-- `StopCommand::isStopped`. -/
def InternalServerState.isStopped : InternalServerState → Bool
  | .inactive | .loading | .destroying | .destroyed => true
  | _ => false

/-- `StopCommand::canExecute`. -/
def InternalServerState.canStop : InternalServerState → Bool
  | .waitForActivation | .activationTimeout | .active => true
  | _ => false

namespace ServerI

variable (s : ServerI ρ φ κ)

def assert (c : Bool) (s : ServerI ρ φ κ) : ServerI ρ φ κ := { s with failed := s.failed || !c }

/-! ### Commands that are done -/

/-- The callbacks of the start command. -/
def startCallbacks : List κ := (s.start.map (·.callbacks)).getD []

/-- The callbacks of the stop command. -/
def stopCallbacks : List κ := (s.stop.map (·.callbacks)).getD []

/-- The callbacks of the load command. -/
def loadCallbacks : List κ := (s.load.map (·.callbacks)).getD []

/-- The callbacks of the destroy command. -/
def destroyCallbacks : List κ := (s.destroy.map (·.callbacks)).getD []

/-- `StartCommand::finished` and `failed`, and the command is dropped. -/
def endStart : ServerI ρ φ κ :=
  { s with
    answered := s.answered ++ s.startCallbacks
    timers := s.timers.filter fun t => s.start.all (·.id ≠ t.id)
    start := none }

/-- `StopCommand::finished` and `failed`, and the command is dropped. -/
def endStop : ServerI ρ φ κ :=
  { s with
    answered := s.answered ++ s.stopCallbacks
    timers := s.timers.filter fun t => s.stop.all (·.id ≠ t.id)
    stop := none }

/-- `LoadCommand::finished` and `failed`. -/
def endLoad : ServerI ρ φ κ :=
  { s with
    answered := s.answered ++ s.loadCallbacks
    load := s.load.map ({ · with callbacks := [] }) }

/-- `DestroyCommand::finished`, and the command is dropped. -/
def endDestroy : ServerI ρ φ κ :=
  { s with
    answered := s.answered ++ s.destroyCallbacks
    destroy := none }

/-! ### States -/

section

variable [DecidableEq φ] (node : Node φ) (s : ServerI ρ φ κ)

/-- `LoadCommand::startRuntimePropertiesUpdate`, which does nothing during an update. With no set of
    properties to send, `next` calls `updateRuntimePropertiesCallback`, which locks the mutex. -/
def startRuntimePropertiesUpdate (l : LoadCommand ρ φ κ) (s : ServerI ρ φ κ) : ServerI ρ φ κ :=
  let cb := (l.resetProperties node).next
  { s with
    load := some { l with updating := true }
    failed := s.failed || !(l.updating || l.runtime.any (·.ref ≠ l.desc.ref) &&
      !(l.resetProperties node).rest.isEmpty)
    relocked := s.relocked || !(l.updating || cb.isSome)
    inFlight := s.inFlight ++ if l.updating then [] else cb.toList }

/-- The runtime properties are updated if there is a load command. -/
def startUpdate : ServerI ρ φ κ :=
  match s.load with
  | none => s
  | some l => s.startRuntimePropertiesUpdate node l

/-- The assertion of `setStateNoSync`. -/
def canSwitch (st : InternalServerState) (s : ServerI ρ φ κ) : Bool :=
  match st with
  | .loading => s.load.isSome && s.state = .inactive
  | .activating => s.start.isSome && s.state = .inactive
  | .waitForActivation => s.state = .activating
  | .activationTimeout => s.state = .waitForActivation
  | .active => s.state = .waitForActivation || s.state = .activationTimeout
  | .deactivatingWaitForProcess => s.state = .deactivating
  | .destroying => s.state = .inactive && s.destroy.isSome
  | .destroyed => s.destroy.isSome
  | _ => true

def setStateNoSync (st : InternalServerState) (s : ServerI ρ φ κ) : ServerI ρ φ κ :=
  let loaded := s.state = InternalServerState.loading
  let s := { s.assert (s.canSwitch st) with state := st }
  match st with
  | .inactive => { s with load := if loaded then none else s.load }.endStop
  | .active => if s.process.isSome then s.endStart.startUpdate node else s.endStart.endLoad
  | .activationTimeout => s.endStart
  | .deactivating => s.endStart
  | .destroying => { s.endLoad with load := none }.endStart.endStop
  | .destroyed => { s.endDestroy.endLoad with load := none, desc := none }
  | _ => s

/-- `TimedServerCommand::startTimer`. -/
def startTimer (timer : CommandTimer) (s : ServerI ρ φ κ) : ServerI ρ φ κ :=
  { s with timers := s.timers ++ [timer] }

/-- The stop command gets its target. -/
def targetStop (c : StopCommand κ) (s : ServerI ρ φ κ) : ServerI ρ φ κ :=
  { s with stop := some { c with target := s.running } }

/-- `nextCommand`. The timer of a start or stop command starts when it is executed. -/
def nextCommand : ServerI ρ φ κ × List ServerCall :=
  if s.state.canStop then
    match s.stop with
    | none => (s, [])
    | some c =>
      (((s.targetStop c).startTimer (.deactivation c.id s.running)).setStateNoSync node
        .deactivating, if c.deactivate then [.deactivate s.running] else [])
  else if s.state = .inactive then
    if s.destroy.isSome then (s.setStateNoSync node .destroying, [.destroy])
    else if s.load.isSome then (s.setStateNoSync node .loading, [.update])
    else
      match s.start with
      | none => (s, [])
      | some c =>
        ((s.startTimer (.activation c.id)).setStateNoSync node .activating, [.activate])
  else (s, [])

/-- The ids of the adapters that live as long as the server. -/
def serverLifetimeAdapters : List String := (s.adapters.filter (·.2)).map (·.1)

def checkActivation : ServerI ρ φ κ :=
  if (s.state = .waitForActivation ∨ s.state = .activationTimeout) ∧
      (s.desc.all (!·.value.processRegistered) ∨ s.process.isSome) ∧
      s.serverLifetimeAdapters.all (· ∈ s.activatedAdapters) then
    s.setStateNoSync node .active
  else s

def disableOnFailure : ServerI ρ φ κ :=
  if s.activation ≠ .disabled ∧ (node.disableOnFailure ≠ 0 ∨
      s.activation = .always ∧ (s.state = .activating ∨ s.state = .waitForActivation)) then
    { s with
      previousActivation := s.activation
      activation := .disabled
      failureTime := some s.environment.now }
  else s

/-! ### Requests -/

/-- A callback is accepted and called. -/
def respond (response : Option κ) (s : ServerI ρ φ κ) : ServerI ρ φ κ :=
  { s with accepted := s.accepted ++ response.toList, answered := s.answered ++ response.toList }

/-- A new stop command. -/
def newStop (deactivate : Bool) (s : ServerI ρ φ κ) : ServerI ρ φ κ :=
  { s with stop := some { id := s.created, deactivate }, created := s.created + 1 }

/-- The server is running and no stop is scheduled. -/
def runs : Bool := !s.state.isStopped && s.stop.isNone

/-- A running server is going to be stopped. -/
def scheduleStop : ServerI ρ φ κ := if s.runs then s.newStop true else s

/-- A callback waits for the server to be destroyed. -/
def addDestroy (clearDir : Bool) (response : Option κ) (s : ServerI ρ φ κ) : ServerI ρ φ κ :=
  let c := s.destroy.getD { clearDir }
  { s with
    destroy := some { c with callbacks := c.callbacks ++ response.toList }
    accepted := s.accepted ++ response.toList }

def checkRevision (replicaName uuid : String) (revision : Int) (s : ServerI ρ φ κ) : Bool :=
  replicaName = "Master" ||
    match s.load, s.desc with
    | some l, _ => uuid = l.desc.value.uuid && revision = l.desc.value.revision
    | none, some d => uuid = d.value.uuid && revision = d.value.revision
    | none, none => s.environment.revision.all fun r => uuid = r.1 && revision = r.2

/-- A server that is disabled because of a failure is enabled again when it is started by hand or
    late enough. -/
def reenable (activation : ServerActivation) (s : ServerI ρ φ κ) : ServerI ρ φ κ :=
  if 0 < node.disableOnFailure ∧ s.failureTime.any (fun time =>
      activation = .manual || time + node.disableOnFailure < s.environment.now) then
    { s with activation := s.previousActivation, failureTime := none }
  else s

/-- The start of a server that is not destroyed. -/
def startEnabled (activation : ServerActivation) (response : Option κ) (s : ServerI ρ φ κ) :
    ServerI ρ φ κ × List ServerCall :=
  if s.activation = .disabled then (s, [])
  else if s.activation ≠ .always ∧ activation = .always then (s.assert response.isNone, [])
  else if s.activation = .manual ∧ activation ≠ .manual then (s, [])
  else if s.activation = .session ∧ s.desc.all (·.value.sessionId = "") then (s, [])
  else if s.state = .activationTimeout ∨ s.state = .active ∨ s.state = .destroying then (s, [])
  else
    let c := s.start.getD { id := s.created }
    nextCommand node { s with
      start := some { c with callbacks := c.callbacks ++ response.toList }
      created := s.created + 1
      accepted := s.accepted ++ response.toList }

/-- `start`. -/
def startServer (activation : ServerActivation) (response : Option κ) (s : ServerI ρ φ κ) :
    ServerI ρ φ κ × List ServerCall :=
  if s.state = .destroyed then (s, [])
  else (s.reenable node activation).startEnabled node activation response

/-- `stopAsync`. -/
def stopServer (response : Option κ) (s : ServerI ρ φ κ) : ServerI ρ φ κ × List ServerCall :=
  if s.state.isStopped then (s, [])
  else
    let c := s.stop.getD { id := s.created }
    nextCommand node { s with
      stop := some { c with callbacks := c.callbacks ++ response.toList }
      created := s.created + 1
      accepted := s.accepted ++ response.toList }

/-- `destroy`. -/
def destroyServer (uuid : String) (revision : Int) (replicaName : String) (noRestart : Bool)
    (response : Option κ) (s : ServerI ρ φ κ) : ServerI ρ φ κ × List ServerCall :=
  if s.state = .destroyed ∨ s.checkRevision replicaName uuid revision = false then (s, [])
  else if s.desc.isNone then (s.respond response, [])
  else if s.runs && noRestart then (s, [])
  else nextCommand node (s.scheduleStop.addDestroy (uuid ≠ "") response)

end

section

variable [DecidableEq ρ] [DecidableEq φ] (node : Node φ) (desc : InternalServerDescriptor ρ φ)
  (s : ServerI ρ φ κ)

def updateRevision (uuid : String) (revision : Int) (s : ServerI ρ φ κ) : ServerI ρ φ κ :=
  let update (d : Shared (InternalServerDescriptor ρ φ)) :=
    { d with value := { d.value with uuid, revision } }
  { s with
    desc := s.desc.map update
    load := s.load.map fun l => { l with desc := update l.desc } }

def checkNoRestart : Bool :=
  s.desc.all fun d => d.value.sessionId = desc.sessionId && !descriptorUpdated d.value desc true

/-- The descriptor that is to be loaded, or that is loaded. -/
def latest : Option (InternalServerDescriptor ρ φ) :=
  (s.load.map (·.desc.value)).or (s.desc.map (·.value))

/-- The server does not have to be loaded again. -/
def unchanged (replicaName : String) (s : ServerI ρ φ κ) : Bool :=
  s.latest.any fun d => (replicaName ≠ "Master" || d.sessionId = desc.sessionId) &&
    !descriptorUpdated d desc

/-- A callback waits for the load command. -/
def addLoadCallback (response : κ) (s : ServerI ρ φ κ) : ServerI ρ φ κ :=
  { s with
    accepted := s.accepted ++ [response]
    load := s.load.map fun l => { l with callbacks := l.callbacks ++ [response] } }

/-- The revision is updated if it has changed. -/
def refreshRevision : ServerI ρ φ κ :=
  if s.latest.any (·.revision ≠ desc.revision) then s.updateRevision desc.uuid desc.revision else s

/-- There is no descriptor yet, or the one that is to be loaded differs. -/
def loadPending : Bool :=
  s.desc.all fun d => s.load.any (descriptorUpdated ·.desc.value d.value)

/-- A load of a descriptor that has not changed: it waits for the load command, or there is nothing
    to do. -/
def loadUnchanged (response : κ) (s : ServerI ρ φ κ) : ServerI ρ φ κ :=
  let s := s.refreshRevision desc
  if s.loadPending then s.addLoadCallback response else s.respond (some response)

/-- The load command for a new descriptor. -/
def newLoad : LoadCommand ρ φ κ :=
  let d : Shared (InternalServerDescriptor ρ φ) := ⟨s.created, desc⟩
  match s.load with
  | none => { desc := d, runtime := s.desc, clearDir := s.destroy.isSome }
  | some l => { l with desc := d, clearDir := s.destroy.isSome }

/-- How a load of a new descriptor is answered: at once, when the runtime properties are updated, or
    when the load command is executed. -/
def answerLoad (response : κ) (s : ServerI ρ φ κ) : ServerI ρ φ κ :=
  if s.stop.isSome || s.state.isStopped then s.addLoadCallback response
  else if s.state = .activating ∨ s.state = .waitForActivation ∨ s.state = .activationTimeout then
    s.respond (some response)
  else if s.state = .active then
    if s.process.isSome then (s.addLoadCallback response).startUpdate node
    else s.respond (some response)
  else s.addLoadCallback response

/-- The load command gets the new descriptor. -/
def setNewLoad : ServerI ρ φ κ :=
  { s.assert (!s.runs || s.desc.isSome) with
    load := some (s.newLoad desc)
    created := s.created + 1 }

/-- A destroy command that is not executed yet is given up. -/
def dropDestroy : ServerI ρ φ κ := if s.state = .destroying then s else s.endDestroy

/-- The revision of a server that stays active is updated. -/
def reviseActive : ServerI ρ φ κ :=
  if s.stop.isNone ∧ s.state = .active then s.updateRevision desc.uuid desc.revision else s

/-- The state before a load of a new descriptor is answered. -/
def prepareLoad (noRestart : Bool) (s : ServerI ρ φ κ) : ServerI ρ φ κ :=
  let s := s.setNewLoad desc
  let s := if noRestart then s else s.scheduleStop
  s.dropDestroy.reviseActive desc

/-- A load of a new descriptor. -/
def loadChanged (noRestart : Bool) (response : κ)
    (s : ServerI ρ φ κ) : ServerI ρ φ κ × List ServerCall :=
  nextCommand node ((s.prepareLoad desc noRestart).answerLoad node response)

/-- A load is refused. -/
def refuses (replicaName : String) (noRestart : Bool) (s : ServerI ρ φ κ) :
    Bool :=
  s.state = .destroyed || !s.checkRevision replicaName desc.uuid desc.revision ||
    (!s.unchanged desc replicaName && s.runs && noRestart && !s.checkNoRestart desc)

/-- `load`. -/
def loadServer (replicaName : String) (noRestart : Bool)
    (response : κ) (s : ServerI ρ φ κ) : ServerI ρ φ κ × List ServerCall :=
  if s.refuses desc replicaName noRestart then (s, [])
  else if s.unchanged desc replicaName then (s.loadUnchanged desc response, [])
  else s.loadChanged node desc noRestart response

/-! ### What the threads do -/

/-- `updateImpl`, as far as it can fail: what it does to the servant. -/
def updateImpl (desc : Shared (InternalServerDescriptor ρ φ)) (s : ServerI ρ φ κ) : ServerI ρ φ κ :=
  let enable := s.activation ≠ .disabled ∨ s.failureTime.isSome
  { s with
    desc := some desc
    waitForReplication := true
    adapters := desc.value.adapters
    activation := if enable then toServerActivation desc.value.activation else s.activation
    failureTime := if enable then none else s.failureTime }

/-- The descriptor is loaded. If that fails, the old one is loaded again, or the server is to be
    destroyed. -/
def updateOrRollback (desc : Shared (InternalServerDescriptor ρ φ)) (s : ServerI ρ φ κ) :
    ServerI ρ φ κ :=
  if s.environment.fails then
    match s.desc with
    | some old => (s.updateImpl desc).updateImpl old
    | none => { s.updateImpl desc with destroy := some (s.destroy.getD { loadFailure := true }) }
  else s.updateImpl desc

def update : ServerI ρ φ κ × List ServerCall :=
  match s.state, s.load with
  | .loading, some l =>
    nextCommand node ((s.updateOrRollback l.desc).endLoad.setStateNoSync node .inactive)
  | .loading, none => (s.assert false, [])
  | _, _ => (s, [])

/-- `destroy`, which has no section that changes anything. -/
def destroyFiles : ServerI ρ φ κ × List ServerCall :=
  (s.assert (s.desc.isSome && s.state = .destroying), [.destroyed])

def setState (st : InternalServerState) (s : ServerI ρ φ κ) : ServerI ρ φ κ × List ServerCall :=
  nextCommand node (s.setStateNoSync node st)

/-- The first section of `activate`. With a session the thread ends, and the reply calls `activate`
    again. -/
def activate : ServerI ρ φ κ × List ServerCall :=
  let s := s.assert (s.state = .activating && s.desc.isSome)
  if s.activation = .disabled then (s, [.activationFailed])
  else if s.waitForReplication && s.environment.session then
    ({ s with waitForReplication := false, process := none, replications := s.replications + 1 },
      [])
  else ({ s with waitForReplication := false, process := none }, [.startProcess])

/-- `Activator::activate`. The process is inserted under the id of the server, which keeps an entry
    there is. -/
def startProcess : ServerI ρ φ κ × List ServerCall :=
  if s.environment.fails then (s, [.activationFailed])
  else
    ({ s with
      started := s.started + 1
      running := s.running <|> some (s.started + 1)
      startedBy := (s.start.map (·.id)).getD s.startedBy }, [.activated])

/-- The end of `activate` when the process is started. -/
def activated : ServerI ρ φ κ × List ServerCall :=
  let s := s.assert (s.state = .activating)
  nextCommand node ((s.setStateNoSync node .waitForActivation).checkActivation node)

/-- The end of `activate` when the process cannot be started. -/
def activationFailed : ServerI ρ φ κ × List ServerCall :=
  ((s.disableOnFailure node).setStateNoSync node .deactivating, [.setInactive])

def activationTimedOut (command : Nat) (s : ServerI ρ φ κ) : ServerI ρ φ κ × List ServerCall :=
  if s.state ≠ .waitForActivation then (s, [])
  else
    nextCommand node (setStateNoSync node .activationTimeout
      { s with history := s.history ++ [.timedOut command s.startedBy] })

/-- The section of `deactivate`. -/
def deactivate (target : Option Nat) (s : ServerI ρ φ κ) : ServerI ρ φ κ × List ServerCall :=
  if s.state ≠ .deactivating ∧ s.state ≠ .deactivatingWaitForProcess then (s, [])
  else
    let s := s.assert s.desc.isSome
    if s.desc.any (·.value.processRegistered) && s.process.isNone then
      (setStateNoSync node .deactivatingWaitForProcess { s with awaited := target }, [])
    else (s, [.shutdown target s.process])

/-- `Activator::deactivate`. A request through a proxy reaches its process only while it runs. -/
def shutdown (target process : Option Nat) (s : ServerI ρ φ κ) : ServerI ρ φ κ × List ServerCall :=
  match process with
  | none => (s, [.sendSignal target .deactivate])
  | some n =>
    ({ s with
      shutdowns := s.shutdowns ++ [target]
      history := if s.running = some n then s.history ++ [.signal target n] else s.history }, [])

/-- The section of `kill`. -/
def kill (target : Option Nat) (s : ServerI ρ φ κ) : ServerI ρ φ κ × List ServerCall :=
  if s.state ≠ .destroying ∧ s.state ≠ .deactivating ∧
    s.state ≠ .deactivatingWaitForProcess then (s, [])
  else (s, [.sendSignal target .kill])

/-- `Activator::sendSignal`: the process is looked up by the id of the server. -/
def sendSignal (target : Option Nat) (signaller : Signaller) (s : ServerI ρ φ κ) :
    ServerI ρ φ κ × List ServerCall :=
  match s.running with
  | none => (s, [])
  | some n =>
    if s.environment.signalFails then
      (s, match signaller with
        | .deactivate => [.sendSignal target .kill]
        | .kill => [.signalFailed target]
        | .callback => [])
    else ({ s with history := s.history ++ [.signal target n] }, [])

/-- A process that cannot be killed is given up. -/
def signalFailed (target : Option Nat) (s : ServerI ρ φ κ) : ServerI ρ φ κ × List ServerCall :=
  setState node .inactive { s with history := s.history ++ [.abandoned target s.started] }

/-- The adapters are not active any more, and a server that failed may be disabled. -/
def processFailed (failed : Bool) (s : ServerI ρ φ κ) : ServerI ρ φ κ :=
  if failed then disableOnFailure node { s with activatedAdapters := [] }
  else { s with activatedAdapters := [] }

/-- What follows the first section of `terminated`: the direct proxies of the adapters are set to
    null. -/
def terminatedCalls : List ServerCall :=
  s.adapters.map (fun a => .adapterDeactivated a.1) ++ [.setTerminated]

/-- The first section of `terminated`, which waits for the end of the activation. -/
def terminated (failed : Bool) (s : ServerI ρ φ κ) : ServerI ρ φ κ × List ServerCall :=
  if s.state = .activating then (s, [.terminated failed])
  else
    (if s.state = .deactivating ∨ s.state = .deactivatingWaitForProcess ∨ s.state = .destroying then
        s.processFailed node failed
      else (s.processFailed node failed).setStateNoSync node .deactivating,
      s.terminatedCalls)

/-- The second section of `terminated`. -/
def setTerminated : ServerI ρ φ κ × List ServerCall :=
  if s.state = .destroying then (s, [.destroy]) else s.setState node .inactive

/-- `adapterDeactivated`, which waits for the end of the activation. -/
def adapterDeactivated (id : String) (s : ServerI ρ φ κ) : ServerI ρ φ κ × List ServerCall :=
  if s.state = .activating then (s, [.adapterDeactivated id])
  else if (s.state = .active ∨ s.state = .waitForActivation) ∧ id ∈ s.serverLifetimeAdapters then
    nextCommand node (s.newStop false)
  else s.nextCommand node

def adapterActivated (id : String) (s : ServerI ρ φ κ) : ServerI ρ φ κ × List ServerCall :=
  if s.state ≠ .activating ∧ s.state ≠ .waitForActivation ∧
    s.state ≠ .activationTimeout then (s, [])
  else nextCommand node (checkActivation node
    { s with activatedAdapters := s.activatedAdapters.insert id })

/-- `setProcessAsync`. -/
def setProcess (process : Nat) (s : ServerI ρ φ κ) : ServerI ρ φ κ × List ServerCall :=
  if s.state = .destroyed then (s, [])
  else if s.state = .deactivatingWaitForProcess then
    ({ s with process := some process }, [.deactivate s.awaited])
  else nextCommand node (checkActivation node { s with process := some process })

/-- The section of `setEnabled`. The start that may follow is an event. -/
def setEnabled (enabled : Bool) (s : ServerI ρ φ κ) : ServerI ρ φ κ :=
  if s.state = .destroyed then s
  else
    let s := s.assert s.desc.isSome
    if enabled && s.activation = .disabled then
      { s with
        failureTime := none
        activation :=
          (s.desc.map fun desc => toServerActivation desc.value.activation).getD s.activation }
    else if !enabled && (s.activation ≠ .disabled || s.failureTime.isSome) then
      { s with failureTime := none, activation := .disabled }
    else s

def updateRuntimePropertiesCallback (desc : Shared (InternalServerDescriptor ρ φ))
    (succeeded : Bool) (s : ServerI ρ φ κ) : ServerI ρ φ κ :=
  match s.state, s.load with
  | .active, some l =>
    let s := s.assert s.process.isSome
    let l := { l with updating := false, runtime := some desc }
    if l.desc.ref ≠ desc.ref then s.startRuntimePropertiesUpdate node l
    else if succeeded then { s with load := some l, desc := some l.desc }.endLoad
    else { { s with load := some l }.endLoad with load := none }
  | _, _ => s

/-- A set of properties is answered. -/
def propertiesReply (cb : ResetProperties ρ φ) (succeeded : Bool) (s : ServerI ρ φ κ) :
    ServerI ρ φ κ :=
  let s := { s with inFlight := s.inFlight.erase cb }
  match succeeded, cb.next with
  | true, some cb => { s with inFlight := s.inFlight ++ [cb] }
  | _, _ => s.updateRuntimePropertiesCallback node cb.desc succeeded

def exec : ServerCall → ServerI ρ φ κ → ServerI ρ φ κ × List ServerCall
  | .update, s => s.update node
  | .destroy, s => s.destroyFiles
  | .destroyed, s => s.setState node .destroyed
  | .activate, s => s.activate
  | .startProcess, s => s.startProcess
  | .activated, s => s.activated node
  | .activationFailed, s => s.activationFailed node
  | .setInactive, s => s.setState node .inactive
  | .deactivate target, s => s.deactivate node target
  | .shutdown target process, s => s.shutdown target process
  | .kill target, s => s.kill target
  | .sendSignal target signaller, s => s.sendSignal target signaller
  | .signalFailed target, s => s.signalFailed node target
  | .activationTimedOut command, s => s.activationTimedOut node command
  | .terminated failed, s => s.terminated node failed
  | .adapterDeactivated id, s => s.adapterDeactivated node id
  | .setTerminated, s => s.setTerminated node

/-- The effect of an event. A timer fires once, a process ends once, and a request is answered
    once. -/
def spawn : ServerEvent ρ φ κ → ServerI ρ φ κ → Option (ServerI ρ φ κ × List ServerCall)
  | .environment environment, s => some ({ s with environment }, [])
  | .load desc replicaName noRestart response, s =>
    some (s.loadServer node desc replicaName noRestart response)
  | .start activation response, s => some (s.startServer node activation response)
  | .stop response, s => some (s.stopServer node response)
  | .destroy uuid revision replicaName noRestart response, s =>
    some (s.destroyServer node uuid revision replicaName noRestart response)
  | .setProcess process, s => some (s.setProcess node process)
  | .setEnabled enabled, s => some (s.setEnabled enabled, [])
  | .adapterActivated id, s => some (s.adapterActivated node id)
  | .adapterDeactivated id, s => some (s, [.adapterDeactivated id])
  | .timer timer, s =>
    if timer ∈ s.timers then
      some ({ s with timers := s.timers.erase timer }, [timer.call])
    else none
  | .terminated failed, s =>
    if s.running.isSome then some ({ s with running := none }, [.terminated failed]) else none
  | .applicationUpdated, s =>
    if 0 < s.replications then some ({ s with replications := s.replications - 1 }, [.activate])
    else none
  | .properties cb succeeded, s =>
    if cb ∈ s.inFlight then some (s.propertiesReply node cb succeeded, []) else none
  | .shutdown target succeeded, s =>
    if target ∈ s.shutdowns then
      some ({ s with shutdowns := s.shutdowns.erase target },
        if succeeded then [] else [.sendSignal target .callback])
    else none

/-- A servant that was just created. -/
def initial : Threads (ServerI ρ φ κ) ServerCall := ⟨{}, []⟩

end

end ServerI

end Ice.IceGrid
