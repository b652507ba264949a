import Ice.Misc.Threads

/-!
# The registry's entry of a server

`ServerEntry` (`cpp/src/IceGrid/ServerCache.cpp:318-985, 1076-1228`) brings a server to the state of
its latest deployment. Three optional descriptors say what is loaded on a node, what is to be loaded
and what is to be destroyed first. `syncImpl` sends a request to a node, and the callbacks for the
replies decide what to send next.

Every critical section holds the mutex that the entry shares with its allocations. Requests are sent
and callbacks are called outside of it.
-/

namespace Ice.IceGrid

open Misc

variable {ν δ π κ : Type}

/-- What the entry reads of the information on a server: the node, whether the activation mode is
    session, and the session that allocated the server. `descriptor` is all the rest. -/
structure ServerInfo (ν δ : Type) where
  node : ν
  session : Bool
  descriptor : δ
  sessionId : String := ""
deriving DecidableEq, Repr

/-- A request to a node. -/
inductive NodeRequest (ν δ : Type) where
  | load (info : ServerInfo ν δ) (session : Option String) (timeout : Int) (noRestart : Bool)
  | destroy (info : ServerInfo ν δ) (timeout : Int) (noRestart : Bool)
deriving DecidableEq, Repr

/-- Why a synchronization failed. -/
inductive SyncException where
  | deployment
  | nodeUnreachable
deriving DecidableEq, Repr

/-- What is recorded of a run. -/
inductive Mark (ν δ : Type) where
  /-- a load is sent; the nodes that acknowledged a load and that no destroy request was sent to and
      answered by since, and whether the server was updated since the last synchronization that
      succeeded -/
  | loading (info : ServerInfo ν δ) (noRestart : Bool) (owed : List ν) (stale : Bool)
  /-- a synchronization ends without exception with the acknowledgment of a load; the most recent
      update and the session that has allocated the server -/
  | synchronized (info : ServerInfo ν δ) (update : Option (ServerInfo ν δ)) (holder : Option String)
deriving DecidableEq, Repr

/-- `ServerEntry`. The proxy stands for the server proxy and those of the adapters. The fields from
    `inFlight` on are not part of the program. -/
structure ServerEntry (ν δ π κ : Type) where
  loaded : Option (ServerInfo ν δ) := none
  load : Option (ServerInfo ν δ) := none
  destroy : Option (ServerInfo ν δ) := none
  proxy : Option π := none
  activationTimeout : Int := -1
  deactivationTimeout : Int := -1
  synchronizing : Bool := false
  updated : Bool := false
  exception : Option SyncException := none
  noRestart : Bool := false
  callbacks : List κ := []
  allocationSession : Option String := none
  /-- the requests that are not answered -/
  inFlight : List (NodeRequest ν δ) := []
  /-- an assertion failed or a null pointer was dereferenced -/
  failed : Bool := false
  /-- what `update` was last called with -/
  lastUpdate : Option (ServerInfo ν δ) := none
  /-- the session that has allocated the server -/
  holder : Option String := none
  /-- the nodes that acknowledged a load and no destroy request since -/
  owed : List ν := []
  /-- there was an update since the last synchronization that succeeded -/
  stale : Bool := false
  accepted : List κ := []
  called : List κ := []
  history : List (Mark ν δ) := []
deriving DecidableEq, Repr

/-- What a thread has still to do. -/
inductive EntryCall (ν δ : Type) where
  | syncImpl
  /-- `allocatedNoSync` and `releasedNoSync` -/
  | noSync
  | send (request : NodeRequest ν δ)
  | synchronized
deriving DecidableEq, Repr

/-- How a request ends. -/
inductive NodeReply (π : Type) where
  | response (proxy : π) (activationTimeout deactivationTimeout : Int)
  | exception (ex : SyncException)
deriving DecidableEq, Repr

inductive EntryEvent (ν δ π κ : Type) where
  | update (info : ServerInfo ν δ) (noRestart : Bool)
  | destroy (noRestart : Bool)
  | unsync
  | sync
  | addSyncCallback (callback : κ)
  | allocated (session : String)
  | released
  | reply (request : NodeRequest ν δ) (reply : NodeReply π)
deriving DecidableEq, Repr

namespace ServerEntry

variable [DecidableEq ν] [DecidableEq δ] (s : ServerEntry ν δ π κ)

def assert (c : Bool) : ServerEntry ν δ π κ := { s with failed := s.failed || !c }

/-- The load request for the current information. -/
def loadRequest (info : ServerInfo ν δ) (timeout : Int) : NodeRequest ν δ :=
  .load info s.allocationSession timeout s.noRestart

/-- The section of `syncImpl`, and the request to send. -/
def syncImpl : ServerEntry ν δ π κ × List (EntryCall ν δ) :=
  if s.synchronizing then (s, [])
  else
    -- re-load the current server
    let s := if s.load.isNone ∧ s.destroy.isNone then
      { s with load := s.loaded, loaded := none } else s
    let s := { s with updated := false, exception := none }
    match s.destroy, s.load with
    | some destroy, _ =>
      ({ s with synchronizing := true },
        [.send (.destroy destroy s.deactivationTimeout s.noRestart)])
    | none, some load =>
      ({ s with synchronizing := true }, [.send (s.loadRequest load s.deactivationTimeout)])
    | none, none => (s, [])

/-- The section of `allocatedNoSync` and `releasedNoSync`. -/
def noSync : ServerEntry ν δ π κ × List (EntryCall ν δ) :=
  if !s.updated || s.loaded.any (!·.session) || s.load.any (!·.session) then (s, [])
  else (s, [.syncImpl])

/-- A request is sent to its node. A node that does not exist or cannot be reached answers with an
    exception. -/
def send (request : NodeRequest ν δ) (s : ServerEntry ν δ π κ) : ServerEntry ν δ π κ :=
  { s with
    inFlight := s.inFlight ++ [request]
    history := match request with
      | .load info _ _ noRestart => s.history ++ [.loading info noRestart s.owed s.stale]
      | .destroy _ _ _ => s.history }

/-- `synchronized`: the callbacks are called. -/
def synchronized : ServerEntry ν δ π κ :=
  { s with callbacks := [], called := s.called ++ s.callbacks }

def exec : EntryCall ν δ → ServerEntry ν δ π κ → ServerEntry ν δ π κ × List (EntryCall ν δ)
  | .syncImpl, s => s.syncImpl
  | .noSync, s => s.noSync
  | .send request, s => (s.send request, [])
  | .synchronized, s => (s.synchronized, [])

def unsync : ServerEntry ν δ π κ :=
  { s with
    load := s.loaded.or s.load
    loaded := none
    proxy := none
    activationTimeout := -1
    deactivationTimeout := -1 }

/-- The descriptor that an update to another node leaves to be destroyed. -/
def displaced (node : ν) : Option (ServerInfo ν δ) :=
  if s.loaded.any (node ≠ ·.node) then s.loaded
  else if s.load.any (node ≠ ·.node) then s.load
  else none

def update (info : ServerInfo ν δ) (noRestart : Bool) : ServerEntry ν δ π κ :=
  { s with
    updated := true
    destroy := if s.destroy.isNone then s.displaced info.node else s.destroy
    load :=
      some (if info.session then { info with sessionId := s.allocationSession.getD "" } else info)
    noRestart
    loaded := none
    lastUpdate := some info
    stale := true }

/-- `destroy`. -/
def remove (noRestart : Bool) : ServerEntry ν δ π κ :=
  let s := s.assert (s.loaded.isSome || s.load.isSome)
  { s with
    updated := true
    destroy := if s.destroy.isNone then s.loaded.or s.load else s.destroy
    noRestart
    load := none
    loaded := none
    stale := true }

/-- `addSyncCallback`, which throws if there is no server. -/
def addSyncCallback (callback : κ) : ServerEntry ν δ π κ :=
  if s.loaded.isNone ∧ s.load.isNone then s
  else if s.synchronizing then
    { s with callbacks := s.callbacks ++ [callback], accepted := s.accepted ++ [callback] }
  else s

/-- What `allocated` and `released` do to a server with the activation mode session: it is loaded
    again. -/
def setSession (session : Option String) : ServerEntry ν δ π κ :=
  match s.loaded.or s.load with
  | none => s
  | some info =>
    if info.session then
      { s with
        updated := true
        load := (s.load.or s.loaded).map fun load => { load with sessionId := session.getD "" }
        loaded := if s.load.isNone then none else s.loaded
        allocationSession := session }
    else s

/-- The section of `loadCallback`. -/
def loadCallback (info : ServerInfo ν δ) (proxy : π)
    (activationTimeout deactivationTimeout : Int) : ServerEntry ν δ π κ × List (EntryCall ν δ) :=
  -- the node has acknowledged the load
  let s := { s with owed := if info.node ∈ s.owed then s.owed else info.node :: s.owed }
  if !s.updated then
    let s := s.assert s.load.isSome
    let s := { s with
      loaded := s.load, load := none, proxy := some proxy, activationTimeout, deactivationTimeout }
    let s := s.assert (s.destroy.isNone && s.load.isNone)
    let s := { s with
      synchronizing := false
      stale := false
      history := s.history ++ [.synchronized info s.lastUpdate s.holder] }
    (s, [.synchronized])
  else
    let s := { s with updated := false }
    match s.destroy, s.load with
    | some destroy, _ => (s, [.send (.destroy destroy (-1) s.noRestart)])
    | none, some load => (s, [.send (s.loadRequest load s.deactivationTimeout)])
    | none, none => (s.assert false, [])

/-- The node has answered a request to destroy the server. -/
def settle (node : ν) : ServerEntry ν δ π κ :=
  { s with owed := s.owed.filter (· ≠ node) }

/-- The proxies are forgotten. -/
def clearProxies : ServerEntry ν δ π κ :=
  { s with proxy := none, activationTimeout := -1, deactivationTimeout := -1 }

/-- The section of `destroyCallback`. The entry is removed from the cache when there is nothing to
    load. -/
def destroyCallback : ServerEntry ν δ π κ × List (EntryCall ν δ) :=
  let s := { s with destroy := none }.clearProxies
  match s.load with
  | none => ({ s.assert s.loaded.isNone with synchronizing := false }, [.synchronized])
  | some load => ({ s with updated := false }, [.send (s.loadRequest load (-1))])

/-- The section of `exception`. -/
def exceptionCallback (ex : SyncException) :
    ServerEntry ν δ π κ × List (EntryCall ν δ) :=
  if s.destroy.isSome ∧ s.load.isNone ∨ s.destroy.isNone ∧ !s.updated then
    ({ { s with destroy := none, exception := some ex }.clearProxies with synchronizing := false },
      [.synchronized])
  else
    let s := { s with destroy := none, updated := false }
    match s.load with
    | some load => (s, [.send (s.loadRequest load s.deactivationTimeout)])
    | none => (s.assert false, [])

/-- The thread of a reply. -/
def reply (s : ServerEntry ν δ π κ) (request : NodeRequest ν δ) (reply : NodeReply π) :
    ServerEntry ν δ π κ × List (EntryCall ν δ) :=
  let s := { s with inFlight := s.inFlight.erase request }
  match request, reply with
  | .load info _ _ _, .response proxy activationTimeout deactivationTimeout =>
    s.loadCallback info proxy activationTimeout deactivationTimeout
  | .load _ _ _ _, .exception ex => s.exceptionCallback ex
  | .destroy info _ _, .response _ _ _ => (s.settle info.node).destroyCallback
  | .destroy info _ _, .exception ex => (s.settle info.node).exceptionCallback ex

/-- The effect of an event. A server is removed only while there is one, and it is allocated by one
    session at a time. -/
def spawn : EntryEvent ν δ π κ → ServerEntry ν δ π κ →
    Option (ServerEntry ν δ π κ × List (EntryCall ν δ))
  | .update info noRestart, s => some (s.update info noRestart, [])
  | .destroy noRestart, s =>
    if s.loaded.isSome ∨ s.load.isSome then some (s.remove noRestart, []) else none
  | .unsync, s => some (s.unsync, [])
  | .sync, s => some (s, [.syncImpl])
  | .addSyncCallback callback, s => some (s.addSyncCallback callback, [])
  | .allocated session, s =>
    if s.holder.isNone then
      some ({ s.setSession (some session) with holder := some session }, [.noSync])
    else none
  | .released, s =>
    if s.holder.isSome then some ({ s.setSession none with holder := none }, [.noSync]) else none
  | .reply request reply, s => if request ∈ s.inFlight then some (s.reply request reply) else none

/-- An entry that was just created. -/
def start : Threads (ServerEntry ν δ π κ) (EntryCall ν δ) := ⟨{}, []⟩

end ServerEntry

end Ice.IceGrid
