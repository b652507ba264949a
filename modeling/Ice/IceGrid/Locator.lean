import Ice.Misc.Threads

/-!
# The locator's requests for replica groups

`LocatorI` (`cpp/src/IceGrid/LocatorI.cpp:86-298, 839-948`) answers a request for a replica group
from the direct proxies of its adapters. A `ReplicaGroupRequest` asks as many adapters as proxies
are wanted, and another one for each adapter that fails or whose server is being activated.
`LocatorI::getDirectProxy` makes one invocation on an adapter for all requests that ask for it.

The requests and the locator have mutexes of their own, so that each critical section is one call of
a thread. The other kinds of requests ask for adapters too, whenever they like.
-/

namespace Ice.IceGrid

open Misc

structure EncodingVersion where
  major : UInt8
  minor : UInt8
deriving DecidableEq, Repr

/-- `IceInternal::isSupported`. -/
def isSupported (version supported : EncodingVersion) : Bool :=
  version.major = supported.major ∧ version.minor ≤ supported.minor

/-- What is used of the direct proxy of an adapter. -/
structure DirectProxy (E : Type) where
  encoding : EncodingVersion
  endpoints : List E
deriving DecidableEq, Repr

/-- The exceptions of an invocation on an adapter. -/
inductive AdapterException where
  | adapterNotActive (activatable : Bool)
  | featureNotSupported
  | other
deriving DecidableEq, Repr

variable {ρ α E : Type}

/-- A response that was sent, and what was known then: the adapters that had answered and those that
    had failed. -/
structure Sent (α E : Type) where
  response : Option (List E)
  answered : List (α × DirectProxy E)
  failed : List α
deriving DecidableEq, Repr

/-- `ReplicaGroupRequest`. `lastAdapter` are the adapters from `_lastAdapter` on. The fields from
    `asked` on are not part of the program: the adapters that were asked, the outcomes, and the
    responses. -/
structure ReplicaGroupRequest (α E : Type) where
  encoding : EncodingVersion
  adapters : List α
  count : Nat
  lastAdapter : List α
  proxies : List (α × DirectProxy E) := []
  exptr : Option AdapterException := none
  requested : Nat := count
  asked : List α := []
  answered : List (α × DirectProxy E) := []
  failed : List α := []
  sent : List (Sent α E) := []
deriving DecidableEq, Repr

namespace ReplicaGroupRequest

variable [DecidableEq α] (q : ReplicaGroupRequest α E)

/-- The endpoints of the response, none if there is no proxy. -/
def endpoints : Option (List E) :=
  match q.proxies with
  | [] => none
  | [(_, proxy)] => some proxy.endpoints
  | proxies => some (q.adapters.flatMap fun adapter =>
      match proxies.lookup adapter with
      | some proxy => proxy.endpoints
      | none => [])

def sendResponse : ReplicaGroupRequest α E :=
  { q with sent := q.sent ++ [⟨q.endpoints, q.answered, q.failed⟩] }

/-- The constructor, without a first proxy. -/
def new (encoding : EncodingVersion) (adapters : List α) (count : Nat) : ReplicaGroupRequest α E :=
  { encoding, adapters, count := if adapters = [] then 0 else count, lastAdapter := adapters,
    requested := count }

/-- The section of `execute`, and the adapters to ask. -/
def execute : ReplicaGroupRequest α E × List α :=
  let wanted := q.count - q.proxies.length
  let adapters := q.lastAdapter.take wanted
  let q := { q with
    -- fewer proxies are expected if there are not enough adapters
    count := if adapters.length < wanted then q.proxies.length + adapters.length else q.count
    lastAdapter := q.lastAdapter.drop wanted
    asked := q.asked ++ adapters }
  if q.proxies.length = q.count then (q.sendResponse, []) else (q, adapters)

/-- The section of `activating`: the next adapter is asked. -/
def activating : ReplicaGroupRequest α E × List α :=
  match q.lastAdapter with
  | [] => (q, [])
  | adapter :: lastAdapter =>
    ({ q with lastAdapter, asked := q.asked ++ [adapter] }, [adapter])

/-- The section of `exception`. -/
def exception (id : α) (ex : AdapterException) :
    ReplicaGroupRequest α E × List α :=
  let q := { q with failed := q.failed ++ [id] }
  if q.proxies.length = q.count then (q, [])
  else
    let q := { q with exptr := q.exptr.or (some ex) }
    match q.lastAdapter with
    | [] =>
      let q := { q with count := q.count - 1 }
      if q.count = q.proxies.length then (q.sendResponse, []) else (q, [])
    | adapter :: lastAdapter =>
      ({ q with lastAdapter, asked := q.asked ++ [adapter] }, [adapter])

def response (id : α) (proxy : DirectProxy E) :
    ReplicaGroupRequest α E × List α :=
  if isSupported q.encoding proxy.encoding = false then q.exception id .featureNotSupported
  else
    let q := { q with answered := q.answered ++ [(id, proxy)] }
    if q.proxies.length = q.count then (q, [])
    else
      let q := if (q.proxies.lookup id).isSome then
        q else { q with proxies := q.proxies ++ [(id, proxy)] }
      if q.proxies.length = q.count then (q.sendResponse, []) else (q, [])

end ReplicaGroupRequest

/-! ## The locator -/

/-- The two operations on an adapter. -/
inductive Operation where
  | getDirectProxy
  | activate
deriving DecidableEq, Repr

/-- How an invocation ends. -/
inductive Reply (E : Type) where
  | response (proxy : Option (DirectProxy E))
  | exception (ex : AdapterException)
deriving DecidableEq, Repr

def Reply.isNull : Reply E → Bool
  | .response none => true
  | _ => false

/-- `LocatorI`. Requests of other kinds have no state here. The invocations that are not answered
    yet are not part of the program. -/
structure LocatorI (ρ α E : Type) where
  requests : ρ → Option (ReplicaGroupRequest α E) := fun _ => none
  others : ρ → Bool := fun _ => false
  pendingRequests : α → Option (List ρ) := fun _ => none
  activating : α → Bool := fun _ => false
  invocations : List (α × Operation) := []

/-- What a thread has still to do. -/
inductive Call (ρ α E : Type) where
  /-- `getDirectProxy`, and `activating` if it returns true -/
  | getDirectProxy (adapter : α) (request : ρ)
  | invoke (adapter : α) (operation : Operation)
  | activating (request : ρ)
  | response (request : ρ) (id : α) (proxy : DirectProxy E)
  | exception (request : ρ) (id : α) (ex : AdapterException)
deriving DecidableEq, Repr

/-- What happens from outside. -/
inductive Event (ρ α E : Type) where
  /-- `findAdapterById` for a replica group -/
  | findAdapterById (request : ρ) (encoding : EncodingVersion) (adapters : List α) (count : Nat)
  /-- a request of another kind asks for an adapter -/
  | other (request : ρ) (adapter : α)
  | reply (adapter : α) (operation : Operation) (reply : Reply E)
deriving DecidableEq, Repr

namespace LocatorI

variable [DecidableEq ρ] [DecidableEq α]

/-- A section of a request, and the queries it leads to. -/
def update (request : ρ)
    (section_ : ReplicaGroupRequest α E → ReplicaGroupRequest α E × List α) (s : LocatorI ρ α E) :
    LocatorI ρ α E × List (Call ρ α E) :=
  match s.requests request with
  | none => (s, [])
  | some q =>
    ({ s with requests := Function.update s.requests request (some (section_ q).1) },
      (section_ q).2.map (.getDirectProxy · request))

/-- The critical section of a call. -/
def exec : Call ρ α E → LocatorI ρ α E → LocatorI ρ α E × List (Call ρ α E)
  | .getDirectProxy adapter request, s =>
    match s.pendingRequests adapter with
    | some requests =>
      ({ s with
          pendingRequests :=
            Function.update s.pendingRequests adapter (some (requests ++ [request])) },
        if s.activating adapter then [.activating request] else [])
    | none =>
      ({ s with pendingRequests := Function.update s.pendingRequests adapter (some [request]) },
        [.invoke adapter .getDirectProxy])
  | .invoke adapter operation, s =>
    ({ s with invocations := s.invocations ++ [(adapter, operation)] }, [])
  | .activating request, s => s.update request (·.activating)
  | .response request id proxy, s => s.update request (·.response id proxy)
  | .exception request id ex, s => s.update request (·.exception id ex)

/-- The requests that wait for an adapter are taken. -/
def takePending (adapter : α) (s : LocatorI ρ α E) : LocatorI ρ α E :=
  { s with
    pendingRequests := Function.update s.pendingRequests adapter none
    activating := Function.update s.activating adapter false }

def getDirectProxyResponse (adapter : α) (proxy : Option (DirectProxy E)) (s : LocatorI ρ α E) :
    LocatorI ρ α E × List (Call ρ α E) :=
  let requests := (s.pendingRequests adapter).getD []
  (s.takePending adapter,
    match proxy with
    | some proxy => requests.map (.response · adapter proxy)
    | none => requests.map (.exception · adapter (.adapterNotActive false)))

def getDirectProxyException (adapter : α) (ex : AdapterException) (s : LocatorI ρ α E) :
    LocatorI ρ α E × List (Call ρ α E) :=
  let requests := (s.pendingRequests adapter).getD []
  if ex = .adapterNotActive true then
    ({ s with activating := Function.update s.activating adapter true },
      requests.map .activating ++ [.invoke adapter .activate])
  else (s.takePending adapter, requests.map (.exception · adapter ex))

/-- The effect of an event, and what its thread has to do. The adapters of a replica group are
    distinct and at least one of them is requested. Nothing is known of a request before. -/
def spawn : Event ρ α E → LocatorI ρ α E → Option (LocatorI ρ α E × List (Call ρ α E))
  | .findAdapterById request encoding adapters count, s =>
    if (s.requests request).isNone ∧ s.others request = false ∧ adapters.Nodup ∧ 1 ≤ count then
      let (q, asked) := (ReplicaGroupRequest.new encoding adapters count).execute
      some ({ s with requests := Function.update s.requests request (some q) },
        asked.map (.getDirectProxy · request))
    else none
  | .other request adapter, s =>
    if (s.requests request).isNone then
      some ({ s with others := Function.update s.others request true },
        [.getDirectProxy adapter request])
    else none
  | .reply adapter operation reply, s =>
    -- `getDirectProxy` returns no null proxy
    if (adapter, operation) ∈ s.invocations ∧
        ¬ (operation = .getDirectProxy ∧ reply.isNull = true) then
      let s := { s with invocations := s.invocations.erase (adapter, operation) }
      match reply with
      | .response proxy => some (s.getDirectProxyResponse adapter proxy)
      | .exception ex => some (s.getDirectProxyException adapter ex)
    else none

end LocatorI

end Ice.IceGrid
