import Mathlib

/-!
# Requests routed by Glacier2

A client of a Glacier2 router sends its requests to the router, whose `ClientBlobject`
(`cpp/src/Glacier2/ClientBlobject.cpp`) forwards them to the back end with `Blobject::invoke`
(`cpp/src/Glacier2/Blobject.cpp:154-222`). When `Glacier2.AddConnectionContext` is 1, the router
adds what it knows about the client's connection to the request context, under keys that
`CreateSession` reserves (`cpp/src/Glacier2/SessionRouterI.cpp:373-413`).
-/

namespace Ice.Glacier2

/-- `Ice::Context`, a `std::map` of strings. -/
abbrev Context := AList (fun _ : String => String)

structure IPConnectionInfo where
  localAddress : String
  localPort : Int
  remoteAddress : String
  remotePort : Int
deriving DecidableEq, Repr

/-- One object of the chain of `Ice::ConnectionInfo` objects linked by `underlying`. -/
inductive ConnectionInfo (γ : Type) where
  | ip (info : IPConnectionInfo)
  /-- `Ice::SSL::ConnectionInfo`, with the certificate of the peer if it has one -/
  | ssl (peerCertificate : Option γ)
  | other
deriving DecidableEq, Repr

/-- The connection of a client: its type and its chain of `ConnectionInfo` objects. -/
structure Connection (γ : Type) where
  type : String
  info : List (ConnectionInfo γ)

variable {γ : Type}

/-- `getIPConnectionInfo`: the first IP object of the chain. -/
def getIPConnectionInfo (info : List (ConnectionInfo γ)) : Option IPConnectionInfo :=
  info.findSome? fun
    | .ip i => some i
    | _ => none

/-- `getSSLConnectionInfo`: the certificate of the first SSL object of the chain. -/
def getSSLConnectionInfo (info : List (ConnectionInfo γ)) : Option (Option γ) :=
  info.findSome? fun
    | .ssl certificate => some certificate
    | _ => none

/-- The keys that `CreateSession` reserves for the router. -/
def reservedKeys : List String :=
  ["_con.type", "_con.remotePort", "_con.remoteAddress", "_con.localPort", "_con.localAddress",
    "_con.peerCert"]

variable (encodeCertificate : γ → String) (i : Instance) (con : Connection γ)

/-- The context that `CreateSession` derives from the connection of the client. Encoding a
    certificate is left to the SSL library. -/
def connectionContext : Context :=
  let context : Context := AList.insert "_con.type" con.type ∅
  let context :=
    match getIPConnectionInfo con.info with
    | none => context
    | some info =>
      ((((context.insert "_con.remotePort" (toString info.remotePort)).insert
        "_con.remoteAddress" info.remoteAddress).insert
        "_con.localPort" (toString info.localPort)).insert
        "_con.localAddress" info.localAddress)
  match getSSLConnectionInfo con.info with
  | some (some certificate) => context.insert "_con.peerCert" (encodeCertificate certificate)
  | _ => context

/-- The properties of the router that routing reads. -/
structure Instance where
  clientForwardContext : Bool
  /-- 0, 1 or 2 (`cpp/src/Glacier2/Instance.cpp:153`) -/
  addConnectionContext : Fin 3

/-- The context that `CreateSession` gathers. -/
def createSessionContext :
    Context :=
  if i.addConnectionContext > 0 then connectionContext encodeCertificate con else ∅

/-- The context that `CreateSession::sessionCreated` gives to the `RouterI` it makes, and that the
    `RouterI` gives to its `ClientBlobject`. -/
def routerContext : Context :=
  if i.addConnectionContext = 1 then createSessionContext encodeCertificate i con else ∅

structure Identity where
  name : String
  category : String
deriving DecidableEq, Repr

/-- How a proxy sends its requests. -/
inductive InvocationMode where
  | twoway
  | oneway
  | batchOneway
  | datagram
  | batchDatagram
deriving DecidableEq, Repr

/-- What routing reads and changes of a proxy. -/
structure Proxy where
  identity : Identity
  adapterId : String := ""
  facet : String := ""
  mode : InvocationMode := .twoway
  compress : Option Bool := none
deriving DecidableEq, Repr

inductive OperationMode where
  | normal
  | idempotent
deriving DecidableEq, Repr

/-- What a dispatch reads of `Ice::Current`. -/
structure Current where
  id : Identity
  facet : String := ""
  operation : String := ""
  mode : OperationMode := .normal
  requestId : Int := 0
  ctx : Context := ∅

/-- The arguments of `ice_invokeAsync`. A request sent without a context argument has `none`. -/
structure Invocation where
  proxy : Proxy
  operation : String
  mode : OperationMode
  inParams : List UInt8
  context : Option Context

/-- One option of the `_fwd` context. -/
def Proxy.forwardOption (proxy : Proxy) : Char → Proxy
  | 't' => { proxy with mode := .twoway }
  | 'o' => { proxy with mode := .oneway }
  | 'd' => { proxy with mode := .datagram }
  -- batch requests are forwarded as oneway or datagram requests
  | 'O' => { proxy with mode := .oneway }
  | 'D' => { proxy with mode := .datagram }
  | 'z' => { proxy with compress := some true }
  | _ => proxy

/-- `Blobject::invoke`, where `context` is the member `_context`. -/
def invoke (forwardContext : Bool) (context : Context) (proxy : Proxy) (inParams : List UInt8)
    (current : Current) : Invocation :=
  let proxy := if current.facet.isEmpty then proxy else { proxy with facet := current.facet }
  let proxy :=
    if current.requestId = 0 then { proxy with mode := .oneway }
    else if current.requestId > 0 then { proxy with mode := .twoway }
    else proxy
  let proxy :=
    match current.ctx.lookup "_fwd" with
    | none => proxy
    | some options => options.toList.foldl Proxy.forwardOption proxy
  { proxy
    operation := current.operation
    mode := current.mode
    inParams
    context :=
      if forwardContext then
        if context.keys.length > 0 then
          -- `map::insert` leaves the entries that are there as they are
          some (current.ctx ∪ context)
        else
          some current.ctx
      else if context.keys.length > 0 then
        some context
      else
        none }

/-- `FilterT`: an empty filter matches everything. -/
structure Filter (α : Type) where
  items : List α

/-- `FilterT::match`. -/
def Filter.matches {α : Type} [DecidableEq α] (f : Filter α) (candidate : α) : Bool :=
  f.items.isEmpty || f.items.contains candidate

structure FilterManager where
  categories : Filter String
  identities : Filter Identity
  adapterIds : Filter String

/-- What `ClientBlobject::ice_invokeAsync` throws. -/
inductive RoutingError where
  /-- the name of the identity is empty -/
  | invalidArgument
  /-- the proxy is not in the routing table: the client has to add it again -/
  | addProxy
  /-- rejected by the filters -/
  | objectNotExist
deriving DecidableEq, Repr

/-- `ClientBlobject`, with the routing table given by its `get`. -/
structure ClientBlobject where
  forwardContext : Bool
  context : Context
  filters : FilterManager
  routingTable : Identity → Option Proxy

/-- `ClientBlobject::ice_invokeAsync`. -/
def ClientBlobject.iceInvokeAsync (b : ClientBlobject) (inParams : List UInt8) (current : Current) :
    Except RoutingError Invocation :=
  if current.id.name.isEmpty then .error .invalidArgument
  else
    match b.routingTable current.id with
    | none => .error .addProxy
    | some proxy =>
      let checks : List (Bool × Bool) :=
        [(!b.filters.categories.items.isEmpty, b.filters.categories.matches current.id.category),
          (!b.filters.identities.items.isEmpty, b.filters.identities.matches current.id),
          (!proxy.adapterId.isEmpty && !b.filters.adapterIds.items.isEmpty,
            b.filters.adapterIds.matches proxy.adapterId)]
      let hasFilters := checks.any (·.1)
      let matched := checks.any fun c => c.1 && c.2
      if hasFilters && !matched then .error .objectNotExist
      else .ok (invoke b.forwardContext b.context proxy inParams current)

/-- The `ClientBlobject` of the session that a client has with the router. -/
def sessionBlobject
    (filters : FilterManager) (routingTable : Identity → Option Proxy) : ClientBlobject where
  forwardContext := i.clientForwardContext
  context := routerContext encodeCertificate i con
  filters
  routingTable

/-- A request that is routed is forwarded by `invoke`. -/
theorem ClientBlobject.context_of_routed {b : ClientBlobject} {inParams : List UInt8}
    {current : Current} {inv : Invocation} (h : b.iceInvokeAsync inParams current = .ok inv) :
    ∃ proxy, inv = invoke b.forwardContext b.context proxy inParams current := by
  unfold iceInvokeAsync at h
  split at h
  · cases h
  · split at h
    · cases h
    · next proxy _ =>
      dsimp only at h
      split at h
      · cases h
      · exact ⟨proxy, (Except.ok.inj h).symm⟩

/-- The router derives nothing but reserved keys. -/
theorem connectionContext_reserved
    {key : String} (hkey : key ∉ reservedKeys) :
    (connectionContext encodeCertificate con).lookup key = none := by
  have hne : ∀ k ∈ reservedKeys, key ≠ k := fun k hk h => hkey (h ▸ hk)
  simp only [reservedKeys, List.mem_cons, List.not_mem_nil, or_false, forall_eq_or_imp, forall_eq]
    at hne
  obtain ⟨h1, h2, h3, h4, h5, h6⟩ := hne
  unfold connectionContext
  cases getIPConnectionInfo con.info <;> rcases getSSLConnectionInfo con.info with _ | _ | _ <;>
    simp only [AList.lookup_insert_ne h1, AList.lookup_insert_ne h2, AList.lookup_insert_ne h3,
      AList.lookup_insert_ne h4, AList.lookup_insert_ne h5, AList.lookup_insert_ne h6,
      AList.lookup_empty]

/-- The type of the connection is always added. -/
theorem connectionContext_type :
    (connectionContext encodeCertificate con).lookup "_con.type" = some con.type := by
  unfold connectionContext
  cases getIPConnectionInfo con.info <;> rcases getSSLConnectionInfo con.info with _ | _ | _ <;>
    simp only [AList.lookup_insert_ne (show "_con.type" ≠ "_con.remotePort" by decide),
      AList.lookup_insert_ne (show "_con.type" ≠ "_con.remoteAddress" by decide),
      AList.lookup_insert_ne (show "_con.type" ≠ "_con.localPort" by decide),
      AList.lookup_insert_ne (show "_con.type" ≠ "_con.localAddress" by decide),
      AList.lookup_insert_ne (show "_con.type" ≠ "_con.peerCert" by decide), AList.lookup_insert]

/-- What the back end receives: the client's entry if there is one, and else the router's. -/
theorem lookup_union_eq (client router : Context) (key : String) :
    (client ∪ router).lookup key = (client.lookup key).or (router.lookup key) := by
  by_cases h : key ∈ client
  · obtain ⟨value, hvalue⟩ := Option.isSome_iff_exists.mp (AList.lookup_isSome.mpr h)
    rw [AList.lookup_union_left h, hvalue, Option.some_or]
  · rw [AList.lookup_union_right h, AList.lookup_eq_none.mpr h, Option.none_or]

/-- With context forwarding and `AddConnectionContext` 1, a routed request carries the client's
    context completed by the router's. -/
theorem context_forwarded {encodeCertificate : γ → String} {i : Instance} {con : Connection γ}
    {filters : FilterManager} {routingTable : Identity → Option Proxy} {inParams : List UInt8}
    {current : Current} {inv : Invocation} (hforward : i.clientForwardContext = true)
    (hadd : i.addConnectionContext = 1)
    (hrouted : (sessionBlobject encodeCertificate i con filters routingTable).iceInvokeAsync
      inParams current = .ok inv) :
    inv.context = some (current.ctx ∪ connectionContext encodeCertificate con) := by
  obtain ⟨proxy, rfl⟩ := ClientBlobject.context_of_routed hrouted
  have hpos : (connectionContext encodeCertificate con).keys.length > 0 := by
    have hmem : "_con.type" ∈ connectionContext encodeCertificate con := by
      rw [← AList.lookup_isSome, connectionContext_type]
      rfl
    exact List.length_pos_of_mem (AList.mem_keys.mp hmem)
  simp [invoke, sessionBlobject, hforward, routerContext, createSessionContext, hadd, hpos]

/-- The back end gets the reserved keys as the router derived them, and everything else as the
    client sent it, exactly when the client sends no reserved key with another value than the
    router's. -/
theorem connection_context_unforged (encodeCertificate : γ → String) (i : Instance)
    (con : Connection γ) (filters : FilterManager) (routingTable : Identity → Option Proxy)
    (inParams : List UInt8) (current : Current) (inv : Invocation)
    (hforward : i.clientForwardContext = true) (hadd : i.addConnectionContext = 1)
    (hrouted : (sessionBlobject encodeCertificate i con filters routingTable).iceInvokeAsync
      inParams current = .ok inv) : (∃ ctx, inv.context = some ctx ∧
      (∀ key ∈ reservedKeys, ctx.lookup key =
        (connectionContext encodeCertificate con).lookup key) ∧
      ∀ key, key ∉ reservedKeys → ctx.lookup key = current.ctx.lookup key) ↔
    ∀ key ∈ reservedKeys, ∀ value, current.ctx.lookup key = some value →
      (connectionContext encodeCertificate con).lookup key = some value := by
  have hcontext := context_forwarded hforward hadd hrouted
  constructor
  · rintro ⟨ctx, hctx, hreserved, -⟩ key hkey value hvalue
    obtain rfl : _ = ctx := Option.some.inj (hcontext.symm.trans hctx)
    rw [← hreserved key hkey, lookup_union_eq, hvalue, Option.some_or]
  · intro hsame
    refine ⟨_, hcontext, ?_, ?_⟩
    · intro key hkey
      rw [lookup_union_eq]
      cases hvalue : current.ctx.lookup key with
      | none => rw [Option.none_or]
      | some value => rw [Option.some_or, hsame key hkey value hvalue]
    · intro key hkey
      rw [lookup_union_eq, connectionContext_reserved _ con hkey, Option.or_none]

/-- A client that does not use the reserved keys is routed with its connection information. -/
theorem connection_context_unforged_plain :
    let i : Instance := ⟨true, 1⟩
    let con : Connection Unit := ⟨"tcp", [.ip ⟨"10.0.0.1", 4063, "10.0.0.2", 50000⟩]⟩
    let current : Current := { id := ⟨"hello", ""⟩, ctx := AList.insert "lang" "en" ∅ }
    ∃ inv, (sessionBlobject (fun _ => "") i con ⟨⟨[]⟩, ⟨[]⟩, ⟨[]⟩⟩
        (fun id => some { identity := id })).iceInvokeAsync [] current = .ok inv ∧
      ∃ ctx, inv.context = some ctx ∧
        (∀ key ∈ reservedKeys, ctx.lookup key = (connectionContext (fun _ => "") con).lookup key) ∧
        ∀ key, key ∉ reservedKeys → ctx.lookup key = current.ctx.lookup key := by
  intro i con current
  refine ⟨_, rfl, ?_⟩
  exact (connection_context_unforged (fun _ => "") i con ⟨⟨[]⟩, ⟨[]⟩, ⟨[]⟩⟩
    (fun id => some { identity := id }) [] current _ rfl rfl rfl).mpr (by decide)

/-- A client that sends `_con.remoteAddress` itself is believed by the back end. -/
theorem connection_context_forged :
    let i : Instance := ⟨true, 1⟩
    let con : Connection Unit := ⟨"tcp", [.ip ⟨"10.0.0.1", 4063, "10.0.0.2", 50000⟩]⟩
    let current : Current :=
      { id := ⟨"hello", ""⟩, ctx := AList.insert "_con.remoteAddress" "127.0.0.1" ∅ }
    ∃ inv ctx, (sessionBlobject (fun _ => "") i con ⟨⟨[]⟩, ⟨[]⟩, ⟨[]⟩⟩
        (fun id => some { identity := id })).iceInvokeAsync [] current = .ok inv ∧
      inv.context = some ctx ∧ ctx.lookup "_con.remoteAddress" = some "127.0.0.1" ∧
      (connectionContext (fun _ => "") con).lookup "_con.remoteAddress" = some "10.0.0.2" := by
  intro i con current
  exact ⟨_, _, rfl, rfl, by decide, by decide⟩

end Ice.Glacier2
