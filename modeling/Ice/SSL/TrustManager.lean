import Ice.SSL.NameText

/-!
# IceSSL.TrustOnly

`Ice::SSL::TrustManager` (`cpp/src/Ice/SSL/TrustManager.cpp`) reads the `IceSSL.TrustOnly`
properties into lists of partial names, and checks the subject of a peer's certificate against the
lists that apply to the connection.
-/

namespace Ice.SSL

open List

/-- The bytes of an ASCII string. -/
def ascii (s : String) : ByteString := s.toList.map fun c => c.toUInt8

/-- `Ice::Properties`, a `std::map` of strings. -/
abbrev Properties := AList fun _ : ByteString => ByteString

/-- `Properties::getProperty`: empty if the property is not set. -/
def Properties.getProperty (properties : Properties) (key : ByteString) : ByteString :=
  (properties.lookup key).getD []

def Properties.getPropertiesForPrefix (properties : Properties) (start : ByteString) :
    List (Σ _ : ByteString, ByteString) :=
  properties.entries.filter fun p => start.isPrefixOf p.1

def trustOnly : ByteString := ascii "IceSSL.TrustOnly"

def trustOnlyClient : ByteString := ascii "IceSSL.TrustOnly.Client"

def trustOnlyServer : ByteString := ascii "IceSSL.TrustOnly.Server"

/-- What the names of the properties of the object adapters start with. -/
def trustOnlyAdapter : ByteString := ascii "IceSSL.TrustOnly.Server."

/-- A `std::map` from the names of object adapters to lists of names. -/
abbrev AdapterNames := AList fun _ : ByteString => List DistinguishedName

structure TrustManager where
  rejectAll : List DistinguishedName
  acceptAll : List DistinguishedName
  rejectAllServer : List DistinguishedName
  acceptAllServer : List DistinguishedName
  rejectClient : List DistinguishedName
  acceptClient : List DistinguishedName
  rejectServer : AdapterNames
  acceptServer : AdapterNames

/-- The loop of `TrustManager::parse`: the rejecting and the accepting names. -/
def splitEntries : List RDNEntry →
    Except ParseException (List DistinguishedName × List DistinguishedName)
  | [] => .ok ([], [])
  | dn :: dns => do
    let name ← DistinguishedName.ofRdns dn.rdn
    let (reject, accept) ← splitEntries dns
    return if dn.negate then (name :: reject, accept) else (reject, name :: accept)

def TrustManager.parse (value : ByteString) :
    Except ParseException (List DistinguishedName × List DistinguishedName) :=
  if value.isEmpty then .ok ([], [])
  else do
    let dns ← SSL.parse value
    splitEntries dns

/-- The `InitializationException` of the constructor names the property that is not valid. -/
structure InvalidProperty where
  key : ByteString
  exception : ParseException
deriving DecidableEq, Repr

def TrustManager.parseProperty (key value : ByteString) :
    Except InvalidProperty (List DistinguishedName × List DistinguishedName) :=
  (TrustManager.parse value).mapError (InvalidProperty.mk key)

/-- A list that is not empty is stored under the name of the adapter. -/
def AdapterNames.store (names : AdapterNames) (name : ByteString) (list : List DistinguishedName) :
    AdapterNames :=
  if list.isEmpty then names else names.insert name list

/-- The name of the object adapter in the key of a property. -/
def adapterOf (key : ByteString) : ByteString := key.drop trustOnlyAdapter.length

/-- The loop of the constructor over the properties of the object adapters. -/
def loadAdapters : List (Σ _ : ByteString, ByteString) → AdapterNames × AdapterNames →
    Except InvalidProperty (AdapterNames × AdapterNames)
  | [], names => .ok names
  | p :: dict, (rejectServer, acceptServer) => do
    let (reject, accept) ← TrustManager.parseProperty p.1 p.2
    loadAdapters dict
      (rejectServer.store (adapterOf p.1) reject, acceptServer.store (adapterOf p.1) accept)

/-- The constructor of `TrustManager`. -/
def TrustManager.ofProperties (properties : Properties) : Except InvalidProperty TrustManager := do
  let (rejectAll, acceptAll) ← parseProperty trustOnly (properties.getProperty trustOnly)
  let (rejectClient, acceptClient) ←
    parseProperty trustOnlyClient (properties.getProperty trustOnlyClient)
  let (rejectAllServer, acceptAllServer) ←
    parseProperty trustOnlyServer (properties.getProperty trustOnlyServer)
  let (rejectServer, acceptServer) ←
    loadAdapters (properties.getPropertiesForPrefix trustOnlyAdapter) (∅, ∅)
  return { rejectAll, acceptAll, rejectAllServer, acceptAllServer, rejectClient, acceptClient,
           rejectServer, acceptServer }

/-- What `verify` looks at in `Ice::SSL::ConnectionInfo`. The subject is what `getSubjectName` says
    about the certificate of the peer, if there is one. -/
structure ConnectionInfo where
  incoming : Bool
  adapterName : ByteString
  peerSubject : Option ByteString
deriving DecidableEq, Repr

/-- The lists that apply to a connection. -/
def applicable (all allServer client : List DistinguishedName) (server : AdapterNames)
    (info : ConnectionInfo) : List (List DistinguishedName) :=
  (if all.length > 0 then [all] else []) ++
    if info.incoming then
      (if allServer.length > 0 then [allServer] else []) ++
        if info.adapterName.length > 0 then
          match server.lookup info.adapterName with
          | some list => [list]
          | none => []
        else []
    else if client.length > 0 then [client] else []

def TrustManager.reject (tm : TrustManager) : ConnectionInfo → List (List DistinguishedName) :=
  applicable tm.rejectAll tm.rejectAllServer tm.rejectClient tm.rejectServer

def TrustManager.accept (tm : TrustManager) : ConnectionInfo → List (List DistinguishedName) :=
  applicable tm.acceptAll tm.acceptAllServer tm.acceptClient tm.acceptServer

def TrustManager.match (matchSet : List DistinguishedName) (subject : DistinguishedName) : Bool :=
  matchSet.any fun r => subject.match r

def TrustManager.verify (tm : TrustManager) (info : ConnectionInfo) : Bool :=
  if (tm.reject info).isEmpty && (tm.accept info).isEmpty then true
  else
    match info.peerSubject with
    | none => false
    | some name =>
      match DistinguishedName.ofString name with
      | .error _ => false
      | .ok subject =>
        if (tm.reject info).any fun p => TrustManager.match p subject then false
        else if (tm.accept info).any fun p => TrustManager.match p subject then true
        else (tm.accept info).isEmpty

/-! ## The entries that apply -/

/-- The values of the properties that apply to a connection. -/
def applicableValues (properties : Properties) (info : ConnectionInfo) : List ByteString :=
  properties.getProperty trustOnly ::
    if info.incoming then
      properties.getProperty trustOnlyServer ::
        if info.adapterName.length > 0 then
          [properties.getProperty (trustOnlyAdapter ++ info.adapterName)]
        else []
    else [properties.getProperty trustOnlyClient]

/-- A value of a property has an entry with these attributes, rejecting if `negate` is set. -/
def HasEntry (value : ByteString) (negate : Bool) (attributes : List (ByteString × ByteString)) :
    Prop :=
  ∃ entries, parse value = .ok entries ∧
    ∃ e ∈ entries, e.negate = negate ∧ unescapeAll e.rdn = .ok attributes

/-- An entry with these attributes applies to the connection. -/
def Applies (properties : Properties) (info : ConnectionInfo) (negate : Bool)
    (attributes : List (ByteString × ByteString)) : Prop :=
  ∃ value ∈ applicableValues properties info, HasEntry value negate attributes

/-- The names of a list, as lists of attributes. -/
def Names (list : List DistinguishedName) (attributes : List (ByteString × ByteString)) : Prop :=
  ∃ dn ∈ list, dn.unescaped = attributes

/-- The list of the two that `negate` selects. -/
def side (negate : Bool) (lists : List DistinguishedName × List DistinguishedName) :
    List DistinguishedName :=
  if negate then lists.1 else lists.2

/-- The names that are split are those of the entries. -/
theorem splitEntries_ok {dns : List RDNEntry}
    {lists : List DistinguishedName × List DistinguishedName}
    (h : splitEntries dns = .ok lists) (negate : Bool)
    (attributes : List (ByteString × ByteString)) : Names (side negate lists) attributes ↔
      ∃ e ∈ dns, e.negate = negate ∧ unescapeAll e.rdn = .ok attributes := by
  induction dns generalizing lists with
  | nil =>
    obtain rfl := Except.ok.inj h
    cases negate <;> simp [Names, side]
  | cons dn dns ih =>
    obtain ⟨name, hname, h⟩ := Misc.bind_eq_ok_iff.mp h
    obtain ⟨rest, hrest, ⟨⟩⟩ := Misc.bind_eq_ok_iff.mp h
    obtain ⟨unescaped, hunescaped, ⟨⟩⟩ := Misc.bind_eq_ok_iff.mp hname
    simp only [exists_mem_cons_iff, ← ih hrest, hunescaped, Except.ok.injEq]
    cases negate <;> cases dn.negate <;> simp [Names, side]

open TrustManager

theorem parseProperty_ok {key value : ByteString}
    {lists : List DistinguishedName × List DistinguishedName}
    (h : parseProperty key value = .ok lists) (negate : Bool)
    (attributes : List (ByteString × ByteString)) :
    Names (side negate lists) attributes ↔ HasEntry value negate attributes := by
  replace h := Misc.mapError_eq_ok_iff.mp h
  cases value with
  | nil =>
    obtain rfl := Except.ok.inj h
    cases negate <;> simp [Names, side, HasEntry, parse, parseLoop]
  | cons c rest =>
    obtain ⟨dns, hparse, hsplit⟩ := Misc.bind_eq_ok_iff.mp h
    rw [splitEntries_ok hsplit]
    simp [HasEntry, hparse]

/-! ## The lists of the object adapters -/

theorem AdapterNames.lookup_store (names : AdapterNames) (name other : ByteString)
    (list : List DistinguishedName) : (names.store name list).lookup other =
      if other = name ∧ list ≠ [] then some list else names.lookup other := by
  unfold AdapterNames.store
  by_cases hlist : list = []
  · simp [hlist]
  · have hempty : list.isEmpty = false := by simpa using hlist
    rw [hempty]
    by_cases hname : other = name
    · subst hname
      simp [hlist]
    · simp [hname]

/-- The map of the two that `negate` selects. -/
def sideNames (negate : Bool) (names : AdapterNames × AdapterNames) : AdapterNames :=
  if negate then names.1 else names.2

variable {names : AdapterNames × AdapterNames}

/-- Properties of other adapters leave the lists of an adapter as they are. -/
theorem loadAdapters_other {dict : List (Σ _ : ByteString, ByteString)}
    {names' : AdapterNames × AdapterNames}
    (h : loadAdapters dict names = .ok names') {name : ByteString}
    (hname : ∀ p ∈ dict, adapterOf p.1 ≠ name)
    (negate : Bool) : (sideNames negate names').lookup name =
      (sideNames negate names).lookup name := by
  induction dict generalizing names with
  | nil =>
    obtain rfl := Except.ok.inj h
    rfl
  | cons p dict ih =>
    obtain ⟨lists, -, h⟩ := Misc.bind_eq_ok_iff.mp h
    obtain ⟨hp, hname⟩ := forall_mem_cons.mp hname
    rw [ih h hname]
    cases negate <;> simp [sideNames, AdapterNames.lookup_store, hp.symm]

/-- The list that is stored for an adapter has the names of its property. -/
theorem loadAdapters_ok {dict : List (Σ _ : ByteString, ByteString)}
    {names' : AdapterNames × AdapterNames}
    (h : loadAdapters dict names = .ok names') (hnodup : (dict.map fun p => adapterOf p.1).Nodup)
    {p : Σ _ : ByteString, ByteString} (hp : p ∈ dict) {name : ByteString}
    (hname : adapterOf p.1 = name)
    (hnew : ∀ negate, (sideNames negate names).lookup name = none) (negate : Bool) :
    (∀ attributes, HasEntry p.2 negate attributes ↔
      ∃ list, (sideNames negate names').lookup name = some list ∧ Names list attributes) ∧
    (sideNames negate names').lookup name ≠ some [] := by
  subst hname
  induction dict generalizing names with
  | nil => cases hp
  | cons q dict ih =>
    rw [map_cons, nodup_cons] at hnodup
    obtain ⟨lists, hparse, h⟩ := Misc.bind_eq_ok_iff.mp h
    rcases mem_cons.mp hp with rfl | hp
    · -- the later properties are those of other adapters
      have hother : ∀ r ∈ dict, adapterOf r.1 ≠ adapterOf p.1 := by
        intro r hr heq
        exact hnodup.1 (mem_map.mpr ⟨r, hr, heq⟩)
      have hstored : (sideNames negate names').lookup (adapterOf p.1) =
          if side negate lists ≠ [] then some (side negate lists) else none := by
        rw [loadAdapters_other h hother negate, ← hnew negate]
        cases negate <;> simp [sideNames, side, AdapterNames.lookup_store]
      rw [hstored]
      refine ⟨fun attributes => ?_, by split <;> simp_all⟩
      rw [← parseProperty_ok hparse]
      by_cases hlist : side negate lists = []
      · simp [hlist, Names]
      · simp [hlist]
    · have hne : adapterOf p.1 ≠ adapterOf q.1 := by
        intro heq
        exact hnodup.1 (mem_map.mpr ⟨p, hp, heq⟩)
      refine ih h hnodup.2 hp fun negate => ?_
      have hnew := hnew negate
      cases negate <;> simpa [sideNames, AdapterNames.lookup_store, hne] using hnew

theorem adapterOf_append (name : ByteString) : adapterOf (trustOnlyAdapter ++ name) = name := by
  rw [adapterOf, drop_left]

variable {properties : Properties}

/-- A key of a property of an object adapter is known from the name of the adapter. -/
theorem eq_append_adapterOf {p : Σ _ : ByteString, ByteString}
    (hp : p ∈ properties.getPropertiesForPrefix trustOnlyAdapter) :
    p.1 = trustOnlyAdapter ++ adapterOf p.1 := by
  have hstart := (mem_filter.mp hp).2
  obtain ⟨name, hname⟩ := isPrefixOf_iff_prefix.mp hstart
  rw [← hname, adapterOf_append]

theorem nodup_adapterOf (properties : Properties) :
    ((properties.getPropertiesForPrefix trustOnlyAdapter).map fun p => adapterOf p.1).Nodup := by
  have hkeys : ((properties.getPropertiesForPrefix trustOnlyAdapter).map Sigma.fst).Nodup :=
    List.Nodup.sublist (filter_sublist.map Sigma.fst) properties.nodupKeys
  refine List.Nodup.map_on ?_ (List.Nodup.of_map _ hkeys)
  intro p hp q hq heq
  refine inj_on_of_nodup_map hkeys hp hq ?_
  rw [eq_append_adapterOf hp, eq_append_adapterOf hq, heq]

/-- What is stored for an object adapter has the names of its property. -/
theorem adapterNames_ok (h : loadAdapters (properties.getPropertiesForPrefix trustOnlyAdapter)
    (∅, ∅) = .ok names) (name : ByteString) (negate : Bool) :
    (∀ attributes, HasEntry (properties.getProperty (trustOnlyAdapter ++ name)) negate attributes ↔
      ∃ list, (sideNames negate names).lookup name = some list ∧ Names list attributes) ∧
    (sideNames negate names).lookup name ≠ some [] := by
  have hempty : ∀ negate, (sideNames negate (∅, ∅)).lookup name = none := by
    intro negate
    cases negate <;> simp [sideNames]
  cases hvalue : properties.lookup (trustOnlyAdapter ++ name) with
  | none =>
    have hother : ∀ p ∈ properties.getPropertiesForPrefix trustOnlyAdapter,
        adapterOf p.1 ≠ name := by
      intro p hp hname
      have hkey := eq_append_adapterOf hp
      rw [hname] at hkey
      have hmem : p.1 ∈ properties := AList.mem_keys.mpr
        (mem_map_of_mem (mem_filter.mp hp).1)
      rw [hkey] at hmem
      exact AList.lookup_eq_none.mp hvalue hmem
    rw [loadAdapters_other h hother, hempty]
    simp [Properties.getProperty, hvalue, HasEntry, parse, parseLoop]
  | some value =>
    have hp : (⟨trustOnlyAdapter ++ name, value⟩ : Σ _ : ByteString, ByteString) ∈
        properties.getPropertiesForPrefix trustOnlyAdapter := by
      refine mem_filter.mpr ⟨AList.mem_lookup_iff.mp hvalue, ?_⟩
      exact isPrefixOf_iff_prefix.mpr (prefix_append _ _)
    have hstored := loadAdapters_ok h (nodup_adapterOf properties) hp (adapterOf_append name)
      hempty negate
    simpa only [Properties.getProperty, hvalue, Option.getD_some] using hstored

/-! ## The lists that apply -/

variable {info : ConnectionInfo}

theorem mem_applicable {all allServer client : List DistinguishedName} {server : AdapterNames}
    {attributes : List (ByteString × ByteString)} :
    (∃ list ∈ applicable all allServer client server info, Names list attributes) ↔
      Names all attributes ∨
        if info.incoming then
          Names allServer attributes ∨ info.adapterName.length > 0 ∧
            ∃ list, server.lookup info.adapterName = some list ∧ Names list attributes
        else Names client attributes := by
  have hnil : ¬ Names [] attributes := by simp [Names]
  have hone : ∀ list : List DistinguishedName,
      (∃ l ∈ (if list.length > 0 then [list] else []), Names l attributes) ↔
        Names list attributes := by
    intro list
    cases list with
    | nil => simpa using hnil
    | cons dn list => simp
  simp only [applicable, mem_append, or_and_right, exists_or, hone]
  refine or_congr_right ?_
  by_cases hincoming : info.incoming = true
  · simp only [hincoming, if_true, mem_append, or_and_right, exists_or, hone]
    refine or_congr_right ?_
    by_cases hname : info.adapterName.length > 0
    · simp only [hname, if_true, true_and]
      cases server.lookup info.adapterName <;> simp
    · simp [hname]
  · simp only [hincoming, if_false, hone, Bool.false_eq_true]

/-- No list that applies is empty. -/
theorem nil_not_mem_applicable {all allServer client : List DistinguishedName}
    {server : AdapterNames}
    (hserver : server.lookup info.adapterName ≠ some []) :
    [] ∉ applicable all allServer client server info := by
  have hone : ∀ list : List DistinguishedName, [] ∉ if list.length > 0 then [list] else [] := by
    intro list
    cases list <;> simp
  simp only [applicable, mem_append, not_or]
  refine ⟨hone all, ?_⟩
  by_cases hincoming : info.incoming = true
  · simp only [hincoming, if_true, mem_append, not_or]
    refine ⟨hone allServer, ?_⟩
    by_cases hname : info.adapterName.length > 0
    · rw [if_pos hname]
      cases hlookup : server.lookup info.adapterName with
      | none => simp
      | some list =>
        rintro hmem
        obtain rfl := mem_singleton.mp hmem
        exact hserver hlookup
    · simp [hname]
  · simpa [hincoming] using hone client

/-- The lists of the manager that `negate` selects. -/
def TrustManager.lists (tm : TrustManager) (negate : Bool) (info : ConnectionInfo) :
    List (List DistinguishedName) :=
  if negate then tm.reject info else tm.accept info

variable {tm : TrustManager}

/-- The names in the lists that apply are the entries that apply. -/
theorem lists_ok (h : ofProperties properties = .ok tm) (info : ConnectionInfo) (negate : Bool) :
    (∀ attributes, (∃ list ∈ tm.lists negate info, Names list attributes) ↔
      Applies properties info negate attributes) ∧ [] ∉ tm.lists negate info := by
  obtain ⟨all, hall, h⟩ := Misc.bind_eq_ok_iff.mp h
  obtain ⟨client, hclient, h⟩ := Misc.bind_eq_ok_iff.mp h
  obtain ⟨server, hserver, h⟩ := Misc.bind_eq_ok_iff.mp h
  obtain ⟨adapters, hadapters, h⟩ := Misc.bind_eq_ok_iff.mp h
  obtain ⟨hentries, hne⟩ := adapterNames_ok hadapters info.adapterName negate
  have hlists : tm.lists negate info = applicable (side negate all) (side negate server)
      (side negate client) (sideNames negate adapters) info := by
    rw [← Except.ok.inj h]
    cases negate <;> rfl
  rw [hlists]
  refine ⟨fun attributes => ?_, nil_not_mem_applicable hne⟩
  rw [mem_applicable, parseProperty_ok hall, parseProperty_ok hclient,
    parseProperty_ok hserver, ← hentries]
  unfold Applies applicableValues
  by_cases hincoming : info.incoming = true
  · by_cases hname : info.adapterName.length > 0 <;> simp [hincoming, hname]
  · simp [hincoming]

/-! ## Matching a subject -/

/-- All the attributes are present in the subject. -/
def Present (subject attributes : List (ByteString × ByteString)) : Prop :=
  ∀ p ∈ attributes, p ∈ subject

/-- No type of the attributes has another value in the subject. -/
def Unambiguous (subject attributes : List (ByteString × ByteString)) : Prop :=
  ∀ p ∈ attributes, ∀ q ∈ subject, q.1 = p.1 → q.2 = p.2

theorem matchAttribute_iff (p : ByteString × ByteString) (found : Bool)
    (qs : List (ByteString × ByteString)) : matchAttribute p found qs = true ↔
      (found = true ∨ p ∈ qs) ∧ ∀ q ∈ qs, q.1 = p.1 → q.2 = p.2 := by
  induction qs generalizing found with
  | nil => simp [matchAttribute]
  | cons q qs ih =>
    rw [matchAttribute]
    by_cases htype : p.1 = q.1
    · by_cases hvalue : p.2 = q.2
      · obtain rfl : p = q := Prod.ext htype hvalue
        simp [ih]
      · have : ¬ q.2 = p.2 := fun h => hvalue h.symm
        simp [htype, hvalue, this]
    · have hne : p ≠ q := fun h => htype (congrArg Prod.fst h)
      have : ¬ q.1 = p.1 := fun h => htype h.symm
      simp [htype, ih, hne, this]

/-- A name matches the subject if its attributes are present, and none of them has another value. -/
theorem match_iff (subject other : DistinguishedName) : subject.match other = true ↔
      Present subject.unescaped other.unescaped ∧
      Unambiguous subject.unescaped other.unescaped := by
  simp only [DistinguishedName.match, all_eq_true, matchAttribute_iff, Present, Unambiguous,
    Bool.false_eq_true, false_or]
  exact forall₂_and

/-- Some entry that applies matches the subject. -/
theorem any_match_iff (h : ofProperties properties = .ok tm) (info : ConnectionInfo) (negate : Bool)
    (subject : DistinguishedName) :
    ((tm.lists negate info).any fun p => TrustManager.match p subject) = true ↔
      ∃ attributes, Applies properties info negate attributes ∧
        Present subject.unescaped attributes ∧ Unambiguous subject.unescaped attributes := by
  simp only [any_eq_true, TrustManager.match, match_iff, ← (lists_ok h info negate).1, Names]
  constructor
  · rintro ⟨list, hlist, dn, hdn, hmatch⟩
    exact ⟨_, ⟨list, hlist, dn, hdn, rfl⟩, hmatch⟩
  · rintro ⟨attributes, ⟨list, hlist, dn, hdn, rfl⟩, hmatch⟩
    exact ⟨list, hlist, dn, hdn, hmatch⟩

theorem lists_isEmpty_iff (h : ofProperties properties = .ok tm) (info : ConnectionInfo)
    (negate : Bool) :
    (tm.lists negate info).isEmpty = true ↔
      ¬ ∃ attributes, Applies properties info negate attributes := by
  obtain ⟨hmem, hnil⟩ := lists_ok h info negate
  simp only [← hmem, List.isEmpty_iff]
  constructor
  · rintro hempty ⟨attributes, list, hlist, -⟩
    simp [hempty] at hlist
  · intro hnone
    by_contra hne
    obtain ⟨list, hlist⟩ := List.exists_mem_of_ne_nil _ hne
    cases list with
    | nil => exact hnil hlist
    | cons dn list =>
      exact hnone ⟨dn.unescaped, dn :: list, hlist, dn, mem_cons_self, rfl⟩

/-! ## Subjects -/

/-- An attribute whose value needs no escapes. -/
def PlainAttribute (a : ByteString × ByteString) : Prop :=
  IsType a.1 ∧ (∀ c ∈ a.2, c ∉ 92 :: 34 :: special) ∧ a.2.head? ≠ some 32 ∧ a.2.getLast? ≠ some 32

/-- The text of an attribute whose value needs no escapes. -/
def plainText (a : ByteString × ByteString) : AttributeText :=
  { type := a.1, value := .plain (a.2.map .raw) }

theorem flatMap_raw {f : CharText → ByteString} (hf : ∀ c, f (.raw c) = [c]) (value : ByteString) :
    (value.map CharText.raw).flatMap f = value := by
  induction value with
  | nil => rfl
  | cons c value ih => simp [hf, ih]

/-- The subject of a certificate is read as its attributes. -/
theorem ofString_subject {subject : List (ByteString × ByteString)}
    (hsubject : ∀ a ∈ subject, PlainAttribute a) :
    DistinguishedName.ofString (joinRdns subject) = .ok ⟨subject, subject⟩ := by
  have hkept : ∀ a, (plainText a).kept = a.2 := by
    intro a
    simp [AttributeText.kept, plainText, flatMap_raw CharText.kept_raw]
  have hread : ∀ a, (plainText a).read = a.2 := by
    intro a
    simp [AttributeText.read, plainText, flatMap_raw CharText.unescaped_raw]
  have hplain : ∀ a ∈ subject.map plainText, a.Plain := by
    intro a ha
    obtain ⟨b, -, rfl⟩ := mem_map.mp ha
    simp [AttributeText.Plain, plainText]
  have hreadable : ∀ a ∈ (subject.map plainText).map AttributeText.bare, a.Readable := by
    intro a ha
    obtain ⟨b, hb, rfl⟩ := mem_map.mp ha
    obtain ⟨c, hc, rfl⟩ := mem_map.mp hb
    obtain ⟨htype, hchars, hhead, -⟩ := hsubject c hc
    refine AttributeText.Readable.bare ⟨htype, ?_⟩
    simpa [plainText, CharText.Valid] using ⟨by simpa using hchars, by simpa using hhead⟩
  have hbare : ∀ a, (plainText a).bare = plainText a := fun _ => rfl
  have htype : ∀ a, (plainText a).type = a.1 := fun _ => rfl
  have hname := ofString_nameText hreadable
  rw [← joinRdns_eq_nameText hplain] at hname
  simpa only [map_map, Function.comp_def, hbare, htype, hkept, hread, Prod.eta, map_id'] using hname

/-! ## What the properties say -/

/-- What `IceSSL.TrustOnly` is for: no rejecting entry has all its attributes in the subject, and if
    there are accepting entries then one of them has. -/
def Trusted (properties : Properties) (info : ConnectionInfo)
    (subject : List (ByteString × ByteString)) : Prop :=
  (¬ ∃ attributes, Applies properties info true attributes ∧ Present subject attributes) ∧
    ((¬ ∃ attributes, Applies properties info false attributes) ∨
      ∃ attributes, Applies properties info false attributes ∧ Present subject attributes)

/-- Where an entry decides, an unambiguous one does. If rejecting entries are present in the
    subject, one of them is unambiguous, or there are accepting entries and none of those present is
    unambiguous; if none is present, but accepting entries are, one of them is unambiguous. -/
def Decided (properties : Properties) (info : ConnectionInfo)
    (subject : List (ByteString × ByteString)) : Prop :=
  ((∃ attributes, Applies properties info true attributes ∧ Present subject attributes) →
    (∃ attributes, Applies properties info true attributes ∧ Present subject attributes ∧
      Unambiguous subject attributes) ∨
    ((∃ attributes, Applies properties info false attributes) ∧
      ∀ attributes, Applies properties info false attributes → Present subject attributes →
        ¬ Unambiguous subject attributes)) ∧
  ((¬ ∃ attributes, Applies properties info true attributes ∧ Present subject attributes) →
    (∃ attributes, Applies properties info false attributes ∧ Present subject attributes) →
    ∃ attributes, Applies properties info false attributes ∧ Present subject attributes ∧
      Unambiguous subject attributes)

/-- `verify` in terms of the entries that apply. -/
theorem verify_iff (h : ofProperties properties = .ok tm) {subject : List (ByteString × ByteString)}
    (hsubject : ∀ a ∈ subject, PlainAttribute a)
    (hpeer : info.peerSubject = some (joinRdns subject)) :
    tm.verify info = true ↔
      (¬ ∃ attributes, Applies properties info true attributes ∧ Present subject attributes ∧
        Unambiguous subject attributes) ∧
      ((¬ ∃ attributes, Applies properties info false attributes) ∨
        ∃ attributes, Applies properties info false attributes ∧ Present subject attributes ∧
          Unambiguous subject attributes) := by
  have hreject := any_match_iff h info true ⟨subject, subject⟩
  have haccept := any_match_iff h info false ⟨subject, subject⟩
  have hrejects := lists_isEmpty_iff h info true
  have haccepts := lists_isEmpty_iff h info false
  simp only [lists, if_true, Bool.false_eq_true, if_false] at hreject haccept hrejects haccepts
  rw [← hreject, ← haccept, ← haccepts]
  simp only [verify, hpeer, ofString_subject hsubject]
  by_cases hnone : ((tm.reject info).isEmpty && (tm.accept info).isEmpty) = true
  · rw [if_pos hnone]
    rw [Bool.and_eq_true, List.isEmpty_iff, List.isEmpty_iff] at hnone
    simp [hnone.1, hnone.2]
  · rw [if_neg hnone]
    by_cases hr : ((tm.reject info).any fun p => TrustManager.match p ⟨subject, subject⟩) = true
    · simp [hr]
    · by_cases ha : ((tm.accept info).any fun p => TrustManager.match p ⟨subject, subject⟩) = true
      · simp [hr, ha]
      · simp [hr, ha]

/-- Without a certificate, a connection is refused exactly if an entry applies. -/
theorem verify_noCertificate (h : ofProperties properties = .ok tm)
    (hpeer : info.peerSubject = none) :
    tm.verify info = false ↔ ∃ negate attributes, Applies properties info negate attributes := by
  have hrejects := lists_isEmpty_iff h info true
  have haccepts := lists_isEmpty_iff h info false
  simp only [lists, if_true, Bool.false_eq_true, if_false] at hrejects haccepts
  have hnone : tm.verify info = ((tm.reject info).isEmpty && (tm.accept info).isEmpty) := by
    rw [verify, hpeer]
    cases (tm.reject info).isEmpty && (tm.accept info).isEmpty <;> rfl
  rw [hnone, ← Bool.not_eq_true, Bool.and_eq_true, hrejects, haccepts, Bool.exists_bool]
  tauto

/-- When two decisions agree: one rejects and accepts in fewer cases (`RU`, `AU`) than the other
    (`RP`, `AP`), and both accept if nothing is to be accepted (`A`). -/
theorem decisions_agree {RP RU A AP AU : Prop} (hr : RU → RP) (ha : AU → AP) (hA : AP → A) :
    ((¬ RU ∧ (¬ A ∨ AU)) ↔ (¬ RP ∧ (¬ A ∨ AP))) ↔
      ((RP → RU ∨ (A ∧ ¬ AU)) ∧ (¬ RP → AP → AU)) := by
  by_cases hRU : RU
  · simp [hRU, hr hRU]
  · by_cases hAU : AU
    · simp [hRU, hAU, ha hAU, hA (ha hAU)]
    · by_cases hAP : AP
      · by_cases hRP : RP <;> simp [hRU, hAU, hRP, hAP, hA hAP]
      · by_cases hRP : RP <;> simp [hRU, hAU, hRP, hAP]

/-- `verify` does what the properties say exactly if the entries that decide are unambiguous: an
    entry whose attributes are present in the subject is passed over if the subject has another
    value for one of their types. Without a certificate, a connection is refused exactly if an entry
    applies. -/
theorem verify_trustOnly {properties : Properties} {tm : TrustManager}
    (h : TrustManager.ofProperties properties = .ok tm) (info : ConnectionInfo) :
    (info.peerSubject = none →
      (tm.verify info = false ↔
        ∃ negate attributes, Applies properties info negate attributes)) ∧
    ∀ subject, (∀ a ∈ subject, PlainAttribute a) → info.peerSubject = some (joinRdns subject) →
      ((tm.verify info = true ↔ Trusted properties info subject) ↔
        Decided properties info subject) := by
  refine ⟨verify_noCertificate h, ?_⟩
  intro subject hsubject hpeer
  rw [verify_iff h hsubject hpeer]
  unfold Trusted Decided
  have hforall : (∀ attributes, Applies properties info false attributes →
      Present subject attributes → ¬ Unambiguous subject attributes) ↔
      ¬ ∃ attributes, Applies properties info false attributes ∧ Present subject attributes ∧
        Unambiguous subject attributes := by
    simp only [not_exists, not_and]
  rw [hforall]
  apply decisions_agree
  · rintro ⟨attributes, happlies, hpresent, -⟩
    exact ⟨attributes, happlies, hpresent⟩
  · rintro ⟨attributes, happlies, hpresent, -⟩
    exact ⟨attributes, happlies, hpresent⟩
  · rintro ⟨attributes, happlies, -⟩
    exact ⟨attributes, happlies⟩

/-- The rejecting entry `!OU=a` and a subject with `OU=a` and `OU=b`. -/
def rejectingProperties : Properties := AList.insert trustOnly (ascii "!OU=a") ∅

def repeatedSubject : List (ByteString × ByteString) :=
  [(ascii "OU", ascii "a"), (ascii "OU", ascii "b")]

def repeatedInfo : ConnectionInfo :=
  { incoming := false, adapterName := [], peerSubject := some (joinRdns repeatedSubject) }

/-- The subject has the attribute of the rejecting entry, and is trusted. -/
theorem verify_repeatedType :
    Applies rejectingProperties repeatedInfo true [(ascii "OU", ascii "a")] ∧
    Present repeatedSubject [(ascii "OU", ascii "a")] ∧
    ∃ tm, TrustManager.ofProperties rejectingProperties = .ok tm ∧
      tm.verify repeatedInfo = true := by
  refine ⟨?_, ?_, _, rfl, by decide⟩
  · exact ⟨_, mem_cons_self, _, rfl, _, mem_cons_self, rfl, rfl⟩
  · simp [Present, repeatedSubject]

/-- The theorem applies to that subject, with its two attributes of one type. -/
theorem verify_trustOnly_repeatedType :
    ∃ tm, TrustManager.ofProperties rejectingProperties = .ok tm ∧
      ((tm.verify repeatedInfo = true ↔ Trusted rejectingProperties repeatedInfo repeatedSubject) ↔
        Decided rejectingProperties repeatedInfo repeatedSubject) := by
  refine ⟨_, rfl, (verify_trustOnly rfl repeatedInfo).2 repeatedSubject ?_ rfl⟩
  have hkey : IsType [79, 85] := Or.inl ⟨rfl, forall_mem_singleton.mpr rfl⟩
  have hplain : ∀ c, c ∉ 92 :: 34 :: special → c ≠ 32 → PlainAttribute ([79, 85], [c]) := by
    intro c hc hspace
    exact ⟨hkey, forall_mem_singleton.mpr hc, by simpa using hspace, by simpa using hspace⟩
  intro a ha
  rcases mem_pair.mp ha with rfl | rfl
  · exact hplain 97 (by decide) (by decide)
  · exact hplain 98 (by decide) (by decide)

end Ice.SSL
