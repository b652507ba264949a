import Ice.IceGrid.ServerEntry

/-!
# Bringing a server to its latest deployment

What holds of the entry of a server in every run: one request at a time, every accepted callback
called once, and a synchronization that succeeds has loaded the latest information. Two things can
go wrong. A load that fails makes the entry forget that the server is still to be destroyed on its
old node. And the session that has allocated the server is forgotten or kept too long when the
activation mode changes, or the server is removed, in the meantime.
-/

namespace Ice.IceGrid

open Misc Multiset Option

variable {ν δ π κ : Type}

/-- The information that is to be loaded: that of the update, for the session that has allocated the
    server. -/
def ServerInfo.allocatedBy (update : ServerInfo ν δ) (holder : Option String) : ServerInfo ν δ :=
  if update.session then { update with sessionId := holder.getD "" } else update

/-- A load is sent when every other node that acknowledged one has been asked to destroy the server.
    A synchronization that succeeds has loaded the most recent information. -/
def Mark.Correct : Mark ν δ → Prop
  | .loading info _ owed _ => ∀ n ∈ owed, n = info.node
  | .synchronized info update holder => ∃ u, update = some u ∧ info = u.allocatedBy holder

/-- The request that a call is to send. -/
def EntryCall.request : EntryCall ν δ → Option (NodeRequest ν δ)
  | .send request => some request
  | _ => none

/-- The requests that are still to be sent. -/
def requests (calls : Multiset (EntryCall ν δ)) : Multiset (NodeRequest ν δ) :=
  calls.filterMap EntryCall.request

section

variable (calls : Multiset (EntryCall ν δ))

@[simp] theorem requests_zero : requests (0 : Multiset (EntryCall ν δ)) = 0 := rfl

@[simp] theorem requests_syncImpl : requests (.syncImpl ::ₘ calls) = requests calls :=
  filterMap_cons_none _ _ rfl

@[simp] theorem requests_noSync : requests (.noSync ::ₘ calls) = requests calls :=
  filterMap_cons_none _ _ rfl

@[simp] theorem requests_synchronized : requests (.synchronized ::ₘ calls) = requests calls :=
  filterMap_cons_none _ _ rfl

@[simp] theorem requests_send (r : NodeRequest ν δ) :
    requests (.send r ::ₘ calls) = r ::ₘ requests calls :=
  filterMap_cons_some EntryCall.request _ _ rfl

theorem requests_add (calls' : Multiset (EntryCall ν δ)) :
    requests (calls + calls') = requests calls + requests calls' :=
  filterMap_add _ _ _

end

namespace ServerEntry

variable {s : ServerEntry ν δ π κ} {R : Multiset (NodeRequest ν δ)}

/-- What the entry expects of the request that is under way. -/
def Expects (s : ServerEntry ν δ π κ) : NodeRequest ν δ → Prop
  | .load info _ _ _ =>
    (s.updated = false → s.destroy = none ∧ s.load = some info) ∧
      (∀ d, s.destroy = some d → d.node = info.node) ∧
      (s.destroy = none → ∃ i, s.load = some i ∧ i.node = info.node) ∧
      ∀ n ∈ s.owed, n = info.node
  | .destroy info _ _ => s.destroy = some info

/-- The entry knows where the server has been loaded. -/
def Known (s : ServerEntry ν δ π κ) (n : ν) : Prop :=
  (∃ i, s.loaded = some i ∧ i.node = n) ∨ (∃ d, s.destroy = some d ∧ d.node = n) ∨
    s.destroy = none ∧ ∃ i, s.load = some i ∧ i.node = n

/-- The descriptors agree with the requests that are under way. -/
structure Consistent (s : ServerEntry ν δ π κ) (R : Multiset (NodeRequest ν δ)) : Prop where
  active : R.card = if s.synchronizing then 1 else 0
  expects : ∀ r ∈ R, s.Expects r
  loaded : s.loaded.isSome → s.load = none ∧ s.destroy = none
  synchronizing : s.synchronizing → s.loaded = none
  owed : ∀ n ∈ s.owed, s.Known n

theorem Consistent.of_not_synchronizing (h : s.Consistent R) (hs : s.synchronizing = false) :
    R = 0 := by
  have hactive := h.active
  rw [hs] at hactive
  exact card_eq_zero.mp hactive

variable {r : NodeRequest ν δ}

theorem Consistent.synchronizing_of_mem (h : s.Consistent R) (hr : r ∈ R) :
    s.synchronizing = true := by
  by_contra hs
  rw [h.of_not_synchronizing (Bool.not_eq_true _ ▸ hs)] at hr
  exact notMem_zero r hr

/-- What is under way when one request is answered is this request only. -/
theorem Consistent.eq_zero_of_cons (h : s.Consistent (r ::ₘ R)) : R = 0 := by
  have hactive := h.active
  rw [h.synchronizing_of_mem (mem_cons_self r R), card_cons] at hactive
  exact card_eq_zero.mp (by simpa using hactive)

variable {info : ServerInfo ν δ} {noRestart : Bool} {session : Option String} {timeout : Int}

theorem Expects.known (h : s.Expects (.load info session timeout noRestart)) :
    s.Known info.node := by
  obtain ⟨-, hdestroy, hload, -⟩ := h
  cases hd : s.destroy with
  | some d => exact .inr (.inl ⟨d, hd, hdestroy d hd⟩)
  | none => exact .inr (.inr ⟨hd, hload hd⟩)

theorem Consistent.loaded_eq_none (h : s.Consistent R) {i : ServerInfo ν δ} (hi : s.load = some i) :
    s.loaded = none := by
  by_contra hsome
  rw [(h.loaded (isSome_iff_ne_none.mpr hsome)).1] at hi
  cases hi

/-! ### The operations -/

/-- Another node that the server has been loaded on is kept to be destroyed. -/
theorem Consistent.displaced [DecidableEq ν] {n : ν} (hs : s.Consistent R) (h : s.Known n)
    (node : ν) :
    (∃ d, (if s.destroy.isNone then s.displaced node else s.destroy) = some d ∧ d.node = n) ∨
      (if s.destroy.isNone then s.displaced node else s.destroy) = none ∧ node = n := by
  rcases h with ⟨i, hi, rfl⟩ | ⟨d, hd, rfl⟩ | ⟨hd, i, hi, rfl⟩
  · obtain ⟨hload, hdestroy⟩ := hs.loaded (by rw [hi]; rfl)
    by_cases hne : node = i.node
    · exact .inr ⟨by simp [hdestroy, ServerEntry.displaced, hi, hload, hne], hne⟩
    · exact .inl ⟨i, by simp [hdestroy, ServerEntry.displaced, hi, hne], rfl⟩
  · exact .inl ⟨d, by simp [hd], rfl⟩
  · have hnone := hs.loaded_eq_none hi
    by_cases hne : node = i.node
    · exact .inr ⟨by simp [hd, ServerEntry.displaced, hi, hnone, hne], hne⟩
    · exact .inl ⟨i, by simp [hd, ServerEntry.displaced, hi, hnone, hne], rfl⟩

section

variable (h : s.Consistent R)
include h

/-- The nodes that are known stay so, and what is to be destroyed is kept. -/
theorem Consistent.of_known {s' : ServerEntry ν δ π κ}
    (heq : s'.synchronizing = s.synchronizing) (howed : s'.owed = s.owed)
    (hupdated : s'.updated = false → s.synchronizing = true → s.updated = false ∧
      s'.destroy = s.destroy ∧ s'.load = s.load)
    (hloaded : s'.loaded.isSome → s'.load = none ∧ s'.destroy = none)
    (hnone : s.synchronizing = true → s'.loaded = none)
    (hdestroy : ∀ d, s.destroy = some d → s'.destroy = some d)
    (hknown : ∀ n, s.Known n → s'.Known n) :
    s'.Consistent R := by
  refine ⟨heq ▸ h.active, fun r hr => ?_, hloaded, heq ▸ hnone, fun n hn =>
    hknown n (h.owed n (howed ▸ hn))⟩
  have hexpects := h.expects r hr
  have hs := h.synchronizing_of_mem hr
  cases r with
  | load info session timeout noRestart =>
    have hknown := hknown _ hexpects.known
    obtain ⟨hcurrent, -, -, howed'⟩ := hexpects
    refine ⟨fun hf => ?_, fun d hd => ?_, fun hd => ?_, howed ▸ howed'⟩
    · obtain ⟨hf, hd, hl⟩ := hupdated hf hs
      rw [hd, hl]
      exact hcurrent hf
    · rcases hknown with ⟨i, hi, -⟩ | ⟨d', hd', hnode⟩ | ⟨hd', -⟩
      · cases (hnone hs).symm.trans hi
      · cases hd'.symm.trans hd
        exact hnode
      · cases hd'.symm.trans hd
    · rcases hknown with ⟨i, hi, -⟩ | ⟨d', hd', -⟩ | ⟨-, hi⟩
      · cases (hnone hs).symm.trans hi
      · cases hd'.symm.trans hd
      · exact hi
  | destroy info timeout noRestart => exact hdestroy info hexpects

theorem update_consistent [DecidableEq ν] (info : ServerInfo ν δ) (noRestart : Bool) :
    (s.update info noRestart).Consistent R := by
  refine h.of_known rfl rfl nofun nofun (fun _ => rfl)
    (fun d hd => by simp [update, hd]) fun n hn => ?_
  rcases h.displaced hn info.node with hd | ⟨hnone, hnode⟩
  · exact .inr (.inl hd)
  · refine .inr (.inr ⟨hnone, _, rfl, ?_⟩)
    split_ifs <;> exact hnode

theorem remove_consistent (noRestart : Bool) : (s.remove noRestart).Consistent R := by
  refine h.of_known rfl rfl nofun nofun (fun _ => rfl)
    (fun d hd => by simp [remove, assert, hd]) fun n hn => .inr (.inl ?_)
  -- what is loaded or to be loaded is to be destroyed
  rcases hn with ⟨i, hi, rfl⟩ | ⟨d, hd, rfl⟩ | ⟨hd, i, hi, rfl⟩
  · obtain ⟨-, hd⟩ := h.loaded (by rw [hi]; rfl)
    exact ⟨i, by simp [remove, assert, hd, hi], rfl⟩
  · exact ⟨d, by simp [remove, assert, hd], rfl⟩
  · exact ⟨i, by simp [remove, assert, hd, h.loaded_eq_none hi, hi], rfl⟩

theorem unsync_consistent : s.unsync.Consistent R := by
  refine h.of_known rfl rfl (fun hf hs => ⟨hf, rfl, ?_⟩) nofun (fun _ => rfl)
    (fun _ => id) fun n hn => ?_
  · simp [unsync, h.synchronizing hs]
  · rcases hn with ⟨i, hi, hnode⟩ | hd | ⟨hd, i, hi, hnode⟩
    · obtain ⟨-, hdestroy⟩ := h.loaded (by rw [hi]; rfl)
      exact .inr (.inr ⟨hdestroy, i, by simp [unsync, hi], hnode⟩)
    · exact .inr (.inl hd)
    · exact .inr (.inr ⟨hd, i, by simp [unsync, h.loaded_eq_none hi, hi], hnode⟩)

theorem setSession_consistent (session : Option String) : (s.setSession session).Consistent R := by
  unfold setSession
  split
  · exact h
  rename_i info hinfo
  by_cases hsession : info.session = true
  · rw [if_pos hsession]
    refine h.of_known rfl rfl nofun ?_ (fun hs => ?_) (fun _ => id) fun n hn => ?_
    · cases hi : s.load with
      | none => simp
      | some i => simp [h.loaded_eq_none hi]
    · dsimp only
      rw [h.synchronizing hs, ite_self]
    · -- the nodes stay the same
      rcases hn with ⟨i, hi, hnode⟩ | hd | ⟨hd, i, hi, hnode⟩
      · obtain ⟨hnone, hdestroy⟩ := h.loaded (by rw [hi]; rfl)
        exact .inr (.inr ⟨hdestroy, { i with sessionId := session.getD "" },
          by simp [hnone, hi], hnode⟩)
      · exact .inr (.inl hd)
      · exact .inr (.inr ⟨hd, { i with sessionId := session.getD "" }, by simp [hi], hnode⟩)
  · rw [if_neg hsession]
    exact h

end

/-! ### Requests -/

theorem Consistent.singleton (hs : s.synchronizing = true) (hexpects : s.Expects r)
    (hloaded : s.loaded = none) (howed : ∀ n ∈ s.owed, s.Known n) : s.Consistent {r} where
  active := by simp [hs]
  expects r' hr' := by
    rw [mem_singleton.mp hr']
    exact hexpects
  loaded h := by simp [hloaded] at h
  synchronizing _ := hloaded
  owed := howed

/-- A load for the current information. -/
theorem Consistent.singleton_load {load : ServerInfo ν δ} (hs : s.synchronizing = true)
    (hdestroy : s.destroy = none) (hload : s.load = some load) (hloaded : s.loaded = none)
    (howed : ∀ n ∈ s.owed, n = load.node) (session : Option String) (timeout : Int)
    (noRestart : Bool) :
    s.Consistent {.load load session timeout noRestart} := by
  apply Consistent.singleton hs _ hloaded
  · intro n hn
    exact .inr (.inr ⟨hdestroy, load, hload, (howed n hn).symm⟩)
  · refine ⟨fun _ => ⟨hdestroy, hload⟩, fun d hd => ?_, fun _ => ⟨load, hload, rfl⟩, howed⟩
    cases hdestroy.symm.trans hd

/-- With nothing to destroy, the server has been loaded at most on the node of its current
    information. -/
theorem Consistent.owed_eq (h : s.Consistent R) (hd : s.destroy = none) {i : ServerInfo ν δ}
    (hi : s.load.or s.loaded = some i) : ∀ n ∈ s.owed, n = i.node := by
  intro n hn
  rcases h.owed n hn with ⟨i', hi', rfl⟩ | ⟨d, hd', -⟩ | ⟨-, i', hi', rfl⟩
  · obtain ⟨hload, -⟩ := h.loaded (by rw [hi']; rfl)
    rw [hload, hi'] at hi
    cases hi
    rfl
  · cases hd.symm.trans hd'
  · rw [hi'] at hi
    cases hi
    rfl

/-- What `syncImpl` does: nothing while a request is under way, and otherwise it sends a destroy or
    a load request if there is something to destroy or to load. -/
theorem syncImpl_cases (s : ServerEntry ν δ π κ) : (s.synchronizing = true ∧ s.syncImpl = (s, [])) ∨
    (s.synchronizing = false ∧ ∃ d, s.destroy = some d ∧
      s.syncImpl = ({ s with updated := false, exception := none, synchronizing := true },
        [.send (.destroy d s.deactivationTimeout s.noRestart)])) ∨
    (s.synchronizing = false ∧ s.destroy = none ∧ ∃ l, s.load.or s.loaded = some l ∧
      s.syncImpl = ({ s with
          load := some l
          loaded := if s.load.isNone then none else s.loaded
          updated := false
          exception := none
          synchronizing := true },
        [.send (s.loadRequest l s.deactivationTimeout)])) ∨
    (s.synchronizing = false ∧ s.destroy = none ∧ s.load = none ∧ s.loaded = none ∧
      s.syncImpl = ({ s with updated := false, exception := none }, [])) := by
  cases hs : s.synchronizing with
  | true => exact .inl ⟨rfl, by simp [syncImpl, hs]⟩
  | false =>
    refine .inr ?_
    cases hd : s.destroy with
    | some d => exact .inl ⟨rfl, d, rfl, by simp [syncImpl, hs, hd]⟩
    | none =>
      refine .inr ?_
      cases hl : s.load with
      | some l => exact .inl ⟨rfl, rfl, l, rfl, by simp [syncImpl, hs, hd, hl, loadRequest]⟩
      | none =>
        cases hi : s.loaded with
        | some i => exact .inl ⟨rfl, rfl, i, rfl, by simp [syncImpl, hs, hd, hl, hi, loadRequest]⟩
        | none => exact .inr ⟨rfl, rfl, rfl, rfl, by simp [syncImpl, hs, hd, hl, hi]⟩

/-- A request starts when there is none under way. -/
theorem syncImpl_consistent (h : s.Consistent R) :
    s.syncImpl.1.Consistent (requests s.syncImpl.2 + R) := by
  rcases s.syncImpl_cases with ⟨-, heq⟩ | ⟨hs, d, hd, heq⟩ | ⟨hs, hd, l, hl, heq⟩ |
    ⟨hs, hd, hl, hi, heq⟩
  · rw [heq]
    simpa using h
  · obtain rfl := h.of_not_synchronizing hs
    have hloaded : s.loaded = none := by
      by_contra hsome
      cases (h.loaded (isSome_iff_ne_none.mpr hsome)).2.symm.trans hd
    rw [heq]
    exact Consistent.singleton rfl hd hloaded h.owed
  · obtain rfl := h.of_not_synchronizing hs
    rw [heq]
    refine Consistent.singleton_load (s := { s with
      load := some l
      loaded := if s.load.isNone then none else s.loaded
      updated := false
      exception := none
      synchronizing := true }) rfl hd rfl ?_ (h.owed_eq hd hl) _ _ _
    cases hload : s.load with
    | none => rfl
    | some l' => exact h.loaded_eq_none hload
  · rw [heq]
    obtain rfl := h.of_not_synchronizing hs
    exact { h with expects := nofun }

section

variable [DecidableEq ν]

/-- What `loadCallback` does with the acknowledgment of the load that is under way. -/
theorem loadCallback_cases {info : ServerInfo ν δ} {noRestart : Bool}
    (h : s.Expects (.load info session timeout noRestart)) (proxy : π)
    (activationTimeout deactivationTimeout : Int) : ∃ owed, (∀ n ∈ owed, n = info.node) ∧
    ((s.updated = false ∧ s.destroy = none ∧ s.load = some info ∧
      s.loadCallback info proxy activationTimeout deactivationTimeout = ({ s with
          owed, loaded := some info, load := none, proxy :=
            some proxy, activationTimeout, deactivationTimeout
          synchronizing := false, stale := false
          history := s.history ++ [.synchronized info s.lastUpdate s.holder] },
        [.synchronized])) ∨
    (∃ d, s.destroy = some d ∧ d.node = info.node ∧
      s.loadCallback info proxy activationTimeout deactivationTimeout =
        ({ s with owed, updated := false }, [.send (.destroy d (-1) s.noRestart)])) ∨
    (∃ l, s.destroy = none ∧ s.load = some l ∧ l.node = info.node ∧
      s.loadCallback info proxy activationTimeout deactivationTimeout =
        ({ s with owed, updated := false }, [.send (s.loadRequest l s.deactivationTimeout)]))) := by
  obtain ⟨hcurrent, hdestroy, hload, howed⟩ := h
  refine ⟨if info.node ∈ s.owed then s.owed else info.node :: s.owed, ?_, ?_⟩
  · intro n hn
    split_ifs at hn
    · exact howed n hn
    · rcases List.mem_cons.mp hn with rfl | hn
      · rfl
      · exact howed n hn
  cases hu : s.updated with
  | false =>
    obtain ⟨hd, hl⟩ := hcurrent hu
    exact .inl ⟨rfl, hd, hl, by simp [loadCallback, hu, hl, hd, assert]⟩
  | true =>
    refine .inr ?_
    cases hd : s.destroy with
    | some d => exact .inl ⟨d, rfl, hdestroy d hd, by simp [loadCallback, hu, hd]⟩
    | none =>
      obtain ⟨l, hl, hnode⟩ := hload hd
      exact .inr ⟨l, rfl, hl, hnode, by simp [loadCallback, hu, hd, hl, loadRequest]⟩

end

/-- What `destroyCallback` does when nothing is loaded. -/
theorem destroyCallback_cases (hloaded : s.loaded = none) : (s.load = none ∧ s.destroyCallback =
      ({ { s with destroy := none }.clearProxies with synchronizing := false }, [.synchronized])) ∨
    ∃ l, s.load = some l ∧ s.destroyCallback =
      ({ { s with destroy := none }.clearProxies with updated := false },
        [.send (s.loadRequest l (-1))]) := by
  cases hl : s.load with
  | none => exact .inl ⟨rfl, by simp [destroyCallback, clearProxies, hl, hloaded, assert]⟩
  | some l => exact .inr ⟨l, rfl, by simp [destroyCallback, clearProxies, hl, loadRequest]⟩

/-- What `exception` does: the synchronization ends, or the load is sent. -/
theorem exceptionCallback_cases (hload : s.destroy = none → s.load.isSome) (ex : SyncException) :
    (s.exceptionCallback ex = ({ { s with destroy := none, exception := some ex }.clearProxies with
        synchronizing := false }, [.synchronized])) ∨
    ∃ l, s.load = some l ∧ s.exceptionCallback ex =
      ({ s with destroy := none, updated := false },
        [.send (s.loadRequest l s.deactivationTimeout)]) := by
  by_cases hend : s.destroy.isSome ∧ s.load.isNone ∨ s.destroy.isNone ∧ !s.updated
  · exact .inl (by rw [exceptionCallback, if_pos hend])
  · cases hl : s.load with
    | some l =>
      refine .inr ⟨l, rfl, ?_⟩
      rw [exceptionCallback, if_neg hend]
      simp [hl, loadRequest]
    | none =>
      cases hd : s.destroy with
      | none => simp [hl] at hload; exact absurd hd hload
      | some d => simp [hd, hl] at hend

/-! ### The information that is loaded -/

/-- The information is that of the most recent update, for the session that has allocated the
    server. -/
def Latest (s : ServerEntry ν δ π κ) (i : ServerInfo ν δ) : Prop :=
  ∃ u, s.lastUpdate = some u ∧ i = u.allocatedBy s.holder

/-- The descriptors and the session are the latest ones. -/
structure Current (s : ServerEntry ν δ π κ) : Prop where
  load : ∀ i, s.load = some i → s.Latest i
  loaded : ∀ i, s.loaded = some i → s.Latest i
  session : s.allocationSession = if s.lastUpdate.any (·.session) then s.holder else none
  holder : s.holder.isSome → s.lastUpdate.isSome

theorem ServerInfo.allocatedBy_of_session {u : ServerInfo ν δ} (h : u.session = true)
    (holder : Option String) :
    u.allocatedBy holder = { u with sessionId := holder.getD "" } := if_pos h

theorem ServerInfo.allocatedBy_of_not_session {u : ServerInfo ν δ} (h : u.session = false)
    (holder : Option String) : u.allocatedBy holder = u := by
  unfold ServerInfo.allocatedBy
  rw [h]
  rfl

@[simp] theorem ServerInfo.allocatedBy_session (u : ServerInfo ν δ) (holder : Option String) :
    (u.allocatedBy holder).session = u.session := by
  unfold ServerInfo.allocatedBy
  split_ifs <;> rfl

/-- An update while the server is allocated keeps the activation mode session, or keeps another
    mode. -/
theorem update_current [DecidableEq ν] (h : s.Current)
    (hmode : s.holder ≠ none → ∀ u, s.lastUpdate = some u → u.session = info.session) :
    (s.update info noRestart).Current := by
  have hsession : s.allocationSession = if info.session then s.holder else none := by
    rw [h.session]
    cases hholder : s.holder with
    | none => simp
    | some session =>
      obtain ⟨u, hu⟩ := isSome_iff_exists.mp (h.holder (by rw [hholder]; rfl))
      rw [hu, any_some, hmode (by rw [hholder]; nofun) u hu]
  refine ⟨fun i hi => ⟨info, rfl, ?_⟩, nofun, ?_, fun _ => rfl⟩
  · cases hi
    by_cases hs : info.session = true
    · rw [if_pos hs] at hsession ⊢
      rw [ServerInfo.allocatedBy_of_session hs, hsession]
      rfl
    · rw [if_neg hs, ServerInfo.allocatedBy_of_not_session (by simpa using hs)]
  · exact hsession.trans (by simp [update])

theorem setSession_current (hc : s.Consistent R) (h : s.Current) (session : Option String)
    (hinfo : s.loaded.isSome ∨ s.load.isSome) :
    ({ s.setSession session with holder := session }).Current := by
  -- there is one descriptor
  obtain ⟨i, hi, hi'⟩ : ∃ i, s.loaded.or s.load = some i ∧ s.load.or s.loaded = some i := by
    cases hl : s.loaded with
    | none =>
      obtain ⟨i, hi⟩ := isSome_iff_exists.mp (hinfo.resolve_left (by simp [hl]))
      exact ⟨i, by simp [hi], by simp [hi]⟩
    | some i =>
      exact ⟨i, by simp, by simp [(hc.loaded (by rw [hl]; rfl)).1]⟩
  obtain ⟨u, hu, rfl⟩ : s.Latest i := by
    rcases or_eq_some_iff.mp hi with hi | ⟨-, hi⟩
    · exact h.loaded i hi
    · exact h.load i hi
  unfold setSession
  rw [hi]
  cases hs : u.session with
  | true =>
    rw [ServerInfo.allocatedBy_of_session hs] at hi hi'
    have hsession : (u.allocatedBy s.holder).session = true := by simp [hs]
    simp only [hsession, if_true, hi', map_some]
    refine ⟨fun j hj => ⟨u, hu, ?_⟩, fun j hj => ?_, ?_, fun _ => by simp [hu]⟩
    · cases hj
      rw [ServerInfo.allocatedBy_of_session hs]
    · cases hl : s.load with
      | none => simp [hl] at hj
      | some l =>
        simp [hl, hc.loaded_eq_none hl] at hj
    · simp [hu, hs]
  | false =>
    have hsession : (u.allocatedBy s.holder).session = false := by simp [hs]
    simp only [hsession, Bool.false_eq_true, if_false]
    have hlatest : ∀ j, s.Latest j → ({ s with holder := session }).Latest j := by
      rintro j ⟨u', hu', rfl⟩
      cases hu.symm.trans hu'
      exact ⟨u, hu,
        by rw [ServerInfo.allocatedBy_of_not_session hs, ServerInfo.allocatedBy_of_not_session hs]⟩
    refine ⟨fun j hj => hlatest j (h.load j hj), fun j hj => hlatest j (h.loaded j hj), ?_, fun _ =>
      by simp [hu]⟩
    have hnone := h.session
    simp only [hu, any_some, hs, Bool.false_eq_true, if_false] at hnone ⊢
    exact hnone

/-! ### Every run -/

/-- What holds between two sections, with the calls that are still to be made. -/
structure Invariant (s : ServerEntry ν δ π κ) (calls : Multiset (EntryCall ν δ)) : Prop where
  consistent : s.Consistent (requests calls + s.inFlight)
  current : s.Current
  waiting : s.callbacks ≠ [] → s.synchronizing = true ∨ EntryCall.synchronized ∈ calls
  answered : s.accepted.Perm (s.called ++ s.callbacks)
  passed : s.failed = false
  correct : ∀ m ∈ s.history, m.Correct

/-- A section that keeps the information and the callbacks, passes its assertions and records
    nothing wrong. -/
structure Quiet (s s' : ServerEntry ν δ π κ) (calls : List (EntryCall ν δ)) : Prop where
  load : ∀ i, s'.load = some i → s.load = some i ∨ s.loaded = some i
  loaded : ∀ i, s'.loaded = some i → s.load = some i ∨ s.loaded = some i
  lastUpdate : s'.lastUpdate = s.lastUpdate
  holder : s'.holder = s.holder
  allocationSession : s'.allocationSession = s.allocationSession
  callbacks : s'.callbacks = s.callbacks
  called : s'.called = s.called
  accepted : s'.accepted = s.accepted
  synchronizing : s.synchronizing = true → s'.synchronizing = true ∨ EntryCall.synchronized ∈ calls
  failed : s'.failed = s.failed
  history : ∀ m ∈ s'.history, m ∈ s.history ∨ m.Correct

variable {calls : List (EntryCall ν δ)}

theorem Quiet.refl (s : ServerEntry ν δ π κ) (calls : List (EntryCall ν δ)) : s.Quiet s calls :=
  ⟨fun _ => .inl, fun _ => .inr, rfl, rfl, rfl, rfl, rfl, rfl, .inl, rfl, fun _ => .inl⟩

theorem Quiet.current {s' : ServerEntry ν δ π κ} (hq : s.Quiet s' calls) (h : s.Current) :
    s'.Current := by
  have hlatest : ∀ i, s.load = some i ∨ s.loaded = some i → s'.Latest i := by
    intro i hi
    obtain ⟨u, hu, hi⟩ := hi.elim (h.load i) (h.loaded i)
    exact ⟨u, hq.lastUpdate.trans hu, hq.holder ▸ hi⟩
  refine ⟨fun i hi => hlatest i (hq.load i hi), fun i hi => hlatest i (hq.loaded i hi), ?_, ?_⟩
  · rw [hq.allocationSession, hq.lastUpdate, hq.holder]
    exact h.session
  · rw [hq.lastUpdate, hq.holder]
    exact h.holder

theorem Invariant.quiet {s' : ServerEntry ν δ π κ} {before others : Multiset (EntryCall ν δ)}
    (h : s.Invariant before) (hq : s.Quiet s' calls)
    (hothers : EntryCall.synchronized ∈ before → EntryCall.synchronized ∈ others)
    (hc : s'.Consistent (requests ((calls : Multiset (EntryCall ν δ)) + others) + s'.inFlight)) :
    s'.Invariant (↑calls + others) where
  consistent := hc
  current := hq.current h.current
  waiting hne := by
    rw [hq.callbacks] at hne
    rw [mem_add, mem_coe]
    rcases h.waiting hne with hs | hmem
    · rcases hq.synchronizing hs with hs' | hmem
      · exact .inl hs'
      · exact .inr (.inl hmem)
    · exact .inr (.inr (hothers hmem))
  answered := by
    rw [hq.accepted, hq.called, hq.callbacks]
    exact h.answered
  passed := hq.failed.trans h.passed
  correct m hm := (hq.history m hm).elim (h.correct m) id

theorem syncImpl_quiet (s : ServerEntry ν δ π κ) : s.Quiet s.syncImpl.1 s.syncImpl.2 := by
  rcases s.syncImpl_cases with ⟨-, heq⟩ | ⟨hs, d, hd, heq⟩ | ⟨hs, hd, l, hl, heq⟩ |
    ⟨hs, hd, hl, hi, heq⟩
  all_goals rw [heq]
  · exact .refl s _
  · exact { Quiet.refl s [] with synchronizing := fun _ => .inl rfl }
  · refine { Quiet.refl s [] with
      load := fun i hi => ?_
      loaded := fun i hi => ?_
      synchronizing := fun _ => .inl rfl }
    · cases hi
      exact (or_eq_some_iff.mp hl).imp id (·.2)
    · refine .inr ?_
      cases hload : s.load <;> simp [hload] at hi
      exact hi
  · exact { Quiet.refl s _ with }

theorem unsync_quiet (s : ServerEntry ν δ π κ) : s.Quiet s.unsync [] := by
  refine { Quiet.refl s _ with load := fun i hi => ?_, loaded := nofun }
  rcases or_eq_some_iff.mp hi with hi | ⟨-, hi⟩
  · exact .inr hi
  · exact .inl hi

theorem remove_quiet (hinfo : s.loaded.isSome ∨ s.load.isSome) (noRestart : Bool) :
    s.Quiet (s.remove noRestart) [] := by
  refine { Quiet.refl s _ with load := nofun, loaded := nofun, failed := ?_ }
  rcases hinfo with hinfo | hinfo <;> simp [remove, assert, hinfo]

theorem send_quiet (h : s.Expects r) : s.Quiet (s.send r) [] := by
  refine { Quiet.refl s _ with history := fun m hm => ?_ }
  cases r with
  | load info session timeout noRestart =>
    rcases List.mem_append.mp hm with hm | hm
    · exact .inl hm
    · rw [List.mem_singleton.mp hm]
      exact .inr h.2.2.2
  | destroy info timeout noRestart => exact .inl hm

/-- A section that handles the answer to the only request. -/
structure Handles (s s' : ServerEntry ν δ π κ) (calls : List (EntryCall ν δ)) : Prop where
  quiet : s.Quiet s' calls
  consistent : s'.Consistent (requests calls)
  inFlight : s'.inFlight = s.inFlight

theorem loadCallback_handles [DecidableEq ν] (hs : s.synchronizing = true)
    (hloaded : s.loaded = none)
    (h : s.Expects (.load info session timeout noRestart)) (hcurrent : s.Current) (proxy : π)
    (activationTimeout deactivationTimeout : Int) :
    s.Handles (s.loadCallback info proxy activationTimeout deactivationTimeout).1
      (s.loadCallback info proxy activationTimeout deactivationTimeout).2 := by
  obtain ⟨owed, howed, ⟨-, hd, hl, heq⟩ | ⟨d, hd, hnode, heq⟩ | ⟨l, hd, hl, hnode, heq⟩⟩ :=
    loadCallback_cases h proxy activationTimeout deactivationTimeout
  all_goals rw [heq]
  · refine ⟨{ Quiet.refl s [] with
      load := nofun, loaded := fun i hi => ?_, history := fun m hm => ?_
      synchronizing := fun _ => .inr (List.mem_singleton_self _) }, ?_, rfl⟩
    · cases hi
      exact .inl hl
    · rcases List.mem_append.mp hm with hm | hm
      · exact .inl hm
      · rw [List.mem_singleton.mp hm]
        exact .inr (hcurrent.load info hl)
    · refine ⟨rfl, nofun, fun _ => ⟨rfl, hd⟩, nofun, fun n hn => ?_⟩
      exact .inl ⟨info, rfl, (howed n hn).symm⟩
  · refine ⟨{ Quiet.refl s _ with }, ?_, rfl⟩
    apply Consistent.singleton (s := { s with owed, updated := false })
      (r := .destroy d (-1) s.noRestart) hs hd hloaded
    intro n hn
    exact .inr (.inl ⟨d, hd, hnode.trans (howed n hn).symm⟩)
  · refine ⟨{ Quiet.refl s _ with }, ?_, rfl⟩
    apply Consistent.singleton_load (s := { s with owed, updated := false }) hs hd hl hloaded
    intro n hn
    rw [hnode]
    exact howed n hn

theorem destroyCallback_handles (hs : s.synchronizing = true) (hloaded : s.loaded = none)
    (howed : s.owed = []) : s.Handles s.destroyCallback.1 s.destroyCallback.2 := by
  rcases destroyCallback_cases hloaded with ⟨hl, heq⟩ | ⟨l, hl, heq⟩
  all_goals rw [heq]
  · refine ⟨{ Quiet.refl s [] with synchronizing := fun _ => .inr (List.mem_singleton_self _) }, ?_,
      rfl⟩
    refine ⟨rfl, nofun, fun h => ?_, nofun, by simp [clearProxies, howed]⟩
    simp [clearProxies, hloaded] at h
  · refine ⟨{ Quiet.refl s _ with }, ?_, rfl⟩
    exact Consistent.singleton_load
      (s := { { s with destroy := none }.clearProxies with updated := false })
      hs rfl hl hloaded (by simp [clearProxies, howed]) _ _ _

theorem exceptionCallback_handles (hs : s.synchronizing = true) (hloaded : s.loaded = none)
    (hload : s.destroy = none → s.load.isSome)
    (howed : ∀ n ∈ s.owed, ∃ i, s.load = some i ∧ i.node = n) (ex : SyncException) :
    s.Handles (s.exceptionCallback ex).1 (s.exceptionCallback ex).2 := by
  rcases exceptionCallback_cases hload ex with heq | ⟨l, hl, heq⟩
  all_goals rw [heq]
  · refine ⟨{ Quiet.refl s [] with synchronizing := fun _ => .inr (List.mem_singleton_self _) }, ?_,
      rfl⟩
    refine ⟨rfl, nofun, fun h => ?_, nofun, fun n hn => .inr (.inr ⟨rfl, howed n hn⟩)⟩
    simp [clearProxies, hloaded] at h
  · refine ⟨{ Quiet.refl s _ with }, ?_, rfl⟩
    apply Consistent.singleton_load (s := { s with destroy := none, updated := false }) hs
      rfl hl hloaded
    intro n hn
    obtain ⟨i, hi, rfl⟩ := howed n hn
    cases hl.symm.trans hi
    rfl

theorem Quiet.trans {s₁ s2 : ServerEntry ν δ π κ} (h : s.Quiet s₁ [])
    (h' : s₁.Quiet s2 calls) : s.Quiet s2 calls where
  load i hi := (h'.load i hi).elim (h.load i) (h.loaded i)
  loaded i hi := (h'.loaded i hi).elim (h.load i) (h.loaded i)
  lastUpdate := h'.lastUpdate.trans h.lastUpdate
  holder := h'.holder.trans h.holder
  allocationSession := h'.allocationSession.trans h.allocationSession
  callbacks := h'.callbacks.trans h.callbacks
  called := h'.called.trans h.called
  accepted := h'.accepted.trans h.accepted
  synchronizing hs := by
    rcases h.synchronizing hs with hs' | hmem
    · exact h'.synchronizing hs'
    · cases hmem
  failed := h'.failed.trans h.failed
  history m hm := (h'.history m hm).elim (h.history m) .inr

/-- The events under which no node and no session is forgotten. When a load fails, no node that is
    to destroy the server has acknowledged an earlier load. A server that is allocated does not
    change between the activation mode session and the others, and it is allocated and released only
    while there is one. -/
def Ordinary : EntryEvent ν δ π κ → ServerEntry ν δ π κ → Prop
  | .update info _, s => s.holder ≠ none → ∀ u ∈ s.lastUpdate, u.session = info.session
  | .allocated _, s => s.loaded.isSome ∨ s.load.isSome
  | .released, s => s.loaded.isSome ∨ s.load.isSome
  | .reply (.load _ _ _ _) (.exception _), s => ∀ d ∈ s.destroy, d.node ∉ s.owed
  | _, _ => True

instance [DecidableEq ν] : (e : EntryEvent ν δ π κ) → (s : ServerEntry ν δ π κ) →
    Decidable (Ordinary e s)
  | .update info _, s =>
    inferInstanceAs (Decidable (s.holder ≠ none → ∀ u ∈ s.lastUpdate, u.session = info.session))
  | .allocated _, s => inferInstanceAs (Decidable (s.loaded.isSome ∨ s.load.isSome))
  | .released, s => inferInstanceAs (Decidable (s.loaded.isSome ∨ s.load.isSome))
  | .reply (.load _ _ _ _) (.exception _), s =>
    inferInstanceAs (Decidable (∀ d ∈ s.destroy, d.node ∉ s.owed))
  | .reply (.load _ _ _ _) (.response _ _ _), _ => isTrue trivial
  | .reply (.destroy _ _ _) _, _ => isTrue trivial
  | .destroy _, _ => isTrue trivial
  | .unsync, _ => isTrue trivial
  | .sync, _ => isTrue trivial
  | .addSyncCallback _, _ => isTrue trivial

variable {calls : List (EntryCall ν δ)} {others : Multiset (EntryCall ν δ)}
  {s' : ServerEntry ν δ π κ}

theorem exec_invariant {call : EntryCall ν δ} (h : s.Invariant (call ::ₘ others)) :
    LeadsTo Invariant others (exec call s) := by
  have hc := h.consistent
  cases call with
  | syncImpl =>
    rw [requests_syncImpl] at hc
    apply h.quiet s.syncImpl_quiet (by simp)
    have hinFlight : s.syncImpl.1.inFlight = s.inFlight := by
      rcases s.syncImpl_cases with ⟨-, heq⟩ | ⟨-, d, -, heq⟩ | ⟨-, -, l, -, heq⟩ |
        ⟨-, -, -, -, heq⟩ <;> rw [heq]
    rw [requests_add, hinFlight, add_assoc]
    exact syncImpl_consistent hc
  | noSync =>
    have hquiet : s.Quiet s.noSync.1 s.noSync.2 := by
      unfold noSync
      split_ifs <;> exact { Quiet.refl s _ with }
    apply h.quiet hquiet (by simp)
    unfold noSync
    split_ifs <;> simpa using hc
  | send request =>
    rw [requests_send] at hc
    apply h.quiet (send_quiet (hc.expects request (by simp))) (by simp)
    -- the request is under way as before
    have hrequests : (request ::ₘ requests others) + ↑s.inFlight =
        requests others + ↑(s.inFlight ++ [request]) := by
      rw [← coe_add, cons_add, coe_singleton, ← add_assoc,
        Multiset.add_comm _ {request}, Multiset.singleton_add]
    rw [hrequests] at hc
    rw [coe_nil, zero_add]
    exact { hc with }
  | synchronized =>
    rw [requests_synchronized] at hc
    refine ⟨?_, { h.current with }, nofun, ?_, h.passed,
      h.correct⟩
    · simp only [exec, coe_nil, zero_add]
      exact { hc with }
    · simpa [exec, synchronized] using h.answered

theorem addSyncCallback_invariant (h : s.Invariant others) (callback : κ) :
    (s.addSyncCallback callback).Invariant others := by
  unfold addSyncCallback
  split_ifs with hnone hs
  · exact h
  · have hc := h.consistent
    refine ⟨{ hc with },
      { h.current with }, fun _ => .inl hs, ?_, h.passed,
      h.correct⟩
    rw [← List.append_assoc]
    exact h.answered.append_right [callback]
  · exact h

/-- The session of an allocation changes nothing but what is to be loaded. -/
theorem setSession_invariant (h : s.Invariant others) (session : Option String)
    (hinfo : s.loaded.isSome ∨ s.load.isSome) :
    ({ s.setSession session with holder := session }).Invariant (EntryCall.noSync ::ₘ others) := by
  have hc := setSession_consistent h.consistent session
  have hcurrent := setSession_current h.consistent h.current session hinfo
  obtain ⟨updated, load, loaded, allocationSession, heq⟩ : ∃ updated load loaded allocationSession,
      s.setSession session = { s with updated, load, loaded, allocationSession } := by
    unfold setSession
    split
    · exact ⟨_, _, _, _, rfl⟩
    · split_ifs <;> exact ⟨_, _, _, _, rfl⟩
  rw [heq] at hc hcurrent ⊢
  refine ⟨?_, hcurrent, fun hne => ?_, h.answered, h.passed, h.correct⟩
  · rw [requests_noSync]
    exact { hc with }
  · rw [mem_cons]
    exact (h.waiting hne).imp id .inr

section

variable [DecidableEq ν] [DecidableEq δ]

/-- The request that is answered is the only one. -/
theorem Invariant.eq_zero_of_mem (h : s.Invariant others) {r : NodeRequest ν δ}
    (hr : r ∈ s.inFlight) :
    requests others = 0 ∧ s.inFlight.erase r = [] := by
  have hc := h.consistent
  have hsplit : requests others + ↑s.inFlight =
      r ::ₘ (requests others + (s.inFlight.erase r : List (NodeRequest ν δ))) := by
    rw [← coe_erase, ← add_cons, cons_erase (mem_coe.mpr hr)]
  rw [hsplit] at hc
  have hcard := congrArg card hc.eq_zero_of_cons
  rw [card_add, card_zero, Nat.add_eq_zero_iff] at hcard
  exact ⟨card_eq_zero.mp hcard.1, List.length_eq_zero_iff.mp hcard.2⟩

/-- The state in which the reply to a request is handled. -/
structure Answering (s s₁ : ServerEntry ν δ π κ) (r : NodeRequest ν δ) : Prop where
  quiet : s.Quiet s₁ []
  inFlight : s₁.inFlight = s.inFlight.erase r
  synchronizing : s₁.synchronizing = true
  loaded : s₁.loaded = none

variable {s₁ : ServerEntry ν δ π κ} {r : NodeRequest ν δ}

theorem Invariant.answer (h : s.Invariant others) (hr : r ∈ s.inFlight) (ha : Answering s s₁ r)
    (hh : s₁.Handles s' calls) : s'.Invariant (↑calls + others) := by
  obtain ⟨hothers, herase⟩ := h.eq_zero_of_mem hr
  apply h.quiet (ha.quiet.trans hh.quiet) id
  rw [requests_add, hothers, hh.inFlight, ha.inFlight, herase]
  simpa using hh.consistent

theorem reply_invariant (h : s.Invariant others) {reply : NodeReply π} (hr : r ∈ s.inFlight)
    (hok : Ordinary (κ := κ) (.reply r reply) s) :
    LeadsTo Invariant others (s.reply r reply) := by
  have hc := h.consistent
  have hmem : r ∈ requests others + ↑s.inFlight := by simp [hr]
  have hexpects := hc.expects r hmem
  have hs := hc.synchronizing_of_mem hmem
  have hloaded := hc.synchronizing hs
  have ha : Answering s { s with inFlight := s.inFlight.erase r } r :=
    ⟨{ Quiet.refl s _ with }, rfl, hs, hloaded⟩
  cases r with
  | load info session timeout noRestart =>
    cases reply with
    | response proxy activationTimeout deactivationTimeout =>
      exact h.answer hr ha (@loadCallback_handles _ _ _ _ _ info noRestart session timeout _
        ha.synchronizing hloaded hexpects (ha.quiet.current h.current) _ _ _)
    | exception ex =>
      refine h.answer hr ha (exceptionCallback_handles ha.synchronizing hloaded ?_ ?_ ex)
      · intro hd
        obtain ⟨i, hi, -⟩ := hexpects.2.2.1 hd
        exact isSome_iff_exists.mpr ⟨i, hi⟩
      · intro n hn
        rcases hc.owed n hn with ⟨i, hi, -⟩ | ⟨d, hd, rfl⟩ | ⟨-, hi⟩
        · cases hloaded.symm.trans hi
        · exact absurd hn (hok d hd)
        · exact hi
  | destroy info timeout noRestart =>
    -- the server had been loaded at most on the node that has answered
    have howed : s.owed.filter (· ≠ info.node) = [] := by
      rw [List.filter_eq_nil_iff]
      intro n hn
      rcases hc.owed n hn with ⟨i, hi, -⟩ | ⟨d, hd, rfl⟩ | ⟨hd, -⟩
      · cases hloaded.symm.trans hi
      · cases hexpects.symm.trans hd
        simp
      · cases hexpects.symm.trans hd
    have ha : Answering s
        ({ s with inFlight := s.inFlight.erase (.destroy info timeout noRestart) }.settle
          info.node) _ := ⟨{ Quiet.refl s _ with }, rfl, hs, hloaded⟩
    cases reply with
    | response proxy activationTimeout deactivationTimeout =>
      exact h.answer hr ha (destroyCallback_handles ha.synchronizing hloaded howed)
    | exception ex =>
      refine h.answer hr ha (exceptionCallback_handles ha.synchronizing hloaded ?_ ?_ ex)
      · intro hd
        cases hexpects.symm.trans hd
      · intro n hn
        have hmem' : n ∈ s.owed.filter (· ≠ info.node) := hn
        rw [howed] at hmem'
        cases hmem'

theorem spawn_invariant {e : EntryEvent ν δ π κ} (h : s.Invariant others) (hok : Ordinary e s)
    (hspawn : spawn e s = some (s', calls)) : s'.Invariant (↑calls + others) := by
  cases e with
  | update info noRestart =>
    cases hspawn
    rw [coe_nil, zero_add]
    exact { h with
      consistent := update_consistent h.consistent info noRestart, current :=
        update_current h.current hok }
  | destroy noRestart =>
    simp only [spawn, ite_none_right_eq_some, some.injEq, Prod.mk.injEq] at hspawn
    obtain ⟨hinfo, rfl, rfl⟩ := hspawn
    apply h.quiet (remove_quiet hinfo noRestart) id
    rw [coe_nil, zero_add]
    exact remove_consistent h.consistent noRestart
  | unsync =>
    cases hspawn
    apply h.quiet s.unsync_quiet id
    rw [coe_nil, zero_add]
    exact unsync_consistent h.consistent
  | sync =>
    cases hspawn
    apply h.quiet (.refl s _) id
    simpa using h.consistent
  | addSyncCallback callback =>
    cases hspawn
    simpa using addSyncCallback_invariant h callback
  | allocated | released =>
    simp only [spawn, ite_none_right_eq_some, some.injEq, Prod.mk.injEq] at hspawn
    obtain ⟨-, rfl, rfl⟩ := hspawn
    exact setSession_invariant h _ hok
  | reply request reply =>
    simp only [spawn, ite_none_right_eq_some, some.injEq] at hspawn
    obtain ⟨hr, heq⟩ := hspawn
    have hinv := reply_invariant h hr hok
    rw [heq] at hinv
    exact hinv

theorem run_invariant {choices : List (Choice (EntryEvent ν δ π κ))}
    {c : Threads (ServerEntry ν δ π κ) (EntryCall ν δ)}
    (h : Threads.run exec spawn choices start = some c)
    (hok : Threads.AllSteps exec spawn (fun e s _ => Ordinary e s)
      (fun _ _ _ => True) choices start) : c.state.Invariant c.calls := by
  refine Threads.run_invariant_of (P := Invariant) ?_ ?_ h hok ?_
  · intro s call others hs _
    exact exec_invariant hs
  · intro s e s' calls others hs hok hspawn
    exact spawn_invariant hs hok hspawn
  · exact ⟨⟨rfl, nofun, nofun, fun _ => rfl, nofun⟩, ⟨nofun, nofun, rfl, nofun⟩, fun h =>
      absurd rfl h, List.Perm.refl _, rfl, nofun⟩

/-- In every run there is at most one request under way, no assertion fails, a callback that was
    accepted is called once, at the latest when a synchronization ends, a synchronization that
    succeeds has loaded the latest information, and a load is sent after the server was destroyed on
    every other node. -/
theorem synchronization_correct {choices : List (Choice (EntryEvent ν δ π κ))}
    {c : Threads (ServerEntry ν δ π κ) (EntryCall ν δ)}
    (h : Threads.run exec spawn choices start = some c)
    (hok : Threads.AllSteps exec spawn (fun e s _ => Ordinary e s)
      (fun _ _ _ => True) choices start) :
    c.state.inFlight.length ≤ 1 ∧ c.state.failed = false ∧
      c.state.accepted.Perm (c.state.called ++ c.state.callbacks) ∧
      (c.state.synchronizing = false → EntryCall.synchronized ∉ c.calls →
        c.state.accepted.Perm c.state.called) ∧
      ∀ m ∈ c.state.history, m.Correct := by
  have hinv := run_invariant h hok
  refine ⟨?_, hinv.passed, hinv.answered, fun hs hcalls => ?_, hinv.correct⟩
  · have hactive := hinv.consistent.active
    rw [card_add, coe_card] at hactive
    split_ifs at hactive <;> omega
  · have hnone : c.state.callbacks = [] := by
      by_contra hne
      rcases hinv.waiting hne with hs' | hmem
      · cases hs.symm.trans hs'
      · exact hcalls hmem
    have hanswered := hinv.answered
    rw [hnone, List.append_nil] at hanswered
    exact hanswered

/-- A server that is loaded, loaded again for a session, and moved to another node. -/
theorem synchronization_correct_moved : ∃ c, Threads.run exec spawn
    [.event (.update ⟨1, true, (), ""⟩ false), .event .sync, .thread 1,
      .event (.addSyncCallback ()), .thread 1,
      .event (.reply (.load ⟨1, true, (), ""⟩ none (-1) false) (.response () 1 1)), .thread 3,
      .event (.allocated "s"), .thread 4, .thread 4, .thread 4,
      .event (.update ⟨2, true, (), ""⟩ false),
      .event (.reply (.load ⟨1, true, (), "s"⟩ (some "s") 1 false) (.response () 1 1)), .thread 6,
      .event (.reply (.destroy ⟨1, true, (), "s"⟩ (-1) false) (.response () 1 1)), .thread 7,
      .event (.reply (.load ⟨2, true, (), "s"⟩ (some "s") (-1) false) (.response () 1 1))]
    (start : Threads (ServerEntry Nat Unit Unit Unit) _) = some c ∧
      c.state.accepted = [()] ∧ c.state.history.length = 5 ∧ c.state.inFlight.length ≤ 1 ∧
        c.state.failed = false ∧ ∀ m ∈ c.state.history, m.Correct := by
  refine Exists.imp (fun c hc => ⟨hc, ?_⟩) (isSome_iff_exists.mp rfl)
  obtain ⟨hinFlight, hfailed, -, -, hcorrect⟩ := synchronization_correct hc (by decide)
  cases hc
  exact ⟨rfl, rfl, hinFlight, hfailed, hcorrect⟩

/-- A load fails after an update moved the server: the load on the new node is sent although the old
    node, which had acknowledged an earlier load, was never asked to destroy the server. And a
    server that gets the activation mode session while it is allocated is loaded without the
    session. -/
theorem load_before_destroy : ∃ c c', Threads.run exec spawn
    [.event (.update ⟨1, false, (), ""⟩ false), .event .sync, .thread 1, .thread 1,
      .event (.reply (.load ⟨1, false, (), ""⟩ none (-1) false) (.response () 1 1)),
      .event .sync, .thread 3, .thread 3, .event (.update ⟨2, false, (), ""⟩ false),
      .event (.reply (.load ⟨1, false, (), ""⟩ none 1 false) (.exception .deployment)), .thread 5]
    (start : Threads (ServerEntry Nat Unit Unit Unit) _) = some c ∧
      Mark.loading ⟨2, false, (), ""⟩ false [1] true ∈ c.state.history ∧ Threads.run exec spawn
      [.event (.update ⟨1, false, (), ""⟩ false), .event .sync, .thread 1, .thread 1,
        .event (.reply (.load ⟨1, false, (), ""⟩ none (-1) false) (.response () 1 1)),
        .event (.allocated "s"),
        .event (.update ⟨1, true, (), ""⟩ false), .event .sync, .thread 5, .thread 5,
        .event (.reply (.load ⟨1, true, (), ""⟩ none 1 false) (.response () 1 1))]
      (start : Threads (ServerEntry Nat Unit Unit Unit) _) = some c' ∧
      Mark.synchronized ⟨1, true, (), ""⟩ (some ⟨1, true, (), ""⟩) (some "s") ∈
      c'.state.history := by
  refine ⟨_, _, rfl, by decide, rfl, by decide⟩

end

end ServerEntry

end Ice.IceGrid
