import Ice.IceGrid.Locator
import Ice.Misc.Lists

/-!
# The response to a request for a replica group

A request for a replica group is answered once, with the endpoints of adapters that answered. It
counts down the proxies that it expects with every failure once all adapters have been asked, and
forgets that it has asked for more adapters than proxies when servers were being activated. The
response may then be null although adapters are still to answer.
-/

namespace Ice.IceGrid

open Misc List LocatorI ReplicaGroupRequest Call

variable {ρ α E : Type}

namespace ReplicaGroupRequest

/-- The adapters whose invocation has ended. -/
def ended (q : ReplicaGroupRequest α E) : List α := q.answered.map Prod.fst ++ q.failed

/-- The adapters that were asked and whose invocation has not ended. -/
def Waiting (q : ReplicaGroupRequest α E) (a : α) : Prop := a ∈ q.asked ∧ a ∉ q.ended

instance [DecidableEq α] (q : ReplicaGroupRequest α E) (a : α) : Decidable (q.Waiting a) :=
  inferInstanceAs (Decidable (_ ∧ _))

/-- A response is null only after all adapters have failed, and otherwise has the endpoints of
    adapters that answered, of at least one and of not more than were requested. -/
structure Correct (q : ReplicaGroupRequest α E) (x : Sent α E) : Prop where
  null : x.response = none → ∀ a ∈ q.adapters, a ∈ x.failed
  endpoints : ∀ endpoints, x.response = some endpoints → ∃ proxies : List (α × DirectProxy E),
    1 ≤ proxies.length ∧ proxies.length ≤ q.requested ∧ (proxies.map Prod.fst).Nodup ∧
      (∀ p ∈ proxies, p ∈ x.answered) ∧ endpoints = proxies.flatMap (·.2.endpoints)

/-- What the sections keep of the adapters and of the proxies. -/
structure Core (q : ReplicaGroupRequest α E) : Prop where
  nodup : q.adapters.Nodup
  asked : q.asked ++ q.lastAdapter = q.adapters
  ended_nodup : q.ended.Nodup
  ended_asked : ∀ a ∈ q.ended, a ∈ q.asked
  count_le : q.count ≤ q.requested
  proxies_nodup : (q.proxies.map Prod.fst).Nodup
  proxies_answered : ∀ p ∈ q.proxies, p ∈ q.answered

/-- Each adapter that was asked stands for a proxy that is expected or for a failure. -/
def Accounted (q : ReplicaGroupRequest α E) : Prop := q.asked.length = q.count + q.failed.length

/-- `activating` asks no further adapter for the response: there is none left, or the response has
    been sent. -/
def AsksNoMore (q : ReplicaGroupRequest α E) : Prop :=
  q.lastAdapter = [] ∨ q.proxies.length = q.count

/-- What holds of a request at any time. -/
structure Sound (q : ReplicaGroupRequest α E) : Prop extends q.Core where
  open_ : q.sent = [] → q.proxies.length < q.count ∧
    q.answered.length = q.proxies.length ∧ q.Accounted
  closed : q.sent ≠ [] → q.sent.length = 1 ∧ q.proxies.length = q.count
  correct : ∀ x ∈ q.sent, q.Correct x

variable {q : ReplicaGroupRequest α E}

theorem Core.asked_subset (h : q.Core) : ∀ a ∈ q.asked, a ∈ q.adapters := by
  intro a ha
  rw [← h.asked]
  exact mem_append_left _ ha

theorem Core.asked_nodup (h : q.Core) : q.asked.Nodup := (h.asked ▸ h.nodup).of_append_left

theorem Core.failed_nodup (h : q.Core) : q.failed.Nodup := h.ended_nodup.of_append_right

theorem mem_ended_of_failed {a : α} (h : a ∈ q.failed) : a ∈ q.ended := mem_append_right _ h

theorem Core.proxies_asked (h : q.Core) : ∀ p ∈ q.proxies, p.1 ∈ q.asked := by
  intro p hp
  apply h.ended_asked
  exact mem_append_left _ (mem_map_of_mem (h.proxies_answered p hp))

/-- All adapters have failed when nothing is expected any more. -/
theorem all_failed (h : q.Core) (haccounted : q.Accounted) (hcount : q.count = 0)
    (hlast : q.lastAdapter = []) : ∀ a ∈ q.adapters, a ∈ q.failed := by
  have hasked : q.asked = q.adapters := by
    rw [← h.asked, hlast, append_nil]
  have hsub : q.failed.Subperm q.adapters := by
    apply h.failed_nodup.subperm
    intro b hb
    rw [← hasked]
    exact h.ended_asked b (mem_ended_of_failed hb)
  have hperm := hsub.perm_of_length_le (by rw [← hasked, haccounted, hcount, Nat.zero_add])
  exact fun a ha => hperm.mem_iff.mpr ha

/-! ### The sections -/

/-- What a section does that asks the adapters `new` and that is run for the end of the invocations
    on the adapters `ends`. -/
structure Runs (q q' : ReplicaGroupRequest α E) (new ends : List α) : Prop where
  sound : q'.Sound
  asked : q'.asked = q.asked ++ new
  ended : ∀ a, a ∈ q'.ended ↔ a ∈ q.ended ∨ a ∈ ends

/-- The response has been sent exactly if all proxies that are expected have been received. -/
theorem Sound.sent_ne_nil_iff (h : q.Sound) : q.sent ≠ [] ↔ q.proxies.length = q.count :=
  ⟨fun hsent => (h.closed hsent).2, fun hfull hsent => absurd hfull (h.open_ hsent).1.ne⟩

theorem Core.sound_of_open (h : q.Core) (hsent : q.sent = []) (hlt : q.proxies.length < q.count)
    (hlength : q.answered.length = q.proxies.length) (haccounted : q.Accounted) : q.Sound where
  toCore := h
  open_ _ := ⟨hlt, hlength, haccounted⟩
  closed hne := absurd hsent hne
  correct := by simp [hsent]

theorem Core.ask (h : q.Core) {a : α} {l : List α} (hlast : q.lastAdapter = a :: l) :
    Core { q with lastAdapter := l, asked := q.asked ++ [a] } where
  __ := h
  asked := by
    rw [← h.asked, hlast]
    simp
  ended_asked b hb := mem_append_left _ (h.ended_asked b hb)

theorem Core.fail (h : q.Core) {id : α} (hid : q.Waiting id) :
    Core { q with failed := q.failed ++ [id] } where
  __ := h
  ended_nodup := by
    have hnot := hid.2
    have hnodup := h.ended_nodup
    unfold ended at *
    rw [← append_assoc]
    exact hnodup.append (nodup_singleton id) (by simpa using hnot)
  ended_asked b hb := by
    unfold ended at hb
    rw [← append_assoc] at hb
    rcases mem_append.mp hb with hb | hb
    · exact h.ended_asked b hb
    · rw [mem_singleton.mp hb]
      exact hid.1

theorem mem_ended_fail (q : ReplicaGroupRequest α E) (id a : α) :
    a ∈ q.answered.map Prod.fst ++ (q.failed ++ [id]) ↔ a ∈ q.ended ∨ a ∈ [id] := by
  rw [← append_assoc, mem_append]
  rfl

theorem mem_ended_answer (q : ReplicaGroupRequest α E) (id a : α) (proxy : DirectProxy E) :
    a ∈ (q.answered ++ [(id, proxy)]).map Prod.fst ++ q.failed ↔ a ∈ q.ended ∨ a ∈ [id] := by
  simp only [ended, map_append, mem_append, map_cons, map_nil, or_right_comm]

theorem Core.answer (h : q.Core) {id : α} (hid : q.Waiting id) (proxy : DirectProxy E) :
    Core { q with answered := q.answered ++ [(id, proxy)] } where
  __ := h
  ended_nodup := by
    have hperm : (((q.answered ++ [(id, proxy)]).map Prod.fst) ++ q.failed).Perm
        (id :: q.ended) := by
      rw [map_append, append_assoc]
      exact perm_middle
    exact (hperm.nodup_iff).mpr (nodup_cons.mpr ⟨hid.2, h.ended_nodup⟩)
  ended_asked b hb := by
    rcases (mem_ended_answer q id b proxy).mp hb with hb | hb
    · exact h.ended_asked b hb
    · rw [mem_singleton.mp hb]
      exact hid.1
  proxies_answered p hp := mem_append_left _ (h.proxies_answered p hp)

theorem activating_runs (h : q.Sound) (hmore : q.AsksNoMore) :
    Runs q q.activating.1 q.activating.2 [] := by
  unfold activating
  split
  · exact ⟨h, by simp, by simp⟩
  · rename_i a l hlast
    have hfull : q.proxies.length = q.count := hmore.resolve_left (by simp [hlast])
    refine ⟨?_, rfl, fun b => by simp [ended]⟩
    exact { h.toCore.ask hlast with
      open_ := fun hsent => absurd hsent (h.sent_ne_nil_iff.mpr hfull)
      closed := h.closed, correct := fun x hx => { h.correct x hx with } }

section

variable [DecidableEq α]

/-- The proxies in the order of the adapters. -/
def ordered (q : ReplicaGroupRequest α E) : List (α × DirectProxy E) :=
  q.adapters.filterMap fun a => (q.proxies.lookup a).map (a, ·)

theorem mem_ordered {p : α × DirectProxy E} (hp : p ∈ q.ordered) : p ∈ q.proxies := by
  obtain ⟨a, -, ha⟩ := mem_filterMap.mp hp
  obtain ⟨proxy, hlookup, rfl⟩ := Option.map_eq_some_iff.mp ha
  exact mem_of_lookup hlookup

theorem flatMap_ordered (q : ReplicaGroupRequest α E) :
    q.ordered.flatMap (·.2.endpoints) = q.adapters.flatMap fun adapter =>
      match q.proxies.lookup adapter with
      | some proxy => proxy.endpoints
      | none => [] := by
  unfold ordered
  induction q.adapters with
  | nil => rfl
  | cons a l ih =>
    cases hlookup : q.proxies.lookup a <;> simp [hlookup, ih]

theorem ordered_nodup (h : q.Core) : (q.ordered.map Prod.fst).Nodup := by
  have hmap : q.ordered.map Prod.fst = q.adapters.filter fun a => (q.proxies.lookup a).isSome := by
    unfold ordered
    induction q.adapters with
    | nil => rfl
    | cons a l ih =>
      cases hlookup : q.proxies.lookup a <;> simp [hlookup, ih]
  rw [hmap]
  exact h.nodup.filter _

theorem ordered_ne_nil (h : q.Core) (hne : q.proxies ≠ []) : q.ordered ≠ [] := by
  obtain ⟨⟨a, proxy⟩, l, hl⟩ := exists_cons_of_ne_nil hne
  have hmem : (a, proxy) ∈ q.proxies := by
    rw [hl]
    exact mem_cons_self
  have hlookup : q.proxies.lookup a = some proxy := by
    rw [hl]
    simp
  have hordered : (a, proxy) ∈ q.ordered :=
    mem_filterMap.mpr ⟨a, h.asked_subset a (h.proxies_asked _ hmem), by rw [hlookup]; rfl⟩
  exact ne_nil_of_mem hordered

/-- The endpoints of the response are those of the adapters whose proxies were received. -/
theorem endpoints_spec (h : q.Core) (hle : q.proxies.length ≤ q.requested) {endpoints : List E}
    (hendpoints : q.endpoints = some endpoints) : ∃ proxies : List (α × DirectProxy E),
      1 ≤ proxies.length ∧ proxies.length ≤ q.requested ∧ (proxies.map Prod.fst).Nodup ∧
        (∀ p ∈ proxies, p ∈ q.answered) ∧ endpoints = proxies.flatMap (·.2.endpoints) := by
  unfold ReplicaGroupRequest.endpoints at hendpoints
  split at hendpoints
  · cases hendpoints
  · rename_i a proxy hproxies
    cases hendpoints
    have hanswered := h.proxies_answered (a, proxy) (by rw [hproxies]; exact mem_cons_self)
    rw [hproxies] at hle
    exact ⟨[(a, proxy)], by simp, hle, by simp, by simpa using hanswered, by simp⟩
  · rename_i hnil _
    cases hendpoints
    have hne : q.proxies ≠ [] := hnil
    have hsub : q.ordered.Subperm q.proxies :=
      (ordered_nodup h).of_map.subperm fun p hp => mem_ordered hp
    refine ⟨q.ordered, length_pos_of_ne_nil (ordered_ne_nil h hne), hsub.length_le.trans hle,
      ordered_nodup h, fun p hp => h.proxies_answered p (mem_ordered hp), ?_⟩
    exact (flatMap_ordered q).symm

theorem endpoints_eq_none_iff : q.endpoints = none ↔ q.proxies = [] := by
  unfold endpoints
  split <;> simp_all

/-- A response is sent when all proxies that are expected have been received. -/
theorem sendResponse_sound (h : q.Core) (hsent : q.sent = []) (hfull : q.proxies.length = q.count)
    (hlast : q.proxies = [] → q.lastAdapter = []) (haccounted : q.Accounted) :
    q.sendResponse.Sound where
  toCore := { h with }
  open_ := by simp [sendResponse]
  closed _ := ⟨by simp [sendResponse, hsent], hfull⟩
  correct := by
    intro x hx
    obtain rfl : x = ⟨q.endpoints, q.answered, q.failed⟩ := by
      simpa [sendResponse, hsent] using hx
    refine ⟨fun hnull => ?_, fun endpoints hendpoints => ?_⟩
    · have hnil := endpoints_eq_none_iff.mp hnull
      apply all_failed h haccounted _ (hlast hnil)
      rw [← hfull, hnil]
      rfl
    · exact endpoints_spec h (hfull ▸ h.count_le) hendpoints

theorem exception_runs (h : q.Sound) {id : α} (hid : q.Waiting id) (ex : AdapterException) :
    Runs q (q.exception id ex).1 (q.exception id ex).2 [id] := by
  have hcore := h.toCore.fail hid
  unfold exception
  dsimp only
  by_cases hfull : q.proxies.length = q.count
  · -- the response has been sent
    rw [if_pos hfull]
    refine ⟨?_, by simp, mem_ended_fail q id⟩
    exact { hcore with
      open_ := fun hnil => absurd hnil (h.sent_ne_nil_iff.mpr hfull), closed := h.closed
      correct := fun x hx => { h.correct x hx with } }
  · rw [if_neg hfull]
    have hsent := not_not.mp (mt h.sent_ne_nil_iff.mp hfull)
    obtain ⟨hlt, hlength, haccounted⟩ := h.open_ hsent
    unfold Accounted at haccounted
    split
    · rename_i hlast
      have hcore' : Core { q with
          failed := q.failed ++ [id], exptr := q.exptr.or (some ex), count := q.count - 1 } :=
        { hcore with count_le := (Nat.sub_le _ _).trans hcore.count_le }
      have haccounted' : Accounted { q with
          failed := q.failed ++ [id], exptr := q.exptr.or (some ex), count := q.count - 1 } := by
        unfold Accounted
        simp only [length_append, length_singleton]
        omega
      split_ifs with hsends
      · refine ⟨?_, by simp [sendResponse], mem_ended_fail q id⟩
        exact sendResponse_sound hcore' hsent hsends.symm (fun _ => hlast) haccounted'
      · refine ⟨?_, by simp, mem_ended_fail q id⟩
        refine hcore'.sound_of_open hsent ?_ hlength haccounted'
        dsimp only at hsends ⊢
        omega
    · rename_i a l hlast
      refine ⟨?_, rfl, mem_ended_fail q id⟩
      refine Core.sound_of_open { hcore.ask hlast with } hsent hlt hlength ?_
      unfold Accounted
      simp only [length_append, length_singleton]
      omega

theorem response_runs (h : q.Sound) {id : α} (hid : q.Waiting id) (proxy : DirectProxy E) :
    Runs q (q.response id proxy).1 (q.response id proxy).2 [id] := by
  unfold response
  by_cases hsupported : isSupported q.encoding proxy.encoding = false
  · rw [if_pos hsupported]
    exact exception_runs h hid _
  rw [if_neg hsupported]
  have hcore := h.toCore.answer hid proxy
  by_cases hfull : q.proxies.length = q.count
  · rw [if_pos hfull]
    refine ⟨?_, by simp, (mem_ended_answer q id · proxy)⟩
    exact { hcore with
      open_ := fun hnil => absurd hnil (h.sent_ne_nil_iff.mpr hfull), closed := h.closed
      correct := fun x hx => { h.correct x hx with } }
  · rw [if_neg hfull]
    have hsent := not_not.mp (mt h.sent_ne_nil_iff.mp hfull)
    obtain ⟨hlt, hlength, haccounted⟩ := h.open_ hsent
    -- the adapter has no proxy yet, since it has not answered
    have hkey : id ∉ q.proxies.map Prod.fst := by
      intro hmem
      obtain ⟨p, hp, rfl⟩ := mem_map.mp hmem
      exact hid.2 (mem_append_left _ (mem_map_of_mem (h.proxies_answered p hp)))
    have hlookup : (q.proxies.lookup id).isSome = false := by
      cases hlookup : q.proxies.lookup id with
      | none => rfl
      | some proxy' => exact absurd (mem_map_of_mem (mem_of_lookup hlookup)) hkey
    simp only [hlookup, Bool.false_eq_true, if_false]
    have hcore' : Core { q with
        answered := q.answered ++ [(id, proxy)], proxies := q.proxies ++ [(id, proxy)] } := by
      refine { hcore with proxies_nodup := ?_, proxies_answered := ?_ }
      · simp only [map_append, map_cons, map_nil]
        exact h.proxies_nodup.append (nodup_singleton id) (by simpa using hkey)
      · intro p hp
        rcases mem_append.mp hp with hp | hp
        · exact mem_append_left _ (h.proxies_answered p hp)
        · exact mem_append_right _ hp
    split_ifs with hsends
    · refine ⟨?_, by simp [sendResponse], (mem_ended_answer q id · proxy)⟩
      exact sendResponse_sound hcore' hsent hsends (by simp) haccounted
    · refine ⟨?_, by simp, (mem_ended_answer q id · proxy)⟩
      refine hcore'.sound_of_open hsent ?_ (by simp [hlength]) haccounted
      simp only [length_append, length_singleton] at hsends ⊢
      omega

/-- A request starts with as many adapters as proxies are requested, or with all. -/
theorem execute_new (encoding : EncodingVersion) {adapters : List α} (hnodup : adapters.Nodup)
    {count : Nat} (hcount : 1 ≤ count) :
    let result := (new encoding adapters count : ReplicaGroupRequest α E).execute
    result.1.Sound ∧ result.1.asked = result.2 ∧ result.1.ended = [] := by
  by_cases hnil : adapters = []
  · subst hnil
    refine ⟨?_, rfl, rfl⟩
    exact sendResponse_sound ⟨nodup_nil, rfl, nodup_nil, by simp [ended, new],
      Nat.zero_le _, nodup_nil, by simp [new]⟩ rfl rfl (fun _ => rfl) rfl
  · have hlength := length_pos_of_ne_nil hnil
    have hexecute : (new encoding adapters count : ReplicaGroupRequest α E).execute =
        ({ (new encoding adapters count : ReplicaGroupRequest α E) with
            count := min count adapters.length
            lastAdapter := adapters.drop count
            asked := adapters.take count }, adapters.take count) := by
      have hmin :
          (if (adapters.take count).length < count then
          0 + (adapters.take count).length else count) =
          min count adapters.length := by
        rw [length_take]
        split_ifs <;> omega
      simp only [execute, new, hnil, if_false, length_nil, Nat.sub_zero, hmin, nil_append]
      exact if_neg (by omega)
    rw [hexecute]
    refine ⟨?_, rfl, rfl⟩
    refine Core.sound_of_open ⟨hnodup, take_append_drop _ _, nodup_nil,
      by simp [ended, new], Nat.min_le_left _ _, nodup_nil, by simp [new]⟩ rfl ?_ rfl ?_
    · dsimp only [new, length_nil]
      omega
    · simp [Accounted, new]

/-- After a section, the new adapters are waited for and those whose invocation has ended are
    not. -/
theorem Runs.waiting {q' : ReplicaGroupRequest α E} {new ends : List α} (h : q.Runs q' new ends)
    (hq : q.Sound) (hends : ∀ a ∈ ends, q.Waiting a) {a : α} {n : Nat}
    (hn : (if a ∈ ends then 1 else 0) + n = if q.Waiting a then 1 else 0) :
    new.count a + n = if q'.Waiting a then 1 else 0 := by
  have hnodup : (q.asked ++ new).Nodup := h.asked ▸ h.sound.asked_nodup
  have hwaiting : q'.Waiting a ↔ (a ∈ q.asked ∨ a ∈ new) ∧ a ∉ q.ended ∧ a ∉ ends := by
    unfold Waiting
    rw [h.asked, h.ended, mem_append, not_or]
  by_cases hnew : a ∈ new
  · have hasked : a ∉ q.asked := fun hasked => disjoint_of_nodup_append hnodup hasked hnew
    have hnot : ¬ q.Waiting a := fun hw => hasked hw.1
    have hend : a ∉ ends := fun hmem => hnot (hends a hmem)
    rw [if_neg hend, if_neg hnot] at hn
    have hmust : q'.Waiting a :=
      hwaiting.mpr ⟨.inr hnew, fun hended => hasked (hq.ended_asked a hended), hend⟩
    rw [if_pos hmust, count_eq_one_of_mem hnodup.of_append_right hnew]
    omega
  · rw [count_eq_zero_of_not_mem hnew, Nat.zero_add]
    by_cases hend : a ∈ ends
    · have hnot : ¬ q'.Waiting a := fun hw => (hwaiting.mp hw).2.2 hend
      rw [if_pos hend, if_pos (hends a hend)] at hn
      rw [if_neg hnot]
      omega
    · have hiff : q'.Waiting a ↔ q.Waiting a := by
        rw [hwaiting]
        exact ⟨fun hw => ⟨hw.1.resolve_right hnew, hw.2.1⟩, fun hw => ⟨.inl hw.1, hw.2, hend⟩⟩
      rw [if_neg hend, Nat.zero_add] at hn
      rw [hn]
      simp only [hiff]

end

end ReplicaGroupRequest

/-! ## The locator -/

def Call.invokes [DecidableEq α] (a : α) : Call ρ α E → Nat
  | .invoke adapter _ => if adapter = a then 1 else 0
  | _ => 0

theorem sum_invokes_map [DecidableEq α] {β : Type} {f : β → Call ρ α E} {a : α}
    (hf : ∀ x, (f x).invokes a = 0) (l : List β) : ((l.map f).map (invokes a)).sum = 0 := by
  rw [map_map]
  exact sum_map_eq_zero fun x _ => hf x

section

variable [DecidableEq ρ] [DecidableEq α]

/-- Whether the call carries the adapter that a request waits for. -/
def Call.waits (r : ρ) (a : α) : Call ρ α E → Nat
  | .getDirectProxy adapter request => if request = r ∧ adapter = a then 1 else 0
  | .response request id _ => if request = r ∧ id = a then 1 else 0
  | .exception request id _ => if request = r ∧ id = a then 1 else 0
  | .invoke _ _ => 0
  | .activating _ => 0

namespace LocatorI

/-- How often a request waits for an adapter: in a call, or in the list of pending requests. -/
def tokens (s : LocatorI ρ α E) (calls : Multiset (Call ρ α E)) (r : ρ) (a : α) : Nat :=
  total (Call.waits r a) calls + ((s.pendingRequests a).getD []).count r

/-- The invocations on an adapter, made or about to be made. -/
def handlers (s : LocatorI ρ α E) (calls : Multiset (Call ρ α E)) (a : α) : Nat :=
  total (Call.invokes a) calls + (s.invocations.map Prod.fst).count a

/-- What holds at any time. -/
structure Inv (s : LocatorI ρ α E) (calls : Multiset (Call ρ α E)) : Prop where
  sound : ∀ r q, s.requests r = some q → q.Sound
  tokens : ∀ r q, s.requests r = some q → ∀ a, s.tokens calls r a = if q.Waiting a then 1 else 0
  fresh : ∀ r, s.requests r = none → s.others r = false → ∀ a, s.tokens calls r a = 0
  handlers : ∀ a, s.handlers calls a = if (s.pendingRequests a).isSome then 1 else 0

variable {s : LocatorI ρ α E} {calls : Multiset (Call ρ α E)}

/-- What `Inv` says depends on the tokens and handlers only. -/
theorem Inv.congr {s' : LocatorI ρ α E} {calls' : Multiset (Call ρ α E)} (h : Inv s calls)
    (htokens : ∀ r a, s'.tokens calls' r a = s.tokens calls r a)
    (hhandlers : ∀ a, s'.handlers calls' a = if (s'.pendingRequests a).isSome then 1 else 0)
    (hrequests : s'.requests = s.requests) (hothers : s'.others = s.others) :
    Inv s' calls' where
  sound r q hq := h.sound r q (hrequests ▸ hq)
  tokens r q hq a := by
    rw [htokens]
    exact h.tokens r q (hrequests ▸ hq) a
  fresh r hr hother a := by
    rw [htokens]
    exact h.fresh r (hrequests ▸ hr) (hothers ▸ hother) a
  handlers := hhandlers

/-- The calls for the requests that waited for an adapter. -/
theorem sum_waits_requests {f : ρ → Call ρ α E} {b : α}
    (hf : ∀ x r a, (f x).waits r a = if x = r ∧ b = a then 1 else 0) (requests : List ρ)
    (r : ρ) (a : α) :
    ((requests.map f).map (waits r a)).sum = if a = b then requests.count r else 0 := by
  by_cases hab : a = b
  · subst hab
    rw [if_pos rfl, ← Misc.sum_map_ite, map_map]
    congr 2
    funext x
    simp [hf]
  · rw [if_neg hab, map_map]
    refine sum_map_eq_zero fun x _ => ?_
    simp [hf, Ne.symm hab]

/-- The calls that ask adapters for a request. -/
theorem sum_waits_asked (asked : List α) (request r : ρ) (a : α) :
    ((asked.map (getDirectProxy · request : α → Call ρ α E)).map (waits r a)).sum =
      if request = r then asked.count a else 0 := by
  by_cases hr : request = r
  · rw [if_pos hr, ← Misc.sum_map_ite, map_map]
    congr 2
    funext x
    simp [waits, hr]
  · rw [if_neg hr, map_map]
    refine sum_map_eq_zero fun x _ => ?_
    simp [waits, hr]

variable {adapter : α}

theorem getDirectProxy_inv {request : ρ} (h : Inv s (.getDirectProxy adapter request ::ₘ calls)) :
    Inv (exec (.getDirectProxy adapter request) s).1
      (↑(exec (.getDirectProxy adapter request) s).2 + calls) := by
  have hhandlers := h.handlers
  simp only [handlers, total_cons, invokes, Nat.zero_add] at hhandlers
  rw [exec]
  cases hpending : s.pendingRequests adapter with
  | some requests =>
    refine h.congr (fun r a => ?_) (fun a => ?_) rfl rfl
    · have hnone : ((if s.activating adapter then [.activating request] else [] :
          List (Call ρ α E)).map (waits r a)).sum = 0 := by
        split_ifs <;> rfl
      simp only [tokens, total_add, total_coe, hnone, total_cons, waits]
      by_cases ha : a = adapter
      · subst ha
        by_cases hr : request = r <;> simp [hr, hpending]
        omega
      · simp [ha, Ne.symm ha]
    · have hnone : ((if s.activating adapter then [.activating request] else [] :
          List (Call ρ α E)).map (invokes a)).sum = 0 := by
        split_ifs <;> rfl
      simp only [handlers, total_add, total_coe, hnone, Nat.zero_add, hhandlers]
      by_cases ha : a = adapter
      · subst ha
        simp [hpending]
      · simp [ha]
  | none =>
    refine h.congr (fun r a => ?_) (fun a => ?_) rfl rfl
    · simp only [tokens, total_add, total_coe, total_cons, waits, map_cons, map_nil,
        sum_cons, sum_nil]
      by_cases ha : a = adapter
      · subst ha
        by_cases hr : request = r <;> simp [hr, hpending]
        omega
      · simp [ha, Ne.symm ha]
    · have ha' := hhandlers a
      simp only [handlers, total_add, total_coe, invokes, map_cons, map_nil, sum_cons, sum_nil]
      by_cases ha : a = adapter
      · subst ha
        simp only [hpending, Option.isSome_none, Bool.false_eq_true, if_false] at ha'
        simp
        omega
      · simp only [Ne.symm ha, if_false, Function.update_of_ne ha, ← ha']
        omega

variable {operation : Operation}

theorem invoke_inv (h : Inv s (.invoke adapter operation ::ₘ calls)) :
    Inv (exec (.invoke adapter operation) s).1
      (↑(exec (.invoke adapter operation) s).2 + calls) := by
  refine h.congr (fun r a => ?_) (fun a => ?_) rfl rfl
  · simp [exec, tokens, waits]
  · refine Eq.trans ?_ (h.handlers a)
    simp only [exec, handlers, total_cons, total_add, total_coe, invokes, map_append,
      count_append, map_cons, map_nil, sum_nil, count_singleton]
    by_cases hadapter : adapter = a
    · simp [hadapter]
      omega
    · simp [hadapter]

/-- The state of one request is replaced, and the adapters `asked` are asked for it. -/
theorem setRequest_inv {calls' : Multiset (Call ρ α E)} {request : ρ} {q : ReplicaGroupRequest α E}
    {asked : List α}
    (h : Inv s calls) (hsound : q.Sound)
    (hothers : ∀ r a, r ≠ request → s.tokens calls' r a = s.tokens calls r a)
    (htokens : ∀ a, asked.count a + s.tokens calls' request a = if q.Waiting a then 1 else 0)
    (hhandlers : ∀ a, s.handlers calls' a = if (s.pendingRequests a).isSome then 1 else 0) :
    Inv { s with requests := Function.update s.requests request (some q) }
      (↑(asked.map (.getDirectProxy · request) : List (Call ρ α E)) + calls') := by
  have hasked : ∀ r a,
      s.tokens (↑(asked.map (.getDirectProxy · request) : List (Call ρ α E)) + calls') r a =
      (if request = r then asked.count a else 0) + s.tokens calls' r a := by
    intro r a
    simp only [tokens, total_add, total_coe, sum_waits_asked, Nat.add_assoc]
  have hcases : ∀ r q', Function.update s.requests request (some q) r = some q' →
      r = request ∧ q' = q ∨ r ≠ request ∧ s.requests r = some q' := by
    intro r q' hr
    by_cases hne : r = request
    · rw [hne, Function.update_self] at hr
      cases hr
      exact .inl ⟨hne, rfl⟩
    · rw [Function.update_of_ne hne] at hr
      exact .inr ⟨hne, hr⟩
  refine ⟨fun r q' hr => ?_, fun r q' hr a => ?_, fun r hr hother a => ?_, fun a => ?_⟩
  · rcases hcases r q' hr with ⟨-, rfl⟩ | ⟨-, hr⟩
    · exact hsound
    · exact h.sound r q' hr
  · refine (hasked r a).trans ?_
    rcases hcases r q' hr with ⟨rfl, rfl⟩ | ⟨hne, hr⟩
    · rw [if_pos rfl]
      exact htokens a
    · rw [if_neg (Ne.symm hne), Nat.zero_add, hothers r a hne]
      exact h.tokens r q' hr a
  · have hne : r ≠ request := by
      rintro rfl
      exact absurd ((Function.update_self ..).symm.trans hr) (by simp)
    refine (hasked r a).trans ?_
    rw [if_neg (Ne.symm hne), Nat.zero_add, hothers r a hne]
    exact h.fresh r ((Function.update_of_ne hne ..).symm.trans hr) hother a
  · refine Eq.trans ?_ (hhandlers a)
    simp only [handlers, total_add, total_coe]
    rw [sum_invokes_map fun _ => rfl, Nat.zero_add]

/-- A section of a request is run for a call that carries the adapters `ends`. -/
theorem update_inv {call : Call ρ α E} {request : ρ}
    {f : ReplicaGroupRequest α E → ReplicaGroupRequest α E × List α}
    {ends : List α} (h : Inv s (call ::ₘ calls))
    (hwaits : ∀ r a, call.waits r a = if request = r ∧ a ∈ ends then 1 else 0)
    (hinvokes : ∀ a, call.invokes a = 0)
    (hruns : ∀ q, s.requests request = some q → q.Sound → (∀ a ∈ ends, q.Waiting a) →
      q.Runs (f q).1 (f q).2 ends) :
    Inv (s.update request f).1 (↑(s.update request f).2 + calls) := by
  have hhandlers := h.handlers
  simp only [handlers, total_cons, hinvokes, Nat.zero_add] at hhandlers
  have htokens : ∀ r a, s.tokens (call ::ₘ calls) r a =
      (if request = r ∧ a ∈ ends then 1 else 0) + s.tokens calls r a := by
    intro r a
    simp only [tokens, total_cons, hwaits, Nat.add_assoc]
  unfold update
  cases hq : s.requests request with
  | none =>
    dsimp only
    rw [Multiset.coe_nil, Multiset.zero_add]
    refine ⟨h.sound, fun r q hr a => ?_, fun r hr hother a => ?_, hhandlers⟩
    · have hne : request ≠ r := by
        rintro rfl
        exact absurd (hq.symm.trans hr) (by simp)
      have ha := h.tokens r q hr a
      rwa [htokens, if_neg fun hand => hne hand.1, Nat.zero_add] at ha
    · have ha := h.fresh r hr hother a
      rw [htokens] at ha
      omega
  | some q =>
    have hwaiting : ∀ a ∈ ends, q.Waiting a := by
      intro a ha
      have htoken := h.tokens request q hq a
      rw [htokens, if_pos ⟨rfl, ha⟩] at htoken
      by_contra hnot
      rw [if_neg hnot] at htoken
      omega
    have hrun := hruns q hq (h.sound request q hq) hwaiting
    refine setRequest_inv h hrun.sound (fun r a hne => ?_) (fun a => ?_) hhandlers
    · rw [htokens, if_neg fun hand => hne hand.1.symm, Nat.zero_add]
    · have htoken := h.tokens request q hq a
      rw [htokens] at htoken
      exact hrun.waiting (h.sound request q hq) hwaiting (by simpa using htoken)

/-- `activating` finds that no further adapter is asked for the response. -/
def OnTime (call : Call ρ α E) (s : LocatorI ρ α E) (_ : Multiset (Call ρ α E)) : Prop :=
  match call with
  | .activating r => ∀ q ∈ s.requests r, q.AsksNoMore
  | _ => True

instance (q : ReplicaGroupRequest α E) : Decidable q.AsksNoMore :=
  inferInstanceAs (Decidable (_ ∨ _))

instance (call : Call ρ α E) (s : LocatorI ρ α E) (calls : Multiset (Call ρ α E)) :
    Decidable (OnTime call s calls) :=
  match call with
  | .activating r => inferInstanceAs (Decidable (∀ q ∈ s.requests r, q.AsksNoMore))
  | .getDirectProxy _ _ | .invoke _ _ | .response _ _ _ | .exception _ _ _ => isTrue trivial

theorem exec_inv (s : LocatorI ρ α E) (call : Call ρ α E) (calls : Multiset (Call ρ α E))
    (h : Inv s (call ::ₘ calls)) (hcall : OnTime call s (call ::ₘ calls)) :
    Inv (exec call s).1 (↑(exec call s).2 + calls) := by
  cases call with
  | getDirectProxy adapter request => exact getDirectProxy_inv h
  | invoke adapter operation => exact invoke_inv h
  | activating request =>
    refine @update_inv _ _ _ _ _ _ _ _ _ _ [] h (by simp [waits]) (fun _ => rfl) ?_
    intro q hrequest hq _
    exact activating_runs hq (hcall q hrequest)
  | response request id proxy =>
    refine @update_inv _ _ _ _ _ _ _ _ _ _ [id] h (by simp [waits, eq_comm]) (fun _ => rfl) ?_
    intro q _ hq hwaiting
    exact response_runs hq (hwaiting id mem_cons_self) proxy
  | exception request id ex =>
    refine @update_inv _ _ _ _ _ _ _ _ _ _ [id] h (by simp [waits, eq_comm]) (fun _ => rfl) ?_
    intro q _ hq hwaiting
    exact exception_runs hq (hwaiting id mem_cons_self) ex

theorem count_erase_fst (invocations : List (α × Operation))
    (hmem : (adapter, operation) ∈ invocations) (a : α) :
    ((invocations.erase (adapter, operation)).map Prod.fst).count a +
      (if adapter = a then 1 else 0) =
      (invocations.map Prod.fst).count a := by
  have hperm := (perm_cons_erase hmem).map Prod.fst
  rw [hperm.count_eq a, map_cons, count_cons]
  simp

/-- The requests that waited for an adapter get its outcome. -/
theorem takePending_inv (h : Inv s calls) (hmem : (adapter, operation) ∈ s.invocations)
    {f : ρ → Call ρ α E} (hwaits : ∀ x r a, (f x).waits r a = if x = r ∧ adapter = a then 1 else 0)
    (hinvokes : ∀ x a, (f x).invokes a = 0) :
    Inv (takePending adapter { s with invocations := s.invocations.erase (adapter, operation) })
      (↑(((s.pendingRequests adapter).getD []).map f : List (Call ρ α E)) + calls) := by
  refine h.congr (fun r a => ?_) (fun a => ?_) rfl rfl
  · simp only [tokens, takePending, total_add, total_coe, sum_waits_requests hwaits]
    by_cases ha : a = adapter
    · subst ha
      simp [Nat.add_comm]
    · simp [ha]
  · have ha' := h.handlers a
    have hcount := count_erase_fst s.invocations hmem a
    simp only [handlers, takePending, total_add, total_coe, sum_invokes_map fun x => hinvokes x a,
      Nat.zero_add] at ha' ⊢
    by_cases ha : a = adapter
    · subst ha
      have hle : (if (s.pendingRequests a).isSome then 1 else 0) ≤ 1 := by split_ifs <;> omega
      simp only [if_true, Function.update_self, Option.isSome_none, Bool.false_eq_true, if_false]
        at hcount ⊢
      omega
    · rw [if_neg (Ne.symm ha)] at hcount
      simp only [Function.update_of_ne ha, ← ha', ← hcount, Nat.add_zero]

/-- The invocation that activates the server follows. -/
theorem activate_inv (h : Inv s calls) (hmem : (adapter, operation) ∈ s.invocations)
    (requests : List ρ) :
    Inv { s with
        invocations := s.invocations.erase (adapter, operation)
        activating := Function.update s.activating adapter true }
      ((requests.map .activating ++ [.invoke adapter .activate] : List (Call ρ α E)) + calls :
        Multiset (Call ρ α E)) := by
  refine h.congr (fun r a => ?_) (fun a => ?_) rfl rfl
  · have hnone : ((requests.map Call.activating : List (Call ρ α E)).map (Call.waits r a)).sum =
        0 := by
      rw [map_map]
      exact sum_map_eq_zero fun _ _ => rfl
    simp only [tokens, total_add, total_coe, map_append, sum_append, hnone,
      map_cons, map_nil, sum_cons, sum_nil, Call.waits, Nat.zero_add]
  · refine Eq.trans ?_ (h.handlers a)
    have hcount := count_erase_fst s.invocations hmem a
    have hnone :
        ((requests.map Call.activating : List (Call ρ α E)).map (Call.invokes a)).sum = 0 :=
      sum_invokes_map (fun _ => rfl) requests
    simp only [handlers, total_add, total_coe, map_append, sum_append, hnone,
      map_cons, map_nil, sum_cons, sum_nil, Call.invokes]
    omega

theorem spawn_inv (s : LocatorI ρ α E) (e : Event ρ α E) (s' : LocatorI ρ α E)
    (new : List (Call ρ α E))
    (calls : Multiset (Call ρ α E)) (h : Inv s calls) (hspawn : spawn e s = some (s', new)) :
    Inv s' (↑new + calls) := by
  cases e with
  | findAdapterById request encoding adapters count =>
    rw [spawn] at hspawn
    split_ifs at hspawn with hcond
    obtain ⟨hrequest, hother, hnodup, hcount⟩ := hcond
    have hnew := execute_new encoding hnodup hcount (E := E)
    generalize (ReplicaGroupRequest.new encoding adapters count : ReplicaGroupRequest α E).execute =
      result at hspawn hnew
    obtain ⟨q, asked⟩ := result
    cases hspawn
    dsimp only at hnew
    obtain ⟨hsound, rfl, hended⟩ := hnew
    have hfresh := h.fresh request (Option.isNone_iff_eq_none.mp hrequest) hother
    refine setRequest_inv h hsound (fun r a hne => rfl) (fun a => ?_) h.handlers
    have hwaiting : q.Waiting a ↔ a ∈ q.asked := by
      unfold ReplicaGroupRequest.Waiting
      rw [hended]
      simp
    rw [hfresh, Nat.add_zero]
    by_cases hmem : a ∈ q.asked
    · rw [if_pos (hwaiting.mpr hmem), count_eq_one_of_mem hsound.asked_nodup hmem]
    · rw [if_neg fun hw => hmem (hwaiting.mp hw), count_eq_zero_of_not_mem hmem]
  | other request adapter =>
    rw [spawn] at hspawn
    split_ifs at hspawn with hrequest
    cases hspawn
    have hnone := Option.isNone_iff_eq_none.mp hrequest
    have htokens : ∀ r a, request ≠ r → tokens
        { s with others := Function.update s.others request true }
        (↑([.getDirectProxy adapter request] : List (Call ρ α E)) + calls) r a =
        s.tokens calls r a := by
      intro r a hne
      simp [tokens, waits, hne]
    refine ⟨h.sound, fun r q hr a => ?_, fun r hr hother a => ?_, fun a => ?_⟩
    · have hne : request ≠ r := by
        rintro rfl
        exact absurd (hnone.symm.trans hr) (by simp)
      rw [htokens r a hne]
      exact h.tokens r q hr a
    · have hne : request ≠ r := by
        rintro rfl
        simp at hother
      rw [htokens r a hne]
      exact h.fresh r hr ((Function.update_of_ne (Ne.symm hne) ..).symm.trans hother) a
    · refine Eq.trans ?_ (h.handlers a)
      simp [handlers, invokes]
  | reply adapter operation reply =>
    rw [spawn] at hspawn
    split_ifs at hspawn with hcond
    obtain ⟨hmem, -⟩ := hcond
    cases reply with
    | response proxy =>
      cases hspawn
      cases proxy with
      | some | none => exact takePending_inv h hmem (fun _ _ _ => rfl) fun _ _ => rfl
    | exception ex =>
      dsimp only [getDirectProxyException] at hspawn
      split_ifs at hspawn
      · cases hspawn
        exact activate_inv h hmem _
      · cases hspawn
        exact takePending_inv h hmem (fun _ _ _ => rfl) fun _ _ => rfl

/-- The threads of a locator at its start. -/
def start : Threads (LocatorI ρ α E) (Call ρ α E) := ⟨{}, []⟩

theorem start_inv : Inv (start : Threads (LocatorI ρ α E) (Call ρ α E)).state start.calls := by
  refine ⟨?_, ?_, ?_, ?_⟩
  · rintro r q ⟨⟩
  · rintro r q ⟨⟩
  · intro r _ _ a
    rfl
  · intro a
    rfl

/-- When nothing is under way any more, every request has been answered. -/
theorem Inv.sent_of_idle (h : Inv s 0) (hinvocations : s.invocations = []) {r : ρ}
    {q : ReplicaGroupRequest α E} (hq : s.requests r = some q) : q.sent.length = 1 := by
  have hpending : ∀ a, s.pendingRequests a = none := by
    intro a
    have ha := h.handlers a
    simp only [LocatorI.handlers, hinvocations, total_zero, map_nil, count_nil] at ha
    cases hpending : s.pendingRequests a with
    | none => rfl
    | some requests => simp [hpending] at ha
  have hsound := h.sound r q hq
  have hended : ∀ a ∈ q.asked, a ∈ q.ended := by
    intro a ha
    have htoken := h.tokens r q hq a
    simp only [LocatorI.tokens, hpending, total_zero, Option.getD_none, count_nil] at htoken
    by_contra hnot
    rw [if_pos ⟨ha, hnot⟩] at htoken
    omega
  by_cases hsent : q.sent = []
  · -- all adapters that were asked are accounted for, so that no proxy is expected any more
    exfalso
    obtain ⟨hlt, hanswered, haccounted⟩ := hsound.open_ hsent
    have hle := (hsound.asked_nodup.subperm hended).length_le
    unfold ReplicaGroupRequest.Accounted at haccounted
    simp only [ended, length_append, length_map] at hle
    omega
  · exact (hsound.closed hsent).1

end LocatorI

end

/-- Of two adapters that are both asked, the server of one is being activated and the other one
    fails. -/
def activatedRun : List (Choice (Event Nat String String)) :=
  [.event (.findAdapterById 0 ⟨1, 1⟩ ["A", "B"] 2), .thread 0, .thread 0, .thread 0, .thread 0,
    .event (.reply "A" .getDirectProxy (.exception (.adapterNotActive true))), .thread 1, .thread 1,
    .event (.reply "B" .getDirectProxy (.exception .other)), .thread 2,
    .event (.reply "A" .activate (.response (some ⟨⟨1, 1⟩, ["tcp"]⟩))), .thread 3]

end Ice.IceGrid
