import Ice.Connection.Outstanding

/-!
# Matching replies with requests

Request IDs come from a 32-bit counter. As long as `sendAsyncRequest` is not called while the ID
that the counter gives, or the invocation, is still in use, every accepted request stays registered
until it is completed, and a reply is delivered to the request whose message carried its ID.
-/

namespace Ice.Connection

open List ConnectionI

open Ice.WebSocket (Buffer SocketOperation)

variable {ρ : Type}

/-! ## Request IDs -/

/-- The ID of the request that is accepted behind `k` others: IDs wrap from `INT32_MAX` to 1. -/
def requestIdAt (k : Nat) : Int := (k % (2 ^ 31 - 1) : Nat) + 1

theorem allocateId_next (n : Int) : (allocateId (allocateId n).2).1 =
      if (allocateId n).1 = 2 ^ 31 - 1 then 1 else (allocateId n).1 + 1 := by
  unfold allocateId increment
  split
  · norm_num
  · split
    · simp
    · rw [if_neg (by omega)]

theorem requestIdAt_succ (k : Nat) : requestIdAt (k + 1) =
      if requestIdAt k = 2 ^ 31 - 1 then 1 else requestIdAt k + 1 := by
  unfold requestIdAt
  split <;> omega

theorem requestIdAt_pos (k : Nat) : 0 < requestIdAt k ∧ requestIdAt k < 2 ^ 31 := by
  unfold requestIdAt
  omega

variable [DecidableEq ρ] {s s' : ConnectionI ρ} {e : Event ρ}

/-- The accepted requests have the IDs of the counter. -/
structure IdsInOrder (s : ConnectionI ρ) : Prop where
  exception : .closing ≤ s.state → s.exception.isSome
  ids : s.accepted.map (·.2) = (List.range s.accepted.length).map requestIdAt
  next : s.state < .closing → (allocateId s.nextRequestId).1 = requestIdAt s.accepted.length

/-- No request is accepted from `s` to `s'`. -/
structure Unaccepted (s s' : ConnectionI ρ) : Prop where
  accepted : s'.accepted = s.accepted
  exception : (.closing ≤ s.state → s.exception.isSome) → .closing ≤ s'.state → s'.exception.isSome
  next : s'.state < .closing → s.state < .closing ∧ s'.nextRequestId = s.nextRequestId

omit [DecidableEq ρ] in
theorem Proceeds.unaccepted (h : Proceeds s s') : Unaccepted s s' := by
  refine ⟨h.accepted, h.exception, fun hstate => ⟨?_, h.nextRequestId⟩⟩
  by_contra hge
  exact absurd (h.state .closing le_rfl (not_lt.mp hge)) (not_le_of_gt hstate)

omit [DecidableEq ρ] in
/-- What comes before does not matter if it concerns other data. -/
theorem Unaccepted.after {s1 : ConnectionI ρ} (h : Unaccepted s1 s')
    (heq : (s1.accepted, s1.exception, s1.state, s1.nextRequestId) =
      (s.accepted, s.exception, s.state, s.nextRequestId)) : Unaccepted s s' := by
  simp only [Prod.mk.injEq] at heq
  obtain ⟨haccepted, hexception, hstate, hnext⟩ := heq
  refine ⟨h.accepted.trans haccepted, ?_, ?_⟩
  · rw [← hstate, ← hexception]
    exact h.exception
  · rw [← hstate, ← hnext]
    exact h.next

theorem forgetQueued_unaccepted (out : ρ) (requestId : Int) :
    Unaccepted s (forgetQueued out requestId s) := by
  unfold forgetQueued
  split <;> exact ⟨rfl, id, fun h => ⟨h, rfl⟩⟩

omit [DecidableEq ρ] in
theorem Unaccepted.trans {s'' : ConnectionI ρ} (h : Unaccepted s s') (h' : Unaccepted s' s'') :
    Unaccepted s s'' := by
  refine ⟨h'.accepted.trans h.accepted, fun hs => h'.exception (h.exception hs), fun hstate => ?_⟩
  obtain ⟨hstate', hnext'⟩ := h'.next hstate
  obtain ⟨hstate'', hnext⟩ := h.next hstate'
  exact ⟨hstate'', hnext'.trans hnext⟩

theorem Change.unaccepted [Bzip2] (h : Change e s s') :
    Unaccepted s s' ∨ ∃ r, e = .sendAsyncRequest r ∧ Accepted r s s' := by
  cases h with
  | proceeds h => exact .inl h.unaccepted
  | closeRequested _ _ h | canceledHinted _ _ _ h => exact .inl (h.unaccepted.after rfl)
  | accepted h => exact .inr ⟨_, rfl, h⟩
  | rejected h hclosed =>
    refine .inl ⟨h.accepted, h.exception, fun hstate => ?_⟩
    exact absurd (lt_of_le_of_lt hclosed hstate) (by decide)
  | replied h =>
    obtain ⟨s1, h1, result, _, h2, _⟩ := h.delivered
    exact .inl (h1.unaccepted.trans (h2.unaccepted.after rfl))
  | canceledQueued _ _ _ h =>
    exact .inl ((forgetQueued_unaccepted _ _).trans (h.unaccepted.after rfl))
  | abortedQueued _ _ _ h => exact .inl ((forgetQueued_unaccepted _ _).trans h.unaccepted)
  | canceledFound => exact .inl ⟨rfl, id, fun h => ⟨h, rfl⟩⟩
  | finished hstate =>
    refine .inl ⟨rfl, fun h _ => h (hstate ▸ by decide), fun h => ?_⟩
    exact absurd h (show ¬ State.finished < .closing by decide)

variable {r : OutgoingRequest ρ}

omit [DecidableEq ρ] in
theorem Accepted.not_closing (h : Accepted r s s') (hids : IdsInOrder s) : s.state < .closing := by
  by_contra hge
  have hsome := hids.exception (not_lt.mp hge)
  rw [h.exception] at hsome
  cases hsome

theorem Change.idsInOrder [Bzip2] (hchange : Change e s s') (h : IdsInOrder s) : IdsInOrder s' := by
  rcases hchange.unaccepted with hu | ⟨r, -, ha⟩
  · refine ⟨hu.exception h.exception, hu.accepted ▸ h.ids, fun hstate => ?_⟩
    obtain ⟨hstate', hnext⟩ := hu.next hstate
    rw [hnext, hu.accepted]
    exact h.next hstate'
  · have hopen := ha.not_closing h
    have hnext := h.next hopen
    refine ⟨by rw [ha.state, ha.exception']; exact h.exception, ?_, fun _ => ?_⟩
    · rw [ha.accepted]
      split
      · next hresponse =>
        simp [h.ids, OutgoingRequest.ids, hresponse, hnext, range_succ]
      · exact h.ids
    · rw [ha.nextRequestId, ha.accepted]
      cases hresponse : r.response with
      | true => simp [OutgoingRequest.ids, hresponse, allocateId_next, hnext, requestIdAt_succ]
      | false => simpa [OutgoingRequest.ids, hresponse] using hnext

/-! ## Registration -/

section Calls

omit [DecidableEq ρ]

/-- The invocation that a call completes, with the ID of the request. -/
def Call.completes : Call ρ → Option (ρ × Int)
  | .sent _ => none
  | .response out requestId _ => some (out, requestId)
  | .exception out requestId _ => some (out, requestId)

/-- The invocation that a call gives a reply to, with the ID of the reply. -/
def Call.replies : Call ρ → Option (ρ × Int)
  | .response out requestId _ => some (out, requestId)
  | _ => none

/-- The requests that were completed, by a reply or by an exception. -/
def ConnectionI.completions (s : ConnectionI ρ) : List (ρ × Int) := s.calls.filterMap Call.completes

/-- The requests that were given a reply. -/
def ConnectionI.responses (s : ConnectionI ρ) : List (ρ × Int) := s.calls.filterMap Call.replies

theorem completions_exception (out : ρ) (requestId : Int) (ex : LocalException) :
    (s.call (.exception out requestId ex)).completions = s.completions ++ [(out, requestId)] := by
  simp [completions, call, Call.completes]

theorem responses_exception (out : ρ) (requestId : Int) (ex : LocalException) :
    (s.call (.exception out requestId ex)).responses = s.responses := by
  simp [responses, call, Call.replies]

theorem Proceeds.completions (h : Proceeds s s') : s'.completions = s.completions := by
  obtain ⟨l, hl⟩ := h.calls
  simp [ConnectionI.completions, hl, Call.completes]

theorem Proceeds.responses (h : Proceeds s s') : s'.responses = s.responses := by
  obtain ⟨l, hl⟩ := h.calls
  simp [ConnectionI.responses, hl, Call.replies]

theorem Accepted.calls_eq (h : Accepted r s s') :
    s'.completions = s.completions ∧ s'.responses = s.responses := by
  rcases h.queue with ⟨-, hcalls⟩ | ⟨-, hcalls⟩
  · simp [completions, responses, hcalls]
  · simp [completions, responses, hcalls, Call.completes, Call.replies]

variable {m : OutgoingMessage ρ}

theorem Accepted.mem_queue (h : Accepted r s s')
    (hm : m ∈ s'.sendStreams) : m ∈ s.sendStreams ∨ m = r.outgoing (r.ids s).1 := by
  rcases h.queue with ⟨hqueue, -⟩ | ⟨hqueue, -⟩
  · rw [hqueue, mem_append, mem_singleton] at hm
    exact hm
  · rw [hqueue] at hm
    exact .inl hm

end Calls

/-- The map holds the requests under the IDs that stand in their messages. -/
structure Registered (s : ConnectionI ρ) : Prop where
  ordered : Ordered s.asyncRequests
  positive : ∀ e ∈ s.asyncRequests, 0 < e.1 ∧ e.1 < 2 ^ 31
  hint : ∀ requestId, s.asyncRequestsHint = some requestId →
    s.state = .finished ∨ ∃ e ∈ s.asyncRequests, e.1 = requestId
  /-- the ID and the invocation of a queued request belong to no other request -/
  queued : ∀ m ∈ s.sendStreams, ∀ out, m.outAsync = some out → m.requestId ≠ 0 →
    ∀ e ∈ s.asyncRequests, e.1 = m.requestId ↔ e.2 = out
  /-- each reply was delivered to a request that was registered with its ID -/
  delivered : ∀ out requestId, s.responses.count (out, requestId) +
    s.asyncRequests.count (requestId, out) ≤ s.accepted.count (out, requestId)

/-- A request that was accepted is registered or was completed. -/
def Kept (s : ConnectionI ρ) : Prop :=
  ∀ out requestId, s.accepted.count (out, requestId) ≤
    s.asyncRequests.count (requestId, out) + s.completions.count (out, requestId)

omit [DecidableEq ρ] in
theorem Proceeds.stays_finished (h : Proceeds s s') (hs : s.state = .finished) :
    s'.state = .finished := by
  have hle := h.state .finished (by decide) hs.ge
  revert hle
  cases s'.state <;> decide

theorem Registered.proceeds (h : Registered s) (hp : Proceeds s s') : Registered s' := by
  refine ⟨hp.asyncRequests ▸ h.ordered, hp.asyncRequests ▸ h.positive, ?_, ?_, ?_⟩
  · intro id hsome
    rw [hp.hint] at hsome
    rw [hp.asyncRequests]
    exact (h.hint id hsome).imp_left hp.stays_finished
  · intro m hm out hout hid
    rcases hp.queue.mem hm with hm | ⟨hnone, -⟩
    · rw [hp.asyncRequests]
      exact h.queued m hm out hout hid
    · rw [hnone] at hout
      cases hout
  · rw [hp.responses, hp.asyncRequests, hp.accepted]
    exact h.delivered

theorem Kept.proceeds (h : Kept s) (hp : Proceeds s s') : Kept s' := by
  intro out requestId
  rw [hp.accepted, hp.asyncRequests, hp.completions]
  exact h out requestId

/-! ### The hint -/

section Hint

variable {requestId : Int}

omit [DecidableEq ρ] in
theorem mem_of_findRequest {e : Int × ρ} (h : findRequest requestId s.asyncRequests = some e) :
    e ∈ s.asyncRequests ∧ e.1 = requestId :=
  ⟨mem_of_find?_eq_some h, by simpa using find?_some h⟩

omit [DecidableEq ρ] in
theorem mem_of_findReply {e : Int × ρ} (h : s.findReply requestId = some e) :
    e ∈ s.asyncRequests ∧ e.1 = requestId := by
  unfold findReply at h
  split at h
  · next d hd =>
    cases h
    obtain ⟨hhinted, hkey⟩ := Option.filter_eq_some_iff.mp hd
    obtain ⟨id, -, hfind⟩ := Option.bind_eq_some_iff.mp hhinted
    exact ⟨(mem_of_findRequest hfind).1, of_decide_eq_true hkey⟩
  · exact mem_of_findRequest h

variable {out : ρ}

theorem mem_of_hintFor (h : s.hintFor out = some requestId) :
    (requestId, out) ∈ s.asyncRequests := by
  obtain ⟨⟨id, o⟩, hfilter, rfl⟩ := Option.map_eq_some_iff.mp h
  obtain ⟨hhinted, hout⟩ := Option.filter_eq_some_iff.mp hfilter
  obtain ⟨id', -, hfind⟩ := Option.bind_eq_some_iff.mp hhinted
  have hout : o = out := of_decide_eq_true hout
  rw [← hout]
  exact (mem_of_findRequest hfind).1

/-- The hint points at the request with the given ID, and that is the given invocation. -/
theorem hintFor_of_hint (h : Ordered s.asyncRequests)
    (hhint : s.asyncRequestsHint = some requestId) (hmem : (requestId, out) ∈ s.asyncRequests) :
    s.hintFor out = some requestId := by
  have hfind : findRequest requestId s.asyncRequests = some (requestId, out) := by
    cases hf : findRequest requestId s.asyncRequests with
    | none =>
      have hnone := find?_eq_none.mp hf _ hmem
      simp at hnone
    | some e =>
      obtain ⟨he, hkey⟩ := mem_of_findRequest hf
      rw [h.eq_of_key he hmem hkey]
  simp [hintFor, hinted, hhint, hfind]

end Hint

/-! ### Removal -/

section Removal

theorem count_eraseRequest_self (e : Int × ρ) (es : List (Int × ρ)) :
    (eraseRequest e.1 es).count e = 0 :=
  count_eq_zero.mpr fun h => (mem_eraseRequest.mp h).2 rfl

theorem count_eraseRequest_le (e : Int × ρ) (requestId : Int) (es : List (Int × ρ)) :
    (eraseRequest requestId es).count e ≤ es.count e :=
  eraseRequest_sublist.count_le e

/-- A request was removed from the map, with a reply or without. -/
theorem Registered.erase {t : ConnectionI ρ} (h : Registered s)
    (hmap : t.asyncRequests = eraseRequest requestId s.asyncRequests)
    (haccepted : t.accepted = s.accepted) (hhint : ∀ id, t.asyncRequestsHint = some id →
      t.state = .finished ∨ ∃ e ∈ t.asyncRequests, e.1 = id)
    (hqueue : ∀ m ∈ t.sendStreams, m.outAsync = none ∨ m ∈ s.sendStreams)
    (hresponses : t.responses = s.responses ∨ ∃ out, (requestId, out) ∈ s.asyncRequests ∧
      t.responses = s.responses ++ [(out, requestId)]) : Registered t := by
  have hsub : t.asyncRequests.Sublist s.asyncRequests := hmap ▸ eraseRequest_sublist
  refine ⟨h.ordered.sublist hsub, fun e he => h.positive e (hsub.mem he), hhint, ?_, ?_⟩
  · intro m hm out hout hid e he
    rcases hqueue m hm with hnone | hm
    · rw [hnone] at hout
      cases hout
    · exact h.queued m hm out hout hid e (hsub.mem he)
  · intro out id
    have hold := h.delivered out id
    have hle := count_eraseRequest_le (id, out) requestId s.asyncRequests
    rw [hmap, haccepted]
    rcases hresponses with hresponses | ⟨out', hmem, hresponses⟩
    · rw [hresponses]
      omega
    · rw [hresponses, count_append]
      by_cases heq : (out, id) = (out', requestId)
      · obtain ⟨rfl, rfl⟩ := Prod.mk.inj heq
        have hzero : (eraseRequest id s.asyncRequests).count (id, out) = 0 :=
          count_eraseRequest_self (id, out) s.asyncRequests
        have hpos := count_pos_iff.mpr hmem
        simp only [count_singleton_self]
        omega
      · rw [count_singleton, if_neg (by simpa using Ne.symm heq)]
        omega

/-- The request that was removed from the map was completed. -/
theorem Kept.complete {t : ConnectionI ρ} (h : Kept s) (hordered : Ordered s.asyncRequests)
    (honly : ∀ e ∈ s.asyncRequests, e.1 = requestId → e.2 = out)
    (hmap : t.asyncRequests = eraseRequest requestId s.asyncRequests)
    (haccepted : t.accepted = s.accepted)
    (hcompletions : t.completions = s.completions ++ [(out, requestId)]) : Kept t := by
  intro out' id
  have hold := h out' id
  rw [hmap, haccepted, hcompletions, count_append]
  by_cases heq : id = requestId
  · subst heq
    by_cases hout : out' = out
    · subst hout
      have hone := nodup_iff_count_le_one.mp hordered.nodup (id, out')
      rw [count_singleton_self]
      omega
    · have hzero : s.asyncRequests.count (id, out') = 0 :=
        count_eq_zero.mpr fun hmem => hout (honly _ hmem rfl)
      omega
  · rw [eraseRequest, count_filter (by simpa using heq)]
    omega

end Removal

/-! ### What an event does -/

/-- The removal of a queued request from the map takes the element with its ID. -/
theorem forgetQueued_eq (h : Registered s)
    (hstate : s.state < .closed) (hm : m ∈ s.sendStreams) (hout : m.outAsync = some out)
    (hid : m.requestId ≠ 0) :
    (forgetQueued out m.requestId s).asyncRequests = eraseRequest m.requestId s.asyncRequests ∧
      ∀ id, (forgetQueued out m.requestId s).asyncRequestsHint = some id →
        s.asyncRequestsHint = some id ∧ id ≠ m.requestId := by
  unfold forgetQueued
  rw [if_neg hid]
  cases hhint : s.hintFor out with
  | some k =>
    have hk : k = m.requestId := (h.queued m hm out hout hid _ (mem_of_hintFor hhint)).mpr rfl
    exact ⟨by rw [hk]; rfl, nofun⟩
  | none =>
    refine ⟨rfl, fun id hsome => ⟨hsome, ?_⟩⟩
    rintro rfl
    obtain ⟨⟨k, o⟩, he, rfl⟩ := (h.hint _ hsome).resolve_left
      (ne_of_lt (lt_trans hstate (by decide)))
    have ho : o = out := (h.queued m hm out hout hid _ he).mp rfl
    rw [hintFor_of_hint h.ordered hsome (ho ▸ he)] at hhint
    cases hhint

omit [DecidableEq ρ] in
theorem mem_unqueue {i : Nat} (h : m ∈ (unqueue i s).sendStreams) :
    m.outAsync = none ∨ m ∈ s.sendStreams := by
  simp only [unqueue] at h
  split at h
  · cases hqueue : s.sendStreams with
    | nil =>
      rw [hqueue] at h
      exact .inr h
    | cons front rest =>
      rw [hqueue, modify_zero_cons] at h
      rcases mem_cons.mp h with rfl | h
      · exact .inl rfl
      · exact .inr (mem_cons_of_mem _ h)
  · exact .inr (mem_of_mem_eraseIdx h)

/-- `sendAsyncRequest` is called for a request whose ID and whose invocation are not in use: no
    registered request and no message in the send queue has the one or the other. -/
def FreshRequest (s : ConnectionI ρ) : Event ρ → Prop
  | .sendAsyncRequest r => r.response = true →
    (∀ e ∈ s.asyncRequests, e.1 ≠ (r.ids s).1 ∧ e.2 ≠ r.out) ∧
      ∀ m ∈ s.sendStreams, m.requestId ≠ (r.ids s).1 ∧ m.outAsync ≠ some r.out
  | _ => True

theorem Accepted.registered (ha : Accepted r s s') (h : Registered s)
    (hids : IdsInOrder s) (hfresh : FreshRequest s (.sendAsyncRequest r)) : Registered s' := by
  obtain ⟨hcompletions, hresponses⟩ := ha.calls_eq
  have hmap := ha.asyncRequests
  have hhint := ha.hint
  have haccepted := ha.accepted
  cases hresponse : r.response with
  | false =>
    simp only [hresponse, Bool.false_eq_true, if_false] at hmap hhint haccepted
    refine ⟨hmap ▸ h.ordered, hmap ▸ h.positive, ?_, ?_, ?_⟩
    · rw [hmap, hhint, ha.state]
      exact h.hint
    · intro m hm out hout hid
      rcases ha.mem_queue hm with hm | rfl
      · rw [hmap]
        exact h.queued m hm out hout hid
      · simp [OutgoingRequest.outgoing, OutgoingRequest.ids, hresponse] at hid
    · rw [hmap, haccepted, hresponses]
      exact h.delivered
  | true =>
    obtain ⟨hmapFresh, hqueueFresh⟩ := hfresh hresponse
    simp only [hresponse, if_true] at hmap hhint haccepted
    have hid : (r.ids s).1 = requestIdAt s.accepted.length := by
      simp [OutgoingRequest.ids, hresponse, hids.next (ha.not_closing hids)]
    have hperm := insertRequest_perm r.out fun e he => (hmapFresh e he).1
    have hmem : ∀ e, e ∈ s'.asyncRequests ↔ e = ((r.ids s).1, r.out) ∨ e ∈ s.asyncRequests := by
      intro e
      rw [hmap, hperm.mem_iff, mem_cons]
    refine ⟨hmap ▸ h.ordered.insertRequest, ?_, ?_, ?_, ?_⟩
    · intro e he
      rcases (hmem e).mp he with rfl | he
      · simp only [hid]
        exact requestIdAt_pos _
      · exact h.positive e he
    · intro id hsome
      rw [hhint] at hsome
      exact .inr ⟨_, (hmem _).mpr (.inl rfl), Option.some.inj hsome⟩
    · intro m hm out hout hne e he
      rcases ha.mem_queue hm with hm | rfl
      · rcases (hmem e).mp he with rfl | he
        · have hfreshm := hqueueFresh m hm
          rw [hout] at hfreshm
          simp only [ne_eq, Option.some.injEq] at hfreshm
          exact ⟨fun heq => absurd heq.symm hfreshm.1, fun heq => absurd heq.symm hfreshm.2⟩
        · exact h.queued m hm out hout hne e he
      · have hout : r.out = out := Option.some.inj hout
        subst hout
        rcases (hmem e).mp he with rfl | he
        · exact ⟨fun _ => rfl, fun _ => rfl⟩
        · exact ⟨fun heq => absurd heq (hmapFresh e he).1, fun heq => absurd heq (hmapFresh e he).2⟩
    · intro out id
      have hold := h.delivered out id
      rw [hmap, hperm.count_eq, haccepted, hresponses]
      simp only [count_append, count_cons, count_nil, beq_iff_eq, Prod.mk.injEq]
      split <;> split <;> first | omega | tauto

theorem Accepted.kept (ha : Accepted r s s') (h : Kept s)
    (hfresh : FreshRequest s (.sendAsyncRequest r)) : Kept s' := by
  intro out id
  have hold := h out id
  rw [ha.accepted, ha.asyncRequests, ha.calls_eq.1]
  split
  · next hresponse =>
    have hperm := insertRequest_perm r.out fun e he => ((hfresh hresponse).1 e he).1
    rw [hperm.count_eq]
    simp only [count_append, count_cons, count_nil, beq_iff_eq, Prod.mk.injEq]
    split <;> split <;> first | omega | tauto
  · exact hold

theorem Registered.forgetQueued (h : Registered s)
    (hstate : s.state < .closed) (hm : m ∈ s.sendStreams) (hout : m.outAsync = some out) :
    Registered (forgetQueued out m.requestId s) := by
  by_cases hid : m.requestId = 0
  · simpa [Connection.forgetQueued, hid] using h
  · obtain ⟨hmap, hhint⟩ := forgetQueued_eq h hstate hm hout hid
    have hrest : (Connection.forgetQueued out m.requestId s).accepted = s.accepted ∧
        (Connection.forgetQueued out m.requestId s).sendStreams = s.sendStreams ∧
        (Connection.forgetQueued out m.requestId s).responses = s.responses := by
      simp [Connection.forgetQueued, hid, responses]
    refine h.erase hmap hrest.1 (fun id hsome => ?_) (fun m' hm' => .inr (hrest.2.1 ▸ hm'))
      (.inl hrest.2.2)
    obtain ⟨hsome, hne⟩ := hhint id hsome
    obtain ⟨e, he, rfl⟩ := (h.hint id hsome).resolve_left (ne_of_lt (lt_trans hstate (by decide)))
    exact .inr ⟨e, hmap ▸ mem_eraseRequest.mpr ⟨he, hne⟩, rfl⟩

/-- The queue has lost a message, and an invocation was given an exception. -/
theorem Registered.exception (h : Registered s) (i : Nat) (out : ρ) (requestId : Int)
    (ex : LocalException) : Registered ((unqueue i s).call (.exception out requestId ex)) := by
  refine ⟨h.ordered, h.positive, h.hint, ?_, ?_⟩
  · intro m hm out hout hid
    rcases mem_unqueue hm with hnone | hm
    · rw [hnone] at hout
      cases hout
    · exact h.queued m hm out hout hid
  · have hresponses : ((unqueue i s).call (.exception out requestId ex)).responses =
        s.responses := by
      simp [responses, call, unqueue, Call.replies]
    rw [hresponses]
    exact h.delivered

omit [DecidableEq ρ] in
theorem mem_of_nextRequest {requestId id : Int} {es : List (Int × ρ)}
    (h : nextRequest requestId es = some id) : ∃ e ∈ es, e.1 = id ∧ e.1 ≠ requestId := by
  obtain ⟨e, he, rfl⟩ := Option.map_eq_some_iff.mp h
  have hlt : requestId < e.1 := by simpa using find?_some he
  exact ⟨e, mem_of_find?_eq_some he, rfl, ne_of_gt hlt⟩

theorem Registered.deliver (h : Registered s) (answers : Answers ρ)
    {e : Int × ρ} (hfind : s.findReply requestId = some e) (result : List UInt8) :
    Registered (deliver answers requestId e result s) := by
  obtain ⟨he, rfl⟩ := mem_of_findReply hfind
  refine h.erase rfl rfl (fun id hsome => ?_) (fun _ hm => .inr hm) (.inr ⟨e.2, he, ?_⟩)
  · have hsome : (if s.asyncRequestsHint = some e.1 then nextRequest e.1 s.asyncRequests
        else s.asyncRequestsHint) = some id := hsome
    split at hsome
    · obtain ⟨d, hd, hkey, hne⟩ := mem_of_nextRequest hsome
      exact .inr ⟨d, mem_eraseRequest.mpr ⟨hd, hne⟩, hkey⟩
    · next hhint =>
      rcases h.hint id hsome with hfinished | ⟨d, hd, rfl⟩
      · exact .inl hfinished
      · refine .inr ⟨d, mem_eraseRequest.mpr ⟨hd, fun heq => hhint ?_⟩, rfl⟩
        rw [hsome, heq]
  · simp [responses, Connection.deliver, Call.replies]

/-- A request that was found without the send queue is removed from the map. -/
theorem Registered.forgetFound (h : Registered s)
    (hlocate : locate out s = .found requestId) (ex : LocalException) :
    Registered (forgetFound requestId (s.call (.exception out requestId ex))) := by
  obtain ⟨-, hnone, hmem⟩ := locate_found hlocate
  refine h.erase rfl rfl (fun id hsome => ?_) (fun _ hm => .inr hm)
    (.inl (responses_exception _ _ _))
  rcases h.hint id hsome with hfinished | ⟨e, he, rfl⟩
  · exact .inl hfinished
  · refine .inr ⟨e, mem_eraseRequest.mpr ⟨he, fun heq => ?_⟩, rfl⟩
    have hsome : s.asyncRequestsHint = some requestId := heq ▸ hsome
    rw [hintFor_of_hint h.ordered hsome hmem] at hnone
    cases hnone

theorem Change.registered [Bzip2] (hchange : Change e s s') (hfresh : FreshRequest s e)
    (hids : IdsInOrder s) (h : Registered s) : Registered s' := by
  cases hchange with
  | proceeds hp => exact h.proceeds hp
  | accepted ha => exact ha.registered h hids hfresh
  | closeRequested _ _ hp | rejected hp _ =>
    refine Registered.proceeds ?_ hp
    exact { h with }
  | replied hr =>
    obtain ⟨s1, h1, result, hfind, h2, _⟩ := hr.delivered
    exact ((h.proceeds h1).deliver _ hfind result).proceeds h2
  | canceledQueued hstate hm hout hp _ =>
    exact ((h.forgetQueued hstate (mem_of_getElem? hm) hout).exception _ _ _ _).proceeds hp
  | abortedQueued hstate hm hout hp _ _ =>
    exact (h.forgetQueued hstate (mem_of_getElem? hm) hout).proceeds hp
  | canceledHinted _ _ hhint hp _ =>
    refine Registered.proceeds ?_ hp
    exact h.erase rfl rfl nofun (fun _ hm => .inr hm)
      (.inl (responses_exception _ _ _))
  | canceledFound _ _ hlocate => exact h.forgetFound hlocate _
  | @finished s hstate =>
    refine ⟨List.Pairwise.nil, nofun, fun _ _ => .inl rfl, nofun, fun out requestId => ?_⟩
    have hresponses : (switchState .finished (completeAll s)).responses = s.responses := by
      simp [responses, switchState, completeAll, Call.replies, filterMap_filterMap]
    have hold := h.delivered out requestId
    rw [hresponses]
    simp only [switchState, completeAll, count_nil]
    omega

/-- A request stays registered until it is completed, in a connection that is not closed. -/
theorem Change.kept [Bzip2] (hchange : Change e s s') (hfresh : FreshRequest s e)
    (hreg : Registered s)
    (h : s.state < .closed → Kept s) (hstate' : s'.state < .closed) : Kept s' := by
  have hopen {s s' : ConnectionI ρ} (hp : Proceeds s s') (hstate' : s'.state < .closed) :
      s.state < .closed := by
    by_contra hge
    exact absurd (hp.state .closed (by decide) (not_lt.mp hge)) (not_le_of_gt hstate')
  cases hchange with
  | proceeds hp => exact (h (hopen hp hstate')).proceeds hp
  | closeRequested _ _ hp =>
    have hstate := hopen hp hstate'
    refine Kept.proceeds ?_ hp
    exact h hstate
  | accepted ha => exact ha.kept (h (ha.state ▸ hstate')) hfresh
  | rejected _ hclosed => exact absurd hclosed (not_le_of_gt hstate')
  | @replied answers s s' requestId e hr =>
    obtain ⟨s1, h1, result, hfind, h2, _⟩ := hr.delivered
    have hstate := hopen h2 hstate'
    have hkept : Kept s1 := (h (hopen h1 hstate)).proceeds h1
    have hreg1 := hreg.proceeds h1
    obtain ⟨he, rfl⟩ := mem_of_findReply hfind
    have hcompletions : (deliver answers e.1 e result s1).completions =
        s1.completions ++ [(e.2, e.1)] := by
      simp [completions, deliver, Call.completes]
    refine Kept.proceeds ?_ h2
    refine hkept.complete hreg1.ordered (fun d hd hkey => ?_) rfl rfl hcompletions
    rw [hreg1.ordered.eq_of_key hd he hkey]
  | @canceledQueued out ex s s' i m hstate hm hout hp _ =>
    have hmem := mem_of_getElem? hm
    refine Kept.proceeds ?_ hp
    by_cases hid : m.requestId = 0
    · intro out' id
      have hold := h hstate out' id
      have hforget : forgetQueued out m.requestId s = s := by simp [forgetQueued, hid]
      have hle : s.completions.count (out', id) ≤
          ((unqueue i s).call (.exception out m.requestId ex)).completions.count (out', id) := by
        simp [completions, call, unqueue]
      rw [hforget]
      exact hold.trans (Nat.add_le_add_left hle _)
    · refine (h hstate).complete hreg.ordered
        (fun d hd hkey => (hreg.queued m hmem out hout hid d hd).mp hkey)
        (forgetQueued_eq hreg hstate hmem hout hid).1 ?_ ?_
      · simp [call, unqueue, forgetQueued, hid]
      · simp [completions, call, unqueue, forgetQueued, hid, Call.completes]
  | abortedQueued _ _ _ _ hclosed _ => exact absurd hclosed (not_le_of_gt hstate')
  | canceledHinted hstate _ hhint hp _ =>
    have hmem := mem_of_hintFor hhint
    refine Kept.proceeds ?_ hp
    refine (h hstate).complete hreg.ordered (fun d hd hkey => ?_) rfl rfl
      (completions_exception _ _ _)
    rw [hreg.ordered.eq_of_key hd hmem hkey]
  | canceledFound hstate _ hlocate =>
    obtain ⟨-, -, hmem⟩ := locate_found hlocate
    refine (h hstate).complete hreg.ordered (fun d hd hkey => ?_) rfl rfl
      (completions_exception _ _ _)
    rw [hreg.ordered.eq_of_key hd hmem hkey]
  | finished => exact absurd hstate' (show ¬ State.finished < .closed by decide)

/-! ## Every run -/

omit [DecidableEq ρ] in
theorem IdsInOrder.create (o : Options) : IdsInOrder (.create o : ConnectionI ρ) := by
  refine ⟨?_, rfl, fun _ => rfl⟩
  exact fun hge => absurd hge (show ¬ State.closing ≤ .notInitialized by decide)

theorem Registered.create (o : Options) : Registered (.create o : ConnectionI ρ) := by
  exact ⟨List.Pairwise.nil, nofun, nofun, nofun, fun out requestId => le_rfl⟩

variable [Bzip2]

theorem reachable_registered (h : Reachable FreshRequest s) :
    Registered s ∧ (s.state < .closed → Kept s) := by
  refine (h.induct_change
    (I := fun s => IdsInOrder s ∧ Registered s ∧ (s.state < .closed → Kept s)) (fun o => ?_) ?_).2
  · exact ⟨.create o, .create o, fun _ out requestId => le_rfl⟩
  · rintro s e s' hfresh hchange ⟨hids, hreg, hkept⟩
    exact ⟨hchange.idsInOrder hids, hchange.registered hfresh hids hreg,
      hchange.kept hfresh hreg hkept⟩

/-- What holds of the outstanding twoway requests: they are registered under distinct positive IDs,
    those in their messages; an accepted request stays registered until its reply, its cancellation
    or the closing of the connection; a reply is delivered to the request that is registered with
    its ID; and the IDs are given in order, from 1 to `INT32_MAX` and from 1 again. -/
structure RepliesMatch (s : ConnectionI ρ) : Prop where
  distinct : (s.asyncRequests.map (·.1)).Nodup
  positive : ∀ e ∈ s.asyncRequests, 0 < e.1 ∧ e.1 < 2 ^ 31
  written : ∀ e ∈ s.asyncRequests, (e.2, e.1) ∈ s.accepted
  kept : s.state < .closed → Kept s
  delivered : ∀ out requestId, s.responses.count (out, requestId) +
    s.asyncRequests.count (requestId, out) ≤ s.accepted.count (out, requestId)
  /-- the hint can be dereferenced -/
  hint : ∀ requestId, s.asyncRequestsHint = some requestId →
    s.state = .finished ∨ ∃ e ∈ s.asyncRequests, e.1 = requestId
  wrap : s.accepted.map (·.2) = (List.range s.accepted.length).map requestIdAt

theorem replies_match (h : Reachable FreshRequest s) : RepliesMatch s := by
  obtain ⟨hreg, hkept⟩ := reachable_registered h
  refine ⟨hreg.ordered.nodup_keys, hreg.positive, fun e he => ?_, hkept, hreg.delivered, hreg.hint,
    (h.induct_change .create fun _ hchange hs => hchange.idsInOrder hs).ids⟩
  have hle := hreg.delivered e.2 e.1
  have hpos : 0 < s.asyncRequests.count (e.1, e.2) := count_pos_iff.mpr he
  exact count_pos_iff.mp (by omega)

instance (s : ConnectionI ρ) (e : Event ρ) : Decidable (FreshRequest s e) :=
  match e with
  | .sendAsyncRequest _ => inferInstanceAs (Decidable (_ → _))
  | .network .. | .startAsync _ | .activate | .hold | .destroy _ | .abort | .close
  | .asyncRequestCanceled .. | .select _ | .beginMessage | .endMessage _ | .dispatch _
  | .dispatchException .. | .upcallCompleted _ | .sendResponse .. | .finish | .idleCheck
  | .inactivityCheck | .connectTimedOut | .closeTimedOut | .sendHeartbeat => .isTrue trivial

omit [Bzip2] [DecidableEq ρ] in
theorem replies_match_twoRequests : ∃ (_ : Bzip2) (s : ConnectionI Nat), Reachable FreshRequest s ∧
      s.asyncRequests = [(1, 1), (2, 2)] ∧ RepliesMatch s := by
  let _ : Bzip2 := .absent
  obtain ⟨s, hs, hmap⟩ := reachable_of_runEvents FreshRequest {}
    (opening ++ [.sendAsyncRequest { out := 1 }, .sendAsyncRequest { out := 2 }])
    (P := fun s => s.asyncRequests = [(1, 1), (2, 2)]) (by decide +kernel)
  exact ⟨.absent, s, hs, hmap, replies_match hs⟩

/-! ## The counter wraps -/

section Wrap

/-- The first request, which is the invocation 1 with the ID 1, is outstanding: the peer does not
    take the bytes of its message. The other requests, all of the invocation 2, were canceled. -/
structure Waiting (next : Int) (s : ConnectionI Nat) : Prop where
  reading : s.isReading = false
  state : s.state = .active
  exception : s.exception = none
  asyncRequests : s.asyncRequests = [(1, 1)]
  queue : ∃ m, s.sendStreams = [m] ∧ m.outAsync = some 1
  closeRequested : s.closeRequested = false
  nextRequestId : s.nextRequestId = next
  others : ∀ c ∈ s.completions, c.1 = 2

variable {s : ConnectionI Nat} {next : Int}

/-- A twoway request is queued behind another message. -/
def queueRequest (r : OutgoingRequest Nat) (s : ConnectionI Nat) : ConnectionI Nat :=
  register (r.outgoing (r.ids s).1) r.out
    (ConnectionI.enqueue (r.outgoing (r.ids s).1)
      (ConnectionI.cancelInactivityTimerTask { s with nextRequestId := (r.ids s).2 }))

theorem after_sendAsyncRequest (h : Waiting next s) (out : Nat) :
    (Event.sendAsyncRequest { out := out }).after s = queueRequest { out := out } s := by
  obtain ⟨m, hqueue, -⟩ := h.queue
  refine after_of_wp (e := .sendAsyncRequest { out := out }) (E := fun _ _ => True)
    (P := fun s' => s' = queueRequest { out := out } s) ?_
  refine wp_map.mpr ?_
  rw [sendAsyncRequest, wp_bind, wp_get, h.exception]
  simp only [wp_bind, wp_modify, wp_handle, wp_map]
  have hne : s.sendStreams ≠ [] := by simp [hqueue]
  refine wp_sendMessage (fun _ => ?_) (fun _ h' => absurd h' hne) (fun _ h' => absurd h' hne)
    (fun _ h' => absurd h' hne) (fun _ _ h' => absurd h' hne)
  simp only [wp_runIf, wp_modify, wp_pure]
  exact ⟨fun _ => rfl, fun hfalse => absurd trivial hfalse⟩

theorem after_asyncRequestCanceled (h : Waiting next s) (hnext : 1 < next) :
    (Event.asyncRequestCanceled 2 .invocationCanceled).after (queueRequest { out := 2 } s) =
      (unqueue 1 (forgetQueued 2 next (queueRequest { out := 2 } s))).call
        (.exception 2 next .invocationCanceled) := by
  obtain ⟨m, hqueue, hm⟩ := h.queue
  have hid : (OutgoingRequest.ids { out := 2 } s).1 = next := by
    simp [OutgoingRequest.ids, allocateId, h.nextRequestId, show ¬ next ≤ 0 by omega]
  have hlocate : locate 2 (queueRequest { out := 2 } s) = .queued 1 next := by
    simp [locate, queueRequest, register, enqueue, cancelInactivityTimerTask, hqueue,
      findIdx?_cons, hm, OutgoingRequest.outgoing, hid]
  refine after_of_wp (e := .asyncRequestCanceled 2 .invocationCanceled) (E := fun _ _ => True)
    (P := fun s' => s' = _) ?_
  have hstate : (queueRequest { out := 2 } s).state = .active := h.state
  have hclose : (queueRequest { out := 2 } s).closeRequested = false := h.closeRequested
  have hopen : ¬ State.closed ≤ (queueRequest { out := 2 } s).state := hstate ▸ by decide
  rw [Event.program, asyncRequestCanceled, wp_bind, wp_get, if_neg hopen, hlocate]
  simp only [cancelQueued, wp_bind, wp_modify]
  rw [abortOr, if_neg (by decide), wp_modify, closeIfRequested, wp_bind, wp_get, if_neg]
  · rfl
  · simp [call, unqueue, forgetQueued, show next ≠ 0 by omega, hclose]

/-- A second request that is queued and canceled uses up an ID. -/
theorem Waiting.round (h : Waiting next s) (hnext : 1 < next) :
    ∃ s', Relation.ReflTransGen (Step fun _ _ => True) s s' ∧ Waiting (increment next) s' := by
  have henabled : Enabled s (.sendAsyncRequest { out := 2 }) := ⟨h.reading, h.state ▸ by decide⟩
  have henabled' : Enabled (queueRequest { out := 2 } s)
      (.asyncRequestCanceled 2 .invocationCanceled) := h.reading
  have hsend : Step (fun _ _ => True) s _ := .event _ henabled trivial
  have hcancel : Step (fun _ _ => True) (queueRequest { out := 2 } s) _ :=
    .event _ henabled' trivial
  rw [after_sendAsyncRequest h] at hsend
  rw [after_asyncRequestCanceled h hnext] at hcancel
  refine ⟨_, .tail (.single hsend) hcancel, ?_⟩
  obtain ⟨m, hqueue, hm⟩ := h.queue
  have hids : OutgoingRequest.ids { out := 2 } s = (next, increment next) := by
    simp [OutgoingRequest.ids, allocateId, h.nextRequestId, show ¬ next ≤ 0 by omega]
  have hmap : (queueRequest { out := 2 } s).asyncRequests = [(1, 1), (next, 2)] := by
    simp [queueRequest, register, enqueue, cancelInactivityTimerTask,
      OutgoingRequest.outgoing, hids, h.asyncRequests, insertRequest, show ¬ next < 1 by omega,
      show next ≠ 1 by omega]
  have hhint : (queueRequest { out := 2 } s).hintFor 2 = some next := by
    refine hintFor_of_hint ?_ ?_ (by simp [hmap])
    · rw [hmap]
      simpa [Ordered] using hnext
    · simp [queueRequest, register, OutgoingRequest.outgoing, hids]
  refine ⟨?_, ?_, ?_, ?_, ⟨m, ?_, hm⟩, ?_, ?_, ?_⟩ <;>
    simp only [call, unqueue, forgetQueued, show next ≠ 0 by omega, if_false, hhint]
  · exact h.reading
  · exact h.state
  · exact h.exception
  · simp [hmap, eraseRequest, show (1 : Int) ≠ next by omega]
  · simp [queueRequest, register, enqueue, cancelInactivityTimerTask, hqueue]
  · exact h.closeRequested
  · simp [queueRequest, register, enqueue, cancelInactivityTimerTask, hids]
  · intro c hc
    have hcalls : (queueRequest { out := 2 } s).calls = s.calls := rfl
    simp only [completions, hcalls, filterMap_append, mem_append] at hc
    rcases hc with hc | hc
    · exact h.others c hc
    · simp only [Call.completes, filterMap_cons, filterMap_nil, mem_singleton] at hc
      rw [hc]

theorem Waiting.rounds (h : Waiting 2 s) (k : Nat) (hk : k ≤ 2 ^ 31 - 3) :
    ∃ s', Relation.ReflTransGen (Step fun _ _ => True) s s' ∧ Waiting (k + 2) s' := by
  induction k with
  | zero => exact ⟨s, .refl, by simpa using h⟩
  | succ k ih =>
    obtain ⟨s1, hrun, h1⟩ := ih (by omega)
    obtain ⟨s2, hround, h2⟩ := h1.round (by omega)
    refine ⟨s2, hrun.trans hround, ?_⟩
    have hincrement : increment ((k : Int) + 2) = ((k + 1 : Nat) : Int) + 2 := by
      unfold increment
      omega
    rw [← hincrement]
    exact h2

end Wrap

omit [Bzip2] [DecidableEq ρ] in
/-- Behind 2^31 - 1 requests the ID 1 is given again, although the first request is outstanding:
    the new request is accepted but not registered, and its reply would go to the first one. -/
theorem request_not_registered :
    ∃ (_ : Bzip2) (s : ConnectionI Nat), Reachable (fun _ _ => True) s ∧ s.state = .active ∧
      (3, 1) ∈ s.accepted ∧ (1, 3) ∉ s.asyncRequests ∧ (3, 1) ∉ s.completions ∧
      s.findReply 1 = some (1, 1) := by
  let _ : Bzip2 := .absent
  -- the first request is blocked behind five bytes
  obtain ⟨s0, ⟨o, hrun0⟩, h0⟩ := reachable_of_runEvents (fun _ _ => True) {}
    (opening ++ [.network [] 5 none none (.ok .none), .sendAsyncRequest { out := 1 }])
    (P := fun s => s.isReading = false ∧ s.state = .active ∧ s.exception = none ∧
      s.asyncRequests = [(1, 1)] ∧ s.sendStreams.map (·.outAsync) = [some 1] ∧
      s.closeRequested = false ∧ s.nextRequestId = 2 ∧ s.completions = []) (by decide +kernel)
  obtain ⟨hreading, hstate, hex, hmap, hqueue, hclose, hnext, hcalls⟩ := h0
  have hwaiting : Waiting 2 s0 := by
    obtain ⟨m, hm, hout⟩ := map_eq_singleton_iff.mp hqueue
    exact ⟨hreading, hstate, hex, hmap, ⟨m, hm, hout⟩, hclose, hnext, by simp [hcalls]⟩
  obtain ⟨s1, hrun1, h1⟩ := hwaiting.rounds (2 ^ 31 - 3) le_rfl
  obtain ⟨s2, hrun2, h2⟩ := h1.round (by norm_num)
  have hfirst : (OutgoingRequest.ids { out := 3 } s2).1 = 1 := by
    simp [OutgoingRequest.ids, h2.nextRequestId, increment, allocateId]
  have hlast : Step (fun _ _ => True) s2 _ :=
    .event (.sendAsyncRequest { out := 3 }) ⟨h2.reading, h2.state ▸ by decide⟩ trivial
  rw [after_sendAsyncRequest h2] at hlast
  have hmap' : (queueRequest { out := 3 } s2).asyncRequests = [(1, 1)] := by
    simp [queueRequest, register, enqueue, cancelInactivityTimerTask,
      OutgoingRequest.outgoing, hfirst, h2.asyncRequests, insertRequest]
  refine ⟨.absent, queueRequest { out := 3 } s2, ⟨o, ((hrun0.trans hrun1).trans hrun2).tail hlast⟩,
    h2.state, ?_, ?_, ?_, ?_⟩
  · simp [queueRequest, register, OutgoingRequest.outgoing, Message.requestId, hfirst]
  · simp [hmap']
  · intro hc
    exact absurd (h2.others _ hc) (by decide)
  · have hhint : (queueRequest { out := 3 } s2).asyncRequestsHint = some 1 := by
      simp [queueRequest, register, OutgoingRequest.outgoing, hfirst]
    simp [findReply, hinted, hhint, hmap', findRequest, Option.filter]

end Ice.Connection
