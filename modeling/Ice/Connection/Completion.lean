import Ice.Misc.Lists
import Ice.Connection.ReplyMatching

/-!
# Every request is completed once

A twoway request is referenced from the send queue and from the map of the outstanding requests. It
is completed once, by a reply, a cancellation or `finish`, as long as no reply arrives for a request
that has not been written yet.
-/

namespace Ice.Connection

open List ConnectionI

open Ice.WebSocket (Buffer SocketOperation)

variable {ρ : Type} [Bzip2] {s s' : ConnectionI ρ}

/-! ## The queue of a closed connection -/

section Frozen

variable [DecidableEq ρ]

omit [Bzip2] [DecidableEq ρ] in
theorem Frozen.of_open (h : s.state < .closed) : Frozen s s' :=
  fun hge => absurd h (not_lt_of_ge hge)

variable {e : Event ρ}

/-- Until `finish` is called, the queue of a closed connection is left alone. -/
theorem frozen_of_event (hbased : Based s) (henabled : Enabled s e)
    (hfinish : e ≠ .finish) : Frozen s (e.after s) := by
  intro hclosed
  have hsame : Frozen s s := fun h => ⟨h, rfl⟩
  have keeps {e : Event ρ} {E : LocalException → ConnectionI ρ → Prop}
      (h : wp (e.program s) (fun _ s' => Frozen s s') E s) :
      .closed ≤ (e.after s).state ∧ (e.after s).sendStreams = s.sendStreams :=
    after_of_wp h hclosed
  have hclosing : .closing ≤ s.state := hclosed.trans' (by decide)
  have hvalidated : ¬ s.state ≤ .notValidated :=
    not_le_of_gt (hclosed.trans_lt' (by decide))
  cases e with
  | network | select => exact ⟨hclosed, rfl⟩
  | startAsync callbacks =>
    rw [henabled.2.1] at hclosed
    exact absurd hclosed (by decide)
  | activate | hold =>
    refine keeps (E := fun _ _ => True) ?_
    simp only [Event.program, activate, hold, wp_bind, wp_get, if_neg hvalidated]
    refine wp_setState_open (by decide) (fun hcan => ?_) fun _ => hsame
    refine absurd hcan ?_
    revert hclosed
    cases s.state <;> decide
  | destroy | abort | idleCheck | connectTimedOut | sendHeartbeat | inactivityCheck
  | closeTimedOut => exact keeps_isOwn (R := Frozen) trivial hclosed
  | close =>
    refine keeps (E := fun _ _ => True) ?_
    simp only [Event.program, close, wp_bind, wp_get, if_pos hclosing]
    exact hsame
  | sendAsyncRequest r =>
    refine keeps (E := fun _ _ => True) ?_
    obtain ⟨ex, hex⟩ := Option.isSome_iff_exists.mp (hbased.exception hclosing)
    refine wp_map.mpr ?_
    rw [sendAsyncRequest, wp_bind, wp_get, hex]
    exact hsame
  | asyncRequestCanceled out ex =>
    refine keeps (E := fun _ _ => True) ?_
    simp only [Event.program, asyncRequestCanceled, wp_bind, wp_get, if_pos hclosed]
    exact hsame
  | beginMessage =>
    refine after_beginMessage (P := fun s' => .closed ≤ s'.state ∧ s'.sendStreams = s.sendStreams)
      (E := fun _ _ => False) henabled fun _ => ?_
    refine wp_post (beginMessage_spec _) fun _ s' hbegan => ?_
    cases hbegan with
    | idle _ hfrozen => exact hfrozen hclosed
    | reading writeOp s1 hwrites hopen => exact absurd hopen (not_lt_of_ge hclosed)
  | endMessage answers =>
    cases hphase : s.phase with
    | reading => exact absurd (hbased.notClosed hphase) (not_lt_of_ge hclosed)
    | idle | selected => simp [Enabled, isReading, hphase] at henabled
  | dispatch i =>
    change .closed ≤ (startDispatch i s).state ∧ (startDispatch i s).sendStreams = s.sendStreams
    unfold startDispatch
    split <;> exact ⟨hclosed, rfl⟩
  | dispatchException i ex =>
    refine keeps (Keeps.get_bind ?_)
    cases s.upcalls[i]? with
    | none => exact .pure _
    | some u =>
      refine .bind (.modify fun h => ⟨h, rfl⟩) fun _ s1 => ?_
      exact .bind (keeps_setStateWith (by decide) ex) fun _ s2 => .modify fun h => ⟨h, rfl⟩
  | upcallCompleted i =>
    refine keeps (Keeps.get_bind ?_)
    cases s.upcalls[i]? with
    | none => exact .pure _
    | some u =>
      refine .bind (.modify fun h => ⟨h, rfl⟩) fun _ s1 => .get_bind ?_
      exact .ite (fun h => keeps_shutdownOrClose h.2.2 h.2.1) fun _ => .pure _
  | sendResponse j result compress =>
    obtain ⟨-, hlength⟩ := henabled
    have hd := getElem?_eq_getElem hlength
    have h := after_of_wp (e := .sendResponse j result compress)
      (sendResponse_answered (lt_of_not_ge hvalidated) hd)
    exact h.frozen hclosed
  | finish => exact absurd rfl hfinish

end Frozen

/-! ## The message that has just been written -/

section Popped

/-- The front of the queue and what is being written of it do not change. -/
def HoldsFront (s s' : ConnectionI ρ) : Prop :=
  ∃ extra, s'.sendStreams = s.sendStreams ++ extra ∧
    (∀ m ∈ extra, m.outAsync = none ∧ m.requestId = 0) ∧
    (s.sendStreams ≠ [] → s'.writeStream = s.writeStream)

omit [Bzip2] in
theorem HoldsFront.of_eq (hqueue : s'.sendStreams = s.sendStreams)
    (hwrite : s'.writeStream = s.writeStream) :
    HoldsFront s s' :=
  ⟨[], by simp [hqueue], by simp, fun _ => hwrite⟩

omit [Bzip2] in
/-- Where nothing is queued, a message of the connection's own may be. -/
theorem HoldsFront.of_empty {m : OutgoingMessage ρ} (hm : Own s m) (hempty : s.sendStreams = [])
    (h : s'.sendStreams = [] ∨ s'.sendStreams = [m]) : HoldsFront s s' := by
  rcases h with h | h
  · exact ⟨[], by simp [h, hempty], by simp, fun hne => absurd hempty hne⟩
  · refine ⟨[m], by simp [h, hempty], ?_, fun hne => absurd hempty hne⟩
    intro m' hm'
    rw [mem_singleton.mp hm']
    exact ⟨hm.outAsync, hm.requestId⟩

instance : Frame (HoldsFront (ρ := ρ)) where
  quiet h _ := .of_eq (congrArg Essence.sendStreams h) (congrArg Essence.writeStream h)
  trans {s s' s''} h h' := by
    obtain ⟨extra, hqueue, hextra, hwrite⟩ := h
    obtain ⟨extra', hqueue', hextra', hwrite'⟩ := h'
    refine ⟨extra ++ extra', by simp [hqueue', hqueue], ?_, fun hne => ?_⟩
    · intro m hm
      exact (List.mem_append.mp hm).elim (hextra m) (hextra' m)
    · have hne' : s'.sendStreams ≠ [] := by simp [hqueue, hne]
      rw [hwrite' hne', hwrite hne]
  except _ _ := .of_eq rfl rfl
  replace _ := .of_eq rfl rfl
  close _ _ _ := .of_eq rfl rfl
  shutdown _ _ := .of_eq rfl rfl
  waits _ := .of_eq rfl rfl
  queued {s m} hm _ := by
    refine ⟨[m], rfl, ?_, fun _ => rfl⟩
    intro m' hm'
    rw [List.mem_singleton.mp hm']
    exact ⟨hm.outAsync, hm.requestId⟩
  sent {s m wire} hm hempty _ _ := .of_empty hm hempty (.inl hempty)
  started {s m wire} hm hempty _ _ := .of_empty hm hempty (.inr rfl)
  failed {s m wire} ex hm hempty _ _ :=
    .of_empty hm hempty (.inl ((sendStreams_closeWith ex _).trans hempty))

theorem holdsFront_parseMessage (answers : Answers ρ) : Keeps HoldsFront (parseMessage answers) s :=
  keeps_parseMessage (fun _ _ _ => .of_eq rfl rfl) (fun _ _ _ _ => .of_eq rfl rfl)
    (fun _ => .of_eq rfl rfl) answers

/-- `sendNextMessages` takes the message off the queue that was being written. -/
theorem sendNextMessages_pops (answers : Answers ρ) (hi : s.writeStream.i ≠ 0) :
    wp (sendNextMessages answers) (fun _ s' => Shrinks s.sendStreams.tail s'.sendStreams)
      (fun _ _ => False) s := by
  rw [sendNextMessages, wp_bind, wp_get]
  cases hqueue : s.sendStreams with
  | nil =>
    change Shrinks [] s.sendStreams
    rw [hqueue]
    exact .refl _
  | cons m rest =>
    have hkeeps : Keeps Proceeds (sendQueued answers rest) (popSent answers m rest s) :=
      proceeds_sendQueued answers rfl rfl
    simp only [hi, and_false, if_false, wp_handle, wp_bind, wp_modify]
    refine wp_mono hkeeps (fun _ s' h => h.queue) fun ex s' h => ?_
    rw [setStateWith_closed, wp_modify]
    exact h.queue

theorem process_pops (answers : Answers ρ) {operation newOp : SocketOperation}
    (hread : (minus operation newOp).read = true) (hwrite : (minus operation newOp).write = true)
    (hqueue : s.sendStreams ≠ []) (hi : s.writeStream.i ≠ 0) : wp (process answers operation newOp)
      (fun _ s' => Shrinks s.sendStreams.tail s'.sendStreams) (fun _ _ => False) s := by
  rw [process, wp_bind, ifReady, if_pos hread]
  refine wp_mono (wp_and (holdsFront_parseMessage answers) (parseMessage_spec answers))
    (fun readOp s1 h => ?_) fun _ _ h => h.2
  obtain ⟨⟨extra, hqueue1, hextra, hwrite1⟩, -⟩ := h
  have htail : Shrinks s.sendStreams.tail s1.sendStreams.tail := by
    rw [hqueue1, tail_append_of_ne_nil hqueue]
    exact ⟨0, extra, rfl, hextra⟩
  rw [wp_bind, ifReady, if_pos hwrite]
  refine wp_post (sendNextMessages_pops answers (by rw [hwrite1 hqueue]; exact hi))
    fun writeOp s2 h => ?_
  rw [wp_bind, wp_get]
  split <;> exact htail.trans h

variable {answers : Answers ρ}

/-- A message that was completely written leaves the queue at the end of `message`, if the message
    of the peer could be read. -/
theorem endMessage_pops {operation writeOp : SocketOperation}
    {s1 : ConnectionI ρ} (hvalidated : .notValidated < s.state) (hop : writeOp.read = false)
    (hread : operation.read = true) (hmessage : messageRead s = .ok .none s1)
    (hwrite : operation.write = true) (hwritten : writeOp.write = false)
    (hqueue : s.sendStreams ≠ []) (hi : s.writeStream.i ≠ 0) :
    wp (endMessage answers operation writeOp)
      (fun _ s' => Shrinks s.sendStreams.tail s'.sendStreams) (fun _ _ => False) s := by
  rw [endMessage, wp_bind, wp_handle, wp_bind, ifReady, if_pos hread]
  refine wp_mono (wp_and (wp_run messageRead s) messageRead_reads) (fun readOp s2 h => ?_)
    fun ex s2 h => ?_
  · obtain ⟨hrun, hreads, -⟩ := h
    rw [hmessage] at hrun
    cases hrun
    obtain ⟨unread, readStream, readSize, readHeader, rfl, -⟩ := hreads
    rw [wp_bind, establishOrProcess, wp_bind, wp_get, if_neg (not_le_of_gt hvalidated)]
    refine wp_mono (process_pops answers ?_ ?_ hqueue hi) (fun _ s3 h => ?_) fun _ _ h => h.elim
    · simp [minus, union, SocketOperation.none, hread, hop]
    · simp [minus, union, SocketOperation.none, hwrite, hwritten]
    · rw [wp_modify, wp_modify]
      have hstart : (startUpcall s3).sendStreams = s3.sendStreams := by
        unfold startUpcall
        split <;> rfl
      exact hstart ▸ h
  · rw [hmessage] at h
    cases h.1

end Popped

/-! ## Requests that wait for their completion -/

section Accounted

omit [Bzip2]

/-- The message of a request is in the send queue. -/
def ConnectionI.Queues (s : ConnectionI ρ) (out : ρ) (requestId : Int) : Prop :=
  ∃ m ∈ s.sendStreams, m.outAsync = some out ∧ m.requestId = requestId

/-- A request has not been completed yet. -/
def ConnectionI.Awaits (s : ConnectionI ρ) (out : ρ) (requestId : Int) : Prop :=
  (requestId, out) ∈ s.asyncRequests ∨ s.Queues out requestId

/-- The requests of a queue have distinct IDs. -/
def Distinct (queue : List (OutgoingMessage ρ)) : Prop :=
  queue.Pairwise fun m m' => m.requestId ≠ 0 → m.requestId ≠ m'.requestId

variable {queue : List (OutgoingMessage ρ)}

theorem Distinct.shrinks {queue' : List (OutgoingMessage ρ)} (h : Distinct queue)
    (hs : Shrinks queue queue') :
    Distinct queue' := by
  obtain ⟨k, extra, rfl, hextra⟩ := hs
  refine pairwise_append.mpr ⟨h.drop, ?_, ?_⟩
  · exact pairwise_of_forall_mem_list fun m hm m' _ hid => absurd (hextra m hm).2 hid
  · intro m _ m' hm' hid
    rw [(hextra m' hm').2]
    exact hid

variable {m : OutgoingMessage ρ}

theorem Distinct.append (h : Distinct queue)
    (hm : ∀ m' ∈ queue, m'.requestId ≠ 0 → m'.requestId ≠ m.requestId) :
    Distinct (queue ++ [m]) := by
  refine pairwise_append.mpr ⟨h, pairwise_singleton _ _, ?_⟩
  intro m' hm' m'' hm''
  rw [mem_singleton.mp hm'']
  exact hm m' hm'

variable [DecidableEq ρ]

/-- Each accepted request was completed once, or waits for its completion. -/
structure Accounted (s : ConnectionI ρ) : Prop where
  distinct : Distinct s.sendStreams
  /-- the ID of a canceled request that is being sent is not in use -/
  canceled : ∀ m ∈ s.sendStreams, m.outAsync = none → m.requestId ≠ 0 →
    ∀ e ∈ s.asyncRequests, e.1 ≠ m.requestId
  /-- what is queued is registered -/
  registered : s.state < .closed → ∀ m ∈ s.sendStreams, ∀ out, m.outAsync = some out →
    m.requestId ≠ 0 → (m.requestId, out) ∈ s.asyncRequests
  awaiting : ∀ {out requestId}, requestId ≠ 0 → s.Awaits out requestId →
    s.accepted.count (out, requestId) = s.completions.count (out, requestId) + 1
  completed : ∀ {out requestId}, requestId ≠ 0 → ¬ s.Awaits out requestId →
    s.accepted.count (out, requestId) = s.completions.count (out, requestId)

namespace Accounted

variable {requestId : Int} {out : ρ}

/-- While the connection is not closed, the requests in the map are those that wait. -/
theorem awaits_iff (h : Accounted s) (hstate : s.state < .closed)
    (hid : requestId ≠ 0) : s.Awaits out requestId ↔ (requestId, out) ∈ s.asyncRequests := by
  constructor
  · rintro (hmem | ⟨m, hm, hout, rfl⟩)
    · exact hmem
    · exact h.registered hstate m hm out hout hid
  · exact .inl

/-- No request is completed: messages may leave the queue, or enter it, that wait for no reply. -/
theorem keep {t : ConnectionI ρ} (h : Accounted s) (hmap : t.asyncRequests = s.asyncRequests)
    (haccepted : t.accepted = s.accepted) (hcompletions : ∀ {out requestId}, requestId ≠ 0 →
      t.completions.count (out, requestId) = s.completions.count (out, requestId))
    (hdistinct : Distinct t.sendStreams)
    (hqueue : ∀ m ∈ t.sendStreams, m ∈ s.sendStreams ∨ m.requestId = 0)
    (hstate : t.state < .closed → s.state < .closed)
    (hqueued : ∀ {out requestId}, requestId ≠ 0 → s.Queues out requestId → t.Awaits out requestId) :
    Accounted t := by
  have old {m : OutgoingMessage ρ} (hm : m ∈ t.sendStreams) (hid : m.requestId ≠ 0) :
      m ∈ s.sendStreams := (hqueue m hm).resolve_right hid
  have hawaits {out : ρ} {requestId : Int} (hid : requestId ≠ 0) :
      t.Awaits out requestId ↔ s.Awaits out requestId := by
    constructor
    · rintro (hmem | ⟨m, hm, hout, rfl⟩)
      · exact .inl (hmap ▸ hmem)
      · exact .inr ⟨m, old hm hid, hout, rfl⟩
    · rintro (hmem | hqueues)
      · exact .inl (hmap ▸ hmem)
      · exact hqueued hid hqueues
  refine ⟨hdistinct, ?_, ?_, ?_, ?_⟩
  · intro m hm hnone hid
    rw [hmap]
    exact h.canceled m (old hm hid) hnone hid
  · intro ht m hm out hout hid
    rw [hmap]
    exact h.registered (hstate ht) m (old hm hid) out hout hid
  · intro out requestId hid hwait
    rw [haccepted, hcompletions hid]
    exact h.awaiting hid ((hawaits hid).mp hwait)
  · intro out requestId hid hwait
    rw [haccepted, hcompletions hid]
    exact h.completed hid fun hs => hwait ((hawaits hid).mpr hs)

theorem proceeds (h : Accounted s) (hp : Proceeds s s') (hfrozen : Frozen s s') : Accounted s' := by
  refine h.keep hp.asyncRequests hp.accepted (fun _ => by rw [hp.completions])
    (h.distinct.shrinks hp.queue) (fun m hm => (hp.queue.mem hm).imp_right And.right) ?_ ?_
  · intro hstate
    by_contra hge
    exact absurd (hfrozen (not_lt.mp hge)).1 (not_le_of_gt hstate)
  · intro out requestId hid hqueues
    by_cases hstate : s.state < .closed
    · left
      rw [hp.asyncRequests]
      exact (h.awaits_iff hstate hid).mp (.inr hqueues)
    · right
      rw [ConnectionI.Queues, (hfrozen (not_lt.mp hstate)).2]
      exact hqueues

/-- A request that is registered is completed: it leaves the map, and its message, if it is still
    in the queue, is not completed again. -/
theorem complete {t : ConnectionI ρ} (h : Accounted s)
    (hordered : Ordered s.asyncRequests) (hstate : s.state < .closed)
    (hmem : (requestId, out) ∈ s.asyncRequests) (hid : requestId ≠ 0)
    (hmap : t.asyncRequests = eraseRequest requestId s.asyncRequests)
    (haccepted : t.accepted = s.accepted)
    (hcompletions : t.completions = s.completions ++ [(out, requestId)])
    (hdistinct : Distinct t.sendStreams) (hqueue : ∀ m ∈ t.sendStreams, m ∈ s.sendStreams ∨
      m.outAsync = none ∧ (m.requestId = 0 ∨ m.requestId = requestId))
    (hnone : ∀ m ∈ t.sendStreams, m.requestId = requestId → m.outAsync = none) : Accounted t := by
  have hnew {out' : ρ} {id : Int} (hne : id ≠ requestId) :
      t.completions.count (out', id) = s.completions.count (out', id) := by
    rw [hcompletions, count_append, count_singleton, if_neg (by simp [hne.symm])]
    omega
  have old {m : OutgoingMessage ρ} (hm : m ∈ t.sendStreams) {out' : ρ}
      (hout : m.outAsync = some out') : m ∈ s.sendStreams ∧ m.requestId ≠ requestId := by
    refine ⟨(hqueue m hm).resolve_right fun hn => ?_, fun heq => ?_⟩
    · rw [hn.1] at hout
      cases hout
    · rw [hnone m hm heq] at hout
      cases hout
  refine ⟨hdistinct, ?_, ?_, ?_, ?_⟩
  · intro m hm hcanceled hid' e he
    rw [hmap, mem_eraseRequest] at he
    rcases hqueue m hm with hm | ⟨-, hzero | heq⟩
    · exact h.canceled m hm hcanceled hid' e he.1
    · exact absurd hzero hid'
    · rw [heq]
      exact he.2
  · intro _ m hm out' hout hid'
    obtain ⟨hm, hne⟩ := old hm hout
    rw [hmap, mem_eraseRequest]
    exact ⟨h.registered hstate m hm out' hout hid', hne⟩
  · intro out' id hid' hwait
    have hne : id ≠ requestId ∧ s.Awaits out' id := by
      rcases hwait with hmem' | ⟨m, hm, hout, rfl⟩
      · rw [hmap, mem_eraseRequest] at hmem'
        exact ⟨hmem'.2, .inl hmem'.1⟩
      · obtain ⟨hm, hne⟩ := old hm hout
        exact ⟨hne, .inr ⟨m, hm, hout, rfl⟩⟩
    rw [haccepted, hnew hne.1]
    exact h.awaiting hid' hne.2
  · intro out' id hid' hwait
    rw [haccepted]
    by_cases hsame : (out', id) = (out, requestId)
    · cases hsame
      rw [h.awaiting hid (.inl hmem), hcompletions, count_append, count_singleton_self]
    · have hnot : ¬ s.Awaits out' id := by
        intro hs
        have hmem' := (h.awaits_iff hstate hid').mp hs
        by_cases hkey : id = requestId
        · subst hkey
          have heq := hordered.eq_of_key hmem' hmem rfl
          cases heq
          exact hsame rfl
        · exact hwait (.inl (by rw [hmap, mem_eraseRequest]; exact ⟨hmem', hkey⟩))
      rw [h.completed hid' hnot, hcompletions, count_append, count_singleton,
        if_neg (by simpa using Ne.symm hsame)]
      omega

end Accounted

/-! ### Accepted requests -/

theorem Accepted.accounted {r : OutgoingRequest ρ} (ha : Accepted r s s') (h : Accounted s)
    (hids : IdsInOrder s) (hfresh : FreshRequest s (.sendAsyncRequest r)) : Accounted s' := by
  have hclosed : s.state < .closed := (ha.not_closing hids).trans (by decide)
  have hcompletions := ha.calls_eq.1
  have hmap := ha.asyncRequests
  have haccepted := ha.accepted
  have hdistinct (hm : ∀ m ∈ s.sendStreams, m.requestId ≠ 0 → m.requestId ≠ (r.ids s).1) :
      Distinct s'.sendStreams := by
    rcases ha.queue with ⟨hqueue, -⟩ | ⟨hqueue, -⟩
    · rw [hqueue]
      exact h.distinct.append hm
    · rw [hqueue]
      exact h.distinct
  cases hresponse : r.response with
  | false =>
    simp only [hresponse, Bool.false_eq_true, if_false] at hmap haccepted
    have hzero : (r.ids s).1 = 0 := by simp [OutgoingRequest.ids, hresponse]
    refine h.keep hmap haccepted (fun _ => by rw [hcompletions]) (hdistinct ?_) ?_ ?_ ?_
    · rw [hzero]
      exact fun _ _ hid => hid
    · intro m hm
      rcases ha.mem_queue hm with hm | rfl
      · exact .inl hm
      · exact .inr hzero
    · rw [ha.state]
      exact id
    · intro out requestId hid hqueues
      left
      rw [hmap]
      exact (h.awaits_iff hclosed hid).mp (.inr hqueues)
  | true =>
    obtain ⟨hmapFresh, hqueueFresh⟩ := hfresh hresponse
    simp only [hresponse, if_true] at hmap haccepted
    have hmem (e : Int × ρ) :
        e ∈ s'.asyncRequests ↔ e = ((r.ids s).1, r.out) ∨ e ∈ s.asyncRequests := by
      rw [hmap, (insertRequest_perm r.out fun e he => (hmapFresh e he).1).mem_iff, mem_cons]
    have hnew (requestId : Int) : ¬ s.Awaits r.out requestId := by
      rintro (hmem | ⟨m, hm, hout, -⟩)
      · exact (hmapFresh _ hmem).2 rfl
      · exact (hqueueFresh m hm).2 hout
    have hawaits {out : ρ} {requestId : Int} (hne : (out, requestId) ≠ (r.out, (r.ids s).1)) :
        s'.Awaits out requestId ↔ s.Awaits out requestId := by
      constructor
      · rintro (hreg | ⟨m, hm, hout, rfl⟩)
        · rcases (hmem _).mp hreg with heq | hreg
          · cases heq
            exact absurd rfl hne
          · exact .inl hreg
        · rcases ha.mem_queue hm with hm | rfl
          · exact .inr ⟨m, hm, hout, rfl⟩
          · cases hout
            exact absurd rfl hne
      · rintro (hreg | ⟨m, hm, hout, rfl⟩)
        · exact .inl ((hmem _).mpr (.inr hreg))
        · right
          rcases ha.queue with ⟨hqueue, -⟩ | ⟨hqueue, -⟩
          · exact ⟨m, hqueue ▸ mem_append_left _ hm, hout, rfl⟩
          · exact ⟨m, hqueue ▸ hm, hout, rfl⟩
    have hcount {out : ρ} {requestId : Int} (hne : (out, requestId) ≠ (r.out, (r.ids s).1)) :
        s'.accepted.count (out, requestId) = s.accepted.count (out, requestId) := by
      rw [haccepted, count_append, count_singleton, if_neg (by simpa using Ne.symm hne)]
      omega
    refine ⟨hdistinct fun m hm _ => (hqueueFresh m hm).1, ?_, ?_, ?_, ?_⟩
    · intro m hm hnone hid e he
      rcases ha.mem_queue hm with hm | rfl
      · rcases (hmem e).mp he with rfl | he
        · exact (hqueueFresh m hm).1.symm
        · exact h.canceled m hm hnone hid e he
      · cases hnone
    · intro hstate m hm out hout hid
      rcases ha.mem_queue hm with hm | rfl
      · exact (hmem _).mpr (.inr (h.registered hclosed m hm out hout hid))
      · cases hout
        exact (hmem _).mpr (.inl rfl)
    · intro out requestId hid hwait
      rw [hcompletions]
      by_cases hsame : (out, requestId) = (r.out, (r.ids s).1)
      · cases hsame
        rw [haccepted, count_append, count_singleton_self, h.completed hid (hnew _)]
      · rw [hcount hsame]
        exact h.awaiting hid ((hawaits hsame).mp hwait)
    · intro out requestId hid hwait
      have hne : (out, requestId) ≠ (r.out, (r.ids s).1) := by
        rintro heq
        cases heq
        exact hwait (.inl ((hmem _).mpr (.inl rfl)))
      rw [hcompletions, hcount hne]
      exact h.completed hid fun hs => hwait ((hawaits hne).mpr hs)

/-! ### Canceled requests -/

omit [DecidableEq ρ] in
/-- What is left in the queue behind the cancellation of the message at position `i`. -/
theorem mem_of_unqueue {i : Nat} {m' : OutgoingMessage ρ} (hm : s.sendStreams[i]? = some m)
    (h : m' ∈ (unqueue i s).sendStreams) :
    m' = { m with outAsync := none } ∨ m' ∈ s.sendStreams.eraseIdx i := by
  simp only [unqueue] at h
  split at h
  · next hi =>
    subst hi
    cases hqueue : s.sendStreams with
    | nil =>
      rw [hqueue] at hm
      cases hm
    | cons front rest =>
      rw [hqueue] at h hm
      cases hm
      rw [modify_zero_cons] at h
      exact mem_cons.mp h
  · exact .inr h

omit [DecidableEq ρ] in
theorem Distinct.unqueue (h : Distinct s.sendStreams) (i : Nat) :
    Distinct (unqueue i s).sendStreams := by
  simp only [Connection.unqueue]
  split
  · cases hqueue : s.sendStreams with
    | nil => exact List.Pairwise.nil
    | cons front rest =>
      rw [hqueue] at h
      rw [modify_zero_cons]
      obtain ⟨hfront, hrest⟩ := pairwise_cons.mp h
      exact pairwise_cons.mpr ⟨hfront, hrest⟩
  · exact h.sublist (eraseIdx_sublist _ _)

omit [DecidableEq ρ] in
/-- No other message has the ID of the request at position `i`. -/
theorem Distinct.eraseIdx {i : Nat} {m' : OutgoingMessage ρ} (h : Distinct queue)
    (hm : queue[i]? = some m)
    (hid : m.requestId ≠ 0) (hm' : m' ∈ queue.eraseIdx i) : m'.requestId ≠ m.requestId := by
  induction queue generalizing i with
  | nil => cases hm
  | cons front rest ih =>
    obtain ⟨hfront, hrest⟩ := pairwise_cons.mp h
    cases i with
    | zero =>
      cases hm
      exact (hfront m' hm' hid).symm
    | succ i =>
      rw [eraseIdx_cons_succ] at hm'
      rcases mem_cons.mp hm' with rfl | hm'
      · intro heq
        exact hfront m (mem_of_getElem? hm) (heq ▸ hid) heq
      · exact ih hrest hm hm'

theorem Accounted.cancelQueued {i : Nat} (h : Accounted s) (hreg : Registered s)
    (hstate : s.state < .closed) (hm : s.sendStreams[i]? = some m) (hout : m.outAsync = some out)
    (ex : LocalException) : Accounted ((unqueue i (forgetQueued out m.requestId s)).call
      (.exception out m.requestId ex)) := by
  have hmem := mem_of_getElem? hm
  have hm1 : (forgetQueued out m.requestId s).sendStreams[i]? = some m := by
    rw [sendStreams_forgetQueued]
    exact hm
  have hdistinct : Distinct (unqueue i (forgetQueued out m.requestId s)).sendStreams := by
    refine Distinct.unqueue ?_ i
    rw [sendStreams_forgetQueued]
    exact h.distinct
  have hcompletions : ((unqueue i (forgetQueued out m.requestId s)).call
      (.exception out m.requestId ex)).completions = s.completions ++ [(out, m.requestId)] := by
    rw [completions_exception]
    simp [completions, unqueue, forgetQueued, apply_ite calls]
  have haccepted : (forgetQueued out m.requestId s).accepted = s.accepted := by
    simp [forgetQueued, apply_ite accepted]
  have hleft {m' : OutgoingMessage ρ}
      (h' : m' ∈ (unqueue i (forgetQueued out m.requestId s)).sendStreams) :
      m' = { m with outAsync := none } ∨ m' ∈ s.sendStreams.eraseIdx i := by
    have hmem' := mem_of_unqueue hm1 h'
    rwa [sendStreams_forgetQueued] at hmem'
  by_cases hid : m.requestId = 0
  · refine h.keep ?_ haccepted ?_ hdistinct ?_ (fun _ => hstate) ?_
    · simp [forgetQueued, hid, call, unqueue]
    · intro out' requestId hne
      rw [hcompletions, count_append, count_singleton, if_neg (by simp [hid, hne.symm])]
      omega
    · intro m' hm'
      rcases hleft hm' with rfl | hm'
      · exact .inr hid
      · exact .inl (mem_of_mem_eraseIdx hm')
    · intro out' requestId hne hqueues
      left
      have hreg := (h.awaits_iff hstate hne).mp (.inr hqueues)
      simpa [forgetQueued, hid, call, unqueue] using hreg
  · refine h.complete hreg.ordered hstate (h.registered hstate m hmem out hout hid) hid
      (forgetQueued_eq hreg hstate hmem hout hid).1 haccepted hcompletions hdistinct ?_ ?_
    · intro m' hm'
      rcases hleft hm' with rfl | hm'
      · exact .inr ⟨rfl, .inr rfl⟩
      · exact .inl (mem_of_mem_eraseIdx hm')
    · intro m' hm' heq
      rcases hleft hm' with rfl | hm'
      · rfl
      · exact absurd heq (h.distinct.eraseIdx hm hid hm')

/-- The connection is closed, and the request is completed by `finish`. -/
theorem Accounted.abortQueued (h : Accounted s) (hreg : Registered s) (hstate : s.state < .closed)
    (hm : m ∈ s.sendStreams) (hout : m.outAsync = some out)
    (hp : Proceeds (forgetQueued out m.requestId s) s')
    (hclosed : .closed ≤ s'.state) (hqueue : s'.sendStreams = s.sendStreams) : Accounted s' := by
  have haccepted : s'.accepted = s.accepted := by
    rw [hp.accepted]
    simp [forgetQueued, apply_ite accepted]
  have hcompletions : s'.completions = s.completions := by
    rw [hp.completions]
    simp [completions, forgetQueued, apply_ite calls]
  have hsub : ∀ e ∈ s'.asyncRequests, e ∈ s.asyncRequests := by
    intro e he
    rw [hp.asyncRequests] at he
    exact (forgetQueued_sublist _ _).mem he
  have hawaits {out' : ρ} {requestId : Int} :
      s'.Awaits out' requestId ↔ s.Awaits out' requestId := by
    simp only [ConnectionI.Awaits, ConnectionI.Queues, hqueue]
    constructor
    · exact Or.imp_left (hsub _)
    · rintro (hmem | hqueues)
      · by_cases hid : m.requestId = 0
        · left
          rw [hp.asyncRequests, forgetQueued, if_pos hid]
          exact hmem
        · by_cases hkey : requestId = m.requestId
          · -- only the message itself has its ID
            have heq := (hreg.queued m hm out hout hid _ hmem).mp hkey
            exact .inr ⟨m, hm, by rw [hout, ← heq], hkey.symm⟩
          · left
            rw [hp.asyncRequests, (forgetQueued_eq hreg hstate hm hout hid).1]
            exact mem_eraseRequest.mpr ⟨hmem, hkey⟩
      · exact .inr hqueues
  refine ⟨hqueue ▸ h.distinct, ?_, ?_, ?_, ?_⟩
  · intro m' hm' hnone hid e he
    exact h.canceled m' (hqueue ▸ hm') hnone hid e (hsub e he)
  · intro hlt
    exact absurd hclosed (not_le_of_gt hlt)
  · intro out' requestId hid hwait
    rw [haccepted, hcompletions]
    exact h.awaiting hid (hawaits.mp hwait)
  · intro out' requestId hid hwait
    rw [haccepted, hcompletions]
    exact h.completed hid fun hs => hwait (hawaits.mpr hs)

/-- A request that is found in the map, and is not queued, is canceled. -/
theorem Accounted.cancelRegistered {t : ConnectionI ρ}
    (h : Accounted s) (hreg : Registered s) (hstate : s.state < .closed)
    (hqueue : ∀ m ∈ s.sendStreams, m.outAsync ≠ some out)
    (hmem : (requestId, out) ∈ s.asyncRequests)
    (hmap : t.asyncRequests = eraseRequest requestId s.asyncRequests)
    (haccepted : t.accepted = s.accepted)
    (hcompletions : t.completions = s.completions ++ [(out, requestId)])
    (hsame : t.sendStreams = s.sendStreams) : Accounted t := by
  have hid : requestId ≠ 0 := (hreg.positive _ hmem).1.ne'
  refine h.complete hreg.ordered hstate hmem hid hmap haccepted hcompletions
    (hsame ▸ h.distinct) (fun m hm => .inl (hsame ▸ hm)) ?_
  intro m hm hkey
  rw [hsame] at hm
  cases hout : m.outAsync with
  | none => rfl
  | some out' =>
    have heq := (hreg.queued m hm out' hout (hkey ▸ hid) _ hmem).mp hkey.symm
    rw [← heq] at hout
    exact absurd hout (hqueue m hm)

/-! ### The end of the connection -/

omit [DecidableEq ρ] in
/-- `finish` takes those requests from the map whose messages are in the queue. -/
theorem mem_remainingRequests {es : List (Int × ρ)} {e : Int × ρ} : e ∈ remainingRequests queue es ↔
      e ∈ es ∧ ∀ m ∈ queue, m.requestId ≠ 0 → e.1 ≠ m.requestId := by
  induction queue generalizing es with
  | nil => simp [remainingRequests]
  | cons m queue ih =>
    have hcons : remainingRequests (m :: queue) es = remainingRequests queue
        (if m.requestId = 0 then es else eraseRequest m.requestId es) := rfl
    rw [hcons, ih]
    by_cases hid : m.requestId = 0
    · simp [hid]
    · simp [hid, and_assoc]

theorem count_remainingRequests_le (queue : List (OutgoingMessage ρ)) (es : List (Int × ρ))
    (e : Int × ρ) : (remainingRequests queue es).count e ≤ es.count e := by
  induction queue generalizing es with
  | nil => exact le_rfl
  | cons m queue ih =>
    refine (ih _).trans ?_
    dsimp only
    split
    · exact le_rfl
    · exact count_eraseRequest_le e _ es

/-- The requests that `finish` completes because their messages are queued. -/
def ConnectionI.queuedRequests (s : ConnectionI ρ) : List (ρ × Int) :=
  s.sendStreams.filterMap fun m => m.outAsync.map fun out => (out, m.requestId)

/-- The requests that `finish` completes because they are registered. -/
def ConnectionI.sentRequests (s : ConnectionI ρ) : List (ρ × Int) :=
  (remainingRequests s.sendStreams s.asyncRequests).map Prod.swap

omit [DecidableEq ρ] in
theorem completions_completeAll (s : ConnectionI ρ) :
    (switchState .finished (completeAll s)).completions =
      s.completions ++ (s.queuedRequests ++ s.sentRequests) := by
  have hqueued (ex : LocalException) (m : OutgoingMessage ρ) :
      (m.outAsync.map (Call.exception · m.requestId ex)).bind Call.completes =
        m.outAsync.map fun out => (out, m.requestId) := by
    cases m.outAsync <;> rfl
  have hsent (ex : LocalException) (es : List (Int × ρ)) :
      (es.map fun e => Call.exception e.2 e.1 ex).filterMap Call.completes = es.map Prod.swap := by
    induction es with
    | nil => rfl
    | cons e es ih =>
      rw [map_cons, map_cons, filterMap_cons, ih]
      rfl
  simp only [completions, queuedRequests, sentRequests,
    switchState, completeAll, filterMap_append, filterMap_filterMap, hqueued, hsent,
    append_assoc]

omit [DecidableEq ρ] in
theorem mem_queuedRequests : (out, requestId) ∈ s.queuedRequests ↔ s.Queues out requestId := by
  simp [queuedRequests, ConnectionI.Queues]

theorem count_queuedRequests_le (h : Distinct s.sendStreams) (out : ρ)
    (hid : requestId ≠ 0) : s.queuedRequests.count (out, requestId) ≤ 1 := by
  refine count_le_one (p := fun x => x.2 ≠ 0) hid (pairwise_filterMap.mpr (h.imp ?_))
  intro m m' hne x hx x' hx' hid' heq
  obtain ⟨_, -, rfl⟩ := Option.map_eq_some_iff.mp hx
  obtain ⟨_, -, rfl⟩ := Option.map_eq_some_iff.mp hx'
  exact hne hid' (congrArg Prod.snd heq)

omit [DecidableEq ρ] in
theorem mem_sentRequests : (out, requestId) ∈ s.sentRequests ↔ (requestId, out) ∈ s.asyncRequests ∧
      ∀ m ∈ s.sendStreams, m.requestId ≠ 0 → requestId ≠ m.requestId := by
  rw [sentRequests, mem_map_swap]
  exact mem_remainingRequests

theorem count_sentRequests_le (h : Ordered s.asyncRequests) (out : ρ) (requestId : Int) :
    s.sentRequests.count (out, requestId) ≤ 1 := by
  have hswap := count_map_of_injective (remainingRequests s.sendStreams s.asyncRequests)
    Prod.swap Prod.swap_injective (requestId, out)
  have hle := count_remainingRequests_le s.sendStreams s.asyncRequests (requestId, out)
  have hone := nodup_iff_count_le_one.mp h.nodup (requestId, out)
  rw [sentRequests, show (out, requestId) = Prod.swap (requestId, out) from rfl, hswap]
  omega

/-- `finish` completes each request that waits, once. -/
theorem Accounted.count_last (h : Accounted s) (hreg : Registered s) (out : ρ)
    (hid : requestId ≠ 0) :
    s.Awaits out requestId ∧ (s.queuedRequests ++ s.sentRequests).count (out, requestId) = 1 ∨
      ¬ s.Awaits out requestId ∧
        (s.queuedRequests ++ s.sentRequests).count (out, requestId) = 0 := by
  have hqueued := count_queuedRequests_le h.distinct out hid
  have hsent := count_sentRequests_le hreg.ordered out requestId
  rw [count_append]
  by_cases hqueues : s.Queues out requestId
  · left
    have hpos := count_pos_iff.mpr (mem_queuedRequests.mpr hqueues)
    have hzero : s.sentRequests.count (out, requestId) = 0 := by
      refine count_eq_zero.mpr fun hmem => ?_
      obtain ⟨m, hm, -, rfl⟩ := hqueues
      exact (mem_sentRequests.mp hmem).2 m hm hid rfl
    exact ⟨.inr hqueues, by omega⟩
  · have hzero : s.queuedRequests.count (out, requestId) = 0 :=
      count_eq_zero.mpr fun hmem => hqueues (mem_queuedRequests.mp hmem)
    by_cases hmem : (requestId, out) ∈ s.asyncRequests
    · left
      have hsentMem : (out, requestId) ∈ s.sentRequests := by
        refine mem_sentRequests.mpr ⟨hmem, fun m hm hne heq => ?_⟩
        cases hout : m.outAsync with
        | none => exact h.canceled m hm hout hne _ hmem heq
        | some out' =>
          have hsame := (hreg.queued m hm out' hout hne _ hmem).mp heq
          exact hqueues ⟨m, hm, by rw [hout, ← hsame], heq.symm⟩
      have hpos := count_pos_iff.mpr hsentMem
      exact ⟨.inl hmem, by omega⟩
    · right
      have hzero' : s.sentRequests.count (out, requestId) = 0 :=
        count_eq_zero.mpr fun h => hmem (mem_sentRequests.mp h).1
      exact ⟨fun hs => hs.elim hmem hqueues, by omega⟩

theorem Accounted.finish (h : Accounted s) (hreg : Registered s) :
    Accounted (switchState .finished (completeAll s)) := by
  refine ⟨List.Pairwise.nil, fun _ hm => (by cases hm), fun _ _ hm => (by cases hm), ?_, ?_⟩
  · rintro out requestId _ (hmem | ⟨m, hm, -⟩)
    · cases hmem
    · cases hm
  · intro out requestId hid _
    rw [completions_completeAll, count_append]
    change s.accepted.count _ = _
    rcases h.count_last hreg out hid with ⟨hwait, hcount⟩ | ⟨hwait, hcount⟩
    · rw [h.awaiting hid hwait, hcount]
    · rw [h.completed hid hwait, hcount, Nat.add_zero]

end Accounted

/-! ## Every run -/

section Runs

variable [DecidableEq ρ]

/-- The messages of the queue that the running call of `message` has not written completely. -/
def ConnectionI.unwritten (s : ConnectionI ρ) : List (OutgoingMessage ρ) :=
  match s.phase with
  | .reading operation writeOp =>
    if operation.write = true ∧ writeOp.write = false ∧ s.writeStream.i ≠ 0
    then s.sendStreams.tail else s.sendStreams
  | _ => s.sendStreams

/-- No reply is received for a request that has not been written, and request IDs are not used
    again while they are in use. -/
def Orderly (s : ConnectionI ρ) : Event ρ → Prop
  | .endMessage _ => ∀ m ∈ s.unwritten, m.outAsync.isSome = true →
    s.completesReply ≠ some m.requestId
  | e => FreshRequest s e

instance (s : ConnectionI ρ) (e : Event ρ) : Decidable (Orderly s e) :=
  match e with
  | .endMessage _ => inferInstanceAs (Decidable (∀ m ∈ _, _ → _))
  | .sendAsyncRequest _ => inferInstanceAs (Decidable (_ → _))
  | .network .. | .startAsync _ | .activate | .hold | .destroy _ | .abort | .close
  | .asyncRequestCanceled .. | .select _ | .beginMessage | .dispatch _ | .dispatchException ..
  | .upcallCompleted _ | .sendResponse .. | .finish | .idleCheck | .inactivityCheck
  | .connectTimedOut | .closeTimedOut | .sendHeartbeat => .isTrue trivial

omit [DecidableEq ρ] in
theorem Orderly.fresh (h : Orderly s e) : FreshRequest s e := by
  cases e with
  | endMessage => trivial
  | _ => exact h

omit [DecidableEq ρ] in
theorem Replied.shrinks {e : Int × ρ}
    (hr : Replied answers s s' requestId e) : Shrinks s.sendStreams s'.sendStreams := by
  obtain ⟨s1, h1, result, -, h2, -⟩ := hr.delivered
  exact h1.queue.trans h2.queue

/-- The request that a reply was for is not in the queue any more. -/
theorem Replied.not_queued {e : Int × ρ}
    (hr : Replied answers s s' requestId e) (hafter : (Event.endMessage answers).after s = s')
    (hbased : Based s) (henabled : Enabled s (.endMessage answers))
    (hok : Orderly s (.endMessage answers)) {m : OutgoingMessage ρ} (hm : m ∈ s'.sendStreams)
    (hkey : m.requestId = requestId) : m.outAsync = none := by
  by_contra hsome
  obtain ⟨operation, writeOp, s1, hphase, hread, hmessage⟩ := reads_of_completesReply hr.completes
  have hmem : m ∈ s.sendStreams := (hr.shrinks.mem hm).resolve_right fun hn => hsome hn.1
  have hwritten : m ∉ s.unwritten := by
    intro hunwritten
    refine hok m hunwritten (Option.isSome_iff_ne_none.mpr hsome) ?_
    rw [hkey]
    exact hr.completes
  by_cases hdone : operation.write = true ∧ writeOp.write = false ∧ s.writeStream.i ≠ 0
  · -- it is the front of the queue, which `message` takes off
    have hpops : Shrinks s.sendStreams.tail s'.sendStreams := by
      rw [← hafter]
      refine after_endMessage (P := fun s' => Shrinks s.sendStreams.tail s'.sendStreams)
        (E := fun _ _ => False) henabled fun hphase' => ?_
      rw [hphase] at hphase'
      cases hphase'
      exact endMessage_pops (hbased.validated (.inr (.inr (ne_nil_of_mem hmem))))
        (hbased.writeOp hphase) hread hmessage hdone.1 hdone.2.1 (ne_nil_of_mem hmem) hdone.2.2
    have htail : m ∈ s.sendStreams.tail := (hpops.mem hm).resolve_right fun hn => hsome hn.1
    refine hwritten ?_
    simp only [unwritten, hphase, if_pos hdone]
    exact htail
  · refine hwritten ?_
    simp only [unwritten, hphase, hdone, if_false]
    exact hmem

theorem Replied.accounted {e : Int × ρ}
    (hr : Replied answers s s' requestId e) (hafter : (Event.endMessage answers).after s = s')
    (hbased : Based s) (henabled : Enabled s (.endMessage answers))
    (hok : Orderly s (.endMessage answers)) (hreg : Registered s) (h : Accounted s) :
    Accounted s' := by
  obtain ⟨operation, writeOp, s0, hphase, -⟩ := reads_of_completesReply hr.completes
  obtain ⟨s1, h1, result, hfind, h2, -⟩ := hr.delivered
  obtain ⟨hmem, rfl⟩ := mem_of_findReply hfind
  rw [h1.asyncRequests] at hmem
  refine h.complete hreg.ordered (hbased.notClosed hphase) hmem (hreg.positive _ hmem).1.ne'
    ?_ ?_ ?_ (h.distinct.shrinks hr.shrinks) ?_ ?_
  · rw [h2.asyncRequests]
    change eraseRequest e.1 s1.asyncRequests = _
    rw [h1.asyncRequests]
  · rw [h2.accepted]
    exact h1.accepted
  · rw [h2.completions, ← h1.completions]
    simp [completions, deliver, Call.completes]
  · intro m hm
    exact (hr.shrinks.mem hm).imp_right fun hn => ⟨hn.1, .inl hn.2⟩
  · intro m hm hkey
    exact hr.not_queued hafter hbased henabled hok hm hkey

theorem accounted_of_event (hbased : Based s) (henabled : Enabled s e)
    (hok : Orderly s e) (hids : IdsInOrder s) (hreg : Registered s) (h : Accounted s) :
    Accounted (e.after s) := by
  by_cases hfinish : e = .finish
  · subst hfinish
    rw [after_finish henabled.2]
    exact h.finish hreg
  have hfrozen := frozen_of_event hbased henabled hfinish
  have hchange := change_of_event hbased henabled
  generalize hafter : e.after s = s' at hchange hfrozen ⊢
  cases hchange with
  | proceeds hp => exact h.proceeds hp hfrozen
  | accepted ha => exact ha.accounted h hids hok.fresh
  | closeRequested _ _ hp | rejected hp _ =>
    refine Accounted.proceeds ?_ hp hfrozen
    exact { h with }
  | replied hr => exact hr.accounted hafter hbased henabled hok hreg h
  | canceledQueued hstate hm hout hp _ =>
    refine (h.cancelQueued hreg hstate hm hout _).proceeds hp (.of_open ?_)
    exact (state_forgetQueued _ _).trans_lt hstate
  | abortedQueued hstate hm hout hp hclosed hqueue =>
    exact h.abortQueued hreg hstate (mem_of_getElem? hm) hout hp hclosed hqueue
  | canceledHinted hstate hqueue hhint hp _ =>
    refine Accounted.proceeds ?_ hp (.of_open ?_)
    · exact h.cancelRegistered hreg hstate hqueue (mem_of_hintFor hhint) rfl rfl
        (completions_exception _ _ _) rfl
    · exact hstate
  | canceledFound hstate _ hlocate =>
    obtain ⟨hqueue, -, hmem⟩ := locate_found hlocate
    exact h.cancelRegistered hreg hstate hqueue hmem rfl rfl (completions_exception _ _ _) rfl
  | finished => exact absurd rfl hfinish

/-- A connection that is finished has nothing left. -/
def Emptied (s : ConnectionI ρ) : Prop :=
  s.state = .finished → s.asyncRequests = [] ∧ s.sendStreams = []

/-- Only `finish` finishes a connection, and then no request is accepted or completed. -/
theorem Change.finished_before (hchange : Change e s s') (hfinish : e ≠ .finish)
    (hids : IdsInOrder s) (hbased : Based s) (h : s'.state = .finished) :
    s.state = .finished ∧ s'.asyncRequests = s.asyncRequests := by
  have impossible {t : State} {P : Prop} (hstate : s.state < t) (ht : t ≤ .closed)
      (hs : s.state = .finished) : P := by
    rw [hs] at hstate
    exact absurd (hstate.trans_le ht) (by decide)
  cases hchange with
  | proceeds hp | rejected hp _ => exact ⟨hp.finished h, hp.asyncRequests⟩
  | closeRequested hstate _ hp => exact impossible hstate (by decide) (hp.finished h)
  | accepted ha => exact impossible (ha.not_closing hids) (by decide) (ha.state ▸ h)
  | replied hr =>
    obtain ⟨operation, writeOp, s0, hphase, -⟩ := reads_of_completesReply hr.completes
    obtain ⟨s1, h1, result, hfind, h2, -⟩ := hr.delivered
    exact impossible (hbased.notClosed hphase) le_rfl (h1.finished (h2.finished h))
  | canceledQueued hstate _ _ hp _ | abortedQueued hstate _ _ hp _ _ =>
    exact impossible hstate le_rfl ((state_forgetQueued _ _).symm.trans (hp.finished h))
  | canceledHinted hstate _ _ hp _ => exact impossible hstate le_rfl (hp.finished h)
  | canceledFound hstate _ _ => exact impossible hstate le_rfl h
  | finished => exact absurd rfl hfinish

theorem emptied_of_event (hbased : Based s) (henabled : Enabled s e)
    (hids : IdsInOrder s) (h : Emptied s) : Emptied (e.after s) := by
  intro hstate
  by_cases hfinish : e = .finish
  · subst hfinish
    rw [after_finish henabled.2]
    exact ⟨rfl, rfl⟩
  · obtain ⟨hs, hmap⟩ := (change_of_event hbased henabled).finished_before hfinish hids
      hbased hstate
    obtain ⟨-, hqueue⟩ := frozen_of_event hbased henabled hfinish (hs.ge.trans' (by decide))
    rw [hmap, hqueue]
    exact h hs

theorem reachable_accounted (h : Reachable Orderly s) : Accounted s ∧ Emptied s := by
  have hinv : Based s ∧ IdsInOrder s ∧ Registered s ∧ Accounted s ∧ Emptied s := by
    refine h.induct_shift (I := fun s => IdsInOrder s ∧ Registered s ∧ Accounted s ∧
      Emptied s) ?_ ?_
    · intro o
      refine ⟨.create o, .create o, ⟨List.Pairwise.nil, ?_, ?_, ?_, ?_⟩, fun _ => ⟨rfl, rfl⟩⟩
      · exact fun _ hm => by cases hm
      · exact fun _ _ hm => by cases hm
      · rintro out requestId _ (hmem | ⟨m, hm, -⟩)
        · cases hmem
        · cases hm
      · exact fun _ _ => rfl
    · rintro s e hbased henabled hok - ⟨hids, hreg, haccounted, hemptied⟩
      have hchange := change_of_event hbased henabled
      exact ⟨hchange.idsInOrder hids, hchange.registered hok.fresh hids hreg,
        accounted_of_event hbased henabled hok hids hreg haccounted,
        emptied_of_event hbased henabled hids hemptied⟩
  exact hinv.2.2.2

/-- A twoway request is completed at most once, and exactly once when the connection is finished.
    The counts are those of an invocation and a request ID, as IDs are used again. -/
theorem requests_completed_once (h : Reachable Orderly s) (out : ρ) {requestId : Int}
    (hid : requestId ≠ 0) :
    s.completions.count (out, requestId) ≤ s.accepted.count (out, requestId) ∧
      (s.state = .finished →
        s.completions.count (out, requestId) = s.accepted.count (out, requestId)) := by
  obtain ⟨haccounted, hemptied⟩ := reachable_accounted h
  constructor
  · by_cases hwait : s.Awaits out requestId
    · have := haccounted.awaiting hid hwait
      omega
    · exact (haccounted.completed hid hwait).ge
  · intro hstate
    obtain ⟨hmap, hqueue⟩ := hemptied hstate
    refine (haccounted.completed hid ?_).symm
    rintro (hmem | ⟨m, hm, -⟩)
    · rw [hmap] at hmem
      cases hmem
    · rw [hqueue] at hm
      cases hm

omit [Bzip2] in
/-- A request whose reply does not arrive is completed by `finish`. -/
theorem requests_completed_once_aborted :
    ∃ (_ : Bzip2) (s : ConnectionI Nat), Reachable Orderly s ∧ s.state = .finished ∧
      s.accepted.count (1, 1) = 1 ∧ s.completions.count (1, 1) = 1 := by
  let _ : Bzip2 := .absent
  obtain ⟨s, hs, hstate, haccepted⟩ := reachable_of_runEvents Orderly {}
    (opening ++ [.sendAsyncRequest { out := 1 }, .abort, .finish])
    (P := fun s => s.state = .finished ∧ s.accepted = [(1, 1)]) (by decide +kernel)
  have hcount : s.accepted.count (1, 1) = 1 := by
    rw [haccepted]
    rfl
  have hcompleted := (requests_completed_once hs 1 (show (1 : Int) ≠ 0 by decide)).2 hstate
  exact ⟨.absent, s, hs, hstate, hcount, hcompleted.trans hcount⟩

omit [Bzip2] in
/-- The peer replies to a request of which five bytes have been written, and then the connection is
    closed: the invocation is given the reply and an exception. -/
theorem request_completed_twice :
    ∃ (_ : Bzip2) (s : ConnectionI Nat), Reachable (fun _ _ => True) s ∧ s.state = .finished ∧
      s.accepted = [(1, 1)] ∧ s.completions = [(1, 1), (1, 1)] := by
  let _ : Bzip2 := .absent
  let reply := header MessageType.reply.code 0 19 ++ encodeInt32 1 ++ [0]
  obtain ⟨s, hs, hP⟩ := reachable_of_runEvents (fun _ _ => True) {}
    (opening ++ [.network [] 5 none none (.ok .none), .sendAsyncRequest { out := 1 },
      .network reply 0 none none (.ok .none), .select .readOp, .beginMessage,
      .endMessage ⟨fun _ => false, fun _ => false⟩, .abort, .finish])
    (P := fun s => s.state = .finished ∧ s.accepted = [(1, 1)] ∧
      s.completions = [(1, 1), (1, 1)]) (by decide +kernel)
  exact ⟨.absent, s, hs, hP⟩

end Runs

end Ice.Connection
