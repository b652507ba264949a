import Ice.Batch.BatchRequestQueue

/-!
# Batch requests are neither lost nor mixed

The stream is either in the queue or with the one thread that holds it. A thread that aborts a
request without holding the stream takes it away from the thread that does; if that does not happen,
every batch is made of complete requests.
-/

namespace Ice.Batch

open BatchRequestQueue

/-! ## The operations on a stream of requests -/

@[simp] theorem packed_nil : packed [] = requestBatchHdr := by
  simp [packed]

theorem packed_snoc (rest : List Bytes) (request : Bytes) :
    packed (rest ++ [request]) = packed rest ++ request := by
  simp [packed]

theorem resize_append (stream tail : Bytes) : resize (stream ++ tail) stream.length = stream := by
  simp [resize]

/-- The bookkeeping of the queue says where the requests end. -/
structure Booked (q : BatchRequestQueue) (rest : List Bytes) : Prop where
  num : q.batchRequestNum = rest.length
  marker : q.batchMarker = (packed rest).length

variable {q : BatchRequestQueue} {rest : List Bytes} {request : Bytes}

theorem Booked.enqueue (h : Booked q rest) (hstream : q.batchStream = packed rest ++ request)
    (compress : Option Bool) :
    Booked (q.enqueueBatchRequest compress) (rest ++ [request]) where
  num := by simp [enqueueBatchRequest, h.num]
  marker := by simp [enqueueBatchRequest, packed_snoc, hstream]

theorem Booked.resize (h : Booked q rest) (tail : Bytes) :
    resize (packed rest ++ tail) q.batchMarker = packed rest := by
  rw [h.marker, resize_append]

/-- A swap returns all the requests and keeps what comes after them. -/
theorem Booked.swap {tail : Bytes} (h : Booked q rest)
    (hstream : q.batchStream = packed rest ++ tail) :
    (q.swap = (q, none)) ∨
    (∃ q' compress, q.swap = (q', some (packed rest, rest.length, compress)) ∧ Booked q' [] ∧
      q'.batchStream = packed [] ++ tail ∧ q'.batchStreamInUse = q.batchStreamInUse ∧
      q'.batchStreamOwnerId = q.batchStreamOwnerId) := by
  by_cases hnum : q.batchRequestNum = 0
  · left
    simp [BatchRequestQueue.swap, hnum]
  · right
    have hdrop : q.batchStream.drop q.batchMarker = tail := by
      rw [hstream, h.marker, List.drop_left]
    have htake : q.batchStream.take q.batchMarker = packed rest := by
      rw [hstream, h.marker, List.take_left]
    refine ⟨{ q with
        batchStream := requestBatchHdr ++ tail, batchMarker := requestBatchHdr.length,
        batchRequestNum := 0, batchCompress := false },
      q.batchCompress, ?_, ⟨rfl, ?_⟩, ?_, rfl, rfl⟩
    · have hrest : rest.length ≠ 0 := by rwa [← h.num]
      simp only [BatchRequestQueue.swap, htake, hdrop, h.num, hrest, if_false]
    · simp
    · simp

/-! ## Who has the stream -/

/-- What the thread that holds the stream has, and what is left in the queue. -/
def HeldBy (q : BatchRequestQueue) (rest : List Bytes) (t : Nat) : Thread → Prop
  | .idle | .waiting _ => False
  | .marshaling os request _ =>
    os = packed rest ++ request ∧ q.batchStream = [] ∧ q.batchStreamOwnerId = none
  | .finishing os request _ stage =>
    os = [] ∧ q.batchStreamOwnerId = some t ∧
      q.batchStream = packed rest ++ if stage = .enqueued then [] else request
  | .failed os holds =>
    holds = true ∧ (∃ tail, os = packed rest ++ tail) ∧ q.batchStream = [] ∧
      q.batchStreamOwnerId = none

/-- The stream is in the queue, or with one thread. -/
def Owned (s : State) (rest : List Bytes) : Prop :=
  (s.queue.batchStreamInUse = false ∧ s.queue.batchStreamOwnerId = none ∧
    s.queue.batchStream = packed rest ∧ ∀ t, (s.threads t).holds = false) ∨
  ∃ t, s.queue.batchStreamInUse = true ∧ (∀ u, (s.threads u).holds = true → u = t) ∧
    HeldBy s.queue rest t (s.threads t)

/-- What holds in every state that is reached with careful steps. -/
def Kept (s : State) : Prop :=
  ∃ rest, Accounted s rest ∧ Booked s.queue rest ∧ Owned s rest

variable {t : Nat} {thread : Thread}

theorem HeldBy.holds (h : HeldBy q rest t thread) : thread.holds = true := by
  cases thread with
  | idle | waiting _ => exact h.elim
  | marshaling os request compress => rfl
  | finishing os request compress stage => rfl
  | failed os holds => exact h.1

variable {s : State}

/-- A thread that holds the stream is the one that has it. -/
theorem Owned.heldBy (h : Owned s rest) (ht : (s.threads t).holds = true) :
    s.queue.batchStreamInUse = true ∧ (∀ u, (s.threads u).holds = true → u = t) ∧
      HeldBy s.queue rest t (s.threads t) := by
  rcases h with ⟨-, -, -, hnone⟩ | ⟨u, huse, hone, hheld⟩
  · rw [hnone t] at ht
    cases ht
  · obtain rfl := hone t ht
    exact ⟨huse, hone, hheld⟩

theorem Kept.heldBy (h : Kept s) (ht : s.threads t = thread) (hholds : thread.holds = true) :
    ∃ rest, Accounted s rest ∧ Booked s.queue rest ∧ s.queue.batchStreamInUse = true ∧
      (∀ u, u ≠ t → (s.threads u).holds = false) ∧ HeldBy s.queue rest t thread := by
  obtain ⟨rest, haccounted, hbooked, howned⟩ := h
  subst ht
  obtain ⟨huse, hone, hheld⟩ := howned.heldBy hholds
  refine ⟨rest, haccounted, hbooked, huse, ?_, hheld⟩
  intro u hne
  by_contra hu
  rw [Bool.not_eq_false] at hu
  exact hne (hone u hu)

@[simp] theorem setThread_queue (s : State) (t : Nat) (thread : Thread) :
    (s.setThread t thread).queue = s.queue := rfl

@[simp] theorem setThread_self (s : State) (t : Nat) (thread : Thread) :
    (s.setThread t thread).threads t = thread := Function.update_self ..

theorem setThread_of_ne (s : State) {u : Nat} (h : u ≠ t) (thread : Thread) :
    (s.setThread t thread).threads u = s.threads u := Function.update_of_ne h ..

/-- The holder goes on, and no other thread changes. -/
theorem Owned.update (huse : s.queue.batchStreamInUse = true)
    (hone : ∀ u, u ≠ t → (s.threads u).holds = false)
    (hheld : HeldBy s.queue rest t thread) : Owned (s.setThread t thread) rest := by
  refine Or.inr ⟨t, huse, ?_, by simpa using hheld⟩
  intro u hu
  by_contra hne
  rw [setThread_of_ne s hne, hone u hne] at hu
  cases hu

theorem Owned.release (huse : s.queue.batchStreamInUse = false)
    (howner : s.queue.batchStreamOwnerId = none)
    (hstream : s.queue.batchStream = packed rest) (hone : ∀ u, u ≠ t → (s.threads u).holds = false)
    (hthread : thread.holds = false) : Owned (s.setThread t thread) rest := by
  refine Or.inl ⟨huse, howner, hstream, ?_⟩
  intro u
  by_cases hne : u = t
  · rw [hne, setThread_self, hthread]
  · rw [setThread_of_ne s hne, hone u hne]

/-- A thread that does not hold the stream does something else. -/
theorem Owned.setOther (h : Owned s rest) (ht : (s.threads t).holds = false)
    (hthread : thread.holds = false) :
    Owned (s.setThread t thread) rest := by
  rcases h with ⟨huse, howner, hstream, hnone⟩ | ⟨u, huse, hone, hheld⟩
  · exact Owned.release huse howner hstream (fun u _ => hnone u) hthread
  · have hne : u ≠ t := by
      rintro rfl
      rw [hheld.holds] at ht
      cases ht
    refine Or.inr ⟨u, huse, ?_, ?_⟩
    · intro v hv
      by_cases hvt : v = t
      · rw [hvt, setThread_self, hthread] at hv
        cases hv
      · rw [setThread_of_ne s hvt] at hv
        exact hone v hv
    · rwa [setThread_of_ne s hne]

/-! ## Swapping -/

/-- A swap of a stream that has the requests takes them out. -/
theorem swapQueue_spec (tail : Bytes) (haccounted : Accounted s rest)
    (hbooked : Booked s.queue rest) (hstream : s.queue.batchStream = packed rest ++ tail) :
    ∃ rest', Accounted s.swapQueue rest' ∧ Booked s.swapQueue.queue rest' ∧
      s.swapQueue.queue.batchStream = packed rest' ++ tail ∧
      s.swapQueue.queue.batchStreamInUse = s.queue.batchStreamInUse ∧
      s.swapQueue.queue.batchStreamOwnerId = s.queue.batchStreamOwnerId ∧
      s.swapQueue.threads = s.threads := by
  unfold State.swapQueue
  rcases hbooked.swap hstream with hswap | ⟨q, compress, hswap, hbooked', hstream', huse, howner⟩
  · rw [hswap]
    exact ⟨rest, haccounted, hbooked, hstream, rfl, rfl, rfl⟩
  · rw [hswap]
    refine ⟨[], ?_, hbooked', hstream', huse, howner, rfl⟩
    obtain ⟨batches, hswapped, henqueued⟩ := haccounted
    refine ⟨batches ++ [rest], ?_, ?_⟩
    · simp [hswapped]
    · simpa using henqueued

variable {os : Bytes} {compress : Option Bool}

theorem Kept.swapFinishing (h : Kept s) {stage : Stage}
    (ht : s.threads t = .finishing os request compress stage) :
    Kept s.swapQueue := by
  obtain ⟨rest, haccounted, hbooked, huse, hone, rfl, howner, hstream⟩ := h.heldBy ht rfl
  obtain ⟨rest', haccounted', hbooked', hstream', huse', howner', hthreads⟩ :=
    swapQueue_spec _ haccounted hbooked hstream
  refine ⟨rest', haccounted', hbooked', Or.inr ⟨t, huse'.trans huse, ?_, ?_⟩⟩
  · intro u hu
    by_contra hne
    rw [hthreads, hone u hne] at hu
    cases hu
  · rw [hthreads, ht]
    exact ⟨rfl, howner'.trans howner, hstream'⟩

theorem Kept.swapOutside (h : Kept s)
    (ht : ∀ os request compress stage, s.threads t ≠ .finishing os request compress stage)
    (hwait : s.queue.swapWaits t = false) : Kept s.swapQueue := by
  obtain ⟨rest, haccounted, hbooked, howned⟩ := h
  rcases howned with ⟨huse, howner, hstream, hnone⟩ | ⟨u, huse, hone, hheld⟩
  · obtain ⟨rest', haccounted', hbooked', hstream', huse', howner', hthreads⟩ :=
      swapQueue_spec [] haccounted hbooked (by rw [hstream, List.append_nil])
    refine ⟨rest', haccounted', hbooked', Or.inl ⟨huse'.trans huse, howner'.trans howner, ?_, ?_⟩⟩
    · rw [hstream', List.append_nil]
    · rwa [hthreads]
  · -- the stream is in use, so that the thread is its owner
    have howner : s.queue.batchStreamOwnerId = some t := by
      simpa [swapWaits, huse] using hwait
    cases hthread : s.threads u with
    | idle | waiting _ => rw [hthread] at hheld; exact hheld.elim
    | marshaling os request compress =>
      rw [hthread] at hheld
      rw [hheld.2.2] at howner
      cases howner
    | finishing os request compress stage =>
      rw [hthread] at hheld
      obtain rfl : u = t := Option.some.inj (hheld.2.1.symm.trans howner)
      exact absurd hthread (ht os request compress stage)
    | failed os holds =>
      rw [hthread] at hheld
      rw [hheld.2.2.2] at howner
      cases howner

/-! ## Steps -/

theorem Kept.create : Kept {} := by
  refine ⟨[], ⟨[], rfl, rfl⟩, ⟨rfl, by simp⟩, Or.inl ⟨rfl, rfl, by simp, fun _ => rfl⟩⟩

section

variable (h : Kept s)
include h

/-- A thread that holds nothing goes on without the stream. -/
theorem Kept.setOther (ht : (s.threads t).holds = false) (hthread : thread.holds = false) :
    Kept (s.setThread t thread) := by
  obtain ⟨rest, haccounted, hbooked, howned⟩ := h
  exact ⟨rest, haccounted, hbooked, howned.setOther ht hthread⟩

theorem Kept.take (huse : s.queue.batchStreamInUse = false) (compress : Option Bool) :
    Kept (s.take t compress) := by
  obtain ⟨rest, haccounted, hbooked, howned⟩ := h
  rcases howned with ⟨-, howner, hstream, hnone⟩ | ⟨u, huse', -, -⟩
  · refine ⟨rest, haccounted, ⟨hbooked.num, hbooked.marker⟩,
      Owned.update rfl (fun u _ => hnone u) ⟨?_, rfl, howner⟩⟩
    simpa [prepareBatchRequest] using hstream
  · rw [huse] at huse'
    cases huse'

/-- The holder writes, or stops writing. -/
theorem Kept.marshaling (ht : s.threads t = .marshaling os request compress)
    (hthread : ∀ rest, HeldBy s.queue rest t (.marshaling os request compress) →
      HeldBy s.queue rest t thread) :
    Kept (s.setThread t thread) := by
  obtain ⟨rest, haccounted, hbooked, huse, hone, hheld⟩ := h.heldBy ht rfl
  exact ⟨rest, haccounted, hbooked, Owned.update huse hone (hthread rest hheld)⟩

theorem Kept.beginFinish (ht : s.threads t = .marshaling os request compress) :
    Kept ({ s with queue := (s.queue.beginFinish os t).1 }.setThread t
      (.finishing (s.queue.beginFinish os t).2 request compress .autoFlush)) := by
  obtain ⟨rest, haccounted, hbooked, huse, hone, hos, hstream, howner⟩ := h.heldBy ht rfl
  exact ⟨rest, haccounted, ⟨hbooked.num, hbooked.marker⟩,
    Owned.update huse hone ⟨hstream, rfl, hos⟩⟩

/-- The holder goes on in `finishBatchRequest`, and has not enqueued its request. -/
theorem Kept.advance {stage stage' : Stage}
    (ht : s.threads t = .finishing os request compress stage)
    (hstage : stage ≠ .enqueued) (hstage' : stage' ≠ .enqueued) :
    Kept (s.setThread t (.finishing os request compress stage')) := by
  obtain ⟨rest, haccounted, hbooked, huse, hone, hos, howner, hstream⟩ := h.heldBy ht rfl
  rw [if_neg hstage] at hstream
  exact ⟨rest, haccounted, hbooked, Owned.update huse hone ⟨hos, howner, by rwa [if_neg hstage']⟩⟩

theorem Kept.enqueue (ht : s.threads t = .finishing os request compress .pending) : Kept ({ s with
      queue := s.queue.enqueueBatchRequest compress
      enqueued := s.enqueued ++ [request] }.setThread t
        (.finishing os request compress .enqueued)) := by
  obtain ⟨rest, ⟨batches, hswapped, henqueued⟩, hbooked, huse, hone, hos, howner, hstream⟩ :=
    h.heldBy ht rfl
  refine ⟨rest ++ [request], ⟨batches, hswapped, ?_⟩, hbooked.enqueue hstream compress,
    Owned.update huse hone ⟨hos, howner, ?_⟩⟩
  · rw [← List.append_assoc, henqueued]
    rfl
  · simpa [packed_snoc, enqueueBatchRequest] using hstream

theorem Kept.endFinish {stage : Stage} (ht : s.threads t = .finishing os request compress stage)
    (hthread : thread.holds = false) :
    Kept ({ s with queue := s.queue.endFinish }.setThread t thread) := by
  obtain ⟨rest, haccounted, hbooked, huse, hone, hos, howner, hstream⟩ := h.heldBy ht rfl
  refine ⟨rest, haccounted, ⟨hbooked.num, hbooked.marker⟩, Owned.release rfl rfl ?_ hone hthread⟩
  simp only [BatchRequestQueue.endFinish, hstream, hbooked.resize]

/-- A careful abort: the thread gives its stream back, or nothing happens. -/
theorem Kept.abort {holds : Bool} (ht : s.threads t = .failed os holds)
    (hcareful : holds = false → s.queue.batchStreamInUse = false) :
    Kept ({ s with queue := (s.queue.abortBatchRequest os).1 }.setThread t .idle) := by
  cases holds with
  | false =>
    have hsame : (s.queue.abortBatchRequest os).1 = s.queue := by
      simp [abortBatchRequest, hcareful rfl]
    rw [hsame]
    exact h.setOther (by rw [ht]; rfl) rfl
  | true =>
    obtain ⟨rest, haccounted, hbooked, huse, hone, -, ⟨tail, rfl⟩, -, howner⟩ := h.heldBy ht rfl
    have hqueue : (s.queue.abortBatchRequest (packed rest ++ tail)).1 =
        { s.queue with batchStream := packed rest, batchStreamInUse := false } := by
      simp [abortBatchRequest, huse, hbooked.resize]
    rw [hqueue]
    exact ⟨rest, haccounted, ⟨hbooked.num, hbooked.marker⟩, Owned.release rfl howner rfl hone rfl⟩

theorem Kept.destroy : Kept { s with queue := s.queue.destroy } := by
  obtain ⟨rest, haccounted, hbooked, howned⟩ := h
  refine ⟨rest, haccounted, ⟨hbooked.num, hbooked.marker⟩, ?_⟩
  rcases howned with hfree | ⟨t, huse, hone, hheld⟩
  · exact Or.inl hfree
  · refine Or.inr ⟨t, huse, hone, ?_⟩
    cases hthread : s.threads t <;> rw [hthread] at hheld <;> exact hheld

theorem Kept.step {c : Config} {s' : State} {e : Event} (hcareful : s.Careful e)
    (hstep : s.step c e = some s') : Kept s' := by
  cases e with simp only [State.step] at hstep
  | prepare t compress =>
    split at hstep
    · next ht =>
      split at hstep
      · cases hstep
        exact h.setOther (by rw [ht]; rfl) rfl
      · split at hstep
        · cases hstep
          exact h.setOther (by rw [ht]; rfl) rfl
        · next huse =>
          cases hstep
          exact h.take (by simpa using huse) compress
    · cases hstep
  | resume t =>
    split at hstep
    · split at hstep
      · cases hstep
      · next huse =>
        cases hstep
        exact h.take (by simpa using huse) _
    · cases hstep
  | failEarly t =>
    split at hstep
    · next ht =>
      cases hstep
      exact h.setOther (by rw [ht]; rfl) rfl
    · cases hstep
  | marshal t bytes =>
    split at hstep
    · next os request compress ht =>
      cases hstep
      refine h.marshaling ht ?_
      rintro rest ⟨rfl, hstream, howner⟩
      exact ⟨by simp, hstream, howner⟩
    · cases hstep
  | marshalFails t =>
    split at hstep
    · next os request compress ht =>
      cases hstep
      refine h.marshaling ht ?_
      rintro rest ⟨hos, hstream, howner⟩
      exact ⟨rfl, ⟨request, hos⟩, hstream, howner⟩
    · cases hstep
  | beginFinish t =>
    split at hstep
    · next os request compress ht =>
      cases hstep
      exact h.beginFinish ht
    · cases hstep
  | autoFlush t =>
    split at hstep
    · next os request compress ht =>
      split at hstep
      · split at hstep
        · cases hstep
        · cases hstep
          exact (h.advance ht (by decide) (by decide)).swapFinishing (setThread_self ..)
      · cases hstep
        exact h.advance ht (by decide) (by decide)
    · cases hstep
  | flushReturns t =>
    split at hstep
    · next os request compress ht =>
      cases hstep
      exact h.advance ht (by decide) (by decide)
    · cases hstep
  | enqueue t =>
    split at hstep
    · next os request compress ht =>
      cases hstep
      exact h.enqueue ht
    · cases hstep
  | interceptorFlush t =>
    split at hstep
    · next os request compress stage ht =>
      split at hstep
      · split at hstep
        · cases hstep
        · cases hstep
          exact h.swapFinishing ht
      · cases hstep
    · cases hstep
  | endFinish t =>
    split at hstep
    · next os request compress stage ht =>
      split at hstep
      · cases hstep
        exact h.endFinish ht rfl
      · cases hstep
    · cases hstep
  | finishThrows t aborts =>
    split at hstep
    · next os request compress stage ht =>
      split at hstep
      · cases hstep
        exact h.endFinish ht (by cases aborts <;> rfl)
      · cases hstep
    · cases hstep
  | abort t =>
    split at hstep
    · next os holds ht =>
      cases hstep
      refine h.abort ht fun hholds => hcareful ?_
      rw [ht]
      exact hholds
    · cases hstep
  | swap t =>
    split at hstep
    · cases hstep
    · cases hstep
    · next hne =>
      split at hstep
      · cases hstep
      · next hwait =>
        cases hstep
        exact h.swapOutside hne (by simpa using hwait)
  | destroy =>
    cases hstep
    exact h.destroy

end

theorem State.CarefullyReachable.kept {c : Config} (h : CarefullyReachable c s) : Kept s := by
  induction h with
  | create => exact Kept.create
  | step e _ hcareful hstep ih => exact ih.step hcareful hstep

/-- The state behind a list of steps, if they are all allowed. -/
def State.run (c : Config) (allowed : State → Event → Bool) : State → List Event → Option State
  | s, [] => some s
  | s, e :: es => if allowed s e then (s.step c e).bind fun s' => s'.run c allowed es else none

theorem State.of_run {c : Config} {allowed : State → Event → Bool} {P : State → Prop}
    (hstep : ∀ s e s', allowed s e = true → s.step c e = some s' → P s → P s') {s' : State}
    {es : List Event} (hrun : s.run c allowed es = some s') (h : P s) : P s' := by
  induction es generalizing s with
  | nil =>
    cases hrun
    exact h
  | cons e es ih =>
    rw [State.run] at hrun
    split at hrun
    · next hallowed =>
      obtain ⟨t, ht, hrest⟩ := Option.bind_eq_some_iff.mp hrun
      exact ih hrest (hstep s e t hallowed ht h)
    · cases hrun

/-- `Careful`, as a check. -/
def State.isCareful (s : State) : Event → Bool
  | .abort t => (s.threads t).holds || !s.queue.batchStreamInUse
  | _ => true

theorem State.careful_of_isCareful {e : Event} (h : s.isCareful e = true) : s.Careful e := by
  cases e with
  | abort t =>
    intro hholds
    simpa [State.isCareful, hholds] using h
  | _ => trivial

end Ice.Batch
