import Mathlib

/-!
# The batch request queue

`BatchRequestQueue` (`cpp/src/Ice/BatchRequestQueue.cpp`) collects the requests of batch proxies in
one stream, which is passed back and forth between the queue and the threads that add requests. A
thread takes the stream with `prepareBatchRequest`, appends its request, and brings the stream back
with `finishBatchRequest`. When something fails, `OutgoingAsync` calls `abortBatchRequest`
(`cpp/src/Ice/OutgoingAsync.cpp:993-1051`), also if the thread does not have the stream.

The threads run interleaved. `finishBatchRequest` holds the mutex at its beginning and at its end
only, so that it is several steps.
-/

namespace Ice.Batch

abbrev Bytes := List UInt8

/-- `requestBatchHdr` (`cpp/src/Ice/Protocol.cpp:122-141`): the magic, protocol 1.0 with encoding
    1.0, the message type 1, the compression status, and places for the size and the number of
    requests. -/
def requestBatchHdr : Bytes := [73, 99, 101, 80, 1, 0, 1, 0, 1, 0, 0, 0, 0, 0, 0, 0, 0, 0]

/-- `OutputStream::resize`. -/
def resize (stream : Bytes) (size : Nat) : Bytes :=
  stream.take size ++ List.replicate (size - stream.length) 0

structure BatchRequestQueue where
  batchStream : Bytes := requestBatchHdr
  batchStreamInUse : Bool := false
  /-- the thread in `finishBatchRequest` -/
  batchStreamOwnerId : Option Nat := none
  batchCompress : Bool := false
  batchRequestNum : Nat := 0
  batchMarker : Nat := requestBatchHdr.length
  /-- whether `_exception` is set -/
  exception : Bool := false
deriving DecidableEq, Repr

namespace BatchRequestQueue

variable (q : BatchRequestQueue)

/-- `prepareBatchRequest`, when it neither throws nor waits: the stream goes to the caller. -/
def prepareBatchRequest (os : Bytes) : BatchRequestQueue × Bytes :=
  ({ q with batchStreamInUse := true, batchStream := os }, q.batchStream)

/-- The beginning of `finishBatchRequest`: the stream comes back, and the thread becomes its
    owner. -/
def beginFinish (os : Bytes) (thread : Nat) : BatchRequestQueue × Bytes :=
  ({ q with batchStream := os, batchStreamOwnerId := some thread }, q.batchStream)

/-- Whether `finishBatchRequest` flushes before it adds the request. -/
def needsFlush (maxSize : Int) : Bool :=
  decide (0 < maxSize) && decide (maxSize ≤ q.batchStream.length)

/-- `enqueueBatchRequest`, also done by `finishBatchRequest` without an interceptor. -/
def enqueueBatchRequest (compressOverride : Option Bool) :
    BatchRequestQueue :=
  { q with
    batchCompress := q.batchCompress || compressOverride.getD false
    batchMarker := q.batchStream.length
    batchRequestNum := q.batchRequestNum + 1 }

/-- The end of `finishBatchRequest`, also when an exception is caught. -/
def endFinish : BatchRequestQueue :=
  { q with
    batchStream := resize q.batchStream q.batchMarker
    batchStreamInUse := false
    batchStreamOwnerId := none }

def abortBatchRequest (os : Bytes) : BatchRequestQueue × Bytes :=
  if q.batchStreamInUse then
    ({ q with batchStream := resize os q.batchMarker, batchStreamInUse := false }, q.batchStream)
  else (q, os)

/-- Whether `swap` waits in this thread. -/
def swapWaits (thread : Nat) : Bool :=
  q.batchStreamOwnerId != some thread && q.batchStreamInUse

/-- `swap` with an empty stream, after the wait: the batch, the number of its requests and whether
    it is to be compressed. Nothing is returned if there are no requests. -/
def swap : BatchRequestQueue × Option (Bytes × Nat × Bool) :=
  if q.batchRequestNum = 0 then (q, none)
  else
    let lastRequest := q.batchStream.drop q.batchMarker
    ({ q with
        batchStream := requestBatchHdr ++ lastRequest
        batchMarker := requestBatchHdr.length
        batchRequestNum := 0
        batchCompress := false },
      some (q.batchStream.take q.batchMarker, q.batchRequestNum, q.batchCompress))

def destroy : BatchRequestQueue := { q with exception := true }

end BatchRequestQueue

/-- How far `finishBatchRequest` is. -/
inductive Stage where
  /-- before the auto-flush, if there is one -/
  | autoFlush
  /-- in the auto-flush, which has swapped the stream -/
  | flushed
  /-- the request is not enqueued, and the interceptor may run -/
  | pending
  /-- the request is enqueued -/
  | enqueued
deriving DecidableEq, Repr

/-- What a thread does with the queue. -/
inductive Thread where
  | idle
  /-- in `prepareBatchRequest`, until the stream is not in use -/
  | waiting (compressOverride : Option Bool)
  /-- between `prepareBatchRequest` and `finishBatchRequest`: `os` is its stream, and `request` is
      what it has written -/
  | marshaling (os request : Bytes) (compressOverride : Option Bool)
  /-- in `finishBatchRequest` -/
  | finishing (os request : Bytes) (compressOverride : Option Bool) (stage : Stage)
  /-- about to call `abortBatchRequest`; `holds` says if it has taken the stream and not given it
      back -/
  | failed (os : Bytes) (holds : Bool)
deriving DecidableEq, Repr

/-- The thread holds the stream: it is between `prepareBatchRequest` and the end of
    `finishBatchRequest` or of `abortBatchRequest`. -/
def Thread.holds : Thread → Bool
  | idle => false
  | waiting _ => false
  | marshaling .. => true
  | finishing .. => true
  | failed _ holds => holds

/-- The auto-flush size, and whether there is an interceptor. -/
structure Config where
  maxSize : Int
  interceptor : Bool
deriving DecidableEq, Repr

/-- The queue, its threads, and what was done: the requests that were enqueued, and the batches that
    `swap` returned. -/
structure State where
  queue : BatchRequestQueue := {}
  threads : Nat → Thread := fun _ => .idle
  enqueued : List Bytes := []
  swapped : List (Bytes × Nat) := []

/-- What a thread does next. -/
inductive Event where
  /-- a request is started, and `prepareBatchRequest` throws, waits or takes the stream -/
  | prepare (thread : Nat) (compressOverride : Option Bool)
  /-- `prepareBatchRequest` takes the stream after it has waited -/
  | resume (thread : Nat)
  /-- a request fails before `prepareBatchRequest` is called -/
  | failEarly (thread : Nat)
  | marshal (thread : Nat) (bytes : Bytes)
  | marshalFails (thread : Nat)
  | beginFinish (thread : Nat)
  | autoFlush (thread : Nat)
  /-- the auto-flush returns -/
  | flushReturns (thread : Nat)
  | enqueue (thread : Nat)
  /-- the interceptor flushes -/
  | interceptorFlush (thread : Nat)
  | endFinish (thread : Nat)
  /-- an exception leaves the auto-flush or the interceptor; `aborts` says if `OutgoingAsync`
      catches it and calls `abortBatchRequest` -/
  | finishThrows (thread : Nat) (aborts : Bool)
  | abort (thread : Nat)
  /-- a flush outside of `finishBatchRequest` -/
  | swap (thread : Nat)
  | destroy
deriving DecidableEq, Repr

namespace State

/-- The next state of a thread. -/
def setThread (s : State) (thread : Nat) (t : Thread) : State :=
  { s with threads := Function.update s.threads thread t }

/-- `swap`, with the batch that it returns. -/
def swapQueue (s : State) : State :=
  match s.queue.swap with
  | (q, none) => { s with queue := q }
  | (q, some (batch, num, _)) => { s with queue := q, swapped := s.swapped ++ [(batch, num)] }

/-- Whether an exception can leave `finishBatchRequest`: it comes from the auto-flush or from the
    interceptor. -/
def mayThrow (c : Config) (s : State) : Stage → Bool
  | .autoFlush => s.queue.needsFlush c.maxSize
  | .flushed => true
  | .pending | .enqueued => c.interceptor

/-- The thread takes the stream. -/
def take (s : State) (t : Nat) (compressOverride : Option Bool) : State :=
  let (queue, os) := s.queue.prepareBatchRequest []
  { s with queue }.setThread t (.marshaling os [] compressOverride)

/-- One step of a thread, if it is the next that the thread does and it does not wait. -/
def step (c : Config) (s : State) : Event → Option State
  | .prepare t compressOverride =>
    match s.threads t with
    | .idle =>
      if s.queue.exception then some (s.setThread t (.failed [] false))
      else if s.queue.batchStreamInUse then some (s.setThread t (.waiting compressOverride))
      else some (s.take t compressOverride)
    | _ => none
  | .resume t =>
    match s.threads t with
    | .waiting compressOverride =>
      if s.queue.batchStreamInUse then none else some (s.take t compressOverride)
    | _ => none
  | .failEarly t =>
    match s.threads t with
    | .idle => some (s.setThread t (.failed [] false))
    | _ => none
  | .marshal t bytes =>
    match s.threads t with
    | .marshaling os request compress =>
      some (s.setThread t (.marshaling (os ++ bytes) (request ++ bytes) compress))
    | _ => none
  | .marshalFails t =>
    match s.threads t with
    | .marshaling os _ _ => some (s.setThread t (.failed os true))
    | _ => none
  | .beginFinish t =>
    match s.threads t with
    | .marshaling os request compress =>
      let (queue, os) := s.queue.beginFinish os t
      some ({ s with queue }.setThread t (.finishing os request compress .autoFlush))
    | _ => none
  | .autoFlush t =>
    match s.threads t with
    | .finishing os request compress .autoFlush =>
      if s.queue.needsFlush c.maxSize then
        if s.queue.swapWaits t then none
        else some (s.setThread t (.finishing os request compress .flushed)).swapQueue
      else some (s.setThread t (.finishing os request compress .pending))
    | _ => none
  | .flushReturns t =>
    match s.threads t with
    | .finishing os request compress .flushed =>
      some (s.setThread t (.finishing os request compress .pending))
    | _ => none
  | .enqueue t =>
    match s.threads t with
    | .finishing os request compress .pending =>
      some ({ s with
        queue := s.queue.enqueueBatchRequest compress
        enqueued := s.enqueued ++ [request] }.setThread t
          (.finishing os request compress .enqueued))
    | _ => none
  | .interceptorFlush t =>
    match s.threads t with
    | .finishing _ _ _ stage =>
      if c.interceptor && (stage == .pending || stage == .enqueued) then
        if s.queue.swapWaits t then none else some s.swapQueue
      else none
    | _ => none
  | .endFinish t =>
    match s.threads t with
    | .finishing _ _ _ stage =>
      if stage = .enqueued ∨ (stage = .pending ∧ c.interceptor) then
        some ({ s with queue := s.queue.endFinish }.setThread t .idle)
      else none
    | _ => none
  | .finishThrows t aborts =>
    match s.threads t with
    | .finishing os _ _ stage =>
      if s.mayThrow c stage then
        some ({ s with queue := s.queue.endFinish }.setThread t
          (if aborts then .failed os false else .idle))
      else none
    | _ => none
  | .abort t =>
    match s.threads t with
    | .failed os _ =>
      some ({ s with queue := (s.queue.abortBatchRequest os).1 }.setThread t .idle)
    | _ => none
  | .swap t =>
    match s.threads t with
    | .waiting _ => none
    | .finishing .. => none
    | _ => if s.queue.swapWaits t then none else some s.swapQueue
  | .destroy => some { s with queue := s.queue.destroy }

/-- The step does not abort a request of another thread: a thread that does not hold the stream
    calls `abortBatchRequest` only while the stream is not in use. -/
def Careful (s : State) : Event → Prop
  | .abort t => (s.threads t).holds = false → s.queue.batchStreamInUse = false
  | _ => True

/-- The states of a queue, from its creation on. -/
inductive Reachable (c : Config) : State → Prop where
  | create : Reachable c {}
  | step {s s' : State} (e : Event) : Reachable c s → s.step c e = some s' → Reachable c s'

/-- The states that are reached with careful steps. -/
inductive CarefullyReachable (c : Config) : State → Prop where
  | create : CarefullyReachable c {}
  | step {s s' : State} (e : Event) :
      CarefullyReachable c s → s.Careful e → s.step c e = some s' → CarefullyReachable c s'

end State

/-! ## What the queue is for -/

/-- The stream with these requests: the header and then their encodings. -/
def packed (requests : List Bytes) : Bytes := requestBatchHdr ++ requests.flatten

/-- Every batch that was swapped is the header with complete requests, and their number. The
    batches, and then the requests that are still in the queue, are the requests that were enqueued,
    in that order. -/
def Accounted (s : State) (rest : List Bytes) : Prop :=
  ∃ batches : List (List Bytes),
    s.swapped = batches.map (fun b => (packed b, b.length)) ∧
    batches.flatten ++ rest = s.enqueued

/-- No request is lost, duplicated or mixed: the batches and the rest of the queue are what was
    enqueued, the stream of the queue is the rest while no thread holds it, and at most one thread
    does. -/
def Intact (s : State) : Prop :=
  (∃ rest, Accounted s rest ∧ s.queue.batchRequestNum = rest.length ∧
    (s.queue.batchStreamInUse = false → s.queue.batchStream = packed rest) ∧
    (∀ t os request compress, s.threads t = .marshaling os request compress →
      os = packed rest ++ request)) ∧
  ∀ t u, (s.threads t).holds = true → (s.threads u).holds = true → t = u

end Ice.Batch
