import Ice.Connection.Calm

/-!
# Opening a connection

Until a connection is validated it waits for one operation at a time, and it neither sends nor
dispatches anything. When it is validated it is registered for no operation.
-/

namespace Ice.Connection

open Calm

open Ice.WebSocket (Buffer SocketOperation)

variable {ρ : Type} {s s' : ConnectionI ρ}

/-- What holds of a connection that is not validated. -/
structure Early (s : ConnectionI ρ) : Prop where
  upcall : s.upcall = {}
  upcalls : s.upcalls = []
  dispatching : s.dispatching = []
  sendStreams : s.sendStreams = []
  /-- it waits for one operation at most -/
  registered : (s.registered.read && s.registered.write) = false
  initializeResult : SingleOperation s.transceiver.initializeResult
  accepting : s.incoming = true → s.readSize = 0 ∧ s.readHeader = false
  connecting : s.incoming = false → s.writeStream = {}

/-- From `s` on, the connection is being opened: it still waits, or it is validated, or closed. -/
structure Opening (s s' : ConnectionI ρ) : Prop where
  incoming : s'.incoming = s.incoming
  maxDispatches : s'.maxDispatches = s.maxDispatches
  dispatchCount : s'.dispatchCount = s.dispatchCount
  requestsReceived : s'.requestsReceived = s.requestsReceived
  requestsAnswered : s'.requestsAnswered = s.requestsAnswered
  outcome : s'.state ≤ .notValidated ∧ Early s' ∨
    s'.state = .holding ∧ s'.registered.read = false ∨
    .closing ≤ s'.state ∧ s'.exception.isSome

/-! ## Reading -/

/-- `s'` differs from `s` by bytes that were read. -/
def Reads (s s' : ConnectionI ρ) : Prop :=
  ∃ unread readStream readSize readHeader,
    s' = { s with
      transceiver := { s.transceiver with incoming := unread }
      readStream := readStream, readSize := readSize, readHeader := readHeader } ∧
    (s.readHeader = false → readSize = s.readSize ∧ readHeader = false)

variable {E : LocalException → ConnectionI ρ → Prop}

theorem read_reads {Q : Unit → ConnectionI ρ → Prop}
    (hQ : Q () (s.take (min s.transceiver.incoming.length (s.readSize - s.readStream.b.length))))
    (hE : ∀ ex,
      E ex (s.take (min s.transceiver.incoming.length (s.readSize - s.readStream.b.length)))) :
    wp read Q E s := by
  simp only [read, wp_bind, wp_get, wp_modify, wp_runIf, wp_throwSome]
  exact ⟨fun _ => ⟨fun _ => hQ, fun ex _ => hE ex⟩, fun _ => hQ⟩

/-- `messageRead` asks for another read or for nothing, and for nothing if there is nothing to
    read. -/
theorem messageRead_reads : wp messageRead (fun op s' => Reads s s' ∧ (op = .none ∨ op = .readOp) ∧
      (s.readSize = 0 → s.readHeader = false → op = .none)) (fun _ s' => Reads s s') s := by
  have htake (n : Nat) : Reads s (s.take n) := ⟨_, _, _, _, rfl, fun h => ⟨rfl, h⟩⟩
  rw [messageRead, wp_bind]
  refine read_reads ?_ fun ex => htake _
  simp only [wp_bind, wp_get]
  split
  · next hlt =>
    refine ⟨htake _, .inr rfl, fun hsize _ => ?_⟩
    rw [show (s.take _).readSize = s.readSize from rfl, hsize] at hlt
    exact absurd hlt (Nat.not_lt_zero _)
  · split
    · next hheader =>
      have hheader : s.readHeader = true := hheader
      have hreads {s' : ConnectionI ρ} (h : ∃ unread readStream readSize readHeader, s' = { s with
            transceiver := { s.transceiver with incoming := unread }
            readStream := readStream, readSize := readSize, readHeader := readHeader }) :
          Reads s s' := by
        obtain ⟨a, b, c, d, rfl⟩ := h
        exact ⟨a, b, c, d, rfl, fun hf => by rw [hheader] at hf; cases hf⟩
      have hnone {P : Prop} : s.readSize = 0 → s.readHeader = false → P :=
        fun _ hf => by rw [hheader] at hf; cases hf
      simp only [wp_bind, wp_modify, wp_get]
      refine wp_ofExcept.mpr ⟨fun size _ => ?_, fun _ _ => hreads ⟨_, _, _, _, rfl⟩⟩
      split
      · rw [wp_bind]
        refine read_reads ?_ fun _ => hreads ⟨_, _, _, _, rfl⟩
        simp only [wp_bind, wp_get, wp_pure]
        split
        · exact ⟨hreads ⟨_, _, _, _, rfl⟩, .inr rfl, hnone⟩
        · exact ⟨hreads ⟨_, _, _, _, rfl⟩, .inl rfl, hnone⟩
      · exact ⟨hreads ⟨_, _, _, _, rfl⟩, .inl rfl, hnone⟩
    · exact ⟨htake _, .inl rfl, fun _ _ => rfl⟩

/-! ## Waiting for one operation -/

/-- `message` was called for all the operations that the connection is registered for. -/
def Covers (operation : SocketOperation) (s : ConnectionI ρ) : Prop :=
  minus s.registered operation = .none

theorem union_minus_minus (r o p : SocketOperation) (h : minus r o = .none) :
    union (minus r (minus o p)) p = p := by
  revert h
  rcases r with ⟨_ | _, _ | _⟩ <;> rcases o with ⟨_ | _, _ | _⟩ <;>
    rcases p with ⟨_ | _, _ | _⟩ <;> decide

variable {operation : SocketOperation}

theorem Early.covers (h : Early s) (hmeets : meets s.registered operation = true) :
    Covers operation s := by
  have hsingle := h.registered
  unfold Covers
  revert hsingle hmeets
  rcases s.registered with ⟨_ | _, _ | _⟩ <;> rcases operation with ⟨_ | _, _ | _⟩ <;> decide

theorem update_registered {op : SocketOperation} (h : Covers operation s) :
    (s.update operation op).registered = op := union_minus_minus _ _ _ h

/-- The connection goes on to wait, for one operation. -/
theorem Early.update (h : Early s) {op : SocketOperation} (hcovers : Covers operation s)
    (hop : (op.read && op.write) = false) : Early (s.update operation op) := by
  refine { h with registered := ?_ }
  rw [update_registered hcovers]
  exact hop

/-- `initialize` returns false and waits, or true. -/
theorem initializeConnection_spec [Bzip2] (h : Early s) (hstate : s.state = .notInitialized)
    (hcovers : Covers operation s) :
    wp (initializeConnection operation)
      (fun initialized s' =>
        initialized = false ∧ (∃ op, s' = s.update operation op) ∧ Early s' ∨
        initialized = true ∧ s' = switchState .notValidated s) (fun _ s' => s' = s) s := by
  simp only [initializeConnection, wp_bind, wp_get]
  refine wp_ofExcept.mpr ⟨fun op hop => ?_, fun _ _ => rfl⟩
  split
  · refine .inl ⟨rfl, ⟨op, rfl⟩, h.update hcovers ?_⟩
    have hsingle := h.initializeResult
    rw [hop] at hsingle
    exact hsingle
  · rw [wp_bind]
    refine wp_setState_open (by decide) (fun _ => .inr ⟨rfl, rfl⟩) fun hcan => ?_
    rw [hstate] at hcan
    cases hcan

theorem write_transmits {buf : Buffer} {Q : Buffer → ConnectionI ρ → Prop}
    (hQ : ∀ buf' n, Q buf' (s.transmit buf.rest n)) (hE : ∀ ex n, E ex (s.transmit buf.rest n)) :
    wp (write buf) Q E s := by
  simp only [write, wp_bind, wp_get, wp_modify, wp_runIf, wp_throwSome, wp_pure]
  exact ⟨fun _ => ⟨fun _ => hQ _ _, fun ex _ => hE ex _⟩, fun _ => hQ _ _⟩

theorem writeRest_transmits {buf : Buffer} {Q : Buffer → ConnectionI ρ → Prop} (hend : Q buf s)
    (hQ : ∀ buf' n, Q buf' (s.transmit buf.rest n)) (hE : ∀ ex n, E ex (s.transmit buf.rest n)) :
    wp (writeRest buf) Q E s := by
  unfold writeRest
  split
  · exact hend
  · exact write_transmits hQ hE

/-- Only the buffer that the validation message is in has changed. -/
structure Exchanges (s s' : ConnectionI ρ) : Prop where
  rest : Calm.rest s' = Calm.rest s
  state : s'.state = s.state
  registered : s'.registered = s.registered
  upcall : s'.upcall = s.upcall
  upcalls : s'.upcalls = s.upcalls
  dispatching : s'.dispatching = s.dispatching
  sendStreams : s'.sendStreams = s.sendStreams
  initializeResult : s'.transceiver.initializeResult = s.transceiver.initializeResult
  accepting : s.incoming = true → s'.readSize = s.readSize ∧ s'.readHeader = s.readHeader
  connecting : s.incoming = false → s'.writeStream = s.writeStream

theorem Exchanges.early (h : Exchanges s s') (hs : Early s) : Early s' := by
  have hincoming : s'.incoming = s.incoming := congrArg (·.2.1) h.rest
  refine ⟨h.upcall.trans hs.upcall, h.upcalls.trans hs.upcalls, h.dispatching.trans hs.dispatching,
    h.sendStreams.trans hs.sendStreams, h.registered ▸ hs.registered,
    h.initializeResult ▸ hs.initializeResult, fun hinc => ?_, fun hinc => ?_⟩
  · rw [hincoming] at hinc
    obtain ⟨hsize, hheader⟩ := h.accepting hinc
    exact ⟨hsize.trans (hs.accepting hinc).1, hheader.trans (hs.accepting hinc).2⟩
  · rw [hincoming] at hinc
    exact (h.connecting hinc).trans (hs.connecting hinc)

/-- How `validate` ends: it waits, or the connection is validated. -/
def Validates (s : ConnectionI ρ) (validated : Bool) (s' : ConnectionI ρ) : Prop :=
  Calm.rest s' = Calm.rest s ∧ s'.state = s.state ∧
    (validated = false ∧ Early s' ∨ validated = true ∧ s'.registered = s.registered)

theorem Exchanges.waits (h : Exchanges s s') (hs : Early s) {operation op : SocketOperation}
    (hcovers : Covers operation s) (hop : (op.read && op.write) = false) :
    Validates s false (s'.update operation op) := by
  refine ⟨h.rest, h.state, .inl ⟨rfl, (h.early hs).update ?_ hop⟩⟩
  rw [Covers, h.registered]
  exact hcovers

variable {operation : SocketOperation}

theorem validateIncoming_spec (h : Early s) (hcovers : Covers operation s)
    (hincoming : s.incoming = true) :
    wp (validateIncoming operation) (Validates s)
      (fun _ s' => rest s' = rest s ∧ s'.state = s.state) s := by
  have hend {buf : Buffer} {s' : ConnectionI ρ} (he : Exchanges s s') :
      wp (do
        modify fun s => { s with writeStream := buf }
        if buf.atEnd then
          modify (ConnectionI.hand { message := .validateConnection })
          modify validated
          return true
        else
          modify (ConnectionI.update operation .writeOp)
          return false : M ρ Bool) (Validates s)
        (fun _ s' => rest s' = rest s ∧ s'.state = s.state) s' := by
    have he' : Exchanges s { s' with writeStream := buf } :=
      { he with connecting := fun hf => by rw [hincoming] at hf; cases hf }
    split
    · exact ⟨he.rest, he.state, .inr ⟨rfl, he.registered⟩⟩
    · exact he'.waits h hcovers rfl
  have hnot {P : Prop} : s.incoming = false → P := fun hf => by rw [hincoming] at hf; cases hf
  simp only [validateIncoming]
  rw [wp_bind, wp_get, wp_bind, wp_modify, wp_bind]
  refine writeRest_transmits (hend ?_) (fun _ _ => hend ?_) fun _ _ => ⟨rfl, rfl⟩
  all_goals exact ⟨rfl, rfl, rfl, rfl, rfl, rfl, rfl, rfl, fun _ => ⟨rfl, rfl⟩, hnot⟩

theorem validateOutgoing_spec (h : Early s) (hcovers : Covers operation s)
    (hincoming : s.incoming = false) :
    wp (validateOutgoing operation) (Validates s)
      (fun _ s' => rest s' = rest s ∧ s'.state = s.state) s := by
  have hend {s' : ConnectionI ρ} (he : Exchanges s s') :
      wp (do
        let s ← get
        if s.readStream.b.length < s.readSize then
          modify (ConnectionI.update operation .readOp)
          return false
        else
          ofExcept (checkValidation s.readStream.b)
          modify fun s => { s with received := s.received ++ [(s.state, s.readStream.b)] }
          modify validated
          return true : M ρ Bool) (Validates s)
        (fun _ s' => rest s' = rest s ∧ s'.state = s.state) s' := by
    rw [wp_bind, wp_get]
    split
    · exact he.waits h hcovers rfl
    · rw [wp_bind]
      refine wp_ofExcept.mpr ⟨fun _ _ => ?_, fun _ _ => ⟨he.rest, he.state⟩⟩
      exact ⟨he.rest, he.state, .inr ⟨rfl, he.registered⟩⟩
  have hnot {P : Prop} : s.incoming = true → P := fun hf => by rw [hincoming] at hf; cases hf
  rw [validateOutgoing, wp_bind, wp_modify, wp_bind, wp_get, wp_bind, wp_runIf]
  refine ⟨fun _ => read_reads (hend ?_) fun _ => ⟨rfl, rfl⟩, fun _ => hend ?_⟩
  all_goals exact ⟨rfl, rfl, rfl, rfl, rfl, rfl, rfl, rfl, hnot, fun _ => rfl⟩

theorem validate_spec (h : Early s) (hcovers : Covers operation s) :
    wp (validate operation) (Validates s)
      (fun _ s' => rest s' = rest s ∧ s'.state = s.state) s := by
  rw [validate, wp_bind, wp_get]
  split
  · next hincoming => exact validateIncoming_spec h hcovers hincoming
  · next hincoming => exact validateOutgoing_spec h hcovers (Bool.eq_false_of_not_eq_true hincoming)

/-! ## The two ways to open -/

theorem Opening.of_rest (h : rest s' = rest s) (houtcome : s'.state ≤ .notValidated ∧ Early s' ∨
      s'.state = .holding ∧ s'.registered.read = false ∨
      .closing ≤ s'.state ∧ s'.exception.isSome) : Opening s s' := by
  simp only [rest, Prod.mk.injEq] at h
  obtain ⟨-, h2, h3, h4, h5, h6⟩ := h
  exact ⟨h2, h3, h4, h5, h6, houtcome⟩

theorem Opening.failed (h : rest s' = rest s) (hstate : s'.state ≤ .notValidated)
    (ex : LocalException) : Opening s (closeWith ex s') := by
  have hne : s'.state ≠ .closed := ne_of_lt (lt_of_le_of_lt hstate (by decide))
  refine .of_rest ((rest_closeWith ex s').trans h) (.inr (.inr ⟨?_, isSome_closeWith ex hne⟩))
  exact le_trans (by decide) (closed_le_closeWith ex s')

section

variable {operation : SocketOperation} {after waiting : M ρ Unit} {Q : Unit → ConnectionI ρ → Prop}
  {E : LocalException → ConnectionI ρ → Prop}

/-- The connection waits, fails, or is validated and goes on to `after`. -/
theorem validateThen_spec (h : Early s) (hstate : s.state = .notValidated)
    (hcovers : Covers operation s)
    (hwait : ∀ s', rest s' = rest s → s'.state ≤ .notValidated → Early s' →
      wp waiting Q E s') (hfail : ∀ ex s', rest s' = rest s → s'.state ≤ .notValidated → E ex s')
    (hafter : ∀ s', rest s' = rest s → s'.state = .notValidated →
      s'.registered = s.registered → wp after Q E s') : wp (do
      let validated ← validateIf true operation
      if validated then after else waiting) Q E s := by
  rw [wp_bind, validateIf, if_pos rfl]
  refine wp_mono (validate_spec h hcovers) (fun validated s2 hv => ?_) fun ex s2 hv => ?_
  · obtain ⟨hrest, hstate', ⟨rfl, hearly⟩ | ⟨rfl, hregistered⟩⟩ := hv
    · exact hwait s2 hrest (hstate'.trans hstate).le hearly
    · exact hafter s2 hrest (hstate'.trans hstate) hregistered
  · exact hfail ex s2 hv.1 (hv.2.trans hstate).le

/-- The same with the initialization of the transport before. -/
theorem initializeThen_spec [Bzip2] (h : Early s) (hstate : s.state = .notInitialized)
    (hcovers : Covers operation s)
    (hwait : ∀ s', rest s' = rest s → s'.state ≤ .notValidated → Early s' →
      wp waiting Q E s') (hfail : ∀ ex s', rest s' = rest s → s'.state ≤ .notValidated → E ex s')
    (hafter : ∀ s', rest s' = rest s → s'.state = .notValidated →
      s'.registered = s.registered → wp after Q E s') : wp (do
      let initialized ← initializeConnection operation
      let validated ← validateIf initialized operation
      if validated then after else waiting) Q E s := by
  have hle : s.state ≤ .notValidated := hstate.trans_le (by decide)
  rw [wp_bind]
  refine wp_mono (initializeConnection_spec h hstate hcovers) (fun initialized s1 hs1 => ?_)
    fun ex s1 hs1 => hfail ex s1 (hs1 ▸ rfl) (hs1 ▸ hle)
  rcases hs1 with ⟨rfl, ⟨op, rfl⟩, hearly⟩ | ⟨rfl, rfl⟩
  · exact hwait _ rfl hle hearly
  · have hearly : Early (switchState .notValidated s) := { h with }
    exact validateThen_spec hearly rfl hcovers hwait hfail hafter

end

theorem opens_holding (hstate : s'.state = .notValidated)
    (hregistered : s'.registered.read = false) :
    (switchState .holding s').registered.read = false := by
  simp [switchState, switchedOps, hstate, hregistered]

theorem establish_spec [Bzip2] {newOp : SocketOperation} (h : Early s)
    (hstate : s.state ≤ .notValidated)
    (hcovers : Covers operation s) (hnew : (newOp.read && newOp.write) = false) :
    wp (establish operation newOp) (fun _ s' => Opening s s')
      (fun ex s' => Opening s (closeWith ex s')) s := by
  have hwait (s' : ConnectionI ρ) (hrest : rest s' = rest s)
      (hstate' : s'.state ≤ .notValidated) (hearly : Early s') : Opening s s' :=
    .of_rest hrest (.inl ⟨hstate', hearly⟩)
  have hfail (ex : LocalException) (s' : ConnectionI ρ) (hrest : rest s' = rest s)
      (hstate' : s'.state ≤ .notValidated) : Opening s (closeWith ex s') :=
    .failed hrest hstate' ex
  have hafter (s' : ConnectionI ρ) (hrest : rest s' = rest s)
      (hstate' : s'.state = .notValidated) (hregistered : s'.registered = s.registered) :
      wp (do
        modify (ConnectionI.update operation .none)
        setState .holding
        modify fun s => { s with
          upcall := { s.upcall with connectionStartCompleted := s.connectionStartCompleted }
          connectionStartCompleted := false } : M ρ Unit)
        (fun _ s' => Opening s s') (fun ex s' => Opening s (closeWith ex s')) s' := by
    have hcovers' : Covers operation s' := by
      rw [Covers, hregistered]
      exact hcovers
    have hnone : (s'.update operation .none).registered.read = false := by
      rw [update_registered hcovers']
      rfl
    rw [wp_bind, wp_modify, wp_bind]
    refine wp_setState_open (by decide) (fun _ => ?_) fun hcan => ?_
    · exact .of_rest hrest (.inr (.inl ⟨rfl, opens_holding hstate' hnone⟩))
    · rw [show (s'.update operation .none).state = s'.state from rfl, hstate'] at hcan
      cases hcan
  unfold establish
  split
  · exact hwait _ rfl hstate (h.update hcovers hnew)
  · rw [initializeIfNeeded]
    by_cases hnot : s.state = .notInitialized
    · simp only [bind_assoc]
      rw [wp_bind, wp_get, if_pos hnot]
      exact initializeThen_spec h hnot hcovers hwait hfail hafter
    · have hvalidated : s.state = .notValidated := by
        revert hstate hnot
        cases s.state <;> decide
      simp only [bind_assoc]
      rw [wp_bind, wp_get, if_neg hnot, wp_bind, wp_pure]
      exact validateThen_spec h hvalidated hcovers hwait hfail hafter

theorem startAsync_spec [Bzip2] {callbacks : Bool} (h : Early s)
    (hstate : s.state = .notInitialized) (hregistered : s.registered = .none) :
    wp (startAsync callbacks) (fun _ s' => Opening s s' ∧ s'.phase = s.phase)
      (fun _ _ => False) s := by
  have hcovers : Covers .none s := by
    rw [Covers, hregistered]
    rfl
  have hphase {s' : ConnectionI ρ} (hrest : rest s' = rest s) : s'.phase = s.phase :=
    congrArg Prod.fst hrest
  rw [startAsync, wp_handle]
  refine initializeThen_spec h hstate hcovers ?_ ?_ ?_
  · intro s' hrest hstate' hearly
    exact ⟨.of_rest hrest (.inl ⟨hstate', { hearly with }⟩), hphase hrest⟩
  · intro ex s' hrest hstate'
    rw [setStateWith_closed]
    exact ⟨.failed hrest hstate' ex, hphase ((rest_closeWith ex s').trans hrest)⟩
  · intro s' hrest hstate' hregistered'
    refine wp_setState_open (by decide) (fun _ => ?_) fun hcan => ?_
    · refine ⟨.of_rest hrest (.inr (.inl ⟨rfl, opens_holding hstate' ?_⟩)), hphase hrest⟩
      rw [hregistered', hregistered]
      rfl
    · rw [hstate'] at hcan
      cases hcan

end Ice.Connection
