import Ice.WebSocket.Delivery

/-!
# A connection over a WebSocket transceiver

A connection interleaves calls of `read` and `write` on one transceiver, as `ConnectionI` does:
every read has a destination of its own, and a message is handed to `write` until it has been
written. The bytes of the peer, the sizes of the reads and writes of the delegate and the masks are
arbitrary.

Writing does not touch the read side, so in every run the destinations get the payloads of the peer
(`read_delivers_payloads`).
-/

namespace Ice.WebSocket

open Transceiver Maintains

/-- The message in a buffer has been written, or there is none. -/
def Buffer.Written (buf : Buffer) : Prop := buf.b = [] ∨ buf.atEnd = true

instance (buf : Buffer) : Decidable buf.Written := inferInstanceAs (Decidable (_ ∨ _))

structure Connection where
  transceiver : Transceiver
  /-- `_writeStream`: the message that is being written, or no bytes. -/
  writeStream : Buffer
  /-- Whether `write` has still to be called for this message. -/
  sending : Bool
  /-- The messages that have been handed to `write`. -/
  messages : List (List UInt8)
  /-- What the calls of `read` have delivered. -/
  received : List UInt8

namespace Connection

/-- A call of `read` with a destination and a schedule of the delegate. -/
def readCall (c : Connection) (buf : Buffer) (schedule : List (Nat × Bool)) :
    EStateM.Result Exception Transceiver SocketOperation :=
  read { c.transceiver with
    buf := buf
    readSchedule := schedule }

/-- A call of `write` for the current message, with a schedule of the delegate and random masks. -/
def writeCall (c : Connection) (schedule : List Nat) (masks : List Mask) :
    EStateM.Result Exception Transceiver SocketOperation :=
  write { c.transceiver with
    buf := c.writeStream
    writeSchedule := schedule
    masks := masks }

/-- One call on an open connection. `write` is called in states that are `allowed` only, and the
    write stream is empty when it has returned without asking for a write. An exception ends the
    connection. -/
inductive Step (allowed : Connection → Prop) : Connection → Connection → Prop
  | send (c : Connection) (message : List UInt8) (hsent : c.sending = false)
      (hne : message ≠ []) (hsize : message.length < 2 ^ 63) :
      Step allowed c { c with
        writeStream := ⟨message, 0⟩
        sending := true
        messages := c.messages ++ [message] }
  | write (c : Connection) (schedule : List Nat) (masks : List Mask) (op : SocketOperation)
      (t : Transceiver) (hallowed : allowed c) (hcall : c.writeCall schedule masks = .ok op t) :
      Step allowed c { c with
        transceiver := t
        writeStream := if op.write then t.buf else {}
        sending := c.sending && op.write }
  | read (c : Connection) (buf : Buffer) (schedule : List (Nat × Bool)) (op : SocketOperation)
      (t : Transceiver) (hbuf : buf.i ≤ buf.b.length)
      (hcall : c.readCall buf schedule = .ok op t) :
      Step allowed c { c with
        transceiver := t
        received := c.received ++ (t.buf.b.take t.buf.i).drop buf.i }

/-- A connection after the upgrade: bytes of the peer may be in the read buffer already. -/
structure Opened (c : Connection) : Prop where
  state : c.transceiver.state = .opened
  nextState : c.transceiver.nextState = .opened
  readState : c.transceiver.readState = .opcode
  readLastFrame : c.transceiver.readLastFrame = true
  readI : c.transceiver.readI ≤ c.transceiver.readBuffer.i
  readBuffer : c.transceiver.readBuffer.i ≤ c.transceiver.readBuffer.b.length
  writeState : c.transceiver.writeState = .header
  writeBuffer : c.transceiver.writeBuffer.i ≤ c.transceiver.writeBuffer.b.length
  pingPayload : c.transceiver.pingPayload = []
  sent : c.transceiver.sent = []
  writeStream : c.writeStream.b = []
  sending : c.sending = false
  messages : c.messages = []
  received : c.received = []

/-- An opened connection to a peer that sends `wire`. -/
def opened (incoming : Bool) (wire : List UInt8) : Connection where
  transceiver := { incoming := incoming, wire := wire }
  writeStream := {}
  sending := false
  messages := []
  received := []

theorem opened_opened (incoming : Bool) (wire : List UInt8) : (opened incoming wire).Opened where
  state := rfl
  nextState := rfl
  readState := rfl
  readLastFrame := rfl
  readI := le_rfl
  readBuffer := le_rfl
  writeState := rfl
  writeBuffer := le_rfl
  pingPayload := rfl
  sent := rfl
  writeStream := rfl
  sending := rfl
  messages := rfl
  received := rfl

/-- The states of the runs of a connection. -/
def Reachable (allowed : Connection → Prop) : Connection → Connection → Prop :=
  Relation.ReflTransGen (Step allowed)

end Connection

/-- `t` has the read side of `t₀`, and the same message to write. -/
structure ReadSide (t₀ t : Transceiver) : Prop where
  incoming : t.incoming = t₀.incoming
  readState : t.readState = t₀.readState
  readBuffer : t.readBuffer = t₀.readBuffer
  readI : t.readI = t₀.readI
  readLastFrame : t.readLastFrame = t₀.readLastFrame
  readOpCode : t.readOpCode = t₀.readOpCode
  readHeaderLength : t.readHeaderLength = t₀.readHeaderLength
  readPayloadLength : t.readPayloadLength = t₀.readPayloadLength
  readFrameOffset : t.readFrameOffset = t₀.readFrameOffset
  readMask : t.readMask = t₀.readMask
  wire : t.wire = t₀.wire
  message : t.buf.b = t₀.buf.b

namespace ReadSide

variable {t₀ t : Transceiver}

theorem refl (t : Transceiver) : ReadSide t t := by
  constructor <;> rfl

theorem expects {todo : List UInt8} (h : ReadSide t₀ t) (he : t₀.Expects todo) :
    t.Expects todo := by
  simp only [Expects, pending, buffered, maskIn, h.incoming, h.readState, h.readBuffer, h.readI,
    h.readLastFrame, h.readOpCode, h.readHeaderLength, h.readPayloadLength, h.readFrameOffset,
    h.readMask, h.wire]
  exact he

/-- A program keeps the read side and the message of `t₀`. -/
abbrev Keeps {α : Type} (t₀ : Transceiver) (x : M α) : Prop :=
  Maintains (ReadSide t₀) (fun _ _ => True) x

theorem keeps_check {c : Prop} [Decidable c] : Keeps t₀ (check c) :=
  Maintains.throwIf fun _ _ => trivial

theorem keeps_prepareWriteHeader (opCode : UInt8) (length : Nat) :
    Keeps t₀ (prepareWriteHeader opCode length) :=
  Maintains.get.bind fun _ => (Maintains.runIf (Maintains.modify fun _ h => { h with })).bind
    fun _ => modify fun _ h => { h with }

theorem keeps_prepareControlFrame (opCode : UInt8) (payload : List UInt8) :
    Keeps t₀ (prepareControlFrame opCode payload) :=
  (keeps_prepareWriteHeader opCode payload.length).bind fun _ =>
    (modify fun _ h => { h with }).bind fun _ => modify fun _ h => { h with }

theorem keeps_preWriteHeader : Keeps t₀ preWriteHeader := by
  have hcontrol : ∀ (opCode : UInt8) (payload : List UInt8) (f : Transceiver → Transceiver),
      (∀ t, ReadSide t₀ t → ReadSide t₀ (f t)) → Keeps t₀ (do
        prepareControlFrame opCode payload
        modify f
        return true) := fun opCode payload f hf =>
    (keeps_prepareControlFrame opCode payload).bind fun _ => (modify hf).bind
      fun _ => pure _
  refine get.bind fun t => ite (ite (pure _) ?_)
    (ite (hcontrol _ _ _ fun _ h => { h with }) (ite
      (hcontrol _ _ _ fun _ h => { h with }) (ite (hcontrol _ _ _ fun _ h => { h with })
        (keeps_check.bind fun _ => pure _))))
  exact keeps_check.bind fun _ => (keeps_prepareWriteHeader _ _).bind fun _ =>
    (modify fun _ h => { h with }).bind fun _ => pure _

theorem fillWriteBuffer (h : ReadSide t₀ t) : ReadSide t₀ (fillWriteBuffer t) := by
  unfold Ice.WebSocket.fillWriteBuffer startWriteBuffer
  split
  · exact { h with }
  · split
    · exact { h with }
    · exact h

theorem keeps_preWrite : Keeps t₀ preWrite := by
  have hpay : Keeps t₀ preWritePayload := get.bind fun t =>
    ite ((modify fun _ h => fillWriteBuffer h).bind fun _ => pure _)
      (pure _)
  exact get.bind fun t => ite
    (keeps_preWriteHeader.bind fun _ => ite hpay (pure _)) hpay

theorem keeps_delegateWrite (bytes : List UInt8) : Keeps t₀ (delegateWrite bytes) := by
  intro t h
  exact { h with }

theorem keeps_writeMore : Keeps t₀ writeMore := by
  refine get.bind fun _ => ite ?_ (ite ?_ (pure _))
  all_goals exact (keeps_delegateWrite _).bind fun _ =>
    (modify fun _ h => { h with }).bind fun _ => pure _

theorem keeps_controlFrameSent : Keeps t₀ controlFrameSent := by
  intro t h
  simp only [controlFrameSent, wp_bind, wp_get]
  split
  · exact { h with }
  · split
    · trivial
    · split
      · exact h
      · exact { h with }

theorem keeps_postWriteMessage : Keeps t₀ postWriteMessage := by
  refine (modify fun t h => ?_).bind fun _ => get_bind fun t h => ?_
  · split
    · exact { h with }
    · exact h
  · split
    · exact { h with }
    · exact h

theorem keeps_postWrite : Keeps t₀ postWrite :=
  get.bind fun _ => ite
    (ite (keeps_controlFrameSent.bind fun _ => ite (pure _)
      keeps_postWriteMessage) (pure _))
    keeps_postWriteMessage

theorem keeps_writeLoop (n : Nat) : Keeps t₀ (writeLoop n) := by
  induction n with
  | zero => exact throw fun _ _ => trivial
  | succ n ih =>
    refine keeps_preWrite.bind fun more => ?_
    have hmore : Keeps t₀ (writeIfMore more) := ite keeps_writeMore (pure _)
    exact hmore.bind fun s => ite (pure _) (keeps_postWrite.bind fun _ =>
      ite ih (get.bind fun _ => pure _))

theorem keeps_write : Keeps t₀ write := get.bind fun _ => keeps_writeLoop _

end ReadSide

namespace Connection

/-- A connection has received a prefix of `all`, and expects the rest. -/
structure Receiving (c : Connection) (all : List UInt8) : Prop where
  readI : c.transceiver.readI ≤ c.transceiver.readBuffer.i
  readBuffer : c.transceiver.readBuffer.i ≤ c.transceiver.readBuffer.b.length
  expects : ∃ rest, all = c.received ++ rest ∧ c.transceiver.Expects rest

section Runs

variable {allowed : Connection → Prop} {c c' : Connection} {all : List UInt8}

theorem Receiving.read_call (h : c.Receiving all) {buf : Buffer} (hbuf : buf.i ≤ buf.b.length)
    (schedule : List (Nat × Bool)) :
    ∃ op t got rest, c.readCall buf schedule = .ok op t ∧ t.buf = buf.put got ∧
      buf.i + got.length ≤ buf.b.length ∧ all = c.received ++ got ++ rest ∧ t.ReadInv rest ∧
      (c.transceiver.wire.length ≤ schedule.length →
        (∀ choice ∈ schedule, 0 < choice.1 ∧ choice.2 = false) →
        t.buf.atEnd = true ∨ rest = []) := by
  obtain ⟨todo, hall, hexp⟩ := h.expects
  have hinv : ({ c.transceiver with
      buf := buf
      readSchedule := schedule } : Transceiver).ReadInv todo :=
    ⟨⟨h.readI, h.readBuffer, hbuf⟩, hexp⟩
  obtain ⟨op, t, hcall, got, rest, htodo, hdest, hfit, hinv', -, heager⟩ :=
    wp_total (read_spec hinv)
  refine ⟨op, t, got, rest, hcall, hdest, hfit, ?_, hinv', fun hlen hprompt => ?_⟩
  · rw [hall, htodo, List.append_assoc]
  · exact (heager ⟨hlen, hprompt⟩).2

theorem Receiving.step (h : c.Receiving all) (hstep : Step allowed c c') : c'.Receiving all := by
  cases hstep with
  | send message => exact { h with }
  | write schedule masks op t hallowed hcall =>
    have hside := wp_ok (ReadSide.keeps_write _ (ReadSide.refl _)) hcall
    obtain ⟨rest, hall, hexp⟩ := h.expects
    refine ⟨?_, ?_, rest, hall, hside.expects hexp⟩
    · rw [hside.readI, hside.readBuffer]
      exact h.readI
    · rw [hside.readBuffer]
      exact h.readBuffer
  | read buf schedule op t hbuf hcall =>
    obtain ⟨op', t', got, rest, hcall', hdest, -, hall, hinv, -⟩ := h.read_call hbuf schedule
    rw [hcall] at hcall'
    injection hcall' with hop ht
    subst ht
    refine ⟨hinv.ok.readI, hinv.ok.readBuffer, rest, ?_, hinv.expects⟩
    rw [hall, hdest, Buffer.take_put_position hbuf, List.drop_left' (by simp [hbuf])]

theorem Receiving.run (h : c.Receiving all) (hrun : Reachable allowed c c') : c'.Receiving all := by
  induction hrun with
  | refl => exact h
  | tail _ hstep ih => exact ih.step hstep

theorem Opened.receiving (h : c.Opened) {fs : List Frame} (hseq : Sequence true fs)
    (hwire : c.transceiver.pending = encodeFrames c.transceiver.incoming fs) :
    c.Receiving (payloads fs) := by
  refine ⟨h.readI, h.readBuffer, payloads fs, by rw [h.received, List.nil_append], ?_⟩
  simp only [Expects, h.readState, h.readLastFrame]
  exact ⟨fs, hseq, hwire, rfl⟩

end Runs

/-- In every run of a connection whose peer sends a sequence of frames, the next call of `read`
    returns, and stores the next bytes of their payloads in the destination: all that it has room
    for, or all that are left, if the delegate is never without bytes of the peer. -/
theorem read_delivers_payloads {c₀ c : Connection} {fs : List Frame} (hopen : c₀.Opened)
    (hseq : Sequence true fs) (hwire :
      c₀.transceiver.pending = encodeFrames c₀.transceiver.incoming fs)
    (hrun : Reachable (fun _ => True) c₀ c) (buf : Buffer) (hbuf : buf.i ≤ buf.b.length)
    (schedule : List (Nat × Bool)) :
    ∃ op t got rest, c.readCall buf schedule = .ok op t ∧ t.buf = buf.put got ∧
      buf.i + got.length ≤ buf.b.length ∧ payloads fs = c.received ++ got ++ rest ∧
      (c.transceiver.wire.length ≤ schedule.length →
        (∀ choice ∈ schedule, 0 < choice.1 ∧ choice.2 = false) →
        t.buf.atEnd = true ∨ rest = []) := by
  obtain ⟨op, t, got, rest, hcall, hdest, hfit, hall, -, heager⟩ :=
    ((hopen.receiving hseq hwire).run hrun).read_call hbuf schedule
  exact ⟨op, t, got, rest, hcall, hdest, hfit, hall, heager⟩

/-- A message in two frames, with a ping between them. -/
def splitMessage : List Frame :=
  let mask : Mask := fun k => UInt8.ofNat (17 * k + 5)
  [⟨opData, false, [1, 2], mask⟩, ⟨opPing, true, [7], mask⟩, ⟨opCont, true, [3], mask⟩]

/-- A server reads the message of three bytes, byte by byte from the delegate. -/
theorem read_delivers_payloads_splitMessage : Sequence true splitMessage ∧
    ∃ op t got rest, (opened true (encodeFrames true splitMessage)).readCall ⟨[0, 0, 0], 0⟩
        (List.replicate 22 (1, false)) = .ok op t ∧ t.buf = Buffer.put got ⟨[0, 0, 0], 0⟩ ∧
      0 + got.length ≤ 3 ∧ payloads splitMessage = [] ++ got ++ rest ∧
      (t.buf.atEnd = true ∨ rest = []) := by
  have hseq : Sequence true splitMessage :=
    .inr ⟨rfl, by decide, by decide, .inl ⟨.inl rfl, rfl, by decide,
      .inr ⟨rfl, by decide, by decide, trivial⟩⟩⟩
  obtain ⟨op, t, got, rest, hcall, hdest, hfit, hall, heager⟩ :=
    read_delivers_payloads (opened_opened true (encodeFrames true splitMessage)) hseq rfl .refl
      ⟨[0, 0, 0], 0⟩ (by decide) (List.replicate 22 (1, false))
  refine ⟨hseq, op, t, got, rest, hcall, hdest, hfit, hall, heager (by decide) ?_⟩
  intro choice hmem
  rw [(List.mem_replicate.mp hmem).2]
  decide

end Connection

end Ice.WebSocket
