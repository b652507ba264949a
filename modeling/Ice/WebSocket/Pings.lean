import Ice.WebSocket.Connection

/-!
# Reading keeps the write side

A read of an open connection changes nothing that `write` uses but the state of the connection and
the payload of the last ping, whatever the peer sends: a ping makes a pong due, and a close frame
ends the connection.
-/

namespace Ice.WebSocket

open Transceiver Maintains ReadState

/-- The connection is open: no close frame is due. -/
def Transceiver.IsOpen (t : Transceiver) : Prop :=
  (t.state = .opened ∨ t.state = .pongPending) ∧
    (t.nextState = .opened ∨ t.nextState = .pongPending)

/-- `t` has the write side of `t₀`, on an open connection; a ping has at most 125 bytes. -/
structure WriteSide (t₀ t : Transceiver) : Prop where
  incoming : t.incoming = t₀.incoming
  writeState : t.writeState = t₀.writeState
  writeBuffer : t.writeBuffer = t₀.writeBuffer
  writeMask : t.writeMask = t₀.writeMask
  writePayloadLength : t.writePayloadLength = t₀.writePayloadLength
  sent : t.sent = t₀.sent
  pong : t₀.state = .pongPending → t.state = .pongPending
  isOpen : t.IsOpen
  ping : t.pingPayload.length ≤ 125
  header : t.readState = .header → t.readOpCode = opPing ∨ t.readOpCode = opPong →
    t.readPayloadLength ≤ 125
  control : t.readState = .controlFrame → t.readPayloadLength ≤ 125

namespace WriteSide

variable {t₀ t : Transceiver}

/-- A program keeps the write side of `t₀`. -/
abbrev Keeps {α : Type} (t₀ : Transceiver) (x : M α) : Prop :=
  Maintains (WriteSide t₀) (fun _ _ => True) x

theorem readBuffered_eq (sz : Nat) (t : Transceiver) : wp (readBuffered sz)
      (fun _ t' => ∃ rb ri rs, t' = { t with readBuffer := rb, readI := ri, readStart := rs })
      (fun _ _ => True) t := by
  obtain ⟨rb, ri, heq⟩ := makeRoom_eq sz t
  simp only [readBuffered, wp_bind, wp_modify, wp_get, heq]
  split
  · exact ⟨rb, ri, rb.i, rfl⟩
  · simp only [check, wp_bind, wp_throwIf, wp_pure]
    exact ⟨fun _ => trivial, fun _ => ⟨rb, ri, rb.i, rfl⟩⟩

theorem readBufferedIfAny_eq (sz : Nat) (t : Transceiver) : wp (readBufferedIfAny sz)
      (fun _ t' => ∃ rb ri rs, t' = { t with readBuffer := rb, readI := ri, readStart := rs })
      (fun _ _ => True) t := by
  unfold readBufferedIfAny
  split
  · exact readBuffered_eq sz t
  · exact ⟨t.readBuffer, t.readI, t.readStart, rfl⟩

theorem keeps_nextBytes (n : Nat) : Keeps t₀ (nextBytes n) := by
  intro t h
  exact { h with }

theorem checkLastFrame_eq (opCode : UInt8) (fin : Bool) (t : Transceiver) :
    wp (checkLastFrame opCode fin) (fun _ t' => ∃ last, t' = { t with readLastFrame := last })
      (fun _ _ => True) t := by
  simp only [checkLastFrame, wp_bind, wp_get]
  split
  · simp only [wp_bind, wp_throwIf, wp_modify]
    exact ⟨fun _ => trivial, fun _ => ⟨_, rfl⟩⟩
  · split
    · simp only [wp_bind, wp_throwIf, wp_modify]
      exact ⟨fun _ => trivial, fun _ => ⟨_, rfl⟩⟩
    · exact ⟨t.readLastFrame, rfl⟩

/-- A control frame that is accepted is short. -/
theorem checkControlFrame_short (opCode : UInt8) (fin : Bool) (length : Nat) (t : Transceiver) :
    wp (checkControlFrame opCode fin length)
      (fun _ t' => t' = t ∧ (opCode = opPing ∨ opCode = opPong → length ≤ 125))
      (fun _ _ => True) t := by
  unfold checkControlFrame
  split
  · simp only [wp_bind, wp_throwIf]
    refine ⟨fun _ => trivial, fun _ => ⟨fun _ => trivial, fun hle => ⟨trivial, fun _ => ?_⟩⟩⟩
    omega
  · rename_i hnot
    exact ⟨rfl, fun hop => absurd (Or.inr hop) hnot⟩

theorem parseOpcode (h : WriteSide t₀ t) :
    wp parseOpcode (fun _ t' => WriteSide t₀ t') (fun _ _ => True) t := by
  simp only [Ice.WebSocket.parseOpcode, wp_bind, nextByte, wp_get, wp_set, wp_pure,
    wp_modify, wp_throwIf]
  refine ⟨fun _ => trivial, fun _ => ?_⟩
  refine wp_mono (checkLastFrame_eq _ _ _) (fun _ t1 h1 => ?_) fun _ _ _ => trivial
  obtain ⟨last, rfl⟩ := h1
  refine ⟨fun _ => trivial, fun _ => ?_⟩
  refine wp_mono (checkControlFrame_short _ _ _ _) (fun _ t2 h2 => ?_) fun _ _ _ => trivial
  obtain ⟨rfl, hshort⟩ := h2
  exact { h with
    header := fun _ => hshort
    control := fun hst => noConfusion hst }

theorem keeps_readOpcode : Keeps t₀ readOpcode := by
  refine get.bind fun _ => ite (bind (fun t h => ?_) fun _ =>
    ite (bind (fun _ h => parseOpcode h) fun _ => pure _)
      (pure _)) (pure _)
  refine wp_mono (readBuffered_eq 2 t) (fun _ t1 h1 => ?_) fun _ _ _ => trivial
  obtain ⟨rb, ri, rs, rfl⟩ := h1
  exact { h with }

/-- Behind the first two bytes of a header. -/
def AtHeader (t₀ t : Transceiver) : Prop := WriteSide t₀ t ∧ t.readState = .header

/-- The length of a control frame is in the second byte. -/
theorem atHeader_parseLength : Maintains (AtHeader t₀) (fun _ _ => True) parseLength := by
  rintro t ⟨h, hst⟩
  have hlong : ∀ {ri n : Nat}, 125 < t.readPayloadLength → AtHeader t₀ { t with
      readI := ri
      readPayloadLength := n } := fun hlen =>
    ⟨{ h with
        header := fun _ hop => absurd (h.header hst hop) (by omega)
        control := fun hst' => absurd (hst.symm.trans hst') (by decide) }, hst⟩
  simp only [parseLength, wp_bind, wp_get]
  split
  · simp only [nextBytes, wp_bind, wp_get, wp_set, wp_pure, wp_modify]
    exact hlong (by omega)
  · split
    · simp only [nextBytes, wp_bind, wp_get, wp_set, wp_pure, wp_modify, wp_throwIf]
      exact ⟨fun _ => trivial, fun _ => hlong (by omega)⟩
    · exact ⟨h, hst⟩

theorem atHeader_parseMask : Maintains (AtHeader t₀) (fun _ _ => True) parseMask := by
  rintro t ⟨h, hst⟩
  simp only [parseMask, wp_bind, wp_get]
  split
  · simp only [check, nextBytes, wp_bind, wp_get, wp_set, wp_pure, wp_modify, wp_throwIf]
    exact ⟨fun _ => trivial, fun _ => ⟨{ h with }, hst⟩⟩
  · exact ⟨h, hst⟩

/-- A close frame ends an open connection. -/
theorem dispatchOpcode (h : AtHeader t₀ t) :
    wp dispatchOpcode (fun _ t' => WriteSide t₀ t') (fun _ _ => True) t := by
  obtain ⟨h, hst⟩ := h
  simp only [Ice.WebSocket.dispatchOpcode, wp_bind, wp_get]
  split
  · trivial
  · split
    · simp only [check, wp_bind, wp_throwIf, wp_modify, wp_pure]
      exact ⟨fun _ => trivial, fun _ => ⟨fun _ => trivial, fun _ => { h with
        header := fun hst' => noConfusion hst'
        control := fun hst' => noConfusion hst' }⟩⟩
    · split
      · have hs : (if t.nextState = .opened then t.state else t.nextState) ≠
            .closingRequestPending := by
          obtain ⟨hs | hs, hn | hn⟩ := h.isOpen <;> simp [hs, hn]
        simp only [closeFrame, wp_bind, wp_get]
        rw [if_neg hs]
        trivial
      · split
        · rename_i hop
          exact { h with
            header := fun hst' => noConfusion hst'
            control := fun _ => h.header hst hop }
        · trivial

theorem keeps_readHeader : Keeps t₀ readHeader := by
  refine get_bind fun t h => ?_
  split
  · rename_i hst
    rw [wp_bind]
    refine wp_mono (readBufferedIfAny_eq _ t) (fun r t1 h1 => ?_) fun _ _ _ => trivial
    obtain ⟨rb, ri, rs, rfl⟩ := h1
    split
    · have hparse : Maintains (AtHeader t₀) (fun _ _ => True) (do parseLength; parseMask) :=
        atHeader_parseLength.bind fun _ => atHeader_parseMask
      have hrun := hparse _ (show AtHeader t₀ { t with
        readBuffer := rb
        readI := ri
        readStart := rs } from ⟨{ h with }, hst⟩)
      rw [wp_bind] at hrun ⊢
      refine wp_mono hrun (fun _ t2 h2 => ?_) fun _ _ _ => trivial
      rw [wp_bind]
      exact wp_mono h2 (fun _ _ h3 => dispatchOpcode h3) fun _ _ _ => trivial
    · exact { h with }
  · exact h

theorem isOpen_pongDue (h : t.IsOpen) : (pongDue t).IsOpen := by
  unfold pongDue
  split
  · exact ⟨.inr rfl, h.2⟩
  · split
    · exact ⟨h.1, .inr rfl⟩
    · exact h

theorem keeps_pongDue (h : WriteSide t₀ t) : WriteSide t₀ (pongDue t) := by
  have hopen := isOpen_pongDue h.isOpen
  unfold pongDue at hopen ⊢
  split
  · rename_i hst
    rw [if_pos hst] at hopen
    exact { h with isOpen := hopen, pong := fun _ => rfl }
  · rename_i hst
    rw [if_neg hst] at hopen
    split
    · rename_i hlt
      rw [if_pos hlt] at hopen
      exact { h with isOpen := hopen }
    · exact h

/-- The payload of a ping is kept for the pong. -/
theorem parseControlFrame (h : WriteSide t₀ t) (hst : t.readState = .controlFrame) :
    wp parseControlFrame (fun _ t' => WriteSide t₀ t') (fun _ _ => True) t := by
  have hend : Keeps t₀ (do
      modify fun t => { t with readPayloadLength := 0 }
      runIf (t.readOpCode = opPing) (modify pongDue)
      modify fun t => { t with readState := .opcode }) :=
    (modify fun _ h => { h with
      header := fun _ _ => Nat.zero_le _
      control := fun _ => Nat.zero_le _ }).bind fun _ =>
    (Maintains.runIf (Maintains.modify fun _ h => keeps_pongDue h)).bind fun _ =>
    modify fun _ h => { h with
      header := fun hst' => noConfusion hst'
      control := fun hst' => noConfusion hst' }
  have hlen : (t.buffered.take t.readPayloadLength).length ≤ 125 :=
    (List.length_take_le _ _).trans (h.control hst)
  simp only [Ice.WebSocket.parseControlFrame, nextBytes, wp_bind, wp_get, wp_set, wp_pure]
  rw [wp_runIf, wp_modify]
  refine ⟨fun _ => ?_, fun _ => ?_⟩
  · have hping : WriteSide t₀ { t with
        readI := t.readI + t.readPayloadLength
        pingPayload := if t.incoming then
            t.readMask.apply 0 (t.buffered.take t.readPayloadLength)
          else t.buffered.take t.readPayloadLength } :=
      { h with
        ping := by
          split
          · rwa [Mask.length_apply]
          · exact hlen }
    have hrun := hend _ hping
    simpa only [wp_bind] using hrun
  · have hrun := hend { t with readI := t.readI + t.readPayloadLength } { h with }
    simpa only [wp_bind] using hrun

theorem keeps_readControlFrame : Keeps t₀ readControlFrame := by
  refine get_bind fun t h => ?_
  split
  · rename_i hst
    rw [wp_bind]
    refine wp_mono (readBufferedIfAny_eq _ t) (fun r t1 h1 => ?_) fun _ _ _ => trivial
    obtain ⟨rb, ri, rs, rfl⟩ := h1
    split
    · rw [wp_bind]
      exact wp_mono (parseControlFrame (t := { t with
        readBuffer := rb
        readI := ri
        readStart := rs }) { h with } hst) (fun _ _ h2 => h2) fun _ _ _ => trivial
    · exact { h with }
  · exact h

theorem keeps_readPayload : Keeps t₀ readPayload :=
  (Maintains.modify fun _ h => { h with }).bind fun _ => Maintains.get.bind fun _ =>
    ite (pure _) ((keeps_nextBytes _).bind fun _ =>
      (modify fun _ h => { h with }).bind fun _ => pure _)

theorem keeps_preRead (n : Nat) : Keeps t₀ (preRead n) := by
  induction n with
  | zero => exact throw fun _ _ => trivial
  | succ n ih =>
    refine keeps_readOpcode.bind fun _ => ite (keeps_readHeader.bind fun r => ?_)
      (pure _)
    cases r with
    | wait => exact pure _
    | stop => exact pure _
    | next =>
      exact keeps_readControlFrame.bind fun _ => ite
        (get.bind fun _ => ite keeps_readPayload ih) (pure _)

theorem keeps_delegateRead (room : Nat) : Keeps t₀ (delegateRead room) := by
  intro t h
  exact { h with }

theorem keeps_readMore : Keeps t₀ readMore :=
  Maintains.get.bind fun _ => Maintains.ite
    ((keeps_delegateRead _).bind fun _ => (modify fun _ h => { h with }).bind
      fun _ => pure _)
    ((keeps_delegateRead _).bind fun _ => (modify fun _ h => { h with }).bind
      fun _ => pure _)

/-- A payload that is read has no part in the bounds for control frames. -/
theorem keeps_postRead : Keeps t₀ postRead := by
  refine get_bind fun t h => ?_
  split
  · exact h
  · rename_i hst
    have hst' : t.readState = .payload := by simpa using hst
    split
    · exact h
    · simp only [check, wp_bind, wp_throwIf, wp_runIf, wp_modify, wp_get, wp_pure]
      have hread : ∀ buf offset length start st, st ≠ .header ∧ st ≠ .controlFrame →
          WriteSide t₀
            { t with
              buf := buf
              readFrameOffset := offset
              readPayloadLength := length
              readStart := start
              readState := st } := fun _ _ _ _ _ hst =>
        { h with
          header := fun heq => absurd heq hst.1
          control := fun heq => absurd heq hst.2 }
      have hopcode := fun buf offset length start =>
        hread buf offset length start .opcode (by decide)
      have hpay := fun buf offset length start =>
        hread buf offset length start t.readState (by simp [hst'])
      exact ⟨fun _ => trivial, fun _ => ⟨fun _ => ⟨fun _ => hopcode _ _ _ _, fun _ => hpay _ _ _ _⟩,
        fun _ => ⟨fun _ => hopcode _ _ _ _, fun _ => hpay _ _ _ _⟩⟩⟩

theorem keeps_finishRead : Keeps t₀ finishRead := by
  intro t h
  refine wp_mono (finishRead_spec t) (fun _ t1 h1 => ?_) fun _ _ _ => trivial
  obtain ⟨b, rfl⟩ := h1
  exact { h with }

theorem keeps_readLoop (n : Nat) : Keeps t₀ (readLoop n) := by
  induction n with
  | zero => exact throw fun _ _ => trivial
  | succ n ih =>
    have hend : Keeps t₀ (do if ← postRead then readLoop n else finishRead) :=
      keeps_postRead.bind fun _ => ite ih keeps_finishRead
    exact get.bind fun _ => (keeps_preRead _).bind fun _ => ite
      (keeps_readMore.bind fun _ => ite
        (keeps_postRead.bind fun _ => pure _) hend) hend

theorem keeps_read : Keeps t₀ read :=
  Maintains.get.bind fun _ => Maintains.ite
    ((Maintains.runIf (Maintains.modify fun _ h => { h with })).bind fun _ => Maintains.pure _)
    (keeps_readLoop _)

end WriteSide

end Ice.WebSocket
