import Ice.WebSocket.Pings

/-!
# The frames that the send path prepares

`WriteInv t messages` relates what the delegate was given, what the write buffer still holds and the
rest of the current message to a list of complete frames that carry `messages`. `preWrite` keeps it:
it puts the header of a new frame, or the next part of the message, into the write buffer.
-/

namespace Ice.WebSocket

open Transceiver List Buffer

/-- The messages in data frames. -/
def messagesOf (fs : List Frame) : List (List UInt8) :=
  fs.flatMap fun f => if f.IsData then [f.payload] else []

@[simp] theorem messagesOf_append (fs gs : List Frame) :
    messagesOf (fs ++ gs) = messagesOf fs ++ messagesOf gs := flatMap_append

theorem messagesOf_data {f : Frame} (h : f.opCode = opData) : messagesOf [f] = [f.payload] := by
  simp [messagesOf, Frame.IsData, h]

theorem messagesOf_pong {f : Frame} (h : f.opCode = opPong) : messagesOf [f] = [] := by
  have hnot : ¬ f.IsData := by
    rintro (h' | h') <;> rw [h] at h' <;> exact absurd h' (by decide)
  simp [messagesOf, hnot]

namespace Transceiver

variable (t : Transceiver)

/-- How much of the current message has been given to the delegate or is in the write buffer. -/
def covered : Nat := if t.incoming then t.buf.i else t.writePayloadLength

/-- The message whose frame has not been started. -/
def unsent : List (List UInt8) := if t.buf.Written then [] else [t.buf.b]

/-- Between two frames: the data frames carry all messages but the one not started. -/
def BetweenFrames (fs : List Frame) (messages : List (List UInt8)) : Prop :=
  messages = messagesOf fs ++ t.unsent ∧ (¬ t.buf.Written → t.buf.i = 0)

/-- How the frames `fs` are being sent, in each state of the write side. -/
def Progress (fs : List Frame) (messages : List (List UInt8)) : Prop :=
  match t.writeState with
  | .header => t.sent = encodeFrames (!t.incoming) fs ∧ t.BetweenFrames fs messages ∧
      (t.incoming = false → t.buf.b ≠ [] → t.buf.atEnd = true →
        t.writePayloadLength = 0 ∨ t.writePayloadLength = t.buf.b.length)
  | .controlFrame => t.state = .pongPending ∧ t.writePayloadLength = 0 ∧
      t.sent ++ t.writeBuffer.rest = encodeFrames (!t.incoming) fs ∧ t.BetweenFrames fs messages
  | .payload => messages = messagesOf fs ∧ 0 < t.writePayloadLength ∧ 0 < t.covered ∧
      t.covered ≤ t.buf.b.length ∧ t.writeBuffer.b ≠ [] ∧
      t.sent ++ t.writeBuffer.rest ++ t.maskOut t.covered (t.buf.b.drop t.covered) =
        encodeFrames (!t.incoming) fs ∧
      (t.writeBuffer.rest = [] → t.covered < t.buf.b.length ∧ t.buf.i = t.covered)

variable {t : Transceiver}

theorem progress_payload (h : t.writeState = .payload) (fs : List Frame)
    (messages : List (List UInt8)) :
    t.Progress fs messages ↔
      messages = messagesOf fs ∧ 0 < t.writePayloadLength ∧ 0 < t.covered ∧
      t.covered ≤ t.buf.b.length ∧ t.writeBuffer.b ≠ [] ∧
      t.sent ++ t.writeBuffer.rest ++ t.maskOut t.covered (t.buf.b.drop t.covered) =
        encodeFrames (!t.incoming) fs ∧
      (t.writeBuffer.rest = [] → t.covered < t.buf.b.length ∧ t.buf.i = t.covered) := by
  unfold Progress
  rw [h]

/-- The state between two rounds of the loop of `write`, and between two calls. -/
structure WriteInv (t : Transceiver) (messages : List (List UInt8)) : Prop where
  isOpen : t.IsOpen
  ping : t.pingPayload.length ≤ 125
  size : t.buf.b.length < 2 ^ 63
  position : t.writeBuffer.i ≤ t.writeBuffer.b.length
  progress : ∃ fs, (∀ f ∈ fs, f.WellFormed ∧ f.fin = true) ∧ t.Progress fs messages

/-- A pong that is due does not stop the current message: it has not been started and one pong is
    due, or all that is left of it is written in the next round. -/
def Safe (t : Transceiver) : Prop :=
  t.state = .opened ∨
    match t.writeState with
    | .payload => (t.incoming = true ∧ t.writeBuffer.rest = []) ∨ t.covered = t.buf.b.length
    | _ => t.buf.Written ∨ t.nextState = .opened

theorem safe_between (h : t.writeState ≠ .payload) :
    t.Safe ↔ t.state = .opened ∨ t.buf.Written ∨ t.nextState = .opened := by
  unfold Safe
  cases hst : t.writeState with
  | payload => exact absurd hst h
  | header => rfl
  | controlFrame => rfl

end Transceiver

section Headers

theorem lengthBytes_eq (flag : UInt8) (n : Nat) :
    lengthBytes flag n = [flag ||| UInt8.ofNat (Frame.length7 n)] ++ Frame.lengthExt n := by
  unfold lengthBytes Frame.length7 Frame.lengthExt
  split
  · rfl
  · split <;> rfl

theorem length_headerBytes (incoming : Bool) (opCode : UInt8) (n : Nat) (m : Mask) :
    0 < (headerBytes incoming opCode n m).length ∧
      (headerBytes incoming opCode n m).length ≤ 14 := by
  have hext : (Frame.lengthExt n).length ≤ 8 := by
    unfold Frame.lengthExt
    split
    · simp
    · split <;> simp
  have hmask : (if incoming then [] else m.bytes).length ≤ 4 := by
    split <;> simp
  rw [headerBytes, lengthBytes_eq]
  simp only [length_append, length_singleton]
  omega

/-- A header and the payload behind it are a frame. -/
theorem headerBytes_append (incoming : Bool) (opCode : UInt8) (payload : List UInt8) (m : Mask) :
    headerBytes incoming opCode payload.length m ++
        (if incoming then payload else m.apply 0 payload) =
      Frame.encode (!incoming) ⟨opCode, true, payload, m⟩ := by
  rw [headerBytes, lengthBytes_eq]
  cases incoming <;>
    simp [Frame.encode, Frame.byte0, Frame.byte1, Frame.headerRest, Frame.body]

/-- The header is at the start of the write buffer, with room behind it. -/
theorem prepareWriteHeader_spec (opCode : UInt8) (length : Nat) (t : Transceiver) :
    wp (prepareWriteHeader opCode length)
      (fun _ t' => ∃ m ms base, t' = { t with
          writeMask := m
          masks := ms
          writeBuffer := put (headerBytes t.incoming opCode length m) base } ∧
        base.i = 0 ∧ base.b.length = writeBufferSize t.incoming)
      (fun _ _ => False) t := by
  simp only [prepareWriteHeader, wp_bind, wp_get, wp_runIf, wp_modify]
  exact ⟨fun _ => ⟨_, _, _, rfl, rfl, length_resize _ _⟩,
    fun _ => ⟨t.writeMask, t.masks, _, rfl, rfl, length_resize _ _⟩⟩

/-- What is put into a buffer at its start. -/
theorem Buffer.take_put_zero {buf : Buffer} (h : buf.i = 0) (as : List UInt8) :
    (buf.put as).b.take (buf.put as).i = as := by
  have hi : buf.i ≤ buf.b.length := by omega
  rw [take_put_position hi, h, take_zero, nil_append]

/-- A control frame is in the write buffer. -/
theorem prepareControlFrame_spec (opCode : UInt8) (payload : List UInt8) (t : Transceiver) :
    wp (prepareControlFrame opCode payload)
      (fun _ t' => ∃ m ms, t' = { t with
          writeMask := m
          masks := ms
          writeBuffer := ⟨Frame.encode (!t.incoming) ⟨opCode, true, payload, m⟩, 0⟩
          writeState := .controlFrame })
      (fun _ _ => False) t := by
  refine wp_seq (prepareWriteHeader_spec opCode payload.length t) fun _ t1 h1 => ?_
  obtain ⟨m, ms, base, rfl, hi, -⟩ := h1
  refine ⟨m, ms, ?_⟩
  have hbase : base.i ≤ base.b.length := by omega
  have hput := put_put hbase (headerBytes t.incoming opCode payload.length m)
  unfold startWriteBuffer
  dsimp only
  rw [hput, take_put_zero hi]
  congr 2
  exact headerBytes_append ..

end Headers

section Filling

variable {t : Transceiver} {base : Buffer} {header : List UInt8}

/-- The start of a message goes into the write buffer behind the header. -/
theorem fillWriteBuffer_start (hlen : t.writePayloadLength = 0) (hi : t.buf.i = 0)
    (hwb : t.writeBuffer = base.put header) (hbase : base.i = 0)
    (hroom : header.length < base.b.length) :
    fillWriteBuffer t =
      let start := t.buf.b.take (base.b.length - header.length)
      { t with
        writeBuffer := ⟨header ++ t.maskOut 0 start, 0⟩
        writePayloadLength := start.length
        buf := { t.buf with i := if t.incoming then start.length else 0 } } := by
  have hwi : t.writeBuffer.i = header.length := by
    rw [hwb]
    show base.i + header.length = _
    omega
  have hwl : t.writeBuffer.b.length = base.b.length := by
    rw [hwb, length_put (by omega)]
  have hne : t.writeBuffer.i ≠ t.writeBuffer.b.length := by omega
  have hput : ∀ bytes, (t.writeBuffer.put bytes).b.take (t.writeBuffer.put bytes).i =
      header ++ bytes := fun bytes => by
    rw [hwb, put_put (by omega), take_put_zero hbase]
  unfold fillWriteBuffer
  cases hin : t.incoming with
  | false =>
    rw [if_pos ⟨rfl, .inl hlen⟩, if_neg hne]
    simp only [startWriteBuffer, rest, hi, drop_zero, maskOut, hin, hwl, hwi,
      Bool.false_eq_true, if_false, Nat.zero_add]
    have hput' := hput (t.writeMask.apply 0 (t.buf.b.take (base.b.length - header.length)))
    rw [← hwi] at hput' ⊢
    rw [hput']
    congr 1
    cases hb : t.buf
    rw [hb] at hi
    cases hi
    rfl
  | true =>
    rw [if_neg (by simp), if_pos hlen]
    simp only [startWriteBuffer, rest, hi, drop_zero, maskOut, hin, hwl, hwi, if_true,
      Nat.zero_add, hput]

/-- The next part of a message replaces what was in the write buffer. -/
theorem fillWriteBuffer_next (hin : t.incoming = false)
    (hend : t.writeBuffer.i = t.writeBuffer.b.length) : fillWriteBuffer t = { t with
      writeBuffer :=
        ⟨t.writeMask.apply t.buf.i (t.buf.rest.take t.writeBuffer.b.length), 0⟩
      writePayloadLength := t.buf.i + (t.buf.rest.take t.writeBuffer.b.length).length } := by
  have hput := take_put_zero (show ({ t.writeBuffer with i := 0 } : Buffer).i = 0 from rfl)
    (t.writeMask.apply t.buf.i (t.buf.rest.take t.writeBuffer.b.length))
  unfold fillWriteBuffer
  rw [if_pos ⟨hin, .inr hend⟩, if_pos hend]
  simp only [startWriteBuffer, Nat.sub_zero, hput]

theorem fillWriteBuffer_same (hlen : 0 < t.writePayloadLength)
    (h : t.incoming = true ∨ t.writeBuffer.i ≠ t.writeBuffer.b.length) : fillWriteBuffer t = t := by
  unfold fillWriteBuffer
  rw [if_neg, if_neg (by omega)]
  rintro ⟨hin, h' | h'⟩
  · omega
  · rcases h with h | h
    · simp [h] at hin
    · exact h h'

end Filling

namespace Transceiver

/-- The pongs that are due. -/
def pongs (t : Transceiver) : Nat :=
  if t.state = .pongPending then if t.nextState = .pongPending then 2 else 1 else 0

/-- A bound for the rounds that the loop of `write` has left. -/
def roundsLeft (t : Transceiver) : Nat :=
  t.pongs + match t.writeState with
    | .payload => t.buf.b.length - t.covered + if t.writeBuffer.rest = [] then 1 else 2
    | _ => if t.buf.Written then 0 else t.buf.b.length + 1

end Transceiver

theorem Buffer.rest_eq_nil {buf : Buffer} (h : buf.i ≤ buf.b.length) :
    buf.rest = [] ↔ buf.i = buf.b.length := by
  rw [rest, drop_eq_nil_iff]
  omega

/-- The state after `preWrite`, which returned `r`: there is something to write if it returned
    true. -/
structure Loaded (t t' : Transceiver) (r : Bool) (messages : List (List UInt8)) : Prop where
  inv : t'.WriteInv messages
  safe : t'.Safe
  rounds : t'.roundsLeft ≤ t.roundsLeft
  length : t'.buf.b.length = t.buf.b.length
  more : r = true → t'.writeState ≠ .header ∧
    (t'.writeState = .payload → t'.incoming = true ∨ t'.writeBuffer.rest ≠ [])
  idle : r = false → (t'.writeState = .header ∧ t'.state = .opened ∧ t'.buf.Written) ∨
    (t'.writeState = .controlFrame ∧ t'.writeBuffer.rest = [])

section Rounds

variable {t : Transceiver} {messages : List (List UInt8)}

theorem frame_data_ok {payload : List UInt8} (h : payload.length < 2 ^ 63) (m : Mask) :
    Frame.WellFormed ⟨opData, true, payload, m⟩ where
  kind := .inr (.inl rfl)
  control := by
    rintro (h | h | h)
    · exact absurd (show opData = opClose from h) (by decide)
    · exact absurd (show opData = opPing from h) (by decide)
    · exact absurd (show opData = opPong from h) (by decide)
  length := h

theorem all_append_frame {fs : List Frame} {f : Frame}
    (h : ∀ g ∈ fs, g.WellFormed ∧ g.fin = true) (hf : f.WellFormed ∧ f.fin = true) :
    ∀ g ∈ fs ++ [f], g.WellFormed ∧ g.fin = true := by
  intro g hg
  rcases mem_append.mp hg with hg | hg
  · exact h g hg
  · rw [mem_singleton.mp hg]
    exact hf

section

variable (h : t.WriteInv messages)
include h

/-- The header and a first part of a message are in the write buffer. -/
theorem loaded_message (hst : t.writeState = .header)
    (hop : t.state = .opened) (hnew : ¬ t.buf.Written) {m : Mask} {ms : List Mask}
    {part : List UInt8} (hpart : part <+: t.buf.b) (hne : part ≠ []) {t' : Transceiver}
    (ht : t' = { t with
      writeMask := m
      masks := ms
      writeState := .payload
      writeBuffer := ⟨headerBytes t.incoming opData t.buf.b.length m ++
        (if t.incoming then part else m.apply 0 part), 0⟩
      writePayloadLength := part.length
      buf := { t.buf with i := if t.incoming then part.length else 0 } }) :
        Loaded t t' true messages := by
  obtain ⟨fs, hwf, hprog⟩ := h.progress
  rw [Progress, hst] at hprog
  obtain ⟨hsent, ⟨hms, -⟩, -⟩ := hprog
  have hsplit := prefix_iff_eq_append.mp hpart
  have hpos := length_pos_iff.mpr hne
  have hle := hpart.length_le
  have hrest : ∀ bytes : List UInt8,
      rest ⟨headerBytes t.incoming opData t.buf.b.length m ++ bytes, 0⟩ ≠ [] := by
    intro bytes hnil
    have hlen := congrArg length hnil
    have := (length_headerBytes t.incoming opData t.buf.b.length m).1
    simp only [rest, drop_zero, length_append, length_nil] at hlen
    omega
  have hcov : t'.covered = part.length := by
    simp only [ht, covered]
    split <;> rfl
  subst ht
  refine ⟨⟨h.isOpen, h.ping, h.size, Nat.zero_le _, fs ++ [⟨opData, true, t.buf.b, m⟩],
    all_append_frame hwf ⟨frame_data_ok h.size m, rfl⟩, ?_⟩, .inl hop, ?_, rfl,
    fun _ => ⟨by simp, fun _ => .inr (hrest _)⟩, by simp⟩
  · rw [progress_payload rfl, hcov]
    refine ⟨?_, hpos, hpos, hle, ?_, ?_, fun hnil => absurd hnil (hrest _)⟩
    · rw [hms, unsent, if_neg hnew, messagesOf_append, messagesOf_data rfl]
    · exact fun hnil => hrest _ hnil
    · rw [encodeFrames_append, hsent, append_assoc]
      congr 1
      rw [encodeFrames_cons, encodeFrames_nil, List.append_nil, ← headerBytes_append]
      simp only [rest, drop_zero, append_assoc]
      congr 1
      cases hin : t.incoming with
      | true => simpa [maskOut, hin] using hsplit
      | false =>
        simp only [maskOut, Bool.false_eq_true, if_false]
        conv_rhs => rw [← hsplit, Mask.apply_append, Nat.zero_add]
  · rw [roundsLeft, roundsLeft, hcov]
    simp only [hst, if_neg hnew, if_neg (hrest _)]
    simp only [pongs]
    omega

theorem preWrite_message (hst : t.writeState = .header) (hop : t.state = .opened)
    (hnew : ¬ t.buf.Written) :
    wp preWrite (fun r t' => Loaded t t' r messages) (fun _ _ => False) t := by
  obtain ⟨fs, hwf, hprog⟩ := h.progress
  rw [Progress, hst] at hprog
  have hi := hprog.2.1.2 hnew
  have hb : t.buf.b ≠ [] := fun hnil => hnew (.inl hnil)
  have hpos := length_pos_iff.mpr hb
  simp only [preWrite, preWriteHeader, wp_bind, wp_get]
  rw [if_pos hst, wp_bind, wp_bind, wp_get, if_pos hop,
    if_neg (show ¬ (t.buf.b = [] ∨ t.buf.atEnd = true) from hnew)]
  simp only [check, wp_bind, wp_throwIf]
  refine ⟨fun hne => absurd hi hne, fun _ => ?_⟩
  refine wp_post (prepareWriteHeader_spec opData t.buf.b.length t) fun _ t1 h1 => ?_
  obtain ⟨m, ms, base, rfl, hbase, hsize⟩ := h1
  simp only [preWritePayload, wp_bind, wp_get, wp_modify, wp_pure, if_true]
  have hhdr := (length_headerBytes t.incoming opData t.buf.b.length m).2
  have hbig : 14 < base.b.length := by
    rw [hsize, writeBufferSize]
    split <;> decide
  have hfill := fillWriteBuffer_start (t := { t with
    writeMask := m
    masks := ms
    writeState := .payload
    writeBuffer := put (headerBytes t.incoming opData t.buf.b.length m) base
    writePayloadLength := 0 }) rfl hi rfl hbase (by omega)
  rw [hfill]
  refine loaded_message h hst hop hnew (List.take_prefix _ _) (fun hnil => ?_) rfl
  have hlen := congrArg length hnil
  simp only [length_take, length_nil] at hlen
  omega

theorem preWrite_pong (hsafe : t.Safe) (hst : t.writeState = .header)
    (hop : t.state = .pongPending) :
    wp preWrite (fun r t' => Loaded t t' r messages) (fun _ _ => False) t := by
  obtain ⟨fs, hwf, hprog⟩ := h.progress
  rw [Progress, hst] at hprog
  obtain ⟨hsent, ⟨hms, hzero⟩, -⟩ := hprog
  simp only [preWrite, preWriteHeader, wp_bind, wp_get]
  rw [if_pos hst, wp_bind, wp_bind, wp_get, if_neg (by simp [hop]),
    if_neg (by simp [hop]), if_pos hop]
  refine wp_seq (prepareControlFrame_spec opPong t.pingPayload t) fun _ t1 h1 => ?_
  obtain ⟨m, ms, rfl⟩ := h1
  rw [safe_between (by simp [hst])] at hsafe
  refine ⟨⟨h.isOpen, Nat.zero_le _, h.size, Nat.zero_le _, fs ++ [⟨opPong, true, t.pingPayload, m⟩],
    all_append_frame hwf ⟨⟨.inl (.inr (.inr rfl)), fun _ => ⟨rfl, h.ping⟩,
      h.ping.trans_lt (by decide)⟩, rfl⟩, ?_⟩, (safe_between (by simp)).mpr hsafe, ?_,
    rfl, by simp, ?_⟩
  · refine ⟨hop, rfl, ?_, ?_, hzero⟩
    · rw [encodeFrames_append, hsent]
      simp [rest]
    · rw [hms, messagesOf_append, messagesOf_pong rfl, List.append_nil]
      rfl
  · simp only [roundsLeft, hst]
    exact le_rfl
  · intro hr
    exact absurd (of_decide_eq_false hr) (by simp [Frame.encode])

/-- An outgoing connection has given its write buffer to the delegate: the next part of the message
    goes into it. -/
theorem loaded_next (hop : t.state = .opened)
    (hst : t.writeState = .payload) (hin : t.incoming = false) (hnil : t.writeBuffer.rest = []) :
    Loaded t { t with
      writeBuffer :=
        ⟨t.writeMask.apply t.buf.i (t.buf.rest.take t.writeBuffer.b.length), 0⟩
      writePayloadLength := t.buf.i + (t.buf.rest.take t.writeBuffer.b.length).length } true
      messages := by
  obtain ⟨fs, hwf, hprog⟩ := h.progress
  rw [progress_payload hst] at hprog
  obtain ⟨hms, hlen, -, -, hwb, hsent, hnext⟩ := hprog
  obtain ⟨hlt, hi⟩ := hnext hnil
  rw [← hi] at hlt hsent
  have hcovered : t.covered = t.writePayloadLength := by simp [covered, hin]
  have hwb' := length_pos_iff.mpr hwb
  generalize hpart : t.buf.rest.take t.writeBuffer.b.length = part
  have hprefix : part <+: t.buf.rest := hpart ▸ take_prefix _ _
  have hsplit := prefix_iff_eq_append.mp hprefix
  have hrestLen : t.buf.rest.length = t.buf.b.length - t.buf.i := length_drop
  have hplen : part.length = min t.writeBuffer.b.length (t.buf.b.length - t.buf.i) := by
    rw [← hpart, length_take, hrestLen]
  have hrest : rest ⟨t.writeMask.apply t.buf.i part, 0⟩ ≠ [] := by
    intro hnil'
    have hlen' := congrArg length hnil'
    simp only [rest, drop_zero, Mask.length_apply, length_nil] at hlen'
    omega
  have hcov : Transceiver.covered { t with
      writeBuffer := ⟨t.writeMask.apply t.buf.i part, 0⟩
      writePayloadLength := t.buf.i + part.length } = t.buf.i + part.length := by
    simp [covered, hin]
  refine ⟨⟨h.isOpen, h.ping, h.size, Nat.zero_le _, fs, hwf, ?_⟩, .inl hop, ?_, rfl,
    fun _ => ⟨by simp [hst], fun _ => .inr hrest⟩, by simp⟩
  · rw [progress_payload (by exact hst), hcov]
    have hle : t.buf.i + part.length ≤ t.buf.b.length := by omega
    refine ⟨hms, ?_, by omega, hle, ?_, ?_, fun hnil' => absurd hnil' hrest⟩
    · show 0 < t.buf.i + part.length
      omega
    · exact fun hnil' => hrest hnil'
    · rw [← hsent, hnil, List.append_nil, append_assoc]
      congr 1
      simp only [maskOut, hin, Bool.false_eq_true, if_false, rest, drop_zero]
      rw [← drop_drop]
      conv_rhs => rw [← rest, ← hsplit, Mask.apply_append]
      rfl
  · rw [roundsLeft, roundsLeft, hcov, hcovered]
    simp only [hst, if_neg hrest, if_pos hnil]
    simp only [pongs]
    omega

theorem preWrite_payload (hsafe : t.Safe) (hst : t.writeState = .payload) :
    wp preWrite (fun r t' => Loaded t t' r messages) (fun _ _ => False) t := by
  obtain ⟨fs, hwf, hprog⟩ := h.progress
  rw [progress_payload hst] at hprog
  obtain ⟨-, hlen, -, -, -, -, hnext⟩ := hprog
  simp only [preWrite, wp_bind, wp_get]
  rw [if_neg (by simp [hst])]
  simp only [preWritePayload, wp_bind, wp_get]
  rw [if_pos hst]
  simp only [wp_bind, wp_modify, wp_pure]
  by_cases hsame : t.incoming = true ∨ t.writeBuffer.i ≠ t.writeBuffer.b.length
  · rw [fillWriteBuffer_same hlen hsame]
    refine ⟨h, hsafe, le_rfl, rfl, fun _ => ⟨by simp [hst], fun _ => ?_⟩, by simp⟩
    exact hsame.imp_right fun hne hnil => hne ((rest_eq_nil h.position).mp hnil)
  · have hin : t.incoming = false := by simpa using (not_or.mp hsame).1
    have hend : t.writeBuffer.i = t.writeBuffer.b.length := by simpa using (not_or.mp hsame).2
    have hnil := (rest_eq_nil h.position).mpr hend
    have hop : t.state = .opened := by
      rcases hsafe with hop | hsafe
      · exact hop
      · have hlt := (hnext hnil).1
        simp only [hst, hin, Bool.false_eq_true, false_and, false_or] at hsafe
        omega
    rw [fillWriteBuffer_next hin hend]
    exact loaded_next h hop hst hin hnil

theorem preWrite_controlFrame (hsafe : t.Safe) (hst : t.writeState = .controlFrame) :
    wp preWrite (fun r t' => Loaded t t' r messages) (fun _ _ => False) t := by
  simp only [preWrite, wp_bind, wp_get]
  rw [if_neg (by simp [hst])]
  simp only [preWritePayload, wp_bind, wp_get]
  rw [if_neg (by simp [hst]), wp_pure]
  refine ⟨h, hsafe, le_rfl, rfl, fun _ => ⟨by simp [hst], by simp [hst]⟩, fun hr => .inr ⟨hst, ?_⟩⟩
  have hge := of_decide_eq_false hr
  have hle := h.position
  exact (rest_eq_nil hle).mpr (by omega)

theorem preWrite_spec (hsafe : t.Safe) :
    wp preWrite (fun r t' => Loaded t t' r messages) (fun _ _ => False) t := by
  cases hst : t.writeState with
  | header =>
    rcases h.isOpen.1 with hop | hop
    · by_cases hdone : t.buf.Written
      · simp only [preWrite, preWriteHeader, wp_bind, wp_get]
        rw [if_pos hst, wp_bind, wp_bind, wp_get, if_pos hop,
          if_pos (show t.buf.b = [] ∨ t.buf.atEnd = true from hdone)]
        exact ⟨h, hsafe, le_rfl, rfl, by simp, fun _ => .inl ⟨hst, hop, hdone⟩⟩
      · exact preWrite_message h hst hop hdone
    · exact preWrite_pong h hsafe hst hop
  | payload => exact preWrite_payload h hsafe hst
  | controlFrame => exact preWrite_controlFrame h hsafe hst

end

end Rounds

end Ice.WebSocket
