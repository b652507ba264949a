import Ice.WebSocket.Transceiver

/-!
# The frame parser of the receive path

`Expects t todo` says, for each state of the frame parser, which bytes the transceiver has still to
consume, from its read buffer and from the delegate, and that `todo` is the payload in them. The
functions of `preRead` that parse headers and control frames keep it, wherever the bytes are split.
-/

namespace Ice.WebSocket

open List

/-- The frames that a peer sends after a frame whose FIN bit is `last`: data frames and their
    continuations, none of them empty, with ping and pong frames between them. -/
def Sequence (last : Bool) : List Frame → Prop
  | [] => True
  | f :: fs =>
    ((f.opCode = opPing ∨ f.opCode = opPong) ∧ f.fin = true ∧ f.payload.length ≤ 125 ∧
        Sequence last fs) ∨
      (f.opCode = (if last then opData else opCont) ∧ 0 < f.payload.length ∧
        f.payload.length ≤ 2147483647 ∧ Sequence f.fin fs)

/-- The payloads of the data and continuation frames. -/
def payloads (fs : List Frame) : List UInt8 :=
  fs.flatMap fun f => if f.IsData then f.payload else []

theorem payloads_cons (f : Frame) (fs : List Frame) :
    payloads (f :: fs) = (if f.IsData then f.payload else []) ++ payloads fs := rfl

/-- A frame of a sequence: a ping or pong frame, or a data frame that is not empty. -/
def Frame.Acceptable (f : Frame) : Prop :=
  (f.opCode = opPing ∨ f.opCode = opPong) ∧ f.fin = true ∧ f.payload.length ≤ 125 ∨
    f.IsData ∧ 0 < f.payload.length ∧ f.payload.length ≤ 2147483647

namespace Transceiver

/-- The positions in the read buffer and in the destination are inside. -/
structure BufOk (t : Transceiver) : Prop where
  readI : t.readI ≤ t.readBuffer.i
  readBuffer : t.readBuffer.i ≤ t.readBuffer.b.length
  buf : t.buf.i ≤ t.buf.b.length

/-- The bytes of the peer that have not been consumed. -/
def pending (t : Transceiver) : List UInt8 := t.buffered ++ t.wire

/-- The payload of a received frame as the peer masked it. -/
def maskIn (t : Transceiver) (n : Nat) (p : List UInt8) : List UInt8 :=
  if t.incoming then t.readMask.apply n p else p

/-- What is to come in each state of the parser. -/
def Expects (t : Transceiver) (todo : List UInt8) : Prop :=
  match t.readState with
  | .opcode => ∃ fs, Sequence t.readLastFrame fs ∧ t.pending = encodeFrames t.incoming fs ∧
      todo = payloads fs
  | .header => ∃ f fs, f.Acceptable ∧ Sequence t.readLastFrame fs ∧ t.readOpCode = f.opCode ∧
      t.readPayloadLength = Frame.length7 f.payload.length ∧
      t.readHeaderLength = (f.headerRest t.incoming).length ∧
      t.pending = f.headerRest t.incoming ++ f.body t.incoming ++ encodeFrames t.incoming fs ∧
      todo = payloads (f :: fs)
  | .controlFrame =>
    ∃ (f : Frame) (fs : List Frame), (f.opCode = opPing ∨ f.opCode = opPong) ∧
      f.payload.length ≤ 125 ∧
      Sequence t.readLastFrame fs ∧ t.readPayloadLength = f.payload.length ∧
      t.pending = f.body t.incoming ++ encodeFrames t.incoming fs ∧ todo = payloads fs
  | .payload => ∃ p fs, p ≠ [] ∧ Sequence t.readLastFrame fs ∧ t.readPayloadLength = p.length ∧
      t.pending = t.maskIn t.readFrameOffset p ++ encodeFrames t.incoming fs ∧
      todo = p ++ payloads fs

/-- The state between two calls of `read`. -/
structure ReadInv (t : Transceiver) (todo : List UInt8) : Prop where
  ok : t.BufOk
  expects : t.Expects todo

end Transceiver

open Transceiver

section Buffers

variable {t t' : Transceiver} {todo : List UInt8}

theorem length_buffered (h : t.BufOk) : t.buffered.length = t.readBuffer.i - t.readI := by
  have := h.readBuffer
  simp only [buffered, length_drop, length_take]
  omega

/-- The read buffer after its unread bytes have been moved to the front. -/
theorem buffered_moved (bs tail : List UInt8) (n : Nat) (hn : bs.length ≤ n) :
    (((Buffer.resize n ⟨bs ++ tail, bs.length⟩).b.take bs.length).drop 0) = bs := by
  simp only [Buffer.resize, drop_zero]
  rw [take_append_of_le_length, take_take, Nat.min_eq_left hn, take_left]
  simp only [length_take, length_append]
  omega

theorem length_resize (n : Nat) (buf : Buffer) : (buf.resize n).b.length = n := by
  simp only [Buffer.resize, length_append, length_take, length_replicate]
  omega

/-- `makeRoom` changes positions only. -/
theorem makeRoom_eq (sz : Nat) (t : Transceiver) :
    ∃ rb ri, makeRoom sz t = { t with readBuffer := rb, readI := ri } := by
  unfold makeRoom
  split
  · exact ⟨_, _, rfl⟩
  · split <;> exact ⟨_, _, rfl⟩

theorem makeRoom_spec (h : t.BufOk) (sz : Nat) :
    (makeRoom sz t).BufOk ∧ (makeRoom sz t).buffered = t.buffered ∧
      (t.buffered.length < sz →
        (makeRoom sz t).readBuffer.i < (makeRoom sz t).readBuffer.b.length) := by
  have hlen := length_buffered h
  unfold makeRoom
  by_cases hempty : t.readI = t.readBuffer.i
  · rw [if_pos hempty]
    have hnil : t.buffered = [] := length_eq_zero_iff.mp (by omega)
    refine ⟨⟨le_rfl, Nat.zero_le _, h.buf⟩, by rw [hnil]; simp [buffered], fun _ => ?_⟩
    rw [length_resize]
    exact (by decide : 0 < readBufferSize)
  · rw [if_neg hempty]
    by_cases hfew : t.readBuffer.i - t.readI < sz
    · rw [if_pos hfew]
      have hmax : t.buffered.length ≤ max readBufferSize sz := by omega
      refine ⟨⟨Nat.zero_le _, ?_, h.buf⟩, buffered_moved _ _ _ hmax, fun _ => ?_⟩
      · rw [length_resize]
        exact hmax
      · rw [length_resize]
        show t.buffered.length < max readBufferSize sz
        omega
    · rw [if_neg hfew]
      exact ⟨h, rfl, fun hlt => by omega⟩

/-- `readBuffered` keeps the unread bytes, and makes room if there are too few. -/
theorem readBuffered_spec (h : t.BufOk) {sz : Nat} (h0 : 0 < sz) : wp (readBuffered sz)
      (fun r t' => (∃ rb ri, t' = { t with readBuffer := rb, readI := ri, readStart := rb.i }) ∧
        t'.BufOk ∧ t'.buffered = t.buffered ∧
        (r = true → sz ≤ t.buffered.length) ∧
        (r = false → t.buffered.length < sz ∧ t'.readBuffer.i < t'.readBuffer.b.length))
      (fun _ _ => False) t := by
  obtain ⟨hok, hbuf, hroom⟩ := makeRoom_spec h sz
  have hlen := length_buffered hok
  rw [hbuf] at hlen
  simp only [readBuffered, wp_bind, wp_modify, wp_get]
  obtain ⟨rb, ri, hm⟩ := makeRoom_eq sz t
  rw [hm] at hok hbuf hroom hlen ⊢
  have hok' : ({ t with readBuffer := rb, readI := ri, readStart := rb.i } : Transceiver).BufOk :=
    { hok with }
  split
  · rename_i hgt
    exact ⟨⟨rb, ri, rfl⟩, hok', hbuf, by simp, fun _ => ⟨by omega, hroom (by omega)⟩⟩
  · rename_i hle
    rw [wp_bind, check, wp_throwIf, wp_pure]
    refine ⟨fun hne => hne (by omega), fun _ => ?_⟩
    exact ⟨⟨rb, ri, rfl⟩, hok', hbuf, fun _ => by omega, by simp⟩

theorem buffered_advance (h : t.BufOk) {n : Nat} (hn : n ≤ t.buffered.length) :
    ({ t with readI := t.readI + n } : Transceiver).BufOk ∧
      ({ t with readI := t.readI + n } : Transceiver).buffered = t.buffered.drop n := by
  have hlen := length_buffered h
  have hI := h.readI
  refine ⟨⟨by simp only; omega, h.readBuffer, h.buf⟩, ?_⟩
  simp only [buffered, drop_drop]

variable {bs : List UInt8}

theorem nextByte_spec (h : t.BufOk) {b : UInt8} (hb : t.buffered = b :: bs) :
    wp nextByte (fun a t' => a = b ∧ t' = { t with readI := t.readI + 1 } ∧ t'.BufOk ∧
      t'.buffered = bs) (fun _ _ => False) t := by
  obtain ⟨hok, hrest⟩ := buffered_advance h (n := 1) (by simp [hb])
  have hget : t.readBuffer.b.getD t.readI 0 = b := by
    have hi : t.readI < t.readBuffer.i := by
      have := length_buffered h
      rw [hb, length_cons] at this
      omega
    have hhead : t.buffered[0]? = some b := by rw [hb]; rfl
    rw [buffered, getElem?_drop, getElem?_take, if_pos (by omega)] at hhead
    rw [getD_eq_getElem?_getD]
    simp only [Nat.add_zero] at hhead
    rw [hhead]
    rfl
  simp only [nextByte, wp_bind, wp_get, wp_set, wp_pure]
  exact ⟨hget, trivial, hok, by rw [hrest, hb]; rfl⟩

theorem nextBytes_spec (h : t.BufOk) {as bs : List UInt8} (hb : t.buffered = as ++ bs) :
    wp (nextBytes as.length) (fun a t' => a = as ∧ t' = { t with readI := t.readI + as.length } ∧
      t'.BufOk ∧ t'.buffered = bs) (fun _ _ => False) t := by
  obtain ⟨hok, hrest⟩ := buffered_advance h (n := as.length) (by simp [hb])
  simp only [nextBytes, wp_bind, wp_get, wp_set, wp_pure]
  refine ⟨by rw [hb, take_left], trivial, hok, by rw [hrest, hb, drop_left]⟩

end Buffers

section Headers

variable {t : Transceiver} {f : Frame}

theorem length7_le (n : Nat) : Frame.length7 n ≤ 127 := by
  unfold Frame.length7
  split
  · omega
  · split <;> omega

theorem Frame.Acceptable.opCode_cases (h : f.Acceptable) :
    f.opCode = opPing ∨ f.opCode = opPong ∨ f.opCode = opData ∨ f.opCode = opCont := by
  rcases h with ⟨h, -⟩ | ⟨h, -⟩
  · rcases h with h | h
    · exact .inl h
    · exact .inr (.inl h)
  · exact .inr (.inr h)

theorem byte0_bits (h : f.Acceptable) : f.byte0 &&& 0xf = f.opCode ∧ f.byte0 &&& 0x70 = 0 ∧
      decide (f.byte0 &&& flagFinal = flagFinal) = f.fin := by
  unfold Frame.byte0
  rcases h.opCode_cases with h | h | h | h <;> rw [h] <;> cases f.fin <;> decide

theorem byte1_bits (masked : Bool) (f : Frame) :
    decide (f.byte1 masked &&& flagMasked = flagMasked) = masked ∧
      (f.byte1 masked &&& 0x7f).toNat = Frame.length7 f.payload.length := by
  have hbits : ∀ masked : Bool, ∀ l : Fin 128,
      decide (((if masked then flagMasked else 0) ||| UInt8.ofNat l) &&& flagMasked = flagMasked) =
          masked ∧
        (((if masked then flagMasked else 0) ||| UInt8.ofNat l) &&& 0x7f).toNat = l := by
    decide
  exact hbits masked ⟨_, Nat.lt_succ_of_le (length7_le _)⟩

theorem length_headerRest (masked : Bool) (f : Frame) :
    extraHeaderLength (Frame.length7 f.payload.length) masked = (f.headerRest masked).length := by
  unfold extraHeaderLength Frame.headerRest Frame.lengthExt Frame.length7
  rw [length_append]
  congr 1
  · by_cases h125 : f.payload.length ≤ 125
    · simp only [h125, if_true, length_nil]
      rw [if_pos (by omega)]
    · by_cases h16 : f.payload.length ≤ 65535
      · simp [h125, h16]
      · simp [h125, h16]
  · split <;> rfl

/-- The FIN bit that the next data frame is checked against. -/
def lastAfter (last : Bool) (f : Frame) : Bool := if f.IsData then f.fin else last

theorem checkLastFrame_spec (hlast : f.IsData → f.opCode = if t.readLastFrame then
    opData else opCont) :
    wp (checkLastFrame f.opCode f.fin)
      (fun _ t' => t' = { t with readLastFrame := lastAfter t.readLastFrame f })
      (fun _ _ => False) t := by
  unfold checkLastFrame lastAfter
  rw [wp_bind, wp_get]
  by_cases hdata : f.IsData
  · have hop := hlast hdata
    simp only [if_pos hdata]
    by_cases hl : t.readLastFrame = true
    · rw [if_pos hl] at hop
      rw [if_pos hop, wp_bind, wp_throwIf, wp_modify]
      exact ⟨fun hne => by simp [hl] at hne, fun _ => rfl⟩
    · rw [if_neg hl] at hop
      rw [if_neg (by rw [hop]; decide), if_pos hop, wp_bind, wp_throwIf, wp_modify]
      exact ⟨fun hne => absurd hne hl, fun _ => rfl⟩
  · have hne : ¬ f.opCode = opData ∧ ¬ f.opCode = opCont :=
      ⟨fun h => hdata (.inl h), fun h => hdata (.inr h)⟩
    rw [if_neg hne.1, if_neg hne.2, wp_pure, if_neg hdata]

theorem checkControlFrame_spec (hf : f.Acceptable) :
    wp (checkControlFrame f.opCode f.fin (Frame.length7 f.payload.length)) (fun _ t' => t' = t)
      (fun _ _ => False) t := by
  unfold checkControlFrame
  rcases hf with ⟨hop, hfin, hlen⟩ | ⟨hop, -⟩
  · have hl7 : Frame.length7 f.payload.length = f.payload.length := if_pos hlen
    rw [if_pos (.inr hop), wp_bind, wp_throwIf]
    refine ⟨fun hne => by simp [hfin] at hne, fun _ => ?_⟩
    rw [wp_throwIf]
    exact ⟨fun hgt => by omega, fun _ => rfl⟩
  · have hne : ¬ (f.opCode = opClose ∨ f.opCode = opPing ∨ f.opCode = opPong) := by
      rcases hop with hop | hop <;> rw [hop] <;> decide
    rw [if_neg hne, wp_pure]

/-- The first two bytes of a frame that may come next. -/
theorem parseOpcode_spec (h : t.BufOk) (hf : f.Acceptable)
    (hlast : f.IsData → f.opCode = if t.readLastFrame then opData else opCont)
    (hb : t.buffered = f.byte0 :: f.byte1 t.incoming :: bs) : wp parseOpcode
      (fun _ t' => t' = { t with
          readI := t.readI + 2, readOpCode := f.opCode
          readLastFrame := lastAfter t.readLastFrame f
          readPayloadLength := Frame.length7 f.payload.length
          readHeaderLength := (f.headerRest t.incoming).length, readState := .header } ∧
        t'.BufOk ∧ t'.buffered = bs)
      (fun _ _ => False) t := by
  obtain ⟨hop, hrsv, hfin⟩ := byte0_bits hf
  obtain ⟨hmask, hlen⟩ := byte1_bits t.incoming f
  refine wp_seq (nextByte_spec h hb) fun a t1 h1 => ?_
  obtain ⟨rfl, rfl, hok1, hb1⟩ := h1
  simp only [wp_bind, wp_modify, hop, wp_throwIf, hrsv]
  refine ⟨fun hne => absurd rfl hne, fun _ => ?_⟩
  rw [hfin]
  refine wp_post (checkLastFrame_spec hlast) fun _ t2 h₂ => ?_
  subst h₂
  have hok2 : ({ t with
      readI := t.readI + 1
      readOpCode := f.opCode
      readLastFrame := lastAfter t.readLastFrame f } : Transceiver).BufOk :=
    { hok1 with }
  refine wp_post (nextByte_spec hok2 hb1) fun b t3 h3 => ?_
  obtain ⟨rfl, rfl, hok3, hb3⟩ := h3
  simp only [wp_get, hmask]
  refine ⟨fun hne => absurd rfl hne, fun _ => ?_⟩
  rw [hlen]
  refine wp_post (checkControlFrame_spec hf) fun _ t4 h4 => ?_
  subst h4
  refine ⟨?_, { hok3 with }, hb3⟩
  rw [length_headerRest]

theorem parseLength_spec (h : t.BufOk) {l : Nat} (hl : l ≤ 2147483647)
    (h7 : t.readPayloadLength = Frame.length7 l) (hb : t.buffered = Frame.lengthExt l ++ bs) :
    wp parseLength
      (fun _ t' => (∃ ri, t' = { t with readI := ri, readPayloadLength := l }) ∧ t'.BufOk ∧
        t'.buffered = bs)
      (fun _ _ => False) t := by
  unfold parseLength
  rw [wp_bind, wp_get, h7]
  unfold Frame.length7 Frame.lengthExt at *
  by_cases h125 : l ≤ 125
  · simp only [h125, if_true] at h7 hb ⊢
    rw [if_neg (by omega), if_neg (by omega), wp_pure]
    exact ⟨⟨t.readI, by rw [← h7]⟩, h, hb⟩
  · by_cases h16 : l ≤ 65535
    · simp only [h125, h16, if_true, if_false] at hb ⊢
      refine wp_seq (nextBytes_spec h hb) fun a t1 h1 => ?_
      obtain ⟨rfl, rfl, hok, hrest⟩ := h1
      rw [wp_modify, ofBigEndian_toBigEndian (by omega)]
      exact ⟨⟨_, rfl⟩, { hok with }, hrest⟩
    · simp only [h125, h16, if_false] at hb ⊢
      refine wp_seq (nextBytes_spec h hb) fun a t1 h1 => ?_
      obtain ⟨rfl, rfl, hok, hrest⟩ := h1
      have hval : toInt64 (ofBigEndian (toBigEndian 8 l)) = l := by
        rw [ofBigEndian_toBigEndian (by omega), toInt64, if_pos (by omega)]
      rw [hval, wp_bind, wp_throwIf, wp_modify]
      refine ⟨fun hbad => by omega, fun _ => ?_⟩
      exact ⟨⟨_, rfl⟩, { hok with }, hrest⟩

theorem parseMask_spec (h : t.BufOk) {m : Mask}
    (hb : t.buffered = (if t.incoming then m.bytes else []) ++ bs) : wp parseMask
      (fun _ t' => (∃ ri mk, t' = { t with readI := ri, readMask := mk } ∧
        (t.incoming = true → mk = m)) ∧ t'.BufOk ∧ t'.buffered = bs)
      (fun _ _ => False) t := by
  unfold parseMask
  rw [wp_bind, wp_get]
  by_cases hin : t.incoming = true
  · rw [if_pos hin] at hb ⊢
    have hlen := length_buffered h
    rw [hb, length_append, Mask.length_bytes] at hlen
    rw [wp_bind, check, wp_throwIf]
    refine ⟨fun hlt => absurd (show t.readBuffer.i - t.readI ≥ 4 by omega) hlt, fun _ => ?_⟩
    refine wp_seq (nextBytes_spec h hb) fun a t1 h1 => ?_
    obtain ⟨rfl, rfl, hok, hrest⟩ := h1
    exact ⟨⟨_, _, rfl, fun _ => Mask.ofBytes_bytes m⟩, { hok with }, hrest⟩
  · rw [if_neg hin] at hb ⊢
    exact ⟨⟨t.readI, t.readMask, rfl, fun h => absurd h hin⟩, h, hb⟩

end Headers

/-- What the parser leaves alone while it consumes bytes of the read buffer. -/
structure Kept (t t' : Transceiver) : Prop where
  incoming : t'.incoming = t.incoming
  buf : t'.buf = t.buf
  wire : t'.wire = t.wire
  readSchedule : t'.readSchedule = t.readSchedule
  buffered_le : t'.buffered.length ≤ t.buffered.length

/-- The parser needs more bytes than the read buffer has, and there is room for them. -/
structure Waiting (t : Transceiver) (todo : List UInt8) : Prop where
  state : t.readState ≠ .payload
  start : t.readStart = t.readBuffer.i
  room : t.readBuffer.i < t.readBuffer.b.length
  starved : t.wire = [] → todo = []

section Parser

variable {t : Transceiver} {todo : List UInt8}

theorem Kept.refl (t : Transceiver) : Kept t t := ⟨rfl, rfl, rfl, rfl, le_rfl⟩

theorem Kept.trans {t1 t2 t3 : Transceiver} (h : Kept t1 t2) (h' : Kept t2 t3) : Kept t1 t3 where
  incoming := h'.incoming.trans h.incoming
  buf := h'.buf.trans h.buf
  wire := h'.wire.trans h.wire
  readSchedule := h'.readSchedule.trans h.readSchedule
  buffered_le := h'.buffered_le.trans h.buffered_le

/-- Bytes of a stream that are all in its first part. -/
theorem split_of_length_le {as bs xs ys : List UInt8} (h : as ++ bs = xs ++ ys)
    (hle : xs.length ≤ as.length) : ∃ cs, as = xs ++ cs ∧ cs ++ bs = ys := by
  have htake : as.take xs.length = xs := by
    have := congrArg (take xs.length) h
    rwa [take_append_of_le_length hle, take_left] at this
  refine ⟨as.drop xs.length, ?_, ?_⟩
  · rw [← htake, length_take, Nat.min_eq_left hle, take_append_drop]
  · have := congrArg (drop xs.length) h
    rwa [drop_append_of_le_length hle, drop_left] at this

theorem Sequence.cons_inv {last : Bool} {f : Frame} {fs : List Frame}
    (h : Sequence last (f :: fs)) :
    f.Acceptable ∧ (f.IsData → f.opCode = if last then opData else opCont) ∧
      Sequence (lastAfter last f) fs := by
  have hcontrol : (f.opCode = opPing ∨ f.opCode = opPong) → ¬ f.IsData := by
    rintro (h | h) (h' | h') <;> rw [h] at h' <;> exact absurd h' (by decide)
  rcases h with ⟨hop, hfin, hlen, hfs⟩ | ⟨hop, hpos, hlen, hfs⟩
  · have hnd := hcontrol hop
    exact ⟨.inl ⟨hop, hfin, hlen⟩, fun hd => absurd hd hnd, by rwa [lastAfter, if_neg hnd]⟩
  · have hd : f.IsData := by
      cases last
      · exact .inr hop
      · exact .inl hop
    exact ⟨.inr ⟨hd, hpos, hlen⟩, fun _ => hop, by rwa [lastAfter, if_pos hd]⟩

/-- Moving the unread bytes inside the read buffer changes nothing. -/
theorem Transceiver.Expects.of_buffered {rb : Buffer} {ri rs : Nat} (h : t.Expects todo)
    (hb : ({ t with readBuffer := rb, readI := ri, readStart := rs } : Transceiver).buffered =
      t.buffered) :
    ({ t with readBuffer := rb, readI := ri, readStart := rs } : Transceiver).Expects todo := by
  simp only [Expects, pending, hb]
  exact h

/-- `ReadStateOpcode`: the parser gets to the header of the next frame, or waits. -/
theorem readOpcode_spec (h : t.ReadInv todo) : wp readOpcode
      (fun r t' => t'.ReadInv todo ∧ Kept t t' ∧ (r = true → t'.readState ≠ .opcode ∧
          (t.readState = .opcode → t'.buffered.length + 2 ≤ t.buffered.length) ∧
          (t.readState ≠ .opcode → t' = t)) ∧
        (r = false → Waiting t' todo))
      (fun _ _ => False) t := by
  unfold readOpcode
  rw [wp_bind, wp_get]
  by_cases hst : t.readState = .opcode
  · rw [if_pos hst, wp_bind]
    have hexpects := h.expects
    simp only [Expects, hst] at hexpects
    obtain ⟨fs, hseq, hpend, htodo⟩ := hexpects
    refine wp_post (readBuffered_spec h.ok (by decide)) fun r t1 h1 => ?_
    obtain ⟨⟨rb, ri, rfl⟩, hok, hbuf, htrue, hfalse⟩ := h1
    have hkept : Kept t { t with readBuffer := rb, readI := ri, readStart := rb.i } :=
      ⟨rfl, rfl, rfl, rfl, by rw [hbuf]⟩
    cases r with
    | false =>
      obtain ⟨hfew, hroom⟩ := hfalse rfl
      refine ⟨⟨hok, ?_⟩, hkept, by simp, fun _ => ⟨by simp [hst], rfl, hroom, fun hw => ?_⟩⟩
      · exact h.expects.of_buffered hbuf
      · -- Fewer than two bytes are left, so no frame is.
        cases fs with
        | nil => exact htodo
        | cons f fs =>
          have hlen := congrArg length hpend
          simp only [pending, encodeFrames_cons, Frame.encode, length_append, length_cons,
            length_nil] at hlen
          have hw' : t.wire.length = 0 := length_eq_zero_iff.mpr hw
          omega
    | true =>
      have h2 := htrue rfl
      cases fs with
      | nil =>
        have hlen := congrArg length hpend
        simp only [pending, encodeFrames_nil, length_append, length_nil] at hlen
        omega
      | cons f fs =>
        obtain ⟨hf, hlast, hfs⟩ := hseq.cons_inv
        have hsplit : t.buffered ++ t.wire = [f.byte0, f.byte1 t.incoming] ++
            (f.headerRest t.incoming ++ f.body t.incoming ++ encodeFrames t.incoming fs) := by
          rw [← pending, hpend, encodeFrames_cons, Frame.encode]
          simp only [append_assoc]
        obtain ⟨bs, hsplit, hrest⟩ := split_of_length_le hsplit h2
        have hbs : t.buffered = f.byte0 :: f.byte1 t.incoming :: bs := hsplit
        refine wp_seq (parseOpcode_spec hok hf hlast (hbuf.trans hbs)) fun _ t2 h₂ => ?_
        obtain ⟨rfl, hok2, hbuf2⟩ := h₂
        have hlen2 : bs.length + 2 = t.buffered.length := by
          rw [hbs]
          simp
        refine ⟨⟨hok2, ?_⟩, ⟨rfl, rfl, rfl, rfl, by rw [hbuf2]; omega⟩,
          fun _ => ⟨by simp, fun _ => by rw [hbuf2]; omega, fun hne => absurd hst hne⟩, by simp⟩
        simp only [Expects, pending, hbuf2]
        exact ⟨f, fs, hf, hfs, rfl, rfl, rfl, hrest, htodo⟩
  · rw [if_neg hst, wp_pure]
    exact ⟨h, .refl t, fun _ => ⟨hst, fun h' => absurd h' hst, fun _ => rfl⟩, by simp⟩

/-- The parser has the bytes it needs of a frame, or waits for them. -/
theorem readBufferedIfAny_spec (h : t.ReadInv todo) (hst : t.readState ≠ .payload) (sz : Nat)
    (hsz : sz ≤ t.pending.length) : wp (readBufferedIfAny sz)
      (fun r t' => (∃ rb ri rs, t' = { t with readBuffer := rb, readI := ri, readStart := rs }) ∧
        t'.ReadInv todo ∧ Kept t t' ∧ (r = true → sz ≤ t.buffered.length ∧
          t'.buffered = t.buffered) ∧
        (r = false → Waiting t' todo))
      (fun _ _ => False) t := by
  unfold readBufferedIfAny
  by_cases h0 : sz > 0
  · rw [if_pos h0]
    refine wp_post (readBuffered_spec h.ok h0) fun r t1 h1 => ?_
    obtain ⟨⟨rb, ri, rfl⟩, hok, hbuf, htrue, hfalse⟩ := h1
    refine ⟨⟨rb, ri, rb.i, rfl⟩, ⟨hok, h.expects.of_buffered hbuf⟩,
      ⟨rfl, rfl, rfl, rfl, by rw [hbuf]⟩,
      fun hr => ⟨htrue hr, hbuf⟩, fun hr => ⟨hst, rfl, (hfalse hr).2, fun hw => ?_⟩⟩
    have hfew := (hfalse hr).1
    rw [pending, show t.wire = [] from hw, List.append_nil] at hsz
    omega
  · rw [if_neg h0, wp_pure]
    exact ⟨⟨t.readBuffer, t.readI, t.readStart, rfl⟩, h, .refl t, fun _ => ⟨by omega, rfl⟩, by simp⟩

theorem Frame.Acceptable.length_le {f : Frame} (h : f.Acceptable) :
    f.payload.length ≤ 2147483647 := by
  rcases h with ⟨-, -, h⟩ | ⟨-, -, h⟩ <;> omega

/-- After the header of an acceptable frame its payload follows. -/
theorem dispatchOpcode_spec {f : Frame} {fs : List Frame} (hok : t.BufOk) (hf : f.Acceptable)
    (hseq : Sequence t.readLastFrame fs) (hop : t.readOpCode = f.opCode)
    (hlen : t.readPayloadLength = f.payload.length)
    (hmask : t.incoming = true → t.readMask = f.mask)
    (hpend : t.pending = f.body t.incoming ++ encodeFrames t.incoming fs)
    (htodo : todo = payloads (f :: fs)) (hroom : t.buf.atEnd = false) : wp dispatchOpcode
      (fun r t' => t'.ReadInv todo ∧ Kept t t' ∧ r = .next ∧
        (t'.readState = .payload ∨ t'.readState = .controlFrame))
      (fun _ _ => False) t := by
  unfold dispatchOpcode
  rw [wp_bind, wp_get, hop]
  rcases hf with ⟨hcode, -, hshort⟩ | ⟨hdata, hpos, -⟩
  · -- A ping or pong frame.
    have hne : ¬ f.opCode = opText ∧ ¬ (f.opCode = opData ∨ f.opCode = opCont) ∧
        ¬ f.opCode = opClose := by
      rcases hcode with h | h <;> rw [h] <;> decide
    rw [if_neg hne.1, if_neg hne.2.1, if_neg hne.2.2, if_pos hcode, wp_bind, wp_modify, wp_pure]
    have hnd : ¬ f.IsData := hne.2.1
    refine ⟨⟨{ hok with }, ?_⟩, ⟨rfl, rfl, rfl, rfl, le_rfl⟩, rfl, .inr rfl⟩
    refine ⟨f, fs, hcode, hshort, hseq, hlen, hpend, ?_⟩
    rw [htodo, payloads_cons, if_neg hnd, nil_append]
  · have hne : ¬ f.opCode = opText := by
      rcases hdata with h | h <;> rw [h] <;> decide
    rw [if_neg hne, if_pos (show f.opCode = opData ∨ f.opCode = opCont from hdata),
      wp_bind, wp_throwIf]
    refine ⟨fun h0 => by omega, fun _ => ?_⟩
    rw [wp_bind, check, wp_throwIf]
    refine ⟨fun hend => absurd hroom hend, fun _ => ?_⟩
    refine ⟨⟨{ hok with }, ?_⟩, ⟨rfl, rfl, rfl, rfl, le_rfl⟩, rfl, .inl rfl⟩
    refine ⟨f.payload, fs, ne_nil_of_length_pos hpos, hseq, hlen, ?_, ?_⟩
    · refine hpend.trans ?_
      simp only [maskIn, Frame.body]
      by_cases hin : t.incoming = true
      · rw [if_pos hin, if_pos hin, hmask hin]
      · rw [if_neg hin, if_neg hin]
    · rw [htodo, payloads_cons, if_pos hdata]

/-- `ReadStateHeader`: the parser gets to the payload of the frame, or waits. -/
theorem readHeader_spec (h : t.ReadInv todo) (hroom : t.buf.atEnd = false)
    (hst : t.readState ≠ .opcode) : wp readHeader
      (fun r t' => t'.ReadInv todo ∧ Kept t t' ∧ r ≠ .stop ∧
        (r = .next → t'.readState = .payload ∨ t'.readState = .controlFrame) ∧
        (r = .wait → Waiting t' todo))
      (fun _ _ => False) t := by
  unfold readHeader
  rw [wp_bind, wp_get]
  by_cases hhd : t.readState = .header
  · rw [if_pos hhd, wp_bind]
    have hexpects := h.expects
    simp only [Expects, hhd] at hexpects
    obtain ⟨f, fs, hf, hseq, hop, hlen, hhlen, hpend, htodo⟩ := hexpects
    have hl := congrArg length hpend
    simp only [length_append] at hl
    refine wp_post (readBufferedIfAny_spec h (by simp [hhd]) t.readHeaderLength (by omega))
      fun r t1 h1 => ?_
    obtain ⟨⟨rb, ri, rs, rfl⟩, hinv, hkept, htrue, hfalse⟩ := h1
    cases r with
    | false => exact ⟨hinv, hkept, by simp, by simp, fun _ => hfalse rfl⟩
    | true =>
      obtain ⟨hle, hbuf⟩ := htrue rfl
      rw [hhlen] at hle
      rw [pending, append_assoc] at hpend
      obtain ⟨bs, hbs, hrest⟩ := split_of_length_le hpend hle
      rw [Frame.headerRest, append_assoc] at hbs
      refine wp_seq (parseLength_spec hinv.ok hf.length_le hlen (hbuf.trans hbs)) fun _ t2 h₂ => ?_
      obtain ⟨⟨ri2, rfl⟩, hok2, hbuf2⟩ := h₂
      refine wp_seq (parseMask_spec hok2 hbuf2) fun _ t3 h3 => ?_
      obtain ⟨⟨ri3, mk, rfl, hmk⟩, hok3, hbuf3⟩ := h3
      refine wp_post (dispatchOpcode_spec hok3 hf hseq hop rfl hmk ?_ htodo hroom)
        fun r t4 h4 => ?_
      · rw [pending, hbuf3]
        exact hrest
      · obtain ⟨hinv, hkept, rfl, hst4⟩ := h4
        have hle3 : bs.length ≤ t.buffered.length := by
          rw [hbs]
          simp only [length_append]
          omega
        refine ⟨hinv, { hkept with buffered_le := ?_ }, by simp,
          fun _ => hst4, by simp⟩
        exact hkept.buffered_le.trans (hbuf3 ▸ hle3)
  · rw [if_neg hhd, wp_pure]
    refine ⟨h, .refl t, by simp, fun _ => ?_, by simp⟩
    cases hs : t.readState with
    | opcode => exact absurd hs hst
    | header => exact absurd hs hhd
    | controlFrame => exact .inr rfl
    | payload => exact .inl rfl

theorem pongDue_eq (t : Transceiver) :
    ∃ st ns, pongDue t = { t with state := st, nextState := ns } := by
  unfold pongDue
  split
  · exact ⟨_, _, rfl⟩
  · split <;> exact ⟨_, _, rfl⟩

/-- The payload of a ping or pong frame is consumed. -/
theorem parseControlFrame_spec (h : t.BufOk) {as bs : List UInt8}
    (hlen : t.readPayloadLength = as.length) (hb : t.buffered = as ++ bs) : wp parseControlFrame
      (fun _ t' => (∃ ri pp st ns, t' = { t with
          readI := ri, pingPayload := pp, readPayloadLength := 0, state := st, nextState := ns
          readState := .opcode }) ∧ t'.BufOk ∧ t'.buffered = bs)
      (fun _ _ => False) t := by
  unfold parseControlFrame
  rw [wp_bind, wp_get, hlen]
  refine wp_seq (nextBytes_spec h hb) fun a t1 h1 => ?_
  obtain ⟨rfl, rfl, hok, hrest⟩ := h1
  rw [wp_bind]
  have hping : wp (runIf (a.length > 0 ∧ t.readOpCode = opPing) <| modify fun t => { t with
        pingPayload := if t.incoming then t.readMask.apply 0 a else a })
      (fun _ t' => ∃ pp, t' = { t with readI := t.readI + a.length, pingPayload := pp })
      (fun (_ : Exception) _ => False) { t with readI := t.readI + a.length } := by
    rw [wp_runIf, wp_modify]
    exact ⟨fun _ => ⟨_, rfl⟩, fun _ => ⟨t.pingPayload, rfl⟩⟩
  refine wp_post hping fun _ t2 h₂ => ?_
  obtain ⟨pp, rfl⟩ := h₂
  simp only [wp_bind, wp_modify, wp_runIf]
  refine ⟨fun _ => ?_, fun _ => ⟨⟨_, _, _, _, rfl⟩, { hok with }, hrest⟩⟩
  obtain ⟨st, ns, heq⟩ := pongDue_eq { t with
    readI := t.readI + a.length, pingPayload := pp, readPayloadLength := 0 }
  rw [heq]
  exact ⟨⟨_, _, _, _, rfl⟩, { hok with }, hrest⟩

/-- `ReadStateControlFrame`: the parser gets to the next frame, or waits. -/
theorem readControlFrame_spec (h : t.ReadInv todo)
    (hst : t.readState = .payload ∨ t.readState = .controlFrame) : wp readControlFrame
      (fun r t' => t'.ReadInv todo ∧ Kept t t' ∧
        (r = true → t'.readState = .payload ∨ t'.readState = .opcode) ∧
        (r = false → Waiting t' todo))
      (fun _ _ => False) t := by
  unfold readControlFrame
  rw [wp_bind, wp_get]
  by_cases hctl : t.readState = .controlFrame
  · rw [if_pos hctl, wp_bind]
    have hexpects := h.expects
    simp only [Expects, hctl] at hexpects
    obtain ⟨f, fs, hop, hshort, hseq, hlen, hpend, htodo⟩ := hexpects
    have hl := congrArg length hpend
    simp only [length_append, Frame.length_body] at hl
    refine wp_post (readBufferedIfAny_spec h (by simp [hctl]) t.readPayloadLength (by omega))
      fun r t1 h1 => ?_
    obtain ⟨⟨rb, ri, rs, rfl⟩, hinv, hkept, htrue, hfalse⟩ := h1
    cases r with
    | false => exact ⟨hinv, hkept, by simp, fun _ => hfalse rfl⟩
    | true =>
      obtain ⟨hle, hbuf⟩ := htrue rfl
      have hbody : (f.body t.incoming).length = f.payload.length := Frame.length_body _ _
      obtain ⟨bs, hbs, hrest⟩ := split_of_length_le hpend (by omega)
      refine wp_seq (parseControlFrame_spec hinv.ok (hlen.trans hbody.symm) (hbuf.trans hbs))
        fun _ t2 h₂ => ?_
      obtain ⟨⟨ri2, pp, st, ns, rfl⟩, hok2, hbuf2⟩ := h₂
      have hle2 : bs.length ≤ t.buffered.length := by
        rw [hbs, length_append]
        omega
      refine ⟨⟨hok2, fs, hseq, ?_, htodo⟩, ⟨rfl, rfl, rfl, rfl, hbuf2 ▸ hle2⟩, fun _ => .inr rfl,
        by simp⟩
      rw [pending, hbuf2]
      exact hrest
  · rw [if_neg hctl, wp_pure]
    refine ⟨h, .refl t, fun _ => .inl ?_, by simp⟩
    exact hst.resolve_right hctl

end Parser

end Ice.WebSocket
