import Ice.WebSocket.Receiving

/-!
# The receive path delivers the payloads

While a payload is read, the bytes in the destination are still masked: `Filling` describes this
state, `postRead` ends it. Every round of `read` moves a prefix of the expected payload into the
destination, whatever the delegate delivers (`read_spec`).
-/

namespace Ice.WebSocket

open Transceiver List Buffer

section Destination

variable {buf : Buffer} (h : buf.i ≤ buf.b.length) (as : List UInt8)
include h

theorem Buffer.take_put : (buf.put as).b.take buf.i = buf.b.take buf.i := by
  rw [put, append_assoc, take_append_of_le_length (by simp [h]), take_take, min_self]

theorem Buffer.drop_put : (buf.put as).b.drop (buf.put as).i = buf.b.drop (buf.i + as.length) :=
  drop_left' (by simp [put, h])

theorem Buffer.take_put_position : (buf.put as).b.take (buf.put as).i = buf.b.take buf.i ++ as :=
  take_left' (by simp [put, h])

/-- Storing twice is storing the concatenation. -/
theorem Buffer.put_put (bs : List UInt8) : (buf.put as).put bs = buf.put (as ++ bs) := by
  have hdrop : (buf.put as).b.drop ((buf.put as).i + bs.length) =
      buf.b.drop (buf.i + (as ++ bs).length) := by
    rw [← drop_drop, drop_put h, drop_drop, length_append, Nat.add_assoc]
  rw [put, take_put_position h, hdrop]
  simp only [put, append_assoc, length_append, Nat.add_assoc]

end Destination

theorem Buffer.put_nil (buf : Buffer) : buf.put [] = buf := by
  simp [put]

theorem Buffer.length_put {buf : Buffer} {as : List UInt8} (h : buf.i + as.length ≤ buf.b.length) :
    (buf.put as).b.length = buf.b.length := by
  simp only [put, length_append, length_take, length_drop]
  omega

/-- The payload `p` of a frame is being read into a destination that was `buf`: `raw` is in it,
    still masked, and `more` is to come. -/
structure Filling (t : Transceiver) (buf : Buffer) (p raw more : List UInt8) (fs : List Frame) :
    Prop where
  ok : t.BufOk
  state : t.readState = .payload
  start : t.readStart = buf.i
  dest : t.buf = buf.put raw
  room : buf.i + raw.length ≤ buf.b.length
  nonempty : p ≠ []
  sequence : Sequence t.readLastFrame fs
  length : t.readPayloadLength = p.length
  masked : t.maskIn t.readFrameOffset p = raw ++ more
  pending : t.pending = more ++ encodeFrames t.incoming fs

section Payload

variable {t : Transceiver} {todo : List UInt8} {buf : Buffer} {p raw more : List UInt8}
  {fs : List Frame}

@[simp] theorem length_maskIn (t : Transceiver) (n : Nat) (p : List UInt8) :
    (t.maskIn n p).length = p.length := by
  unfold maskIn
  split <;> simp

theorem Filling.length_eq (h : Filling t buf p raw more fs) :
    p.length = raw.length + more.length := by
  rw [← length_maskIn t t.readFrameOffset p, h.masked, length_append]

theorem Filling.length_take (h : Filling t buf p raw more fs) :
    (p.take raw.length).length = raw.length := by
  rw [List.length_take, h.length_eq]
  omega

theorem Filling.fits (h : Filling t buf p raw more fs) :
    buf.i + (p.take raw.length).length ≤ buf.b.length := by
  rw [h.length_take]
  exact h.room

theorem atEnd_eq_false {buf : Buffer} (h : buf.i ≤ buf.b.length) :
    buf.atEnd = false ↔ buf.i < buf.b.length := by
  simp only [atEnd, beq_eq_false_iff_ne]
  omega

/-- `ReadStatePayload`: bytes of the read buffer go to the destination. -/
theorem readPayload_spec (h : t.ReadInv todo) (hst : t.readState = .payload)
    (hroom : t.buf.atEnd = false) : wp readPayload
      (fun r t' => ∃ p raw more fs, todo = p ++ payloads fs ∧ Filling t' t.buf p raw more fs ∧
        t'.incoming = t.incoming ∧ t'.wire = t.wire ∧ t'.readSchedule = t.readSchedule ∧
        t'.buffered.length + raw.length = t.buffered.length ∧
        (r = true → t'.buffered = [] ∧ more ≠ [] ∧ t'.buf.atEnd = false) ∧
        (r = false → raw ≠ []))
      (fun _ _ => False) t := by
  have hexpects := h.expects
  simp only [Expects, hst] at hexpects
  obtain ⟨p, fs, hp, hseq, hlen, hpend, htodo⟩ := hexpects
  have hlt := (atEnd_eq_false h.ok.buf).mp hroom
  have hb : t.buf.b ≠ [] := by
    intro hnil
    simp [hnil] at hlt
  have hbuf := length_buffered h.ok
  have hp0 := length_pos_iff.mpr hp
  simp only [readPayload, wp_bind, wp_modify, wp_get]
  rw [if_neg (by simp [hb, hroom])]
  -- the bytes that are copied are a prefix of the masked payload
  generalize hn : min (min (t.readBuffer.i - t.readI) (t.buf.b.length - t.buf.i))
    t.readPayloadLength = n
  have hsplit : t.buffered = t.buffered.take n ++ t.buffered.drop n := (take_append_drop ..).symm
  have htake : (t.buffered.take n).length = n := by
    rw [length_take]
    omega
  have hmask : t.maskIn t.readFrameOffset p =
      t.buffered.take n ++ (t.maskIn t.readFrameOffset p).drop n := by
    have heq := congrArg (take n) hpend
    rw [pending, take_append_of_le_length (by omega),
      take_append_of_le_length (by rw [length_maskIn]; omega)] at heq
    rw [heq, take_append_drop]
  have hrest : t.buffered.drop n ++ t.wire =
      (t.maskIn t.readFrameOffset p).drop n ++ encodeFrames t.incoming fs := by
    have heq := congrArg (drop n) hpend
    rwa [pending, drop_append_of_le_length (by omega),
      drop_append_of_le_length (by rw [length_maskIn]; omega)] at heq
  have hspec := nextBytes_spec (t := { t with readStart := t.buf.i })
    { h.ok with } hsplit
  rw [htake] at hspec
  refine wp_seq hspec fun a t1 h1 => ?_
  obtain ⟨rfl, rfl, hok, hrem⟩ := h1
  simp only [wp_bind, wp_modify, wp_pure]
  have hfit : t.buf.i + (t.buffered.take n).length ≤ t.buf.b.length := by omega
  have hput := length_put hfit
  have hok' : t.buf.i + (t.buffered.take n).length ≤ (t.buf.put (t.buffered.take n)).b.length := by
    omega
  have hrem' : t.buffered.drop n =
      ({ t with readStart := t.buf.i, readI := t.readI + n } : Transceiver).buffered := hrem.symm
  refine ⟨p, t.buffered.take n, (t.maskIn t.readFrameOffset p).drop n, fs, htodo,
    ⟨⟨hok.readI, hok.readBuffer, hok'⟩, hst, rfl, rfl, hfit, hp, hseq, hlen, hmask, ?_⟩, trivial,
    trivial, trivial, ?_, fun hr => ?_, fun hr => ?_⟩
  · rw [pending]
    exact (congrArg (· ++ t.wire) hrem).trans hrest
  · show length (Transceiver.buffered { t with readStart := t.buf.i, readI := t.readI + n }) + _ = _
    rw [← hrem', length_drop, htake]
    omega
  · have hr' := of_decide_eq_true hr
    refine ⟨?_, ?_, ?_⟩
    · refine hrem.trans (drop_eq_nil_iff.mpr ?_)
      omega
    · intro hnil
      have := congrArg length hnil
      simp only [length_drop, length_maskIn, length_nil] at this
      omega
    · rw [atEnd_eq_false hok']
      show t.buf.i + (t.buffered.take n).length < _
      omega
  · have hr' := of_decide_eq_false hr
    intro hnil
    have := congrArg length hnil
    rw [htake, length_nil] at this
    omega

/-- The delegate is never without bytes while the peer has sent more: every read delivers at least
    one of them, and none asks to wait for a write. -/
structure Transceiver.Eager (t : Transceiver) : Prop where
  enough : t.wire.length ≤ t.readSchedule.length
  prompt : ∀ choice ∈ t.readSchedule, 0 < choice.1 ∧ choice.2 = false

theorem Transceiver.Eager.congr {t' : Transceiver} (h : t.Eager) (hw : t'.wire = t.wire)
    (hs : t'.readSchedule = t.readSchedule) : t'.Eager :=
  ⟨hw ▸ hs ▸ h.enough, hs ▸ h.prompt⟩

/-- A read of the delegate takes a prefix of what the peer has sent. -/
theorem delegateRead_spec (t : Transceiver) {room : Nat} (hroom : 0 < room) : wp (delegateRead room)
      (fun r t' => ∃ w, t.wire = r.1 ++ w ∧
        t' = { t with wire := w, readSchedule := t.readSchedule.tail } ∧ r.1.length ≤ room ∧
        (t.Eager → t'.Eager ∧ r.2 ≠ .writeOp ∧ (r.1 = [] → t.wire = [])))
      (fun _ _ => False) t := by
  simp only [delegateRead, wp_bind, wp_get, wp_set, wp_pure]
  generalize hn : min (t.readSchedule.headD (0, false)).1 room = n
  have htake : (t.wire.take n).length = min n t.wire.length := length_take
  have hdrop : t.wire.drop (t.wire.take n).length = t.wire.drop n := by
    rw [htake]
    rcases le_total n t.wire.length with hle | hle
    · rw [Nat.min_eq_left hle]
    · rw [Nat.min_eq_right hle, drop_length, drop_of_length_le hle]
  refine ⟨t.wire.drop n, (take_append_drop ..).symm, by rw [hdrop], by omega, fun heager => ?_⟩
  obtain ⟨henough, hprompt⟩ := heager
  have hdropLen : (t.wire.drop n).length = t.wire.length - n := length_drop
  cases hs : t.readSchedule with
  | nil =>
    have hw : t.wire = [] := length_eq_zero_iff.mp (by simpa [hs] using henough)
    refine ⟨⟨by simp [hw], by simp⟩, ?_, fun _ => hw⟩
    split <;> decide
  | cons c cs =>
    rw [hs] at henough hprompt hn
    obtain ⟨hpos, hflag⟩ := hprompt c (mem_cons_self ..)
    simp only [headD_cons] at hn
    simp only [length_cons] at henough
    refine ⟨⟨?_, fun c' hc' => hprompt c' (mem_cons_of_mem _ hc')⟩, ?_, fun hnil => ?_⟩
    · show (t.wire.drop (t.wire.take n).length).length ≤ cs.length
      rw [hdrop]
      omega
    · simp only [headD_cons, hflag, Bool.false_eq_true, if_false]
      split <;> decide
    · have := congrArg length hnil
      rw [htake, length_nil] at this
      exact length_eq_zero_iff.mp (by omega)

/-- The rest of a payload comes from the delegate, which is asked for no more than that. -/
theorem readMore_filling (h : Filling t buf p raw more fs) (hbuf : t.buffered = [])
    (hmore : more ≠ []) (hroom : t.buf.atEnd = false) : wp readMore
      (fun s t' => ∃ raw' more', Filling t' buf p (raw ++ raw') more' fs ∧
        t'.incoming = t.incoming ∧ t'.buffered = [] ∧
        t'.wire.length + raw'.length = t.wire.length ∧
        (t.Eager → t'.Eager ∧ s ≠ .writeOp ∧ raw' ≠ []))
      (fun _ _ => False) t := by
  have hlt := (atEnd_eq_false h.ok.buf).mp hroom
  have hi : t.buf.i = buf.i + raw.length := by rw [h.dest]; rfl
  have hlen := h.length_eq
  have hmore' := length_pos_iff.mpr hmore
  have hput := length_put h.room
  have hbi : buf.i ≤ buf.b.length := le_trans (Nat.le_add_right ..) h.room
  have hblen : t.buf.b.length = buf.b.length := by rw [h.dest, hput]
  simp only [readMore, wp_bind, wp_get]
  rw [if_pos h.state, wp_bind]
  have hsize : 0 < min (t.buf.b.length - t.buf.i)
      (t.readPayloadLength - (t.buf.i - t.readStart)) := by
    rw [h.length, h.start]
    omega
  refine wp_post (delegateRead_spec t hsize) fun r t1 h1 => ?_
  obtain ⟨w, hw, rfl, hle, heager⟩ := h1
  simp only [wp_bind, wp_modify, wp_pure]
  rw [h.length, h.start] at hle
  -- the bytes read are a prefix of `more`
  have hpend : r.1 ++ w = more ++ encodeFrames t.incoming fs := by
    rw [← hw, ← h.pending, pending, hbuf, nil_append]
  obtain ⟨more', hsplit, hrest⟩ := split_of_length_le hpend.symm (by omega)
  refine ⟨r.1, more', ⟨⟨h.ok.readI, h.ok.readBuffer, ?_⟩, h.state, h.start, ?_, ?_, h.nonempty,
    h.sequence, h.length, ?_, ?_⟩, trivial, hbuf, ?_, fun he => ?_⟩
  · show t.buf.i + r.1.length ≤ (t.buf.put r.1).b.length
    rw [length_put (by omega)]
    omega
  · rw [h.dest, put_put hbi]
  · rw [length_append]
    omega
  · rw [append_assoc, ← hsplit]
    exact h.masked
  · show t.buffered ++ w = _
    rw [hbuf, nil_append]
    exact hrest.symm
  · rw [hw, length_append]
    omega
  · obtain ⟨he', hs, hnil⟩ := heager he
    refine ⟨⟨he'.enough, he'.prompt⟩, hs, fun hr => ?_⟩
    rw [hnil hr] at hw
    have hlen' := congrArg length hpend
    have hw' := congrArg length hw
    simp only [length_append, length_nil] at hlen' hw'
    omega

theorem buffered_put (h : t.BufOk) (bytes : List UInt8) :
    ({ t with readBuffer := t.readBuffer.put bytes } : Transceiver).buffered =
      t.buffered ++ bytes := by
  have hle : t.readI ≤ (t.readBuffer.b.take t.readBuffer.i).length := by
    simp [h.readBuffer, h.readI]
  show (((t.readBuffer.put bytes).b.take (t.readBuffer.put bytes).i).drop t.readI) = _
  rw [take_put_position h.readBuffer, drop_append_of_le_length hle]
  rfl

/-- The bytes that a header or a control frame needs come from the delegate, with as many of the
    bytes behind them as there is room for. -/
theorem readMore_waiting (h : t.ReadInv todo) (hwait : Waiting t todo) : wp readMore
      (fun s t' => t'.ReadInv todo ∧ t'.readState ≠ .payload ∧ t'.incoming = t.incoming ∧
        t'.buf = t.buf ∧ ∃ n, t'.readBuffer.i = t'.readStart + n ∧
          t'.buffered.length = t.buffered.length + n ∧ t'.wire.length + n = t.wire.length ∧
          (t.Eager → t'.Eager ∧ s ≠ .writeOp ∧ (n = 0 → t.wire = [])))
      (fun _ _ => False) t := by
  simp only [readMore, wp_bind, wp_get]
  rw [if_neg hwait.state, wp_bind]
  have hroom := hwait.room
  refine wp_post (delegateRead_spec t (by omega)) fun r t1 h1 => ?_
  obtain ⟨w, hw, rfl, hle, heager⟩ := h1
  simp only [wp_bind, wp_modify, wp_pure]
  have hput : (t.readBuffer.put r.1).b.length = t.readBuffer.b.length :=
    length_put (by omega)
  have hbuf := buffered_put (t := { t with wire := w, readSchedule := t.readSchedule.tail })
    { h.ok with } r.1
  have hpend : ({ t with
      wire := w, readSchedule := t.readSchedule.tail
      readBuffer := t.readBuffer.put r.1 } : Transceiver).pending = t.pending := by
    rw [pending, pending, hw]
    exact (congrArg (· ++ w) hbuf).trans (append_assoc ..)
  refine ⟨⟨⟨?_, ?_, h.ok.buf⟩, ?_⟩, hwait.state, trivial, trivial, r.1.length, ?_, ?_, ?_,
    fun he => ?_⟩
  · exact le_trans h.ok.readI (Nat.le_add_right ..)
  · show t.readBuffer.i + r.1.length ≤ (t.readBuffer.put r.1).b.length
    omega
  · simp only [Expects, hpend]
    exact h.expects
  · show t.readBuffer.i + r.1.length = t.readStart + r.1.length
    rw [hwait.start]
  · exact (congrArg length hbuf).trans (length_append ..)
  · rw [hw, length_append]
    omega
  · obtain ⟨he', hs, hnil⟩ := heager he
    exact ⟨⟨he'.enough, he'.prompt⟩, hs, fun h0 => hnil (length_eq_zero_iff.mp h0)⟩

/-- What has been read of a header or a control frame stays in the read buffer. -/
theorem postRead_waiting (hst : t.readState ≠ .payload) :
    wp postRead (fun r t' => t' = t ∧ r = decide (t.readStart < t.readBuffer.i))
      (fun _ _ => False) t := by
  simp only [postRead, wp_bind, wp_get]
  rw [if_pos hst, wp_pure]
  exact ⟨rfl, rfl⟩

/-- The first bytes of a payload, unmasked. -/
theorem maskIn_maskIn_take (t : Transceiver) {n : Nat} (h : t.maskIn n p = raw ++ more) :
    t.maskIn n raw = p.take raw.length := by
  have hraw : raw = (t.maskIn n p).take raw.length := by rw [h, take_left]
  unfold maskIn at *
  split
  · rename_i hin
    rw [if_pos hin] at hraw
    calc t.readMask.apply n raw = t.readMask.apply n ((t.readMask.apply n p).take raw.length) := by
          rw [← hraw]
      _ = p.take raw.length := by rw [← Mask.apply_take, Mask.apply_apply]
  · rename_i hin
    rwa [if_neg hin] at hraw

/-- The rest of a payload is masked from the offset that has been reached. -/
theorem maskIn_drop (t : Transceiver) {n : Nat} (h : t.maskIn n p = raw ++ more) :
    t.maskIn (n + raw.length) (p.drop raw.length) = more := by
  have hmore : more = (t.maskIn n p).drop raw.length := by rw [h, drop_left]
  unfold maskIn at *
  split
  · rename_i hin
    rw [hmore, if_pos hin, Mask.apply_drop]
  · rename_i hin
    rw [hmore, if_neg hin]

/-- The bytes just read are overwritten with others. -/
theorem Buffer.put_overwrite (h : buf.i ≤ buf.b.length) {as bs : List UInt8}
    (hlen : as.length = bs.length) : ({ buf.put as with
        b := (buf.put as).b.take buf.i ++ bs ++ (buf.put as).b.drop (buf.put as).i } : Buffer) =
      buf.put bs := by
  rw [take_put h, drop_put h, hlen]
  simp only [put, hlen]

/-- The first part of `postRead` unmasks what has been read. -/
theorem unmask_spec (h : Filling t buf p raw more fs) :
    wp (runIf t.incoming <| modify fun t' => { t' with
        buf := { t'.buf with
          b := t'.buf.b.take t'.readStart ++
            t'.readMask.apply t'.readFrameOffset ((t.buf.b.take t.buf.i).drop t.readStart) ++
            t'.buf.b.drop t'.buf.i }
        readFrameOffset :=
          t'.readFrameOffset + ((t.buf.b.take t.buf.i).drop t.readStart).length })
      (fun _ t' => ∃ offset, t' = { t with
          buf := buf.put (p.take raw.length), readFrameOffset := offset } ∧
        t.maskIn offset (p.drop raw.length) = more)
      (fun (_ : Exception) _ => False) t := by
  have hbi : buf.i ≤ buf.b.length := le_trans (Nat.le_add_right ..) h.room
  have hbytes : (t.buf.b.take t.buf.i).drop t.readStart = raw := by
    rw [h.start, h.dest, take_put_position hbi]
    exact drop_left' (by simp [hbi])
  have hgot := maskIn_maskIn_take t h.masked
  have hmore := maskIn_drop t h.masked
  rw [hbytes, wp_runIf, wp_modify]
  constructor
  · intro hin
    refine ⟨t.readFrameOffset + raw.length, ?_, hmore⟩
    rw [maskIn, if_pos hin] at hgot
    have hlen : raw.length = (p.take raw.length).length := by rw [← hgot, Mask.length_apply]
    rw [h.start, h.dest, hgot, put_overwrite hbi hlen]
  · intro hin
    refine ⟨t.readFrameOffset, ?_, ?_⟩
    · rw [maskIn, if_neg hin] at hgot
      rw [← hgot, ← h.dest]
    · rw [maskIn, if_neg hin] at hmore ⊢
      exact hmore

/-- `postRead` leaves the first bytes of the payload, unmasked, in the destination. -/
theorem postRead_filling (h : Filling t buf p raw more fs) : wp postRead
      (fun r t' => t'.ReadInv (p.drop raw.length ++ payloads fs) ∧
        t'.buf = buf.put (p.take raw.length) ∧ t'.incoming = t.incoming ∧ t'.wire = t.wire ∧
        t'.readSchedule = t.readSchedule ∧ t'.buffered = t.buffered ∧
        (r = true ↔ raw ≠ [] ∧ t.buf.atEnd = false))
      (fun _ _ => False) t := by
  have hlen := h.length_eq
  have hi : t.buf.i = buf.i + raw.length := by rw [h.dest]; rfl
  have hplen := h.length_take
  have hfit := h.fits
  simp only [postRead, wp_bind, wp_get]
  rw [if_neg (by simp [h.state])]
  by_cases hraw : raw = []
  · subst hraw
    rw [if_pos (by rw [h.start, hi]; simp), wp_pure]
    have hexp : t.Expects (p ++ payloads fs) := by
      simp only [Expects, h.state]
      exact ⟨p, fs, h.nonempty, h.sequence, h.length, h.masked ▸ h.pending, rfl⟩
    exact ⟨⟨h.ok, hexp⟩, h.dest, rfl, rfl, rfl, rfl, by simp⟩
  · have hpos := length_pos_iff.mpr hraw
    rw [if_neg (by rw [h.start]; omega), wp_bind]
    simp only [check, wp_bind, wp_throwIf]
    refine ⟨fun hlt => absurd (show t.readStart < t.buf.i by rw [h.start]; omega) hlt, fun _ => ?_⟩
    refine wp_post (unmask_spec h) fun _ t1 h1 => ?_
    obtain ⟨offset, rfl, hmore⟩ := h1
    simp only [wp_modify, wp_get, wp_runIf, wp_pure]
    have hleft : t.readPayloadLength - ((buf.put (p.take raw.length)).i - t.readStart) =
        (p.drop raw.length).length := by
      show t.readPayloadLength - (buf.i + (p.take raw.length).length - t.readStart) = _
      rw [h.length, h.start, length_drop]
      omega
    have hok : (buf.put (p.take raw.length)).i ≤ (buf.put (p.take raw.length)).b.length := by
      rw [length_put hfit]
      exact hfit
    have hret : (!t.buf.atEnd) = true ↔ raw ≠ [] ∧ t.buf.atEnd = false := by
      simp [hraw]
    refine ⟨fun h0 => ⟨⟨⟨h.ok.readI, h.ok.readBuffer, hok⟩, ?_⟩, trivial, trivial, trivial, trivial,
      rfl, hret⟩, fun h0 => ⟨⟨⟨h.ok.readI, h.ok.readBuffer, hok⟩, ?_⟩, trivial, trivial, trivial,
      trivial, rfl, hret⟩⟩
    · -- the payload is complete
      have hnil : p.drop raw.length = [] := length_eq_zero_iff.mp (hleft.symm.trans h0)
      have hmore0 : more = [] := by
        rw [← hmore, hnil]
        simp [maskIn]
      refine ⟨fs, h.sequence, ?_, by rw [hnil, nil_append]⟩
      have hpend := h.pending
      rw [hmore0, nil_append] at hpend
      exact hpend
    · have hne : p.drop raw.length ≠ [] := by
        intro hnil
        rw [hnil] at hleft
        exact h0 hleft
      simp only [Expects, h.state]
      exact ⟨_, fs, hne, h.sequence, hleft, (hmore.symm ▸ h.pending : _), rfl⟩

/-- `preRead` has started to fill the destination from the read buffer, with the delegate needed for
    more if it returned true. -/
def Started (t t' : Transceiver) (r : Bool) (todo : List UInt8) : Prop :=
  ∃ p raw more fs, todo = p ++ payloads fs ∧ Filling t' t.buf p raw more fs ∧
    t'.incoming = t.incoming ∧ t'.wire = t.wire ∧ t'.readSchedule = t.readSchedule ∧
    t'.buffered.length + raw.length ≤ t.buffered.length ∧
    (r = true → t'.buffered = [] ∧ more ≠ [] ∧ t'.buf.atEnd = false) ∧ (r = false → raw ≠ [])

/-- The outcome of `preRead`: the parser waits for bytes, or the destination is being filled. -/
def Prepared (t t' : Transceiver) (r : Bool) (todo : List UInt8) : Prop :=
  (r = true ∧ t'.ReadInv todo ∧ Waiting t' todo ∧ Kept t t') ∨ Started t t' r todo

theorem Prepared.of_kept {t1 t2 t3 : Transceiver} {r : Bool} (h : Kept t1 t2)
    (h' : Prepared t2 t3 r todo) : Prepared t1 t3 r todo := by
  rcases h' with ⟨hr, hinv, hwait, hkept⟩ | ⟨p, raw, more, fs, htodo, hfill, hin, hw, hs, hle, hres⟩
  · exact .inl ⟨hr, hinv, hwait, h.trans hkept⟩
  · rw [h.buf] at hfill
    exact .inr ⟨p, raw, more, fs, htodo, hfill, hin.trans h.incoming, hw.trans h.wire,
      hs.trans h.readSchedule, hle.trans h.buffered_le, hres⟩

/-- By induction on the fuel: a round that reads a control frame consumes its header, except for the
    first round if it starts behind the header. -/
theorem preRead_spec (n : Nat) (t : Transceiver) (h : t.ReadInv todo) (hroom : t.buf.atEnd = false)
    (hn : t.buffered.length + (if t.readState = .opcode then 1 else 2) ≤ n) :
    wp (preRead n) (fun r t' => Prepared t t' r todo) (fun _ _ => False) t := by
  induction n generalizing t with
  | zero =>
    split at hn <;> omega
  | succ n ih =>
    refine wp_seq (readOpcode_spec h) fun r t1 h1 => ?_
    obtain ⟨hinv1, hkept1, htrue1, hfalse1⟩ := h1
    cases r with
    | false => exact .inl ⟨rfl, hinv1, hfalse1 rfl, hkept1⟩
    | true =>
      obtain ⟨hst1, hless, hsame⟩ := htrue1 rfl
      refine wp_seq (readHeader_spec hinv1 (by rw [hkept1.buf, hroom]) hst1) fun r t2 h2 => ?_
      obtain ⟨hinv2, hkept2, hstop, hnext, hwait⟩ := h2
      cases r with
      | wait => exact .inl ⟨rfl, hinv2, hwait rfl, hkept1.trans hkept2⟩
      | stop => exact absurd rfl hstop
      | next =>
        refine wp_seq (readControlFrame_spec hinv2 (hnext rfl)) fun r t3 h3 => ?_
        obtain ⟨hinv3, hkept3, htrue3, hfalse3⟩ := h3
        have hkept := (hkept1.trans hkept2).trans hkept3
        have hroom3 : t3.buf.atEnd = false := by rw [hkept.buf, hroom]
        cases r with
        | false => exact .inl ⟨rfl, hinv3, hfalse3 rfl, hkept⟩
        | true =>
          simp only [if_true, wp_bind, wp_get]
          by_cases hpay : t3.readState = .payload
          · rw [if_pos hpay]
            refine wp_post (readPayload_spec hinv3 hpay hroom3) fun r t4 h4 => ?_
            obtain ⟨p, raw, more, fs, htodo, hfill, hin, hw, hs, hle, hres⟩ := h4
            exact .of_kept hkept (.inr ⟨p, raw, more, fs, htodo, hfill, hin, hw, hs, hle.le, hres⟩)
          · rw [if_neg hpay]
            have hop : t3.readState = .opcode := (htrue3 rfl).resolve_left hpay
            refine wp_post (ih t3 hinv3 hroom3 ?_) fun r t4 h4 => h4.of_kept hkept
            rw [if_pos hop]
            have hle := (hkept2.trans hkept3).buffered_le
            by_cases hst : t.readState = .opcode
            · rw [if_pos hst] at hn
              have := hless hst
              omega
            · rw [if_neg hst] at hn
              rw [hsame hst] at hle
              omega

end Payload

/-- What a call of `read` leaves: a prefix of the expected payload is in the destination `buf`. If
    the delegate was `eager`, the destination is full or nothing more is expected. -/
def Delivered (incoming : Bool) (buf : Buffer) (todo : List UInt8) (eager : Prop)
    (t : Transceiver) : Prop :=
  ∃ got rest, todo = got ++ rest ∧ t.buf = buf.put got ∧ buf.i + got.length ≤ buf.b.length ∧
    t.ReadInv rest ∧ t.incoming = incoming ∧
    (eager → t.Eager ∧ (t.buf.atEnd = true ∨ rest = []))

section Loop

variable {t : Transceiver} {todo : List UInt8} {buf : Buffer} {p raw more : List UInt8}
  {fs : List Frame} {eager : Prop} {n : Nat}

theorem Delivered.prepend {incoming : Bool} {got rest : List UInt8}
    (hfit : buf.i + got.length ≤ buf.b.length) (h : Delivered incoming (buf.put got) rest eager t) :
    Delivered incoming buf (got ++ rest) eager t := by
  obtain ⟨got', rest', rfl, hbuf, hfit', hrest⟩ := h
  have hi : buf.i ≤ buf.b.length := le_trans (Nat.le_add_right ..) hfit
  have hfit'' : buf.i + got.length + got'.length ≤ buf.b.length := by
    rw [length_put hfit] at hfit'
    exact hfit'
  refine ⟨got ++ got', rest', (append_assoc ..).symm, ?_, ?_, hrest⟩
  · rw [hbuf, put_put hi]
  · rw [length_append]
    omega

theorem finishRead_spec (t : Transceiver) :
    wp finishRead (fun _ t' => ∃ b, t' = { t with ready := b }) (fun _ _ => False) t := by
  simp only [finishRead, wp_bind, wp_get]
  split
  · simp only [wp_bind, wp_runIf, wp_modify, wp_pure]
    exact ⟨fun _ => ⟨_, rfl⟩, fun _ => ⟨t.ready, rfl⟩⟩
  · simp only [wp_bind, wp_modify, wp_pure]
    exact ⟨_, rfl⟩

theorem Delivered.ready {incoming : Bool} {b : Bool} (h : Delivered incoming buf todo eager t) :
    Delivered incoming buf todo eager { t with ready := b } := by
  obtain ⟨got, rest, htodo, hbuf, hfit, hinv, hin, heager⟩ := h
  refine ⟨got, rest, htodo, hbuf, hfit, ⟨{ hinv.ok with }, ?_⟩, hin,
    fun he => ⟨(heager he).1.congr rfl rfl, (heager he).2⟩⟩
  exact hinv.expects

/-- The loop of `read` delivers, for states with at most `n` rounds left. -/
def LoopDelivers (n : Nat) : Prop :=
  ∀ (t : Transceiver) (todo : List UInt8), t.ReadInv todo → t.buf.atEnd = false →
    2 * t.wire.length + t.buffered.length < n →
    wp (readLoop n) (fun _ t' => Delivered t.incoming t.buf todo t.Eager t') (fun _ _ => False) t

theorem Delivered.weaken {incoming : Bool} {eager' : Prop} (he : eager' → eager)
    (h : Delivered incoming buf todo eager t) : Delivered incoming buf todo eager' t := by
  obtain ⟨got, rest, htodo, hbuf, hfit, hinv, hin, heager⟩ := h
  exact ⟨got, rest, htodo, hbuf, hfit, hinv, hin, fun h => heager (he h)⟩

/-- What `postRead` leaves at the end of a round: if it returns true there is room for more, and `n`
    rounds are enough. -/
def Advanced (n : Nat) (incoming : Bool) (buf : Buffer) (todo : List UInt8)
    (eager : Prop) (r : Bool) (t : Transceiver) : Prop :=
  Delivered incoming buf todo (eager ∧ r = false) t ∧
    (r = true → t.buf.atEnd = false ∧ 2 * t.wire.length + t.buffered.length < n ∧ (eager → t.Eager))

/-- The end of a round in which payload has been read. -/
theorem advanced_filling (h : Filling t buf p raw more fs)
    (hn : raw ≠ [] → 2 * t.wire.length + t.buffered.length < n)
    (heager : eager → t.Eager ∧ raw ≠ []) :
    wp postRead (Advanced n t.incoming buf (p ++ payloads fs) eager) (fun _ _ => False) t := by
  have hend : (buf.put (p.take raw.length)).atEnd = t.buf.atEnd := by
    have hi : (buf.put (p.take raw.length)).i = (buf.put raw).i := by
      show buf.i + _ = buf.i + _
      rw [h.length_take]
    rw [atEnd, atEnd, h.dest, length_put h.fits, length_put h.room, hi]
  refine wp_post (postRead_filling h) fun r t1 h1 => ?_
  obtain ⟨hinv, hbuf, hin, hw, hs, hb, hr⟩ := h1
  refine ⟨⟨_, _, ?_, hbuf, h.fits, hinv, hin, fun he => ⟨(heager he.1).1.congr hw hs, .inl ?_⟩⟩,
    fun htrue => ?_⟩
  · rw [← append_assoc, take_append_drop]
  · rw [hbuf, hend]
    by_contra hroom
    exact absurd (hr.mpr ⟨(heager he.1).2, by simpa using hroom⟩) (by simp [he.2])
  · obtain ⟨hraw, hroom⟩ := hr.mp htrue
    rw [hbuf, hend, hw, hb]
    exact ⟨hroom, hn hraw, fun he => (heager he).1.congr hw hs⟩

/-- The end of a round in which the parser has waited for bytes. -/
theorem advanced_waiting (h : t.ReadInv todo) (hst : t.readState ≠ .payload)
    (hroom : t.buf.atEnd = false)
    (hn : t.readStart < t.readBuffer.i → 2 * t.wire.length + t.buffered.length < n)
    (heager : eager → t.Eager ∧ (t.readBuffer.i ≤ t.readStart → todo = [])) :
    wp postRead (Advanced n t.incoming t.buf todo eager) (fun _ _ => False) t := by
  refine wp_post (postRead_waiting hst) fun r t1 h1 => ?_
  obtain ⟨rfl, rfl⟩ := h1
  refine ⟨⟨[], todo, rfl, (put_nil _).symm, h.ok.buf, h, rfl, fun he => ?_⟩, fun hread => ?_⟩
  · exact ⟨(heager he.1).1, .inr ((heager he.1).2 (by simpa using he.2))⟩
  · exact ⟨hroom, hn (of_decide_eq_true hread), fun he => (heager he).1⟩

section

variable {incoming : Bool} (ih : LoopDelivers n)
  (h : wp postRead (Advanced n incoming buf todo eager) (fun _ _ => False) t)

include ih h

theorem loop_advanced : wp (do if ← postRead then readLoop n else finishRead)
    (fun _ => Delivered incoming buf todo eager) (fun _ _ => False) t := by
  refine wp_seq h fun r t1 h1 => ?_
  obtain ⟨hdelivered, hnext⟩ := h1
  cases r with
  | true =>
    obtain ⟨got, rest, rfl, hbuf, hfit, hinv, rfl, -⟩ := hdelivered
    obtain ⟨hroom, hn, heager⟩ := hnext rfl
    refine wp_post (ih t1 rest hinv hroom hn) fun _ t2 h2 => ?_
    rw [hbuf] at h2
    exact .prepend hfit (h2.weaken heager)
  | false =>
    refine wp_post (finishRead_spec t1) fun _ t2 h2 => ?_
    obtain ⟨b, rfl⟩ := h2
    exact (hdelivered.weaken fun he => ⟨he, rfl⟩).ready

/-- A round of `readLoop` after the read of the delegate, which asked for `s`. -/
theorem loop_after {s : SocketOperation} (hs : eager → s ≠ .writeOp) : wp (if s = .writeOp then do
        let _ ← postRead
        return s
      else do if ← postRead then readLoop n else finishRead)
    (fun _ => Delivered incoming buf todo eager) (fun _ _ => False) t := by
  split
  · next hwrite =>
    refine wp_seq h fun r t1 h1 => ?_
    exact h1.1.weaken fun he => absurd hwrite (hs he)
  · exact loop_advanced ih h

end

/-- By induction on the number of rounds: each of them moves a byte from the wire to the read buffer
    or from one of them to the destination. -/
theorem readLoop_delivers (n : Nat) : LoopDelivers n := by
  induction n with
  | zero =>
    intro t todo _ _ hn
    omega
  | succ n ih =>
    intro t todo h hroom hn
    rw [readLoop]
    simp only [wp_bind, wp_get]
    have hfuel : t.buffered.length + (if t.readState = .opcode then 1 else 2) ≤
        t.buffered.length + 2 := by
      split <;> omega
    refine wp_post (preRead_spec _ t h hroom hfuel) fun r t1 h1 => ?_
    rcases h1 with ⟨rfl, hinv, hwait, hkept⟩ |
      ⟨p, raw, more, fs, rfl, hfill, hin, hw, hs, hle, ht, hf⟩
    · rw [if_pos rfl]
      refine wp_seq (readMore_waiting hinv hwait) fun s t2 h2 => ?_
      obtain ⟨hinv2, hst2, hin2, hbuf2, c, hc, hbl, hwl, heager⟩ := h2
      have hble := hkept.buffered_le
      rw [← hkept.incoming, ← hin2, ← hkept.buf, ← hbuf2]
      have heager := fun he : t.Eager => heager (he.congr hkept.wire hkept.readSchedule)
      refine loop_after ih (advanced_waiting hinv2 hst2 (by rw [hbuf2, hkept.buf, hroom])
        (fun hlt => ?_) fun he => ⟨(heager he).1, fun hle => ?_⟩) fun he => (heager he).2.1
      · rw [hkept.wire] at hwl
        omega
      · exact hwait.starved ((heager he).2.2 (by omega))
    · have he1 : t.Eager → t1.Eager := fun he => he.congr hw hs
      cases r with
      | true =>
        obtain ⟨hnil, hmore, hroom1⟩ := ht rfl
        refine wp_seq (readMore_filling hfill hnil hmore hroom1) fun s t2 h2 => ?_
        obtain ⟨raw', more', hfill2, hin2, hnil2, hwl, heager⟩ := h2
        rw [← hin, ← hin2]
        refine loop_after ih (advanced_filling hfill2 (fun hne => ?_) fun he => ?_) fun he =>
          (heager (he1 he)).2.1
        · have hpos := length_pos_iff.mpr hne
          rw [length_append] at hpos
          rw [hw] at hwl
          rw [hnil2]
          simp only [length_nil] at hle ⊢
          omega
        · obtain ⟨he2, -, hne⟩ := heager (he1 he)
          exact ⟨he2, by simp [hne]⟩
      | false =>
        rw [if_neg (by decide), ← hin]
        refine loop_advanced ih (advanced_filling hfill (fun _ => ?_) fun he => ⟨he1 he, hf rfl⟩)
        have hpos := length_pos_iff.mpr (hf rfl)
        rw [hw]
        omega

/-- `read` delivers a prefix of the expected payload to the destination and throws nothing. -/
theorem read_spec (h : t.ReadInv todo) :
    wp read (fun _ t' => Delivered t.incoming t.buf todo t.Eager t') (fun _ _ => False) t := by
  simp only [read, wp_bind, wp_get]
  by_cases hend : t.buf.atEnd = true
  · have hdone : Delivered t.incoming t.buf todo t.Eager t :=
      ⟨[], todo, rfl, (put_nil _).symm, h.ok.buf, h, rfl, fun he => ⟨he, .inl hend⟩⟩
    rw [if_pos hend]
    simp only [wp_bind, wp_runIf, wp_modify, wp_pure]
    exact ⟨fun _ => hdone.ready, fun _ => hdone⟩
  · rw [if_neg hend]
    exact readLoop_delivers _ t todo h (by simpa using hend) (by omega)

end Loop

end Ice.WebSocket
