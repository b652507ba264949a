import Ice.WebSocket.Sending

/-!
# The send path writes the messages

`write` gives the frames that `preWrite` prepares to the delegate. It stops early, as if the message
were written, when a pong becomes due in the middle of a message; in the states of `Safe` this does
not happen, and it returns without asking for a write only when the message has been written
(`write_spec`). So the delegate gets the messages, each in one frame, in every run of a connection
that calls `write` in such states only.
-/

namespace Ice.WebSocket

open Transceiver List Buffer

section Rounds

variable {t : Transceiver} {messages : List (List UInt8)} {n : Nat}

/-- The delegate takes a first part of what it is given, and asks to wait if this is not all. -/
theorem delegateWrite_spec (bytes : List UInt8) (t : Transceiver) : wp (delegateWrite bytes)
      (fun r t' => (∃ schedule, t' = { t with
          sent := t.sent ++ bytes.take r.1
          writeSchedule := schedule }) ∧
        (r.2 = .none → r.1 = bytes.length) ∧
        (r.2 ≠ .none → r.2.write = true ∧ r.1 < bytes.length))
      (fun _ _ => False) t := by
  simp only [delegateWrite, wp_bind, wp_get, wp_set, wp_pure]
  refine ⟨⟨_, rfl⟩, fun hs => ?_, fun hs => ?_⟩
  · by_contra hne
    rw [if_neg hne] at hs
    exact absurd hs (by decide)
  · split at hs
    · exact absurd rfl hs
    · rename_i hne
      rw [if_neg hne]
      exact ⟨rfl, by omega⟩

/-- The write buffer has been written, and the frame of the message is complete up to `covered`. -/
structure PartSent (t : Transceiver) (messages : List (List UInt8)) (n : Nat) : Prop where
  isOpen : t.IsOpen
  ping : t.pingPayload.length ≤ 125
  size : t.buf.b.length < 2 ^ 63
  position : t.writeBuffer.i = t.writeBuffer.b.length
  state : t.writeState = .payload
  length : 0 < t.writePayloadLength
  covered_pos : 0 < t.covered
  covered_le : t.covered ≤ t.buf.b.length
  writeBuffer : t.writeBuffer.b ≠ []
  safe : t.state = .opened ∨ t.covered = t.buf.b.length
  rounds : t.pongs + (t.buf.b.length - t.covered) + 2 ≤ n
  frames : ∃ fs, (∀ f ∈ fs, f.WellFormed ∧ f.fin = true) ∧ messages = messagesOf fs ∧
    t.sent ++ t.maskOut t.covered (t.buf.b.drop t.covered) = encodeFrames (!t.incoming) fs

/-- The outcome of `postWrite`: the loop goes on with fewer rounds left, or the message has been
    written. -/
def RoundDone (t : Transceiver) (r : Bool) (messages : List (List UInt8)) (n : Nat) : Prop :=
  t.WriteInv messages ∧ (r = true → t.Safe ∧ t.roundsLeft < n) ∧
    (r = false → t.writeState = .header ∧ t.buf.Written)

theorem postWrite_payload (h : PartSent t messages n) :
    wp postWrite (fun r t' => RoundDone t' r messages n) (fun _ _ => False) t := by
  obtain ⟨fs, hwf, hms, hsent⟩ := h.frames
  have hmove : (if (t.incoming = false ∨ t.buf.i = 0) ∧ t.writePayloadLength > 0 ∧
        t.writeBuffer.i = t.writeBuffer.b.length then
      { t with buf := { t.buf with i := t.writePayloadLength } } else t) =
      { t with buf := { t.buf with i := t.covered } } := by
    have hpos := h.covered_pos
    by_cases hin : t.incoming = true
    · have hcov : t.covered = t.buf.i := if_pos hin
      rw [if_neg (by simp [hin]; omega), hcov]
    · have hcov : t.covered = t.writePayloadLength := if_neg hin
      rw [if_pos ⟨.inl (by simpa using hin), h.length, h.position⟩, hcov]
  have hcov : ∀ ws, Transceiver.covered { t with
      buf := { t.buf with i := t.covered }
      writeState := ws } = t.covered := by
    intro ws
    simp only [covered]
    split <;> simp
  simp only [postWrite, wp_bind, wp_get]
  rw [if_neg (by simp [h.state])]
  simp only [postWriteMessage, wp_bind, wp_modify, wp_get, hmove]
  have hb : t.buf.b ≠ [] := by
    intro hnil
    have := h.covered_pos
    have := h.covered_le
    simp only [hnil, length_nil] at this
    omega
  by_cases hend : t.covered = t.buf.b.length
  · rw [if_pos (.inr (by simp [atEnd, hend]))]
    have hdone : Buffer.Written { t.buf with i := t.covered } := .inr (by simp [atEnd, hend])
    have hrounds := h.rounds
    refine ⟨⟨h.isOpen, h.ping, h.size, h.position.le, fs, hwf, ?_⟩, fun _ =>
      ⟨.inr (.inl hdone), ?_⟩, fun _ => ⟨rfl, hdone⟩⟩
    · refine ⟨?_, ⟨?_, fun hnot => absurd hdone hnot⟩, fun hin _ _ => .inr ?_⟩
      · rw [← hsent, hend, drop_length]
        simp [maskOut]
      · rw [unsent, if_pos hdone, List.append_nil]
        exact hms
      · have hin' : t.incoming = false := hin
        simpa [covered, hin'] using hend
    · simp only [roundsLeft, if_pos hdone]
      simp only [pongs] at hrounds ⊢
      omega
  · have hop := h.safe.resolve_right hend
    have hnot : ¬ (t.buf.b = [] ∨ atEnd { t.buf with i := t.covered } = true) := by
      simp [hb, atEnd, hend]
    rw [if_neg hnot, wp_pure]
    have hle := h.covered_le
    have hrest : t.writeBuffer.rest = [] := (rest_eq_nil h.position.le).mpr h.position
    have hrounds := h.rounds
    refine ⟨⟨h.isOpen, h.ping, h.size, h.position.le, fs, hwf, ?_⟩, fun _ => ⟨.inl hop, ?_⟩,
      fun hr => absurd hop (of_decide_eq_false hr)⟩
    · rw [progress_payload (by exact h.state), hcov]
      refine ⟨hms, h.length, h.covered_pos, h.covered_le, h.writeBuffer, ?_, fun _ => ⟨?_, rfl⟩⟩
      · rw [hrest, List.append_nil]
        exact hsent
      · exact lt_of_le_of_ne h.covered_le hend
    · rw [roundsLeft, hcov]
      simp only [h.state, if_pos hrest]
      simp only [pongs] at hrounds ⊢
      omega

/-- `postWrite` with nothing to write. The position in an empty buffer does not matter. -/
theorem postWrite_idle (h : t.WriteInv messages) (hst : t.writeState = .header)
    (hop : t.state = .opened) (hdone : t.buf.Written) :
    wp postWrite (fun r t' => RoundDone t' r messages n) (fun _ _ => False) t := by
  obtain ⟨fs, hwf, hprog⟩ := h.progress
  rw [Progress, hst] at hprog
  obtain ⟨hsent, ⟨hms, -⟩, hstale⟩ := hprog
  obtain ⟨i, hmove, hi⟩ : ∃ i, (if (t.incoming = false ∨ t.buf.i = 0) ∧ t.writePayloadLength > 0 ∧
        t.writeBuffer.i = t.writeBuffer.b.length then
      { t with buf := { t.buf with i := t.writePayloadLength } } else t) =
      { t with buf := { t.buf with i := i } } ∧ (t.buf.b ≠ [] → i = t.buf.i) := by
    split
    · rename_i hcond
      refine ⟨_, rfl, fun hb => ?_⟩
      have hend : t.buf.atEnd = true := hdone.resolve_left hb
      have hlen : t.buf.i = t.buf.b.length := by simpa [atEnd] using hend
      have hpos := length_pos_iff.mpr hb
      have hin := hcond.1.resolve_right (by omega)
      rcases hstale hin hb hend with h0 | h0
      · omega
      · omega
    · exact ⟨t.buf.i, rfl, fun _ => rfl⟩
  have hwritten : Buffer.Written { t.buf with i := i } := by
    rcases hdone with hb | hend
    · exact .inl hb
    · by_cases hb : t.buf.b = []
      · exact .inl hb
      · rw [hi hb]
        exact .inr hend
  simp only [postWrite, wp_bind, wp_get]
  rw [if_neg (by simp [hst])]
  simp only [postWriteMessage, wp_bind, wp_modify, wp_get, hmove]
  rw [if_pos (show t.buf.b = [] ∨ atEnd { t.buf with i := i } = true from hwritten)]
  refine ⟨⟨h.isOpen, h.ping, h.size, h.position, fs, hwf, ?_⟩, fun hr => ?_, fun _ =>
    ⟨rfl, hwritten⟩⟩
  · refine ⟨hsent, ⟨?_, fun hnot => absurd hwritten hnot⟩, fun hin hb hend => hstale hin hb ?_⟩
    · rw [unsent, if_pos hdone] at hms
      rw [unsent, if_pos hwritten]
      exact hms
    · rw [hi hb] at hend
      exact hend
  · simp [controlDue, hop] at hr

theorem postWrite_pong (h : t.WriteInv messages) (hsafe : t.Safe)
    (hst : t.writeState = .controlFrame) (hnil : t.writeBuffer.rest = []) (hn : t.roundsLeft ≤ n) :
    wp postWrite (fun r t' => RoundDone t' r messages n) (fun _ _ => False) t := by
  obtain ⟨fs, hwf, hprog⟩ := h.progress
  rw [Progress, hst] at hprog
  obtain ⟨hop, hlen, hsent, hbetween⟩ := hprog
  have hend := (rest_eq_nil h.position).mp hnil
  have hopen := h.isOpen.2
  simp only [postWrite, wp_bind, wp_get]
  rw [if_pos ⟨by rw [hop]; decide, hst⟩, if_pos hend]
  simp only [controlFrameSent, wp_bind, wp_get]
  rw [if_neg (by simp [hop]), if_neg (by simp [hop]), if_neg (by simp [hop])]
  have hstay : ¬ ((t.incoming = false ∨ t.buf.i = 0) ∧ t.writePayloadLength > 0 ∧
      t.writeBuffer.i = t.writeBuffer.b.length) := by
    rintro ⟨-, hpos, -⟩
    omega
  simp only [wp_bind, wp_set, wp_pure, Bool.false_eq_true, if_false, postWriteMessage, wp_modify,
    wp_get, if_neg hstay]
  set t' : Transceiver :=
    { t with state := t.nextState, nextState := .opened, writeState := .header }
  have hinv : t'.WriteInv messages := by
    refine ⟨⟨hopen, .inl rfl⟩, h.ping, h.size, h.position, fs, hwf, ?_⟩
    refine ⟨?_, hbetween, fun _ _ _ => .inl hlen⟩
    rw [hnil, List.append_nil] at hsent
    exact hsent
  have hpongs : t'.pongs < t.pongs := by
    rcases hopen with hnext | hnext <;> simp [pongs, hop, hnext, t']
  have hrounds : t'.roundsLeft < n := by
    refine lt_of_lt_of_le ?_ hn
    simp only [roundsLeft, hst]
    exact Nat.add_lt_add_right hpongs _
  by_cases hdone : t.buf.Written
  · rw [if_pos (show t.buf.b = [] ∨ t.buf.atEnd = true from hdone)]
    exact ⟨hinv, fun _ => ⟨.inr (.inl hdone), hrounds⟩, fun _ => ⟨rfl, hdone⟩⟩
  · rw [if_neg (show ¬ (t.buf.b = [] ∨ t.buf.atEnd = true) from hdone)]
    have hnext : t.nextState = .opened := by
      rw [safe_between (by simp [hst])] at hsafe
      exact (hsafe.resolve_left (by simp [hop])).resolve_left hdone
    exact ⟨hinv, fun _ => ⟨.inl hnext, hrounds⟩, fun hr => absurd hnext (of_decide_eq_false hr)⟩

/-- What has been given to the delegate when it does not ask to wait. -/
def Flushed (t : Transceiver) (messages : List (List UInt8)) (n : Nat) : Prop :=
  (t.WriteInv messages ∧ t.writeState = .header ∧ t.state = .opened ∧ t.buf.Written) ∨
    (t.WriteInv messages ∧ t.Safe ∧ t.writeState = .controlFrame ∧ t.writeBuffer.rest = [] ∧
      t.roundsLeft ≤ n) ∨
    PartSent t messages n

theorem postWrite_spec (h : Flushed t messages n) :
    wp postWrite (fun r t' => RoundDone t' r messages n) (fun _ _ => False) t := by
  rcases h with ⟨hinv, hst, hop, hdone⟩ | ⟨hinv, hsafe, hst, hnil, hn⟩ | h
  · exact postWrite_idle hinv hst hop hdone
  · exact postWrite_pong hinv hsafe hst hnil hn
  · exact postWrite_payload h

theorem Buffer.length_rest (buf : Buffer) : buf.rest.length = buf.b.length - buf.i := length_drop

theorem Buffer.rest_advance (buf : Buffer) (k : Nat) :
    rest { buf with i := buf.i + k } = buf.rest.drop k := by
  simp only [rest, drop_drop]

/-- The outcome of the write of the delegate in a round. -/
def Attempted (t : Transceiver) (s : SocketOperation) (messages : List (List UInt8)) (n : Nat) :
    Prop :=
  (s ≠ .none → s.write = true ∧ t.WriteInv messages) ∧ (s = .none → Flushed t messages n)

/-- The write buffer, with a pong, is given to the delegate. -/
theorem writeMore_pong (h : t.WriteInv messages) (hsafe : t.Safe)
    (hst : t.writeState = .controlFrame) (hn : t.roundsLeft ≤ n)
    (hmore : t.writeBuffer.i < t.writeBuffer.b.length) :
    wp writeMore (fun s t' => Attempted t' s messages n) (fun _ _ => False) t := by
  obtain ⟨fs, hwf, hprog⟩ := h.progress
  rw [Progress, hst] at hprog
  obtain ⟨hop, hlen, hsent, hbetween⟩ := hprog
  have hrest := t.writeBuffer.length_rest
  simp only [writeMore, wp_bind, wp_get]
  rw [if_pos hmore]
  refine wp_seq (delegateWrite_spec t.writeBuffer.rest t) fun r t1 h1 => ?_
  obtain ⟨⟨schedule, rfl⟩, hall, hsome⟩ := h1
  have hinv : r.1 ≤ t.writeBuffer.rest.length → WriteInv { t with
      sent := t.sent ++ t.writeBuffer.rest.take r.1
      writeSchedule := schedule
      writeBuffer := { t.writeBuffer with i := t.writeBuffer.i + r.1 } } messages := by
    intro hle
    refine ⟨h.isOpen, h.ping, h.size, ?_, fs, hwf, ?_⟩
    · show t.writeBuffer.i + r.1 ≤ t.writeBuffer.b.length
      omega
    · simp only [Progress, hst]
      refine ⟨hop, hlen, ?_, hbetween⟩
      rw [rest_advance, append_assoc, take_append_drop]
      exact hsent
  rw [safe_between (by simp [hst])] at hsafe
  refine ⟨fun hs => ⟨(hsome hs).1, hinv (hsome hs).2.le⟩, fun hs => .inr (.inl ⟨hinv (hall hs).le,
    (safe_between (by simp [hst])).mpr hsafe, hst, ?_, hn.trans' ?_⟩)⟩
  · rw [rest_advance, hall hs, drop_length]
  · simp only [roundsLeft, hst]
    exact le_rfl

/-- The write buffer, with a part of the message, is given to the delegate. -/
theorem writeMore_buffer (h : t.WriteInv messages) (hsafe : t.Safe)
    (hst : t.writeState = .payload) (hn : t.roundsLeft ≤ n)
    (hmore : t.writeBuffer.i < t.writeBuffer.b.length) :
    wp writeMore (fun s t' => Attempted t' s messages n) (fun _ _ => False) t := by
  obtain ⟨fs, hwf, hprog⟩ := h.progress
  rw [progress_payload hst] at hprog
  obtain ⟨hms, hlen, hcov, hle, hwb, hsent, -⟩ := hprog
  have hrest := t.writeBuffer.length_rest
  have hne : t.writeBuffer.rest ≠ [] := length_pos_iff.mp (by omega)
  simp only [writeMore, wp_bind, wp_get]
  rw [if_pos hmore]
  refine wp_seq (delegateWrite_spec t.writeBuffer.rest t) fun r t1 h1 => ?_
  obtain ⟨⟨schedule, rfl⟩, hall, hsome⟩ := h1
  simp only [wp_bind, wp_modify, wp_pure]
  refine ⟨fun hs => ⟨(hsome hs).1, h.isOpen, h.ping, h.size, ?_, fs, hwf, ?_⟩, fun hs =>
    .inr (.inr ?_)⟩
  · have hlt := (hsome hs).2
    show t.writeBuffer.i + r.1 ≤ t.writeBuffer.b.length
    omega
  · rw [progress_payload (by exact hst)]
    refine ⟨hms, hlen, hcov, hle, hwb, ?_, fun hnil => ?_⟩
    · rw [rest_advance, append_assoc, append_assoc, ← append_assoc _ (drop ..),
        take_append_drop, ← append_assoc]
      exact hsent
    · have hlt := (hsome hs).2
      rw [rest_advance, drop_eq_nil_iff] at hnil
      omega
  · have hend := hall hs
    refine ⟨h.isOpen, h.ping, h.size, ?_, hst, hlen, hcov, hle, hwb, ?_, ?_, fs, hwf, hms, ?_⟩
    · show t.writeBuffer.i + r.1 = t.writeBuffer.b.length
      omega
    · simp only [Safe, hst] at hsafe
      exact hsafe.imp_right fun h' => h'.resolve_left fun h'' => hne h''.2
    · refine hn.trans' ?_
      simp only [roundsLeft, hst, if_neg hne]
      exact (Nat.add_assoc ..).le
    · rw [hend, take_length]
      exact hsent

/-- An incoming connection gives the rest of the message to the delegate. -/
theorem writeMore_direct (h : t.WriteInv messages) (hst : t.writeState = .payload)
    (hn : t.roundsLeft ≤ n) (hin : t.incoming = true) (hnil : t.writeBuffer.rest = []) :
    wp writeMore (fun s t' => Attempted t' s messages n) (fun _ _ => False) t := by
  obtain ⟨fs, hwf, hprog⟩ := h.progress
  rw [progress_payload hst] at hprog
  obtain ⟨hms, hlen, hcov, hle, hwb, hsent, hnext⟩ := hprog
  obtain ⟨hlt, hi⟩ := hnext hnil
  have hend := (rest_eq_nil h.position).mp hnil
  have hb : t.buf.b ≠ [] := by
    intro hb
    simp [hb] at hlt
  have hrest := t.buf.length_rest
  have hmask : ∀ k bytes, t.maskOut k bytes = bytes := fun _ _ => if_pos hin
  rw [hmask, hnil, List.append_nil, ← hi] at hsent
  simp only [writeMore, wp_bind, wp_get]
  rw [if_neg (by omega), if_pos ⟨hin, hb, hst⟩]
  refine wp_seq (delegateWrite_spec t.buf.rest t) fun r t1 h1 => ?_
  obtain ⟨⟨schedule, rfl⟩, hall, hsome⟩ := h1
  let t' : Transceiver := { t with
      sent := t.sent ++ t.buf.rest.take r.1
      writeSchedule := schedule
      buf := { t.buf with i := t.buf.i + r.1 } }
  have hcov' : t'.covered = t.buf.i + r.1 := if_pos hin
  have hmask' : ∀ k bytes, t'.maskOut k bytes = bytes := fun _ _ => if_pos hin
  have hsent' : t.sent ++ t.buf.rest.take r.1 ++ t.buf.b.drop (t.buf.i + r.1) =
      encodeFrames (!t.incoming) fs := by
    rw [← drop_drop, ← rest, append_assoc, take_append_drop]
    exact hsent
  refine ⟨fun hs => ⟨(hsome hs).1, h.isOpen, h.ping, h.size, h.position, fs, hwf, ?_⟩,
    fun hs => .inr (.inr ?_)⟩
  · have hlt' := (hsome hs).2
    have hless : t.buf.i + r.1 < t.buf.b.length := by omega
    rw [progress_payload (by exact hst), hcov', hmask']
    refine ⟨hms, hlen, by omega, hless.le, hwb, ?_, fun _ => ⟨hless, rfl⟩⟩
    rw [hnil, List.append_nil]
    exact hsent'
  · have hfull : t.buf.i + r.1 = t.buf.b.length := by
      rw [hall hs]
      omega
    refine ⟨h.isOpen, h.ping, h.size, hend, hst, hlen, ?_, ?_, hwb, .inr ?_, ?_, fs, hwf, hms, ?_⟩
    · rw [hcov']
      omega
    · rw [hcov']
      exact hfull.le
    · rw [hcov']
      exact hfull
    · rw [hcov']
      refine hn.trans' ?_
      simp only [roundsLeft, hst, if_pos hnil, ← hi]
      simp only [pongs]
      omega
    · rw [hcov', hmask']
      exact hsent'

/-- The write of the delegate in a round. -/
theorem writeIfMore_spec {t0 : Transceiver} {r : Bool} (h : Loaded t0 t r messages)
    (hn : t0.roundsLeft ≤ n) :
    wp (writeIfMore r) (fun s t' => Attempted t' s messages n) (fun _ _ => False) t := by
  have hrounds := h.rounds.trans hn
  cases r with
  | false =>
    refine ⟨fun hs => absurd rfl hs, fun _ => ?_⟩
    rcases h.idle rfl with ⟨hst, hop, hdone⟩ | ⟨hst, hnil⟩
    · exact .inl ⟨h.inv, hst, hop, hdone⟩
    · exact .inr (.inl ⟨h.inv, h.safe, hst, hnil, hrounds⟩)
  | true =>
    obtain ⟨hheader, hmore⟩ := h.more rfl
    show wp writeMore _ _ t
    by_cases hpart : t.writeBuffer.i < t.writeBuffer.b.length
    · cases hst : t.writeState with
      | header => exact absurd hst hheader
      | controlFrame => exact writeMore_pong h.inv h.safe hst hrounds hpart
      | payload => exact writeMore_buffer h.inv h.safe hst hrounds hpart
    · have hpos := h.inv.position
      have hnil := (rest_eq_nil hpos).mpr (by omega)
      cases hst : t.writeState with
      | header => exact absurd hst hheader
      | controlFrame =>
        simp only [writeMore, wp_bind, wp_get]
        rw [if_neg hpart, if_neg (by simp [hst])]
        exact ⟨fun hs => absurd rfl hs, fun _ => .inr (.inl ⟨h.inv, h.safe, hst, hnil, hrounds⟩)⟩
      | payload =>
        exact writeMore_direct h.inv hst hrounds ((hmore hst).resolve_right (absurd hnil)) hnil

/-- By induction on the number of rounds, each of which leaves fewer. -/
theorem writeLoop_spec (n : Nat) (t : Transceiver) (h : t.WriteInv messages) (hsafe : t.Safe)
    (hn : t.roundsLeft < n) : wp (writeLoop n) (fun op t' => t'.WriteInv messages ∧
      (op.write = false → t'.writeState = .header ∧ t'.buf.Written)) (fun _ _ => False) t := by
  induction n generalizing t with
  | zero => omega
  | succ n ih =>
    refine wp_seq (preWrite_spec h hsafe) fun r t1 h1 => ?_
    refine wp_seq (writeIfMore_spec h1 le_rfl) fun s t2 h2 => ?_
    by_cases hs : s = .none
    · rw [if_neg (by simp [hs])]
      refine wp_seq (postWrite_spec (h2.2 hs)) fun r t3 h3 => ?_
      obtain ⟨hinv, hmore, hdone⟩ := h3
      cases r with
      | true =>
        obtain ⟨hsafe3, hless⟩ := hmore rfl
        exact ih t3 hinv hsafe3 (by omega)
      | false =>
        exact ⟨hinv, fun _ => hdone rfl⟩
    · rw [if_pos hs, wp_pure]
      obtain ⟨hw, hinv⟩ := h2.1 hs
      exact ⟨hinv, fun hfalse => absurd (hw.symm.trans hfalse) (by decide)⟩

/-- `write` returns, and without asking for a write only if the message has been written. -/
theorem write_spec (h : t.WriteInv messages) (hsafe : t.Safe) :
    wp write (fun op t' => t'.WriteInv messages ∧
      (op.write = false → t'.writeState = .header ∧ t'.buf.Written)) (fun _ _ => False) t := by
  simp only [write, wp_bind, wp_get]
  refine writeLoop_spec _ t h hsafe ?_
  have hpongs : t.pongs ≤ 2 := by
    unfold pongs
    split
    · split <;> omega
    · omega
  have hpart : (if t.writeBuffer.rest = [] then 1 else 2) ≤ 2 := by
    split <;> omega
  have hmessage : (if t.buf.Written then 0 else t.buf.b.length + 1) ≤ t.buf.b.length + 1 := by
    split <;> omega
  unfold roundsLeft
  split <;> omega

end Rounds

namespace Connection

/-- A call of `write` is not cut short by a pong. -/
def WriteSafe (c : Connection) : Prop :=
  Safe { c.transceiver with buf := c.writeStream }

/-- The write side of a connection. -/
structure Sending (c : Connection) : Prop where
  inv : WriteInv { c.transceiver with buf := c.writeStream } c.messages
  header : c.transceiver.readState = .header →
    c.transceiver.readOpCode = opPing ∨ c.transceiver.readOpCode = opPong →
    c.transceiver.readPayloadLength ≤ 125
  control : c.transceiver.readState = .controlFrame → c.transceiver.readPayloadLength ≤ 125
  message : c.sending = true ↔ c.writeStream.b ≠ []

section Runs

variable {c c' : Connection} {messages : List (List UInt8)} {t t' : Transceiver}

theorem writeState_ne_payload (h : t.WriteInv messages) (hb : t.buf.b = []) :
    t.writeState ≠ .payload := by
  intro hst
  obtain ⟨fs, -, hprog⟩ := h.progress
  rw [progress_payload hst] at hprog
  obtain ⟨-, -, hpos, hle, -⟩ := hprog
  rw [hb, length_nil] at hle
  omega

/-- A message is handed to a connection that has none. -/
theorem writeInv_send (h : t.WriteInv messages) (hb : t.buf.b = []) {message : List UInt8}
    (hne : message ≠ []) (hsize : message.length < 2 ^ 63) :
    WriteInv { t with buf := ⟨message, 0⟩ } (messages ++ [message]) := by
  have hpos := length_pos_iff.mpr hne
  have hend : atEnd ⟨message, 0⟩ = false := by
    rw [atEnd_eq_false (Nat.zero_le _)]
    exact hpos
  have hnew : ¬ Buffer.Written ⟨message, 0⟩ := by
    simp [Buffer.Written, hne, hend]
  have hdone : t.buf.Written := .inl hb
  obtain ⟨fs, hwf, hprog⟩ := h.progress
  have hbetween : t.BetweenFrames fs messages →
      BetweenFrames { t with buf := ⟨message, 0⟩ } fs (messages ++ [message]) := by
    rintro ⟨hms, -⟩
    refine ⟨?_, fun _ => rfl⟩
    rw [hms, unsent, if_pos hdone, unsent, if_neg hnew, List.append_nil]
  refine ⟨h.isOpen, h.ping, hsize, h.position, fs, hwf, ?_⟩
  cases hst : t.writeState with
  | payload => exact absurd hst (writeState_ne_payload h hb)
  | header =>
    rw [Progress, hst] at hprog
    exact ⟨hprog.1, hbetween hprog.2.1, fun _ _ hend' => absurd (hend.symm.trans hend') (by decide)⟩
  | controlFrame =>
    rw [Progress, hst] at hprog
    exact ⟨hprog.1, hprog.2.1, hprog.2.2.1, hbetween hprog.2.2.2⟩

/-- The write stream is emptied when its message has been written. -/
theorem writeInv_clear (h : t.WriteInv messages) (hst : t.writeState = .header)
    (hdone : t.buf.Written) : WriteInv { t with buf := {} } messages := by
  obtain ⟨fs, hwf, hprog⟩ := h.progress
  rw [Progress, hst] at hprog
  obtain ⟨hsent, ⟨hms, -⟩, -⟩ := hprog
  have hempty : Buffer.Written {} := .inl rfl
  refine ⟨h.isOpen, h.ping, Nat.two_pow_pos 63, h.position, fs, hwf, ?_⟩
  simp only [Progress, hst]
  refine ⟨hsent, ⟨?_, fun hnot => absurd hempty hnot⟩, fun _ hb _ => absurd rfl hb⟩
  rw [hms, unsent, if_pos hdone, unsent, if_pos hempty]

/-- A read leaves the frames as they are. -/
theorem writeInv_read {buf : Buffer} (h : WriteInv { t with buf := buf } messages)
    (hside : WriteSide t t') :
    WriteInv { t' with buf := buf } messages := by
  obtain ⟨fs, hwf, hprog⟩ := h.progress
  refine ⟨hside.isOpen, hside.ping, h.size, ?_, fs, hwf, ?_⟩
  · rw [hside.writeBuffer]
    exact h.position
  · have hpong := hside.pong
    rw [hside.writeState, hside.incoming, hside.writeBuffer, hside.writeMask,
      hside.writePayloadLength, hside.sent]
    cases hst : t.writeState with
    | header | payload =>
      rw [hst] at hprog
      exact hprog
    | controlFrame =>
      rw [hst] at hprog
      exact ⟨hpong hprog.1, hprog.2⟩

theorem Sending.write_call (h : c.Sending) (hsafe : c.WriteSafe) (schedule : List Nat)
    (masks : List Mask) : ∃ op t, c.writeCall schedule masks = .ok op t ∧ t.WriteInv c.messages ∧
      (op.write = false → t.writeState = .header ∧ t.buf.Written) ∧
      ReadSide { c.transceiver with buf := c.writeStream } t := by
  have hinv : WriteInv { c.transceiver with
      buf := c.writeStream
      writeSchedule := schedule
      masks := masks } c.messages :=
    { h.inv with }
  have hside := ReadSide.keeps_write { c.transceiver with
    buf := c.writeStream
    writeSchedule := schedule
    masks := masks } (ReadSide.refl _)
  obtain ⟨op, t, hcall, hinv', hdone⟩ := wp_total (write_spec hinv hsafe)
  exact ⟨op, t, hcall, hinv', hdone, { wp_ok hside hcall with }⟩

theorem Sending.step (h : c.Sending) (hstep : Step WriteSafe c c') : c'.Sending := by
  cases hstep with
  | send message hsent hne hsize =>
    have hb : c.writeStream.b = [] := by
      by_contra hb
      exact absurd (hsent.symm.trans (h.message.mpr hb)) (by decide)
    exact ⟨writeInv_send h.inv hb hne hsize, h.header, h.control, by simp [hne]⟩
  | write schedule masks op t hallowed hcall =>
    obtain ⟨op', t', hcall', hinv, hdone, hside⟩ := h.write_call hallowed schedule masks
    rw [hcall] at hcall'
    injection hcall' with hop ht
    subst hop ht
    refine ⟨?_, ?_, ?_, ?_⟩
    · cases hop : op.write with
      | true => exact hinv
      | false => exact writeInv_clear hinv (hdone hop).1 (hdone hop).2
    · rw [hside.readState, hside.readOpCode, hside.readPayloadLength]
      exact h.header
    · rw [hside.readState, hside.readPayloadLength]
      exact h.control
    · cases hop : op.write with
      | true =>
        simp only [Bool.and_true, if_true]
        rw [hside.message]
        exact h.message
      | false => simp
  | read buf schedule op t hbuf hcall =>
    have hstart : WriteSide c.transceiver { c.transceiver with
        buf := buf
        readSchedule := schedule } :=
      ⟨rfl, rfl, rfl, rfl, rfl, rfl, fun hst => hst, h.inv.isOpen, h.inv.ping, h.header, h.control⟩
    have hside := wp_ok (WriteSide.keeps_read _ hstart) hcall
    exact ⟨writeInv_read h.inv hside, hside.header, hside.control, h.message⟩

theorem Sending.run (h : c.Sending) (hrun : Reachable WriteSafe c c') : c'.Sending := by
  induction hrun with
  | refl => exact h
  | tail _ hstep ih => exact ih.step hstep

theorem Opened.sending_inv (h : c.Opened) : c.Sending := by
  have hdone : Buffer.Written c.writeStream := .inl h.writeStream
  refine ⟨⟨⟨.inl h.state, .inl h.nextState⟩, ?_, ?_, h.writeBuffer, [], by simp, ?_⟩, ?_, ?_, ?_⟩
  · rw [h.pingPayload]
    exact Nat.zero_le _
  · rw [h.writeStream]
    exact Nat.two_pow_pos 63
  · simp only [Progress, h.writeState]
    refine ⟨h.sent, ⟨?_, fun hnot => absurd hdone hnot⟩, fun _ hb _ => absurd h.writeStream hb⟩
    rw [unsent, if_pos hdone]
    exact h.messages
  · simp [h.readState]
  · simp [h.readState]
  · simp [h.sending, h.writeStream]

end Runs

/-- In every run of a connection in which no call of `write` is cut short by a pong, the next call
    returns. If it does not ask for a write, the message has been given to the delegate completely,
    and what the delegate has been given are complete frames, with the messages in order. -/
theorem write_sends_messages {c₀ c : Connection} (hopen : c₀.Opened)
    (hrun : Reachable WriteSafe c₀ c) (hsafe : c.WriteSafe) (schedule : List Nat)
    (masks : List Mask) : ∃ op t, c.writeCall schedule masks = .ok op t ∧
      (op.write = false → (c.sending = true → t.buf.atEnd = true) ∧
        ∃ fs, (∀ f ∈ fs, f.WellFormed ∧ f.fin = true) ∧
          t.sent = encodeFrames (!t.incoming) fs ∧ messagesOf fs = c.messages) ∧
      ∃ fs rest, (∀ f ∈ fs, f.WellFormed ∧ f.fin = true) ∧
        t.sent ++ rest = encodeFrames (!t.incoming) fs ∧ messagesOf fs <+: c.messages := by
  have h := hopen.sending_inv.run hrun
  obtain ⟨op, t, hcall, hinv, hdone, hside⟩ := h.write_call hsafe schedule masks
  obtain ⟨fs, hwf, hprog⟩ := hinv.progress
  refine ⟨op, t, hcall, fun hop => ⟨fun hsend => ?_, fs, hwf, ?_⟩, fs, ?_⟩
  · refine (hdone hop).2.resolve_left ?_
    rw [hside.message]
    exact h.message.mp hsend
  · rw [Progress, (hdone hop).1] at hprog
    obtain ⟨hsent, ⟨hms, -⟩, -⟩ := hprog
    rw [hms, unsent, if_pos (hdone hop).2, List.append_nil]
    exact ⟨hsent, rfl⟩
  · cases hst : t.writeState with
    | header =>
      rw [Progress, hst] at hprog
      exact ⟨[], hwf, by rw [List.append_nil]; exact hprog.1, hprog.2.1.1 ▸ prefix_append _ _⟩
    | controlFrame =>
      rw [Progress, hst] at hprog
      exact ⟨_, hwf, hprog.2.2.1, hprog.2.2.2.1 ▸ prefix_append _ _⟩
    | payload =>
      rw [progress_payload hst] at hprog
      obtain ⟨hms, -, -, -, -, hsent, -⟩ := hprog
      exact ⟨_, hwf, by rw [← append_assoc]; exact hsent, hms ▸ prefix_rfl⟩

/-- The connection after a call of `write` that returned `op`. -/
def afterWrite (c : Connection) (schedule : List Nat) (op : SocketOperation) : Connection :=
  { c with
    transceiver := finalState (c.writeCall schedule [])
    writeStream := if op.write then (finalState (c.writeCall schedule [])).buf else {}
    sending := c.sending && op.write }

/-- The connection after a call of `read`. -/
def afterRead (c : Connection) (buf : Buffer) (schedule : List (Nat × Bool)) : Connection :=
  let t := finalState (c.readCall buf schedule)
  { c with
    transceiver := t
    received := c.received ++ (t.buf.b.take t.buf.i).drop buf.i }

theorem step_afterRead {allowed : Connection → Prop} {c : Connection} {buf : Buffer}
    {schedule : List (Nat × Bool)} {op : SocketOperation} (hbuf : buf.i ≤ buf.b.length)
    (h : returned (c.readCall buf schedule) = some op) :
    Step allowed c (c.afterRead buf schedule) :=
  .read c buf schedule op _ hbuf (eq_ok_of_returned h)

/-- A ping without payload. -/
def emptyPing : Frame := ⟨opPing, true, [], fun _ => 0⟩

/-- A client to which the server has sent a ping. -/
def pinged : Connection := opened false (encodeFrames false [emptyPing])

/-- The client has read the ping, and then has been handed a message of three bytes. -/
def pongDue : Connection :=
  { pinged.afterRead ⟨[0], 0⟩ [(10, false)] with
    writeStream := ⟨[1, 2, 3], 0⟩
    sending := true
    messages := [[1, 2, 3]] }

/-- The pong is written, and then the message. -/
theorem write_sends_messages_pongDue : pongDue.transceiver.state = .pongPending ∧
    ∃ op t, pongDue.writeCall [20, 20] [fun _ => 9, fun _ => 9] = .ok op t ∧ t.buf.atEnd = true ∧
      ∃ fs, (∀ f ∈ fs, f.WellFormed ∧ f.fin = true) ∧
        t.sent = encodeFrames (!t.incoming) fs ∧ messagesOf fs = [[1, 2, 3]] := by
  have hread : Step WriteSafe pinged (pinged.afterRead ⟨[0], 0⟩ [(10, false)]) :=
    step_afterRead (by decide) (show _ = some ⟨true, true⟩ by decide +kernel)
  have hrun : Reachable WriteSafe pinged pongDue :=
    (Relation.ReflTransGen.single hread).tail
      (Step.send _ [1, 2, 3] (by decide +kernel) (by decide) (by decide))
  have hsafe : pongDue.WriteSafe :=
    (safe_between (by decide +kernel)).mpr (.inr (.inr (by decide +kernel)))
  obtain ⟨op, t, hcall, hdone, -⟩ :=
    write_sends_messages (opened_opened false _) hrun hsafe [20, 20]
      [fun _ => 9, fun _ => 9]
  have hop : op.write = false := by
    have hnone : returned (pongDue.writeCall [20, 20] [fun _ => 9, fun _ => 9]) = some .none := by
      decide +kernel
    rw [hcall] at hnone
    rw [Option.some.inj hnone]
    rfl
  exact ⟨by decide +kernel, op, t, hcall, (hdone hop).1 rfl, (hdone hop).2⟩

/-- A server that has a message of 1100 bytes to send, to a client that sends pings. -/
def withMessage (pings : List Frame) : Connection :=
  { opened true (encodeFrames true pings) with
    writeStream := ⟨List.replicate 1100 7, 0⟩
    sending := true
    messages := [List.replicate 1100 7] }

/-- The delegate has taken 100 bytes, then a ping has been read. -/
def pingInMessage : Connection :=
  ((withMessage [emptyPing]).afterWrite [100] .writeOp).afterRead ⟨[0], 0⟩ [(10, false)]

/-- Two pings have been read before the message is written. -/
def twoPings : Connection :=
  (withMessage [emptyPing, emptyPing]).afterRead ⟨[0], 0⟩ [(20, false)]

theorem withMessage_reachable (pings : List Frame) :
    Reachable (fun _ => True) (opened true (encodeFrames true pings)) (withMessage pings) :=
  .single (Step.send _ (replicate 1100 7) rfl (by decide +kernel) (by decide +kernel))

set_option maxRecDepth 4000 in
/-- `write` returns as if the message had been written, although 80 bytes, or all of it, have not
    been given to the delegate. -/
theorem write_stops_at_pong :
    (Reachable (fun _ => True) (opened true (encodeFrames true [emptyPing])) pingInMessage ∧
      pingInMessage.sending = true ∧ pingInMessage.transceiver.IsOpen ∧
      returned (pingInMessage.writeCall [2000] []) = some .none ∧
      (finalState (pingInMessage.writeCall [2000] [])).buf.i = 1020) ∧
    (Reachable (fun _ => True) (opened true (encodeFrames true [emptyPing, emptyPing])) twoPings ∧
      twoPings.sending = true ∧ twoPings.transceiver.IsOpen ∧
      returned (twoPings.writeCall [2000, 2000] []) = some .none ∧
      (finalState (twoPings.writeCall [2000, 2000] [])).buf.i = 0) := by
  refine ⟨⟨?_, rfl, ⟨.inr ?_, .inl ?_⟩, ?_, ?_⟩, ⟨?_, rfl, ⟨.inr ?_, .inr ?_⟩, ?_, ?_⟩⟩
  any_goals decide +kernel
  · have hwrite : Step (fun _ => True) _ ((withMessage [emptyPing]).afterWrite [100] .writeOp) :=
      .write _ [100] [] _ _ trivial (eq_ok_of_returned (by decide +kernel))
    have hread : Step (fun _ => True) _ pingInMessage :=
      step_afterRead (by decide) (show _ = some ⟨true, false⟩ by decide +kernel)
    exact ((withMessage_reachable _).tail hwrite).tail hread
  · have hread : Step (fun _ => True) _ twoPings :=
      step_afterRead (by decide) (show _ = some ⟨true, true⟩ by decide +kernel)
    exact (withMessage_reachable _).tail hread

end Connection

end Ice.WebSocket
