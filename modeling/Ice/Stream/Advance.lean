import Ice.Stream.InputStream

/-!
# Reading from arbitrary bytes

What every stream operation does on a buffer that a peer chose: it moves the position forward inside
the buffer, or it throws a `MarshalException`. No precondition of the stream fails, and the loops
over optional members end before their bound.
-/

namespace Ice

/-- The failure is a `MarshalException`. -/
def Failure.IsMarshal (e : Failure) : Prop := ∃ reason, e = .marshal reason

namespace InputStream

/-- The position is inside the buffer. -/
def Valid (s : InputStream) : Prop := s.pos ≤ s.data.length

/-- What the sequences being read need at least is inside the buffer. -/
def SeqFits (s : InputStream) : Prop :=
  ∀ start, s.startSeq = some start → start + s.minSeqSize ≤ s.data.length

/-- `s'` is `s` after some reading: the same buffer and encapsulation, a later position. -/
structure Advances (s s' : InputStream) : Prop where
  data : s'.data = s.data
  encaps : s'.encaps = s.encaps
  pos_le : s.pos ≤ s'.pos
  valid : s'.Valid
  seqFits : s.SeqFits → s'.SeqFits

variable {s : InputStream}

theorem Advances.refl (h : s.Valid) : s.Advances s := ⟨rfl, rfl, le_rfl, h, id⟩

theorem Advances.trans {s' s'' : InputStream} (h : s.Advances s') (h' : s'.Advances s'') :
    s.Advances s'' :=
  ⟨h'.data.trans h.data, h'.encaps.trans h.encaps, h.pos_le.trans h'.pos_le, h'.valid,
    h'.seqFits ∘ h.seqFits⟩

theorem Advances.remaining_le {s' : InputStream} (h : s.Advances s') :
    s'.remaining ≤ s.remaining := by
  have := h.pos_le
  simp only [remaining, h.data]
  omega

theorem remaining_lt_of_pos_lt {s' : InputStream} (h : s.Advances s') (hlt : s.pos < s'.pos) :
    s'.remaining < s.remaining := by
  have hv := h.valid
  simp only [Valid, h.data] at hv
  simp only [remaining, h.data]
  omega

theorem advance_advances {n : Nat} (h : n ≤ s.remaining) (hv : s.Valid) :
    s.Advances (s.advance n) := by
  refine ⟨rfl, rfl, Nat.le_add_right _ _, ?_, id⟩
  simp only [Valid, remaining, advance] at *
  omega

end InputStream

open InputStream

/-- From any position, `x` reads at least `k` bytes or throws a `MarshalException`. -/
def Reads {α : Type} (k : Nat) (x : StreamM α) : Prop :=
  ∀ s, s.Valid → s.encaps.isSome →
    wp x (fun _ s' => s.Advances s' ∧ s.pos + k ≤ s'.pos)
    (fun e s' => e.IsMarshal ∧ s.Advances s') s

namespace Reads

variable {α β : Type} {k j : Nat}

theorem pure (a : α) : Reads 0 (pure a : StreamM α) :=
  fun _ hv _ => ⟨.refl hv, le_rfl⟩

theorem throw (r : MarshalReason) : Reads k (throw (.marshal r) : StreamM α) :=
  fun _ hv _ => ⟨⟨r, rfl⟩, .refl hv⟩

theorem mono {x : StreamM α} (h : Reads k x) (hj : j ≤ k) : Reads j x :=
  fun s hv he => wp_post (h s hv he) fun _ _ hq => ⟨hq.1, by omega⟩

theorem bind {x : StreamM α} {f : α → StreamM β} (hx : Reads k x) (hf : ∀ a, Reads j (f a)) :
    Reads (k + j) (x >>= f) := by
  intro s hv he
  refine wp_seq (hx s hv he) fun a s' hs => ?_
  refine wp_mono (hf a s' hs.1.valid (hs.1.encaps ▸ he)) (fun b s'' hq => ?_) fun e s'' hq => ?_
  · exact ⟨hs.1.trans hq.1, by have := hs.2; have := hq.2; omega⟩
  · exact ⟨hq.1, hs.1.trans hq.2⟩

theorem ite {c : Prop} [Decidable c] {x y : StreamM α} (hx : c → Reads k x)
    (hy : ¬ c → Reads k y) : Reads k (if c then x else y) := by
  split
  · exact hx ‹_›
  · exact hy ‹_›

end Reads

variable {s : InputStream}

theorem readByte_spec (hv : s.Valid) : wp readByte (fun _ s' => s.Advances s' ∧ s.pos + 1 ≤ s'.pos)
      (fun e s' => e.IsMarshal ∧ s.Advances s') s := by
  simp only [readByte, wp_bind, wp_get]
  cases h : s.upcoming with
  | nil => exact ⟨⟨_, rfl⟩, .refl hv⟩
  | cons b bs =>
    have hlen : 1 ≤ s.remaining := by
      have := congrArg List.length h
      simp only [upcoming, List.length_drop, List.length_cons] at this
      simp only [remaining]
      omega
    exact ⟨advance_advances hlen hv, le_rfl⟩

theorem readByte_reads : Reads 1 readByte := fun _ hv _ => readByte_spec hv

theorem readBytes_spec (n : Nat) (hv : s.Valid) :
    wp (readBytes n) (fun _ s' => s.Advances s' ∧ s.pos + n ≤ s'.pos)
      (fun e s' => e.IsMarshal ∧ s.Advances s') s := by
  simp only [readBytes, wp_bind, wp_get]
  split
  · exact ⟨⟨_, rfl⟩, .refl hv⟩
  · exact ⟨advance_advances (by omega) hv, le_rfl⟩

theorem readBytes_reads (n : Nat) : Reads n (readBytes n) := fun _ hv _ => readBytes_spec n hv

theorem readInt32_reads : Reads 4 readInt32 :=
  (readBytes_reads 4).bind fun _ => .pure _

/-- A size of 255 or more takes five bytes. -/
theorem readSize_spec (hv : s.Valid) (he : s.encaps.isSome) :
    wp readSize (fun n s' => s.Advances s' ∧ s.pos + 1 ≤ s'.pos ∧ (255 ≤ n → s.pos + 5 ≤ s'.pos))
      (fun e s' => e.IsMarshal ∧ s.Advances s') s := by
  refine wp_seq (readByte_reads s hv he) fun b s' hs => ?_
  split
  · rw [wp_bind]
    refine wp_mono (readInt32_reads s' hs.1.valid (hs.1.encaps ▸ he)) (fun v s'' hq => ?_)
      fun e s'' hq => ⟨hq.1, hs.1.trans hq.2⟩
    split
    · exact ⟨⟨_, rfl⟩, hs.1.trans hq.1⟩
    · exact ⟨hs.1.trans hq.1, by omega, by omega⟩
  · refine ⟨hs.1, hs.2, fun hb => ?_⟩
    have hne : b.toNat ≠ 255 := fun h => ‹¬ b = 255› (UInt8.toNat_inj.mp h)
    have := b.toNat_lt
    omega

theorem readSize_reads : Reads 1 readSize :=
  fun _ hv he => wp_post (readSize_spec hv he) fun _ _ h => ⟨h.1, h.2.1⟩

theorem changePos_reads (n : Nat) : Reads n (changePos n) := by
  intro s hv _
  simp only [changePos, wp_bind, wp_get]
  split
  · omega
  · split
    · exact ⟨⟨_, rfl⟩, .refl hv⟩
    · rename_i h
      have hs : ({ s with pos := ((s.pos : Int) + n).toNat } : InputStream) = s.advance n := by
        simp only [advance, InputStream.mk.injEq, true_and, and_true]
        omega
      exact ⟨advance_advances (by omega) hv, le_rfl⟩

theorem skip_reads {n : Int} (h : 0 ≤ n) : Reads n.toNat (skip n) := by
  have hn : n = n.toNat := by omega
  rw [skip, hn]
  exact Reads.ite (fun h => by omega) fun _ => changePos_reads _

theorem skipSize_reads : Reads 1 skipSize :=
  (readByte_reads.bind (j := 0) fun _ =>
    .ite (fun _ => (skip_reads (by decide)).mono (by decide)) fun _ => .pure _)

theorem readString_reads (m : Mapping) : Reads 1 (readString m) :=
  readSize_reads.bind (j := 0) fun n => ((readBytes_reads n).bind (j := 0) fun _ =>
    .ite (fun _ => .throw _) fun _ => .pure _).mono (by omega)

theorem readBool_reads (m : Mapping) : Reads 1 (readBool m) := by
  refine readByte_reads.bind (j := 0) fun b => ?_
  cases m <;> exact .pure _

/-- The 32-bit integers of Swift hold what a smaller buffer needs. -/
theorem InputStream.SeqFits.length_of_seqOverflows (hs : s.SeqFits) (hv : s.Valid)
    (h : s.seqOverflows = true) : 2 ^ 31 ≤ s.data.length := by
  unfold Valid at hv
  unfold seqOverflows at h
  split at h
  · exact (of_decide_eq_true h).trans hv
  · rename_i start hstart
    have hseq := hs start hstart
    have hbig := of_decide_eq_true h
    omega

/-- A sequence size is read, or an exception thrown; Swift may trap in a buffer that is too large
    for its 32-bit integers. -/
theorem readAndCheckSeqSize_spec (m : Mapping) (minSize : Nat) (hv : s.Valid) (hs : s.SeqFits)
    (he : s.encaps.isSome) :
    wp (readAndCheckSeqSize m minSize) (fun _ s' => s.Advances s' ∧ s.pos + 1 ≤ s'.pos)
      (fun e s' => (e.IsMarshal ∨ (∃ t, e = .trap t) ∧ m = .swift ∧ 2 ^ 31 ≤ s.data.length) ∧
        s.Advances s') s := by
  rw [readAndCheckSeqSize, wp_bind]
  refine wp_mono (readSize_reads s hv he) (fun sz s1 h1 => ?_) fun e s' h => ⟨.inl h.1, h.2⟩
  split
  · exact h1
  · have hdata := congrArg List.length h1.1.data
    simp only [wp_bind, wp_get, wp_throwIf, wp_set, wp_pure]
    refine ⟨fun hbig => ?_, fun _ =>
      ⟨fun _ => ⟨.inl ⟨_, rfl⟩, h1.1⟩, fun hle => ⟨fun hbig => ?_, fun _ => ?_⟩⟩⟩
    · exact ⟨.inr ⟨⟨_, rfl⟩, hbig.1,
        hdata ▸ (h1.1.seqFits hs).length_of_seqOverflows h1.1.valid hbig.2⟩, h1.1⟩
    · exact ⟨.inr ⟨⟨_, rfl⟩, hbig.1, by omega⟩, h1.1⟩
    · refine ⟨⟨h1.1.data, h1.1.encaps, h1.1.pos_le, h1.1.valid, fun _ start hstart => ?_⟩, h1.2⟩
      cases hstart
      exact Nat.le_of_not_lt hle

theorem currentEncaps_reads : Reads 0 currentEncaps := by
  intro s hv he
  obtain ⟨e, he'⟩ := Option.isSome_iff_exists.mp he
  simp only [currentEncaps, wp_bind, wp_get, he', wp_pure]
  exact ⟨.refl hv, le_rfl⟩

theorem skipOptional_reads (format : OptionalFormat) : Reads 0 (skipOptional format) := by
  cases format
  case F1 => exact (skip_reads (by decide)).mono (by decide)
  case F2 => exact (skip_reads (by decide)).mono (by decide)
  case F4 => exact (skip_reads (by decide)).mono (by decide)
  case F8 => exact (skip_reads (by decide)).mono (by decide)
  case Size => exact skipSize_reads.mono (by decide)
  case VSize =>
    exact (readSize_reads.bind fun n => (skip_reads (by omega)).mono (Nat.zero_le _)).mono
      (Nat.zero_le _)
  case FSize =>
    refine (readInt32_reads.bind (j := 0) fun sz => .ite (fun _ => .throw _) fun h => ?_).mono
      (Nat.zero_le _)
    exact (skip_reads (by omega)).mono (Nat.zero_le _)
  case Class => exact .throw _

theorem OptionalFormat.ofByte_isSome (v : UInt8) : (OptionalFormat.ofByte v).isSome := by
  have h : (v &&& 7).toNat < 8 := by
    exact Nat.and_lt_two_pow _ (show (7 : UInt8).toNat < 2 ^ 3 by decide)
  unfold OptionalFormat.ofByte
  generalize (v &&& 7).toNat = n at h
  interval_cases n <;> rfl

theorem optionalFormat_reads (v : UInt8) (e : Failure) : Reads 0 (optionalFormat v e) := by
  obtain ⟨f, hf⟩ := Option.isSome_iff_exists.mp (OptionalFormat.ofByte_isSome v)
  simp only [optionalFormat, hf]
  exact .pure _

namespace Reads

variable {α : Type} {k : Nat}

theorem throwIf {c : Prop} [Decidable c] (r : MarshalReason) :
    Reads 0 (throwIf c (.marshal r) : StreamM Unit) :=
  .ite (fun _ => .throw r) fun _ => .pure _

theorem runIf {c : Prop} [Decidable c] {x : StreamM Unit} (h : Reads k x) : Reads 0 (runIf c x) :=
  .ite (fun _ => h.mono (Nat.zero_le _)) fun _ => .pure _

/-- Uses the specification of `x` at a later position. -/
theorem wp_of_advances {x : StreamM α} {Q : α → InputStream → Prop} {s s' : InputStream}
    (hx : Reads k x) (h : s.Advances s') (he : s.encaps.isSome)
    (hQ : ∀ a s'', s.Advances s'' → s'.Advances s'' → s'.pos + k ≤ s''.pos → Q a s'') :
    wp x Q (fun e s'' => e.IsMarshal ∧ s.Advances s'') s' :=
  wp_mono (hx s' h.valid (h.encaps ▸ he)) (fun a s'' hq => hQ a s'' (h.trans hq.1) hq.1 hq.2)
    fun _ _ hq => ⟨hq.1, h.trans hq.2⟩

end Reads

theorem skipOptionalsLoop_reads (e : Encaps) (n : Nat) (hv : s.Valid) (he : s.encaps.isSome)
    (hn : s.remaining < n) :
    wp (skipOptionalsLoop e n) (fun _ s' => s.Advances s' ∧ s.pos + 0 ≤ s'.pos)
      (fun e s' => e.IsMarshal ∧ s.Advances s') s := by
  induction n generalizing s with
  | zero => omega
  | succ n ih =>
    simp only [skipOptionalsLoop, wp_bind, wp_get]
    split
    · exact ⟨.refl hv, le_rfl⟩
    rw [wp_bind]
    refine readByte_reads.wp_of_advances (.refl hv) he fun v s1 h₁ _ hp => ?_
    have hrem := remaining_lt_of_pos_lt h₁ hp
    split
    · exact ⟨h₁, h₁.pos_le⟩
    simp only [skipHeader, wp_bind, wp_pure]
    refine (optionalFormat_reads v _).wp_of_advances h₁ he fun f s2 h₂ hs2 _ => ?_
    refine (Reads.runIf skipSize_reads).wp_of_advances h₂ he fun _ s3 h3 hs3 _ => ?_
    refine (skipOptional_reads f).wp_of_advances h3 he fun _ s4 h4 hs4 _ => ?_
    have hle := (hs2.trans (hs3.trans hs4)).remaining_le
    refine wp_mono (ih h4.valid (h4.encaps ▸ he) (by omega)) (fun _ s5 h5 => ?_)
      fun e s5 h5 => ⟨h5.1, h4.trans h5.2⟩
    exact ⟨h4.trans h5.1, (h4.trans h5.1).pos_le⟩

theorem skipOptionals_reads : Reads 0 skipOptionals := by
  refine Reads.bind (k := 0) (j := 0) currentEncaps_reads fun e => ?_
  intro s hv he
  simp only [wp_bind, wp_get]
  exact skipOptionalsLoop_reads e _ hv he (Nat.lt_succ_self _)

/-- Moving the position back over bytes that have been read since `s`. -/
theorem changePos_back {s' : InputStream} {n : Nat} (h : s.Advances s') (hn : s.pos + n ≤ s'.pos) :
    wp (changePos (-n)) (fun _ s'' => s.Advances s'')
      (fun e s'' => e.IsMarshal ∧ s.Advances s'') s' := by
  simp only [changePos, wp_bind, wp_get]
  split
  · omega
  · split
    · exact ⟨⟨_, rfl⟩, h⟩
    · have hv := h.valid
      refine ⟨h.data, h.encaps, ?_, ?_, h.seqFits⟩
      · simp only
        omega
      · simp only [Valid] at hv ⊢
        omega

theorem toNat_tag_lt {v : UInt8} (h30 : ¬ v >>> 3 = 30) (h31 : ¬ v >>> 3 > 30) :
    (v >>> 3).toNat < 30 := by
  have h1 : ¬ (30 : UInt8).toNat < (v >>> 3).toNat := h31
  have h2 : (v >>> 3).toNat ≠ (30 : UInt8).toNat := fun h => h30 (UInt8.toNat_inj.mp h)
  simp only [UInt8.reduceToNat] at h1 h2
  omega

theorem readTagOf_spec {v : UInt8} (hv : s.Valid) (he : s.encaps.isSome) (h30 : ¬ v >>> 3 > 30) :
    wp (readTagOf v)
      (fun tag s' => s.Advances s' ∧ (30 ≤ tag → s.pos + 1 ≤ s'.pos) ∧
        (255 ≤ tag → s.pos + 5 ≤ s'.pos))
      (fun e s' => e.IsMarshal ∧ s.Advances s') s := by
  unfold readTagOf
  split
  · exact wp_post (readSize_spec hv he) fun n s' h => ⟨h.1, fun _ => h.2.1, h.2.2⟩
  · have hlt := toNat_tag_lt ‹_› h30
    exact ⟨.refl hv, by omega, by omega⟩

theorem readOptImplLoop_reads (e : Encaps) (readTag : Nat) (fmt : OptionalFormat) (n : Nat)
    (hv : s.Valid) (he : s.encaps.isSome) (hn : s.remaining < n) :
    wp (readOptImplLoop e readTag fmt n) (fun _ s' => s.Advances s' ∧ s.pos + 0 ≤ s'.pos)
      (fun e s' => e.IsMarshal ∧ s.Advances s') s := by
  induction n generalizing s with
  | zero => omega
  | succ n ih =>
    simp only [readOptImplLoop, wp_bind, wp_get]
    split
    · exact ⟨.refl hv, le_rfl⟩
    rw [wp_bind]
    refine readByte_reads.wp_of_advances (.refl hv) he fun v s1 h₁ _ hp => ?_
    have hrem := remaining_lt_of_pos_lt h₁ hp
    split
    · rw [wp_bind]
      exact wp_post (changePos_back (n := 1) h₁ hp) fun _ s2 h₂ => ⟨h₂, h₂.pos_le⟩
    simp only [readHeader, wp_bind, wp_pure]
    refine (optionalFormat_reads v _).wp_of_advances h₁ he fun f s2 h₂ hs2 _ => ?_
    rw [wp_throwIf]
    refine ⟨fun _ => ⟨⟨_, rfl⟩, h₂⟩, fun h30 => ?_⟩
    refine wp_mono (readTagOf_spec h₂.valid (h₂.encaps ▸ he) h30) (fun tag s3 h3 => ?_)
      fun _ _ h => ⟨h.1, h₂.trans h.2⟩
    have hs3 := hs2.trans h3.1
    have hadv := h₂.trans h3.1
    split
    · -- The member comes later: its tag is read again.
      rw [wp_bind]
      have hback : ∀ k : Nat, s.pos + k ≤ s3.pos →
          wp (changePos (-k)) (fun _ s' => s.Advances s' ∧ s.pos + 0 ≤ s'.pos)
            (fun e s' => e.IsMarshal ∧ s.Advances s') s3 := fun k hk =>
        wp_post (changePos_back hadv hk) fun _ s' h => ⟨h, h.pos_le⟩
      have hp3 := hs3.pos_le
      obtain ⟨-, hge30, hge255⟩ := h3
      split
      · exact hback 1 (by omega)
      · split
        · exact hback 2 (by have := hge30 (by omega); omega)
        · exact hback 6 (by have := hge255 (by omega); omega)
    · split
      · rw [wp_bind]
        refine (skipOptional_reads f).wp_of_advances hadv he fun _ s4 h4 hs4 _ => ?_
        have hle := (hs3.trans hs4).remaining_le
        refine wp_mono (ih h4.valid (h4.encaps ▸ he) (by omega)) (fun _ s5 h5 => ?_)
          fun e s5 h5 => ⟨h5.1, h4.trans h5.2⟩
        exact ⟨h4.trans h5.1, (h4.trans h5.1).pos_le⟩
      · rw [wp_bind, wp_throwIf]
        exact ⟨fun _ => ⟨⟨_, rfl⟩, hadv⟩, fun _ => ⟨hadv, hadv.pos_le⟩⟩

theorem readOptImpl_reads (readTag : Nat) (fmt : OptionalFormat) :
    Reads 0 (readOptImpl readTag fmt) := by
  refine Reads.bind (k := 0) (j := 0) currentEncaps_reads fun e => ?_
  refine .ite (fun _ => .pure _) fun _ => ?_
  intro s hv he
  simp only [wp_bind, wp_get]
  exact readOptImplLoop_reads e readTag fmt _ hv he (Nat.lt_succ_self _)

/-- `startEncapsulation` at the start of a stream leaves it inside an encapsulation. -/
theorem startEncapsulation_spec (m : Mapping) (hv : s.Valid) (hn : s.encaps = none) :
    wp (startEncapsulation m) (fun _ s' => s'.Valid ∧ (s.SeqFits → s'.SeqFits) ∧ s'.data = s.data ∧
      s'.encaps.isSome) (fun e _ => e.IsMarshal) s := by
  simp only [startEncapsulation, readInt32, wp_bind, wp_get, wp_throwIf, wp_pure, wp_modify]
  refine ⟨fun h => by simp [hn] at h, fun _ => ?_⟩
  refine wp_mono (readBytes_spec 4 hv) (fun bs s1 h₁ => ?_) fun _ _ h => h.1
  refine ⟨fun _ => ⟨_, rfl⟩, fun _ => ⟨fun _ => ⟨_, rfl⟩, fun _ => ?_⟩⟩
  refine wp_mono (readByte_spec h₁.1.valid) (fun major s2 h₂ => ?_) fun _ _ h => h.1
  refine wp_mono (readByte_spec h₂.1.valid) (fun minor s3 h3 => ?_) fun _ _ h => h.1
  refine ⟨fun _ => ⟨_, rfl⟩, fun _ => ?_⟩
  have hadv := h₁.1.trans (h₂.1.trans h3.1)
  exact ⟨hadv.valid, hadv.seqFits, hadv.data, rfl⟩

end Ice
