import Ice.Classes.InvariantInstance

/-!
# The invariant through the 1.0 decoder

The operations of `EncapsDecoder10` keep `RunInv`. The decoder has no stack: `AtSlice` describes the
slice that it reads. The rounds of `readPendingValues` are bounded by the bytes left.
-/

namespace Ice

open Decoder Runs

/-- A slice of the given kind is being read. -/
def InSlice (kind : SliceType) (d : Decoder) : Prop := d.current = [] ∧ d.sliceType = kind

/-- The header of a slice of the given kind has been read. -/
structure AtSlice (kind : SliceType) (d : Decoder) : Prop where
  inSlice : InSlice kind d
  skipFirst : d.skipFirstSlice = false
  typeId : ∃ id, d.typeId = some id
  sliceSize : ∃ sz, d.sliceSize = some sz ∧ 4 ≤ sz

section Slices10

variable {cfg : DecoderConfig} {n N : Nat} {o : ObjId} {d d' : Decoder} {kind : SliceType}

theorem InSlice.onStream {α : Type} {x : StreamM α} {k : Nat} (hx : Reads k x) (h : RunInv cfg d)
    (hs : InSlice kind d) : Runs cfg n d (onStream x)
      fun _ d' => InSlice kind d' ∧ d.stream.pos + k ≤ d'.stream.pos := by
  refine (Runs.onStream h hx).mono fun _ d' _ _ hQ => ?_
  obtain ⟨s, rfl, hpos⟩ := hQ
  exact ⟨hs, hpos⟩

theorem Runs.currentTypeId10 (h : RunInv cfg d) (hs : AtSlice kind d) :
    Runs cfg n d currentTypeId10 fun _ d' => d' = d := by
  obtain ⟨id, hid⟩ := hs.typeId
  refine .get_bind ?_
  simp only [hid]
  exact .pure h rfl

theorem Runs.readSliceTypeId10 (h : RunInv cfg d) (st : SliceType) :
    Runs cfg n d (readSliceTypeId10 cfg.mapping st)
      fun _ d' => ∃ s m i, d' = { d with stream := s, typeIdMap := m, typeIdIndex := i } := by
  unfold Ice.readSliceTypeId10
  split
  · refine (onStream h (readBool_reads _)).bind fun b d1 h1 _ hQ => ?_
    obtain ⟨s, rfl, -⟩ := hQ
    exact .readTypeId h1 _
  · refine (onStream h (readString_reads _)).mono fun _ d' _ _ hQ => ?_
    obtain ⟨s, rfl, -⟩ := hQ
    exact ⟨s, _, _, rfl⟩

/-- `startSlice` reads a header, unless `readInstance` has read it already. -/
theorem InSlice.startSlice (h : RunInv cfg d) (hs : InSlice kind d) :
    Runs cfg n d (startSlice10 cfg.mapping) fun _ d' => InSlice kind d' ∧
      (d.skipFirstSlice = false → AtSlice kind d' ∧ d.stream.pos < d'.stream.pos) := by
  refine .get_bind ?_
  split
  · rename_i hskip
    exact .modify { h with } (.of_eq h rfl) ⟨hs, fun hf => by simp [hskip] at hf⟩
  · rename_i hskip
    refine (Runs.readSliceTypeId10 h _).bind fun id d1 h1 hl1 hQ => ?_
    obtain ⟨s, m, i, rfl⟩ := hQ
    have h2 :
        RunInv cfg { d with stream := s, typeIdMap := m, typeIdIndex := i, typeId := some id } :=
      { h1 with }
    refine .modify_bind (.of_eq h1 rfl) ?_
    refine (Runs.onStream h2 readInt32_reads).bind fun sz d3 h3 _ hQ => ?_
    obtain ⟨s', rfl, hpos⟩ := hQ
    have h₄ : RunInv cfg { d with
        stream := s', typeIdMap := m, typeIdIndex := i, typeId := some id, sliceSize := some sz } :=
      { h3 with }
    refine .modify_bind (.of_eq h3 rfl) ?_
    refine .throwIf h₄ (fun _ => errOk_marshal _ _) fun hge => ⟨hs, fun _ => ?_⟩
    refine ⟨⟨hs, Bool.eq_false_iff.mpr hskip, ⟨id, rfl⟩, ⟨sz, rfl, by omega⟩⟩, ?_⟩
    have := hl1.stream.pos_le
    simp only at *
    omega

theorem AtSlice.skipSlice (h : RunInv cfg d) (hs : AtSlice kind d) :
    Runs cfg n d skipSlice10 fun _ d' => InSlice kind d' ∧ d'.skipFirstSlice = false := by
  obtain ⟨sz, hsz, h4⟩ := hs.sliceSize
  refine .get_bind ?_
  simp only [hsz]
  refine (onStream h (skip_reads (by omega))).mono fun _ d' _ _ hQ => ?_
  obtain ⟨s, rfl, -⟩ := hQ
  exact ⟨hs.inSlice, hs.skipFirst⟩

theorem InSlice.read (h : Reading cfg N n o d) (hs : InSlice kind d) (k : Nat) (expected : TypeId) :
    Runs cfg n d (read10 (.slot o k) expected) fun _ d' => InSlice kind d' := by
  refine (hs.onStream readInt32_reads h.inv).bind fun index d1 h1 hl1 hQ => ?_
  have hr := h.later h1 hl1
  have hkeep : ∀ {d' : Decoder}, SameStack d1 d' ∧ d'.sliceType = d1.sliceType →
      InSlice kind d' := by
    rintro d' ⟨hst, hkind⟩
    refine ⟨?_, hkind.trans hQ.1.2⟩
    simpa [SameStack, hQ.1.1] using hst
  split
  · exact .throw (errOk_marshal _ _)
  · split
    · exact (store_null h1 o k).mono fun _ _ _ _ hst => hkeep hst
    · exact (Runs.addPatchEntry (t := .slot o k) h1 (by omega) hr.holder).mono
        fun _ _ _ _ hst => hkeep hst

theorem InSlice.startInstance (h : RunInv cfg d) (hs : InSlice kind d) :
    Runs cfg n d (startInstance10 kind) fun _ d' => InSlice kind d' := by
  refine .get_bind (.throwIf_bind (fun hne => absurd hs.2 hne) fun _ => ?_)
  exact .modify { h with } (.of_eq h rfl) hs

theorem InSlice.endInstance (h : RunInv cfg d) (hs : InSlice kind d) :
    Runs cfg n d (endInstance10 cfg.mapping) fun _ d' => d'.current = [] := by
  refine .get_bind ((Runs.runIf (Q := fun _ d' => InSlice kind d') h (fun _ => ?_)
    fun _ => hs).bind fun _ d1 h1 _ hs1 => ?_)
  · refine (hs.startSlice h).bind fun _ d1 h1 _ hQ => ?_
    refine (hQ.1.onStream readSize_reads h1).bind fun sz d2 h2 _ hQ2 => ?_
    exact .throwIf h2 (fun _ => errOk_marshal _ _) fun _ => hQ2.1
  · exact .modify { h1 with } (.of_eq h1 rfl) hs1.1

theorem InSlice.sliceRun (kind : SliceType) :
    SliceRun cfg N (ops10 cfg.mapping) (InSlice kind) where
  stable hc hk hs := ⟨hc.trans hs.1, hk.trans hs.2⟩
  read h _ hs := hs.read h _ _
  readOptional h hs := .pure h hs
  startSlice h hs := (hs.startSlice h).mono fun _ _ _ _ hQ => hQ.1
  endSlice h _ hs := .pure h.inv hs

/-- A header after a slice that was skipped: the bytes left decrease. -/
theorem AtSlice.nextSlice (h : RunInv cfg d) (hs : InSlice kind d) (hf : d.skipFirstSlice = false) :
    Runs cfg n d (startSlice10 cfg.mapping)
      fun _ d' => AtSlice kind d' ∧ d'.stream.remaining < d.stream.remaining := by
  refine (hs.startSlice h).mono fun _ d' _ hl hQ => ?_
  obtain ⟨hat, hpos⟩ := hQ.2 hf
  exact ⟨hat, InputStream.remaining_lt_of_pos_lt hl.stream hpos⟩

theorem AtSlice.sliceLoop {k : Nat} (h : RunInv cfg d) (hk : d.stream.remaining < k)
    (hs : AtSlice kind d) : Runs cfg n d (sliceLoop10 cfg k) fun _ d' => InSlice kind d' := by
  induction k generalizing d with
  | zero => omega
  | succ k ih =>
    refine (Runs.currentTypeId10 h hs).bind fun id d' _ _ he => ?_
    subst he
    refine .throwIf_bind (fun _ => errOk_marshal _ _) fun _ => ?_
    split
    · exact .pure h hs.inSlice
    · refine (hs.skipSlice h).bind fun _ d1 h1 hl1 hQ => ?_
      refine (AtSlice.nextSlice h1 hQ.1 hQ.2).bind fun _ d2 h2 _ hQ2 => ?_
      have hle := hl1.remaining_le
      exact ih h2 (by omega) hQ2.1

end Slices10

section Pending

variable {cfg : DecoderConfig} {n N : Nat} {o : ObjId} {d d' : Decoder}

/-- `readInstance` of the 1.0 decoder: the instance gets a new address, whatever its index. -/
theorem Runs.readInstance10 (h : RunInv cfg d) (hi : d.initialized) (hc : d.current = []) :
    Runs cfg 0 d (readInstance10 cfg) fun _ d' => d'.current = [] := by
  refine (onStream h readInt32_reads).bind fun index d1 h1 _ hQ => ?_
  obtain ⟨s, rfl, -⟩ := hQ
  refine .throwIf_bind (fun _ => errOk_marshal _ _) fun _ => ?_
  have h2 : RunInv cfg { d with
      stream := s, sliceType := .valueSlice, skipFirstSlice := false } := { h1 with }
  have hs2 : InSlice .valueSlice { d with
      stream := s, sliceType := .valueSlice, skipFirstSlice := false } := ⟨hc, rfl⟩
  refine .modify_bind (.of_eq h1 rfl) ?_
  refine (AtSlice.nextSlice h2 hs2 rfl).bind fun _ d3 h3 hl3 hQ => ?_
  refine .get_bind ((hQ.1.sliceLoop h3 (Nat.lt_succ_self _)).bind fun c d4 h₄ hl4 hs4 => ?_)
  refine .get_bind ?_
  -- The address is new, and the object in it is empty.
  have h5 := h₄.newId
  have hun : d4.valueIdIndex + 1 ∉ d4.finished := fun hf =>
    Nat.not_succ_le_self _ (h₄.finished _ hf)
  generalize ho : d4.valueIdIndex + 1 = o at h5 hun ⊢
  obtain ⟨h6, hl6, hopen⟩ := h5.newObj (n := 0) (o := o) le_rfl hun { cls := c } rfl
  have hl5 : Later cfg 0 d4 { d4 with valueIdIndex := o } :=
    { Later.refl h₄ with ids := ho ▸ Nat.le_succ _ }
  refine .modify_bind (hl5.trans hl6) (.modify_bind (.of_eq h6 rfl) (.get_bind ?_))
  generalize patchDepth _ _ + 1 = depth
  have h7 : RunInv cfg { ({ d4 with valueIdIndex := o } : Decoder).setObj o { cls := c } with
      classGraphDepth := depth } := { h6 with }
  refine .throwIf_bind (fun _ => errOk_marshal _ _) fun _ => ?_
  have hi4 : d4.initialized := hl4.initialized (hl3.initialized hi)
  refine (unmarshal (Q := fun d' => d'.current = []) h7 hopen (by omega) fun m hm => ?_).mono
    fun _ d' _ _ hQ => ?_
  · have hr : Reading cfg (d4.stream.remaining + 1) o o
        { ({ d4 with valueIdIndex := o } : Decoder).setObj o { cls := c } with
          classGraphDepth := depth, unmarshaledMap := m } :=
      ⟨hm, hopen, le_rfl, le_rfl, Nat.lt_succ_self _⟩
    refine (iceRead (InSlice.sliceRun .valueSlice) c hr hi4 hs4
      (fun h' hs' => hs'.startInstance h') fun hr' hs' => hs'.endInstance hr'.inv).mono
      fun _ d' _ _ hc' => ⟨?_, hc'⟩
    intro x hx
    rw [hc'] at hx
    cases hx
  · obtain ⟨⟨d2, hc2, hst⟩, -⟩ := hQ
    simpa [SameStack, hc2] using hst

theorem Runs.readInstances10 (k : Nat) (h : RunInv cfg d) (hi : d.initialized)
    (hc : d.current = []) :
    Runs cfg 0 d (repeatM k (Ice.readInstance10 cfg)) fun _ d' => d'.current = [] := by
  induction k generalizing d with
  | zero => exact .pure h hc
  | succ k ih =>
    refine (readInstance10 h hi hc).bind fun _ d1 h1 hl1 hc1 => ?_
    exact (ih h1 (hl1.initialized hi) hc1).bind fun _ d2 h2 _ hc2 => .pure h2 hc2

/-- Each round of `readPendingValues` reads the size of a sequence. -/
theorem Runs.pendingLoop {k : Nat} (h : RunInv cfg d) (hi : d.initialized) (hc : d.current = [])
    (hk : d.stream.remaining < k) : Runs cfg 0 d (pendingLoop cfg k) fun _ _ => True := by
  induction k generalizing d with
  | zero => omega
  | succ k ih =>
    refine (onStream h readSize_reads).bind fun num d1 h1 hl1 hQ => ?_
    obtain ⟨s, rfl, hpos⟩ := hQ
    have hlt := InputStream.remaining_lt_of_pos_lt hl1.stream hpos
    refine (readInstances10 num h1 hi hc).bind fun _ d2 h2 hl2 hc2 => ?_
    have hle := hl2.remaining_le
    exact .runIf h2 (fun _ => ih h2 (hl2.initialized hi) hc2 (by omega)) fun _ => trivial

theorem Runs.readPendingValues10 (h : RunInv cfg d) (hi : d.initialized) (hc : d.current = []) :
    Runs cfg 0 d (readPendingValues10 cfg) fun _ _ => True := by
  refine .get_bind ((pendingLoop h hi hc (Nat.lt_succ_self _)).bind fun _ d1 h1 _ _ => ?_)
  exact .get_bind (.throwIf h1 (fun _ => errOk_marshal _ _) fun _ => trivial)

theorem Runs.orUnknownType {x : DecoderM Unit} {Q : Unit → Decoder → Prop}
    (h : Runs cfg n d x Q) : Runs cfg n d (orUnknownType x) Q := by
  unfold Runs wp Ice.orUnknownType at *
  cases hx : x d with
  | ok a d' => rw [hx] at h; exact h
  | error e d' =>
    rw [hx] at h
    cases e with
    | marshal r => exact errOk_marshal _ _
    | userException => exact h
    | trap t => exact h
    | outOfFuel => exact h

theorem AtSlice.exceptionLoop (usesClasses : Bool) {k : Nat} (h : RunInv cfg d)
    (hi : d.initialized) (hk : d.stream.remaining < k) (hs : AtSlice .exceptionSlice d) :
    Runs cfg 0 d (exceptionLoop10 cfg usesClasses k) fun _ _ => True := by
  induction k generalizing d with
  | zero => omega
  | succ k ih =>
    obtain ⟨id, hid⟩ := hs.typeId
    refine .bind (Q := fun a d' => a = id ∧ d' = d) ?_ fun a d' _ _ he => ?_
    · refine .get_bind ?_
      simp only [hid]
      exact .pure h ⟨rfl, rfl⟩
    obtain ⟨rfl, rfl⟩ := he
    have h0 : RunInv cfg { d' with exceptionIds := d'.exceptionIds ++ [a] } := { h with }
    have hs0 : AtSlice .exceptionSlice { d' with exceptionIds := d'.exceptionIds ++ [a] } :=
      { hs with }
    refine .modify_bind (.of_eq h rfl) ?_
    split
    · refine (Runs.iceRead (InSlice.sliceRun .exceptionSlice) _
        (h0.reading_frame (Nat.lt_succ_self _)) hi hs0.inSlice (fun h' hs' => hs'.startInstance h')
        fun hr' hs' => hs'.endInstance hr'.inv).bind fun _ d1 h1 hl1 hc1 => ?_
      refine (Runs.runIf h1 (fun _ => .readPendingValues10 h1 (hl1.initialized hi) hc1)
        fun _ => trivial).bind fun _ d2 h2 _ _ => ?_
      exact .throw ⟨by simp, by simp, fun _ => h2⟩
    · rename_i cls hcls hm
      exact .throw ⟨by simp, fun _ _ => ⟨hm, .inr (.inl ⟨a, by simp, cls, hcls⟩)⟩, by simp⟩
    · refine (hs0.skipSlice h0).bind fun _ d1 h1 hl1 hQ => ?_
      refine (Runs.orUnknownType (AtSlice.nextSlice h1 hQ.1 hQ.2)).bind fun _ d2 h2 hl2 hQ2 => ?_
      have hle := hl1.remaining_le
      dsimp only at hle
      exact ih h2 (hl2.initialized (hl1.initialized hi)) (by omega) hQ2.1

theorem Runs.throwException10 (h : RunInv cfg d) (hi : d.initialized) (hc : d.current = [])
    (hk : d.sliceType = .noSlice) : Runs cfg 0 d (throwException10 cfg) fun _ _ => True := by
  refine .get_bind (.throwIf_bind (fun hne => absurd hk hne) fun _ => ?_)
  refine (onStream h (readBool_reads _)).bind fun usesClasses d1 h1 _ hQ => ?_
  obtain ⟨s, rfl, -⟩ := hQ
  have h2 : RunInv cfg { d with
      stream := s, sliceType := .exceptionSlice, skipFirstSlice := false } := { h1 with }
  have hs2 : InSlice .exceptionSlice { d with
      stream := s, sliceType := .exceptionSlice, skipFirstSlice := false } := ⟨hc, rfl⟩
  refine .modify_bind (.of_eq h1 rfl) ?_
  refine (AtSlice.nextSlice h2 hs2 rfl).bind fun _ d3 h3 hl3 hQ => ?_
  exact .get_bind (hQ.1.exceptionLoop _ h3 (hl3.initialized hi) (Nat.lt_succ_self _))

theorem Runs.decode10 (payload : Payload) (h : RunInv cfg d) (hc : d.current = [])
    (hk : d.sliceType = .noSlice) : Runs cfg 0 d (decode10 cfg payload) fun _ _ => True := by
  cases payload with
  | params types =>
    refine (mapEach (I := fun d' => Reading cfg (d.stream.remaining + 1) 0 frameId d' ∧
      InSlice .noSlice d') h ⟨h.reading_frame (Nat.lt_succ_self _), hc, hk⟩
      fun t d' _ hI => ?_).bind fun _ d1 h1 _ hI => .get_bind ?_
    · exact (readField (InSlice.sliceRun .noSlice).toReadRun t hI.1 hI.2).mono
        fun _ d'' h'' hl'' hs'' => ⟨hI.1.later h'' hl'', hs''⟩
    · split
      · rename_i hi
        exact .readPendingValues10 h1 hi hI.2.1
      · exact (onStream h1 skipSize_reads).mono fun _ _ _ _ _ => trivial
  | userException =>
    obtain ⟨h1, hl1⟩ := h.initialize (n := 0)
    exact .modify_bind hl1 (.throwException10 h1 rfl hc hk)

end Pending

end Ice
