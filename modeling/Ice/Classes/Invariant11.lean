import Ice.Classes.InvariantRead

/-!
# The invariant through the 1.1 decoder

Every operation of `EncapsDecoder11` keeps `RunInv`. The stack discipline is `Slicing`: the instance
being read is on top of a stack that no operation touches. The recursion of `readInstance` is
bounded by the bytes left: an inline activation reads at least the flags of a slice.
-/

namespace Ice

open Decoder List Runs

/-- Each preserved slice has an indirection table; exception slices are not preserved. -/
def InstanceData.Balanced (c : InstanceData) : Prop :=
  if c.sliceType = .valueSlice then c.slices.length = c.indirectionTables.length
  else c.slices.length = 0

/-- The current instance is of the given kind and a slice header has been read for it; `base` is
    what lies below it on the stack. -/
def Slicing (kind : SliceType) (base : List InstanceData) (d : Decoder) : Prop :=
  ∃ c cs, d.current = c :: cs ∧ cs.map InstanceData.outline = base.map InstanceData.outline ∧
    c.sliceType = kind ∧ c.Balanced ∧ c.header.isSome

/-- The recursive call of `readInstance`, with fewer than `N` bytes left. -/
def RecRun (cfg : DecoderConfig) (N : Nat) (rec : ReadInstance) : Prop :=
  ∀ {n d} (i : Nat) (cb : Option (Target × TypeId)), RunInv cfg d → d.initialized →
    n ≤ d.valueIdIndex → d.stream.remaining < N →
    (∀ t expected, cb = some (t, expected) → ∃ o k, t = .slot o k ∧ d.Open o ∧ o ≤ n) →
    Runs cfg n d (rec i cb) fun j d' => SameStack d d' ∧ j ≠ 0

section Stack

variable {cfg : DecoderConfig} {n N : Nat} {d d' : Decoder} {c : InstanceData}
  {cs base : List InstanceData} {kind : SliceType}

/-- What two instances with one outline have in common. -/
theorem outline_eq {c c' : InstanceData} (h : c'.outline = c.outline) :
    c'.sliceType = c.sliceType ∧ c'.header = c.header ∧
      c'.indirectionTables = c.indirectionTables ∧ c'.indirectPatchList = c.indirectPatchList ∧
      c'.slices.length = c.slices.length ∧ c'.skipFirstSlice = c.skipFirstSlice := by
  simp only [InstanceData.outline, InstanceData.mk.injEq] at h
  obtain ⟨hk, hf, hs, ht, hh, hp⟩ := h
  have hl := congrArg length hs
  rw [length_map, length_map] at hl
  exact ⟨hk, hh, ht, hp, hl, hf⟩

theorem InstanceData.Balanced.of_outline {c c' : InstanceData} (h : c'.outline = c.outline)
    (hb : c.Balanced) : c'.Balanced := by
  obtain ⟨hk, -, ht, -, hl, -⟩ := outline_eq h
  rwa [InstanceData.Balanced, hk, ht, hl]

/-- An operation that keeps the stack keeps the top of it, up to its outline. -/
theorem SameStack.cons (h : SameStack d d') (hc : d.current = c :: cs) :
    ∃ c' cs', d'.current = c' :: cs' ∧ c'.outline = c.outline ∧
      cs'.map InstanceData.outline = cs.map InstanceData.outline := by
  rw [SameStack, hc, map_cons] at h
  cases hd : d'.current with
  | nil => rw [hd] at h; cases h
  | cons c' cs' =>
    rw [hd, map_cons] at h
    exact ⟨c', cs', rfl, (cons.inj h).1, (cons.inj h).2⟩

theorem SameStack.slicing (h : SameStack d d') (hs : Slicing kind base d) :
    Slicing kind base d' := by
  obtain ⟨c, cs, hc, hcs, hk, hb, hh⟩ := hs
  obtain ⟨c', cs', hc', ho, hcs'⟩ := h.cons hc
  obtain ⟨hkind, hhead, -⟩ := outline_eq ho
  exact ⟨c', cs', hc', hcs'.trans hcs, hkind.trans hk, hb.of_outline ho, hhead ▸ hh⟩

theorem Slicing.of_current (h : d'.current = d.current) (hs : Slicing kind base d) :
    Slicing kind base d' := (SameStack.of_eq h).slicing hs

theorem Runs.currentInstance (h : RunInv cfg d) (hc : d.current = c :: cs) :
    Runs cfg n d currentInstance fun a d' => a = c ∧ d' = d := by
  refine .get_bind ?_
  simp only [hc]
  exact .pure h ⟨rfl, rfl⟩

theorem Runs.currentHeader (h : RunInv cfg d) (hc : d.current = c :: cs) {hd : SliceHeader}
    (hh : c.header = some hd) : Runs cfg n d currentHeader fun a d' => a = hd ∧ d' = d := by
  refine (currentInstance h hc).bind fun a d1 h1 _ hQ => ?_
  obtain ⟨rfl, rfl⟩ := hQ
  simp only [hh]
  exact .pure h1 ⟨rfl, rfl⟩

theorem RunInv.setTop (h : RunInv cfg d) (hc : d.current = c :: cs) {c' : InstanceData}
    (hc' : c'.Ok d.OpenSlot (d.Complete cfg)) : RunInv cfg { d with current := c' :: cs } := by
  refine { h with stack := fun x hx => ?_ }
  rcases mem_cons.mp hx with rfl | hx
  · exact hc'
  · exact h.stack x (by simp [hc, hx])

theorem Runs.modifyCurrent (h : RunInv cfg d) (hc : d.current = c :: cs)
    {f : InstanceData → InstanceData} (hf : (f c).Ok d.OpenSlot (d.Complete cfg)) :
    Runs cfg n d (modifyCurrent f) fun _ d' => d' = { d with current := f c :: cs } := by
  refine .get_bind ?_
  simp only [hc]
  exact .modify (h.setTop hc hf) (.of_eq h rfl) rfl

end Stack

section Slices

variable {cfg : DecoderConfig} {n N : Nat} {d d' : Decoder} {c : InstanceData}
  {cs base : List InstanceData} {kind : SliceType} {rec : ReadInstance}

theorem Runs.readTypeId (h : RunInv cfg d) (isIndex : Bool) :
    Runs cfg n d (readTypeId cfg.mapping isIndex)
      fun _ d' => ∃ s m i, d' = { d with stream := s, typeIdMap := m, typeIdIndex := i } := by
  unfold Ice.readTypeId
  split
  · refine (onStream h readSize_reads).bind fun i d1 h1 _ hQ => ?_
    obtain ⟨s, rfl, -⟩ := hQ
    refine .get_bind ?_
    split
    · exact .pure h1 ⟨s, _, _, rfl⟩
    · exact .throw (errOk_marshal _ _)
  · refine (onStream h (readString_reads _)).bind fun t d1 h1 _ hQ => ?_
    obtain ⟨s, rfl, -⟩ := hQ
    refine (modify
      (Q := fun _ d' => ∃ s m i, d' = { d with stream := s, typeIdMap := m, typeIdIndex := i })
      { h1 with } (.of_eq h1 rfl) ⟨s, _, _, rfl⟩).bind fun _ d2 h2 _ hQ => ?_
    exact .pure h2 hQ

theorem Runs.readSliceTypeId (h : RunInv cfg d) (st : SliceType) (flags : UInt8) :
    Runs cfg n d (readSliceTypeId cfg.mapping st flags) fun _ d' => d'.current = d.current := by
  have hstream : ∀ {α : Type} {k : Nat} {x : StreamM α} {f : α → TypeId × Option Nat}, Reads k x →
      Runs cfg n d (do return f (← Decoder.onStream x)) fun _ d' => d'.current = d.current := by
    intro α k x f hx
    refine (onStream h hx).bind fun i d1 h1 _ hQ => ?_
    obtain ⟨s, rfl, -⟩ := hQ
    exact .pure h1 rfl
  unfold Ice.readSliceTypeId
  split
  · split
    · exact hstream readSize_reads
    · split
      · refine (readTypeId h _).bind fun t d1 h1 _ hQ => ?_
        obtain ⟨s, m, i, rfl⟩ := hQ
        exact .pure h1 rfl
      · exact .pure h rfl
  · exact hstream (readString_reads _)

/-- The size in a slice header passes the check of `startSlice`. -/
theorem Runs.readSliceSize (h : RunInv cfg d) (flags : UInt8) (id : TypeId) (cid : Option Nat) :
    Runs cfg n d (Decoder.onStream (Ice.readSliceSize flags))
      fun sz d' => d'.current = d.current ∧ (⟨flags, sz, id, cid⟩ : SliceHeader).Ok := by
  unfold Runs
  rw [Decoder.onStream, wp_zoom]
  unfold Ice.readSliceSize
  by_cases hf : hasFlag flags flagHasSliceSize
  · simp only [hf, if_true, wp_bind, wp_throwIf, wp_pure]
    refine wp_mono (readInt32_reads d.stream h.valid h.encaps) (fun sz s hs => ?_)
      fun e s hs => hs.1.errOk _
    refine ⟨fun _ => errOk_marshal _ _, fun hge => ?_⟩
    refine ⟨h.setStream hs.1, h.later_setStream hs.1, trivial, fun _ => ?_⟩
    by_cases ho : hasFlag flags flagHasOptionalMembers
    · simp only [ho, if_true] at hge
      exact ⟨by simp only; omega, fun _ => by simp only; omega⟩
    · simp only [ho] at hge
      exact ⟨by simp only; simp at hge; omega, fun h' => absurd h' ho⟩
  · simp only [hf, Bool.false_eq_true, if_false, wp_pure]
    exact ⟨h.setStream (.refl h.valid), h.later_setStream (.refl h.valid), trivial, fun hf' =>
      absurd hf' hf⟩

/-- `startSlice` leaves a header; if it reads one, it reads a byte at least. -/
theorem Runs.startSlice11 (h : RunInv cfg d) (hc : d.current = c :: cs)
    (hskip : c.skipFirstSlice → c.header.isSome) :
    Runs cfg n d (startSlice11 cfg.mapping) fun _ d' =>
      (∃ hd, d'.current = { c with skipFirstSlice := false, header := some hd } :: cs) ∧
        (c.skipFirstSlice = false → d.stream.pos < d'.stream.pos) := by
  have hok := h.stack c (by simp [hc])
  refine (currentInstance h hc).bind fun a d1 h1 _ hQ => ?_
  obtain ⟨rfl, rfl⟩ := hQ
  split
  · rename_i hs
    obtain ⟨hd, hhd⟩ := Option.isSome_iff_exists.mp (hskip hs)
    refine (modifyCurrent h1 hc { hok with }).mono
      fun _ d' _ _ he => ?_
    subst he
    refine ⟨⟨hd, ?_⟩, fun hf => by simp [hs] at hf⟩
    simp [← hhd]
  · rename_i hs
    refine (onStream h1 readByte_reads).bind fun flags d2 h2 _ hQ => ?_
    obtain ⟨s, rfl, hpos⟩ := hQ
    refine (readSliceTypeId h2 _ _).bind fun id d3 h3 hl3 hc3 => ?_
    refine (readSliceSize h3 flags id.1 id.2).bind fun sz d4 h₄ hl4 hQ4 => ?_
    have hc4 : d4.current = a :: cs := hQ4.1.trans (hc3.trans hc)
    have hok4 := h₄.stack a (by simp [hc4])
    refine (modifyCurrent h₄ hc4 { hok4 with header := ?_ }).mono
      fun _ d' _ hl' he => ?_
    · intro hd hhd
      cases hhd
      exact hQ4.2
    · subst he
      refine ⟨⟨⟨flags, sz, id.1, id.2⟩, by simp [← Bool.eq_false_iff.mpr hs]⟩, fun _ => ?_⟩
      have := hl3.stream.pos_le
      have := hl4.stream.pos_le
      simp only at *
      omega

/-- The outline of the data that a slice header replaces. -/
theorem Slicing.startSlice (h : RunInv cfg d) (hs : Slicing kind base d) :
    Runs cfg n d (startSlice11 cfg.mapping) fun _ d' => Slicing kind base d' := by
  obtain ⟨c, cs, hc, hcs, hk, hb, hh⟩ := hs
  refine (Runs.startSlice11 h hc fun _ => hh).mono fun _ d' _ _ hQ => ?_
  obtain ⟨⟨hd, hcur⟩, -⟩ := hQ
  exact ⟨_, cs, hcur, hcs, hk, hb, rfl⟩

theorem Runs.readIndirectionTable (hrec : RecRun cfg N rec) (h : RunInv cfg d)
    (hi : d.initialized) (hn : n ≤ d.valueIdIndex) (hN : d.stream.remaining < N) :
    Runs cfg n d (readIndirectionTable cfg.mapping rec)
      fun table d' => SameStack d d' ∧ ∀ i ∈ table, i ≠ 0 := by
  refine (readAndCheckSeqSize h 1).bind fun sz d1 h1 hl1 hQ => ?_
  obtain ⟨s, rfl, -⟩ := hQ
  -- each entry is an index, or an instance
  have hentry : ∀ d', RunInv cfg d' → Later cfg n d d' →
      Runs cfg n d' (do let index ← Decoder.onStream readSize; rec index none)
        fun j d'' => SameStack d' d'' ∧ j ≠ 0 := by
    intro d' h' hl'
    refine (onStream h' readSize_reads).bind fun i d2 h2 hl2 hQ => ?_
    obtain ⟨s', rfl, -⟩ := hQ
    have hrem' := (hl'.trans hl2).remaining_le
    exact hrec i none h2 ((hl'.trans hl2).initialized hi) (hn.trans (hl'.trans hl2).ids)
      (hrem'.trans_lt hN) (by simp)
  have hloop : ∀ k d', RunInv cfg d' → Later cfg n d d' → SameStack d d' →
      Runs cfg n d' (repeatM k do let index ← Decoder.onStream readSize; rec index none)
        fun table d'' => SameStack d d'' ∧ ∀ i ∈ table, i ≠ 0 := by
    intro k
    induction k with
    | zero => exact fun d' h' _ hs => .pure h' ⟨hs, by simp⟩
    | succ k ih =>
      intro d' h' hl' hs
      refine (hentry d' h' hl').bind fun j d2 h2 hl2 hQ => ?_
      refine (ih d2 h2 (hl'.trans hl2) (hs.trans hQ.1)).bind fun js d3 h3 _ hQ3 => ?_
      exact .pure h3 ⟨hQ3.1, by simpa using ⟨hQ.2, hQ3.2⟩⟩
  exact hloop sz _ h1 hl1 rfl

/-- The indirect references of a slice are all stored in instances that are being read, so they can
    be resolved one after the other. -/
theorem Runs.resolveIndirects (h : RunInv cfg d) {table : List Nat} (ht : ∀ i ∈ table, i ≠ 0)
    {l : List IndirectPatchEntry} (hl : ∀ e ∈ l, d.OpenSlot e.target) :
    Runs cfg d.valueIdIndex d (Ice.forEach l (resolveIndirect table))
      fun _ d' => SameStack d d' := by
  refine (forEach (I := fun l d' => (∀ e ∈ l, ∃ o k, e.target = .slot o k ∧ d'.Open o ∧
    o ≤ d.valueIdIndex) ∧ SameStack d d') h ⟨fun e he => ?_, .refl d⟩ ?_).mono
      fun _ _ _ _ hQ => hQ.2
  · obtain ⟨o, k, hek, ho⟩ := hl e he
    exact ⟨o, k, hek, ho, ho.2.1⟩
  · intro e l d' h' hI
    obtain ⟨o, k, hek, ho, hle⟩ := hI.1 e mem_cons_self
    unfold resolveIndirect
    split
    · exact .throw (errOk_marshal _ _)
    · rename_i i hi
      refine (addPatchEntry h' (ht i (mem_of_getElem? hi)) (hek ▸ ho)).mono
        fun _ d'' _ hl'' hs => ⟨fun e' he' => ?_, hI.2.trans hs.1⟩
      obtain ⟨o', k', hek', ho', hle'⟩ := hI.1 e' (mem_cons_of_mem _ he')
      exact ⟨o', k', hek', hl''.open_ ho' hle', hle'⟩

/-- A change of the current instance that keeps what `Slicing` says of it. -/
theorem Slicing.modifyCurrent (h : RunInv cfg d) (hs : Slicing kind base d)
    {f : InstanceData → InstanceData}
    (hf : ∀ c, c.Ok d.OpenSlot (d.Complete cfg) → (f c).Ok d.OpenSlot (d.Complete cfg))
    (hk : ∀ c, (f c).sliceType = c.sliceType ∧ (f c).slices = c.slices ∧
      (f c).indirectionTables = c.indirectionTables ∧ (f c).header = c.header) :
    Runs cfg n d (modifyCurrent f) fun _ d' => Slicing kind base d' := by
  obtain ⟨c, cs, hc, hcs, hkind, hb, hh⟩ := hs
  obtain ⟨hk1, hk2, hk3, hk4⟩ := hk c
  refine (Runs.modifyCurrent h hc (hf c (h.stack c (by simp [hc])))).mono fun _ d' _ _ he => ?_
  subst he
  refine ⟨f c, cs, rfl, hcs, hk1.trans hkind, ?_, hk4 ▸ hh⟩
  rwa [InstanceData.Balanced, hk1, hk2, hk3]

theorem Runs.endSliceTable (hrec : RecRun cfg N rec) (flags : UInt8) (h : RunInv cfg d)
    (hi : d.initialized) (hn : n ≤ d.valueIdIndex) (hN : d.stream.remaining < N)
    (hs : Slicing kind base d) :
    Runs cfg n d (endSliceTable cfg.mapping rec flags) fun _ d' => Slicing kind base d' := by
  refine (readIndirectionTable hrec h hi hn hN).bind fun table d1 h1 hl1 hQ => ?_
  obtain ⟨hst, htable⟩ := hQ
  have hs1 := hst.slicing hs
  obtain ⟨c, cs, hc, -⟩ := id hs1
  refine .throwIf_bind (fun _ => errOk_marshal _ _) fun _ => ?_
  refine (currentInstance h1 hc).bind fun a d' _ _ he => ?_
  obtain ⟨rfl, rfl⟩ := he
  refine .throwIf_bind (fun _ => errOk_marshal _ _) fun _ => ?_
  have hentries := (h1.stack a (by simp [hc])).entries
  refine ((resolveIndirects h1 htable hentries).weaken (hn.trans hl1.ids)).bind
    fun _ d2 h2 _ hQ2 => ?_
  refine (hQ2.2.slicing hs1).modifyCurrent h2 (fun c hok => ?_) fun c => ⟨rfl, rfl, rfl, rfl⟩
  exact { hok with entries := by simp }

theorem Slicing.header (hs : Slicing kind base d) :
    ∃ c cs hd, d.current = c :: cs ∧ c.header = some hd := by
  obtain ⟨c, cs, hc, -, -, -, hh⟩ := hs
  obtain ⟨hd, hhd⟩ := Option.isSome_iff_exists.mp hh
  exact ⟨c, cs, hd, hc, hhd⟩

theorem Slicing.onStream {α : Type} {x : StreamM α} {k : Nat} (hx : Reads k x) (h : RunInv cfg d)
    (hs : Slicing kind base d) : Runs cfg n d (onStream x) fun _ d' => Slicing kind base d' := by
  refine (Runs.onStream h hx).mono fun _ d' _ _ hQ => ?_
  obtain ⟨s, rfl, -⟩ := hQ
  exact hs.of_current (d := d) rfl

theorem Slicing.endSlice (hrec : RecRun cfg N rec) (h : RunInv cfg d) (hi : d.initialized)
    (hn : n ≤ d.valueIdIndex) (hN : d.stream.remaining < N) (hs : Slicing kind base d) :
    Runs cfg n d (endSlice11 cfg.mapping rec) fun _ d' => Slicing kind base d' := by
  obtain ⟨c, cs, hd, hc, hhd⟩ := hs.header
  refine (Runs.currentHeader h hc hhd).bind fun a d' _ _ he => ?_
  obtain ⟨rfl, rfl⟩ := he
  refine (Runs.runIf h (fun _ => hs.onStream skipOptionals_reads h) fun _ => hs).bind
    fun _ d1 h1 hl1 hs1 => ?_
  refine .runIf h1 (fun _ => ?_) fun _ => hs1
  exact .endSliceTable hrec _ h1 (hl1.initialized hi) (hn.trans hl1.ids)
    (hl1.remaining_le.trans_lt hN) hs1

theorem Slicing.readOptional (h : RunInv cfg d) (hs : Slicing kind base d) (tag : Nat)
    (format : OptionalFormat) :
    Runs cfg n d (readOptional11 tag format) fun _ d' => Slicing kind base d' := by
  obtain ⟨c, cs, hd, hc, hhd⟩ := hs.header
  refine .get_bind ?_
  simp only [hc]
  refine (Runs.currentHeader h hc hhd).bind fun a d' _ _ he => ?_
  obtain ⟨rfl, rfl⟩ := he
  split
  · exact hs.onStream (readOptImpl_reads _ _) h
  · exact .pure h hs

/-- `read` resolves the reference, or adds it to the indirect references of the slice. -/
theorem Runs.read11 {o : ObjId} (hrec : RecRun cfg N rec) (h : Reading cfg N n o d)
    (hi : d.initialized) (hh : ∀ c cs, d.current = c :: cs → c.header.isSome) (k : Nat)
    (expected : TypeId) :
    Runs cfg n d (read11 rec (.slot o k) expected) fun _ d' => SameStack d d' ∨
      ∃ c cs l, d.current = c :: cs ∧ d'.current = { c with indirectPatchList := l } :: cs := by
  refine (onStream h.inv readSize_reads).bind fun index d1 h1 hl1 hQ => ?_
  obtain ⟨s, rfl, -⟩ := hQ
  have hr := h.later h1 hl1
  split
  · exact (store_null h1 o k).mono fun _ _ _ _ hs => .inl hs.1
  · have hcall : Runs cfg n { d with stream := s }
      (do let _ ← rec index (some (.slot o k, expected)))
        fun _ d' => SameStack d d' := by
      refine (hrec index (some (.slot o k, expected)) h1 hi hr.le_ids hr.remaining_lt ?_).bind
        fun _ d2 h2 _ hQ => .pure h2 hQ.1
      rintro t e hte
      cases hte
      exact ⟨o, k, rfl, hr.holder, hr.holder_le⟩
    refine .get_bind ?_
    dsimp only
    split
    · exact hcall.mono fun _ _ _ _ hs => .inl hs
    · rename_i c cs hc
      obtain ⟨hd, hhd⟩ := Option.isSome_iff_exists.mp (hh c cs hc)
      refine (currentHeader h1 hc hhd).bind fun a d' _ _ he => ?_
      obtain ⟨rfl, rfl⟩ := he
      split
      · have hok := h1.stack c (by simp [hc])
        refine (modifyCurrent h1 hc { hok with entries := fun e he => ?_ }).mono
          fun _ d' _ _ he => ?_
        · rcases mem_append.mp he with he | he
          · exact hok.entries e he
          · rw [mem_singleton.mp he]
            exact ⟨o, k, rfl, hr.holder⟩
        · subst he
          exact .inr ⟨c, cs, _, hc, rfl⟩
      · exact hcall.mono fun _ _ _ _ hs => .inl hs

theorem Slicing.read {o : ObjId} (hrec : RecRun cfg N rec) (h : Reading cfg N n o d)
    (hi : d.initialized) (hs : Slicing kind base d) (k : Nat) (expected : TypeId) :
    Runs cfg n d (read11 rec (.slot o k) expected) fun _ d' => Slicing kind base d' := by
  obtain ⟨c, cs, hc, hcs, hkind, hb, hh⟩ := id hs
  refine (Runs.read11 hrec h hi (fun c' cs' hc' => ?_) k expected).mono fun _ d' _ _ hQ => ?_
  · rw [hc] at hc'
    cases hc'
    exact hh
  · rcases hQ with hst | ⟨c', cs', l, hc', hd'⟩
    · exact hst.slicing hs
    · rw [hc] at hc'
      cases hc'
      exact ⟨_, _, hd', hcs, hkind, hb, hh⟩

theorem Slicing.sliceRun (hrec : RecRun cfg N rec) (kind : SliceType) (base : List InstanceData) :
    SliceRun cfg N (ops11 cfg.mapping rec) (Slicing kind base) where
  stable hc _ hs := hs.of_current hc
  read h hi hs := hs.read hrec h hi _ _
  readOptional h hs := hs.readOptional h _ _
  startSlice h hs := hs.startSlice h
  endSlice h hi hs := hs.endSlice hrec h.inv hi h.le_ids h.remaining_lt

theorem Slicing.startInstance (h : RunInv cfg d) (hs : Slicing kind base d) :
    Runs cfg n d (startInstance11 kind) fun _ d' => Slicing kind base d' := by
  obtain ⟨c, cs, hc, -, hkind, -⟩ := id hs
  refine (Runs.currentInstance h hc).bind fun a d' _ _ he => ?_
  obtain ⟨rfl, rfl⟩ := he
  refine .throwIf_bind (fun hne => absurd hkind hne) fun _ => ?_
  refine hs.modifyCurrent h (fun c hok => ?_) fun c => ⟨rfl, rfl, rfl, rfl⟩
  exact { hok with }

/-- The body of a slice has at least the byte of the end marker, if there are optional members. -/
theorem Runs.skipSliceBody {hd : SliceHeader} (h : RunInv cfg d) (hok : hd.Ok) :
    Runs cfg n d (skipSliceBody hd) fun bytes d' => d'.current = d.current ∧
      (hasFlag hd.sliceFlags flagHasOptionalMembers → bytes ≠ []) := by
  refine .throwIf_bind (fun _ => errOk_marshal _ _) fun hf => ?_
  obtain ⟨h4, h5⟩ := hok (by simpa using hf)
  refine .throwIf_bind (fun hlt => absurd h4 (by omega)) fun _ => ?_
  refine .get_bind ((onStream h (skip_reads (by omega))).bind fun _ d1 h1 hl1 hQ => ?_)
  obtain ⟨s, rfl, hpos⟩ := hQ
  refine .pure h1 ⟨rfl, fun ho hnil => ?_⟩
  have := h5 ho
  have hv := hl1.stream.valid
  have hdata := congrArg length hl1.stream.data
  have hlen := congrArg length hnil
  simp only [InputStream.Valid, InputStream.upcoming, length_take, length_drop, length_nil] at *
  omega

/-- `skipSlice` keeps a value slice with its indirection table. While the table is read the slice
    has none yet. -/
theorem Slicing.skipSlice (hrec : RecRun cfg N rec) (h : RunInv cfg d) (hi : d.initialized)
    (hn : n ≤ d.valueIdIndex) (hN : d.stream.remaining < N) (hs : Slicing kind base d) :
    Runs cfg n d (skipSlice11 cfg.mapping rec) fun _ d' => Slicing kind base d' ∧
      d'.current.head?.map InstanceData.skipFirstSlice =
        d.current.head?.map InstanceData.skipFirstSlice := by
  obtain ⟨c, cs, hc, hcs, hkind, hb, hh⟩ := hs
  obtain ⟨hd, hhd⟩ := Option.isSome_iff_exists.mp hh
  have hok := h.stack c (by simp [hc])
  refine (Runs.currentInstance h hc).bind fun a d' _ _ he => ?_
  obtain ⟨rfl, rfl⟩ := he
  refine (Runs.currentHeader h hc hhd).bind fun hd' d'' _ _ he => ?_
  obtain ⟨rfl, rfl⟩ := he
  refine (Runs.skipSliceBody h (hok.header hd' hhd)).bind fun bytes d1 h1 hl1 hQ => ?_
  obtain ⟨hcur1, hbytes⟩ := hQ
  have hc1 := hcur1.trans hc
  have hok1 := h1.stack a (by simp [hc1])
  -- The preserved slice has no instances so far.
  refine (Runs.runIf (Q := fun _ d' => ∃ ss, d'.current = { a with slices := ss } :: cs ∧
      if a.sliceType = .valueSlice then ss.length = a.indirectionTables.length + 1
      else ss.length = 0) h1 (fun hv => ?_) fun hv => ?_).bind fun _ d2 h2 hl2 hQ => ?_
  · refine .throwIf_bind (fun htrap => absurd htrap.2 (hbytes htrap.1)) fun _ => ?_
    refine (Runs.modifyCurrent h1 hc1 { hok1 with instances := ?_ }).mono
      fun _ d' _ _ he => ?_
    · intro info hinfo o ho
      rcases mem_append.mp hinfo with hinfo | hinfo
      · exact hok1.instances info hinfo o ho
      · rw [mem_singleton.mp hinfo] at ho
        simp [preservedSlice] at ho
    · subst he
      refine ⟨_, rfl, ?_⟩
      rw [InstanceData.Balanced, if_pos hv] at hb
      rw [if_pos hv, length_append, hb]
      rfl
  · refine ⟨a.slices, hc1, ?_⟩
    rw [InstanceData.Balanced, if_neg hv] at hb
    rw [if_neg hv, hb]
  obtain ⟨ss, hc2, hss⟩ := hQ
  have hl12 := hl1.trans hl2
  have hi2 := hl12.initialized hi
  have htable : Runs cfg n d2 (skippedTable cfg.mapping rec hd'.sliceFlags)
      fun table d' => SameStack d2 d' ∧ ∀ i ∈ table, i ≠ 0 := by
    unfold skippedTable
    split
    · exact .readIndirectionTable hrec h2 hi2 (hn.trans hl12.ids)
        (hl12.remaining_le.trans_lt hN)
    · exact .pure h2 ⟨.refl d2, by simp⟩
  refine htable.bind fun table d3 h3 _ hQ => ?_
  obtain ⟨hst, hne⟩ := hQ
  obtain ⟨c3, cs3, hc3, ho, hcs3⟩ := hst.cons hc2
  obtain ⟨hk3, hh3, ht3, -, hs3, hf3⟩ := outline_eq ho
  have hok3 := h3.stack c3 (by simp [hc3])
  refine (Runs.modifyCurrent h3 hc3 { hok3 with tables := ?_ }).mono
    fun _ d' _ _ he => ?_
  · intro t ht i hi
    rcases mem_append.mp ht with ht | ht
    · exact hok3.tables t ht i hi
    · rw [mem_singleton.mp ht] at hi
      exact hne i hi
  · subst he
    refine ⟨⟨_, cs3, rfl, hcs3.trans hcs, hk3.trans hkind, ?_, hh3 ▸ hh⟩, ?_⟩
    · simp only [InstanceData.Balanced, hk3, hs3, ht3, length_append, length_singleton]
      exact hss
    · simp [hc, hf3]

end Slices

end Ice
