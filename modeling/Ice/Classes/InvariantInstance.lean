import Ice.Classes.Invariant11

/-!
# The invariant through `readInstance` of the 1.1 decoder

The preserved slices of an instance, the loop that slices off unknown types, and the recursion of
`readInstance` itself, by induction on the bytes that are left.
-/

namespace Ice

open Decoder List Runs InstanceData

section SlicedData

variable {cfg : DecoderConfig} {n N : Nat} {o : ObjId} {d d' : Decoder} {c : InstanceData}
  {cs base : List InstanceData} {kind : SliceType}

/-- Swift copies the preserved slices of the current instance into the value. -/
theorem RunInv.copySlices (h : RunInv cfg d) (ho : d.Open o) (hc : d.current = c :: cs) :
    RunInv cfg (d.modifyObj o fun obj => { obj with slicedData := c.slices }) := by
  refine h.addRefs ho fun obj _ r hr => ?_
  rcases mem_append.mp hr with hr | hr
  · exact .inl (mem_append_left _ hr)
  · obtain ⟨info, hinfo, hmem⟩ := mem_slicedRefs.mp hr
    exact .inr ((h.stack c (by simp [hc])).instances info hinfo r hmem)

theorem Runs.clearInstances (h : RunInv cfg d) (hc : d.current = c :: cs) (i : Nat) :
    Runs cfg n d (Ice.modifyCurrent fun c => { c with
      slices := c.slices.modify i fun info => { info with instances := [] } })
      fun _ d' => SameStack d d' := by
  have hok := h.stack c (by simp [hc])
  refine (modifyCurrent h hc { hok with instances := fun info hi r hr => ?_ }).mono
    fun _ d' _ _ he => ?_
  · rcases mem_modify hi with hi | ⟨info0, -, rfl⟩
    · exact hok.instances info hi r hr
    · cases hr
  · subst he
    simp only [SameStack, hc, map_cons, outline_modify c i fun _ => []]

section

variable (h : Reading cfg N n o d)
include h

theorem Runs.patchSlice (hc : d.current = c :: cs) {i : Nat}
    (hi : i < c.slices.length) {table : List Nat} (ht : ∀ j ∈ table, j ≠ 0) :
    Runs cfg n d (patchSlice cfg.mapping o i table) fun _ d' => SameStack d d' := by
  refine (runIf h.inv (fun _ => .clearInstances h.inv hc i) fun _ => .refl d).bind
    fun _ d1 h1 hl1 hst1 => ?_
  refine (forEach (I := fun l d' => (∀ e ∈ l, e.1 ≠ 0) ∧ Reading cfg N n o d' ∧
    SameStack d d') h1 ⟨fun e he => ht e.1 (fst_mem_of_mem_zipIdx he), h.later h1 hl1, hst1⟩
      ?_).mono fun _ _ _ _ hQ => hQ.2.2
  intro e l d' h' hI
  obtain ⟨hne, hr, hst⟩ := hI
  have hnow : ∀ t, d'.StoreNow cfg t →
      Runs cfg n d' (Ice.addPatchEntry e.1 t objectTypeId) fun _ d'' => (∀ e ∈ l, e.1 ≠ 0) ∧
        Reading cfg N n o d'' ∧ SameStack d d'' := by
    intro t hnow
    refine (addPatchEntry h' (hne e mem_cons_self) hnow).mono fun _ d'' h'' hl'' hst'' => ?_
    exact ⟨fun e' he' => hne e' (mem_cons_of_mem _ he'), hr.later h'' hl'', hst.trans hst''.1⟩
  cases hm : cfg.mapping with
  | cpp => exact hnow _ ⟨hr.holder, hm⟩
  | swift =>
    obtain ⟨c', cs', hc', ho', -⟩ := hst.cons hc
    obtain ⟨-, -, -, -, hlen, -⟩ := outline_eq ho'
    exact hnow _ ⟨hm, c', cs', hc', hlen ▸ hi⟩

/-- The tables of the preserved slices, one after the other. -/
theorem Runs.patchTables (hc : d.current = c :: cs)
    (hb : c.slices.length = c.indirectionTables.length) :
    Runs cfg n d (Ice.forEach c.indirectionTables.zipIdx fun e =>
      Ice.patchSlice cfg.mapping o e.2 e.1)
      fun _ d' => Reading cfg N n o d' ∧ SameStack d d' := by
  have htables := (h.inv.stack c (by simp [hc])).tables
  refine (forEach (I := fun l d' => (∀ e ∈ l, e ∈ c.indirectionTables.zipIdx) ∧
    Reading cfg N n o d' ∧ SameStack d d') h.inv ⟨fun e he => he, h, .refl d⟩ ?_).mono
      fun _ _ _ _ hQ => hQ.2
  intro e l d' h' hI
  obtain ⟨hmem, hr, hst⟩ := hI
  have he := hmem e mem_cons_self
  obtain ⟨c', cs', hc', ho', -⟩ := hst.cons hc
  obtain ⟨-, -, -, -, hlen, -⟩ := outline_eq ho'
  have hlt : e.2 < c'.slices.length := by
    rw [hlen, hb]
    simpa using snd_lt_of_mem_zipIdx he
  refine (patchSlice hr hc' hlt (htables e.1 (fst_mem_of_mem_zipIdx he))).mono
    fun _ d'' h'' hl'' hst'' => ?_
  exact ⟨fun e' he' => hmem e' (mem_cons_of_mem _ he'), hr.later h'' hl'', hst.trans hst''⟩

theorem Runs.patchSlices (hc : d.current = c :: cs)
    (hb : c.slices.length = c.indirectionTables.length) :
    Runs cfg n d (patchSlices cfg.mapping o c) fun _ d' => SameStack d d' := by
  have htables := patchTables h hc hb
  cases hm : cfg.mapping with
  | cpp =>
    -- The slices get locations without references, which are then patched.
    have hinv := h.inv.keepRefs o (f := fun obj => { obj with slicedData := sizedSlices c })
      fun obj _ r hr => (mem_append.mp hr).elim (mem_append_left _ ·)
        (absurd · (not_mem_slicedRefs_sizedSlices c r))
    have hl := Later.changeObj (n := n) h.inv o
      (f := fun obj => { obj with slicedData := sizedSlices c }) fun hs =>
        by rw [hm] at hs; cases hs
    refine .modify_bind hl ?_
    rw [← hm]
    exact (patchTables (h.later hinv hl) hc hb).mono fun _ _ _ _ hQ => hQ.2
  | swift =>
    rw [hm] at htables
    refine htables.bind fun _ d1 h1 _ hQ => ?_
    obtain ⟨hr, hst⟩ := hQ
    obtain ⟨c', cs', hc', -⟩ := hst.cons hc
    refine (currentInstance h1 hc').bind fun a d' _ _ he => ?_
    obtain ⟨rfl, rfl⟩ := he
    refine .modify (h1.copySlices hr.holder hc') (.changeObj h1 o fun _ hf => ?_) hst
    exact absurd hf hr.holder.2.2

theorem Runs.readSlicedData (hs : Slicing kind base d) :
    Runs cfg n d (readSlicedData cfg.mapping o) fun _ d' => SameStack d d' := by
  obtain ⟨c, cs, hc, -, -, hb, -⟩ := hs
  refine (currentInstance h.inv hc).bind fun a d' _ _ he => ?_
  obtain ⟨rfl, rfl⟩ := he
  split
  · exact .pure h.inv (.refl d')
  · rename_i hne
    have hlen : a.slices.length = a.indirectionTables.length := by
      unfold InstanceData.Balanced at hb
      split at hb
      · exact hb
      · exact absurd (length_eq_zero_iff.mp hb) hne
    exact .throwIf_bind (fun hl => absurd hlen hl) fun _ => .patchSlices h hc hlen

theorem Slicing.endInstance (hs : Slicing kind base d) : Runs cfg n d (endInstance11 cfg.mapping o)
      fun _ d' => d'.current.map outline = base.map outline := by
  refine (Runs.readSlicedData h hs).bind fun _ d1 h1 _ hst => ?_
  obtain ⟨c, cs, hc, hcs, -⟩ := hst.slicing hs
  refine .get_bind ?_
  simp only [hc]
  refine .modify { h1 with stack := fun c' hc' => h1.stack c' (by simp [hc, hc']) }
    (.of_eq h1 rfl) hcs

end

end SlicedData

section Instances

variable {cfg : DecoderConfig} {n N : Nat} {o : ObjId} {d d' : Decoder} {c : InstanceData}
  {cs base : List InstanceData} {kind : SliceType} {rec : ReadInstance}

theorem RecRun.whileSkipping (hrec : RecRun cfg N rec) : RecRun cfg N (whileSkipping rec) := by
  intro n d i cb h hi hn hN hcb
  have h1 : RunInv cfg { d with skipping := d.skipping + 1 } := { h with }
  refine .modify_bind (.of_eq h rfl) ?_
  refine (hrec i cb h1 hi hn hN hcb).bind fun j d2 h2 _ hQ => ?_
  have h3 : RunInv cfg { d2 with skipping := d2.skipping - 1 } := { h2 with }
  exact .modify_bind (.of_eq h2 rfl) (.pure h3 hQ)

theorem Slicing.nextSlice (h : RunInv cfg d) (hs : Slicing kind base d)
    (hf : d.current.head?.map InstanceData.skipFirstSlice = some false) :
    Runs cfg n d (startSlice11 cfg.mapping) fun _ d' => Slicing kind base d' ∧
      d'.current.head?.map InstanceData.skipFirstSlice = some false ∧
      d'.stream.remaining < d.stream.remaining := by
  obtain ⟨c, cs, hc, hcs, hkind, hb, hh⟩ := hs
  have hskip : c.skipFirstSlice = false := by simpa [hc] using hf
  refine (Runs.startSlice11 h hc fun _ => hh).mono fun _ d' _ hl hQ => ?_
  obtain ⟨⟨hd, hcur⟩, hpos⟩ := hQ
  refine ⟨⟨_, cs, hcur, hcs, hkind, hb, rfl⟩, by simp [hcur], ?_⟩
  exact InputStream.remaining_lt_of_pos_lt hl.stream (hpos hskip)

/-- The loop that slices off unknown types ends before its bound. -/
theorem Slicing.sliceLoop (hrec : RecRun cfg N rec) (mostDerivedId : TypeId) {k : Nat}
    (h : RunInv cfg d) (hi : d.initialized) (hn : n ≤ d.valueIdIndex)
    (hN : d.stream.remaining < N) (hk : d.stream.remaining < k) (hs : Slicing kind base d)
    (hf : d.current.head?.map InstanceData.skipFirstSlice = some false) :
    Runs cfg n d (sliceLoop cfg rec mostDerivedId k) fun _ d' => Slicing kind base d' := by
  induction k generalizing d with
  | zero => omega
  | succ k ih =>
    obtain ⟨c, cs, hd, hc, hhd⟩ := hs.header
    refine (Runs.currentHeader h hc hhd).bind fun a d' _ _ he => ?_
    obtain ⟨rfl, rfl⟩ := he
    split
    · exact .pure h hs
    · refine (hs.skipSlice hrec.whileSkipping h hi hn hN).bind fun _ d1 h1 hl1 hQ => ?_
      obtain ⟨hs1, hf1⟩ := hQ
      obtain ⟨c1, cs1, hd1, hc1, hhd1⟩ := hs1.header
      refine (Runs.currentHeader h1 hc1 hhd1).bind fun b d'' _ _ he => ?_
      obtain ⟨rfl, rfl⟩ := he
      split
      · exact .pure h1 hs1
      · refine (hs1.nextSlice h1 (hf1.trans hf)).bind fun _ d2 h2 hl2 hQ => ?_
        obtain ⟨hs2, hf2, hlt⟩ := hQ
        have hle := hl1.remaining_le
        exact ih h2 (hl2.initialized (hl1.initialized hi)) (hn.trans (hl1.ids.trans hl2.ids))
          (by omega) (by omega) hs2 hf2

theorem RunInv.push (h : RunInv cfg d) (st : SliceType) :
    RunInv cfg { d with current := { sliceType := st, skipFirstSlice := false } :: d.current } := by
  refine { h with stack := fun c hc => ?_ }
  rcases mem_cons.mp hc with rfl | hc
  · exact ⟨by simp, by simp, by simp, by simp⟩
  · exact h.stack c hc

theorem RunInv.newId (h : RunInv cfg d) :
    RunInv cfg { d with valueIdIndex := d.valueIdIndex + 1 } := by
  have hopen : ∀ x, d.Open x → ({ d with valueIdIndex := d.valueIdIndex + 1 } : Decoder).Open x :=
    fun x hx => ⟨hx.1, Nat.le_succ_of_le hx.2.1, hx.2.2⟩
  exact { h with
    frame := hopen _ h.frame
    allocated := fun x hx => Nat.le_succ_of_le (h.allocated x hx)
    finished := fun x hx => Nat.le_succ_of_le (h.finished x hx)
    stack := fun c hc => (h.stack c hc).mono (fun t ⟨x, k, ht, hx⟩ => ⟨x, k, ht, hopen x hx⟩)
      fun _ hq => hq }

/-- A new object at an address that is not in use by an object that has been read. -/
theorem RunInv.newObj (h : RunInv cfg d) (hle : o ≤ d.valueIdIndex) (hf : o ∉ d.finished)
    (obj : Obj) (hobj : obj.refs = []) :
    RunInv cfg (d.setObj o obj) ∧ Later cfg n d (d.setObj o obj) ∧ (d.setObj o obj).Open o := by
  have hsome : ∀ x, (d.heap x).isSome → ((d.setObj o obj).heap x).isSome := by
    intro x hx
    by_cases hxo : x = o
    · simp [setObj, hxo]
    · simpa [setObj, hxo] using hx
  have hopen : ∀ x, d.Open x → (d.setObj o obj).Open x := fun x hx => ⟨hsome x hx.1, hx.2⟩
  have hold : ∀ a b, Refers (d.setObj o obj).heap a b → Refers d.heap a b := by
    rintro a b ⟨obj', hobj', hb⟩
    by_cases hao : a = o
    · have heq : obj' = obj := by simpa [setObj, hao] using hobj'.symm
      rw [heq, hobj] at hb
      cases hb
    · exact ⟨obj', by simpa [setObj, hao] using hobj', hb⟩
  refine ⟨{ h with
    frame := hopen _ h.frame
    registered := fun i x hx => ⟨hsome x (h.registered i x hx).1, (h.registered i x hx).2⟩
    allocated := fun x hx => ?_
    stack := fun c hc => (h.stack c hc).mono
      (fun t ht => ht.imp fun x => .imp fun k => .imp_right (hopen x)) fun _ hq => hq
    refs := fun a b hab => h.refs a b (hold a b hab)
    acyclic := fun ha hs => (h.acyclic ha hs).mono hold }, { Later.refl h with
    heap := hsome
    slicedData := fun _ x hx => ?_ }, ⟨by simp [setObj], hle, hf⟩⟩
  · by_cases hxo : x = o
    · exact hxo ▸ hle
    · exact h.allocated x (by simpa [setObj, hxo] using hx)
  · have hxo : x ≠ o := by
      rintro rfl
      exact hf hx
    simp [setObj, hxo]

/-- The indirect references on the stack were there before the address `o` was. -/
theorem RunInv.notAwaited (h : RunInv cfg d) (ho : d.valueIdIndex < o)
    (hcur : d'.current.map outline = d.current.map outline) : d'.NotAwaited o := by
  intro c hc e he k ht
  have hmem : c.outline ∈ d.current.map outline :=
    hcur ▸ mem_map_of_mem hc
  obtain ⟨c0, hc0, heq⟩ := mem_map.mp hmem
  obtain ⟨-, -, -, hlist, -⟩ := outline_eq heq
  obtain ⟨o', k', ht', ho'⟩ := (h.stack c0 hc0).entries e (hlist ▸ he)
  rw [ht] at ht'
  cases ht'
  exact absurd ho'.2.1 (Nat.not_le_of_lt ho)

/-- The instance that an inline activation creates has a new address; all that is read for it
    leaves the stack as it was. -/
theorem Runs.readInline (hrec : RecRun cfg N rec) (h : RunInv cfg d) (hi : d.initialized)
    (hn : n ≤ d.valueIdIndex) (hN : d.stream.remaining < N + 1) :
    Runs cfg n d (readInline cfg rec) fun o d' => SameStack d d' ∧ (d'.heap o).isSome ∧
      d'.Complete cfg o ∧ o ≠ 0 := by
  have h1 := h.push .valueSlice
  refine .modify_bind (.of_eq h rfl) ?_
  have h2 := h1.newId
  refine .modify_bind { Later.refl h1 with ids := Nat.le_succ _ } (.get_bind ?_)
  -- From here on the new address is among those that the operations must not finish.
  generalize ho : d.valueIdIndex + 1 = o at h2 ⊢
  have hno : n < o := by omega
  have hunfinished : o ∉ d.finished := fun hf =>
    Nat.not_succ_le_self _ (ho ▸ h.finished o hf)
  refine ((startSlice11 (n := o) h2 rfl (by simp)).weaken hno.le).bind
    fun _ d3 h3 _ hQ => ?_
  obtain ⟨hl3, ⟨hd, hc3⟩, hpos⟩ := hQ
  have hlt := InputStream.remaining_lt_of_pos_lt hl3.stream (hpos rfl)
  simp only at hlt
  have hs3 : Slicing .valueSlice d.current d3 := ⟨_, _, hc3, rfl, rfl, rfl, rfl⟩
  refine (currentHeader h3 hc3 rfl).bind fun a d' _ _ he => ?_
  obtain ⟨rfl, rfl⟩ := he
  have hids3 : o ≤ d'.valueIdIndex := by
    have := hl3.ids
    simp only at this
    omega
  have hi3 := hl3.initialized hi
  refine .get_bind (((hs3.sliceLoop (n := o) hrec a.typeId h3 hi3 hids3 (by omega)
    (Nat.lt_succ_self _) (by simp [hc3])).weaken hno.le).bind fun found d4 h4 _ hQ => ?_)
  obtain ⟨hl4, hs4⟩ := hQ
  have hle4 : o ≤ d4.valueIdIndex := hids3.trans hl4.ids
  have hun4 : o ∉ d4.finished := fun hf =>
    hunfinished (hl3.unfinished o le_rfl (hl4.unfinished o le_rfl hf))
  generalize hobj : ({ cls := found.1, unknownTypeId := found.2 } : Obj) = obj
  obtain ⟨h5, hl5, hopen5⟩ := h4.newObj (n := n) hle4 hun4 obj (by rw [← hobj]; rfl)
  refine .modify_bind hl5 (.modify_bind (.of_eq h5 rfl) (.get_bind ?_))
  generalize (d4.setObj o obj).classGraphDepth + 1 = depth
  have h6 : RunInv cfg { d4.setObj o obj with classGraphDepth := depth } := { h5 with }
  refine .throwIf_bind (fun _ => errOk_marshal _ _) fun _ => ?_
  have hread : ∀ m, RunInv cfg
        { d4.setObj o obj with classGraphDepth := depth, unmarshaledMap := m } →
      Runs cfg o { d4.setObj o obj with classGraphDepth := depth, unmarshaledMap := m }
        (Ice.iceRead cfg.mapping (ops11 cfg.mapping rec) .valueSlice o found.1)
        fun _ d' => d'.NotAwaited o ∧ SameStack d d' := by
    intro m hm
    have hr : Reading cfg N o o
        { d4.setObj o obj with classGraphDepth := depth, unmarshaledMap := m } :=
      ⟨hm, hopen5, le_rfl, hle4, by have := hl4.remaining_le; simp only [setObj]; omega⟩
    refine (iceRead (Slicing.sliceRun hrec .valueSlice d.current) found.1 hr
      (hl4.initialized hi3) (hs4.of_current (d := d4) rfl) (fun h' hs' => hs'.startInstance h')
      fun hr' hs' => hs'.endInstance hr').mono fun _ d' _ _ hQ => ?_
    exact ⟨h.notAwaited (by omega) hQ, hQ⟩
  refine (unmarshal h6 hopen5 hno hread).bind fun _ d7 h7 _ hQ => ?_
  obtain ⟨⟨d', hst, hst'⟩, hsome, hcomplete⟩ := hQ
  have h8 : RunInv cfg { d7 with classGraphDepth := d7.classGraphDepth - 1 } := { h7 with }
  refine .modify_bind (.of_eq h7 rfl) (.pure h8 ?_)
  exact ⟨hst.trans hst', hsome, hcomplete, Nat.ne_of_gt (Nat.zero_lt_of_lt hno)⟩

/-- `readInstance` with more fuel than there are bytes left. -/
theorem readInstance11_run (fuel : Nat) : RecRun cfg fuel (readInstance11 cfg fuel) := by
  induction fuel with
  | zero => exact fun _ _ _ _ _ hN => absurd hN (Nat.not_lt_zero _)
  | succ fuel ih =>
    intro n d i cb h hi hn hN hcb
    simp only [readInstance11]
    split
    · exact .throw (errOk_marshal _ _)
    · rename_i hi0
      split
      · -- A reference to an instance that was, or will be, in the stream.
        have hpatch : Runs cfg n d (patchIfAny cb fun t expected => addPatchEntry i t expected)
            fun _ d' => SameStack d d' := by
          unfold patchIfAny
          split
          · rename_i t expected
            obtain ⟨o, k, rfl, ho, -⟩ := hcb t expected rfl
            exact (Runs.addPatchEntry (t := .slot o k) h hi0 ho).mono fun _ _ _ _ hQ => hQ.1
          · exact .pure h (.refl d)
        exact hpatch.bind fun _ d' h' _ hst => .pure h' ⟨hst, hi0⟩
      · have h1 : RunInv cfg (enterInline d) := { h with }
        refine .modify_bind (.of_eq h rfl) ?_
        refine (Runs.readInline ih h1 hi hn hN).bind fun o d2 h2 hl2 hQ => ?_
        obtain ⟨hst, hsome, hcomplete, ho0⟩ := hQ
        refine .get_bind (.throwIf_bind (fun _ => errOk_marshal _ _) fun _ => ?_)
        have hpatch :
            Runs cfg n d2 (patchIfAny cb fun t expected => patch t expected (some o) false)
              fun _ d' => SameStack d2 d' := by
          unfold patchIfAny
          split
          · rename_i t expected
            obtain ⟨x, k, rfl, hx, hle⟩ := hcb t expected rfl
            exact (Runs.patch (t := .slot x k) h2 hsome hcomplete
              (.inl ⟨rfl, hl2.open_ hx hle⟩)).mono fun _ _ _ _ hQ => hQ.1
          · exact .pure h2 (.refl d2)
        refine hpatch.bind fun _ d3 h3 _ hst3 => ?_
        have h4 : RunInv cfg { d3 with active := d3.active - 1 } := { h3 with }
        exact .modify_bind (.of_eq h3 rfl) (.pure h4 ⟨hst.trans hst3, ho0⟩)

/-- Reading a reference outside any instance. -/
theorem readRun_top (hrec : RecRun cfg N rec) :
    ReadRun cfg N (ops11 cfg.mapping rec) fun d => d.current = [] where
  stable hc _ h := hc.trans h
  read {n o k expected d} h hi hc := by
    refine (Runs.read11 hrec h hi (fun c cs hc' => ?_) k expected).mono fun _ d' _ _ hQ => ?_
    · rw [hc] at hc'
      cases hc'
    · rcases hQ with hst | ⟨c, cs, l, hc', -⟩
      · simpa [SameStack, hc] using hst
      · rw [hc] at hc'
        cases hc'

/-- The bytes of a parameter list or an exception are read from outside any instance. -/
theorem RunInv.reading_frame (h : RunInv cfg d) (hN : d.stream.remaining < N) :
    Reading cfg N 0 frameId d := ⟨h, h.frame, le_rfl, Nat.zero_le _, hN⟩

theorem Slicing.exceptionLoop (hrec : RecRun cfg N rec) {k : Nat} (h : RunInv cfg d)
    (hi : d.initialized) (hN : d.stream.remaining < N) (hk : d.stream.remaining < k)
    (hs : Slicing .exceptionSlice [] d)
    (hf : d.current.head?.map InstanceData.skipFirstSlice = some false) :
    Runs cfg 0 d (exceptionLoop11 cfg rec k) fun _ _ => True := by
  induction k generalizing d with
  | zero => omega
  | succ k ih =>
    obtain ⟨c, cs, hd, hc, hhd⟩ := hs.header
    refine (Runs.currentHeader h hc hhd).bind fun a d' _ _ he => ?_
    obtain ⟨rfl, rfl⟩ := he
    have h0 : RunInv cfg { d' with exceptionIds := d'.exceptionIds ++ [a.typeId] } := { h with }
    have hs0 :
        Slicing .exceptionSlice [] { d' with exceptionIds := d'.exceptionIds ++ [a.typeId] } :=
      hs.of_current (d := d') rfl
    refine .modify_bind (.of_eq h rfl) ?_
    split
    · refine (Runs.iceRead (Slicing.sliceRun hrec .exceptionSlice []) _ (h0.reading_frame hN) hi
        hs0 (fun h' hs' => hs'.startInstance h') fun hr' hs' => hs'.endInstance hr').bind
        fun _ d1 h1 _ _ => ?_
      exact .throw ⟨by simp, by simp, fun _ => h1⟩
    · rename_i cls hcls hm
      exact .throw ⟨by simp, fun _ _ => ⟨hm, .inr (.inl ⟨a.typeId, by simp, cls, hcls⟩)⟩, by simp⟩
    · refine (hs0.skipSlice hrec h0 hi (Nat.zero_le _) hN).bind fun _ d1 h1 hl1 hQ => ?_
      obtain ⟨hs1, hf1⟩ := hQ
      obtain ⟨c1, cs1, hd1, hc1, hhd1⟩ := hs1.header
      refine (Runs.currentHeader h1 hc1 hhd1).bind fun b d'' _ _ he' => ?_
      obtain ⟨rfl, rfl⟩ := he'
      refine .throwIf_bind (fun _ => errOk_marshal _ _) fun _ => ?_
      refine (hs1.nextSlice h1 (hf1.trans hf)).bind fun _ d2 h2 hl2 hQ => ?_
      obtain ⟨hs2, hf2, hlt⟩ := hQ
      have hle := hl1.remaining_le
      dsimp only at hle
      exact ih h2 (hl2.initialized (hl1.initialized hi)) (by omega) (by omega) hs2 hf2

theorem Runs.throwException11 (hrec : RecRun cfg N rec) (h : RunInv cfg d) (hi : d.initialized)
    (hN : d.stream.remaining < N) (hc : d.current = []) :
    Runs cfg 0 d (throwException11 cfg rec) fun _ _ => True := by
  refine .get_bind (.throwIf_bind (fun hne => absurd hc hne) fun _ => ?_)
  have h1 := h.push .exceptionSlice
  refine .modify_bind (.of_eq h rfl) ?_
  refine (startSlice11 h1 rfl (by simp)).bind fun _ d2 h2 hl2 hQ => ?_
  obtain ⟨⟨hd, hc2⟩, -⟩ := hQ
  have hs2 : Slicing .exceptionSlice [] d2 := ⟨_, _, hc2, by rw [hc], rfl, rfl, rfl⟩
  have hle := hl2.remaining_le
  exact .get_bind (hs2.exceptionLoop hrec h2 (hl2.initialized hi) (hle.trans_lt hN)
    (Nat.lt_succ_self _) (by simp [hc2]))

theorem Runs.decode11 {fuel : Nat} (payload : Payload) (h : RunInv cfg d) (hc : d.current = [])
    (hN : d.stream.remaining < fuel) :
    Runs cfg 0 d (decode11 cfg fuel payload) fun _ _ => True := by
  have hrec : RecRun cfg fuel (readInstance11 cfg fuel) := readInstance11_run fuel
  cases payload with
  | params types =>
    refine (mapEach (I := fun d' => Reading cfg fuel 0 frameId d' ∧ d'.current = []) h
      ⟨h.reading_frame hN, hc⟩ fun t d' _ hI => ?_).bind fun _ d' h' _ _ => .pure h' trivial
    exact (readField (readRun_top hrec) t hI.1 hI.2).mono fun _ d'' h'' hl'' hc'' =>
      ⟨hI.1.later h'' hl'', hc''⟩
  | userException =>
    obtain ⟨h1, hl1⟩ := h.initialize (n := 0)
    exact .modify_bind hl1 (.throwException11 hrec h1 rfl hN hc)

end Instances

end Ice
