import Ice.Classes.Invariant

/-!
# The invariant through generated code

The reading code of a generated class calls the operations of a decoder. `ReadRun` and `SliceRun`
state what it relies on, for a property `P` of the decoder's stack; `Runs.iceRead` derives that
reading a whole instance keeps the invariant, whatever its class.
-/

namespace Ice

open Decoder

/-- The state in which members of object `o` are read: `o` is being read, it is one of the objects
    up to `n`, and fewer than `N` bytes are left. -/
structure Reading (cfg : DecoderConfig) (N n : Nat) (o : ObjId) (d : Decoder) : Prop where
  inv : RunInv cfg d
  holder : d.Open o
  holder_le : o ≤ n
  le_ids : n ≤ d.valueIdIndex
  remaining_lt : d.stream.remaining < N

/-- The operation that reads a reference, in states that satisfy `P`. -/
structure ReadRun (cfg : DecoderConfig) (N : Nat) (ops : DecoderOps) (P : Decoder → Prop) :
    Prop where
  stable : ∀ {d d' : Decoder}, d'.current = d.current → d'.sliceType = d.sliceType → P d → P d'
  read : ∀ {n o k expected d}, Reading cfg N n o d → d.initialized → P d →
    Runs cfg n d (ops.read (.slot o k) expected) fun _ d' => P d'

/-- The operations that read a slice of an instance. -/
structure SliceRun (cfg : DecoderConfig) (N : Nat) (ops : DecoderOps) (P : Decoder → Prop) : Prop
    extends ReadRun cfg N ops P where
  readOptional : ∀ {n d tag format}, RunInv cfg d → P d →
    Runs cfg n d (ops.readOptional tag format) fun _ d' => P d'
  startSlice : ∀ {n d}, RunInv cfg d → P d → Runs cfg n d ops.startSlice fun _ d' => P d'
  endSlice : ∀ {n o d}, Reading cfg N n o d → d.initialized → P d →
    Runs cfg n d ops.endSlice fun _ d' => P d'

section Generated

variable {cfg : DecoderConfig} {N n : Nat} {o : ObjId} {d d' : Decoder} {ops : DecoderOps}
  {P : Decoder → Prop}

theorem Reading.later (h : Reading cfg N n o d) (hinv : RunInv cfg d') (hl : Later cfg n d d') :
    Reading cfg N n o d' where
  inv := hinv
  holder := hl.open_ h.holder h.holder_le
  holder_le := h.holder_le
  le_ids := h.le_ids.trans hl.ids
  remaining_lt := hl.remaining_le.trans_lt h.remaining_lt

theorem readEnum_reads (maxValue : Nat) : Reads 0 (readEnum maxValue) := by
  refine Reads.bind (k := 0) (j := 0) currentEncaps_reads fun e => ?_
  refine Reads.bind (k := 0) (j := 0) ?_ fun v =>
    Reads.bind (k := 0) (j := 0) (.throwIf _) fun _ => .pure _
  refine .ite (fun _ => ?_) fun _ => readSize_reads.mono (by decide)
  exact ((readBytes_reads _).bind fun _ => .pure _).mono (Nat.zero_le _)

theorem skipOptionalSize_reads (t : OptionalType) : Reads 0 (skipOptionalSize t) := by
  cases t with
  | vsize t => exact skipSize_reads.mono (by decide)
  | fsize t => exact (skip_reads (by decide)).mono (by decide)
  | fixed log2 => exact .pure _
  | enum maxValue => exact .pure _
  | direct t => exact .pure _

/-- A stream operation in the middle of generated code. -/
theorem ReadRun.onStream {α : Type} {x : StreamM α} (hops : ReadRun cfg N ops P) (hx : Reads 0 x)
    (h : RunInv cfg d) (hP : P d) : Runs cfg n d (onStream x) fun _ d' => P d' := by
  refine (Runs.onStream h hx).mono fun _ d' _ _ hQ => ?_
  obtain ⟨s, rfl, -⟩ := hQ
  exact hops.stable (d := d) rfl rfl hP

theorem RunInv.pushSlot (h : RunInv cfg d) {obj : Obj} (hobj : d.heap o = some obj) :
    RunInv cfg (d.setObj o { obj with slots := obj.slots ++ [none] }) ∧
      Later cfg n d (d.setObj o { obj with slots := obj.slots ++ [none] }) := by
  have heq : d.setObj o { obj with slots := obj.slots ++ [none] } =
      d.modifyObj o (fun obj => { obj with slots := obj.slots ++ [none] }) := by
    simp [setObj, modifyObj, hobj]
  rw [heq]
  refine ⟨h.keepRefs o fun obj0 _ r hr => ?_, .changeObj h o fun _ _ _ => rfl⟩
  simpa [Obj.refs] using hr

theorem RunInv.initialize (h : RunInv cfg d) :
    RunInv cfg { d with initialized := true } ∧ Later cfg n d { d with initialized := true } :=
  ⟨{ h with }, { Later.refl (n := n) h with initialized := fun _ => rfl }⟩

theorem Runs.readField (hops : ReadRun cfg N ops P) (t : FieldType) (h : Reading cfg N n o d)
    (hP : P d) : Runs cfg n d (readField cfg.mapping ops o t) fun _ d' => P d' := by
  induction t generalizing d with
  | fixed k =>
    exact (hops.onStream ((readBytes_reads k).mono (Nat.zero_le _)) h.inv hP).bind
      fun _ d' h' _ hP' => .pure h' hP'
  | enum maxValue =>
    exact (hops.onStream (readEnum_reads _) h.inv hP).bind fun _ d' h' _ hP' => .pure h' hP'
  | string =>
    exact (hops.onStream ((readString_reads _).mono (Nat.zero_le _)) h.inv hP).bind
      fun _ d' h' _ hP' => .pure h' hP'
  | cls t =>
    obtain ⟨obj, hobj⟩ := Option.isSome_iff_exists.mp h.holder.1
    refine .get_bind ?_
    simp only [hobj]
    obtain ⟨h1, hl1⟩ := h.inv.pushSlot (n := n) hobj
    obtain ⟨h2, hl2⟩ := h1.initialize (n := n)
    refine .modify_bind hl1 (.modify_bind hl2 ?_)
    have hr := (h.later h1 hl1).later h2 hl2
    exact (hops.read hr rfl (hops.stable (d := d) rfl rfl hP)).bind fun _ d' h' _ hP' =>
      .pure h' hP'
  | seq t ih =>
    refine (Runs.readAndCheckSeqSize h.inv t.minWireSize).bind fun sz d1 h1 hl1 hQ => ?_
    have hP1 : P d1 := by
      obtain ⟨s, rfl, -⟩ := hQ
      exact hops.stable (d := d) rfl rfl hP
    have hr1 := h.later h1 hl1
    refine (show Runs cfg n d1 (readElements (Ice.readField cfg.mapping ops o t) sz)
      fun _ d' => P d' from ?_).bind fun _ d' h' _ hP' => .pure h' hP'
    clear h hP h1 hl1 hQ
    induction sz generalizing d1 with
    | zero => exact .pure hr1.inv hP1
    | succ k ihk =>
      refine (ih hr1 hP1).bind fun _ d2 h2 hl2 hP2 => ?_
      exact (ihk d2 hP2 (hr1.later h2 hl2)).bind fun _ d' h' _ hP' => .pure h' hP'
  | pair a b iha ihb =>
    refine (iha h hP).bind fun _ d1 h1 hl1 hP1 => ?_
    refine (ihb (h.later h1 hl1) hP1).bind fun _ d2 h2 _ hP2 => .pure h2 hP2

theorem Runs.readOptionalField (hops : SliceRun cfg N ops P) (tag : Nat) (t : OptionalType)
    (h : Reading cfg N n o d) (hP : P d) :
    Runs cfg n d (readOptionalField cfg.mapping ops o tag t) fun _ d' => P d' := by
  refine (hops.readOptional h.inv hP).bind fun present d1 h1 hl1 hP1 => ?_
  split
  · refine (hops.onStream (skipOptionalSize_reads t) h1 hP1).bind fun _ d2 h2 hl2 hP2 => ?_
    exact (Runs.readField hops.toReadRun _ ((h.later h1 hl1).later h2 hl2) hP2).bind
      fun _ d3 h3 _ hP3 => .pure h3 hP3
  · exact .pure h1 hP1

theorem Runs.requireDecoder (h : RunInv cfg d) (hi : d.initialized) :
    Runs cfg n d requireDecoder fun _ d' => d' = d :=
  .get_bind (.throwIf h (fun hf => by simp [hi] at hf) fun _ => rfl)

theorem RunInv.storeFields (h : RunInv cfg d) (fields : SliceFields Nat) :
    RunInv cfg (d.modifyObj o fun obj => { obj with fields := obj.fields ++ [fields] }) ∧
      Later cfg n d (d.modifyObj o fun obj => { obj with fields := obj.fields ++ [fields] }) :=
  ⟨h.keepRefs o fun _ _ _ hr => hr, .changeObj h o fun _ _ _ => rfl⟩

theorem Runs.readSlice (hops : SliceRun cfg N ops P) (s : SliceDef) (h : Reading cfg N n o d)
    (hi : d.initialized) (hP : P d) :
    Runs cfg n d (readSlice cfg.mapping ops o s) fun _ d' => d'.initialized ∧ P d' := by
  refine (Runs.requireDecoder h.inv hi).bind fun _ d1 h1 _ he => ?_
  subst he
  refine (hops.startSlice h1 hP).bind fun _ d1 h1 hl1 hP1 => ?_
  have hr1 := h.later h1 hl1
  refine (Runs.mapEach (I := fun d' => Reading cfg N n o d' ∧ d'.initialized ∧ P d') h1
    ⟨hr1, hl1.initialized hi, hP1⟩ fun t d' _ hI =>
      (Runs.readField hops.toReadRun t hI.1 hI.2.2).mono fun _ d'' h'' hl'' hP'' =>
        ⟨hI.1.later h'' hl'', hl''.initialized hI.2.1, hP''⟩).bind fun _ d2 h2 _ hI2 => ?_
  refine (Runs.mapEach (I := fun d' => Reading cfg N n o d' ∧ d'.initialized ∧ P d') h2
    hI2 fun e d' _ hI =>
      (Runs.readOptionalField hops e.1 e.2 hI.1 hI.2.2).mono fun _ d'' h'' hl'' hP'' =>
        ⟨hI.1.later h'' hl'', hl''.initialized hI.2.1, hP''⟩).bind fun _ d3 h3 _ hI3 => ?_
  refine (Runs.requireDecoder h3 hI3.2.1).bind fun _ d4 h4 _ he => ?_
  subst he
  refine (hops.endSlice hI3.1 hI3.2.1 hI3.2.2).bind fun _ d5 h5 hl5 hP5 => ?_
  obtain ⟨h6, hl6⟩ := h5.storeFields (n := n) (o := o) _
  exact .modify h6 hl6 ⟨hl5.initialized hI3.2.1, hops.stable (d := d5) rfl rfl hP5⟩

/-- Reading an instance of any class: from `P` after `startInstance` to what `endInstance`
    gives. -/
theorem Runs.iceRead (hops : SliceRun cfg N ops P) {kind : SliceType} {Q : Decoder → Prop}
    (c : ClassDef) (h : Reading cfg N n o d) (hi : d.initialized) (hP : P d)
    (hstart : ∀ {d}, RunInv cfg d → P d →
      Runs cfg n d (ops.startInstance kind) fun _ d' => P d')
    (hend : ∀ {d}, Reading cfg N n o d → P d → Runs cfg n d (ops.endInstance o) fun _ d' => Q d') :
    Runs cfg n d (iceRead cfg.mapping ops kind o c) fun _ d' => Q d' := by
  refine (Runs.requireDecoder h.inv hi).bind fun _ d1 h1 _ he => ?_
  subst he
  refine (hstart h1 hP).bind fun _ d1 h1 hl1 hP1 => ?_
  refine (Runs.forEach (I := fun _ d' => Reading cfg N n o d' ∧ d'.initialized ∧ P d') h1
    ⟨h.later h1 hl1, hl1.initialized hi, hP1⟩ fun s _ d' _ hI =>
      (Runs.readSlice hops s hI.1 hI.2.1 hI.2.2).mono fun _ d'' h'' hl'' hQ =>
        ⟨hI.1.later h'' hl'', hQ⟩).bind fun _ d2 h2 _ hI2 => ?_
  refine (Runs.requireDecoder h2 hI2.2.1).bind fun _ d3 h3 _ he => ?_
  subst he
  exact hend hI2.1 hI2.2.2

end Generated

end Ice
