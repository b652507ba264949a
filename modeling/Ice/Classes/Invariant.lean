import Ice.Classes.Decoder10
import Ice.Misc.Acyclic
import Ice.Misc.Lists
import Ice.Stream.Advance

/-!
# An invariant of every decoder run

`RunInv` holds in every state that the class decoders reach from the bytes of a peer, with any Slice
loader and with both mappings. It says which instances exist, which of them have been read
completely, and what the pending references and the instance data on the stack refer to; and it says
when the references in memory form no cycle. `Runs` states that an operation keeps the invariant,
and that it throws no failure other than an exception unless a Swift closure of `readSlicedData` has
been deferred, `throwException` has found a class, or the buffer is too large for Swift's integers.
-/

namespace Ice

open Decoder List

/-- A Swift closure of `readSlicedData` has entered the patch map. -/
def Decoder.ClosureDeferred (d : Decoder) : Prop := ∃ n, Target.slicedClosure n ∈ d.deferred

/-- `throwException` has met a type ID that the Slice loader maps to a class. -/
def Decoder.ExceptionIsClass (cfg : DecoderConfig) (d : Decoder) : Prop :=
  ∃ id ∈ d.exceptionIds, ∃ c, cfg.loader id = some (.cls c)

/-- The instance exists and is being read: `_iceRead` has not returned. -/
def Decoder.Open (d : Decoder) (o : ObjId) : Prop :=
  (d.heap o).isSome ∧ o ≤ d.valueIdIndex ∧ o ∉ d.finished

/-- The target is a slot of an instance that is being read. -/
def Decoder.OpenSlot (d : Decoder) (t : Target) : Prop := ∃ o k, t = .slot o k ∧ d.Open o

/-- A slice size leaves room for itself, and for the end marker of optional members. -/
def SliceHeader.Ok (h : SliceHeader) : Prop :=
  hasFlag h.sliceFlags flagHasSliceSize →
    4 ≤ h.sliceSize ∧ (hasFlag h.sliceFlags flagHasOptionalMembers → 5 ≤ h.sliceSize)

/-- The references of an object. -/
def Obj.refs (obj : Obj) : List ObjId := obj.slots.filterMap id ++ slicedRefs obj.slicedData

/-- Object `a` holds a reference to object `b`. -/
def Refers (memory : ObjId → Option Obj) (a b : ObjId) : Prop :=
  ∃ obj, memory a = some obj ∧ b ∈ obj.refs

/-- Before the store, the instance that has been read holds no reference, or no object holds one to
    the holder, which is another instance. -/
def LateStore.Settled (s : LateStore) : Prop :=
  s.target ≠ s.holder ∧
    ((∀ b, ¬ Refers s.memory s.target b) ∨ ∀ a, ¬ Refers s.memory a s.holder)

/-- Instance data on the stack of a decoder. -/
structure InstanceData.Ok (openSlot : Target → Prop) (complete : ObjId → Prop)
    (c : InstanceData) : Prop where
  header : ∀ h, c.header = some h → h.Ok
  entries : ∀ e ∈ c.indirectPatchList, openSlot e.target
  tables : ∀ t ∈ c.indirectionTables, ∀ i ∈ t, i ≠ 0
  instances : ∀ info ∈ c.slices, ∀ o, some o ∈ info.instances → complete o

/-- The instance may be stored in another one: without class cycles, it has been read. -/
def Decoder.Complete (cfg : DecoderConfig) (d : Decoder) (o : ObjId) : Prop :=
  cfg.acceptClassCycles = false → o ∈ d.finished

/-- What holds in every reachable state of a decoder. -/
structure RunInv (cfg : DecoderConfig) (d : Decoder) : Prop where
  valid : d.stream.Valid
  seqFits : d.stream.SeqFits
  encaps : d.stream.encaps.isSome
  frame : d.Open frameId
  registered : ∀ i o, (i, some o) ∈ d.unmarshaledMap → (d.heap o).isSome ∧ d.Complete cfg o
  allocated : ∀ o, (d.heap o).isSome → o ≤ d.valueIdIndex
  finished : ∀ o ∈ d.finished, o ≤ d.valueIdIndex
  stack : ∀ c ∈ d.current, c.Ok d.OpenSlot (d.Complete cfg)
  sliced : ∀ e ∈ d.patchMap, ∀ o n j, e.2.target = .sliced o n j → cfg.mapping = .cpp
  closures : ∀ e ∈ d.patchMap, ∀ n, e.2.target = .slicedClosure n →
    cfg.mapping = .swift ∧ d.ClosureDeferred
  refs : ∀ a b, Refers d.heap a b → d.Complete cfg b
  acyclic : cfg.acceptClassCycles = false → (∀ s ∈ d.lateStores, s.Settled) →
    Acyclic (Refers d.heap)

/-- `d'` comes later in the run than `d`: the objects up to the address `n` that were being read
    still are, and Swift has not touched the preserved slices of an instance that had been read. -/
structure Later (cfg : DecoderConfig) (n : Nat) (d d' : Decoder) : Prop where
  stream : d.stream.Advances d'.stream
  initialized : d.initialized → d'.initialized
  ids : d.valueIdIndex ≤ d'.valueIdIndex
  heap : ∀ o, (d.heap o).isSome → (d'.heap o).isSome
  finished : ∀ o ∈ d.finished, o ∈ d'.finished
  unfinished : ∀ o ≤ n, o ∈ d'.finished → o ∈ d.finished
  slicedData : cfg.mapping = .swift → ∀ o ∈ d.finished,
    (d'.heap o).map Obj.slicedData = (d.heap o).map Obj.slicedData

/-- A failure that untrusted bytes may cause, in a buffer of the given size. The decoded user
    exception is thrown in a state that satisfies the invariant. -/
structure ErrOk (cfg : DecoderConfig) (size : Nat) (e : Failure) (d : Decoder) : Prop where
  fuel : e ≠ .outOfFuel
  trap : ∀ t, e = .trap t → cfg.mapping = .swift ∧
    (d.ClosureDeferred ∨ d.ExceptionIsClass cfg ∨ 2 ^ 31 ≤ size)
  exception : e = .userException → RunInv cfg d

/-- `x` keeps the invariant from `d` on, and ends in `Q` if it returns. -/
def Runs {α : Type} (cfg : DecoderConfig) (n : Nat) (d : Decoder) (x : DecoderM α)
    (Q : α → Decoder → Prop) : Prop :=
  wp x (fun a d' => RunInv cfg d' ∧ Later cfg n d d' ∧ Q a d')
    (ErrOk cfg d.stream.data.length) d

section Basics

variable {cfg : DecoderConfig} {n size : Nat} {d d' d'' : Decoder} {α β : Type}

theorem errOk_marshal (r : MarshalReason) (d : Decoder) : ErrOk cfg size (.marshal r) d :=
  ⟨by simp, by simp, by simp⟩

theorem Failure.IsMarshal.errOk {e : Failure} (h : e.IsMarshal) (d : Decoder) :
    ErrOk cfg size e d := by
  obtain ⟨r, rfl⟩ := h
  exact errOk_marshal r d

theorem Later.refl (h : RunInv cfg d) : Later cfg n d d :=
  ⟨.refl h.valid, id, le_rfl, fun _ h => h, fun _ h => h, fun _ _ h => h, fun _ _ _ => rfl⟩

/-- A change of fields that `Later` does not speak of. -/
theorem Later.of_eq (h : RunInv cfg d)
    (heq : (d'.stream, d'.initialized, d'.valueIdIndex, d'.heap, d'.finished) =
      (d.stream, d.initialized, d.valueIdIndex, d.heap, d.finished)) : Later cfg n d d' := by
  simp only [Prod.mk.injEq] at heq
  obtain ⟨hs, hi, hv, hh, hf⟩ := heq
  refine ⟨?_, fun h => hi ▸ h, hv ▸ le_rfl, fun o ho => hh ▸ ho, fun o ho => hf ▸ ho,
    fun o _ ho => hf ▸ ho, ?_⟩
  · rw [hs]
    exact .refl h.valid
  · intro _ o _
    rw [hh]

theorem Later.trans (h : Later cfg n d d') (h' : Later cfg n d' d'') : Later cfg n d d'' where
  stream := h.stream.trans h'.stream
  initialized hi := h'.initialized (h.initialized hi)
  ids := h.ids.trans h'.ids
  heap o ho := h'.heap o (h.heap o ho)
  finished o ho := h'.finished o (h.finished o ho)
  unfinished o hn ho := h.unfinished o hn (h'.unfinished o hn ho)
  slicedData hm o ho :=
    (h'.slicedData hm o (h.finished o ho)).trans (h.slicedData hm o ho)

theorem Later.weaken {k : Nat} (h : Later cfg n d d') (hk : k ≤ n) : Later cfg k d d' :=
  { h with unfinished := fun o ho => h.unfinished o (ho.trans hk) }

theorem Later.open_ (h : Later cfg n d d') {o : ObjId} (ho : d.Open o) (hn : o ≤ n) :
    d'.Open o := by
  obtain ⟨hs, hle, hf⟩ := ho
  exact ⟨h.heap o hs, hle.trans h.ids, fun hf' => hf (h.unfinished o hn hf')⟩

theorem Later.remaining_le (h : Later cfg n d d') :
    d'.stream.remaining ≤ d.stream.remaining := h.stream.remaining_le

theorem Later.length_data (h : Later cfg n d d') :
    d'.stream.data.length = d.stream.data.length := congrArg length h.stream.data

variable {Q : α → Decoder → Prop}

theorem Runs.pure {a : α} (h : RunInv cfg d) (hQ : Q a d) : Runs cfg n d (pure a) Q :=
  ⟨h, .refl h, hQ⟩

theorem Runs.mono {x : DecoderM α} {Q' : α → Decoder → Prop} (h : Runs cfg n d x Q)
    (hQ : ∀ a d', RunInv cfg d' → Later cfg n d d' → Q a d' → Q' a d') : Runs cfg n d x Q' :=
  wp_post h fun a d' h' => ⟨h'.1, h'.2.1, hQ a d' h'.1 h'.2.1 h'.2.2⟩

/-- What is known for the objects up to `n` is known for those up to `k`. -/
theorem Runs.weaken {k : Nat} {x : DecoderM α} (h : Runs cfg n d x Q) (hk : k ≤ n) :
    Runs cfg k d x fun a d' => Later cfg n d d' ∧ Q a d' :=
  wp_post h fun _ _ h' => ⟨h'.1, h'.2.1.weaken hk, h'.2⟩

theorem Runs.bind {x : DecoderM α} {f : α → DecoderM β} {Q' : β → Decoder → Prop}
    (hx : Runs cfg n d x Q)
    (hf : ∀ a d', RunInv cfg d' → Later cfg n d d' → Q a d' → Runs cfg n d' (f a) Q') :
    Runs cfg n d (x >>= f) Q' := by
  refine wp_seq hx fun a d' h => ?_
  obtain ⟨hinv, hl, hQ⟩ := h
  rw [← hl.length_data]
  refine wp_post (hf a d' hinv hl hQ) fun b d'' h' => ?_
  exact ⟨h'.1, hl.trans h'.2.1, h'.2.2⟩

variable {Q : β → Decoder → Prop}

theorem Runs.get_bind {f : Decoder → DecoderM β} (h : Runs cfg n d (f d) Q) :
    Runs cfg n d (get >>= f) Q := by
  unfold Runs
  exact h

theorem Runs.throw {e : Failure} (h : ErrOk cfg d.stream.data.length e d) :
    Runs cfg n d (throw e) Q := h

theorem Runs.modify_bind {f : Decoder → Decoder} {g : PUnit → DecoderM β}
    (hl : Later cfg n d (f d)) (hg : Runs cfg n (f d) (g ⟨⟩) Q) :
    Runs cfg n d (modify f >>= g) Q := by
  unfold Runs
  rw [← hl.length_data]
  exact wp_post hg fun b d' h => ⟨h.1, hl.trans h.2.1, h.2.2⟩

theorem Runs.throwIf_bind {c : Prop} [Decidable c] {e : Failure} {g : Unit → DecoderM β}
    (he : c → ErrOk cfg d.stream.data.length e d) (hg : ¬ c → Runs cfg n d (g ()) Q) :
    Runs cfg n d (throwIf c e >>= g) Q := by
  unfold Runs
  rw [wp_bind, wp_throwIf]
  exact ⟨he, hg⟩

theorem Runs.modify {Q : PUnit → Decoder → Prop} {f : Decoder → Decoder} (h : RunInv cfg (f d))
    (hl : Later cfg n d (f d)) (hQ : Q ⟨⟩ (f d)) : Runs cfg n d (modify f) Q := ⟨h, hl, hQ⟩

section

variable (h : RunInv cfg d)
include h

theorem Runs.throwIf {Q : Unit → Decoder → Prop} {c : Prop} [Decidable c] {e : Failure}
    (he : c → ErrOk cfg d.stream.data.length e d) (hQ : ¬ c → Q () d) :
    Runs cfg n d (throwIf c e) Q := by
  unfold Runs
  rw [wp_throwIf]
  exact ⟨he, fun hc => ⟨h, .refl h, hQ hc⟩⟩

theorem Runs.runIf {Q : Unit → Decoder → Prop} {c : Prop} [Decidable c] {x : DecoderM Unit}
    (hx : c → Runs cfg n d x Q) (hQ : ¬ c → Q () d) : Runs cfg n d (runIf c x) Q := by
  unfold Runs
  rw [wp_runIf]
  exact ⟨hx, fun hc => ⟨h, .refl h, hQ hc⟩⟩

/-- A loop keeps a property of the later states and the elements to come. -/
theorem Runs.forEach {f : α → DecoderM Unit} {I : List α → Decoder → Prop} {l : List α} (hI : I l d)
    (step : ∀ a as d, RunInv cfg d → I (a :: as) d → Runs cfg n d (f a) fun _ d' => I as d') :
    Runs cfg n d (forEach l f) fun _ d' => I [] d' := by
  induction l generalizing d with
  | nil => exact .pure h hI
  | cons a as ih => exact (step a as d h hI).bind fun _ d' h' _ hI' => ih h' hI'

theorem Runs.mapEach {f : α → DecoderM β} {I : Decoder → Prop} {l : List α} (hI : I d)
    (step : ∀ a d, RunInv cfg d → I d → Runs cfg n d (f a) fun _ d' => I d') :
    Runs cfg n d (mapEach l f) fun _ d' => I d' := by
  induction l generalizing d with
  | nil => exact .pure h hI
  | cons a as ih =>
    exact (step a d h hI).bind fun _ d' h' _ hI' =>
      (ih h' hI').bind fun _ d'' h'' _ hI'' => .pure h'' hI''

theorem RunInv.setStream {s : InputStream} (hs : d.stream.Advances s) :
    RunInv cfg { d with stream := s } :=
  { h with valid := hs.valid, seqFits := hs.seqFits h.seqFits, encaps := hs.encaps ▸ h.encaps }

theorem RunInv.later_setStream {s : InputStream} (hs : d.stream.Advances s) :
    Later cfg n d { d with stream := s } :=
  { Later.refl h with stream := hs }

/-- Reading from the stream changes nothing else. -/
theorem Runs.onStream {x : StreamM α} {k : Nat} (hx : Reads k x) : Runs cfg n d (onStream x)
      fun _ d' => ∃ s, d' = { d with stream := s } ∧ d.stream.pos + k ≤ s.pos := by
  unfold Runs
  rw [Decoder.onStream, wp_zoom]
  refine wp_mono (hx d.stream h.valid h.encaps) (fun a s hs => ?_) fun e s hs => hs.1.errOk _
  exact ⟨h.setStream hs.1, h.later_setStream hs.1, s, rfl, hs.2⟩

/-- The size of a sequence is the one thing that the stream may trap on. -/
theorem Runs.readAndCheckSeqSize (minSize : Nat) :
    Runs cfg n d (Decoder.onStream (readAndCheckSeqSize cfg.mapping minSize))
      fun _ d' => ∃ s, d' = { d with stream := s } ∧ d.stream.pos + 1 ≤ s.pos := by
  unfold Runs
  rw [Decoder.onStream, wp_zoom]
  refine wp_mono (readAndCheckSeqSize_spec cfg.mapping minSize h.valid h.seqFits h.encaps)
    (fun a s hs => ?_) fun e s hs => ?_
  · exact ⟨h.setStream hs.1, h.later_setStream hs.1, s, rfl, hs.2⟩
  · obtain ⟨he | ⟨⟨t, rfl⟩, hm, hsize⟩, -⟩ := hs
    · exact he.errOk _
    · exact ⟨by simp, fun _ _ => ⟨hm, .inr (.inr hsize)⟩, by simp⟩

end

end Basics

/-- Instance data without the references that Swift closures have appended. -/
def InstanceData.outline (c : InstanceData) : InstanceData :=
  { c with slices := c.slices.map fun info => { info with instances := [] } }

/-- The stacks differ at most in references that Swift closures have appended. -/
def SameStack (d d' : Decoder) : Prop :=
  d'.current.map InstanceData.outline = d.current.map InstanceData.outline

section Stores

variable {cfg : DecoderConfig} {n : Nat} {d d' : Decoder}

theorem SameStack.refl (d : Decoder) : SameStack d d := rfl

theorem SameStack.of_eq (h : d'.current = d.current) : SameStack d d' := by
  rw [SameStack, h]

theorem InstanceData.Ok.mono {p p' : Target → Prop} {q q' : ObjId → Prop} {c : InstanceData}
    (h : c.Ok p q) (hp : ∀ t, p t → p' t) (hq : ∀ o, q o → q' o) : c.Ok p' q' where
  __ := h
  entries e he := hp _ (h.entries e he)
  instances info hi o ho := hq o (h.instances info hi o ho)

variable {o : ObjId}

theorem isSome_modifyObj {x : ObjId} {f : Obj → Obj} :
    ((d.modifyObj o f).heap x).isSome = (d.heap x).isSome := by
  simp only [modifyObj]
  by_cases hx : x = o
  · subst hx
    rw [Function.update_self, Option.isSome_map]
  · rw [Function.update_of_ne hx]

theorem refers_modifyObj {f : Obj → Obj} {a b : ObjId} (h : Refers (d.modifyObj o f).heap a b) :
    Refers d.heap a b ∨ a = o ∧ ∃ obj, d.heap o = some obj ∧ b ∈ (f obj).refs := by
  obtain ⟨obj, hobj, hb⟩ := h
  simp only [modifyObj] at hobj
  by_cases hao : a = o
  · subst hao
    rw [Function.update_self] at hobj
    obtain ⟨obj0, hobj0, rfl⟩ := Option.map_eq_some_iff.mp hobj
    exact .inr ⟨rfl, obj0, hobj0, hb⟩
  · rw [Function.update_of_ne hao] at hobj
    exact .inl ⟨obj, hobj, hb⟩

section

variable (h : RunInv cfg d) {f : Obj → Obj}
include h

/-- A change of an object, with the late stores that it is part of. -/
theorem RunInv.changeObj (o : ObjId) (ls : List LateStore)
    (hrefs : ∀ a b, Refers (d.modifyObj o f).heap a b → d.Complete cfg b)
    (hacyclic : cfg.acceptClassCycles = false → (∀ s ∈ ls, s.Settled) →
      Acyclic (Refers d.heap) → Acyclic (Refers (d.modifyObj o f).heap)) :
    RunInv cfg { d.modifyObj o f with lateStores := d.lateStores ++ ls } := by
  have hopen : ∀ x, d.Open x → (d.modifyObj o f).Open x := by
    intro x hx
    exact ⟨isSome_modifyObj.trans hx.1, hx.2⟩
  exact { h with
    frame := hopen _ h.frame
    registered := fun i x hx => ⟨isSome_modifyObj.trans (h.registered i x hx).1,
      (h.registered i x hx).2⟩
    allocated := fun x hx => h.allocated x (isSome_modifyObj.symm.trans hx)
    stack := fun c hc => (h.stack c hc).mono (fun t ⟨x, k, ht, hx⟩ => ⟨x, k, ht, hopen x hx⟩)
      fun _ hq => hq
    refs := hrefs
    acyclic := fun ha hs =>
      have hboth := forall_mem_append.mp hs
      hacyclic ha hboth.2 (h.acyclic ha hboth.1) }

/-- A change that adds no reference. -/
theorem RunInv.keepRefs (o : ObjId)
    (hf : ∀ obj, d.heap o = some obj → ∀ r ∈ (f obj).refs, r ∈ obj.refs) :
    RunInv cfg (d.modifyObj o f) := by
  have hold : ∀ a b, Refers (d.modifyObj o f).heap a b → Refers d.heap a b := by
    intro a b hab
    obtain hab | ⟨rfl, obj, hobj, hb⟩ := refers_modifyObj hab
    · exact hab
    · exact ⟨obj, hobj, hf obj hobj b hb⟩
  have hinv := h.changeObj o [] (fun a b hab => h.refs a b (hold a b hab))
    fun _ _ hacyclic => hacyclic.mono hold
  rwa [append_nil] at hinv

/-- References to instances that have been read are added to an object that is being read: nothing
    refers to that object, so they close no cycle. -/
theorem RunInv.addRefs (ho : d.Open o)
    (hf : ∀ obj, d.heap o = some obj → ∀ r ∈ (f obj).refs, r ∈ obj.refs ∨ d.Complete cfg r) :
    RunInv cfg (d.modifyObj o f) := by
  have hrefs : ∀ a b, Refers (d.modifyObj o f).heap a b → d.Complete cfg b := by
    intro a b hab
    obtain hab | ⟨rfl, obj, hobj, hb⟩ := refers_modifyObj hab
    · exact h.refs a b hab
    · exact (hf obj hobj b hb).elim (fun hb => h.refs a b ⟨obj, hobj, hb⟩) id
  have hinv := h.changeObj o [] hrefs fun ha _ hacyclic =>
    hacyclic.grow (fun a b hab => (refers_modifyObj hab).imp_right And.left)
      fun a hao => ho.2.2 (hrefs a o hao ha)
  rwa [append_nil] at hinv

/-- A reference from the patch map is stored, which closes no cycle if it is settled. -/
theorem RunInv.addLate {r : ObjId} (hr : d.Complete cfg r)
    (hf : ∀ obj, ∀ x ∈ (f obj).refs, x ∈ obj.refs ∨ some r = some x) :
    RunInv cfg { d.modifyObj o f with lateStores := d.lateStores ++ [⟨o, r, d.heap⟩] } := by
  have hpair : ∀ a b, Refers (d.modifyObj o f).heap a b → insertPair (Refers d.heap) o r a b := by
    intro a b hab
    obtain hab | ⟨rfl, obj, hobj, hb⟩ := refers_modifyObj hab
    · exact .inl hab
    · exact (hf obj b hb).imp (fun hb => ⟨obj, hobj, hb⟩) fun hb => ⟨rfl, (Option.some.inj hb).symm⟩
  refine h.changeObj o _ (fun a b hab => ?_) fun _ hs hacyclic => ?_
  · obtain hab | ⟨-, rfl⟩ := hpair a b hab
    · exact h.refs a b hab
    · exact hr
  · obtain ⟨hne, hsettled⟩ := forall_mem_singleton.mp hs
    refine (hacyclic.insert ?_).mono hpair
    exact hsettled.elim (not_reaches_of_no_outgoing · hne) (not_reaches_of_no_incoming · hne)

end

theorem Later.changeObj (h : RunInv cfg d) (o : ObjId) {f : Obj → Obj}
    (hf : cfg.mapping = .swift → o ∈ d.finished → ∀ obj, (f obj).slicedData = obj.slicedData) :
    Later cfg n d (d.modifyObj o f) := by
  refine { Later.refl h with
    heap := fun x hx => isSome_modifyObj.trans hx
    slicedData := fun hm x hx => ?_ }
  by_cases hxo : x = o
  · subst hxo
    simp only [modifyObj, Function.update_self]
    cases d.heap x with
    | none => rfl
    | some obj => simp [hf hm hx obj]
  · simp only [modifyObj, Function.update_of_ne hxo]

variable {r : ObjId}

theorem mem_refs_set {obj : Obj} {k : Nat} {v : Option ObjId}
    (h : r ∈ ({ obj with slots := obj.slots.set k v } : Obj).refs) : r ∈ obj.refs ∨ v = some r := by
  simp only [Obj.refs, mem_append, mem_filterMap, id] at h ⊢
  rcases h with ⟨x, hx, rfl⟩ | h
  · rcases mem_or_eq_of_mem_set hx with hx | rfl
    · exact .inl (.inl ⟨_, hx, rfl⟩)
    · exact .inr rfl
  · exact .inl (.inr h)

theorem mem_slicedRefs {slices : List (SliceInfo (Option ObjId))} :
    r ∈ slicedRefs slices ↔ ∃ info ∈ slices, some r ∈ info.instances := by
  simp [slicedRefs]

/-- The locations of the preserved slices hold no reference yet. -/
theorem not_mem_slicedRefs_sizedSlices (c : InstanceData) (r : ObjId) :
    r ∉ slicedRefs (sizedSlices c) := by
  intro hr
  obtain ⟨info, hinfo, hmem⟩ := mem_slicedRefs.mp hr
  rw [sizedSlices, ← map_uncurry_zip_eq_zipWith] at hinfo
  obtain ⟨x, -, rfl⟩ := mem_map.mp hinfo
  simp [Function.uncurry] at hmem

theorem mem_refs_sliced {obj : Obj} {i j : Nat} {v : Option ObjId}
    (h : r ∈ ({ obj with slicedData := obj.slicedData.modify i fun info =>
      { info with instances := info.instances.set j v } } : Obj).refs) : r ∈ obj.refs ∨
        v = some r := by
  simp only [Obj.refs, mem_append, mem_slicedRefs] at h ⊢
  rcases h with h | ⟨info, hi, hr⟩
  · exact .inl (.inl h)
  · rcases mem_modify hi with hi | ⟨info0, hi0, rfl⟩
    · exact .inl (.inr ⟨info, hi, hr⟩)
    · rcases mem_or_eq_of_mem_set hr with hr | hr
      · exact .inl (.inr ⟨info0, hi0, hr⟩)
      · exact .inr hr.symm

/-- A target that may be stored while its holder is being read. -/
def Decoder.StoreNow (cfg : DecoderConfig) (d : Decoder) : Target → Prop
  | .slot o _ => d.Open o
  | .sliced o _ _ => d.Open o ∧ cfg.mapping = .cpp
  | .slicedClosure n => cfg.mapping = .swift ∧ ∃ c cs, d.current = c :: cs ∧ n < c.slices.length

/-- A target in the patch map. -/
def Decoder.StoreLate (cfg : DecoderConfig) (d : Decoder) : Target → Prop
  | .slot _ _ => True
  | .sliced _ _ _ => cfg.mapping = .cpp
  | .slicedClosure _ => cfg.mapping = .swift ∧ d.ClosureDeferred

/-- A change of the references of a preserved slice does not show in the outline. -/
theorem outline_modify (c : InstanceData) (i : Nat)
    (f : List (Option ObjId) → List (Option ObjId)) :
    ({ c with slices := c.slices.modify i fun info =>
      { info with instances := f info.instances } } : InstanceData).outline = c.outline := by
  simp only [InstanceData.outline, InstanceData.mk.injEq, true_and, and_true]
  apply ext_getElem?
  intro j
  simp only [getElem?_map, getElem?_modify]
  cases c.slices[j]? with
  | none => rfl
  | some info =>
    by_cases hij : i = j
    · simp [hij]
    · simp [hij]

section

variable (h : RunInv cfg d)
include h

/-- The append of a Swift closure to the preserved slices of the current instance. -/
theorem RunInv.appendInstance {c : InstanceData} {cs : List InstanceData}
    (hc : d.current = c :: cs) (hr : d.Complete cfg r) (i : Nat) :
    RunInv cfg { d with current := { c with slices := c.slices.modify i fun info =>
      { info with instances := info.instances ++ [some r] } } :: cs } := by
  refine { h with stack := fun c' hc' => ?_ }
  rcases mem_cons.mp hc' with rfl | hc'
  · have hok := h.stack c (by simp [hc])
    refine { hok with instances := fun info hi o ho => ?_ }
    rcases mem_modify hi with hi | ⟨info0, hi0, rfl⟩
    · exact hok.instances info hi o ho
    · rcases mem_append.mp ho with ho | ho
      · exact hok.instances info0 hi0 o ho
      · have hor : o = r := by simpa using ho
        exact hor ▸ hr
  · exact h.stack c' (by simp [hc, hc'])

/-- A reference to an instance that has been read is stored in an object, which is being read or has
    been waiting in the patch map. -/
theorem RunInv.storeRef {late : Bool} (hr : d.Complete cfg r) (ho : late = false → d.Open o)
    {f : Obj → Obj} (hf : ∀ obj, ∀ x ∈ (f obj).refs, x ∈ obj.refs ∨ some r = some x) :
    RunInv cfg ((d.noteStore o (some r) late).modifyObj o f) := by
  cases late with
  | false =>
    refine h.addRefs (ho rfl) fun obj _ x hx => (hf obj x hx).imp_right fun hrx => ?_
    exact Option.some.inj hrx ▸ hr
  | true => exact h.addLate hr hf

theorem Later.storeRef {late : Bool} {f : Obj → Obj}
    (hf : cfg.mapping = .swift → ∀ obj, (f obj).slicedData = obj.slicedData) :
    Later cfg n d ((d.noteStore o (some r) late).modifyObj o f) := by
  have hl : Later cfg n d (d.modifyObj o f) := .changeObj h o fun hm _ => hf hm
  cases late with
  | false => exact hl
  | true => exact { hl with }

/-- A store of an instance that has been read, in one of its two forms. -/
theorem Runs.store {t : Target} {late : Bool} (hr : d.Complete cfg r)
    (ht : late = false ∧ d.StoreNow cfg t ∨ late = true ∧ d.StoreLate cfg t) :
    Runs cfg n d (store t (some r) late)
      fun _ d' => SameStack d d' ∧ d'.sliceType = d.sliceType ∧ d'.patchMap = d.patchMap := by
  cases t with
  | slot o k =>
    have ho : late = false → d.Open o := by
      rintro rfl
      simpa [StoreNow] using ht
    refine .modify (h.storeRef hr ho fun _ _ => mem_refs_set) (.storeRef h fun _ _ => rfl) ?_
    cases late <;> exact ⟨rfl, rfl, rfl⟩
  | sliced o i j =>
    have ho : late = false → d.Open o := by
      rintro rfl
      simp only [StoreNow, true_and, Bool.false_eq_true, false_and, or_false] at ht
      exact ht.1
    have hcpp : cfg.mapping = .cpp := by
      rcases ht with ⟨-, ht⟩ | ⟨-, ht⟩
      · exact ht.2
      · exact ht
    refine .modify (h.storeRef hr ho fun _ _ => mem_refs_sliced)
      (.storeRef h fun hm => by rw [hcpp] at hm; cases hm) ?_
    cases late <;> exact ⟨rfl, rfl, rfl⟩
  | slicedClosure i =>
    -- The closure traps unless the current instance has the preserved slice; a closure that is
    -- called at once has it.
    have htrap : ¬ (∃ c cs, d.current = c :: cs ∧ i < c.slices.length) →
        cfg.mapping = .swift ∧ d.ClosureDeferred := by
      intro hno
      rcases ht with ⟨-, ht⟩ | ⟨-, ht⟩
      · exact absurd ht.2 hno
      · exact ht
    refine .get_bind ?_
    cases hcur : d.current with
    | nil =>
      refine .throw ⟨by simp, fun _ _ => (htrap ?_).imp_right .inl, by simp⟩
      rintro ⟨c, cs, hc, -⟩
      rw [hcur] at hc
      cases hc
    | cons c cs =>
      simp only
      split
      · refine .modify (h.appendInstance hcur hr i) (.of_eq h rfl) ⟨?_, rfl, rfl⟩
        simp only [SameStack, hcur, map_cons, outline_modify c i (· ++ [some r])]
      · refine .throw ⟨by simp, fun _ _ => (htrap ?_).imp_right .inl, by simp⟩
        rintro ⟨c', cs', hc, hlt⟩
        rw [hcur] at hc
        cases hc
        contradiction

theorem Runs.store_null (o : ObjId) (k : Nat) : Runs cfg n d (Ice.store (.slot o k) none false)
      fun _ d' => SameStack d d' ∧ d'.sliceType = d.sliceType := by
  refine .modify (h.keepRefs o fun obj _ x hx => ?_) (.changeObj h o fun _ _ _ => rfl) ⟨rfl, rfl⟩
  obtain hx | hx := mem_refs_set hx
  · exact hx
  · cases hx

theorem Runs.patch {t : Target} {expected : TypeId} {late : Bool} (hs : (d.heap r).isSome)
    (hr : d.Complete cfg r) (ht : late = false ∧ d.StoreNow cfg t ∨ late = true ∧
      d.StoreLate cfg t) :
    Runs cfg n d (patch t expected (some r) late)
      fun _ d' => SameStack d d' ∧ d'.sliceType = d.sliceType ∧ d'.patchMap = d.patchMap := by
  obtain ⟨obj, hobj⟩ := Option.isSome_iff_exists.mp hs
  refine .get_bind ?_
  simp only [hobj]
  split
  · exact .store h hr ht
  · exact .throw (errOk_marshal _ _)

/-- A target that `addPatchEntry` may keep in the patch map. -/
theorem RunInv.deferEntry {t : Target} (ht : d.StoreNow cfg t) (index : Nat)
    (expected : TypeId) : RunInv cfg { d with
      patchMap := d.patchMap ++ [(index, PatchEntry.mk t expected d.classGraphDepth)]
      deferred := d.deferred ++ [t] } := by
  refine { h with sliced := fun e he o i j hs => ?_, closures := fun e he i hs => ?_ }
  · rcases mem_append.mp he with he | he
    · exact h.sliced e he o i j hs
    · rw [mem_singleton.mp he] at hs
      subst hs
      exact ht.2
  · rcases mem_append.mp he with he | he
    · obtain ⟨hm, k, hk⟩ := h.closures e he i hs
      exact ⟨hm, k, mem_append_left _ hk⟩
    · rw [mem_singleton.mp he] at hs
      subst hs
      exact ⟨ht.1, i, by simp⟩

theorem Runs.addPatchEntry {index : Nat} (hi : index ≠ 0) {t : Target}
    {expected : TypeId} (ht : d.StoreNow cfg t) : Runs cfg n d (addPatchEntry index t expected)
      fun _ d' => SameStack d d' ∧ d'.sliceType = d.sliceType := by
  refine .throwIf_bind (fun h0 => absurd h0 hi) fun _ => .get_bind ?_
  split
  · exact .throw (errOk_marshal _ _)
  · rename_i o ho
    have hreg := h.registered index o (mem_of_lookup ho)
    exact (Runs.patch h hreg.1 hreg.2 (.inl ⟨rfl, ht⟩)).mono fun _ _ _ _ hQ => ⟨hQ.1, hQ.2.1⟩
  · exact .modify (h.deferEntry ht index expected) (.of_eq h rfl) ⟨rfl, rfl⟩

end

theorem SameStack.trans {d1 d2 d3 : Decoder} (h : SameStack d1 d2) (h' : SameStack d2 d3) :
    SameStack d1 d3 := Eq.trans h' h

theorem RunInv.storeLate (h : RunInv cfg d) {e : Nat × PatchEntry} (he : e ∈ d.patchMap) :
    d.StoreLate cfg e.2.target := by
  cases ht : e.2.target with
  | slot o k => trivial
  | sliced o i j => exact h.sliced e he o i j ht
  | slicedClosure i => exact h.closures e he i ht

/-- No indirect reference on the stack is stored in the object. -/
def Decoder.NotAwaited (d : Decoder) (o : ObjId) : Prop :=
  ∀ c ∈ d.current, ∀ e ∈ c.indirectPatchList, ∀ k, e.target ≠ .slot o k

theorem RunInv.finish (h : RunInv cfg d) (ho : d.Open o) (h0 : o ≠ frameId) (hna : d.NotAwaited o) :
    RunInv cfg { d with finished := o :: d.finished } := by
  have hcomplete : ∀ x, d.Complete cfg x →
      ({ d with finished := o :: d.finished } : Decoder).Complete cfg x :=
    fun x hx ha => mem_cons_of_mem _ (hx ha)
  have hopen : ∀ x, x ≠ o → d.Open x →
      ({ d with finished := o :: d.finished } : Decoder).Open x := by
    intro x hne hx
    refine ⟨hx.1, hx.2.1, fun hmem => ?_⟩
    rcases mem_cons.mp hmem with rfl | hmem
    · exact hne rfl
    · exact hx.2.2 hmem
  refine { h with
    frame := hopen _ (Ne.symm h0) h.frame
    registered := fun i x hx => ⟨(h.registered i x hx).1, hcomplete x (h.registered i x hx).2⟩
    finished := fun x hx => ?_
    stack := fun c hc => ?_
    refs := fun a b hab => hcomplete b (h.refs a b hab) }
  · rcases mem_cons.mp hx with rfl | hx
    · exact ho.2.1
    · exact h.finished x hx
  · have hok := h.stack c hc
    refine ⟨hok.header, fun e he => ?_, hok.tables, fun info hi x hx =>
      hcomplete x (hok.instances info hi x hx)⟩
    obtain ⟨x, k, ht, hx⟩ := hok.entries e he
    refine ⟨x, k, ht, hopen x ?_ hx⟩
    rintro rfl
    exact hna c hc e he k ht

theorem Later.finish (h : RunInv cfg d) (hn : n < o) :
    Later cfg n d { d with finished := o :: d.finished } := by
  refine { Later.refl (n := n) h with
    finished := fun x hx => mem_cons_of_mem _ hx
    unfinished := fun x hle hx => ?_ }
  rcases mem_cons.mp hx with rfl | hx
  · omega
  · exact hx

theorem RunInv.registerInstance (h : RunInv cfg d) (index : Nat) (ho : d.Open o) :
    RunInv cfg (registerInstance cfg index o d) := by
  unfold Ice.registerInstance
  dsimp only
  split
  · exact h
  · refine { h with registered := fun i x hx => ?_ }
    rcases mem_cons.mp hx with hx | hx
    · cases ha : cfg.acceptClassCycles with
      | false => simp [ha] at hx
      | true =>
        have hxo : x = o := by simpa [ha] using (Prod.mk.inj hx).2
        subst hxo
        exact ⟨ho.1, fun hf => by simp [ha] at hf⟩
    · exact h.registered i x hx

/-- What `registerInstance` leaves alone. -/
theorem registerInstance_eq (cfg : DecoderConfig) (index : Nat) (o : ObjId) (d : Decoder) :
    ∃ m, registerInstance cfg index o d = { d with unmarshaledMap := m } := by
  unfold registerInstance
  dsimp only
  split <;> exact ⟨_, rfl⟩

/-- `unmarshal` of a new instance `o`, from the specification of its `_iceRead`. -/
theorem Runs.unmarshal (h : RunInv cfg d) {index : Nat} (ho : d.Open o) (hn : n < o)
    {read : DecoderM Unit}
    {Q : Decoder → Prop} (hread : ∀ m, RunInv cfg { d with unmarshaledMap := m } →
      Runs cfg o { d with unmarshaledMap := m } read fun _ d' => d'.NotAwaited o ∧ Q d') :
    Runs cfg n d (unmarshal cfg index o read)
      fun _ d' => (∃ d2, Q d2 ∧ SameStack d2 d') ∧ (d'.heap o).isSome ∧ d'.Complete cfg o := by
  have h0 : o ≠ frameId := by
    rintro rfl
    exact Nat.not_lt_zero n hn
  obtain ⟨m, hm⟩ := registerInstance_eq cfg index o d
  have h1 := h.registerInstance index ho
  have hl1 : Later cfg n d (Ice.registerInstance cfg index o d) := by
    rw [hm]
    exact .of_eq h rfl
  refine .modify_bind hl1 ?_
  rw [hm] at h1 ⊢
  -- The instance is read; then it counts as read.
  have hr : Runs cfg n { d with unmarshaledMap := m } read
      fun _ d' => d'.Open o ∧ d'.NotAwaited o ∧ Q d' := by
    refine wp_post (hread m h1) fun _ d' hd => ?_
    obtain ⟨hinv, hl, hQ⟩ := hd
    exact ⟨hinv, hl.weaken (Nat.le_of_lt hn), hl.open_ ho le_rfl, hQ⟩
  refine hr.bind fun _ d2 h2 _ hQ => ?_
  obtain ⟨ho2, hna, hQ⟩ := hQ
  have h3 := h2.finish ho2 h0 hna
  refine .modify_bind (.finish h2 hn) (.get_bind ?_)
  -- The pending references to it are patched.
  refine (Runs.forEach (I := fun l d' => (∀ e ∈ l, e ∈ d'.patchMap) ∧ (d'.heap o).isSome ∧
      o ∈ d'.finished ∧ SameStack d2 d') h3
      ⟨fun e he => mem_of_mem_filter he, ho2.1, mem_cons_self, .refl d2⟩ ?_).bind
    fun _ d4 h4 _ hI => ?_
  · intro e l d' h' hI
    obtain ⟨hmem, hs, hf, hst⟩ := hI
    refine (Runs.patch h' hs (fun _ => hf)
      (.inr ⟨rfl, h'.storeLate (hmem e mem_cons_self)⟩)).mono fun _ d'' _ hl hQ => ?_
    obtain ⟨hss, -, hpm⟩ := hQ
    exact ⟨fun e' he' => hpm ▸ hmem e' (mem_cons_of_mem _ he'), hl.heap o hs, hl.finished o hf,
      hst.trans hss⟩
  obtain ⟨-, hs, hf, hst⟩ := hI
  generalize hp : (fun e : Nat × PatchEntry => decide (e.1 ≠ index)) = p
  have h5 : RunInv cfg { d4 with patchMap := d4.patchMap.filter p } := { h4 with
    sliced := fun e he => h4.sliced e (mem_of_mem_filter he)
    closures := fun e he => h4.closures e (mem_of_mem_filter he) }
  refine .modify_bind (.of_eq h4 rfl) ?_
  refine (Runs.modify (Q := fun _ d' => ∃ q v, d' = { d4 with
      patchMap := d4.patchMap.filter p, postUnmarshaled := q, valueList := v }) ?_ ?_ ?_).bind
    fun _ d6 h6 _ he => ?_
  · split <;> exact { h5 with }
  · split <;> exact .of_eq h5 rfl
  · split <;> exact ⟨_, _, rfl⟩
  obtain ⟨q, v, rfl⟩ := he
  refine .runIf h6 (fun _ => .modify ?_ (.of_eq h6 rfl)
    ⟨⟨d2, hQ, hst⟩, hs, fun _ => hf⟩) fun _ => ⟨⟨d2, hQ, hst⟩, hs, fun _ => hf⟩
  refine { h6 with registered := fun i x hx => ?_ }
  rcases mem_cons.mp hx with hx | hx
  · have hxo : x = o := by simpa using (Prod.mk.inj hx).2
    subst hxo
    exact ⟨hs, fun _ => hf⟩
  · exact h6.registered i x hx

end Stores

end Ice
