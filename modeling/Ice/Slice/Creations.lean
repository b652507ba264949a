import Ice.Slice.Reading

/-!
# Collections created from untrusted sizes

A reader that creates a collection before it reads the elements takes the size from the peer. The
size of a sequence and of an indirection table has passed `readAndCheckSeqSize`, which compares it
with the bytes that are left; the size of a dictionary has not, and Swift creates a `DictEntryArray`
of that size when the values are instances. The walk over the decoder below is done once, for every
property of the list of creations that all creations of the code preserve.
-/

namespace Ice.Slice

variable {P α β : Type}

/-- A dictionary whose values are instances. -/
def DataType.isClassDictionary : DataType → Bool
  | .dictionary _ value => value.isClassType
  | _ => false

/-- A collection with at most as many elements as there are bytes left. -/
def Creation.Fits (c : Creation) : Prop := c.count ≤ c.remaining

mutual

/-- `p` holds of a type and of all types in it. -/
def DataType.All (p : DataType → Prop) : DataType → Prop
  | .struct members => p (.struct members) ∧ members.All p
  | .sequence element => p (.sequence element) ∧ element.All p
  | .dictionary key value => p (.dictionary key value) ∧ key.All p ∧ value.All p
  | t => p t

def Members.All (p : DataType → Prop) : Members → Prop
  | .last type => type.All p
  | .cons type rest => type.All p ∧ rest.All p

end

mutual

theorem DataType.all_of_forall {p : DataType → Prop} (h : ∀ t, p t) : ∀ t : DataType, t.All p
  | .numeric _ | .bool | .string | .enum _ | .proxy | .cls _ => h _
  | .struct members => ⟨h _, members.all_of_forall h⟩
  | .sequence element => ⟨h _, element.all_of_forall h⟩
  | .dictionary key value => ⟨h _, key.all_of_forall h, value.all_of_forall h⟩

theorem Members.all_of_forall {p : DataType → Prop} (h : ∀ t, p t) : ∀ ms : Members, ms.All p
  | .last type => type.all_of_forall h
  | .cons type rest => ⟨type.all_of_forall h, rest.all_of_forall h⟩

end

/-- `p` holds of the types of all members of a class. -/
def GeneratedClass.All (p : DataType → Prop) (c : GeneratedClass) : Prop :=
  ∀ s ∈ c, (∀ t ∈ s.members, t.All p) ∧ ∀ e ∈ s.optionals, e.2.All p

/-- `p` holds of the types of all members of the classes that the Slice loader knows. -/
def ReaderConfig.All (p : DataType → Prop) (cfg : ReaderConfig P) : Prop :=
  ∀ id c, cfg.classes id = some c → GeneratedClass.All p c

/-! ### The checked sizes -/

/-- A sequence size that is accepted is at most the number of bytes left. -/
theorem readAndCheckSeqSize_le {m : Mapping} {minSize : Nat} (h : 0 < minSize) (s : InputStream) :
    wp (readAndCheckSeqSize m minSize) (fun n s' => n ≤ s'.remaining) (fun _ _ => True) s := by
  simp only [readAndCheckSeqSize, wp_bind]
  refine wp_mono (wp_run _ s) (fun sz s1 _ => ?_) fun _ _ _ => trivial
  split
  · exact Nat.zero_le _
  · simp only [wp_bind, wp_get, wp_throwIf, wp_set, wp_pure]
    refine ⟨fun _ => trivial, fun _ =>
      ⟨fun _ => trivial, fun hb => ⟨fun _ => trivial, fun _ => ?_⟩⟩⟩
    have hpos : s1.pos + sz * minSize ≤
        (s1.seqBound (sz * minSize)).1 + (s1.seqBound (sz * minSize)).2 := by
      unfold InputStream.seqBound
      split
      · exact le_rfl
      · split
        · exact le_rfl
        · omega
    have hsz : sz ≤ sz * minSize := Nat.le_mul_of_pos_right sz h
    dsimp only [InputStream.remaining]
    omega

/-! ### The walk -/

/-- Every run of `x` preserves `I`, however it ends. -/
def Keeps (I : List Creation → Prop) (x : ReaderM α) : Prop :=
  Maintains (fun r => I r.creations) (fun _ r => I r.creations) x

/-- `I` survives every creation that fits, and those of unchecked size that readers of the types in
    `allowed` make. -/
def Closed (allowed : DataType → Prop) (I : List Creation → Prop) : Prop :=
  ∀ l c, (c.Fits ∨ ∃ t, allowed t ∧ t.isClassDictionary = true ∧ c.origin = .reader t) → I l →
    I (l ++ [c])

/-- What the operations of a decoder have to keep for the generated code. -/
structure OpsKeep (I : List Creation → Prop) (ops : ReaderOps) : Prop where
  read : ∀ t e, Keeps I (ops.read t e)
  startInstance : ∀ kind, Keeps I (ops.startInstance kind)
  endInstance : ∀ o, Keeps I (ops.endInstance o)
  startSlice : Keeps I ops.startSlice
  endSlice : Keeps I ops.endSlice
  readOptional : ∀ tag format, Keeps I (ops.readOptional tag format)

section Walk

variable {allowed : DataType → Prop} {I : List Creation → Prop} {cfg : ReaderConfig P}
  {ops : ReaderOps} {rec : ReadInstance} {m : Mapping}

theorem keeps_onDecoder (x : DecoderM α) : Keeps I (onDecoder x) := by
  refine Maintains.zoom ?_ ?_ x
  · exact fun _ _ h => h
  · exact fun _ _ h => h

theorem keeps_fromStream (x : StreamM α) : Keeps I (fromStream x) := keeps_onDecoder _

theorem keeps_throw (e : Failure) : Keeps I (throw e : ReaderM α) := .throw fun _ h => h

theorem Keeps.ignore {x : ReaderM α} (hx : Keeps I x) : Keeps I (ignore x) :=
  hx.bind fun _ => .pure _

theorem keeps_throwIf (c : Prop) [Decidable c] (e : Failure) : Keeps I (throwIf c e) :=
  .throwIf fun _ h => h

namespace Closed

theorem checked (h : Closed allowed I) {minSize : Nat} (hm : 0 < minSize) (origin : Origin)
    {f : Nat → ReaderM α} (hf : ∀ n, Keeps I (f n)) : Keeps I (do
      let sz ← fromStream (readAndCheckSeqSize m minSize)
      create origin sz
      f sz) := by
  intro r hr
  simp only [fromStream, onDecoder, Decoder.onStream, wp_bind, wp_zoom]
  refine wp_mono (readAndCheckSeqSize_le hm _) (fun n s hn => ?_) fun _ _ _ => hr
  exact hf n _ (h _ _ (.inl hn) hr)

end Closed

theorem keeps_readReference (hops : OpsKeep I ops) (o : ObjId) (t : TypeId) :
    Keeps I (readReference ops o t) := by
  refine .bind .get fun r => ?_
  split
  · exact keeps_throw _
  · exact (keeps_onDecoder _).bind fun _ => (keeps_onDecoder _).bind fun _ =>
      (hops.read _ _).bind fun _ => .pure _

theorem keeps_entries {readKey : ReaderM α} {readValue : ReaderM β} (hkey : Keeps I readKey)
    (hvalue : Keeps I readValue) (n : Nat) : Keeps I (repeatM n do
      let k ← readKey
      let v ← readValue
      return (k, v)) :=
  .repeatM (hkey.bind fun _ => hvalue.bind fun _ => .pure _) n

theorem keeps_readDictionary (h : Closed allowed I) {key value : DataType}
    (ht : allowed (.dictionary key value)) {same : α → α → Bool} {readKey : ReaderM α}
    {readValue : ReaderM β} (hkey : Keeps I readKey) (hvalue : Keeps I readValue) :
    Keeps I (readDictionary m key value same readKey readValue) := by
  refine .bind (keeps_fromStream _) fun n => .bind ?_ fun _ =>
    (keeps_entries hkey hvalue n).bind fun _ => .pure _
  unfold runIf
  split
  · rename_i hc
    exact .modify fun _ hr => h _ _ (.inr ⟨_, ht, hc.2, rfl⟩) hr
  · exact .pure _

mutual

theorem keeps_readType (h : Closed allowed I) (hops : OpsKeep I ops) (o : ObjId) :
    ∀ t : DataType, t.All allowed → Keeps I (readType cfg ops o t)
  | .numeric _, _ | .bool, _ | .string, _ | .enum _, _ | .proxy, _ => by
    exact keeps_fromStream _
  | .cls t, _ => by
    unfold readType
    exact keeps_readReference hops o t
  | .struct members, ht => by
    exact keeps_readMembers h hops o members ht.2
  | .sequence element, ht => by
    unfold readType
    exact h.checked element.minWireSize_pos _ fun n =>
      .repeatM (keeps_readType h hops o element ht.2) n
  | .dictionary key value, ht => by
    exact keeps_readDictionary h ht.1 (keeps_readType h hops o key ht.2.1)
      (keeps_readType h hops o value ht.2.2)

theorem keeps_readMembers (h : Closed allowed I) (hops : OpsKeep I ops) (o : ObjId) :
    ∀ ms : Members, ms.All allowed → Keeps I (readMembers cfg ops o ms)
  | .last type, ht => by
    exact keeps_readType h hops o type ht
  | .cons type rest, ht => by
    unfold readMembers
    exact (keeps_readType h hops o type ht.1).bind fun _ =>
      (keeps_readMembers h hops o rest ht.2).bind fun _ => .pure _

end

/-- The loop `forEach`, for what holds of the elements of the list. -/
theorem keeps_forEach {f : β → ReaderM Unit} {l : List β} (hf : ∀ a ∈ l, Keeps I (f a)) :
    Keeps I (forEach l f) := by
  induction l with
  | nil => exact .pure _
  | cons a l ih =>
    exact (hf a (List.mem_cons_self ..)).bind fun _ => ih fun b hb =>
      hf b (List.mem_cons_of_mem _ hb)

theorem keeps_iceRead (h : Closed allowed I) (hops : OpsKeep I ops) (o : ObjId)
    {c : GeneratedClass} (hc : GeneratedClass.All allowed c) : Keeps I (iceRead cfg ops o c) := by
  refine (keeps_onDecoder _).bind fun _ => (hops.startInstance _).bind fun _ => ?_
  refine .bind (keeps_forEach fun s hs => ?_) fun _ =>
    (keeps_onDecoder _).bind fun _ => hops.endInstance o
  have hmembers : Keeps I (forEach s.members fun t => ignore (readType cfg ops o t)) :=
    keeps_forEach fun t ht => .ignore (keeps_readType h hops o t ((hc s hs).1 t ht))
  have hoptionals : Keeps I (forEach s.optionals fun e =>
      ignore (readOptionalType cfg ops o e.1 e.2)) := by
    refine keeps_forEach fun e he =>
      .ignore ((hops.readOptional _ _).bind fun present => .ite ?_ (.pure _))
    exact (keeps_fromStream _).bind fun _ =>
      (keeps_readType h hops o e.2 ((hc s hs).2 e he)).bind fun _ => .pure _
  exact (keeps_onDecoder _).bind fun _ => hops.startSlice.bind fun _ => hmembers.bind fun _ =>
    hoptionals.bind fun _ => (keeps_onDecoder _).bind fun _ => hops.endSlice

theorem keeps_unmarshal (index : Nat) (o : ObjId) {x : ReaderM Unit} (hx : Keeps I x) :
    Keeps I (unmarshal cfg index o x) :=
  (keeps_onDecoder _).bind fun _ => hx.bind fun _ => keeps_onDecoder _

theorem keeps_readIndirectionTable (h : Closed allowed I) (hrec : ∀ i cb, Keeps I (rec i cb)) :
    Keeps I (readIndirectionTable m rec) :=
  h.checked Nat.one_pos _ fun n =>
    .repeatM ((keeps_fromStream _).bind fun index => hrec index none) n

theorem keeps_endSlice11 (h : Closed allowed I) (hrec : ∀ i cb, Keeps I (rec i cb)) :
    Keeps I (endSlice11 m rec) := by
  refine (keeps_onDecoder _).bind fun _ => .bind (.runIf (keeps_fromStream _)) fun _ => .runIf ?_
  exact (keeps_readIndirectionTable h hrec).bind fun _ => (keeps_throwIf _ _).bind fun _ =>
    (keeps_onDecoder _).bind fun _ => (keeps_throwIf _ _).bind fun _ =>
    (keeps_onDecoder _).bind fun _ => keeps_onDecoder _

theorem keeps_skipSlice11 (h : Closed allowed I) (hrec : ∀ i cb, Keeps I (rec i cb)) :
    Keeps I (skipSlice11 m rec) := by
  have htable : ∀ flags, Keeps I (skippedTable m rec flags) := fun _ =>
    .ite (keeps_readIndirectionTable h hrec) (.pure _)
  exact (keeps_onDecoder _).bind fun _ => (keeps_onDecoder _).bind fun _ =>
    (keeps_onDecoder _).bind fun _ => .bind (.runIf (keeps_onDecoder _)) fun _ =>
    (htable _).bind fun _ => keeps_onDecoder _

theorem keeps_read11 (hrec : ∀ i cb, Keeps I (rec i cb)) (t : Target) (expected : TypeId) :
    Keeps I (read11 rec t expected) := by
  have hcall : ∀ i, Keeps I (rec i (some (t, expected)) >>= fun _ => pure ()) := fun i =>
    (hrec i _).bind fun _ => .pure _
  refine (keeps_fromStream _).bind fun index => .ite (keeps_onDecoder _) (.bind .get fun r => ?_)
  split
  · exact hcall index
  · exact (keeps_onDecoder _).bind fun _ => .ite (keeps_onDecoder _) (hcall index)

theorem opsKeep_ops11 (h : Closed allowed I) (hrec : ∀ i cb, Keeps I (rec i cb)) :
    OpsKeep I (ops11 m rec) where
  read := keeps_read11 hrec
  startInstance := fun _ => keeps_onDecoder _
  endInstance := fun _ => keeps_onDecoder _
  startSlice := keeps_onDecoder _
  endSlice := keeps_endSlice11 h hrec
  readOptional := fun _ _ => keeps_onDecoder _

/-- The loop over the slices keeps `I`, and finds a class that the Slice loader knows, or one
    without members. -/
theorem sliceLoop_spec (h : Closed allowed I) (hcfg : cfg.All allowed)
    (hrec : ∀ i cb, Keeps I (rec i cb)) (id : TypeId) (n : Nat) (r : Reader) (hr : I r.creations) :
    wp (sliceLoop cfg rec id n) (fun c r' => I r'.creations ∧ GeneratedClass.All allowed c.1)
      (fun _ r' => I r'.creations) r := by
  induction n generalizing r with
  | zero => exact hr
  | succ n ih =>
    refine wp_seq (keeps_onDecoder _ r hr) fun header r1 h1 => ?_
    split
    · rename_i c hc
      have hfound : cfg.classes header.typeId = some c := by
        unfold ReaderConfig.findClass at hc
        split at hc
        · cases hc
        · exact hc
      exact ⟨h1, hcfg _ _ hfound⟩
    · refine wp_seq (keeps_skipSlice11 h hrec r1 h1) fun _ r2 h2 => ?_
      refine wp_seq (keeps_onDecoder _ r2 h2) fun header' r3 h3 => ?_
      split
      · refine ⟨h3, ?_⟩
        unfold ReaderConfig.lastChance
        split
        · exact hcfg _ _ ‹_›
        · exact List.forall_mem_nil _
      · rw [wp_bind]
        exact wp_post (keeps_onDecoder _ r3 h3) fun _ r4 h4 => ih r4 h4

theorem keeps_readInline (h : Closed allowed I) (hcfg : cfg.All allowed)
    (hrec : ∀ i cb, Keeps I (rec i cb)) : Keeps I (readInline cfg rec) := by
  refine (keeps_onDecoder _).bind fun index => (keeps_onDecoder _).bind fun header =>
    .get_bind fun r hr => ?_
  refine wp_seq (sliceLoop_spec h hcfg hrec _ _ r hr) fun found r1 h1 => ?_
  have hread : Keeps I (iceRead cfg (ops11 cfg.mapping rec) index found.1) :=
    keeps_iceRead h (opsKeep_ops11 h hrec) index h1.2
  exact ((keeps_onDecoder _).bind fun _ => (keeps_unmarshal index index hread).bind fun _ =>
    (keeps_onDecoder _).bind fun _ => .pure _) r1 h1.1

theorem keeps_readInstance11 (h : Closed allowed I) (hcfg : cfg.All allowed) (fuel index : Nat)
    (cb : Option (Target × TypeId)) : Keeps I (readInstance11 cfg fuel index cb) := by
  induction fuel generalizing index cb with
  | zero => exact keeps_throw _
  | succ fuel ih =>
    refine .ite (keeps_throw _) (.ite ?_ ?_)
    · exact (keeps_onDecoder _).bind fun _ => .pure _
    · exact (keeps_readInline h hcfg ih).bind fun _ => (keeps_onDecoder _).bind fun _ => .pure _

theorem opsKeep_ops10 : OpsKeep I (ops10 m) where
  read := fun _ _ => keeps_onDecoder _
  startInstance := fun _ => keeps_onDecoder _
  endInstance := fun _ => keeps_onDecoder _
  startSlice := keeps_onDecoder _
  endSlice := .pure _
  readOptional := fun _ _ => .pure _

/-- The class that the loop over the slices of the 1.0 encoding finds. -/
theorem sliceLoop10_spec (hcfg : cfg.All allowed) (n : Nat) (d : Decoder) :
    wp (sliceLoop10 cfg n) (fun c _ => GeneratedClass.All allowed c) (fun _ _ => True) d := by
  induction n generalizing d with
  | zero => trivial
  | succ n ih =>
    simp only [sliceLoop10, wp_bind, wp_throwIf]
    refine wp_mono (wp_run _ d) (fun id d1 _ => ⟨fun _ => trivial, fun _ => ?_⟩)
      fun _ _ _ => trivial
    split
    · exact hcfg _ _ ‹_›
    · simp only [wp_bind]
      refine wp_mono (wp_run _ d1) (fun _ d2 _ => ?_) fun _ _ _ => trivial
      exact wp_mono (wp_run _ d2) (fun _ d3 _ => ih d3) fun _ _ _ => trivial

theorem startInstanceData10_spec (hcfg : cfg.All allowed) (d : Decoder) :
    wp (startInstanceData10 cfg) (fun found _ => GeneratedClass.All allowed found.2)
      (fun _ _ => True) d := by
  simp only [startInstanceData10, wp_bind, wp_throwIf, wp_modify, wp_get, wp_pure]
  refine wp_mono (wp_run _ d) (fun index d1 _ => ⟨fun _ => trivial, fun _ => ?_⟩)
    fun _ _ _ => trivial
  refine wp_mono (wp_run _ _) (fun _ d2 _ => ?_) fun _ _ _ => trivial
  exact sliceLoop10_spec hcfg _ d2

theorem keeps_readInstance10 (h : Closed allowed I) (hcfg : cfg.All allowed) :
    Keeps I (readInstance10 cfg) := by
  intro r hr
  simp only [readInstance10, wp_bind, onDecoder, wp_zoom]
  refine wp_mono (startInstanceData10_spec hcfg _) (fun found d hc => ?_) fun _ _ _ => hr
  refine wp_mono (wp_run _ d) (fun o d' _ => ?_) fun _ _ _ => hr
  exact keeps_unmarshal _ o (keeps_iceRead h opsKeep_ops10 o hc) _ hr

theorem keeps_pendingLoop (h : Closed allowed I) (hcfg : cfg.All allowed) (n : Nat) :
    Keeps I (pendingLoop cfg n) := by
  induction n with
  | zero => exact keeps_throw _
  | succ n ih =>
    exact (keeps_fromStream _).bind fun num =>
      .bind (.repeatM (keeps_readInstance10 h hcfg) num) fun _ => .runIf ih

/-- Every run of the readers of types in `allowed` preserves `I`. -/
theorem keeps_readParams (h : Closed allowed I) (hcfg : cfg.All allowed) (fuel : Nat)
    {types : List DataType} (htypes : ∀ t ∈ types, t.All allowed) :
    Keeps I (readParams cfg fuel types) := by
  have hforEach : ∀ {ops}, OpsKeep I ops →
      Keeps I (forEach types fun t => ignore (readType cfg ops frameId t)) := fun hops =>
    keeps_forEach fun t ht => .ignore (keeps_readType h hops frameId t (htypes t ht))
  refine (keeps_fromStream _).bind fun _ => (keeps_fromStream _).bind fun e => .ite ?_ ?_
  · refine (hforEach opsKeep_ops10).bind fun _ => .bind .get fun r =>
      .ite (.bind .get fun r => ?_) (keeps_fromStream _)
    exact (keeps_pendingLoop h hcfg _).bind fun _ => .bind .get fun _ => keeps_throwIf _ _
  · exact hforEach (opsKeep_ops11 h (keeps_readInstance11 h hcfg fuel))

end Walk

/-! ### The bound -/

/-- The collections created while an encapsulation with variables of the given types is read. -/
def creations (cfg : ReaderConfig P) (fuel : Nat) (types : List DataType) (data : List UInt8) :
    List Creation :=
  (finalState (readParams cfg fuel types (.start data))).creations

/-- Every creation fits or is the array of the entries of a dictionary of instances, one of those in
    the types and classes. -/
theorem fits_or_classDictionary {allowed : DataType → Prop} {cfg : ReaderConfig P}
    (hcfg : cfg.All allowed) {fuel : Nat} {types : List DataType} {data : List UInt8}
    (htypes : ∀ t ∈ types, t.All allowed) : ∀ c ∈ creations cfg fuel types data,
      c.Fits ∨ ∃ t, allowed t ∧ t.isClassDictionary = true ∧ c.origin = .reader t := by
  have hclosed : Closed allowed fun l => ∀ c ∈ l, c.Fits ∨
      ∃ t, allowed t ∧ t.isClassDictionary = true ∧ c.origin = .reader t := by
    intro l c hc hl
    exact List.forall_mem_append.mpr ⟨hl, List.forall_mem_singleton.mpr hc⟩
  exact wp_finalState (keeps_readParams hclosed hcfg fuel htypes _ (List.forall_mem_nil _))

/-- An encapsulation whose body is the size `2147483647`. -/
def hugeSize : List UInt8 := [11, 0, 0, 0, 1, 1, 255, 255, 255, 255, 127]

/-- A Slice loader that knows no class, and a peer that sends no proxies. -/
def noClasses (P : Type) : ReaderConfig P where
  mapping := .swift
  normalForm := id
  classes := fun _ => none
  acceptClassCycles := false
  classGraphDepthMax := 10
  readProxy := endOfBuffer

/-- The reader at a position of `hugeSize` behind the header. -/
def atHugeSize (pos : Nat) : Reader where
  decoder := { stream := { data := hugeSize, pos := pos, encaps := some ⟨0, 11, false⟩ } }

/-- The array that the reader of a dictionary of instances creates for `hugeSize`. -/
def hugeArray (key value : DataType) : Creation := ⟨.reader (.dictionary key value), 2147483647, 0⟩

theorem closed_mem (c : Creation) : Closed (fun _ => True) fun l => c ∈ l :=
  fun _ _ _ hl => List.mem_append_left _ hl

/-- The reader of a dictionary of instances creates an array of the size it has read. -/
theorem readDictionary_hugeSize {key value : DataType} (h : value.isClassType = true)
    {same : α → α → Bool} {readKey : ReaderM α} {readValue : ReaderM β}
    (hkey : Keeps (fun l => hugeArray key value ∈ l) readKey)
    (hvalue : Keeps (fun l => hugeArray key value ∈ l) readValue) :
    wp (readDictionary .swift key value same readKey readValue)
      (fun _ r => hugeArray key value ∈ r.creations) (fun _ r => hugeArray key value ∈ r.creations)
      (atHugeSize 6) := by
  have hsize : fromStream readSize (atHugeSize 6) = .ok 2147483647 (atHugeSize 11) := rfl
  rw [readDictionary, wp_bind, wp_eq_of_ok hsize, wp_bind, runIf, if_pos ⟨rfl, h⟩, create,
    wp_modify]
  exact ((keeps_entries hkey hvalue _).bind fun _ => .pure _) _ (List.mem_singleton_self _)

theorem mem_creations_hugeSize {key value : DataType} (h : value.isClassType = true) :
    hugeArray key value ∈ creations (noClasses P) 0 [.dictionary key value] hugeSize := by
  have hops : OpsKeep (fun l => hugeArray key value ∈ l)
      (ops11 .swift (readInstance11 (noClasses P) 0)) :=
    opsKeep_ops11 (closed_mem _) fun _ _ => keeps_throw _
  have hall : ∀ t : DataType, t.All fun _ => True := DataType.all_of_forall fun _ => trivial
  have hstart : fromStream (startEncapsulation .swift) (.start hugeSize) = .ok () (atHugeSize 6) :=
    rfl
  have hencaps : fromStream currentEncaps (atHugeSize 6) = .ok ⟨0, 11, false⟩ (atHugeSize 6) := rfl
  have hrun : wp (readParams (noClasses P) 0 [.dictionary key value])
      (fun _ r => hugeArray key value ∈ r.creations)
      (fun _ r => hugeArray key value ∈ r.creations) (.start hugeSize) := by
    simp only [readParams, noClasses, wp_bind]
    rw [wp_eq_of_ok hstart, wp_eq_of_ok hencaps]
    simp only [readParams11, forEach, ignore, wp_bind, Bool.false_eq_true, if_false]
    exact readDictionary_hugeSize h
      (keeps_readType (closed_mem _) hops frameId key (hall key))
      (keeps_readType (closed_mem _) hops frameId value (hall value))
  exact wp_finalState hrun

/-- What the readers of Swift create fits if no type and no class has a dictionary of instances, and
    the collections of one origin fit in all runs exactly if that origin is not the reader of such a
    dictionary. -/
theorem creations_fit_iff (P : Type) :
    (∀ (cfg : ReaderConfig P) (fuel : Nat) (types : List DataType) (data : List UInt8),
      cfg.mapping = .swift → cfg.All (fun t => t.isClassDictionary = false) →
      (∀ t ∈ types, t.All fun t => t.isClassDictionary = false) →
      ∀ c ∈ creations cfg fuel types data, c.count ≤ c.remaining) ∧ ∀ origin : Origin,
      (∀ (cfg : ReaderConfig P) (fuel : Nat) (types : List DataType) (data : List UInt8),
        cfg.mapping = .swift →
        ∀ c ∈ creations cfg fuel types data, c.origin = origin → c.count ≤ c.remaining) ↔
      ∀ key id, origin ≠ .reader (.dictionary key (.cls id)) := by
  refine ⟨fun cfg fuel types data _ hcfg htypes c hc => ?_, fun origin => ⟨?_, ?_⟩⟩
  · obtain hfits | ⟨t, hfree, ht, -⟩ := fits_or_classDictionary hcfg htypes c hc
    · exact hfits
    · rw [hfree] at ht
      cases ht
  · rintro hall key id rfl
    have hle := hall (noClasses P) 0 [.dictionary key (.cls id)] hugeSize rfl _
      (mem_creations_hugeSize rfl) rfl
    exact absurd hle (Nat.not_succ_le_zero 2147483646)
  · intro hne cfg fuel types data _ c hc horigin
    have hcfg : cfg.All fun _ => True := fun _ _ _ _ _ =>
      ⟨fun t _ => t.all_of_forall fun _ => trivial, fun e _ => e.2.all_of_forall fun _ => trivial⟩
    obtain hfits | ⟨t, -, ht, heq⟩ := fits_or_classDictionary hcfg
      (fun t _ => t.all_of_forall fun _ => trivial) c hc
    · exact hfits
    · cases t with
      | dictionary key value =>
        cases value with
        | cls id => exact absurd (horigin.symm.trans heq) (hne key id)
        | _ => cases ht
      | _ => cases ht

/-- A Slice loader that knows the class `A`, with a member of type `sequence<short>`. -/
def shortsClass : ReaderConfig Unit where
  __ := noClasses Unit
  classes := fun id => if id = [65] then
    some [⟨[65], none, [.sequence (.numeric .short)], []⟩] else none

/-- An encapsulation with an instance of `A` whose member has two elements. -/
def twoShorts : List UInt8 :=
  [19, 0, 0, 0, 1, 1] ++ [1, 0x31, 1, 65, 9, 0, 0, 0] ++ [2, 5, 0, 6, 0]

/-- The sequence is created when its four bytes are left. -/
theorem creations_fit_iff_twoShorts :
    (creations shortsClass 20 [.cls objectTypeId] twoShorts).map (fun c => (c.count, c.remaining)) =
        [(2, 4)] ∧
      ∀ c ∈ creations shortsClass 20 [.cls objectTypeId] twoShorts, c.count ≤ c.remaining := by
  refine ⟨by decide +kernel, (creations_fit_iff Unit).1 _ _ _ _ rfl (fun id c hc => ?_) ?_⟩
  · obtain ⟨-, rfl⟩ : id = [65] ∧ [⟨[65], none, [.sequence (.numeric .short)], []⟩] = c := by
      simpa [shortsClass] using hc
    simp [GeneratedClass.All, DataType.All, DataType.isClassDictionary]
  · exact List.forall_mem_singleton.mpr rfl

/-- A `dictionary<int, Value>` from an encapsulation of 11 bytes: an array of 2147483647 entries is
    created when no byte is left. -/
theorem dictEntryArray_exceeds_buffer :
    ∃ c ∈ creations (noClasses Unit) 0 [.dictionary (.numeric .int) (.cls objectTypeId)] hugeSize,
      c.count = 2147483647 ∧ c.remaining = 0 :=
  ⟨_, mem_creations_hugeSize rfl, rfl, rfl⟩

end Ice.Slice
