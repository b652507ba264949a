import Ice.Classes.Decoder10

/-!
# Nesting of `readInstance`

`EncapsDecoder11::readInstance` compares `_classGraphDepth` with its limit only after the loop that
slices off unknown types, and this loop recurses into `readInstance` for the indirection tables of
the slices that it skips. So the number of nested inline activations is bounded by the limit only
together with the number of activations that are reading such a table (`readInstance11_level`).
-/

namespace Ice

open Decoder

/-- The counters that only `readInstance` and its loop change. -/
def Decoder.counters (d : Decoder) : Nat × Nat × Nat × Nat × Nat :=
  (d.active, d.maxActive, d.skipping, d.maxSkipping, d.classGraphDepth)

/-- `I` is a property of the counters, and it implies `E`. -/
structure OnCounters (I : Decoder → Prop) (E : Failure → Decoder → Prop) : Prop where
  of_eq : ∀ {d d' : Decoder}, d.counters = d'.counters → I d → I d'
  throws : ∀ {e : Failure}, ∀ d, I d → E e d

theorem maintains_patchIfAny {I : Decoder → Prop} {E : Failure → Decoder → Prop}
    (cb : Option (Target × TypeId)) {f : Target → TypeId → DecoderM Unit}
    (hf : ∀ t e, Maintains I E (f t e)) : Maintains I E (patchIfAny cb f) := by
  unfold patchIfAny
  split
  · exact hf _ _
  · exact .pure _

namespace OnCounters

variable {I : Decoder → Prop} {E : Failure → Decoder → Prop} {m : Mapping} {cfg : DecoderConfig}
  {rec : ReadInstance}

section

variable (h : OnCounters I E)
include h

theorem onStream {α : Type} (x : StreamM α) : Maintains I E (onStream x) := by
  refine Maintains.zoom ?_ ?_ x
  · exact fun s d hd => h.of_eq (d := d) rfl hd
  · exact fun e d hd => h.throws d hd

theorem modifyObj (o : ObjId) (f : Obj → Obj) {d : Decoder} (hd : I d) :
    I (d.modifyObj o f) := h.of_eq (d := d) rfl hd

theorem modifyCurrent (f : InstanceData → InstanceData) : Maintains I E (modifyCurrent f) := by
  refine .bind .get fun d => ?_
  split
  · exact .modify fun d hd => h.of_eq (d := d) rfl hd
  · exact .throw h.throws

theorem currentInstance : Maintains I E currentInstance := by
  refine .bind .get fun d => ?_
  split
  · exact .pure _
  · exact .throw h.throws

theorem currentHeader : Maintains I E currentHeader := by
  refine h.currentInstance.bind fun c => ?_
  split
  · exact .pure _
  · exact .throw h.throws

theorem readTypeId (isIndex : Bool) : Maintains I E (readTypeId m isIndex) := by
  refine .ite ?_ ?_
  · refine (h.onStream _).bind fun index => .bind .get fun d => ?_
    split
    · exact .pure _
    · exact .throw h.throws
  · exact (h.onStream _).bind fun t =>
      .bind (.modify fun d hd => h.of_eq (d := d) rfl hd) fun _ => .pure _

theorem store (t : Target) (v : Option ObjId) (late : Bool) : Maintains I E (store t v late) := by
  cases t with
  | slot o k | sliced o n j =>
    refine .modify fun d hd => ?_
    cases v <;> cases late <;> exact h.of_eq (d := d) rfl hd
  | slicedClosure n =>
    refine .bind .get fun d => ?_
    split
    · exact .throw h.throws
    · refine .ite ?_ (.throw h.throws)
      split
      · exact .throw h.throws
      · exact .modify fun d hd => h.of_eq (d := d) rfl hd

theorem patch (t : Target) (expected : TypeId) (v : Option ObjId)
    (late : Bool) : Maintains I E (patch t expected v late) := by
  unfold Ice.patch
  cases v with
  | none => exact h.store _ _ _
  | some o =>
    refine .bind .get fun d => ?_
    split
    · exact .throw h.throws
    · exact .ite (h.store _ _ _) (.throw h.throws)

theorem addPatchEntry (index : Nat) (t : Target) (expected : TypeId) :
    Maintains I E (addPatchEntry index t expected) := by
  refine .bind (.throwIf h.throws) fun _ => .get_bind fun d hd => ?_
  split
  · exact h.throws _ hd
  · exact h.patch _ _ _ _ d hd
  · exact h.of_eq (d := d) rfl hd

theorem unmarshal (cfg : DecoderConfig) (index : Nat) (o : ObjId) {iceRead : DecoderM Unit}
    (hread : Maintains I E iceRead) : Maintains I E (unmarshal cfg index o iceRead) := by
  refine .bind (.modify fun d hd => ?_) fun _ => hread.bind fun _ =>
    .bind (.modify fun d hd => h.of_eq (d := d) rfl hd) fun _ => .bind .get fun d =>
    .bind (.forEach _ fun e => h.patch _ _ _ _) fun _ =>
    .bind (.modify fun d hd => h.of_eq (d := d) rfl hd) fun _ => .bind (.modify fun d hd => ?_)
    fun _ => .runIf (.modify fun d hd => h.of_eq (d := d) rfl hd)
  · unfold registerInstance
    dsimp only
    split
    · exact hd
    · exact h.of_eq (d := d) rfl hd
  · split <;> exact h.of_eq (d := d) rfl hd

theorem requireDecoder : Maintains I E requireDecoder :=
  .bind .get fun _ => .throwIf h.throws

theorem startSlice11 : Maintains I E (startSlice11 m) := by
  have hid : ∀ st flags, Maintains I E (readSliceTypeId m st flags) := fun st flags =>
    .ite (.ite ((h.onStream _).bind fun _ => .pure _)
      (.ite ((h.readTypeId _).bind fun _ => .pure _) (.pure _)))
      ((h.onStream _).bind fun _ => .pure _)
  exact h.currentInstance.bind fun c => .ite (h.modifyCurrent _) <|
    (h.onStream _).bind fun flags => (hid _ _).bind fun id => (h.onStream _).bind fun _ =>
    h.modifyCurrent _

section

variable (hrec : ∀ i, Maintains I E (rec i none))
include hrec

theorem readIndirectionTable : Maintains I E (readIndirectionTable m rec) :=
  (h.onStream _).bind fun _ => .repeatM ((h.onStream _).bind fun i => hrec i) _

theorem endSlice11 : Maintains I E (endSlice11 m rec) := by
  have hres : ∀ table e, Maintains I E (resolveIndirect table e) := by
    intro table e
    unfold resolveIndirect
    split
    · exact .throw h.throws
    · exact h.addPatchEntry _ _ _
  have htable : ∀ flags, Maintains I E (endSliceTable m rec flags) := fun flags =>
    (h.readIndirectionTable hrec).bind fun table => .bind (.throwIf h.throws) fun _ =>
    h.currentInstance.bind fun c => .bind (.throwIf h.throws) fun _ =>
    .bind (.forEach _ fun e => hres table e) fun _ => h.modifyCurrent _
  exact h.currentHeader.bind fun hd => .bind (.runIf (h.onStream _)) fun _ => .runIf (htable _)

theorem skipSlice11 : Maintains I E (skipSlice11 m rec) := by
  have hbody : ∀ hd, Maintains I E (skipSliceBody hd) := fun hd =>
    .bind (.throwIf h.throws) fun _ => .bind (.throwIf h.throws) fun _ => .bind .get fun _ =>
    (h.onStream _).bind fun _ => .pure _
  have hkeep : ∀ hd bytes, Maintains I E (preserveSlice hd bytes) := fun hd bytes =>
    .bind (.throwIf h.throws) fun _ => h.modifyCurrent _
  have htable : ∀ flags, Maintains I E (skippedTable m rec flags) := fun flags =>
    .ite (h.readIndirectionTable hrec) (.pure _)
  exact h.currentInstance.bind fun c => h.currentHeader.bind fun hd => (hbody hd).bind fun bytes =>
    .bind (.runIf (hkeep _ _)) fun _ => (htable _).bind fun _ => h.modifyCurrent _

end

theorem endInstance11 (o : ObjId) : Maintains I E (endInstance11 m o) := by
  have hsliced : ∀ n j i, Maintains I E (patchSliced m o n j i) := by
    intro n j i
    cases m <;> exact h.addPatchEntry _ _ _
  have hslice : ∀ n table, Maintains I E (patchSlice m o n table) := fun n table =>
    .bind (.runIf (h.modifyCurrent _)) fun _ => .forEach _ fun e => hsliced _ _ _
  have hslices : ∀ c, Maintains I E (patchSlices m o c) := by
    intro c
    cases m with
    | cpp =>
      exact .bind (.modify fun d hd => h.modifyObj _ _ hd) fun _ => .forEach _ fun e => hslice _ _
    | swift =>
      exact .bind (.forEach _ fun e => hslice _ _) fun _ => h.currentInstance.bind fun c =>
        .modify fun d hd => h.of_eq (d := d) rfl hd
  refine .bind (h.currentInstance.bind fun c => .ite (.pure _)
    (.bind (.throwIf h.throws) fun _ => hslices c)) fun _ => .bind .get fun d => ?_
  split
  · exact .throw h.throws
  · exact .modify fun d hd => h.of_eq (d := d) rfl hd

theorem read11 (hrec : ∀ i cb, Maintains I E (rec i cb)) (t : Target)
    (expected : TypeId) : Maintains I E (read11 rec t expected) := by
  refine (h.onStream _).bind fun i => .ite (h.patch _ _ _ _) (.bind .get fun d => ?_)
  split
  · exact (hrec _ _).bind fun _ => .pure _
  · exact h.currentHeader.bind fun hd => .ite (h.modifyCurrent _) ((hrec _ _).bind fun _ => .pure _)

end

/-- Every operation of a decoder keeps `I`. -/
structure OpsMaintain (I : Decoder → Prop) (E : Failure → Decoder → Prop) (ops : DecoderOps) :
    Prop where
  read : ∀ t expected, Maintains I E (ops.read t expected)
  startInstance : ∀ kind, Maintains I E (ops.startInstance kind)
  endInstance : ∀ o, Maintains I E (ops.endInstance o)
  startSlice : Maintains I E ops.startSlice
  endSlice : Maintains I E ops.endSlice
  readOptional : ∀ tag format, Maintains I E (ops.readOptional tag format)

theorem ops11 (h : OnCounters I E) (hrec : ∀ i cb, Maintains I E (rec i cb)) :
    OpsMaintain I E (ops11 m rec) where
  read := h.read11 hrec
  startInstance _ := h.currentInstance.bind fun _ => .bind (.throwIf h.throws) fun _ =>
    h.modifyCurrent _
  endInstance := h.endInstance11
  startSlice := h.startSlice11
  endSlice := h.endSlice11 fun i => hrec i none
  readOptional tag format := by
    refine .bind .get fun d => ?_
    split
    · exact h.onStream _
    · exact h.currentHeader.bind fun _ => .ite (h.onStream _) (.pure _)

theorem readField (h : OnCounters I E) {ops : DecoderOps} (hops : OpsMaintain I E ops) (o : ObjId)
    (t : FieldType) : Maintains I E (readField m ops o t) := by
  induction t with
  | fixed | enum | string => exact (h.onStream _).bind fun _ => .pure _
  | cls t =>
    refine .bind .get fun d => ?_
    split
    · exact .throw h.throws
    · exact .bind (.modify fun d hd => h.of_eq (d := d) rfl hd) fun _ =>
        .bind (.modify fun d hd => h.of_eq (d := d) rfl hd) fun _ =>
        (hops.read _ _).bind fun _ => .pure _
  | seq t ih =>
    refine (h.onStream _).bind fun sz => .bind ?_ fun _ => .pure _
    induction sz with
    | zero => exact .pure _
    | succ n ihn => exact ih.bind fun _ => ihn.bind fun _ => .pure _
  | pair a b iha ihb => exact iha.bind fun _ => ihb.bind fun _ => .pure _

theorem iceRead (h : OnCounters I E) {ops : DecoderOps} (hops : OpsMaintain I E ops)
    (kind : SliceType) (o : ObjId) (c : ClassDef) : Maintains I E (iceRead m ops kind o c) := by
  have hopt : ∀ tag t, Maintains I E (readOptionalField m ops o tag t) := fun tag t =>
    (hops.readOptional _ _).bind fun _ => .ite
      ((h.onStream _).bind fun _ => (h.readField hops o _).bind fun _ => .pure _) (.pure _)
  have hslice : ∀ s, Maintains I E (readSlice m ops o s) := fun s =>
    h.requireDecoder.bind fun _ => hops.startSlice.bind fun _ =>
    .bind (.mapEach _ fun t => h.readField hops o t) fun _ =>
    .bind (.mapEach _ fun e => hopt _ _) fun _ => h.requireDecoder.bind fun _ =>
    hops.endSlice.bind fun _ => .modify fun d hd => h.modifyObj _ _ hd
  exact h.requireDecoder.bind fun _ => (hops.startInstance _).bind fun _ =>
    .bind (.forEach _ fun s => hslice s) fun _ => h.requireDecoder.bind fun _ =>
    hops.endInstance _

end OnCounters

/-- The largest number of nested inline activations so far is within the limit `max`, up to the
    largest number of activations that were skipping a slice. -/
def Bounded (max : Nat) (_ : Failure) (d : Decoder) : Prop := d.maxActive ≤ max + 1 + d.maxSkipping

/-- The decoder is bounded and its counters have the given values. -/
structure Level (max active skipping depth : Nat) (d : Decoder) : Prop where
  active : d.active = active
  skipping : d.skipping = skipping
  depth : d.classGraphDepth = depth
  bounded : d.maxActive ≤ max + 1 + d.maxSkipping

theorem level_onCounters (max active skipping depth : Nat) :
    OnCounters (Level max active skipping depth) (Bounded max) where
  of_eq := by
    intro d d' heq h
    simp only [Decoder.counters, Prod.mk.injEq] at heq
    exact ⟨heq.1 ▸ h.active, heq.2.2.1 ▸ h.skipping, heq.2.2.2.2 ▸ h.depth,
      heq.2.1 ▸ heq.2.2.2.1 ▸ h.bounded⟩
  throws := fun d h => h.bounded

/-- A recursive call for a slice that is skipped runs one level of skipping deeper. -/
theorem whileSkipping_level {max a k c : Nat} {rec : ReadInstance} {i : Nat}
    (hrec : Maintains (Level max a (k + 1) c) (Bounded max) (rec i none)) :
    Maintains (Level max a k c) (Bounded max) (whileSkipping rec i none) := by
  intro d h
  simp only [whileSkipping, wp_bind, wp_modify, wp_pure]
  refine wp_post (hrec _ { h with skipping := by simp [h.skipping] }) fun j d' h' => ?_
  exact { h' with skipping := by simp [h'.skipping] }

theorem sliceLoop_level {cfg : DecoderConfig} {max a k c : Nat} {rec : ReadInstance}
    (hrec : ∀ i, Maintains (Level max a (k + 1) c) (Bounded max) (rec i none)) (id : TypeId)
    (n : Nat) : Maintains (Level max a k c) (Bounded max) (sliceLoop cfg rec id n) := by
  have h := level_onCounters max a k c
  induction n with
  | zero => exact .throw h.throws
  | succ n ih =>
    refine h.currentHeader.bind fun hd => ?_
    split
    · exact .pure _
    · exact (h.skipSlice11 fun i => whileSkipping_level (hrec i)).bind fun _ =>
        h.currentHeader.bind fun hd => .ite (.pure _) (h.startSlice11.bind fun _ => ih)

/-- One inline activation, entered with `active = depth + skipping + 1`: its loop recurses one level
    of skipping deeper, its members one level of depth deeper. -/
theorem readInline_level {cfg : DecoderConfig} {k c : Nat} {rec : ReadInstance}
    (hc : c ≤ cfg.classGraphDepthMax) (hrec : ∀ a k c i cb, a = c + k → c ≤ cfg.classGraphDepthMax →
      Maintains (Level cfg.classGraphDepthMax a k c) (Bounded cfg.classGraphDepthMax) (rec i cb)) :
    Maintains (Level cfg.classGraphDepthMax (c + k + 1) k c) (Bounded cfg.classGraphDepthMax)
      (readInline cfg rec) := by
  have h := level_onCounters cfg.classGraphDepthMax (c + k + 1) k c
  have h' := level_onCounters cfg.classGraphDepthMax (c + k + 1) k (c + 1)
  refine .bind (.modify fun d hd => h.of_eq (d := d) rfl hd) fun _ =>
    .bind (.modify fun d hd => h.of_eq (d := d) rfl hd) fun _ => .bind .get fun d0 =>
    h.startSlice11.bind fun _ => h.currentHeader.bind fun hd => .bind .get fun d1 =>
    (sliceLoop_level (fun i => hrec _ _ _ i none (by omega) hc) _ _).bind fun found =>
    .bind (.modify fun d hd => h.of_eq (d := d) rfl hd) fun _ => ?_
  intro d hd
  simp only [wp_bind, wp_modify, wp_get, wp_throwIf, wp_pure]
  refine ⟨fun _ => hd.bounded, fun hle => ?_⟩
  have hc' : c + 1 ≤ cfg.classGraphDepthMax := by
    have := hd.depth
    omega
  have hread := h'.unmarshal cfg d0.valueIdIndex d0.valueIdIndex
    (h'.iceRead (m := cfg.mapping)
      (h'.ops11 (m := cfg.mapping) fun i cb => hrec (c + k + 1) k (c + 1) i cb (by omega) hc')
      .valueSlice d0.valueIdIndex found.1)
  refine wp_post (hread _ { hd with depth := by simp [hd.depth] })
    fun _ d' hd' => ?_
  exact { hd' with depth := by simp [hd'.depth] }

/-- Every call of `readInstance` with `active = depth + skipping` keeps the counters and the
    bound. -/
theorem readInstance11_level (cfg : DecoderConfig) (fuel : Nat) :
    ∀ a k c i cb, a = c + k → c ≤ cfg.classGraphDepthMax →
      Maintains (Level cfg.classGraphDepthMax a k c) (Bounded cfg.classGraphDepthMax)
        (readInstance11 cfg fuel i cb) := by
  induction fuel with
  | zero => exact fun a k c i cb _ _ => .throw (level_onCounters _ _ _ _).throws
  | succ fuel ih =>
    intro a k c i cb ha hc
    have h := level_onCounters cfg.classGraphDepthMax a k c
    have h' := level_onCounters cfg.classGraphDepthMax (c + k + 1) k c
    refine .ite (.throw h.throws) (.ite ?_ ?_)
    · exact (maintains_patchIfAny cb fun _ _ => h.addPatchEntry _ _ _).bind fun _ => .pure _
    · intro d hd
      have henter : Level cfg.classGraphDepthMax (c + k + 1) k c (enterInline d) := by
        refine ⟨by simp [enterInline, hd.active, ha], hd.skipping, hd.depth, ?_⟩
        have := hd.bounded
        simp only [enterInline, hd.active, hd.skipping, ha]
        omega
      simp only [wp_bind, wp_modify, wp_get, wp_throwIf, wp_pure]
      refine wp_post (readInline_level hc ih _ henter) fun index d1 h1 => ?_
      refine ⟨fun _ => h1.bounded, fun _ => ?_⟩
      refine wp_post (maintains_patchIfAny cb (fun _ _ => h'.patch _ _ _ _) d1 h1) fun _ d2 h2 => ?_
      exact { h2 with active := by simp [h2.active, ha] }

theorem decode11_bounded (cfg : DecoderConfig) (fuel : Nat) (payload : Payload) (s : InputStream) :
    wp (decode11 cfg fuel payload) (fun _ d => Bounded cfg.classGraphDepthMax .outOfFuel d)
      (Bounded cfg.classGraphDepthMax) { stream := s } := by
  have h := level_onCounters cfg.classGraphDepthMax 0 0 0
  have hrec := fun i cb => readInstance11_level cfg fuel 0 0 0 i cb rfl (Nat.zero_le _)
  have hops := h.ops11 (m := cfg.mapping) hrec
  have hloop : ∀ n, Maintains (Level cfg.classGraphDepthMax 0 0 0)
      (Bounded cfg.classGraphDepthMax) (exceptionLoop11 cfg (readInstance11 cfg fuel) n) := by
    intro n
    induction n with
    | zero => exact .throw h.throws
    | succ n ih =>
      refine h.currentHeader.bind fun hd => ?_
      refine .bind (.modify fun d hd => h.of_eq (d := d) rfl hd) fun _ => ?_
      split
      · exact (h.iceRead hops _ _ _).bind fun _ => .throw h.throws
      · exact .throw h.throws
      · exact (h.skipSlice11 fun i => hrec i none).bind fun _ => h.currentHeader.bind fun hd =>
          .bind (.throwIf h.throws) fun _ => h.startSlice11.bind fun _ => ih
  have hdec : Maintains (Level cfg.classGraphDepthMax 0 0 0) (Bounded cfg.classGraphDepthMax)
      (decode11 cfg fuel payload) := by
    cases payload with
    | params types => exact .bind (.mapEach _ fun t => h.readField hops _ t) fun _ => .pure _
    | userException =>
      exact .bind (.modify fun d hd => h.of_eq (d := d) rfl hd) fun _ => .bind .get fun _ =>
        .bind (.throwIf h.throws) fun _ =>
        .bind (.modify fun d hd => h.of_eq (d := d) rfl hd) fun _ => h.startSlice11.bind fun _ =>
        .bind .get fun _ => hloop _
  exact wp_post (hdec _ ⟨rfl, rfl, rfl, Nat.zero_le _⟩) fun _ _ hd => hd.bounded

/-- If no indirection table of a slice that is being skipped holds an inline instance, then at most
    `classGraphDepthMax + 1` inline activations of `readInstance` are ever nested. -/
theorem nestedActivations_le (cfg : DecoderConfig) (fuel : Nat) (payload : Payload)
    (s : InputStream)
    (h : (finalState (decode11 cfg fuel payload { stream := s })).maxSkipping = 0) :
    (finalState (decode11 cfg fuel payload { stream := s })).maxActive ≤
      cfg.classGraphDepthMax + 1 := by
  have hb := wp_finalState (decode11_bounded cfg fuel payload s)
  simp only [Bounded, h] at hb
  exact hb

/-- A class with one member of class type. -/
def linkClass : ClassDef := [⟨[65], none, [.cls objectTypeId], []⟩]

/-- A Slice loader that knows `linkClass` only. -/
def linkLoader : SliceLoader := fun t => if t = [65] then some (.cls linkClass) else none

/-- An instance of `linkClass` whose member is another one, in the compact format. -/
def nestedLinks : List UInt8 := [1, 0x21, 1, 65, 1, 0x22, 1, 0]

theorem nestedActivations_le_nestedLinks :
    (finalState (decode11 ⟨.cpp, linkLoader, true, 1⟩ 8 (.params [.cls objectTypeId])
      { stream := { data := nestedLinks } })).maxActive ≤ 2 :=
  nestedActivations_le _ _ _ _ (by decide +kernel)

/-- Three instances of an unknown type, each but the first in the indirection table of the one
    before. -/
def nestedUnknown : List UInt8 :=
  [1, 0x3B, 5, 4, 0, 0, 0, 1] ++ [1, 0x3B, 5, 4, 0, 0, 0, 1] ++ [1, 0x33, 5, 4, 0, 0, 0]

/-- With the limit 1 the decoder accepts them, three activations deep. -/
theorem nestedUnknown_exceeds_limit :
    let cfg : DecoderConfig := ⟨.cpp, fun _ => none, true, 1⟩
    let run := decode11 cfg 8 (.params [.cls objectTypeId]) { stream := { data := nestedUnknown } }
    returns run ∧ ¬ (finalState run).maxActive ≤ cfg.classGraphDepthMax + 1 := by
  decide +kernel

end Ice
