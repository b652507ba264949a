import Ice.Classes.Untrusted

/-!
# Class graphs without cycles

With `Ice.AcceptClassCycles` off, an instance that is still being read is never stored in another
one, so a reference that is stored while its holder is being read cannot close a cycle. References
in the patch map are stored later, when their holder has been read, and nothing checks these. They
close none if the instance that has been read holds no reference yet, or if nothing refers to the
holder (`LateStore.Settled`): so references that all point forward, as the encoders write them in
the 1.0 encoding, and references that all point backward are safe.
-/

namespace Ice

open Decoder

/-- Whether decoding completes: it returns, or throws the user exception that it decoded. -/
def completes {α : Type} (run : EStateM.Result Failure Decoder α) : Bool :=
  returns run || thrown run == some .userException

/-- Without class cycles, every run that completes leaves an acyclic graph, if whenever a reference
    is stored from the patch map its target holds no reference yet or nothing refers to its
    holder. -/
theorem decode_acyclic (cfg : DecoderConfig) (fuel : Nat) (payload : Payload) (data : List UInt8)
    (ha : cfg.acceptClassCycles = false) (hf : data.length < fuel)
    (hdone : completes (decode cfg fuel payload (Decoder.start data)))
    (hsettled : ∀ s ∈ (finalState (decode cfg fuel payload (Decoder.start data))).lateStores,
      s.Settled) :
    Acyclic (Refers (finalState (decode cfg fuel payload (Decoder.start data))).heap) := by
  have hrun := decode_run cfg fuel payload data hf
  unfold wp at hrun
  cases hx : decode cfg fuel payload (Decoder.start data) with
  | ok a d =>
    rw [hx] at hrun hsettled
    exact hrun.acyclic ha hsettled
  | error e d =>
    rw [hx] at hrun hsettled hdone
    have he : e = .userException := by simpa [completes, returns, thrown] using hdone
    exact (hrun.exception he).acyclic ha hsettled

/-- The instance has no reference in memory. -/
theorem not_refers_of_refs {memory : ObjId → Option Obj} {a : ObjId}
    (h : (memory a).map Obj.refs = some []) (b : ObjId) : ¬ Refers memory a b := by
  rintro ⟨obj, hobj, hb⟩
  rw [hobj, Option.map_some, Option.some.injEq] at h
  rw [h] at hb
  cases hb

/-- An instance of `linkClass` in the 1.0 encoding, with the bytes of its reference. -/
def instance10 (index : UInt8) (ref : List UInt8) : List UInt8 :=
  [index, 0, 0, 0, 0, 1, 65, 8, 0, 0, 0] ++ ref ++ [0, 13] ++ objectTypeId ++ [5, 0, 0, 0, 0]

/-- A reference of the 1.0 encoding to an instance. -/
def reference10 (index : UInt8) : List UInt8 := [256 - index, 255, 255, 255]

/-- A run with class cycles disallowed that reads one value. -/
def runWithoutCycles (fuel : Nat) (data : List UInt8) : EStateM.Result Failure Decoder Unit :=
  decode ⟨.cpp, linkLoader, false, 100⟩ fuel (.params [.cls objectTypeId]) (Decoder.start data)

/-- Two instances of `linkClass` in the 1.0 encoding, the first of which refers to the second. -/
def forward10 : List UInt8 :=
  [82, 0, 0, 0, 1, 0] ++ reference10 1 ++ [2] ++ instance10 1 (reference10 2) ++
    instance10 2 [0, 0, 0, 0] ++ [0]

/-- The reference waits in the patch map until the second instance has been read. -/
theorem decode_acyclic_forward10 : Refers (finalState (runWithoutCycles 83 forward10)).heap 2 3 ∧
    Acyclic (Refers (finalState (runWithoutCycles 83 forward10)).heap) := by
  have hrefs : ((finalState (runWithoutCycles 83 forward10)).heap 2).map Obj.refs = some [3] := by
    decide +kernel
  obtain ⟨obj, hobj, hrefs⟩ := Option.map_eq_some_iff.mp hrefs
  refine ⟨⟨obj, hobj, by simp [hrefs]⟩,
    decode_acyclic _ _ _ _ rfl (by decide) (by decide +kernel) ?_⟩
  have hempty : ∀ s ∈ (finalState (runWithoutCycles 83 forward10)).lateStores,
      s.target ≠ s.holder ∧ (s.memory s.target).map Obj.refs = some [] := by
    decide +kernel
  exact fun s hs => ⟨(hempty s hs).1, .inl (not_refers_of_refs (hempty s hs).2)⟩

/-- Two instances of `linkClass` in the 1.0 encoding that refer to each other. -/
def mutual10 : List UInt8 :=
  [82, 0, 0, 0, 1, 0] ++ reference10 1 ++ [2] ++ instance10 1 (reference10 2) ++
    instance10 2 (reference10 1) ++ [0]

/-- An unknown slice whose indirection table holds two instances of `linkClass`: the first refers to
    the second by an index that is not known yet, the second to the first. -/
def mutual11 : List UInt8 :=
  [31, 0, 0, 0, 1, 1] ++ [1, 0x3B, 5, 4, 0, 0, 0, 2] ++ [1, 0x31, 1, 65, 5, 0, 0, 0, 4] ++
    [1, 0x32, 1, 5, 0, 0, 0, 3]

theorem not_acyclic_of_pair {d : Decoder} {a b : ObjId}
    (ha : (d.heap a).map Obj.refs = some [b]) (hb : (d.heap b).map Obj.refs = some [a]) :
    ¬ Acyclic (Refers d.heap) := by
  intro h
  obtain ⟨x, hx, hxr⟩ := Option.map_eq_some_iff.mp ha
  obtain ⟨y, hy, hyr⟩ := Option.map_eq_some_iff.mp hb
  exact h a (.tail (.single ⟨x, hx, by simp [hxr]⟩) ⟨y, hy, by simp [hyr]⟩)

/-- Both encapsulations are accepted, and the graphs have a cycle. -/
theorem decode_accepts_cycles : (returns (runWithoutCycles 83 mutual10) ∧
        ¬ Acyclic (Refers (finalState (runWithoutCycles 83 mutual10)).heap)) ∧
      returns (runWithoutCycles 32 mutual11) ∧
        ¬ Acyclic (Refers (finalState (runWithoutCycles 32 mutual11)).heap) := by
  refine ⟨⟨by decide +kernel, ?_⟩, by decide +kernel, ?_⟩
  · exact not_acyclic_of_pair (a := 2) (b := 3) (by decide +kernel) (by decide +kernel)
  · exact not_acyclic_of_pair (a := 3) (b := 4) (by decide +kernel) (by decide +kernel)

end Ice
