import Ice.Classes.Depth
import Ice.Classes.Invariant10

/-!
# Decoding untrusted bytes

Every run of the decoders, from the first byte of an encapsulation that a peer chose, ends in a
state that satisfies `RunInv`, or throws. It returns, throws the decoded user exception or throws a
`MarshalException`, with three exceptions in Swift: a closure of `readSlicedData` that is called
after its instance has been read, a type ID of an exception for which the Slice loader has a class,
and a sequence in a buffer that is too large for 32-bit positions.
-/

namespace Ice

open Decoder

section Runs

variable (cfg : DecoderConfig) (fuel : Nat) (payload : Payload) (data : List UInt8)

theorem not_refers_start (a b : ObjId) : ¬ Refers (Decoder.start data).heap a b := by
  rintro ⟨obj, hobj, hb⟩
  by_cases ha : a = frameId
  · have hempty : obj = { cls := [] } := by simpa [Decoder.start, ha] using hobj.symm
    simp [hempty, Obj.refs, slicedRefs] at hb
  · simp [Decoder.start, ha] at hobj

/-- The state behind the header of the encapsulation. -/
theorem RunInv.start {s : InputStream} (hv : s.Valid) (hs : s.SeqFits) (he : s.encaps.isSome) :
    RunInv cfg { Decoder.start data with stream := s } where
  valid := hv
  seqFits := hs
  encaps := he
  frame := ⟨rfl, Nat.zero_le _, by simp [Decoder.start]⟩
  registered i o h := by simp [Decoder.start] at h
  allocated o h := by
    by_cases ho : o = frameId
    · exact ho ▸ Nat.zero_le _
    · simp [Decoder.start, ho] at h
  finished o h := by simp [Decoder.start] at h
  stack c h := by simp [Decoder.start] at h
  sliced e h := by simp [Decoder.start] at h
  closures e h := by simp [Decoder.start] at h
  refs a b h := absurd h (not_refers_start data a b)
  acyclic _ _ a h := by
    obtain ⟨b, hab, -⟩ := Relation.TransGen.head'_iff.mp h
    exact not_refers_start data a b hab

/-- Every run ends in the invariant, or in a failure that untrusted bytes may cause. -/
theorem decode_run (hf : data.length < fuel) :
    wp (decode cfg fuel payload) (fun _ d => RunInv cfg d) (ErrOk cfg data.length)
      (Decoder.start data) := by
  have hv : (Decoder.start data).stream.Valid := Nat.zero_le _
  rw [decode, wp_bind, Decoder.onStream, wp_zoom]
  refine wp_mono (startEncapsulation_spec cfg.mapping hv rfl) (fun _ s hs => ?_)
    fun e s he => he.errOk _
  obtain ⟨hvalid, hfits, hdata, hencaps⟩ := hs
  have h := RunInv.start cfg data hvalid (hfits fun _ hstart => by cases hstart) hencaps
  have hlen : s.data.length = data.length := congrArg List.length hdata
  have hrem : s.remaining < fuel := by
    simp only [InputStream.remaining]
    omega
  have hrun : Runs cfg 0 { Decoder.start data with stream := s }
      (do let e ← onStream currentEncaps
          if e.encoding10 then decode10 cfg payload else decode11 cfg fuel payload)
      fun _ _ => True := by
    refine (Runs.onStream h currentEncaps_reads).bind fun e d1 h1 hl1 hQ => ?_
    obtain ⟨s', rfl, -⟩ := hQ
    split
    · exact .decode10 payload h1 rfl rfl
    · exact .decode11 payload h1 rfl (hl1.remaining_le.trans_lt hrem)
  rw [← hlen]
  exact wp_post hrun fun _ _ hQ => hQ.1

/-- A run over fewer than `2 ^ 31` bytes in which no closure of `readSlicedData` is deferred, and in
    which `throwException` meets no type ID of a class, returns, throws the user exception that it
    decoded, or throws a `MarshalException`: no forced unwrap, forced cast, array access,
    precondition or conversion of an integer fails. -/
theorem decode_never_traps (hf : data.length < fuel) (hsize : data.length < 2 ^ 31)
    (hclosure : ¬ (finalState (decode cfg fuel payload (Decoder.start data))).ClosureDeferred)
    (hclass : ¬ (finalState (decode cfg fuel payload (Decoder.start data))).ExceptionIsClass cfg) :
    wp (decode cfg fuel payload) (fun _ _ => True) (fun e _ => e = .userException ∨ e.IsMarshal)
      (Decoder.start data) := by
  have hrun := decode_run cfg fuel payload data hf
  unfold wp at hrun ⊢
  cases hx : decode cfg fuel payload (Decoder.start data) with
  | ok a d => trivial
  | error e d =>
    rw [hx] at hrun hclosure hclass
    cases e with
    | marshal r => exact .inr ⟨r, rfl⟩
    | userException => exact .inl rfl
    | trap t =>
      rcases (hrun.trap t rfl).2 with h | h | h
      · exact absurd h hclosure
      · exact absurd h hclass
      · exact absurd h (Nat.not_le_of_lt hsize)
    | outOfFuel => exact absurd rfl hrun.fuel

end Runs

/-- A Slice loader that knows the type ID `A`, for a user exception without members. -/
def exceptionLoader : SliceLoader := fun t =>
  if t = [65] then some (.exception [⟨[65], none, [], []⟩]) else none

/-- An encapsulation with the user exception `A`. -/
def exceptionA : List UInt8 := [13, 0, 0, 0, 1, 1, 0x30, 1, 65, 4, 0, 0, 0]

/-- The exception is decoded and thrown. -/
theorem decode_never_traps_exceptionA :
    wp (decode ⟨.swift, exceptionLoader, true, 100⟩ 14 .userException) (fun _ _ => True)
      (fun e _ => e = .userException ∨ e.IsMarshal) (Decoder.start exceptionA) := by
  refine decode_never_traps _ _ _ _ (by decide) (by decide) ?_ ?_
  · have hdeferred : (finalState (decode ⟨.swift, exceptionLoader, true, 100⟩ 14 .userException
        (Decoder.start exceptionA))).deferred = [] := by decide +kernel
    simp [ClosureDeferred, hdeferred]
  · have hids : (finalState (decode ⟨.swift, exceptionLoader, true, 100⟩ 14 .userException
        (Decoder.start exceptionA))).exceptionIds = [[65]] := by decide +kernel
    simp [ExceptionIsClass, hids, exceptionLoader]

/-- An instance of an unknown type whose indirection table holds another one, whose table refers
    back to the first. -/
def enclosingReference : List UInt8 :=
  [23, 0, 0, 0, 1, 1] ++ [1, 0x3B, 5, 4, 0, 0, 0, 1] ++ [1, 0x3B, 6, 4, 0, 0, 0, 1, 2]

/-- The Swift decoder crashes on a user exception whose type ID is that of a class, and on a
    preserved slice that refers to an enclosing instance. -/
theorem decode_traps :
    thrown (decode ⟨.swift, linkLoader, true, 100⟩ 14 .userException (Decoder.start exceptionA)) =
        some (.trap .forcedCast) ∧
      thrown (decode ⟨.swift, fun _ => none, true, 100⟩ 24 (.params [.cls objectTypeId])
        (Decoder.start enclosingReference)) = some (.trap .forcedUnwrap) := by
  decide +kernel

end Ice
