import Ice.Stream.Encoding

/-!
# Output streams

The part of `Ice::OutputStream` (`cpp/include/Ice/OutputStream.h`, `cpp/src/Ice/OutputStream.cpp`)
and of its Swift counterpart (`swift/src/Ice/OutputStream.swift`) that writes sizes and the headers
of optional members. C++ converts a count to `std::int32_t` without a check; Swift traps when a
count or a position does not fit.
-/

namespace Ice

open List

/-- The buffer, and whether the current encoding is 1.0. -/
structure OutputStream where
  data : List UInt8 := []
  encoding10 : Bool := false
deriving DecidableEq, Repr

abbrev OutputM := EStateM Failure OutputStream

/-- A stream with further bytes. -/
def OutputStream.append (bs : List UInt8) (os : OutputStream) : OutputStream :=
  { os with data := os.data ++ bs }

def writeBlob (bs : List UInt8) : OutputM Unit := modify (OutputStream.append bs)

/-- `static_cast<std::int32_t>` of a count. -/
def castInt32 (n : Nat) : Int := toInt32 (n % 2 ^ 32)

/-- `writeSize` of a count. -/
def writeSize (m : Mapping) (n : Nat) : OutputM Unit :=
  match m with
  | .cpp => do
    throwIf (castInt32 n < 0) (.trap .precondition)
    writeBlob (encodeSize (castInt32 n).toNat)
  | .swift => do
    throwIf (2 ^ 31 ≤ n) (.trap .precondition)
    writeBlob (encodeSize n)

@[simp] theorem append_data (bs : List UInt8) (os : OutputStream) :
    (os.append bs).data = os.data ++ bs := rfl

theorem append_append (bs cs : List UInt8) (os : OutputStream) :
    (os.append bs).append cs = os.append (bs ++ cs) := by
  simp [OutputStream.append]

theorem append_nil (os : OutputStream) : os.append [] = os := by simp [OutputStream.append]

theorem castInt32_of_lt {n : Nat} (h : n < 2 ^ 31) : castInt32 n = n := by
  rw [castInt32, Nat.mod_eq_of_lt (by omega), toInt32, if_pos h]

/-- On a stream of the 1.1 encoding that is not empty, `x` appends `bs` if the stream stays shorter
    than 2^31 bytes. -/
def Appends (x : OutputM Unit) (bs : List UInt8) : Prop :=
  ∀ os : OutputStream, os.encoding10 = false → 0 < os.data.length →
    os.data.length + bs.length < 2 ^ 31 →
    wp x (fun _ os' => os' = os.append bs) (fun _ _ => False) os

namespace Appends

theorem pure : Appends (pure ()) [] := fun os _ _ _ => (append_nil os).symm

theorem writeBlob (bs : List UInt8) : Appends (writeBlob bs) bs := fun _ _ _ _ => rfl

theorem bind {x y : OutputM Unit} {bs cs : List UInt8} (hx : Appends x bs) (hy : Appends y cs) :
    Appends (do x; y) (bs ++ cs) := by
  intro os henc hpos hlt
  rw [length_append] at hlt
  refine wp_seq (hx os henc hpos (by omega)) fun _ os' hos' => ?_
  subst hos'
  rw [← append_append]
  apply hy (os.append bs) henc
  all_goals
    rw [append_data, length_append]
    omega

theorem writeSize (m : Mapping) {n : Nat} (h : n < 2 ^ 31) :
    Appends (writeSize m n) (encodeSize n) := by
  intro os _ _ _
  cases m with
  | cpp =>
    simp only [Ice.writeSize, castInt32_of_lt h, wp_bind, wp_throwIf, Int.toNat_natCast]
    exact ⟨by omega, fun _ => rfl⟩
  | swift =>
    simp only [Ice.writeSize, wp_bind, wp_throwIf]
    exact ⟨by omega, fun _ => rfl⟩

theorem forEach {α : Type} {f : α → OutputM Unit} {g : α → List UInt8} {l : List α}
    (h : ∀ a ∈ l, Appends (f a) (g a)) : Appends (forEach l f) (l.flatMap g) := by
  induction l with
  | nil => exact pure
  | cons a l ih =>
    exact (h a (mem_cons_self ..)).bind (ih fun b hb => h b (mem_cons_of_mem _ hb))

end Appends

end Ice
