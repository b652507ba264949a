import Mathlib

/-!
# WebSocket frames

Masks, numbers in network order and frames, as bytes. A frame has a FIN bit, an opcode, the length
of its payload in 7, 7 + 16 or 7 + 64 bits, and, if its sender is a client, a mask that has been
applied to the payload.
-/

namespace Ice.WebSocket

/-- The 32-bit mask of a frame. -/
abbrev Mask := Fin 4 → UInt8

namespace Mask

/-- `mask[n % 4]`. -/
def byte (m : Mask) (n : Nat) : UInt8 := m (Fin.ofNat 4 n)

/-- Masks, or unmasks, bytes that start at an offset in the payload of their frame. -/
def apply (m : Mask) : Nat → List UInt8 → List UInt8
  | _, [] => []
  | n, b :: bs => (b ^^^ m.byte n) :: apply m (n + 1) bs

def bytes (m : Mask) : List UInt8 := [m 0, m 1, m 2, m 3]

/-- A mask in a frame header. -/
def ofBytes (bs : List UInt8) : Mask := fun k => bs.getD k 0

end Mask

section Masking

variable (m : Mask) (n : Nat)

@[simp] theorem Mask.apply_nil : m.apply n [] = [] := rfl

@[simp] theorem Mask.length_apply (bs : List UInt8) : (m.apply n bs).length = bs.length := by
  induction bs generalizing n with
  | nil => rfl
  | cons b bs ih => simp [Mask.apply, ih]

theorem Mask.apply_append (as bs : List UInt8) :
    m.apply n (as ++ bs) = m.apply n as ++ m.apply (n + as.length) bs := by
  induction as generalizing n with
  | nil => rfl
  | cons a as ih =>
    simp only [List.cons_append, Mask.apply, List.length_cons, ih]
    rw [show n + 1 + as.length = n + (as.length + 1) by omega]

/-- Masking twice gives the payload back. -/
@[simp] theorem Mask.apply_apply (bs : List UInt8) : m.apply n (m.apply n bs) = bs := by
  induction bs generalizing n with
  | nil => rfl
  | cons b bs ih =>
    simp only [Mask.apply, ih]
    rw [UInt8.xor_assoc, UInt8.xor_self, UInt8.xor_zero]

theorem Mask.apply_take (k : Nat) (bs : List UInt8) :
    m.apply n (bs.take k) = (m.apply n bs).take k := by
  induction bs generalizing n k with
  | nil => simp
  | cons b bs ih =>
    cases k with
    | zero => rfl
    | succ k => simp [Mask.apply, ih]

theorem Mask.apply_drop (k : Nat) (bs : List UInt8) :
    (m.apply n bs).drop k = m.apply (n + k) (bs.drop k) := by
  induction bs generalizing n k with
  | nil => simp
  | cons b bs ih =>
    cases k with
    | zero => rfl
    | succ k =>
      simp only [Mask.apply, List.drop_succ_cons, ih]
      rw [show n + 1 + k = n + (k + 1) by omega]

@[simp] theorem Mask.length_bytes : m.bytes.length = 4 := rfl

@[simp] theorem Mask.ofBytes_bytes : Mask.ofBytes m.bytes = m := by
  funext k
  match k with
  | 0 => rfl
  | 1 => rfl
  | 2 => rfl
  | 3 => rfl

end Masking

/-- A number in network order. -/
def ofBigEndian (bs : List UInt8) : Nat := bs.foldl (fun n b => 256 * n + b.toNat) 0

/-- A number in network order, in `n` bytes. -/
def toBigEndian : Nat → Nat → List UInt8
  | 0, _ => []
  | n + 1, v => toBigEndian n (v / 256) ++ [UInt8.ofNat v]

@[simp] theorem length_toBigEndian (n v : Nat) : (toBigEndian n v).length = n := by
  induction n generalizing v with
  | zero => rfl
  | succ n ih => simp [toBigEndian, ih]

theorem ofBigEndian_toBigEndian {n v : Nat} (h : v < 256 ^ n) :
    ofBigEndian (toBigEndian n v) = v := by
  induction n generalizing v with
  | zero =>
    have : v = 0 := by simpa using h
    rw [this]
    rfl
  | succ n ih =>
    have hdiv : v / 256 < 256 ^ n := by
      rw [Nat.div_lt_iff_lt_mul (by decide)]
      rwa [Nat.pow_succ] at h
    rw [toBigEndian, ofBigEndian, List.foldl_append, ← ofBigEndian, ih hdiv, List.foldl_cons,
      UInt8.toNat_ofNat', List.foldl_nil]
    omega

def opCont : UInt8 := 0x0
def opText : UInt8 := 0x1
def opData : UInt8 := 0x2
def opClose : UInt8 := 0x8
def opPing : UInt8 := 0x9
def opPong : UInt8 := 0xA
def flagFinal : UInt8 := 0x80
def flagMasked : UInt8 := 0x80

/-- A frame with its payload as the application has it. -/
structure Frame where
  opCode : UInt8
  fin : Bool
  payload : List UInt8
  mask : Mask

namespace Frame

/-- Close, ping and pong frames. -/
def IsControl (f : Frame) : Prop := f.opCode = opClose ∨ f.opCode = opPing ∨ f.opCode = opPong

/-- Data and continuation frames. -/
def IsData (f : Frame) : Prop := f.opCode = opData ∨ f.opCode = opCont

instance (f : Frame) : Decidable f.IsData := inferInstanceAs (Decidable (_ ∨ _))

/-- A frame of one of the kinds above. Control frames have the FIN bit and at most 125 bytes of
    payload; the length of a payload fits in 63 bits. -/
structure WellFormed (f : Frame) : Prop where
  kind : f.IsControl ∨ f.IsData
  control : f.IsControl → f.fin = true ∧ f.payload.length ≤ 125
  length : f.payload.length < 2 ^ 63

/-- The seven bits for the length in the second byte. -/
def length7 (n : Nat) : Nat := if n ≤ 125 then n else if n ≤ 65535 then 126 else 127

/-- The length bits behind the second byte. -/
def lengthExt (n : Nat) : List UInt8 :=
  if n ≤ 125 then [] else if n ≤ 65535 then toBigEndian 2 n else toBigEndian 8 n

def byte0 (f : Frame) : UInt8 := f.opCode ||| if f.fin then flagFinal else 0

def byte1 (masked : Bool) (f : Frame) : UInt8 :=
  (if masked then flagMasked else 0) ||| UInt8.ofNat (length7 f.payload.length)

/-- The payload as it is transmitted. -/
def body (masked : Bool) (f : Frame) : List UInt8 :=
  if masked then f.mask.apply 0 f.payload else f.payload

/-- What follows the first two bytes of the header. -/
def headerRest (masked : Bool) (f : Frame) : List UInt8 :=
  lengthExt f.payload.length ++ if masked then f.mask.bytes else []

/-- The bytes of a frame. -/
def encode (masked : Bool) (f : Frame) : List UInt8 :=
  [f.byte0, f.byte1 masked] ++ f.headerRest masked ++ f.body masked

@[simp] theorem length_body (masked : Bool) (f : Frame) :
    (f.body masked).length = f.payload.length := by
  unfold body
  split <;> simp

end Frame

/-- The bytes of a sequence of frames. -/
def encodeFrames (masked : Bool) (fs : List Frame) : List UInt8 := fs.flatMap (Frame.encode masked)

@[simp] theorem encodeFrames_nil (masked : Bool) : encodeFrames masked [] = [] := rfl

@[simp] theorem encodeFrames_cons (masked : Bool) (f : Frame) (fs : List Frame) :
    encodeFrames masked (f :: fs) = f.encode masked ++ encodeFrames masked fs := rfl

@[simp] theorem encodeFrames_append (masked : Bool) (fs gs : List Frame) :
    encodeFrames masked (fs ++ gs) = encodeFrames masked fs ++ encodeFrames masked gs :=
  List.flatMap_append

end Ice.WebSocket
