import Ice.Stream.Advance

/-!
# Encoded values

The bytes that `Ice::OutputStream` writes for integers, sizes and strings, and what the operations
of `Ice.Stream.InputStream` do on a stream that starts with them: `wp_readSize` and its companions
say that the value is read and that the stream is behind it.
-/

namespace Ice

/-- A number in `n` bytes, least significant byte first. -/
def toLittleEndian : Nat → Nat → List UInt8
  | 0, _ => []
  | n + 1, v => UInt8.ofNat v :: toLittleEndian n (v / 256)

@[simp] theorem length_toLittleEndian (n v : Nat) : (toLittleEndian n v).length = n := by
  induction n generalizing v with
  | zero => rfl
  | succ n ih => simp [toLittleEndian, ih]

theorem ofLittleEndian_toLittleEndian {n v : Nat} (h : v < 256 ^ n) :
    ofLittleEndian (toLittleEndian n v) = v := by
  induction n generalizing v with
  | zero =>
    have h0 : v = 0 := by simpa using h
    rw [h0]
    rfl
  | succ n ih =>
    have hdiv : v / 256 < 256 ^ n := by
      rw [Nat.div_lt_iff_lt_mul (by decide)]
      rwa [Nat.pow_succ] at h
    rw [toLittleEndian, ofLittleEndian, ih hdiv, UInt8.toNat_ofNat']
    omega

/-- `write(std::int32_t)`. -/
def encodeInt32 (v : Int) : List UInt8 := toLittleEndian 4 (v % 2 ^ 32).toNat

/-- `writeSize`: one byte, or 255 and a 32-bit integer. -/
def encodeSize (n : Nat) : List UInt8 :=
  if n < 255 then [UInt8.ofNat n] else 255 :: encodeInt32 n

/-- `write(std::string_view)` without a string converter. -/
def encodeString (bs : List UInt8) : List UInt8 := encodeSize bs.length ++ bs

@[simp] theorem length_encodeInt32 (v : Int) : (encodeInt32 v).length = 4 :=
  length_toLittleEndian 4 _

theorem toInt32_encodeInt32 {v : Int} (h : -2 ^ 31 ≤ v) (h' : v < 2 ^ 31) :
    toInt32 (ofLittleEndian (encodeInt32 v)) = v := by
  rw [encodeInt32, ofLittleEndian_toLittleEndian (by omega), toInt32]
  split <;> omega

theorem length_encodeSize_pos (n : Nat) : 0 < (encodeSize n).length := by
  unfold encodeSize
  split <;> simp

theorem length_encodeString_pos (bs : List UInt8) : 0 < (encodeString bs).length := by
  have := length_encodeSize_pos bs.length
  rw [encodeString, List.length_append]
  omega

/-- The size at the front of the bytes and its length. The size is `none` if it is negative. -/
def sizeAt : List UInt8 → Option (Option Nat × Nat)
  | [] => none
  | b :: bytes =>
    if b = 255 then
      if bytes.length < 4 then none
      else
        let v := toInt32 (ofLittleEndian (bytes.take 4))
        some (if v < 0 then none else some v.toNat, 5)
    else some (some b.toNat, 1)

/-- The error condition of a run that returns. -/
def never (_ : Failure) (_ : InputStream) : Prop := False

@[simp] theorem never_eq (err : Failure) (s : InputStream) : never err s = False := rfl

section Reading

variable {α : Type} {s : InputStream} {bs rest : List UInt8} {E : Failure → InputStream → Prop}

theorem length_upcoming (s : InputStream) : s.upcoming.length = s.remaining := by
  simp [InputStream.upcoming, InputStream.remaining]

theorem upcoming_advance (h : s.upcoming = bs ++ rest) : (s.advance bs.length).upcoming = rest := by
  show s.data.drop (s.pos + bs.length) = rest
  rw [← List.drop_drop]
  have h' : s.data.drop s.pos = bs ++ rest := h
  rw [h', List.drop_left]

@[simp] theorem advance_advance (m n : Nat) : (s.advance m).advance n = s.advance (m + n) := by
  simp [InputStream.advance, Nat.add_assoc]

/-! Each operation, by the bytes that it finds. -/

theorem wp_bind_iff {β : Type} {x : StreamM β} {f : β → StreamM α} {Q : α → InputStream → Prop} :
    wp (x >>= f) Q never s ↔ ∃ b s', x s = .ok b s' ∧ wp (f b) Q never s' := by
  rw [wp_bind]
  unfold wp
  cases x s <;> simp

theorem eq_ok_iff_wp {x : StreamM α} {a : α} {s' : InputStream} :
    x s = .ok a s' ↔ wp x (fun b q => b = a ∧ s' = q) never s := by
  unfold wp
  cases x s with
  | ok b q => simp [eq_comm]
  | error e q => simp

theorem returns_iff_wp {x : StreamM α} {s : InputStream} :
    returns (x s) ↔ wp x (fun _ _ => True) never s := by
  unfold wp
  cases x s <;> simp [returns]

theorem wp_eq_of_never {x : StreamM α} {a : α} {s' : InputStream} {Q : α → InputStream → Prop}
    (h : wp x (fun b q => b = a ∧ s' = q) never s) :
    wp x Q E s = Q a s' := wp_eq_of_ok (eq_ok_iff_wp.mpr h)

theorem wp_readByte_iff {Q : UInt8 → InputStream → Prop} :
    wp readByte Q never s ↔ ∃ b bytes, s.upcoming = b :: bytes ∧ Q b (s.advance 1) := by
  simp only [readByte, wp_bind, wp_get]
  cases s.upcoming with
  | nil => simp [endOfBuffer]
  | cons b bytes => simp

theorem wp_readBytes_iff {n : Nat} {Q : List UInt8 → InputStream → Prop} :
    wp (readBytes n) Q never s ↔ n ≤ s.upcoming.length ∧ Q (s.upcoming.take n) (s.advance n) := by
  simp only [readBytes, wp_bind, wp_get, length_upcoming]
  split
  · simp [endOfBuffer]
    omega
  · simp
    omega

variable {Q : Unit → InputStream → Prop}

theorem wp_changePos {offset : Int} {q : InputStream} (hq : (s.pos : Int) + offset = q.pos)
    (hs : s = { q with pos := s.pos }) :
    wp (changePos offset) Q never s ↔ offset ≤ s.upcoming.length ∧ Q () q := by
  have hset : ({ s with pos := q.pos } : InputStream) = q := by rw [hs]
  simp only [changePos, wp_bind, wp_get, hq, length_upcoming, Int.toNat_natCast, hset]
  rw [if_neg (by omega)]
  split
  · simp [endOfBuffer]
    omega
  · simp
    omega

theorem wp_skip_iff {n : Nat} :
    wp (skip n) Q never s ↔ n ≤ s.upcoming.length ∧ Q () (s.advance n) := by
  rw [skip, if_neg (by omega), wp_changePos (q := s.advance n) (by simp [InputStream.advance]) rfl,
    Int.ofNat_le]

theorem wp_readSize_iff {Q : Nat → InputStream → Prop} : wp readSize Q never s ↔
      ∃ n k, sizeAt s.upcoming = some (some n, k) ∧ Q n (s.advance k) := by
  rw [readSize, wp_bind, wp_readByte_iff]
  cases hu : s.upcoming with
  | nil => simp [sizeAt]
  | cons b bytes =>
    have hnext : (s.advance 1).upcoming = bytes :=
      upcoming_advance (show s.upcoming = [b] ++ bytes from hu)
    by_cases hb : b = 255
    · by_cases hlen : bytes.length < 4
      · simp [sizeAt, hb, hlen, readInt32, wp_readBytes_iff, hnext]
      · by_cases hv : toInt32 (ofLittleEndian (bytes.take 4)) < 0
        · simp [sizeAt, hb, hlen, hv, readInt32, wp_readBytes_iff, hnext, endOfBuffer]
        · simp [sizeAt, hb, hlen, hv, readInt32, wp_readBytes_iff, hnext, Nat.not_lt.mp hlen]
    · simp [sizeAt, hb]

theorem wp_skipSize_iff :
    wp skipSize Q never s ↔ ∃ k v, sizeAt s.upcoming = some (v, k) ∧ Q () (s.advance k) := by
  rw [skipSize, wp_bind, wp_readByte_iff]
  cases hu : s.upcoming with
  | nil => simp [sizeAt]
  | cons b bytes =>
    have hnext : (s.advance 1).upcoming = bytes :=
      upcoming_advance (show s.upcoming = [b] ++ bytes from hu)
    by_cases hb : b = 255
    · have hskip := wp_skip_iff (s := s.advance 1) (n := 4) (Q := Q)
      rw [hnext, advance_advance] at hskip
      by_cases hlen : bytes.length < 4
      · simp [sizeAt, hb, hlen, runIf, show ¬ 4 ≤ bytes.length by omega] at hskip ⊢
        exact hskip
      · simpa [sizeAt, hb, hlen, runIf, Nat.not_lt.mp hlen] using hskip
    · simp [sizeAt, hb, runIf]

theorem sizeAt_encodeSize (n : Nat) (rest : List UInt8) :
    ∃ v, sizeAt (encodeSize n ++ rest) = some (v, (encodeSize n).length) ∧
      (n < 2 ^ 31 → v = some n) := by
  unfold encodeSize
  split
  · have hb : UInt8.ofNat n ≠ 255 := by
      intro hb
      have := congrArg UInt8.toNat hb
      simp at this
      omega
    refine ⟨_, if_neg hb, fun _ => ?_⟩
    rw [UInt8.toNat_ofNat', Nat.mod_eq_of_lt (by omega)]
  · have htake : (encodeInt32 n ++ rest).take 4 = encodeInt32 n :=
      List.take_left' (length_encodeInt32 n)
    have hlen : ¬ (encodeInt32 n ++ rest).length < 4 := by simp
    simp only [List.cons_append, sizeAt, if_true, if_neg hlen, htake]
    refine ⟨_, rfl, fun hn => ?_⟩
    rw [toInt32_encodeInt32 (by omega) (by omega), if_neg (by omega), Int.toNat_natCast]

theorem wp_readByte {b : UInt8} {Q : UInt8 → InputStream → Prop} (h : s.upcoming = b :: rest) :
    wp readByte Q E s = Q b (s.advance 1) := by
  simp only [readByte, wp_bind, wp_get, h, wp_set, wp_pure]

theorem wp_readBytes {Q : List UInt8 → InputStream → Prop} (h : s.upcoming = bs ++ rest) :
    wp (readBytes bs.length) Q E s = Q bs (s.advance bs.length) := by
  have hlen : ¬ s.remaining < bs.length := by
    rw [← length_upcoming, h, List.length_append]
    omega
  simp only [readBytes, wp_bind, wp_get]
  rw [if_neg hlen]
  simp only [wp_bind, wp_set, wp_pure, h, List.take_left]

theorem wp_readSize {n : Nat} {Q : Nat → InputStream → Prop} (hn : n < 2 ^ 31)
    (h : s.upcoming = encodeSize n ++ rest) :
    wp readSize Q E s = Q n (s.advance (encodeSize n).length) := by
  obtain ⟨v, hsize, hv⟩ := sizeAt_encodeSize n rest
  rw [hv hn, ← h] at hsize
  exact wp_eq_of_never (wp_readSize_iff.mpr ⟨n, _, hsize, rfl, rfl⟩)

/-- The sequences being read need at most `k` more bytes. -/
def InputStream.SeqNeeds (s : InputStream) (k : Nat) : Prop :=
  ∀ start, s.startSeq = some start → start + s.minSeqSize ≤ s.pos + k

theorem InputStream.SeqNeeds.advance {k : Nat} (h : s.SeqNeeds k) (n : Nat) :
    (s.advance n).SeqNeeds (k - n) := by
  intro start hstart
  have hle := h start hstart
  show start + s.minSeqSize ≤ s.pos + n + (k - n)
  omega

theorem InputStream.SeqNeeds.mono {j k : Nat} (h : s.SeqNeeds j) (hle : j ≤ k) : s.SeqNeeds k := by
  intro start hstart
  have := h start hstart
  omega

/-- What `readAndCheckSeqSize` records. -/
theorem seqBound_le {k size : Nat} (h : s.SeqNeeds k) :
    (s.seqBound size).1 + (s.seqBound size).2 ≤ s.pos + (k + size) := by
  unfold InputStream.seqBound
  cases hs : s.startSeq with
  | none =>
    dsimp only
    omega
  | some start =>
    have hle := h start hs
    dsimp only
    split
    · omega
    · dsimp only
      omega

theorem InputStream.SeqNeeds.not_seqOverflows {k : Nat} (h : s.SeqNeeds k)
    (hle : s.pos + k < 2 ^ 31) :
    s.seqOverflows = false := by
  unfold InputStream.seqOverflows
  split
  · exact decide_eq_false (by omega)
  · rename_i start hstart
    have hneeds := h start hstart
    exact decide_eq_false (by omega)

/-- A sequence size is accepted if the stream has the bytes that its elements, and the rest of the
    sequences around it, need at least. -/
theorem wp_readAndCheckSeqSize {m : Mapping} {n k minSize : Nat} {Q : Nat → InputStream → Prop}
    (hn : n < 2 ^ 31)
    (hsize : s.data.length < 2 ^ 31) (h : s.upcoming = encodeSize n ++ rest)
    (hseq : (s.advance (encodeSize n).length).SeqNeeds k)
    (hfit : k + n * minSize ≤ rest.length)
    (hQ : ∀ start size, ({ s.advance (encodeSize n).length with
          startSeq := start
          minSeqSize := size } : InputStream).SeqNeeds (k + n * minSize) →
      Q n { s.advance (encodeSize n).length with
        startSeq := start
        minSeqSize := size }) :
    wp (readAndCheckSeqSize m minSize) Q E s := by
  simp only [readAndCheckSeqSize, wp_bind]
  rw [wp_readSize hn h]
  by_cases h0 : n = 0
  · subst h0
    exact hQ s.startSeq s.minSeqSize (hseq.mono (Nat.le_add_right ..))
  · rw [if_neg h0]
    have hlen := length_upcoming s
    have hpos := length_encodeSize_pos n
    rw [h, List.length_append, InputStream.remaining] at hlen
    have hbound : _ ≤ (s.advance (encodeSize n).length).pos + (k + n * minSize) := seqBound_le hseq
    have hend : (s.advance (encodeSize n).length).pos + rest.length ≤ s.data.length := by
      show s.pos + (encodeSize n).length + rest.length ≤ s.data.length
      omega
    have hfits := hseq.not_seqOverflows (by omega)
    simp only [wp_bind, wp_get, wp_throwIf, wp_set, wp_pure, hfits, Bool.false_eq_true, and_false,
      false_implies, not_false_eq_true, true_implies, true_and]
    refine ⟨fun hbig => absurd hbig (Nat.not_lt_of_le ?_), fun _ => ⟨fun hbig => ?_, fun _ => ?_⟩⟩
    · exact hbound.trans ((Nat.add_le_add_left hfit _).trans hend)
    · omega
    · apply hQ
      intro start hstart
      cases hstart
      exact hbound

end Reading

end Ice
