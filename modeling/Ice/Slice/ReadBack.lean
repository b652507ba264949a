import Ice.Slice.Written
import Ice.Stream.Encoding

/-!
# Written values are read back

What the generated code of either mapping writes, that of either mapping reads back, up to the order
in which dictionaries are enumerated.

`ReadsAs` says that a reader returns a value from its bytes, whatever follows them. The reader may
be inside sequences whose size has been checked: `min` bytes of what those still need at least are
the bytes of the value.
-/

namespace Ice

open List

variable {s : InputStream} {bs rest : List UInt8} {E : Failure → InputStream → Prop}

theorem wp_readString_valid {m : Mapping} {Q : List UInt8 → InputStream → Prop}
    (hvalid : validUtf8 bs = true) (hn : bs.length < 2 ^ 31)
    (h : s.upcoming = encodeString bs ++ rest) :
    wp (readString m) Q E s = Q bs (s.advance (encodeString bs).length) := by
  rw [encodeString, append_assoc] at h
  have hnext := upcoming_advance h
  simp only [readString, wp_bind]
  rw [wp_readSize hn h, wp_readBytes hnext, if_neg (by simp [hvalid]), wp_pure, advance_advance,
    encodeString, length_append]

theorem length_lt_of_encodeString_lt {k : Nat} (h : (encodeString bs).length < k) :
    bs.length < k := by
  rw [encodeString, length_append] at h
  omega

namespace Slice

/-! ### Readers -/

/-- `r'` is `r` after it has read `n` bytes: only the stream has changed, and the log. -/
structure Behind (r : Reader) (n : Nat) (r' : Reader) : Prop where
  decoder : r'.decoder = { r.decoder with stream := r'.decoder.stream }
  data : r'.decoder.stream.data = r.decoder.stream.data
  pos : r'.decoder.stream.pos = r.decoder.stream.pos + n
  encaps : r'.decoder.stream.encaps = r.decoder.stream.encaps

theorem Behind.trans {r r' r'' : Reader} {m n : Nat} (h : Behind r m r') (h' : Behind r' n r'') :
    Behind r (m + n) r'' where
  decoder := by rw [h'.decoder, h.decoder]
  data := h'.data.trans h.data
  pos := by rw [h'.pos, h.pos, Nat.add_assoc]
  encaps := h'.encaps.trans h.encaps

theorem Behind.upcoming {r r' : Reader} {bs rest : List UInt8} (h : Behind r bs.length r')
    (hr : r.decoder.stream.upcoming = bs ++ rest) : r'.decoder.stream.upcoming = rest := by
  have hadvance := upcoming_advance hr
  rw [InputStream.upcoming, h.data, h.pos]
  exact hadvance

/-- The reader is inside an encapsulation of the 1.1 encoding. -/
def Reader.In11 (r : Reader) : Prop :=
  ∃ e, r.decoder.stream.encaps = some e ∧ e.encoding10 = false

/-- `x` reads `bs` as the value `a`, `min` bytes of which the sequences around it have counted, in
    any buffer whose positions are 32-bit integers. -/
def ReadsAs {α : Type} (x : ReaderM α) (bs : List UInt8) (a : α) (min : Nat) : Prop :=
  ∀ (r : Reader) (rest : List UInt8) (k : Nat), r.decoder.stream.data.length < 2 ^ 31 →
    r.decoder.stream.upcoming = bs ++ rest → r.In11 →
    r.decoder.stream.SeqNeeds (min + k) → k ≤ rest.length →
    wp x (fun a' r' => a' = a ∧ Behind r bs.length r' ∧ r'.decoder.stream.SeqNeeds k)
      (fun _ _ => False) r

namespace ReadsAs

variable {α β : Type} {x : ReaderM α} {a : α} {bs : List UInt8} {min : Nat}

theorem pure (a : α) : ReadsAs (pure a) [] a 0 := by
  intro r rest k _ _ _ hseq _
  rw [Nat.zero_add] at hseq
  exact ⟨rfl, ⟨rfl, rfl, rfl, rfl⟩, hseq⟩

/-- An operation of the stream that advances over the bytes. -/
theorem fromStream {x : StreamM α} (hmin : min ≤ bs.length)
    (h : ∀ (s : InputStream) (rest : List UInt8) (Q : α → InputStream → Prop),
      s.upcoming = bs ++ rest → (∃ e, s.encaps = some e ∧ e.encoding10 = false) →
      wp x Q (fun _ _ => False) s = Q a (s.advance bs.length)) :
      ReadsAs (fromStream x) bs a min := by
  intro r rest k _ hr h11 hseq _
  simp only [Slice.fromStream, onDecoder, Decoder.onStream, wp_zoom]
  rw [h r.decoder.stream rest _ hr h11]
  exact ⟨rfl, ⟨rfl, rfl, rfl, rfl⟩, (hseq.advance bs.length).mono (by omega)⟩

theorem bind {f : α → ReaderM β} {b : β} {cs : List UInt8} {min' : Nat} (hx : ReadsAs x bs a min)
    (hf : ReadsAs (f a) cs b min') (hmin : min' ≤ cs.length) :
    ReadsAs (x >>= f) (bs ++ cs) b (min + min') := by
  intro r rest k hsize hr h11 hseq hk
  rw [append_assoc] at hr
  rw [Nat.add_assoc] at hseq
  rw [wp_bind]
  refine wp_mono (hx r (cs ++ rest) (min' + k) hsize hr h11 hseq ?_) ?_ fun _ _ h => h
  · rw [length_append]
    omega
  · rintro a' r1 ⟨rfl, hbehind, hseq1⟩
    have h11' : r1.In11 := by
      obtain ⟨e, he, h10⟩ := h11
      exact ⟨e, hbehind.encaps.trans he, h10⟩
    refine wp_mono (hf r1 rest k (hbehind.data ▸ hsize) (hbehind.upcoming hr) h11' hseq1 hk) ?_
      fun _ _ h => h
    rintro b' r2 ⟨rfl, hbehind2, hseq2⟩
    rw [length_append]
    exact ⟨rfl, hbehind.trans hbehind2, hseq2⟩

theorem mono {min' : Nat} (hx : ReadsAs x bs a min) (h : min' ≤ min) : ReadsAs x bs a min' := by
  intro r rest k hsize hr h11 hseq hk
  exact hx r rest k hsize hr h11 (hseq.mono (by omega)) hk

theorem map {b : β} (f : α → β) (hx : ReadsAs x bs a min) (hb : f a = b) :
    ReadsAs (do return f (← x)) bs b min := by
  subst hb
  have hbind : ReadsAs (do return f (← x)) (bs ++ []) (f a) (min + 0) :=
    hx.bind (pure (f a)) (Nat.zero_le _)
  rwa [List.append_nil] at hbind

/-- A loop that reads the elements of a list one after the other. -/
theorem repeatM {f : α → List UInt8} (l : List α)
    (h : ∀ a ∈ l, ReadsAs x (f a) a min ∧ min ≤ (f a).length) :
    ReadsAs (repeatM l.length x) (l.flatMap f) l (l.length * min) ∧
      l.length * min ≤ (l.flatMap f).length := by
  induction l with
  | nil =>
    rw [length_nil, Nat.zero_mul]
    exact ⟨pure [], Nat.zero_le _⟩
  | cons a l ih =>
    obtain ⟨ha, hmin⟩ := h a (mem_cons_self ..)
    obtain ⟨hl, hlen⟩ := ih fun b hb => h b (mem_cons_of_mem _ hb)
    rw [flatMap_cons, length_append, length_cons, Nat.succ_mul, Nat.add_comm _ min]
    refine ⟨?_, Nat.add_le_add hmin hlen⟩
    exact ha.bind (hl.map (a :: ·) rfl) hlen

end ReadsAs

/-! ### Values -/

section Values

variable {P : Type} {cfg : ReaderConfig P} {ops : ReaderOps} {o : ObjId} {proxy : P → List UInt8}

theorem readsAs_readSize {n : Nat} (hn : n < 2 ^ 31) :
    ReadsAs (fromStream readSize) (encodeSize n) n 1 :=
  .fromStream (length_encodeSize_pos n) fun _ _ _ h _ => wp_readSize hn h

theorem readsAs_readNumeric (kind : Numeric) (v : BitVec (8 * kind.size)) :
    ReadsAs (fromStream (readNumeric kind)) (toLittleEndian kind.size v.toNat) v kind.size := by
  refine .fromStream (length_toLittleEndian kind.size _).ge fun s rest Q h _ => ?_
  have hlt : v.toNat < 256 ^ kind.size := by
    have := v.isLt
    rwa [Nat.pow_mul] at this
  have hread := @wp_readBytes s _ _ (fun _ _ => False)
    (fun bs s' => Q (BitVec.ofNat _ (ofLittleEndian bs)) s') h
  rw [length_toLittleEndian] at hread ⊢
  simp only [readNumeric, wp_bind, wp_pure, hread, ofLittleEndian_toLittleEndian hlt,
    BitVec.ofNat_toNat, BitVec.setWidth_eq]

theorem readsAs_readBool (m : Mapping) (v : Bool) :
    ReadsAs (fromStream (readBool m)) [v.toUInt8] v 1 := by
  refine .fromStream le_rfl fun s rest Q h _ => ?_
  rw [readBool, wp_bind, wp_readByte h]
  cases m <;> cases v <;> rfl

theorem readsAs_readEnumerator (m : Mapping) {e : Enum} {v : Nat} (hv : v ∈ e.values) :
    ReadsAs (fromStream (readEnumerator m e)) (encodeSize v) v 1 := by
  refine .fromStream (length_encodeSize_pos v) fun s rest Q h h11 => ?_
  obtain ⟨encaps, hencaps, h10⟩ := h11
  have hmin := Enum.minValue_le hv
  have hmax := Enum.le_maxValue hv
  have hrange : ¬ (v < e.minValue ∨ e.maxValue < v) := by omega
  simp only [readEnumerator, currentEncaps, wp_bind, wp_get, hencaps, wp_pure, Ice.readEnumerator,
    h10, Bool.false_eq_true, if_false]
  rw [wp_readSize (e.lt v hv) h]
  cases m with
  | cpp => simp only [throwIf, if_neg hrange, wp_bind, wp_pure]
  | swift => simp only [throwIf, if_neg (not_not.mpr hv), wp_bind, wp_pure]

/-- A sequence is read back: its size passes the check, since the elements have as many bytes as
    they need at least. -/
theorem readsAs_readSequence {α : Type} {m : Mapping} {element : DataType} {read : ReaderM α}
    {f : α → List UInt8} {l : List α} (hn : l.length < 2 ^ 31)
    (h : ∀ a ∈ l, ReadsAs read (f a) a element.minWireSize ∧ element.minWireSize ≤ (f a).length) :
    ReadsAs (readSequence m element read) (encodeSequence f l) l 1 := by
  obtain ⟨hloop, hlen⟩ := ReadsAs.repeatM l h
  intro r rest k hsize hr h11 hseq hk
  rw [encodeSequence, append_assoc] at hr
  have hpos := length_encodeSize_pos l.length
  have hfit : k + l.length * element.minWireSize ≤ (l.flatMap f ++ rest).length := by
    rw [length_append]
    omega
  have hseq' := (hseq.advance (encodeSize l.length).length).mono
    (show 1 + k - (encodeSize l.length).length ≤ k by omega)
  simp only [readSequence, create, fromStream, onDecoder, Decoder.onStream, wp_bind,
    wp_zoom, wp_modify]
  refine wp_readAndCheckSeqSize hn hsize hr hseq' hfit fun start size hneeds => ?_
  rw [Nat.add_comm k] at hneeds
  have hnext := upcoming_advance hr
  refine wp_mono (hloop _ rest k hsize hnext h11 hneeds hk) ?_ fun _ _ h => h
  rintro l' r' ⟨rfl, hbehind, hseq''⟩
  refine ⟨rfl, { hbehind with pos := ?_ }, hseq''⟩
  rw [encodeSequence, length_append, ← Nat.add_assoc]
  exact hbehind.pos

theorem assign_of_ne {α β : Type} {same : α → α → Bool} {entry : α × β} {v : List (α × β)}
    (h : ∀ e ∈ v, same e.1 entry.1 = false) : assign same entry v = v ++ [entry] := by
  induction v with
  | nil => rfl
  | cons e v ih =>
    obtain ⟨he, hv⟩ := forall_mem_cons.mp h
    rw [assign, if_neg (by simp [he]), ih hv, cons_append]

/-- Entries with distinct keys are all kept. -/
theorem foldl_assign {α β : Type} {same : α → α → Bool} {v l : List (α × β)}
    (h : DistinctKeys same (v ++ l)) : l.foldl (fun v entry => assign same entry v) v = v ++ l := by
  induction l generalizing v with
  | nil => rw [foldl_nil, List.append_nil]
  | cons entry l ih =>
    have hne : ∀ e ∈ v, same e.1 entry.1 = false := fun e he =>
      ((pairwise_append.mp h).2.2 e he entry mem_cons_self).1
    rw [append_cons] at h ⊢
    rw [foldl_cons, assign_of_ne hne, ih h]

/-- A dictionary is read back: its entries are not counted by the sequences around it. -/
theorem readsAs_readDictionary {α β : Type} (m : Mapping) {key value : DataType}
    {same : α → α → Bool}
    {readKey : ReaderM α} {readValue : ReaderM β} {f : α → List UInt8} {g : β → List UInt8}
    {l : List (α × β)} {i j : Nat} (hn : l.length < 2 ^ 31) (hkeys : DistinctKeys same l)
    (h : ∀ a ∈ l, (ReadsAs readKey (f a.1) a.1 i ∧ i ≤ (f a.1).length) ∧
      ReadsAs readValue (g a.2) a.2 j ∧ j ≤ (g a.2).length) :
    ReadsAs (readDictionary m key value same readKey readValue)
      (encodeSequence (encodeEntry f g) l) l 1 := by
  have hentry : ∀ a ∈ l, ReadsAs (do
        let k ← readKey
        let v ← readValue
        return (k, v)) (encodeEntry f g a) a (i + j) ∧ i + j ≤ (encodeEntry f g a).length := by
    intro a ha
    obtain ⟨⟨hkey, hi⟩, hvalue, hj⟩ := h a ha
    refine ⟨hkey.bind (hvalue.map (a.1, ·) rfl) hj, ?_⟩
    rw [encodeEntry, length_append]
    exact Nat.add_le_add hi hj
  obtain ⟨hloop, hlen⟩ := ReadsAs.repeatM l hentry
  have hcreate : ReadsAs (runIf (m = .swift ∧ value.isClassType = true)
      (create (.reader (.dictionary key value)) l.length)) [] () 0 := by
    intro r rest k _ _ _ hseq _
    rw [Nat.zero_add] at hseq
    rw [wp_runIf]
    exact ⟨fun _ => ⟨rfl, ⟨rfl, rfl, rfl, rfl⟩, hseq⟩, fun _ => ⟨rfl, ⟨rfl, rfl, rfl, rfl⟩, hseq⟩⟩
  have hassign : l.foldl (fun v entry => assign same entry v) [] = l := foldl_assign hkeys
  have hrest := hcreate.bind (f := fun _ => _) (hloop.map _ hassign) hlen
  rw [nil_append, Nat.zero_add] at hrest
  exact ((readsAs_readSize hn).bind hrest hlen).mono (Nat.le_add_right 1 _)

/-- What has to hold of the encoding of proxies, which the readers and writers take as a
    parameter. -/
structure ProxyCoding (cfg : ReaderConfig P) (proxy : P → List UInt8) : Prop where
  two_le : ∀ p, 2 ≤ (proxy p).length
  reads : ∀ p, ReadsAs (fromStream cfg.readProxy) (proxy p) p 2

mutual

/-- The readers read back what the writers write. -/
theorem readsAs_readType (hp : ProxyCoding cfg proxy) : ∀ t : DataType, t.classFree = true →
    ∀ v : t.Value P, t.Valid cfg.comparedBy v → (encode proxy t v).length < 2 ^ 31 →
      ReadsAs (readType cfg ops o t) (encode proxy t v) v t.minWireSize
  | .numeric kind, _, v, _, _ => readsAs_readNumeric kind v
  | .bool, _, v, _, _ => readsAs_readBool cfg.mapping v
  | .string, _, v, hv, hlt =>
    .fromStream (length_encodeString_pos v) fun _ _ _ h _ =>
      wp_readString_valid hv (length_lt_of_encodeString_lt hlt) h
  | .enum _, _, _, hv, _ => readsAs_readEnumerator cfg.mapping hv
  | .proxy, _, v, _, _ => hp.reads v
  | .struct members, h, v, hv, hlt => readsAs_readMembers hp members h v hv hlt
  | .sequence element, h, _, hv, hlt =>
    have hpos : ∀ a : element.Value P, 0 < (encode proxy element a).length :=
      length_encode_pos hp.two_le h
    have hparts := lt_of_encodeSequence_lt (fun a _ => hpos a) hlt
    readsAs_readSequence hparts.1 fun a ha =>
      ⟨readsAs_readType hp element h a (hv a ha) (hparts.2 a ha),
        minWireSize_le_length hp.two_le element h a⟩
  | .dictionary key value, h, _, hv, hlt =>
    have hboth := Bool.and_eq_true_iff.mp h
    have hpos : ∀ a : key.Value P × value.Value P,
        0 < (encodeEntry (encode proxy key) (encode proxy value) a).length := fun a =>
      (Nat.add_pos_left (length_encode_pos hp.two_le hboth.1 a.1) _).trans_eq
        length_append.symm
    have hparts := lt_of_encodeSequence_lt (fun a _ => hpos a) hlt
    readsAs_readDictionary cfg.mapping hparts.1 hv.2 fun a ha =>
      have hentry := lt_of_encodeEntry_lt (hparts.2 a ha)
      ⟨⟨readsAs_readType hp key hboth.1 a.1 (hv.1 a ha).1 hentry.1,
        minWireSize_le_length hp.two_le key hboth.1 a.1⟩,
        readsAs_readType hp value hboth.2 a.2 (hv.1 a ha).2 hentry.2,
        minWireSize_le_length hp.two_le value hboth.2 a.2⟩

theorem readsAs_readMembers (hp : ProxyCoding cfg proxy) : ∀ ms : Members, ms.classFree = true →
    ∀ v : ms.Values P, ms.Valid cfg.comparedBy v → (encodeMembers proxy ms v).length < 2 ^ 31 →
      ReadsAs (readMembers cfg ops o ms) (encodeMembers proxy ms v) v ms.minWireSize
  | .last type, h, v, hv, hlt => readsAs_readType hp type h v hv hlt
  | .cons type rest, h, v, hv, hlt =>
    have hboth := Bool.and_eq_true_iff.mp h
    have hentry := lt_of_encodeEntry_lt hlt
    (readsAs_readType hp type hboth.1 v.1 hv.1 hentry.1).bind
      ((readsAs_readMembers hp rest hboth.2 v.2 hv.2 hentry.2).map (v.1, ·) rfl)
      (minWireSize_le_length_members hp.two_le rest hboth.2 v.2)

end

end Values

/-- A null proxy: an identity with an empty name and an empty category. -/
def nullProxy : List UInt8 := [0, 0]

/-- A reader that knows no class, and no proxies but null. -/
def plainReader (m : Mapping) : ReaderConfig Unit where
  mapping := m
  normalForm := id
  classes := fun _ => none
  acceptClassCycles := false
  classGraphDepthMax := 10
  readProxy := do
    let _ ← readBytes 2

theorem proxyCoding_nullProxy (m : Mapping) : ProxyCoding (plainReader m) fun _ => nullProxy where
  two_le := fun _ => le_rfl
  reads := fun _ => .fromStream le_rfl fun _ _ _ h _ => by
    simp only [plainReader, wp_bind, wp_pure]
    exact wp_readBytes h

/-- A Swift dictionary has no fixed order: this writer enumerates it from the end. -/
def reversedWriter : WriterConfig Unit where
  mapping := .swift
  order := fun _ _ l => l.reverse
  order_perm := fun _ _ l => l.reverse_perm
  proxy := fun _ => nullProxy
  writeReference := fun _ => pure ()

/-- What the code of either mapping writes for members or parameters without classes, that of either
    mapping reads back, up to the order of dictionaries. -/
theorem members_read_back {P : Type} {writer : WriterConfig P} {cfg : ReaderConfig P} {ms : Members}
    {v : ms.Values P} (haccepted : ms.accepted = true) (hclasses : ms.usesClasses = false)
    (hv : ms.Valid cfg.comparedBy v)
    (hlen : (encodeMembers writer.proxy ms v).length < 2 ^ 31) (hp : ProxyCoding cfg writer.proxy) :
    ∃ bs u, Appends (writeMembers writer ms v) bs ∧ ms.Same v u ∧
      ∀ ops o, ReadsAs (readMembers cfg ops o ms) bs u ms.minWireSize := by
  have hms := classFree_of_usesClasses_members ms haccepted hclasses
  refine ⟨_, arrangeMembers writer ms v, appends_writeMembers hp.two_le ms hms v hv hlen,
    same_arrangeMembers ms v, fun ops o => ?_⟩
  refine readsAs_readMembers hp ms hms _ (valid_arrangeMembers ms v hv) ?_
  rwa [length_encodeMembers_arrange]

/-- A `dictionary<string, byte>` with the keys `a` and `é`. -/
def twoEntries : List (List UInt8 × BitVec 8) :=
  [([97], 7#8), ([0xC3, 0xA9], 8#8)]

/-- Swift writes a dictionary from the end, and C++ reads it. -/
theorem members_read_back_twoEntries :
    let ms := Members.last (.dictionary .string (.numeric .byte))
    ∃ bs u, Appends (writeMembers reversedWriter ms twoEntries) bs ∧ ms.Same twoEntries u ∧
      ∀ ops o, ReadsAs (readMembers (plainReader .cpp) ops o ms) bs u ms.minWireSize := by
  refine members_read_back rfl rfl ⟨fun e he => ?_, ?_⟩ (by decide) (proxyCoding_nullProxy .cpp)
  · have hutf8 : ∀ e ∈ twoEntries, validUtf8 e.1 = true := by decide
    exact ⟨hutf8 e he, trivial⟩
  · exact pairwise_pair.mpr (by decide)

end Slice

end Ice
