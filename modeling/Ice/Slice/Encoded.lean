import Ice.Misc.Scan
import Ice.Slice.Writing

/-!
# Encoded values of Slice types

The bytes of an encoded value as a function of the value. The writers of both mappings append these
bytes, for the value with its dictionaries in the order in which the mapping enumerates them; a
value has at least `minWireSize` bytes.
-/

namespace Ice.Slice

open List

variable {P : Type}

/-- The bytes of a sequence. -/
def encodeSequence {α : Type} (f : α → List UInt8) (v : List α) : List UInt8 :=
  encodeSize v.length ++ v.flatMap f

/-- The bytes of an entry of a dictionary. -/
def encodeEntry {α β : Type} (f : α → List UInt8) (g : β → List UInt8) (entry : α × β) :
    List UInt8 :=
  f entry.1 ++ g entry.2

mutual

/-- The bytes of a value in the 1.1 encoding. The types with classes are encoded by the encoder of
    the encapsulation, they have no bytes of their own here. -/
def encode (proxy : P → List UInt8) : (t : DataType) → t.Value P → List UInt8
  | .numeric kind => fun v => toLittleEndian kind.size (BitVec.toNat v)
  | .bool => fun v => [Bool.toUInt8 v]
  | .string => encodeString
  | .enum _ => encodeSize
  | .proxy => proxy
  | .cls _ => fun _ => []
  | .struct members => encodeMembers proxy members
  | .sequence element => encodeSequence (encode proxy element)
  | .dictionary key value => encodeSequence (encodeEntry (encode proxy key) (encode proxy value))

def encodeMembers (proxy : P → List UInt8) : (ms : Members) → ms.Values P → List UInt8
  | .last type => encode proxy type
  | .cons type rest => encodeEntry (encode proxy type) (encodeMembers proxy rest)

end

/-- `p` holds of all elements. -/
def AllElements {α : Type} (p : α → Prop) (v : List α) : Prop := ∀ a ∈ v, p a

/-- `p` holds of the first and `q` of the second component. -/
def BothParts {α β : Type} (p : α → Prop) (q : β → Prop) (v : α × β) : Prop := p v.1 ∧ q v.2

/-- No two entries have the same key. -/
def DistinctKeys {α β : Type} (same : α → α → Bool) (v : List (α × β)) : Prop :=
  v.Pairwise fun a b => same a.1 b.1 = false ∧ same b.1 a.1 = false

mutual

/-- A value that a mapping can hold which compares strings by the given normal form: strings are
    UTF-8, the value of an enumeration is that of an enumerator, and the keys of a dictionary are
    distinct. -/
def DataType.Valid (normal : List UInt8 → List UInt8) : (t : DataType) → t.Value P → Prop
  | .numeric _ | .bool | .proxy | .cls _ => fun _ => True
  | .string => fun v => validUtf8 v = true
  | .enum e => fun v => v ∈ e.values
  | .struct members => members.Valid normal
  | .sequence element => AllElements (element.Valid normal)
  | .dictionary key value => fun v =>
    AllElements (BothParts (key.Valid normal) (value.Valid normal)) v ∧
      DistinctKeys (key.sameKey normal) v

def Members.Valid (normal : List UInt8 → List UInt8) : (ms : Members) → ms.Values P → Prop
  | .last type => type.Valid normal
  | .cons type rest => BothParts (type.Valid normal) (rest.Valid normal)

end

/-- The entries in the order of their enumeration, with their parts mapped. -/
def arrangeEntries {α β : Type} (order : List (α × β) → List (α × β)) (f : α → α) (g : β → β)
    (v : List (α × β)) : List (α × β) :=
  (order v).map (Prod.map f g)

mutual

/-- The value with its dictionaries in the order in which a writer enumerates them. -/
def arrange (cfg : WriterConfig P) : (t : DataType) → t.Value P → t.Value P
  | .numeric _ | .bool | .string | .enum _ | .proxy | .cls _ => fun v => v
  | .struct members => arrangeMembers cfg members
  | .sequence element => List.map (arrange cfg element)
  | .dictionary key value =>
    arrangeEntries (cfg.order key value) (arrange cfg key) (arrange cfg value)

def arrangeMembers (cfg : WriterConfig P) : (ms : Members) → ms.Values P → ms.Values P
  | .last type => arrange cfg type
  | .cons type rest => Prod.map (arrange cfg type) (arrangeMembers cfg rest)

end

/-- Two pairs that agree in both parts. -/
def SameParts {α β : Type} (p : α → α → Prop) (q : β → β → Prop) (v w : α × β) : Prop :=
  p v.1 w.1 ∧ q v.2 w.2

/-- Two lists with the same elements, up to their order. -/
def SameElements {α : Type} (p : α → α → Prop) (v w : List α) : Prop :=
  ∃ l : List α, l.Perm v ∧ List.Forall₂ p l w

mutual

/-- The same value, up to the order in which dictionaries are enumerated. -/
def DataType.Same : (t : DataType) → t.Value P → t.Value P → Prop
  | .numeric _ | .bool | .string | .enum _ | .proxy | .cls _ => Eq
  | .struct members => members.Same
  | .sequence element => List.Forall₂ element.Same
  | .dictionary key value => SameElements (SameParts key.Same value.Same)

def Members.Same : (ms : Members) → ms.Values P → ms.Values P → Prop
  | .last type => type.Same
  | .cons type rest => SameParts type.Same rest.Same

end

/-! ### Arranged values -/

section Arrange

variable {cfg : WriterConfig P} {normal : List UInt8 → List UInt8}

mutual

theorem same_arrange : ∀ (t : DataType) (v : t.Value P), t.Same v (arrange cfg t v)
  | .numeric _ | .bool | .string | .enum _ | .proxy | .cls _ => fun _ => rfl
  | .struct members => same_arrangeMembers members
  | .sequence element => fun _ =>
    forall₂_map_right_iff.mpr (forall₂_same.mpr fun a _ => same_arrange element a)
  | .dictionary key value => fun v =>
    ⟨cfg.order key value v, cfg.order_perm key value v, forall₂_map_right_iff.mpr
      (forall₂_same.mpr fun a _ => ⟨same_arrange key a.1, same_arrange value a.2⟩)⟩

theorem same_arrangeMembers : ∀ (ms : Members) (v : ms.Values P),
    ms.Same v (arrangeMembers cfg ms v)
  | .last type => same_arrange type
  | .cons type rest => fun v => ⟨same_arrange type v.1, same_arrangeMembers rest v.2⟩

end

mutual

/-- Keys have no dictionaries in them, so they are compared as before. -/
theorem sameKey_arrange : ∀ (t : DataType) (a b : t.Value P),
    t.sameKey normal (arrange cfg t a) (arrange cfg t b) = t.sameKey normal a b
  | .numeric _ | .bool | .string | .enum _ | .proxy | .cls _ => fun _ _ => rfl
  | .struct members => sameKeys_arrangeMembers members
  | .sequence _ | .dictionary _ _ => fun _ _ => rfl

theorem sameKeys_arrangeMembers : ∀ (ms : Members) (a b : ms.Values P),
    ms.sameKeys normal (arrangeMembers cfg ms a) (arrangeMembers cfg ms b) = ms.sameKeys normal a b
  | .last type => sameKey_arrange type
  | .cons type rest => fun a b => congrArg₂ and (sameKey_arrange type a.1 b.1)
      (sameKeys_arrangeMembers rest a.2 b.2)

end

theorem distinctKeys_arrange {key value : DataType} {v : List (key.Value P × value.Value P)}
    (h : DistinctKeys (key.sameKey normal) v) : DistinctKeys (key.sameKey normal)
      (arrangeEntries (cfg.order key value) (arrange cfg key) (arrange cfg value) v) := by
  have hperm : DistinctKeys (key.sameKey normal) (cfg.order key value v) :=
    ((cfg.order_perm key value v).pairwise_iff fun hab => hab.symm).mpr h
  refine pairwise_map.mpr (hperm.imp fun hab => ?_)
  simpa only [Prod.map_fst, sameKey_arrange] using hab

mutual

theorem valid_arrange : ∀ (t : DataType) (v : t.Value P),
    t.Valid normal v → t.Valid normal (arrange cfg t v)
  | .numeric _ | .bool | .string | .enum _ | .proxy | .cls _ => fun _ h => h
  | .struct members => valid_arrangeMembers members
  | .sequence element => fun _ h =>
    forall_mem_map.mpr fun a ha => valid_arrange element a (h a ha)
  | .dictionary key value => fun v h =>
    ⟨forall_mem_map.mpr fun a ha =>
      have hmem := h.1 a ((cfg.order_perm key value v).mem_iff.mp ha)
      ⟨valid_arrange key a.1 hmem.1, valid_arrange value a.2 hmem.2⟩, distinctKeys_arrange h.2⟩

theorem valid_arrangeMembers : ∀ (ms : Members) (v : ms.Values P),
    ms.Valid normal v → ms.Valid normal (arrangeMembers cfg ms v)
  | .last type => valid_arrange type
  | .cons type rest => fun v h => ⟨valid_arrange type v.1 h.1, valid_arrangeMembers rest v.2 h.2⟩

end

theorem length_encodeSequence_map {α : Type} {f : α → List UInt8} {g : α → α}
    (h : ∀ a, (f (g a)).length = (f a).length) (v : List α) :
    (encodeSequence f (v.map g)).length = (encodeSequence f v).length := by
  simp only [encodeSequence, length_append, length_map, length_flatMap, map_map]
  congr 2
  exact map_congr_left fun a _ => h a

theorem length_encodeSequence_perm {α : Type} (f : α → List UInt8) {v w : List α} (h : v.Perm w) :
    (encodeSequence f v).length = (encodeSequence f w).length := by
  simp only [encodeSequence, length_append, h.length_eq, length_flatMap]
  rw [(h.map fun a => (f a).length).sum_nat]

theorem length_encodeEntry_map {α β : Type} {f : α → List UInt8} {g : β → List UInt8} {i : α → α}
    {j : β → β} (hf : ∀ a, (f (i a)).length = (f a).length)
    (hg : ∀ b, (g (j b)).length = (g b).length) (entry : α × β) :
    (encodeEntry f g (Prod.map i j entry)).length = (encodeEntry f g entry).length := by
  simp only [encodeEntry, Prod.map, length_append]
  rw [hf, hg]

mutual

/-- The order of the entries does not change the number of bytes. -/
theorem length_encode_arrange (proxy : P → List UInt8) : ∀ (t : DataType) (v : t.Value P),
    (encode proxy t (arrange cfg t v)).length = (encode proxy t v).length
  | .numeric _ | .bool | .string | .enum _ | .proxy | .cls _ => fun _ => rfl
  | .struct members => length_encodeMembers_arrange proxy members
  | .sequence element =>
    length_encodeSequence_map (length_encode_arrange proxy element)
  | .dictionary key value => fun v =>
    (length_encodeSequence_map (length_encodeEntry_map (length_encode_arrange proxy key)
      (length_encode_arrange proxy value)) _).trans
      (length_encodeSequence_perm _ (cfg.order_perm key value v))

theorem length_encodeMembers_arrange (proxy : P → List UInt8) : ∀ (ms : Members) (v : ms.Values P),
    (encodeMembers proxy ms (arrangeMembers cfg ms v)).length = (encodeMembers proxy ms v).length
  | .last type => length_encode_arrange proxy type
  | .cons type rest => length_encodeEntry_map (length_encode_arrange proxy type)
      (length_encodeMembers_arrange proxy rest)

end

end Arrange

/-! ### Types without classes -/

mutual

/-- No class occurs in the type. -/
def DataType.classFree : DataType → Bool
  | .numeric _ | .bool | .string | .enum _ | .proxy => true
  | .cls _ => false
  | .struct members => members.classFree
  | .sequence element => element.classFree
  | .dictionary key value => key.classFree && value.classFree

def Members.classFree : Members → Bool
  | .last type => type.classFree
  | .cons type rest => type.classFree && rest.classFree

end

mutual

theorem classFree_of_isLegalKeyType : ∀ t : DataType, t.isLegalKeyType = true → t.classFree = true
  | .numeric _, _ | .bool, _ | .string, _ | .enum _, _ => rfl
  | .struct members, h => classFree_of_areLegalKeyTypes members h

theorem classFree_of_areLegalKeyTypes :
    ∀ ms : Members, ms.areLegalKeyTypes = true → ms.classFree = true
  | .last type, h => classFree_of_isLegalKeyType type h
  | .cons type rest, h =>
    have hboth := Bool.and_eq_true_iff.mp h
    Bool.and_eq_true_iff.mpr ⟨classFree_of_isLegalKeyType type hboth.1,
      classFree_of_areLegalKeyTypes rest hboth.2⟩

end

mutual

/-- `usesClasses` does not look at the keys of dictionaries, which cannot be classes. -/
theorem classFree_of_usesClasses : ∀ t : DataType, t.accepted = true → t.usesClasses = false →
    t.classFree = true
  | .numeric _, _, _ | .bool, _, _ | .string, _, _ | .enum _, _, _ | .proxy, _, _ => rfl
  | .struct members, h, hc => classFree_of_usesClasses_members members h hc
  | .sequence element, h, hc => classFree_of_usesClasses element h hc
  | .dictionary key value, h, hc =>
    have hboth := Bool.and_eq_true_iff.mp h
    Bool.and_eq_true_iff.mpr ⟨classFree_of_isLegalKeyType key hboth.1,
      classFree_of_usesClasses value hboth.2 hc⟩

theorem classFree_of_usesClasses_members : ∀ ms : Members, ms.accepted = true →
    ms.usesClasses = false → ms.classFree = true
  | .last type, h, hc => classFree_of_usesClasses type h hc
  | .cons type rest, h, hc =>
    have hboth := Bool.and_eq_true_iff.mp h
    have hneither := Bool.or_eq_false_iff.mp hc
    Bool.and_eq_true_iff.mpr ⟨classFree_of_usesClasses type hboth.1 hneither.1,
      classFree_of_usesClasses_members rest hboth.2 hneither.2⟩

end

/-! ### Lengths -/

theorem length_encodeSequence_pos {α : Type} (f : α → List UInt8) (v : List α) :
    0 < (encodeSequence f v).length := by
  rw [encodeSequence, length_append]
  exact Nat.add_pos_left (length_encodeSize_pos _) _

/-- The parts of a sequence that is short enough are short enough. -/
theorem lt_of_encodeSequence_lt {α : Type} {f : α → List UInt8} {v : List α} {k : Nat}
    (hpos : ∀ a ∈ v, 0 < (f a).length) (h : (encodeSequence f v).length < k) :
    v.length < k ∧ ∀ a ∈ v, (f a).length < k := by
  rw [encodeSequence, length_append] at h
  have hflat : (v.flatMap f).length < k := by omega
  refine ⟨?_, fun a ha => ?_⟩
  · exact (Misc.length_le_flatMap hpos).trans_lt hflat
  · have hsub : (f a).Sublist (v.map f).flatten := sublist_flatten_of_mem (mem_map_of_mem ha)
    exact Nat.lt_of_le_of_lt hsub.length_le hflat

mutual

/-- A value has at least `minWireSize` bytes. -/
theorem minWireSize_le_length {proxy : P → List UInt8} (hproxy : ∀ p, 2 ≤ (proxy p).length) :
    ∀ t : DataType, t.classFree = true → ∀ v : t.Value P,
      t.minWireSize ≤ (encode proxy t v).length
  | .numeric kind, _, _ => (length_toLittleEndian kind.size _).ge
  | .bool, _, _ => Nat.le_refl 1
  | .string, _, v => length_encodeString_pos v
  | .enum _, _, v => length_encodeSize_pos v
  | .proxy, _, v => hproxy v
  | .struct members, h, v => minWireSize_le_length_members hproxy members h v
  | .sequence _, _, v => length_encodeSequence_pos _ v
  | .dictionary _ _, _, v => length_encodeSequence_pos _ v

theorem minWireSize_le_length_members {proxy : P → List UInt8}
    (hproxy : ∀ p, 2 ≤ (proxy p).length) : ∀ ms : Members, ms.classFree = true →
      ∀ v : ms.Values P, ms.minWireSize ≤ (encodeMembers proxy ms v).length
  | .last type, h, v => minWireSize_le_length hproxy type h v
  | .cons type rest, h, v => by
    have hboth := Bool.and_eq_true_iff.mp h
    have htype := minWireSize_le_length hproxy type hboth.1 v.1
    have hrest := minWireSize_le_length_members hproxy rest hboth.2 v.2
    exact (Nat.add_le_add htype hrest).trans_eq length_append.symm

end

theorem length_encode_pos {proxy : P → List UInt8} (hproxy : ∀ p, 2 ≤ (proxy p).length)
    {t : DataType} (ht : t.classFree = true) (v : t.Value P) : 0 < (encode proxy t v).length :=
  t.minWireSize_pos.trans_le (minWireSize_le_length hproxy t ht v)

/-- The parts of an entry are shorter than the entry. -/
theorem lt_of_encodeEntry_lt {α β : Type} {f : α → List UInt8} {g : β → List UInt8}
    {entry : α × β} {k : Nat} (h : (encodeEntry f g entry).length < k) :
    (f entry.1).length < k ∧ (g entry.2).length < k := by
  rw [encodeEntry, length_append] at h
  omega

end Ice.Slice
