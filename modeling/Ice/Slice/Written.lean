import Ice.Slice.Encoded

/-!
# Written values

What the C++ templates and the generated Swift code append to a stream for a value: the bytes of
`Ice.Slice.Encoded`, with the dictionaries in the order of the mapping.
-/

namespace Ice.Slice

open List DataType

variable {P : Type} {cfg : WriterConfig P} {normal : List UInt8 → List UInt8}

theorem foldl_min_le {α : Type} [SemilatticeInf α] (l : List α) (a : α) :
    ∀ b ∈ a :: l, l.foldl min a ≤ b := by
  induction l generalizing a with
  | nil => exact forall_mem_singleton.mpr le_rfl
  | cons c l ih =>
    have hmin := forall_mem_cons.mp (ih (min a c))
    refine forall_mem_cons.mpr ⟨hmin.1.trans inf_le_left, forall_mem_cons.mpr ⟨?_, hmin.2⟩⟩
    exact hmin.1.trans inf_le_right

theorem Enum.minValue_le {e : Enum} {v : Nat} (h : v ∈ e.values) : e.minValue ≤ v :=
  foldl_min_le e.others e.first v h

theorem Enum.le_maxValue {e : Enum} {v : Nat} (h : v ∈ e.values) : v ≤ e.maxValue :=
  @foldl_min_le Natᵒᵈ _ e.others e.first v h

variable (m : Mapping)

theorem appends_writeEnumerator {e : Enum} {v : Nat} (h : v ∈ e.values) :
    Appends (writeEnumerator m e v) (encodeSize v) := by
  intro os henc hpos hlt
  have hmin := Enum.minValue_le h
  have hmax := Enum.le_maxValue h
  simp only [writeEnumerator, wp_bind, wp_throwIf, wp_get, henc, Bool.false_eq_true, if_false]
  refine ⟨by omega, fun _ => ?_⟩
  exact Appends.writeSize m (e.lt v h) os henc hpos hlt

theorem appends_writeString {v : List UInt8} (h : (encodeString v).length < 2 ^ 31) :
    Appends (writeString m v) (encodeString v) := by
  rw [encodeString, length_append] at h
  exact (Appends.writeSize m (by omega)).bind (Appends.writeBlob v)

theorem appends_writeSequence {α : Type} {write : α → OutputM Unit}
    {f : α → List UInt8} {g : α → α} {v : List α} (hn : v.length < 2 ^ 31)
    (h : ∀ a ∈ v, Appends (write a) (f (g a))) :
    Appends (writeSequence m write v) (encodeSequence f (v.map g)) := by
  rw [encodeSequence, length_map, flatMap_map]
  exact (Appends.writeSize m hn).bind (Appends.forEach h)

theorem appends_writeDictionary {α β : Type} {order : List (α × β) → List (α × β)}
    {writeKey : α → OutputM Unit} {writeValue : β → OutputM Unit} {f : α → List UInt8}
    {g : β → List UInt8} {i : α → α} {j : β → β} {v : List (α × β)} (hperm : (order v).Perm v)
    (hn : v.length < 2 ^ 31)
    (h : ∀ a ∈ v, Appends (writeKey a.1) (f (i a.1)) ∧ Appends (writeValue a.2) (g (j a.2))) :
    Appends (writeDictionary m order writeKey writeValue v)
      (encodeSequence (encodeEntry f g) (arrangeEntries order i j v)) := by
  rw [encodeSequence, arrangeEntries, length_map, hperm.length_eq, flatMap_map]
  refine (Appends.writeSize m hn).bind (Appends.forEach fun a ha => ?_)
  have hboth := h a (hperm.mem_iff.mp ha)
  exact hboth.1.bind hboth.2

mutual

/-- A writer appends the bytes of the value, with the dictionaries in its order. -/
theorem appends_writeType (hproxy : ∀ p, 2 ≤ (cfg.proxy p).length) : ∀ t : DataType,
    t.classFree = true → ∀ v : t.Value P, t.Valid normal v →
    (encode cfg.proxy t v).length < 2 ^ 31 →
      Appends (writeType cfg t v) (encode cfg.proxy t (arrange cfg t v))
  | .numeric _, _, _, _, _ | .bool, _, _, _, _ | .proxy, _, _, _, _ => Appends.writeBlob _
  | .string, _, _, _, hlt => appends_writeString _ hlt
  | .enum _, _, _, hv, _ => appends_writeEnumerator _ hv
  | .struct members, h, v, hv, hlt => appends_writeMembers hproxy members h v hv hlt
  | .sequence element, h, _, hv, hlt =>
    have hpos : ∀ a : element.Value P, 0 < (encode cfg.proxy element a).length :=
      length_encode_pos hproxy h
    have hparts := lt_of_encodeSequence_lt (fun a _ => hpos a) hlt
    appends_writeSequence _ hparts.1 fun a ha =>
      appends_writeType hproxy element h a (hv a ha) (hparts.2 a ha)
  | .dictionary key value, h, v, hv, hlt =>
    have hboth := Bool.and_eq_true_iff.mp h
    have hpos : ∀ a : key.Value P × value.Value P,
        0 < (encodeEntry (encode cfg.proxy key) (encode cfg.proxy value) a).length := fun a =>
      (Nat.add_pos_left (length_encode_pos hproxy hboth.1 a.1) _).trans_eq length_append.symm
    have hparts := lt_of_encodeSequence_lt (fun a _ => hpos a) hlt
    appends_writeDictionary _ (cfg.order_perm key value v) hparts.1 fun a ha =>
      have hentry := lt_of_encodeEntry_lt (hparts.2 a ha)
      ⟨appends_writeType hproxy key hboth.1 a.1 (hv.1 a ha).1 hentry.1,
        appends_writeType hproxy value hboth.2 a.2 (hv.1 a ha).2 hentry.2⟩

theorem appends_writeMembers (hproxy : ∀ p, 2 ≤ (cfg.proxy p).length) : ∀ ms : Members,
    ms.classFree = true → ∀ v : ms.Values P, ms.Valid normal v →
      (encodeMembers cfg.proxy ms v).length < 2 ^ 31 →
      Appends (writeMembers cfg ms v) (encodeMembers cfg.proxy ms (arrangeMembers cfg ms v))
  | .last type, h, v, hv, hlt => appends_writeType hproxy type h v hv hlt
  | .cons type rest, h, v, hv, hlt =>
    have hboth := Bool.and_eq_true_iff.mp h
    have hentry := lt_of_encodeEntry_lt hlt
    (appends_writeType hproxy type hboth.1 v.1 hv.1 hentry.1).bind
      (appends_writeMembers hproxy rest hboth.2 v.2 hv.2 hentry.2)

end

end Ice.Slice
