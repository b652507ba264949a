import Mathlib

/-!
# Lists that are changed at one position, and association lists
-/

namespace Ice

variable {α β : Type}

theorem mem_modify {l : List α} {n : Nat} {f : α → α} {a : α} (h : a ∈ l.modify n f) :
    a ∈ l ∨ ∃ b ∈ l, a = f b := by
  obtain ⟨i, hi⟩ := List.mem_iff_getElem?.mp h
  rw [List.getElem?_modify] at hi
  obtain ⟨b, hb, hab⟩ := Option.map_eq_some_iff.mp hi
  have hmem : b ∈ l := List.mem_iff_getElem?.mpr ⟨i, hb⟩
  by_cases hn : n = i
  · rw [if_pos hn] at hab
    exact .inr ⟨b, hmem, hab.symm⟩
  · rw [if_neg hn] at hab
    exact .inl (hab ▸ hmem)

theorem mem_of_lookup [BEq α] [LawfulBEq α] {l : List (α × β)} {a : α} {b : β}
    (h : l.lookup a = some b) : (a, b) ∈ l := by
  obtain ⟨l1, l2, rfl, -⟩ := List.lookup_eq_some_iff.mp h
  simp

/-- An element that differs from all that come behind it occurs at most once. -/
theorem count_le_one [BEq α] [LawfulBEq α] {l : List α} {p : α → Prop} {a : α} (hp : p a)
    (h : l.Pairwise fun a b => p a → a ≠ b) : l.count a ≤ 1 := by
  induction l with
  | nil => simp
  | cons b l ih =>
    obtain ⟨hb, hl⟩ := List.pairwise_cons.mp h
    rw [List.count_cons]
    split
    · next heq =>
      have heq : b = a := by simpa using heq
      subst heq
      have hzero : l.count b = 0 := List.count_eq_zero.mpr fun hmem => hb b hmem hp rfl
      omega
    · exact ih hl

/-- Two ways to split a list at the first occurrence of an element are the same. -/
theorem append_cons_inj {l l' r r' : List α} {a : α} (hl : a ∉ l) (hl' : a ∉ l')
    (h : l ++ a :: r = l' ++ a :: r') : l = l' ∧ r = r' := by
  induction l generalizing l' with
  | nil =>
    cases l' with
    | nil => exact ⟨rfl, by simpa using h⟩
    | cons b l' =>
      obtain ⟨rfl, -⟩ : a = b ∧ _ := by simpa using h
      exact absurd List.mem_cons_self hl'
  | cons b l ih =>
    cases l' with
    | nil =>
      obtain ⟨rfl, -⟩ : b = a ∧ _ := by simpa using h
      exact absurd List.mem_cons_self hl
    | cons b' l' =>
      obtain ⟨rfl, htail⟩ := List.cons_eq_cons.mp h
      obtain ⟨rfl, rfl⟩ := ih (List.not_mem_of_not_mem_cons hl) (List.not_mem_of_not_mem_cons hl')
        htail
      exact ⟨rfl, rfl⟩

end Ice
