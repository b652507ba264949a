import Mathlib

/-!
# Acyclic relations that grow

A relation is acyclic if no element reaches itself. Adding a pair keeps it acyclic when the second
element does not reach the first (`Acyclic.insert`): it never does when nothing leads to the first
(`not_reaches_of_no_incoming`) or nothing leaves the second (`not_reaches_of_no_outgoing`). Pairs
with a first element that nothing leads to may be added all at once (`Acyclic.grow`).
-/

namespace Ice

variable {α : Type}

/-- No element reaches itself. -/
def Acyclic (r : α → α → Prop) : Prop := ∀ a, ¬ Relation.TransGen r a a

/-- The relation `r` with one more pair. -/
def insertPair (r : α → α → Prop) (x y : α) (a b : α) : Prop := r a b ∨ a = x ∧ b = y

variable {r : α → α → Prop}

theorem Acyclic.mono {s : α → α → Prop} (h : Acyclic s) (hrs : ∀ a b, r a b → s a b) :
    Acyclic r := by
  intro a hr
  exact h a (Relation.TransGen.mono hrs a a hr)

/-- A path of the larger relation is one of `r`, or goes through the new pair. -/
theorem transGen_insertPair {x y a b : α} (h : Relation.TransGen (insertPair r x y) a b) :
    Relation.TransGen r a b ∨ Relation.ReflTransGen r a x ∧ Relation.ReflTransGen r y b := by
  induction h with
  | single hab =>
    rcases hab with hr | ⟨rfl, rfl⟩
    · exact .inl (.single hr)
    · exact .inr ⟨.refl, .refl⟩
  | tail _ hbc ih =>
    rcases hbc with hr | ⟨rfl, rfl⟩
    · rcases ih with hpath | ⟨hx, hy⟩
      · exact .inl (hpath.tail hr)
      · exact .inr ⟨hx, hy.tail hr⟩
    · rcases ih with hpath | ⟨hx, -⟩
      · exact .inr ⟨hpath.to_reflTransGen, .refl⟩
      · exact .inr ⟨hx, .refl⟩

theorem Acyclic.insert {x y : α} (h : Acyclic r) (hxy : ¬ Relation.ReflTransGen r y x) :
    Acyclic (insertPair r x y) := by
  intro a ha
  rcases transGen_insertPair ha with hpath | ⟨hax, hya⟩
  · exact h a hpath
  · exact hxy (hya.trans hax)

/-- Pairs are added to an element that nothing leads to, then either. -/
theorem Acyclic.grow {s : α → α → Prop} {x : α} (h : Acyclic r) (hs : ∀ a b, s a b → r a b ∨ a = x)
    (hin : ∀ a, ¬ s a x) : Acyclic s := by
  have hne : ∀ {a b}, Relation.TransGen s a b → b ≠ x := by
    rintro a b hpath rfl
    obtain ⟨c, -, hc⟩ := Relation.TransGen.tail'_iff.mp hpath
    exact hin c hc
  intro a ha
  have hpath : ∀ b, Relation.TransGen s a b → Relation.TransGen r a b := by
    intro b hb
    induction hb with
    | single hab => exact .single ((hs _ _ hab).resolve_right (hne ha))
    | tail hab hbc ih => exact ih.tail ((hs _ _ hbc).resolve_right (hne hab))
  exact h a (hpath a ha)

theorem not_reaches_of_no_outgoing {x y : α} (hout : ∀ a, ¬ r y a) (hne : y ≠ x) :
    ¬ Relation.ReflTransGen r y x := by
  intro hpath
  rcases hpath.cases_head with rfl | ⟨z, hz, -⟩
  · exact hne rfl
  · exact hout z hz

theorem not_reaches_of_no_incoming {x y : α} (hin : ∀ a, ¬ r a x) (hne : y ≠ x) :
    ¬ Relation.ReflTransGen r y x := by
  intro hpath
  rcases hpath.cases_tail with rfl | ⟨z, -, hz⟩
  · exact hne rfl
  · exact hin z hz

end Ice
