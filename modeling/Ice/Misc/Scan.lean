import Mathlib

/-!
# Scanners

A scanner reads an item at the front of a list and leaves the rest. `many` is the loop of a
hand-written parser: it reads items until its scanner stops or fails.
-/

namespace Ice.Misc

variable {α β ε : Type}

/-! ## Results of parsers -/

theorem bind_eq_ok_iff {x : Except ε α} {f : α → Except ε β} {b : β} :
    x >>= f = .ok b ↔ ∃ a, x = .ok a ∧ f a = .ok b := by
  cases x with
  | error e => simp [bind, Except.bind]
  | ok a => simp [bind, Except.bind]

theorem mapError_eq_ok_iff {ε' : Type} {x : Except ε α} {f : ε → ε'} {a : α} :
    x.mapError f = .ok a ↔ x = .ok a := by
  cases x with
  | error e => simp [Except.mapError]
  | ok a => simp [Except.mapError]

/-! ## Loops -/

/-- Reads items until `item` says `none`. The fuel bounds the number of items. -/
def many (item : List α → Except ε (Option (List β × List α))) :
    Nat → List α → Except ε (List β × List α)
  | 0, data => .ok ([], data)
  | fuel + 1, data =>
    match item data with
    | .error e => .error e
    | .ok none => .ok ([], data)
    | .ok (some (result, rest)) =>
      match many item fuel rest with
      | .error e => .error e
      | .ok (results, rest) => .ok (result ++ results, rest)

/-- Items that are read one after the other, and then a stop. -/
theorem many_flatMap {item : List α → Except ε (Option (List β × List α))} {γ : Type}
    {f : γ → List α} {g : γ → List β} {items : List γ} {rest : List α} {fuel : Nat}
    (hitem : ∀ i ∈ items, ∀ tail, item (f i ++ tail) = .ok (some (g i, tail)))
    (hstop : item rest = .ok none) (hfuel : items.length ≤ fuel) :
    many item fuel (items.flatMap f ++ rest) = .ok (items.flatMap g, rest) := by
  induction items generalizing fuel with
  | nil =>
    cases fuel with
    | zero => rfl
    | succ fuel => simp [many, hstop]
  | cons i items ih =>
    obtain ⟨fuel, rfl⟩ : ∃ n, fuel = n + 1 := ⟨fuel - 1, by simp at hfuel; omega⟩
    have hi := hitem i List.mem_cons_self (items.flatMap f ++ rest)
    have htail := ih (fun j hj => hitem j (List.mem_cons_of_mem _ hj)) (by simpa using hfuel)
    simp [many, hi, htail]

theorem length_le_flatMap {f : α → List β} {l : List α} (h : ∀ a ∈ l, 0 < (f a).length) :
    l.length ≤ (l.flatMap f).length := by
  rw [List.length_flatMap]
  simpa using List.length_le_sum_of_one_le _ (List.forall_mem_map.mpr h)

/-- A loop with a bound runs to where it stops, if every round makes the state smaller. -/
theorem loop_iff {σ : Type} {W : Nat → σ → Prop} {Stop I : σ → Prop} {Next : σ → σ → Prop}
    {m : σ → Nat} (hsucc : ∀ n s, W (n + 1) s ↔ Stop s ∨ ∃ s', Next s s' ∧ W n s')
    (hnext : ∀ s s', I s → Next s s' → I s' ∧ m s' < m s) {n : Nat} {s : σ} (hs : I s)
    (hn : m s < n) :
    W n s ↔ ∃ q, Relation.ReflTransGen Next s q ∧ Stop q := by
  induction n generalizing s with
  | zero => omega
  | succ n ih =>
    have hrest : ∀ s', Next s s' → (W n s' ↔ _) := fun s' h =>
      ih (hnext s s' hs h).1 (by have := (hnext s s' hs h).2; omega)
    rw [hsucc]
    constructor
    · rintro (hstop | ⟨s', h, hw⟩)
      · exact ⟨s, .refl, hstop⟩
      · obtain ⟨q, hq, hstop⟩ := (hrest s' h).mp hw
        exact ⟨q, .head h hq, hstop⟩
    · rintro ⟨q, hq, hstop⟩
      rcases hq.cases_head with rfl | ⟨s', h, hq⟩
      · exact .inl hstop
      · exact .inr ⟨s', h, (hrest s' h).mpr ⟨q, hq, hstop⟩⟩

/-- Two places that nothing follows are the same if they are reached from the same place. -/
theorem stuck_unique {σ : Type} {r : σ → σ → Prop} (hr : Relator.RightUnique r) {s p q : σ}
    (hp : Relation.ReflTransGen r s p) (hq : Relation.ReflTransGen r s q) (hp' : ∀ c, ¬ r p c)
    (hq' : ∀ c, ¬ r q c) : p = q := by
  rcases Relation.ReflTransGen.total_of_right_unique hr hp hq with h | h
  · rcases h.cases_head with h | ⟨c, hc, -⟩
    · exact h
    · exact absurd hc (hp' c)
  · rcases h.cases_head with h | ⟨c, hc, -⟩
    · exact h.symm
    · exact absurd hc (hq' c)

end Ice.Misc
