import Mathlib

/-!
# Backtracking with remembered failures

A search goes through a list of layers. A layer offers positions one after the other: a first one,
then the one after the last it offered. The search takes the first offer from which the layers
behind can be finished. It remembers the layer and position where it found none, in a vector that
it reads before it tries.
-/

namespace Ice.Misc

variable {α σ : Type}

/-- Tries the positions that `next` gives one after the other, until the body accepts one. The fuel
    bounds the number of positions. -/
def tryAll (next : α → Option α) (body : α → σ → Bool × σ) : Nat → Option α → σ → Bool × σ
  | 0, _, s => (false, s)
  | _ + 1, none, s => (false, s)
  | fuel + 1, some a, s =>
    match body a s with
    | (true, s) => (true, s)
    | (false, s) => tryAll next body fuel (next a) s

/-- The positions that come up, one after the other. -/
inductive Offered (next : α → Option α) : Option α → α → Prop
  | here (a : α) : Offered next (some a) a
  | there {a b : α} : Offered next (next a) b → Offered next (some a) b

variable {next : α → Option α}

theorem not_offered_none {a : α} : ¬ Offered next none a := nofun

theorem offered_some {a b : α} : Offered next (some a) b ↔ b = a ∨ Offered next (next a) b := by
  constructor
  · intro h
    cases h with
    | here => exact .inl rfl
    | there h => exact .inr h
  · rintro (rfl | h)
    · exact .here b
    · exact .there h

/-- A layer offers positions from a given one on. -/
structure Layer (α : Type) where
  first : α → Option α
  next : α → Option α

/-- The positions that a layer offers from `a` on. -/
def Layer.Offers (l : Layer α) (a b : α) : Prop := Offered l.next (l.first a) b

/-- What comes up from `a` on is the first offer, and what comes up from where the second one is
    looked for. -/
theorem Layer.offers_iff {l : Layer α} (Valid : α → Prop) (rank : α → Nat) {S : α → α → Prop}
    (hnone : ∀ a b, Valid a → l.first a = none → ¬ S a b)
    (hsome : ∀ a c, Valid a → l.first a = some c → ∃ a', Valid a' ∧ l.next c = l.first a' ∧
      rank a' < rank a ∧ ∀ b, S a b ↔ b = c ∨ S a' b)
    {a : α} (ha : Valid a) (b : α) : l.Offers a b ↔ S a b := by
  unfold Offers
  induction hn : rank a using Nat.strongRecOn generalizing a with
  | ind n ih =>
    cases hfirst : l.first a with
    | none => exact iff_of_false not_offered_none (hnone a b ha hfirst)
    | some c =>
      obtain ⟨a', ha', hnext, hrank, hS⟩ := hsome a c ha hfirst
      rw [offered_some, hnext, hS, ih _ (hn ▸ hrank) ha' rfl]

/-- A layer that is never asked twice. -/
theorem Layer.offers_of_next_none {l : Layer α} (hnext : ∀ b, l.next b = none) (a b : α) :
    l.Offers a b ↔ l.first a = some b := by
  unfold Offers
  cases l.first a with
  | none => simp [not_offered_none]
  | some c => simp [offered_some, hnext, not_offered_none, eq_comm]

/-- Positions that lie in `Valid` and grow towards a bound come to an end, so the loop finds an
    offer that has the property if there is one. -/
theorem tryAll_spec {body : α → σ → Bool × σ} {Inv : σ → Prop} {Valid Good : α → Prop}
    {rank : α → Nat} (hnext : ∀ a b, Valid a → next a = some b → Valid b ∧ rank b < rank a)
    (hbody : ∀ a s, Valid a → Inv s → Inv (body a s).2 ∧ ((body a s).1 = true ↔ Good a))
    {fuel : Nat} {o : Option α} {s : σ} (ho : ∀ a ∈ o, Valid a ∧ rank a < fuel) (hs : Inv s) :
    Inv (tryAll next body fuel o s).2 ∧
      ((tryAll next body fuel o s).1 = true ↔ ∃ a, Offered next o a ∧ Good a) := by
  induction fuel generalizing o s with
  | zero =>
    have hnone : o = none := by
      cases o with
      | none => rfl
      | some a => exact absurd (ho a rfl).2 (Nat.not_lt_zero _)
    subst hnone
    simp [tryAll, hs, not_offered_none]
  | succ fuel ih =>
    cases o with
    | none => simp [tryAll, hs, not_offered_none]
    | some a =>
      obtain ⟨hvalid, hrank⟩ := ho a rfl
      obtain ⟨hinv, hgood⟩ := hbody a s hvalid hs
      rw [tryAll]
      rcases hresult : body a s with ⟨found, s'⟩
      rw [hresult] at hinv hgood
      cases found with
      | true => exact ⟨hinv, iff_of_true rfl ⟨a, .here a, hgood.mp rfl⟩⟩
      | false =>
        have hbad : ¬ Good a := fun h => Bool.noConfusion (hgood.mpr h)
        have hrest : ∀ b ∈ next a, Valid b ∧ rank b < fuel := by
          intro b hb
          obtain ⟨hb, hlt⟩ := hnext a b hvalid hb
          exact ⟨hb, by omega⟩
        obtain ⟨hinv', hfound⟩ := ih hrest hinv
        refine ⟨hinv', hfound.trans ?_⟩
        constructor
        · rintro ⟨b, hb, hb'⟩
          exact ⟨b, .there hb, hb'⟩
        · rintro ⟨b, hb, hb'⟩
          rcases offered_some.mp hb with rfl | hb
          · exact absurd hb' hbad
          · exact ⟨b, hb, hb'⟩

/-- The layers can be finished from a position. -/
def Reaches (done : α → Prop) : List (Layer α) → α → Prop
  | [], a => done a
  | l :: layers, a => ∃ b, l.Offers a b ∧ Reaches done layers b

/-- The search with its vector of failures, which has a place `key i a` for position `a` at layer
    `i`. -/
def search (done : α → Bool) (key : Nat → α → Nat) (fuel : Nat) :
    List (Layer α) → Nat → α → List Bool → Bool × List Bool
  | [], _, a, failed => (done a, failed)
  | l :: layers, i, a, failed =>
    if failed.getD (key i a) false then (false, failed)
    else
      match tryAll l.next (search done key fuel layers (i + 1)) fuel (l.first a) failed with
      | (true, failed) => (true, failed)
      | (false, failed) => (false, failed.set (key i a) true)

/-- A layer that stays among the valid positions and makes progress within the fuel. -/
structure Layer.Sound (l : Layer α) (Valid : α → Prop) (rank : α → Nat) (fuel : Nat) : Prop where
  first : ∀ a b, Valid a → l.first a = some b → Valid b ∧ rank b < fuel
  next : ∀ a b, Valid a → l.next a = some b → Valid b ∧ rank b < rank a

section Memo

variable {done : α → Bool} {key : Nat → α → Nat} {fuel : Nat} {Valid : α → Prop} {rank : α → Nat}

/-- Every remembered failure of the layers is one. -/
def Remembers (done : α → Bool) (key : Nat → α → Nat) (Valid : α → Prop) (all : List (Layer α))
    (failed : List Bool) : Prop :=
  ∀ i a, i < all.length → Valid a → failed.getD (key i a) false = true →
    ¬ Reaches (done · = true) (all.drop i) a

theorem remembers_replicate (all : List (Layer α)) (n : Nat) :
    Remembers done key Valid all (List.replicate n false) := by
  intro i a _ _ h
  rw [List.getD_eq_getElem?_getD, List.getElem?_replicate] at h
  split at h <;> simp at h

section

variable (hkey : ∀ i j a b, Valid a → Valid b → key i a = key j b → i = j ∧ a = b)
include hkey

theorem Remembers.set {all : List (Layer α)} {failed : List Bool}
    (h : Remembers done key Valid all failed)
    {i : Nat} {a : α} (ha : Valid a) (hfail : ¬ Reaches (done · = true) (all.drop i) a) :
    Remembers done key Valid all (failed.set (key i a) true) := by
  intro j b hj hb hset
  by_cases heq : key i a = key j b
  · obtain ⟨rfl, rfl⟩ := hkey i j a b ha hb heq
    exact hfail
  · apply h j b hj hb
    rwa [List.getD_eq_getElem?_getD, List.getElem?_set_ne heq, ← List.getD_eq_getElem?_getD] at hset

/-- The search finds a way through the layers from `i` on if there is one. -/
theorem search_from {all : List (Layer α)}
    (hsound : ∀ l ∈ all, l.Sound Valid rank fuel) {layers : List (Layer α)} {i : Nat}
    (hlayers : all.drop i = layers) {a : α} (ha : Valid a) {failed : List Bool}
    (hfailed : Remembers done key Valid all failed) :
    Remembers done key Valid all (search done key fuel layers i a failed).2 ∧
      ((search done key fuel layers i a failed).1 = true ↔
        Reaches (done · = true) layers a) := by
  induction layers generalizing i a failed with
  | nil => exact ⟨hfailed, Iff.rfl⟩
  | cons l layers ih =>
    have hmem : l ∈ all := List.drop_subset i all (hlayers ▸ List.mem_cons_self)
    have hi : i < all.length := by
      by_contra hge
      rw [List.drop_eq_nil_of_le (Nat.le_of_not_lt hge)] at hlayers
      cases hlayers
    have htail : all.drop (i + 1) = layers := by
      rw [← List.tail_drop, hlayers, List.tail_cons]
    obtain ⟨hfirst, hnext⟩ := hsound l hmem
    rw [search]
    split_ifs with hknown
    · exact ⟨hfailed, iff_of_false (by simp) (hlayers ▸ hfailed i a hi ha hknown)⟩
    · have hloop := tryAll_spec (o := l.first a) hnext (fun b s hb hs => ih htail hb hs)
        (fun b hb => hfirst a b ha hb) hfailed
      rcases hresult : tryAll l.next (search done key fuel layers (i + 1)) fuel (l.first a) failed
        with ⟨found, failed'⟩
      rw [hresult] at hloop
      cases found with
      | true => exact ⟨hloop.1, iff_of_true rfl (hloop.2.mp rfl)⟩
      | false =>
        have hfail : ¬ Reaches (done · = true) (l :: layers) a :=
          fun h => Bool.noConfusion (hloop.2.mpr h)
        exact ⟨hloop.1.set hkey ha (hlayers ▸ hfail), iff_of_false (by simp) hfail⟩

theorem search_iff {all : List (Layer α)}
    (hsound : ∀ l ∈ all, l.Sound Valid rank fuel) {a : α} (ha : Valid a) (n : Nat) :
    (search done key fuel all 0 a (List.replicate n false)).1 = true ↔
      Reaches (done · = true) all a :=
  (search_from hkey hsound List.drop_zero ha (remembers_replicate all n)).2

end

end Memo

end Ice.Misc
