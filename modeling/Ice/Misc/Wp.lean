import Mathlib

/-!
# Weakest preconditions for state-and-exception programs

Programs are values of `EStateM ε σ α`: a run from a state ends in `.ok a s'` or in `.error e s'`,
and keeps the state it reached in both cases. `wp x Q E s` says that the run of `x` from `s` ends
in a value and a state that satisfy `Q`, or in an error and a state that satisfy `E`. The
equations `wp_pure`, `wp_bind`, ... execute a program symbolically; `wp_mono` uses the
specification of a called program; `wp_repeatM` and `wp_forEach` are the invariant rules of the
two loops.
-/

namespace Ice

variable {ε σ τ α β : Type}

/-- The run of `x` from `s` ends in `Q` if it returns and in `E` if it throws. -/
def wp (x : EStateM ε σ α) (Q : α → σ → Prop) (E : ε → σ → Prop) (s : σ) : Prop :=
  match x s with
  | .ok a s' => Q a s'
  | .error e s' => E e s'

/-- The state in which a run ends, in both cases. -/
def finalState : EStateM.Result ε σ α → σ
  | .ok _ s => s
  | .error _ s => s

/-- Whether a run returns. -/
def returns : EStateM.Result ε σ α → Bool
  | .ok _ _ => true
  | .error _ _ => false

/-- What a run returns, if it does. -/
def returned : EStateM.Result ε σ α → Option α
  | .ok a _ => some a
  | .error _ _ => none

/-- What a run throws, if it does. -/
def thrown : EStateM.Result ε σ α → Option ε
  | .ok _ _ => none
  | .error e _ => some e

/-- Throws `e` if the condition holds. -/
def throwIf (c : Prop) [Decidable c] (e : ε) : EStateM ε σ Unit := if c then throw e else pure ()

/-- Runs `x` if the condition holds. -/
def runIf (c : Prop) [Decidable c] (x : EStateM ε σ Unit) : EStateM ε σ Unit :=
  if c then x else pure ()

/-- Runs `x` on a part of a larger state, given by a getter and a setter. -/
def zoom (get : τ → σ) (set : σ → τ → τ) (x : EStateM ε σ α) : EStateM ε τ α := fun t =>
  match x (get t) with
  | .ok a s => .ok a (set s t)
  | .error e s => .error e (set s t)

/-- Runs `x`; if it throws, runs the handler in the state that `x` has reached. -/
def handle (x : EStateM ε σ α) (handler : ε → EStateM ε σ α) : EStateM ε σ α := fun s =>
  match x s with
  | .ok a s' => .ok a s'
  | .error e s' => handler e s'

/-- Throws the error of a computation that cannot change the state. -/
def ofExcept : Except ε α → EStateM ε σ α
  | .ok a => pure a
  | .error e => throw e

/-- Throws the error if there is one. -/
def throwSome : Option ε → EStateM ε σ Unit
  | some e => throw e
  | none => pure ()

/-- Runs `x` `n` times and returns the list of its results. -/
def repeatM : Nat → EStateM ε σ α → EStateM ε σ (List α)
  | 0, _ => pure []
  | n + 1, x => do
    let a ← x
    let as ← repeatM n x
    return a :: as

/-- Runs `f` on every element of a list, from left to right. -/
def forEach : List α → (α → EStateM ε σ Unit) → EStateM ε σ Unit
  | [], _ => pure ()
  | a :: as, f => do
    f a
    forEach as f

/-- Runs `f` on every element of a list, from left to right, and returns the results. -/
def mapEach : List α → (α → EStateM ε σ β) → EStateM ε σ (List β)
  | [], _ => pure []
  | a :: as, f => do
    let b ← f a
    let bs ← mapEach as f
    return b :: bs

section Equations

variable {Q : α → σ → Prop} {E : ε → σ → Prop} {s : σ}

@[simp] theorem wp_pure (a : α) : wp (pure a) Q E s = Q a s := rfl

@[simp] theorem wp_throw (e : ε) : wp (throw e : EStateM ε σ α) Q E s = E e s := rfl

@[simp] theorem wp_get {Q : σ → σ → Prop} : wp (get : EStateM ε σ σ) Q E s = Q s s := rfl

@[simp] theorem wp_set {Q : PUnit → σ → Prop} (s' : σ) :
    wp (set s' : EStateM ε σ PUnit) Q E s = Q ⟨⟩ s' := rfl

@[simp] theorem wp_modify {Q : PUnit → σ → Prop} (f : σ → σ) :
    wp (modify f : EStateM ε σ PUnit) Q E s = Q ⟨⟩ (f s) := rfl

variable {f : β → EStateM ε σ α}

@[simp] theorem wp_bind {x : EStateM ε σ β} :
    wp (x >>= f) Q E s = wp x (fun b s' => wp (f b) Q E s') E s := by
  simp only [wp, bind, EStateM.bind]
  cases x s <;> rfl

@[simp] theorem wp_map {x : EStateM ε σ β} {f : β → α} :
    wp (f <$> x) Q E s = wp x (fun b s' => Q (f b) s') E s := by
  simp only [wp, Functor.map, EStateM.map]
  cases x s <;> rfl

variable {x : EStateM ε σ α}

@[simp] theorem wp_zoom {get : τ → σ} {set : σ → τ → τ} {Q : α → τ → Prop}
    {E : ε → τ → Prop} {t : τ} : wp (zoom get set x) Q E t =
      wp x (fun a s => Q a (set s t)) (fun e s => E e (set s t)) (get t) := by
  simp only [wp, zoom]
  cases x (get t) <;> rfl

@[simp] theorem wp_handle {handler : ε → EStateM ε σ α} :
    wp (handle x handler) Q E s = wp x Q (fun e s' => wp (handler e) Q E s') s := by
  simp only [wp, handle]
  cases x s <;> rfl

theorem wp_ofExcept {x : Except ε α} :
    wp (ofExcept x) Q E s ↔ (∀ a, x = .ok a → Q a s) ∧ (∀ e, x = .error e → E e s) := by
  cases x <;> simp [ofExcept]

variable {Q : Unit → σ → Prop}

theorem wp_throwSome {x : Option ε} :
    wp (throwSome x) Q E s ↔ (x = none → Q () s) ∧ (∀ e, x = some e → E e s) := by
  cases x <;> simp [throwSome]

theorem wp_throwIf {c : Prop} [Decidable c] {e : ε} :
    wp (throwIf c e) Q E s ↔ (c → E e s) ∧ (¬ c → Q () s) := by
  unfold throwIf
  split <;> simp_all

theorem wp_runIf {c : Prop} [Decidable c] {x : EStateM ε σ Unit} :
    wp (runIf c x) Q E s ↔ (c → wp x Q E s) ∧ (¬ c → Q () s) := by
  unfold runIf
  split <;> simp_all

end Equations

section Rules

variable {Q Q' : α → σ → Prop} {E E' : ε → σ → Prop} {s : σ}

variable {x : EStateM ε σ α}

/-- The rule of consequence: use the specification of `x` where a weaker one is needed. -/
theorem wp_mono (h : wp x Q E s) (hQ : ∀ a s', Q a s' → Q' a s') (hE : ∀ e s', E e s' → E' e s') :
    wp x Q' E' s := by
  unfold wp at h ⊢
  cases hx : x s with
  | ok a s' => rw [hx] at h; exact hQ a s' h
  | error e s' => rw [hx] at h; exact hE e s' h

theorem wp_post (h : wp x Q E s) (hQ : ∀ a s', Q a s' → Q' a s') : wp x Q' E s :=
  wp_mono h hQ fun _ _ h => h

/-- The rule of sequencing: use the specification of the first of two programs. -/
theorem wp_seq {P : β → σ → Prop} {y : EStateM ε σ β} (hy : wp y P E s)
    (hf : ∀ b s', P b s' → wp (f b) Q E s') : wp (y >>= f) Q E s := by
  rw [wp_bind]
  exact wp_post hy hf

/-- Two specifications of one program hold together. -/
theorem wp_and (h : wp x Q E s) (h' : wp x Q' E' s) :
    wp x (fun a s' => Q a s' ∧ Q' a s') (fun e s' => E e s' ∧ E' e s') s := by
  unfold wp at h h' ⊢
  cases hx : x s with
  | ok | error => rw [hx] at h h'; exact ⟨h, h'⟩

/-- A run ends as it does. -/
theorem wp_run (x : EStateM ε σ α) (s : σ) :
    wp x (fun a s' => x s = .ok a s') (fun e s' => x s = .error e s') s := by
  unfold wp
  cases x s <;> rfl

theorem wp_ok {a : α} {s' : σ} (h : wp x Q E s) (hx : x s = .ok a s') : Q a s' := by
  simpa [wp, hx] using h

theorem wp_eq_of_ok {a : α} {s' : σ} (hx : x s = .ok a s') : wp x Q E s = Q a s' := by
  rw [wp, hx]

theorem wp_finalState {P : σ → Prop} (h : wp x (fun _ => P) (fun _ => P) s) :
    P (finalState (x s)) := by
  unfold wp at h
  cases hx : x s with
  | ok | error => rw [hx] at h; exact h

theorem eq_ok_of_returned {r : EStateM.Result ε σ α} {a : α} (h : returned r = some a) :
    r = .ok a (finalState r) := by
  cases r with
  | ok a' s =>
    cases h
    rfl
  | error e s => cases h

/-- A specification whose error condition is unsatisfiable gives a returning run. -/
theorem wp_total (h : wp x Q (fun _ _ => False) s) : ∃ a s', x s = .ok a s' ∧ Q a s' := by
  unfold wp at h
  cases hx : x s with
  | ok a s' => rw [hx] at h; exact ⟨a, s', rfl, h⟩
  | error e s' => rw [hx] at h; exact h.elim

end Rules

/-- Every run of `x` from a state that satisfies `I` returns in `I`, or throws in `E`. -/
def Maintains (I : σ → Prop) (E : ε → σ → Prop) (x : EStateM ε σ α) : Prop :=
  ∀ s, I s → wp x (fun _ s' => I s') E s

namespace Maintains

variable {I : σ → Prop} {E : ε → σ → Prop}

theorem pure (a : α) : Maintains I E (pure a : EStateM ε σ α) := fun _ h => h

theorem throw {e : ε} (h : ∀ s, I s → E e s) : Maintains I E (throw e : EStateM ε σ α) := h

theorem get : Maintains I E (get : EStateM ε σ σ) := fun _ h => h

theorem modify {f : σ → σ} (h : ∀ s, I s → I (f s)) :
    Maintains I E (modify f : EStateM ε σ PUnit) := h

theorem bind {x : EStateM ε σ β} (hx : Maintains I E x)
    (hf : ∀ b, Maintains I E (f b)) : Maintains I E (x >>= f) := by
  intro s h
  rw [wp_bind]
  exact wp_post (hx s h) fun b s' h' => hf b s' h'

theorem get_bind {f : σ → EStateM ε σ α} (hf : ∀ s, I s → wp (f s) (fun _ s' => I s') E s) :
    Maintains I E (MonadState.get >>= f) := fun s h => by
  exact hf s h

theorem map {x : EStateM ε σ β} {f : β → α} (hx : Maintains I E x) : Maintains I E (f <$> x) :=
  fun s h => wp_map.mpr (hx s h)

theorem handle {handler : ε → EStateM ε σ α} (hx : Maintains I (fun _ => I) x)
    (hhandler : ∀ e, Maintains I E (handler e)) : Maintains I E (handle x handler) := by
  intro s h
  rw [wp_handle]
  exact wp_mono (hx s h) (fun _ _ h' => h') fun e s' h' => hhandler e s' h'

theorem ofExcept (x : Except ε α) : Maintains I (fun _ => I) (ofExcept x : EStateM ε σ α) :=
  fun _ h => wp_ofExcept.mpr ⟨fun _ _ => h, fun _ _ => h⟩

theorem throwSome (x : Option ε) : Maintains I (fun _ => I) (throwSome x : EStateM ε σ Unit) :=
  fun _ h => wp_throwSome.mpr ⟨fun _ => h, fun _ _ => h⟩

theorem ite {c : Prop} [Decidable c] {x y : EStateM ε σ α} (hx : Maintains I E x)
    (hy : Maintains I E y) : Maintains I E (if c then x else y) := by
  split
  · exact hx
  · exact hy

theorem throwIf {c : Prop} [Decidable c] {e : ε} (h : ∀ s, I s → E e s) :
    Maintains I E (throwIf c e : EStateM ε σ Unit) := ite (throw h) (pure _)

theorem runIf {c : Prop} [Decidable c] {x : EStateM ε σ Unit} (hx : Maintains I E x) :
    Maintains I E (runIf c x) := ite hx (pure _)

theorem repeatM (hx : Maintains I E x) (n : Nat) : Maintains I E (repeatM n x) := by
  induction n with
  | zero => exact pure _
  | succ n ih => exact hx.bind fun _ => ih.bind fun _ => pure _

theorem forEach {f : α → EStateM ε σ Unit} (l : List α) (hf : ∀ a, Maintains I E (f a)) :
    Maintains I E (forEach l f) := by
  induction l with
  | nil => exact pure _
  | cons a as ih => exact (hf a).bind fun _ => ih

theorem mapEach {f : α → EStateM ε σ β} (l : List α) (hf : ∀ a, Maintains I E (f a)) :
    Maintains I E (mapEach l f) := by
  induction l with
  | nil => exact pure _
  | cons a as ih => exact (hf a).bind fun _ => ih.bind fun _ => pure _

theorem zoom {I : τ → Prop} {E : ε → τ → Prop} {get : τ → σ} {set : σ → τ → τ}
    (hI : ∀ s t, I t → I (set s t)) (hE : ∀ e t, I t → E e t) (x : EStateM ε σ α) :
    Maintains I E (zoom get set x) := by
  intro t h
  rw [wp_zoom]
  unfold wp
  cases x (get t) with
  | ok a s => exact hI s t h
  | error e s => exact hE e _ (hI s t h)

end Maintains

end Ice
