import Mathlib

/-!
# Threads that run critical sections

A shared state and threads, each of which has a stack of calls to make. A call runs one critical
section: it changes the state and puts the calls that follow from it on top of the stack of its
thread. Events from outside start new threads. Which thread goes next is arbitrary.

What holds of the state and of all calls that are still to be made, whatever their order, is an
invariant of every run if each call and each event preserves it. Such invariants often count the
calls of a kind: `total` adds up what each call stands for.
-/

namespace Ice.Misc

open List

variable {σ κ η : Type}

/-- The shared state and the calls that each thread has still to make. -/
structure Threads (σ κ : Type) where
  state : σ
  threads : List (List κ)
deriving DecidableEq, Repr

/-- What goes next: an event, or the thread at a position. -/
inductive Choice (η : Type) where
  | event (e : η)
  | thread (i : Nat)
deriving DecidableEq, Repr

/-- `P` holds behind a section, with the calls that follow from it. -/
abbrev LeadsTo (P : σ → Multiset κ → Prop) (others : Multiset κ) (r : σ × List κ) : Prop :=
  P r.1 ((r.2 : Multiset κ) + others)

variable {P : σ → Multiset κ → Prop}

theorem leadsTo_nil {others : Multiset κ} {s : σ} : LeadsTo P others (s, []) ↔ P s others := by
  rw [LeadsTo, Multiset.coe_nil, Multiset.zero_add]

namespace Threads

/-- One step. `exec` runs the section of a call, `spawn` is the effect of an event, which may not be
    possible. -/
def step (exec : κ → σ → σ × List κ) (spawn : η → σ → Option (σ × List κ)) :
    Choice η → Threads σ κ → Option (Threads σ κ)
  | .event e, c => (spawn e c.state).map fun (s, calls) => ⟨s, c.threads ++ [calls]⟩
  | .thread i, c =>
    match c.threads[i]? with
    | some (call :: rest) =>
      some ⟨(exec call c.state).1, c.threads.set i ((exec call c.state).2 ++ rest)⟩
    | _ => none

def run (exec : κ → σ → σ × List κ) (spawn : η → σ → Option (σ × List κ)) :
    List (Choice η) → Threads σ κ → Option (Threads σ κ)
  | [], c => some c
  | choice :: choices, c => (step exec spawn choice c).bind (run exec spawn choices)

/-- The calls of all threads. -/
def calls (c : Threads σ κ) : Multiset κ := c.threads.flatten

/-- No thread has anything left to do. -/
def Idle (c : Threads σ κ) : Prop := ∀ thread ∈ c.threads, thread = []

theorem calls_of_idle {c : Threads σ κ} (h : c.Idle) : c.calls = 0 := by
  unfold calls
  rw [flatten_eq_nil_iff.mpr h]
  rfl

section

variable {exec : κ → σ → σ × List κ} {spawn : η → σ → Option (σ × List κ)}

theorem calls_set {threads : List (List κ)} {i : Nat} {call : κ} {rest : List κ}
    (hi : threads[i]? = some (call :: rest)) (calls : List κ) :
    ∃ others : Multiset κ, (threads.flatten : Multiset κ) = call ::ₘ others ∧
      ((threads.set i (calls ++ rest)).flatten : Multiset κ) = ↑calls + others := by
  obtain ⟨hlt, hget⟩ := List.getElem?_eq_some_iff.mp hi
  have hsplit : threads = threads.take i ++ (call :: rest) :: threads.drop (i + 1) := by
    rw [← hget, getElem_cons_drop, take_append_drop]
  refine ⟨((threads.take i).flatten ++ (rest ++ (threads.drop (i + 1)).flatten) : List κ), ?_, ?_⟩
  · conv_lhs => rw [hsplit]
    rw [flatten_append, flatten_cons, cons_append, ← Multiset.coe_add, ← Multiset.cons_coe,
      Multiset.add_cons, Multiset.coe_add]
  · rw [set_eq_take_append_cons_drop, if_pos hlt, flatten_append, flatten_cons, append_assoc]
    simp only [← Multiset.coe_add]
    rw [← Multiset.add_assoc, Multiset.add_comm _ (calls : Multiset κ), Multiset.add_assoc]

/-- What one step does to the state and the calls. -/
theorem step_cases {choice : Choice η} {c c' : Threads σ κ}
    (h : step exec spawn choice c = some c') :
    (∃ e s calls, choice = .event e ∧ spawn e c.state = some (s, calls) ∧ c'.state = s ∧
        c'.calls = ↑calls + c.calls) ∨
      ∃ i call rest others, choice = .thread i ∧ c.threads[i]? = some (call :: rest) ∧
        c.calls = call ::ₘ others ∧ c'.state = (exec call c.state).1 ∧
        c'.calls = ↑(exec call c.state).2 + others := by
  cases choice with
  | event e =>
    obtain ⟨⟨s, calls⟩, hspawn, rfl⟩ := Option.map_eq_some_iff.mp h
    refine .inl ⟨e, s, calls, rfl, hspawn, rfl, ?_⟩
    simp only [Threads.calls, flatten_append, flatten_singleton, ← Multiset.coe_add]
    exact Multiset.add_comm _ _
  | thread i =>
    rw [step] at h
    cases hi : c.threads[i]? with
    | none =>
      rw [hi] at h
      cases h
    | some thread =>
      rw [hi] at h
      cases thread with
      | nil => cases h
      | cons call rest =>
        cases h
        obtain ⟨others, hcalls, hset⟩ := calls_set hi (exec call c.state).2
        exact .inr ⟨i, call, rest, others, rfl, hi, hcalls, rfl, hset⟩

/-- What goes next meets a condition on the state and on the calls that are still to be made. -/
def Meets (okEvent : η → σ → Multiset κ → Prop) (okCall : κ → σ → Multiset κ → Prop)
    (choice : Choice η) (c : Threads σ κ) : Prop :=
  match choice with
  | .event e => okEvent e c.state c.calls
  | .thread i =>
    match c.threads[i]? with
    | some (call :: _) => okCall call c.state c.calls
    | _ => True

/-- Every step of a run meets a condition. -/
def AllSteps (exec : κ → σ → σ × List κ) (spawn : η → σ → Option (σ × List κ))
    (okEvent : η → σ → Multiset κ → Prop) (okCall : κ → σ → Multiset κ → Prop) :
    List (Choice η) → Threads σ κ → Prop
  | [], _ => True
  | choice :: choices, c =>
    Meets okEvent okCall choice c ∧
      ∀ c', step exec spawn choice c = some c' → AllSteps exec spawn okEvent okCall choices c'

section

variable {okEvent : η → σ → Multiset κ → Prop} {okCall : κ → σ → Multiset κ → Prop}

instance Meets.decidable [∀ e s calls, Decidable (okEvent e s calls)]
    [∀ k s calls, Decidable (okCall k s calls)]
    (choice : Choice η) (c : Threads σ κ) : Decidable (Meets okEvent okCall choice c) :=
  match choice with
  | .event e => inferInstanceAs (Decidable (okEvent e c.state c.calls))
  | .thread i =>
    match h : c.threads[i]? with
    | some (call :: _) => decidable_of_iff (okCall call c.state c.calls) (by rw [Meets, h])
    | some [] => isTrue (by rw [Meets, h]; trivial)
    | none => isTrue (by rw [Meets, h]; trivial)

instance AllSteps.decidable [∀ e s calls, Decidable (okEvent e s calls)]
    [∀ k s calls, Decidable (okCall k s calls)] :
    (choices : List (Choice η)) → (c : Threads σ κ) →
      Decidable (AllSteps exec spawn okEvent okCall choices c)
  | [], _ => isTrue trivial
  | choice :: choices, c =>
    have : Decidable (∀ c', step exec spawn choice c = some c' →
        AllSteps exec spawn okEvent okCall choices c') :=
      match step exec spawn choice c with
      | none => isTrue nofun
      | some c' =>
        have : Decidable (AllSteps exec spawn okEvent okCall choices c') :=
          AllSteps.decidable choices c'
        decidable_of_iff (AllSteps exec spawn okEvent okCall choices c')
          ⟨fun h _ hc => by cases hc; exact h, fun h => h c' rfl⟩
    inferInstanceAs (Decidable (_ ∧ _))

/-- What every call and every event preserves under a condition holds in the end of every run whose
    steps all meet it. -/
theorem run_invariant_of (hexec : ∀ s call others, P s (call ::ₘ others) →
    okCall call s (call ::ₘ others) →
      LeadsTo P others (exec call s))
    (hspawn : ∀ s e s' calls others, P s others → okEvent e s others →
      spawn e s = some (s', calls) →
      P s' (↑calls + others))
    {choices : List (Choice η)} {c c' : Threads σ κ} (h : run exec spawn choices c = some c')
    (hok : AllSteps exec spawn okEvent okCall choices c) (hc : P c.state c.calls) :
    P c'.state c'.calls := by
  induction choices generalizing c with
  | nil =>
    cases h
    exact hc
  | cons choice choices ih =>
    obtain ⟨c1, hstep, hrun⟩ := Option.bind_eq_some_iff.mp h
    obtain ⟨hmeets, hrest⟩ := hok
    apply ih hrun (hrest c1 hstep)
    rcases step_cases hstep with
      ⟨e, s, calls, rfl, heq, rfl, hcalls⟩
        | ⟨i, call, rest, others, rfl, hi, hcalls, hstate, hcalls'⟩
    · rw [hcalls]
      exact hspawn _ _ _ _ _ hc hmeets heq
    · simp only [Meets, hi] at hmeets
      rw [hcalls] at hc hmeets
      rw [hstate, hcalls']
      exact hexec _ _ _ hc hmeets

end

end

end Threads

/-! ## Counting calls -/

/-- What all calls stand for together. -/
def total (weight : κ → Nat) (calls : Multiset κ) : Nat := (calls.map weight).sum

variable (weight : κ → Nat)

@[simp] theorem total_zero : total weight 0 = 0 := rfl

@[simp] theorem total_cons (call : κ) (calls : Multiset κ) :
    total weight (call ::ₘ calls) = weight call + total weight calls := by
  simp [total]

@[simp] theorem total_add (calls calls' : Multiset κ) :
    total weight (calls + calls') = total weight calls + total weight calls' := by
  simp [total]

@[simp] theorem total_coe (calls : List κ) :
    total weight (calls : Multiset κ) = (calls.map weight).sum := by
  simp [total]

theorem sum_map_eq_zero {weight : κ → Nat} {calls : List κ} (h : ∀ call ∈ calls, weight call = 0) :
    (calls.map weight).sum = 0 := by
  induction calls with
  | nil => rfl
  | cons call calls ih =>
    rw [map_cons, sum_cons, h call mem_cons_self, ih fun call' hcall' =>
      h call' (mem_cons_of_mem _ hcall')]

/-- One call for each element of a list: those for one element are as many as it occurs. -/
theorem sum_map_ite {β : Type} [DecidableEq β] (l : List β) (b : β) :
    (l.map fun x => if x = b then 1 else 0).sum = l.count b := by
  induction l with
  | nil => rfl
  | cons x l ih =>
    rw [map_cons, sum_cons, ih, count_cons]
    by_cases hx : x = b
    · simp [hx, Nat.add_comm]
    · simp [hx]

end Ice.Misc
