import Mathlib

/-!
# Waiting until the replicas of a group are synchronized

`ReplicaGroupEntry::addSyncCallback` (`cpp/src/IceGrid/AdapterCache.cpp:22-121, 488-537`) gives one
`ReplicaGroupSyncCallback` to all replicas of a group and then calls its `response`. Each replica
ends with one `synchronized`, with or without an exception, before or after that call.
-/

namespace Ice.IceGrid

variable {ε : Type}

/-- `ReplicaGroupSyncCallback`. `callback` tells whether `_callback` is set. The last two fields are
    not part of the program: what `response` has returned or thrown, and the calls of the waiter's
    callback. -/
structure ReplicaGroupSyncCallback (ε : Type) where
  callback : Bool := true
  responseCalled : Bool := false
  synchronizeCount : Int
  synchronizedCount : Int := 0
  nReplicas : Int
  exception : Option ε := none
  returned : Option (Except ε Bool) := none
  calls : List (Option ε) := []
deriving Repr

namespace ReplicaGroupSyncCallback

variable (c : ReplicaGroupSyncCallback ε)

def new (count nReplicas : Int) : ReplicaGroupSyncCallback ε :=
  { synchronizeCount := count, nReplicas := if nReplicas > count then count else nReplicas }

def response : ReplicaGroupSyncCallback ε :=
  let c := { c with responseCalled := true }
  if c.synchronizedCount ≥ c.nReplicas then
    { c with callback := false, returned := some (.ok false) }
  else if c.synchronizeCount = 0 then
    match c.synchronizedCount, c.exception with
    | 0, some ex => { c with returned := some (.error ex) }
    | _, _ => { c with callback := false, returned := some (.ok false) }
  else { c with returned := some (.ok true) }

/-- The end of both `synchronized`: the callback is taken, and called if there was one. -/
def call (ex : Option ε) : ReplicaGroupSyncCallback ε :=
  if c.callback then { c with callback := false, calls := c.calls ++ [ex] } else c

/-- The two `synchronized`, the second one with its exception. -/
def synchronized : Option ε → ReplicaGroupSyncCallback ε
  | none =>
    let c :=
      { c with
        synchronizedCount := c.synchronizedCount + 1
        synchronizeCount := c.synchronizeCount - 1 }
    if c.responseCalled = false then c
    else if c.synchronizedCount < c.nReplicas ∧ c.synchronizeCount > 0 then c
    else c.call none
  | some ex =>
    let c :=
      { c with exception := c.exception.or (some ex), synchronizeCount := c.synchronizeCount - 1 }
    if c.responseCalled = false then c
    else if c.synchronizeCount > 0 then c
    else c.call (some ex)

/-- The replicas that end one after the other. -/
def ended (outcomes : List (Option ε)) : ReplicaGroupSyncCallback ε :=
  outcomes.foldl synchronized c

@[simp] theorem ended_cons (o : Option ε) (outcomes : List (Option ε)) :
    c.ended (o :: outcomes) = (c.synchronized o).ended outcomes :=
  rfl

end ReplicaGroupSyncCallback

/-- What `addSyncCallback` uses of a group: `_loadBalancingNReplicas`, whether the policy is round
    robin, and the identifiers of the replicas. -/
structure ReplicaGroupEntry where
  loadBalancingNReplicas : Int
  roundRobin : Bool
  replicas : List String
deriving Repr

/-- `addSyncCallback` with the outcomes of the replicas that end before `response` is called, in the
    loop or by a call from elsewhere. -/
def ReplicaGroupEntry.addSyncCallback (group : ReplicaGroupEntry) (excludes : List String)
    (before : List (Option ε)) : Option (ReplicaGroupSyncCallback ε) :=
  let nReplicas := if group.loadBalancingNReplicas > 0 then group.loadBalancingNReplicas
    else group.replicas.length
  let replicas := if group.roundRobin then group.replicas.filter (· ∉ excludes) else group.replicas
  if replicas = [] then none
  else some ((ReplicaGroupSyncCallback.new replicas.length nReplicas).ended before).response

namespace ReplicaGroupSyncCallback

/-- The number of replicas that were synchronized. -/
def nSynchronized (outcomes : List (Option ε)) : Nat :=
  outcomes.countP (·.isNone)

variable {c : ReplicaGroupSyncCallback ε} {outcomes : List (Option ε)}

theorem nSynchronized_eq_zero : nSynchronized outcomes = 0 ↔ ∀ o ∈ outcomes, o.isSome := by
  simp only [nSynchronized, List.countP_eq_zero, Option.isNone_iff_eq_none,
    Option.isSome_iff_ne_none]

theorem ended_of_not_called (h : c.responseCalled = false) : c.ended outcomes = { c with
      synchronizedCount := c.synchronizedCount + nSynchronized outcomes
      synchronizeCount := c.synchronizeCount - outcomes.length
      exception := c.exception.or (outcomes.findSome? id) } := by
  induction outcomes generalizing c with
  | nil => simp [ended, nSynchronized]
  | cons o outcomes ih =>
    cases o <;> simp [synchronized, h, ih, nSynchronized] <;> omega

theorem ended_of_taken (h : c.callback = false) :
    (c.ended outcomes).returned = c.returned ∧ (c.ended outcomes).calls = c.calls := by
  induction outcomes generalizing c with
  | nil => exact ⟨rfl, rfl⟩
  | cons o outcomes ih =>
    have hs : (c.synchronized o).callback = false ∧ (c.synchronized o).returned = c.returned ∧
        (c.synchronized o).calls = c.calls := by
      cases o <;> simp only [ReplicaGroupSyncCallback.synchronized, call, h] <;>
        split_ifs <;> simp_all
    obtain ⟨h1, h2, h3⟩ := hs
    exact ⟨(ih h1).1.trans h2, (ih h1).2.trans h3⟩

/-- `response` has returned true and the callback was called once, or it has returned false or
    thrown and the callback was not called. -/
def Settled (c : ReplicaGroupSyncCallback ε) : Prop :=
  c.returned = some (.ok true) ∧ c.calls.length = 1 ∨
    (c.returned = some (.ok false) ∨ ∃ ex, c.returned = some (.error ex)) ∧ c.calls = []

/-- The waiter was told of a failure, by an exception of `response` or by the callback. -/
def FailureTold (c : ReplicaGroupSyncCallback ε) : Prop :=
  (∃ ex, c.returned = some (.error ex)) ∨ ∃ ex, some ex ∈ c.calls

theorem not_told_of_taken (hc : c.callback = false) (hr : c.returned = some (.ok false))
    (hn : c.calls = []) :
    (c.ended outcomes).Settled ∧ ¬ (c.ended outcomes).FailureTold := by
  simp [Settled, FailureTold, ended_of_taken hc, hr, hn]

/-- Once `response` has returned true, the callback is called once: with an exception if fewer
    replicas than wanted were synchronized and the last one failed. -/
theorem ended_of_open {n wanted : Int} {exception : Option ε} (hn : outcomes ≠ [])
    (hlt : n < wanted)
    (hc : c = ⟨true, true, outcomes.length, n, wanted, exception, some (.ok true), []⟩) :
    (c.ended outcomes).Settled ∧ ((c.ended outcomes).FailureTold ↔
      n + nSynchronized outcomes < wanted ∧ ∃ ex, outcomes.getLast? = some (some ex)) := by
  induction outcomes generalizing c n exception with
  | nil => exact absurd rfl hn
  | cons o outcomes ih =>
    subst hc
    cases o with
    | none =>
      by_cases h : n + 1 < wanted ∧ 0 < outcomes.length
      · have hne : outcomes ≠ [] := List.ne_nil_of_length_pos h.2
        have hrec := @ih _ (n + 1) exception hne h.1 rfl
        simpa [synchronized, h, List.getLast?_cons_of_ne_nil hne, nSynchronized, Int.add_assoc,
          Int.add_comm 1] using hrec
      · have hlast : ¬ (n + nSynchronized (none :: outcomes) < wanted ∧
            ∃ ex, (none :: outcomes).getLast? = some (some ex)) := by
          rintro ⟨hlt', ex, hex⟩
          cases outcomes with
          | nil => cases hex
          | cons o outcomes => simp [nSynchronized] at h hlt'; omega
        simp [synchronized, call, h, hlast, Settled, FailureTold, ended_of_taken]
    | some ex =>
      cases outcomes with
      | nil => simp [synchronized, call, ended, hlt, nSynchronized, Settled, FailureTold]
      | cons o outcomes =>
        have hrec := @ih _ n (exception.or (some ex)) (List.cons_ne_nil _ _) hlt rfl
        simpa [synchronized, List.getLast?_cons_cons, nSynchronized] using hrec

/-- The replicas `before` end, `response` is called, and the replicas `after` end. -/
def run (nReplicas : Int) (before after : List (Option ε)) : ReplicaGroupSyncCallback ε :=
  ((new (before ++ after).length nReplicas).ended before).response.ended after

/-- The waiter is told of a failure if fewer replicas than wanted were synchronized, and either
    there was none or the last one failed after the call of `response`. -/
theorem run_outcome (nReplicas : Int) (before after : List (Option ε)) :
    (run nReplicas before after).Settled ∧ ((run nReplicas before after).FailureTold ↔
      (nSynchronized (before ++ after) : Int) < min nReplicas (before ++ after).length ∧
        (nSynchronized (before ++ after) = 0 ∨ ∃ ex, after.getLast? = some (some ex))) := by
  have hadd : nSynchronized (before ++ after) = nSynchronized before + nSynchronized after :=
    List.countP_append
  have hlen : (before ++ after).length = before.length + after.length := List.length_append
  have hnew : (new (before ++ after).length nReplicas : ReplicaGroupSyncCallback ε) =
      { synchronizeCount := (before ++ after).length,
        nReplicas := min nReplicas (before ++ after).length } := by
    simp only [new]
    split <;> congr 1 <;> omega
  have hcount : ((before ++ after).length - before.length : Int) = after.length := by omega
  rw [run, hnew, @ended_of_not_called _ _ before rfl]
  simp only [hcount, Option.none_or, Int.zero_add, response]
  split_ifs with h1 h2
  · exact ⟨(not_told_of_taken rfl rfl rfl).1,
      iff_of_false (not_told_of_taken rfl rfl rfl).2 (by omega)⟩
  · obtain rfl : after = [] := List.length_eq_zero_iff.mp (by omega)
    rw [List.append_nil] at *
    split
    · next h3 h4 =>
      exact ⟨.inr ⟨.inr ⟨_, rfl⟩, rfl⟩, iff_of_true (.inl ⟨_, rfl⟩) ⟨by omega, .inl (by omega)⟩⟩
    · next h3 =>
      refine ⟨(not_told_of_taken rfl rfl rfl).1, iff_of_false (not_told_of_taken rfl rfl rfl).2 ?_⟩
      rintro ⟨h4, h5 | ⟨ex, h5⟩⟩
      · cases before with
        | nil => simp at h4; omega
        | cons o before =>
          obtain ⟨ex, rfl⟩ := Option.isSome_iff_exists.mp
            (nSynchronized_eq_zero.mp h5 o List.mem_cons_self)
          exact h3 ex (by simpa using h5) rfl
      · cases h5
  · have hne : after ≠ [] := by rintro rfl; exact h2 rfl
    obtain ⟨h3, h4⟩ := ended_of_open (c := _) hne (Int.not_le.mp h1) rfl
    refine ⟨h3, h4.trans (and_congr (by omega) ⟨.inr, fun h => h.elim (fun hz => ?_) id⟩)⟩
    obtain ⟨ex, hex⟩ := Option.isSome_iff_exists.mp
      (nSynchronized_eq_zero.mp (by omega) _ (List.getLast_mem hne))
    exact ⟨ex, by rw [List.getLast?_eq_some_getLast hne, hex]⟩

theorem failureTold_iff_all_failed_iff (nReplicas : Int) (before after : List (Option ε)) :
    (run nReplicas before after).Settled ∧
      ((run nReplicas before after).FailureTold ↔ ∀ o ∈ before ++ after, o.isSome) ↔
    ((∀ o ∈ before ++ after, o.isSome) → 0 < min nReplicas (before ++ after).length) ∧
      ∀ ex, after.getLast? = some (some ex) → nSynchronized (before ++ after) = 0 ∨
        min nReplicas (before ++ after).length ≤ nSynchronized (before ++ after) := by
  obtain ⟨hs, ht⟩ := run_outcome nReplicas before after
  simp only [hs, true_and, ht, ← nSynchronized_eq_zero]
  constructor
  · intro h
    refine ⟨fun hzero => ?_, fun ex hex => ?_⟩
    · have := h.mpr hzero
      omega
    · by_contra hne
      have := h.mp ⟨by omega, .inr ⟨ex, hex⟩⟩
      omega
  · rintro ⟨hall, hlast⟩
    refine ⟨?_, fun hzero => ⟨by have := hall hzero; omega, .inl hzero⟩⟩
    rintro ⟨h, hzero | ⟨ex, hex⟩⟩
    · exact hzero
    · exact (hlast ex hex).resolve_right (by omega)

/-- One replica of two is synchronized before the call of `response` and the other one fails after
    it. -/
theorem failureTold_with_synchronized_replica :
    ∃ c, ReplicaGroupEntry.addSyncCallback ⟨0, false, ["r1", "r2"]⟩ [] [none] = some c ∧
      c.ended [some ()] = run 2 [none] [some ()] ∧ (run 2 [none] [some ()]).FailureTold ∧
      ¬ ∀ o ∈ [none] ++ [some ()], o.isSome :=
  ⟨_, rfl, rfl, .inr ⟨(), List.mem_cons_self⟩, by decide⟩

end ReplicaGroupSyncCallback

end Ice.IceGrid
