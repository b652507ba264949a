import Ice.IceGrid.ServerCommands

/-!
# The life of a server on its node

What holds of the servant of a server in every run in which signals can be sent, whatever the
requests: each callback that was accepted is called once or is still held by a command, and the
state says which single activity is going on: loading, destroying, activating, a process, or its
end.
-/

namespace Ice.IceGrid

open Misc Multiset Option InternalServerState

variable {ρ φ κ : Type}

/-! ### Activities -/

/-- The activities that bring a server from one state to the next. -/
inductive Stage where
  | load
  | destroy
  | activate
  | start
  | activated
  | failed
  | process
  | ending
deriving DecidableEq, Repr

/-- The activity that a call belongs to. -/
def ServerCall.stage : ServerCall → Option Stage
  | .update => some .load
  | .destroy | .destroyed => some .destroy
  | .activate => some .activate
  | .startProcess => some .start
  | .activated => some .activated
  | .activationFailed => some .failed
  | .terminated _ => some .process
  | .setInactive | .setTerminated | .signalFailed _ => some .ending
  | _ => none

/-- The activities that a state stands for. -/
def Shape (st : InternalServerState) (stages : Multiset Stage) : Prop :=
  match st with
  | .inactive | .destroyed => stages = 0
  | .loading => stages = {.load}
  | .destroying => stages = {.destroy}
  | .activating =>
    stages = {.activate} ∨ stages = {.start} ∨ stages = {.failed} ∨
      stages = .activated ::ₘ {.process}
  | .waitForActivation | .activationTimeout | .active => stages = {.process}
  | .deactivating | .deactivatingWaitForProcess => stages = {.process} ∨ stages = {.ending}

theorem cons_eq_singleton {α : Type} {a b : α} {m : Multiset α} :
    a ::ₘ m = {b} ↔ a = b ∧ m = 0 := by
  constructor
  · intro h
    have hcard := congrArg card h
    simp only [card_cons, card_singleton, Nat.add_eq_right, card_eq_zero] at hcard
    subst hcard
    exact ⟨by simpa using h, rfl⟩
  · rintro ⟨rfl, rfl⟩
    rfl

theorem cons_eq_pair {a : Stage} {m : Multiset Stage} :
    a ::ₘ m = .activated ::ₘ {.process} ↔ a = .activated ∧ m = {.process} ∨ a = .process ∧
      m = {.activated} := by
  constructor
  · intro h
    have hmem : a ∈ Stage.activated ::ₘ {Stage.process} := h ▸ mem_cons_self a m
    simp only [mem_cons, mem_singleton] at hmem
    rcases hmem with rfl | rfl
    · exact .inl ⟨rfl, cons_inj_right _ |>.mp h⟩
    · refine .inr ⟨rfl, cons_inj_right _ |>.mp (h.trans ?_)⟩
      decide
  · rintro (⟨rfl, rfl⟩ | ⟨rfl, rfl⟩)
    · rfl
    · decide

/-- What the state is when an activity is going on, and what else can be. -/
def Stage.GoesOn (st : InternalServerState) (stages : Multiset Stage) : Stage → Prop
  | .load => st = .loading ∧ stages = 0
  | .destroy => st = .destroying ∧ stages = 0
  | .activate | .start | .failed => st = .activating ∧ stages = 0
  | .activated => st = .activating ∧ stages = {.process}
  | .process => st = .activating ∧ stages = {.activated} ∨
      (st.canStop = true ∨ st = .deactivating ∨ st = .deactivatingWaitForProcess) ∧ stages = 0
  | .ending => (st = .deactivating ∨ st = .deactivatingWaitForProcess) ∧ stages = 0

theorem Shape.of_cons {st : InternalServerState} {a : Stage} {stages : Multiset Stage}
    (h : Shape st (a ::ₘ stages)) :
    a.GoesOn st stages := by
  unfold Shape at h
  unfold Stage.GoesOn
  cases st <;> cases a <;> simp [cons_eq_singleton, cons_eq_pair, canStop] at h ⊢ <;> exact h

namespace ServerI

/-- The activities that are going on. -/
def stages (s : ServerI ρ φ κ) (calls : Multiset ServerCall) : Multiset Stage :=
  calls.filterMap ServerCall.stage +
    ((if s.running.isSome then {.process} else 0) + Multiset.replicate s.replications .activate)

/-- A call that sends a signal succeeds. -/
def Delivers (s : ServerI ρ φ κ) (call : ServerCall) : Prop :=
  match call with
  | .sendSignal _ _ => s.environment.signalFails = false
  | _ => True

instance Delivers.decidable (s : ServerI ρ φ κ) (call : ServerCall) :
    Decidable (s.Delivers call) := by
  unfold Delivers
  split <;> infer_instance

/-- What holds in a section before `nextCommand`. -/
structure Ready (s : ServerI ρ φ κ) (calls : Multiset ServerCall) : Prop where
  balanced : s.Balanced
  slots : s.Slots
  shape : Shape s.state (s.stages calls)

/-- What holds between two sections. -/
structure Lifecycle (s : ServerI ρ φ κ) (calls : Multiset ServerCall) :
    Prop extends s.Ready calls where
  settled : s.Settled

theorem stages_add (s : ServerI ρ φ κ) (calls others : Multiset ServerCall) :
    s.stages (calls + others) = calls.filterMap ServerCall.stage + s.stages others := by
  unfold stages
  rw [filterMap_add, add_assoc]

variable {call : ServerCall}

theorem stages_cons_of_eq_some {a : Stage} (h : call.stage = some a) (s : ServerI ρ φ κ)
    (others : Multiset ServerCall) : s.stages (call ::ₘ others) = a ::ₘ s.stages others := by
  unfold stages
  rw [filterMap_cons_some _ _ _ h, cons_add]

/-- The state in which the call of an activity is made. -/
theorem Ready.goesOn {s : ServerI ρ φ κ} {others : Multiset ServerCall}
    (h : s.Ready (call ::ₘ others)) {a : Stage}
    (hcall : call.stage = some a) : a.GoesOn s.state (s.stages others) := by
  have hshape := h.shape
  rw [stages_cons_of_eq_some hcall] at hshape
  exact hshape.of_cons

theorem stages_eq {s s' : ServerI ρ φ κ} (hrunning : s'.running = s.running)
    (hreplications : s'.replications = s.replications) (calls : Multiset ServerCall) :
    s'.stages calls = s.stages calls := by
  unfold stages
  rw [hrunning, hreplications]

variable {s : ServerI ρ φ κ} {others : Multiset ServerCall} (node : Node φ)

theorem destroyFiles_lifecycle (h : s.Lifecycle (.destroy ::ₘ others)) :
    LeadsTo Lifecycle others s.destroyFiles := by
  refine { h with shape := ?_ }
  have hshape := h.shape
  rw [stages_cons_of_eq_some rfl] at hshape
  rw [stages_add]
  exact hshape

variable {calls : Multiset ServerCall}

theorem stages_eq_zero (h : s.stages calls = 0) :
    calls.filterMap ServerCall.stage = 0 ∧ s.running = none ∧ s.replications = 0 := by
  have hcard := congrArg card h
  unfold stages at hcard
  rw [card_add, card_add, card_replicate, card_zero] at hcard
  have hrunning : s.running.isSome = false := by
    by_contra hsome
    rw [Bool.not_eq_false] at hsome
    rw [hsome, if_pos rfl, card_singleton] at hcard
    omega
  exact ⟨card_eq_zero.mp (by omega), by simpa using hrunning, by omega⟩

/-- A call that belongs to no activity is done. -/
theorem Lifecycle.done (h : s.Lifecycle (call ::ₘ others)) (hcall : call.stage = none) :
    s.Lifecycle others := by
  have hshape := h.shape
  rw [stages, filterMap_cons_none _ _ hcall] at hshape
  exact { h with shape := hshape }

theorem terminatedCalls_stages (s : ServerI ρ φ κ) :
    s.terminatedCalls.filterMap ServerCall.stage = [.ending] := by
  unfold terminatedCalls
  have hnone : (s.adapters.map fun a => ServerCall.adapterDeactivated a.1).filterMap
      ServerCall.stage = [] := by
    rw [List.filterMap_map]
    exact List.filterMap_eq_nil_iff.mpr fun _ _ => rfl
  rw [List.filterMap_append, hnone]
  rfl

/-- Calls that belong to no activity follow. -/
theorem Lifecycle.add {calls : List ServerCall} (h : s.Lifecycle others)
    (hcalls : calls.filterMap ServerCall.stage = []) : LeadsTo Lifecycle others (s, calls) := by
  refine { h with shape := ?_ }
  rw [stages_add, filterMap_coe, hcalls, coe_nil, zero_add]
  exact h.shape

theorem Lifecycle.reenable (h : s.Lifecycle others) (activation : ServerActivation) :
    (s.reenable node activation).Lifecycle others := by
  unfold ServerI.reenable
  split_ifs
  · refine { h with slots := ?_ }
    refine { h.slots with desc := fun hsome => h.slots.desc ?_ }
    rcases hsome with hsome | hsome | hsome | hsome | hsome
    · exact .inl hsome
    · exact .inr (.inl hsome)
    · exact .inr (.inr (.inl hsome))
    · exact .inr (.inr (.inr (.inr hsome)))
    · exact .inr (.inr (.inr (.inr hsome)))
  · exact h

/-- A server that has no descriptor stays disabled. -/
theorem Lifecycle.setEnabled (h : s.Lifecycle others) (enabled : Bool) :
    (s.setEnabled enabled).Lifecycle others := by
  unfold ServerI.setEnabled
  dsimp only [ServerI.assert]
  split_ifs
  · exact h
  · refine { h with slots := { h.slots with desc := fun hsome hstate => ?_ } }
    cases hdesc : s.desc with
    | none =>
      rw [hdesc] at hsome
      exact absurd (h.slots.desc hsome hstate) (by simp [hdesc])
    | some d => rfl
  · refine { h with slots := { h.slots with desc := fun hsome => h.slots.desc ?_ } }
    exact hsome.imp_right (.imp_right (.imp_right (.imp_left (absurd rfl))))
  · exact { h with }

section

variable (h : s.Ready others)
include h

theorem Ready.updateRevision (uuid : String) (revision : Int) :
    (s.updateRevision uuid revision).Ready others := by
  have hload : (s.updateRevision uuid revision).load.isSome = s.load.isSome := isSome_map ..
  have hdesc : (s.updateRevision uuid revision).desc.isSome = s.desc.isSome := isSome_map ..
  refine ⟨h.balanced.of_eq ?_ ?_, ?_, h.shape⟩
  · rfl
  · unfold callbacks waiting loadCallbacks ServerI.updateRevision
    rw [Option.map_map]
    rfl
  · unfold Slots
    rw [hload, hdesc]
    exact h.slots

theorem Ready.addLoadCallback (hload : s.load.isSome) (response : κ) :
    (s.addLoadCallback response).Ready others := by
  obtain ⟨l, hl⟩ := isSome_iff_exists.mp hload
  refine ⟨?_, ?_, h.shape⟩
  · apply h.balanced.of_added (a := []) (b := []) (c := []) (d := [response]) (e := [])
    all_goals simp [stopCallbacks, startCallbacks, loadCallbacks, destroyCallbacks,
      ServerI.addLoadCallback, hl]
  · have hsome : (s.addLoadCallback response).load.isSome = s.load.isSome := isSome_map ..
    unfold Slots
    rw [hsome]
    exact h.slots

theorem Ready.respond (response : κ) : (s.respond (some response)).Ready others := by
  refine ⟨?_, h.slots, h.shape⟩
  apply h.balanced.of_added (a := [response]) (b := []) (c := []) (d := []) (e := [])
  all_goals simp [stopCallbacks, startCallbacks, loadCallbacks, destroyCallbacks, ServerI.respond]

theorem Ready.endDestroy (hstate : s.state ≠ .destroying) : s.endDestroy.Ready others := by
  refine ⟨h.balanced.of_eq rfl (endDestroy_callbacks s), ?_, h.shape⟩
  refine ⟨h.slots.loading, h.slots.starting, fun hdestroying => absurd hdestroying hstate,
    h.slots.start, h.slots.stop, nofun, fun hsome => h.slots.desc ?_, fun hdestroyed => ?_⟩
  · rcases hsome with hsome | hsome | hsome
    · exact .inl hsome
    · cases hsome
    · exact .inr (.inr hsome)
  · obtain ⟨hload, hstart, -⟩ := h.slots.destroyed hdestroyed
    exact ⟨hload, hstart, rfl⟩

end

theorem Lifecycle.refreshRevision (h : s.Lifecycle others) (desc : InternalServerDescriptor ρ φ) :
    (s.refreshRevision desc).Lifecycle others := by
  unfold ServerI.refreshRevision
  split_ifs
  · refine ⟨h.toReady.updateRevision _ _, h.settled.1, fun hstate => ?_⟩
    obtain ⟨hdestroy, hload, hstart⟩ := h.settled.2 hstate
    exact ⟨hdestroy, by simp [ServerI.updateRevision, hload], hstart⟩
  · exact h

/-- The activities stay the same when the end of the process is reported. -/
theorem stages_terminated (hrunning : s.running.isSome) (failed : Bool) :
    ({ s with running := none }).stages (.terminated failed ::ₘ others) = s.stages others := by
  rw [stages_cons_of_eq_some rfl]
  unfold stages
  rw [hrunning, if_pos rfl]
  change Stage.process ::ₘ (_ + (0 + replicate s.replications _)) = _
  rw [Multiset.zero_add, ← Multiset.add_assoc, Multiset.add_comm _ {Stage.process},
    Multiset.add_assoc, singleton_add]

theorem stages_applicationUpdated (hreplications : 0 < s.replications) :
    ({ s with replications := s.replications - 1 }).stages (.activate ::ₘ others) =
      s.stages others := by
  rw [stages_cons_of_eq_some rfl]
  unfold stages
  obtain ⟨n, hn⟩ : ∃ n, s.replications = n + 1 := ⟨s.replications - 1, by omega⟩
  simp only [hn, Nat.add_sub_cancel, replicate_succ, add_cons]

theorem initial_lifecycle : Lifecycle ({} : ServerI ρ φ κ) 0 :=
  ⟨⟨rfl, ⟨nofun, nofun, nofun, nofun, nofun, nofun, nofun, nofun⟩, rfl⟩, nofun, fun _ =>
    ⟨rfl, rfl, rfl⟩⟩

theorem activate_lifecycle (h : s.Lifecycle (.activate ::ₘ others)) :
    LeadsTo Lifecycle others s.activate := by
  obtain ⟨hstate, hothers⟩ := h.goesOn rfl
  unfold activate
  dsimp only
  split_ifs
  · refine { h with shape := ?_ }
    rw [stages_add]
    change Shape s.state (_ + s.stages others)
    rw [hstate, hothers]
    exact .inr (.inr (.inl rfl))
  · refine { h with shape := ?_ }
    obtain ⟨hcalls, hrunning, hreplications⟩ := stages_eq_zero hothers
    unfold stages
    change Shape s.state _
    rw [hstate]
    refine .inl ?_
    rw [coe_nil, zero_add, hcalls]
    change 0 + ((if s.running.isSome then _ else _) + replicate (s.replications + 1) _) = _
    rw [hrunning, hreplications]
    rfl
  · refine { h with shape := ?_ }
    rw [stages_add]
    change Shape s.state (_ + s.stages others)
    rw [hstate, hothers]
    exact .inr (.inl rfl)

theorem startProcess_lifecycle (h : s.Lifecycle (.startProcess ::ₘ others)) :
    LeadsTo Lifecycle others s.startProcess := by
  obtain ⟨hstate, hothers⟩ := h.goesOn rfl
  unfold startProcess
  split_ifs
  · refine { h with shape := ?_ }
    rw [stages_add, hstate, hothers]
    exact .inr (.inr (.inl rfl))
  · refine { h with shape := ?_ }
    obtain ⟨hcalls, hrunning, hreplications⟩ := stages_eq_zero hothers
    rw [hstate, hrunning, stages_add]
    refine .inr (.inr (.inr ?_))
    unfold stages
    rw [hcalls, hreplications]
    rfl

@[simp] theorem disableOnFailure_stages (calls : Multiset ServerCall) :
    (s.disableOnFailure node).stages calls = s.stages calls :=
  disableOnFailure_frame node (·.stages calls) (by intros; rfl)

variable {target : Option Nat}

theorem sendSignal_lifecycle {signaller : Signaller}
    (h : s.Lifecycle (.sendSignal target signaller ::ₘ others))
    (hdelivers : s.environment.signalFails = false) :
    LeadsTo Lifecycle others (s.sendSignal target signaller) := by
  unfold sendSignal
  split
  · exact (h.done rfl).add rfl
  · rw [if_neg (by simp [hdelivers])]
    have hdone := h.done rfl
    exact Lifecycle.add { hdone with } rfl

theorem Ready.scheduleStop (h : s.Ready others) : s.scheduleStop.Ready others := by
  unfold ServerI.scheduleStop
  split_ifs with hruns
  · rw [runs, Bool.and_eq_true, Bool.not_eq_true', isNone_iff_eq_none] at hruns
    exact ⟨newStop_balanced h.balanced hruns.2 true, newStop_slots h.slots hruns.1 true, h.shape⟩
  · exact h

theorem Ready.prepareLoad (h : s.Ready others) (hstate : s.state ≠ .destroyed)
    (desc : InternalServerDescriptor ρ φ) (noRestart : Bool) :
    (s.prepareLoad desc noRestart).Ready others ∧ (s.prepareLoad desc noRestart).load.isSome := by
  have hready : (s.setNewLoad desc).Ready others :=
    ⟨h.balanced.setLoad (newLoad_callbacks desc s), h.slots.setLoad hstate _, h.shape⟩
  obtain ⟨t, ht, hready, hload⟩ : ∃ t,
    (if noRestart then s.setNewLoad desc else (s.setNewLoad desc).scheduleStop) = t ∧
      t.Ready others ∧ t.load.isSome := by
    refine ⟨_, rfl, ?_, ?_⟩
    · split_ifs
      · exact hready
      · exact hready.scheduleStop
    · unfold ServerI.scheduleStop
      split_ifs <;> rfl
  unfold ServerI.prepareLoad
  dsimp only
  rw [ht]
  have hdrop : t.dropDestroy.Ready others ∧ t.dropDestroy.load.isSome := by
    unfold dropDestroy
    split_ifs with hdestroying
    · exact ⟨hready, hload⟩
    · exact ⟨hready.endDestroy hdestroying, hload⟩
  unfold reviseActive
  split_ifs
  · exact ⟨hdrop.1.updateRevision _ _, (isSome_map ..).trans hdrop.2⟩
  · exact hdrop

theorem Ready.disableOnFailure (h : s.Ready others) : (s.disableOnFailure node).Ready others := by
  refine ⟨?_, disableOnFailure_slots node h.slots, ?_⟩
  · exact h.balanced.of_eq (disableOnFailure_frame node (·.accepted) (by intros; rfl))
      (disableOnFailure_frame node (·.callbacks) (by intros; rfl))
  · rw [disableOnFailure_state, disableOnFailure_stages]
    exact h.shape

@[simp] theorem processFailed_stages (failed : Bool) (calls : Multiset ServerCall) :
    (s.processFailed node failed).stages calls = s.stages calls := by
  unfold processFailed
  split_ifs
  · exact disableOnFailure_stages node calls
  · rfl

theorem Ready.processFailed (h : s.Ready others) (failed : Bool) :
    (s.processFailed node failed).Ready others := by
  have hready : ({ s with activatedAdapters := [] }).Ready others := { h with }
  unfold ServerI.processFailed
  split_ifs
  · exact hready.disableOnFailure node
  · exact hready

variable [DecidableEq φ]

theorem setStateNoSync_stages (st : InternalServerState) (calls : Multiset ServerCall) :
    (s.setStateNoSync node st).stages calls = s.stages calls :=
  stages_eq (setStateNoSync_running node _) (setStateNoSync_replications node _) calls

/-- A section that ends with `nextCommand`. -/
theorem Ready.nextCommand (h : s.Ready others) : LeadsTo Lifecycle others (s.nextCommand node) := by
  refine ⟨⟨h.balanced.nextCommand node, (h.slots.nextCommand node).1, ?_⟩,
    (h.slots.nextCommand node).2⟩
  have hshape := h.shape
  rcases s.nextCommand_cases node with ⟨heq, -⟩ | ⟨c, hcan, -, heq⟩ | ⟨hstate, -, heq⟩ |
    ⟨hstate, -, -, heq⟩ |
    ⟨c, hstate, -, -, -, heq⟩
  · rw [heq]
    simpa using hshape
  · have hprocess : s.stages others = {.process} := by
      cases hstate : s.state <;> rw [hstate] at hcan hshape <;> first | exact hshape | cases hcan
    rw [heq, setStateNoSync_state, stages_add, setStateNoSync_stages]
    change Shape .deactivating (_ + s.stages others)
    rw [hprocess]
    by_cases hdeactivate : c.deactivate = true
    · rw [if_pos hdeactivate]
      exact .inl rfl
    · rw [if_neg hdeactivate]
      exact .inl rfl
  all_goals
    rw [hstate] at hshape
    have hnone : s.stages others = 0 := hshape
    rw [heq, setStateNoSync_state, stages_add, setStateNoSync_stages]
  · change Shape .destroying (_ + s.stages others)
    rw [hnone]
    rfl
  · change Shape .loading (_ + s.stages others)
    rw [hnone]
    rfl
  · change Shape .activating (_ + s.stages others)
    rw [hnone]
    exact .inl rfl

/-! ### Every section -/

theorem update_lifecycle (h : s.Lifecycle (.update ::ₘ others)) :
    LeadsTo Lifecycle others (s.update node) := by
  obtain ⟨hstate, hothers⟩ := h.goesOn rfl
  obtain ⟨l, hl⟩ := isSome_iff_exists.mp (h.slots.loading hstate)
  have heq : s.update node =
      nextCommand node ((s.updateOrRollback l.desc).endLoad.setStateNoSync node .inactive) := by
    unfold update
    rw [hstate, hl]
  have hstate' : (s.updateOrRollback l.desc).state = s.state :=
    updateOrRollback_frame l.desc (·.state) (by intros; rfl)
  rw [heq]
  refine Ready.nextCommand node ⟨?_, ?_, ?_⟩
  · apply Balanced.setState
    · refine h.balanced.of_eq ?_ ?_
      · exact updateOrRollback_frame l.desc (·.accepted) (by intros; rfl)
      · rw [endLoad_callbacks, updateOrRollback_callbacks]
    · intro _ _
      exact endLoad_loadCallbacks _
  · apply (updateOrRollback_slots l.desc h.slots hstate).setInactive
    change (s.updateOrRollback l.desc).state ≠ .destroyed
    rw [hstate', hstate]
    nofun
  · rw [setStateNoSync_state, stages_eq (s := s)]
    · exact hothers
    · rw [setStateNoSync_running]
      exact updateOrRollback_frame l.desc (·.running) (by intros; rfl)
    · rw [setStateNoSync_replications]
      exact updateOrRollback_frame l.desc (·.replications) (by intros; rfl)

theorem Ready.setInactive (h : s.Ready others) (hcalls : s.stages calls = 0)
    (hstate : s.state = .deactivating ∨ s.state = .deactivatingWaitForProcess) :
    (s.setStateNoSync node .inactive).Ready calls := by
  refine ⟨h.balanced.setState node ?_, h.slots.setInactive node ?_, ?_⟩
  · intro hloading
    rcases hstate with hstate | hstate <;> rw [hstate] at hloading <;> cases hloading
  · rcases hstate with hstate | hstate <;> rw [hstate] <;> nofun
  · rw [setStateNoSync_state, setStateNoSync_stages]
    exact hcalls

theorem setTerminated_lifecycle (h : s.Lifecycle (.setTerminated ::ₘ others)) :
    LeadsTo Lifecycle others (s.setTerminated node) := by
  obtain ⟨hstate, hothers⟩ := h.goesOn rfl
  have hne : s.state ≠ .destroying := by
    rcases hstate with hstate | hstate <;> rw [hstate] <;> nofun
  unfold setTerminated
  rw [if_neg hne]
  exact (h.toReady.setInactive node hothers hstate).nextCommand node

theorem destroyed_lifecycle (h : s.Lifecycle (.destroyed ::ₘ others)) :
    LeadsTo Lifecycle others (s.setState node .destroyed) := by
  obtain ⟨hstate, hothers⟩ := h.goesOn rfl
  refine Ready.nextCommand node ⟨h.balanced.setState node nofun,
    h.slots.setDestroyed node hstate, ?_⟩
  exact hothers

theorem Ready.setRunning (h : s.Ready others) (hstate : s.state.isStopped = false)
    {st : InternalServerState}
    (hst : st = .active ∨ st = .activationTimeout ∨ st = .deactivating ∨
      st = .deactivatingWaitForProcess)
    (hcalls : Shape st (s.stages calls)) : (s.setStateNoSync node st).Ready calls := by
  refine ⟨h.balanced.setState node ?_, h.slots.setRunning node hstate hst, ?_⟩
  · intro hloading
    rw [hloading] at hstate
    cases hstate
  · rw [setStateNoSync_state, setStateNoSync_stages]
    exact hcalls

theorem Ready.checkActivation (h : s.Ready others) : (s.checkActivation node).Ready others := by
  unfold ServerI.checkActivation
  split_ifs with hactive
  · obtain ⟨hstate, -⟩ := hactive
    have hshape := h.shape
    refine h.setRunning node ?_ (.inl rfl) ?_
    · rcases hstate with hstate | hstate <;> rw [hstate] <;> rfl
    · rcases hstate with hstate | hstate <;> rw [hstate] at hshape <;> exact hshape
  · exact h

theorem activated_lifecycle (h : s.Lifecycle (.activated ::ₘ others)) :
    LeadsTo Lifecycle others (s.activated node) := by
  obtain ⟨hstate, hothers⟩ := h.goesOn rfl
  apply Ready.nextCommand
  apply Ready.checkActivation
  have hslots : (s.assert (s.state = .activating)).Slots := h.slots
  refine ⟨Balanced.setState node (s := s.assert _) h.balanced nofun,
    hslots.setWaiting node hstate, ?_⟩
  exact hothers

theorem activationFailed_lifecycle (h : s.Lifecycle (.activationFailed ::ₘ others)) :
    LeadsTo Lifecycle others (s.activationFailed node) := by
  obtain ⟨hstate, hothers⟩ := h.goesOn rfl
  refine ⟨(h.toReady.disableOnFailure node).setRunning node ?_ (.inr (.inr (.inl rfl))) ?_, ?_⟩
  · rw [disableOnFailure_state, hstate]
    rfl
  · rw [stages_add, disableOnFailure_stages, hothers]
    exact .inr rfl
  · simp [Settled, activationFailed, canStop]

theorem deactivate_lifecycle (h : s.Lifecycle (.deactivate target ::ₘ others)) :
    LeadsTo Lifecycle others (s.deactivate node target) := by
  unfold deactivate
  dsimp only
  split_ifs with hstate hprocess
  · exact (h.done rfl).add rfl
  · have hshape := (h.done rfl).shape
    rw [not_and_or, not_not, not_not] at hstate
    have hready : ({ s.assert s.desc.isSome with awaited := target }).Ready
      (.deactivate target ::ₘ others) :=
      { h with }
    refine ⟨hready.setRunning node ?_ (.inr (.inr (.inr rfl))) ?_, ?_⟩
    · rcases hstate with hstate | hstate <;> exact hstate ▸ rfl
    · rw [coe_nil, zero_add]
      rcases hstate with hstate | hstate <;> rw [hstate] at hshape <;> exact hshape
    · simp [Settled, canStop]
  · have hdone := h.done rfl
    exact Lifecycle.add { hdone with } rfl

theorem activationTimedOut_lifecycle {command : Nat}
    (h : s.Lifecycle (.activationTimedOut command ::ₘ others)) :
    LeadsTo Lifecycle others (s.activationTimedOut node command) := by
  unfold activationTimedOut
  split_ifs with hstate
  · exact (h.done rfl).add rfl
  · rw [not_not] at hstate
    have hshape := (h.done rfl).shape
    rw [hstate] at hshape
    have hready :
        ({ s with history := s.history ++ [ServerMark.timedOut command s.startedBy] }).Ready
        (.activationTimedOut command ::ₘ others) := { h with }
    apply Ready.nextCommand
    refine hready.setRunning node ?_ (.inr (.inl rfl)) hshape
    exact hstate ▸ rfl

theorem terminated_lifecycle {failed : Bool} (h : s.Lifecycle (.terminated failed ::ₘ others)) :
    LeadsTo Lifecycle others (s.terminated node failed) := by
  have hshape := h.shape
  rw [stages_cons_of_eq_some rfl] at hshape
  unfold terminated
  by_cases hactivating : s.state = .activating
  · rw [if_pos hactivating]
    refine { h with shape := ?_ }
    rw [stages_add]
    exact hshape
  have hprocess : (s.state.canStop = true ∨ s.state = .deactivating ∨
      s.state = .deactivatingWaitForProcess) ∧
      s.stages others = 0 := hshape.of_cons.resolve_left fun h => hactivating h.1
  obtain ⟨hstate, hothers⟩ := hprocess
  have hready := h.toReady.processFailed node failed
  have hstages : (s.processFailed node failed).stages (↑s.terminatedCalls + others) =
      {.ending} := by
    rw [stages_add, filterMap_coe, terminatedCalls_stages, processFailed_stages, hothers]
    rfl
  split_ifs with hdeactivating
  · refine ⟨⟨hready.balanced, hready.slots, ?_⟩, ?_⟩
    · rw [processFailed_state, hstages]
      rcases hdeactivating with hd | hd | hd
      · exact hd ▸ .inr rfl
      · exact hd ▸ .inr rfl
      · rcases hstate with hstate | hstate | hstate <;> rw [hd] at hstate <;> cases hstate
    · unfold Settled
      rw [processFailed_state]
      rcases hdeactivating with hd | hd | hd <;> rw [hd] <;> exact ⟨nofun, nofun⟩
  · refine ⟨hready.setRunning node ?_ (.inr (.inr (.inl rfl))) ?_, ?_⟩
    · rw [processFailed_state]
      rcases hstate with hstate | hstate | hstate
      · exact (ne_of_canStop hstate).1
      · exact hstate ▸ rfl
      · exact hstate ▸ rfl
    · rw [hstages]
      exact .inr rfl
    · simp [Settled, canStop]

theorem adapterDeactivated_lifecycle {id : String}
    (h : s.Lifecycle (.adapterDeactivated id ::ₘ others)) :
    LeadsTo Lifecycle others (s.adapterDeactivated node id) := by
  have hshape := (h.done rfl).shape
  unfold adapterDeactivated
  split_ifs with hactivating hactive
  · exact (h.done rfl).add rfl
  · have hcan : s.state.canStop = true := by
      rcases hactive.1 with hstate | hstate <;> rw [hstate] <;> rfl
    apply Ready.nextCommand
    exact ⟨newStop_balanced h.balanced (h.settled.1 hcan) false,
      newStop_slots h.slots (ne_of_canStop hcan).1 false, hshape⟩
  · exact Ready.nextCommand node ⟨h.balanced, h.slots, hshape⟩

theorem signalFailed_lifecycle (h : s.Lifecycle (.signalFailed target ::ₘ others)) :
    LeadsTo Lifecycle others (s.signalFailed node target) := by
  obtain ⟨hstate, hothers⟩ := h.goesOn rfl
  have hready : ({ s with history := s.history ++ [ServerMark.abandoned target s.started] }).Ready
      (.signalFailed target ::ₘ others) := { h with }
  exact (hready.setInactive node hothers hstate).nextCommand node

theorem exec_lifecycle (h : s.Lifecycle (call ::ₘ others)) (hdelivers : s.Delivers call) :
    LeadsTo Lifecycle others (exec node call s) := by
  cases call with
  | update => exact update_lifecycle node h
  | destroy => exact destroyFiles_lifecycle h
  | destroyed => exact destroyed_lifecycle node h
  | activate => exact activate_lifecycle h
  | startProcess => exact startProcess_lifecycle h
  | activated => exact activated_lifecycle node h
  | activationFailed => exact activationFailed_lifecycle node h
  | setInactive =>
    obtain ⟨hstate, hothers⟩ := h.goesOn rfl
    exact (h.toReady.setInactive node hothers hstate).nextCommand node
  | deactivate target => exact deactivate_lifecycle node h
  | shutdown target process =>
    cases process with
    | none => exact (h.done rfl).add rfl
    | some n =>
      have hdone := h.done rfl
      exact Lifecycle.add { hdone with } rfl
  | kill target =>
    rw [exec, kill]
    split_ifs <;> exact (h.done rfl).add rfl
  | sendSignal target signaller => exact sendSignal_lifecycle h hdelivers
  | signalFailed target => exact signalFailed_lifecycle node h
  | activationTimedOut command => exact activationTimedOut_lifecycle node h
  | terminated failed => exact terminated_lifecycle node h
  | adapterDeactivated id => exact adapterDeactivated_lifecycle node h
  | setTerminated => exact setTerminated_lifecycle node h

/-! ### Every event -/

section

variable (h : s.Lifecycle others)
include h

theorem startEnabled_lifecycle (hstate : s.state ≠ .destroyed)
    (activation : ServerActivation) (response : Option κ) :
    LeadsTo Lifecycle others (s.startEnabled node activation response) := by
  unfold startEnabled
  split_ifs with hdisabled halways hmanual hsession hactive
  any_goals exact Lifecycle.add { h with } rfl
  rw [not_or, not_or] at hactive
  apply Ready.nextCommand
  refine ⟨?_, ?_, h.shape⟩
  · apply h.balanced.of_added (a := []) (b := response.toList) (c := []) (d := []) (e := [])
    all_goals simp [stopCallbacks, startCallbacks, loadCallbacks, destroyCallbacks]
    cases s.start <;> rfl
  · refine ⟨h.slots.loading, fun _ => rfl, h.slots.destroying, fun _ => hactive, h.slots.stop,
      h.slots.destroy, fun _ => ?_, fun hdestroyed => absurd hdestroyed hstate⟩
    exact h.slots.desc (.inr (.inr (.inr (.inl hdisabled))))

theorem startServer_lifecycle (activation : ServerActivation) (response : Option κ) :
    LeadsTo Lifecycle others (s.startServer node activation response) := by
  unfold startServer
  split_ifs with hstate
  · exact h.add rfl
  · apply startEnabled_lifecycle node (h.reenable node activation)
    unfold ServerI.reenable
    split_ifs <;> exact hstate

theorem stopServer_lifecycle (response : Option κ) :
    LeadsTo Lifecycle others (s.stopServer node response) := by
  unfold stopServer
  split_ifs with hstate
  · exact h.add rfl
  rw [Bool.not_eq_true] at hstate
  apply Ready.nextCommand
  refine ⟨?_, ?_, h.shape⟩
  · apply h.balanced.of_added (a := []) (b := []) (c := response.toList) (d := []) (e := [])
    all_goals simp [stopCallbacks, startCallbacks, loadCallbacks, destroyCallbacks]
    cases s.stop <;> rfl
  · exact { h.slots with stop := fun _ => hstate, destroy := fun _ _ => rfl }

theorem destroyServer_lifecycle (uuid : String) (revision : Int) (replicaName : String)
    (noRestart : Bool) (response : Option κ) :
    LeadsTo Lifecycle others (s.destroyServer node uuid revision replicaName noRestart
      response) := by
  unfold destroyServer
  split_ifs with hrefused hdesc hnoRestart
  · exact h.add rfl
  · refine Lifecycle.add { h with balanced := ?_ } rfl
    apply h.balanced.of_added (a := response.toList) (b := []) (c := []) (d := []) (e := [])
    all_goals simp [stopCallbacks, startCallbacks, loadCallbacks, destroyCallbacks, respond]
  · exact h.add rfl
  · rw [not_or] at hrefused
    have hready := h.toReady.scheduleStop
    have hsome : s.desc.isSome := by simpa [isSome_iff_ne_none] using hdesc
    have hdesc' : s.scheduleStop.desc.isSome := by
      unfold ServerI.scheduleStop
      split_ifs <;> exact hsome
    apply Ready.nextCommand
    refine ⟨?_, ?_, hready.shape⟩
    · apply hready.balanced.of_added (a := []) (b := []) (c := []) (d := []) (e := response.toList)
      all_goals simp [addDestroy, stopCallbacks, startCallbacks, loadCallbacks, destroyCallbacks]
      cases s.scheduleStop.destroy <;> rfl
    · have hslots := hready.slots
      refine ⟨hslots.loading, hslots.starting, fun _ => rfl, hslots.start, hslots.stop,
        fun _ hstate => ?_, fun _ _ => hdesc', fun hdestroyed => ?_⟩
      · exact s.scheduleStop_stop (s.scheduleStop_state ▸ hstate)
      · exact absurd (s.scheduleStop_state.symm.trans hdestroyed) hrefused.1

theorem setProcess_lifecycle (process : Nat) :
    LeadsTo Lifecycle others (s.setProcess node process) := by
  unfold setProcess
  split_ifs
  · exact h.add rfl
  · exact Lifecycle.add { h with } rfl
  · apply Ready.nextCommand
    apply Ready.checkActivation
    exact { h with }

theorem adapterActivated_lifecycle (id : String) :
    LeadsTo Lifecycle others (s.adapterActivated node id) := by
  unfold adapterActivated
  split_ifs
  · exact h.add rfl
  · apply Ready.nextCommand
    apply Ready.checkActivation
    exact { h with }

theorem updateRuntimePropertiesCallback_lifecycle
    (desc : Shared (InternalServerDescriptor ρ φ)) (succeeded : Bool) :
    (s.updateRuntimePropertiesCallback node desc succeeded).Lifecycle others := by
  unfold updateRuntimePropertiesCallback
  split
  · rename_i l hstate hl
    have hcallbacks : s.loadCallbacks = l.callbacks := by
      unfold loadCallbacks
      rw [hl]
      rfl
    have hne : s.state ≠ .destroyed := by rw [hstate]; nofun
    have hslots := h.slots.setLoad hne { l with updating := false, runtime := some desc }
    have hbalanced :
        ({ s with load := some { l with updating := false, runtime := some desc } }).Balanced :=
      h.balanced.setLoad hcallbacks.symm
    dsimp only
    split_ifs
    · refine ⟨⟨?_, hslots, h.shape⟩, h.settled.1, fun hinactive => ?_⟩
      · refine h.balanced.of_eq ?_ ?_
        · rfl
        · exact startRuntimePropertiesUpdate_callbacks (s := s.assert _) node hcallbacks
      · cases hstate.symm.trans hinactive
    · refine ⟨⟨?_, ?_, h.shape⟩, h.settled.1, fun hinactive => ?_⟩
      · exact hbalanced.of_eq rfl (endLoad_callbacks _)
      · exact { hslots with loading := fun _ => rfl, desc := fun _ _ => rfl }
      · cases hstate.symm.trans hinactive
    · refine ⟨⟨?_, ?_, h.shape⟩, h.settled.1, fun hinactive => ?_⟩
      · refine hbalanced.of_eq rfl ?_
        exact (dropLoad_callbacks (endLoad_loadCallbacks _)).trans (endLoad_callbacks _)
      · refine { hslots with
          loading := fun hloading => ?_
          destroyed := fun hdestroyed => absurd hdestroyed hne }
        cases hstate.symm.trans hloading
      · cases hstate.symm.trans hinactive
  · exact h

end

theorem Ready.startUpdate (h : s.Ready others) : (s.startUpdate node).Ready others := by
  refine ⟨h.balanced.of_eq (startUpdate_frame node (·.accepted) (by intros; rfl))
    (startUpdate_callbacks node s), ?_, ?_⟩
  · have hcore := startUpdate_frame node
      (fun t => CommandSlots t.state s.load.isSome t.start.isSome t.stop.isSome
        t.destroy.isSome t.desc.isSome t.activation t.previousActivation) (by intros; rfl) (s := s)
    unfold Slots
    rw [startUpdate_load_isSome, hcore]
    exact h.slots
  · have hshape := startUpdate_frame node (fun t => Shape t.state (t.stages others))
      (by intros; rfl) (s := s)
    exact hshape ▸ h.shape

theorem Ready.answerLoad (h : s.Ready others) (hload : s.load.isSome) (response : κ) :
    (s.answerLoad node response).Ready others := by
  unfold ServerI.answerLoad
  split_ifs
  · exact h.addLoadCallback hload response
  · exact h.respond response
  · exact (h.addLoadCallback hload response).startUpdate node
  · exact h.respond response
  · exact h.addLoadCallback hload response

section

variable [DecidableEq ρ]

/-- A load waits only if there is a load command. -/
theorem load_isSome_of_loadPending (hlatest : s.latest.isSome) (hpending : s.loadPending = true) :
    s.load.isSome := by
  unfold loadPending at hpending
  unfold latest at hlatest
  cases hl : s.load with
  | some l => rfl
  | none =>
    cases hd : s.desc with
    | none => simp [hl, hd] at hlatest
    | some d => simp [hl, hd] at hpending

theorem loadUnchanged_lifecycle (h : s.Lifecycle others) {desc : InternalServerDescriptor ρ φ}
    (hlatest : s.latest.isSome) (response : κ) :
    (s.loadUnchanged desc response).Lifecycle others := by
  have hrefreshed := h.refreshRevision desc
  have hlatest' : (s.refreshRevision desc).latest.isSome := by
    have hload : (s.refreshRevision desc).load.isSome = s.load.isSome :=
      refreshRevision_frame desc (·.load.isSome) fun _ _ _ => isSome_map ..
    have hdesc : (s.refreshRevision desc).desc.isSome = s.desc.isSome :=
      refreshRevision_frame desc (·.desc.isSome) fun _ _ _ => isSome_map ..
    unfold latest at hlatest ⊢
    simpa [hload, hdesc] using hlatest
  unfold loadUnchanged
  dsimp only
  split_ifs with hpending
  · have hload := load_isSome_of_loadPending hlatest' hpending
    refine ⟨hrefreshed.toReady.addLoadCallback hload response, hrefreshed.settled.1,
      fun hstate => ?_⟩
    rw [(hrefreshed.settled.2 hstate).2.1] at hload
    cases hload
  · exact ⟨hrefreshed.toReady.respond response, hrefreshed.settled⟩

theorem loadServer_lifecycle (h : s.Lifecycle others) (desc : InternalServerDescriptor ρ φ)
    (replicaName : String) (noRestart : Bool) (response : κ) :
    LeadsTo Lifecycle others (s.loadServer node desc replicaName noRestart response) := by
  unfold loadServer
  split_ifs with hrefused hunchanged
  · exact h.add rfl
  · have hlatest : s.latest.isSome := by
      unfold unchanged at hunchanged
      cases hd : s.latest with
      | none => simp [hd] at hunchanged
      | some d => rfl
    exact leadsTo_nil.mpr (loadUnchanged_lifecycle h hlatest response)
  · have hstate : s.state ≠ .destroyed := by
      intro hdestroyed
      simp [refuses, hdestroyed] at hrefused
    obtain ⟨hready, hload⟩ := h.toReady.prepareLoad hstate desc noRestart
    exact (hready.answerLoad node hload response).nextCommand node

theorem spawn_lifecycle {e : ServerEvent ρ φ κ} {r : ServerI ρ φ κ × List ServerCall}
    (h : s.Lifecycle others) (hspawn : spawn node e s = some r) : LeadsTo Lifecycle others r := by
  cases e with
  | environment environment =>
    cases hspawn
    exact Lifecycle.add { h with } rfl
  | load desc replicaName noRestart response =>
    cases hspawn
    exact loadServer_lifecycle node h desc replicaName noRestart response
  | start activation response =>
    cases hspawn
    exact startServer_lifecycle node h activation response
  | stop response =>
    cases hspawn
    exact stopServer_lifecycle node h response
  | destroy uuid revision replicaName noRestart response =>
    cases hspawn
    exact destroyServer_lifecycle node h uuid revision replicaName noRestart response
  | setProcess process =>
    cases hspawn
    exact setProcess_lifecycle node h process
  | setEnabled enabled =>
    cases hspawn
    exact leadsTo_nil.mpr (h.setEnabled enabled)
  | adapterActivated id =>
    cases hspawn
    exact adapterActivated_lifecycle node h id
  | adapterDeactivated id =>
    cases hspawn
    exact h.add rfl
  | timer timer =>
    obtain ⟨-, ⟨⟩⟩ := ite_none_right_eq_some.mp hspawn
    cases timer <;> exact Lifecycle.add { h with } rfl
  | terminated failed =>
    obtain ⟨hrunning, ⟨⟩⟩ := ite_none_right_eq_some.mp hspawn
    refine { h with shape := ?_ }
    rw [coe_singleton, singleton_add, stages_terminated hrunning]
    exact h.shape
  | applicationUpdated =>
    obtain ⟨hreplications, ⟨⟩⟩ := ite_none_right_eq_some.mp hspawn
    refine { h with shape := ?_ }
    rw [coe_singleton, singleton_add, stages_applicationUpdated hreplications]
    exact h.shape
  | properties cb succeeded =>
    obtain ⟨-, ⟨⟩⟩ := ite_none_right_eq_some.mp hspawn
    rw [leadsTo_nil]
    have herase : ({ s with inFlight := s.inFlight.erase cb }).Lifecycle others :=
      { h with }
    unfold propertiesReply
    split
    · exact { h with }
    · exact updateRuntimePropertiesCallback_lifecycle node herase _ _
  | shutdown target succeeded =>
    obtain ⟨-, ⟨⟩⟩ := ite_none_right_eq_some.mp hspawn
    cases succeeded <;> exact Lifecycle.add { h with } rfl

section

variable {choices : List (Choice (ServerEvent ρ φ κ))} {c : Threads (ServerI ρ φ κ) ServerCall}
  (h : Threads.run (exec node) (spawn node) choices initial = some c)
  (hsteps : Threads.AllSteps (exec node) (spawn node) (fun _ _ _ => True)
    (fun call s _ => s.Delivers call) choices initial)
include h hsteps

theorem run_lifecycle : c.state.Lifecycle c.calls := by
  refine Threads.run_invariant_of (P := Lifecycle) ?_ ?_ h hsteps initial_lifecycle
  · intro s call others hs hdelivers
    exact exec_lifecycle node hs hdelivers
  · intro s e s' calls others hs _ hspawn
    exact spawn_lifecycle node hs hspawn

/-- Each callback that was accepted is called once or is held by a command, and none is held when
    the server is inactive or destroyed. -/
theorem callbacks_called_once :
    (c.state.accepted : Multiset κ) = c.state.answered + c.state.waiting ∧
    (c.state.state = .inactive ∨ c.state.state = .destroyed →
      c.state.accepted.Perm c.state.answered) := by
  have hl := run_lifecycle node h hsteps
  refine ⟨hl.balanced, fun hstate => ?_⟩
  have hstop : c.state.stop = none := by
    by_contra hsome
    have hrunning := hl.slots.stop (isSome_iff_ne_none.mpr hsome)
    rcases hstate with hstate | hstate <;> rw [hstate] at hrunning <;> cases hrunning
  have hnone : c.state.load = none ∧ c.state.start = none ∧ c.state.destroy = none := by
    rcases hstate with hstate | hstate
    · obtain ⟨hdestroy, hload, hstart⟩ := hl.settled.2 hstate
      exact ⟨hload, hstart, hdestroy⟩
    · simpa using hl.slots.destroyed hstate
  have hwaiting : c.state.waiting = 0 := by
    simp [waiting, startCallbacks, stopCallbacks, loadCallbacks, destroyCallbacks, hstop, hnone]
  have hbalanced := hl.balanced
  rw [Balanced, callbacks, hwaiting, add_zero] at hbalanced
  exact coe_eq_coe.mp hbalanced

/-- No process is started while another one runs or is about to be started, and none runs while the
    server is inactive, loading, being destroyed or destroyed. -/
theorem processes_never_overlap : (∀ others, c.calls = .startProcess ::ₘ others →
      c.state.running = none ∧ .startProcess ∉ others) ∧
    (c.state.state.isStopped = true → c.state.running = none) := by
  have hl := run_lifecycle node h hsteps
  refine ⟨fun others hcalls => ?_, fun hstopped => ?_⟩
  · rw [hcalls] at hl
    obtain ⟨hnone, hrunning, -⟩ := stages_eq_zero (hl.goesOn (a := .start) rfl).2
    refine ⟨hrunning, fun hmem => ?_⟩
    have hstage : Stage.start ∈ others.filterMap ServerCall.stage :=
      (mem_filterMap _ _).mpr ⟨_, hmem, rfl⟩
    rw [hnone] at hstage
    exact notMem_zero _ hstage
  · by_contra hrunning
    have hprocess : Stage.process ∈ c.state.stages c.calls := by
      simp [stages, isSome_iff_ne_none.mpr hrunning]
    have hshape := hl.shape
    cases hstate : c.state.state <;> rw [hstate] at hstopped hshape <;> simp_all [Shape, isStopped]

end

end

/-- A server is loaded and started, and its process is stopped; each request has a callback. -/
def startAndStop : List (Choice (ServerEvent Unit Unit Nat)) :=
  [.event (.load ⟨"", 1, "", "manual", false, [], [], ()⟩ "Master" false 1), .thread 0,
    .event (.start .manual (some 2)), .thread 1, .thread 1, .thread 1, .event (.stop (some 3)),
    .thread 2, .thread 2, .thread 2, .event (.terminated false), .thread 3, .thread 3]

theorem callbacks_called_once_stopped : ∃ c, Threads.run (exec {}) (spawn {}) startAndStop initial =
    some c ∧ c.state.state = .inactive ∧ c.state.accepted = [1, 2, 3] ∧
      c.state.accepted.Perm c.state.answered := by
  refine Exists.imp (fun c hc => ⟨hc, ?_⟩) (isSome_iff_exists.mp rfl)
  have hcalled := (callbacks_called_once {} hc (by decide)).2
  cases hc
  exact ⟨rfl, rfl, hcalled (.inl rfl)⟩

/-- The next process is about to be started. -/
theorem processes_never_overlap_restarting : ∃ c, Threads.run (exec {}) (spawn {})
    (startAndStop ++ [.event (.start .manual none), .thread 4]) initial = some c ∧
      c.calls = {.startProcess} ∧ c.state.running = none := by
  refine Exists.imp (fun c hc => ⟨hc, ?_⟩) (isSome_iff_exists.mp rfl)
  have hnone := (processes_never_overlap {} hc (by decide)).1
  cases hc
  exact ⟨rfl, (hnone 0 rfl).1⟩

end ServerI

end Ice.IceGrid
