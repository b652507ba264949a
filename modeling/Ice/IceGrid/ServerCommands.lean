import Ice.IceGrid.ServerI

/-!
# The commands of a server on its node

What the parts of a critical section do to the four commands of a server: each callback that was
accepted is called once or is still held by one of the commands, and a command is there only in the
states in which it can be.
-/

namespace Ice.IceGrid

open Misc Multiset InternalServerState

variable {ρ φ κ : Type}

namespace ServerI

variable {s : ServerI ρ φ κ}

/-! ### Callbacks -/

/-- The callbacks that the commands hold. -/
def waiting (s : ServerI ρ φ κ) : Multiset κ :=
  s.startCallbacks + (s.stopCallbacks + (s.loadCallbacks + s.destroyCallbacks))

/-- The callbacks that were called and those that the commands hold. -/
def callbacks (s : ServerI ρ φ κ) : Multiset κ := s.answered + s.waiting

/-- Each callback that was accepted was called once or is held by a command. -/
def Balanced (s : ServerI ρ φ κ) : Prop := (s.accepted : Multiset κ) = s.callbacks

theorem Balanced.of_eq {s' : ServerI ρ φ κ} (h : s.Balanced) (haccepted : s'.accepted = s.accepted)
    (hcallbacks : s'.callbacks = s.callbacks) : s'.Balanced := by
  unfold Balanced
  rw [haccepted, hcallbacks]
  exact h

/-- Callbacks that are accepted are called, or the commands hold them. -/
theorem Balanced.of_added {s' : ServerI ρ φ κ} (h : s.Balanced) {a b c d e : List κ}
    (haccepted : s'.accepted = s.accepted ++ (a ++ b ++ c ++ d ++ e))
    (hanswered : s'.answered = s.answered ++ a)
    (hstart : s'.startCallbacks = s.startCallbacks ++ b)
    (hstop : s'.stopCallbacks = s.stopCallbacks ++ c)
    (hload : s'.loadCallbacks = s.loadCallbacks ++ d)
    (hdestroy : s'.destroyCallbacks = s.destroyCallbacks ++ e) : s'.Balanced := by
  unfold Balanced callbacks waiting at *
  rw [haccepted, hanswered, hstart, hstop, hload, hdestroy]
  simp only [← coe_add, h]
  abel

@[simp] theorem endStart_callbacks (s : ServerI ρ φ κ) : s.endStart.callbacks = s.callbacks := by
  simp only [callbacks, waiting, endStart, startCallbacks, stopCallbacks, loadCallbacks,
    destroyCallbacks, ← coe_add, Option.map_none, Option.getD_none, coe_nil]
  abel

@[simp] theorem endStop_callbacks (s : ServerI ρ φ κ) : s.endStop.callbacks = s.callbacks := by
  simp only [callbacks, waiting, endStop, startCallbacks, stopCallbacks, loadCallbacks,
    destroyCallbacks, ← coe_add, Option.map_none, Option.getD_none, coe_nil]
  abel

@[simp] theorem endDestroy_callbacks (s : ServerI ρ φ κ) :
    s.endDestroy.callbacks = s.callbacks := by
  simp only [callbacks, waiting, endDestroy, startCallbacks, stopCallbacks, loadCallbacks,
    destroyCallbacks, ← coe_add, Option.map_none, Option.getD_none, coe_nil]
  abel

@[simp] theorem endLoad_loadCallbacks (s : ServerI ρ φ κ) : s.endLoad.loadCallbacks = [] := by
  unfold loadCallbacks endLoad
  cases s.load <;> rfl

@[simp] theorem endLoad_callbacks (s : ServerI ρ φ κ) : s.endLoad.callbacks = s.callbacks := by
  have hload := s.endLoad_loadCallbacks
  unfold callbacks waiting
  rw [hload]
  simp only [endLoad, startCallbacks, stopCallbacks, loadCallbacks, destroyCallbacks,
    ← coe_add, coe_nil]
  abel

/-- A load command that holds no callback can be dropped. -/
theorem dropLoad_callbacks (h : s.loadCallbacks = []) :
    ({ s with load := none }).callbacks = s.callbacks := by
  unfold callbacks waiting
  rw [h]
  rfl

section

variable [DecidableEq φ] (node : Node φ)

theorem startRuntimePropertiesUpdate_callbacks {l : LoadCommand ρ φ κ}
    (h : s.loadCallbacks = l.callbacks) :
    (s.startRuntimePropertiesUpdate node l).callbacks = s.callbacks := by
  unfold callbacks waiting
  rw [h]
  rfl

theorem startUpdate_callbacks (s : ServerI ρ φ κ) :
    (s.startUpdate node).callbacks = s.callbacks := by
  unfold startUpdate
  split
  · rfl
  · rename_i l hl
    apply startRuntimePropertiesUpdate_callbacks
    unfold loadCallbacks
    rw [hl]
    rfl

/-- Only the load command and what is known of its update change. -/
theorem startUpdate_frame {α : Type} (f : ServerI ρ φ κ → α)
    (hf : ∀ (s : ServerI ρ φ κ) load inFlight failed relocked,
      f { s with load, inFlight, failed, relocked } = f s) : f (s.startUpdate node) = f s := by
  unfold startUpdate
  split
  · rfl
  · exact hf s _ _ _ _

theorem startUpdate_load_isSome (s : ServerI ρ φ κ) :
    (s.startUpdate node).load.isSome = s.load.isSome := by
  unfold startUpdate
  split
  · rfl
  · rename_i l hl
    rw [hl]
    rfl

theorem setStateNoSync_active_frame {α : Type} (f : ServerI ρ φ κ → α)
    (hf : ∀ (s : ServerI ρ φ κ) load inFlight failed relocked answered,
      f { s with load, inFlight, failed, relocked, answered } = f s) :
    f (s.setStateNoSync node .active) = f ({ s with state := .active }).endStart := by
  simp only [setStateNoSync]
  split_ifs
  · refine (startUpdate_frame node f fun s load inFlight failed relocked => ?_).trans ?_
    · exact hf s load inFlight failed relocked s.answered
    · exact hf { s with state := .active }.endStart s.load s.inFlight _ s.relocked _
  · exact hf { s with state := .active }.endStart _ _ _ _ _

section

variable (st : InternalServerState)

/-- A change of the state touches the commands and what depends on them only. -/
theorem setStateNoSync_frame {α : Type} (f : ServerI ρ φ κ → α)
    (hf : ∀ (s : ServerI ρ φ κ) state desc destroy stop load start timers inFlight failed
      relocked answered,
      f { s with
          state, desc, destroy, stop, load, start, timers, inFlight, failed, relocked, answered } =
        f s) :
    f (s.setStateNoSync node st) = f s := by
  cases st
  case active =>
    simp only [setStateNoSync]
    split_ifs
    · refine (startUpdate_frame node f fun s load inFlight failed relocked => ?_).trans ?_
      · exact hf s s.state s.desc s.destroy s.stop load s.start s.timers inFlight failed
          relocked s.answered
      · exact hf s _ _ _ _ _ _ _ _ _ _ _
    · exact hf s _ _ _ _ _ _ _ _ _ _ _
  all_goals exact hf s _ _ _ _ _ _ _ _ _ _ _

@[simp] theorem setStateNoSync_accepted : (s.setStateNoSync node st).accepted = s.accepted :=
  setStateNoSync_frame node st (·.accepted) (by intros; rfl)

@[simp] theorem setStateNoSync_activation : (s.setStateNoSync node st).activation = s.activation :=
  setStateNoSync_frame node st (·.activation) (by intros; rfl)

@[simp] theorem setStateNoSync_previousActivation :
    (s.setStateNoSync node st).previousActivation = s.previousActivation :=
  setStateNoSync_frame node st (·.previousActivation) (by intros; rfl)

@[simp] theorem setStateNoSync_running : (s.setStateNoSync node st).running = s.running :=
  setStateNoSync_frame node st (·.running) (by intros; rfl)

@[simp] theorem setStateNoSync_replications :
    (s.setStateNoSync node st).replications = s.replications :=
  setStateNoSync_frame node st (·.replications) (by intros; rfl)

@[simp] theorem setStateNoSync_state : (s.setStateNoSync node st).state = st := by
  cases st <;> try rfl
  exact setStateNoSync_active_frame node (·.state) (by intros; rfl)

@[simp] theorem setStateNoSync_start : (s.setStateNoSync node st).start =
    if st = .active ∨ st = .activationTimeout ∨ st = .deactivating ∨ st = .destroying then none
    else s.start := by
  cases st <;> try rfl
  exact setStateNoSync_active_frame node (·.start) (by intros; rfl)

@[simp] theorem setStateNoSync_stop : (s.setStateNoSync node st).stop =
    if st = .inactive ∨ st = .destroying then none else s.stop := by
  cases st <;> try rfl
  exact setStateNoSync_active_frame node (·.stop) (by intros; rfl)

@[simp] theorem setStateNoSync_destroy : (s.setStateNoSync node st).destroy =
    if st = .destroyed then none else s.destroy := by
  cases st <;> try rfl
  exact setStateNoSync_active_frame node (·.destroy) (by intros; rfl)

@[simp] theorem setStateNoSync_desc : (s.setStateNoSync node st).desc =
    if st = .destroyed then none else s.desc := by
  cases st <;> try rfl
  exact setStateNoSync_active_frame node (·.desc) (by intros; rfl)

@[simp] theorem setStateNoSync_load_isSome : (s.setStateNoSync node st).load.isSome =
    if st = .destroying ∨ st = .destroyed ∨ st = .inactive ∧ s.state = .loading then false
    else s.load.isSome := by
  cases st <;> try rfl
  case inactive =>
    by_cases h : s.state = .loading <;> simp [setStateNoSync, endStop, h, assert]
  have hload : (s.setStateNoSync node .active).load.isSome = s.load.isSome := by
    simp only [setStateNoSync]
    split_ifs
    · exact startUpdate_load_isSome node _
    · exact Option.isSome_map ..
  exact hload

end

/-- A change of the state calls callbacks, and forgets none unless the load command still holds
    some. -/
theorem setStateNoSync_callbacks {st : InternalServerState}
    (h : s.state = .loading → st = .inactive → s.loadCallbacks = []) :
    (s.setStateNoSync node st).callbacks = s.callbacks := by
  cases st with
  | inactive =>
    refine (endStop_callbacks _).trans ?_
    by_cases hstate : s.state = .loading
    · simp only [hstate, if_true]
      exact dropLoad_callbacks (h hstate rfl)
    · simp only [hstate, if_false]
      rfl
  | active =>
    refine Eq.trans ?_ (endStart_callbacks s)
    simp only [setStateNoSync]
    split_ifs
    · exact startUpdate_callbacks node _
    · exact endLoad_callbacks _
  | activationTimeout | deactivating => exact endStart_callbacks _
  | destroying =>
    refine (endStop_callbacks _).trans ((endStart_callbacks _).trans ?_)
    exact (dropLoad_callbacks (endLoad_loadCallbacks _)).trans (endLoad_callbacks _)
  | destroyed =>
    refine Eq.trans ?_ ((endLoad_callbacks _).trans (endDestroy_callbacks s))
    exact dropLoad_callbacks (endLoad_loadCallbacks s.endDestroy)
  | _ => rfl

/-- What `nextCommand` does: nothing, when no command can be executed, or it sets the state of the
    first one that can. -/
theorem nextCommand_cases (s : ServerI ρ φ κ) :
    (s.nextCommand node = (s, []) ∧ (s.state.canStop = true → s.stop = none) ∧
      (s.state = .inactive → s.destroy = none ∧ s.load = none ∧ s.start = none)) ∨
    (∃ c, s.state.canStop = true ∧ s.stop = some c ∧ s.nextCommand node =
      (((s.targetStop c).startTimer (.deactivation c.id s.running)).setStateNoSync node
        .deactivating,
        if c.deactivate then [.deactivate s.running]
        else [])) ∨ (s.state = .inactive ∧ s.destroy.isSome ∧
      s.nextCommand node = (s.setStateNoSync node .destroying, [.destroy])) ∨
    (s.state = .inactive ∧ s.destroy = none ∧ s.load.isSome ∧
      s.nextCommand node = (s.setStateNoSync node .loading, [.update])) ∨
    (∃ c, s.state = .inactive ∧ s.destroy = none ∧ s.load = none ∧ s.start = some c ∧
      s.nextCommand node =
      ((s.startTimer (.activation c.id)).setStateNoSync node .activating, [.activate])) := by
  unfold nextCommand
  by_cases hstop : s.state.canStop = true
  · have hne : s.state ≠ .inactive := by
      intro h
      rw [h] at hstop
      cases hstop
    rw [if_pos hstop]
    cases hc : s.stop with
    | none => exact .inl ⟨rfl, fun _ => rfl, fun h => absurd h hne⟩
    | some c => exact .inr (.inl ⟨c, hstop, rfl, rfl⟩)
  rw [if_neg hstop]
  by_cases hstate : s.state = .inactive
  · rw [if_pos hstate]
    cases hd : s.destroy with
    | some c => exact .inr (.inr (.inl ⟨hstate, rfl, rfl⟩))
    | none =>
      cases hl : s.load with
      | some c => exact .inr (.inr (.inr (.inl ⟨hstate, rfl, rfl, rfl⟩)))
      | none =>
        cases hs : s.start with
        | none => exact .inl ⟨rfl, fun h => absurd h hstop, fun _ => ⟨rfl, rfl, rfl⟩⟩
        | some c => exact .inr (.inr (.inr (.inr ⟨c, hstate, rfl, rfl, rfl, rfl⟩)))
  · rw [if_neg hstate]
    exact .inl ⟨rfl, fun h => absurd h hstop, fun h => absurd h hstate⟩

theorem Balanced.setState {st : InternalServerState} (h : s.Balanced)
    (hload : s.state = .loading → st = .inactive → s.loadCallbacks = []) :
    (s.setStateNoSync node st).Balanced :=
  h.of_eq (setStateNoSync_accepted node st) (setStateNoSync_callbacks node hload)

theorem Balanced.nextCommand (h : s.Balanced) : (s.nextCommand node).1.Balanced := by
  rcases s.nextCommand_cases node with ⟨heq, -⟩ | ⟨c, -, hc, heq⟩ | ⟨-, -, heq⟩ | ⟨-, -, -, heq⟩ |
    ⟨c, -, -, -, -, heq⟩
  all_goals rw [heq]
  · exact h
  · have hstop : ((s.targetStop c).startTimer (.deactivation c.id s.running)).Balanced := by
      refine Balanced.of_eq h ?_ ?_
      · rfl
      · unfold callbacks waiting stopCallbacks
        rw [hc]
        rfl
    exact hstop.setState node nofun
  · exact h.setState node nofun
  · exact h.setState node nofun
  · exact Balanced.setState node (s := s.startTimer (.activation c.id)) h nofun

end

/-! ### Commands -/

/-- Which commands and whether a descriptor can be there in a state, also before `nextCommand` has
    picked a command. -/
structure CommandSlots (state : InternalServerState)
    (hasLoad hasStart hasStop hasDestroy hasDesc : Bool)
    (activation previousActivation : ServerActivation) : Prop where
  loading : state = .loading → hasLoad
  starting : state = .activating ∨ state = .waitForActivation → hasStart
  destroying : state = .destroying → hasDestroy
  start : hasStart → state ≠ .activationTimeout ∧ state ≠ .active ∧ state ≠ .destroying
  stop : hasStop → state.isStopped = false
  destroy : hasDestroy → state.isStopped = false → hasStop
  desc : hasStart ∨ hasDestroy ∨ state.isStopped = false ∨ activation ≠ .disabled ∨
    previousActivation ≠ .disabled → state ≠ .destroyed → hasDesc
  destroyed : state = .destroyed → hasLoad = false ∧ hasStart = false ∧ hasDestroy = false

abbrev Slots (s : ServerI ρ φ κ) : Prop :=
  CommandSlots s.state s.load.isSome s.start.isSome s.stop.isSome s.destroy.isSome s.desc.isSome
    s.activation s.previousActivation

theorem ne_of_canStop {st : InternalServerState} (h : st.canStop = true) :
    st.isStopped = false ∧ st ≠ .destroyed := by
  cases st <;> simp_all [canStop, isStopped]

/-- No command can be executed. -/
def Settled (s : ServerI ρ φ κ) : Prop :=
  (s.state.canStop = true → s.stop = none) ∧
    (s.state = .inactive → s.destroy = none ∧ s.load = none ∧ s.start = none)

section

variable [DecidableEq φ] (node : Node φ)

theorem Slots.setInactive (h : s.Slots) (hstate : s.state ≠ .destroyed) :
    (s.setStateNoSync node .inactive).Slots := by
  obtain ⟨hloading, hstarting, hdestroying, hstart, hstop, hdestroy, hdesc, hdestroyed⟩ := h
  constructor <;> simp_all [isStopped]
  exact fun h => hdesc (h.imp id (.imp id .inr))

/-- The server becomes active, its activation times out, or it is being deactivated. -/
theorem Slots.setRunning (h : s.Slots) (hstate : s.state.isStopped = false)
    {st : InternalServerState}
    (hst : st = .active ∨ st = .activationTimeout ∨ st = .deactivating ∨
      st = .deactivatingWaitForProcess) :
    (s.setStateNoSync node st).Slots := by
  have hne : s.state ≠ .destroyed := by
    intro h
    rw [h] at hstate
    cases hstate
  have hdesc := h.desc (.inr (.inr (.inl hstate))) hne
  have hdestroy := h.destroy
  rcases hst with rfl | rfl | rfl | rfl <;> constructor <;> simp_all [isStopped]

theorem Slots.setWaiting (h : s.Slots) (hstate : s.state = .activating) :
    (s.setStateNoSync node .waitForActivation).Slots := by
  obtain ⟨hloading, hstarting, hdestroying, hstart, hstop, hdestroy, hdesc, hdestroyed⟩ := h
  constructor <;> simp_all [isStopped]

theorem Slots.setDestroyed (h : s.Slots) (hstate : s.state = .destroying) :
    (s.setStateNoSync node .destroyed).Slots := by
  have hstart : s.start = none := by
    by_contra hsome
    exact (h.start (Option.isSome_iff_ne_none.mpr hsome)).2.2 hstate
  have hstop : s.stop = none := by
    by_contra hsome
    have hrun := h.stop (Option.isSome_iff_ne_none.mpr hsome)
    rw [hstate] at hrun
    cases hrun
  constructor <;> simp_all [isStopped]

end

theorem Slots.nextCommand [DecidableEq φ] (node : Node φ) (h : s.Slots) :
    (s.nextCommand node).1.Slots ∧ (s.nextCommand node).1.Settled := by
  rcases s.nextCommand_cases node with ⟨heq, hsettled⟩ | ⟨c, hcan, hc, heq⟩ | ⟨hstate, hd, heq⟩ |
    ⟨hstate, hd, hl, heq⟩ | ⟨c, hstate, hd, hl, hc, heq⟩
  · rw [heq]
    exact ⟨h, hsettled.1, hsettled.2⟩
  · obtain ⟨hrun, hne⟩ := ne_of_canStop hcan
    have hdesc := h.desc (.inr (.inr (.inl hrun))) hne
    rw [heq]
    refine ⟨by constructor <;> simp_all [targetStop, startTimer, isStopped], ?_⟩
    simp [Settled, canStop]
  all_goals
    obtain ⟨hloading, hstarting, hdestroying, hstart, hstop, hdestroy, hdesc, hdestroyed⟩ := h
    rw [heq]
    refine ⟨by constructor <;> simp_all [startTimer, isStopped], ?_⟩
    simp [Settled, canStop]

/-! ### The parts of a section -/

variable (node : Node φ)

section

variable (desc : Shared (InternalServerDescriptor ρ φ))

theorem updateOrRollback_callbacks : (s.updateOrRollback desc).callbacks = s.callbacks := by
  unfold updateOrRollback
  split
  · split
    · rfl
    · unfold callbacks waiting destroyCallbacks
      cases hd : s.destroy <;> simp [updateImpl, startCallbacks, stopCallbacks, loadCallbacks, hd]
  · rfl

/-- Only the descriptor, what depends on it and the destroy command change. -/
theorem updateOrRollback_frame {α : Type} (f : ServerI ρ φ κ → α)
    (hf : ∀ (s : ServerI ρ φ κ) desc waitForReplication adapters activation failureTime destroy,
      f { s with desc, waitForReplication, adapters, activation, failureTime, destroy } = f s) :
    f (s.updateOrRollback desc) = f s := by
  unfold updateOrRollback
  split
  · split <;> exact hf s _ _ _ _ _ _
  · exact hf s _ _ _ _ _ _

theorem updateOrRollback_desc : (s.updateOrRollback desc).desc.isSome := by
  unfold updateOrRollback
  split
  · split <;> rfl
  · rfl

theorem updateOrRollback_slots (h : s.Slots) (hstate : s.state = .loading)
    : (s.updateOrRollback desc).endLoad.Slots := by
  have hload : (s.updateOrRollback desc).load = s.load :=
    updateOrRollback_frame desc (·.load) (by intros; rfl)
  have hstop : (s.updateOrRollback desc).stop = s.stop :=
    updateOrRollback_frame desc (·.stop) (by intros; rfl)
  have hstate' : (s.updateOrRollback desc).state = s.state :=
    updateOrRollback_frame desc (·.state) (by intros; rfl)
  have hdesc := s.updateOrRollback_desc desc
  have hnone := h.stop
  have hloading := h.loading hstate
  constructor <;> simp_all [endLoad, isStopped]

end

theorem disableOnFailure_slots (h : s.Slots) : (s.disableOnFailure node).Slots := by
  unfold disableOnFailure
  split_ifs with hdisable
  · refine { h with desc := fun hsome => h.desc ?_ }
    rcases hsome with hsome | hsome | hsome | hsome | -
    · exact .inl hsome
    · exact .inr (.inl hsome)
    · exact .inr (.inr (.inl hsome))
    · exact absurd rfl hsome
    · exact .inr (.inr (.inr (.inl hdisable.1)))
  · exact h

/-- Only the activation mode changes. -/
theorem disableOnFailure_frame {α : Type} (f : ServerI ρ φ κ → α)
    (hf : ∀ (s : ServerI ρ φ κ) activation previousActivation failureTime,
      f { s with activation, previousActivation, failureTime } = f s) :
    f (s.disableOnFailure node) = f s := by
  unfold disableOnFailure
  split_ifs
  · exact hf s _ _ _
  · rfl

@[simp] theorem disableOnFailure_state : (s.disableOnFailure node).state = s.state :=
  disableOnFailure_frame node (·.state) (by intros; rfl)

@[simp] theorem processFailed_state (failed : Bool) :
    (s.processFailed node failed).state = s.state := by
  unfold processFailed
  split_ifs
  · exact disableOnFailure_state node
  · rfl

theorem newStop_balanced (h : s.Balanced) (hstop : s.stop = none) (deactivate : Bool) :
    (s.newStop deactivate).Balanced := by
  refine Balanced.of_eq h ?_ ?_
  · rfl
  · unfold callbacks waiting stopCallbacks
    rw [hstop]
    rfl

theorem newStop_slots (h : s.Slots) (hstate : s.state.isStopped = false) (deactivate : Bool) :
    (s.newStop deactivate).Slots :=
  { h with stop := fun _ => hstate, destroy := fun _ _ => rfl }

theorem scheduleStop_stop (s : ServerI ρ φ κ) :
    s.state.isStopped = false → s.scheduleStop.stop.isSome := by
  intro hstate
  unfold scheduleStop runs
  cases hstop : s.stop with
  | none => simp [hstate, newStop]
  | some c => simp [hstop]

@[simp] theorem scheduleStop_state (s : ServerI ρ φ κ) : s.scheduleStop.state = s.state := by
  unfold scheduleStop
  split_ifs <;> rfl

/-- The load command is replaced by one that holds the same callbacks. -/
theorem Balanced.setLoad (h : s.Balanced) {l : LoadCommand ρ φ κ}
    (hl : l.callbacks = s.loadCallbacks) :
    ({ s with load := some l }).Balanced := by
  refine Balanced.of_eq h ?_ ?_
  · rfl
  · change (s.answered : Multiset κ) +
      (s.startCallbacks + (s.stopCallbacks + ((l.callbacks : Multiset κ) + s.destroyCallbacks))) = _
    rw [hl]
    rfl

theorem Slots.setLoad (h : s.Slots) (hstate : s.state ≠ .destroyed) (l : LoadCommand ρ φ κ) :
    ({ s with load := some l }).Slots :=
  ⟨fun _ => rfl, h.starting, h.destroying, h.start, h.stop, h.destroy, h.desc, fun hdestroyed =>
    absurd hdestroyed hstate⟩

section

variable (desc : InternalServerDescriptor ρ φ)

theorem newLoad_callbacks (s : ServerI ρ φ κ) : (s.newLoad desc).callbacks = s.loadCallbacks := by
  unfold newLoad loadCallbacks
  cases s.load <;> rfl

/-- Only the descriptors change. -/
theorem refreshRevision_frame {α : Type} (f : ServerI ρ φ κ → α)
    (hf : ∀ (s : ServerI ρ φ κ) uuid revision, f (s.updateRevision uuid revision) = f s) :
    f (s.refreshRevision desc) = f s := by
  unfold refreshRevision
  split_ifs
  · exact hf s _ _
  · rfl

/-- The request to load a descriptor that has not changed touches the descriptors and callbacks
    only. -/
theorem loadUnchanged_frame [DecidableEq ρ] [DecidableEq φ] {α : Type} (response : κ)
    (f : ServerI ρ φ κ → α) (hf : ∀ (s : ServerI ρ φ κ) desc load accepted answered,
      f { s with desc, load, accepted, answered } = f s) :
    f (s.loadUnchanged desc response) = f s := by
  have hrefresh : f (s.refreshRevision desc) = f s :=
    refreshRevision_frame desc f fun s uuid revision => hf s _ _ s.accepted s.answered
  unfold loadUnchanged
  dsimp only
  split_ifs
  · exact (hf _ _ _ _ _).trans hrefresh
  · exact (hf _ (s.refreshRevision desc).desc (s.refreshRevision desc).load _ _).trans hrefresh

/-- Apart from the load command and the callbacks, a load of a new descriptor may add a stop
    command. -/
theorem prepareLoad_frame {α : Type} (noRestart : Bool) (f : ServerI ρ φ κ → α)
    (hf : ∀ (s : ServerI ρ φ κ) desc load destroy created failed answered,
      f { s with desc, load, destroy, created, failed, answered } = f s) :
    f (s.prepareLoad desc noRestart) =
      f (if noRestart = false ∧ s.runs = true then
        { s with stop := some { id := s.created + 1 } } else s) := by
  have hrevise : ∀ t : ServerI ρ φ κ, f (t.dropDestroy.reviseActive desc) = f t := by
    intro t
    have hdrop : f t.dropDestroy = f t := by
      unfold dropDestroy
      split_ifs
      · rfl
      · exact hf t t.desc t.load none t.created t.failed _
    unfold reviseActive
    split_ifs
    · exact (hf _ _ _ t.dropDestroy.destroy t.dropDestroy.created t.dropDestroy.failed
        t.dropDestroy.answered).trans hdrop
    · exact hdrop
  unfold prepareLoad
  rw [hrevise]
  have hruns : (s.setNewLoad desc).runs = s.runs := rfl
  unfold scheduleStop
  rw [hruns]
  cases noRestart with
  | true => exact hf s s.desc _ s.destroy _ _ s.answered
  | false =>
    by_cases hr : s.runs = true
    · rw [if_neg (by decide), if_pos hr, if_pos ⟨rfl, hr⟩]
      exact hf { s with stop := some { id := s.created + 1 } } s.desc _ s.destroy _ _ s.answered
    · rw [if_neg (by decide), if_neg hr, if_neg fun h => hr h.2]
      exact hf s s.desc _ s.destroy _ _ s.answered

end

theorem answerLoad_frame [DecidableEq φ] {α : Type} (response : κ) (f : ServerI ρ φ κ → α)
    (hf : ∀ (s : ServerI ρ φ κ) load inFlight failed relocked accepted answered,
      f { s with load, inFlight, failed, relocked, accepted, answered } = f s) :
    f (s.answerLoad node response) = f s := by
  have hadd : f (s.addLoadCallback response) = f s :=
    hf s _ s.inFlight s.failed s.relocked _ s.answered
  have hrespond : f (s.respond (some response)) = f s :=
    hf s s.load s.inFlight s.failed s.relocked _ _
  unfold answerLoad
  split_ifs
  · exact hadd
  · exact hrespond
  · refine (startUpdate_frame node f fun t load inFlight failed relocked => ?_).trans hadd
    exact hf t load inFlight failed relocked t.accepted t.answered
  · exact hrespond
  · exact hadd

section

variable [DecidableEq φ] {α : Type} (f : ServerI ρ φ κ → α)

theorem updateRuntimePropertiesCallback_frame (desc : Shared (InternalServerDescriptor ρ φ))
    (succeeded : Bool) (hf : ∀ (s : ServerI ρ φ κ) desc load inFlight failed relocked answered,
      f { s with desc, load, inFlight, failed, relocked, answered } = f s) :
    f (s.updateRuntimePropertiesCallback node desc succeeded) = f s := by
  unfold updateRuntimePropertiesCallback
  split
  · dsimp only
    split_ifs
    · exact hf s s.desc _ _ _ _ s.answered
    · exact hf s _ _ s.inFlight _ s.relocked _
    · exact hf s s.desc _ s.inFlight _ s.relocked _
  · rfl

/-- The reply for a set of properties touches the load command, the descriptor and the requests
    only. -/
theorem propertiesReply_frame [DecidableEq ρ] (cb : ResetProperties ρ φ) (succeeded : Bool)
    (hf : ∀ (s : ServerI ρ φ κ) desc load inFlight failed relocked answered,
      f { s with desc, load, inFlight, failed, relocked, answered } = f s) :
    f (s.propertiesReply node cb succeeded) = f s := by
  have herase : f { s with inFlight := s.inFlight.erase cb } = f s :=
    hf s s.desc s.load _ s.failed s.relocked s.answered
  unfold propertiesReply
  split
  · exact hf s s.desc s.load _ s.failed s.relocked s.answered
  · exact (updateRuntimePropertiesCallback_frame node f _ _ hf).trans herase

end

end ServerI

end Ice.IceGrid
