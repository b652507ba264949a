import Ice.IceGrid.ServerLifecycle

/-!
# Which process is stopped

A stop command is for the process that runs when the state is set to deactivating, a start command
for the process that it starts. What is done for them is done by other threads, by timers and by
callbacks, and names the server and not the process: `deactivate` and `kill`
(`cpp/src/IceGrid/ServerI.cpp:1598-1675`) look at the state only, and `Activator::sendSignal`
(`cpp/src/IceGrid/Activator.cpp:1061-1146`) takes the process that it finds. So an action can
outlive its process and hit the next one. It does not if no process is started as long as such an
action is pending.
-/

namespace Ice.IceGrid

open Misc List Option

variable {ρ φ κ : Type}

/-- What has happened has happened to the process that it was for. -/
def ServerMark.Right : ServerMark → Prop
  | .signal target reached => target = some reached
  | .timedOut command current => command = current
  | .abandoned target current => target = some current

/-- The process that a call for a stop command is for. -/
def ServerCall.target : ServerCall → Option (Option Nat)
  | .deactivate target | .shutdown target _ | .kill target | .sendSignal target _
  | .signalFailed target => some target
  | _ => none

/-- A call that is for another process than the one that the start command starts. -/
def ServerCall.stale (start : Option Nat) (call : ServerCall) : Bool :=
  match call with
  | .activationTimedOut id => start ≠ some id
  | call => call.target.isSome

/-- No process runs but the one that a stop command is for. -/
def Spares (running target : Option Nat) : Prop := running = target ∨ running = none

/-- A call that can be made for the process that runs and for the start command. -/
def ServerCall.Fits (running start : Option Nat) (call : ServerCall) : Prop :=
  (∀ target, call.target = some target → Spares running target) ∧ call ≠ .activated ∧
    (∀ id, call = .activationTimedOut id → start = some id) ∧ ∀ target, call ≠ .signalFailed target

variable {call : ServerCall}

/-- A call for a stop command fits if the command is for the process that runs. -/
theorem ServerCall.Fits.of_spares {running start target : Option Nat}
    (htarget : call.target = some target) (hspares : Spares running target)
    (hcall : ∀ target, call ≠ .signalFailed target) : call.Fits running start := by
  refine ⟨fun target' htarget' => ?_, ?_, ?_, hcall⟩
  · rw [← some.inj (htarget.symm.trans htarget')]
    exact hspares
  · rintro rfl
    cases htarget
  · rintro id rfl
    cases htarget

theorem Spares.eq_some {running target : Option Nat} (h : Spares running target) {n : Nat}
    (hn : running = some n) :
    target = some n := by
  rcases h with heq | hnone
  · exact heq.symm.trans hn
  · rw [hn] at hnone
    cases hnone

/-- What is under way for the stop command and the start command is for the process that runs, if
    one does. -/
structure Aims (running : Option Nat) (state : InternalServerState) (timers : List CommandTimer)
    (shutdowns : List (Option Nat)) (awaited start stop : Option Nat) (startedBy : Nat)
    (history : List ServerMark) (pending : Multiset ServerCall) : Prop where
  calls : ∀ call ∈ pending, ∀ target, call.target = some target → Spares running target
  shutdowns : ∀ target ∈ shutdowns, Spares running target
  awaited : state = .deactivatingWaitForProcess → Spares running awaited
  activation : ∀ id, .activation id ∈ timers →
    (state = .activating ∨ state = .waitForActivation) ∧ start = some id
  deactivation : ∀ id target, .deactivation id target ∈ timers →
    (state = .deactivating ∨ state = .deactivatingWaitForProcess) ∧ stop = some id ∧
    Spares running target
  current : state = .waitForActivation ∨ state = .activating ∧ .activated ∈ pending →
    start = some startedBy ∧ ∀ id, .activationTimedOut id ∈ pending → id = startedBy
  signalled : ∀ target, .signalFailed target ∉ pending
  history : ∀ mark ∈ history, mark.Right

namespace ServerI

abbrev Aimed (s : ServerI ρ φ κ) (calls : Multiset ServerCall) : Prop :=
  Aims s.running s.state s.timers s.shutdowns s.awaited (s.start.map (·.id))
    (s.stop.map (·.id)) s.startedBy s.history calls

variable {s : ServerI ρ φ κ} {calls others : Multiset ServerCall}

theorem Aimed.of_calls (h : s.Aimed calls) {calls' : Multiset ServerCall}
    (hcalls : ∀ call ∈ calls', call ∈ calls ∨ call.Fits s.running (s.start.map (·.id))) :
    s.Aimed calls' := by
  refine { h with calls := ?_, current := ?_, signalled := ?_ }
  · intro call hmem target htarget
    rcases hcalls call hmem with hmem | hfits
    · exact h.calls call hmem target htarget
    · exact hfits.1 target htarget
  · intro hstate
    have hcurrent := h.current (hstate.imp id fun ⟨hstate, hmem⟩ =>
      ⟨hstate, (hcalls _ hmem).resolve_right fun hfits => hfits.2.1 rfl⟩)
    refine ⟨hcurrent.1, fun id hmem => ?_⟩
    rcases hcalls _ hmem with hmem | hfits
    · exact hcurrent.2 id hmem
    · exact some.inj ((hfits.2.2.1 id rfl).symm.trans hcurrent.1)
  · intro target hmem
    rcases hcalls _ hmem with hmem | hfits
    · exact h.signalled target hmem
    · exact hfits.2.2.2 target rfl

theorem Aimed.add {calls : List ServerCall} (h : s.Aimed others)
    (hcalls : ∀ call ∈ calls, call.Fits s.running (s.start.map (·.id))) :
    LeadsTo Aimed others (s, calls) := by
  refine h.of_calls fun call hmem => ?_
  rcases Multiset.mem_add.mp hmem with hmem | hmem
  · exact .inr (hcalls call (Multiset.mem_coe.mp hmem))
  · exact .inl hmem

theorem Aimed.add_one (h : s.Aimed others)
    (hcall : call.Fits s.running (s.start.map (·.id))) :
    LeadsTo Aimed others (s, [call]) := by
  refine h.add ?_
  intro call' hmem
  rw [mem_singleton.mp hmem]
  exact hcall

theorem Aimed.done (h : s.Aimed (call ::ₘ others)) : s.Aimed others :=
  h.of_calls fun _ hmem => .inl (Multiset.mem_cons_of_mem hmem)

/-- A start command is made when there is none. -/
theorem Aimed.setStart (h : s.Aimed calls) (hstart : s.start = none) (c : StartCommand κ) :
    ({ s with start := some c }).Aimed calls := by
  have hnone : ∀ id, ¬ s.start.map (·.id) = some id := by
    intro id heq
    rw [hstart] at heq
    cases heq
  refine { h with activation := ?_, current := ?_ }
  · intro id hmem
    exact absurd (h.activation id hmem).2 (hnone id)
  · intro hstate
    exact absurd (h.current hstate).1 (hnone _)

/-- A stop command is made when there is none. -/
theorem Aimed.setStop (h : s.Aimed calls) (hstop : s.stop = none) (c : StopCommand κ) :
    ({ s with stop := some c }).Aimed calls := by
  refine { h with deactivation := ?_ }
  intro id target hmem
  have heq := (h.deactivation id target hmem).2.1
  rw [hstop] at heq
  cases heq

/-- A stop command is added if the server runs and none is scheduled. -/
theorem Aimed.scheduleStop (h : s.Aimed calls) : s.scheduleStop.Aimed calls := by
  unfold ServerI.scheduleStop
  split_ifs with hruns
  · refine h.setStop ?_ _
    simp only [runs, Bool.and_eq_true, isNone_iff_eq_none] at hruns
    exact hruns.2
  · exact h

/-- No command with a timer is left. -/
theorem Aimed.untimed {s' : ServerI ρ φ κ} (h : s.Aimed calls)
    (htimers : ∀ timer, timer ∉ s'.timers)
    (hstate : s'.state ≠ .activating ∧ s'.state ≠ .waitForActivation ∧
      s'.state ≠ .deactivatingWaitForProcess)
    (hrunning : s'.running = s.running) (hshutdowns : s'.shutdowns = s.shutdowns)
    (hhistory : s'.history = s.history) : s'.Aimed calls := by
  refine ⟨hrunning ▸ h.calls, hrunning ▸ hshutdowns ▸ h.shutdowns, fun hd => absurd hd hstate.2.2,
    fun id hmem => absurd hmem (htimers _), fun id target hmem => absurd hmem (htimers _), ?_,
      h.signalled, hhistory ▸ h.history⟩
  rintro (hwait | ⟨hactivating, -⟩)
  · exact absurd hwait hstate.2.1
  · exact absurd hactivating hstate.1

variable {st : InternalServerState}

/-- The start command is done: its timer is cancelled. -/
theorem Aimed.endStart (h : s.Aimed calls)
    (hstate : s.state ≠ .deactivating ∧ s.state ≠ .deactivatingWaitForProcess)
    (hst : st ≠ .activating ∧ st ≠ .waitForActivation ∧ st ≠ .deactivatingWaitForProcess) :
    ({ s with state := st }).endStart.Aimed calls := by
  have htimers : ∀ timer, timer ∉ s.timers.filter fun t => s.start.all (·.id ≠ t.id) := by
    intro timer hmem
    obtain ⟨hmem, hid⟩ := mem_filter.mp hmem
    cases timer with
    | activation id =>
      obtain ⟨c, hc, rfl⟩ := map_eq_some_iff.mp (h.activation id hmem).2
      simp [hc, CommandTimer.id] at hid
    | deactivation id target =>
      rcases (h.deactivation id target hmem).1 with hd | hd
      · exact hstate.1 hd
      · exact hstate.2 hd
  exact h.untimed htimers hst rfl rfl rfl

/-- The stop command is done: its timer is cancelled. -/
theorem Aimed.endStop (h : s.Aimed calls)
    (hstate : s.state ≠ .activating ∧ s.state ≠ .waitForActivation) :
    ({ s with state := .inactive }).endStop.Aimed calls := by
  have htimers : ∀ timer, timer ∉ s.timers.filter fun t => s.stop.all (·.id ≠ t.id) := by
    intro timer hmem
    obtain ⟨hmem, hid⟩ := mem_filter.mp hmem
    cases timer with
    | activation id =>
      rcases (h.activation id hmem).1 with hd | hd
      · exact hstate.1 hd
      · exact hstate.2 hd
    | deactivation id target =>
      obtain ⟨c, hc, rfl⟩ := map_eq_some_iff.mp (h.deactivation id target hmem).2.1
      simp [hc, CommandTimer.id] at hid
  exact h.untimed htimers ⟨nofun, nofun, nofun⟩ rfl rfl rfl

/-- No timer runs in a state that no command with a timer stands for. -/
theorem Aimed.timers_eq_nil (h : s.Aimed calls) (hstate : s.state.isStopped = true) :
    s.timers = [] := by
  refine eq_nil_iff_forall_not_mem.mpr fun timer hmem => ?_
  cases timer with
  | activation id =>
    rcases (h.activation id hmem).1 with hd | hd <;> rw [hd] at hstate <;> cases hstate
  | deactivation id target =>
    rcases (h.deactivation id target hmem).1 with hd | hd <;> rw [hd] at hstate <;> cases hstate

theorem Lifecycle.activated_not_mem (h : s.Lifecycle calls) (hstate : s.state ≠ .activating) :
    .activated ∉ calls := by
  intro hmem
  obtain ⟨rest, rfl⟩ := Multiset.exists_cons_of_mem hmem
  exact hstate (h.goesOn rfl).1

theorem Lifecycle.not_mem_of_inactive (h : s.Lifecycle calls) (hstate : s.state = .inactive) :
    .activated ∉ calls := by
  refine h.activated_not_mem ?_
  rw [hstate]
  nofun

theorem not_mem_of_stages_eq_zero (h : s.stages calls = 0) : .activated ∉ calls := by
  intro hmem
  obtain ⟨rest, rfl⟩ := Multiset.exists_cons_of_mem hmem
  rw [stages_cons_of_eq_some rfl] at h
  exact Multiset.cons_ne_zero h

section

variable [DecidableEq φ] (node : Node φ)

section

variable (h : s.Aimed calls)
include h

theorem Aimed.setRunning (hstate : s.state.canStop = true ∨ s.state = .activating)
    (hst : st = .active ∨ st = .activationTimeout ∨ st = .deactivating) :
    (s.setStateNoSync node st).Aimed calls := by
  have hne : s.state ≠ .deactivating ∧ s.state ≠ .deactivatingWaitForProcess := by
    constructor <;> intro hd <;> rw [hd] at hstate <;> rcases hstate with hstate | hstate <;>
      cases hstate
  rcases hst with rfl | rfl | rfl
  · rw [setStateNoSync_active_frame node (fun s => s.Aimed calls) (by intros; rfl)]
    exact h.endStart hne ⟨nofun, nofun, nofun⟩
  all_goals exact h.endStart hne ⟨nofun, nofun, nofun⟩

theorem Aimed.setInactive
    (hstate : s.state = .loading ∨ s.state = .deactivating ∨
      s.state = .deactivatingWaitForProcess) :
    (s.setStateNoSync node .inactive).Aimed calls := by
  apply h.endStop
  constructor <;> intro hd <;> rw [hd] at hstate <;> rcases hstate with hstate | hstate | hstate <;>
    cases hstate

/-- The stop command is executed: the timer of the start command is cancelled, and its own is
    started. -/
theorem Aimed.startStop (hcan : s.state.canStop = true) {c : StopCommand κ} :
    (((s.targetStop c).startTimer (.deactivation c.id s.running)).setStateNoSync node
      .deactivating).Aimed calls := by
  have hrunning := h.setRunning node (.inl hcan) (.inr (.inr rfl))
  have htimers :
      ∀ timer ∈ (((s.targetStop c).startTimer (.deactivation c.id s.running)).setStateNoSync node
      .deactivating).timers, timer ∈ (s.setStateNoSync node .deactivating).timers ∨
        timer = .deactivation c.id s.running := by
    intro timer hmem
    have hmem : timer ∈ (s.timers ++ [CommandTimer.deactivation c.id s.running]).filter _ := hmem
    rw [filter_append, mem_append] at hmem
    exact hmem.imp id fun hmem => mem_singleton.mp (mem_of_mem_filter hmem)
  refine ⟨h.calls, h.shutdowns, nofun, ?_, ?_, hrunning.current, h.signalled, h.history⟩
  · intro id hmem
    rcases htimers _ hmem with hmem | heq
    · exact hrunning.activation id hmem
    · cases heq
  · intro id target hmem
    rcases htimers _ hmem with hmem | heq
    · obtain ⟨hstate, -⟩ := h.deactivation id target (mem_of_mem_filter hmem)
      rcases hstate with hstate | hstate <;> rw [hstate] at hcan <;> cases hcan
    · cases heq
      exact ⟨.inl rfl, rfl, .inl rfl⟩

/-- The state is set for a command that has no timer. -/
theorem Aimed.setStopped (hstate : s.state.isStopped = true)
    (hst : st = .destroying ∨ st = .loading ∨ st = .destroyed) :
    (s.setStateNoSync node st).Aimed calls := by
  have hnil : ∀ timer, timer ∉ s.timers := by
    rw [h.timers_eq_nil hstate]
    nofun
  rcases hst with rfl | rfl | rfl
  · refine h.untimed (fun timer hmem => ?_) ⟨nofun, nofun, nofun⟩ rfl rfl rfl
    exact hnil timer (mem_of_mem_filter (mem_of_mem_filter hmem))
  all_goals exact h.untimed hnil ⟨nofun, nofun, nofun⟩ rfl rfl rfl

/-- The start command is executed: its timer is started. -/
theorem Aimed.startStart (hstate : s.state = .inactive) (hactivated : .activated ∉ calls)
    {c : StartCommand κ} (hc : s.start = some c) :
    ((s.startTimer (.activation c.id)).setStateNoSync node .activating).Aimed calls := by
  have htimers : ((s.startTimer (.activation c.id)).setStateNoSync node .activating).timers =
      [.activation c.id] := by
    change s.timers ++ [_] = _
    rw [h.timers_eq_nil (hstate ▸ rfl)]
    rfl
  refine ⟨h.calls, h.shutdowns, nofun, ?_, ?_, ?_, h.signalled, h.history⟩
  · intro id hmem
    rw [htimers] at hmem
    cases mem_singleton.mp hmem
    refine ⟨.inl rfl, ?_⟩
    change s.start.map _ = _
    rw [hc]
    rfl
  · intro id target hmem
    rw [htimers] at hmem
    cases mem_singleton.mp hmem
  · rintro (hwait | ⟨-, hmem⟩)
    · cases hwait
    · exact absurd hmem hactivated

end

/-- `nextCommand` starts a timer and an action for the process that runs. -/
theorem Aimed.nextCommand (h : s.Aimed others)
    (hactivated : s.state = .inactive → .activated ∉ others) :
    LeadsTo Aimed others (s.nextCommand node) := by
  rcases s.nextCommand_cases node with ⟨heq, -⟩ | ⟨c, hcan, hc, heq⟩ | ⟨hstate, hd, heq⟩ |
    ⟨hstate, hd, hl, heq⟩ |
    ⟨c, hstate, hd, hl, hc, heq⟩
  all_goals rw [heq]
  · exact leadsTo_nil.mpr h
  · refine (h.startStop node hcan).add ?_
    intro call hmem
    split_ifs at hmem
    · rw [mem_singleton.mp hmem]
      exact .of_spares rfl (.inl rfl) nofun
    · cases hmem
  · exact (h.setStopped node (hstate ▸ rfl) (.inl rfl)).add_one ⟨nofun, nofun, nofun, nofun⟩
  · exact (h.setStopped node (hstate ▸ rfl) (.inr (.inl rfl))).add_one ⟨nofun, nofun, nofun, nofun⟩
  · exact (h.startStart node hstate (hactivated hstate) hc).add_one ⟨nofun, nofun, nofun, nofun⟩

/-! ### Every section -/

theorem state_of_checkActivation (h : (s.checkActivation node).state = .inactive) :
    s.state = .inactive := by
  unfold ServerI.checkActivation at h
  split_ifs at h
  · rw [setStateNoSync_state] at h
    cases h
  · exact h

theorem Aimed.checkActivation (h : s.Aimed calls) : (s.checkActivation node).Aimed calls := by
  unfold ServerI.checkActivation
  split_ifs with hactive
  · refine h.setRunning node (.inl ?_) (.inl rfl)
    rcases hactive.1 with hstate | hstate <;> rw [hstate] <;> rfl
  · exact h

theorem update_aimed (hl : s.Lifecycle (.update ::ₘ others)) (h : s.Aimed (.update ::ₘ others)) :
    LeadsTo Aimed others (s.update node) := by
  obtain ⟨hstate, hothers⟩ := hl.goesOn rfl
  obtain ⟨l, hload⟩ := isSome_iff_exists.mp (hl.slots.loading hstate)
  have heq : s.update node =
      nextCommand node ((s.updateOrRollback l.desc).endLoad.setStateNoSync node .inactive) := by
    unfold update
    rw [hstate, hload]
  rw [heq]
  have hframe : (s.updateOrRollback l.desc).endLoad.Aimed others := by
    change (s.updateOrRollback l.desc).Aimed others
    rw [updateOrRollback_frame l.desc (fun s => s.Aimed others) (by intros; rfl)]
    exact h.done
  apply Aimed.nextCommand
  · refine hframe.setInactive node (.inl ?_)
    rw [← hstate]
    exact updateOrRollback_frame l.desc (·.state) (by intros; rfl)
  · intro _
    exact not_mem_of_stages_eq_zero hothers

/-- The server becomes inactive when the process has ended or was not started. -/
theorem setInactive_aimed (hcall : call.stage = some .ending) (hl : s.Lifecycle (call ::ₘ others))
    (h : s.Aimed (call ::ₘ others)) : LeadsTo Aimed others (s.setState node .inactive) := by
  obtain ⟨hstate, hothers⟩ := hl.goesOn hcall
  apply (h.done.setInactive node (.inr hstate)).nextCommand
  intro _
  exact not_mem_of_stages_eq_zero hothers

theorem setTerminated_aimed (hl : s.Lifecycle (.setTerminated ::ₘ others))
    (h : s.Aimed (.setTerminated ::ₘ others)) :
    LeadsTo Aimed others (s.setTerminated node) := by
  unfold setTerminated
  split_ifs
  · exact h.done.add_one ⟨nofun, nofun, nofun, nofun⟩
  · exact setInactive_aimed node rfl hl h

theorem destroyed_aimed (hl : s.Lifecycle (.destroyed ::ₘ others))
    (h : s.Aimed (.destroyed ::ₘ others)) :
    LeadsTo Aimed others (s.setState node .destroyed) := by
  obtain ⟨hstate, -⟩ := hl.goesOn rfl
  apply (h.done.setStopped node (hstate ▸ rfl) (.inr (.inr rfl))).nextCommand
  nofun

end

/-- Signals can be sent, and no process is started as long as something is under way for an earlier
    one. -/
def Orderly (call : ServerCall) (s : ServerI ρ φ κ) (calls : Multiset ServerCall) : Prop :=
  s.Delivers call ∧ (call = .startProcess → s.environment.fails = false →
    s.shutdowns = [] ∧ ∀ call ∈ calls, call.stale (s.start.map (·.id)) = false)

instance Orderly.decidable (call : ServerCall) (s : ServerI ρ φ κ) (calls : Multiset ServerCall) :
    Decidable (Orderly call s calls) :=
  inferInstanceAs (Decidable (_ ∧ _))

theorem activate_aimed (h : s.Aimed (.activate ::ₘ others)) : LeadsTo Aimed others s.activate := by
  have hdone : ∀ failed waitForReplication process replications,
      ({ s with failed, waitForReplication, process, replications }).Aimed others :=
      fun _ _ _ _ => h.done
  unfold activate
  dsimp only
  split_ifs
  · exact (hdone _ s.waitForReplication s.process s.replications).add_one
      ⟨nofun, nofun, nofun, nofun⟩
  · rw [leadsTo_nil]
    exact hdone _ false none (s.replications + 1)
  · exact (hdone _ false none s.replications).add_one ⟨nofun, nofun, nofun, nofun⟩

theorem startProcess_aimed (hl : s.Lifecycle (.startProcess ::ₘ others))
    (h : s.Aimed (.startProcess ::ₘ others))
    (horderly : Orderly .startProcess s (.startProcess ::ₘ others)) :
    LeadsTo Aimed others s.startProcess := by
  obtain ⟨hstate, -⟩ := hl.goesOn rfl
  unfold startProcess
  split_ifs with hfails
  · exact h.done.add_one ⟨nofun, nofun, nofun, nofun⟩
  obtain ⟨hshutdowns, hstale⟩ := horderly.2 rfl (by simpa using hfails)
  obtain ⟨c, hc⟩ := isSome_iff_exists.mp (hl.slots.starting (.inl hstate))
  have hcalls : ∀ call ∈ ↑[ServerCall.activated] + others,
      call = .activated ∨ call.stale (s.start.map (·.id)) = false := by
    intro call hmem
    rcases Multiset.mem_add.mp hmem with hmem | hmem
    · exact .inl (mem_singleton.mp (Multiset.mem_coe.mp hmem))
    · exact .inr (hstale call (Multiset.mem_cons_of_mem hmem))
  refine ⟨?_, ?_, ?_, h.activation, ?_, ?_, ?_, h.history⟩
  · intro call hmem target htarget
    rcases hcalls call hmem with rfl | hfresh
    · cases htarget
    · cases call <;> simp [ServerCall.stale, ServerCall.target] at hfresh htarget
  · rw [hshutdowns]
    nofun
  · rw [hstate]
    nofun
  · intro id target hmem
    rcases (h.deactivation id target hmem).1 with hd | hd <;> rw [hstate] at hd <;> cases hd
  · intro _
    rw [hc]
    refine ⟨rfl, fun id hmem => ?_⟩
    rcases hcalls _ hmem with heq | hfresh
    · cases heq
    · rw [hc] at hfresh
      simp only [ServerCall.stale, ne_eq, decide_eq_false_iff_not, not_not] at hfresh
      exact (some.inj hfresh).symm
  · intro target hmem
    rcases hcalls _ hmem with heq | hfresh
    · cases heq
    · cases hfresh

theorem disableOnFailure_aimed (node : Node φ) (h : s.Aimed calls) :
    (s.disableOnFailure node).Aimed calls := by
  rw [disableOnFailure_frame node (fun s => s.Aimed calls) (by intros; rfl)]
  exact h

theorem shutdown_aimed {target process : Option Nat}
    (h : s.Aimed (.shutdown target process ::ₘ others)) :
    LeadsTo Aimed others (s.shutdown target process) := by
  have hspares := h.calls _ (Multiset.mem_cons_self _ _) target rfl
  cases process with
  | none =>
    exact h.done.add_one (.of_spares rfl hspares nofun)
  | some n =>
    refine leadsTo_nil.mpr { h.done with shutdowns := ?_, history := ?_ }
    · exact forall_mem_append.mpr ⟨h.shutdowns, forall_mem_singleton.mpr hspares⟩
    · split_ifs with hrunning
      · exact forall_mem_append.mpr ⟨h.history, forall_mem_singleton.mpr (hspares.eq_some hrunning)⟩
      · exact h.history

theorem kill_aimed {target : Option Nat} (h : s.Aimed (.kill target ::ₘ others)) :
    LeadsTo Aimed others (s.kill target) := by
  unfold kill
  split_ifs
  · exact leadsTo_nil.mpr h.done
  · exact h.done.add_one (.of_spares rfl (h.calls _ (Multiset.mem_cons_self _ _) target rfl) nofun)

theorem sendSignal_aimed {target : Option Nat} {signaller : Signaller}
    (h : s.Aimed (.sendSignal target signaller ::ₘ others))
    (hdelivers : s.environment.signalFails = false) :
    LeadsTo Aimed others (s.sendSignal target signaller) := by
  have hspares := h.calls _ (Multiset.mem_cons_self _ _) target rfl
  unfold sendSignal
  split
  · exact leadsTo_nil.mpr h.done
  · rename_i n hn
    rw [if_neg (by simp [hdelivers]), leadsTo_nil]
    refine { h.done with history := ?_ }
    exact forall_mem_append.mpr ⟨h.history, forall_mem_singleton.mpr (hspares.eq_some hn)⟩

theorem processFailed_aimed (node : Node φ) (h : s.Aimed calls) (failed : Bool) :
    (s.processFailed node failed).Aimed calls := by
  unfold processFailed
  split_ifs
  · exact disableOnFailure_aimed (s := { s with activatedAdapters := [] }) node h
  · exact h

section

variable [DecidableEq φ] (node : Node φ)

theorem activated_aimed (hl : s.Lifecycle (.activated ::ₘ others))
    (h : s.Aimed (.activated ::ₘ others)) :
    LeadsTo Aimed others (s.activated node) := by
  obtain ⟨hstate, -⟩ := hl.goesOn rfl
  have hcurrent := h.current (.inr ⟨hstate, Multiset.mem_cons_self _ _⟩)
  have hwait : ((s.assert (s.state = .activating)).setStateNoSync node .waitForActivation).Aimed
      others := by
    refine ⟨h.done.calls, h.shutdowns, nofun, ?_, ?_, ?_, h.done.signalled, h.history⟩
    · intro id hmem
      exact ⟨.inr rfl, (h.activation id hmem).2⟩
    · intro id target hmem
      rcases (h.deactivation id target hmem).1 with hd | hd <;> rw [hstate] at hd <;> cases hd
    · intro _
      exact ⟨hcurrent.1, fun id hmem => hcurrent.2 id (Multiset.mem_cons_of_mem hmem)⟩
  apply (hwait.checkActivation node).nextCommand
  intro hinactive
  cases state_of_checkActivation node hinactive

theorem activationFailed_aimed (hl : s.Lifecycle (.activationFailed ::ₘ others))
    (h : s.Aimed (.activationFailed ::ₘ others)) :
    LeadsTo Aimed others (s.activationFailed node) := by
  obtain ⟨hstate, -⟩ := hl.goesOn rfl
  have hrunning := (disableOnFailure_aimed node h.done).setRunning node
    (.inr ((disableOnFailure_state node).trans hstate)) (.inr (.inr rfl))
  exact hrunning.add_one ⟨nofun, nofun, nofun, nofun⟩

theorem deactivate_aimed {target : Option Nat} (h : s.Aimed (.deactivate target ::ₘ others)) :
    LeadsTo Aimed others (s.deactivate node target) := by
  have hspares := h.calls _ (Multiset.mem_cons_self _ _) target rfl
  unfold deactivate
  dsimp only
  split_ifs with hstate hprocess
  · exact leadsTo_nil.mpr h.done
  · rw [not_and_or, not_not, not_not] at hstate
    rw [leadsTo_nil]
    refine ⟨h.done.calls, h.shutdowns, fun _ => hspares, ?_, ?_, ?_, h.done.signalled, h.history⟩
    · intro id hmem
      rcases (h.activation id hmem).1 with hd | hd <;> rw [hd] at hstate <;>
        rcases hstate with hstate | hstate <;> cases hstate
    · intro id target hmem
      exact ⟨.inr rfl, (h.deactivation id target hmem).2⟩
    · rintro (hd | ⟨hd, -⟩) <;> cases hd
  · exact Aimed.add_one (s := s.assert s.desc.isSome) h.done (.of_spares rfl hspares nofun)

theorem activationTimedOut_aimed {command : Nat}
    (h : s.Aimed (.activationTimedOut command ::ₘ others)) :
    LeadsTo Aimed others (s.activationTimedOut node command) := by
  unfold activationTimedOut
  split_ifs with hstate
  · exact leadsTo_nil.mpr h.done
  rw [not_not] at hstate
  have hcommand := (h.current (.inl hstate)).2 command (Multiset.mem_cons_self _ _)
  have hmark :
      ({ s with history := s.history ++ [ServerMark.timedOut command s.startedBy] }).Aimed
        others := by
    refine { h.done with history := ?_ }
    exact forall_mem_append.mpr ⟨h.history, forall_mem_singleton.mpr hcommand⟩
  have hcan : s.state.canStop = true := hstate ▸ rfl
  apply (hmark.setRunning node (.inl hcan) (.inr (.inl rfl))).nextCommand
  nofun

theorem terminated_aimed {failed : Bool} (hl : s.Lifecycle (.terminated failed ::ₘ others))
    (h : s.Aimed (.terminated failed ::ₘ others)) :
    LeadsTo Aimed others (s.terminated node failed) := by
  have hshape := hl.shape
  rw [stages_cons_of_eq_some rfl] at hshape
  have hfits : ∀ running start, ∀ call ∈ s.terminatedCalls, call.Fits running start := by
    intro running start call hmem
    rcases mem_append.mp hmem with hmem | hmem
    · obtain ⟨a, -, rfl⟩ := mem_map.mp hmem
      exact ⟨nofun, nofun, nofun, nofun⟩
    · rw [mem_singleton.mp hmem]
      exact ⟨nofun, nofun, nofun, nofun⟩
  have hfailed := processFailed_aimed node h.done failed
  unfold terminated
  by_cases hactivating : s.state = .activating
  · rw [if_pos hactivating]
    exact h.done.add_one ⟨nofun, nofun, nofun, nofun⟩
  rw [if_neg hactivating]
  by_cases hdeactivating : s.state = .deactivating ∨ s.state = .deactivatingWaitForProcess ∨
    s.state = .destroying
  · rw [if_pos hdeactivating]
    exact hfailed.add (hfits _ _)
  · rw [if_neg hdeactivating]
    have hcan : s.state.canStop = true := by
      rcases hshape.of_cons with ⟨hstate, -⟩ | ⟨hstate | hstate | hstate, -⟩
      · exact absurd hstate hactivating
      · exact hstate
      · exact absurd (.inl hstate) hdeactivating
      · exact absurd (.inr (.inl hstate)) hdeactivating
    refine (hfailed.setRunning node (.inl ?_) (.inr (.inr rfl))).add (hfits _ _)
    rw [processFailed_state]
    exact hcan

theorem adapterDeactivated_aimed {id : String}
    (hl : s.Lifecycle (.adapterDeactivated id ::ₘ others))
    (h : s.Aimed (.adapterDeactivated id ::ₘ others)) :
    LeadsTo Aimed others (s.adapterDeactivated node id) := by
  have hactivated := (hl.done rfl).activated_not_mem
  unfold adapterDeactivated
  split_ifs with hactivating hactive
  · exact h.done.add_one ⟨nofun, nofun, nofun, nofun⟩
  · have hcan : s.state.canStop = true := by
      rcases hactive.1 with hstate | hstate <;> rw [hstate] <;> rfl
    have hstop : (s.newStop false).Aimed others := h.done.setStop (hl.settled.1 hcan) _
    exact hstop.nextCommand node fun _ => hactivated hactivating
  · exact h.done.nextCommand node fun _ => hactivated hactivating

theorem exec_aimed (hl : s.Lifecycle (call ::ₘ others)) (h : s.Aimed (call ::ₘ others))
    (horderly : Orderly call s (call ::ₘ others)) : LeadsTo Aimed others (exec node call s) := by
  cases call with
  | update => exact update_aimed node hl h
  | destroy => exact Aimed.add_one (s := s.assert _) h.done ⟨nofun, nofun, nofun, nofun⟩
  | destroyed => exact destroyed_aimed node hl h
  | activate => exact activate_aimed h
  | startProcess => exact startProcess_aimed hl h horderly
  | activated => exact activated_aimed node hl h
  | activationFailed => exact activationFailed_aimed node hl h
  | setInactive => exact setInactive_aimed node rfl hl h
  | deactivate target => exact deactivate_aimed node h
  | shutdown target process => exact shutdown_aimed h
  | kill target => exact kill_aimed h
  | sendSignal target signaller => exact sendSignal_aimed h horderly.1
  | signalFailed target => exact absurd (Multiset.mem_cons_self _ _) (h.signalled target)
  | activationTimedOut command => exact activationTimedOut_aimed node h
  | terminated failed => exact terminated_aimed node hl h
  | adapterDeactivated id => exact adapterDeactivated_aimed node hl h
  | setTerminated => exact setTerminated_aimed node hl h

/-! ### Every event -/

section

variable (hl : s.Lifecycle others) (h : s.Aimed others)
include hl h

theorem startServer_aimed (activation : ServerActivation)
    (response : Option κ) : LeadsTo Aimed others (s.startServer node activation response) := by
  unfold startServer
  by_cases hstate : s.state = .destroyed
  · rw [if_pos hstate]
    exact h.add nofun
  obtain ⟨t, ht, heq⟩ : ∃ t : ServerI ρ φ κ, t.Aimed others ∧ s.reenable node activation = t ∧
    t.state = s.state := by
    refine ⟨_, ?_, rfl, ?_⟩ <;> unfold reenable <;> split_ifs <;> first | exact h | rfl
  rw [heq.1]
  unfold startEnabled
  split_ifs
  any_goals exact ht.add nofun
  apply Aimed.nextCommand
  · cases hc : t.start with
    | none => exact ht.setStart hc _
    | some c =>
      change Aims _ _ _ _ _ (some c.id) _ _ _ _
      have hstart : t.start.map (·.id) = some c.id := by rw [hc]; rfl
      rw [← hstart]
      exact ht
  · intro hinactive
    exact hl.not_mem_of_inactive (heq.2.symm.trans hinactive)

theorem stopServer_aimed (response : Option κ) :
    LeadsTo Aimed others (s.stopServer node response) := by
  unfold stopServer
  split_ifs with hstate
  · exact h.add nofun
  apply Aimed.nextCommand
  · cases hc : s.stop with
    | none => exact h.setStop hc _
    | some c =>
      change Aims _ _ _ _ _ _ (some c.id) _ _ _
      have hstop : s.stop.map (·.id) = some c.id := by rw [hc]; rfl
      rw [← hstop]
      exact h
  · exact hl.not_mem_of_inactive

theorem destroyServer_aimed (uuid : String) (revision : Int)
    (replicaName : String) (noRestart : Bool) (response : Option κ) :
    LeadsTo Aimed others (s.destroyServer node uuid revision replicaName noRestart response) := by
  unfold destroyServer
  split_ifs
  · exact h.add nofun
  · exact Aimed.add (s := s.respond response) h nofun
  · exact h.add nofun
  · apply Aimed.nextCommand (s := s.scheduleStop.addDestroy _ response) node h.scheduleStop
    intro hinactive
    exact hl.not_mem_of_inactive (s.scheduleStop_state.symm.trans hinactive)

theorem setProcess_aimed (process : Nat) : LeadsTo Aimed others (s.setProcess node process) := by
  unfold setProcess
  split_ifs with hdestroyed hwait
  · exact h.add nofun
  · exact Aimed.add_one (s := { s with process := some process }) h
      (.of_spares rfl (h.awaited hwait) nofun)
  · have hprocess : ({ s with process := some process }).Aimed others := h
    apply (hprocess.checkActivation node).nextCommand
    intro hinactive
    have hstate := state_of_checkActivation node hinactive
    exact hl.not_mem_of_inactive hstate

theorem adapterActivated_aimed (id : String) :
    LeadsTo Aimed others (s.adapterActivated node id) := by
  unfold adapterActivated
  split_ifs
  · exact h.add nofun
  · have hadapter : ({ s with activatedAdapters := s.activatedAdapters.insert id }).Aimed others :=
      h
    apply (hadapter.checkActivation node).nextCommand
    intro hinactive
    have hstate := state_of_checkActivation node hinactive
    exact hl.not_mem_of_inactive hstate

end

section

variable [DecidableEq ρ]

theorem loadServer_aimed (hl : s.Lifecycle others) (h : s.Aimed others)
    (desc : InternalServerDescriptor ρ φ) (replicaName : String) (noRestart : Bool) (response : κ) :
    LeadsTo Aimed others (s.loadServer node desc replicaName noRestart response) := by
  unfold loadServer
  split_ifs
  · exact h.add (by simp)
  · rw [leadsTo_nil]
    rw [loadUnchanged_frame desc response (fun s => s.Aimed others) (by intros; rfl)]
    exact h
  · have hstate : ((s.prepareLoad desc noRestart).answerLoad node response).state = s.state := by
      rw [answerLoad_frame node response (·.state) (by intros; rfl),
        prepareLoad_frame desc noRestart (·.state) (by intros; rfl)]
      split_ifs <;> rfl
    apply Aimed.nextCommand
    · rw [answerLoad_frame node response (fun s => s.Aimed others) (by intros; rfl),
        prepareLoad_frame desc noRestart (fun s => s.Aimed others) (by intros; rfl)]
      split_ifs with hruns
      · refine h.setStop ?_ _
        simp only [runs, Bool.and_eq_true, isNone_iff_eq_none] at hruns
        exact hruns.2.2
      · exact h
    · intro hinactive
      exact hl.not_mem_of_inactive (hstate.symm.trans hinactive)

theorem spawn_aimed {e : ServerEvent ρ φ κ} {r : ServerI ρ φ κ × List ServerCall}
    (hl : s.Lifecycle others)
    (h : s.Aimed others) (hspawn : spawn node e s = some r) : LeadsTo Aimed others r := by
  cases e with
  | environment environment =>
    cases hspawn
    exact Aimed.add (s := { s with environment }) h nofun
  | load desc replicaName noRestart response =>
    cases hspawn
    exact loadServer_aimed node hl h desc replicaName noRestart response
  | start activation response =>
    cases hspawn
    exact startServer_aimed node hl h activation response
  | stop response =>
    cases hspawn
    exact stopServer_aimed node hl h response
  | destroy uuid revision replicaName noRestart response =>
    cases hspawn
    exact destroyServer_aimed node hl h uuid revision replicaName noRestart response
  | setProcess process =>
    cases hspawn
    exact setProcess_aimed node hl h process
  | setEnabled enabled =>
    cases hspawn
    rw [leadsTo_nil]
    unfold setEnabled
    dsimp only
    split_ifs <;> exact { h with }
  | adapterActivated id =>
    cases hspawn
    exact adapterActivated_aimed node hl h id
  | adapterDeactivated id =>
    cases hspawn
    exact h.add_one ⟨nofun, nofun, nofun, nofun⟩
  | timer timer =>
    obtain ⟨hmem, ⟨⟩⟩ := ite_none_right_eq_some.mp hspawn
    have herase : ({ s with timers := s.timers.erase timer }).Aimed others :=
      { h with
        activation := fun id hmem => h.activation id (mem_of_mem_erase hmem)
        deactivation := fun id target hmem => h.deactivation id target (mem_of_mem_erase hmem) }
    refine herase.add_one ?_
    cases timer with
    | activation id =>
      refine ⟨nofun, nofun, fun id' heq => ?_, nofun⟩
      cases heq
      exact (h.activation id hmem).2
    | deactivation id target => exact .of_spares rfl (h.deactivation id target hmem).2.2 nofun
  | terminated failed =>
    obtain ⟨-, ⟨⟩⟩ := ite_none_right_eq_some.mp hspawn
    have hended : ({ s with running := none }).Aimed others :=
      ⟨fun _ _ _ _ => .inr rfl, fun _ _ => .inr rfl, fun _ => .inr rfl, h.activation,
        fun id target hmem => ⟨(h.deactivation id target hmem).1,
          (h.deactivation id target hmem).2.1, .inr rfl⟩, h.current, h.signalled, h.history⟩
    exact hended.add_one ⟨nofun, nofun, nofun, nofun⟩
  | applicationUpdated =>
    obtain ⟨-, ⟨⟩⟩ := ite_none_right_eq_some.mp hspawn
    exact Aimed.add_one (s := { s with replications := s.replications - 1 }) h
      ⟨nofun, nofun, nofun, nofun⟩
  | properties cb succeeded =>
    obtain ⟨-, ⟨⟩⟩ := ite_none_right_eq_some.mp hspawn
    rw [leadsTo_nil]
    rw [propertiesReply_frame node (fun s => s.Aimed others) cb succeeded (by intros; rfl)]
    exact h
  | shutdown target succeeded =>
    obtain ⟨hmem, ⟨⟩⟩ := ite_none_right_eq_some.mp hspawn
    have herase : ({ s with shutdowns := s.shutdowns.erase target }).Aimed others :=
      { h with shutdowns := fun target hmem => h.shutdowns target (mem_of_mem_erase hmem) }
    refine herase.add fun call hcall => ?_
    split_ifs at hcall
    · cases hcall
    · rw [mem_singleton.mp hcall]
      exact .of_spares rfl (h.shutdowns target hmem) nofun

/-- In every run in which no process is started as long as something is under way for an earlier
    one, and in which signals can be sent, a process is only stopped by a command that is for it,
    and a timer changes the state only for the process that it was started for. -/
theorem reaches_own_process {choices : List (Choice (ServerEvent ρ φ κ))}
    {c : Threads (ServerI ρ φ κ) ServerCall}
    (h : Threads.run (exec node) (spawn node) choices initial = some c)
    (hsteps : Threads.AllSteps (exec node) (spawn node)
      (fun _ _ _ => True) Orderly choices initial) :
    ∀ mark ∈ c.state.history, mark.Right := by
  have hinvariant : c.state.Lifecycle c.calls ∧ c.state.Aimed c.calls := by
    refine Threads.run_invariant_of (P := fun s calls => s.Lifecycle calls ∧ s.Aimed calls) ?_
      ?_ h hsteps ?_
    · intro s call others hs horderly
      exact ⟨exec_lifecycle node hs.1 horderly.1, exec_aimed node hs.1 hs.2 horderly⟩
    · intro s e s' calls others hs _ hspawn
      exact ⟨spawn_lifecycle node hs.1 hspawn, spawn_aimed node hs.1 hs.2 hspawn⟩
    · refine ⟨initial_lifecycle, ?_⟩
      exact ⟨nofun, nofun, nofun, nofun, nofun, nofun, nofun, nofun⟩
  exact hinvariant.2.history

end

end

/-- A server that is started by hand. -/
def manual (processRegistered : Bool) : InternalServerDescriptor Unit Unit :=
  ⟨"", 1, "", "manual", processRegistered, [], [], ()⟩

/-- The server is loaded and started. -/
def startUp (processRegistered : Bool) : List (Choice (ServerEvent Unit Unit Unit)) :=
  [.event (.load (manual processRegistered) "Master" false ()), .thread 0,
    .event (.start .manual none), .thread 1, .thread 1, .thread 1]

/-- The process is stopped, and another one is started when it has ended. -/
theorem reaches_own_process_restarted : ∃ c, Threads.run (exec {}) (spawn {})
    (startUp false ++ [.event (.stop none), .thread 2, .thread 2, .thread 2,
      .event (.terminated false), .thread 3,
      .thread 3, .event (.start .manual none), .thread 4, .thread 4, .thread 4]) initial = some c ∧
      c.state.history = [.signal (some 1) 1] ∧ c.state.running = some 2 ∧ ∀ mark ∈ c.state.history,
      mark.Right := by
  refine Exists.imp (fun c hc => ⟨hc, ?_⟩) (isSome_iff_exists.mp rfl)
  have hright := reaches_own_process {} hc (by decide)
  cases hc
  exact ⟨rfl, rfl, hright⟩

/-- A process ends after `deactivate` has looked at the state, and the signal reaches the next one.
    The timer of a stop command kills the next process when that one is being stopped. A shutdown
    request fails late, and the signal that follows reaches the next process. The timer of a start
    command fires, and it is the activation of the next process that times out. -/
theorem reaches_next_process : ∃ c₁ c₂ c₃ c₄,
    Threads.run (exec {}) (spawn {}) (startUp false ++ [.event (.stop none), .thread 2, .thread 2,
      .event (.terminated false), .thread 3, .thread 3, .event (.start .manual none),
      .thread 4, .thread 4, .thread 2]) initial = some c₁ ∧ .signal (some 1) 2 ∈ c₁.state.history ∧
    Threads.run (exec {}) (spawn {}) (startUp false ++ [.event (.stop none),
      .event (.timer (.deactivation 2 (some 1))), .event (.terminated false), .thread 4, .thread 4,
      .event (.start .manual none), .thread 5, .thread 5, .thread 5, .event (.stop none),
      .thread 3, .thread 3])
      initial = some c₂ ∧ .signal (some 1) 2 ∈ c₂.state.history ∧
    Threads.run (exec {}) (spawn {})
    (startUp true ++ [.event (.setProcess 1), .event (.stop none), .thread 3,
      .thread 3, .event (.terminated false), .thread 4, .thread 4, .event (.start .manual none),
      .thread 5, .thread 5,
      .event (.shutdown (some 1) false), .thread 6]) initial = some c₃ ∧
      .signal (some 1) 2 ∈ c₃.state.history ∧
    Threads.run (exec {}) (spawn {})
    (startUp true ++ [.event (.timer (.activation 1)), .event (.terminated true),
      .thread 3, .thread 3, .event (.start .manual none), .thread 4, .thread 4,
      .thread 4, .thread 2])
      initial = some c₄ ∧ .timedOut 1 2 ∈ c₄.state.history := by
  refine ⟨_, _, _, _, (some_get ?_).symm, ?_, (some_get ?_).symm, ?_, (some_get ?_).symm, ?_,
    (some_get ?_).symm, ?_⟩
  all_goals decide +kernel

end ServerI

end Ice.IceGrid
