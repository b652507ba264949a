import Ice.Misc.Threads

/-!
# The state of an object adapter

`ObjectAdapterI::activate`, `hold`, `deactivate`, `waitForDeactivate`, `destroy` and
`setPublishedEndpoints` (`cpp/src/Ice/ObjectAdapterI.cpp:77-359,645-688`) called by any number of
threads. The first activation and `setPublishedEndpoints` register the endpoints with the locator
registry, the deactivation removes them, and all of them do it without the mutex.

An adapter that was deactivated stays so if `activate` and `hold` are not called during the first
activation, which they do not wait for, and if the deactivation does not begin between the two
sections of `setPublishedEndpoints`.
-/

namespace Ice.Adapter

open Misc List

/-- `ObjectAdapterI::State`. -/
inductive AdapterState where
  | uninitialized
  | held
  | activating
  | active
  | deactivating
  | deactivated
  | destroying
  | destroyed
deriving DecidableEq, Repr

/-- The value of the state, for the comparisons. -/
def AdapterState.rank : AdapterState → Nat
  | .uninitialized => 0
  | .held => 1
  | .activating => 2
  | .active => 3
  | .deactivating => 4
  | .deactivated => 5
  | .destroying => 6
  | .destroyed => 7

/-- How the locator registry answers at present: whether the locator has one, and whether calls fail
    with a local exception. -/
structure LocatorRegistry where
  available : Bool := true
  fails : Bool := false
deriving DecidableEq, Repr

/-- An update of the locator registry that was issued; whether a call of `deactivate` had returned
    before. -/
inductive RegistryUpdate (ε : Type) where
  | register (endpoints : List ε) (afterDeactivate : Bool)
  | unregister
deriving DecidableEq, Repr

/-- `ObjectAdapterI`. The fields from `registry` on are not members of the adapter. -/
structure ObjectAdapterI (ε : Type) where
  state : AdapterState := .uninitialized
  id : String
  routerInfo : Bool := false
  locatorInfo : Bool := true
  publishedEndpoints : List ε
  directCount : Nat := 0
  registry : LocatorRegistry := {}
  /-- an assertion failed -/
  failed : Bool := false
  /-- a call of `deactivate` has set the state -/
  begun : Bool := false
  /-- a call of `deactivate` has returned -/
  returned : Bool := false
  updates : List (RegistryUpdate ε) := []
deriving DecidableEq, Repr

/-- Who registers the endpoints: `activate`, or `setPublishedEndpoints` with the endpoints to
    restore. -/
inductive Registration (ε : Type) where
  | activate
  | setPublishedEndpoints (old : List ε)
deriving DecidableEq, Repr

/-- What a thread has still to do. -/
inductive AdapterCall (ε : Type) where
  | activate
  | hold
  | setPublishedEndpoints (endpoints : List ε)
  /-- `deactivate`, also as the first part of `destroy` -/
  | deactivate (destroy : Bool)
  | waitForDeactivate (destroy : Bool)
  | createDirectProxy (registration : Registration ε) (locatorInfo : Bool)
  | updateLocatorRegistry (registration : Registration ε) (locatorInfo : Bool) (endpoints : List ε)
  | updateReply (registration : Registration ε)
  /-- the end of `activate` -/
  | activated
  | activationFailed
  | restoreEndpoints (old : List ε)
  /-- the update and the end of `deactivate` -/
  | unregister (destroy : Bool)
  | deactivated (destroy : Bool)
  /-- the two other sections of `destroy` -/
  | destroy
  | destroyed
deriving DecidableEq, Repr

inductive AdapterEvent (ε : Type) where
  | activate
  | hold
  | setPublishedEndpoints (endpoints : List ε)
  | deactivate
  | waitForDeactivate
  | destroy
  | registry (registry : LocatorRegistry)
  | directCount (count : Nat)
deriving DecidableEq, Repr

variable {ε : Type}

/-- What follows when the endpoints are registered, or do not have to be. -/
def Registration.succeeded : Registration ε → List (AdapterCall ε)
  | .activate => [.activated]
  | .setPublishedEndpoints _ => []

/-- What follows a local exception. -/
def Registration.failed : Registration ε → List (AdapterCall ε)
  | .activate => [.activationFailed]
  | .setPublishedEndpoints old => [.restoreEndpoints old]

namespace ObjectAdapterI

variable (s : ObjectAdapterI ε)

def assert (c : Bool) (s : ObjectAdapterI ε) : ObjectAdapterI ε :=
  { s with failed := s.failed || !c }

/-- The condition under which `checkForDeactivation` throws. -/
def checkForDeactivation : Bool := AdapterState.deactivating.rank ≤ s.state.rank

/-- The condition under which `checkForDestruction` throws. -/
def checkForDestruction : Bool := AdapterState.destroying.rank ≤ s.state.rank

/-- The first section of `activate`. -/
def activate : ObjectAdapterI ε × List (AdapterCall ε) :=
  if s.checkForDeactivation then (s, [])
  else if s.state ≠ .uninitialized then ({ s with state := .active }, [])
  else
    ({ s with state := .activating },
      if s.publishedEndpoints.isEmpty then [.activated]
      else [.createDirectProxy .activate s.locatorInfo])

def hold : ObjectAdapterI ε × List (AdapterCall ε) :=
  if s.checkForDeactivation then (s, []) else ({ s with state := .held }, [])

/-- The first section of `setPublishedEndpoints`. -/
def setPublishedEndpoints (endpoints : List ε) (s : ObjectAdapterI ε) :
    ObjectAdapterI ε × List (AdapterCall ε) :=
  if endpoints.isEmpty || s.checkForDeactivation || s.routerInfo then (s, [])
  else
    ({ s with publishedEndpoints := endpoints },
      [.createDirectProxy (.setPublishedEndpoints s.publishedEndpoints) s.locatorInfo])

def createDirectProxy (registration : Registration ε) (locatorInfo : Bool) (s : ObjectAdapterI ε) :
    ObjectAdapterI ε × List (AdapterCall ε) :=
  if s.checkForDestruction then (s, registration.failed)
  else (s, [.updateLocatorRegistry registration locatorInfo s.publishedEndpoints])

/-- `updateLocatorRegistry`, up to the call that it makes. -/
def updateLocatorRegistry (registration : Registration ε) (locatorInfo : Bool) (endpoints : List ε)
    (s : ObjectAdapterI ε) : ObjectAdapterI ε × List (AdapterCall ε) :=
  if s.id = "" ∨ locatorInfo = false then (s, registration.succeeded)
  else if s.registry.fails then (s, registration.failed)
  else if s.registry.available = false then (s, registration.succeeded)
  else ({ s with updates := s.updates ++ [.register endpoints s.returned] },
    [.updateReply registration])

/-- The end of `updateLocatorRegistry`. -/
def updateReply (registration : Registration ε) (s : ObjectAdapterI ε) :
    ObjectAdapterI ε × List (AdapterCall ε) :=
  (s, if s.registry.fails then registration.failed else registration.succeeded)

/-- What follows `deactivate`. -/
def afterDeactivate (destroy : Bool) : List (AdapterCall ε) :=
  if destroy then [.waitForDeactivate true] else []

/-- The first section of `deactivate`, which waits for the end of an activation or deactivation. -/
def deactivate (destroy : Bool) (s : ObjectAdapterI ε) : ObjectAdapterI ε × List (AdapterCall ε) :=
  if s.state = .activating ∨ s.state = .deactivating then (s, [.deactivate destroy])
  else if AdapterState.deactivated.rank ≤ s.state.rank then
    ({ s with returned := true }, afterDeactivate destroy)
  else
    ({ s with state := .deactivating, begun := true },
      if s.publishedEndpoints.isEmpty then [.deactivated destroy] else [.unregister destroy])

/-- The update of the locator registry by `deactivate`, which ignores failures. -/
def unregister (destroy : Bool) (s : ObjectAdapterI ε) : ObjectAdapterI ε × List (AdapterCall ε) :=
  ({ s with
    updates := s.updates ++
      if s.id = "" ∨ s.locatorInfo = false ∨ s.registry.fails ∨ s.registry.available = false then []
      else [.unregister] },
    [.deactivated destroy])

/-- The last section of `deactivate`. -/
def deactivated (destroy : Bool) (s : ObjectAdapterI ε) : ObjectAdapterI ε × List (AdapterCall ε) :=
  ({ s.assert (s.state = .deactivating) with state := .deactivated, returned := true },
    afterDeactivate destroy)

def waitForDeactivate (destroy : Bool) (s : ObjectAdapterI ε) :
    ObjectAdapterI ε × List (AdapterCall ε) :=
  if AdapterState.deactivated.rank ≤ s.state.rank ∧ s.directCount = 0 then
    (s, if destroy then [.destroy] else [])
  else (s, [.waitForDeactivate destroy])

/-- The section of `destroy` that decides which thread destroys the adapter. -/
def destroy : ObjectAdapterI ε × List (AdapterCall ε) :=
  let s := s.assert (AdapterState.deactivated.rank ≤ s.state.rank)
  if s.state = .destroying then (s, [.destroy])
  else if s.state = .destroyed then (s, [])
  else ({ s with state := .destroying }, [.destroyed])

def exec : AdapterCall ε → ObjectAdapterI ε → ObjectAdapterI ε × List (AdapterCall ε)
  | .activate, s => s.activate
  | .hold, s => s.hold
  | .setPublishedEndpoints endpoints, s => s.setPublishedEndpoints endpoints
  | .deactivate destroy, s => s.deactivate destroy
  | .waitForDeactivate destroy, s => s.waitForDeactivate destroy
  | .createDirectProxy registration locatorInfo, s => s.createDirectProxy registration locatorInfo
  | .updateLocatorRegistry registration locatorInfo endpoints, s =>
    s.updateLocatorRegistry registration locatorInfo endpoints
  | .updateReply registration, s => s.updateReply registration
  | .activated, s => ({ s.assert (s.state = .activating) with state := .active }, [])
  | .activationFailed, s => ({ s with state := .uninitialized }, [])
  | .restoreEndpoints old, s => ({ s with publishedEndpoints := old }, [])
  | .unregister destroy, s => s.unregister destroy
  | .deactivated destroy, s => s.deactivated destroy
  | .destroy, s => s.destroy
  | .destroyed, s =>
    ({ s with publishedEndpoints := [], locatorInfo := false, state := .destroyed }, [])

def spawn : AdapterEvent ε → ObjectAdapterI ε → Option (ObjectAdapterI ε × List (AdapterCall ε))
  | .activate, s => some (s, [.activate])
  | .hold, s => some (s, [.hold])
  | .setPublishedEndpoints endpoints, s => some (s, [.setPublishedEndpoints endpoints])
  | .deactivate, s => some (s, [.deactivate false])
  | .waitForDeactivate, s => some (s, [.waitForDeactivate false])
  | .destroy, s => some (s, [.deactivate true])
  | .registry registry, s => some ({ s with registry }, [])
  | .directCount count, s => some ({ s with directCount := count }, [])

/-- An adapter that was just created. -/
def initial (id : String) (routerInfo locatorInfo : Bool) (publishedEndpoints : List ε) :
    Threads (ObjectAdapterI ε) (AdapterCall ε) :=
  ⟨{ id, routerInfo, locatorInfo, publishedEndpoints }, []⟩

end ObjectAdapterI

/-! ### Deactivated for good -/

/-- A part of the first activation that comes after its first section. -/
def AdapterCall.activates : AdapterCall ε → Nat
  | .createDirectProxy .activate _ | .updateLocatorRegistry .activate _ _ | .updateReply .activate
  | .activated | .activationFailed => 1
  | _ => 0

/-- A part of the deactivation that comes after its first section. -/
def AdapterCall.deactivates : AdapterCall ε → Nat
  | .unregister _ | .deactivated _ => 1
  | _ => 0

/-- `setPublishedEndpoints` is between its first section and the update of the registry. -/
def AdapterCall.publishes : AdapterCall ε → Bool
  | .createDirectProxy (.setPublishedEndpoints _) _
  | .updateLocatorRegistry (.setPublishedEndpoints _) _ _ => true
  | _ => false

namespace ObjectAdapterI

/-- The adapter stays deactivated, no assertion failed, and no registration was issued after a
    deactivation. -/
structure Deactivates (s : ObjectAdapterI ε) : Prop where
  stays : s.begun = true → AdapterState.deactivating.rank ≤ s.state.rank
  assertions : s.failed = false
  updates : ∀ endpoints, .register endpoints true ∉ s.updates

/-- `activate` and `hold` are not called during the first activation, and no call of
    `setPublishedEndpoints` is about to update the registry when the deactivation begins. -/
def Orderly (call : AdapterCall ε) (s : ObjectAdapterI ε) (calls : Multiset (AdapterCall ε)) :
    Prop :=
  match call with
  | .activate | .hold => s.state ≠ .activating
  | .deactivate _ =>
    s.state ≠ .activating → s.checkForDeactivation = false → ∀ call ∈ calls, call.publishes = false
  | _ => True

instance Orderly.decidable (call : AdapterCall ε) (s : ObjectAdapterI ε)
    (calls : Multiset (AdapterCall ε)) :
    Decidable (Orderly call s calls) :=
  match call with
  | .activate | .hold => inferInstanceAs (Decidable (s.state ≠ .activating))
  | .deactivate _ =>
    inferInstanceAs (Decidable (s.state ≠ .activating → s.checkForDeactivation = false →
      ∀ call ∈ calls, call.publishes = false))
  | .setPublishedEndpoints _ | .waitForDeactivate _ | .createDirectProxy ..
  | .updateLocatorRegistry ..
  | .updateReply _ | .activated | .activationFailed | .restoreEndpoints _ | .unregister _
  | .deactivated _
  | .destroy | .destroyed => isTrue trivial

/-- One thread activates the adapter in the state activating, and one deactivates it in the state
    deactivating. -/
structure Sound (s : ObjectAdapterI ε) (calls : Multiset (AdapterCall ε)) :
    Prop extends s.Deactivates where
  activating : total AdapterCall.activates calls = if s.state = .activating then 1 else 0
  deactivating : total AdapterCall.deactivates calls = if s.state = .deactivating then 1 else 0
  begun : AdapterState.deactivating.rank ≤ s.state.rank → s.begun = true
  returned : s.returned = true → s.begun = true
  publishing : s.begun = true → ∀ call ∈ calls, call.publishes = false
  destroy : .destroy ∈ calls → AdapterState.deactivated.rank ≤ s.state.rank
  destroyed : .destroyed ∈ calls → AdapterState.destroying.rank ≤ s.state.rank

variable {s : ObjectAdapterI ε} {call : AdapterCall ε} {others : Multiset (AdapterCall ε)}

theorem assert_of_eq_true (s : ObjectAdapterI ε) {c : Bool} (hc : c = true) : s.assert c = s := by
  subst hc
  unfold assert
  rw [Bool.not_true, Bool.or_false]

variable {calls : List (AdapterCall ε)}

section

variable (h : s.Sound (call ::ₘ others))
include h

/-- What a call has to show that changes the state and leads to other calls. -/
theorem Sound.step {s' : ObjectAdapterI ε}
    (hrank : AdapterState.deactivating.rank ≤ s.state.rank → s.state.rank ≤ s'.state.rank)
    (hbegun : s'.begun = true ↔ AdapterState.deactivating.rank ≤ s'.state.rank)
    (hreturned : s'.returned = true → s'.begun = true) (hfailed : s'.failed = false)
    (hupdates : ∀ endpoints, .register endpoints true ∉ s'.updates)
    (hactivates : (calls.map AdapterCall.activates).sum + (if s.state = .activating then 1 else 0) =
      call.activates + if s'.state = .activating then 1 else 0)
    (hdeactivates : (calls.map AdapterCall.deactivates).sum +
      (if s.state = .deactivating then 1 else 0) =
      call.deactivates + if s'.state = .deactivating then 1 else 0)
    (hpublishes : s'.begun = true → (∀ call ∈ calls, call.publishes = false) ∧
      ∀ call ∈ others, call.publishes = false)
    (hdestroy : .destroy ∈ calls → AdapterState.deactivated.rank ≤ s'.state.rank)
    (hdestroyed : .destroyed ∈ calls → AdapterState.destroying.rank ≤ s'.state.rank) :
    s'.Sound (↑calls + others) := by
  have hactivating := h.activating
  have hdeactivating := h.deactivating
  rw [total_cons] at hactivating hdeactivating
  refine ⟨⟨hbegun.mp, hfailed, hupdates⟩, ?_, ?_, hbegun.mpr, hreturned, ?_, ?_, ?_⟩
  · rw [total_add, total_coe]
    omega
  · rw [total_add, total_coe]
    omega
  · intro hb call hmem
    rcases Multiset.mem_add.mp hmem with hmem | hmem
    · exact (hpublishes hb).1 call (Multiset.mem_coe.mp hmem)
    · exact (hpublishes hb).2 call hmem
  · intro hmem
    rcases Multiset.mem_add.mp hmem with hmem | hmem
    · exact hdestroy (Multiset.mem_coe.mp hmem)
    · have hle := h.destroy (Multiset.mem_cons_of_mem hmem)
      exact hle.trans (hrank (Nat.le_trans (by decide) hle))
  · intro hmem
    rcases Multiset.mem_add.mp hmem with hmem | hmem
    · exact hdestroyed (Multiset.mem_coe.mp hmem)
    · have hle := h.destroyed (Multiset.mem_cons_of_mem hmem)
      exact hle.trans (hrank (Nat.le_trans (by decide) hle))

theorem Sound.others_publish (hb : s.begun = true) : ∀ next ∈ others, next.publishes = false :=
  fun next hmem => h.publishing hb next (Multiset.mem_cons_of_mem hmem)

/-- A call that changes nothing that matters. -/
theorem Sound.next (hactivates : (calls.map AdapterCall.activates).sum = call.activates)
    (hdeactivates : (calls.map AdapterCall.deactivates).sum = call.deactivates)
    (hpublishes : ∀ next ∈ calls, next.publishes = true → call.publishes = true ∨ s.begun = false)
    (hdestroy : .destroy ∈ calls → AdapterState.deactivated.rank ≤ s.state.rank)
    (hdestroyed : .destroyed ∉ calls) :
    s.Sound (↑calls + others) := by
  refine h.step (fun _ => Nat.le_refl _) ⟨h.stays, h.begun⟩ h.returned h.assertions h.updates ?_
    ?_ ?_ hdestroy fun hmem => absurd hmem hdestroyed
  · rw [hactivates]
  · rw [hdeactivates]
  · refine fun hb => ⟨fun next hmem => ?_, h.others_publish hb⟩
    by_contra hpublish
    rcases hpublishes next hmem (by simpa using hpublish) with hcall | hnot
    · have hfalse := h.publishing hb call (Multiset.mem_cons_self _ _)
      rw [hcall] at hfalse
      cases hfalse
    · rw [hb] at hnot
      cases hnot

theorem Sound.next_one {next : AdapterCall ε}
    (hactivates : next.activates = call.activates)
    (hdeactivates : next.deactivates = call.deactivates)
    (hpublishes : next.publishes = true → call.publishes = true ∨ s.begun = false)
    (hdestroy : next = .destroy → AdapterState.deactivated.rank ≤ s.state.rank)
    (hdestroyed : next ≠ .destroyed) :
    s.Sound (↑[next] + others) := by
  refine h.next ?_ ?_ ?_ ?_ ?_
  · simpa using hactivates
  · simpa using hdeactivates
  · intro next' hmem
    rw [mem_singleton.mp hmem]
    exact hpublishes
  · intro hmem
    exact hdestroy (mem_singleton.mp hmem).symm
  · intro hmem
    exact hdestroyed (mem_singleton.mp hmem).symm

/-- A call that is part of the first activation finds the state activating. -/
theorem Sound.state_of_activates (hcall : call.activates = 1) : s.state = .activating := by
  have hactivating := h.activating
  rw [total_cons, hcall] at hactivating
  by_contra hne
  rw [if_neg hne] at hactivating
  omega

end

theorem Sound.not_begun {calls : Multiset (AdapterCall ε)} (h : s.Sound calls)
    (hcheck : s.checkForDeactivation = false) :
    ¬ AdapterState.deactivating.rank ≤ s.state.rank ∧ s.begun = false := by
  have hlt : ¬ AdapterState.deactivating.rank ≤
      s.state.rank := by simpa [checkForDeactivation] using hcheck
  exact ⟨hlt, Bool.eq_false_of_not_eq_true fun hb => hlt (h.stays hb)⟩

/-- Before the deactivation begins the state can be set to any that is not part of it. -/
theorem Sound.setState {st : AdapterState} (h : s.Sound (call ::ₘ others))
    (hcheck : s.checkForDeactivation = false) (hst : st.rank < AdapterState.deactivating.rank)
    (hcalls : ∀ next ∈ calls, next.deactivates = 0 ∧ next ≠ .destroy ∧ next ≠ .destroyed)
    (hcall : call.deactivates = 0)
    (hactivates : (calls.map AdapterCall.activates).sum + (if s.state = .activating then 1 else 0) =
      call.activates + if st = .activating then 1 else 0) :
    Sound { s with state := st } (↑calls + others) := by
  obtain ⟨hlt, hbegun⟩ := h.not_begun hcheck
  have hsum : (calls.map AdapterCall.deactivates).sum = 0 :=
    sum_map_eq_zero fun next hmem => (hcalls next hmem).1
  have hne : s.state ≠ .deactivating := fun heq => hlt (heq ▸ Nat.le_refl _)
  have hne' : st ≠ .deactivating := fun heq => Nat.lt_irrefl _ (heq ▸ hst)
  have hnot : ¬ s.begun = true := by rw [hbegun]; decide
  refine h.step (fun hle => absurd hle hlt) ?_ h.returned h.assertions h.updates
    hactivates ?_ ?_ ?_ ?_
  · exact ⟨fun hb => absurd hb hnot, fun hle => absurd hle (Nat.not_le.mpr hst)⟩
  · rw [hsum, hcall, if_neg hne, Nat.zero_add, Nat.zero_add]
    exact (if_neg hne').symm
  · exact fun hb => absurd hb hnot
  · exact fun hmem => absurd rfl (hcalls _ hmem).2.1
  · exact fun hmem => absurd rfl (hcalls _ hmem).2.2

theorem activate_sound (h : s.Sound (.activate ::ₘ others)) (horderly : s.state ≠ .activating) :
    LeadsTo Sound others s.activate := by
  unfold activate
  by_cases hcheck : s.checkForDeactivation = true
  · rw [if_pos hcheck]
    exact h.next rfl rfl nofun nofun nofun
  rw [if_neg hcheck]
  rw [Bool.not_eq_true] at hcheck
  by_cases hstate : s.state ≠ .uninitialized
  · rw [if_pos hstate]
    refine h.setState hcheck (by decide) nofun rfl ?_
    rw [if_neg horderly]
    rfl
  · rw [if_neg hstate]
    refine h.setState hcheck (by decide) ?_ rfl ?_
    · intro next hmem
      split_ifs at hmem <;> rw [mem_singleton.mp hmem] <;> exact ⟨rfl, nofun, nofun⟩
    · rw [if_neg horderly]
      cases s.publishedEndpoints.isEmpty <;> rfl

theorem hold_sound (h : s.Sound (.hold ::ₘ others)) (horderly : s.state ≠ .activating) :
    LeadsTo Sound others s.hold := by
  unfold hold
  split_ifs with hcheck
  · exact h.next rfl rfl nofun nofun nofun
  · refine h.setState (by simpa using hcheck) (by decide) nofun rfl ?_
    rw [if_neg horderly]
    rfl

theorem setPublishedEndpoints_sound {endpoints : List ε}
    (h : s.Sound (.setPublishedEndpoints endpoints ::ₘ others)) :
    LeadsTo Sound others (s.setPublishedEndpoints endpoints) := by
  unfold setPublishedEndpoints
  split_ifs with hrefused
  · exact h.next rfl rfl nofun nofun nofun
  · have hcheck : s.checkForDeactivation = false := by
      simp only [Bool.or_eq_true, not_or, Bool.not_eq_true] at hrefused
      exact hrefused.1.2
    have hpublished : ({ s with publishedEndpoints := endpoints }).Sound
      (.setPublishedEndpoints endpoints ::ₘ others) :=
      { h with }
    exact hpublished.next_one rfl rfl (fun _ => .inr (h.not_begun hcheck).2) nofun nofun

variable {registration : Registration ε}

/-- The calls that follow a registration. -/
theorem Sound.registered (h : s.Sound (call ::ₘ others))
    (hactivates : call.activates = (AdapterCall.updateReply registration).activates)
    (hcall : call.deactivates = 0) :
    s.Sound (↑registration.succeeded + others) ∧
      s.Sound (↑registration.failed + others) := by
  cases registration with
  | activate =>
    exact ⟨h.next_one hactivates.symm hcall.symm nofun nofun nofun,
      h.next_one hactivates.symm hcall.symm nofun nofun nofun⟩
  | setPublishedEndpoints old =>
    exact ⟨h.next hactivates.symm hcall.symm nofun nofun nofun,
      h.next_one hactivates.symm hcall.symm nofun nofun nofun⟩

theorem createDirectProxy_sound {locatorInfo : Bool}
    (h : s.Sound (.createDirectProxy registration locatorInfo ::ₘ others)) :
    LeadsTo Sound others (s.createDirectProxy registration locatorInfo) := by
  unfold createDirectProxy
  split_ifs
  · exact (h.registered (by cases registration <;> rfl) rfl).2
  · refine h.next_one ?_ rfl ?_ nofun nofun
    · cases registration <;> rfl
    · intro hpublishes
      cases registration with
      | activate => cases hpublishes
      | setPublishedEndpoints old => exact .inl rfl

theorem updateLocatorRegistry_sound {locatorInfo : Bool} {endpoints : List ε}
    (h : s.Sound (.updateLocatorRegistry registration locatorInfo endpoints ::ₘ others)) :
    LeadsTo Sound others (s.updateLocatorRegistry registration locatorInfo endpoints) := by
  have hactivates :
      (AdapterCall.updateLocatorRegistry registration locatorInfo endpoints).activates =
      (AdapterCall.updateReply registration).activates := by
    cases registration <;> rfl
  have hregistered := h.registered hactivates rfl
  -- nobody registers the endpoints once the deactivation has begun
  have hnot : s.begun = false := by
    by_contra hb
    rw [Bool.not_eq_false] at hb
    cases registration with
    | activate =>
      have hle := h.stays hb
      rw [h.state_of_activates rfl] at hle
      exact absurd hle (by decide)
    | setPublishedEndpoints old => cases h.publishing hb _ (Multiset.mem_cons_self _ _)
  have hreturned : s.returned = false := by
    by_contra hr
    rw [h.returned (by simpa using hr)] at hnot
    cases hnot
  unfold updateLocatorRegistry
  split_ifs
  · exact hregistered.1
  · exact hregistered.2
  · exact hregistered.1
  · have hissued :
        ({ s with updates := s.updates ++ [RegistryUpdate.register endpoints s.returned] }).Sound
        (.updateLocatorRegistry registration locatorInfo endpoints ::ₘ others) := by
      refine { h with updates := ?_ }
      intro endpoints' hmem
      rcases mem_append.mp hmem with hmem | hmem
      · exact h.updates endpoints' hmem
      · have heq := mem_singleton.mp hmem
        rw [hreturned] at heq
        cases heq
    refine hissued.next_one ?_ rfl (fun _ => .inr hnot) nofun nofun
    cases registration <;> rfl

theorem deactivate_sound {destroy : Bool} (h : s.Sound (.deactivate destroy ::ₘ others))
    (horderly : s.state ≠ .activating → s.checkForDeactivation = false →
      ∀ call ∈ AdapterCall.deactivate destroy ::ₘ others, call.publishes = false) :
      LeadsTo Sound others (s.deactivate destroy) := by
  unfold deactivate
  by_cases hwait : s.state = .activating ∨ s.state = .deactivating
  · rw [if_pos hwait]
    exact h.next_one rfl rfl nofun nofun nofun
  rw [if_neg hwait]
  rw [not_or] at hwait
  by_cases hdone : AdapterState.deactivated.rank ≤ s.state.rank
  · rw [if_pos hdone]
    have hbegun := h.begun (Nat.le_trans (by decide) hdone)
    have hreturned : ({ s with returned := true }).Sound (.deactivate destroy ::ₘ others) :=
      { h with returned := fun _ => hbegun }
    cases destroy with
    | false => exact hreturned.next rfl rfl nofun nofun nofun
    | true => exact hreturned.next_one rfl rfl nofun nofun nofun
  rw [if_neg hdone]
  have hlt : ¬ AdapterState.deactivating.rank ≤ s.state.rank := by
    intro hle
    cases hs : s.state <;> simp_all [AdapterState.rank]
  have hpublishes := horderly hwait.1 (by simpa [checkForDeactivation] using hlt)
  refine h.step (fun hle => absurd hle hlt) ⟨fun _ => Nat.le_refl _, fun _ => rfl⟩
    (fun _ => rfl) h.assertions h.updates ?_ ?_ ?_ ?_ ?_
  · rw [if_neg hwait.1]
    cases s.publishedEndpoints.isEmpty <;> rfl
  · rw [if_neg hwait.2]
    cases s.publishedEndpoints.isEmpty <;> rfl
  · intro _
    refine ⟨fun next hmem => ?_, fun call hmem => hpublishes call (Multiset.mem_cons_of_mem hmem)⟩
    split_ifs at hmem <;> rw [mem_singleton.mp hmem] <;> rfl
  all_goals
    intro hmem
    split_ifs at hmem <;> cases mem_singleton.mp hmem

theorem deactivated_sound {destroy : Bool} (h : s.Sound (.deactivated destroy ::ₘ others)) :
    LeadsTo Sound others (s.deactivated destroy) := by
  have hstate : s.state = .deactivating := by
    have hdeactivating := h.deactivating
    rw [total_cons] at hdeactivating
    by_contra hne
    rw [if_neg hne] at hdeactivating
    cases (Nat.add_eq_zero_iff.mp hdeactivating).1
  have hbegun : s.begun = true := h.begun (by rw [hstate])
  refine h.step ?_ ⟨fun _ => Nat.le_of_ble_eq_true rfl, fun _ => hbegun⟩
    (fun _ => hbegun) ?_ h.updates ?_ ?_ ?_ ?_ ?_
  · intro _
    rw [hstate]
    exact Nat.le_of_ble_eq_true rfl
  · simp [deactivated, assert, hstate, h.assertions]
  · rw [hstate]
    cases destroy <;> rfl
  · rw [hstate]
    cases destroy <;> rfl
  · intro _
    refine ⟨fun next hmem => ?_, h.others_publish hbegun⟩
    cases destroy with
    | false => cases hmem
    | true =>
      rw [mem_singleton.mp hmem]
      rfl
  · intro _
    exact Nat.le_refl _
  · intro hmem
    cases destroy with
    | false => cases hmem
    | true => cases mem_singleton.mp hmem

theorem waitForDeactivate_sound {destroy : Bool}
    (h : s.Sound (.waitForDeactivate destroy ::ₘ others)) :
    LeadsTo Sound others (s.waitForDeactivate destroy) := by
  unfold waitForDeactivate
  by_cases hdone : AdapterState.deactivated.rank ≤ s.state.rank ∧ s.directCount = 0
  · rw [if_pos hdone]
    cases destroy with
    | false => exact h.next rfl rfl nofun nofun nofun
    | true => exact h.next_one rfl rfl nofun (fun _ => hdone.1) nofun
  · rw [if_neg hdone]
    exact h.next_one rfl rfl nofun nofun nofun

theorem destroy_sound (h : s.Sound (.destroy ::ₘ others)) : LeadsTo Sound others s.destroy := by
  have hrank := h.destroy (Multiset.mem_cons_self _ _)
  have hassert := s.assert_of_eq_true (decide_eq_true hrank)
  unfold destroy
  rw [hassert]
  dsimp only
  split_ifs with hdestroying hdestroyed
  · exact h.next_one rfl rfl nofun (fun _ => hrank) nofun
  · exact h.next rfl rfl nofun nofun nofun
  · have hstate : s.state = .deactivated := by
      cases hs : s.state <;> simp_all [AdapterState.rank]
    have hbegun : s.begun = true := h.begun (by rw [hstate]; decide)
    refine h.step ?_ ⟨fun _ => Nat.le_of_ble_eq_true rfl, fun _ => hbegun⟩
      (fun _ => hbegun) h.assertions h.updates ?_ ?_ ?_ nofun fun _ => Nat.le_refl _
    · intro _
      rw [hstate]
      exact Nat.le_of_ble_eq_true rfl
    · rw [hstate]
      rfl
    · rw [hstate]
      rfl
    · intro _
      refine ⟨fun next hmem => ?_, h.others_publish hbegun⟩
      rw [mem_singleton.mp hmem]
      rfl

theorem exec_sound (h : s.Sound (call ::ₘ others)) (horderly : Orderly call s (call ::ₘ others)) :
    LeadsTo Sound others (exec call s) := by
  cases call with
  | activate => exact activate_sound h horderly
  | hold => exact hold_sound h horderly
  | setPublishedEndpoints endpoints => exact setPublishedEndpoints_sound h
  | deactivate destroy => exact deactivate_sound h horderly
  | waitForDeactivate destroy => exact waitForDeactivate_sound h
  | createDirectProxy registration locatorInfo => exact createDirectProxy_sound h
  | updateLocatorRegistry registration locatorInfo endpoints => exact updateLocatorRegistry_sound h
  | updateReply registration =>
    rw [exec, updateReply]
    split_ifs
    · exact (h.registered rfl rfl).2
    · exact (h.registered rfl rfl).1
  | activated =>
    have hstate := h.state_of_activates rfl
    have hassert := s.assert_of_eq_true (decide_eq_true hstate)
    change ({ s.assert (s.state = AdapterState.activating) with state :=
      AdapterState.active }).Sound (_ + others)
    rw [hassert]
    refine h.setState ?_ (by decide) nofun rfl ?_
    · simp [checkForDeactivation, hstate, AdapterState.rank]
    · rw [hstate]
      rfl
  | activationFailed =>
    have hstate := h.state_of_activates rfl
    refine h.setState ?_ (by decide) nofun rfl ?_
    · simp [checkForDeactivation, hstate, AdapterState.rank]
    · rw [hstate]
      rfl
  | restoreEndpoints old =>
    have hrestored :
        ({ s with publishedEndpoints := old }).Sound (.restoreEndpoints old ::ₘ others) :=
      { h with }
    exact hrestored.next rfl rfl nofun nofun nofun
  | unregister destroy =>
    have hissued : (s.unregister destroy).1.Sound (.unregister destroy ::ₘ others) := by
      refine { h with updates := ?_ }
      intro endpoints hmem
      rcases mem_append.mp hmem with hmem | hmem
      · exact h.updates endpoints hmem
      · split_ifs at hmem
        · cases hmem
        · cases mem_singleton.mp hmem
    exact hissued.next_one rfl rfl nofun nofun nofun
  | deactivated destroy => exact deactivated_sound h
  | destroy => exact destroy_sound h
  | destroyed =>
    have hrank := h.destroyed (Multiset.mem_cons_self _ _)
    have hbegun : s.begun = true := h.begun (Nat.le_trans (by decide) hrank)
    have hne : s.state ≠ .activating ∧ s.state ≠ .deactivating := by
      constructor <;> intro hstate <;> rw [hstate] at hrank <;> exact absurd hrank (by decide)
    refine h.step ?_ ⟨fun _ => Nat.le_of_ble_eq_true rfl, fun _ => hbegun⟩
      (fun _ => hbegun) h.assertions h.updates ?_ ?_ ?_ nofun nofun
    · intro _
      change s.state.rank ≤ 7
      cases s.state <;> decide
    · rw [if_neg hne.1]
      rfl
    · rw [if_neg hne.2]
      rfl
    · exact fun _ => ⟨nofun, h.others_publish hbegun⟩

/-- A request starts with a call that is not part of anything yet. -/
theorem Sound.start (h : s.Sound others) {first : AdapterCall ε} (hactivates : first.activates = 0)
    (hdeactivates : first.deactivates = 0) (hpublishes : first.publishes = false)
    (hdestroy : first ≠ .destroy) (hdestroyed : first ≠ .destroyed) :
    s.Sound (↑[first] + others) := by
  refine ⟨{ h with }, ?_, ?_, h.begun, h.returned, ?_, ?_, ?_⟩
  · simp [hactivates, h.activating]
  · simp [hdeactivates, h.deactivating]
  · intro hb call hmem
    rcases Multiset.mem_cons.mp hmem with rfl | hmem
    · exact hpublishes
    · exact h.publishing hb call hmem
  · intro hmem
    rcases Multiset.mem_cons.mp hmem with heq | hmem
    · exact absurd heq.symm hdestroy
    · exact h.destroy hmem
  · intro hmem
    rcases Multiset.mem_cons.mp hmem with heq | hmem
    · exact absurd heq.symm hdestroyed
    · exact h.destroyed hmem

theorem spawn_sound {e : AdapterEvent ε} {s' : ObjectAdapterI ε} (h : s.Sound others)
    (hspawn : spawn e s = some (s', calls)) : s'.Sound (↑calls + others) := by
  cases e with
  | registry registry | directCount count =>
    cases hspawn
    rw [Multiset.coe_nil, Multiset.zero_add]
    exact { h with }
  | activate | hold | setPublishedEndpoints endpoints | deactivate | waitForDeactivate | destroy =>
    cases hspawn
    exact h.start rfl rfl rfl nofun nofun

/-- In every run in which `activate` and `hold` are not called during the first activation, and in
    which no call of `setPublishedEndpoints` is about to update the registry when the deactivation
    begins: an adapter that was deactivated stays so, no assertion fails, and no registration is
    issued after a deactivation has returned. -/
theorem stays_deactivated {id : String} {routerInfo locatorInfo : Bool}
    {publishedEndpoints : List ε}
    {choices : List (Choice (AdapterEvent ε))} {c : Threads (ObjectAdapterI ε) (AdapterCall ε)}
    (h : Threads.run exec spawn choices
      (initial id routerInfo locatorInfo publishedEndpoints) = some c)
    (hsteps : Threads.AllSteps exec spawn (fun _ _ _ => True) Orderly choices
      (initial id routerInfo locatorInfo publishedEndpoints)) : c.state.Deactivates := by
  have hsound : c.state.Sound c.calls := by
    refine Threads.run_invariant_of (P := Sound) ?_ ?_ h hsteps ?_
    · intro s call others hs horderly
      exact exec_sound hs horderly
    · intro s e s' calls others hs _ hspawn
      exact spawn_sound hs hspawn
    · exact ⟨⟨nofun, rfl, nofun⟩, rfl, rfl, nofun, nofun, nofun, nofun, nofun⟩
  exact hsound.toDeactivates

/-- The adapter is activated, its endpoints are changed, and it is destroyed. -/
theorem stays_deactivated_destroyed : ∃ c, Threads.run exec spawn
    [.event .activate, .thread 0, .thread 0, .thread 0, .thread 0, .thread 0,
      .event (.setPublishedEndpoints [2]), .thread 1, .thread 1, .thread 1, .thread 1,
      .event .destroy, .thread 2,
      .thread 2, .thread 2, .thread 2, .thread 2, .thread 2, .event .activate, .thread 3]
    (initial "a" false true [1]) = some c ∧ c.state.state = .destroyed ∧
      c.state.updates = [.register [1] false, .register [2] false, .unregister] ∧
      c.state.Deactivates := by
  refine Exists.imp (fun c hc => ⟨hc, ?_⟩) (Option.isSome_iff_exists.mp rfl)
  have hdeactivates := stays_deactivated hc (by decide)
  cases hc
  exact ⟨rfl, rfl, hdeactivates⟩

/-- The adapter is held during its first activation and then deactivated: if the registry cannot be
    updated, the adapter is uninitialized again, and if it can, the assertion of `activate` fails
    and the adapter is active. And `setPublishedEndpoints` registers the endpoints of an adapter
    whose deactivation has returned. -/
theorem deactivated_revived : ∃ c₁ c₂ c₃,
    Threads.run exec spawn [.event .activate, .thread 0, .thread 0, .thread 0,
      .event .hold, .thread 1,
        .event .deactivate, .thread 2, .thread 2, .thread 2, .event (.registry { fails := true }),
        .thread 0, .thread 0]
      (initial "a" false true [1]) = some c₁ ∧ c₁.state.returned = true ∧
        c₁.state.state = .uninitialized ∧
    Threads.run exec spawn [.event .activate, .thread 0, .thread 0, .thread 0,
      .event .hold, .thread 1, .event .deactivate, .thread 2, .thread 0, .thread 0]
      (initial "a" false true [1]) = some c₂ ∧ c₂.state.failed = true ∧ c₂.state.begun = true ∧
      c₂.state.state = .active ∧
    Threads.run exec spawn [.event .activate, .thread 0, .thread 0, .thread 0, .thread 0, .thread 0,
        .event (.setPublishedEndpoints [2]), .thread 1, .event .deactivate, .thread 2, .thread 2,
        .thread 2, .thread 1, .thread 1]
      (initial "a" false true [1]) = some c₃ ∧ .register [2] true ∈ c₃.state.updates := by
  refine ⟨_, _, _, rfl, rfl, rfl, rfl, rfl, rfl, rfl, rfl, ?_⟩
  decide

end ObjectAdapterI

end Ice.Adapter
