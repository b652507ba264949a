import Ice.Connection.Requests

/-!
# The outstanding requests

The map `_asyncRequests` is ordered by request ID, and a close that waits for it to become empty is
started by the event that empties it, unless that is a cancellation that has to search the map.
-/

namespace Ice.Connection

open List

open Ice.WebSocket (Buffer SocketOperation)

variable {ρ : Type}

/-! ## The map -/

section Map

variable {requestId : Int} {out : ρ} {es : List (Int × ρ)}

/-- The elements of a map are ordered by their keys. -/
def Ordered (es : List (Int × ρ)) : Prop := es.Pairwise fun a b => a.1 < b.1

theorem insertRequest_ne_nil : insertRequest requestId out es ≠ [] := by
  cases es with
  | nil => simp [insertRequest]
  | cons e es =>
    unfold insertRequest
    split
    · simp
    · split <;> simp

theorem mem_of_mem_insertRequest {e : Int × ρ} (h : e ∈ insertRequest requestId out es) :
    e = (requestId, out) ∨ e ∈ es := by
  induction es with
  | nil => exact .inl (mem_singleton.mp h)
  | cons d es ih =>
    unfold insertRequest at h
    split at h
    · exact mem_cons.mp h
    · split at h
      · exact .inr h
      · rcases mem_cons.mp h with rfl | h
        · exact .inr mem_cons_self
        · exact (ih h).imp_right (mem_cons_of_mem _)

theorem Ordered.insertRequest (h : Ordered es) : Ordered (insertRequest requestId out es) := by
  induction es with
  | nil => exact pairwise_singleton _ _
  | cons d es ih =>
    obtain ⟨hd, hes⟩ := pairwise_cons.mp h
    unfold Connection.insertRequest
    split
    · next hlt =>
      refine pairwise_cons.mpr ⟨fun e he => ?_, h⟩
      rcases mem_cons.mp he with rfl | he
      · exact hlt
      · exact lt_trans hlt (hd e he)
    · next hge =>
      split
      · exact h
      · next hne =>
        refine pairwise_cons.mpr ⟨fun e he => ?_, ih hes⟩
        rcases mem_of_mem_insertRequest he with rfl | he
        · exact lt_of_le_of_ne (not_lt.mp hge) (Ne.symm hne)
        · exact hd e he

theorem insertRequest_perm (out : ρ) (h : ∀ e ∈ es, e.1 ≠ requestId) :
    (insertRequest requestId out es).Perm ((requestId, out) :: es) := by
  induction es with
  | nil => exact .refl _
  | cons d es ih =>
    unfold insertRequest
    split
    · exact .refl _
    · rw [if_neg (h d mem_cons_self).symm]
      exact ((ih fun e he => h e (mem_cons_of_mem _ he)).cons d).trans (.swap _ _ _)

@[simp] theorem mem_eraseRequest {e : Int × ρ} :
    e ∈ eraseRequest requestId es ↔ e ∈ es ∧ e.1 ≠ requestId := by
  simp [eraseRequest]

theorem eraseRequest_sublist : (eraseRequest requestId es).Sublist es := filter_sublist

theorem Ordered.nodup_keys (h : Ordered es) : (es.map (·.1)).Nodup :=
  pairwise_map.mpr (h.imp fun hlt => ne_of_lt hlt)

theorem Ordered.nodup (h : Ordered es) : es.Nodup := h.nodup_keys.of_map

theorem Ordered.eq_of_key (h : Ordered es) {a b : Int × ρ} (ha : a ∈ es) (hb : b ∈ es)
    (hkey : a.1 = b.1) : a = b :=
  inj_on_of_nodup_map h.nodup_keys ha hb hkey

/-- If nothing is left without one element, there was only that one. -/
theorem Ordered.eq_singleton (h : Ordered es) (hmem : (requestId, out) ∈ es)
    (hempty : eraseRequest requestId es = []) : es = [(requestId, out)] := by
  have hall : ∀ e ∈ es, e = (requestId, out) := by
    intro e he
    refine h.eq_of_key he hmem ?_
    by_contra hne
    have hleft : e ∈ eraseRequest requestId es := mem_eraseRequest.mpr ⟨he, hne⟩
    rw [hempty] at hleft
    cases hleft
  match es, h, hmem, hall with
  | [e], _, _, hall => rw [hall e mem_cons_self]
  | a :: b :: es, h, _, hall =>
    have hlt : a.1 < b.1 := rel_of_pairwise_cons h mem_cons_self
    rw [hall a (by simp), hall b (by simp)] at hlt
    exact absurd hlt (lt_irrefl _)

end Map

variable [Bzip2] [DecidableEq ρ] {s s' : ConnectionI ρ} {e : Event ρ}

omit [Bzip2] in
theorem forgetQueued_sublist (out : ρ) (requestId : Int) :
    (forgetQueued out requestId s).asyncRequests.Sublist s.asyncRequests := by
  unfold forgetQueued
  split
  · exact .refl _
  · exact eraseRequest_sublist

/-- An event removes requests from the map, or adds the one that is accepted. -/
theorem Change.asyncRequests (h : Change e s s') : s'.asyncRequests.Sublist s.asyncRequests ∨
      ∃ requestId out, s'.asyncRequests = insertRequest requestId out s.asyncRequests := by
  cases h with
  | @accepted r s s' h =>
    cases hresponse : r.response with
    | true => exact .inr ⟨_, _, by simpa [hresponse] using h.asyncRequests⟩
    | false => exact .inl (by simp [h.asyncRequests, hresponse])
  | proceeds h | rejected h | closeRequested _ _ h => exact .inl (h.asyncRequests ▸ .refl _)
  | replied h =>
    obtain ⟨s1, h1, result, _, h2, _⟩ := h.delivered
    rw [h2.asyncRequests, ← h1.asyncRequests]
    exact .inl eraseRequest_sublist
  | canceledQueued _ _ _ h | abortedQueued _ _ _ h =>
    exact .inl (h.asyncRequests ▸ forgetQueued_sublist _ _)
  | canceledHinted _ _ _ h => exact .inl (h.asyncRequests ▸ eraseRequest_sublist)
  | canceledFound => exact .inl eraseRequest_sublist
  | finished => exact .inl (nil_sublist _)

theorem Change.ordered (hchange : Change e s s') (h : Ordered s.asyncRequests) :
    Ordered s'.asyncRequests := by
  rcases hchange.asyncRequests with hsub | ⟨requestId, out, hinsert⟩
  · exact h.sublist hsub
  · rw [hinsert]
    exact h.insertRequest

/-! ## The requested close -/

/-- The cancellation of the last outstanding request while a close is requested: the request is
    not in the send queue, and the hint does not point at it. -/
def ForgetsClose (s : ConnectionI ρ) : Event ρ → Prop
  | .asyncRequestCanceled out ex =>
    ex.isConnectionAborted = false ∧ s.closeRequested = true ∧ s.state < .closing ∧
      (∀ m ∈ s.sendStreams, m.outAsync ≠ some out) ∧
      ∃ e ∈ s.asyncRequests, s.asyncRequests = [e] ∧ e.2 = out ∧ s.asyncRequestsHint ≠ some e.1
  | _ => False

instance (s : ConnectionI ρ) (e : Event ρ) : Decidable (ForgetsClose s e) :=
  match e with
  | .asyncRequestCanceled .. => inferInstanceAs (Decidable (_ ∧ _))
  | .network .. | .startAsync _ | .activate | .hold | .destroy _ | .abort | .close
  | .sendAsyncRequest _ | .select _ | .beginMessage | .endMessage _ | .dispatch _
  | .dispatchException .. | .upcallCompleted _ | .sendResponse .. | .finish | .idleCheck
  | .inactivityCheck | .connectTimedOut | .closeTimedOut | .sendHeartbeat => .isFalse id

theorem Change.not_closeDue (hchange : Change e s s') (hforget : ¬ ForgetsClose s e)
    (hordered : Ordered s.asyncRequests) (h : ¬ CloseDue s) : ¬ CloseDue s' := by
  cases hchange with
  | proceeds hp => exact hp.not_closeDue h
  | closeRequested _ hne hp => exact hp.not_closeDue fun hdue => hne hdue.2.2
  | accepted ha =>
    rintro ⟨hreq, hstate, hempty⟩
    rw [ha.asyncRequests] at hempty
    split at hempty
    · exact insertRequest_ne_nil hempty
    · exact h ⟨ha.closeRequested ▸ hreq, ha.state ▸ hstate, hempty⟩
  | rejected _ hclosed | abortedQueued _ _ _ _ hclosed _ =>
    exact not_closeDue_of_closing (le_trans (by decide) hclosed)
  | replied hr =>
    obtain ⟨_, _, _, _, _, hdue⟩ := hr.delivered
    exact hdue
  | canceledQueued _ _ _ _ hdue | canceledHinted _ _ _ _ hdue => exact hdue
  | @canceledFound out ex s requestId _ hex hlocate =>
    obtain ⟨hqueue, hhint, hmem⟩ := locate_found hlocate
    rintro ⟨hreq, hstate, hempty⟩
    have honly : s.asyncRequests = [(requestId, out)] := hordered.eq_singleton hmem hempty
    refine hforget ⟨hex, hreq, hstate, hqueue, (requestId, out), hmem, honly, rfl,
      fun hpoints => ?_⟩
    simp [ConnectionI.hintFor, ConnectionI.hinted, hpoints, findRequest, honly] at hhint
  | finished _ => exact not_closeDue_of_closing (show State.closing ≤ .finished by decide)

/-- A requested close is not forgotten: while the connection is not closing, it waits for an
    outstanding request. -/
theorem close_not_forgotten (h : Reachable (fun s e => ¬ ForgetsClose s e) s)
    (hrequested : s.closeRequested = true) (hstate : s.state < .closing) :
    s.asyncRequests ≠ [] := by
  have hinv : Ordered s.asyncRequests ∧ ¬ CloseDue s := by
    refine h.induct_change (I := fun s => Ordered s.asyncRequests ∧ ¬ CloseDue s) ?_ ?_
    · intro o
      exact ⟨List.Pairwise.nil, fun hdue => by cases hdue.1⟩
    · intro s e s' hok hchange hs
      exact ⟨hchange.ordered hs.1, hchange.not_closeDue hok hs.1 hs.2⟩
  intro hempty
  exact hinv.2 ⟨hrequested, hstate, hempty⟩

/-- The connection is validated and activated. -/
def opening : List (Event Nat) :=
  [.network (header MessageType.validateConnection.code 0 headerSize) 1000 none none (.ok .none),
    .startAsync false, .activate]

/-- Two requests are sent, the second is canceled, and the close waits for the first. -/
def closeWithTwoRequests : List (Event Nat) :=
  opening ++ [.sendAsyncRequest { out := 1 }, .sendAsyncRequest { out := 2 },
    .asyncRequestCanceled 2 .invocationCanceled, .close]

omit [Bzip2] in
theorem close_not_forgotten_twoRequests :
    ∃ (_ : Bzip2) (s : ConnectionI Nat), Reachable (fun s e => ¬ ForgetsClose s e) s ∧
      s.closeRequested = true ∧ s.state < .closing ∧ s.asyncRequests ≠ [] := by
  let _ : Bzip2 := .absent
  obtain ⟨s, hs, hreq, hstate⟩ := reachable_of_runEvents (fun s e => ¬ ForgetsClose s e) {}
    closeWithTwoRequests (P := fun s => s.closeRequested = true ∧ s.state < .closing)
    (by decide +kernel)
  exact ⟨.absent, s, hs, hreq, hstate, close_not_forgotten hs hreq hstate⟩

omit [Bzip2] in
/-- When the first request is canceled as well, the close is forgotten. -/
theorem close_forgotten : ∃ (_ : Bzip2) (s : ConnectionI Nat), Reachable (fun _ _ => True) s ∧
      s.closeRequested = true ∧ s.state < .closing ∧ s.asyncRequests = [] := by
  let _ : Bzip2 := .absent
  obtain ⟨s, hs, hP⟩ := reachable_of_runEvents (fun _ _ => True) {}
    (closeWithTwoRequests ++ [.asyncRequestCanceled 1 .invocationCanceled])
    (P := fun s => s.closeRequested = true ∧ s.state < .closing ∧ s.asyncRequests = [])
    (by decide +kernel)
  exact ⟨.absent, s, hs, hP⟩

end Ice.Connection
