import Ice.Pool.ThreadPool

/-!
# Leader and followers

What holds of a thread pool before it is destroyed, whatever the order of the critical sections:
there is one leader or a follower may be promoted, the numbers of threads in use are right, and
followers do not sleep when there is nobody to wake them.
-/

namespace Ice.Pool

open List Multiset

variable {η : Type}

/-! ### One thread and the others -/

theorem coe_set {α : Type} {l : List α} {i : Nat} {a : α} (h : l[i]? = some a) :
    ∃ others : Multiset α, (l : Multiset α) = a ::ₘ others ∧
      (∀ b, (l.set i b : Multiset α) = b ::ₘ others) ∧ (l.eraseIdx i : Multiset α) = others := by
  obtain ⟨hlt, hget⟩ := List.getElem?_eq_some_iff.mp h
  have hsplit : l = l.take i ++ a :: l.drop (i + 1) := by
    rw [← hget, getElem_cons_drop, take_append_drop]
  refine ⟨(l.take i ++ l.drop (i + 1) : List α), ?_, ?_, ?_⟩
  · conv_lhs => rw [hsplit]
    exact (coe_eq_coe.mpr perm_middle)
  · intro b
    rw [set_eq_take_append_cons_drop, if_pos hlt]
    exact (coe_eq_coe.mpr perm_middle)
  · rw [eraseIdx_eq_take_drop_succ]

/-- One thread that waits is woken, or there is none that waits. -/
def Notified (threads threads' : Multiset PoolThread) : Prop :=
  (threads' = threads ∧ ∀ thread ∈ threads, thread.phase ≠ .sleeping false) ∨
    ∃ leader others, threads = ⟨.sleeping false, leader⟩ ::ₘ others ∧
    threads' = ⟨.sleeping true, leader⟩ ::ₘ others

theorem notifyFirst_notified (l : List PoolThread) : Notified l (notifyFirst l) := by
  induction l with
  | nil => exact .inl ⟨rfl, nofun⟩
  | cons thread l ih =>
    rw [notifyFirst]
    by_cases hphase : thread.phase = .sleeping false
    · rw [if_pos hphase]
      refine .inr ⟨thread.leader, l, ?_, rfl⟩
      rw [← hphase]
      rfl
    · rw [if_neg hphase]
      rcases ih with ⟨heq, hnone⟩ | ⟨leader, others, hl, hnotified⟩
      · refine .inl ⟨?_, fun thread' hmem => ?_⟩
        · rw [← cons_coe, heq, cons_coe]
        · rcases mem_cons.mp hmem with rfl | hmem
          · exact hphase
          · exact hnone thread' hmem
      · refine .inr ⟨leader, thread ::ₘ others, ?_, ?_⟩
        · rw [← cons_coe, hl, cons_swap]
        · rw [← cons_coe, hnotified, cons_swap]

theorem notifyOne_notified (choice : Nat) (l : List PoolThread) :
    Notified l (notifyOne choice l) := by
  unfold notifyOne
  split
  · rename_i leader heq
    obtain ⟨others, hl, hset, -⟩ := coe_set heq
    exact .inr ⟨leader, others, hl, hset _⟩
  · exact notifyFirst_notified l

/-! ### What holds of the threads -/

/-- The number of threads that run a handler that has or has not called `ioCompleted`. -/
def busy (ioCompleted : Bool) (threads : Multiset PoolThread) : Nat :=
  threads.countP fun thread => thread.phase = .running ioCompleted

/-- The number of leaders. -/
def leaderCount (threads : Multiset PoolThread) : Nat :=
  threads.countP fun thread => thread.leader = true

/-- Which threads can be leader. With one thread at most it is always the leader when it has
    something to do. -/
def PoolThread.Valid (cfg : Config) (thread : PoolThread) : Prop :=
  match thread.phase with
  | .entering | .sleeping _ => thread.leader = false
  | .selecting => thread.leader = true
  | .running ioCompleted =>
    if 1 < cfg.sizeMax then ioCompleted = true → thread.leader = false else thread.leader = true

theorem PoolThread.Valid.of_sleeping {cfg : Config} {thread : PoolThread} (h : thread.Valid cfg)
    {notified : Bool} (hphase : thread.phase = .sleeping notified) : thread.leader = false := by
  unfold PoolThread.Valid at h
  rw [hphase] at h
  exact h

theorem PoolThread.Valid.of_selecting {cfg : Config} {thread : PoolThread} (h : thread.Valid cfg)
    (hphase : thread.phase = .selecting) : thread.leader = true := by
  unfold PoolThread.Valid at h
  rw [hphase] at h
  exact h

theorem PoolThread.Valid.of_running {cfg : Config} {thread : PoolThread}
    (h : thread.Valid cfg) {io : Bool} (hphase : thread.phase = .running io) :
    if 1 < cfg.sizeMax then io = true → thread.leader = false else thread.leader = true := by
  unfold PoolThread.Valid at h
  rw [hphase] at h
  exact h

/-- What holds of the threads and of the numbers of threads in use. `outside` is the number of
    threads that are in the section and are not among the threads; `leading` says whether the leader
    is one of them. -/
structure Counted (cfg : Config) (outside : Nat) (leading : Bool) (threads : Multiset PoolThread)
    (promote : Bool) (inUse inUseIO : Int) : Prop where
  valid : ∀ thread ∈ threads, thread.Valid cfg
  leaders : leaderCount threads + (if leading then 1 else 0) = if promote then 0 else 1
  counts : if 1 < cfg.sizeMax then inUseIO = busy false threads ∧ inUse = busy true threads
    else inUseIO = 0 ∧ inUse = 0
  bound : inUseIO ≤ cfg.sizeIO
  selecting : ∀ thread ∈ threads, thread.phase = .selecting → inUseIO = 0
  card : Multiset.card threads + outside ≤ cfg.sizeMax

section

variable {cfg : Config} {leading promote : Bool} {threads others : Multiset PoolThread}
  {inUse inUseIO : Int} {thread : PoolThread}

@[simp] theorem busy_cons (io : Bool) (thread : PoolThread) (threads : Multiset PoolThread) :
    busy io (thread ::ₘ threads) = busy io threads + if thread.phase = .running io then
      1 else 0 := by
  unfold busy
  rw [Multiset.countP_cons]

@[simp] theorem leaderCount_cons (thread : PoolThread) (threads : Multiset PoolThread) :
    leaderCount (thread ::ₘ threads) = leaderCount threads + if thread.leader = true then
      1 else 0 := by
  unfold leaderCount
  rw [Multiset.countP_cons]

theorem Counted.inUseIO_nonneg {outside : Nat}
    (h : Counted cfg outside leading threads promote inUse inUseIO) :
    0 ≤ inUseIO := by
  have hcounts := h.counts
  split_ifs at hcounts <;> omega

/-- A thread takes the mutex. What it was counted for is taken off. -/
theorem Counted.take (h : Counted cfg 0 false (thread ::ₘ others) promote inUse inUseIO)
    {inUse' inUseIO' : Int}
    (hinUse : inUse' = inUse - if 1 < cfg.sizeMax ∧ thread.phase = .running true then
      1 else 0 := by simp [*])
    (hinUseIo : inUseIO' = inUseIO - if 1 < cfg.sizeMax ∧ thread.phase = .running false then
      1 else 0 := by
      simp [*]) :
    Counted cfg 1 thread.leader others promote inUse' inUseIO' := by
  have hbound := h.bound
  refine ⟨fun other hmem => h.valid other (mem_cons_of_mem hmem), ?_, ?_, ?_, ?_, ?_⟩
  · have hleaders := h.leaders
    simpa using hleaders
  · have hcounts := h.counts
    split_ifs at hcounts ⊢ with hmax
    · rw [busy_cons, busy_cons] at hcounts
      simp only [hmax, true_and] at hinUse hinUseIo
      split_ifs at hcounts hinUse hinUseIo <;> constructor <;> push_cast at hcounts <;> omega
    · simp only [hmax, false_and, if_false, Int.sub_zero] at hinUse hinUseIo
      omega
  · split_ifs at hinUseIo <;> omega
  · intro other hmem hphase
    have hzero := h.selecting other (mem_cons_of_mem hmem) hphase
    have hcounts := h.counts
    split_ifs at hinUseIo with hrunning
    · rw [if_pos hrunning.1, busy_cons, if_pos hrunning.2] at hcounts
      omega
    · omega
  · have hcard := h.card
    rw [card_cons] at hcard
    omega

theorem Counted.put (h : Counted cfg 1 leading others promote inUse inUseIO) {promote' : Bool}
    {inUse' inUseIO' : Int} (hvalid : thread.Valid cfg)
    (hleaders : (if thread.leader = true then 1 else 0) + (if promote then 0 else 1) =
      (if leading then 1 else 0) + if promote' then 0 else 1)
    (hbound : inUseIO' ≤ cfg.sizeIO) (hselecting : thread.phase = .selecting → inUseIO = 0)
    (hleading : leading = false → inUseIO' = inUseIO)
    (hinUse : inUse' = inUse + if 1 < cfg.sizeMax ∧ thread.phase = .running true then
      1 else 0 := by simp [*])
    (hinUseIo : inUseIO' = inUseIO + if 1 < cfg.sizeMax ∧ thread.phase = .running false then
      1 else 0 := by
      simp [*]) :
    Counted cfg 0 false (thread ::ₘ others) promote' inUse' inUseIO' := by
  have hothers := h.leaders
  refine ⟨?_, ?_, ?_, hbound, ?_, ?_⟩
  · intro other hmem
    rcases mem_cons.mp hmem with rfl | hmem
    · exact hvalid
    · exact h.valid other hmem
  · rw [leaderCount_cons]
    simp only [Bool.false_eq_true, if_false]
    omega
  · have hcounts := h.counts
    split_ifs at hcounts ⊢ with hmax
    · rw [busy_cons, busy_cons]
      simp only [hmax, true_and] at hinUse hinUseIo
      split_ifs at hinUse hinUseIo ⊢ <;> constructor <;> push_cast <;> omega
    · simp only [hmax, false_and, if_false, Int.add_zero] at hinUse hinUseIo
      omega
  · intro other hmem hphase
    rcases mem_cons.mp hmem with rfl | hmem
    · rw [hinUseIo, hselecting hphase, if_neg (by rw [hphase]; simp)]
      rfl
    · -- a thread that selects is the leader
      cases leading with
      | false => rw [hleading rfl, h.selecting other hmem hphase]
      | true =>
        have hleader := (h.valid other hmem).of_selecting hphase
        have hpos : 0 < leaderCount others := countP_pos.mpr ⟨other, hmem, hleader⟩
        simp only [if_true] at hothers
        split_ifs at hothers
        all_goals omega
  · have hcard := h.card
    rw [card_cons]
    omega

theorem Counted.notified {outside : Nat}
    (h : Counted cfg outside leading threads promote inUse inUseIO)
    {threads' : Multiset PoolThread} (hnotified : Notified threads threads') :
    Counted cfg outside leading threads' promote inUse inUseIO := by
  rcases hnotified with ⟨rfl, -⟩ | ⟨leader, others, rfl, rfl⟩
  · exact h
  refine ⟨?_, ?_, ?_, h.bound, ?_, ?_⟩
  · intro thread hmem
    rcases mem_cons.mp hmem with rfl | hmem
    · exact h.valid ⟨.sleeping false, leader⟩ (mem_cons_self _ _)
    · exact h.valid thread (mem_cons_of_mem hmem)
  · have hleaders := h.leaders
    rw [leaderCount_cons] at hleaders ⊢
    exact hleaders
  · have hcounts := h.counts
    rw [busy_cons, busy_cons] at hcounts ⊢
    exact hcounts
  · intro thread hmem hphase
    rcases mem_cons.mp hmem with rfl | hmem
    · cases hphase
    · exact h.selecting thread (mem_cons_of_mem hmem) hphase
  · have hcard := h.card
    rw [card_cons] at hcard ⊢
    exact hcard

end

/-- What holds of a thread pool between two sections. -/
structure Pooled (cfg : Config) (threads : Multiset PoolThread) (promote : Bool)
    (inUse inUseIO : Int) (creationFailed failed : Bool) : Prop where
  counted : Counted cfg 0 false threads promote inUse inUseIO
  /-- if a follower sleeps, there is somebody who will wake one -/
  awake : (∃ thread ∈ threads, ∃ notified, thread.phase = .sleeping notified) →
    promote = false ∨ (∃ thread ∈ threads, thread.phase = .sleeping true) ∨ 0 < busy false threads
  /-- if all threads are in use, there cannot be more -/
  looking : (∀ thread ∈ threads, thread.phase = .running true) →
    Multiset.card threads = cfg.sizeMax ∨ creationFailed = true
  nonempty : threads ≠ 0
  assertions : failed = false

namespace ThreadPool

variable (cfg : Config) (ready : η → Bool) (choice t : Nat)

abbrev Sound (s : ThreadPool η) : Prop :=
  Pooled cfg s.threads s.promote s.inUse s.inUseIO s.creationFailed s.failed

variable {cfg} {s : ThreadPool η} {others : Multiset PoolThread}

variable (cfg) in
/-- What `promoteFollower` does. A thread that waits is woken at the latest when no handler uses its
    socket. -/
theorem promoteFollower_spec (hset : ∀ thread,
    (s.threads.set t thread : Multiset PoolThread) = thread ::ₘ others)
    (hpromote : s.promote = false) (phase : Phase) :
    ∃ threads : List PoolThread, s.promoteFollower cfg choice t phase true =
      { s with threads, promote := true } ∧
      ((threads : Multiset PoolThread) = ⟨phase, false⟩ ::ₘ others ∧ s.inUseIO ≠ 0 ∨
        Notified (⟨phase, false⟩ ::ₘ others) threads) := by
  have hassert : ({ s.assert (!s.promote && true) with promote := true } : ThreadPool η) =
    { s with promote := true } := by
    simp [assert, hpromote]
  unfold promoteFollower
  rw [hassert]
  dsimp only
  split_ifs with hnotify
  · refine ⟨_, rfl, .inr ?_⟩
    rw [← hset]
    exact notifyOne_notified choice _
  · refine ⟨_, rfl, .inl ⟨hset _, ?_⟩⟩
    intro hzero
    refine hnotify ⟨?_, .inr hzero⟩
    change s.inUseIO < _
    have hpos := cfg.sizeIO_pos
    have hzero : s.inUseIO = 0 := hzero
    omega

variable {threads : Multiset PoolThread}

/-- With a handler that still uses its socket, or after a notification, no follower sleeps for
    good. -/
theorem awake_of_notified {threads' : Multiset PoolThread} {promote : Bool}
    (hnotified : Notified threads threads')
    (hsleeping : ∃ thread ∈ threads', ∃ notified, thread.phase = .sleeping notified) :
    promote = false ∨ (∃ thread ∈ threads', thread.phase = .sleeping true) ∨
      0 < busy false threads' := by
  refine .inr (.inl ?_)
  rcases hnotified with ⟨rfl, hnone⟩ | ⟨leader, others, rfl, rfl⟩
  · obtain ⟨thread, hmem, notified, hphase⟩ := hsleeping
    cases notified with
    | false => exact absurd hphase (hnone thread hmem)
    | true => exact ⟨thread, hmem, hphase⟩
  · exact ⟨_, mem_cons_self _ _, rfl⟩

theorem busy_pos {leading promote : Bool} {outside : Nat} {inUse inUseIO : Int}
    (h : Counted cfg outside leading threads promote inUse inUseIO) (hpos : inUseIO ≠ 0) :
    0 < busy false threads := by
  have hcounts := h.counts
  split_ifs at hcounts <;> omega

section

variable (hset : ∀ thread, (s.threads.set t thread : Multiset PoolThread) = thread ::ₘ others)
include hset

/-- After a promotion all is well if it is so without it. -/
theorem promoteFollower_sound (hpromote : s.promote = false) {phase : Phase}
    (hphase : phase ≠ .running true)
    (hcounted : Counted cfg 0 false (⟨phase, false⟩ ::ₘ others) true s.inUse s.inUseIO)
    (hfailed : s.failed = false) :
    (s.promoteFollower cfg choice t phase true).Sound cfg := by
  obtain ⟨threads, heq, hthreads⟩ := promoteFollower_spec cfg choice t hset hpromote phase
  rw [heq]
  rcases hthreads with ⟨hthreads, hpos⟩ | hnotified
  · refine ⟨hthreads ▸ hcounted, fun _ => .inr (.inr ?_), ?_, ?_, hfailed⟩
    · rw [hthreads]
      exact busy_pos hcounted hpos
    · intro hall
      exact absurd (hall ⟨phase, false⟩ (hthreads ▸ mem_cons_self _ _)) hphase
    · rw [hthreads]
      exact cons_ne_zero
  · refine ⟨hcounted.notified hnotified, awake_of_notified hnotified, ?_, ?_, hfailed⟩
    · intro hall
      rcases hnotified with ⟨heq, -⟩ | ⟨leader, rest, -, heq⟩
      · exact absurd (hall ⟨phase, false⟩ (heq ▸ mem_cons_self _ _)) hphase
      · cases hall ⟨.sleeping true, leader⟩ (heq ▸ mem_cons_self _ _)
    · rcases hnotified with ⟨heq, -⟩ | ⟨leader, rest, -, heq⟩ <;> rw [heq] <;> exact cons_ne_zero

/-- The leader goes on to a phase in which it does not run a handler that has called
    `ioCompleted`. -/
theorem set_sound {phase : Phase} {leader : Bool} (hphase : phase ≠ .running true)
    (hcounted : Counted cfg 0 false (⟨phase, leader⟩ ::ₘ others) s.promote s.inUse s.inUseIO)
    (hawake : s.promote = false ∨ 0 < busy false (⟨phase, leader⟩ ::ₘ others))
    (hfailed : s.failed = false) :
    (s.set t phase leader).Sound cfg := by
  unfold Sound set
  rw [hset]
  refine ⟨hcounted, fun _ => hawake.imp id .inr, ?_, cons_ne_zero, hfailed⟩
  intro hall
  exact absurd (hall _ (mem_cons_self _ _)) hphase

theorem nextHandler_sound
    (hcounted : Counted cfg 1 true others s.promote s.inUse s.inUseIO)
    (hbound : s.inUseIO < cfg.sizeIO)
    (hfailed : s.failed = false) : (s.nextHandler cfg ready choice t true).Sound cfg := by
  have hpromote : s.promote = false := by
    have hleaders := hcounted.leaders
    cases hp : s.promote with
    | false => rfl
    | true =>
      rw [hp] at hleaders
      simp at hleaders
  have hnonneg := hcounted.inUseIO_nonneg
  unfold nextHandler
  split
  · dsimp only
    split_ifs with hpos
    · refine promoteFollower_sound (s := { s with handlers := [] }) choice t hset hpromote
        (by decide) ?_ hfailed
      refine hcounted.put rfl ?_ hcounted.bound nofun nofun
      rw [hpromote]
      rfl
    · have hzero : s.inUseIO = 0 := by
        omega
      refine set_sound (s := { s with handlers := [] }) t hset (by decide) ?_
        (.inl hpromote) hfailed
      refine hcounted.put rfl ?_ hcounted.bound (fun _ => hzero) nofun
      rw [hpromote]
  · rename_i handlers _
    dsimp only
    split_ifs with hmax hmore
    · refine promoteFollower_sound (s := { s with handlers := handlers, inUseIO := s.inUseIO + 1 })
        choice t hset hpromote (by decide) ?_ hfailed
      refine hcounted.put ?_ ?_ ?_ nofun nofun
      · simp [PoolThread.Valid]
        omega
      · rw [hpromote]
        rfl
      · change s.inUseIO + 1 ≤ _
        omega
    · refine set_sound (s := { s with handlers := handlers, inUseIO := s.inUseIO + 1 }) t hset
        (by decide) ?_ (.inl hpromote) hfailed
      refine hcounted.put ?_ ?_ ?_ nofun nofun
      · simp [PoolThread.Valid]
      · rw [hpromote]
      · change s.inUseIO + 1 ≤ _
        omega
    · refine set_sound (s := { s with handlers := handlers }) t hset (by decide) ?_
        (.inl hpromote) hfailed
      refine hcounted.put ?_ ?_ hcounted.bound nofun nofun
      · simp [PoolThread.Valid]
      · rw [hpromote]

theorem followerWait_sound
    (hcounted : Counted cfg 1 false others s.promote s.inUse s.inUseIO)
    (hfailed : s.failed = false) :
    (s.followerWait cfg ready choice t).Sound cfg := by
  unfold followerWait
  split_ifs with hwaits
  · have hput : Counted cfg 0 false (⟨.sleeping false, false⟩ ::ₘ others) s.promote s.inUse
        s.inUseIO := by
      refine hcounted.put rfl ?_ hcounted.bound nofun fun _ => rfl
      simp
    refine set_sound t hset (by decide) hput ?_ hfailed
    simp only [waits, Bool.or_eq_true, Bool.not_eq_true', decide_eq_true_eq, Bool.and_eq_true]
      at hwaits
    have hpos := cfg.sizeIO_pos
    rcases hwaits with (hpromote | hfull) | ⟨-, hio⟩
    · exact .inl hpromote
    · exact .inr (busy_pos hput (by omega))
    · exact .inr (busy_pos hput (by omega))
  · simp only [waits, Bool.or_eq_true, Bool.not_eq_true', decide_eq_true_eq, not_or] at hwaits
    obtain ⟨⟨hpromote, hfull⟩, -⟩ := hwaits
    rw [Bool.not_eq_false] at hpromote
    have hbound := hcounted.bound
    have hnone : leaderCount others = 0 := by
      have hleaders := hcounted.leaders
      rw [hpromote] at hleaders
      simpa using hleaders
    refine nextHandler_sound (s := { s with promote := false }) ready choice t hset ?_ ?_ hfailed
    · refine { hcounted with leaders := ?_ }
      rw [hnone]
      rfl
    · change s.inUseIO < _
      omega

theorem lead_sound {leader : Bool}
    (hcounted : Counted cfg 1 leader others s.promote s.inUse s.inUseIO)
    (hbound : leader = true → s.inUseIO < cfg.sizeIO) (hfailed : s.failed = false) :
    (s.lead cfg ready choice t leader).Sound cfg := by
  cases leader with
  | false => exact followerWait_sound ready choice t hset hcounted hfailed
  | true => exact nextHandler_sound ready choice t hset hcounted (hbound rfl) hfailed

end

section

variable {thread : PoolThread} (hthread : s.threads[t]? = some thread) (h : s.Sound cfg)

include hthread h

theorem runSection_sound {selected : List η} {s' : ThreadPool η}
    (hs' : s.runSection cfg ready selected choice t thread = some s') : s'.Sound cfg := by
  obtain ⟨others, hthreads, hset, -⟩ := coe_set hthread
  have hcounted := h.counted
  rw [hthreads] at hcounted
  have hvalid := hcounted.valid thread (mem_cons_self _ _)
  have hpos := cfg.sizeIO_pos
  unfold runSection at hs'
  cases hphase : thread.phase with
  | entering =>
    rw [hphase] at hs'
    cases hs'
    refine lead_sound ready choice t hset hcounted.take ?_ h.assertions
    unfold PoolThread.Valid at hvalid
    rw [hphase] at hvalid
    rw [show thread.leader = false from hvalid]
    nofun
  | running io =>
    rw [hphase] at hs'
    cases hs'
    have hvalid := hvalid.of_running hphase
    by_cases hmax : 1 < cfg.sizeMax
    · rw [if_pos hmax]
      rw [if_pos hmax] at hvalid
      have hcounts := hcounted.counts
      rw [if_pos hmax, busy_cons, busy_cons, hphase] at hcounts
      have hbound := hcounted.bound
      cases io with
      | true =>
        have hassert : s.assert ((0 : Int) < s.inUse) = s := by
          have hinUse : (0 : Int) < s.inUse := by
            simp at hcounts
            omega
          simp [assert, hinUse]
        unfold release
        rw [if_pos rfl, hassert]
        refine lead_sound (s := { s with inUse := s.inUse - 1 }) ready choice t hset hcounted.take
          ?_ h.assertions
        rw [hvalid rfl]
        nofun
      | false =>
        refine lead_sound (s := { s with inUseIO := s.inUseIO - 1 }) ready choice t hset
          hcounted.take ?_ h.assertions
        intro _
        change s.inUseIO - 1 < _
        omega
    · rw [if_neg hmax]
      rw [if_neg hmax] at hvalid
      have hcounts := hcounted.counts
      rw [if_neg hmax] at hcounts
      rw [hvalid]
      refine nextHandler_sound ready choice t hset (hvalid ▸ hcounted.take) ?_ h.assertions
      omega
  | selecting =>
    rw [hphase] at hs'
    cases hs'
    have hvalid := hvalid.of_selecting hphase
    have hzero := hcounted.selecting thread (mem_cons_self _ _) hphase
    rw [hvalid]
    refine nextHandler_sound (s := { s with handlers := selected }) ready choice t hset
      (hvalid ▸ hcounted.take) ?_ h.assertions
    change s.inUseIO < _
    omega
  | sleeping notified =>
    rw [hphase] at hs'
    cases hs'

theorem wake_sound {notified : Bool} (hphase : thread.phase = .sleeping notified) :
    (s.followerWait cfg ready choice t).Sound cfg := by
  obtain ⟨others, hthreads, hset, -⟩ := coe_set hthread
  have hcounted := h.counted
  rw [hthreads] at hcounted
  have hvalid := (hcounted.valid thread (mem_cons_self _ _)).of_sleeping hphase
  exact followerWait_sound ready choice t hset (hvalid ▸ hcounted.take) h.assertions

/-- A follower leaves the pool only if there is a leader or a thread that runs a handler. -/
theorem timeOut_sound {notified : Bool} (hphase : thread.phase = .sleeping notified) :
    (s.timeOut cfg ready choice t).Sound cfg := by
  unfold timeOut
  split_ifs with hwaits
  · obtain ⟨others, hthreads, -, herase⟩ := coe_set hthread
    have hcounted := h.counted
    rw [hthreads] at hcounted
    have hvalid := (hcounted.valid thread (mem_cons_self _ _)).of_sleeping hphase
    have htake : Counted cfg 1 false others s.promote s.inUse s.inUseIO := hvalid ▸ hcounted.take
    have hpos := cfg.sizeIO_pos
    have hawake : s.promote = false ∨ 0 < busy false others := by
      simp only [waits, Bool.or_eq_true, Bool.not_eq_true', decide_eq_true_eq, Bool.and_eq_true]
        at hwaits
      rcases hwaits with (hpromote | hfull) | ⟨-, hio⟩
      · exact .inl hpromote
      · exact .inr (busy_pos htake (by omega))
      · exact .inr (busy_pos htake (by omega))
    -- another thread is the leader or runs a handler that has not called ioCompleted
    obtain ⟨other, hmem, hother⟩ : ∃ other ∈ others, other.phase ≠ .running true := by
      rcases hawake with hpromote | hbusy
      · have hleaders := htake.leaders
        rw [hpromote] at hleaders
        have hcount : 0 < leaderCount others := by
          simp at hleaders
          omega
        obtain ⟨other, hmem, hleader⟩ := countP_pos.mp hcount
        refine ⟨other, hmem, fun hrunning => ?_⟩
        have hvalid := (htake.valid other hmem).of_running hrunning
        split_ifs at hvalid with hmax
        · rw [hvalid rfl] at hleader
          cases hleader
        · have hcard := htake.card
          have hone : 0 < card others := card_pos_iff_exists_mem.mpr ⟨other, hmem⟩
          omega
      · obtain ⟨other, hmem, hrunning⟩ := countP_pos.mp hbusy
        refine ⟨other, hmem, ?_⟩
        rw [show other.phase = .running false from hrunning]
        decide
    have hlength : 1 < s.threads.length := by
      have hcard := congrArg card hthreads
      rw [coe_card, card_cons] at hcard
      have hone : 0 < card others := card_pos_iff_exists_mem.mpr ⟨other, hmem⟩
      omega
    unfold Sound
    rw [herase]
    refine ⟨{ htake with card := ?_ }, fun _ => hawake.imp id .inr, ?_,
      ?_, ?_⟩
    · have hcard := htake.card
      omega
    · exact fun hall => absurd (hall other hmem) hother
    · rintro rfl
      exact absurd hmem (notMem_zero other)
    · simp [assert, hlength, h.assertions]
  · exact wake_sound ready choice t hthread h hphase

end

theorem busy_le_card (io : Bool) (threads : Multiset PoolThread) : busy io threads ≤ card threads :=
  countP_le_card _ threads

theorem grow_sound (created : Bool) (hmax : 1 < cfg.sizeMax)
    (hcounted : Counted cfg 0 false s.threads s.promote s.inUse s.inUseIO)
    (hawake : (∃ thread ∈ (s.threads : Multiset PoolThread), ∃ notified,
      thread.phase = .sleeping notified) →
      s.promote = false ∨ (∃ thread ∈ (s.threads : Multiset PoolThread),
        thread.phase = .sleeping true) ∨
        0 < busy false s.threads)
    (hne : (s.threads : Multiset PoolThread) ≠ 0) (hfailed : s.failed = false) :
    (s.grow cfg created).Sound cfg := by
  have hcounts := hcounted.counts
  rw [if_pos hmax] at hcounts
  unfold grow
  split_ifs with hgrow hcreated
  · obtain ⟨hlt, heq⟩ := hgrow
    have hthreads : (↑(s.threads ++ [({} : PoolThread)]) : Multiset PoolThread) =
        {} ::ₘ ↑s.threads := by
      rw [← Multiset.coe_add, Multiset.coe_singleton, Multiset.add_comm, Multiset.singleton_add]
    unfold Sound
    rw [hthreads]
    refine ⟨⟨?_, ?_, ?_, hcounted.bound, ?_, ?_⟩, ?_, ?_, cons_ne_zero, hfailed⟩
    · intro thread hmem
      rcases Multiset.mem_cons.mp hmem with rfl | hmem
      · rfl
      · exact hcounted.valid thread hmem
    · rw [leaderCount_cons]
      exact hcounted.leaders
    · rw [if_pos hmax, busy_cons, busy_cons]
      exact hcounts
    · intro thread hmem hphase
      rcases Multiset.mem_cons.mp hmem with rfl | hmem
      · cases hphase
      · exact hcounted.selecting thread hmem hphase
    · rw [card_cons, coe_card]
      omega
    · rintro ⟨thread, hmem, notified, hphase⟩
      rcases Multiset.mem_cons.mp hmem with rfl | hmem
      · cases hphase
      · refine (hawake ⟨thread, hmem, notified, hphase⟩).imp id (.imp ?_ ?_)
        · exact fun ⟨other, hmem, hphase⟩ => ⟨other, mem_cons_of_mem hmem, hphase⟩
        · intro hbusy
          rw [busy_cons]
          exact Nat.lt_of_lt_of_le hbusy (Nat.le_add_right _ _)
    · intro hall
      cases hall {} (mem_cons_self _ _)
  · refine ⟨hcounted, hawake, fun _ => .inr ?_, hne, hfailed⟩
    simpa using hcreated
  · refine ⟨hcounted, hawake, fun hall => .inl ?_, hne, hfailed⟩
    have hbusy : busy true _ = _ := countP_eq_card.mpr hall
    have hcard := hcounted.card
    rw [coe_card] at hbusy hcard ⊢
    by_contra hlt
    exact hgrow ⟨by omega, by omega⟩

variable (cfg) in
/-- The first part of `ioCompleted`: a follower is promoted or woken. -/
theorem ioCompleted_spec {leader : Bool} {promote : Bool}
    (hset : ∀ thread, (s.threads.set t thread : Multiset PoolThread) = thread ::ₘ others)
    (hpromote : leader = true → s.promote = false) (hp : promote = (leader || s.promote)) :
    ∃ threads : List PoolThread, (if leader then s.promoteFollower cfg choice t (.running true) true
      else if s.promote ∧ (s.handlers ≠ [] ∨ s.inUseIO = 0) then
        (s.set t (.running true) false).notify choice
      else s.set t (.running true) false) = { s with threads, promote } ∧
      ((threads : Multiset PoolThread) = ⟨.running true, false⟩ ::ₘ others ∧
        (promote = false ∨ s.inUseIO ≠ 0) ∨
        Notified (⟨.running true, false⟩ ::ₘ others) threads) := by
  cases leader with
  | true =>
    obtain ⟨threads, heq, hthreads⟩ :=
      promoteFollower_spec cfg choice t hset (hpromote rfl) (.running true)
    subst hp
    exact ⟨threads, heq, hthreads.imp (fun h => ⟨h.1, .inr h.2⟩) id⟩
  | false =>
    rw [Bool.false_or] at hp
    subst hp
    simp only [Bool.false_eq_true, if_false]
    split_ifs with hnotify
    · refine ⟨_, rfl, .inr ?_⟩
      rw [← hset]
      exact notifyOne_notified choice _
    · refine ⟨_, rfl, .inl ⟨hset _, ?_⟩⟩
      by_contra hnot
      rw [not_or, Bool.not_eq_false, not_not] at hnot
      exact hnotify ⟨hnot.1, .inr hnot.2⟩

theorem ioCompleted_sound {leader : Bool} (hthread : s.threads[t]? = some ⟨.running false, leader⟩)
    (h : s.Sound cfg) (created : Bool) : (s.ioCompleted cfg created choice t leader).Sound cfg := by
  obtain ⟨others, hthreads, hset, -⟩ := coe_set hthread
  have hcounted := h.counted
  rw [hthreads] at hcounted
  have hvalid := (hcounted.valid _ (mem_cons_self _ _)).of_running rfl
  have hcounts := hcounted.counts
  have hbound := hcounted.bound
  have hleaders := hcounted.leaders
  rw [leaderCount_cons] at hleaders
  unfold ioCompleted
  by_cases hmax : 1 < cfg.sizeMax
  · rw [if_pos hmax]
    rw [if_pos hmax, busy_cons, busy_cons] at hcounts
    have hpromote : leader = true → s.promote = false := by
      rintro rfl
      cases hp : s.promote with
      | false => rfl
      | true =>
        rw [hp] at hleaders
        simp at hleaders
    have htake : Counted cfg 1 leader others s.promote s.inUse (s.inUseIO - 1) := hcounted.take
    have hput : Counted cfg 0 false (⟨.running true, false⟩ ::ₘ others) (leader || s.promote)
        (s.inUse + 1) (s.inUseIO - 1) := by
      refine htake.put ?_ ?_ htake.bound nofun fun _ => rfl
      · simp [PoolThread.Valid, hmax]
      · cases leader with
        | false => simp
        | true => simp [hpromote rfl]
    obtain ⟨threads, heq, hnotified⟩ := ioCompleted_spec cfg choice t
      (s := { s with inUseIO := s.inUseIO - 1 })
      hset hpromote rfl
    dsimp only at heq ⊢
    rw [heq]
    have hall : Counted cfg 0 false threads (leader || s.promote) (s.inUse + 1)
        (s.inUseIO - 1) := by
      rcases hnotified with ⟨hthreads, -⟩ | hnotified
      · rw [hthreads]
        exact hput
      · exact hput.notified hnotified
    have hle : (s.inUse + 1 : Int) ≤ threads.length := by
      have hcounts := hall.counts
      rw [if_pos hmax] at hcounts
      have hcard := busy_le_card true ↑threads
      rw [coe_card] at hcard
      omega
    refine grow_sound created hmax hall ?_ ?_ ?_
    · intro hsleeping
      rcases hnotified with ⟨hthreads, hawake⟩ | hnotified
      · exact hawake.imp id fun hne => .inr (busy_pos hall hne)
      · exact awake_of_notified hnotified hsleeping
    · change (threads : Multiset PoolThread) ≠ 0
      rcases hnotified with ⟨hthreads, -⟩ | ⟨hthreads, -⟩ | ⟨_, _, -, hthreads⟩ <;>
        rw [hthreads] <;>
        exact cons_ne_zero
    · have hnonneg : (0 : Int) ≤ s.inUse := by omega
      simp [assert, h.assertions, hnonneg, hle]
  · rw [if_neg hmax]
    rw [if_neg hmax] at hvalid
    subst hvalid
    have htake : Counted cfg 1 true others s.promote s.inUse s.inUseIO := hcounted.take
    have hput :
        Counted cfg 0 false (⟨.running true, true⟩ ::ₘ others) s.promote s.inUse s.inUseIO := by
      refine htake.put ?_ ?_ htake.bound nofun fun _ => rfl
      · simp [PoolThread.Valid, hmax]
      · simp
    have hcard := hput.card
    rw [card_cons] at hcard
    unfold Sound set
    rw [hset]
    refine ⟨hput, ?_, fun _ => .inl ?_, cons_ne_zero, h.assertions⟩
    · rintro ⟨thread, hmem, notified, hphase⟩
      rcases mem_cons.mp hmem with rfl | hmem
      · cases hphase
      · have hpos : 0 < card others := card_pos_iff_exists_mem.mpr ⟨thread, hmem⟩
        omega
    · rw [card_cons]
      omega

theorem step_sound {e : PoolEvent η} {s' : ThreadPool η} (h : s.Sound cfg)
    (hstep : step cfg e s = some s') :
    s'.Sound cfg := by
  cases e with
  | run t ready selected choice =>
    simp only [step] at hstep
    split at hstep
    · rename_i thread hthread
      exact runSection_sound ready choice t hthread h hstep
    · cases hstep
  | wake t ready choice =>
    simp only [step] at hstep
    split at hstep
    · rename_i hthread
      cases hstep
      exact wake_sound ready choice t hthread h rfl
    · cases hstep
  | timeOut t ready choice =>
    simp only [step] at hstep
    split at hstep
    · rename_i hthread
      cases hstep
      exact timeOut_sound ready choice t hthread h rfl
    · cases hstep
  | ioCompleted t created choice =>
    simp only [step] at hstep
    split at hstep
    · rename_i hthread
      cases hstep
      exact ioCompleted_sound choice t hthread h created
    · cases hstep

theorem initial_sound (cfg : Config) : (initial cfg : ThreadPool η).Sound cfg := by
  unfold Sound initial
  dsimp only
  have hpos := cfg.size_pos
  have hlength : (List.replicate cfg.size ({} : PoolThread)).length = cfg.size :=
    List.length_replicate
  have hmem : ∀ thread ∈ List.replicate cfg.size ({} : PoolThread), thread = {} :=
    fun thread hmem => List.eq_of_mem_replicate hmem
  obtain ⟨first, hfirst⟩ : ∃ thread, thread ∈ List.replicate cfg.size ({} : PoolThread) :=
    exists_mem_of_length_pos (by omega)
  generalize List.replicate cfg.size ({} : PoolThread) = l at *
  have hzero : ∀ io, busy io ↑l = 0 := by
    intro io
    unfold busy
    rw [Multiset.countP_eq_zero]
    intro thread ht
    rw [hmem thread (mem_coe.mp ht)]
    nofun
  refine ⟨⟨?_, ?_, ?_, Int.natCast_nonneg _, fun _ _ _ => rfl, ?_⟩, ?_, ?_, ?_, rfl⟩
  · intro thread ht
    rw [hmem thread (mem_coe.mp ht)]
    rfl
  · simp only [Bool.false_eq_true, if_false, Nat.add_zero, if_true]
    unfold leaderCount
    rw [Multiset.countP_eq_zero]
    intro thread ht
    rw [hmem thread (mem_coe.mp ht)]
    nofun
  · rw [hzero, hzero]
    split_ifs <;> exact ⟨rfl, rfl⟩
  · rw [coe_card, hlength]
    exact cfg.size_le
  · rintro ⟨thread, ht, notified, hphase⟩
    rw [hmem thread (mem_coe.mp ht)] at hphase
    cases hphase
  · intro hall
    have hphase := hall first (mem_coe.mpr hfirst)
    rw [hmem first hfirst] at hphase
    cases hphase
  · rintro heq
    rw [coe_eq_zero] at heq
    rw [heq] at hfirst
    cases hfirst

theorem run_sound {events : List (PoolEvent η)} {s s' : ThreadPool η} (h : s.Sound cfg)
    (hrun : run cfg events s = some s') : s'.Sound cfg := by
  induction events generalizing s with
  | nil =>
    cases hrun
    exact h
  | cons e events ih =>
    obtain ⟨s1, hstep, hrest⟩ := Option.bind_eq_some_iff.mp hrun
    exact ih (step_sound h hstep) hrest

/-- There is one leader or a follower may be promoted; the numbers of threads in use are right; the
    pool is never empty; a follower sleeps only if there is a leader, a follower that was notified,
    or a thread that runs a handler that has not called `ioCompleted`; and if all threads run
    handlers that have called it, there are as many as there can be or the last attempt to create
    one has failed. -/
structure Correct (cfg : Config) (s : ThreadPool η) : Prop where
  leader : s.threads.countP (·.leader) ≤ 1 ∧
    (s.promote = true ↔ ∀ thread ∈ s.threads, thread.leader = false)
  counts : 1 < cfg.sizeMax → s.inUseIO = s.threads.countP (·.phase = .running false) ∧
    s.inUse = s.threads.countP (·.phase = .running true) ∧ 0 ≤ s.inUseIO ∧ s.inUseIO ≤ cfg.sizeIO ∧
      s.inUse ≤ s.threads.length ∧ s.threads.length ≤ cfg.sizeMax
  remains : s.threads ≠ []
  awake : (∃ thread ∈ s.threads, ∃ notified, thread.phase = .sleeping notified) →
    (∃ thread ∈ s.threads, thread.leader = true) ∨
    (∃ thread ∈ s.threads, thread.phase = .sleeping true) ∨
      ∃ thread ∈ s.threads, thread.phase = .running false
  looking : (∀ thread ∈ s.threads, thread.phase = .running true) →
    s.threads.length = cfg.sizeMax ∨ s.creationFailed = true
  assertions : s.failed = false

theorem Sound.correct (h : s.Sound cfg) : s.Correct cfg := by
  have hleaders := h.counted.leaders
  simp only [Bool.false_eq_true, if_false, Nat.add_zero] at hleaders
  have hcount : leaderCount s.threads = s.threads.countP (·.leader) := by
    unfold leaderCount
    simp
  have hleader : s.promote = false → ∃ thread ∈ s.threads, thread.leader = true := by
    intro hpromote
    rw [hpromote, hcount] at hleaders
    have hpos : 0 < s.threads.countP (·.leader) := by
      simp at hleaders
      omega
    exact countP_pos_iff.mp hpos
  refine ⟨⟨?_, ?_, ?_⟩, ?_, ?_, ?_, h.looking, h.assertions⟩
  · rw [← hcount, hleaders]
    split_ifs <;> omega
  · intro hpromote
    rw [hpromote, hcount] at hleaders
    intro thread hmem
    simpa using countP_eq_zero.mp hleaders thread hmem
  · intro hnone
    by_contra hpromote
    obtain ⟨thread, hmem, hthread⟩ := hleader (by simpa using hpromote)
    rw [hnone thread hmem] at hthread
    cases hthread
  · intro hmax
    have hcounts := h.counted.counts
    have hcard := h.counted.card
    have hle := busy_le_card true ↑s.threads
    rw [if_pos hmax] at hcounts
    rw [coe_card] at hcard hle
    refine ⟨hcounts.1, hcounts.2, h.counted.inUseIO_nonneg, h.counted.bound, ?_, by omega⟩
    omega
  · intro heq
    exact h.nonempty (by rw [heq]; rfl)
  · rintro hsleeping
    rcases h.awake hsleeping with hpromote | hnotified | hbusy
    · exact .inl (hleader hpromote)
    · exact .inr (.inl hnotified)
    · exact .inr (.inr (countP_pos.mp hbusy))

/-- Before it is destroyed, a thread pool has a thread that looks for work, or as many threads as it
    can have. -/
theorem has_leader (cfg : Config) {events : List (PoolEvent η)} {s : ThreadPool η}
    (h : run cfg events (initial cfg) = some s) : s.Correct cfg :=
  Sound.correct (run_sound (initial_sound cfg) h)

/-- One thread, two at most. -/
def growing : Config := ⟨1, 2, 1, by decide, by decide, by decide, by decide⟩

/-- The thread takes a handler that calls `ioCompleted`, and the thread that is created then
    selects. -/
theorem has_leader_growing : ∃ s : ThreadPool Unit, run growing
    [.run 0 (fun _ => true) [] 0, .run 0 (fun _ => true) [(), ()] 0, .ioCompleted 0 true 0,
      .run 1 (fun _ => true) [] 0, .run 0 (fun _ => true) [] 0, .timeOut 0 (fun _ => true) 0]
    (initial growing) = some s ∧ s.threads = [⟨.running false, true⟩] ∧ s.Correct growing := by
  refine Exists.imp (fun s hs => ⟨hs, ?_⟩) (Option.isSome_iff_exists.mp rfl)
  have hcorrect := has_leader growing hs
  cases hs
  exact ⟨rfl, hcorrect⟩

/-- No thread can be created when the only one is in use: none looks for work although there could
    be two. -/
theorem creation_failed : ∃ s : ThreadPool Unit, run growing
    [.run 0 (fun _ => true) [] 0, .run 0 (fun _ => true) [()] 0, .ioCompleted 0 false 0]
    (initial growing) = some s ∧
      (∀ thread ∈ s.threads, thread.phase = .running true) ∧ s.threads.length < growing.sizeMax :=
  ⟨_, rfl, by decide, by decide⟩

end ThreadPool

end Ice.Pool
