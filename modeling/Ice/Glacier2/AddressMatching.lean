import Ice.Glacier2.AddressLanguage

/-!
# The search of the address filters

What each matcher takes off the host, as a relation between the text before and behind it. A matcher
and its retries offer exactly the positions behind these texts, so that the search of `matchAddress`
decides whether the matchers take the host one behind the other.
-/

namespace Ice.Glacier2

open Misc List Option AddressMatcher

variable {host : Text} {pos : Nat}

/-- A number of the group is behind a text that does not end with a digit. -/
def Skips (g : Group) (h rest : Text) : Prop :=
  ∃ s run, h = s ++ (run ++ rest) ∧ ¬ EndsWithDigit s ∧ Digits run ∧ ¬ StartsWithDigit rest ∧
    g.contains (decimal run) = true

/-- What a matcher takes off a text of the host. -/
def AddressMatcher.Takes (host : Text) : AddressMatcher → Text → Text → Prop
  | matchesAny, _, rest => rest = []
  | startsWithString criteria, h, rest => h = host ∧ h = criteria ++ rest
  | endsWithString criteria, h, rest => criteria <:+ h ∧ rest = []
  | matchesString criteria, h, rest => h = criteria ++ rest
  | containsString criteria, h, rest => ∃ s, h = s ++ (criteria ++ rest)
  | matchesNumber g, h, rest =>
    ∃ number v, h = number ++ rest ∧ Numeral number v ∧ ¬ StartsWithDigit rest ∧
      g.contains v = true
  | containsNumberMatch g, h, rest => Skips g h rest

/-- The matchers that the parser makes. -/
def AddressMatcher.WellFormed : AddressMatcher → Prop
  | containsString criteria => criteria ≠ []
  | matchesNumber g => ∀ v, g.contains v = true → FitsInt v
  | containsNumberMatch g => ∀ v, g.contains v = true → FitsInt v
  | _ => True

/-! ## Positions and texts -/

variable {s : Text}

theorem drop_of_append {host : Text} {pos : Nat} {t : Text} (h : host.drop pos = s ++ t) :
    host.drop (pos + s.length) = t := by
  rw [← drop_drop, h, drop_left]

theorem length_of_drop (hpos : pos ≤ host.length) {t : Text} (h : host.drop pos = s ++ t) :
    pos + s.length + t.length = host.length := by
  have hlength := congrArg length h
  simp only [length_drop, length_append] at hlength
  omega

/-! ## Strings -/

variable {criteria : Text}

/-- The occurrence that is found is the first one. -/
theorem findText_eq_some {i : Nat} (h : findText criteria s = some i) :
    (∃ t, s.drop i = criteria ++ t) ∧ ∀ t t', s = t ++ (criteria ++ t') → i ≤ t.length := by
  induction s generalizing i with
  | nil =>
    rw [findText] at h
    split_ifs at h with hnil
    cases h
    exact ⟨⟨[], by simp [hnil]⟩, fun _ _ _ => Nat.zero_le _⟩
  | cons c s ih =>
    rw [findText] at h
    split_ifs at h with hprefix
    · cases h
      obtain ⟨t, ht⟩ := hprefix
      exact ⟨⟨t, ht.symm⟩, fun _ _ _ => Nat.zero_le _⟩
    · obtain ⟨i, hi, rfl⟩ := map_eq_some_iff.mp h
      obtain ⟨hoccurs, hfirst⟩ := ih hi
      refine ⟨hoccurs, fun t t' heq => ?_⟩
      cases t with
      | nil => exact absurd ⟨t', heq.symm⟩ hprefix
      | cons d t =>
        have := hfirst t t' (cons_eq_cons.mp heq).2
        simpa using this

theorem findText_eq_none (h : findText criteria s = none) (t t' : Text) :
    s ≠ t ++ (criteria ++ t') := by
  induction s generalizing t with
  | nil =>
    rw [findText] at h
    split_ifs at h with hnil
    simp [hnil]
  | cons c s ih =>
    rw [findText] at h
    split_ifs at h with hprefix
    intro heq
    cases t with
    | nil => exact hprefix ⟨t', heq.symm⟩
    | cons d t => exact ih (map_eq_none_iff.mp h) t (cons_eq_cons.mp heq).2

/-- Behind the first occurrence come the occurrences from the next character on. -/
theorem findText_occurrences {i : Nat} (h : findText criteria s = some i) (rest : Text) :
    (∃ t, s = t ++ (criteria ++ rest)) ↔
      rest = s.drop (i + criteria.length) ∨ ∃ t, s.drop (i + 1) = t ++ (criteria ++ rest) := by
  obtain ⟨⟨tail, htail⟩, hfirst⟩ := findText_eq_some h
  constructor
  · rintro ⟨t, ht⟩
    rcases Nat.eq_or_lt_of_le (hfirst t rest ht) with hi | hi
    · refine .inl ?_
      rw [ht, hi, ← drop_drop, drop_left, drop_left]
    · refine .inr ⟨t.drop (i + 1), ?_⟩
      rw [ht, drop_append_of_le_length (by omega)]
  · rintro (rfl | ⟨t, ht⟩)
    · refine ⟨s.take i, ?_⟩
      rw [← drop_drop, htail, drop_left, ← htail, take_append_drop]
    · refine ⟨s.take (i + 1) ++ t, ?_⟩
      rw [append_assoc, ← ht, take_append_drop]

/-! ## Numbers -/

@[simp] theorem not_endsWithDigit_nil : ¬ EndsWithDigit [] := by
  simp [EndsWithDigit]

theorem endsWithDigit_append (s t : Text) :
    EndsWithDigit (s ++ t) ↔ EndsWithDigit t ∨ t = [] ∧ EndsWithDigit s := by
  rcases t.eq_nil_or_concat with rfl | ⟨t, c, rfl⟩
  · simp
  · simp [EndsWithDigit, ← append_assoc]

theorem endsWithDigit_of_digits (h : Digits s) : EndsWithDigit s :=
  ⟨s.getLast h.1, getLast?_eq_some_getLast h.1, h.2 _ (getLast_mem h.1)⟩

variable {rest : Text}

theorem digits_append_inj {run run' rest' : Text} (hrun : Digits run)
    (hrest : ¬ StartsWithDigit rest)
    (hrun' : Digits run') (hrest' : ¬ StartsWithDigit rest') (h : run ++ rest = run' ++ rest') :
    run = run' ∧ rest = rest' := by
  have htake := (hrun.takeWhile hrest).1
  have hdrop := (hrun.takeWhile hrest).2
  rw [h, (hrun'.takeWhile hrest').1] at htake
  rw [h, (hrun'.takeWhile hrest').2] at hdrop
  exact ⟨htake.symm, hdrop.symm⟩

/-- A number that is read at a run of digits is that run. -/
theorem eq_of_run {number run rest' : Text} {v : Int} (h : Numeral number v)
    (hrest' : ¬ StartsWithDigit rest')
    (hrun : Digits run) (hrest : ¬ StartsWithDigit rest) (heq : number ++ rest' = run ++ rest) :
    number = run ∧ rest' = rest ∧ v = decimal run := by
  have hdigit := hrun.startsWithDigit rest
  rw [← heq] at hdigit
  cases h with
  | plain hdigits =>
    obtain ⟨rfl, rfl⟩ := digits_append_inj hdigits hrest' hrun hrest heq
    exact ⟨rfl, rfl, rfl⟩
  | plus | minus => simp [Char.isDigit] at hdigit

variable {g : Group}

theorem skips_append (hs : ∀ c ∈ s, c.isDigit = false) (h rest : Text) :
    Skips g (s ++ h) rest ↔ Skips g h rest := by
  induction s with
  | nil => rfl
  | cons c s ih =>
    have hc : c.isDigit = false := hs c mem_cons_self
    rw [← ih fun d hd => hs d (mem_cons_of_mem _ hd)]
    constructor
    · rintro ⟨t, run, heq, ht, hrun, hrest, hcontains⟩
      cases t with
      | nil =>
        have hdigit := hrun.startsWithDigit rest
        rw [← nil_append (run ++ rest), ← heq, cons_append, startsWithDigit_cons, hc] at hdigit
        cases hdigit
      | cons d t =>
        obtain ⟨rfl, htail⟩ := cons_eq_cons.mp heq
        exact ⟨t, run, htail, fun hends => ht ((endsWithDigit_append [c] t).mpr (.inl hends)), hrun,
          hrest, hcontains⟩
    · rintro ⟨t, run, heq, ht, hrun, hrest, hcontains⟩
      refine ⟨c :: t, run,
        by rw [cons_append, heq, cons_append], fun hends => ?_, hrun, hrest, hcontains⟩
      rcases (endsWithDigit_append [c] t).mp hends with hends | ⟨-, hends⟩
      · exact ht hends
      · simp [EndsWithDigit, hc] at hends

/-- A run of digits is taken as a whole, or skipped as a whole. -/
theorem skips_run {run : Text} (hrun : Digits run) (hrest : ¬ StartsWithDigit rest) (rest' : Text) :
    Skips g (run ++ rest) rest' ↔
      (g.contains (decimal run) = true ∧ rest' = rest) ∨ Skips g rest rest' := by
  constructor
  · rintro ⟨s, run', heq, hs, hrun', hrest', hcontains⟩
    rcases append_eq_append_iff.mp heq with ⟨t, rfl, ht⟩ | ⟨t, rfl, ht⟩
    · exact .inr ⟨t, run', ht, fun hends =>
        hs ((endsWithDigit_append run t).mpr (.inl hends)), hrun', hrest', hcontains⟩
    · -- the skipped text lies in the run, so it is empty
      have hnil : s = [] := by
        by_contra hne
        exact hs (endsWithDigit_of_digits ⟨hne, fun c hc => hrun.2 c (mem_append_left _ hc)⟩)
      subst hnil
      obtain ⟨rfl, rfl⟩ := digits_append_inj hrun' hrest' (by simpa using hrun) hrest ht
      exact .inl ⟨hcontains, rfl⟩
  · rintro (⟨hcontains, rfl⟩ | ⟨s, run', rfl, hs, hrun', hrest', hcontains⟩)
    · exact ⟨[], run, rfl, not_endsWithDigit_nil, hrun, hrest, hcontains⟩
    · refine ⟨run ++ s, run', by rw [append_assoc], fun hends => ?_, hrun', hrest', hcontains⟩
      rcases (endsWithDigit_append run s).mp hends with hends | ⟨rfl, -⟩
      · exact hs hends
      · exact hrest (hrun'.startsWithDigit rest')

theorem not_skips_nil : ¬ Skips g [] rest := by
  rintro ⟨s, run, heq, -, hrun, -⟩
  have hnil : s = [] ∧ run = [] ∧ rest = [] := by simpa using heq.symm
  exact hrun.1 hnil.2.1

theorem first_run (h : Text) : (∀ c ∈ h, c.isDigit = false) ∨
      ∃ s run rest, h = s ++ (run ++ rest) ∧ (∀ c ∈ s, c.isDigit = false) ∧ Digits run ∧
        ¬ StartsWithDigit rest := by
  induction h with
  | nil => simp
  | cons c h ih =>
    by_cases hc : c.isDigit = true
    · refine .inr ⟨[], (c :: h).takeWhile Char.isDigit, (c :: h).dropWhile Char.isDigit,
        ?_, by simp, digits_takeWhile (by simp [hc]), not_startsWithDigit_dropWhile _⟩
      rw [nil_append, takeWhile_append_dropWhile]
    · have hc : c.isDigit = false := by simpa using hc
      rcases ih with hnone | ⟨s, run, rest, rfl, hs, hrun, hrest⟩
      · exact .inl (by simpa [hc] using hnone)
      · exact .inr ⟨c :: s, run, rest, rfl, by simpa [hc] using hs, hrun, hrest⟩

theorem findFirst_none {p : Char → Bool} (h : ∀ c ∈ host.drop pos, p c = false) :
    findFirst p host pos = none := by
  simpa [findFirst, findIdx?_eq_none_iff] using h

theorem findFirst_some {p : Char → Bool} {t : Text} {c : Char} (h : host.drop pos = s ++ c :: t)
    (hs : ∀ d ∈ s, p d = false) (hc : p c = true) :
    findFirst p host pos = some (pos + s.length) := by
  have hnone : s.findIdx? p = none := findIdx?_eq_none_iff.mpr hs
  simp [findFirst, h, findIdx?_append, hnone, findIdx?_cons, hc]

/-- The search for a character that is no digit skips a run, from its start or from its end. -/
theorem findFirst_run {run : Text} {p : Nat} (h : host.drop pos = run ++ rest) (hrun : Digits run)
    (hrest : ¬ StartsWithDigit rest) (hp : p = pos ∨ p = pos + run.length) :
    findFirst (!·.isDigit) host p = if rest = [] then none else some (pos + run.length) := by
  have hbehind := drop_of_append h
  have hdigits : ∀ c ∈ run, (!c.isDigit) = false := fun c hc => by simp [hrun.2 c hc]
  cases rest with
  | nil =>
    rcases hp with rfl | rfl
    · exact findFirst_none (by rw [h, append_nil]; exact hdigits)
    · exact findFirst_none (by simp [hbehind])
  | cons d rest =>
    have hd : (!d.isDigit) = true := by simpa using hrest
    rcases hp with rfl | rfl
    · exact findFirst_some h hdigits hd
    · rw [findFirst_some (s := []) hbehind (by simp) hd]
      rfl

theorem Group.match_of_readInt (g : Group) (hpos : pos ≤ host.length) {number : Text} {v : Int}
    (h : host.drop pos = number ++ rest) (hread : readInt (host.drop pos) = some (v, rest)) :
    g.match host pos = (g.contains v, pos + number.length) := by
  have hlength := length_of_drop hpos h
  rw [Group.match, hread]
  dsimp only
  split_ifs with hend
  · subst hend
    simp at hlength
    rw [hlength]
  · rw [h]
    simp

section Group

variable {g : Group} (hg : ∀ v, g.contains v = true → FitsInt v)
  (hspace : ∀ c ∈ host, isSpace c = false)

include hspace

theorem isSpace_drop (c : Char) (hc : c ∈ host.drop pos) : isSpace c = false :=
  hspace c (mem_of_mem_drop hc)

/-- A run of digits that is none of the group's leaves the position at the run, when the number does
    not fit, or behind it. -/
theorem Group.match_run_false (hpos : pos ≤ host.length) {run rest : Text}
    (h : host.drop pos = run ++ rest) (hrun : Digits run) (hrest : ¬ StartsWithDigit rest)
    (hcontains : g.contains (decimal run) = false) :
    g.match host pos = (false, pos) ∨ g.match host pos = (false, pos + run.length) := by
  cases hread : readInt (host.drop pos) with
  | none =>
    rw [Group.match, hread]
    exact .inl rfl
  | some result =>
    obtain ⟨v, rest'⟩ := result
    obtain ⟨number, hdrop, hnumber, hrest', -⟩ :=
      (readInt_eq_some_iff (isSpace_drop hspace)).mp hread
    obtain ⟨rfl, rfl, rfl⟩ := eq_of_run hnumber hrest' hrun hrest (hdrop ▸ h)
    rw [g.match_of_readInt hpos hdrop hread, hcontains]
    exact .inr rfl

include hg

theorem Group.match_eq_iff (hpos : pos ≤ host.length) (q : Nat) : g.match host pos = (true, q) ↔
      ∃ number v rest, host.drop pos = number ++ rest ∧ Numeral number v ∧ ¬ StartsWithDigit rest ∧
        g.contains v = true ∧ q = pos + number.length := by
  constructor
  · intro h
    cases hread : readInt (host.drop pos) with
    | none =>
      rw [Group.match, hread] at h
      cases h
    | some result =>
      obtain ⟨v, rest⟩ := result
      obtain ⟨number, hdrop, hnumber, hrest, -⟩ :=
        (readInt_eq_some_iff (isSpace_drop hspace)).mp hread
      rw [g.match_of_readInt hpos hdrop hread, Prod.mk.injEq] at h
      exact ⟨number, v, rest, hdrop, hnumber, hrest, h.1, h.2.symm⟩
  · rintro ⟨number, v, rest, hdrop, hnumber, hrest, hcontains, rfl⟩
    have hread : readInt (host.drop pos) = some (v, rest) :=
      (readInt_eq_some_iff (isSpace_drop hspace)).mpr
        ⟨number, hdrop, hnumber, hrest, hg v hcontains⟩
    rw [g.match_of_readInt hpos hdrop hread, hcontains]

/-- The first run of digits that the group has, and what comes behind it. -/
theorem Group.search_spec {fuel : Nat} (hpos : pos ≤ host.length)
    (hfuel : host.length - pos < fuel) :
    (∀ rest, g.search host fuel pos = none → ¬ Skips g (host.drop pos) rest) ∧
      ∀ q, g.search host fuel pos = some q → pos < q ∧ q ≤ host.length ∧
        ∀ rest, Skips g (host.drop pos) rest ↔ rest = host.drop q ∨ Skips g (host.drop q) rest := by
  induction fuel generalizing pos with
  | zero => omega
  | succ fuel ih =>
    rw [Group.search]
    rcases first_run (host.drop pos) with hnone | ⟨s, run, rest, hdrop, hs, hrun, hrest⟩
    · rw [findFirst_none hnone]
      refine ⟨fun rest _ => ?_, nofun⟩
      rw [← append_nil (host.drop pos), skips_append hnone]
      exact not_skips_nil
    · obtain ⟨c, run', rfl⟩ := exists_cons_of_ne_nil hrun.1
      have hc : c.isDigit = true := hrun.2 c mem_cons_self
      have hlength := length_of_drop hpos hdrop
      have hpos' : pos + s.length ≤ host.length := by omega
      have hat : host.drop (pos + s.length) = (c :: run') ++ rest := drop_of_append hdrop
      have hbehind : host.drop (pos + s.length + (c :: run').length) = rest := drop_of_append hat
      have hlength' := length_of_drop hpos' hat
      have hskips : ∀ rest', Skips g (host.drop pos) rest' ↔
          (g.contains (decimal (c :: run')) = true ∧ rest' = rest) ∨ Skips g rest rest' := by
        intro rest'
        rw [hdrop, skips_append hs, skips_run hrun hrest]
      rw [findFirst_some (by simpa using hdrop) hs hc]
      dsimp only
      by_cases hcontains : g.contains (decimal (c :: run')) = true
      · rw [(Group.match_eq_iff hg hspace hpos' _).mpr
          ⟨c :: run', _, rest, hat, .plain hrun, hrest, hcontains, rfl⟩]
        refine ⟨nofun, fun q hq => ?_⟩
        cases hq
        simp only [hskips, hcontains, hbehind, true_and, implies_true, and_true]
        simp at hlength' ⊢
        omega
      · have hcontains : g.contains (decimal (c :: run')) = false := by simpa using hcontains
        simp only [hskips, hcontains, Bool.false_eq_true, false_and, false_or]
        have hmatch := Group.match_run_false hspace hpos' hat hrun hrest hcontains
        obtain ⟨p, hp, hmatch⟩ :
          ∃ p, (p = pos + s.length ∨ p = pos + s.length + (c :: run').length) ∧
            g.match host (pos + s.length) = (false, p) := by
          rcases hmatch with h | h
          · exact ⟨_, .inl rfl, h⟩
          · exact ⟨_, .inr rfl, h⟩
        rw [hmatch]
        dsimp only
        rw [findFirst_run hat hrun hrest hp]
        by_cases hend : rest = []
        · rw [if_pos hend]
          subst hend
          exact ⟨fun rest' _ => not_skips_nil, nofun⟩
        · rw [if_neg hend]
          have hnext := @ih (pos + s.length + (c :: run').length) (by omega)
            (by simp at hlength' ⊢; omega)
          rw [hbehind] at hnext
          refine ⟨hnext.1, fun q hq => ?_⟩
          obtain ⟨hlt, hle, hrest⟩ := hnext.2 q hq
          exact ⟨by omega, hle, hrest⟩

end Group

/-! ## Matchers -/

/-- The positions behind what a matcher takes off the host from a position on. -/
def AddressMatcher.Ends (host : Text) (m : AddressMatcher) (pos q : Nat) : Prop :=
  ∃ rest, m.Takes host (host.drop pos) rest ∧ q + rest.length = host.length

variable {m : AddressMatcher}

theorem AddressMatcher.Takes.suffix {h : Text} (htakes : m.Takes host h rest) : rest <:+ h := by
  cases m with
  | matchesAny => exact htakes ▸ nil_suffix
  | startsWithString criteria => exact ⟨criteria, htakes.2.symm⟩
  | endsWithString criteria => exact htakes.2 ▸ nil_suffix
  | matchesString criteria => exact ⟨criteria, htakes.symm⟩
  | containsString criteria =>
    obtain ⟨s, rfl⟩ := htakes
    exact ⟨s ++ criteria, by simp⟩
  | matchesNumber g =>
    obtain ⟨number, v, rfl, -⟩ := htakes
    exact ⟨number, rfl⟩
  | containsNumberMatch g =>
    obtain ⟨s, run, rfl, -⟩ := htakes
    exact ⟨s ++ run, by simp⟩

/-- Where a text that is taken off the end of the host begins. -/
theorem drop_eq_of_suffix {q : Nat} (hsuffix : rest <:+ host) (hq : q + rest.length = host.length) :
    host.drop q = rest := by
  obtain ⟨s, rfl⟩ := hsuffix
  obtain rfl : q = s.length := by simp at hq; omega
  exact drop_left

theorem AddressMatcher.Ends.drop {q : Nat} (h : m.Ends host pos q) :
    m.Takes host (host.drop pos) (host.drop q) ∧ q ≤ host.length := by
  obtain ⟨rest, htakes, hq⟩ := h
  rw [drop_eq_of_suffix (htakes.suffix.trans (drop_suffix pos host)) hq]
  exact ⟨htakes, by omega⟩

/-- A matcher with its retries, as a layer of the search. -/
def AddressMatcher.layer (host : Text) (m : AddressMatcher) : Misc.Layer Nat :=
  ⟨m.match host, m.retry host⟩

theorem startsWithString_ends (criteria : Text) (hpos : pos ≤ host.length) (q : Nat) :
    (startsWithString criteria).match host pos = some q ↔
      (startsWithString criteria).Ends host pos q := by
  simp only [AddressMatcher.match, AddressMatcher.Ends, AddressMatcher.Takes,
    ite_none_right_eq_some, some.injEq]
  constructor
  · rintro ⟨⟨rfl, rest, hrest⟩, rfl⟩
    exact ⟨rest, ⟨rfl, hrest.symm⟩, by rw [← hrest]; simp⟩
  · rintro ⟨rest, ⟨hwhole, hrest⟩, hq⟩
    have hzero : pos = 0 := by
      have hlength := congrArg length hwhole
      rw [length_drop] at hlength
      omega
    subst hzero
    rw [drop_zero] at hrest
    rw [hrest, length_append] at hq
    exact ⟨⟨rfl, rest, hrest.symm⟩, by omega⟩

theorem endsWithString_ends (criteria : Text) (q : Nat) :
    (endsWithString criteria).match host pos = some q ↔
      (endsWithString criteria).Ends host pos q := by
  have hsuffix : criteria <:+ host.drop pos ↔
      ¬ host.length - pos < criteria.length ∧ criteria <:+ host := by
    constructor
    · intro h
      have hlength := h.length_le
      rw [length_drop] at hlength
      exact ⟨by omega, h.trans (drop_suffix pos host)⟩
    · rintro ⟨hlength, h⟩
      exact suffix_of_suffix_length_le h (drop_suffix pos host) (by simp; omega)
  simp only [AddressMatcher.match, AddressMatcher.Ends, AddressMatcher.Takes, hsuffix,
    ite_none_left_eq_some, ite_none_right_eq_some, some.injEq]
  constructor
  · rintro ⟨hlength, hcriteria, rfl⟩
    exact ⟨[], ⟨⟨hlength, hcriteria⟩, rfl⟩, rfl⟩
  · rintro ⟨rest, ⟨⟨hlength, hcriteria⟩, rfl⟩, hq⟩
    exact ⟨hlength, hcriteria, hq.symm⟩

theorem matchesString_ends (criteria : Text) (hpos : pos ≤ host.length) (q : Nat) :
    (matchesString criteria).match host pos = some q ↔
      (matchesString criteria).Ends host pos q := by
  simp only [AddressMatcher.match, AddressMatcher.Ends, AddressMatcher.Takes,
    ite_none_right_eq_some, some.injEq]
  constructor
  · rintro ⟨⟨-, rest, hrest⟩, rfl⟩
    exact ⟨rest, hrest.symm, length_of_drop hpos hrest.symm⟩
  · rintro ⟨rest, hrest, hq⟩
    have hlength := length_of_drop hpos hrest
    exact ⟨⟨by omega, rest, hrest.symm⟩, by omega⟩

theorem matchesNumber_ends (hg : ∀ v, g.contains v = true → FitsInt v)
    (hspace : ∀ c ∈ host, isSpace c = false)
    (hpos : pos ≤ host.length) (q : Nat) : (matchesNumber g).match host pos = some q ↔
      (AddressMatcher.matchesNumber g).Ends host pos q := by
  have hmatch : (matchesNumber g).match host pos = some q ↔
      g.match host pos = (true, q) := by
    rw [AddressMatcher.match]
    rcases g.match host pos with ⟨found, p⟩
    cases found <;> simp
  rw [hmatch, Group.match_eq_iff hg hspace hpos]
  constructor
  · rintro ⟨number, v, rest, hdrop, hnumber, hrest, hcontains, rfl⟩
    exact ⟨rest, ⟨number, v, hdrop, hnumber, hrest, hcontains⟩, length_of_drop hpos hdrop⟩
  · rintro ⟨rest, ⟨number, v, hdrop, hnumber, hrest, hcontains⟩, hq⟩
    have hlength := length_of_drop hpos hdrop
    exact ⟨number, v, rest, hdrop, hnumber, hrest, hcontains, by omega⟩

theorem find_eq_some (hne : criteria ≠ []) {p : Nat} (h : find criteria host pos = some p) :
    pos ≤ p ∧ p + criteria.length ≤ host.length ∧
      findText criteria (host.drop pos) = some (p - pos) := by
  obtain ⟨i, hi, rfl⟩ := map_eq_some_iff.mp h
  obtain ⟨⟨t, ht⟩, -⟩ := findText_eq_some hi
  have hlength := congrArg length ht
  have hpositive := length_pos_of_ne_nil hne
  simp only [length_drop, length_append] at hlength
  rw [Nat.add_sub_cancel_left]
  exact ⟨by omega, by omega, hi⟩

theorem containsString_offers (hne : criteria ≠ []) (hpos : pos ≤ host.length) (q : Nat) :
    ((containsString criteria).layer host).Offers pos q ↔
      (AddressMatcher.containsString criteria).Ends host pos q := by
  have hpositive := length_pos_of_ne_nil hne
  refine Misc.Layer.offers_iff (· ≤ host.length) (host.length - ·) ?_ ?_ hpos q
  · intro p b hp hnone hends
    obtain ⟨s, hs⟩ := hends.drop.1
    have hnone : findText criteria (host.drop p) = none := by
      simpa [AddressMatcher.layer, AddressMatcher.match, find] using hnone
    exact findText_eq_none hnone s (host.drop b) hs
  · intro p q hp hsome
    obtain ⟨i, hi, rfl⟩ := map_eq_some_iff.mp hsome
    obtain ⟨hle, hlength, hfind⟩ := find_eq_some hne hi
    refine ⟨i + 1, by omega, ?_, by omega, fun b => ?_⟩
    · -- the retry goes back to the character behind the start of the last match
      have hback : i + criteria.length - (criteria.length - 1) = i + 1 := by omega
      simp only [layer, retry, hback]
    · have hbehind : p + (i - p + criteria.length) = i + criteria.length := by omega
      have hnext : p + (i - p + 1) = i + 1 := by omega
      simp only [AddressMatcher.Ends, AddressMatcher.Takes, findText_occurrences hfind,
        drop_drop, hbehind, hnext, or_and_right, exists_or, exists_eq_left, length_drop]
      refine or_congr_left ?_
      omega

theorem containsNumberMatch_offers (hg : ∀ v, g.contains v = true → FitsInt v)
    (hspace : ∀ c ∈ host, isSpace c = false) (hpos : pos ≤ host.length) (q : Nat) :
    ((containsNumberMatch g).layer host).Offers pos q ↔
      (containsNumberMatch g).Ends host pos q := by
  refine Misc.Layer.offers_iff (· ≤ host.length) (host.length - ·) ?_ ?_ hpos q
  · intro p b hp hnone hends
    have hspec := Group.search_spec hg hspace hp (show host.length - p < host.length + 1 by omega)
    exact hspec.1 _ hnone hends.drop.1
  · intro p q hp hsome
    have hspec := Group.search_spec hg hspace hp (show host.length - p < host.length + 1 by omega)
    obtain ⟨hlt, hle, hskips⟩ := hspec.2 q hsome
    refine ⟨q, hle, rfl, by omega, fun b => ?_⟩
    simp only [AddressMatcher.Ends, AddressMatcher.Takes, hskips, or_and_right, exists_or,
      exists_eq_left, length_drop]
    refine or_congr_left ?_
    omega

/-- A matcher and its retries offer the ends of what it takes. -/
theorem AddressMatcher.offers (hm : m.WellFormed) (hspace : ∀ c ∈ host, isSpace c = false)
    (hpos : pos ≤ host.length) (q : Nat) : (m.layer host).Offers pos q ↔ m.Ends host pos q := by
  have hsingle {m : AddressMatcher} (hnext : ∀ pos, (m.layer host).next pos = none) :=
    Misc.Layer.offers_of_next_none hnext pos q
  cases m with
  | matchesAny =>
    refine (hsingle fun _ => rfl).trans ?_
    simp [layer, AddressMatcher.match, Ends, Takes, eq_comm]
  | startsWithString criteria =>
    exact (hsingle fun _ => rfl).trans (startsWithString_ends criteria hpos q)
  | endsWithString criteria => exact (hsingle fun _ => rfl).trans (endsWithString_ends criteria q)
  | matchesString criteria =>
    exact (hsingle fun _ => rfl).trans (matchesString_ends criteria hpos q)
  | containsString criteria => exact containsString_offers hm hpos q
  | matchesNumber g => exact (hsingle fun _ => rfl).trans (matchesNumber_ends hm hspace hpos q)
  | containsNumberMatch g => exact containsNumberMatch_offers hm hspace hpos q

/-- Every match is in the host, and every retry behind the match before it. -/
theorem AddressMatcher.sound (hm : m.WellFormed) (hspace : ∀ c ∈ host, isSpace c = false) :
    (m.layer host).Sound (· ≤ host.length) (host.length - ·) (host.length + 1) := by
  constructor
  · intro p q hp hq
    have hends : m.Ends host p q :=
      (offers hm hspace hp q).mp (by rw [Misc.Layer.Offers, hq]; exact .here q)
    exact ⟨hends.drop.2, by omega⟩
  · intro p q hp hq
    cases m with
    | containsString criteria =>
      have hpositive := length_pos_of_ne_nil hm
      obtain ⟨i, hi, rfl⟩ := map_eq_some_iff.mp hq
      obtain ⟨hle, hlength, -⟩ := find_eq_some hm hi
      exact ⟨hlength, by omega⟩
    | containsNumberMatch g =>
      have hspec := Group.search_spec hm hspace hp (show host.length - p < host.length + 1 by omega)
      obtain ⟨hlt, hle, -⟩ := hspec.2 q hq
      exact ⟨hle, by omega⟩
    | _ => cases hq

/-! ## Rules -/

/-- The matchers take a text of the host one behind the other. -/
def Matches (host : Text) : List AddressMatcher → Text → Prop
  | [], h => h = []
  | m :: rules, h => ∃ rest, m.Takes host h rest ∧ Matches host rules rest

theorem matchAddress_eq_search (host : Text) (rules : List AddressMatcher) (index pos : Nat)
    (failed : List Bool) : matchAddress host rules index pos failed =
      Misc.search (· = host.length) (fun index pos => index * (host.length + 1) + pos)
        (host.length + 1) (rules.map (layer host)) index pos failed := by
  induction rules generalizing index pos failed with
  | nil => rfl
  | cons rule rules ih =>
    have htail : matchAddress host rules (index + 1) = _ := funext₂ (ih (index + 1))
    rw [matchAddress, map_cons, Misc.search, htail]
    rfl

theorem reaches_iff_matches {rules : List AddressMatcher} (hrules : ∀ m ∈ rules, m.WellFormed)
    (hspace : ∀ c ∈ host, isSpace c = false) (hpos : pos ≤ host.length) :
    Misc.Reaches (fun p => decide (p = host.length) = true)
        (rules.map (layer host)) pos ↔
      Matches host rules (host.drop pos) := by
  induction rules generalizing pos with
  | nil =>
    simp only [Misc.Reaches, Matches, map_nil, decide_eq_true_eq, drop_eq_nil_iff]
    omega
  | cons m rules ih =>
    have hoffers := offers (hrules m mem_cons_self) hspace hpos
    have ih := fun q hq => @ih q (fun m hm => hrules m (mem_cons_of_mem _ hm)) hq
    simp only [Misc.Reaches, Matches, map_cons, hoffers]
    constructor
    · rintro ⟨q, hends, hreaches⟩
      obtain ⟨htakes, hq⟩ := hends.drop
      exact ⟨host.drop q, htakes, (ih q hq).mp hreaches⟩
    · rintro ⟨rest, htakes, hmatches⟩
      have hsuffix := htakes.suffix.trans (drop_suffix pos host)
      have hlength := hsuffix.length_le
      have hdrop := drop_eq_of_suffix hsuffix (Nat.sub_add_cancel hlength)
      exact ⟨host.length - rest.length, ⟨rest, htakes, by omega⟩,
        (ih _ (by omega)).mpr (hdrop.symm ▸ hmatches)⟩

/-- The search decides whether the matchers take the host. -/
theorem matchAddress_iff {rules : List AddressMatcher} (hrules : ∀ m ∈ rules, m.WellFormed)
    (hspace : ∀ c ∈ host, isSpace c = false) (n : Nat) :
    (matchAddress host rules 0 0 (replicate n false)).1 = true ↔ Matches host rules host := by
  have hkey : ∀ i j p q, p ≤ host.length → q ≤ host.length →
      i * (host.length + 1) + p = j * (host.length + 1) + q → i = j ∧ p = q := by
    intro i j p q hp hq h
    have hdiv := congrArg (· / (host.length + 1)) h
    have hmod := congrArg (· % (host.length + 1)) h
    simp only [Nat.mul_comm _ (host.length + 1), Nat.mul_add_div (Nat.succ_pos _),
      Nat.mul_add_mod, Nat.mod_eq_of_lt (Nat.lt_succ_of_le hp),
      Nat.mod_eq_of_lt (Nat.lt_succ_of_le hq), Nat.div_eq_of_lt (Nat.lt_succ_of_le hp),
      Nat.div_eq_of_lt (Nat.lt_succ_of_le hq)] at hdiv hmod
    exact ⟨by omega, hmod⟩
  have hsound : ∀ l ∈ rules.map (layer host),
      l.Sound (· ≤ host.length) (host.length - ·) (host.length + 1) := by
    intro l hl
    obtain ⟨m, hm, rfl⟩ := mem_map.mp hl
    exact sound (hrules m hm) hspace
  rw [matchAddress_eq_search, search_iff hkey hsound (Nat.zero_le _) n,
    reaches_iff_matches hrules hspace (Nat.zero_le _), drop_zero]

end Ice.Glacier2
