import Ice.Glacier2.AddressMatching

/-!
# Address filters accept what their entries mean

The parser makes matchers that take exactly the texts that the entry accepts. An endpoint that is
accepted although its host is not in the language of the entry has a host with a minus sign before
zeros; the converse is a group behind two stars.
-/

namespace Ice.Glacier2

open Misc List AddressMatcherFactory

/-! ## Accepted texts -/

/-- A text of characters that stand for themselves. -/
def Literal (s : Text) : Prop := ∀ c ∈ s, c ∉ ['*', '[', ']']

theorem accepted_nil {h : Text} : Accepted [] h ↔ h = [] := by
  constructor
  · intro haccepted
    cases haccepted
    rfl
  · rintro rfl
    exact .nil

theorem accepted_cons {c : Char} (hc : c ∉ ['*', '[', ']']) {entry h : Text} :
    Accepted (c :: entry) h ↔ ∃ rest, h = c :: rest ∧ Accepted entry rest := by
  constructor
  · intro haccepted
    cases haccepted with
    | literal _ haccepted => exact ⟨_, rfl, haccepted⟩
    | group | star | stars | starGroup => exact absurd (by simp) hc
  · rintro ⟨rest, rfl, haccepted⟩
    exact .literal hc haccepted

theorem accepted_append {s : Text} (hs : Literal s) {entry h : Text} :
    Accepted (s ++ entry) h ↔ ∃ rest, h = s ++ rest ∧ Accepted entry rest := by
  induction s generalizing h with
  | nil => simp
  | cons c s ih =>
    have ih := fun h => @ih (fun d hd => hs d (mem_cons_of_mem _ hd)) h
    simp only [cons_append, accepted_cons (hs c mem_cons_self), ih]
    constructor
    · rintro ⟨_, rfl, rest, rfl, haccepted⟩
      exact ⟨rest, rfl, haccepted⟩
    · rintro ⟨rest, rfl, haccepted⟩
      exact ⟨_, rfl, rest, rfl, haccepted⟩

theorem accepted_group {group : Text} (hgroup : ']' ∉ group) {entry h : Text} :
    Accepted ('[' :: (group ++ ']' :: entry)) h ↔
      ∃ number v rest, h = number ++ rest ∧ Numeral number v ∧ Listed group v ∧
        ¬ StartsWithDigit rest ∧ Accepted entry rest := by
  constructor
  · intro haccepted
    generalize htext : '[' :: (group ++ ']' :: entry) = text at haccepted
    cases haccepted with
    | nil => cases htext
    | literal hc =>
      obtain ⟨rfl, -⟩ := cons_eq_cons.mp htext
      exact absurd (by simp) hc
    | group hgroup' hnumber hlisted hhost haccepted =>
      obtain ⟨rfl, rfl⟩ := append_cons_inj hgroup hgroup' (cons_eq_cons.mp htext).2
      exact ⟨_, _, _, rfl, hnumber, hlisted, hhost, haccepted⟩
    | star => cases htext
    | stars => cases htext
    | starGroup => cases htext
  · rintro ⟨number, v, rest, rfl, hnumber, hlisted, hhost, haccepted⟩
    exact .group hgroup hnumber hlisted hhost haccepted

theorem accepted_star {entry : Text} (hstar : entry.head? ≠ some '*')
    (hgroup : entry.head? ≠ some '[') {h : Text} :
    Accepted ('*' :: entry) h ↔ ∃ s rest, h = s ++ rest ∧ Accepted entry rest := by
  constructor
  · intro haccepted
    cases haccepted with
    | literal hc => exact absurd (by simp) hc
    | star s _ _ haccepted => exact ⟨s, _, rfl, haccepted⟩
    | stars => exact absurd rfl hstar
    | starGroup => exact absurd rfl hgroup
  · rintro ⟨s, rest, rfl, haccepted⟩
    exact .star s hstar hgroup haccepted

theorem accepted_star_star {entry h : Text} :
    Accepted ('*' :: '*' :: entry) h ↔ Accepted ('*' :: entry) h := by
  constructor
  · intro haccepted
    cases haccepted with
    | literal hc => exact absurd (by simp) hc
    | star s hstar => exact absurd rfl hstar
    | stars haccepted => exact haccepted
  · exact .stars

theorem accepted_star_group {group : Text} (hgroup : ']' ∉ group) {entry h : Text} :
    Accepted ('*' :: '[' :: (group ++ ']' :: entry)) h ↔
      ∃ s run rest, h = s ++ (run ++ rest) ∧ ¬ EndsWithDigit s ∧ Digits run ∧
        Listed group (decimal run) ∧ ¬ StartsWithDigit rest ∧ Accepted entry rest := by
  constructor
  · intro haccepted
    generalize htext : '*' :: '[' :: (group ++ ']' :: entry) = text at haccepted
    cases haccepted with
    | nil => cases htext
    | literal hc =>
      obtain ⟨rfl, -⟩ := cons_eq_cons.mp htext
      exact absurd (by simp) hc
    | group => cases htext
    | star s _ hopens =>
      obtain ⟨-, rfl⟩ := cons_eq_cons.mp htext
      exact absurd rfl hopens
    | stars => cases htext
    | starGroup s hs hgroup' hrun hlisted hhost haccepted =>
      obtain ⟨-, htail⟩ := cons_eq_cons.mp htext
      obtain ⟨rfl, rfl⟩ := append_cons_inj hgroup hgroup' (cons_eq_cons.mp htail).2
      exact ⟨s, _, _, rfl, hs, hrun, hlisted, hhost, haccepted⟩
  · rintro ⟨s, run, rest, rfl, hs, hrun, hlisted, hhost, haccepted⟩
    exact .starGroup s hs hgroup hrun hlisted hhost haccepted

/-! ## The parser -/

/-- The star that a wildcard factory stands for. -/
def AddressMatcherFactory.pending : AddressMatcherFactory → Text
  | wildCard => ['*']
  | _ => []

namespace Parser

/-- The part of the entry that is read but for which there is no matcher yet. -/
def pending (p : Parser) : Text :=
  p.currentFactory.pending ++ if p.inGroup then '[' :: p.marked else p.marked

/-- The characters since the mark. -/
def Ready (p : Parser) : Prop := if p.inGroup then ']' ∉ p.marked else Literal p.marked

end Parser

theorem create_takes (f : AddressMatcherFactory) {s : Text} (hs : Literal s) (hne : s ≠ [])
    {entry host h : Text} (hstart : f = .start → h = host) :
    (∃ rest, (f.create s).Takes host h rest ∧ Accepted entry rest) ↔
      Accepted (f.pending ++ (s ++ entry)) h := by
  obtain ⟨c, t, rfl⟩ := exists_cons_of_ne_nil hne
  have hc := hs c mem_cons_self
  cases f with
  | start =>
    simp only [create, AddressMatcher.Takes, pending, hstart rfl, true_and, nil_append]
    rw [accepted_append hs]
  | wildCard =>
    have hstar : (c :: t ++ entry).head? ≠ some '*' := by rintro ⟨⟩; simp at hc
    have hgroup : (c :: t ++ entry).head? ≠ some '[' := by rintro ⟨⟩; simp at hc
    simp only [create, AddressMatcher.Takes, pending, singleton_append]
    rw [accepted_star hstar hgroup]
    simp only [accepted_append hs]
    constructor
    · rintro ⟨rest, ⟨s, rfl⟩, haccepted⟩
      exact ⟨s, _, rfl, rest, rfl, haccepted⟩
    · rintro ⟨s, _, rfl, rest, rfl, haccepted⟩
      exact ⟨rest, ⟨s, rfl⟩, haccepted⟩
  | following =>
    simp only [create, AddressMatcher.Takes, pending, nil_append]
    rw [accepted_append hs]

theorem createGroup_takes (f : AddressMatcherFactory) {text : Text} {g : Group} (htext : ']' ∉ text)
    (hg : ∀ v, g.contains v = true ↔ Listed text v) {entry host h : Text} :
    (∃ rest, (f.createGroup g).Takes host h rest ∧ Accepted entry rest) ↔
      Accepted (f.pending ++ '[' :: (text ++ ']' :: entry)) h := by
  have hnumber : (∃ rest, (AddressMatcher.matchesNumber g).Takes host h rest ∧
      Accepted entry rest) ↔
      Accepted ('[' :: (text ++ ']' :: entry)) h := by
    simp only [AddressMatcher.Takes, hg]
    rw [accepted_group htext]
    constructor
    · rintro ⟨rest, ⟨number, v, rfl, hnumber, hrest, hlisted⟩, haccepted⟩
      exact ⟨number, v, rest, rfl, hnumber, hlisted, hrest, haccepted⟩
    · rintro ⟨number, v, rest, rfl, hnumber, hlisted, hrest, haccepted⟩
      exact ⟨rest, ⟨number, v, rfl, hnumber, hrest, hlisted⟩, haccepted⟩
  cases f with
  | start => exact hnumber
  | wildCard =>
    simp only [createGroup, AddressMatcher.Takes, Skips, hg, pending, singleton_append]
    rw [accepted_star_group htext]
    constructor
    · rintro ⟨rest, ⟨s, run, rfl, hs, hrun, hrest, hlisted⟩, haccepted⟩
      exact ⟨s, run, rest, rfl, hs, hrun, hlisted, hrest, haccepted⟩
    · rintro ⟨s, run, rest, rfl, hs, hrun, hlisted, hrest, haccepted⟩
      exact ⟨rest, ⟨s, run, rfl, hs, hrun, hrest, hlisted⟩, haccepted⟩
  | following => exact hnumber

/-- The matchers take the texts that an entry accepts. A matcher for the start of the host is at the
    start of it. -/
structure Parses (f : AddressMatcherFactory) (rules : List AddressMatcher) (entry : Text) :
    Prop where
  wellFormed : ∀ m ∈ rules, m.WellFormed
  matches_iff : ∀ host h, (f = .start → h = host) → (Matches host rules h ↔ Accepted entry h)

variable {rules : List AddressMatcher}

theorem Parses.cons {f f' : AddressMatcherFactory} {m : AddressMatcher}
    {entry entry' : Text} (h : Parses f' rules entry) (hf' : f' ≠ .start) (hm : m.WellFormed)
    (htakes : ∀ host h, (f = .start → h = host) →
      ((∃ rest, m.Takes host h rest ∧ Accepted entry rest) ↔ Accepted entry' h)) :
    Parses f (m :: rules) entry' where
  wellFormed := by
    intro m' hm'
    rcases mem_cons.mp hm' with rfl | hm'
    · exact hm
    · exact h.wellFormed m' hm'
  matches_iff := by
    intro host t hstart
    rw [Matches, ← htakes host t hstart]
    exact exists_congr fun rest =>
      and_congr_right fun _ => h.matches_iff host rest fun heq => absurd heq hf'

/-- A star behind a star, or behind anything else. -/
theorem Parses.pending {entry : Text}
    (h : Parses .wildCard rules ('*' :: entry)) (f : AddressMatcherFactory) :
    Parses f rules (f.pending ++ '*' :: entry) := by
  refine ⟨h.wellFormed, fun host t _ => (h.matches_iff host t nofun).trans ?_⟩
  cases f with
  | start => rfl
  | wildCard => exact accepted_star_star.symm
  | following => rfl

namespace Parser

theorem finish_spec {p : Parser} (hp : p.Ready) (h : p.finish = .ok rules) :
    ∃ new, rules = p.currentRuleSet ++ new ∧ Parses p.currentFactory new p.pending := by
  obtain ⟨ruleSet, f, inGroup, marked⟩ := p
  simp only [finish] at h
  cases inGroup with
  | true => cases h
  | false =>
    have hliteral : Literal marked := hp
    have hnil : Parses .following [] [] := ⟨nofun, fun host h _ => accepted_nil.symm⟩
    have hpending : (pending ⟨ruleSet, f, false, marked⟩) = f.pending ++ (marked ++ []) := by
      simp [pending]
    rw [hpending]
    by_cases hne : marked = []
    · subst hne
      cases f with
      | wildCard =>
        cases h
        refine ⟨[.matchesAny], rfl, hnil.cons (by simp) trivial fun host t _ => ?_⟩
        rw [AddressMatcherFactory.pending, append_nil, append_nil,
          accepted_star (by simp) (by simp)]
        constructor
        · rintro ⟨rest, rfl, hrest⟩
          exact ⟨t, [], (append_nil t).symm, hrest⟩
        · rintro ⟨s, rest, rfl, hrest⟩
          exact ⟨[], rfl, accepted_nil.mp hrest ▸ hrest⟩
      | start | following =>
        cases h
        exact ⟨[], by simp, nofun, fun host t _ => accepted_nil.symm⟩
    · cases f with
      | wildCard =>
        have hends : rules = ruleSet ++ [.endsWithString marked] := by simpa [hne] using h.symm
        refine ⟨[.endsWithString marked], hends,
          hnil.cons (by simp) trivial fun host t hstart => ?_⟩
        rw [← create_takes .wildCard hliteral hne hstart]
        constructor
        · rintro ⟨rest, ⟨⟨s, rfl⟩, rfl⟩, hrest⟩
          exact ⟨[], ⟨s, by simp⟩, hrest⟩
        · rintro ⟨rest, ⟨s, rfl⟩, hrest⟩
          obtain rfl := accepted_nil.mp hrest
          exact ⟨[], ⟨⟨s, by simp⟩, rfl⟩, hrest⟩
      | start =>
        have hends : rules = ruleSet ++ [.startsWithString marked] := by
          simpa [hne, flush, create] using h.symm
        exact ⟨[.startsWithString marked], hends, hnil.cons (by simp) trivial
          fun host t hstart => create_takes .start hliteral hne hstart⟩
      | following =>
        have hends : rules = ruleSet ++ [.matchesString marked] := by
          simpa [hne, flush, create] using h.symm
        exact ⟨[.matchesString marked], hends, hnil.cons (by simp) trivial
          fun host t hstart => create_takes .following hliteral hne hstart⟩

/-- A string before matchers that do not start the host. -/
theorem flush_parses {ruleSet new : List AddressMatcher} {f f' : AddressMatcherFactory}
    {marked entry : Text} (hmarked : Literal marked) (hne : marked ≠ []) (hf' : f' ≠ .start)
    (h : Parses f' new entry) :
    flush ⟨ruleSet, f, false, marked⟩ ++ new = ruleSet ++ (f.create marked :: new) ∧
      Parses f (f.create marked :: new) (f.pending ++ (marked ++ entry)) := by
  refine ⟨by simp [flush, hne], ?_⟩
  exact h.cons hf' (by cases f <;> first | exact hne | trivial) fun host t hstart =>
    create_takes f hmarked hne hstart

/-- The loop adds matchers for what is left of the entry. -/
theorem run_spec {p : Parser} (hp : p.Ready) {rest : Text}
    (hspace : ∀ c ∈ p.marked ++ rest, isSpace c = false) (h : p.run rest = .ok rules) :
    ∃ new, rules = p.currentRuleSet ++ new ∧ Parses p.currentFactory new (p.pending ++ rest) := by
  induction rest generalizing p with
  | nil =>
    rw [append_nil]
    exact finish_spec hp h
  | cons c rest ih =>
    obtain ⟨ruleSet, f, inGroup, marked⟩ := p
    have hrest : ∀ d ∈ rest, isSpace d = false := fun d hd => hspace d (by simp [hd])
    have hready : ∀ ruleSet f inGroup, Ready ⟨ruleSet, f, inGroup, []⟩ := by
      intro ruleSet f inGroup
      cases inGroup <;> simp [Ready, Literal]
    rw [run, foldlM_cons, bind_assoc] at h
    rw [step] at h
    by_cases hstar : c = '*'
    · subst hstar
      cases inGroup with
      | true => cases h
      | false =>
        have hliteral : Literal marked := hp
        obtain ⟨new, rfl, hnew⟩ := ih (hready _ _ _) (by simpa using hrest) h
        have hstars : Parses .wildCard new ('*' :: rest) := hnew
        by_cases hne : marked = []
        · subst hne
          exact ⟨new, rfl, by simpa [pending] using hstars.pending f⟩
        · obtain ⟨hflush, hparses⟩ := flush_parses hliteral hne (by simp) hstars
          exact ⟨_, hflush, by simpa [pending] using hparses⟩
    rw [if_neg hstar] at h
    by_cases hopen : c = '['
    · subst hopen
      cases inGroup with
      | true => cases h
      | false =>
        have hliteral : Literal marked := hp
        obtain ⟨new, rfl, hnew⟩ := ih (hready _ _ _) (by simpa using hrest) h
        by_cases hne : marked = []
        · subst hne
          exact ⟨new, rfl, by simpa [pending] using hnew⟩
        · have hnew : Parses .following new ('[' :: rest) := by
            simpa [pending, hne, AddressMatcherFactory.pending] using hnew
          obtain ⟨hflush, hparses⟩ := flush_parses hliteral hne (by simp) hnew
          exact ⟨_, hflush, by simpa [pending] using hparses⟩
    rw [if_neg hopen] at h
    by_cases hclose : c = ']'
    · subst hclose
      cases inGroup with
      | false => cases h
      | true =>
        have hmarked : ']' ∉ marked := hp
        by_cases hne : marked = []
        · simp [hne] at h
          cases h
        · cases hgroup : parseGroup marked with
          | error e =>
            simp [hne, hgroup] at h
            cases h
          | ok g =>
            have hspec := parseGroup_spec (fun d hd => hspace d (by simp [hd])) hgroup
            simp only [hne, hgroup] at h
            obtain ⟨new, rfl, hnew⟩ := ih (hready _ _ _) (by simpa using hrest) h
            have hnew : Parses .following new rest := hnew
            refine ⟨f.createGroup g :: new, by simp, ?_⟩
            have hparses := hnew.cons (f := f) (by simp)
              (by cases f <;> exact fun v => (hspec v).2)
              fun host t _ => createGroup_takes f hmarked fun v => (hspec v).1
            simpa [pending] using hparses
    rw [if_neg hclose] at h
    have hmarked : Ready ⟨ruleSet, f, inGroup, marked ++ [c]⟩ := by
      cases inGroup with
      | true =>
        have hp : ']' ∉ marked := hp
        simpa [Ready, hp] using Ne.symm hclose
      | false =>
        have hliteral : Literal (marked ++ [c]) := by
          intro d hd
          rcases mem_append.mp hd with hd | hd
          · exact hp d hd
          · obtain rfl := mem_singleton.mp hd
            simp [hstar, hopen, hclose]
        exact hliteral
    obtain ⟨new, rfl, hnew⟩ := ih hmarked (by simpa using hspace) h
    refine ⟨new, rfl, ?_⟩
    cases inGroup <;> simpa [pending] using hnew

end Parser

/-- The matchers of an address take what the address accepts. -/
theorem parseAddress_spec {addr : Text} (hspace : ∀ c ∈ addr, isSpace c = false)
    (h : parseAddress addr = .ok rules) : Parses .start rules addr := by
  have hrun : ({} : Parser).run addr = .ok rules := by
    unfold parseAddress at h
    split_ifs at h with hempty hany
    · subst hany
      exact h
    · exact h
  have hready : ({} : Parser).Ready := fun c hc => absurd hc not_mem_nil
  obtain ⟨new, rfl, hnew⟩ := Parser.run_spec hready hspace hrun
  exact hnew

/-! ## Accepted texts and the language -/

/-- A text of the language is accepted, and so is one with more text before it: before a group, if a
    star is put there, and before a star that is not at a group. -/
theorem accepted_behind_of_language {entry h : Text} (hlanguage : Language entry h)
    (hstars : ¬ ['*', '*', '['] <:+: entry) : Accepted entry h ∧
      (entry.head? = some '[' → ∀ s, ¬ EndsWithDigit s → Accepted ('*' :: entry) (s ++ h)) ∧
      (∀ tail, entry = '*' :: tail → tail.head? ≠ some '[' → ∀ s, Accepted entry (s ++ h)) := by
  induction hlanguage with
  | nil => exact ⟨.nil, nofun, nofun⟩
  | @literal c entry host hc _ ih =>
    have ih := ih fun hwithin => hstars (hwithin.trans (suffix_cons c entry).isInfix)
    refine ⟨.literal hc ih.1, fun hhead => ?_, fun tail htail => ?_⟩
    · obtain rfl : c = '[' := by simpa using hhead
      simp at hc
    · obtain ⟨rfl, -⟩ := cons_eq_cons.mp htail
      simp at hc
  | @star entry host s hs _ ih =>
    have ih := ih fun hwithin => hstars (hwithin.trans (suffix_cons '*' entry).isInfix)
    -- the text of the star, with anything before it unless a group follows
    have hstar : ∀ t, (entry.head? = some '[' → t = []) →
        Accepted ('*' :: entry) (t ++ (s ++ host)) := by
      intro t ht
      by_cases hgroup : entry.head? = some '['
      · rw [ht hgroup]
        exact ih.2.1 hgroup s (hs hgroup)
      by_cases hnext : entry.head? = some '*'
      · obtain ⟨tail, rfl⟩ : ∃ tail, entry = '*' :: tail := by
          cases entry with
          | nil => cases hnext
          | cons c tail => exact ⟨tail, by simpa using hnext⟩
        have htail : tail.head? ≠ some '[' := by
          intro hopen
          cases tail with
          | nil => cases hopen
          | cons c tail =>
            obtain rfl : c = '[' := by simpa using hopen
            exact hstars ⟨[], tail, rfl⟩
        rw [← append_assoc]
        exact .stars (ih.2.2 tail rfl htail (t ++ s))
      · rw [← append_assoc]
        exact .star (t ++ s) hnext hgroup ih.1
    refine ⟨hstar [] fun _ => rfl, nofun, fun tail htail hgroup t => ?_⟩
    obtain ⟨-, rfl⟩ := cons_eq_cons.mp htail
    exact hstar t fun h => absurd h hgroup
  | @group group run entry host hgroup hrun hlisted hhost _ ih =>
    have hsuffix : entry <:+ '[' :: (group ++ ']' :: entry) := ⟨'[' :: (group ++ [']']), by simp⟩
    have ih := ih fun hwithin => hstars (hwithin.trans hsuffix.isInfix)
    exact ⟨.group hgroup (.plain hrun) hlisted hhost ih.1,
      fun _ s hs => .starGroup s hs hgroup hrun hlisted hhost ih.1, nofun⟩

/-! ## Endpoints -/

/-- The characters of host names. -/
def HostChar (c : Char) : Prop := c.isAlphanum = true ∨ c = '-' ∨ c = '_' ∨ c = '.'

theorem isSpace_eq_false {c : Char} (h : 32 < c.toNat) : isSpace c = false := by
  have hle : ∀ d ∈ [' ', '\t', '\n', '\x0b', '\x0c', '\r'], d.toNat ≤ 32 := by simp
  refine decide_eq_false fun hmem => ?_
  exact absurd (hle c hmem) (by omega)

theorem isSpace_toLower (c : Char) : isSpace c.toLower = isSpace c := by
  unfold Char.toLower
  split
  · next h =>
    have hupper : 65 ≤ c.val.toNat ∧ c.val.toNat ≤ 90 := h
    have hshift : ('a'.val - 'A'.val).toNat = 32 := rfl
    have hval : (c.val + ('a'.val - 'A'.val)).toNat = c.val.toNat + 32 := by
      rw [UInt32.toNat_add]
      omega
    rw [isSpace_eq_false (c := c) (by rw [Char.toNat]; omega)]
    have hlarge : 32 < (c.val + ('a'.val - 'A'.val)).toNat := by omega
    exact isSpace_eq_false hlarge
  · rfl

theorem HostChar.not_isSpace {c : Char} (h : HostChar c) : isSpace c = false := by
  rcases h with h | rfl | rfl | rfl
  · apply isSpace_eq_false
    simp only [Char.isAlphanum, Char.isAlpha, Char.isUpper, Char.isLower, Char.isDigit,
      Bool.or_eq_true, Bool.and_eq_true, decide_eq_true_eq, ge_iff_le,
      UInt32.le_iff_toNat_le] at h
    simp at h
    omega
  all_goals decide

theorem isSpace_fold {s : Text} (hs : ∀ c ∈ s, isSpace c = false) (c : Char) (hc : c ∈ fold s) :
    isSpace c = false := by
  have hlower : c ∈ toLower s := by
    unfold fold stripDot at hc
    split_ifs at hc
    · exact dropLast_subset _ hc
    · exact hc
  obtain ⟨d, hd, rfl⟩ := mem_map.mp hlower
  rw [isSpace_toLower]
  exact hs d hd

/-- Characters that do not start the text are skipped. -/
theorem findText_append {p : Char} {s : Text} (hs : p ∉ s) (criteria t : Text) :
    findText (p :: criteria) (s ++ t) = (findText (p :: criteria) t).map (s.length + ·) := by
  induction s with
  | nil => simp
  | cons c s ih =>
    have hc : ¬ p :: criteria <+: c :: (s ++ t) := by
      rintro ⟨u, hu⟩
      obtain ⟨rfl, -⟩ := cons_eq_cons.mp hu
      exact hs mem_cons_self
    rw [cons_append, findText, if_neg hc, ih (not_mem_of_not_mem_cons hs)]
    simp [Option.map_map, Function.comp_def, Nat.add_right_comm]

theorem minus_not_mem_text (p : Protocol) : '-' ∉ p.text := by
  cases p <;> decide

theorem extractPart_host {e : Endpoint} (hne : e.host ≠ []) (hhost : ∀ c ∈ e.host, HostChar c) :
    extractPart "-h ".toList e.toString = some e.host := by
  have hcolon : ':' ∉ e.host := fun hmem => absurd (hhost ':' hmem) (by simp [HostChar])
  have hblank : ∀ c ∈ e.host, decide (c ≠ ' ') = true := by
    intro c hc
    have hspace := (hhost c hc).not_isSpace
    refine decide_eq_true ?_
    rintro rfl
    exact absurd hspace (by decide)
  have htext : e.toString = (e.protocol.text ++ [' ']) ++
      ("-h ".toList ++ (e.host ++ ' ' :: ("-p ".toList ++ (portText e.port ++ e.others)))) := by
    simp [Endpoint.toString, Endpoint.options, hne, hcolon]
  have hminus : '-' ∉ e.protocol.text ++ [' '] := by simp [minus_not_mem_text]
  have hfind : findText "-h ".toList e.toString = some (e.protocol.text ++ [' ']).length := by
    rw [htext]
    refine (findText_append hminus ['h', ' '] _).trans ?_
    simp [findText]
  rw [extractPart, hfind, Option.map_some, htext, ← drop_drop, drop_left, drop_left,
    takeWhile_append_of_pos hblank]
  simp

theorem extractPart_no_host {e : Endpoint} (hempty : e.host = [])
    (hothers : findText "-h ".toList e.others = none) :
    extractPart "-h ".toList e.toString = none := by
  have hminus : '-' ∉ e.protocol.text ++ [' '] := by simp [minus_not_mem_text]
  have hdigits : '-' ∉ Nat.toDigits 10 e.port.natAbs := fun hmem =>
    absurd (Nat.isDigit_of_mem_toDigits (by decide) (by decide) hmem) (by decide)
  have hskip : ∀ s, '-' ∉ s → ∀ t, findText "-h ".toList t = none →
      findText "-h ".toList (s ++ t) = none := by
    intro s hs t ht
    refine (findText_append hs ['h', ' '] t).trans ?_
    rw [Option.map_eq_none_iff]
    exact ht
  -- a minus that is not before the option
  have hother : ∀ c t, c ≠ 'h' → findText "-h ".toList (c :: t) = none →
      findText "-h ".toList ('-' :: c :: t) = none := by
    intro c t hc ht
    have hprefix : ¬ "-h ".toList <+: '-' :: c :: t := by
      rintro ⟨u, hu⟩
      obtain ⟨-, hu⟩ := cons_eq_cons.mp hu
      exact hc (cons_eq_cons.mp hu).1.symm
    rw [findText, if_neg hprefix, ht]
    rfl
  have hport : findText "-h ".toList (portText e.port ++ e.others) = none := by
    have hnat := hskip _ hdigits _ hothers
    unfold portText
    split_ifs
    · obtain ⟨d, digits, htoDigits⟩ := exists_cons_of_ne_nil
        (Nat.toDigits_ne_nil (n := e.port.natAbs) (b := 10))
      have hd : d.isDigit = true :=
        Nat.isDigit_of_mem_toDigits (b := 10) (by decide) (by decide) (htoDigits ▸ mem_cons_self)
      rw [htoDigits] at hnat ⊢
      exact hother d _ (by rintro rfl; exact absurd hd (by decide)) hnat
    · exact hnat
  have htext : e.toString = (e.protocol.text ++ [' ']) ++
      ('-' :: 'p' :: ([' '] ++ (portText e.port ++ e.others))) := by
    simp [Endpoint.toString, Endpoint.options, hempty]
  have hnone : findText "-h ".toList e.toString = none := by
    rw [htext]
    refine hskip _ hminus _ (hother 'p' _ (by decide) ?_)
    exact hskip ['p', ' '] (by decide) _ hport
  rw [extractPart, hnone]
  rfl

theorem extractPart_port (e : Endpoint) :
    ∃ port, extractPart "-p ".toList e.toString = some port := by
  cases hfind : findText "-p ".toList e.toString with
  | some i => exact ⟨_, by rw [extractPart, hfind]; rfl⟩
  | none =>
    refine absurd ?_ (findText_eq_none hfind
      (e.protocol.text ++ ((if e.host = [] then []
        else if ':' ∈ e.host then " -h ".toList ++ '"' :: (e.host ++ ['"'])
        else " -h ".toList ++ e.host) ++ [' '])) (portText e.port ++ e.others))
    simp [Endpoint.toString, Endpoint.options]

/-! ## Entries -/

theorem isSpace_entriesLoop {fuel : Nat} {input entry : Text} (h : entry ∈ entriesLoop fuel input) :
    ∀ c ∈ entry, isSpace c = false := by
  have hword : ∀ s : Text, ∀ c ∈ s.takeWhile (!isSpace ·), isSpace c = false := by
    intro s c hc
    have hall := all_eq_true.mp (all_takeWhile (p := (!isSpace ·)) (l := s)) c hc
    simpa using hall
  induction fuel generalizing input with
  | zero => cases h
  | succ fuel ih =>
    rw [entriesLoop] at h
    split at h
    · obtain rfl := mem_singleton.mp h
      exact hword _
    · rcases mem_cons.mp h with rfl | h
      · exact hword _
      · exact ih h

theorem mapM_zip {α β ε : Type} {f : α → Except ε β} {as : List α} {bs : List β}
    (h : as.mapM f = .ok bs) {a : α} {b : β} (hmem : (a, b) ∈ as.zip bs) : f a = .ok b := by
  induction as generalizing bs with
  | nil => simp at hmem
  | cons a' as ih =>
    rw [mapM_cons] at h
    cases hf : f a' with
    | error e =>
      rw [hf] at h
      cases h
    | ok b' =>
      cases hmap : as.mapM f with
      | error e =>
        rw [hf, hmap] at h
        cases h
      | ok bs' =>
        rw [hf, hmap] at h
        cases h
        rcases mem_cons.mp hmem with heq | hmem
        · cases heq
          exact hf
        · exact ih hmap hmem

theorem parseEntry_spec {matchAny : Bool} {entry : Text} (hport : ':' ∉ entry)
    {rule : AddressRule} (h : parseEntry matchAny entry = .ok rule) :
    rule.portMatcher = none ∧ parseAddress (fold entry) = .ok rule.addressRules := by
  have hfind : findText [':'] entry = none := by
    have hskip := findText_append hport [] []
    rwa [append_nil] at hskip
  simp only [parseEntry, hfind] at h
  cases haddress : parseAddress (fold entry) with
  | error e =>
    rw [haddress] at h
    cases h
  | ok address =>
    rw [haddress] at h
    cases h
    exact ⟨rfl, rfl⟩

/-- A rule accepts an endpoint exactly when its host is in the language of its entry, if and only if
    the host is not empty, or not in the language, and no sign in the host and no stars behind each
    other in the entry are misread. The options of an endpoint without a host must not look like
    one. -/
theorem matchEndpoint_language_iff {property : Text} {matchAny : Bool} {rules : List AddressRule}
    (hrules : parseProperty property matchAny = .ok rules) {entry : Text} {rule : AddressRule}
    (hentry : (entry, rule) ∈ (entries property).zip rules) (hport : ':' ∉ entry) (e : Endpoint)
    (hhost : ∀ c ∈ e.host, HostChar c)
    (hothers : e.host = [] → findText "-h ".toList e.others = none) :
    (rule.matchEndpoint e = true ↔ Language (fold entry) (fold e.host)) ↔
      if e.host = [] then ¬ Language (fold entry) []
      else
        -- a group takes a sign of the host only where the host can also be read without
        (Signed (fold entry) (fold e.host) → Language (fold entry) (fold e.host)) ∧
        -- a text before a group does not need the first of two stars
        (['*', '*', '['] <:+: fold entry → Language (fold entry) (fold e.host) →
          Accepted (fold entry) (fold e.host)) := by
  obtain ⟨hnoport, haddress⟩ := parseEntry_spec hport (mapM_zip hrules hentry)
  have hspace := isSpace_fold (isSpace_entriesLoop (of_mem_zip hentry).1)
  have hparses := parseAddress_spec hspace haddress
  split_ifs with hempty
  · rw [AddressRule.matchEndpoint, extractPart_no_host hempty (hothers hempty), hempty]
    simp [fold, toLower, stripDot]
  · obtain ⟨port, hextract⟩ := extractPart_port e
    have hhostSpace := isSpace_fold fun c hc => (hhost c hc).not_isSpace
    simp only [AddressRule.matchEndpoint, extractPart_host hempty hhost, hextract, hnoport,
      Option.any_none, Bool.false_eq_true, if_false]
    rw [matchAddress_iff hparses.wellFormed hhostSpace,
      hparses.matches_iff (fold e.host) (fold e.host) fun _ => rfl]
    constructor
    · intro h
      exact ⟨fun hsigned => h.mp hsigned.accepted, fun _ => h.mpr⟩
    · rintro ⟨hsound, hcomplete⟩
      refine ⟨fun haccepted => haccepted.signed_or_language.elim hsound id, fun hlanguage => ?_⟩
      by_cases hstars : ['*', '*', '['] <:+: fold entry
      · exact hcomplete hstars hlanguage
      · exact (accepted_behind_of_language hlanguage hstars).1

theorem language_cons {c : Char} (hc : c ∉ ['*', '[', ']']) {d : Char} {entry h : Text}
    (hlanguage : Language (c :: entry) (d :: h)) : Language entry h := by
  generalize htext : d :: h = text at hlanguage
  cases hlanguage with
  | literal _ hlanguage => exact (cons_eq_cons.mp htext).2 ▸ hlanguage
  | star | group => exact absurd (by simp) hc

theorem startsWithDigit_of_language {entry h : Text} (hlanguage : Language ('[' :: entry) h) :
    StartsWithDigit h := by
  generalize htext : '[' :: entry = text at hlanguage
  cases hlanguage with
  | nil => cases htext
  | literal hc =>
    obtain ⟨rfl, -⟩ := cons_eq_cons.mp htext
    exact absurd (by simp) hc
  | star => cases htext
  | group _ hrun => exact hrun.startsWithDigit _

/-- The entry `foo[0]` and the host `foo-0`. -/
theorem matchEndpoint_minus_zero :
    let rule : AddressRule :=
      ⟨[.startsWithString "foo".toList, .matchesNumber ⟨[0], []⟩], none, false⟩
    let e : Endpoint := ⟨.tcp, "foo-0".toList, 4061, []⟩
    parseProperty "foo[0]".toList false = .ok [rule] ∧ rule.matchEndpoint e = true ∧
      ¬ Language (fold "foo[0]".toList) (fold e.host) := by
  refine ⟨rfl, by decide, fun hlanguage => ?_⟩
  have hgroup : Language "[0]".toList "-0".toList :=
    language_cons (by decide) (language_cons (by decide) (language_cons (by decide) hlanguage))
  obtain ⟨c, hc, hdigit⟩ := startsWithDigit_of_language hgroup
  cases hc
  exact absurd hdigit (by decide)

/-- The condition holds for the entry `foo[1-3]` and the host `Foo2.`. -/
theorem matchEndpoint_language_iff_foo :
    let rule : AddressRule :=
      ⟨[.startsWithString "foo".toList, .matchesNumber ⟨[], [⟨1, 3⟩]⟩], none, false⟩
    let e : Endpoint := ⟨.tcp, "Foo2.".toList, 4061, []⟩
    rule.matchEndpoint e = true ↔ Language (fold "foo[1-3]".toList) (fold e.host) := by
  intro rule e
  have hrules : parseProperty "foo[1-3]".toList false = .ok [rule] := rfl
  have hentry : ("foo[1-3]".toList, rule) ∈ (entries "foo[1-3]".toList).zip [rule] := by decide
  have hone : Numeral ['1'] (decimal ['1']) := .plain (by simp [Digits])
  have hthree : Numeral ['3'] (decimal ['3']) := .plain (by simp [Digits])
  have hrange : Item (['1'] ++ '-' :: ['3']) (decimal ['2']) :=
    .range hone hthree (by decide) (by decide)
  have hgroup : Language ('[' :: ((['1'] ++ '-' :: ['3']) ++ ']' :: [])) (['2'] ++ []) :=
    .group (by decide) (by simp [Digits]) ⟨_, mem_singleton.mpr rfl, hrange⟩
      not_startsWithDigit_nil .nil
  have hlanguage : Language (fold "foo[1-3]".toList) (fold e.host) :=
    .literal (by decide) (.literal (by decide) (.literal (by decide) hgroup))
  refine (matchEndpoint_language_iff hrules hentry (by decide) e (by simp [e, HostChar])
    fun _ => rfl).mpr ?_
  refine ⟨fun _ => hlanguage, fun hstars => ?_⟩
  exact absurd (hstars.subset mem_cons_self) (by decide)

end Ice.Glacier2
