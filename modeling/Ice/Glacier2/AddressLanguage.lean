import Ice.Glacier2.ProxyVerifier
import Ice.Misc.Lists

/-!
# What an address filter means

The language of an entry, read off its text: a literal character stands for itself, `*` for any
text, a group for a run of decimal digits whose value the group lists. The groups of the parser list
what their text says.
-/

namespace Ice.Glacier2

open Misc

/-! ## Groups of numbers -/

def EndsWithDigit (s : Text) : Prop := ∃ c ∈ s.getLast?, c.isDigit = true

/-- A value is the number that an item of a group is, or lies in the range that it is. -/
inductive Item : Text → Int → Prop
  | number {s : Text} {v : Int} (h : Numeral s v) : Item s v
  | range {lower upper : Text} {start stop v : Int} (hlower : Numeral lower start)
      (hupper : Numeral upper stop) (hstart : start ≤ v) (hstop : v ≤ stop) :
      Item (lower ++ '-' :: upper) v

/-- A group lists a value: one of the items between its commas does. -/
def Listed (group : Text) (v : Int) : Prop := ∃ item ∈ group.splitOn ',', Item item v

/-! ## The language -/

/-- The language of an entry. A star directly before a group does not take a digit from it; a run of
    digits is as long as it can be. -/
inductive Language : Text → Text → Prop
  | nil : Language [] []
  | literal {c : Char} {entry host : Text} (hc : c ∉ ['*', '[', ']']) (h : Language entry host) :
      Language (c :: entry) (c :: host)
  | star {entry host : Text} (s : Text) (hs : entry.head? = some '[' → ¬ EndsWithDigit s)
      (h : Language entry host) : Language ('*' :: entry) (s ++ host)
  | group {group run entry host : Text} (hgroup : ']' ∉ group) (hrun : Digits run)
      (hlisted : Listed group (decimal run)) (hhost : ¬ StartsWithDigit host)
      (h : Language entry host) : Language ('[' :: (group ++ ']' :: entry)) (run ++ host)

/-- What the matchers of an entry accept. A group that does not come directly behind a star reads a
    sign, and stars behind each other are one. -/
inductive Accepted : Text → Text → Prop
  | nil : Accepted [] []
  | literal {c : Char} {entry host : Text} (hc : c ∉ ['*', '[', ']']) (h : Accepted entry host) :
      Accepted (c :: entry) (c :: host)
  | group {group number entry host : Text} {v : Int} (hgroup : ']' ∉ group)
      (hnumber : Numeral number v) (hlisted : Listed group v) (hhost : ¬ StartsWithDigit host)
      (h : Accepted entry host) : Accepted ('[' :: (group ++ ']' :: entry)) (number ++ host)
  | star {entry host : Text} (s : Text) (hstar : entry.head? ≠ some '*')
      (hgroup : entry.head? ≠ some '[') (h : Accepted entry host) :
      Accepted ('*' :: entry) (s ++ host)
  | stars {entry host : Text} (h : Accepted ('*' :: entry) host) :
      Accepted ('*' :: '*' :: entry) host
  | starGroup {group run entry host : Text} (s : Text) (hs : ¬ EndsWithDigit s)
      (hgroup : ']' ∉ group) (hrun : Digits run) (hlisted : Listed group (decimal run))
      (hhost : ¬ StartsWithDigit host) (h : Accepted entry host) :
      Accepted ('*' :: '[' :: (group ++ ']' :: entry)) (s ++ (run ++ host))

/-- A group of the entry can be read as taking a sign of the text. -/
inductive Signed : Text → Text → Prop
  | sign {c : Char} {group number entry host : Text} {v : Int} (hc : c ∈ ['+', '-'])
      (hgroup : ']' ∉ group) (hnumber : Numeral (c :: number) v) (hlisted : Listed group v)
      (hhost : ¬ StartsWithDigit host) (h : Accepted entry host) :
      Signed ('[' :: (group ++ ']' :: entry)) (c :: number ++ host)
  | literal {c : Char} {entry host : Text} (hc : c ∉ ['*', '[', ']']) (h : Signed entry host) :
      Signed (c :: entry) (c :: host)
  | group {group number entry host : Text} {v : Int} (hgroup : ']' ∉ group)
      (hnumber : Numeral number v) (hlisted : Listed group v) (hhost : ¬ StartsWithDigit host)
      (h : Signed entry host) : Signed ('[' :: (group ++ ']' :: entry)) (number ++ host)
  | star {entry host : Text} (s : Text) (hstar : entry.head? ≠ some '*')
      (hgroup : entry.head? ≠ some '[') (h : Signed entry host) : Signed ('*' :: entry) (s ++ host)
  | stars {entry host : Text} (h : Signed ('*' :: entry) host) : Signed ('*' :: '*' :: entry) host
  | starGroup {group run entry host : Text} (s : Text) (hs : ¬ EndsWithDigit s)
      (hgroup : ']' ∉ group) (hrun : Digits run) (hlisted : Listed group (decimal run))
      (hhost : ¬ StartsWithDigit host) (h : Signed entry host) :
      Signed ('*' :: '[' :: (group ++ ']' :: entry)) (s ++ (run ++ host))

theorem Signed.accepted {entry host : Text} (h : Signed entry host) : Accepted entry host := by
  induction h with
  | sign _ hgroup hnumber hlisted hhost h => exact .group hgroup hnumber hlisted hhost h
  | literal hc _ ih => exact .literal hc ih
  | group hgroup hnumber hlisted hhost _ ih => exact .group hgroup hnumber hlisted hhost ih
  | star s hstar hgroup _ ih => exact .star s hstar hgroup ih
  | stars _ ih => exact .stars ih
  | starGroup s hs hgroup hrun hlisted hhost _ ih =>
    exact .starGroup s hs hgroup hrun hlisted hhost ih

/-- What is read without a sign is in the language. -/
theorem Accepted.signed_or_language {entry host : Text} (h : Accepted entry host) :
    Signed entry host ∨ Language entry host := by
  induction h with
  | nil => exact .inr .nil
  | literal hc _ ih => exact ih.imp (.literal hc) (.literal hc)
  | group hgroup hnumber hlisted hhost h ih =>
    cases hnumber with
    | plain hrun =>
      exact ih.imp (.group hgroup (.plain hrun) hlisted hhost) (.group hgroup hrun hlisted hhost)
    | plus hrun => exact .inl (.sign (by decide) hgroup (.plus hrun) hlisted hhost h)
    | minus hrun => exact .inl (.sign (by decide) hgroup (.minus hrun) hlisted hhost h)
  | star s hstar hgroup _ ih =>
    exact ih.imp (.star s hstar hgroup) (.star s fun hhead => absurd hhead hgroup)
  | stars _ ih => exact ih.imp .stars (.star [] fun hhead => by cases hhead)
  | starGroup s hs hgroup hrun hlisted hhost _ ih =>
    exact ih.imp (.starGroup s hs hgroup hrun hlisted hhost) fun hlanguage =>
      .star s (fun _ => hs) (.group hgroup hrun hlisted hhost hlanguage)

/-! ## Reading groups -/

theorem comma_not_mem_numeral {s : Text} {v : Int} (h : Numeral s v) : ',' ∉ s := by
  have hdigits : ∀ digits, Digits digits → ',' ∉ digits :=
    fun digits hdigits hmem => absurd (hdigits.2 ',' hmem) (by decide)
  cases h with
  | plain h => exact hdigits _ h
  | plus h | minus h => simp [hdigits _ h]

theorem listed_of_not_mem {s : Text} (hs : ',' ∉ s) (v : Int) : Listed s v ↔ Item s v := by
  simp [Listed, List.splitOn_eq_singleton hs]

theorem listed_append_comma {s : Text} (hs : ',' ∉ s) (rest : Text) (v : Int) :
    Listed (s ++ ',' :: rest) v ↔ Item s v ∨ Listed rest v := by
  simp [Listed, List.splitOn_append_cons_self_of_not_mem hs]

theorem item_numeral_iff {s : Text} {v w : Int} (h : Numeral s v) : Item s w ↔ w = v := by
  constructor
  · intro hitem
    cases hitem with
    | number h' => rw [h'.value_eq, h.value_eq]
    | range hlower =>
      obtain ⟨c, t, hs, hminus⟩ := h.eq_cons
      obtain ⟨c', t', rfl, -⟩ := hlower.eq_cons
      obtain ⟨-, rfl⟩ : c' = c ∧ t' ++ '-' :: _ = t := by simpa using hs
      simp at hminus
  · rintro rfl
    exact .number h

theorem item_range_iff {lower upper : Text} {start stop : Int} (hlower : Numeral lower start)
    (hupper : Numeral upper stop) (v : Int) :
    Item (lower ++ '-' :: upper) v ↔ start ≤ v ∧ v ≤ stop := by
  constructor
  · intro hitem
    obtain ⟨c, t, rfl, ht⟩ := hlower.eq_cons
    generalize hs : c :: t ++ '-' :: upper = s at hitem
    cases hitem with
    | number h =>
      obtain ⟨c', t', rfl, hminus⟩ := h.eq_cons
      obtain ⟨-, rfl⟩ : c = c' ∧ t ++ '-' :: upper = t' := by simpa using hs
      simp at hminus
    | range hlower' hupper' hstart hstop =>
      obtain ⟨c', t', rfl, ht'⟩ := hlower'.eq_cons
      obtain ⟨rfl, htail⟩ := List.cons_eq_cons.mp hs
      obtain ⟨rfl, rfl⟩ := append_cons_inj ht ht' htail
      rw [hlower.value_eq, hupper.value_eq, ← hlower'.value_eq, ← hupper'.value_eq]
      exact ⟨hstart, hstop⟩
  · rintro ⟨hstart, hstop⟩
    exact .range hlower hupper hstart hstop

theorem Group.contains_iff (g : Group) (v : Int) :
    g.contains v = true ↔ v ∈ g.values ∨ ∃ r ∈ g.ranges, r.start ≤ v ∧ v ≤ r.stop := by
  simp [Group.contains]

theorem Group.contains_value (g : Group) (value v : Int) :
    ({ g with values := g.values ++ [value] } : Group).contains v = true ↔
      g.contains v = true ∨ v = value := by
  simp only [Group.contains_iff, List.mem_append, List.mem_singleton]
  exact or_right_comm

theorem Group.contains_range (g : Group) (r : Range) (v : Int) :
    ({ g with ranges := g.ranges ++ [r] } : Group).contains v = true ↔
      g.contains v = true ∨ (r.start ≤ v ∧ v ≤ r.stop) := by
  simp only [Group.contains_iff, List.mem_append, List.mem_singleton, or_and_right, exists_or,
    exists_eq_left, or_assoc]

/-- The loop adds what the text lists to the group. -/
theorem parseGroupLoop_spec {fuel : Nat} {istr : Text} {g g' : Group}
    (hfuel : istr.length < fuel) (hspace : ∀ c ∈ istr, isSpace c = false)
    (h : parseGroupLoop fuel istr g = .ok g') (v : Int) :
    (g'.contains v = true ↔ g.contains v = true ∨ Listed istr v) ∧ (Listed istr v → FitsInt v) := by
  induction fuel generalizing istr g with
  | zero => omega
  | succ fuel ih =>
    rw [parseGroupLoop] at h
    cases hread : readInt istr with
    | none => simp [hread] at h
    | some result =>
      obtain ⟨value, rest⟩ := result
      obtain ⟨number, rfl, hnumber, -, hvalue⟩ := (readInt_eq_some_iff hspace).mp hread
      have hrest : ∀ c ∈ rest, isSpace c = false := fun c hc => hspace c (by simp [hc])
      rw [hread] at h
      dsimp only at h
      rw [dropWhile_isSpace hrest] at h
      split at h
      · cases h
        rw [List.append_nil, g.contains_value, listed_of_not_mem (comma_not_mem_numeral hnumber),
          item_numeral_iff hnumber]
        exact ⟨Iff.rfl, fun heq => heq ▸ hvalue⟩
      · obtain ⟨hcontains, hfits⟩ :=
          ih (by simp at hfuel; omega) (fun c hc => hrest c (by simp [hc])) h
        rw [hcontains, g.contains_value, listed_append_comma (comma_not_mem_numeral hnumber),
          item_numeral_iff hnumber, or_assoc]
        exact ⟨Iff.rfl, fun hor => hor.elim (fun heq => heq ▸ hvalue) hfits⟩
      · next tail =>
        have htail : ∀ c ∈ tail, isSpace c = false := fun c hc => hrest c (by simp [hc])
        split_ifs at h with hend
        cases hread' : readInt tail with
        | none => simp [hread'] at h
        | some result =>
          obtain ⟨stop, rest'⟩ := result
          obtain ⟨number', rfl, hnumber', -, hstop⟩ := (readInt_eq_some_iff htail).mp hread'
          have hrest' : ∀ c ∈ rest', isSpace c = false := fun c hc => htail c (by simp [hc])
          have hcomma : ',' ∉ number ++ '-' :: number' := by
            simp [(comma_not_mem_numeral hnumber), (comma_not_mem_numeral hnumber')]
          rw [hread'] at h
          dsimp only at h
          split_ifs at h with hreversed
          rw [dropWhile_isSpace hrest'] at h
          split at h
          · cases h
            rw [List.append_nil, g.contains_range, listed_of_not_mem hcomma,
              item_range_iff hnumber hnumber']
            exact ⟨Iff.rfl, hvalue.of_le hstop⟩
          · next tail' =>
            have hassoc : number ++ '-' :: (number' ++ ',' :: tail') =
                (number ++ '-' :: number') ++ ',' :: tail' := by simp
            obtain ⟨hcontains, hfits⟩ :=
              ih (by simp at hfuel; omega) (fun c hc => hrest' c (by simp [hc])) h
            rw [hcontains, g.contains_range, hassoc, listed_append_comma hcomma,
              item_range_iff hnumber hnumber', or_assoc]
            exact ⟨Iff.rfl, fun hor => hor.elim (hvalue.of_le hstop) hfits⟩
          · cases h
      · cases h

/-- The numbers of a group of an entry are those that its text lists, and fit. -/
theorem parseGroup_spec {parameter : Text} {g : Group}
    (hspace : ∀ c ∈ parameter, isSpace c = false) (h : parseGroup parameter = .ok g) (v : Int) :
    (g.contains v = true ↔ Listed parameter v) ∧ (g.contains v = true → FitsInt v) := by
  obtain ⟨hcontains, hfits⟩ := parseGroupLoop_spec (Nat.lt_succ_self _) hspace h v
  have hlisted : g.contains v = true ↔ Listed parameter v := by
    rw [hcontains]
    simp [Group.contains]
  exact ⟨hlisted, fun h => hfits (hlisted.mp h)⟩

end Ice.Glacier2
